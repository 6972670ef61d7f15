/-
  MetaQuery/Proofs/Query/Paging.lean
  ==================================
  Pages are counted exactly.

  What a page size and a page number mean is said in natural numbers: each is the first positive
  number that the request has under a name for it, however great, or else the number of the model
  (`Model.sizeInEffect`, `Model.pageInEffect`).  A query is compiled with words instead, where a
  number beyond all words is read as the greatest one.  This makes no difference: what a datasource
  takes is far below (`inRange_min_iff`), so the stretch of a page is the one in natural numbers, or
  the page is refused (`Model.pages_exact`).  Done step by step, no step but the product can leave
  the words, and that one is asked whether it does (`windowBySteps_eq`).
-/
import MetaQuery.Proofs.Query.Fetching
import MetaQuery.Service.Answer

namespace MetaQuery

/-! ### Numbers of a request -/

/-- The greatest word. -/
def wordMax : Nat := 0xffffffffffffffff

theorem toNat_le_wordMax (n : UInt64) : n.toNat ≤ wordMax := Nat.le_of_lt_succ n.toNat_lt

theorem toNat_ofNat_of_le {n : Nat} (h : n ≤ wordMax) : (UInt64.ofNat n).toNat = n :=
  UInt64.toNat_ofNat_of_lt (Nat.lt_succ_of_le h)

theorem map_min_wordMax (word? : Option UInt64) :
    (word?.map UInt64.toNat).map (min · wordMax) = word?.map UInt64.toNat := by
  cases word? with
  | none => rfl
  | some w => exact congrArg some (Nat.min_eq_left (toNat_le_wordMax w))

/-- The whole part of a double, however great.  An infinite double, which no document holds, is
    beyond all words. -/
def Decimal.whole (x : Float) : Nat :=
  match parts x with
  | .notANumber => 0
  | .infinite negative => if negative then 0 else wordMax + 1
  | .finite negative m e => if negative then 0 else wholePart m e

/-- A double becomes the word of its whole part, or the greatest one. -/
theorem Decimal.toNat_toUInt64 (x : Float) : (toUInt64 x).toNat = min (whole x) wordMax := by
  have hclamped : (clampToRange 0 wordMax x).toNat = min (whole x) wordMax := by
    unfold clampToRange whole
    -- the cast saturates: negative values and NaN go to zero, large ones to the greatest word
    cases parts x with
    | notANumber => simp
    | infinite negative => cases negative <;> simp
    | finite negative m e =>
      cases negative with
      | true =>
        change (max 0 (min (wordMax : Int) (-(wholePart m e : Int)))).toNat = min 0 wordMax
        omega
      | false =>
        change (max 0 (min (wordMax : Int) (wholePart m e))).toNat = min (wholePart m e) wordMax
        omega
  have hword : toUInt64 x = UInt64.ofNat (clampToRange 0 wordMax x).toNat := rfl
  rw [hword, hclamped, toNat_ofNat_of_le (Nat.min_le_right _ _)]

theorem Decimal.map_toNat_uint64? (cs : List Char) :
    (uint64? cs).map UInt64.toNat = natBelow? UInt64.size cs := by
  rw [uint64?]
  cases h : natBelow? UInt64.size cs with
  | none => rfl
  | some n =>
    have hlt : n < UInt64.size := of_decide_eq_true (Option.filter_eq_some_iff.1 h).2
    exact congrArg some (UInt64.toNat_ofNat_of_lt hlt)

/-- The number that a value of a request stands for, however great. -/
def Json.number? : Json → Option Nat
  | .int i => if 0 ≤ i ∧ i < UInt64.size then some i.toNat else none
  | .float x => if 1.0 ≤ x then some (Decimal.whole x) else none
  | .str s => Decimal.natBelow? UInt64.size (Text.trimBlanks s.toList)
  | _ => none

theorem Json.map_toNat_word? (i : Int) :
    (Json.int i).word?.map UInt64.toNat = (Json.int i).number? := by
  rw [word?.eq_def, number?]
  dsimp only
  split
  · next h =>
    have hlt : i.toNat < UInt64.size := by omega
    exact congrArg some (UInt64.toNat_ofNat_of_lt hlt)
  · rfl

/-- The positive number that a request has under a name. -/
def askedNumber? (params : Params) (name : String) : Option Nat :=
  ((Json.lookup name params).bind Json.number?).filter (0 < ·)

/-- Both are missing, or the word is the number or the greatest word. -/
theorem missing_or_capped {word? : Option UInt64} {n? : Option Nat}
    (h : word?.map UInt64.toNat = n?.map (min · wordMax)) :
    word? = none ∧ n? = none ∨
      ∃ w n, word? = some w ∧ n? = some n ∧ w.toNat = min n wordMax := by
  cases word? with
  | none =>
    cases n? with
    | none => exact .inl ⟨rfl, rfl⟩
    | some n => cases h
  | some w =>
    cases n? with
    | none => cases h
    | some n => exact .inr ⟨w, n, rfl, rfl, Option.some.inj h⟩

theorem map_filter_positive {word? : Option UInt64} {n? : Option Nat}
    (h : word?.map UInt64.toNat = n?.map (min · wordMax)) :
    (word?.filter (0 < ·)).map UInt64.toNat = (n?.filter (0 < ·)).map (min · wordMax) := by
  obtain ⟨rfl, rfl⟩ | ⟨w, n, rfl, rfl, hw⟩ := missing_or_capped h
  · rfl
  · have hpos : 0 < w ↔ 0 < n := by
      rw [UInt64.lt_iff_toNat_lt, hw, UInt64.toNat_zero, Nat.lt_min, wordMax]
      exact and_iff_left (by decide)
    by_cases hn : 0 < n
    · simp [Option.filter, hn, hpos, hw]
    · simp [Option.filter, hn, hpos]

theorem toNat_getD {word? : Option UInt64} {n? : Option Nat}
    (h : word?.map UInt64.toNat = n?.map (min · wordMax)) (own : UInt64) :
    (word?.getD own).toNat = min (n?.getD own.toNat) wordMax := by
  obtain ⟨rfl, rfl⟩ | ⟨w, n, rfl, rfl, hw⟩ := missing_or_capped h
  · exact (Nat.min_eq_left (toNat_le_wordMax own)).symm
  · exact hw

/-- **A number of a request is read exactly, or as the greatest word.** -/
theorem map_toNat_positiveParam? (params : Params) (name : String) :
    (positiveParam? params name).map UInt64.toNat =
      (askedNumber? params name).map (min · wordMax) := by
  refine map_filter_positive ?_
  rcases Json.lookup name params with _ | v
  · rfl
  · rw [Option.bind_some]
    cases v with
    | int i =>
      change (Json.int i).word?.map _ = _
      rw [← Json.map_toNat_word?, map_min_wordMax]
    -- the cast saturates at the greatest word, which is where the asked number is cut
    | float x =>
      change Option.map _ (if 1.0 ≤ x then some (Decimal.toUInt64 x) else none) = _
      rw [Json.number?]
      split
      · exact congrArg some (Decimal.toNat_toUInt64 x)
      · rfl
    | str s =>
      change (Decimal.uint64? _).map _ = _
      rw [Json.number?, ← Decimal.map_toNat_uint64?, map_min_wordMax]
    | null => rfl
    | bool b => rfl
    | arr items => rfl
    | obj members => rfl

/-! ### The page in effect -/

namespace Model

variable {m : Model} {params : Params}

/-- The page size in effect: of the request under the first name or else the second, and else of
    the model; zero when none is given. -/
def sizeInEffect (m : Model) (params : Params) : Nat :=
  ((askedNumber? params "page_size").or (askedNumber? params "limit")).getD
    (m.limit.elim 0 (·.limit.toNat))

/-- The page in effect, of the request or else of the model; pages count from one. -/
def pageInEffect (m : Model) (params : Params) : Nat :=
  max ((askedNumber? params "page").getD (m.limit.elim 0 (·.page.toNat))) 1

theorem toNat_pageSize (m : Model) (params : Params) :
    (m.pageSize params).toNat = min (m.sizeInEffect params) wordMax := by
  have hasked : ((positiveParam? params "page_size").or (positiveParam? params "limit")).map
      UInt64.toNat = ((askedNumber? params "page_size").or (askedNumber? params "limit")).map
        (min · wordMax) := by
    rw [Option.map_or, Option.map_or, map_toNat_positiveParam?, map_toNat_positiveParam?]
  rw [pageSize, toNat_getD hasked, sizeInEffect]
  cases m.limit with
  | none => rfl
  | some l => rfl

theorem max_toNat_pageNumber (m : Model) (params : Params) :
    max (m.pageNumber params).toNat 1 = min (m.pageInEffect params) wordMax := by
  rw [pageNumber, toNat_getD (map_toNat_positiveParam? params "page"), pageInEffect]
  have hone : 1 ≤ wordMax := by decide
  cases m.limit with
  | none =>
    dsimp only [Option.elim]
    rw [UInt64.toNat_zero]
    omega
  | some l =>
    dsimp only [Option.elim]
    omega

end Model

/-! ### Stretches -/

/-- Datasources take both numbers of the stretch that a page of some size is. -/
def InRange (size page : Nat) : Prop := size ≤ windowMax ∧ (page - 1) * size ≤ windowMax

instance (size page : Nat) : Decidable (InRange size page) := inferInstanceAs (Decidable (_ ∧ _))

theorem InRange.page_le {size page : Nat} (h : InRange size page) (hsize : 0 < size) :
    page ≤ windowMax + 1 := by
  have hle : page - 1 ≤ (page - 1) * size := Nat.le_mul_of_pos_right _ hsize
  have hoffset := h.2
  omega

theorem windowMax_lt : windowMax + 1 < wordMax := by decide

/-- A stretch that datasources take is made of words. -/
theorem InRange.min_eq {size page : Nat} (h : InRange size page) (hsize : 0 < size) :
    min size wordMax = size ∧ min page wordMax = page := by
  have hmax := windowMax_lt
  have hpage := h.page_le hsize
  have hsize' := h.1
  omega

/-- It makes no difference that numbers beyond all words are read as the greatest one. -/
theorem inRange_min_iff {size : Nat} (hsize : 0 < size) (page : Nat) :
    InRange (min size wordMax) (min page wordMax) ↔ InRange size page := by
  constructor
  · intro h
    have hmax := windowMax_lt
    have hcapped : 0 < min size wordMax := by omega
    have hpage := h.page_le hcapped
    have hsize' := h.1
    have hsame : min size wordMax = size := by omega
    have hsame' : min page wordMax = page := by omega
    rwa [hsame, hsame'] at h
  · intro h
    obtain ⟨hsame, hsame'⟩ := h.min_eq hsize
    rwa [hsame, hsame']

/-- A stretch takes the rows of the page of some size. -/
structure Window.Takes (w : Window) (size page : Nat) : Prop where
  limit : w.limit.toNat = size
  offset : w.offset.toNat = (page - 1) * size

theorem windowOf_zero (page : UInt64) : windowOf page 0 = .ok none := by
  rw [windowOf, if_pos rfl]

theorem windowOf_of_inRange {page limit : UInt64} (hlimit : limit ≠ 0)
    (h : InRange limit.toNat (max page.toNat 1)) :
    ∃ w, windowOf page limit = .ok (some w) ∧ w.Takes limit.toNat (max page.toNat 1) := by
  have hsame : max page.toNat 1 - 1 = page.toNat - 1 := by omega
  have hmax := windowMax_lt
  have hoffset := h.2
  rw [hsame] at hoffset
  refine ⟨⟨limit, .ofNat ((page.toNat - 1) * limit.toNat)⟩, ?_, rfl, ?_⟩
  · rw [windowOf, if_neg hlimit, if_pos ⟨h.1, hoffset⟩]
  · rw [hsame, toNat_ofNat_of_le (by omega)]

theorem windowOf_of_not_inRange {page limit : UInt64} (hlimit : limit ≠ 0)
    (h : ¬ InRange limit.toNat (max page.toNat 1)) :
    windowOf page limit = .error (.invalid "page" (.pageOutOfRange page)) := by
  have hsame : max page.toNat 1 - 1 = page.toNat - 1 := by omega
  rw [InRange, hsame] at h
  rw [windowOf, if_neg hlimit, if_neg h]

/-- A stretch that is not refused takes the rows of the page. -/
theorem takes_of_windowOf {page limit : UInt64} (hlimit : limit ≠ 0) {window : Option Window}
    (h : windowOf page limit = .ok window) :
    ∃ w, window = some w ∧ w.Takes limit.toNat (max page.toNat 1) ∧
      InRange limit.toNat (max page.toNat 1) := by
  by_cases hrange : InRange limit.toNat (max page.toNat 1)
  · obtain ⟨w, hw, htakes⟩ := windowOf_of_inRange hlimit hrange
    rw [hw] at h
    exact ⟨w, (Except.ok.inj h).symm, htakes, hrange⟩
  · rw [windowOf_of_not_inRange hlimit hrange] at h
    cases h

/-- There is a stretch just when there is a page size. -/
theorem ne_none_iff_of_windowOf {page limit : UInt64} {window : Option Window}
    (h : windowOf page limit = .ok window) : window ≠ none ↔ limit ≠ 0 := by
  by_cases hzero : limit = 0
  · rw [hzero, windowOf_zero] at h
    simp [← Except.ok.inj h, hzero]
  · obtain ⟨w, rfl, -⟩ := takes_of_windowOf hzero h
    simp [hzero]

namespace Window.Takes

variable {w : Window} {size page : Nat} (h : w.Takes size page) (hsize : 0 < size)
include h hsize

theorem limit_pos : 0 < w.limit := by
  rw [UInt64.lt_iff_toNat_lt, h.limit]
  exact hsize

theorem toNat_quotient : (w.offset / w.limit).toNat = page - 1 := by
  rw [UInt64.toNat_div, h.limit, h.offset, Nat.mul_div_cancel _ hsize]

/-- A page knows its number and its size. -/
theorem page_of (hpage : 1 ≤ page) (hrange : InRange size page) (rows : List Record)
    (total : Int64) : (Page.of rows total (some w)).number.toNat = page ∧
      (Page.of rows total (some w)).size.toNat = size := by
  have hle := hrange.page_le hsize
  have hlt : page - 1 + 1 < 2 ^ 64 := by
    have hmax : windowMax + 2 < 2 ^ 64 := by decide
    omega
  rw [Page.of, if_pos (h.limit_pos hsize)]
  refine ⟨?_, h.limit⟩
  rw [UInt64.toNat_add, h.toNat_quotient hsize, UInt64.toNat_one, Nat.mod_eq_of_lt hlt]
  omega

end Window.Takes

namespace Model

variable {m : Model} {params : Params}

theorem window_of_no_size (h : m.sizeInEffect params = 0) : m.window params = .ok none := by
  have hzero : m.pageSize params = 0 := by
    rw [← UInt64.toNat_inj, toNat_pageSize, h]
    rfl
  rw [window, hzero, windowOf_zero]

section
variable (hsize : 0 < m.sizeInEffect params)
include hsize

theorem pageSize_ne_zero : m.pageSize params ≠ 0 := by
  intro hzero
  have hcapped := toNat_pageSize m params
  have hone : 1 ≤ wordMax := by decide
  rw [hzero, UInt64.toNat_zero] at hcapped
  omega

/-- The words are in range just when the numbers that they stand for are. -/
theorem inRange_words_iff :
    InRange (m.pageSize params).toNat (max (m.pageNumber params).toNat 1) ↔
      InRange (m.sizeInEffect params) (m.pageInEffect params) := by
  rw [toNat_pageSize, max_toNat_pageNumber, inRange_min_iff hsize]

theorem window_of_inRange (h : InRange (m.sizeInEffect params) (m.pageInEffect params)) :
    ∃ w, m.window params = .ok (some w) ∧
      w.Takes (m.sizeInEffect params) (m.pageInEffect params) := by
  obtain ⟨w, hw, htakes⟩ := windowOf_of_inRange (pageSize_ne_zero hsize)
    ((inRange_words_iff hsize).2 h)
  obtain ⟨hsame, hsame'⟩ := h.min_eq hsize
  rw [toNat_pageSize, max_toNat_pageNumber, hsame, hsame'] at htakes
  exact ⟨w, hw, htakes⟩

theorem window_of_not_inRange (h : ¬ InRange (m.sizeInEffect params) (m.pageInEffect params)) :
    m.window params = .error (.invalid "page" (.pageOutOfRange (m.pageNumber params))) :=
  windowOf_of_not_inRange (pageSize_ne_zero hsize) (mt (inRange_words_iff hsize).1 h)

end

/-- The model has rows to select from: those of a table, or of a text written by hand. -/
def HasSource (m : Model) : Prop :=
  if m.isRaw = true then m.rawText ≠ [] else ∃ t, m.mainTable = .ok t

/-- With something to select from, only the page can be refused. -/
theorem exists_compile (h : m.HasSource) (params : Params) :
    ∃ query : Option Window → Select, (∀ window, (query window).window = window) ∧
      m.compile params = (m.window params).map query := by
  rw [HasSource] at h
  split at h
  · next hraw =>
    refine ⟨fun window => { Select.all m.dialect (m.rawSource params) with window := window },
      fun _ => rfl, ?_⟩
    rw [compile, if_pos hraw, compileRaw_eq, if_neg (by simpa using h)]
  · next hraw =>
    obtain ⟨t, htable⟩ := h
    rw [compile, if_neg hraw, compileEntries_eq, target, htable]
    exact ⟨_, fun _ => rfl, rfl⟩

end Model

/-! ### Steps on words -/

namespace Exact

/-- The difference of two words, when it is a word. -/
def sub? (a b : UInt64) : Option UInt64 := if b ≤ a then some (a - b) else none

/-- The product of two words, when it is a word. -/
def mul? (a b : UInt64) : Option UInt64 :=
  if a.toNat * b.toNat ≤ wordMax then some (a * b) else none

/-- The quotient of two words, when there is one. -/
def div? (a b : UInt64) : Option UInt64 := if b = 0 then none else some (a / b)

/-- The sum of two words, when it is a word. -/
def add? (a b : UInt64) : Option UInt64 :=
  if a.toNat + b.toNat ≤ wordMax then some (a + b) else none

end Exact

/-- The stretch with an offset, when there is one and both numbers are in range. -/
def windowAt (page limit : UInt64) : Option UInt64 → Except Fault (Option Window)
  | some offset =>
    if limit.toNat ≤ windowMax ∧ offset.toNat ≤ windowMax then .ok (some ⟨limit, offset⟩)
    else .error (.invalid "page" (.pageOutOfRange page))
  | none => .error (.invalid "page" (.pageOutOfRange page))

/-- The stretch of a page step by step, and nothing where a step leaves the words.  Only the product
    is asked whether it does. -/
def windowBySteps (page limit : UInt64) : Option (Except Fault (Option Window)) :=
  if limit = 0 then some (.ok none)
  else if page ≤ 1 then some (windowAt page limit (some 0))
  else (Exact.sub? page 1).map fun before => windowAt page limit (Exact.mul? before limit)

/-- The number of the page that a stretch is, step by step. -/
def Window.numberBySteps (w : Window) : Option UInt64 :=
  (Exact.div? w.offset w.limit).bind (Exact.add? · 1)

theorem windowAt_mul? (page before limit : UInt64) (hbefore : before.toNat = page.toNat - 1)
    (hlimit : limit ≠ 0) :
    windowAt page limit (Exact.mul? before limit) = windowOf page limit := by
  have hmax := windowMax_lt
  rw [windowOf, if_neg hlimit, Exact.mul?, hbefore]
  split
  · next hle =>
    have hlt : (page.toNat - 1) * limit.toNat < 2 ^ 64 := Nat.lt_succ_of_le hle
    have hproduct : (before * limit).toNat = (page.toNat - 1) * limit.toNat := by
      rw [UInt64.toNat_mul, hbefore, Nat.mod_eq_of_lt hlt]
    have hword : before * limit = .ofNat ((page.toNat - 1) * limit.toNat) := by
      rw [← hproduct, UInt64.ofNat_toNat]
    rw [windowAt, hproduct, hword]
  · next hgt =>
    rw [windowAt, if_neg fun h => hgt (by omega)]

/-- **No step of the stretch of a page leaves the words.** -/
theorem windowBySteps_eq (page limit : UInt64) :
    windowBySteps page limit = some (windowOf page limit) := by
  rw [windowBySteps]
  split
  · next hzero => rw [hzero, windowOf_zero]
  · next hlimit =>
    split
    · next hfirst =>
      -- page zero is read as the first page
      have hpage : page.toNat - 1 = 0 := Nat.sub_eq_zero_of_le hfirst
      have hzero : Exact.mul? 0 limit = some 0 := by
        rw [Exact.mul?, UInt64.toNat_zero, Nat.zero_mul, if_pos (Nat.zero_le _), UInt64.zero_mul]
      rw [← hzero, windowAt_mul? page 0 limit hpage.symm hlimit]
    · next hlater =>
      have hone : 1 ≤ page := UInt64.le_of_lt (UInt64.not_le.1 hlater)
      rw [Exact.sub?, if_pos hone, Option.map_some,
        windowAt_mul? page (page - 1) limit (UInt64.toNat_sub_of_le _ _ hone) hlimit]

/-- **No step of the number of a page leaves the words.** -/
theorem Window.Takes.numberBySteps_eq {w : Window} {size page : Nat} (h : w.Takes size page)
    (hsize : 0 < size) (hrange : InRange size page) (rows : List Record) (total : Int64) :
    w.numberBySteps = some (Page.of rows total (some w)).number := by
  have hlimit := h.limit_pos hsize
  have hle := hrange.page_le hsize
  have hmax := windowMax_lt
  rw [numberBySteps, Exact.div?, if_neg (UInt64.pos_iff_ne_zero.1 hlimit), Option.bind_some,
    Exact.add?, h.toNat_quotient hsize, UInt64.toNat_one, if_pos (by omega), Page.of,
    if_pos hlimit]

namespace Model

variable {m : Model}

/-- **Pages are counted exactly.**  A query has no page just when no page size is in effect.  A page
    that datasources take is compiled with the numbers in effect and reported with them, and any
    other page is refused.  No step leaves the words. -/
theorem pages_exact (hsource : m.HasSource) (params : Params) :
    ((∃ q, m.compile params = .ok q ∧ q.window = none) ↔ m.sizeInEffect params = 0) ∧
    (0 < m.sizeInEffect params → InRange (m.sizeInEffect params) (m.pageInEffect params) →
      ∃ q w, m.compile params = .ok q ∧ q.window = some w ∧
        w.limit.toNat = m.sizeInEffect params ∧
        w.offset.toNat = (m.pageInEffect params - 1) * m.sizeInEffect params ∧
        ∀ rows total, (Page.of rows total q.window).number.toNat = m.pageInEffect params ∧
          (Page.of rows total q.window).size.toNat = m.sizeInEffect params ∧
          w.numberBySteps = some (Page.of rows total q.window).number) ∧
    (0 < m.sizeInEffect params → ¬ InRange (m.sizeInEffect params) (m.pageInEffect params) →
      m.compile params = .error (.invalid "page" (.pageOutOfRange (m.pageNumber params)))) ∧
    windowBySteps (m.pageNumber params) (m.pageSize params) = some (m.window params) := by
  obtain ⟨query, hquery, hcompile⟩ := exists_compile hsource params
  rw [hcompile]
  refine ⟨⟨fun ⟨q, hq, hnone⟩ => ?_, fun hzero => ?_⟩, fun hsize hrange => ?_,
    fun hsize hrange => ?_, windowBySteps_eq _ _⟩
  -- a size in effect gives a window or a refusal, never a query without one
  · by_contra hne
    have hsize : 0 < m.sizeInEffect params := Nat.pos_of_ne_zero hne
    by_cases hrange : InRange (m.sizeInEffect params) (m.pageInEffect params)
    · obtain ⟨w, hw, -⟩ := window_of_inRange hsize hrange
      rw [hw] at hq
      obtain rfl := Except.ok.inj hq
      rw [hquery] at hnone
      cases hnone
    · rw [window_of_not_inRange hsize hrange] at hq
      cases hq
  · rw [window_of_no_size hzero]
    exact ⟨_, rfl, hquery none⟩
  · obtain ⟨w, hw, htakes⟩ := window_of_inRange hsize hrange
    rw [hw]
    refine ⟨_, w, rfl, hquery _, htakes.limit, htakes.offset, fun rows total => ?_⟩
    have hpage : 1 ≤ m.pageInEffect params := Nat.le_max_right _ _
    obtain ⟨hnumber, hreported⟩ := htakes.page_of hsize hpage hrange rows total
    rw [hquery]
    exact ⟨hnumber, hreported, htakes.numberBySteps_eq hsize hrange rows total⟩
  · rw [window_of_not_inRange hsize hrange]
    rfl

end Model

/-! ### A page far behind -/

/-- A model that begins with a page of some size. -/
def ledger (page size : UInt64) : Model where
  entry := { id := "entry", code := "entries", connection := "main" }
  tables := [{ id := "t", model := "entry", name := "entries" }]
  fields := []
  dialect := .mysql
  limit := some { model := "entry", page := page, limit := size }

/-- A request for a page of two rows, with a page size that is not positive in front. -/
def farPage (page : String) : Params :=
  [("page_size", .int 0), ("limit", .str " +2 "), ("page", .str page)]

/-- The last page of two rows that a datasource takes is counted exactly, and the one behind it is
    refused. -/
theorem last_page_exact :
    (ledger 3 10).HasSource ∧
    (∃ q w, (ledger 3 10).compile (farPage "4611686018427387904") = .ok q ∧
      q.window = some w ∧ w.limit.toNat = 2 ∧ w.offset.toNat = 9223372036854775806 ∧
      (Page.of [] 0 q.window).number.toNat = 4611686018427387904) ∧
    (ledger 3 10).compile (farPage "4611686018427387905") =
      .error (.invalid "page" (.pageOutOfRange 4611686018427387905)) := by
  have hsource : (ledger 3 10).HasSource := ⟨_, rfl⟩
  have hsize : ∀ page, (ledger 3 10).sizeInEffect (farPage page) = 2 := fun _ => rfl
  have hlast : (ledger 3 10).pageInEffect (farPage "4611686018427387904") =
      4611686018427387904 := by
    decide +kernel
  have hnext : (ledger 3 10).pageInEffect (farPage "4611686018427387905") =
      4611686018427387905 := by
    decide +kernel
  obtain ⟨-, hfits, -⟩ := Model.pages_exact hsource (farPage "4611686018427387904")
  obtain ⟨-, -, hrefused, -⟩ := Model.pages_exact hsource (farPage "4611686018427387905")
  rw [hsize, hlast] at hfits
  rw [hsize, hnext] at hrefused
  -- 2 * (2 ^ 62 - 1) is below 2 ^ 63, and one page more is not
  obtain ⟨q, w, hq, hw, hlimit, hoffset, hpage⟩ := hfits (by decide) (by decide)
  refine ⟨hsource, ⟨q, w, hq, hw, hlimit, hoffset, (hpage [] 0).1⟩, ?_⟩
  rw [hrefused (by decide) (by decide)]
  congr 2

end MetaQuery
