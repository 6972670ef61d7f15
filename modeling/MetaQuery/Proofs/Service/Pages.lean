/-
  MetaQuery/Proofs/Service/Pages.lean
  ===================================
  The page and the page size that a request asks for.

  A request is read from a document member by member, so it has the last page and the first page
  size that the document gives (`ListRequest.of_ofJson`).  Both reach the query in the parameters,
  and no other parameter is about pages, so the stretch of a listing is that of its page and of its
  page size (`window_of_prepare`).  A page size that is asked for is therefore always clamped
  (`requested_size_clamped`).  A page that is named without a page size is another matter: the
  default stands in for a model that has no limits, but not for limits that have no size, and then
  there are no pages at all (`named_page_reported_iff`).
-/
import MetaQuery.Pattern.Reader
import MetaQuery.Proofs.Catalog.Addressing
import MetaQuery.Proofs.Chain.Filters
import MetaQuery.Proofs.Query.Independence
import MetaQuery.Proofs.Query.Paging

namespace MetaQuery

open MetaQuery.Action

/-! ### Numbers of a document -/

/-- The number that a member of a document holds; null holds none. -/
def Json.held : Json → Option UInt64
  | .str s => Decimal.uint64? (Text.trimBlanks s.toList)
  | v => v.word?

/-- The number that is held is the one that the value stands for. -/
theorem Json.number?_of_held {v : Json} {n : UInt64} (h : v.held = some n) :
    v.number? = some n.toNat := by
  cases v with
  | str s =>
    change Decimal.uint64? _ = some n at h
    rw [number?, ← Decimal.map_toNat_uint64?, h, Option.map_some]
  | int i =>
    change (Json.int i).word? = some n at h
    rw [← map_toNat_word?, h, Option.map_some]
  | _ => cases h

/-- Anything but null must hold a positive number. -/
theorem positive_eq_ok_iff {name : String} {v : Json} (hv : v ≠ .null) {n? : Option UInt64} :
    positive name v = .ok n? ↔ ∃ n, v.held = some n ∧ 0 < n ∧ n? = some n := by
  -- all kinds of values but NULL are read by one rule
  have hread : positive name v = v.held.elim (.error (.invalid name .notPositive)) fun n =>
      if 0 < n then .ok (some n) else .error (.invalid name .notPositive) := by
    rw [positive.eq_def, Json.held.eq_def]
    cases v with
    | null => exact absurd rfl hv
    | str s =>
      dsimp only
      cases Decimal.uint64? (Text.trimBlanks s.toList) <;> rfl
    | int i =>
      dsimp only
      cases (Json.int i).word? <;> rfl
    | _ => rfl
  rw [hread]
  cases v.held with
  | none => exact ⟨nofun, nofun⟩
  | some n =>
    rw [Option.elim_some]
    split
    · next hpos =>
      constructor
      · exact fun h => ⟨n, rfl, hpos, (Except.ok.inj h).symm⟩
      · rintro ⟨_, hn, -, rfl⟩
        exact congrArg Except.ok hn
    · next hzero =>
      constructor
      · exact nofun
      · rintro ⟨_, hn, hpos, -⟩
        exact absurd (Option.some.inj hn ▸ hpos) hzero

theorem eq_held_of_positive {name : String} {v : Json} {n? : Option UInt64}
    (h : positive name v = .ok n?) : n? = v.held := by
  by_cases hv : v = .null
  · subst hv
    exact (Except.ok.inj h).symm
  · obtain ⟨n, hn, -, rfl⟩ := (positive_eq_ok_iff hv).1 h
    exact hn.symm

/-- A number that is accepted is positive. -/
theorem pos_of_positive {name : String} {v : Json} {n : UInt64}
    (h : positive name v = .ok (some n)) : 0 < n := by
  have hv : v ≠ .null := by
    rintro rfl
    cases h
  obtain ⟨_, -, hpos, ⟨⟩⟩ := (positive_eq_ok_iff hv).1 h
  exact hpos

/-! ### Requests from documents -/

/-- A fold that succeeds has succeeded with the first item and then with the others. -/
theorem cons_of_foldlM_ok {α β ε : Type} {f : β → α → Except ε β} {x : α} {xs : List α} {b c : β}
    (h : (x :: xs).foldlM f b = .ok c) : ∃ next, f b x = .ok next ∧ xs.foldlM f next = .ok c := by
  rw [List.foldlM_cons] at h
  cases hx : f b x with
  | error e =>
    rw [hx] at h
    cases h
  | ok next =>
    rw [hx] at h
    exact ⟨next, rfl, h⟩

/-- The member gives a page size. -/
def givesSize (x : String × Json) : Bool :=
  (x.1 == "page_size" || x.1 == "limit") && !x.2 matches .null

theorem givesSize_iff {name : String} {v : Json} :
    givesSize (name, v) = true ↔ (name = "page_size" ∨ name = "limit") ∧ v ≠ .null := by
  cases v with
  | null => simp [givesSize]
  | _ => simp [givesSize]

/-- The member is about pages. -/
def isPaging (x : String × Json) : Bool := pagingNames.contains x.1

/-- The page that a document asks for; of several members, the last one counts. -/
def documentPage (members : List (String × Json)) : Option UInt64 :=
  (members.reverse.find? (·.1 == "page")).bind (·.2.held)

/-- The page size that a document asks for: that of the first member that gives one. -/
def documentSize (members : List (String × Json)) : Option UInt64 :=
  (members.find? givesSize).bind (·.2.held)

namespace ListRequest

variable {r r' : ListRequest} {name : String} {v : Json} {members : List (String × Json)}

/-- The numbers of a request are positive, and it has no paging parameters. -/
structure WellFormed (r : ListRequest) : Prop where
  page : ∀ n, r.page = some n → 0 < n
  pageSize : ∀ n, r.pageSize = some n → 0 < n
  params : ∀ name ∈ pagingNames, Json.lookup name r.params = none

/-- One member is a page, a page size, or neither. -/
theorem addMember_cases (h : r.addMember name v = .ok r') :
    (name = "page" ∧ ∃ page, positive name v = .ok page ∧ r' = { r with page := page }) ∨
    ((name = "page_size" ∨ name = "limit") ∧ ∃ size, positive name v = .ok size ∧
      r' = { r with pageSize := r.pageSize.or size }) ∨
    (name ∉ pagingNames ∧ r'.page = r.page ∧ r'.pageSize = r.pageSize ∧
      ∀ other ∈ pagingNames, Json.lookup other r'.params = Json.lookup other r.params) := by
  rw [addMember] at h
  split at h
  · next hname =>
    cases hpage : positive name v with
    | error e =>
      rw [hpage] at h
      cases h
    | ok page =>
      rw [hpage] at h
      exact .inl ⟨hname, page, rfl, (Except.ok.inj h).symm⟩
  · next hpage =>
    split at h
    · next hname =>
      cases hsize : positive name v with
      | error e =>
        rw [hsize] at h
        cases h
      | ok size =>
        rw [hsize] at h
        exact .inr (.inl ⟨hname, size, rfl, (Except.ok.inj h).symm⟩)
    · next hsize =>
      -- any other member leaves page and size alone, whatever it is
      have hother : name ∉ pagingNames := by simp [pagingNames, hpage, not_or.1 hsize]
      refine .inr (.inr ⟨hother, ?_⟩)
      split at h
      · obtain rfl := Except.ok.inj h
        exact ⟨rfl, rfl, fun _ _ => rfl⟩
      · split at h
        · split at h
          · obtain rfl := Except.ok.inj h
            exact ⟨rfl, rfl, fun _ _ => rfl⟩
          · cases h
        · obtain rfl := Except.ok.inj h
          refine ⟨rfl, rfl, fun other hmem => Json.lookup_put_of_ne ?_ _ _⟩
          rintro rfl
          exact hother hmem

theorem WellFormed.addMember (hr : r.WellFormed) (h : r.addMember name v = .ok r') :
    r'.WellFormed := by
  rcases addMember_cases h with ⟨-, page, hpage, rfl⟩ | ⟨-, size, hsize, rfl⟩ |
    ⟨-, hpage, hsize, hparams⟩
  · refine ⟨?_, hr.pageSize, hr.params⟩
    rintro n rfl
    exact pos_of_positive hpage
  · refine ⟨hr.page, fun n hn => ?_, hr.params⟩
    rcases Option.or_eq_some_iff.1 hn with hn | ⟨-, rfl⟩
    · exact hr.pageSize n hn
    · exact pos_of_positive hsize
  · exact ⟨hpage ▸ hr.page, hsize ▸ hr.pageSize, fun name hname =>
      (hparams name hname).trans (hr.params name hname)⟩

theorem page_of_addMember (h : r.addMember name v = .ok r') :
    r'.page = if name = "page" then v.held else r.page := by
  rcases addMember_cases h with ⟨hname, page, hpage, rfl⟩ | ⟨hname, -, -, rfl⟩ |
    ⟨hname, hpage, -⟩
  · rw [if_pos hname, eq_held_of_positive hpage]
  · rw [if_neg (by rcases hname with rfl | rfl <;> decide)]
  · rw [if_neg (fun h => hname (by simp [pagingNames, h])), hpage]

/-- A page size is that of the member, when the request has none yet. -/
theorem pageSize_of_addMember (h : r.addMember name v = .ok r') :
    (givesSize (name, v) = true → ∃ n, v.held = some n ∧ r'.pageSize = r.pageSize.or (some n)) ∧
      (givesSize (name, v) = false → r'.pageSize = r.pageSize) := by
  rw [← Bool.not_eq_true, givesSize_iff]
  -- the member is "page", one of the two names of the size, or neither
  rcases addMember_cases h with ⟨hname, -, -, rfl⟩ | ⟨hname, size, hsize, rfl⟩ |
    ⟨hname, -, hsize, -⟩
  · refine ⟨fun ⟨hgives, _⟩ => ?_, fun _ => rfl⟩
    rcases hgives with rfl | rfl <;> exact absurd hname (by decide)
  · refine ⟨fun ⟨_, hv⟩ => ?_, fun hnull => ?_⟩
    · obtain ⟨n, hn, -, rfl⟩ := (positive_eq_ok_iff hv).1 hsize
      exact ⟨n, hn, rfl⟩
    · obtain rfl : v = .null := by
        by_contra hv
        exact hnull ⟨hname, hv⟩
      obtain rfl := Except.ok.inj hsize
      exact Option.or_none
  · refine ⟨fun ⟨hgives, _⟩ => ?_, fun _ => hsize⟩
    rcases hgives with rfl | rfl <;> exact absurd (by decide) hname

/-- What members add to a request: the last page and the first page size. -/
theorem of_foldlM_addMember (h : members.foldlM (fun r m => r.addMember m.1 m.2) r = .ok r')
    (hr : r.WellFormed) : r'.WellFormed ∧
      r'.page = ((members.reverse.find? (·.1 == "page")).map (·.2.held)).getD r.page ∧
      r'.pageSize = r.pageSize.or (documentSize members) := by
  induction members generalizing r with
  | nil =>
    obtain rfl := Except.ok.inj h
    exact ⟨hr, rfl, Option.or_none.symm⟩
  | cons x members ih =>
    obtain ⟨next, hx, h⟩ := cons_of_foldlM_ok h
    obtain ⟨hwell, hpage, hsize⟩ := ih h (hr.addMember hx)
    refine ⟨hwell, ?_, ?_⟩
    -- the last page counts, since each member writes over the one before
    · rw [hpage, page_of_addMember hx, List.reverse_cons, List.find?_append]
      cases members.reverse.find? (·.1 == "page") with
      | some y => rfl
      | none =>
        by_cases hname : x.1 = "page"
        · simp [hname]
        · simp [hname]
    -- the first size counts, since a size that is there stays
    · obtain ⟨hgives, hkeeps⟩ := pageSize_of_addMember hx
      rw [hsize, documentSize, documentSize, List.find?_cons]
      cases hx' : givesSize x with
      | true =>
        obtain ⟨n, hn, hnext⟩ := hgives hx'
        rw [hnext, Option.bind_some, hn, Option.or_assoc, Option.some_or]
      | false => rw [hkeeps hx']

/-- Each member of a document is accepted. -/
theorem accepted_of_mem (h : members.foldlM (fun r m => r.addMember m.1 m.2) r = .ok r')
    {x : String × Json} (hx : x ∈ members) :
    ∃ before after : ListRequest, before.addMember x.1 x.2 = .ok after := by
  induction members generalizing r with
  | nil => cases hx
  | cons y members ih =>
    obtain ⟨next, hy, h⟩ := cons_of_foldlM_ok h
    rcases List.mem_cons.1 hx with rfl | hx
    · exact ⟨r, next, hy⟩
    · exact ih h hx

/-- **A request has the last page and the first page size of its document.** -/
theorem of_ofJson (h : ofJson (.obj members) = .ok r) :
    r.WellFormed ∧ r.page = documentPage members ∧ r.pageSize = documentSize members := by
  have hempty : ({} : ListRequest).WellFormed := ⟨nofun, nofun, fun _ _ => rfl⟩
  obtain ⟨hwell, hpage, hsize⟩ := of_foldlM_addMember h hempty
  refine ⟨hwell, ?_, hsize⟩
  rw [hpage, documentPage]
  cases members.reverse.find? (·.1 == "page") with
  | none => rfl
  | some x => rfl

theorem page_of_mem (h : ofJson (.obj members) = .ok r) (hnames : (members.map (·.1)).Nodup)
    (hpage : ("page", v) ∈ members) (hv : v ≠ .null) : ∃ n, r.page = some n ∧ v.held = some n := by
  obtain ⟨-, hdocument, -⟩ := of_ofJson h
  obtain ⟨before, after, hadded⟩ := accepted_of_mem h hpage
  -- the last "page" counts, and with distinct names there is only the one
  have hfound : members.reverse.find? (·.1 == "page") = some ("page", v) := by
    have hreverse : (members.reverse.map (·.1)).Nodup := by
      rwa [List.map_reverse, List.nodup_reverse]
    exact (Catalog.forall_find?_key_iff (hreverse.of_map _)).2 hreverse _ (List.mem_reverse.2 hpage)
  have hnext := page_of_addMember hadded
  rcases addMember_cases hadded with ⟨-, page, hread, -⟩ | ⟨hname, -⟩ | ⟨hname, -⟩
  · obtain ⟨n, hn, -⟩ := (positive_eq_ok_iff hv).1 hread
    rw [documentPage, hfound, Option.bind_some, hn] at hdocument
    exact ⟨n, hdocument, hn⟩
  · exact absurd hname (by simp)
  · exact absurd List.mem_cons_self hname

/-- The page size of a request is the number of the first member that gives one. -/
theorem pageSize_of_find? (h : ofJson (.obj members) = .ok r) {size : String × Json}
    (hsize : members.find? givesSize = some size) :
    ∃ n, r.pageSize = some n ∧ size.2.held = some n := by
  obtain ⟨-, -, hdocument⟩ := of_ofJson h
  obtain ⟨before, after, hadded⟩ := accepted_of_mem h (List.mem_of_find?_eq_some hsize)
  obtain ⟨n, hn, -⟩ := (pageSize_of_addMember hadded).1 (List.find?_some hsize)
  rw [documentSize, hsize, Option.bind_some, hn] at hdocument
  exact ⟨n, hdocument, hn⟩

/-- A request has a page size just when a member gives one. -/
theorem pageSize_isSome_iff (h : ofJson (.obj members) = .ok r) :
    r.pageSize.isSome = true ↔ ∃ x ∈ members, givesSize x = true := by
  constructor
  · intro hsome
    obtain ⟨-, -, hdocument⟩ := of_ofJson h
    rw [hdocument, documentSize] at hsome
    cases hfound : members.find? givesSize with
    | none =>
      rw [hfound] at hsome
      cases hsome
    | some x => exact ⟨x, List.mem_of_find?_eq_some hfound, List.find?_some hfound⟩
  · rintro ⟨x, hx, hgives⟩
    obtain ⟨y, hfound⟩ := Option.isSome_iff_exists.1 (List.find?_isSome.2 ⟨x, hx, hgives⟩)
    obtain ⟨n, hn, -⟩ := pageSize_of_find? h hfound
    rw [hn]
    rfl

end ListRequest

/-- Only the members about pages decide the page and the page size. -/
theorem find?_filter_isPaging {p : String × Json → Bool} (hp : ∀ x, p x = true → isPaging x = true)
    (members : List (String × Json)) : (members.filter isPaging).find? p = members.find? p := by
  have hsame : (fun x => decide (isPaging x = true ∧ p x = true)) = p := by
    funext x
    cases hx : p x with
    | true => simp [hp x hx]
    | false => simp
  rw [List.find?_filter, hsame]

theorem documentPage_filter (members : List (String × Json)) :
    documentPage (members.filter isPaging) = documentPage members := by
  have hpage : ∀ x : String × Json, (x.1 == "page") = true → isPaging x = true := by
    intro x hx
    simp [isPaging, pagingNames, eq_of_beq hx]
  rw [documentPage, documentPage, ← List.filter_reverse, find?_filter_isPaging hpage]

theorem documentSize_filter (members : List (String × Json)) :
    documentSize (members.filter isPaging) = documentSize members := by
  have hsize : ∀ x, givesSize x = true → isPaging x = true := by
    rintro ⟨name, v⟩ hx
    rcases (givesSize_iff.1 hx).1 with rfl | rfl <;> rfl
  rw [documentSize, documentSize, find?_filter_isPaging hsize]

namespace ListRequest

variable {r : ListRequest} {m : Model} {settings : Settings}

/-! ### What a request is compiled with -/

/-- The parameters name the page, and the page size that is chosen, under one name. -/
theorem lookup_compileParams (hr : r.WellFormed) (settings : Settings) (m : Model) :
    Json.lookup "page" (r.compileParams settings m) = r.page.map (fun n => .int n.toNat) ∧
    Json.lookup "page_size" (r.compileParams settings m) =
      (r.chosenSize settings m).map (fun n => .int n.toNat) ∧
    Json.lookup "limit" (r.compileParams settings m) = none := by
  have hpage := hr.params "page" (by decide)
  have hsize := hr.params "page_size" (by decide)
  have hlimit := hr.params "limit" (by decide)
  unfold compileParams
  cases r.page <;> cases r.chosenSize settings m <;>
    simp [Json.lookup_put_self, Json.lookup_put_of_ne, hpage, hsize, hlimit]

end ListRequest

theorem pos_min {a b : UInt64} (ha : 0 < a) (hb : 0 < b) : 0 < min a b := by
  rw [UInt64.lt_iff_toNat_lt, UInt64.toNat_min]
  exact Nat.lt_min.2 ⟨ha, hb⟩

namespace ListRequest

variable {r : ListRequest}

/-- The page that a request asks of a model. -/
def pageOf (r : ListRequest) (m : Model) : UInt64 := r.page.getD (m.limit.elim 0 (·.page))

/-- The page size that a request asks of a model; zero is none. -/
def sizeOf (r : ListRequest) (settings : Settings) (m : Model) : UInt64 :=
  ((r.chosenSize settings m).filter (0 < ·)).getD (m.limit.elim 0 (·.limit))

theorem sizeOf_of_chosen {settings : Settings} {m : Model} {n : UInt64}
    (h : r.chosenSize settings m = some n) (hn : 0 < n) : r.sizeOf settings m = n := by
  rw [sizeOf, h, filter_positive_some hn, Option.getD_some]

/-- A request for a page has a page size, unless the model's limits have none and take the place of
    the default. -/
theorem sizeOf_pos_iff {settings : Settings} {page : UInt64} (hr : r.WellFormed)
    (hpage : r.page = some page) (hdefault : 0 < settings.defaultPageSize)
    (hmax : 0 < settings.maxPageSize) (m : Model) :
    0 < r.sizeOf settings m ↔
      r.pageSize.isSome = true ∨ ∀ l, m.limit = some l → 0 < l.limit := by
  cases hsize : r.pageSize with
  | some n =>
    have hpos : 0 < min n settings.maxPageSize := pos_min (hr.pageSize n hsize) hmax
    have hchosen : r.chosenSize settings m = some (min n settings.maxPageSize) := by
      rw [chosenSize, hsize]
    rw [sizeOf_of_chosen hchosen hpos]
    exact iff_of_true hpos (.inl rfl)
  | none =>
    cases hlimit : m.limit with
    | none =>
      have hchosen : r.chosenSize settings m = some settings.defaultPageSize := by
        rw [chosenSize, hsize, hpage, hlimit]
        rfl
      rw [sizeOf_of_chosen hchosen hdefault]
      exact iff_of_true hdefault (.inr nofun)
    -- a limit record of the model is used as it stands, zero included
    | some l =>
      have hchosen : r.chosenSize settings m = none := by
        rw [chosenSize, hsize, hpage, hlimit]
        rfl
      have hown : r.sizeOf settings m = l.limit := by
        rw [sizeOf, hchosen, hlimit]
        rfl
      rw [hown]
      constructor
      · intro hpos
        exact .inr fun _ hl => Option.some.inj hl ▸ hpos
      · rintro (h | h)
        · cases h
        · exact h l rfl

/-- **A request takes the stretch of its page and its page size.** -/
theorem window_compileParams (hr : r.WellFormed) (settings : Settings) (m : Model) :
    m.window (r.compileParams settings m) = windowOf (r.pageOf m) (r.sizeOf settings m) := by
  obtain ⟨hpage, hsize, hlimit⟩ := lookup_compileParams hr settings m
  -- the request was read with a positive page, so the second check of it drops nothing
  have hpositive : r.page.filter (0 < ·) = r.page := by
    cases hn : r.page with
    | none => rfl
    | some n => exact filter_positive_some (hr.page n hn)
  have hother : positiveParam? (r.compileParams settings m) "limit" = none := by
    rw [positiveParam?, hlimit]
    rfl
  rw [Model.window, Model.pageNumber, Model.pageSize, positiveParam?_of_word hpage,
    positiveParam?_of_word hsize, hother, hpositive, Option.or_none, pageOf, sizeOf]
  cases m.limit with
  | none => rfl
  | some l => rfl

end ListRequest

/-! ### Listings of one model -/

/-- A template only puts conditions behind the chain of a model. -/
theorem Templates.eq_of_applyChosen {model : String} {choice : Option String} {base m : Model}
    {s t : Session} (h : (applyChosen model choice base).exec s = (.ok m, t)) :
    ∃ conditions, m = { base with conditions := conditions } := by
  cases choice with
  | some id =>
    obtain ⟨t?, u, -, hrest⟩ := ok_of_exec_bind h
    cases t? with
    | none => cases hrest
    | some template =>
      exact ⟨_, (Except.ok.inj (Prod.mk.inj hrest).1).symm⟩
  | none =>
    obtain ⟨t?, u, -, hrest⟩ := ok_of_exec_bind h
    cases t? with
    | none => exact ⟨base.conditions, (Except.ok.inj (Prod.mk.inj hrest).1).symm⟩
    | some template => exact ⟨_, (Except.ok.inj (Prod.mk.inj hrest).1).symm⟩

/-- The catalog of a model of tables with its limits. -/
def Model.pagedCatalog (m : Model) : Catalog where
  models := [m.entry]
  tables := m.tables
  limits := m.limit.toList

namespace Rows

variable {model : String} {r : ListRequest} {s t : Session} {m : Model} {q : Select}

theorem window_of_listQuery {settings : Settings} (h : listQuery settings r m = .ok q) :
    m.window (r.compileParams settings m) = .ok q.window := by
  cases hrestrict : r.restrict m with
  | error fault =>
    rw [listQuery, hrestrict] at h
    cases h
  | ok m' =>
    rw [listQuery_of_restrict hrestrict] at h
    obtain ⟨added, -, rfl⟩ := ListRequest.restrict_ok hrestrict
    have hwindow := Model.window_of_compile (Model.select_eq_ok_iff.1 h).1
    exact hwindow

/-- The stretch of a listing is that of its request and of the model that is loaded. -/
theorem window_of_prepare (hr : r.WellFormed)
    (h : (prepare model r).exec s = (.ok (m, q), t)) :
    ∃ base u, (Metadata.model model).exec s = (.ok base, u) ∧ m.limit = base.limit ∧
      windowOf (r.pageOf m) (r.sizeOf s.settings m) = .ok q.window := by
  obtain ⟨base, u, hbase, hchosen, hquery⟩ := ok_of_prepare h
  obtain ⟨conditions, hm⟩ := Templates.eq_of_applyChosen hchosen
  have hloaded := (Metadata.model_consults model).steady.settings_eq hbase
  have htemplate := (Templates.applyChosen_steady _ _ _).settings_eq hchosen
  rw [htemplate, hloaded] at hquery
  refine ⟨base, u, hbase, by rw [hm], ?_⟩
  rw [← r.window_compileParams hr]
  exact window_of_listQuery hquery

/-- The page that a list answers with is one of the stretch of its query. -/
theorem page_of_list {page : Page} {u : Session} (hrun : (prepare model r).exec s = (.ok (m, q), t))
    (h : (list model r).exec s = (.ok page, u)) :
    ∃ rows total, page = Page.of rows total q.window := by
  obtain ⟨⟨m', q'⟩, t', hprepared, hrest⟩ := ok_of_exec_bind h
  obtain ⟨hmq, -⟩ := Prod.mk.inj (hprepared.symm.trans hrun)
  obtain ⟨-, rfl⟩ := Prod.mk.inj (Except.ok.inj hmq)
  obtain ⟨total, v, -, hrest⟩ := ok_of_exec_bind hrest
  obtain ⟨rows, w, -, hrest⟩ := ok_of_exec_bind hrest
  exact ⟨rows, total, (Except.ok.inj (Prod.mk.inj hrest).1).symm⟩

/-! ### Entries of a ledger -/

/-- The ledger in a session, with a datasource that is open. -/
def ledgerSession (page size : UInt64) (replies : List Reply) : Session where
  store := .memory (ledger page size).pagedCatalog
  rules := Pattern.read
  opened := ["main"]
  idAt := fun _ => ""
  answers := { replies := replies }

/-- The query for a stretch of the ledger. -/
def ledgerQuery (window : Option Window) : Select :=
  { Select.all .mysql (.ofText "`entries`") with window := window }

theorem prepare_ledger {page size : UInt64} {replies : List Reply} {window : Option Window}
    (htemplate : r.template = none) (hfilters : r.filters = [])
    (hwindow : (ledger page size).window (r.compileParams {} (ledger page size)) = .ok window)
    (hsafe : Raw.checkSafe (ledgerQuery window).statement.text = .ok ()) :
    (prepare "entry" r).exec (ledgerSession page size replies) =
      (.ok (ledger page size, ledgerQuery window), ledgerSession page size replies) := by
  have hrestrict : r.restrict (ledger page size) = .ok (ledger page size) := by
    rw [ListRequest.restrict, hfilters]
    rfl
  have hquery : listQuery {} r (ledger page size) = .ok (ledgerQuery window) := by
    rw [listQuery_of_restrict hrestrict]
    exact Model.select_eq_ok_iff.2 ⟨Model.compile_of_no_joins rfl rfl rfl hwindow, hsafe⟩
  refine exec_prepare rfl ?_ hquery
  rw [htemplate]
  exact Templates.exec_applyChosen_of_memory rfl rfl _

/-- **A page size that is asked for is clamped.**  It is the number of the first member that gives a
    size, held at the greatest one, whatever the model and the other members are; and members that
    are not about pages make no difference to the stretch. -/
theorem requested_size_clamped {members : List (String × Json)} {size : String × Json}
    (haccepted : ListRequest.ofJson (.obj members) = .ok r)
    (hsize : members.find? givesSize = some size) (hmax : 0 < s.settings.maxPageSize)
    (hrun : (prepare model r).exec s = (.ok (m, q), t)) :
    (∃ n w, size.2.number? = some n ∧ q.window = some w ∧
      w.limit.toNat = min n s.settings.maxPageSize.toNat) ∧
    ∀ members' r' m' q' t', ListRequest.ofJson (.obj members') = .ok r' →
      members'.filter isPaging = members.filter isPaging →
      (prepare model r').exec s = (.ok (m', q'), t') → q'.window = q.window := by
  obtain ⟨hwell, hpage, hdocument⟩ := ListRequest.of_ofJson haccepted
  obtain ⟨base, u, hbase, hlimit, hwindow⟩ := window_of_prepare hwell hrun
  constructor
  · obtain ⟨n, hn, hheld⟩ := ListRequest.pageSize_of_find? haccepted hsize
    have hpos : 0 < min n s.settings.maxPageSize := pos_min (hwell.pageSize n hn) hmax
    have hchosen : r.chosenSize s.settings m = some (min n s.settings.maxPageSize) := by
      rw [ListRequest.chosenSize, hn]
    rw [ListRequest.sizeOf_of_chosen hchosen hpos] at hwindow
    obtain ⟨w, hw, htakes, -⟩ := takes_of_windowOf (UInt64.pos_iff_ne_zero.1 hpos) hwindow
    exact ⟨n.toNat, w, Json.number?_of_held hheld, hw, by rw [htakes.limit, UInt64.toNat_min]⟩
  -- page and size are read from the paging members alone, so equal ones give equal windows
  · intro members' r' m' q' t' haccepted' hsame hrun'
    obtain ⟨hwell', hpage', hdocument'⟩ := ListRequest.of_ofJson haccepted'
    obtain ⟨base', u', hbase', hlimit', hwindow'⟩ := window_of_prepare hwell' hrun'
    obtain ⟨hmodel, -⟩ := Prod.mk.inj (hbase.symm.trans hbase')
    obtain rfl := Except.ok.inj hmodel
    rw [← documentPage_filter, ← hsame, documentPage_filter, ← hpage'] at hpage
    rw [← documentSize_filter, ← hsame, documentSize_filter, ← hdocument'] at hdocument
    have hchosen : r'.chosenSize s.settings m' = r.chosenSize s.settings m := by
      rw [ListRequest.chosenSize, ListRequest.chosenSize, hpage, hdocument, hlimit, hlimit']
    rw [ListRequest.pageOf, ListRequest.sizeOf, hchosen, ← hpage, hlimit', ← hlimit,
      ← ListRequest.pageOf, ← ListRequest.sizeOf, hwindow] at hwindow'
    exact (Except.ok.inj hwindow').symm

/-- Members that give two page sizes, behind some others. -/
def twoSizes (others : List (String × Json)) : List (String × Json) :=
  others ++ [("limit", .str " 20000"), ("page", .int 2), ("page_size", .int 5)]

/-- The request that those members are. -/
def twoSizesRequest (others : Params) : ListRequest where
  page := some 2
  pageSize := some 20000
  params := others

theorem prepare_twoSizes (others : Params)
    (hwindow : (ledger 7 3).window ((twoSizesRequest others).compileParams {} (ledger 7 3)) =
      .ok (some ⟨10000, 10000⟩)) :
    (prepare "entry" (twoSizesRequest others)).exec (ledgerSession 7 3 []) =
      (.ok (ledger 7 3, ledgerQuery (some ⟨10000, 10000⟩)), ledgerSession 7 3 []) :=
  prepare_ledger rfl rfl hwindow (by decide)

/-- The first of two page sizes is clamped, and an owner beside them makes no difference. -/
theorem first_size_clamped :
    ∃ q t, (prepare "entry" (twoSizesRequest [])).exec (ledgerSession 7 3 []) =
        (.ok (ledger 7 3, q), t) ∧ (∃ w, q.window = some w ∧ w.limit.toNat = 10000) ∧
      ∃ q' t', (prepare "entry" (twoSizesRequest [("owner", .str "ann")])).exec
        (ledgerSession 7 3 []) = (.ok (ledger 7 3, q'), t') ∧ q'.window = q.window := by
  have hrun := prepare_twoSizes [] (by decide)
  have hother := prepare_twoSizes [("owner", .str "ann")] (by decide)
  have haccepted : ListRequest.ofJson (.obj (twoSizes [])) = .ok (twoSizesRequest []) := rfl
  have haccepted' : ListRequest.ofJson (.obj (twoSizes [("owner", .str "ann")])) =
      .ok (twoSizesRequest [("owner", .str "ann")]) := rfl
  obtain ⟨⟨n, w, hn, hw, hlimit⟩, hsame⟩ :=
    requested_size_clamped haccepted rfl (by decide) hrun
  have hnumber : (Json.str " 20000").number? = some 20000 := by decide
  obtain rfl : 20000 = n := Option.some.inj (hnumber.symm.trans hn)
  exact ⟨_, _, hrun, ⟨w, hw, hlimit⟩, _, _, hother, hsame _ _ _ _ _ haccepted' rfl hother⟩

/-- **A page that is named is the one that is reported, just when a page size is in effect.**  The
    request may give one, or the model a positive one, or the default is taken for a model that has
    no limits.  Limits without a size take the place of the default: then all rows are on one page,
    which is reported as the first one. -/
theorem named_page_reported_iff {members : List (String × Json)} {v : Json}
    (haccepted : ListRequest.ofJson (.obj members) = .ok r) (hnames : (members.map (·.1)).Nodup)
    (hpage : ("page", v) ∈ members) (hv : v ≠ .null) (hdefault : 0 < s.settings.defaultPageSize)
    (hmax : 0 < s.settings.maxPageSize) (hrun : (prepare model r).exec s = (.ok (m, q), t)) :
    ∃ n, v.number? = some n ∧
      (q.window ≠ none ↔
        (∃ x ∈ members, givesSize x = true) ∨ ∀ l, m.limit = some l → 0 < l.limit) ∧
      ∀ page u, (list model r).exec s = (.ok page, u) →
        (page.number.toNat = n ↔ q.window ≠ none ∨ n = 1) ∧
        (q.window = none → page.number = 1 ∧ page.size = 0) := by
  obtain ⟨hwell, -, -⟩ := ListRequest.of_ofJson haccepted
  obtain ⟨base, u, -, -, hwindow⟩ := window_of_prepare hwell hrun
  obtain ⟨n, hn, hheld⟩ := ListRequest.page_of_mem haccepted hnames hpage hv
  have hone : 1 ≤ n.toNat := hwell.page n hn
  have hpageOf : max (r.pageOf m).toNat 1 = n.toNat := by
    rw [ListRequest.pageOf, hn, Option.getD_some, Nat.max_eq_left hone]
  have hsize := ListRequest.sizeOf_pos_iff hwell hn hdefault hmax m
  rw [ListRequest.pageSize_isSome_iff haccepted] at hsize
  refine ⟨n.toNat, Json.number?_of_held hheld, ?_, fun page u hlist => ?_⟩
  · rw [← hsize, UInt64.pos_iff_ne_zero]
    exact ne_none_iff_of_windowOf hwindow
  · obtain ⟨rows, total, rfl⟩ := page_of_list hrun hlist
    -- without a size there is no window, and the page is reported as the first of size zero
    by_cases hzero : r.sizeOf s.settings m = 0
    · have hnone : q.window = none := by
        by_contra hsome
        exact (ne_none_iff_of_windowOf hwindow).1 hsome hzero
      rw [hnone]
      refine ⟨⟨fun h => .inr h.symm, fun h => ?_⟩, fun _ => ⟨rfl, rfl⟩⟩
      exact (h.resolve_left fun h => h rfl).symm
    · obtain ⟨w, hw, htakes, hrange⟩ := takes_of_windowOf hzero hwindow
      have hpos := UInt64.pos_iff_ne_zero.2 hzero
      rw [hpageOf] at htakes hrange
      rw [hw]
      exact ⟨⟨fun _ => .inl nofun, fun _ => (htakes.page_of hpos hone hrange rows total).1⟩, nofun⟩

/-- A request for the second page. -/
def secondPage : ListRequest where
  page := some 2

/-- The ledger with two rows to come, which its datasource counts first. -/
def twoEntries (size : UInt64) : Session :=
  ledgerSession 0 size [.rows [] 0, .rows [[("id", .text "c")], [("id", .text "d")]] 0]

/-- The second page of a ledger with a page size is reported as the second one. -/
theorem second_page_reported :
    ∃ page t, (list "entry" secondPage).exec (twoEntries 2) = (.ok page, t) ∧
      page.number.toNat = 2 := by
  have hrun : (prepare "entry" secondPage).exec (twoEntries 2) =
      (.ok (ledger 0 2, ledgerQuery (some ⟨2, 2⟩)), twoEntries 2) :=
    prepare_ledger rfl rfl (by decide) (by decide)
  have haccepted : ListRequest.ofJson (.obj [("page", .str "2")]) = .ok secondPage := rfl
  obtain ⟨t, hlist⟩ := exec_list_of_replies hrun (Connection.exec_ensureOpen rfl) rfl
  obtain ⟨n, hn, -, hreported⟩ := named_page_reported_iff haccepted (by decide)
    (List.mem_singleton_self _) nofun (by decide) (by decide) hrun
  have hnumber : (Json.str "2").number? = some 2 := by decide
  obtain rfl : 2 = n := Option.some.inj (hnumber.symm.trans hn)
  exact ⟨_, t, hlist, (hreported _ _ hlist).1.2 (.inl nofun)⟩

/-- The second page of a ledger whose limits have no page size is the whole ledger, and it is
    reported as the first one. -/
theorem second_page_lost :
    ListRequest.ofJson (.obj [("page", .str "2")]) = .ok secondPage ∧
    0 < (twoEntries 0).settings.defaultPageSize ∧ 0 < (twoEntries 0).settings.maxPageSize ∧
    (prepare "entry" secondPage).exec (twoEntries 0) =
      (.ok (ledger 0 0, ledgerQuery none), twoEntries 0) ∧
    ∃ page t, (list "entry" secondPage).exec (twoEntries 0) = (.ok page, t) ∧
      page.number = 1 := by
  have hrun : (prepare "entry" secondPage).exec (twoEntries 0) =
      (.ok (ledger 0 0, ledgerQuery none), twoEntries 0) :=
    prepare_ledger rfl rfl (by decide) (by decide)
  obtain ⟨t, hlist⟩ := exec_list_of_replies hrun (Connection.exec_ensureOpen rfl) rfl
  exact ⟨rfl, by decide, by decide, hrun, _, t, hlist, rfl⟩

end Rows

end MetaQuery
