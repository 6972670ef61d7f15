/-
  MetaQuery/Proofs/Raw/Woven.lean
  ===============================
  Texts woven from plain text and quoted identifiers.

  Two quoted identifiers may stand side by side, and then the quotes between them are read as one
  quote written twice: the two spans become one, but nothing stays open.  So a woven text in front
  of a text whose spans are closed is closed with it, wherever the spans end (`Woven.append`), and
  this is all that templates, brackets and lists need.

  Where what follows starts plain, more is known: texts that read the same stay so when the same
  plain text and further texts that read the same are put behind them (`SameReading.join`).
-/
import Mathlib.Data.List.TakeWhile
import MetaQuery.Proofs.Raw.Hazard
import MetaQuery.Query.Expression

namespace MetaQuery

open Text

/-! ### Plain text -/

namespace Raw

theorem Unquoted.append {a b : List Char} (ha : Unquoted a) (hb : Unquoted b) :
    Unquoted (a ++ b) := by
  intro c hc
  rcases List.mem_append.1 hc with hc | hc
  · exact ha c hc
  · exact hb c hc

theorem Unquoted.of_subset {a b : List Char} (hb : Unquoted b) (h : a ⊆ b) : Unquoted a :=
  fun c hc => hb c (h hc)

theorem trimBlanks_subset (cs : List Char) : trimBlanks cs ⊆ cs := by
  obtain ⟨front, back, hcs, -, -⟩ := exists_trimBlanks cs
  intro c hc
  rw [hcs]
  exact List.mem_append_left back (List.mem_append_right front hc)

theorem Unquoted.trimBlanks {cs : List Char} (h : Unquoted cs) : Unquoted (trimBlanks cs) :=
  h.of_subset (trimBlanks_subset cs)

/-- The code points of the quotes. -/
def quoteCodes : List Nat := ['\''.toNat, '"'.toNat, '\x60'.toNat]

theorem isQuote_eq_false_iff (c : Char) : isQuote c = false ↔ c.toNat ∉ quoteCodes := by
  have hcode : ∀ q : Char, c = q ↔ c.toNat = q.toNat := fun q => Char.toNat_inj.symm
  simp only [isQuote, Bool.or_eq_false_iff, beq_eq_false_iff_ne, ne_eq, quoteCodes, List.mem_cons,
    List.not_mem_nil, or_false, not_or, hcode, and_assoc]

theorem isQuote_ofNat {n : Nat} (h : n ∉ quoteCodes) : isQuote (Char.ofNat n) = false := by
  rw [isQuote_eq_false_iff]
  by_cases hn : n.isValidChar
  · rw [Char.ofNat, dif_pos hn]
    exact h
  · rw [Char.ofNat, dif_neg hn]
    decide

/-- The run moves no character to a quote. -/
def avoidsQuotes (r : CaseRun) : Bool :=
  quoteCodes.all fun q => decide ((q : Int) - r.shift < r.first ∨ (r.last : Int) < q - r.shift)

theorem move_notMem_quoteCodes {r : CaseRun} (hr : avoidsQuotes r = true) {n : Nat}
    (hn : r.covers n = true) : r.move n ∉ quoteCodes := by
  intro hmem
  have havoid := of_decide_eq_true (List.all_eq_true.1 hr _ hmem)
  have hpos : r.move n ≠ 0 := by
    rintro h
    rw [h] at hmem
    revert hmem
    decide
  simp only [CaseRun.covers, Bool.and_eq_true, decide_eq_true_eq] at hn
  simp only [CaseRun.move, Int.ofNat_eq_natCast] at havoid hpos
  omega

/-- No character becomes a quote in upper case unless it is one. -/
theorem unquoted_upperChar {c : Char} (h : isQuote c = false) : Unquoted (upperChar c) := by
  -- the tables are finite: no run or expansion leads to a quote
  have hruns : ∀ r ∈ upperRuns, avoidsQuotes r = true := by decide +kernel
  have hexpansions : ∀ e ∈ upperExpansions, Unquoted (e.2.map Char.ofNat) := by decide
  have hascii : ∀ n ∈ List.range 128, isQuote (Char.ofNat n) = false →
      isQuote (Char.ofNat n).toUpper = false := by decide +kernel
  fun_cases upperChar c with
  | case1 hcode =>
    have hc := hascii c.toNat (List.mem_range.2 hcode)
    rw [Char.ofNat_toNat] at hc
    intro x hx
    rw [List.mem_singleton.1 hx]
    exact hc h
  | case2 hcode =>
    fun_cases upperBeyondAscii c with
    | case1 cs hlookup =>
      obtain ⟨front, back, htable, -⟩ := List.lookup_eq_some_iff.1 hlookup
      refine hexpansions (c.toNat, cs) ?_
      rw [htable]
      exact List.mem_append_right front List.mem_cons_self
    | case2 hnone r hrun =>
      intro x hx
      rw [List.mem_singleton.1 hx]
      have hcovers := List.find?_some hrun
      exact isQuote_ofNat (move_notMem_quoteCodes (hruns r (List.mem_of_find?_eq_some hrun)) hcovers)
    | case3 hnone hrun =>
      intro x hx
      rw [List.mem_singleton.1 hx]
      exact h

theorem Unquoted.upperChars {cs : List Char} (h : Unquoted cs) : Unquoted (upperChars cs) := by
  intro x hx
  obtain ⟨c, hc, hxc⟩ := List.mem_flatMap.1 hx
  exact unquoted_upperChar (h c hc) x hxc

theorem Unquoted.trim {s : String} (h : Unquoted s.toList) : Unquoted (Text.trim s).toList := by
  rw [toList_trim]
  exact h.trimBlanks

theorem Unquoted.upper {s : String} (h : Unquoted s.toList) : Unquoted (Text.upper s).toList := by
  rw [toList_upper]
  exact h.upperChars

theorem Unquoted.keyword {fallback s : String} (hf : Unquoted fallback.toList)
    (h : Unquoted s.toList) : Unquoted (keyword fallback s).toList := by
  dsimp only [MetaQuery.keyword]
  split
  · exact hf
  · exact h.trim.upper

/-! ### Woven texts -/

/-- What closes all its spans closes them behind the text as well. -/
def Woven (s : String) : Prop :=
  ∀ r, (bare? r).isSome = true → (bare? (s.toList ++ r)).isSome = true

theorem Woven.closed {s : String} (h : Woven s) : (bare? s.toList).isSome = true := by
  have hnil := h [] rfl
  rwa [List.append_nil] at hnil

theorem Woven.append {s t : String} (hs : Woven s) (ht : Woven t) : Woven (s ++ t) := by
  intro r hr
  rw [String.toList_append, List.append_assoc]
  exact hs _ (ht r hr)

theorem Unquoted.woven {s : String} (h : Unquoted s.toList) : Woven s := by
  intro r hr
  obtain ⟨y, hy⟩ := Option.isSome_iff_exists.1 hr
  rw [bare?_unquoted_append h hy]
  rfl

theorem woven_empty : Woven "" := Unquoted.woven (by decide)

theorem woven_quote (d : Dialect) (ident : String) : Woven (d.quote ident) := by
  intro r hr
  rw [Dialect.quote, String.toList_ofList]
  have hquote := isQuote_quoteChar d
  by_cases hhead : r.head? = some d.quoteChar
  · -- the quote that opens `r` makes the closing one a quote written twice, and the span goes on
    obtain ⟨r', rfl⟩ : ∃ r', r = d.quoteChar :: r' := by
      cases r with
      | nil => cases hhead
      | cons c r' =>
        obtain rfl : c = d.quoteChar := Option.some.inj hhead
        exact ⟨r', rfl⟩
    have htext : enclose d.quoteChar ident.toList ++ d.quoteChar :: r' =
        d.quoteChar :: (double d.quoteChar ident.toList ++
          d.quoteChar :: d.quoteChar :: r') := by
      simp [enclose]
    rw [bare?, htext, bareFrom_cons_of_quote hquote, bareFrom_some_double, bareFrom_some_twice]
    rwa [bare?, bareFrom_cons_of_quote hquote] at hr
  · rw [bare?, bareFrom_enclose hquote ident.toList hhead, Option.isSome_map]
    exact hr

theorem woven_column (d : Dialect) (table name : String) : Woven (d.column table name) := by
  have hdot : Woven "." := Unquoted.woven (by decide)
  unfold Dialect.column
  split
  · exact woven_quote d name
  · exact ((woven_quote d table).append hdot).append (woven_quote d name)

theorem woven_table (d : Dialect) (schema name : String) : Woven (d.table schema name) :=
  woven_column d schema name

/-- A function around a woven expression, whether it is a template or a name. -/
theorem Woven.applyFunction {function expr : String} (hf : Unquoted function.toList)
    (h : Woven expr) : Woven (applyFunction function expr) := by
  have hname := hf.trimBlanks
  -- each hole takes the whole expression; the text between holes has no quote
  have hholes : ∀ cs, Unquoted cs → Woven (String.ofList (fillHoles expr.toList cs)) := by
    intro cs
    fun_induction fillHoles expr.toList cs with
    | case1 r ih =>
      intro hcs
      have hr := ih (hcs.of_subset fun c hc =>
        List.mem_cons_of_mem _ (List.mem_cons_of_mem _ hc))
      rw [String.ofList_append, String.ofList_toList]
      exact h.append hr
    | case2 c r _ ih =>
      intro hcs
      have hc : Woven (String.ofList [c]) := by
        refine Unquoted.woven fun x hx => ?_
        rw [String.toList_ofList] at hx
        rw [List.mem_singleton.1 hx]
        exact hcs c List.mem_cons_self
      have hr := ih (hcs.of_subset fun x hx => List.mem_cons_of_mem _ hx)
      have htext : String.ofList (c :: fillHoles expr.toList r) =
          String.ofList [c] ++ String.ofList (fillHoles expr.toList r) := by
        rw [← String.ofList_append]
        rfl
      rw [htext]
      exact hc.append hr
    | case3 => exact fun _ => Unquoted.woven (by decide)
  dsimp only [MetaQuery.applyFunction]
  split
  · exact h
  · split
    · exact hholes _ hname
    · have hfront : Woven (String.ofList (trimBlanks function.toList)) :=
        Unquoted.woven (by rwa [String.toList_ofList])
      exact ((hfront.append (Unquoted.woven (by decide))).append h).append
        (Unquoted.woven (by decide))

/-- Woven texts listed with plain text between them. -/
theorem woven_joinWith {sep : String} (hsep : Unquoted sep.toList) {items : List String}
    (h : ∀ s ∈ items, Woven s) : Woven (joinWith sep items) := by
  fun_induction joinWith sep items with
  | case1 => exact Unquoted.woven (by decide)
  | case2 s => exact h s List.mem_cons_self
  | case3 s t r ih =>
    have hrest := ih fun x hx => h x (List.mem_cons_of_mem s hx)
    exact ((h s List.mem_cons_self).append hsep.woven).append hrest

theorem woven_join {items : List String} (h : ∀ s ∈ items, Woven s) :
    Woven (String.join items) := by
  induction items with
  | nil => exact Unquoted.woven (by decide)
  | cons s r ih =>
    have hrest := ih fun x hx => h x (List.mem_cons_of_mem s hx)
    rw [String.join_cons]
    exact (h s List.mem_cons_self).append hrest

/-! ### Texts that read the same -/

/-- Both texts close their spans, and what stands outside of them is the same. -/
def SameReading (a b : List Char) : Prop := ∃ x, bare? a = some x ∧ bare? b = some x

theorem Woven.sameReading {s : String} (h : Woven s) : SameReading s.toList s.toList := by
  obtain ⟨x, hx⟩ := Option.isSome_iff_exists.1 h.closed
  exact ⟨x, hx, hx⟩

theorem SameReading.bare?_eq {a b : List Char} (h : SameReading a b) : bare? a = bare? b := by
  obtain ⟨x, ha, hb⟩ := h
  rw [ha, hb]

theorem SameReading.append {a b r s : List Char} (h : SameReading a b) (hr : StartsPlain r)
    (hs : StartsPlain s) (h' : SameReading r s) : SameReading (a ++ r) (b ++ s) := by
  obtain ⟨x, ha, hb⟩ := h
  obtain ⟨y, hy, hy'⟩ := h'
  exact ⟨x ++ y, bare?_append_eq_some ha hr hy, bare?_append_eq_some hb hs hy'⟩

theorem SameReading.behind {r s : List Char} (h : SameReading r s) {u : List Char}
    (hu : Unquoted u) : SameReading (u ++ r) (u ++ s) := by
  obtain ⟨y, hr, hs⟩ := h
  exact ⟨u ++ y, bare?_unquoted_append hu hr, bare?_unquoted_append hu hs⟩

theorem trimStart_append_of_allBlank {a : List Char} (ha : AllBlank a) (b : List Char) :
    trimStart (a ++ b) = trimStart b := by
  rw [trimStart, trimStart, List.dropWhile_append_of_pos ha]

theorem trimBlanks_between {a b : List Char} (ha : AllBlank a) (hb : AllBlank b)
    (cs : List Char) : trimBlanks (a ++ cs ++ b) = trimBlanks cs := by
  have hend : ∀ x : List Char, trimEnd (x ++ b) = trimEnd x := by
    intro x
    have hblank : AllBlank b.reverse := fun c hc => hb c (List.mem_reverse.1 hc)
    rw [trimEnd, List.reverse_append, trimStart_append_of_allBlank hblank, ← trimEnd]
  have hnone : trimStart b = [] := by
    rw [trimStart, List.dropWhile_eq_nil_iff]
    exact hb
  rw [List.append_assoc, trimBlanks, trimStart_append_of_allBlank ha, trimBlanks, trimStart,
    List.dropWhile_append, ← trimStart, ← trimStart, hnone]
  split
  · next hempty => rw [List.isEmpty_iff.1 hempty]
  · exact hend (trimStart cs)

/-- The hazard of a text whose spans are closed is that of what stands outside of them. -/
theorem hazard?_of_bare? {sql x : List Char} (h : bare? sql = some x) :
    hazard? sql = bareHazard? (trimBlanks x) := by
  obtain ⟨front, back, hsql, hfront, hback⟩ := exists_trimBlanks sql
  have hbare : bare? sql = (bare? (trimBlanks sql)).map (front ++ · ++ back) := by
    conv => lhs; rw [hsql]
    exact bare?_between (unquoted_of_allBlank hfront) (unquoted_of_allBlank hback) _
  rw [h] at hbare
  obtain ⟨y, hy, hx⟩ := Option.map_eq_some_iff.1 hbare.symm
  rw [hazard?, hy, ← hx, trimBlanks_between hfront hback]

/-- The check finds the same hazard in texts that read the same. -/
theorem SameReading.checkSafe_eq {s t : String} (h : SameReading s.toList t.toList) :
    checkSafe s = checkSafe t := by
  obtain ⟨x, hs, ht⟩ := h
  rw [checkSafe, checkSafe, hazard?_of_bare? hs, hazard?_of_bare? ht]

end Raw

end MetaQuery
