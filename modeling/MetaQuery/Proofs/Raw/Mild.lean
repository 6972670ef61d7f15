/-
  MetaQuery/Proofs/Raw/Mild.lean
  ==============================
  Texts put together from pieces that do no harm.

  A piece is mild when it closes its spans and shows neither a semicolon nor a keyword outside of
  them; how many parentheses it leaves open is counted.  Two pieces may form a keyword together, or
  a quote written twice, so one of them must stand apart from the other: a character at its end, or
  at its start, that is neither a quote nor a part of a word (`Mild.append`).  A whole text whose
  pieces are mild passes the check if its parentheses add up (`Mild.checkSafe`).
-/
import MetaQuery.Proofs.Raw.Mark
import MetaQuery.Proofs.Raw.Renumbering
import MetaQuery.Proofs.Raw.Woven

namespace MetaQuery.Raw

open Text

/-! ### Seams -/

/-- The character is neither a quote nor a part of a word. -/
def IsSeam (c : Char) : Prop := IsSeparator c ∧ isQuote c = false

instance (c : Char) : Decidable (IsSeam c) := inferInstanceAs (Decidable (_ ∧ _))

/-- The text is empty or starts with a seam. -/
def StartsApart (s : String) : Prop := s.toList.head?.all (fun c => decide (IsSeam c)) = true

/-- The text is empty or ends with a seam. -/
def EndsApart (s : String) : Prop := s.toList.getLast?.all (fun c => decide (IsSeam c)) = true

instance (s : String) : Decidable (StartsApart s) := inferInstanceAs (Decidable (_ = _))

instance (s : String) : Decidable (EndsApart s) := inferInstanceAs (Decidable (_ = _))

section
variable {s t : String}

theorem startsApart_iff :
    StartsApart s ↔ s.toList = [] ∨ ∃ c r, s.toList = c :: r ∧ IsSeam c := by
  unfold StartsApart
  cases s.toList with
  | nil => simp
  | cons c r => simp

theorem endsApart_iff :
    EndsApart s ↔ s.toList = [] ∨ ∃ r c, s.toList = r ++ [c] ∧ IsSeam c := by
  unfold EndsApart
  rcases List.eq_nil_or_concat s.toList with h | ⟨r, c, h⟩
  · simp [h]
  · rw [List.concat_eq_append] at h
    simp [h, and_assoc]

theorem StartsApart.append (hs : StartsApart s) (ht : StartsApart t) : StartsApart (s ++ t) := by
  rw [startsApart_iff] at *
  rw [String.toList_append]
  rcases hs with hs | ⟨c, r, hs, hc⟩
  · rwa [hs]
  · exact .inr ⟨c, r ++ t.toList, by rw [hs, List.cons_append], hc⟩

theorem EndsApart.append (hs : EndsApart s) (ht : EndsApart t) : EndsApart (s ++ t) := by
  rw [endsApart_iff] at *
  rw [String.toList_append]
  rcases ht with ht | ⟨r, c, ht, hc⟩
  · rwa [ht, List.append_nil]
  · exact .inr ⟨s.toList ++ r, c, by rw [ht, List.append_assoc], hc⟩

/-- Only the end of a text decides. -/
theorem endsApart_append_of_ne (ht : EndsApart t) (hne : t ≠ "") (s : String) :
    EndsApart (s ++ t) := by
  rw [endsApart_iff] at *
  rw [String.toList_append]
  rcases ht with ht | ⟨r, c, ht, hc⟩
  · exact absurd (String.toList_eq_nil_iff.1 ht) hne
  · exact .inr ⟨s.toList ++ r, c, by rw [ht, List.append_assoc], hc⟩

theorem startsApart_append_of_ne (hs : StartsApart s) (hne : s ≠ "") (t : String) :
    StartsApart (s ++ t) := by
  rw [startsApart_iff] at *
  rw [String.toList_append]
  rcases hs with hs | ⟨c, r, hs, hc⟩
  · exact absurd (String.toList_eq_nil_iff.1 hs) hne
  · exact .inr ⟨c, r ++ t.toList, by rw [hs, List.cons_append], hc⟩

end

/-! ### Mild texts -/

/-- How many more parentheses are opened than closed. -/
def excess (cs : List Char) : Int := cs.count '(' - cs.count ')'

theorem excess_append (a b : List Char) : excess (a ++ b) = excess a + excess b := by
  simp only [excess, List.count_append]
  omega

/-- What is read of a mild text. -/
structure MildReading (e : Int) (x : List Char) : Prop where
  semicolon : ';' ∉ x
  words : Tame x
  excess : excess x = e

/-- The text closes its spans, shows no semicolon and no keyword outside of them, and leaves `e`
    parentheses open there. -/
def Mild (e : Int) (s : String) : Prop := ∃ x, bare? s.toList = some x ∧ MildReading e x

section
variable {e f : Int} {s t : String}

/-- Plain text is read as it is. -/
theorem mild_plain (h : Unquoted s.toList ∧ ';' ∉ s.toList ∧ Tame s.toList ∧
    Raw.excess s.toList = e) : Mild e s :=
  ⟨s.toList, bare?_unquoted h.1, h.2.1, h.2.2.1, h.2.2.2⟩

theorem MildReading.append {x y : List Char} (hx : MildReading e x) (hy : MildReading f y)
    (hwords : Tame (x ++ y)) : MildReading (e + f) (x ++ y) where
  semicolon := fun h => (List.mem_append.1 h).elim hx.semicolon hy.semicolon
  words := hwords
  excess := by rw [excess_append, hx.excess, hy.excess]

/-- A character that is no quote is read as it is, also behind a text. -/
theorem bare?_append_singleton {cs x : List Char} {c : Char} (hc : isQuote c = false)
    (h : bare? (cs ++ [c]) = some x) : ∃ y, bare? cs = some y ∧ x = y ++ [c] := by
  have hplain : Unquoted [c] := fun d hd => List.mem_singleton.1 hd ▸ hc
  cases hread : bare? cs with
  | none =>
    rw [bare?, bareFrom_append_of_none (by simp) hread hplain] at h
    cases h
  | some y =>
    rw [bare?_append hread hplain.startsPlain, bare?_unquoted hplain] at h
    exact ⟨y, rfl, (Option.some.inj h).symm⟩

theorem bare?_cons_of_seam {c : Char} (hc : IsSeam c) (r : List Char) :
    bare? (c :: r) = (bare? r).map (c :: ·) := bareFrom_cons_of_not_quote hc.2 r

theorem IsSeam.startsPlain {c : Char} (hc : IsSeam c) (r : List Char) : StartsPlain (c :: r) := by
  intro d hd
  obtain rfl : c = d := Option.some.inj hd
  exact hc.2

/-- Two mild texts of which one stands apart from the other are a mild one. -/
theorem Mild.append (hs : Mild e s) (ht : Mild f t) (hseam : EndsApart s ∨ StartsApart t) :
    Mild (e + f) (s ++ t) := by
  obtain ⟨x, hx, hxmild⟩ := hs
  obtain ⟨y, hy, hymild⟩ := ht
  suffices h : bare? (s.toList ++ t.toList) = some (x ++ y) ∧ Tame (x ++ y) by
    rw [Mild, String.toList_append]
    exact ⟨x ++ y, h.1, hxmild.append hymild h.2⟩
  -- one side of the seam is a plain separator, so neither a span nor a word reaches across
  rcases hseam with hend | hstart
  · rcases endsApart_iff.1 hend with hempty | ⟨r, c, hlast, hc⟩
    · rw [hempty] at hx ⊢
      obtain rfl := Option.some.inj hx
      exact ⟨hy, hymild.words⟩
    · rw [hlast] at hx ⊢
      obtain ⟨z, hz, rfl⟩ := bare?_append_singleton hc.2 hx
      have hwords := (tame_append_cons hc.1 z []).1 hxmild.words
      rw [List.append_assoc, List.append_assoc, List.singleton_append, List.singleton_append]
      refine ⟨bare?_append_eq_some hz (hc.startsPlain _) ?_, ?_⟩
      · rw [bare?_cons_of_seam hc, hy]
        rfl
      · exact (tame_append_cons hc.1 z y).2 ⟨hwords.1, hymild.words⟩
  · rcases startsApart_iff.1 hstart with hempty | ⟨c, r, hfirst, hc⟩
    · rw [hempty] at hy ⊢
      obtain rfl := Option.some.inj hy
      rw [List.append_nil, List.append_nil]
      exact ⟨hx, hxmild.words⟩
    · rw [hfirst] at hy ⊢
      refine ⟨bare?_append_eq_some hx (hc.startsPlain r) hy, ?_⟩
      rw [bare?_cons_of_seam hc] at hy
      obtain ⟨z, -, rfl⟩ := Option.map_eq_some_iff.1 hy
      exact (tame_append_cons hc.1 x z).2 ⟨hxmild.words, (tame_cons hc.1 z).1 hymild.words⟩

/-- A mild text stays mild behind a word with a seam at its end. -/
theorem Mild.behind {word : String} (h : Mild e s) (hword : Mild 0 word)
    (hend : EndsApart word) : Mild e (word ++ s) := by
  have hwhole := hword.append h (.inl hend)
  rwa [Int.zero_add] at hwhole

/-- A mild text whose parentheses add up passes the check. -/
theorem Mild.checkSafe (h : Mild 0 s) : checkSafe s = .ok () := by
  obtain ⟨x, hx, hmild⟩ := h
  have hparens : ParenBalanced x := by
    have hexcess := hmild.excess
    rw [Raw.excess] at hexcess
    rw [ParenBalanced]
    omega
  have hsemicolon := semicolonLast_of_notMem hmild.semicolon
  exact (checkSafe_eq_ok_iff s).2 ⟨x, hx, hsemicolon, hmild.words, hparens⟩

end

/-! ### Pieces of queries -/

/-- The text has no characters but parentheses. -/
def IsBrackets (s : String) : Prop := ∀ c ∈ s.toList, c = '(' ∨ c = ')'

instance (s : String) : Decidable (IsBrackets s) :=
  List.decidableBAll (fun c => c = '(' ∨ c = ')') s.toList

section
variable {s t : String}

theorem IsBrackets.append (hs : IsBrackets s) (ht : IsBrackets t) : IsBrackets (s ++ t) := by
  intro c hc
  rw [String.toList_append] at hc
  exact (List.mem_append.1 hc).elim (hs c) (ht c)

theorem isSeam_of_bracket {c : Char} (h : c = '(' ∨ c = ')') : IsSeam c := by
  rcases h with rfl | rfl
  · decide
  · decide

theorem IsBrackets.startsApart (h : IsBrackets s) : StartsApart s := by
  rw [startsApart_iff]
  cases hs : s.toList with
  | nil => exact .inl rfl
  | cons c r => exact .inr ⟨c, r, rfl, isSeam_of_bracket (h c (hs ▸ List.mem_cons_self))⟩

theorem IsBrackets.endsApart (h : IsBrackets s) : EndsApart s := by
  rw [endsApart_iff]
  rcases List.eq_nil_or_concat s.toList with hs | ⟨r, c, hs⟩
  · exact .inl hs
  · rw [List.concat_eq_append] at hs
    exact .inr ⟨r, c, hs, isSeam_of_bracket (h c (by simp [hs]))⟩

theorem IsBrackets.mild (h : IsBrackets s) : Mild (excess s.toList) s := by
  have hseams : ∀ c ∈ s.toList, IsSeam c := fun c hc => isSeam_of_bracket (h c hc)
  -- brackets and blanks part words, so no word is left between them
  have htame : ∀ cs : List Char, (∀ c ∈ cs, IsSeam c) → Tame cs := by
    intro cs
    induction cs with
    | nil => exact fun _ => tame_nil
    | cons c cs ih =>
      intro hcs
      have hrest := ih fun x hx => hcs x (List.mem_cons_of_mem c hx)
      exact (tame_cons (hcs c List.mem_cons_self).1 cs).2 hrest
  refine mild_plain ⟨fun c hc => (hseams c hc).2, fun hc => ?_, htame _ hseams, rfl⟩
  rcases h ';' hc with heq | heq
  · exact absurd heq (by decide)
  · exact absurd heq (by decide)

/-- A column is mild, whatever its table and the column itself are called. -/
theorem mild_column (d : Dialect) (table name : String) : Mild 0 (d.column table name) := by
  have hread := bare?_column_append d table name (r := []) nofun rfl
  rw [List.append_nil, List.append_nil] at hread
  refine ⟨columnReading table, hread, ?_⟩
  unfold columnReading
  split
  · exact ⟨by decide, by decide, by decide⟩
  · exact ⟨by decide, by decide, by decide⟩

theorem mild_table (d : Dialect) (schema name : String) : Mild 0 (d.table schema name) :=
  mild_column d schema name

theorem mild_quote (d : Dialect) (ident : String) : Mild 0 (d.quote ident) := mild_column d "" ident

theorem isNumber_toDigits (n : Nat) : IsNumber (Nat.toDigits 10 n) :=
  ⟨Nat.toDigits_ne_nil, fun c hc => Nat.isDigit_of_mem_toDigits (by decide) (by decide) hc⟩

theorem tame_number {m : List Char} (h : IsNumber m) : Tame ('$' :: m) := by
  have hone : IsNumber ['1'] := ⟨List.cons_ne_nil _ _, List.forall_mem_singleton.2 rfl⟩
  have hnumber := Renumbered.nil.number hone h
  rw [List.append_nil, List.append_nil] at hnumber
  exact hnumber.tame (by decide)

/-- What is written for an argument is mild, whatever its number is. -/
theorem mild_slotText (d : Dialect) (n : Nat) (v : Cell) :
    Mild 0 (String.ofList (slotText d n v)) := by
  have hwords : Tame (slotText d n v) := by
    unfold slotText
    split
    · decide
    · cases d with
      | mysql => exact show Tame "?".toList by decide
      | ansi => exact show Tame "?".toList by decide
      -- a dollar sign and a number, in which no keyword hides
      | postgres =>
        rw [Dialect.placeholder, String.toList_ofList]
        exact tame_number (isNumber_toDigits n)
  have hnone : ∀ c, isSlotChar c = false → (slotText d n v).count c = 0 :=
    fun c hc => List.count_eq_zero_of_not_mem (notMem_slotText hc d n v)
  apply mild_plain
  rw [String.toList_ofList, excess, hnone '(' (by decide), hnone ')' (by decide)]
  exact ⟨unquoted_slotText d n v, notMem_slotText (by decide) d n v, hwords, rfl⟩

/-- A number is mild. -/
theorem mild_intText (n : Nat) : Mild 0 (Decimal.intText n) := by
  have hdigits := isNumber_toDigits n
  have htext : (Decimal.intText n).toList = Nat.toDigits 10 n := by
    rw [Decimal.intText, if_neg (by omega), Int.natAbs_natCast, String.toList_ofList]
  apply mild_plain
  rw [htext, excess, List.count_eq_zero_of_not_mem (hdigits.notMem (by decide)),
    List.count_eq_zero_of_not_mem (hdigits.notMem (by decide))]
  refine ⟨fun c hc => isQuote_of_isDigit (hdigits.2 c hc), hdigits.notMem (by decide), ?_, rfl⟩
  exact (tame_cons (by decide) _).1 (tame_number hdigits)

theorem mem_upperChars {c : Char} (hc : upperChar c = [c]) {cs : List Char} (h : c ∈ cs) :
    c ∈ upperChars cs :=
  List.mem_flatMap.2 ⟨c, h, by rw [hc]; exact List.mem_singleton_self c⟩

theorem upperChar_of_isQuote {c : Char} (h : isQuote c = true) : upperChar c = [c] := by
  simp only [isQuote, Bool.or_eq_true, beq_iff_eq] at h
  rcases h with (rfl | rfl) | rfl
  · decide
  · decide
  · decide

/-- Of a text without quotes, semicolons and parentheses only the upper case matters. -/
theorem mild_of_upper {u : List Char} (h : upperChars s.toList = u)
    (hplain : Unquoted u ∧ ';' ∉ u ∧ '(' ∉ u ∧ ')' ∉ u)
    (hwords : ∀ w ∈ (splitBy (fun c => !isWordChar c) u).map String.ofList,
      dangerousKeywords.contains w = false) : Mild 0 s := by
  obtain ⟨hquotes, hsemicolon, hopening, hclosing⟩ := hplain
  -- a character that is its own upper case is in the text if it is in the upper-cased one
  have hnone : ∀ {c : Char}, upperChar c = [c] → c ∉ u → c ∉ s.toList := fun hc hu hmem =>
    hu (h ▸ mem_upperChars hc hmem)
  refine mild_plain ⟨fun c hc => ?_, hnone (by decide) hsemicolon, ?_, ?_⟩
  · by_contra hquote
    rw [Bool.not_eq_false] at hquote
    have hupper := hquotes c (h ▸ mem_upperChars (upperChar_of_isQuote hquote) hc)
    rw [hquote] at hupper
    cases hupper
  · rw [Tame, upperWords, h]
    exact hwords
  · rw [excess, List.count_eq_zero_of_not_mem (hnone (by decide) hopening),
      List.count_eq_zero_of_not_mem (hnone (by decide) hclosing)]
    rfl

end

/-! ### Lists of pieces -/

theorem mild_join {items : List String} (h : ∀ s ∈ items, Mild 0 s ∧ StartsApart s) :
    Mild 0 (String.join items) ∧ StartsApart (String.join items) := by
  induction items with
  | nil => exact ⟨mild_plain (by decide), by decide⟩
  | cons s r ih =>
    obtain ⟨hs, hstart⟩ := h s List.mem_cons_self
    obtain ⟨hr, hrest⟩ := ih fun x hx => h x (List.mem_cons_of_mem s hx)
    rw [String.join_cons]
    exact ⟨hs.append hr (.inr hrest), hstart.append hrest⟩

theorem mild_joinWith {items : List String} (h : ∀ s ∈ items, Mild 0 s) :
    Mild 0 (joinWith ", " items) := by
  have hcomma : Mild 0 ", " := mild_plain (by decide)
  fun_induction joinWith ", " items with
  | case1 => exact mild_plain (by decide)
  | case2 s => exact h s List.mem_cons_self
  | case3 s t r ih =>
    have hrest := ih fun x hx => h x (List.mem_cons_of_mem s hx)
    have hfront := (h s List.mem_cons_self).append hcomma (.inr (by decide))
    exact hfront.append hrest (.inl (endsApart_append_of_ne (by decide) (by decide) s))

end MetaQuery.Raw
