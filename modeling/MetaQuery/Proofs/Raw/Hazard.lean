/-
  MetaQuery/Proofs/Raw/Hazard.lean
  ================================
  What a text without hazards is made of.

  The check trims a text, takes the quoted spans out of it, trims it again and then looks for
  semicolons, keywords and parentheses.  Blanks at the ends make no difference to any of them, so a
  text passes just when it is harmless as it stands (`checkSafe_eq_ok_iff`).  That form suits texts
  that are put together: the three properties of the whole are those of its pieces, wherever a
  character between them ends all words.
-/
import MetaQuery.Proofs.Raw.Bare

namespace MetaQuery

/-! ### Blanks at the ends -/

namespace Text

/-- All characters of the text are blank. -/
def AllBlank (cs : List Char) : Prop := ∀ c ∈ cs, isBlank c = true

instance (cs : List Char) : Decidable (AllBlank cs) :=
  List.decidableBAll (fun c => isBlank c = true) cs

theorem exists_trimStart (cs : List Char) :
    ∃ front, cs = front ++ trimStart cs ∧ AllBlank front := by
  refine ⟨cs.takeWhile isBlank, List.takeWhile_append_dropWhile.symm, ?_⟩
  exact List.all_eq_true.1 List.all_takeWhile

theorem exists_trimEnd (cs : List Char) : ∃ back, cs = trimEnd cs ++ back ∧ AllBlank back := by
  obtain ⟨front, hfront, hblank⟩ := exists_trimStart cs.reverse
  refine ⟨front.reverse, ?_, fun c hc => hblank c (List.mem_reverse.1 hc)⟩
  rw [trimEnd, ← List.reverse_append, ← hfront, List.reverse_reverse]

/-- Trimming takes blanks off both ends. -/
theorem exists_trimBlanks (cs : List Char) :
    ∃ front back, cs = front ++ trimBlanks cs ++ back ∧ AllBlank front ∧ AllBlank back := by
  obtain ⟨front, hfront, hblank⟩ := exists_trimStart cs
  obtain ⟨back, hback, hblank'⟩ := exists_trimEnd (trimStart cs)
  refine ⟨front, back, ?_, hblank, hblank'⟩
  rw [List.append_assoc, trimBlanks, ← hback, ← hfront]

/-- A trimmed text does not end with a blank. -/
theorem isBlank_getLast?_trimBlanks {cs : List Char} {c : Char}
    (h : (trimBlanks cs).getLast? = some c) : isBlank c = false := by
  rw [trimBlanks, trimEnd, List.getLast?_reverse] at h
  have hdrop := List.head?_dropWhile_not isBlank (trimStart cs).reverse
  rw [← trimStart, h] at hdrop
  simpa using hdrop

/-- The code points of the blanks. -/
def blankCodes : List Nat :=
  List.range' 9 5 ++ [0x20, 0x85, 0xA0, 0x1680] ++ List.range' 0x2000 11 ++
    [0x2028, 0x2029, 0x202F, 0x205F, 0x3000]

theorem toNat_mem_blankCodes {c : Char} (h : isBlank c = true) : c.toNat ∈ blankCodes := by
  simp only [isBlank, Bool.or_eq_true, Bool.and_eq_true, decide_eq_true_eq, beq_iff_eq] at h
  simp only [blankCodes, List.mem_append, List.mem_range'_1, List.mem_cons, List.not_mem_nil]
  omega

theorem splitBy_append_cons {p : Char → Bool} {c : Char} (hc : p c = true) (a b : List Char) :
    splitBy p (a ++ c :: b) = splitBy p a ++ splitBy p b := by
  induction a with
  | nil => simp [splitBy, hc]
  | cons x a ih =>
    by_cases hx : p x = true
    · simp [splitBy, hx, ih]
    · cases hpieces : splitBy p a with
      | nil => exact absurd hpieces (splitBy_ne_nil p a)
      | cons piece rest => simp [splitBy, hx, ih, hpieces]

end Text

open Text

namespace Raw

/-! ### Semicolons -/

/-- Behind a semicolon come only blanks. -/
def SemicolonLast : List Char → Prop
  | [] => True
  | c :: r => if c = ';' then AllBlank r else SemicolonLast r

instance decidableSemicolonLast : (cs : List Char) → Decidable (SemicolonLast cs)
  | [] => inferInstanceAs (Decidable True)
  | c :: r =>
    have := decidableSemicolonLast r
    inferInstanceAs (Decidable (if c = ';' then AllBlank r else SemicolonLast r))

theorem semicolonLast_append_of_notMem {a : List Char} (h : ';' ∉ a) (b : List Char) :
    SemicolonLast (a ++ b) ↔ SemicolonLast b := by
  induction a with
  | nil => rfl
  | cons c a ih =>
    have hc : c ≠ ';' := fun hc => h (hc ▸ List.mem_cons_self)
    rw [List.cons_append, SemicolonLast, if_neg hc]
    exact ih fun ha => h (List.mem_cons_of_mem c ha)

theorem semicolonLast_of_notMem {cs : List Char} (h : ';' ∉ cs) : SemicolonLast cs := by
  have hempty := semicolonLast_append_of_notMem h []
  rw [List.append_nil] at hempty
  exact hempty.2 trivial

/-- No semicolon stands in front of a text that is not blank. -/
theorem semicolonLast_append {b : List Char} (hb : ¬ AllBlank b) (a : List Char) :
    SemicolonLast (a ++ b) ↔ ';' ∉ a ∧ SemicolonLast b := by
  induction a with
  | nil => simp
  | cons c a ih =>
    rw [List.cons_append, SemicolonLast]
    by_cases hc : c = ';'
    · have hblank : ¬ AllBlank (a ++ b) := fun h => hb fun x hx => h x (List.mem_append_right a hx)
      simp [hc, hblank]
    · rw [if_neg hc, ih]
      simp [Ne.symm hc]

theorem semicolonLast_append_blank {b : List Char} (hb : AllBlank b) (a : List Char) :
    SemicolonLast (a ++ b) ↔ SemicolonLast a := by
  have hnone : ';' ∉ b := fun h => absurd (hb ';' h) (by decide)
  induction a with
  | nil => simp [semicolonLast_of_notMem hnone, SemicolonLast]
  | cons c a ih =>
    rw [List.cons_append, SemicolonLast, SemicolonLast]
    by_cases hc : c = ';'
    · rw [if_pos hc, if_pos hc]
      refine ⟨fun h x hx => h x (List.mem_append_left b hx), fun h x hx => ?_⟩
      exact (List.mem_append.1 hx).elim (h x) (hb x)
    · rw [if_neg hc, if_neg hc]
      exact ih

/-- Where no blank stands at the end, a text is several statements unless its only semicolon is its
    end. -/
theorem severalStatements_eq_false_iff {cs : List Char}
    (hlast : ∀ c, cs.getLast? = some c → isBlank c = false) :
    severalStatements cs = false ↔ SemicolonLast cs := by
  induction cs with
  | nil => simp [severalStatements, SemicolonLast]
  | cons c r ih =>
    cases r with
    | nil =>
      by_cases hc : c = ';'
      · simp [severalStatements, SemicolonLast, hc, AllBlank]
      · simp [severalStatements, SemicolonLast, hc]
    | cons d r =>
      have htail : (c :: d :: r).getLast? = (d :: r).getLast? := List.getLast?_cons_cons
      rw [htail] at hlast
      by_cases hc : c = ';'
      · -- what follows the semicolon ends with a visible character
        have hblank : ¬ AllBlank (d :: r) := by
          intro h
          have hmem := List.getLast_mem (List.cons_ne_nil d r)
          have hvisible := hlast _ (List.getLast?_eq_some_getLast (List.cons_ne_nil d r))
          rw [h _ hmem] at hvisible
          cases hvisible
        have hseveral : severalStatements (c :: d :: r) = true := by
          by_cases hmem : ';' ∈ d :: r
          · have hpos := List.count_pos_iff.2 hmem
            simp [severalStatements, hc, List.count_cons_self, hpos]
          · have hend : (d :: r).getLast? ≠ some ';' := fun h => hmem (List.mem_of_getLast? h)
            rw [severalStatements, htail]
            simp [hc, List.count_eq_zero_of_not_mem hmem, hend]
        rw [SemicolonLast, if_pos hc, hseveral]
        simp [hblank]
      · rw [SemicolonLast, if_neg hc, ← ih hlast, severalStatements, severalStatements, htail,
          List.count_cons_of_ne hc]

/-! ### Words -/

/-- The character stands between words. -/
def IsSeparator (c : Char) : Prop := upperChar c = [c] ∧ isWordChar c = false

instance (c : Char) : Decidable (IsSeparator c) := inferInstanceAs (Decidable (_ ∧ _))

theorem isSeparator_of_isBlank {c : Char} (h : isBlank c = true) : IsSeparator c := by
  have hall : ∀ n ∈ blankCodes, IsSeparator (Char.ofNat n) := by decide
  have hc := hall c.toNat (toNat_mem_blankCodes h)
  rwa [Char.ofNat_toNat] at hc

/-- The text has none of the dangerous keywords among its words. -/
def Tame (cs : List Char) : Prop := ∀ w ∈ upperWords cs, dangerousKeywords.contains w = false

instance (cs : List Char) : Decidable (Tame cs) :=
  List.decidableBAll (fun w => dangerousKeywords.contains w = false) (upperWords cs)

theorem tame_nil : Tame [] := by decide

theorem upperWords_append_cons {c : Char} (hc : IsSeparator c) (a b : List Char) :
    upperWords (a ++ c :: b) = upperWords a ++ upperWords b := by
  have hupper : upperChars (a ++ c :: b) = upperChars a ++ c :: upperChars b := by
    rw [upperChars_append, ← List.singleton_append, upperChars_append]
    simp [upperChars, hc.1]
  rw [upperWords, hupper, splitBy_append_cons (by simp [hc.2]), List.map_append]
  rfl

theorem tame_append_cons {c : Char} (hc : IsSeparator c) (a b : List Char) :
    Tame (a ++ c :: b) ↔ Tame a ∧ Tame b := by
  simp only [Tame, upperWords_append_cons hc, List.mem_append, or_imp, forall_and]

theorem tame_cons {c : Char} (hc : IsSeparator c) (b : List Char) : Tame (c :: b) ↔ Tame b := by
  have h := tame_append_cons hc [] b
  simpa [tame_nil] using h

theorem tame_blank_append {a : List Char} (ha : AllBlank a) (b : List Char) :
    Tame (a ++ b) ↔ Tame b := by
  induction a with
  | nil => rfl
  | cons c a ih =>
    rw [List.cons_append, tame_cons (isSeparator_of_isBlank (ha c List.mem_cons_self))]
    exact ih fun x hx => ha x (List.mem_cons_of_mem c hx)

theorem tame_append_blank {b : List Char} (hb : AllBlank b) (a : List Char) :
    Tame (a ++ b) ↔ Tame a := by
  cases b with
  | nil => rw [List.append_nil]
  | cons c b =>
    have hblank := tame_blank_append (fun x hx => hb x (List.mem_cons_of_mem c hx)) []
    rw [List.append_nil] at hblank
    rw [tame_append_cons (isSeparator_of_isBlank (hb c List.mem_cons_self)), hblank]
    simp [tame_nil]

/-! ### Harmless texts -/

/-- As many parentheses are closed in the text as are opened. -/
def ParenBalanced (cs : List Char) : Prop := cs.count '(' = cs.count ')'

instance (cs : List Char) : Decidable (ParenBalanced cs) :=
  inferInstanceAs (Decidable (cs.count '(' = cs.count ')'))

/-- A text without quoted spans that has no hazard. -/
structure Harmless (cs : List Char) : Prop where
  semicolon : SemicolonLast cs
  words : Tame cs
  parentheses : ParenBalanced cs

theorem bareHazard?_eq_none_iff {cs : List Char}
    (hlast : ∀ c, cs.getLast? = some c → isBlank c = false) :
    bareHazard? cs = none ↔ Harmless cs := by
  have hseveral := severalStatements_eq_false_iff hlast
  have hwords : (upperWords cs).find? (dangerousKeywords.contains ·) = none ↔ Tame cs := by
    simp [Tame]
  -- the three checks in their order: statements, words, parentheses
  unfold bareHazard?
  split
  · next h =>
    simp only [reduceCtorEq, false_iff]
    intro hharmless
    rw [hseveral.2 hharmless.semicolon] at h
    cases h
  · next h =>
    have hsemicolon := hseveral.1 (by simpa using h)
    split
    · next word hfind =>
      simp only [reduceCtorEq, false_iff]
      intro hharmless
      rw [hwords.2 hharmless.words] at hfind
      cases hfind
    · next hfind =>
      split
      · next hparens =>
        simp only [reduceCtorEq, false_iff]
        exact fun hharmless => hparens hharmless.parentheses
      · next hparens =>
        simp only [true_iff]
        exact ⟨hsemicolon, hwords.1 hfind, Decidable.not_not.1 hparens⟩

theorem notMem_of_allBlank {cs : List Char} (h : AllBlank cs) {c : Char} (hc : isBlank c = false) :
    c ∉ cs := by
  intro hmem
  rw [h c hmem] at hc
  cases hc

section
variable {a b : List Char} (ha : AllBlank a) (hb : AllBlank b) (cs : List Char)
include ha hb

theorem semicolonLast_between : SemicolonLast (a ++ cs ++ b) ↔ SemicolonLast cs := by
  rw [semicolonLast_append_blank hb,
    semicolonLast_append_of_notMem (notMem_of_allBlank ha (by decide))]

theorem tame_between : Tame (a ++ cs ++ b) ↔ Tame cs := by
  rw [tame_append_blank hb, tame_blank_append ha]

theorem parenBalanced_between : ParenBalanced (a ++ cs ++ b) ↔ ParenBalanced cs := by
  have hcount : ∀ c, isBlank c = false → (a ++ cs ++ b).count c = cs.count c := by
    intro c hc
    rw [List.count_append, List.count_append,
      List.count_eq_zero_of_not_mem (notMem_of_allBlank ha hc),
      List.count_eq_zero_of_not_mem (notMem_of_allBlank hb hc), Nat.zero_add, Nat.add_zero]
  rw [ParenBalanced, ParenBalanced, hcount '(' (by decide), hcount ')' (by decide)]

/-- Blanks around a text make no difference. -/
theorem harmless_between : Harmless (a ++ cs ++ b) ↔ Harmless cs := by
  have hsemicolon := semicolonLast_between ha hb cs
  have hwords := tame_between ha hb cs
  have hparens := parenBalanced_between ha hb cs
  constructor
  · exact fun h => ⟨hsemicolon.1 h.semicolon, hwords.1 h.words, hparens.1 h.parentheses⟩
  · exact fun h => ⟨hsemicolon.2 h.semicolon, hwords.2 h.words, hparens.2 h.parentheses⟩

end

theorem unquoted_of_allBlank {cs : List Char} (h : AllBlank cs) : Unquoted cs := by
  intro c hc
  cases hquote : isQuote c with
  | false => rfl
  | true =>
    refine absurd hc (notMem_of_allBlank h ?_)
    simp only [isQuote, Bool.or_eq_true, beq_iff_eq] at hquote
    rcases hquote with (rfl | rfl) | rfl <;> decide

theorem hazard?_eq_none_iff (sql : List Char) :
    hazard? sql = none ↔ ∃ x, bare? sql = some x ∧ Harmless x := by
  obtain ⟨front, back, hsql, hfront, hback⟩ := exists_trimBlanks sql
  have hbare : bare? sql = (bare? (trimBlanks sql)).map (front ++ · ++ back) := by
    conv => lhs; rw [hsql]
    exact bare?_between (unquoted_of_allBlank hfront) (unquoted_of_allBlank hback) _
  rw [hazard?, hbare]
  cases bare? (trimBlanks sql) with
  | none => simp
  | some y =>
    -- the text is trimmed again once its spans are out, since a span may have been all of an end
    obtain ⟨front', back', hy, hfront', hback'⟩ := exists_trimBlanks y
    have htrim : Harmless (front ++ y ++ back) ↔ Harmless (trimBlanks y) := by
      rw [harmless_between hfront hback]
      conv => lhs; rw [hy]
      exact harmless_between hfront' hback' _
    have hlast : ∀ c, (trimBlanks y).getLast? = some c → isBlank c = false :=
      fun c => isBlank_getLast?_trimBlanks
    rw [Option.map_some]
    simp only [bareHazard?_eq_none_iff hlast, Option.some.injEq, exists_eq_left', htrim]

theorem checkSafe_eq_ok_iff_hazard? (sql : String) :
    checkSafe sql = .ok () ↔ hazard? sql.toList = none := by
  rw [checkSafe]
  cases hazard? sql.toList with
  | none => simp
  | some h => simp

/-- A text passes the check when its spans are closed and what stands outside of them is
    harmless. -/
theorem checkSafe_eq_ok_iff (sql : String) :
    checkSafe sql = .ok () ↔ ∃ x, bare? sql.toList = some x ∧ Harmless x := by
  rw [checkSafe_eq_ok_iff_hazard?, hazard?_eq_none_iff]

end Raw

end MetaQuery
