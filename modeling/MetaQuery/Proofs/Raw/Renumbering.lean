/-
  MetaQuery/Proofs/Raw/Renumbering.lean
  =====================================
  The numbers of placeholders make no difference to the check of a text.

  The same parts written behind more arguments get other numbers.  The two texts are then equal but
  for the digits behind dollar signs (`Renumbered`), and so is what is left of them outside of
  quoted spans.  Digits are neither quotes, nor semicolons, nor parentheses, nor letters of a
  keyword, so one text passes the check just when the other does (`checkSafe_renumbered`).
-/
import Mathlib.Data.List.Forall2
import MetaQuery.Proofs.Query.Numbering
import MetaQuery.Proofs.Raw.Hazard

namespace MetaQuery.Raw

open Text

/-! ### Texts that differ in numbers -/

/-- The digits of a number. -/
def IsNumber (m : List Char) : Prop := m ≠ [] ∧ ∀ c ∈ m, c.isDigit = true

/-- Two texts are the same but for the numbers behind dollar signs. -/
inductive Renumbered : List Char → List Char → Prop where
  | nil : Renumbered [] []
  | cons (c : Char) {a b : List Char} (h : Renumbered a b) : Renumbered (c :: a) (c :: b)
  | number {m n a b : List Char} (hm : IsNumber m) (hn : IsNumber n) (h : Renumbered a b) :
      Renumbered ('$' :: (m ++ a)) ('$' :: (n ++ b))

namespace Renumbered

variable {a b : List Char}

theorem symm (h : Renumbered a b) : Renumbered b a := by
  induction h with
  | nil => exact .nil
  | cons c h ih => exact .cons c ih
  | number hm hn h ih => exact .number hn hm ih

theorem behind (h : Renumbered a b) (cs : List Char) : Renumbered (cs ++ a) (cs ++ b) := by
  induction cs with
  | nil => exact h
  | cons c cs ih => exact .cons c ih

theorem refl (cs : List Char) : Renumbered cs cs := by
  have h := nil.behind cs
  rwa [List.append_nil] at h

theorem append (h : Renumbered a b) {a' b' : List Char} (h' : Renumbered a' b') :
    Renumbered (a ++ a') (b ++ b') := by
  induction h with
  | nil => exact h'
  | cons c h ih => exact .cons c ih
  | @number m n a b hm hn h ih =>
    have hnumber := number hm hn ih
    simpa using hnumber

theorem head?_eq (h : Renumbered a b) : a.head? = b.head? := by
  cases h with
  | nil => rfl
  | cons c h => rfl
  | number hm hn h => rfl

end Renumbered

/-- Parts written with other numbers. -/
theorem render_renumbered (d : Dialect) (n k : Nat) (parts : List Part) :
    Renumbered (Part.render d n parts).toList (Part.render d k parts).toList := by
  -- only one dialect numbers its placeholders
  have hslot : ∀ n k, Renumbered (d.placeholder n).toList (d.placeholder k).toList := by
    intro n k
    have hnumber : ∀ n, IsNumber (Nat.toDigits 10 n) := fun n =>
      ⟨Nat.toDigits_ne_nil, fun c hc => Nat.isDigit_of_mem_toDigits (by decide) (by decide) hc⟩
    cases d with
    | postgres =>
      have h := Renumbered.nil.number (hnumber n) (hnumber k)
      simpa [Dialect.placeholder] using h
    | mysql => exact .refl _
    | ansi => exact .refl _
  induction parts generalizing n k with
  | nil => exact .nil
  | cons p r ih =>
    cases p with
    | text s =>
      rw [Part.render, Part.render, String.toList_append, String.toList_append]
      exact (ih n k).behind _
    | arg v =>
      rw [Part.render, Part.render]
      split
      · rw [String.toList_append, String.toList_append]
        exact (ih n k).behind _
      · rw [String.toList_append, String.toList_append]
        exact (hslot _ _).append (ih _ _)

/-! ### Outside of quoted spans -/

theorem IsNumber.unquoted {m : List Char} (h : IsNumber m) : Unquoted ('$' :: m) := by
  intro c hc
  rcases List.mem_cons.1 hc with rfl | hc
  · decide
  · exact isQuote_of_isDigit (h.2 c hc)

/-- What is read of one text is read of the other, but for numbers. -/
def ReadsLike (u v : Option (List Char)) : Prop :=
  ∀ x, u = some x → ∃ y, v = some y ∧ Renumbered x y

theorem ReadsLike.map_cons {u v : Option (List Char)} (h : ReadsLike u v) (c : Char) :
    ReadsLike (u.map (c :: ·)) (v.map (c :: ·)) := by
  intro x hx
  obtain ⟨x', hu, rfl⟩ := Option.map_eq_some_iff.1 hx
  obtain ⟨y, hv, hxy⟩ := h x' hu
  exact ⟨c :: y, by rw [hv]; rfl, .cons c hxy⟩

/-- Two texts are read alike wherever a span may be open.  A quote that is written twice takes two
    characters at once, so this speaks of what stands behind a quote as well. -/
structure ReadAlike (a b : List Char) : Prop where
  anywhere : ∀ o, (∀ q ∈ o, isQuote q = true) → ReadsLike (bareFrom o a) (bareFrom o b)
  behindQuote : ∀ q a' b', isQuote q = true → a = q :: a' → b = q :: b' →
    ReadsLike (bareFrom (some q) a') (bareFrom (some q) b')

namespace ReadAlike

variable {a b : List Char}

theorem nil : ReadAlike [] [] where
  anywhere := by
    intro o ho x hx
    cases o with
    | none =>
      obtain rfl := Option.some.inj hx
      exact ⟨[], rfl, .nil⟩
    | some q => cases hx
  behindQuote := fun _ _ _ _ ha => nomatch ha

theorem inside (h : ReadAlike a b) (hhead : a.head? = b.head?) {q : Char} (hq : isQuote q = true)
    (c : Char) : ReadsLike (bareFrom (some q) (c :: a)) (bareFrom (some q) (c :: b)) := by
  by_cases hc : c = q
  · subst hc
    -- the quote is written twice in both texts or closes the span in both
    by_cases htwice : a.head? = some c
    · have htwice' := hhead ▸ htwice
      obtain ⟨a', rfl⟩ := List.head?_eq_some_iff.1 htwice
      obtain ⟨b', rfl⟩ := List.head?_eq_some_iff.1 htwice'
      rw [bareFrom_some_twice, bareFrom_some_twice]
      exact h.behindQuote c a' b' hq rfl rfl
    · have hclosing : b.head? ≠ some c := hhead ▸ htwice
      rw [bareFrom_some_closing htwice, bareFrom_some_closing hclosing]
      exact (h.anywhere none (by simp)).map_cons ' '
  · rw [bareFrom_some_cons_of_ne hc, bareFrom_some_cons_of_ne hc]
    exact h.anywhere _ (by simpa using hq)

theorem cons (h : ReadAlike a b) (hhead : a.head? = b.head?) (c : Char) :
    ReadAlike (c :: a) (c :: b) where
  anywhere := by
    intro o ho
    cases o with
    | none =>
      cases hc : isQuote c with
      | true =>
        rw [bareFrom_cons_of_quote hc, bareFrom_cons_of_quote hc]
        exact h.anywhere _ (by simpa using hc)
      | false =>
        rw [bareFrom_cons_of_not_quote hc, bareFrom_cons_of_not_quote hc]
        exact (h.anywhere none (by simp)).map_cons c
    | some q => exact h.inside hhead (ho q rfl) c
  behindQuote := by
    intro q a' b' hq ha hb
    obtain ⟨rfl, rfl⟩ := List.cons.inj ha
    obtain ⟨-, rfl⟩ := List.cons.inj hb
    exact h.anywhere _ (by simpa using hq)

theorem number (h : ReadAlike a b) {m n : List Char} (hm : IsNumber m) (hn : IsNumber n) :
    ReadAlike ('$' :: (m ++ a)) ('$' :: (n ++ b)) where
  anywhere := by
    intro o ho
    rw [← List.cons_append, ← List.cons_append]
    cases o with
    | none =>
      rw [bareFrom_append_of_unquoted hm.unquoted, bareFrom_append_of_unquoted hn.unquoted]
      intro x hx
      -- outside a span the number is read as it stands, inside it is dropped
      obtain ⟨x', hu, rfl⟩ := Option.map_eq_some_iff.1 hx
      obtain ⟨y, hv, hxy⟩ := h.anywhere none (by simp) x' hu
      exact ⟨'$' :: n ++ y, by rw [hv]; rfl, .number hm hn hxy⟩
    | some q =>
      rw [bareFrom_some_append_of_unquoted (ho q rfl) hm.unquoted,
        bareFrom_some_append_of_unquoted (ho q rfl) hn.unquoted]
      exact h.anywhere _ ho
  behindQuote := by
    intro q a' b' hq ha
    obtain ⟨rfl, -⟩ := List.cons.inj ha
    exact absurd hq (by decide)

end ReadAlike

theorem Renumbered.readAlike {a b : List Char} (h : Renumbered a b) : ReadAlike a b := by
  induction h with
  | nil => exact .nil
  | cons c h ih => exact ih.cons h.head?_eq c
  | number hm hn h ih => exact ih.number hm hn

/-! ### Hazards -/

theorem IsNumber.notMem {m : List Char} (h : IsNumber m) {c : Char} (hc : c.isDigit = false) :
    c ∉ m := by
  intro hmem
  rw [h.2 c hmem] at hc
  cases hc

theorem Renumbered.count_eq {a b : List Char} (h : Renumbered a b) {c : Char}
    (hc : c.isDigit = false) : a.count c = b.count c := by
  induction h with
  | nil => rfl
  | cons x h ih => rw [List.count_cons, List.count_cons, ih]
  | number hm hn h ih =>
    rw [List.count_cons, List.count_cons, List.count_append, List.count_append, ih,
      List.count_eq_zero_of_not_mem (hm.notMem hc), List.count_eq_zero_of_not_mem (hn.notMem hc)]

theorem Renumbered.allBlank {a b : List Char} (h : Renumbered a b) (ha : AllBlank a) :
    AllBlank b := by
  induction h with
  | nil => exact ha
  | cons c h ih =>
    intro x hx
    rcases List.mem_cons.1 hx with rfl | hx
    · exact ha x List.mem_cons_self
    · exact ih (fun y hy => ha y (List.mem_cons_of_mem c hy)) x hx
  | number hm hn h ih => exact absurd (ha '$' List.mem_cons_self) (by decide)

theorem Renumbered.semicolonLast {a b : List Char} (h : Renumbered a b) (ha : SemicolonLast a) :
    SemicolonLast b := by
  induction h with
  | nil => exact ha
  | cons c h ih =>
    rw [SemicolonLast] at ha ⊢
    split
    · next hc =>
      rw [if_pos hc] at ha
      exact h.allBlank ha
    · next hc =>
      rw [if_neg hc] at ha
      exact ih ha
  -- neither number has a semicolon, so the question passes to what follows
  | @number m n a b hm hn h ih =>
    have hleft : ';' ∉ '$' :: m := by
      have hnone : ';' ∉ m := hm.notMem (by decide)
      simpa using hnone
    have hright : ';' ∉ '$' :: n := by
      have hnone : ';' ∉ n := hn.notMem (by decide)
      simpa using hnone
    rw [← List.cons_append, semicolonLast_append_of_notMem hleft] at ha
    rw [← List.cons_append, semicolonLast_append_of_notMem hright]
    exact ih ha

/-! ### Words -/

theorem upperChar_of_isDigit {c : Char} (h : c.isDigit = true) : upperChar c = [c] := by
  have hall : ∀ n ∈ List.range' 48 10, upperChar (Char.ofNat n) = [Char.ofNat n] := by decide
  have hcode : c.toNat ∈ List.range' 48 10 := by
    simp only [Char.isDigit, Bool.and_eq_true, decide_eq_true_eq, UInt32.le_iff_toNat_le,
      ge_iff_le] at h
    rw [List.mem_range'_1]
    exact ⟨h.1, Nat.lt_succ_of_le h.2⟩
  have hc := hall c.toNat hcode
  rwa [Char.ofNat_toNat] at hc

theorem IsNumber.upperChars_eq {m : List Char} (h : IsNumber m) : upperChars m = m := by
  have hall : ∀ cs : List Char, (∀ c ∈ cs, c.isDigit = true) → upperChars cs = cs := by
    intro cs
    induction cs with
    | nil => exact fun _ => rfl
    | cons c cs ih =>
      intro hcs
      rw [upperChars, List.flatMap_cons, upperChar_of_isDigit (hcs c List.mem_cons_self)]
      exact congrArg (c :: ·) (ih fun x hx => hcs x (List.mem_cons_of_mem c hx))
  exact hall m h.2

theorem Renumbered.upper {a b : List Char} (h : Renumbered a b) :
    Renumbered (upperChars a) (upperChars b) := by
  have hcons : ∀ (c : Char) (cs : List Char), upperChars (c :: cs) = upperChar c ++ upperChars cs :=
    fun c cs => rfl
  have hdollar : upperChar '$' = ['$'] := by decide
  induction h with
  | nil => exact .nil
  | cons c h ih => exact ih.behind _
  | number hm hn h ih =>
    rw [hcons, hcons, hdollar, upperChars_append, upperChars_append, hm.upperChars_eq,
      hn.upperChars_eq, List.singleton_append, List.singleton_append]
    exact .number hm hn ih

/-- A word of one text, and the word in its place in the other one. -/
def Alike (u w : List Char) : Prop := u = w ∨ ∃ c ∈ w, c.isDigit = true

/-- Cut into words, both texts have alike words in the same places. -/
theorem Renumbered.splitBy {p : Char → Bool} {a b : List Char} (h : Renumbered a b)
    (hdollar : p '$' = true) (hdigit : ∀ c, c.isDigit = true → p c = false) :
    List.Forall₂ Alike (Text.splitBy p a) (Text.splitBy p b) := by
  induction h with
  | nil => exact .cons (.inl rfl) .nil
  | @cons c a b h ih =>
    rw [Text.splitBy, Text.splitBy]
    split
    · exact .cons (.inl rfl) ih
    · cases ha : Text.splitBy p a with
      | nil => exact absurd ha (splitBy_ne_nil p a)
      | cons u r =>
        rw [ha] at ih
        cases hb : Text.splitBy p b with
        | nil => exact absurd hb (splitBy_ne_nil p b)
        | cons w s =>
          rw [hb] at ih
          obtain ⟨huw, hrs⟩ := List.forall₂_cons.1 ih
          refine .cons ?_ hrs
          rcases huw with rfl | ⟨x, hx, hdigits⟩
          · exact .inl rfl
          · exact .inr ⟨x, List.mem_cons_of_mem c hx, hdigits⟩
  -- the dollar sign splits, and the digits behind it go to the front of the next word
  | @number m n a b hm hn h ih =>
    cases ha : Text.splitBy p a with
    | nil => exact absurd ha (splitBy_ne_nil p a)
    | cons u r =>
      rw [ha] at ih
      cases hb : Text.splitBy p b with
      | nil => exact absurd hb (splitBy_ne_nil p b)
      | cons w s =>
        rw [hb] at ih
        obtain ⟨-, hrs⟩ := List.forall₂_cons.1 ih
        have hleft := splitBy_append_word (fun c hc => hdigit c (hm.2 c hc)) ha
        have hright := splitBy_append_word (fun c hc => hdigit c (hn.2 c hc)) hb
        obtain ⟨c, hc⟩ := List.exists_mem_of_ne_nil n hn.1
        rw [Text.splitBy, if_pos hdollar, Text.splitBy, if_pos hdollar, hleft, hright]
        exact .cons (.inl rfl) (.cons (.inr ⟨c, List.mem_append_left w hc, hn.2 c hc⟩) hrs)

theorem exists_of_mem_right {α β : Type} {R : α → β → Prop} {xs : List α} {ys : List β}
    (h : List.Forall₂ R xs ys) {y : β} (hy : y ∈ ys) : ∃ x ∈ xs, R x y := by
  induction h with
  | nil => cases hy
  | @cons x y' xs ys hxy h ih =>
    rcases List.mem_cons.1 hy with rfl | hy
    · exact ⟨x, List.mem_cons_self, hxy⟩
    · obtain ⟨z, hz, hzy⟩ := ih hy
      exact ⟨z, List.mem_cons_of_mem x hz, hzy⟩

/-- No keyword has a digit. -/
theorem Renumbered.tame {a b : List Char} (h : Renumbered a b) (ha : Tame a) : Tame b := by
  have hdigits : ∀ c : Char, c.isDigit = true → (!isWordChar c) = false := by
    intro c hc
    simp [isWordChar, Char.isAlphanum, hc]
  have hkeywords : dangerousKeywords.all (·.toList.all (!·.isDigit)) = true := by decide
  simp only [List.all_eq_true, Bool.not_eq_true'] at hkeywords
  have hpieces := h.upper.splitBy (p := fun c => !isWordChar c) (by decide) hdigits
  intro w hw
  obtain ⟨piece, hpiece, rfl⟩ := List.mem_map.1 hw
  obtain ⟨u, hu, rfl | ⟨c, hc, hdigit⟩⟩ := exists_of_mem_right hpieces hpiece
  · exact ha _ (List.mem_map.2 ⟨u, hu, rfl⟩)
  · -- a word that the other text does not have holds a digit, so it is no keyword
    cases hcontains : dangerousKeywords.contains (String.ofList piece) with
    | false => rfl
    | true =>
      have hmem : String.ofList piece ∈ dangerousKeywords := by simpa using hcontains
      have hnone := hkeywords _ hmem c (by simpa using hc)
      rw [hdigit] at hnone
      cases hnone

theorem Renumbered.harmless {a b : List Char} (h : Renumbered a b) (ha : Harmless a) :
    Harmless b := by
  refine ⟨h.semicolonLast ha.semicolon, h.tame ha.words, ?_⟩
  rw [ParenBalanced, ← h.count_eq (by decide), ← h.count_eq (by decide)]
  exact ha.parentheses

/-- A text passes the check whatever the numbers of its placeholders are. -/
theorem checkSafe_renumbered {s t : String} (h : Renumbered s.toList t.toList) :
    checkSafe s = .ok () ↔ checkSafe t = .ok () := by
  have hone : ∀ {s t : String}, Renumbered s.toList t.toList → checkSafe s = .ok () →
      checkSafe t = .ok () := by
    intro s t h hs
    obtain ⟨x, hx, hharmless⟩ := (checkSafe_eq_ok_iff s).1 hs
    obtain ⟨y, hy, hxy⟩ := h.readAlike.anywhere none (by simp) x hx
    exact (checkSafe_eq_ok_iff t).2 ⟨y, hy, hxy.harmless hharmless⟩
  exact ⟨hone h, hone h.symm⟩

end MetaQuery.Raw
