/-
  MetaQuery/Proofs/Decimal/Integers.lean
  ======================================
  Integers written and read back.

  The text of an integer is its digits, behind a minus sign where it is negative, and reads as that
  integer again (`int?_intText`); so it reads as a signed word just when the integer is one.  There
  is no blank in it and nothing else that a reader of lists could stop at.
-/
import MetaQuery.Decimal.Reader
import MetaQuery.Decimal.Shortest
import MetaQuery.Text.Blank

namespace MetaQuery.Decimal

theorem isDigit_of_mem_toDigits {n : Nat} {c : Char} (h : c ∈ Nat.toDigits 10 n) :
    c.isDigit = true :=
  Nat.isDigit_of_mem_toDigits (by decide) (by decide) h

theorem nat?_toDigits (n : Nat) : nat? (Nat.toDigits 10 n) = some n := by
  have hsome : ¬ ((Nat.toDigits 10 n).isEmpty || !(Nat.toDigits 10 n).all Char.isDigit) = true := by
    simp only [Bool.or_eq_true, List.isEmpty_iff, Nat.toDigits_ne_nil, false_or,
      Bool.not_eq_true', Bool.not_eq_false, List.all_eq_true]
    exact fun c hc => isDigit_of_mem_toDigits hc
  rw [nat?, if_neg hsome, Nat.ofDigitChars_toDigits (by decide) (by decide)]

theorem takeSign_toDigits (n : Nat) :
    takeSign (Nat.toDigits 10 n) = (false, Nat.toDigits 10 n) := by
  cases hdigits : Nat.toDigits 10 n with
  | nil => rfl
  | cons c r =>
    -- a digit is no sign
    have hc : c.isDigit = true := isDigit_of_mem_toDigits (hdigits ▸ List.mem_cons_self)
    unfold takeSign
    split
    · next heq =>
      obtain ⟨rfl, -⟩ := List.cons.inj heq
      cases hc
    · next heq =>
      obtain ⟨rfl, -⟩ := List.cons.inj heq
      cases hc
    · rfl

theorem toList_intText (i : Int) : (intText i).toList =
    if i < 0 then '-' :: Nat.toDigits 10 i.natAbs else Nat.toDigits 10 i.natAbs := by
  rw [intText, String.toList_ofList]

/-- The text of an integer reads as that integer. -/
theorem int?_intText (i : Int) : int? (intText i).toList = some i := by
  rw [toList_intText]
  split
  · next hi =>
    have habs : -Int.ofNat i.natAbs = i := by
      rw [Int.ofNat_eq_natCast, Int.ofNat_natAbs_of_nonpos (Int.le_of_lt hi), Int.neg_neg]
    simp only [int?, takeSign, nat?_toDigits, Option.map_some, if_true, habs]
  · next hi =>
    have habs : Int.ofNat i.natAbs = i := Int.natAbs_of_nonneg (Int.not_lt.1 hi)
    simp only [int?, takeSign_toDigits, nat?_toDigits, Option.map_some, Bool.false_eq_true,
      if_false, habs]

/-- The integer is a signed word. -/
def IsWord64 (i : Int) : Prop := Int64.minValue.toInt ≤ i ∧ i ≤ Int64.maxValue.toInt

instance (i : Int) : Decidable (IsWord64 i) := inferInstanceAs (Decidable (_ ∧ _))

theorem int64?_intText (i : Int) :
    int64? (intText i).toList = if IsWord64 i then some (Int64.ofInt i) else none := by
  rw [int64?, int?_intText]
  rfl

/-- Taking the sign off leaves all that is no sign. -/
theorem subset_takeSign (cs : List Char) : cs ⊆ '-' :: '+' :: (takeSign cs).2 := by
  unfold takeSign
  split
  · exact List.cons_subset_cons _ (List.subset_cons_self _ _)
  · exact List.subset_cons_self _ _
  · exact List.Subset.trans (List.subset_cons_self _ _) (List.subset_cons_self _ _)

/-- What reads as a signed word is made of digits and of a sign. -/
theorem chars_of_int64? {cs : List Char} {i : Int64} (h : int64? cs = some i) :
    cs ≠ [] ∧ ∀ c ∈ cs, c = '-' ∨ c = '+' ∨ c.isDigit = true := by
  have hread : ∃ n, nat? (takeSign cs).2 = some n := by
    rw [int64?, int?] at h
    cases hn : nat? (takeSign cs).2 with
    | some n => exact ⟨n, rfl⟩
    | none =>
      dsimp only at h
      rw [hn] at h
      cases h
  obtain ⟨n, hn⟩ := hread
  -- behind the sign a reader of naturals takes digits only
  have hdigits : (takeSign cs).2 ≠ [] ∧ ∀ c ∈ (takeSign cs).2, c.isDigit = true := by
    rw [nat?] at hn
    split at hn
    · cases hn
    · next hall => simpa using hall
  constructor
  · rintro rfl
    exact hdigits.1 rfl
  · intro c hc
    rcases List.mem_cons.1 (subset_takeSign cs hc) with hminus | hc
    · exact .inl hminus
    · exact .inr ((List.mem_cons.1 hc).imp_right (hdigits.2 c))

theorem toInt_ofInt_of_isWord64 {i : Int} (h : IsWord64 i) : (Int64.ofInt i).toInt = i :=
  Int64.toInt_ofInt_of_le h.1 (Int.lt_add_one_of_le h.2)

/-- The characters of an integer. -/
theorem mem_intText {i : Int} {c : Char} (h : c ∈ (intText i).toList) :
    c = '-' ∨ c.isDigit = true := by
  rw [toList_intText] at h
  split at h
  · exact (List.mem_cons.1 h).imp_right isDigit_of_mem_toDigits
  · exact .inr (isDigit_of_mem_toDigits h)

theorem isBlank_of_isDigit {c : Char} (h : c.isDigit = true) : Text.isBlank c = false := by
  have hrange : 48 ≤ c.toNat ∧ c.toNat ≤ 57 := by
    simp only [Char.isDigit, Bool.and_eq_true, decide_eq_true_eq, UInt32.le_iff_toNat_le] at h
    exact h
  simp only [Text.isBlank, Bool.or_eq_false_iff, Bool.and_eq_false_iff, decide_eq_false_iff_not,
    beq_eq_false_iff_ne]
  omega

theorem isBlank_of_mem_intText {i : Int} {c : Char} (h : c ∈ (intText i).toList) :
    Text.isBlank c = false := by
  rcases mem_intText h with rfl | hdigit
  · decide
  · exact isBlank_of_isDigit hdigit

theorem intText_ne_nil (i : Int) : (intText i).toList ≠ [] := by
  rw [toList_intText]
  split
  · exact List.cons_ne_nil _ _
  · exact Nat.toDigits_ne_nil

end MetaQuery.Decimal
