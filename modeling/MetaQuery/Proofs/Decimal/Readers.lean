/-
  MetaQuery/Proofs/Decimal/Readers.lean
  =====================================
  The reader of integers and the reader of doubles agree where both read.

  A text that is an integer within its word is a double too, the one that the integer is made
  (`float?_of_int64?`).  Only the sign of zero is lost on the way.
-/
import MetaQuery.Proofs.Decimal.Comparison
import MetaQuery.Proofs.Decimal.Integers

namespace MetaQuery.Decimal

theorem of_nat? {cs : List Char} {n : Nat} (h : nat? cs = some n) :
    cs ≠ [] ∧ (∀ c ∈ cs, c.isDigit = true) ∧ Nat.ofDigitChars 10 cs 0 = n := by
  unfold nat? at h
  split at h
  · cases h
  · next hdigits =>
    rw [Bool.or_eq_true, not_or, List.isEmpty_iff, Bool.not_eq_true', Bool.not_eq_false,
      List.all_eq_true] at hdigits
    exact ⟨hdigits.1, hdigits.2, Option.some.inj h⟩

/-- A run of digits is a magnitude without a fraction and without an exponent. -/
theorem magnitude?_of_nat? {cs : List Char} {n : Nat} (h : nat? cs = some n) :
    magnitude? cs = some (nearest n 0) := by
  obtain ⟨hne, hdigits, rfl⟩ := of_nat? h
  have hwhole : cs.takeWhile Char.isDigit = cs := List.takeWhile_eq_self_iff.2 hdigits
  have hrest : cs.dropWhile Char.isDigit = [] := List.dropWhile_eq_nil_iff.2 hdigits
  have hsome : ¬(cs.isEmpty && ([] : List Char).isEmpty) = true := by
    rw [Bool.and_eq_true, not_and_or, List.isEmpty_iff]
    exact .inl hne
  rw [magnitude?_eq, hwhole, hrest]
  dsimp only [takeFraction]
  rw [if_neg hsome, List.append_nil]
  rfl

/-- A number of no more than twenty digits is far inside the range of doubles. -/
theorem nearest_eq_ofNat {n : Nat} (hn : n < 10 ^ 20) : nearest n 0 = Float.ofNat n := by
  have hlength : (Nat.toDigits 10 n).length ≤ 20 :=
    (Nat.length_toDigits_le_iff (by decide) (by decide)).2 hn
  -- twenty digits are far from the bounds where the value overflows or vanishes
  have hlarge : ¬310 < Int.ofNat (Nat.toDigits 10 n).length + 0 := by
    rw [Int.ofNat_eq_natCast]
    omega
  have hsmall : ¬Int.ofNat (Nat.toDigits 10 n).length + 0 < -330 := by
    rw [Int.ofNat_eq_natCast]
    omega
  by_cases hzero : n = 0
  · subst hzero
    decide
  · unfold nearest
    dsimp only
    rw [if_neg hzero, if_neg hlarge, if_neg hsmall, if_pos (Int.le_refl 0)]
    rfl

/-- An integer within its word is a sign and a run of digits that is not too long. -/
theorem of_int64? {cs : List Char} {i : Int64} (h : int64? cs = some i) :
    ∃ n, nat? (takeSign cs).2 = some n ∧ n < 10 ^ 20 ∧
      i.toInt = if (takeSign cs).1 then -Int.ofNat n else Int.ofNat n := by
  have hread : int? cs = (nat? (takeSign cs).2).map fun n =>
      if (takeSign cs).1 then -Int.ofNat n else Int.ofNat n := rfl
  rw [int64?, hread] at h
  cases hn : nat? (takeSign cs).2 with
  | none =>
    rw [hn] at h
    cases h
  | some n =>
    rw [hn, Option.map_some] at h
    dsimp only at h
    generalize hj : (if (takeSign cs).1 then -Int.ofNat n else Int.ofNat n) = j at h
    split at h
    · next hword =>
      obtain rfl := Option.some.inj h
      have hleast : Int64.minValue.toInt = -9223372036854775808 := by decide
      have hgreatest : Int64.maxValue.toInt = 9223372036854775807 := by decide
      refine ⟨n, rfl, ?_, by rw [toInt_ofInt_of_isWord64 hword, hj]⟩
      -- a word of 64 bits has no more than nineteen digits
      rw [hleast, hgreatest] at hword
      rw [Int.ofNat_eq_natCast] at hj
      split at hj <;> omega
    · cases h

/-- **An integer is read as the double that it is made.**  Only zero with a minus sign is another
    double, which is level with it. -/
theorem float?_of_int64? {cs : List Char} {i : Int64} (h : int64? cs = some i) :
    ∃ x, float? cs = some x ∧ (x = Float.ofInt i.toInt ∨ (x = -0.0 ∧ i = 0)) := by
  obtain ⟨n, hn, hsmall, hi⟩ := of_int64? h
  have hx : float? cs = some (if (takeSign cs).1 then -Float.ofNat n else Float.ofNat n) := by
    rw [float?_eq, magnitude?_of_nat? hn, Option.some_or, Option.map_some, nearest_eq_ofNat hsmall]
  refine ⟨_, hx, ?_⟩
  rw [hi]
  split
  -- the one case that differs is a zero with a minus sign
  · cases n with
    | zero =>
      have hzero : i.toInt = 0 := by
        rw [hi]
        split <;> rfl
      exact .inr ⟨by decide, Int64.toInt_inj.1 hzero⟩
    | succ k => exact .inl rfl
  · exact .inl rfl

end MetaQuery.Decimal
