/-
  MetaQuery/Proofs/Decimal/Rounding.lean
  ======================================
  Integers of any size as doubles, and doubles as signed words.

  An integer with more than 53 bits is rounded when it becomes a double: counted in steps of what is
  shifted off behind the first 53 bits, it goes to the nearest count, and of two to the even one
  (`rounded`).  So a signed word comes back from its double as it was just when all its bits but the
  first 53 are zero (`rounded_eq_self_iff`).

  Taken back, doubles are held at the greatest word.  That happens just to those that no word
  reaches (`toInt64_eq_maxValue_iff`), among them the doubles of the last 512 words
  (`le_rounded_iff`).
-/
import MetaQuery.Proofs.Decimal.Comparison
import MetaQuery.Proofs.Decimal.Integers
import MetaQuery.Proofs.Decimal.Whole

namespace MetaQuery.Decimal

open Float.Model Float.Model.UnpackedFloat

/-! ### Rounding -/

/-- A number counted in steps: the nearest count, and of two the even one. -/
def halfEven (step n : Nat) : Nat :=
  if 2 * (n % step) < step then n / step
  else if step < 2 * (n % step) then n / step + 1
  else n / step + n / step % 2

theorem halfEven_scale (step n : Nat) {j : Nat} (hj : 0 < j) :
    halfEven (step * j) (n * j) = halfEven step n := by
  have hdiv : n * j / (step * j) = n / step := Nat.mul_div_mul_right n step hj
  have hmod : 2 * (n * j % (step * j)) = 2 * (n % step) * j := by
    rw [Nat.mul_mod_mul_right, Nat.mul_assoc]
  simp only [halfEven, hdiv, hmod, Nat.mul_lt_mul_right hj]

theorem roundedMantissa_repeat (n k : Nat) :
    (Nat.repeat ExtendedMantissa.shiftRightOne k ⟨n, false, false⟩).roundedMantissa =
      halfEven (2 ^ k) n := by
  rw [repeat_shiftRightOne_eq, halfEven]
  generalize n / 2 ^ k = q
  generalize n % 2 ^ k = r
  generalize 2 ^ k = step
  -- the part shifted out is less than half, half or more than half of a unit
  rcases Nat.lt_trichotomy (2 * r) step with h | h | h
  · have hhalf : ¬step ≤ 2 * r := by omega
    rw [if_pos h, decide_eq_false hhalf]
    cases decide (r ≠ 0 ∧ 2 * r ≠ step) <;> rfl
  · have hhalf : step ≤ 2 * r := by omega
    have hrest : ¬(r ≠ 0 ∧ 2 * r ≠ step) := fun hne => hne.2 h
    rw [if_neg (by omega), if_neg (by omega), decide_eq_true hhalf, decide_eq_false hrest]
    rfl
  · have hhalf : step ≤ 2 * r := by omega
    have hrest : r ≠ 0 ∧ 2 * r ≠ step := by omega
    rw [if_neg (by omega), if_pos h, decide_eq_true hhalf, decide_eq_true hrest]
    rfl

/-- The number with at most 53 bits behind which only zeros stand that is nearest to `n`, and of two
    the one that ends with a zero bit more. -/
def rounded (n : Nat) : Nat := halfEven (2 ^ (n.log2 - 52)) n * 2 ^ (n.log2 - 52)

/-- A count of at least 53 bits stays one, or becomes the next power of two. -/
theorem halfEven_bounds {k n : Nat} (h : 2 ^ (52 + k) ≤ n) (h' : n < 2 ^ (53 + k)) :
    2 ^ 52 ≤ halfEven (2 ^ k) n ∧ halfEven (2 ^ k) n ≤ 2 ^ 53 := by
  have hpos : 0 < 2 ^ k := by positivity
  have hlow : 2 ^ 52 ≤ n / 2 ^ k := by
    rw [Nat.le_div_iff_mul_le hpos, ← pow_add]
    exact h
  have hhigh : n / 2 ^ k < 2 ^ 53 := by
    rw [Nat.div_lt_iff_lt_mul hpos, ← pow_add]
    exact h'
  unfold halfEven
  split
  · omega
  · split <;> omega

/-- A count that has become the next power of two is shifted once more, which loses nothing. -/
theorem shiftToTargetExponent_carry {q : Nat} (k : Nat) (h : 2 ^ 52 ≤ q) (h' : q ≤ 2 ^ 53) :
    ∃ m e, 2 ^ 52 ≤ m ∧ m < 2 ^ 53 ∧ e ≤ k + 1 ∧ m * 2 ^ e = q * 2 ^ k ∧
      shiftToTargetExponent Format.binary64 q (k : Int) .exact =
        (⟨m, false, false⟩, (e : Int)) := by
  rcases Nat.lt_or_ge q (2 ^ 53) with hlt | hge
  · have hexact := shiftToTargetExponent_exact h hlt 0 (by omega : (-1074 : Int) ≤ (k : Nat))
    simp only [pow_zero, mul_one, Nat.cast_zero, sub_zero] at hexact
    exact ⟨q, k, h, hlt, by omega, rfl, hexact⟩
  · obtain rfl : q = 2 ^ 52 * 2 ^ 1 := by omega
    have hexact := shiftToTargetExponent_exact (Nat.le_refl (2 ^ 52)) (by omega) 1
      (by omega : (-1074 : Int) ≤ ((k + 1 : Nat) : Int))
    have hback : ((k + 1 : Nat) : Int) - (1 : Nat) = (k : Nat) := by omega
    rw [hback] at hexact
    exact ⟨2 ^ 52, k + 1, le_refl _, by omega, le_refl _, by ring, hexact⟩

theorem roundWithAccuracy_count {k n : Nat} (h : 2 ^ (52 + k) ≤ n) (h' : n < 2 ^ (53 + k))
    (s : Sign) :
    ∃ m e, ∃ hm : 0 < m, 2 ^ 52 ≤ m ∧ m < 2 ^ 53 ∧ e ≤ k + 1 ∧
      m * 2 ^ e = halfEven (2 ^ k) n * 2 ^ k ∧
      roundWithAccuracy Format.binary64 s (n * 2 ^ 53) (-53) .exact = .finite s m (e : Nat) hm := by
  have hpos : 0 < n := by
    have := Nat.two_pow_pos (52 + k)
    omega
  have hlog : (n * 2 ^ 53).log2 = 105 + k := by
    rw [Nat.log2_eq_iff (by omega), show 105 + k = 52 + k + 53 by omega,
      show 52 + k + 53 + 1 = 53 + k + 53 by omega, pow_add 2 (52 + k), pow_add 2 (53 + k)]
    exact ⟨Nat.mul_le_mul_right _ h, Nat.mul_lt_mul_of_pos_right h' (by positivity)⟩
  obtain ⟨hlow, hhigh⟩ := halfEven_bounds h h'
  have htarget : Format.binary64.targetExponent (totalExponent (n * 2 ^ 53) (-53)) = k := by
    simp only [Format.targetExponent, totalExponent, hlog, Format.mantissaBits, Format.minExponent]
    norm_num
    omega
  have hshift : ((k : Int) - (-53)).toNat = k + 53 := by omega
  have hexponent : (-53 : Int) + ((k + 53 : Nat) : Int) = (k : Nat) := by omega
  -- the 53 zeros behind the count do not change how it is rounded
  have hfirst : (shiftToTargetExponent Format.binary64 (n * 2 ^ 53) (-53) .exact).1.roundedMantissa
      = halfEven (2 ^ k) n := by
    rw [← halfEven_scale (2 ^ k) n (by positivity : 0 < 2 ^ 53), ← pow_add,
      ← roundedMantissa_repeat]
    simp only [shiftToTargetExponent, htarget, shiftToExponent, hshift]
    rfl
  have hsecond :
      (shiftToTargetExponent Format.binary64 (n * 2 ^ 53) (-53) .exact).2 = (k : Nat) := by
    simp only [shiftToTargetExponent, htarget, shiftToExponent, hshift, hexponent]
  -- rounding up may reach 2 ^ 53, which shifts once more
  obtain ⟨m, e, hm, hm', he, hvalue, hcarry⟩ := shiftToTargetExponent_carry k hlow hhigh
  have h0 : m ≠ 0 := by omega
  refine ⟨m, e, by omega, hm, hm', he, hvalue, ?_⟩
  simp only [roundWithAccuracy, hfirst, hsecond, hcarry, h0, dif_neg, not_false_eq_true]

/-! ### Whole numbers -/

theorem rounded_of_lt {n : Nat} (hn : n < 2 ^ 53) : rounded n = n := by
  have hlog : n.log2 - 52 = 0 := Nat.sub_eq_zero_of_le (log2_le hn)
  rw [rounded, hlog, halfEven, pow_zero, Nat.mod_one, if_pos (by omega), Nat.div_one, Nat.mul_one]

theorem ofNat_of_le {n : Nat} (hn : 2 ^ 53 ≤ n) : Float.ofNat n = .ofModel (Float.Model.pack
    (roundWithAccuracy Format.binary64 .positive (n * 2 ^ 53) (-53) .exact)) := by
  have hslow : ¬(n < 2 ^ 53 ∧ 0 ≤ 22) := by omega
  have hpos : n ≠ 0 := by omega
  have hofNat : Float.ofNat n = .ofModel (Float.Model.ofScientific n (Int.ofNat 0)) := dif_neg hslow
  rw [hofNat, Float.Model.ofScientific]
  congr 2
  rw [UnpackedFloat.ofScientific, dif_neg hpos, if_neg (by simp), if_neg (by simp),
    if_pos (by simp)]
  have hmantissa : n * 2 ^ Format.binary64.mantissaBits * 10 ^ (Int.ofNat 0).toNat = n * 2 ^ 53 :=
    Nat.mul_one _
  have hexponent : -(Format.binary64.mantissaBits : Int) + 0 = -53 := by decide
  simp only [UnpackedFloat.mul, Nat.shiftLeft_eq, hmantissa, hexponent]
  rfl

/-- The double of a whole number, unpacked: what it stands for is the number rounded. -/
theorem unpack_ofNat {n : Nat} (h : 0 < n) (hn : n < 2 ^ 64) :
    ∃ m e, ∃ hm : 0 < m, IsNormal m e ∧ wholePart m e = rounded n ∧
      (Float.ofNat n).toModel.unpack = .finite .positive m e hm := by
  -- up to 53 bits the count is exact; above, its lowest bits are rounded away
  rcases Nat.lt_or_ge n (2 ^ 53) with hsmall | hlarge
  · have hlog := log2_le hsmall
    refine ⟨lead n, _, _, isNormal_scaled h hsmall, ?_, unpack_ofNat_of_lt h hsmall⟩
    have hexponent : ((n.log2 + 1023 : Nat) : Int) - 1075 = (n.log2 : Int) - 52 := by omega
    rw [hexponent, wholePart_lead hsmall, rounded_of_lt hsmall]
  · obtain ⟨k, hk⟩ : ∃ k, n.log2 = 52 + k :=
      ⟨n.log2 - 52, by have := (Nat.le_log2 (by omega)).2 (by omega : 2 ^ 52 ≤ n); omega⟩
    have hk' : k ≤ 11 := by
      have := (Nat.log2_lt (by omega)).2 hn
      omega
    obtain ⟨hlow, hhigh⟩ := (Nat.log2_eq_iff (by omega)).1 hk
    obtain ⟨m, e, hm, hmlow, hmhigh, he, hvalue, hround⟩ :=
      roundWithAccuracy_count hlow (by rwa [show 53 + k = 52 + k + 1 by omega]) .positive
    have hnormal : IsNormal m (e : Int) :=
      ⟨hmlow, hmhigh, by unfold leastExponent; omega, by omega⟩
    have hunit : n.log2 - 52 = k := by omega
    refine ⟨m, e, hm, hnormal, ?_, ?_⟩
    · rw [rounded, hunit, ← hvalue, wholePart, if_pos (by omega), Int.toNat_natCast,
        Nat.shiftLeft_eq]
    · rw [ofNat_of_le hlarge, hround]
      exact hnormal.unpack_pack .positive hm

theorem parts_ofInt {i : Int} (h : i ≠ 0) (hi : i.natAbs < 2 ^ 64) :
    ∃ m e, IsNormal m e ∧ wholePart m e = rounded i.natAbs ∧
      parts (Float.ofInt i) = .finite (decide (i < 0)) m e := by
  obtain ⟨m, e, hm, hnormal, hvalue, hunpack⟩ := unpack_ofNat (by omega) hi
  refine ⟨m, e, hnormal, hvalue, ?_⟩
  rw [parts_eq]
  cases i with
  | ofNat n =>
    have hnat : (Float.ofInt (Int.ofNat n)).toModel.unpack = .finite .positive m e hm := hunpack
    have hsign : ¬Int.ofNat n < 0 := Int.not_lt.2 (Int.natCast_nonneg n)
    rw [hnat, partsOf, decide_eq_false hsign]
    rfl
  -- a negative integer is the float of its magnitude with the sign turned
  | negSucc n =>
    have hneg : (Float.ofInt (Int.negSucc n)).toModel.unpack = .finite .negative m e hm := by
      have hflip : (Float.ofInt (Int.negSucc n)).toModel
          = Float.Model.pack (Float.ofNat (n + 1)).toModel.unpack.neg := rfl
      have hpos : (Float.ofNat (n + 1)).toModel.unpack = .finite .positive m e hm := hunpack
      rw [hflip, hpos]
      exact hnormal.unpack_pack .negative hm
    rw [hneg, partsOf, decide_eq_true (Int.negSucc_lt_zero n)]
    rfl

/-! ### Which numbers are kept -/

theorem halfEven_of_dvd {step n : Nat} (hstep : 0 < step) (h : step ∣ n) :
    halfEven step n = n / step := by
  rw [halfEven, Nat.mod_eq_zero_of_dvd h, if_pos (by omega)]

/-- A number is kept when all its bits but the first 53 are zero. -/
theorem rounded_eq_self_iff {n : Nat} : rounded n = n ↔ 2 ^ (n.log2 - 52) ∣ n := by
  constructor
  · exact fun h => Dvd.intro_left _ h
  · intro h
    rw [rounded, halfEven_of_dvd (by positivity) h, Nat.div_mul_cancel h]

theorem rounded_two_pow (k : Nat) : rounded (2 ^ k) = 2 ^ k := by
  rw [rounded_eq_self_iff, Nat.log2_two_pow]
  exact pow_dvd_pow 2 (Nat.sub_le k 52)

/-- Rounding does not pass a power of two. -/
theorem rounded_le {k n : Nat} (h : n ≤ 2 ^ k) : rounded n ≤ 2 ^ k := by
  rcases Nat.lt_or_ge n (2 ^ 53) with hsmall | hlarge
  · rwa [rounded_of_lt hsmall]
  -- below the power the mantissa is at most 2 ^ 53, and rounding up reaches the power at most
  rcases Nat.lt_or_eq_of_le h with hlt | rfl
  · have hlog := (Nat.log2_lt (by omega)).2 hlt
    have hlog' := (Nat.le_log2 (by omega)).2 hlarge
    obtain ⟨j, hj⟩ : ∃ j, n.log2 = 52 + j := ⟨n.log2 - 52, by omega⟩
    have hbits := (Nat.log2_eq_iff (by omega)).1 hj
    obtain ⟨-, hcount⟩ :=
      halfEven_bounds hbits.1 (by rw [show 53 + j = 52 + j + 1 by omega]; exact hbits.2)
    have hunit : n.log2 - 52 = j := by omega
    calc rounded n = halfEven (2 ^ j) n * 2 ^ j := by rw [rounded, hunit]
      _ ≤ 2 ^ 53 * 2 ^ j := Nat.mul_le_mul_right _ hcount
      _ = 2 ^ (53 + j) := (pow_add 2 53 j).symm
      _ ≤ 2 ^ k := Nat.pow_le_pow_right (by omega) (by omega)
  · exact (rounded_two_pow k).le

/-- Up to half a step below `2 ^ 63` rounding reaches it, and nothing is rounded to just below. -/
theorem le_rounded_iff {n : Nat} (hn : n ≤ 2 ^ 63) : 2 ^ 63 - 1 ≤ rounded n ↔ 2 ^ 63 - 512 ≤ n := by
  rcases Nat.lt_or_eq_of_le hn with hlt | rfl
  · rcases Nat.lt_or_ge n (2 ^ 62) with hsmall | hlarge
    · have hle := rounded_le hsmall.le
      omega
    · have hlog : n.log2 = 62 := (Nat.log2_eq_iff (by omega)).2 ⟨hlarge, hlt⟩
      rw [rounded, hlog, halfEven]
      split
      · omega
      · split <;> omega
  · rw [rounded_two_pow]
    omega

/-- An integer rounded to 53 bits, its sign apart. -/
def roundedInt (i : Int) : Int := if i < 0 then -(rounded i.natAbs : Int) else rounded i.natAbs

theorem roundedInt_eq_self_iff {i : Int} :
    roundedInt i = i ↔ 2 ^ (i.natAbs.log2 - 52) ∣ i.natAbs := by
  rw [← rounded_eq_self_iff, roundedInt]
  split <;> omega

theorem le_roundedInt_iff {i : Int} (hi : IsWord64 i) :
    2 ^ 63 - 1 ≤ roundedInt i ↔ 2 ^ 63 - 512 ≤ i := by
  have hleast : Int64.minValue.toInt = -9223372036854775808 := by decide
  have hgreatest : Int64.maxValue.toInt = 9223372036854775807 := by decide
  obtain ⟨hmin, hmax⟩ := hi
  have hiff := le_rounded_iff (n := i.natAbs) (by omega)
  rw [roundedInt]
  split <;> omega

theorem toInt_toInt64_ofInt {i : Int} (hi : IsWord64 i) :
    (toInt64 (Float.ofInt i)).toInt = min (2 ^ 63 - 1) (roundedInt i) := by
  have hleast : Int64.minValue.toInt = -9223372036854775808 := by decide
  have hgreatest : Int64.maxValue.toInt = 9223372036854775807 := by decide
  obtain ⟨hmin, hmax⟩ := hi
  rw [hleast] at hmin
  rw [hgreatest] at hmax
  by_cases hzero : i = 0
  · subst hzero
    decide
  · obtain ⟨m, e, -, hwhole, hparts⟩ := parts_ofInt hzero (by omega)
    -- rounding may reach 2 ^ 63, one beyond the greatest word
    have hbound := rounded_le (k := 63) (n := i.natAbs) (by omega)
    rw [toInt64, clampToRange, hparts]
    simp only [hwhole, hleast, hgreatest, decide_eq_true_eq, roundedInt, Int.ofNat_eq_natCast]
    rw [Int64.toInt_ofInt_of_le (by split <;> omega) (by split <;> omega)]
    split <;> omega

/-! ### The bound of words -/

/-- The least double that no signed word reaches. -/
def wordBound : Float := 9223372036854775808

theorem unpack_wordBound :
    wordBound.toModel.unpack = .finite .positive (2 ^ 52) 11 (by decide) := by
  rfl

/-- The whole part of a double reaches `2 ^ 63` where the double does, and is never just below. -/
theorem le_wholePart_iff {m : Nat} {e : Int} (hm : m < 2 ^ 53)
    (hbits : e = leastExponent ∨ 2 ^ 52 ≤ m) :
    2 ^ 63 - 1 ≤ wholePart m e ↔ ((compare 11 e).then (compare (2 ^ 52) m)).isLE = true := by
  -- 2 ^ 63 = 2 ^ 52 * 2 ^ 11, so the exponent 11 decides and the mantissa breaks the tie
  rcases Int.lt_trichotomy e 11 with he | rfl | he
  · have hless : wholePart m e < 2 ^ 63 - 1 := by
      unfold wholePart
      split
      · have hpow : 2 ^ e.toNat ≤ 2 ^ 10 := Nat.pow_le_pow_right (by omega) (by omega)
        have hle := Nat.mul_le_mul (Nat.le_sub_one_of_lt hm) hpow
        rw [Nat.shiftLeft_eq]
        omega
      · have hle := Nat.shiftRight_le m (-e).toNat
        omega
    rw [Int.compare_eq_gt.2 he]
    exact iff_of_false (by omega) nofun
  · have hfull : 2 ^ 52 ≤ m := hbits.resolve_left (by decide)
    have hwhole : wholePart m 11 = m * 2 ^ 11 := by
      rw [wholePart, if_pos (by decide), Nat.shiftLeft_eq]
      rfl
    rw [hwhole, Int.compare_eq_eq.2 rfl, Ordering.eq_then, Nat.isLE_compare]
    exact iff_of_true (by omega) hfull
  · have hfull : 2 ^ 52 ≤ m := hbits.resolve_left (by unfold leastExponent; omega)
    have hwhole : 2 ^ 52 * 2 ^ 12 ≤ wholePart m e := by
      rw [wholePart, if_pos (by omega), Nat.shiftLeft_eq]
      exact Nat.mul_le_mul hfull (Nat.pow_le_pow_right (by omega) (by omega))
    rw [Int.compare_eq_lt.2 he]
    exact iff_of_true (by omega) rfl

theorem toInt_toInt64 (x : Float) : (toInt64 x).toInt =
    clampToRange Int64.minValue.toInt Int64.maxValue.toInt x := by
  obtain ⟨hlow, hhigh⟩ :=
    @clampToRange_mem Int64.minValue.toInt Int64.maxValue.toInt x (by decide) (by decide)
  exact Int64.toInt_ofInt_of_le hlow (Int.lt_of_le_of_lt hhigh (by decide))

/-- A double becomes the greatest word just when no word reaches it. -/
theorem toInt64_eq_maxValue_iff {x : Float} : toInt64 x = Int64.maxValue ↔ wordBound ≤ x := by
  have hleast : Int64.minValue.toInt = -9223372036854775808 := by decide
  have hgreatest : Int64.maxValue.toInt = 9223372036854775807 := by decide
  rw [← Int64.toInt_inj, toInt_toInt64, le_iff_order, order, unpack_wordBound, clampToRange,
    parts_eq, hleast, hgreatest, Float.Model.unpack]
  cases hunpack : UnpackedFloat.unpack Format.binary64 x.toModel.toBits.toBitVec with
  | notANumber => exact iff_of_false (by decide) (by decide)
  | infinity s =>
    cases s with
    | positive => exact iff_of_true rfl rfl
    | negative => exact iff_of_false (by decide) (by decide)
  | zero s =>
    cases s with
    | positive => exact iff_of_false (by decide) (by decide)
    | negative => exact iff_of_false (by decide) (by decide)
  -- a finite value saturates by its whole part
  | finite s m e hm =>
    obtain ⟨hlt, hbits⟩ := bounds_of_unpack hunpack
    cases s with
    | positive =>
      have hiff := le_wholePart_iff hlt hbits
      have hclamp : max (-9223372036854775808) (min 9223372036854775807 (wholePart m e : Int)) =
          9223372036854775807 ↔ 2 ^ 63 - 1 ≤ wholePart m e := by omega
      exact hclamp.trans hiff
    | negative =>
      have hclamp : max (-9223372036854775808) (min 9223372036854775807 (-(wholePart m e : Int))) ≠
          9223372036854775807 := by omega
      exact iff_of_false hclamp Bool.false_ne_true

end MetaQuery.Decimal
