/-
  MetaQuery/Proofs/Decimal/Whole.lean
  ===================================
  Whole numbers below `2 ^ 53` are doubles exactly: made a double and taken back, such a number is
  what it was.

  What is shifted off behind a number leaves two bits that tell it from a half
  (`repeat_shiftRightOne_eq`).  A double keeps 53 bits.  A number with fewer bits is shifted up
  until it has 53 of them and the exponent pays for the shift (`scaled`, `lead`); rounding then has
  nothing to drop, and what is packed into the bits is unpacked again (`unpack_ofNat_of_lt`).
-/
import MetaQuery.Proofs.Decimal.Parts

namespace MetaQuery.Decimal

open Float.Model Float.Model.UnpackedFloat

/-! ### Shifting off bits -/

/-- A count of `q` steps with `r` left over, after one more bit is shifted off. -/
theorem shiftRightOne_count {q r step : Nat} (h : r < step) :
    ExtendedMantissa.shiftRightOne ⟨q, decide (step ≤ 2 * r), decide (r ≠ 0 ∧ 2 * r ≠ step)⟩ =
      ⟨q / 2, decide (step * 2 ≤ 2 * (r + step * (q % 2))),
        decide (r + step * (q % 2) ≠ 0 ∧ 2 * (r + step * (q % 2)) ≠ step * 2)⟩ := by
  simp only [ExtendedMantissa.shiftRightOne, ExtendedMantissa.mk.injEq, true_and,
    ← Bool.decide_or, decide_eq_decide]
  rcases Nat.mod_two_eq_zero_or_one q with hbit | hbit
  · simp only [hbit, bne_self_eq_false, Bool.false_eq, decide_eq_false_iff_not]
    omega
  · simp only [hbit, Nat.reduceBNe, Bool.true_eq, decide_eq_true_iff]
    omega

/-- What is shifted off leaves two bits: whether it was a half or more, and whether it was neither
    nothing nor a half. -/
theorem repeat_shiftRightOne_eq (n k : Nat) :
    Nat.repeat ExtendedMantissa.shiftRightOne k ⟨n, false, false⟩ =
      ⟨n / 2 ^ k, decide (2 ^ k ≤ 2 * (n % 2 ^ k)),
        decide (n % 2 ^ k ≠ 0 ∧ 2 * (n % 2 ^ k) ≠ 2 ^ k)⟩ := by
  induction k with
  | zero => simp [Nat.repeat, Nat.mod_one]
  | succ k ih =>
    have hlt : n % 2 ^ k < 2 ^ k := Nat.mod_lt _ (by positivity)
    rw [Nat.repeat, ih, shiftRightOne_count hlt, Nat.div_div_eq_div_mul, ← Nat.mod_mul, pow_succ]

/-- Shifting off zeros loses nothing: the round bit and the sticky bit stay clear. -/
theorem repeat_shiftRightOne (m k : Nat) :
    Nat.repeat ExtendedMantissa.shiftRightOne k ⟨m * 2 ^ k, false, false⟩ = ⟨m, false, false⟩ := by
  have hpos : 0 < 2 ^ k := by positivity
  have hhalf : ¬2 ^ k ≤ 2 * 0 := by omega
  rw [repeat_shiftRightOne_eq, Nat.mul_div_cancel m hpos, Nat.mul_mod_left, decide_eq_false hhalf]
  rfl

/-! ### Rounding what fits -/

theorem log2_mul_two_pow {m : Nat} (hm : 2 ^ 52 ≤ m) (hm' : m < 2 ^ 53) (k : Nat) :
    (m * 2 ^ k).log2 = 52 + k := by
  have h0 : m * 2 ^ k ≠ 0 := by positivity
  rw [Nat.log2_eq_iff h0]
  constructor
  · rw [Nat.pow_add]
    exact Nat.mul_le_mul_right _ hm
  · rw [show 52 + k + 1 = 53 + k by omega, Nat.pow_add]
    exact Nat.mul_lt_mul_of_pos_right hm' (by positivity)

/-- 53 bits, with any zeros behind them, come to the exponent of the 53 bits. -/
theorem shiftToTargetExponent_exact {m : Nat} (hm : 2 ^ 52 ≤ m) (hm' : m < 2 ^ 53) (k : Nat)
    {e : Int} (he : -1074 ≤ e) :
    shiftToTargetExponent Format.binary64 (m * 2 ^ k) (e - k) .exact = (⟨m, false, false⟩, e) := by
  have ht : Format.binary64.targetExponent (totalExponent (m * 2 ^ k) (e - k)) = e := by
    simp only [Format.targetExponent, totalExponent, log2_mul_two_pow hm hm' k,
      Format.mantissaBits, Format.minExponent]
    norm_num
    omega
  have hk : (e - (e - (k : Int))).toNat = k := by omega
  simp only [shiftToTargetExponent, ht, shiftToExponent, hk, HShiftRight.hShiftRight,
    ExtendedMantissa.ofMantissaAndAccuracy, repeat_shiftRightOne]
  simp

theorem roundWithAccuracy_exact {m : Nat} (hm : 2 ^ 52 ≤ m) (hm' : m < 2 ^ 53) (k : Nat)
    {e : Int} (he : -1074 ≤ e) (s : Sign) :
    roundWithAccuracy Format.binary64 s (m * 2 ^ k) (e - k) .exact
      = .finite s m e (by omega) := by
  have hfirst := shiftToTargetExponent_exact hm hm' k he
  have hsecond := shiftToTargetExponent_exact hm hm' 0 he
  simp only [pow_zero, mul_one, Nat.cast_zero, sub_zero] at hsecond
  have hround : ExtendedMantissa.roundedMantissa ⟨m, false, false⟩ = m := rfl
  have h0 : m ≠ 0 := by omega
  simp only [roundWithAccuracy, hfirst, hround, hsecond, h0, dif_neg, not_false_eq_true]

/-! ### Whole numbers -/

/-- A number shifted up until it has 53 bits. -/
def lead (n : Nat) : Nat :=
  n * 2 ^ (52 - n.log2)

theorem log2_le {n : Nat} (hn : n < 2 ^ 53) : n.log2 ≤ 52 := by
  rcases Nat.eq_zero_or_pos n with rfl | h
  · simp
  · have := (Nat.log2_lt (by omega)).mpr hn
    omega

theorem le_lead {n : Nat} (h : 0 < n) (hn : n < 2 ^ 53) : 2 ^ 52 ≤ lead n := by
  have hlog := log2_le hn
  calc 2 ^ 52 = 2 ^ n.log2 * 2 ^ (52 - n.log2) := by
        rw [← Nat.pow_add, Nat.add_sub_cancel' hlog]
    _ ≤ lead n := Nat.mul_le_mul_right _ (Nat.log2_self_le (by omega))

theorem lead_lt {n : Nat} (hn : n < 2 ^ 53) : lead n < 2 ^ 53 := by
  have hlog := log2_le hn
  calc lead n < 2 ^ (n.log2 + 1) * 2 ^ (52 - n.log2) :=
        Nat.mul_lt_mul_of_pos_right Nat.lt_log2_self (by positivity)
    _ = 2 ^ 53 := by rw [← Nat.pow_add]; congr 1; omega

/-- The double of a whole number, before it is packed into bits. -/
def scaled {n : Nat} (h : 0 < n) (hn : n < 2 ^ 53) : Float.Model.UnpackedFloat :=
  .finite .positive (lead n) (((n.log2 + 1023 : Nat) : Int) - 1075)
    (by have := le_lead h hn; omega)

theorem isNormal_scaled {n : Nat} (h : 0 < n) (hn : n < 2 ^ 53) :
    IsNormal (lead n) (((n.log2 + 1023 : Nat) : Int) - 1075) := by
  have hlog := log2_le hn
  exact ⟨le_lead h hn, lead_lt hn, by unfold leastExponent; omega, by omega⟩

theorem ofNat_unpacked {n : Nat} (h : 0 < n) (hn : n < 2 ^ 53) :
    UnpackedFloat.ofNat Format.binary64 n = scaled h hn := by
  have hlog := log2_le hn
  have hpos : compare (n : Int) 0 = .gt := by
    rw [compare_gt_iff_gt]
    omega
  -- a count below 2 ^ 53 is shifted left until its leading bit is the highest
  have htarget : Format.binary64.targetExponent (totalExponent n 0) = (n.log2 : Int) - 52 := by
    simp only [Format.targetExponent, totalExponent, Format.mantissaBits, Format.minExponent]
    norm_num
    omega
  have hshift : (0 - ((n.log2 : Int) - 52)).toNat = 52 - n.log2 := by omega
  have hexponent : (0 : Int) - (52 - n.log2 : Nat) = (n.log2 : Int) - 52 - (0 : Nat) := by omega
  have hlead : n <<< (52 - n.log2) = lead n := Nat.shiftLeft_eq _ _
  have hround := roundWithAccuracy_exact (le_lead h hn) (lead_lt hn) 0
    (by omega : (-1074 : Int) ≤ (n.log2 : Int) - 52) .positive
  simp only [UnpackedFloat.ofNat, UnpackedFloat.ofInt, UnpackedFloat.normalize, hpos,
    Int.toNat_natCast, UnpackedFloat.round, htarget, decreaseExponent, hshift, hexponent, hlead]
  rw [pow_zero, mul_one] at hround
  rw [hround]
  simp only [scaled, UnpackedFloat.finite.injEq, true_and]
  omega

/-- Times one changes nothing: the zeros that the product gains are shifted off again. -/
theorem scaled_mul_one {n : Nat} (h : 0 < n) (hn : n < 2 ^ 53) :
    UnpackedFloat.mul Format.binary64 (scaled h hn)
        (UnpackedFloat.unpack Format.binary64 (Float.ofBits 0x3FF0000000000000).toBits.toBitVec)
      = scaled h hn := by
  have hone : UnpackedFloat.unpack Format.binary64
      (Float.ofBits 0x3FF0000000000000).toBits.toBitVec
        = .finite .positive (2 ^ 52) (-52) (by decide) := by
    have hbits : Float.ofBits 0x3FF0000000000000
        = .ofModel (Float.Model.pack (.finite .positive (2 ^ 52) ((1023 : Nat) - 1075 : Int)
          (by decide))) := by
      decide
    have hnormal : IsNormal (2 ^ 52) ((1023 : Nat) - 1075 : Int) :=
      ⟨by omega, by omega, by decide, by decide⟩
    rw [hbits]
    exact hnormal.unpack_pack .positive (by decide)
  -- multiplying by one adds 52 zero bits, and rounding takes them off again
  have hround := roundWithAccuracy_exact (le_lead h hn) (lead_lt hn) 52
    (by omega : (-1074 : Int) ≤ ((n.log2 + 1023 : Nat) : Int) - 1075) .positive
  rw [hone]
  exact hround

/-- A whole number below `2 ^ 53` as a double, unpacked. -/
theorem ofNat_eq {n : Nat} (h : 0 < n) (hn : n < 2 ^ 53) :
    Float.ofNat n = .ofModel (Float.Model.pack (scaled h hn)) := by
  have hword : n.toUInt64.toNat = n := by
    rw [Nat.toUInt64_eq, UInt64.toNat_ofNat', Nat.mod_eq_of_lt (by omega)]
  have hfactor : n.toUInt64.toFloat = .ofModel (Float.Model.pack (scaled h hn)) := by
    rw [UInt64.toFloat, Float.Model.ofUInt64, UnpackedFloat.ofUInt64, hword, ofNat_unpacked h hn]
  have hunpack : (Float.Model.pack (scaled h hn)).unpack = scaled h hn :=
    (isNormal_scaled h hn).unpack_pack .positive _
  -- the library scales by a power of ten, here by the zeroth
  have hproduct : Float.ofNat n = n.toUInt64.toFloat * Float.ofBits 0x3FF0000000000000 :=
    dif_pos ⟨hn, by omega⟩
  rw [hproduct, hfactor]
  show Float.ofModel (Float.Model.pack (UnpackedFloat.mul Format.binary64
    (Float.Model.pack (scaled h hn)).unpack _)) = _
  rw [hunpack]
  exact congrArg (fun u => Float.ofModel (Float.Model.pack u)) (scaled_mul_one h hn)

theorem unpack_ofNat_of_lt {n : Nat} (h : 0 < n) (hn : n < 2 ^ 53) :
    (Float.ofNat n).toModel.unpack = scaled h hn := by
  rw [ofNat_eq h hn]
  exact (isNormal_scaled h hn).unpack_pack .positive _

theorem parts_ofNat {n : Nat} (h : 0 < n) (hn : n < 2 ^ 53) :
    parts (Float.ofNat n) = .finite false (lead n) ((n.log2 : Int) - 52) := by
  have hexponent : ((n.log2 + 1023 : Nat) : Int) - 1075 = (n.log2 : Int) - 52 := by omega
  rw [parts_eq, unpack_ofNat_of_lt h hn, scaled, partsOf, hexponent]
  rfl

theorem wholePart_lead {n : Nat} (hn : n < 2 ^ 53) : wholePart (lead n) ((n.log2 : Int) - 52) = n := by
  have hlog := log2_le hn
  unfold wholePart lead
  split
  · have hfull : 52 - n.log2 = 0 := by omega
    have hnone : ((n.log2 : Int) - 52).toNat = 0 := by omega
    simp [hfull, hnone]
  · have hback : (-((n.log2 : Int) - 52)).toNat = 52 - n.log2 := by omega
    rw [hback, Nat.shiftRight_eq_div_pow]
    exact Nat.mul_div_cancel _ (by positivity)

/-- A whole number below `2 ^ 53` comes back from its double as it was. -/
theorem toInt64_ofInt {i : Int} (h : 0 < i) (hi : i < 2 ^ 53) :
    toInt64 (Float.ofInt i) = Int64.ofInt i := by
  obtain ⟨n, rfl⟩ := Int.eq_ofNat_of_zero_le (by omega : 0 ≤ i)
  have hn : n < 2 ^ 53 := by omega
  have hofInt : Float.ofInt (n : Int) = Float.ofNat n := rfl
  have hleast : Int64.minValue.toInt = -9223372036854775808 := by decide
  have hgreatest : Int64.maxValue.toInt = 9223372036854775807 := by decide
  rw [toInt64, clampToRange, hofInt, parts_ofNat (by omega) hn]
  simp only [wholePart_lead hn, hleast, hgreatest]
  congr 1
  simp
  omega

end MetaQuery.Decimal
