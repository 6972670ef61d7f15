/-
  MetaQuery/Proofs/Decimal/Parts.lean
  ===================================
  The parts of a double are those of its unpacked form.

  `Decimal.parts` takes the bits of a double apart by division; the arithmetic of doubles unpacks
  them into a sign, a mantissa and an exponent.  Both say the same (`parts_eq`), so what arithmetic
  makes can be read by its parts.  A number whose mantissa has all of its 53 bits is packed and
  unpacked without a change (`IsNormal.unpack_pack`), and every other finite one has the least
  exponent (`bounds_of_unpack`).
-/
import Mathlib
import MetaQuery.Decimal.Binary

namespace MetaQuery.Decimal

open Float.Model Float.Model.UnpackedFloat

/-- Bits behind bits: the front ones weigh more. -/
theorem toNat_append_bits {v w : Nat} (x : BitVec v) (y : BitVec w) :
    (x ++ y).toNat = x.toNat * 2 ^ w + y.toNat := by
  rw [BitVec.toNat_append, ← Nat.shiftLeft_add_eq_or_of_lt y.isLt, Nat.shiftLeft_eq]

/-! ### Reading bits -/

/-- The parts of an unpacked double. -/
def partsOf : UnpackedFloat → Parts
  | .notANumber => .notANumber
  | .infinity s => .infinite (s == .negative)
  | .zero s => .finite (s == .negative) 0 leastExponent
  | .finite s m e _ => .finite (s == .negative) m e

section
variable (b : BitVec Format.binary64.numBits)

theorem toNat_unpackMantissa : (unpackMantissa b).toNat = b.toNat % leadingWeight := by
  simp [unpackMantissa, leadingWeight]

theorem toNat_unpackExponent : (unpackExponent b).toNat = b.toNat / leadingWeight % 2048 := by
  simp [unpackExponent, leadingWeight, Nat.shiftRight_eq_div_pow]

theorem ofBitVec_unpackSign :
    (Sign.ofBitVec (unpackSign b) == .negative) = decide (signWeight ≤ b.toNat) := by
  have hlt : b.toNat < 2 ^ 64 := b.isLt
  have hnat : (unpackSign b).toNat = b.toNat / 2 ^ 63 % 2 := by
    simp [unpackSign, Nat.shiftRight_eq_div_pow]
  unfold signWeight Sign.ofBitVec
  split
  · next hzero =>
    have hbit : b.toNat / 2 ^ 63 % 2 = 0 := by rw [← hnat, hzero]; rfl
    exact (decide_eq_false (by omega)).symm
  · next hone =>
    have hbit : (unpackSign b).toNat ≠ 0 := fun h => hone (BitVec.eq_of_toNat_eq h)
    exact (decide_eq_true (by omega)).symm

end

theorem parts_of_bits {x : Float} {b : BitVec Format.binary64.numBits}
    (hbits : x.toBits.toNat = b.toNat) : parts x = partsOf (UnpackedFloat.unpack .binary64 b) := by
  have hmantissa := toNat_unpackMantissa b
  have hexponent := toNat_unpackExponent b
  have hsign := ofBitVec_unpackSign b
  -- all bits of the exponent set: infinity or NaN
  have hfull : unpackExponent b = -1#11 ↔ b.toNat / leadingWeight % 2048 = 2047 := by
    rw [← hexponent, ← BitVec.toNat_inj]
    rfl
  -- none set: zero or a subnormal, which has no leading one
  have hleast : unpackExponent b = 0#11 ↔ b.toNat / leadingWeight % 2048 = 0 := by
    rw [← hexponent, ← BitVec.toNat_inj]
    rfl
  have hnone : unpackMantissa b = 0#52 ↔ b.toNat % leadingWeight = 0 := by
    rw [← hmantissa, ← BitVec.toNat_inj]
    rfl
  have hlead : (1#1 ++ unpackMantissa b).toNat = leadingWeight + b.toNat % leadingWeight := by
    rw [toNat_append_bits, hmantissa]
    rfl
  have hbias : (Format.binary64.exponentBias : Int) + (52 : Nat) = 1075 := by decide
  unfold parts UnpackedFloat.unpack
  simp only [hbits, hfull, hleast, hnone, hexponent, hbias]
  split
  · split
    · simp [partsOf, hsign]
    · simp [partsOf]
  · split
    · split
      · next hzero => simp [partsOf, hsign, hzero]
      · simp only [partsOf, hsign, hmantissa, leastExponent, Parts.finite.injEq, true_and]
        omega
    · simp [partsOf, hsign, hlead]

theorem parts_eq (x : Float) : parts x = partsOf x.toModel.unpack := parts_of_bits rfl

/-- A finite double has 53 bits, or fewer at the least exponent. -/
theorem bounds_of_unpack {b : BitVec Format.binary64.numBits} {s : Sign} {m : Nat} {e : Int}
    {hm : 0 < m} (h : UnpackedFloat.unpack .binary64 b = .finite s m e hm) :
    m < 2 ^ 53 ∧ (e = leastExponent ∨ 2 ^ 52 ≤ m) := by
  have hlt : (unpackMantissa b).toNat < 2 ^ 52 := (unpackMantissa b).isLt
  unfold UnpackedFloat.unpack at h
  dsimp only at h
  split at h
  · split at h
    · cases h
    · cases h
  · split at h
    · split at h
      · cases h
      · next hzero _ =>
        obtain ⟨-, rfl, rfl⟩ := UnpackedFloat.finite.inj h
        -- a subnormal keeps the least exponent
        refine ⟨by omega, .inl ?_⟩
        rw [hzero]
        decide
    · obtain ⟨-, rfl, -⟩ := UnpackedFloat.finite.inj h
      have hlead : (1#1 ++ unpackMantissa b).toNat = 2 ^ 52 + (unpackMantissa b).toNat := by
        rw [toNat_append_bits]
        rfl
      omega

/-! ### Packing and unpacking -/

/-- The bits of 53 bits with an exponent: the leading one is not stored. -/
theorem pack_normal {m : Nat} (hlog : m.log2 = 52) {b : Nat} (hb : b < 2047) (s : Sign)
    (h0 : 0 < m) :
    UnpackedFloat.pack Format.binary64 (.finite s m ((b : Int) - 1075) h0)
      = packComponents Format.binary64 s (BitVec.ofNat 11 b) (BitVec.ofNat 52 m) := by
  have hbias :
      ((b : Int) - 1075 + (Format.binary64.exponentBias : Int) + (52 : Nat)).toNat = b := by
    have : (Format.binary64.exponentBias : Int) = 1023 := by decide
    omega
  have hsmall : ¬ 2 ^ 11 ≤ b + 1 := by omega
  simp only [UnpackedFloat.pack, hlog, hbias, hsmall, if_false]
  rfl

theorem toBitVec_pack (u : UnpackedFloat) :
    (Float.Model.pack u).toBits.toBitVec = UnpackedFloat.pack Format.binary64 u :=
  rfl

/-- The mantissa has all of its 53 bits, and the exponent is one of a double. -/
structure IsNormal (m : Nat) (e : Int) : Prop where
  le_mantissa : 2 ^ 52 ≤ m
  mantissa_lt : m < 2 ^ 53
  le_exponent : leastExponent ≤ e
  exponent_le : e ≤ 971

theorem IsNormal.unpack_pack {m : Nat} {e : Int} (h : IsNormal m e) (s : Sign) (h0 : 0 < m) :
    (Float.Model.pack (.finite s m e h0)).unpack = .finite s m e h0 := by
  obtain ⟨hlow, hhigh, hleast, hgreatest⟩ := h
  unfold leastExponent at hleast
  obtain ⟨b, rfl⟩ : ∃ b : Nat, e = b - 1075 := ⟨(e + 1075).toNat, by omega⟩
  have hlog : m.log2 = 52 := (Nat.log2_eq_iff (by omega)).2 ⟨hlow, hhigh⟩
  have hexponent : (BitVec.ofNat 11 b).toNat = b := by
    rw [BitVec.toNat_ofNat]
    omega
  -- a normal exponent is neither of the two reserved ones
  have hfull : BitVec.ofNat 11 b ≠ -1#11 := by
    intro h
    rw [h] at hexponent
    have hmax : (-1#11).toNat = 2047 := rfl
    omega
  have hzero : BitVec.ofNat 11 b ≠ 0#11 := by
    intro h
    rw [h] at hexponent
    have hmin : (0#11).toNat = 0 := rfl
    omega
  have hlead : (1#1 ++ BitVec.ofNat 52 m).toNat = m := by
    rw [toNat_append_bits]
    simp only [BitVec.toNat_ofNat]
    omega
  have hbias : (((BitVec.ofNat 11 b).toNat : Int)
      - ((Format.binary64.exponentBias : Int) + (52 : Nat))) = (b : Int) - 1075 := by
    have : (Format.binary64.exponentBias : Int) = 1023 := by decide
    omega
  rw [Float.Model.unpack, toBitVec_pack, pack_normal hlog (by omega)]
  simp only [UnpackedFloat.unpack, unpackExponent_packComponents, unpackMantissa_packComponents,
    unpackSign_packComponents, Sign.ofBitVec_toBitVec, hfull, hzero, if_false, hbias, hlead]

end MetaQuery.Decimal
