/-
  MetaQuery/Decimal/Binary.lean
  =============================
  A double taken apart: its sign, and its magnitude as a natural number times a power of two.
  Everything exact about doubles (their decimal text, their whole part) starts from here,
  because the bits are the one part of a double that the logic can look at.
-/

namespace MetaQuery.Decimal

/-- What the bits of a double say. -/
inductive Parts where
  | notANumber
  | infinite (negative : Bool)
  /-- The magnitude is `mantissa * 2 ^ exponent`. -/
  | finite (negative : Bool) (mantissa : Nat) (exponent : Int)
deriving DecidableEq, Repr

/-- The least exponent of a double; below it there is no further precision. -/
def leastExponent : Int := -1074

/-- The weight of the sign among the bits, `2 ^ 63`. -/
def signWeight : Nat := 0x8000000000000000

/-- The weight of the bit in front of the fraction, `2 ^ 52`. -/
def leadingWeight : Nat := 0x10000000000000

/-- The parts of a double. -/
def parts (x : Float) : Parts :=
  let bits := x.toBits.toNat
  let negative := signWeight ≤ bits
  let field := bits / leadingWeight % 2048
  let fraction := bits % leadingWeight
  if field = 2047 then
    if fraction = 0 then .infinite negative else .notANumber
  -- no leading one in front of a subnormal
  else if field = 0 then .finite negative fraction leastExponent
  else .finite negative (leadingWeight + fraction) (Int.ofNat field - 1075)

/-- The whole part of a magnitude: the fraction is dropped. -/
def wholePart (mantissa : Nat) (exponent : Int) : Nat :=
  if 0 ≤ exponent then mantissa <<< exponent.toNat else mantissa >>> (-exponent).toNat

/-- The double as an integer between `least` and `greatest`: toward zero, held at the bounds,
    and zero for what is not a number. -/
def clampToRange (least greatest : Int) (x : Float) : Int :=
  match parts x with
  | .notANumber => 0
  | .infinite negative => if negative then least else greatest
  | .finite negative m e =>
    let whole := Int.ofNat (wholePart m e)
    max least (min greatest (if negative then -whole else whole))

def toInt64 (x : Float) : Int64 :=
  Int64.ofInt (clampToRange Int64.minValue.toInt Int64.maxValue.toInt x)

def toUInt64 (x : Float) : UInt64 :=
  UInt64.ofNat (clampToRange 0 (UInt64.size - 1) x).toNat

theorem clampToRange_mem {least greatest : Int} (x : Float) (hl : least ≤ 0)
    (hg : 0 ≤ greatest) :
    least ≤ clampToRange least greatest x ∧ clampToRange least greatest x ≤ greatest := by
  unfold clampToRange
  split
  · exact ⟨hl, hg⟩
  · split <;> omega
  · simp only; omega

end MetaQuery.Decimal
