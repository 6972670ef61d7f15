/-
  MetaQuery/Decimal/Reader.lean
  =============================
  Numbers read from text.  Integers are an optional sign and digits, and must fit their word.
  Doubles are digits with an optional point and an optional exponent, or the words `inf`,
  `infinity` and `nan` in any case; they are rounded correctly, and a magnitude beyond the
  greatest double is infinite.  No blank is accepted anywhere: trim first.
-/
import MetaQuery.Decimal.Binary

namespace MetaQuery.Decimal

/-! ### Integers -/

/-- The value of a non-empty run of digits. -/
def nat? (cs : List Char) : Option Nat :=
  if cs.isEmpty || !cs.all Char.isDigit then none else some (Nat.ofDigitChars 10 cs 0)

/-- A sign, if there is one, and what follows it; `true` is the minus sign. -/
def takeSign : List Char → Bool × List Char
  | '-' :: r => (true, r)
  | '+' :: r => (false, r)
  | cs => (false, cs)

def int? (cs : List Char) : Option Int :=
  let (negative, digits) := takeSign cs
  (nat? digits).map fun n => if negative then -Int.ofNat n else Int.ofNat n

def int64? (cs : List Char) : Option Int64 :=
  match int? cs with
  | some i =>
    if Int64.minValue.toInt ≤ i ∧ i ≤ Int64.maxValue.toInt then some (Int64.ofInt i) else none
  | none => none

/-- A natural number below `bound` with an optional plus sign. -/
def natBelow? (bound : Nat) (cs : List Char) : Option Nat :=
  let digits := match cs with
    | '+' :: r => r
    | cs => cs
  (nat? digits).filter (· < bound)

def uint64? (cs : List Char) : Option UInt64 := (natBelow? UInt64.size cs).map UInt64.ofNat

def uint32? (cs : List Char) : Option UInt32 := (natBelow? UInt32.size cs).map UInt32.ofNat

/-! ### Doubles -/

/-- The double nearest to `m * 10 ^ e`.  Far outside the range of doubles the answer is known
    without the power. -/
def nearest (m : Nat) (e : Int) : Float :=
  let size := Int.ofNat (Nat.toDigits 10 m).length + e
  if m = 0 then 0.0
  else if 310 < size then 1.0 / 0.0
  else if size < -330 then 0.0
  else if 0 ≤ e then Float.ofScientific m false e.toNat
  else Float.ofScientific m true (-e).toNat

/-- The exponent after the digits: nothing, or `e` and an integer. -/
def exponent? : List Char → Option Int
  | [] => some 0
  | c :: r => if c = 'e' ∨ c = 'E' then int? r else none

/-- A magnitude written with digits: at least one of them, before or after the point. -/
def magnitude? (cs : List Char) : Option Float :=
  let whole := cs.takeWhile Char.isDigit
  let rest := cs.dropWhile Char.isDigit
  let (fraction, tail) := match rest with
    | '.' :: r => (r.takeWhile Char.isDigit, r.dropWhile Char.isDigit)
    | r => ([], r)
  -- a point alone is no number, but digits on one side of it are enough
  if whole.isEmpty && fraction.isEmpty then none
  else (exponent? tail).map fun e =>
    nearest (Nat.ofDigitChars 10 (whole ++ fraction) 0) (e - Int.ofNat fraction.length)

/-- A magnitude written as a word, in any case. -/
def specialMagnitude? (cs : List Char) : Option Float :=
  let word := cs.map Char.toLower
  if word == "inf".toList || word == "infinity".toList then some (1.0 / 0.0)
  else if word == "nan".toList then some (0.0 / 0.0)
  else none

def float? (cs : List Char) : Option Float :=
  let (negative, r) := takeSign cs
  ((magnitude? r).or (specialMagnitude? r)).map fun x => if negative then -x else x

end MetaQuery.Decimal
