/-
  MetaQuery/Decimal/Shortest.lean
  ===============================
  The decimal text of a double: the fewest digits that read back as the same double, and of
  these the nearest to it.

  A double `v = m * 2 ^ q` stands for the interval of reals that round to it.  For one digit, two
  digits, … the two neighbours of `v` on that decimal grid are tested against the interval, all
  in exact natural number arithmetic; the first grid with a hit wins.  If both neighbours lie in
  the interval the nearer is taken, and `Tie` says what happens half-way.

  How the digits are laid out (where positional notation ends, whether a whole number keeps
  `.0`) is a decision of the format that prints, a value of `NumberStyle`.
-/
import MetaQuery.Decimal.Binary

namespace MetaQuery.Decimal

/-! ### The interval of a double -/

/-- Reals that round to a double, scaled to natural numbers: the double is `value / unit`, the
    ends of the interval are `low / unit` and `high / unit`. -/
structure Rounding where
  value : Nat
  low : Nat
  high : Nat
  unit : Nat
  /-- The ends round to the double too. -/
  closed : Bool
deriving DecidableEq, Repr

/-- The interval of `mantissa * 2 ^ exponent`.  Below a power of two the neighbouring double is
    only half as far away. -/
def Rounding.of (mantissa : Nat) (exponent : Int) : Rounding :=
  -- below a power of two the doubles lie twice as close
  let below := if mantissa = leadingWeight ∧ leastExponent < exponent then 1 else 2
  let e := exponent - 2
  let scale := if 0 ≤ e then 1 <<< e.toNat else 1
  { value := 4 * mantissa * scale
    low := (4 * mantissa - below) * scale
    high := (4 * mantissa + 2) * scale
    unit := if 0 ≤ e then 1 else 1 <<< (-e).toNat
    closed := mantissa % 2 == 0 }

def tenTo (n : Nat) : Nat := Nat.pow 10 n

/-- `a * 10 ^ k ≤ b`, for a power of either sign. -/
def scaledLe (a : Nat) (k : Int) (b : Nat) : Bool :=
  if 0 ≤ k then a * tenTo k.toNat ≤ b else a ≤ b * tenTo (-k).toNat

/-- `a * 10 ^ k < b`, for a power of either sign. -/
def scaledLt (a : Nat) (k : Int) (b : Nat) : Bool :=
  if 0 ≤ k then a * tenTo k.toNat < b else a < b * tenTo (-k).toNat

/-- `b ≤ a * 10 ^ k`, for a power of either sign. -/
def leScaled (b : Nat) (a : Nat) (k : Int) : Bool := !scaledLt a k b

/-- `c * 10 ^ k` rounds to the double. -/
def Rounding.holds (r : Rounding) (c : Nat) (k : Int) : Bool :=
  let p := c * r.unit
  if r.closed then leScaled r.low p k && scaledLe p k r.high
  else !scaledLe p k r.low && scaledLt p k r.high

/-- The last point at or below the double on the grid of multiples of `10 ^ k`. -/
def Rounding.floorAt (r : Rounding) (k : Int) : Nat :=
  if 0 ≤ k then r.value / (r.unit * tenTo k.toNat) else r.value * tenTo (-k).toNat / r.unit

def digitCount (n : Nat) : Nat := (Nat.toDigits 10 n).length

/-- The exponent `p` with `10 ^ (p - 1) ≤ v < 10 ^ p` for a positive double `v`. -/
def Rounding.point (r : Rounding) : Int :=
  let e := Int.ofNat (digitCount r.value) - Int.ofNat (digitCount r.unit)
  if scaledLe r.unit e r.value then e + 1 else e

/-! ### The shortest decimal -/

/-- Which neighbour is taken when a double lies half-way between two. -/
inductive Tie where
  | up
  | toEven
deriving DecidableEq, Repr

/-- The neighbour of the double on the grid of multiples of `10 ^ k` that rounds to it. -/
def Rounding.hit? (r : Rounding) (tie : Tie) (k : Int) : Option Nat :=
  let c := r.floorAt k
  match r.holds c k, r.holds (c + 1) k with
  | true, true =>
    -- both neighbours read back: the nearer one, and on a tie as the format has it
    let middle := (2 * c + 1) * r.unit
    if scaledLt middle k (2 * r.value) then some (c + 1)
    else if scaledLe middle k (2 * r.value) then
      match tie with
      | .up => some (c + 1)
      | .toEven => some (if c % 2 = 0 then c else c + 1)
    else some c
  | true, false => some c
  | false, true => some (c + 1)
  | false, false => none

/-- The first grid with a hit, from `k` downward; the last grid when none has one. -/
def Rounding.search (r : Rounding) (tie : Tie) : Nat → Int → Nat × Int
  | 0, k => (r.floorAt k, k)
  | steps + 1, k =>
    match r.hit? tie k with
    | some c => (c, k)
    | none => r.search tie steps (k - 1)

/-- The number without its trailing zeros, each of which raises the exponent. -/
def dropZeros : Nat → Nat → Int → Nat × Int
  | 0, c, k => (c, k)
  | steps + 1, c, k => if c % 10 = 0 then dropZeros steps (c / 10) (k + 1) else (c, k)

/-- The shortest decimal `c * 10 ^ k` that reads back as the positive double
    `mantissa * 2 ^ exponent`.  Seventeen digits always suffice. -/
def shortest (tie : Tie) (mantissa : Nat) (exponent : Int) : Nat × Int :=
  let r := Rounding.of mantissa exponent
  let (c, k) := r.search tie 17 (r.point - 1)
  dropZeros 18 c k

/-! ### Layout -/

/-- How a format writes doubles. -/
structure NumberStyle where
  tie : Tie
  /-- A whole number in positional notation ends in `.0`. -/
  marksWhole : Bool
  /-- For which `p`, with `10 ^ (p - 1) ≤ v < 10 ^ p`, the notation is positional. -/
  positional : Int → Bool
  infinity : String
  notANumber : String

/-- The digits with the decimal point after the first `point` of them. -/
def positionalText (marksWhole : Bool) (digits : List Char) (point : Int) : List Char :=
  let n := Int.ofNat digits.length
  if point ≤ 0 then '0' :: '.' :: (List.replicate (-point).toNat '0' ++ digits)
  else if n ≤ point then
    digits ++ List.replicate (point - n).toNat '0' ++ (if marksWhole then ['.', '0'] else [])
  else digits.take point.toNat ++ '.' :: digits.drop point.toNat

/-- One digit, the others after a point, and the exponent with its sign. -/
def exponentText (digits : List Char) (point : Int) : List Char :=
  let e := point - 1
  let head := match digits with
    | d :: r@(_ :: _) => d :: '.' :: r
    | ds => ds
  head ++ 'e' :: (if 0 ≤ e then '+' else '-') :: Nat.toDigits 10 e.natAbs

def NumberStyle.render (style : NumberStyle) (x : Float) : String :=
  let signed (negative : Bool) (cs : List Char) :=
    String.ofList (if negative then '-' :: cs else cs)
  match parts x with
  | .notANumber => style.notANumber
  | .infinite negative => signed negative style.infinity.toList
  | .finite negative m e =>
    if m = 0 then signed negative (positionalText style.marksWhole ['0'] 1)
    else
      let (c, k) := shortest style.tie m e
      let digits := Nat.toDigits 10 c
      -- the decimal point stands behind the first `point` digits
      let point := Int.ofNat digits.length + k
      signed negative <|
        if style.positional point then positionalText style.marksWhole digits point
        else exponentText digits point

/-- Plain decimals: never an exponent, and nothing after a whole number. -/
def plainStyle : NumberStyle where
  tie := .up
  marksWhole := false
  positional := fun _ => true
  infinity := "inf"
  notANumber := "NaN"

def intText (i : Int) : String :=
  String.ofList (if i < 0 then '-' :: Nat.toDigits 10 i.natAbs else Nat.toDigits 10 i.natAbs)

end MetaQuery.Decimal
