/-
  MetaQuery/Text/Ranges.lean
  ==========================
  Sets of code points, written as texts.  Each range is given by its distance from the end of
  the one before, and, when it has more than one code point, a plus sign and the number of
  further ones: `65+25 7+25` are the letters of ASCII.
-/
import MetaQuery.Decimal.Reader
import MetaQuery.Text.Pieces

namespace MetaQuery.Text

/-- The ranges that items stand for, behind the code point `last`. -/
def rangesFrom (last : Nat) : List (List Char) → List (Nat × Nat)
  | [] => []
  | item :: r =>
    let gap := item.takeWhile Char.isDigit
    let further := (item.dropWhile Char.isDigit).drop 1
    let low := last + Nat.ofDigitChars 10 gap 0
    let high := low + Nat.ofDigitChars 10 further 0
    (low, high) :: rangesFrom high r

def rangesOf (s : String) : List (Nat × Nat) :=
  rangesFrom 0 ((splitBy (· == ' ') s.toList).filter (!·.isEmpty))

end MetaQuery.Text
