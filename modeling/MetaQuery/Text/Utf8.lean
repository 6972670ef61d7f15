/-
  MetaQuery/Text/Utf8.lean
  ========================
  Bytes read as UTF-8 where they may be anything else.  What is not UTF-8 becomes U+FFFD: one for
  each longest start of a character that is not completed, and one for each byte that starts none.
-/

namespace MetaQuery.Text

/-- A character of several bytes that has been started. -/
structure Started where
  /-- The bits read so far. -/
  value : Nat
  /-- How many bytes are still to come. -/
  left : Nat
  /-- Between these the next byte must be. -/
  low : Nat
  high : Nat
deriving DecidableEq, Repr

/-- A byte where a character starts: what it completes, and what it starts. -/
def startByte (b : Nat) : List Char × Option Started :=
  if b < 0x80 then ([Char.ofNat b], none)
  else if b < 0xC2 then (['\uFFFD'], none)
  else if b < 0xE0 then ([], some ⟨b - 0xC0, 1, 0x80, 0xBF⟩)
  else if b < 0xF0 then
    ([], some ⟨b - 0xE0, 2, if b = 0xE0 then 0xA0 else 0x80, if b = 0xED then 0x9F else 0xBF⟩)
  else if b < 0xF5 then
    ([], some ⟨b - 0xF0, 3, if b = 0xF0 then 0x90 else 0x80, if b = 0xF4 then 0x8F else 0xBF⟩)
  else (['\uFFFD'], none)

/-- A byte behind a character that has been started. -/
def nextByte (p : Started) (b : Nat) : List Char × Option Started :=
  if p.low ≤ b ∧ b ≤ p.high then
    let value := 64 * p.value + (b - 0x80)
    if p.left = 1 then ([Char.ofNat value], none)
    else ([], some ⟨value, p.left - 1, 0x80, 0xBF⟩)
  else ('\uFFFD' :: (startByte b).1, (startByte b).2)

/-- The characters of bytes, behind a character that has been started or not. -/
def charsFrom : Option Started → List UInt8 → List Char
  | none, [] => []
  | some _, [] => ['\uFFFD']
  | none, b :: r => (startByte b.toNat).1 ++ charsFrom (startByte b.toNat).2 r
  | some p, b :: r => (nextByte p b.toNat).1 ++ charsFrom (nextByte p b.toNat).2 r

def textOfBytes (bytes : List UInt8) : String := String.ofList (charsFrom none bytes)

end MetaQuery.Text
