/-
  MetaQuery/Json/Printer.lean
  ===========================
  JSON as compact text.  Strings escape the quote, the backslash and the control characters, and
  nothing else.  Doubles take the fewest digits that read back, in positional notation from
  `0.00001` up to below `1e+16`, and a whole double keeps `.0`, so it stays a double when read.
-/
import MetaQuery.Decimal.Shortest
import MetaQuery.Json.Value
import MetaQuery.Text.Pieces

namespace MetaQuery.Json

def numberStyle : Decimal.NumberStyle where
  tie := .toEven
  marksWhole := true
  positional := fun p => -5 < p && p ≤ 16
  infinity := "null"
  notANumber := "null"

/-- The text of a double; what JSON cannot write is `null`. -/
def floatText (x : Float) : String :=
  match Decimal.parts x with
  | .finite .. => numberStyle.render x
  | _ => "null"

def hexDigit (n : Nat) : Char := if n < 10 then Char.ofNat (48 + n) else Char.ofNat (87 + n)

def escapeChar (c : Char) : List Char :=
  if c = '"' then ['\\', '"']
  else if c = '\\' then ['\\', '\\']
  else if 0x20 ≤ c.toNat then [c]
  else match c.toNat with
    | 8 => ['\\', 'b']
    | 9 => ['\\', 't']
    | 10 => ['\\', 'n']
    | 12 => ['\\', 'f']
    | 13 => ['\\', 'r']
    | n => ['\\', 'u', '0', '0', hexDigit (n / 16), hexDigit (n % 16)]

def quoteText (s : String) : String :=
  String.ofList ('"' :: (s.toList.flatMap escapeChar ++ ['"']))

mutual

def text : Json → String
  | .null => "null"
  | .bool b => if b then "true" else "false"
  | .int i => Decimal.intText i
  | .float x => floatText x
  | .str s => quoteText s
  | .arr items => "[" ++ Text.joinWith "," (itemTexts items) ++ "]"
  | .obj members => "\x7b" ++ Text.joinWith "," (memberTexts members) ++ "\x7d"

def itemTexts : List Json → List String
  | [] => []
  | j :: r => text j :: itemTexts r

def memberTexts : List (String × Json) → List String
  | [] => []
  | (k, j) :: r => (quoteText k ++ ":" ++ text j) :: memberTexts r

end

end MetaQuery.Json
