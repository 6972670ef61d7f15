/-
  MetaQuery/Cell.lean
  ===================
  Cells: the scalars that a row holds and that a statement binds.

  A JSON document becomes a cell by its kind; arrays and objects have no scalar form and are kept
  as their text.  `display` is the plain text of a cell.  Patterns, keys and messages are made
  from it, so a whole double is displayed like the integer, and NULL is displayed as nothing.
-/
import MetaQuery.Decimal.Reader
import MetaQuery.Json.Shape
import MetaQuery.Text.Blank

namespace MetaQuery

/-- One cell of a row, or one bound argument. -/
inductive Cell where
  | int (i : Int64)
  | float (x : Float)
  | bool (b : Bool)
  | text (s : String)
  | null
deriving DecidableEq, Repr, Inhabited

namespace Cell

/-- A JSON whole number: a signed word where it fits, else the nearest double. -/
def ofInt (i : Int) : Cell :=
  if Int64.minValue.toInt ≤ i ∧ i ≤ Int64.maxValue.toInt then .int (Int64.ofInt i)
  else .float (Float.ofInt i)

def ofJson : Json → Cell
  | .null => .null
  | .bool b => .bool b
  | .int i => ofInt i
  | .float x => .float x
  | .str s => .text s
  | j => .text j.text

/-- The cell as a JSON document; doubles without a JSON form become null. -/
def toJson : Cell → Json
  | .int i => .int i.toInt
  | .float x =>
    match Decimal.parts x with
    | .finite .. => .float x
    | _ => .null
  | .bool b => .bool b
  | .text s => .str s
  | .null => .null

def isNull : Cell → Bool
  | .null => true
  | _ => false

/-- The cell is NULL or the empty text: what a required column may not be. -/
def isBlank : Cell → Bool
  | .null => true
  | .text s => s == ""
  | _ => false

def text? : Cell → Option String
  | .text s => some s
  | _ => none

/-- The cell as a double: numbers as they are, texts as far as they read as a number. -/
def float? : Cell → Option Float
  | .int i => some (Float.ofInt i.toInt)
  | .float x => some x
  | .text s => Decimal.float? (Text.trimBlanks s.toList)
  | _ => none

def display : Cell → String
  | .int i => Decimal.intText i.toInt
  | .float x => Decimal.plainStyle.render x
  | .bool b => if b then "true" else "false"
  | .text s => s
  | .null => ""

@[simp] theorem display_text (s : String) : display (.text s) = s := rfl

@[simp] theorem display_null : display .null = "" := rfl

def decode (d : Json.Draft) : Except Json.Mismatch Cell :=
  match d with
  | .null => .ok .null
  | .bool b => .ok (.bool b)
  -- an integer beyond 64 bits is read as the double next to it
  | .int i => .ok (ofInt i)
  | .float x => .ok (.float x)
  | .str s => .ok (.text s)
  | .arr _ => .error (.noVariant "Value")
  | .obj _ => .error (.noVariant "Value")
  | .faulty flaw => .error (.malformed flaw)
  | .broken flaw => .error (.malformed flaw)

def coder : Json.Coder Cell where
  encode := toJson
  decode := fun _ d => decode d

end Cell

end MetaQuery
