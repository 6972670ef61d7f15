/-
  MetaQuery/Json/Shape.lean
  =========================
  How values of Lean types are written as JSON and read back.

  A `Coder` pairs the two directions for one type.  Records are described once, by a `Layout`: the
  columns in order, each with its name, whether it must be present, and how to get it out of a
  record and put it in.  From the layout come both directions: writing puts all columns out in
  order; reading starts from a blank record and puts in what it finds, in document order, passing
  over unknown names.

  Reading reports the first fault of the document.  A missing column is a fault of the whole
  record and comes after those of its members.  A record may also be written as an array of its
  columns.  What a reader says about superfluous parts depends on whether it reads a text or a
  document already read, which is what `Origin` keeps apart.
-/
import MetaQuery.Json.Draft
import MetaQuery.Json.Printer
import MetaQuery.Text.Category

namespace MetaQuery.Json

/-! ### Faults of the type -/

/-- What a reader found where it expected something else. -/
inductive Found where
  | null
  | boolean (b : Bool)
  | integer (i : Int)
  | float (x : Float)
  | text (s : String)
  | sequence
  | map
deriving DecidableEq, Repr

/-- Why a document is not of the expected type. -/
inductive Mismatch where
  | malformed (flaw : Flaw)
  | wrongType (found : Found) (expected : String)
  | wrongValue (found : Found) (expected : String)
  | wrongLength (length : Nat) (expected : String)
  | missingField (name : String)
  | duplicateField (name : String)
  | unknownVariant (name : String) (variants : List String)
  | noVariant (type : String)
deriving DecidableEq, Repr

/-- A character inside a quoted text of a message.  What does not show by itself is given by its
    code point. -/
def messageChar (c : Char) : List Char :=
  match c with
  | '"' => ['\\', '"']
  | '\\' => ['\\', '\\']
  | '\t' => ['\\', 't']
  | '\n' => ['\\', 'n']
  | '\r' => ['\\', 'r']
  | '\x00' => ['\\', '0']
  | c =>
    if Text.isPrintable c then [c]
    else ['\\', 'u', '{'] ++ (Nat.toDigits 16 c.toNat) ++ ['}']

def Found.message : Found → String
  | .null => "null"
  | .boolean b => "boolean `" ++ (if b then "true" else "false") ++ "`"
  | .integer i => "integer `" ++ Decimal.intText i ++ "`"
  | .float x => "floating point `" ++ floatText x ++ "`"
  | .text s => "string \"" ++ String.ofList (s.toList.flatMap messageChar) ++ "\""
  | .sequence => "sequence"
  | .map => "map"

/-- A list of variants, as a message names them. -/
def variantsMessage : List String → String
  | [] => "there are no variants"
  | [a] => "expected `" ++ a ++ "`"
  | [a, b] => "expected `" ++ a ++ "` or `" ++ b ++ "`"
  | names => "expected one of " ++ Text.joinWith ", " (names.map fun n => "`" ++ n ++ "`")

def Mismatch.message : Mismatch → String
  | .malformed flaw => flaw.message
  | .wrongType found expected => "invalid type: " ++ found.message ++ ", expected " ++ expected
  | .wrongValue found expected => "invalid value: " ++ found.message ++ ", expected " ++ expected
  | .wrongLength n expected =>
    "invalid length " ++ Decimal.intText (Int.ofNat n) ++ ", expected " ++ expected
  | .missingField name => "missing field `" ++ name ++ "`"
  | .duplicateField name => "duplicate field `" ++ name ++ "`"
  | .unknownVariant name variants =>
    "unknown variant `" ++ name ++ "`, " ++ variantsMessage variants
  | .noVariant type => "data did not match any variant of untagged enum " ++ type

/-- The refusal of a draft where something else was expected. -/
def Draft.refuse (d : Draft) (expected : String) : Mismatch :=
  match d with
  | .null => .wrongType .null expected
  | .bool b => .wrongType (.boolean b) expected
  | .int i => .wrongType (.integer i) expected
  | .float x => .wrongType (.float x) expected
  | .str s => .wrongType (.text s) expected
  | .arr _ => .wrongType .sequence expected
  | .obj _ => .wrongType .map expected
  | .faulty flaw => .malformed flaw
  | .broken flaw => .malformed flaw

/-! ### Coders -/

/-- Where a draft comes from. -/
inductive Origin where
  | text
  | document
deriving DecidableEq, Repr

/-- Both directions between a type and JSON. -/
structure Coder (α : Type) where
  encode : α → Json
  decode : Origin → Draft → Except Mismatch α

def Coder.ofJson {α : Type} (c : Coder α) (j : Json) : Except Mismatch α :=
  c.decode .document (draft j)

def Coder.ofText {α : Type} (c : Coder α) (s : String) : Except Mismatch α := do
  let document := Document.read s
  let value ← c.decode .text document.draft
  if document.hasMore then .error (.malformed .trailingCharacters) else .ok value

def Coder.text {α : Type} (c : Coder α) (a : α) : String := Json.text (c.encode a)

def stringCoder : Coder String where
  encode := .str
  decode := fun _ d => match d with
    | .str s => .ok s
    | d => .error (d.refuse "a string")

def flagCoder : Coder Bool where
  encode := .bool
  decode := fun _ d => match d with
    | .bool b => .ok b
    | d => .error (d.refuse "a boolean")

/-- Doubles; whole numbers are accepted. -/
def floatCoder : Coder Float where
  encode := .float
  decode := fun _ d => match d with
    | .float x => .ok x
    | .int i => .ok (Float.ofInt i)
    | d => .error (d.refuse "f64")

/-- A natural number below `bound`, called `expected` in messages. -/
def natBelow (bound : Nat) (expected : String) (d : Draft) : Except Mismatch Nat :=
  match d with
  | .int i =>
    if 0 ≤ i ∧ i < bound then .ok i.toNat else .error (.wrongValue (.integer i) expected)
  | d => .error (d.refuse expected)

def wordCoder : Coder UInt64 where
  encode := fun n => .int n.toNat
  decode := fun _ d => (natBelow UInt64.size "u64" d).map UInt64.ofNat

/-- Sizes, which are words under another name. -/
def sizeCoder : Coder UInt64 where
  encode := fun n => .int n.toNat
  decode := fun _ d => (natBelow UInt64.size "usize" d).map UInt64.ofNat

def portCoder : Coder UInt16 where
  encode := fun n => .int n.toNat
  decode := fun _ d => (natBelow UInt16.size "u16" d).map UInt16.ofNat

def anyCoder : Coder Json where
  encode := id
  decode := fun _ d => d.finish.mapError .malformed

def listCoder {α : Type} (c : Coder α) : Coder (List α) where
  encode := fun xs => .arr (xs.map c.encode)
  decode := fun o d => match d with
    | .arr items => items.mapM (c.decode o)
    | d => .error (d.refuse "a sequence")

/-! ### Enumerations -/

/-- The value that a variant's name stands for. -/
def variantOf {α : Type} (variants : List (String × α)) (name : String) : Except Mismatch α :=
  match variants.lookup name with
  | some a => .ok a
  | none => .error (.unknownVariant name (variants.map (·.1)))

/-- A variant written as an object: its name, with `null` under it. -/
def variantOfMembers {α : Type} (variants : List (String × α)) (o : Origin) :
    List (String × Draft) → Except Mismatch α
  | [] => match o with
    | .text => .error (.malformed .expectedValue)
    | .document => .error (.wrongValue .map "map with a single key")
  | (name, d) :: r => do
    if o = .document ∧ !r.isEmpty then throw (.wrongValue .map "map with a single key")
    if let .broken flaw := d then
      if name = "" then throw (.malformed flaw)
    let a ← variantOf variants name
    match d with
    | .null => if r.isEmpty then .ok a else .error (.malformed .expectedValue)
    | d => .error (d.refuse "unit")

/-- One of finitely many values, written by name. -/
def variantCoder {α : Type} (variants : List (String × α)) (name : α → String) : Coder α where
  encode := fun a => .str (name a)
  decode := fun o d => match d with
    | .str s => variantOf variants s
    | .obj members => variantOfMembers variants o members
    | .faulty flaw => .error (.malformed flaw)
    | .broken flaw => .error (.malformed flaw)
    | d => match o with
      | .text => .error (.malformed .expectedValue)
      | .document => .error (d.refuse "string or map")

/-! ### Records -/

/-- A column of a record type `ρ`. -/
structure Column (ρ : Type) where
  name : String
  required : Bool
  get : ρ → Json
  put : Origin → Draft → ρ → Except Mismatch ρ

/-- A column coded by `c`. -/
def Column.of {ρ α : Type} (required : Bool) (name : String) (c : Coder α) (get : ρ → α)
    (set : α → ρ → ρ) : Column ρ where
  name := name
  required := required
  get := fun r => c.encode (get r)
  put := fun o d r => (c.decode o d).map fun a => set a r

/-- A column that every record must have. -/
def Column.must {ρ α : Type} (name : String) (c : Coder α) (get : ρ → α) (set : α → ρ → ρ) :
    Column ρ := Column.of true name c get set

/-- A column that keeps its blank value where it is missing. -/
def Column.may {ρ α : Type} (name : String) (c : Coder α) (get : ρ → α) (set : α → ρ → ρ) :
    Column ρ := Column.of false name c get set

/-- A record type: its name in messages, the record that reading starts from, its columns. -/
structure Layout (ρ : Type) where
  name : String
  blank : ρ
  columns : List (Column ρ)

/-- The members of an object put into a record one after the other; `seen` are the columns
    already put in. -/
def Layout.readMembers {ρ : Type} (l : Layout ρ) (o : Origin) (seen : List String) (r : ρ) :
    List (String × Draft) → Except Mismatch ρ
  | [] =>
    match l.columns.find? fun c => c.required && !seen.contains c.name with
    | some c => .error (.missingField c.name)
    | none => .ok r
  | (name, d) :: rest =>
    match l.columns.find? (·.name == name) with
    | none =>
      -- an unknown member is passed over, but what is wrong with it is still told
      match d.flaw? with
      | some flaw => .error (.malformed flaw)
      | none => l.readMembers o seen r rest
    | some c =>
      if seen.contains name then .error (.duplicateField name)
      else do
        let r ← c.put o d r
        l.readMembers o (name :: seen) r rest

/-- What is left of an array when every column has its item. -/
def endOfItems {ρ : Type} (o : Origin) (length : Nat) (r : ρ) :
    List Draft → Except Mismatch ρ
  | [] => .ok r
  | rest =>
    match o, rest with
    -- a text is faulted where it breaks off, a document by its length
    | .text, [.broken .endInList] => .error (.malformed .endInList)
    | .text, [.broken .trailingComma] => .error (.malformed .trailingComma)
    | .text, _ => .error (.malformed .trailingCharacters)
    | .document, _ => .error (.wrongLength length "fewer elements in array")

/-- The items of an array put into a record, column by column; `place` columns are done. -/
def Layout.readItems {ρ : Type} (l : Layout ρ) (o : Origin) (length place : Nat) (r : ρ) :
    List (Column ρ) → List Draft → Except Mismatch ρ
  | [], rest => endOfItems o length r rest
  | c :: cs, [] =>
    if c.required then
      .error (.wrongLength place ("struct " ++ l.name ++ " with " ++
        Decimal.intText (Int.ofNat l.columns.length) ++ " elements"))
    else l.readItems o length (place + 1) r cs []
  | c :: cs, d :: rest => do
    let r ← c.put o d r
    l.readItems o length (place + 1) r cs rest

def Layout.coder {ρ : Type} (l : Layout ρ) : Coder ρ where
  encode := fun r => .obj (l.columns.map fun c => (c.name, c.get r))
  decode := fun o d => match d with
    | .obj members => l.readMembers o [] l.blank members
    | .arr items => l.readItems o items.length 0 l.blank l.columns items
    | d => .error (d.refuse ("struct " ++ l.name))

end MetaQuery.Json
