/-
  MetaQuery/Json/Draft.lean
  =========================
  JSON text read as far as it goes.  A stored record may be both ill-formed and of the wrong
  type, and then the fault that stands first in the text is the one to report.  So reading never
  fails: a place where the text goes wrong becomes a leaf `broken`, after which nothing follows,
  and a scalar that is well-formed but has no value (a number out of range, half of a surrogate
  pair) becomes a leaf `faulty`.  Whoever walks the draft in document order meets the first
  fault first.

  A number keeps as many leading digits as fit an unsigned word and is then scaled by one power
  of ten, so a text with more digits than that is read to within an ulp and not always to the
  nearest double.
-/
import MetaQuery.Json.Value

namespace MetaQuery.Json

/-! ### Faults -/

/-- What can be wrong with a JSON text. -/
inductive Flaw where
  | endInValue
  | endInList
  | endInObject
  | endInString
  | expectedValue
  | expectedWord
  | expectedColon
  | expectedCommaOrBracket
  | expectedCommaOrBrace
  | keyNotString
  | trailingComma
  | trailingCharacters
  | invalidNumber
  | numberOutOfRange
  | invalidEscape
  | loneSurrogate
  | halfEscape
  | controlCharacter
deriving DecidableEq, Repr

def Flaw.message : Flaw → String
  | .endInValue => "EOF while parsing a value"
  | .endInList => "EOF while parsing a list"
  | .endInObject => "EOF while parsing an object"
  | .endInString => "EOF while parsing a string"
  | .expectedValue => "expected value"
  | .expectedWord => "expected ident"
  | .expectedColon => "expected `:`"
  | .expectedCommaOrBracket => "expected `,` or `]`"
  | .expectedCommaOrBrace => "expected `,` or `\x7d`"
  | .keyNotString => "key must be a string"
  | .trailingComma => "trailing comma"
  | .trailingCharacters => "trailing characters"
  | .invalidNumber => "invalid number"
  | .numberOutOfRange => "number out of range"
  | .invalidEscape => "invalid escape"
  | .loneSurrogate => "lone leading surrogate in hex escape"
  | .halfEscape => "unexpected end of hex escape"
  | .controlCharacter => "control character (\\u0000-\\u001F) found while parsing a string"

/-- A JSON text read as far as it goes.  Members keep repeated names. -/
inductive Draft where
  | null
  | bool (b : Bool)
  | int (i : Int)
  | float (x : Float)
  | str (s : String)
  | arr (items : List Draft)
  | obj (members : List (String × Draft))
  /-- A well-formed scalar without a value. -/
  | faulty (flaw : Flaw)
  /-- The text goes wrong here, and nothing of it follows. -/
  | broken (flaw : Flaw)
deriving BEq, Repr, Inhabited

/-! ### Numbers -/

def wordMax : Nat := UInt64.size - 1

/-- Digits taken as long as the value fits an unsigned word: the value, how many were taken, and
    what follows them. -/
def takeFitting : Nat → Nat → List Char → Nat × Nat × List Char
  | value, taken, c :: r =>
    let next := value * 10 + (c.toNat - 48)
    if c.isDigit && next ≤ wordMax then takeFitting next (taken + 1) r else (value, taken, c :: r)
  | value, taken, [] => (value, taken, [])

/-- `x * 10 ^ e` by one multiplication or division with a rounded power of ten; exponents below
    the table are approached in steps, which end because the value reaches zero. -/
def scaled : Nat → Float → Int → Except Flaw Float
  | 0, x, _ => .ok x
  | steps + 1, x, e =>
    if e.natAbs ≤ 308 then
      let power := Float.ofScientific 1 false e.natAbs
      if 0 ≤ e then
        if x * power == 1.0 / 0.0 then .error .numberOutOfRange else .ok (x * power)
      else .ok (x / power)
    -- a power out of the table is taken in steps, which round as they go
    else if x == 0.0 then .ok x
    else if 0 ≤ e then .error .numberOutOfRange
    else scaled steps (x / 1e308) (e + 308)

/-- The double with the given sign, leading digits and exponent. -/
def floatDraft (negative : Bool) (digits : Nat) (e : Int) : Draft :=
  match scaled 8 (Float.ofNat digits) e with
  | .ok x => .float (if negative then -x else x)
  | .error flaw => .faulty flaw

/-- The exponent part, after its `e`. -/
def readExponent (negative : Bool) (digits : Nat) (e : Int) (cs : List Char) :
    Draft × List Char :=
  let (down, r) := match cs with
    | '+' :: r => (false, r)
    | '-' :: r => (true, r)
    | r => (false, r)
  let run := r.takeWhile Char.isDigit
  let rest := r.dropWhile Char.isDigit
  if run.isEmpty then (.broken (if r.isEmpty then .endInValue else .invalidNumber), [])
  else
    let shift := Int.ofNat (Nat.ofDigitChars 10 run 0)
    if shift < 0x80000000 then
      (floatDraft negative digits (if down then e - shift else e + shift), rest)
    -- an exponent too large to be counted: out of range, or nothing left
    else if digits ≠ 0 && !down then (.faulty .numberOutOfRange, rest)
    else (.float (if negative then -0.0 else 0.0), rest)

/-- What follows the digits of a double: an exponent, or nothing of the number. -/
def finishFloat (negative : Bool) (digits : Nat) (e : Int) (cs : List Char) :
    Draft × List Char :=
  match cs with
  | 'e' :: r => readExponent negative digits e r
  | 'E' :: r => readExponent negative digits e r
  | r => (floatDraft negative digits e, r)

/-- The fraction, after its point.  Digits that no longer fit are dropped. -/
def readFraction (negative : Bool) (digits : Nat) (e : Int) (cs : List Char) :
    Draft × List Char :=
  let (digits, taken, rest) := takeFitting digits 0 cs
  let tail := rest.dropWhile Char.isDigit
  if taken = 0 ∧ tail.length = rest.length then
    (.broken (if cs.isEmpty then .endInValue else .invalidNumber), [])
  else finishFloat negative digits (e - Int.ofNat taken) tail

/-- What follows the whole digits: a fraction, an exponent, or nothing of the number. -/
def afterDigits (negative : Bool) (digits : Nat) (cs : List Char) : Draft × List Char :=
  match cs with
  | '.' :: r => readFraction negative digits 0 r
  | 'e' :: r => readExponent negative digits 0 r
  | 'E' :: r => readExponent negative digits 0 r
  | r =>
    if !negative then (.int (Int.ofNat digits), r)
    -- minus zero and what is below a signed word are doubles
    else if digits = 0 ∨ 0x8000000000000000 < digits then (.float (-(Float.ofNat digits)), r)
    else (.int (-Int.ofNat digits), r)

/-- A number after its sign. -/
def readUnsigned (negative : Bool) : List Char → Draft × List Char
  | [] => (.broken .endInValue, [])
  | '0' :: r =>
    if (r.head?.map Char.isDigit).getD false then (.broken .invalidNumber, [])
    else afterDigits negative 0 r
  | c :: r =>
    if !c.isDigit then (.broken .invalidNumber, [])
    else
      let (digits, _, rest) := takeFitting 0 0 (c :: r)
      let more := rest.takeWhile Char.isDigit
      if more.isEmpty then afterDigits negative digits rest
      else
        -- digits that no longer fit count as powers of ten
        let e := Int.ofNat more.length
        match rest.dropWhile Char.isDigit with
        | '.' :: r => readFraction negative digits e r
        | r => finishFloat negative digits e r

def readNumber : List Char → Draft × List Char
  | '-' :: r => readUnsigned true r
  | r => readUnsigned false r

/-! ### Strings -/

/-- A piece of a string: a character, or the code unit of a hexadecimal escape. -/
inductive Unit16 where
  | char (c : Char)
  | code (n : Nat)
deriving DecidableEq, Repr

def hexValue? (c : Char) : Option Nat :=
  if c.isDigit then some (c.toNat - 48)
  else if 'a' ≤ c ∧ c ≤ 'f' then some (c.toNat - 87)
  else if 'A' ≤ c ∧ c ≤ 'F' then some (c.toNat - 55)
  else none

def hexCode : List Char → Except Flaw (Nat × List Char)
  | a :: b :: c :: d :: r =>
    match hexValue? a, hexValue? b, hexValue? c, hexValue? d with
    | some a, some b, some c, some d => .ok (((a * 16 + b) * 16 + c) * 16 + d, r)
    | _, _, _, _ => .error .invalidEscape
  | _ => .error .endInString

/-- The character that a one-letter escape stands for. -/
def escaped? : Char → Option Char
  | '"' => some '"'
  | '\\' => some '\\'
  | '/' => some '/'
  | 'b' => some '\x08'
  | 'f' => some '\x0c'
  | 'n' => some '\n'
  | 'r' => some '\r'
  | 't' => some '\t'
  | _ => none

/-- The pieces of a string up to its closing quote, and what follows that. -/
def scanString : Nat → List Char → Except Flaw (List Unit16 × List Char)
  | 0, _ => .error .endInString
  | _ + 1, [] => .error .endInString
  | _ + 1, '"' :: r => .ok ([], r)
  | _ + 1, ['\\'] => .error .endInString
  | fuel + 1, '\\' :: 'u' :: r => do
    let (n, r) ← hexCode r
    let (units, rest) ← scanString fuel r
    .ok (.code n :: units, rest)
  | fuel + 1, '\\' :: c :: r =>
    match escaped? c with
    | some c => do
      let (units, rest) ← scanString fuel r
      .ok (.char c :: units, rest)
    | none => .error .invalidEscape
  | fuel + 1, c :: r =>
    if c.toNat < 0x20 then .error .controlCharacter
    else do
      let (units, rest) ← scanString fuel r
      .ok (.char c :: units, rest)

/-- The code unit opens a surrogate pair. -/
def isLeading (n : Nat) : Bool := 0xD800 ≤ n && n < 0xDC00

/-- The code unit closes a surrogate pair. -/
def isTrailing (n : Nat) : Bool := 0xDC00 ≤ n && n < 0xE000

/-- The characters of the pieces: code units of a surrogate pair are put together. -/
def joinUnits : List Unit16 → Except Flaw (List Char)
  | [] => .ok []
  | .char c :: r => do .ok (c :: (← joinUnits r))
  | .code n :: r =>
    -- a surrogate is half of a pair, and only its first half may come first
    if isTrailing n then .error .loneSurrogate
    else if isLeading n then
      match r with
      | .code m :: r =>
        if isTrailing m then do
          .ok (Char.ofNat (0x10000 + (n - 0xD800) * 0x400 + (m - 0xDC00)) :: (← joinUnits r))
        else .error .loneSurrogate
      | _ => .error .halfEscape
    else do .ok (Char.ofNat n :: (← joinUnits r))

def readString (cs : List Char) : Draft × List Char :=
  match scanString (cs.length + 1) cs with
  | .error flaw => (.broken flaw, [])
  | .ok (units, rest) =>
    match joinUnits units with
    | .ok cs => (.str (String.ofList cs), rest)
    | .error flaw => (.faulty flaw, rest)

/-! ### Documents -/

/-- The characters after the blanks that JSON allows between its tokens. -/
def skipSpace (cs : List Char) : List Char :=
  cs.dropWhile fun c => c = ' ' || c = '\n' || c = '\t' || c = '\r'

/-- A literal word, after its first letter. -/
def readWord : List Char → Draft → List Char → Draft × List Char
  | [], value, r => (value, r)
  | _ :: _, _, [] => (.broken .endInValue, [])
  | w :: ws, value, c :: r => if w = c then readWord ws value r else (.broken .expectedWord, [])

mutual

/-- A value and what follows it.  Each step reads a character, so the length of the text is
    enough fuel. -/
def readValue : Nat → List Char → Draft × List Char
  | 0, _ => (.broken .endInValue, [])
  | fuel + 1, cs =>
    match skipSpace cs with
    | [] => (.broken .endInValue, [])
    | 'n' :: r => readWord ['u', 'l', 'l'] .null r
    | 't' :: r => readWord ['r', 'u', 'e'] (.bool true) r
    | 'f' :: r => readWord ['a', 'l', 's', 'e'] (.bool false) r
    | '"' :: r => readString r
    | '[' :: r =>
      let (items, rest) := readItems fuel true r
      (.arr items, rest)
    | '{' :: r =>
      let (members, rest) := readMembers fuel true r
      (.obj members, rest)
    | c :: r =>
      if c = '-' || c.isDigit then readNumber (c :: r) else (.broken .expectedValue, [])

/-- The items of an array up to its bracket; `first` before the first of them. -/
def readItems : Nat → Bool → List Char → List Draft × List Char
  | 0, _, _ => ([.broken .endInList], [])
  | fuel + 1, first, cs =>
    match skipSpace cs with
    | [] => ([.broken .endInList], [])
    | ']' :: r => ([], r)
    | c :: r =>
      -- in front of the first item there is no comma
      if first then
        let (item, rest) := readValue fuel (c :: r)
        let (items, rest) := readItems fuel false rest
        (item :: items, rest)
      else if c = ',' then
        match skipSpace r with
        | [] => ([.broken .endInValue], [])
        | ']' :: _ => ([.broken .trailingComma], [])
        | r =>
          let (item, rest) := readValue fuel r
          let (items, rest) := readItems fuel false rest
          (item :: items, rest)
      else ([.broken .expectedCommaOrBracket], [])

/-- The members of an object up to its brace; a fault outside a value stands under the empty
    name. -/
def readMembers : Nat → Bool → List Char → List (String × Draft) × List Char
  | 0, _, _ => ([("", .broken .endInObject)], [])
  | fuel + 1, first, cs =>
    match skipSpace cs with
    | [] => ([("", .broken .endInObject)], [])
    | '}' :: r => ([], r)
    | c :: r =>
      if first then
        if c = '"' then readMember fuel r else ([("", .broken .keyNotString)], [])
      else if c = ',' then
        match skipSpace r with
        | [] => ([("", .broken .endInValue)], [])
        | '"' :: r => readMember fuel r
        | '}' :: _ => ([("", .broken .trailingComma)], [])
        | _ => ([("", .broken .keyNotString)], [])
      else ([("", .broken .expectedCommaOrBrace)], [])

/-- A member after the opening quote of its name, and the members after it. -/
def readMember : Nat → List Char → List (String × Draft) × List Char
  | 0, _ => ([("", .broken .endInObject)], [])
  | fuel + 1, cs =>
    match readString cs with
    -- a fault in the name stands under the empty name
    | (.str name, r) =>
      match skipSpace r with
      | [] => ([("", .broken .endInObject)], [])
      | ':' :: r =>
        let (value, rest) := readValue fuel r
        let (members, rest) := readMembers fuel false rest
        ((name, value) :: members, rest)
      | _ => ([("", .broken .expectedColon)], [])
    | (.faulty flaw, _) => ([("", .broken flaw)], [])
    | (.broken flaw, _) => ([("", .broken flaw)], [])
    | _ => ([("", .broken .keyNotString)], [])

end

/-- A text read as one document, and whether anything but blanks follows it. -/
structure Document where
  draft : Draft
  hasMore : Bool

def Document.read (s : String) : Document :=
  let cs := s.toList
  let (draft, rest) := readValue (2 * cs.length + 2) cs
  { draft, hasMore := !(skipSpace rest).isEmpty }

/-! ### From drafts to documents and back -/

mutual

/-- A document as a draft without fault. -/
def draft : Json → Draft
  | .null => .null
  | .bool b => .bool b
  | .int i => .int i
  | .float x => .float x
  | .str s => .str s
  | .arr items => .arr (draftItems items)
  | .obj members => .obj (draftMembers members)

def draftItems : List Json → List Draft
  | [] => []
  | j :: r => draft j :: draftItems r

def draftMembers : List (String × Json) → List (String × Draft)
  | [] => []
  | (k, j) :: r => (k, draft j) :: draftMembers r

end

mutual

/-- The document of a draft: the first fault, or the document with repeated names put together. -/
def Draft.finish : Draft → Except Flaw Json
  | .null => .ok .null
  | .bool b => .ok (.bool b)
  | .int i => .ok (.int i)
  | .float x => .ok (.float x)
  | .str s => .ok (.str s)
  | .arr items => do .ok (.arr (← finishItems items))
  | .obj members => do .ok (.obj (← finishMembers [] members))
  | .faulty flaw => .error flaw
  | .broken flaw => .error flaw

def finishItems : List Draft → Except Flaw (List Json)
  | [] => .ok []
  | d :: r => do
    let j ← d.finish
    .ok (j :: (← finishItems r))

/-- The members of an object after those already put together. -/
def finishMembers (done : List (String × Json)) :
    List (String × Draft) → Except Flaw (List (String × Json))
  | [] => .ok done
  | (k, d) :: r => do
    let j ← d.finish
    finishMembers (put k j done) r

end

/-- The document that a text holds, and nothing else. -/
def parse (s : String) : Except Flaw Json := do
  let document := Document.read s
  let j ← document.draft.finish
  if document.hasMore then .error .trailingCharacters else .ok j

mutual

/-- The fault that a reader meets who skips the value: well-formed scalars are passed over. -/
def Draft.flaw? : Draft → Option Flaw
  | .arr items => flawOfItems? items
  | .obj members => flawOfMembers? members
  | .broken flaw => some flaw
  | _ => none

/-- The first fault in the items of an array. -/
def flawOfItems? : List Draft → Option Flaw
  | [] => none
  | d :: r => d.flaw?.or (flawOfItems? r)

/-- The first fault in the members of an object. -/
def flawOfMembers? : List (String × Draft) → Option Flaw
  | [] => none
  | (_, d) :: r => d.flaw?.or (flawOfMembers? r)

end

end MetaQuery.Json
