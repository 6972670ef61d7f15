/-
  MetaQuery/Pattern/Escape.lean
  =============================
  Reading what stands behind a backslash in a pattern: characters, classes and assertions.  The
  flags in force decide how a class is meant, and whether blanks and comments are passed over.
-/
import MetaQuery.Decimal.Reader
import MetaQuery.Pattern.Basic
import MetaQuery.Text.Blank

namespace MetaQuery.Pattern

/-! ### Flags -/

/-- The flags that are in force at a place of a pattern. -/
structure Flags where
  caseless : Bool := false
  multiLine : Bool := false
  dotAll : Bool := false
  crlf : Bool := false
  unicode : Bool := true
  /-- Blanks and comments are passed over. -/
  verbose : Bool := false
deriving DecidableEq, Repr

def Flags.switch (f : Flags) (letter : Char) (on : Bool) : Option Flags :=
  match letter with
  | 'i' => some { f with caseless := on }
  | 'm' => some { f with multiLine := on }
  | 's' => some { f with dotAll := on }
  | 'R' => some { f with crlf := on }
  | 'u' => some { f with unicode := on }
  | 'x' => some { f with verbose := on }
  | 'U' => some f
  | _ => none

/-- What follows blanks and comments; the first argument says whether a comment is open. -/
def dropComments : Bool → List Char → List Char
  | _, [] => []
  | true, c :: r => dropComments (c != '\n') r
  | false, c :: r =>
    if Text.isBlank c then dropComments false r
    else if c = '#' then dropComments true r
    else c :: r

/-- What follows blanks and comments, where they are passed over. -/
def Flags.skip (f : Flags) (cs : List Char) : List Char :=
  if f.verbose then dropComments false cs else cs

/-- A set closed under case, where case does not matter. -/
def Flags.fold (f : Flags) (s : CharSet) : CharSet :=
  if f.caseless then .variants (!f.unicode) s else s

/-! ### What an escape means -/

/-- What stands behind a backslash. -/
inductive Escape where
  /-- A character; `byte` where it was given by two digits and may mean a byte. -/
  | literal (code : Nat) (byte : Bool)
  | class (s : CharSet)
  | look (l : Look)
deriving DecidableEq, Repr

/-- A character that has a meaning of its own in some place of a pattern. -/
def isMeta (c : Char) : Bool := "\\.+*?()|[]\x7b\x7d^$#&-~".toList.contains c

/-- A character that a backslash takes literally. -/
def isEscapable (c : Char) : Bool :=
  isMeta c || (c.toNat < 128 && !c.isAlphanum && c != '<' && c != '>')

/-- The characters that letters stand for. -/
def controlOf? : Char → Option Nat
  | 'a' => some 7
  | 'f' => some 12
  | 't' => some 9
  | 'n' => some 10
  | 'r' => some 13
  | 'v' => some 11
  | _ => none

def hexDigit? (c : Char) : Option Nat :=
  if c.isDigit then some (c.toNat - 48)
  else if 'a' ≤ c ∧ c ≤ 'f' then some (c.toNat - 87)
  else if 'A' ≤ c ∧ c ≤ 'F' then some (c.toNat - 55)
  else none

def isScalar (n : Nat) : Bool := n < 0xD800 || (0xDFFF < n && n < 0x110000)

/-- A number of so many hexadecimal digits. -/
def readHexDigits (f : Flags) (value : Nat) : Nat → List Char → Option (Nat × List Char)
  | 0, cs => some (value, cs)
  | n + 1, c :: r => do
    let d ← hexDigit? c
    readHexDigits f (16 * value + d) n (f.skip r)
  | _ + 1, [] => none

/-- A number of hexadecimal digits up to the closing brace. -/
def readHexBraced (f : Flags) (value : Option Nat) : Nat → List Char → Option (Nat × List Char)
  | 0, _ => none
  | fuel + 1, cs =>
    match f.skip cs with
    | [] => none
    | '}' :: r => value.map fun v => (v, f.skip r)
    | c :: r => do
      let d ← hexDigit? c
      readHexBraced f (some (16 * value.getD 0 + d)) fuel r

/-- A character given by its code, behind `x`, `u` or `U`. -/
def readHex (f : Flags) (digits : Nat) (cs : List Char) : Option (Escape × List Char) := do
  let (value, r, byte) ← match f.skip cs with
    | '{' :: r => (readHexBraced f none (r.length + 1) r).map fun (v, r) => (v, r, false)
    | r => (readHexDigits f 0 digits r).map fun (v, r) => (v, r, digits == 2)
  if isScalar value then some (.literal value byte, r) else none

/-! ### Named classes -/

/-- A name in lower case and without separators; `is` before it does not count. -/
def normalName (cs : List Char) : String :=
  let plain := fun (cs : List Char) =>
    (cs.filter fun c => c.toNat < 128 && c != ' ' && c != '_' && c != '-').map Char.toLower
  match cs with
  | i :: s :: r =>
    if (i = 'i' ∨ i = 'I') ∧ (s = 's' ∨ s = 'S') then
      if plain r = ['c'] then "isc" else String.ofList (plain r)
    else String.ofList (plain cs)
  | cs => String.ofList (plain cs)

/-- A name and a value that a sign separates. -/
def splitAtSign (sign : List Char) : List Char → Option (List Char × List Char)
  | [] => none
  | c :: r =>
    if sign.isPrefixOf (c :: r) then some ([], (c :: r).drop sign.length)
    else (splitAtSign sign r).map fun (name, value) => (c :: name, value)

/-- The class of a name, or of a name and a value; the flag says that it is turned around. -/
def namedClass (cs : List Char) : Option (CharSet × Bool) :=
  let valued := fun (turned : Bool) (p : List Char × List Char) =>
    (CharSet.valued? (normalName p.1) (normalName p.2)).map fun s => (s, turned)
  match splitAtSign ['!', '='] cs with
  | some p => valued true p
  | none =>
    match (splitAtSign [':'] cs).or (splitAtSign ['='] cs) with
    | some p => valued false p
    | none => (CharSet.named? (normalName cs)).map fun s => (s, false)

def readBraced (f : Flags) : Nat → List Char → Option (List Char × List Char)
  | 0, _ => none
  | fuel + 1, cs =>
    match f.skip cs with
    | [] => none
    | '}' :: r => some ([], r)
    | c :: r => (readBraced f fuel r).map fun (name, rest) => (c :: name, rest)

/-- A named class, behind `p` or, turned around, `P`. -/
def readNamedClass (f : Flags) (negated : Bool) (cs : List Char) :
    Option (Escape × List Char) := do
  let (name, rest) ← match f.skip cs with
    | [] => none
    | '{' :: r => readBraced f (r.length + 1) r
    | c :: r => if c = '\\' then none else some ([c], r)
  let (s, turned) ← namedClass name
  if !f.unicode then none
  else
    let s := f.fold s
    some (.class (if negated != turned then .compl s else s), rest)

/-! ### Assertions -/

/-- A letter or a hyphen: what the names of edges are made of. -/
def isEdgeChar (c : Char) : Bool := c.isAlpha || c == '-'

/-- The letters and hyphens at the start of a text. -/
def readEdgeName (f : Flags) : Nat → List Char → List Char × List Char
  | 0, cs => ([], cs)
  | fuel + 1, cs =>
    match f.skip cs with
    | c :: r =>
      if isEdgeChar c then
        let (name, rest) := readEdgeName f fuel r
        (c :: name, rest)
      else ([], c :: r)
    | [] => ([], [])

/-- The edge of a word that a name in braces means. -/
def edge? (ascii : Bool) : String → Option Look
  | "start" => some (.wordStart ascii)
  | "end" => some (.wordEnd ascii)
  | "start-half" => some (.wordStartHalf ascii)
  | "end-half" => some (.wordEndHalf ascii)
  | _ => none

/-- The edge of a word, behind `b`: any edge, or a special one whose name follows in braces.
    What does not start like a name is not one. -/
def readEdge (f : Flags) (cs : List Char) : Option (Escape × List Char) :=
  let plain := some (Escape.look (.wordEdge (!f.unicode)), cs)
  match cs with
  | '{' :: r =>
    match readEdgeName f (r.length + 1) r with
    | ([], []) => none
    | ([], _) => plain
    | (name, '}' :: rest) =>
      (edge? (!f.unicode) (String.ofList name)).map fun l => (.look l, rest)
    | (_, _) => none
  | _ => plain

/-! ### Escapes -/

/-- A class with a letter, turned around where the letter is in upper case. -/
def letterClass (negated : Bool) (s : CharSet) : Escape :=
  .class (if negated then .compl s else s)

/-- What stands behind a backslash. -/
def readEscape (f : Flags) : List Char → Option (Escape × List Char)
  | [] => none
  | c :: r =>
    if c.isDigit then none
    else if isEscapable c then some (.literal c.toNat false, r)
    else match controlOf? c with
      | some n => some (.literal n false, r)
      | none =>
        match c with
        | 'x' => readHex f 2 r
        | 'u' => readHex f 4 r
        | 'U' => readHex f 8 r
        | 'p' => readNamedClass f false r
        | 'P' => readNamedClass f true r
        | 'd' => some (letterClass false (.digit f.unicode), r)
        | 'D' => some (letterClass true (.digit f.unicode), r)
        | 's' => some (letterClass false (.space f.unicode), r)
        | 'S' => some (letterClass true (.space f.unicode), r)
        | 'w' => some (letterClass false (.word f.unicode), r)
        | 'W' => some (letterClass true (.word f.unicode), r)
        | 'A' => some (.look .textStart, r)
        | 'z' => some (.look .textEnd, r)
        | 'b' => readEdge f r
        | 'B' => some (.look (.noWordEdge (!f.unicode)), r)
        | '<' => some (.look (.wordStart (!f.unicode)), r)
        | '>' => some (.look (.wordEnd (!f.unicode)), r)
        | _ => none

end MetaQuery.Pattern
