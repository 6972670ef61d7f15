/-
  MetaQuery/Pattern/ClassReader.lean
  ==================================
  Reading classes in brackets.  A class holds characters, ranges, escapes, named classes and
  classes in brackets of their own; `&&`, `--` and `~~` intersect, subtract and compare what
  stands on their sides, from left to right.  Case is removed from a class before it is turned
  around.
-/
import MetaQuery.Pattern.Escape

namespace MetaQuery.Pattern

/-- The operations between the parts of a class. -/
inductive SetOp where
  | inter
  | diff
  | symmDiff
deriving DecidableEq, Repr

def SetOp.apply (op : SetOp) (s t : CharSet) : CharSet :=
  match op with
  | .inter => .inter s t
  | .diff => .diff s t
  | .symmDiff => .symmDiff s t

/-- A class that is being read. -/
structure OpenSet where
  negated : Bool
  /-- What stands before the last operation. -/
  left : Option (CharSet × SetOp)
  /-- What has been read behind it. -/
  items : CharSet
deriving DecidableEq, Repr

namespace OpenSet

def add (o : OpenSet) (s : CharSet) : OpenSet := { o with items := .union o.items s }

/-- What has been read, without regard to the bracket. -/
def value (f : Flags) (o : OpenSet) : CharSet :=
  match o.left with
  | some (s, op) => op.apply (f.fold s) (f.fold o.items)
  | none => o.items

/-- An operation behind what has been read. -/
def operate (f : Flags) (o : OpenSet) (op : SetOp) : OpenSet :=
  { o with left := some (o.value f, op), items := .empty }

def close (f : Flags) (o : OpenSet) : CharSet :=
  let s := f.fold (o.value f)
  if o.negated then .compl s else s

end OpenSet

/-- The hyphens at the start of a class, and what follows them. -/
def takeHyphens (f : Flags) : Nat → List Char → Bool × List Char
  | 0, cs => (false, cs)
  | fuel + 1, cs =>
    match f.skip cs with
    | '-' :: r => (true, (takeHyphens f fuel r).2)
    | r => (false, r)

/-- The start of a class behind its bracket: it may be turned around, hyphens stand for
    themselves, and so does a closing bracket that comes first. -/
def openSet (f : Flags) (cs : List Char) : OpenSet × List Char :=
  let (negated, r) := match f.skip cs with
    | '^' :: r => (true, f.skip r)
    | r => (false, r)
  let (hyphens, r) := takeHyphens f (r.length + 1) r
  let start : OpenSet := ⟨negated, none, if hyphens then .single 45 else .empty⟩
  match hyphens, r with
  | false, ']' :: r => (start.add (.single 93), r)
  | _, r => (start, r)

/-- A class of ASCII characters by its name, behind the inner bracket. -/
def readAsciiClass (f : Flags) (cs : List Char) : Option (CharSet × List Char) := do
  let r ← match cs with
    | ':' :: r => some r
    | _ => none
  let (negated, r) := match r with
    | '^' :: r => (true, r)
    | r => (false, r)
  let s ← CharSet.asciiClasses.lookup (String.ofList (r.takeWhile (· != ':')))
  match r.dropWhile (· != ':') with
  | ':' :: ']' :: rest => some (if negated then .compl (f.fold s) else f.fold s, rest)
  | _ => none

/-- One character or escape of a class. -/
def readSetItem (f : Flags) : List Char → Option (Escape × List Char)
  | [] => none
  | '\\' :: r => readEscape f r
  | c :: r => some (.literal c.toNat false, r)

/-- The character that an item of a class is; where Unicode is off it must be of ASCII. -/
def literalCode (f : Flags) : Escape → Option Nat
  | .literal n _ => if f.unicode || n < 128 then some n else none
  | _ => none

def itemSet (f : Flags) : Escape → Option CharSet
  | .literal n byte => (literalCode f (.literal n byte)).map .single
  | .class s => some s
  | .look _ => none

/-- The text goes on with the end of the class or with another hyphen, so the hyphen before it
    is no range. -/
def endsHyphen (f : Flags) (cs : List Char) : Bool :=
  match f.skip cs with
  | ']' :: _ => true
  | '-' :: _ => true
  | _ => false

/-- An item of a class, or a range between two characters. -/
def readSetRange (f : Flags) (cs : List Char) : Option (CharSet × List Char) := do
  let (first, r) ← readSetItem f cs
  match f.skip r with
  | '-' :: rest =>
    if endsHyphen f rest then
      let s ← itemSet f first
      return (s, '-' :: rest)
    else
      let (last, rest) ← readSetItem f (f.skip rest)
      let low ← literalCode f first
      let high ← literalCode f last
      if low ≤ high then some (.range low high, rest) else none
  | r => do
    let s ← itemSet f first
    return (s, r)

/-- A class up to its closing bracket; `outer` are the classes around it.  Each step reads at
    least one character, so the length of the text is enough fuel. -/
def readSet (f : Flags) : Nat → OpenSet → List OpenSet → List Char →
    Option (CharSet × List Char)
  | 0, _, _, _ => none
  | fuel + 1, o, outer, cs =>
    match f.skip cs with
    | [] => none
    | '[' :: r =>
      match readAsciiClass f r with
      | some (s, rest) => readSet f fuel (o.add s) outer rest
      | none =>
        let (inner, rest) := openSet f r
        readSet f fuel inner (o :: outer) rest
    | ']' :: r =>
      match outer with
      | [] => some (o.close f, r)
      | parent :: above => readSet f fuel (parent.add (o.close f)) above r
    | '&' :: '&' :: r => readSet f fuel (o.operate f .inter) outer r
    | '-' :: '-' :: r => readSet f fuel (o.operate f .diff) outer r
    | '~' :: '~' :: r => readSet f fuel (o.operate f .symmDiff) outer r
    | r => do
      let (s, rest) ← readSetRange f r
      readSet f fuel (o.add s) outer rest

/-- A class behind its opening bracket. -/
def readClass (f : Flags) (cs : List Char) : Option (CharSet × List Char) :=
  let (o, r) := openSet f cs
  readSet f (r.length + 1) o [] r

end MetaQuery.Pattern
