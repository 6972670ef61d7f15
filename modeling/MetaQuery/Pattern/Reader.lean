/-
  MetaQuery/Pattern/Reader.lean
  =============================
  Reading patterns.  The reader goes through the text once and keeps the groups that are open;
  flags that are switched inside a group hold up to its end.  What cannot be matched without
  looking back is no pattern: references to groups and looking around are refused.
-/
import MetaQuery.Pattern.ClassReader

namespace MetaQuery.Pattern

/-! ### Repetition counts -/

def readDigits (f : Flags) : Nat → List Char → List Char × List Char
  | 0, cs => ([], cs)
  | fuel + 1, cs =>
    match cs with
    | c :: r =>
      if c.isDigit then
        let (digits, rest) := readDigits f fuel (f.skip r)
        (c :: digits, rest)
      else ([], c :: r)
    | [] => ([], [])

/-- A count, with blanks around it. -/
def readCount (f : Flags) (cs : List Char) : Option (Nat × List Char) := do
  let cs := cs.dropWhile Text.isBlank
  let (digits, r) := readDigits f cs.length cs
  let n ← Decimal.nat? digits
  if n < UInt32.size then some (n, f.skip (r.dropWhile Text.isBlank)) else none

/-- The end of a count, and the mark behind it that asks for as few rounds as possible. -/
def closeCount (f : Flags) (least : Nat) (most : Option Nat) :
    List Char → Option (Nat × Option Nat × List Char)
  | '}' :: r =>
    if most.any (· < least) then none
    else match f.skip r with
      | '?' :: r => some (least, most, r)
      | r => some (least, most, r)
  | _ => none

/-- How often a repetition in braces is to match, behind the opening brace. -/
def readRounds (f : Flags) (cs : List Char) : Option (Nat × Option Nat × List Char) := do
  let (least, r) ← readCount f (f.skip cs)
  match r with
  | ',' :: r =>
    match f.skip r with
    | '}' :: r => closeCount f least none ('}' :: r)
    | r => do
      let (most, r) ← readCount f r
      closeCount f least (some most) r
  | r => closeCount f least (some least) r

/-! ### The openings of groups -/

/-- What an opening parenthesis starts. -/
inductive Opening where
  | group (f : Flags)
  | named (name : String)
  /-- Flags for the rest of the group around it. -/
  | flags (f : Flags)
deriving DecidableEq, Repr

/-- A character that the name of a group starts with. -/
def isGroupStart (c : Char) : Bool :=
  c == '_' || (match Text.property? "alphabetic" with
    | some p => p.holds c.toNat
    | none => false)

/-- A character that the name of a group goes on with. -/
def isGroupRest (c : Char) : Bool :=
  isGroupStart c || c == '.' || c == '[' || c == ']' ||
    [.nd, .nl, .no].contains (Text.categoryOf c.toNat)

/-- The name of a group, up to its angle bracket. -/
def readGroupName (cs : List Char) : Option (String × List Char) :=
  match cs.takeWhile (· != '>'), cs.dropWhile (· != '>') with
  | c :: name, '>' :: rest =>
    if isGroupStart c && name.all isGroupRest then some (String.ofList (c :: name), rest) else none
  | _, _ => none

/-- Flags up to a colon or a closing parenthesis: those seen, whether they are being switched
    off, and whether the sign for that came last. -/
def readFlags (f : Flags) (seen : List Char) (off dangling : Bool) :
    List Char → Option (Flags × List Char × Char × List Char)
  | [] => none
  | c :: r =>
    if c = ':' ∨ c = ')' then if dangling then none else some (f, seen, c, r)
    else if c = '-' then if off then none else readFlags f seen true true r
    else if seen.contains c then none
    else match f.switch c (!off) with
      | some f => readFlags f (c :: seen) off false r
      | none => none

def readOpening (f : Flags) (cs : List Char) : Option (Opening × List Char) :=
  match f.skip cs with
  | '?' :: 'P' :: '<' :: r => (readGroupName r).map fun (name, r) => (.named name, r)
  | '?' :: '=' :: _ => none
  | '?' :: '!' :: _ => none
  | '?' :: '<' :: '=' :: _ => none
  | '?' :: '<' :: '!' :: _ => none
  | '?' :: '<' :: r => (readGroupName r).map fun (name, r) => (.named name, r)
  | '?' :: r =>
    match readFlags f [] false false r with
    | some (g, seen, ')', r) => if seen.isEmpty then none else some (.flags g, r)
    | some (g, _, _, r) => some (.group g, r)
    | none => none
  | r => some (.group f, r)

/-! ### Patterns -/

/-- A group around the one that is being read. -/
structure Frame where
  flags : Flags
  branches : List (Pattern Atom)
  items : List (Option (Pattern Atom))
deriving Repr

/-- What has been read: the flags in force, the names of groups, the branches and items of the
    innermost group, latest first, and the groups around it.  Flags that were switched stand
    among the items as `none`. -/
structure Reading where
  flags : Flags
  names : List String
  branches : List (Pattern Atom)
  items : List (Option (Pattern Atom))
  outer : List Frame
deriving Repr

namespace Reading

def add (d : Reading) (p : Pattern Atom) : Reading := { d with items := some p :: d.items }

/-- The items of the branch that is being read. -/
def branch (d : Reading) : Pattern Atom :=
  match d.items with
  | [] => .empty
  | [some p] => p
  | items => .concat (items.reverse.map fun item => item.getD .empty)

def nextBranch (d : Reading) : Reading :=
  { d with branches := d.branch :: d.branches, items := [] }

/-- All branches of the innermost group. -/
def whole (d : Reading) : Pattern Atom :=
  match d.branches with
  | [] => d.branch
  | bs => .either (d.branch :: bs).reverse

/-- A group opened, with the flags that hold in it. -/
def openGroup (d : Reading) (f : Flags) : Reading :=
  { d with
    flags := f
    branches := []
    items := []
    outer := ⟨d.flags, d.branches, d.items⟩ :: d.outer }

def closeGroup (d : Reading) : Option Reading :=
  match d.outer with
  | [] => none
  | frame :: rest => some
    { d with
      flags := frame.flags
      branches := frame.branches
      items := some (.group d.whole) :: frame.items
      outer := rest }

/-- What an opening parenthesis starts. -/
def start (d : Reading) : Opening → Option Reading
  | .group f => some (d.openGroup f)
  | .named name =>
    if d.names.contains name then none
    else some { d.openGroup d.flags with names := name :: d.names }
  | .flags f => some { d with flags := f, items := none :: d.items }

/-- The last item repeated. -/
def repeatLast (d : Reading) (least : Nat) (most : Option Nat) : Option Reading :=
  match d.items with
  | some p :: rest => some { d with items := some (.repeated p least most) :: rest }
  | _ => none

/-- One character.  Where Unicode is off, a byte beyond ASCII is none. -/
def addLiteral (d : Reading) (code : Nat) (byte : Bool) : Option Reading :=
  if !d.flags.unicode && byte && 127 < code then none
  else if !d.flags.unicode && 127 < code then some (d.add (.atom (.set (.single code))))
  else some (d.add (.atom (.set (d.flags.fold (.single code)))))

/-- A class; where Unicode is off, it must be of ASCII. -/
def addSet (d : Reading) (s : CharSet) : Option Reading :=
  if d.flags.unicode || s.isAscii then some (d.add (.atom (.set s))) else none

def addEscape (d : Reading) : Escape → Option Reading
  | .literal code byte => d.addLiteral code byte
  | .class s => d.addSet s
  | .look l => some (d.add (.atom (.look l)))

/-- What a point stands for. -/
def anyChar (f : Flags) : CharSet :=
  if f.dotAll then .all
  else if f.crlf then .compl (.ranges [(10, 10), (13, 13)])
  else .compl (.single 10)

def caret (f : Flags) : Look :=
  if f.multiLine then if f.crlf then .crlfLineStart else .lineStart else .textStart

def dollar (f : Flags) : Look :=
  if f.multiLine then if f.crlf then .crlfLineEnd else .lineEnd else .textEnd

end Reading

/-- What follows the mark that asks for as few rounds as possible. -/
def dropLazy : List Char → List Char
  | '?' :: r => r
  | r => r

/-- The rest of a pattern.  Each step reads at least one character, so the length of the text is
    enough fuel. -/
def readRest : Nat → Reading → List Char → Option (Pattern Atom)
  | 0, _, _ => none
  | fuel + 1, d, cs =>
    match d.flags.skip cs with
    | [] => if d.outer.isEmpty then some d.whole else none
    | '(' :: r => do
      let (opening, r) ← readOpening d.flags r
      readRest fuel (← d.start opening) r
    | ')' :: r => do readRest fuel (← d.closeGroup) r
    | '|' :: r => readRest fuel d.nextBranch r
    | '[' :: r => do
      let (s, r) ← readClass d.flags r
      readRest fuel (← d.addSet s) r
    | '?' :: r => do readRest fuel (← d.repeatLast 0 (some 1)) (dropLazy r)
    | '*' :: r => do readRest fuel (← d.repeatLast 0 none) (dropLazy r)
    | '+' :: r => do readRest fuel (← d.repeatLast 1 none) (dropLazy r)
    | '{' :: r => do
      let (least, most, r) ← readRounds d.flags r
      readRest fuel (← d.repeatLast least most) r
    | '\\' :: r => do
      let (e, r) ← readEscape d.flags r
      readRest fuel (← d.addEscape e) r
    | '.' :: r => do readRest fuel (← d.addSet (Reading.anyChar d.flags)) r
    | '^' :: r => readRest fuel (d.add (.atom (.look (Reading.caret d.flags)))) r
    | '$' :: r => readRest fuel (d.add (.atom (.look (Reading.dollar d.flags)))) r
    | c :: r => do readRest fuel (← d.addLiteral c.toNat false) r

/-- The pattern that a text spells, if it does and is small enough. -/
def ofText? (s : String) : Option (Pattern Atom) :=
  (readRest (s.length + 1) ⟨{}, [], [], [], []⟩ s.toList).filter isWithinLimits

/-- Rules read as patterns.  What a text lacks to be a pattern is not said. -/
def read (rule : String) : Except String (String → Bool) :=
  match ofText? rule with
  | some p => .ok fun text => p.occursIn text.toList
  | none => .error ""

end MetaQuery.Pattern
