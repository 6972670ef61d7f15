/-
  MetaQuery/Pattern/Basic.lean
  ============================
  Patterns, and whether one occurs in a text.

  A pattern is laid over a text first: each set of characters and each assertion becomes the set
  of positions where it holds, written as the bits of a number.  Matching then maps sets of
  starting positions to sets of end positions, which needs no backtracking: a repetition is
  settled after as many rounds as the text has positions.
-/
import MetaQuery.Pattern.CharSet

namespace MetaQuery

/-- A pattern over some atoms. -/
inductive Pattern (α : Type) where
  | empty
  | atom (a : α)
  | concat (ps : List (Pattern α))
  | either (ps : List (Pattern α))
  | repeated (p : Pattern α) (least : Nat) (most : Option Nat)
  | group (p : Pattern α)
deriving Repr

namespace Pattern

/-! ### Atoms -/

/-- What an assertion asks of a position. -/
inductive Look where
  | textStart
  | textEnd
  | lineStart
  | lineEnd
  /-- The start of a line, where the two characters that end a line together are not split. -/
  | crlfLineStart
  | crlfLineEnd
  | wordEdge (ascii : Bool)
  | noWordEdge (ascii : Bool)
  | wordStart (ascii : Bool)
  | wordEnd (ascii : Bool)
  | wordStartHalf (ascii : Bool)
  | wordEndHalf (ascii : Bool)
deriving DecidableEq, Repr

/-- The smallest patterns: one character of a set, or an assertion. -/
inductive Atom where
  | set (s : CharSet)
  | look (l : Look)
deriving DecidableEq, Repr

/-- The character beside a position belongs to a word. -/
def inWord (ascii : Bool) : Option Char → Bool
  | some c => (CharSet.word (!ascii)).mem c.toNat
  | none => false

/-- The assertion holds between two characters, or at an end of the text. -/
def Look.holds (l : Look) (before after : Option Char) : Bool :=
  match l with
  | .textStart => before.isNone
  | .textEnd => after.isNone
  | .lineStart => before.isNone || before == some '\n'
  | .lineEnd => after.isNone || after == some '\n'
  | .crlfLineStart =>
    before.isNone || before == some '\n' || (before == some '\r' && after != some '\n')
  | .crlfLineEnd =>
    after.isNone || after == some '\r' || (after == some '\n' && before != some '\r')
  | .wordEdge ascii => inWord ascii before != inWord ascii after
  | .noWordEdge ascii => inWord ascii before == inWord ascii after
  | .wordStart ascii => !inWord ascii before && inWord ascii after
  | .wordEnd ascii => inWord ascii before && !inWord ascii after
  | .wordStartHalf ascii => !inWord ascii before
  | .wordEndHalf ascii => !inWord ascii after

/-! ### Laying a pattern over a text -/

/-- An atom laid over a text: the positions where it holds, and whether it takes a character. -/
structure Mark where
  positions : Nat
  advances : Bool
deriving DecidableEq, Repr

/-- The positions of the characters in a set. -/
def setPositions (s : CharSet) : List Char → Nat
  | [] => 0
  | c :: r => (if s.mem c.toNat then 1 else 0) + 2 * setPositions s r

/-- The positions where an assertion holds, behind a character or the start of the text. -/
def lookPositions (l : Look) (before : Option Char) : List Char → Nat
  | [] => if l.holds before none then 1 else 0
  | c :: r => (if l.holds before (some c) then 1 else 0) + 2 * lookPositions l (some c) r

/-- An atom laid over a text. -/
def Atom.mark (text : List Char) : Atom → Mark
  | .set s => ⟨setPositions s text, true⟩
  | .look l => ⟨lookPositions l none text, false⟩

mutual

def map {α β : Type} (f : α → β) : Pattern α → Pattern β
  | .empty => .empty
  | .atom a => .atom (f a)
  | .concat ps => .concat (mapAll f ps)
  | .either ps => .either (mapAll f ps)
  | .repeated p least most => .repeated (map f p) least most
  | .group p => .group (map f p)

def mapAll {α β : Type} (f : α → β) : List (Pattern α) → List (Pattern β)
  | [] => []
  | p :: r => map f p :: mapAll f r

end

/-! ### Matching -/

def Mark.ends (m : Mark) (starts : Nat) : Nat :=
  if m.advances then (starts &&& m.positions) <<< 1 else starts &&& m.positions

/-- The positions reached by at most `n` steps. -/
def reach (step : Nat → Nat) : Nat → Nat → Nat
  | 0, starts => starts
  | n + 1, starts =>
    let next := starts ||| step starts
    if next = starts then starts else reach step n next

mutual

/-- Where a pattern ends in a text of `size` characters, for some positions to start from.  More
    than `size + 1` rounds of a repetition end where `size + 1` rounds end, since only rounds
    that take no character are left. -/
def ends (size : Nat) (starts : Nat) : Pattern Mark → Nat
  | .empty => starts
  | .atom m => m.ends starts
  | .concat ps => endsOfAll size starts ps
  | .either ps => endsOfAny size starts ps
  | .repeated p least most =>
    let step := fun s => ends size s p
    let rounds := match most with
      | some n => min (n - least) (size + 1)
      | none => size + 1
    reach step rounds (Nat.repeat step (min least (size + 1)) starts)
  | .group p => ends size starts p

/-- Where patterns end, one after the other. -/
def endsOfAll (size : Nat) (starts : Nat) : List (Pattern Mark) → Nat
  | [] => starts
  | p :: r => endsOfAll size (ends size starts p) r

/-- Where any of some patterns ends. -/
def endsOfAny (size : Nat) (starts : Nat) : List (Pattern Mark) → Nat
  | [] => 0
  | p :: r => ends size starts p ||| endsOfAny size starts r

end

/-- The pattern occurs somewhere in the text. -/
def occursIn (p : Pattern Atom) (text : List Char) : Bool :=
  ends text.length ((1 <<< (text.length + 1)) - 1) (map (Atom.mark text) p) != 0

/-! ### Limits -/

mutual

def depth {α : Type} : Pattern α → Nat
  | .empty => 0
  | .atom _ => 0
  | .concat ps => depthOfAll ps + 1
  | .either ps => depthOfAll ps + 1
  | .repeated p _ _ => depth p + 1
  | .group p => depth p + 1

def depthOfAll {α : Type} : List (Pattern α) → Nat
  | [] => 0
  | p :: r => max (depth p) (depthOfAll r)

end

/-- About how many bytes an automaton takes for an atom. -/
def Atom.cost : Atom → Nat
  | .set s => 32 * max 1 s.rangeCount
  | .look _ => 32

mutual

/-- About how many bytes an automaton takes for the pattern; repetitions are written out. -/
def cost : Pattern Atom → Nat
  | .empty => 32
  | .atom a => a.cost
  | .concat ps => costOfAll ps
  | .either ps => costOfAll ps + 40
  | .repeated p least most =>
    match most with
    | some n => max least n * (cost p) + (n - least) * 48
    | none => max least 1 * cost p + 64
  | .group p => cost p + 64

/-- About how many bytes an automaton takes for some patterns. -/
def costOfAll : List (Pattern Atom) → Nat
  | [] => 0
  | p :: r => cost p + costOfAll r

end

/-- The pattern is small enough to be used. -/
def isWithinLimits (p : Pattern Atom) : Bool := depth p ≤ 250 && cost p ≤ 10485760

end Pattern

end MetaQuery
