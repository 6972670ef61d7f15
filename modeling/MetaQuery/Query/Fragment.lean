/-
  MetaQuery/Query/Fragment.lean
  =============================
  Fragments: pieces of SQL with their arguments inline, numbered only when they are written into
  a statement.  A fragment is in normal form: no text of it is empty, and no two texts stand next
  to each other, so the same pieces put together in any grouping are the same fragment.
-/
import MetaQuery.Query.Statement

namespace MetaQuery

/-- A piece of a fragment. -/
inductive Part where
  | text (s : String)
  | arg (v : Cell)
deriving DecidableEq, Repr

/-- SQL text with arguments inline. -/
structure Fragment where
  parts : List Part
deriving DecidableEq, Repr, Inhabited

namespace Fragment

def empty : Fragment := ⟨[]⟩

/-- A text put behind parts: joined to a text at their end. -/
def addText (s : String) : List Part → List Part
  | [] => [.text s]
  | [.text t] => [.text (t ++ s)]
  | p :: r => p :: addText s r

/-- More text; the empty text changes nothing. -/
def putText (f : Fragment) (s : String) : Fragment :=
  if s = "" then f else ⟨addText s f.parts⟩

def putArg (f : Fragment) (v : Cell) : Fragment := ⟨f.parts ++ [.arg v]⟩

def putPart (f : Fragment) : Part → Fragment
  | .text s => f.putText s
  | .arg v => f.putArg v

def append (f g : Fragment) : Fragment := g.parts.foldl putPart f

instance : Append Fragment := ⟨append⟩

def ofText (s : String) : Fragment := empty.putText s

/-- The fragment has no parts. -/
def isEmpty (f : Fragment) : Bool := f.parts.isEmpty

def args (f : Fragment) : List Cell :=
  f.parts.filterMap fun
    | .arg v => some v
    | .text _ => none

/-- A part written where a statement ends. -/
def writePart (st : Statement) : Part → Statement
  | .text s => st.put s
  | .arg v => st.putArg v

/-- The fragment written where a statement ends. -/
def write (f : Fragment) (st : Statement) : Statement := f.parts.foldl writePart st

@[simp] theorem parts_empty : empty.parts = [] := rfl

@[simp] theorem write_empty (st : Statement) : empty.write st = st := rfl

@[simp] theorem putText_empty (f : Fragment) : f.putText "" = f := by simp [putText]

end Fragment

end MetaQuery
