/-
  MetaQuery/Forest.lean
  =====================
  Rows nested under their parents.  A row names its parent by key; NULL, the empty text and `0`
  name the root.  Keys are compared by their plain text.  A row whose chain of parents does not
  end at the root is left out, so cycles and orphans do no harm.
-/
import MetaQuery.Record

namespace MetaQuery

def rootKey : String := "0"

/-- The key in a column; a column that is missing has the key of NULL. -/
def keyText (v : Option Cell) : String :=
  match v with
  | some v => v.display
  | none => ""

def isRootKey (key : String) : Bool := key == "" || key == rootKey

/-- The parent that a cell names, where all names of the root are one. -/
def parentKey (v : Option Cell) : String := if keyText v = "" then rootKey else keyText v

/-- A row with the rows under it. -/
inductive Node where
  | mk (record : Record) (children : List Node)
deriving Repr, Inhabited

mutual

/-- A node as JSON: the members of its row, then its children when it has some. -/
def Node.toJson : Node → Json
  | .mk record children =>
    let members := record.entries.map fun e => (e.1, e.2.toJson)
    if children.isEmpty then .obj members
    else .obj (members ++ [("children", .arr (nodesToJson children))])

def nodesToJson : List Node → List Json
  | [] => []
  | n :: r => n.toJson :: nodesToJson r

end

def rowsUnder (parentField : String) (pool : List Record) (key : String) : List Record :=
  pool.filter fun r => parentKey (r.get? parentField) == key

def rowsElsewhere (parentField : String) (pool : List Record) (key : String) : List Record :=
  pool.filter fun r => !(parentKey (r.get? parentField) == key)

/-- Each row is under a key or not. -/
theorem length_rowsUnder_add (parentField : String) (pool : List Record) (key : String) :
    (rowsUnder parentField pool key).length + (rowsElsewhere parentField pool key).length =
      pool.length := by
  induction pool with
  | nil => rfl
  | cons r rest ih =>
    simp only [rowsUnder, rowsElsewhere, List.filter_cons, List.length_cons] at ih ⊢
    cases parentKey (r.get? parentField) == key <;> simp <;> omega

/-- Nodes of some rows, with the rows of `pool` under them; and what is left of `pool`. -/
def attach (keyField parentField : String) (rows pool : List Record) :
    List Node × { rest : List Record // rest.length ≤ pool.length } :=
  match rows with
  | [] => ([], ⟨pool, Nat.le_refl _⟩)
  | r :: siblings =>
    -- children take their rows out of the pool, so no row is attached twice
    have hsplit := length_rowsUnder_add parentField pool (keyText (r.get? keyField))
    let (children, ⟨rest, hrest⟩) := attach keyField parentField
      (rowsUnder parentField pool (keyText (r.get? keyField)))
      (rowsElsewhere parentField pool (keyText (r.get? keyField)))
    -- siblings only get what the children have left
    let (nodes, ⟨left, hleft⟩) := attach keyField parentField siblings rest
    (.mk r children :: nodes, ⟨left, by omega⟩)
termination_by rows.length + pool.length
decreasing_by
  · simp only [List.length_cons]; omega
  · simp only [List.length_cons]; omega

def forest (keyField parentField : String) (rows : List Record) : List Node :=
  (attach keyField parentField (rowsUnder parentField rows rootKey)
    (rowsElsewhere parentField rows rootKey)).1

end MetaQuery
