/-
  MetaQuery/Proofs/Tree/Nesting.lean
  ==================================
  Which rows a forest holds.

  A row is reached when it names the root as its parent, or the key of a row that is reached
  (`Reached`).  Nesting takes the rows under a key out of a pool before it nests what is under
  them, so what is left of the pool hangs under no row that was taken (`Attached`).  Hence a forest
  holds just the rows that are reached, whatever keys are shared and whatever cycles there are
  (`mem_rowsOf_forest`).
-/
import Mathlib.Data.List.Basic
import MetaQuery.Forest

namespace MetaQuery

mutual

/-- The rows that a node holds. -/
def Node.rows : Node → List Record
  | .mk record children => record :: rowsOf children

/-- The rows that some nodes hold. -/
def rowsOf : List Node → List Record
  | [] => []
  | n :: r => n.rows ++ rowsOf r

end

variable {keyField parentField : String}

/-! ### Rows that are reached -/

/-- The row names the root as its parent, or a row that is reached. -/
inductive Reached (keyField parentField : String) (rows : List Record) : Record → Prop where
  | top {r : Record} (hr : r ∈ rows) (hroot : parentKey (r.get? parentField) = rootKey) :
      Reached keyField parentField rows r
  | under {p r : Record} (hp : Reached keyField parentField rows p) (hr : r ∈ rows)
      (hparent : parentKey (r.get? parentField) = keyText (p.get? keyField)) :
      Reached keyField parentField rows r

/-! ### Nesting -/

/-- A row of the given ones, or one of the pool under a row that hangs there. -/
inductive Hangs (keyField parentField : String) (rows pool : List Record) : Record → Prop where
  | given {r : Record} (hr : r ∈ rows) : Hangs keyField parentField rows pool r
  | under {p r : Record} (hp : Hangs keyField parentField rows pool p) (hr : r ∈ pool)
      (hparent : parentKey (r.get? parentField) = keyText (p.get? keyField)) :
      Hangs keyField parentField rows pool r

theorem Hangs.trans {rows pool rows' pool' : List Record} {x : Record}
    (h : Hangs keyField parentField rows' pool' x)
    (hrows : ∀ r ∈ rows', Hangs keyField parentField rows pool r) (hpool : pool' ⊆ pool) :
    Hangs keyField parentField rows pool x := by
  induction h with
  | given hr => exact hrows _ hr
  | under _ hr hparent ih => exact .under ih (hpool hr) hparent

/-- The nodes hold the rows and all that hangs under them, and the rest is what is left. -/
structure Attached (keyField parentField : String) (rows pool : List Record) (nodes : List Node)
    (rest : List Record) : Prop where
  all : ∀ x, x ∈ rowsOf nodes ∨ x ∈ rest ↔ x ∈ rows ∨ x ∈ pool
  left : rest ⊆ pool
  closed : ∀ r ∈ rowsOf nodes, ∀ x ∈ rest,
    parentKey (x.get? parentField) ≠ keyText (r.get? keyField)
  hangs : ∀ x ∈ rowsOf nodes, Hangs keyField parentField rows pool x

theorem mem_rowsUnder {pool : List Record} {key : String} {x : Record} :
    x ∈ rowsUnder parentField pool key ↔
      x ∈ pool ∧ parentKey (x.get? parentField) = key := by
  simp [rowsUnder]

theorem mem_rowsElsewhere {pool : List Record} {key : String} {x : Record} :
    x ∈ rowsElsewhere parentField pool key ↔
      x ∈ pool ∧ parentKey (x.get? parentField) ≠ key := by
  simp [rowsElsewhere]

theorem mem_under_or_elsewhere (parentField : String) (pool : List Record) (key : String)
    (x : Record) :
    x ∈ rowsUnder parentField pool key ∨ x ∈ rowsElsewhere parentField pool key ↔ x ∈ pool := by
  rw [mem_rowsUnder, mem_rowsElsewhere, ← and_or_left, and_iff_left (em _)]

/-- A row is nested with what is under it, and then its siblings are nested. -/
theorem Attached.cons {r : Record} {siblings pool rest left : List Record}
    {children nodes : List Node}
    (hchildren : Attached keyField parentField
      (rowsUnder parentField pool (keyText (r.get? keyField)))
      (rowsElsewhere parentField pool (keyText (r.get? keyField))) children rest)
    (hnodes : Attached keyField parentField siblings rest nodes left) :
    Attached keyField parentField (r :: siblings) pool (.mk r children :: nodes) left := by
  have helsewhere : rest ⊆ rowsElsewhere parentField pool (keyText (r.get? keyField)) :=
    hchildren.left
  have hrest : rest ⊆ pool := fun x hx => (mem_rowsElsewhere.1 (helsewhere hx)).1
  have hmem : ∀ {x : Record}, x ∈ rowsOf (.mk r children :: nodes) ↔
      x = r ∨ x ∈ rowsOf children ∨ x ∈ rowsOf nodes := by
    intro x
    simp [rowsOf, Node.rows]
  constructor
  · intro x
    rw [hmem, List.mem_cons, or_assoc, or_assoc, or_assoc, hnodes.all,
      @or_left_comm (x ∈ rowsOf children), hchildren.all, mem_under_or_elsewhere]
  · exact fun x hx => hrest (hnodes.left hx)
  · intro p hp x hx
    -- what is left after the siblings was left after the children, and was not under the row
    rcases hmem.1 hp with rfl | hp | hp
    · exact (mem_rowsElsewhere.1 (helsewhere (hnodes.left hx))).2
    · exact hchildren.closed p hp x (hnodes.left hx)
    · exact hnodes.closed p hp x hx
  · intro x hx
    rcases hmem.1 hx with rfl | hx | hx
    · exact .given List.mem_cons_self
    · refine (hchildren.hangs x hx).trans (fun child hchild => ?_) fun y hy =>
        (mem_rowsElsewhere.1 hy).1
      obtain ⟨hpool, hparent⟩ := mem_rowsUnder.1 hchild
      exact .under (.given List.mem_cons_self) hpool hparent
    · exact (hnodes.hangs x hx).trans (fun y hy => .given (List.mem_cons_of_mem _ hy)) hrest

theorem attach_attached (keyField parentField : String) (rows pool : List Record) :
    Attached keyField parentField rows pool (attach keyField parentField rows pool).1
      (attach keyField parentField rows pool).2.1 := by
  induction rows, pool using attach.induct keyField parentField with
  | case1 pool =>
    rw [attach]
    exact ⟨by simp [rowsOf], List.Subset.refl _, by simp [rowsOf], by simp [rowsOf]⟩
  | case2 pool r siblings hsplit children rest hrest hchildren nodes left hleft hnodes ihchildren
      ihnodes =>
    -- the children take their rows off the pool first, then the siblings off what is left
    rw [hchildren] at ihchildren
    rw [hnodes] at ihnodes
    rw [attach, hchildren]
    dsimp only
    rw [hnodes]
    exact ihchildren.cons ihnodes

theorem Hangs.reached {rows : List Record} {x : Record}
    (h : Hangs keyField parentField (rowsUnder parentField rows rootKey)
      (rowsElsewhere parentField rows rootKey) x) : Reached keyField parentField rows x := by
  induction h with
  | given hr =>
    obtain ⟨hrows, hroot⟩ := mem_rowsUnder.1 hr
    exact .top hrows hroot
  | under _ hr hparent ih => exact .under ih (mem_rowsElsewhere.1 hr).1 hparent

/-- **A forest holds just the rows that are reached.** -/
theorem mem_rowsOf_forest {rows : List Record} {r : Record} :
    r ∈ rowsOf (forest keyField parentField rows) ↔ Reached keyField parentField rows r := by
  have h := attach_attached keyField parentField (rowsUnder parentField rows rootKey)
    (rowsElsewhere parentField rows rootKey)
  -- a row of the table is nested, or it is left, and then it does not name the root
  have hplace : ∀ x ∈ rows, x ∈ rowsOf (forest keyField parentField rows) ∨
      x ∈ (attach keyField parentField (rowsUnder parentField rows rootKey)
        (rowsElsewhere parentField rows rootKey)).2.1 :=
    fun x hx => (h.all x).2 ((mem_under_or_elsewhere parentField rows rootKey x).2 hx)
  constructor
  · exact fun hr => (h.hangs r hr).reached
  · intro hr
    induction hr with
    | top hr hroot =>
      rcases hplace _ hr with hnested | hleft
      · exact hnested
      · exact absurd hroot (mem_rowsElsewhere.1 (h.left hleft)).2
    | under _ hr hparent ih =>
      rcases hplace _ hr with hnested | hleft
      · exact hnested
      · exact absurd hparent (h.closed _ ih _ hleft)

end MetaQuery
