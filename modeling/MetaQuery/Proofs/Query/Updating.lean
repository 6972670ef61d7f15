/-
  MetaQuery/Proofs/Query/Updating.lean
  ====================================
  An UPDATE of a row writes every cell where it belongs.

  The assignments are the entries of the row but for the key, in their order.  A cell that is NULL
  is written as a word and sends nothing, so the number of a placeholder counts the cells that are
  sent in front of it (`bindAssignments_eq`); the key comes last (`update_eq_some`).  So the cell of
  a column is found among the arguments by counting those in front of it (`update_sends`).
-/
import Mathlib.Data.List.Basic
import MetaQuery.Proofs.Query.Columns
import MetaQuery.Query.Write

namespace MetaQuery

namespace Model

variable (m : Model)

/-- The entries of a row that an UPDATE assigns. -/
def changes (row : Record) : List (String × Cell) := row.entries.filter (·.1 != m.key)

/-- The argument that an entry sends: its cell, brought to the type of the field, unless it is
    NULL. -/
def assignedCell (e : String × Cell) : Option Cell :=
  if e.2.isNull then none else some (coerceTo (m.field? e.1) e.2)

/-- The arguments that some entries send. -/
def assignedCells (es : List (String × Cell)) : List Cell := es.filterMap m.assignedCell

/-- What stands for the cell of an entry, with `n` arguments in front of it. -/
def assignedSlot (e : String × Cell) (n : Nat) : String :=
  if e.2.isNull then "NULL" else m.dialect.placeholder (n + 1)

/-- The assignments of some entries, with `n` arguments in front of them. -/
def assignments (es : List (String × Cell)) (n : Nat) : List String :=
  es.mapIdx fun i e => m.dialect.quote e.1 ++ " = " ++
    m.assignedSlot e (n + (m.assignedCells (es.take i)).length)

theorem assignedCells_cons (e : String × Cell) (r : List (String × Cell)) :
    m.assignedCells (e :: r) = (m.assignedCell e).toList ++ m.assignedCells r := by
  cases he : m.assignedCell e <;> simp [assignedCells, he]

theorem bindCell_eq {st : Statement} (hst : st.dialect = m.dialect) (c : String) (v : Cell) :
    m.bindCell st c v = (m.assignedSlot (c, v) st.args.length,
      { st with args := st.args ++ (m.assignedCell (c, v)).toList }) := by
  have hnull := isNull_coerceTo (m.field? c) v
  cases hv : v.isNull with
  | true =>
    rw [hv] at hnull
    simp [bindCell, assignedSlot, assignedCell, Statement.bind, hnull, hv]
  | false =>
    rw [hv] at hnull
    simp [bindCell, assignedSlot, assignedCell, Statement.bind_of_not_null hnull, hv, hst]

theorem assignments_cons (e : String × Cell) (r : List (String × Cell)) (n : Nat) :
    m.assignments (e :: r) n = (m.dialect.quote e.1 ++ " = " ++ m.assignedSlot e n) ::
      m.assignments r (n + (m.assignedCell e).toList.length) := by
  rw [assignments, List.mapIdx_cons, assignments]
  congr 1
  refine congrArg (List.mapIdx · r) (funext fun i => funext fun x => ?_)
  rw [List.take_succ_cons, assignedCells_cons, List.length_append, Nat.add_assoc]

/-- Entries are bound one after the other. -/
theorem bindAssignments_eq (es : List (String × Cell)) {st : Statement}
    (hst : st.dialect = m.dialect) :
    m.bindAssignments st es = (m.assignments es st.args.length,
      { st with args := st.args ++ m.assignedCells es }) := by
  induction es generalizing st with
  | nil => simp [bindAssignments, assignments, assignedCells]
  | cons e r ih =>
    have hnext : { st with args := st.args ++ (m.assignedCell e).toList }.dialect = m.dialect := hst
    rw [bindAssignments, m.bindCell_eq hst]
    dsimp only
    rw [ih hnext, assignments_cons, assignedCells_cons, List.length_append, List.append_assoc]

/-- What the UPDATE of a row is, assignment by assignment. -/
theorem update_eq_some {key : Cell} {row : Record} {t : TableEntry} (ht : m.mainTable = .ok t)
    (hchanges : m.changes row ≠ []) : m.update key row = .ok (some {
      dialect := m.dialect
      text := "UPDATE " ++ m.dialect.table t.schema t.name ++ " SET " ++
        Text.joinWith ", " (m.assignments (m.changes row) 0) ++ " WHERE " ++
        m.dialect.quote m.key ++ " = " ++
        m.assignedSlot (m.key, key) (m.assignedCells (m.changes row)).length
      args := m.assignedCells (m.changes row) ++ (m.assignedCell (m.key, key)).toList }) := by
  have htarget : m.target = .ok (m.dialect.table t.schema t.name) := by
    rw [target, ht]
    rfl
  have hsets : ¬(m.assignments (m.changes row) 0).isEmpty = true := by
    rw [List.isEmpty_iff, assignments, List.mapIdx_eq_nil_iff]
    exact hchanges
  have hbound : m.bindAssignments (.start m.dialect) (m.changes row) = _ :=
    m.bindAssignments_eq (m.changes row) rfl
  rw [update_eq, ← changes, hbound, htarget]
  dsimp only [Statement.start, List.length_nil]
  rw [if_neg hsets, m.bindCell_eq (by rfl)]
  simp [Statement.put, Except.mapError, Except.map]

/-- How many arguments an UPDATE sends in front of the cell of a column. -/
def assignedBefore (row : Record) (c : String) : Nat :=
  (m.assignedCells ((m.changes row).takeWhile (·.1 != c))).length

/-- An UPDATE sends the cell of a column of the row, brought to the type of the field, as the
    argument of that column. -/
theorem update_sends (key : Cell) {row : Record} {t : TableEntry} (ht : m.mainTable = .ok t)
    {c : String} (hc : c ≠ m.key) {v : Cell} (hv : row.get? c = some v)
    (hnull : v.isNull = false) : ∃ st, m.update key row = .ok (some st) ∧
      st.args[m.assignedBefore row c]? = some (coerceTo (m.field? c) v) := by
  -- the key is the only column that an UPDATE leaves out
  have hfound : Record.find c (m.changes row) = some v := by
    rw [changes, Record.find_filter_of_keeps fun _ => by simpa using hc]
    exact hv
  obtain ⟨after, hafter⟩ := Record.split_of_find hfound
  have hchanges : m.changes row ≠ [] := by
    rw [hafter]
    exact List.append_ne_nil_of_right_ne_nil _ (List.cons_ne_nil _ _)
  have hcell : m.assignedCell (c, v) = some (coerceTo (m.field? c) v) := by
    rw [assignedCell, hnull]
    rfl
  have hcells : m.assignedCells (m.changes row) =
      m.assignedCells ((m.changes row).takeWhile (·.1 != c)) ++
        coerceTo (m.field? c) v :: m.assignedCells after := by
    conv_lhs => rw [hafter]
    rw [assignedCells, List.filterMap_append, List.filterMap_cons_some hcell]
    rfl
  refine ⟨_, m.update_eq_some ht hchanges, ?_⟩
  dsimp only
  rw [hcells, List.append_assoc, assignedBefore, List.getElem?_append_right (Nat.le_refl _),
    Nat.sub_self]
  rfl

end Model

end MetaQuery
