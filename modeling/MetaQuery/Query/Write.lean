/-
  MetaQuery/Query/Write.lean
  ==========================
  INSERT, UPDATE and DELETE on the main table of a model.  Every value is bound, brought to the
  type of its field; columns and tables are quoted.
-/
import MetaQuery.Query.Compile
import MetaQuery.Record

namespace MetaQuery

/-- What an INSERT of several rows writes for a column that a row does not have. -/
inductive MissingColumn where
  | null
  /-- The word DEFAULT, so that the default of the column applies. -/
  | columnDefault
deriving DecidableEq, Repr

/-- The columns of some rows, each once, in the order of first sight. -/
def unionKeys (rows : List Record) : List String :=
  rows.foldl (fun keys row => row.keys.foldl
    (fun keys k => if keys.contains k then keys else keys ++ [k]) keys) []

namespace Model

/-- A cell bound for a column. -/
def bindCell (m : Model) (st : Statement) (column : String) (v : Cell) : String × Statement :=
  st.bind (coerceTo (m.field? column) v)

/-- The slots of one row, column by column. -/
def bindRow (m : Model) (missing : MissingColumn) (row : Record) (st : Statement) :
    List String → List String × Statement
  | [] => ([], st)
  | k :: r =>
    let (slot, st) := match row.get? k, missing with
      -- a cell that is there is sent, even when the others have a default
      | some v, _ => m.bindCell st k v
      | none, .null => st.bind .null
      | none, .columnDefault => ("DEFAULT", st)
    let (slots, st) := m.bindRow missing row st r
    (slot :: slots, st)

/-- The tuples of some rows. -/
def bindRows (m : Model) (missing : MissingColumn) (columns : List String) (st : Statement) :
    List Record → List String × Statement
  | [] => ([], st)
  | row :: r =>
    let (slots, st) := m.bindRow missing row st columns
    let (tuples, st) := m.bindRows missing columns st r
    (("(" ++ Text.joinWith ", " slots ++ ")") :: tuples, st)

/-- One INSERT for all rows, over the columns of any of them. -/
def insertMany (m : Model) (rows : List Record) (missing : MissingColumn) :
    Except Fault Statement := do
  let columns := unionKeys rows
  if columns.isEmpty then throw (.invalid "data" .noColumns)
  let (tuples, st) := m.bindRows missing columns (.start m.dialect) rows
  let target ← m.target
  return st.put ("INSERT INTO " ++ target ++ " (" ++
    Text.joinWith ", " (columns.map m.dialect.quote) ++ ") VALUES " ++ Text.joinWith ", " tuples)

/-- Rows are written unless they have no columns or there is no table. -/
theorem insertMany_eq (m : Model) (rows : List Record) (missing : MissingColumn) :
    m.insertMany rows missing =
      if (unionKeys rows).isEmpty then .error (.invalid "data" .noColumns)
      else (m.target.mapError .metadata).map fun target =>
        let out := m.bindRows missing (unionKeys rows) (.start m.dialect) rows
        out.2.put ("INSERT INTO " ++ target ++ " (" ++
          Text.joinWith ", " ((unionKeys rows).map m.dialect.quote) ++ ") VALUES " ++
          Text.joinWith ", " out.1) := by
  unfold insertMany
  by_cases hcolumns : (unionKeys rows).isEmpty
  · simp only [hcolumns, if_true]
    rfl
  · simp only [hcolumns]
    cases m.target with
    | error fault => rfl
    | ok target => rfl

def insert (m : Model) (row : Record) : Except Fault Statement := m.insertMany [row] .null

def bindAssignments (m : Model) (st : Statement) :
    List (String × Cell) → List String × Statement
  | [] => ([], st)
  | (k, v) :: r =>
    let (slot, st) := m.bindCell st k v
    let (rest, st) := m.bindAssignments st r
    ((m.dialect.quote k ++ " = " ++ slot) :: rest, st)

/-- The UPDATE of all columns of a row but the key; nothing when there are none. -/
def update (m : Model) (key : Cell) (row : Record) : Except Fault (Option Statement) := do
  let (sets, st) := m.bindAssignments (.start m.dialect) (row.entries.filter (·.1 != m.key))
  if sets.isEmpty then return none
  let (slot, st) := m.bindCell st m.key key
  let target ← m.target
  return some (st.put ("UPDATE " ++ target ++ " SET " ++ Text.joinWith ", " sets ++ " WHERE " ++
    m.dialect.quote m.key ++ " = " ++ slot))

/-- A row is updated unless it has no other column than the key or there is no table. -/
theorem update_eq (m : Model) (key : Cell) (row : Record) :
    m.update key row =
      let sets := m.bindAssignments (.start m.dialect) (row.entries.filter (·.1 != m.key))
      if sets.1.isEmpty then .ok none
      else (m.target.mapError .metadata).map fun target =>
        let slot := m.bindCell sets.2 m.key key
        some (slot.2.put ("UPDATE " ++ target ++ " SET " ++ Text.joinWith ", " sets.1 ++
          " WHERE " ++ m.dialect.quote m.key ++ " = " ++ slot.1)) := by
  unfold update
  generalize m.bindAssignments (.start m.dialect) (row.entries.filter (·.1 != m.key)) = sets
  by_cases hsets : sets.1.isEmpty
  · simp only [hsets, if_true]
    rfl
  · simp only [hsets]
    cases m.target with
    | error fault => rfl
    | ok target => rfl

def delete (m : Model) (key : Cell) : Except Fault Statement := do
  let (slot, st) := m.bindCell (.start m.dialect) m.key key
  let target ← m.target
  return st.put ("DELETE FROM " ++ target ++ " WHERE " ++ m.dialect.quote m.key ++ " = " ++ slot)

/-- A row is deleted unless there is no table. -/
theorem delete_eq (m : Model) (key : Cell) :
    m.delete key = (m.target.mapError .metadata).map fun target =>
      let slot := m.bindCell (.start m.dialect) m.key key
      slot.2.put ("DELETE FROM " ++ target ++ " WHERE " ++ m.dialect.quote m.key ++ " = " ++
        slot.1) := by
  unfold delete
  cases m.target with
  | error fault => rfl
  | ok target => rfl

/-- The DELETE of the rows with some keys; nothing when there are none. -/
def deleteAll (m : Model) (keys : List Cell) : Except Fault (Option Statement) := do
  if keys.isEmpty then return none
  let (slots, st) := (Statement.start m.dialect).bindAll (keys.map (coerceTo (m.field? m.key)))
  let target ← m.target
  return some (st.put ("DELETE FROM " ++ target ++ " WHERE " ++ m.dialect.quote m.key ++ " IN (" ++
    Text.joinWith ", " slots ++ ")"))

/-- Rows are deleted unless there are no keys or no table. -/
theorem deleteAll_eq (m : Model) (keys : List Cell) :
    m.deleteAll keys =
      if keys.isEmpty then .ok none
      else (m.target.mapError .metadata).map fun target =>
        let out := (Statement.start m.dialect).bindAll (keys.map (coerceTo (m.field? m.key)))
        some (out.2.put ("DELETE FROM " ++ target ++ " WHERE " ++ m.dialect.quote m.key ++
          " IN (" ++ Text.joinWith ", " out.1 ++ ")")) := by
  unfold deleteAll
  by_cases hkeys : keys.isEmpty
  · simp only [hkeys, if_true]
    rfl
  · simp only [hkeys]
    cases m.target with
    | error fault => rfl
    | ok target => rfl

end Model

end MetaQuery
