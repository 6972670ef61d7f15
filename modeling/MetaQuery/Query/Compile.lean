/-
  MetaQuery/Query/Compile.lean
  ============================
  From a model and the parameters of a request to a SELECT.  A model of tables is compiled from
  its entries; a model written by hand becomes a derived table around its text.  The finished
  text is checked before anything is executed.
-/
import MetaQuery.Query.JoinForest
import MetaQuery.Query.Page
import MetaQuery.Raw.Safety
import MetaQuery.Raw.Substitution

namespace MetaQuery

/-- The name of the derived table around a text written by hand. -/
def rawAlias : String := "raw_model"

namespace Model

/-- The table in which rows are written, as SQL. -/
def target (m : Model) : Except MetadataFault String :=
  m.mainTable.map fun t => m.dialect.table t.schema t.name

/-- What is written as a target is the name of a table. -/
theorem exists_table_of_target {m : Model} {s : String} (h : m.target = .ok s) :
    ∃ t, m.mainTable = .ok t ∧ m.dialect.table t.schema t.name = s := by
  rw [target] at h
  cases htable : m.mainTable with
  | error fault =>
    rw [htable] at h
    cases h
  | ok t =>
    rw [htable] at h
    exact ⟨t, rfl, Except.ok.inj h⟩

/-- The SELECT that the entries of a model describe. -/
def compileEntries (m : Model) (params : Params) : Except Fault Select := do
  let source ← m.target
  let window ← m.window params
  return {
    dialect := m.dialect
    columns := m.fields.map (·.projection m.dialect)
    source := .ofText source
    joins := (orderedJoins m.joins).map (·.render m.dialect)
    filter := m.chain params m.conditions
    required := []
    groups := m.groups.map (·.expression m.dialect)
    having := m.chain params m.havings
    orders := m.orders.map (·.expression m.dialect)
    window := window }

/-- Entries are compiled unless there is no table or the page is out of range. -/
theorem compileEntries_eq (m : Model) (params : Params) :
    m.compileEntries params = match m.target with
      | .error fault => .error (.metadata fault)
      | .ok source => (m.window params).map fun window =>
        { dialect := m.dialect
          columns := m.fields.map (·.projection m.dialect)
          source := .ofText source
          joins := (orderedJoins m.joins).map (·.render m.dialect)
          filter := m.chain params m.conditions
          required := []
          groups := m.groups.map (·.expression m.dialect)
          having := m.chain params m.havings
          orders := m.orders.map (·.expression m.dialect)
          window := window } := by
  unfold compileEntries
  cases m.target with
  | error fault => rfl
  | ok source =>
    cases m.window params with
    | error fault => rfl
    | ok window => rfl

/-- The text of a model written by hand, without blanks around it and semicolons behind it. -/
def rawText (m : Model) : List Char :=
  match m.raw with
  | some r =>
    let cs := Text.trimBlanks r.content.toList
    Text.trimBlanks (cs.reverse.dropWhile (· == ';')).reverse
  | none => []

/-- The derived table around the text of a model written by hand. -/
def rawSource (m : Model) (params : Params) : Fragment :=
  ((Fragment.ofText "(").append (Raw.substitute params m.dialect m.rawText)).putText
    (") AS " ++ rawAlias)

/-- The SELECT from the text of a model written by hand. -/
def compileRaw (m : Model) (params : Params) : Except Fault Select := do
  if m.rawText.isEmpty then throw (.metadata (.emptyRawSql m.id))
  let window ← m.window params
  return { Select.all m.dialect (m.rawSource params) with window := window }

/-- A text is compiled unless it is empty or the page is out of range. -/
theorem compileRaw_eq (m : Model) (params : Params) :
    m.compileRaw params =
      if m.rawText.isEmpty then .error (.metadata (.emptyRawSql m.id))
      else (m.window params).map fun window =>
        { Select.all m.dialect (m.rawSource params) with window := window } := by
  unfold compileRaw
  split
  · rfl
  · cases m.window params with
    | error fault => rfl
    | ok window => rfl

def compile (m : Model) (params : Params) : Except Fault Select :=
  if m.isRaw then m.compileRaw params else m.compileEntries params

/-- The SELECT of a model, with its text checked. -/
def select (m : Model) (params : Params) : Except Fault Select := do
  let query ← m.compile params
  Raw.checkSafe query.statement.text
  return query

def keyPredicate (m : Model) (key : Cell) : Except MetadataFault Fragment := do
  let table ← if m.isRaw then .ok rawAlias else m.mainTable.map (·.name)
  return (Fragment.ofText (m.dialect.column table m.key ++ " = ")).putArg
    (coerceTo (m.field? m.key) key)

/-- The keys of the rows whose `parentField` has a value, whatever the conditions of the model
    are. -/
def selectChildren (m : Model) (parentField : String) (parent : Cell) :
    Except MetadataFault Select := do
  let source ← m.target
  return { Select.all m.dialect (.ofText source) with
    columns := [m.dialect.quote m.key]
    filter := (Fragment.ofText (m.dialect.quote parentField ++ " = ")).putArg
      (coerceTo (m.field? parentField) parent) }

end Model

end MetaQuery
