/-
  MetaQuery/Model.lean
  ====================
  A model with everything that one operation needs of it: its entries, the dialect of its
  datasource, its main table and its key column.

  The main table is the first one flagged, or else the first one; rows are inserted, updated and
  deleted there.  The key column is the first field flagged, or else `id`.
-/
import MetaQuery.Catalog.Entry
import MetaQuery.Dialect
import MetaQuery.Fault

namespace MetaQuery

/-- A model put together from its entries. -/
structure Model where
  entry : ModelEntry
  tables : List TableEntry
  fields : List FieldEntry
  dialect : Dialect
  /-- The chain of predicates; templates and requests put theirs behind it. -/
  conditions : List Condition := []
  joins : List JoinEntry := []
  orders : List OrderEntry := []
  groups : List GroupEntry := []
  havings : List Condition := []
  limit : Option LimitEntry := none
  raw : Option RawEntry := none
deriving DecidableEq, Repr, Inhabited

/-- The first table flagged as main, else the first table. -/
def mainTable? (tables : List TableEntry) : Option TableEntry :=
  (tables.find? (·.isMain)).or tables.head?

namespace Model

def id (m : Model) : String := m.entry.id

def mainTable (m : Model) : Except MetadataFault TableEntry :=
  match mainTable? m.tables with
  | some t => .ok t
  | none => .error (.noTable m.id)

def key (m : Model) : String :=
  match m.fields.find? (·.isKey) with
  | some f => f.column
  | none => "id"

def field? (m : Model) (column : String) : Option FieldEntry :=
  m.fields.find? (·.column == column)

/-- The field of a column that a table may qualify. -/
def fieldOf? (m : Model) (table column : String) : Option FieldEntry :=
  m.fields.find? fun f =>
    f.column == column && (table == "" || f.table == "" || f.table == table)

/-- The connection that a model uses: its own, or else that of its main table. -/
def connectionOf (entry : ModelEntry) (tables : List TableEntry) : String :=
  if entry.connection ≠ "" then entry.connection
  else match mainTable? tables with
    | some t => t.connection
    | none => ""

/-- The connection on which the statements of the model run. -/
def connection (m : Model) : String := connectionOf m.entry m.tables

def isRaw (m : Model) : Bool := m.entry.kind == .sql

end Model

/-- A fault of the metadata is a fault of the engine. -/
instance : MonadLift (Except MetadataFault) (Except Fault) where
  monadLift r := r.mapError .metadata

end MetaQuery
