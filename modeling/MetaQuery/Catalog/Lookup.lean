/-
  MetaQuery/Catalog/Lookup.lean
  =============================
  Looking entries up, and putting models together from them.

  Where entries are kept is left open: a `Lookup` says how to find them in some monad, so the same
  assembly serves a catalog held in memory and one that is read by statements.  Lookups are asked
  in a fixed order, which is the order of the statements.
-/
import MetaQuery.Catalog.Entry
import MetaQuery.Model

namespace MetaQuery

/-! ### Lookups -/

/-- How to find the entries that make up a model. -/
structure Lookup (m : Type → Type) where
  modelById : String → m (Option ModelEntry)
  modelByCode : String → m (Option ModelEntry)
  tables : String → m (List TableEntry)
  fields : String → m (List FieldEntry)
  conditions : String → m (List Condition)
  joins : String → m (List JoinEntry)
  orders : String → m (List OrderEntry)
  groups : String → m (List GroupEntry)
  havings : String → m (List Condition)
  limit : String → m (Option LimitEntry)
  raw : String → m (Option RawEntry)
  connection : String → m (Option ConnectionEntry)

def ConnectionEntry.sourceKind (c : ConnectionEntry) : Except MetadataFault SourceKind :=
  match SourceKind.ofText? c.kind with
  | some k => .ok k
  | none => .error (.unsupportedKind c.kind)

namespace Lookup

variable {m : Type → Type} [Monad m] [MonadExceptOf Fault m]

/-- A step that can only fail with a fault of the metadata. -/
def ofMetadata {α : Type} : Except MetadataFault α → m α
  | .ok a => pure a
  | .error e => throw (.metadata e)

/-- The dialect of a connection; that of MySQL where no connection is named or listed. -/
def dialectOf (l : Lookup m) (connection : String) : m Dialect := do
  if connection = "" then return .mysql
  match ← l.connection connection with
  | some c => do
    let kind ← ofMetadata c.sourceKind
    return kind.dialect
  | none => return .mysql

/-- The model of an entry. -/
def assemble (l : Lookup m) (entry : ModelEntry) : m Model := do
  let tables ← l.tables entry.id
  let fields ← l.fields entry.id
  let dialect ← l.dialectOf (Model.connectionOf entry tables)
  let conditions ← l.conditions entry.id
  let joins ← l.joins entry.id
  let orders ← l.orders entry.id
  let groups ← l.groups entry.id
  let havings ← l.havings entry.id
  let limit ← l.limit entry.id
  let raw ← l.raw entry.id
  return { entry, tables, fields, dialect, conditions, joins, orders, groups, havings, limit, raw }

def model (l : Lookup m) (id : String) : m Model := do
  match ← l.modelById id with
  | some entry => l.assemble entry
  | none => throw (.notFound (.model id))

def modelOfCode (l : Lookup m) (code : String) : m Model := do
  match ← l.modelByCode code with
  | some entry => l.assemble entry
  | none => throw (.notFound (.modelCode code))

end Lookup

/-! ### Catalogs in memory -/

namespace Catalog

/-- The entries as they stand in a catalog. -/
def lookup {m : Type → Type} [Monad m] (c : Catalog) : Lookup m where
  modelById id := pure (c.models.find? (·.id == id))
  modelByCode code := pure (c.models.find? (·.code == code))
  tables id := pure (c.tables.filter (·.model == id))
  fields id := pure (c.fields.filter (·.model == id))
  conditions id := pure (c.conditions.filter (·.model == id))
  joins id := pure (c.joins.filter (·.model == id))
  orders id := pure (c.orders.filter (·.model == id))
  groups id := pure (c.groups.filter (·.model == id))
  havings id := pure (c.havings.filter (·.model == id))
  limit id := pure (c.limits.find? (·.model == id))
  raw id := pure (c.raws.find? (·.model == id))
  connection id := pure (c.connections.find? (·.id == id))

def templatesOf (c : Catalog) (owner : String) : List Template :=
  c.templates.filter (·.model == owner)

def template? (c : Catalog) (id : String) : Option Template := c.templates.find? (·.id == id)

/-- A template put in the place of the one with its id, or behind all others. -/
def putTemplate (t : Template) : List Template → List Template
  | [] => [t]
  | u :: r => if u.id = t.id then t :: r else u :: putTemplate t r

def saveTemplate (c : Catalog) (t : Template) : Catalog :=
  { c with templates := putTemplate t c.templates }

def deleteTemplate (c : Catalog) (id : String) : Catalog :=
  { c with templates := c.templates.filter (·.id != id) }

def relation? (c : Catalog) (master detail : String) : Option Relation :=
  c.relations.find? fun r => r.master == master && r.detail == detail

end Catalog

end MetaQuery
