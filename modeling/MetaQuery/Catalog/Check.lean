/-
  MetaQuery/Catalog/Check.lean
  ============================
  Whether the entries of a catalog fit together: codes of models are not shared, every entry
  names a model that is there, no model has a column twice, and a relation has a foreign key.
  A model may name a connection that is not listed only where no connection is listed at all.
  The first fault in the order of the catalog is reported.
-/
import MetaQuery.Catalog.Entry
import MetaQuery.Fault

namespace MetaQuery.Catalog

/-- Each member checked together with those before it. -/
def checkEach {α : Type} (check : List α → α → Except MetadataFault Unit) :
    List α → List α → Except MetadataFault Unit
  | _, [] => .ok ()
  | before, a :: r => do
    check before a
    checkEach check (before ++ [a]) r

/-- A model against those before it. -/
def checkModel (connections : List ConnectionEntry) (before : List ModelEntry) (m : ModelEntry) :
    Except MetadataFault Unit :=
  if before.any (·.code == m.code) then .error (.duplicateCode m.code)
  else if m.connection ≠ "" ∧ connections ≠ [] ∧ !connections.any (·.id == m.connection) then
    .error (.missingReference "connection" m.connection)
  else .ok ()

/-- The model that an entry names is there. -/
def checkOwner (models : List ModelEntry) (owner : String) : Except MetadataFault Unit :=
  if models.any (·.id == owner) then .ok () else .error (.missingReference "model" owner)

/-- A field against those before it. -/
def checkField (models : List ModelEntry) (before : List FieldEntry) (f : FieldEntry) :
    Except MetadataFault Unit := do
  checkOwner models f.model
  if before.any fun g => g.model == f.model && g.column == f.column then
    throw (.duplicateColumn f.model f.column)

/-- A relation names two models and has a foreign key. -/
def checkRelation (models : List ModelEntry) (r : Relation) : Except MetadataFault Unit := do
  checkOwner models r.master
  checkOwner models r.detail
  if r.foreignKey = "" then throw (.relationWithoutKey r.master r.detail)

/-- The entries of the catalog fit together. -/
def check (c : Catalog) : Except MetadataFault Unit := do
  checkEach (checkModel c.connections) [] c.models
  c.tables.forM fun t => checkOwner c.models t.model
  checkEach (checkField c.models) [] c.fields
  (c.conditions ++ c.havings).forM fun w => checkOwner c.models w.model
  c.joins.forM fun j => checkOwner c.models j.model
  c.orders.forM fun o => checkOwner c.models o.model
  c.groups.forM fun g => checkOwner c.models g.model
  c.limits.forM fun l => checkOwner c.models l.model
  c.raws.forM fun s => checkOwner c.models s.model
  c.templates.forM fun t => checkOwner c.models t.model
  c.relations.forM (checkRelation c.models)

end MetaQuery.Catalog
