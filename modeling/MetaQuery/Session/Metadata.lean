/-
  MetaQuery/Session/Metadata.lean
  ===============================
  The metadata of a session, wherever it is kept.
-/
import MetaQuery.Catalog.Lookup
import MetaQuery.Session.Tables

namespace MetaQuery.Metadata

/-- What the metadata says: read off the catalog in memory, or out of the tables. -/
def ask {α : Type} (fromCatalog : Catalog → α) (fromTables : Dialect → Action α) : Action α := do
  match (← get).store with
  | .memory c => return fromCatalog c
  | .tables d => fromTables d

def putCatalog (c : Catalog) : Action Unit := modify fun s => { s with store := .memory c }

/-- The entries of a model, with the model's id in their column. -/
def ofModel {α : Type} (pick : Catalog → List α) (owner : α → String) (coder : Json.Coder α)
    (kind id : String) : Action (List α) :=
  ask (fun c => (pick c).filter (owner · == id)) fun d =>
    Tables.loadWhere d coder kind "model_id" id

/-- How the entries of models are found. -/
def lookup : Lookup Action where
  modelById id := ask (fun c => c.models.find? (·.id == id)) fun d =>
    Tables.loadFirst d ModelEntry.layout.coder "models" "id" id
  modelByCode code := ask (fun c => c.models.find? (·.code == code)) fun d => do
    return (← Tables.loadAll d ModelEntry.layout.coder "models").find? (·.code == code)
  tables := ofModel (·.tables) (·.model) TableEntry.layout.coder "tables"
  fields := ofModel (·.fields) (·.model) FieldEntry.layout.coder "fields"
  conditions := ofModel (·.conditions) (·.model) Condition.layout.coder "wheres"
  joins := ofModel (·.joins) (·.model) JoinEntry.layout.coder "joins"
  orders := ofModel (·.orders) (·.model) OrderEntry.layout.coder "orders"
  groups := ofModel (·.groups) (·.model) GroupEntry.layout.coder "groups"
  havings := ofModel (·.havings) (·.model) Condition.layout.coder "havings"
  limit id := ask (fun c => c.limits.find? (·.model == id)) fun d =>
    Tables.loadFirst d LimitEntry.layout.coder "limits" "model_id" id
  raw id := ask (fun c => c.raws.find? (·.model == id)) fun d =>
    Tables.loadFirst d RawEntry.layout.coder "sqls" "model_id" id
  connection id := ask (fun c => c.connections.find? (·.id == id)) fun d =>
    Tables.loadFirst d ConnectionEntry.layout.coder "connections" "id" id

def model (id : String) : Action Model := lookup.model id

def modelOfCode (code : String) : Action Model := lookup.modelOfCode code

def templatesOf (owner : String) : Action (List Template) :=
  ofModel (·.templates) (·.model) Template.layout.coder "templates" owner

def template? (id : String) : Action (Option Template) :=
  ask (·.template? id) fun d => Tables.loadFirst d Template.layout.coder "templates" "id" id

/-- A template stored in its old place, or behind all others. -/
def saveTemplate (t : Template) : Action Unit := do
  match (← get).store with
  | .memory c => putCatalog (c.saveTemplate t)
  | .tables d => Tables.saveTemplate d t

/-- A template removed; with whether there was one. -/
def deleteTemplate (id : String) : Action Bool := do
  match (← get).store with
  | .memory c => do
    putCatalog (c.deleteTemplate id)
    return c.templates.any (·.id == id)
  | .tables d => Tables.deleteTemplate d id

/-- Everything that is kept. -/
def everything : Action Catalog := ask id Tables.loadCatalog

def relation? (master detail : String) : Action (Option Relation) :=
  ask (·.relation? master detail) fun d => do
    return (← Tables.loadAll d Relation.layout.coder "relations").find? fun r =>
      r.master == master && r.detail == detail

end MetaQuery.Metadata
