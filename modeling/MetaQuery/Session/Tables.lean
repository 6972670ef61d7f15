/-
  MetaQuery/Session/Tables.lean
  =============================
  Metadata kept in tables: one table for each kind of entries, one row for each entry, with the
  entry as JSON text and its place in the order.  Kinds are replaced as a whole, each in a
  transaction of its own; a template keeps its place when it is saved again.  A transaction that
  fails is given up, and what it has done is undone by the datasource.
-/
import MetaQuery.Catalog.Check
import MetaQuery.Session.State

namespace MetaQuery.Tables

/-- The kinds of entries, which are the names of their tables. -/
def kinds : List String := [
  "connections", "models", "tables", "fields", "wheres", "joins", "orders", "groups", "havings",
  "limits", "sqls", "templates", "relations"]

/-- The table of a kind, as SQL. -/
def tableOf (d : Dialect) (kind : String) : Action String := do
  return d.quote ((← get).settings.tableName kind)

/-! ### Statements -/

/-- The rows that a statement returns and the number of rows that it affects. -/
def run (inTransaction : Bool) (text : String) (args : List Cell) :
    Action (List SourceRow × Nat) := do
  match ← send .metadata inTransaction text args with
  | .rows rows affected => return (rows, affected)
  | .failure cause => throw (.database cause)

/-- A step that can only fail with a fault of the datasource. -/
def ofSource {α : Type} (r : Except SourceFault α) : Action α :=
  Action.ofExcept (r.mapError .database)

def begin : Action Unit := do
  if let some cause ← sendBegin .metadata then throw (.database cause)

def commit : Action Unit := do
  if let some cause ← sendCommit .metadata then throw (.database cause)

/-! ### Reading -/

/-- The entries that the rows of a table hold. -/
def decodeRows {α : Type} (coder : Json.Coder α) (rows : List SourceRow) : Action (List α) := do
  let payloads ← rows.mapM fun row => ofSource (row.first >>= SourceCell.asText)
  payloads.mapM fun s => Action.ofMetadata ((coder.ofText s).mapError .unreadable)

def loadAll {α : Type} (d : Dialect) (coder : Json.Coder α) (kind : String) : Action (List α) := do
  let (rows, _) ← run false
    ("SELECT payload FROM " ++ (← tableOf d kind) ++ " ORDER BY position") []
  decodeRows coder rows

/-- The entries of a kind with a value in a column. -/
def loadWhere {α : Type} (d : Dialect) (coder : Json.Coder α) (kind column value : String) :
    Action (List α) := do
  let (rows, _) ← run false
    ("SELECT payload FROM " ++ (← tableOf d kind) ++ " WHERE " ++ column ++ " = " ++
      d.placeholder 1 ++ " ORDER BY position") [.text value]
  decodeRows coder rows

/-- The first entry of a kind with a value in a column. -/
def loadFirst {α : Type} (d : Dialect) (coder : Json.Coder α) (kind column value : String) :
    Action (Option α) := do
  return (← loadWhere d coder kind column value).head?

def loadCatalog (d : Dialect) : Action Catalog := do
  return {
    connections := ← loadAll d ConnectionEntry.layout.coder "connections"
    models := ← loadAll d ModelEntry.layout.coder "models"
    tables := ← loadAll d TableEntry.layout.coder "tables"
    fields := ← loadAll d FieldEntry.layout.coder "fields"
    conditions := ← loadAll d Condition.layout.coder "wheres"
    joins := ← loadAll d JoinEntry.layout.coder "joins"
    orders := ← loadAll d OrderEntry.layout.coder "orders"
    groups := ← loadAll d GroupEntry.layout.coder "groups"
    havings := ← loadAll d Condition.layout.coder "havings"
    limits := ← loadAll d LimitEntry.layout.coder "limits"
    raws := ← loadAll d RawEntry.layout.coder "sqls"
    templates := ← loadAll d Template.layout.coder "templates"
    relations := ← loadAll d Relation.layout.coder "relations" }

/-! ### Writing -/

/-- The statement that makes a table where it is missing. -/
def creation (table : String) : String :=
  "CREATE TABLE IF NOT EXISTS " ++ table ++ " (id VARCHAR(191) NOT NULL PRIMARY KEY, " ++
    "model_id VARCHAR(191) NOT NULL, position INTEGER NOT NULL, payload TEXT NOT NULL)"

/-- All tables made where they are missing. -/
def ensure (d : Dialect) : Action Unit :=
  kinds.forM fun kind => do
    let _ ← run false (creation (← tableOf d kind)) []

def insertion (d : Dialect) (table : String) : String :=
  "INSERT INTO " ++ table ++ " (id, model_id, position, payload) VALUES (" ++ d.placeholder 1 ++
    ", " ++ d.placeholder 2 ++ ", " ++ d.placeholder 3 ++ ", " ++ d.placeholder 4 ++ ")"

/-- The text of a member; empty where there is none. -/
def memberText (entry : Json) (name : String) : String :=
  ((entry.get? name).bind Json.text?).getD ""

/-- What an entry at a place is stored under: its id, or its model and its place. -/
def rowId (entry : Json) (place : Nat) : String :=
  if memberText entry "id" = "" then
    memberText entry "model_id" ++ "#" ++ Decimal.intText (Int.ofNat place)
  else memberText entry "id"

def rowCells (entry : Json) (place : Nat) : List Cell :=
  [.text (rowId entry place), .text (memberText entry "model_id"), .int (Int64.ofNat place),
    .text entry.text]

/-- Entries stored from a place on. -/
def insertFrom (d : Dialect) (table : String) (place : Nat) : List Json → Action Unit
  | [] => pure ()
  | entry :: r => do
    let _ ← run true (insertion d table) (rowCells entry place)
    insertFrom d table (place + 1) r

/-- All entries of a kind replaced; with how many there are now. -/
def replaceRows (d : Dialect) (kind : String) (entries : List Json) : Action Nat := do
  if !kinds.contains kind then throw (.metadata (.unknownRecordKind kind))
  let table ← tableOf d kind
  begin
  let _ ← run true ("DELETE FROM " ++ table) []
  insertFrom d table 0 entries
  commit
  return entries.length

/-- The entries of a catalog by kind, in the order in which they are stored. -/
def catalogRows (c : Catalog) : List (String × List Json) :=
  Catalog.layout.columns.map fun column =>
    (column.name, match column.get c with
      | .arr items => items
      | _ => [])

/-- A whole catalog stored, when its entries fit together. -/
def importCatalog (d : Dialect) (c : Catalog) : Action Unit := do
  Action.ofMetadata c.check
  (catalogRows c).forM fun (kind, entries) => do
    let _ ← replaceRows d kind entries

/-- The place of a template among those stored, or the place behind them. -/
def templatePlace (d : Dialect) (table id : String) : Action Int64 := do
  let (rows, _) ← run true
    ("SELECT position FROM " ++ table ++ " WHERE id = " ++ d.placeholder 1) [.text id]
  match rows with
  | row :: _ => ofSource (row.first >>= SourceCell.asInteger)
  -- a new template goes behind as many as there are
  | [] => do
    let (rows, _) ← run true ("SELECT COUNT(*) FROM " ++ table) []
    match rows with
    | row :: _ => ofSource (row.first >>= SourceCell.asInteger)
    | [] => throw (.database .rowNotFound)

/-- The statement that removes what is stored under an id. -/
def removal (d : Dialect) (table : String) : String :=
  "DELETE FROM " ++ table ++ " WHERE id = " ++ d.placeholder 1

/-- A template stored in its old place, or behind all others. -/
def saveTemplate (d : Dialect) (t : Template) : Action Unit := do
  let table ← tableOf d "templates"
  begin
  let place ← templatePlace d table t.id
  let _ ← run true (removal d table) [.text t.id]
  let _ ← run true (insertion d table)
    [.text t.id, .text t.model, .int place, .text (Template.layout.coder.text t)]
  commit

/-- A template removed; with whether there was one. -/
def deleteTemplate (d : Dialect) (id : String) : Action Bool := do
  let (_, affected) ← run false (removal d (← tableOf d "templates")) [.text id]
  return 0 < affected

end MetaQuery.Tables
