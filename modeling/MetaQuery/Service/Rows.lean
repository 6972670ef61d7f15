/-
  MetaQuery/Service/Rows.lean
  ===========================
  Rows of models: created, read, changed, deleted, listed and counted.  Each operation puts its
  model together anew.  Rows are checked before anything is sent, and an operation that writes
  sends one statement.
-/
import MetaQuery.Query.Write
import MetaQuery.Request.Listing
import MetaQuery.Request.RowCheck
import MetaQuery.Service.Answer
import MetaQuery.Service.Templates
import MetaQuery.Session.Connection

namespace MetaQuery.Rows

/-! ### Writing -/

/-- The statement that creates some rows, when they may be written to the model with an id. -/
def creation (model : String) (m : Model) (rows : List Record) (rules : Rules) :
    Except Fault Statement := do
  rows.forM (checkRow rules model m.fields)
  m.insertMany rows .null

def create (model : String) (row : Record) : Action Record := do
  let m ← Metadata.model model
  let st ← Action.ofRules (creation model m [row])
  let _ ← Connection.run m.connection st
  return row

/-- A row created in the transaction on a connection. -/
def createIn (connection model : String) (row : Record) : Action Record := do
  let m ← Metadata.model model
  let st ← Action.ofRules (creation model m [row])
  let _ ← Connection.runIn connection st
  return row

/-- Some rows created by one statement. -/
def createAll (model : String) (rows : List Record) : Action (List Record) := do
  if rows.isEmpty then return []
  let m ← Metadata.model model
  let st ← Action.ofRules (creation model m rows)
  let _ ← Connection.run m.connection st
  return rows

/-- Some rows created by one statement in the transaction on a connection. -/
def createAllIn (connection model : String) (rows : List Record) : Action (List Record) := do
  if rows.isEmpty then return []
  let m ← Metadata.model model
  let st ← Action.ofRules (creation model m rows)
  let _ ← Connection.runIn connection st
  return rows

/-- The columns of a row written; nothing is sent when there are none. -/
def write (m : Model) (key : Cell) (row : Record) : Action Unit := do
  match ← Action.ofExcept (m.update key row) with
  | some st => do
    let _ ← Connection.run m.connection st
  | none => return

/-- A row changed to another whole row. -/
def update (model : String) (key : Cell) (row : Record) : Action Unit := do
  let m ← Metadata.model model
  Action.ofRules fun rules => checkRow rules model m.fields row
  write m key row

/-- Some columns of a row changed. -/
def patch (model : String) (key : Cell) (row : Record) : Action Unit := do
  let m ← Metadata.model model
  Action.ofRules fun rules => checkPartialRow rules model m.fields row
  write m key row

def delete (model : String) (key : Cell) : Action Unit := do
  let m ← Metadata.model model
  let st ← Action.ofExcept (m.delete key)
  let _ ← Connection.run m.connection st

def deleteAll (model : String) (keys : List Cell) : Action Unit := do
  if keys.isEmpty then return
  let m ← Metadata.model model
  match ← Action.ofExcept (m.deleteAll keys) with
  | some st => do
    let _ ← Connection.run m.connection st
  | none => return

/-! ### Reading -/

def keyQuery (m : Model) (key : Cell) : Except Fault Select := do
  let q ← m.select []
  let p ← m.keyPredicate key
  return { q.require p with window := none }

def get? (model : String) (key : Cell) : Action (Option Record) := do
  let m ← Metadata.model model
  let q ← Action.ofExcept (keyQuery m key)
  return (← Connection.run m.connection q.statement).head?

/-- The query of a request on a model that its template has been applied to. -/
def listQuery (settings : Settings) (r : ListRequest) (m : Model) : Except Fault Select := do
  let m ← r.restrict m
  m.select (r.compileParams settings m)

/-- The model of a request and its query. -/
def prepare (model : String) (r : ListRequest) : Action (Model × Select) := do
  let m ← Metadata.model model
  let m ← Templates.applyChosen model r.template m
  let q ← Action.ofExcept (listQuery (← get).settings r m)
  return (m, q)

/-- A page of rows; the number of all rows is asked for first. -/
def list (model : String) (r : ListRequest) : Action Page := do
  let (m, q) ← prepare model r
  let total ← Connection.count m.connection q
  let rows ← Connection.run m.connection q.statement
  return Page.of rows total q.window

def count (model : String) (r : ListRequest) : Action Int64 := do
  let (m, q) ← prepare model r
  Connection.count m.connection q

end MetaQuery.Rows
