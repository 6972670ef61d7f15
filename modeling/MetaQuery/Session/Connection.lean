/-
  MetaQuery/Session/Connection.lean
  =================================
  Statements on the datasources of connections.  A datasource is opened by the first statement
  that needs it and stays open.  Statements run by themselves, or in a transaction that ends with
  one commit when all went well and with one rollback when something failed.
-/
import MetaQuery.Address
import MetaQuery.Query.Select
import MetaQuery.Session.Metadata

namespace MetaQuery.Connection

/-! ### Opening -/

/-- The fault of an attempt to open the datasource of a connection. -/
def openFault (connection : String) (cause : SourceFault) : Fault :=
  .execution ("connect " ++ connection) cause

def addressOf (connection : String) : Action String := do
  match ← Metadata.lookup.connection connection with
  | none => throw (.notFound (.connection connection))
  | some c => do
    let kind ← Action.ofMetadata c.sourceKind
    Action.ofMetadata (c.address kind)

/-- The datasource of a connection opened. -/
def connect (connection : String) : Action Unit := do
  let url ← addressOf connection
  modify fun s => { s with attempts := s.attempts + 1 }
  if let some cause := addressFault? url then throw (openFault connection cause)
  if let some cause ← pass .connect (.connected connection url) then
    throw (openFault connection cause)
  modify fun s => { s with opened := s.opened ++ [connection] }

/-- The datasource of a connection opened, unless it is open. -/
def ensureOpen (connection : String) : Action Unit := do
  if (← get).opened.contains connection then return
  connect connection

/-- A datasource that is open taken over for a connection, unless that one has its own; with
    whether it was. -/
def adopt (connection : String) : Action Bool := do
  let s ← get
  if s.opened.contains connection then return false
  set { s with opened := s.opened ++ [connection] }
  return true

/-! ### Statements -/

/-- The records that a reply holds. -/
def recordsOf (text : String) : Reply → Action (List Record)
  | .rows rows _ => return rows.map (·.record)
  | .failure cause => throw (.execution text cause)

/-- A text with arguments run by itself. -/
def runText (connection text : String) (args : List Cell) : Action (List Record) := do
  ensureOpen connection
  recordsOf text (← send (.data connection) false text args)

/-- A statement run by itself. -/
def run (connection : String) (st : Statement) : Action (List Record) :=
  runText connection st.text st.args

/-- A statement run in the transaction on a connection. -/
def runIn (connection : String) (st : Statement) : Action (List Record) := do
  recordsOf st.text (← send (.data connection) true st.text st.args)

/-- The number that a row of a count holds in its first cell. -/
def countOf : List Record → Int64
  | [] => 0
  | row :: _ =>
    match row.entries with
    | (_, .int i) :: _ => i
    | (_, .float x) :: _ => Decimal.toInt64 x
    | (_, .text s) :: _ => (Decimal.int64? (Text.trimBlanks s.toList)).getD 0
    | _ => 0

/-- The number of rows that a query would return without its page. -/
def count (connection : String) (q : Select) : Action Int64 := do
  return countOf (← run connection q.countStatement)

/-! ### Transactions -/

def begin (connection : String) : Action Unit := do
  ensureOpen connection
  if let some cause ← sendBegin (.data connection) then
    throw (.transaction (.notBegun connection cause))

/-- A transaction around some steps: committed when they succeed, rolled back when one fails.
    The fault of the failed step is reported, whatever comes of the rollback. -/
def transaction {α : Type} (connection : String) (body : Action α) : Action α := do
  begin connection
  match ← body.attempt with
  | .ok a => do
    if let some cause ← sendCommit (.data connection) then
      throw (.transaction (.notCommitted cause))
    return a
  | .error e => do
    -- the fault of the body is told, whatever becomes of the rollback
    let _ ← sendRollback (.data connection)
    throw e

end MetaQuery.Connection
