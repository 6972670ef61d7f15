/-
  MetaQuery/Session/State.lean
  ============================
  The state that operations of the engine run in: where the metadata is kept, how rules are read,
  which datasources are open, what the datasources are going to answer, and what has been asked of
  them so far.

  Answers are given in advance: a list of replies to statements, and a list of the outcomes of
  what else can fail, each for one time that it is tried.  Any of them may be a failure; where they
  are used up, statements succeed without rows and the rest goes well.  Every exchange is recorded
  with its outcome, so what an operation has done is read off the events it adds.
-/
import MetaQuery.Catalog.Entry
import MetaQuery.Dialect
import MetaQuery.Fault
import MetaQuery.Record
import MetaQuery.Request.RowCheck
import MetaQuery.Settings
import MetaQuery.Text.Utf8

namespace MetaQuery

/-! ### Rows of a datasource -/

/-- A cell as a datasource gives it. -/
inductive SourceCell where
  | null
  | bool (b : Bool)
  | smallInt (i : Int64)
  | integer (i : Int64)
  | bigInt (i : Int64)
  | real (x : Float)
  | double (x : Float)
  | text (s : String)
  | blob (bytes : List UInt8)
deriving DecidableEq, Repr

namespace SourceCell

/-- The cell of a record.  Numbers of single precision are not read, and become null. -/
def cell : SourceCell → Cell
  | .null => .null
  | .bool b => .bool b
  | .smallInt i => .int i
  | .integer i => .int i
  | .bigInt i => .int i
  -- no reader takes single precision
  | .real _ => .null
  | .double x => .float x
  | .text s => .text s
  | .blob bytes => .text (Text.textOfBytes bytes)

def typeName : SourceCell → String
  | .null => "NULL"
  | .bool _ => "BOOLEAN"
  | .smallInt _ => "SMALLINT"
  | .integer _ => "INTEGER"
  | .bigInt _ => "BIGINT"
  | .real _ => "REAL"
  | .double _ => "DOUBLE"
  | .text _ => "TEXT"
  | .blob _ => "BLOB"

def asText : SourceCell → Except SourceFault String
  | .text s => .ok s
  | .null => .error (.nullCell "TEXT")
  | c => .error (.notText c.typeName)

def asInteger : SourceCell → Except SourceFault Int64
  | .smallInt i => .ok i
  | .integer i => .ok i
  | .bigInt i => .ok i
  | .null => .error (.nullCell "BIGINT")
  | c => .error (.notInteger c.typeName)

end SourceCell

/-- A row as a datasource gives it. -/
abbrev SourceRow := List (String × SourceCell)

/-- The record of a row; of columns with one name, the last one counts. -/
def SourceRow.record (row : SourceRow) : Record := Record.ofList (row.map fun p => (p.1, p.2.cell))

/-- The first cell of a row. -/
def SourceRow.first (row : SourceRow) : Except SourceFault SourceCell :=
  match row with
  | [] => .error .noCell
  | (_, c) :: _ => .ok c

/-! ### Exchanges -/

/-- What a datasource replies to a statement. -/
inductive Reply where
  | rows (rows : List SourceRow) (affected : Nat)
  | failure (cause : SourceFault)
deriving DecidableEq, Repr

/-- What can fail beside statements. -/
inductive Moment where
  | connect
  | begin
  | commit
  | rollback
deriving DecidableEq, Repr

/-- What the datasources are going to answer. -/
structure Answers where
  replies : List Reply := []
  /-- How moments come out, in the order in which each of them is reached. -/
  outcomes : List (Moment × Option SourceFault) := []
deriving DecidableEq, Repr, Inhabited

/-- The next reply, and the answers behind it. -/
def Answers.next (a : Answers) : Reply × Answers :=
  match a.replies with
  | [] => (.rows [] 0, a)
  | r :: rest => (r, { a with replies := rest })

/-- How a moment comes out this time, and the answers behind it. -/
def Answers.meet (a : Answers) (moment : Moment) : Option SourceFault × Answers :=
  match a.outcomes.lookup moment with
  | some outcome => (outcome, { a with outcomes := a.outcomes.eraseP (·.1 == moment) })
  | none => (none, a)

/-- Where a statement goes: to the datasource of the metadata, or to that of a connection. -/
inductive Target where
  | metadata
  | data (connection : String)
deriving DecidableEq, Repr

/-- An exchange with a datasource and its outcome. -/
inductive Event where
  | connected (connection url : String) (failure : Option SourceFault)
  | began (target : Target) (failure : Option SourceFault)
  | committed (target : Target) (failure : Option SourceFault)
  | rolledBack (target : Target) (failure : Option SourceFault)
  | executed (target : Target) (inTransaction : Bool) (text : String) (args : List Cell)
      (reply : Reply)
deriving DecidableEq, Repr

/-! ### Sessions -/

/-- Where the metadata is kept. -/
inductive Store where
  /-- In memory. -/
  | memory (c : Catalog)
  /-- In tables of a datasource of its own, which is open. -/
  | tables (d : Dialect)
deriving DecidableEq, Repr

/-- The state of the engine. -/
structure Session where
  store : Store
  /-- The engine that reads the rules of fields. -/
  rules : Rules
  settings : Settings := {}
  /-- The connections whose datasources are open. -/
  opened : List String := []
  /-- How often a datasource was tried to be opened. -/
  attempts : Nat := 0
  /-- The ids for new entries, in the order in which they are handed out. -/
  idAt : Nat → String
  /-- How many ids have been handed out. -/
  handedOut : Nat := 0
  answers : Answers := {}
  /-- What has been asked, earliest first. -/
  events : List Event := []

/-- An operation of the engine. -/
abbrev Action := ExceptT Fault (StateM Session)

namespace Action

/-- An operation carried out in a state. -/
def exec {α : Type} (a : Action α) (s : Session) : Except Fault α × Session := a.run s

/-- A step that only computes. -/
def ofExcept {α : Type} : Except Fault α → Action α
  | .ok a => pure a
  | .error e => throw e

/-- A step that only computes, with the engine that reads rules. -/
def ofRules {α : Type} (f : Rules → Except Fault α) : Action α := do ofExcept (f (← get).rules)

/-- A step that can only fail with a fault of the metadata. -/
def ofMetadata {α : Type} (r : Except MetadataFault α) : Action α := ofExcept (r.mapError .metadata)

/-- The outcome of an operation; its failure is no failure of this one. -/
def attempt {α : Type} (a : Action α) : Action (Except Fault α) :=
  ExceptT.mk do
    let outcome ← a.run
    pure (.ok outcome)

end Action

/-! ### Asking a datasource -/

def freshId : Action String := do
  let s ← get
  set { s with handedOut := s.handedOut + 1 }
  return s.idAt s.handedOut

/-- A statement sent, and its reply. -/
def send (target : Target) (inTransaction : Bool) (text : String) (args : List Cell) :
    Action Reply := do
  let s ← get
  let (reply, answers) := s.answers.next
  set { s with
    answers := answers
    events := s.events ++ [Event.executed target inTransaction text args reply] }
  return reply

/-- A moment passed, recorded by the event that its outcome makes. -/
def pass (moment : Moment) (event : Option SourceFault → Event) : Action (Option SourceFault) := do
  let s ← get
  let (failure, answers) := s.answers.meet moment
  set { s with answers := answers, events := s.events ++ [event failure] }
  return failure

def sendBegin (target : Target) : Action (Option SourceFault) := pass .begin (.began target)

def sendCommit (target : Target) : Action (Option SourceFault) := pass .commit (.committed target)

def sendRollback (target : Target) : Action (Option SourceFault) :=
  pass .rollback (.rolledBack target)

end MetaQuery
