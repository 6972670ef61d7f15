/-
  MetaQuery/Fault.lean
  ====================
  Everything that can go wrong, as causes.  The wording is in the `message` functions and
  nowhere else; what a caller may branch on is the constructor, or the stable `code`.
-/
import MetaQuery.Json.Shape

namespace MetaQuery

/-! ### Faults of a datasource -/

/-- What a datasource, or the attempt to reach it, reports. -/
inductive SourceFault where
  /-- A failure in the words of the datasource. -/
  | reported (text : String)
  /-- A row was asked for and there was none. -/
  | rowNotFound
  /-- The URL has no scheme. -/
  | relativeUrl
  /-- No driver serves the scheme of the URL. -/
  | noDriver (scheme : String)
  /-- The first cell of a row was to be a text and is of the named SQL type. -/
  | notText (found : String)
  /-- The first cell of a row was to be an integer and is of the named SQL type. -/
  | notInteger (found : String)
  /-- The first cell of a row was to have a value of the named SQL type and is NULL. -/
  | nullCell (wanted : String)
  /-- The first cell of a row was asked for and the row has no cells. -/
  | noCell
deriving DecidableEq, Repr

def SourceFault.message : SourceFault → String
  | .reported text => "encountered unexpected or invalid data: " ++ text
  | .rowNotFound => "no rows returned by a query that expected to return at least one row"
  | .relativeUrl => "error with configuration: relative URL without a base"
  | .noDriver scheme =>
    "error with configuration: no driver found for URL scheme \"" ++ scheme ++ "\""
  | .notText found =>
    "error occurred while decoding column 0: mismatched types; Rust type " ++
      "`alloc::string::String` (as SQL type `TEXT`) is not compatible with SQL type `" ++
      found ++ "`"
  | .notInteger found =>
    "error occurred while decoding column 0: mismatched types; Rust type " ++
      "`i64` (as SQL type `BIGINT`) is not compatible with SQL type `" ++ found ++ "`"
  | .nullCell wanted =>
    "error occurred while decoding column 0: expected " ++ wanted ++ ", got Null(Null)"
  | .noCell => "column index out of bounds: the len is 0, but the index is 0"

/-! ### Faults of a request or a row -/

/-- What is wrong with a field of a request or of a row. -/
inductive Issue where
  | notAnObject
  | paramsNotAnObject
  | notPositive
  | undecodable (mismatch : Json.Mismatch)
  | columnMissing
  | unsupportedOperator (operator : String)
  | unsupportedConnector (connector : String)
  | pageOutOfRange (page : UInt64)
  | noColumns
  | unknownColumn (model : String)
  | required (label : String)
  | tooLong (most : UInt64) (length : Nat)
  | notANumber
  | aboveMost (most : Float)
  | belowLeast (least : Float)
  | invalidRule (cause : String)
  | ruleUnmatched
  | underItself
  | underDescendant
  | absent
deriving DecidableEq, Repr

def Issue.message : Issue → String
  | .notAnObject => "expected a JSON object"
  | .paramsNotAnObject => "must be an object"
  | .notPositive => "must be a positive integer"
  | .undecodable mismatch => mismatch.message
  | .columnMissing => "column_name is required"
  | .unsupportedOperator operator => "unsupported operator " ++ operator
  | .unsupportedConnector connector => "unsupported connector " ++ connector
  | .pageOutOfRange page => "page " ++ Decimal.intText page.toNat ++ " is out of range"
  | .noColumns => "no columns to insert"
  | .unknownColumn model => "not defined in model " ++ model
  | .required label => label ++ " is required"
  | .tooLong most length =>
    "must be at most " ++ Decimal.intText most.toNat ++ " characters (got " ++
      Decimal.intText length ++ ")"
  | .notANumber => "must be a number"
  | .aboveMost most => "must be at most " ++ Decimal.plainStyle.render most
  | .belowLeast least => "must be at least " ++ Decimal.plainStyle.render least
  | .invalidRule cause => "invalid validation rule: " ++ cause
  | .ruleUnmatched => "does not match the validation rule"
  | .underItself => "cannot move a node under itself"
  | .underDescendant => "cannot move a node under its own descendant"
  | .absent => "is required"

/-! ### Faults of a SQL text -/

/-- Why a SQL text is not executed. -/
inductive Hazard where
  | severalStatements
  | dangerousKeyword (keyword : String)
  | unbalancedParentheses
  | unterminatedQuote
deriving DecidableEq, Repr

def Hazard.message : Hazard → String
  | .severalStatements => "multiple SQL statements are not allowed"
  | .dangerousKeyword keyword => "dangerous SQL keyword detected: " ++ keyword
  | .unbalancedParentheses => "unbalanced parentheses in SQL"
  | .unterminatedQuote => "unterminated quote in SQL"

/-! ### Faults of the engine -/

/-- What was looked for in vain. -/
inductive Missing where
  | model (id : String)
  | modelCode (code : String)
  | connection (id : String)
  | parentNode (key : String)
  | template (id : String)
  | templateOfModel (id model : String)
deriving DecidableEq, Repr

/-- The wording of what is missing. -/
def Missing.message : Missing → String
  | .model id => "model " ++ id
  | .modelCode code => "model code " ++ code
  | .connection id => "connection " ++ id
  | .parentNode key => "parent node " ++ key
  | .template id => "query template " ++ id
  | .templateOfModel id owner => "query template " ++ id ++ " for model " ++ owner

/-- Why metadata is not in order. -/
inductive MetadataFault where
  | missingReference (kind id : String)
  | noTable (model : String)
  | duplicateColumn (model column : String)
  | unsupportedKind (kind : String)
  | missingRelation (master detail : String)
  /-- A stored record does not read as a record of its kind. -/
  | unreadable (mismatch : Json.Mismatch)
  /-- There is no table for records of this kind. -/
  | unknownRecordKind (kind : String)
  | duplicateCode (code : String)
  | relationWithoutKey (master detail : String)
  | namedRelationWithoutKey (id : String)
  | notATree (model : String)
  | emptyRawSql (model : String)
deriving DecidableEq, Repr

def MetadataFault.message : MetadataFault → String
  | .missingReference kind id => "missing reference: " ++ kind ++ " id '" ++ id ++ "'"
  | .noTable model => "no table defined for model " ++ model
  | .duplicateColumn model column => "duplicate column '" ++ column ++ "' in model " ++ model
  | .unsupportedKind kind => "unsupported connection kind: " ++ kind
  | .missingRelation master detail =>
    "relation between " ++ master ++ " and " ++ detail ++ " not found"
  | .unreadable mismatch => "metadata load: " ++ mismatch.message
  | .unknownRecordKind kind => "metadata load: unknown metadata kind: " ++ kind
  | .duplicateCode code => "metadata: duplicate model code '" ++ code ++ "'"
  | .relationWithoutKey master detail =>
    "metadata: relation " ++ master ++ " -> " ++ detail ++ " has no foreign key"
  | .namedRelationWithoutKey id => "metadata: relation " ++ id ++ " has no foreign key"
  | .notATree model => "metadata: model " ++ model ++ " is not configured as a tree"
  | .emptyRawSql model => "metadata: raw SQL content is empty for model " ++ model

/-- Why a transaction did not happen. -/
inductive TransactionFault where
  | notBegun (connection : String) (cause : SourceFault)
  | notCommitted (cause : SourceFault)
  | noMasterKey (column : String)
deriving DecidableEq, Repr

def TransactionFault.message : TransactionFault → String
  | .notBegun connection cause => "begin on " ++ connection ++ ": " ++ cause.message
  | .notCommitted cause => "commit: " ++ cause.message
  | .noMasterKey column =>
    "master row carries no " ++ column ++ " value; generated keys are not supported here"

/-- Everything that an operation of the engine can fail with. -/
inductive Fault where
  | metadata (cause : MetadataFault)
  | notFound (what : Missing)
  | invalid (field : String) (issue : Issue)
  /-- A statement, or an attempt to connect, that the datasource refused. -/
  | execution (statement : String) (cause : SourceFault)
  | transaction (cause : TransactionFault)
  | hazard (cause : Hazard)
  /-- A failure of the datasource that holds the metadata. -/
  | database (cause : SourceFault)
deriving DecidableEq, Repr

def Fault.message : Fault → String
  | .metadata cause => cause.message
  | .notFound what => "not found: " ++ what.message
  | .invalid field issue => "field '" ++ field ++ "': " ++ issue.message
  | .execution statement cause =>
    "execution failed for `" ++ statement ++ "`: " ++ cause.message
  | .transaction cause => "transaction: " ++ cause.message
  | .hazard cause => "unsafe sql: " ++ cause.message
  | .database cause => "database: " ++ cause.message

/-- A stable word for callers that show faults to users. -/
def Fault.code : Fault → String
  | .metadata _ => "config_error"
  | .notFound _ => "not_found"
  | .invalid .. => "validation_error"
  | .execution .. => "execution_error"
  | .transaction _ => "transaction_error"
  | .hazard _ => "unsafe_sql"
  -- to users, a row that is not there is not found, wherever that came up
  | .database .rowNotFound => "not_found"
  | .database _ => "database_error"

/-- The field that a fault is about. -/
def Fault.field? : Fault → Option String
  | .invalid field _ => some field
  | _ => none

end MetaQuery
