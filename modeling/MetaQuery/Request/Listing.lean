/-
  MetaQuery/Request/Listing.lean
  ==============================
  Requests that list rows: a page, a template, filters, and all other members as parameters.

  A filter compares a column with values by one of a few operators and becomes a condition of the
  model's chain.  Filters stand behind the chain, which is put into brackets first when it has
  several predicates, so that a filter restricts all of it.
-/
import MetaQuery.Query.Page
import MetaQuery.Record
import MetaQuery.Settings

namespace MetaQuery

/-- The row that a document is; only objects are rows. -/
def Record.ofJson : Json → Except Fault Record
  | .obj members => .ok (Record.ofMembers members)
  | _ => .error (.invalid "data" .notAnObject)

/-! ### Filters -/

/-- A filter of a request. -/
structure Filter where
  table : String := ""
  column : String
  operator : String := ""
  value : Json := .null
  upper : Json := .null
  connector : String := ""
deriving BEq, Repr, Inhabited

def Filter.layout : Json.Layout Filter where
  name := "Filter"
  blank := ⟨"", "", "", .null, .null, ""⟩
  columns := [
    .may "table_name" Json.stringCoder (·.table) fun a r => { r with table := a },
    .must "column_name" Json.stringCoder (·.column) fun a r => { r with column := a },
    .may "operator" Json.stringCoder (·.operator) fun a r => { r with operator := a },
    .may "value" Json.anyCoder (·.value) fun a r => { r with value := a },
    .may "value2" Json.anyCoder (·.upper) fun a r => { r with upper := a },
    .may "connector" Json.stringCoder (·.connector) fun a r => { r with connector := a }]

def filterOperators : List String := [
  "=", "!=", "<>", ">", ">=", "<", "<=", "LIKE", "NOT LIKE", "IN", "NOT IN", "BETWEEN",
  "NOT BETWEEN", "IS NULL", "IS NOT NULL"]

mutual

/-- The text of an operand; an array is written with commas. -/
def operandText : Json → String
  | .null => ""
  | .str s => s
  | .arr items => Text.joinWith "," (operandTexts items)
  | .bool b => (Json.bool b).text
  | .int i => (Json.int i).text
  | .float x => (Json.float x).text
  | .obj members => (Json.obj members).text

def operandTexts : List Json → List String
  | [] => []
  | j :: r => operandText j :: operandTexts r

end

namespace Filter

/-- The operator takes two bounds. -/
def isRange (operator : String) : Bool := operator == "BETWEEN" || operator == "NOT BETWEEN"

/-- The texts of the operands; an array of two is a range. -/
def valueTexts (f : Filter) (operator : String) : String × String :=
  match f.value, isRange operator with
  | .arr (lower :: upper :: _), true => (operandText lower, operandText upper)
  | v, _ => (operandText v, operandText f.upper)

/-- The operator of the filter, if filters may have it. -/
def knownOperator (f : Filter) : Except Fault String :=
  let operator := operatorText f.operator
  if filterOperators.contains operator then .ok operator
  else .error (.invalid "filters" (.unsupportedOperator operator))

/-- The connector of the filter, if it is one. -/
def knownConnector (f : Filter) : Except Fault String :=
  let connector := connectorText f.connector
  if connector = "AND" ∨ connector = "OR" then .ok connector
  else .error (.invalid "filters" (.unsupportedConnector connector))

/-- The filter as a condition. -/
def condition (f : Filter) : Except Fault Condition := do
  if Text.trim f.column = "" then throw (.invalid "filters" .columnMissing)
  let operator ← f.knownOperator
  let connector ← f.knownConnector
  let (value, upper) := f.valueTexts operator
  return { connector, table := f.table, column := f.column, operator, value, upper }

end Filter

/-- The last condition with a closing bracket. -/
def closeLast : List Condition → List Condition
  | [] => []
  | [w] => [{ w with closing := w.closing ++ ")" }]
  | w :: r => w :: closeLast r

/-- A chain in brackets; a chain of one predicate needs none. -/
def groupChain : List Condition → List Condition
  | w :: v :: r => { w with opening := "(" ++ w.opening } :: closeLast (v :: r)
  | ws => ws

/-! ### Requests -/

/-- A request that lists or counts rows. -/
structure ListRequest where
  page : Option UInt64 := none
  pageSize : Option UInt64 := none
  template : Option String := none
  filters : List Filter := []
  params : Params := []
deriving BEq, Repr, Inhabited

/-- A positive number of a request; null is none. -/
def positive (name : String) : Json → Except Fault (Option UInt64)
  -- NULL asks for nothing
  | .null => .ok none
  | v =>
    let n : Option UInt64 := match v with
      | .str s => Decimal.uint64? (Text.trimBlanks s.toList)
      | v => v.word?
    match n with
    | some n => if 0 < n then .ok (some n) else .error (.invalid name .notPositive)
    | none => .error (.invalid name .notPositive)

/-- The template that a member names. -/
def templateChoice : Json → Option String
  | .str s => if s = "" then none else some s
  | _ => none

namespace ListRequest

def addMember (r : ListRequest) (name : String) (v : Json) : Except Fault ListRequest :=
  if name = "page" then
    (positive name v).map fun page => { r with page := page }
  else if name = "page_size" ∨ name = "limit" then
    -- the first of the two names that gives a size counts
    (positive name v).map fun size => { r with pageSize := r.pageSize.or size }
  else if name = "query_template_id" then .ok { r with template := templateChoice v }
  else if name = "filters" then
    match (Json.listCoder Filter.layout.coder).ofJson v with
    | .ok filters => .ok { r with filters := filters }
    | .error mismatch => .error (.invalid "filters" (.undecodable mismatch))
  else .ok { r with params := Json.put name v r.params }

def ofJson : Json → Except Fault ListRequest
  | .null => .ok {}
  | .obj members => members.foldlM (fun r m => r.addMember m.1 m.2) {}
  | _ => .error (.invalid "params" .paramsNotAnObject)

/-- The page size that a request asks of a model: its own, within the limit; or the default one,
    when it names a page of a model that has no page size. -/
def chosenSize (r : ListRequest) (settings : Settings) (m : Model) : Option UInt64 :=
  match r.pageSize, r.page with
  | some size, _ => some (min size settings.maxPageSize)
  | none, some _ => if m.limit.isNone then some settings.defaultPageSize else none
  | none, none => none

/-- The parameters that a model is compiled with. -/
def compileParams (r : ListRequest) (settings : Settings) (m : Model) : Params :=
  let params := match r.chosenSize settings m with
    | some size => Json.put "page_size" (.int size.toNat) r.params
    | none => r.params
  match r.page with
  | some page => Json.put "page" (.int page.toNat) params
  | none => params

/-- The model restricted by the filters of the request. -/
def restrict (r : ListRequest) (m : Model) : Except Fault Model :=
  if r.filters.isEmpty then .ok m
  else do
    let conditions ← r.filters.mapM (·.condition)
    return { m with conditions := groupChain m.conditions ++ conditions }

end ListRequest

end MetaQuery
