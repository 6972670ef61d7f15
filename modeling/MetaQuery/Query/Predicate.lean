/-
  MetaQuery/Query/Predicate.lean
  ==============================
  Chains of predicates.  A predicate compares an expression over a column with its operands: the
  values of the condition, or the request parameter that takes their place.  Operands are always
  bound, brought to the type of the column's field; only how many there are shows in the text.
-/
import MetaQuery.Model
import MetaQuery.Query.Expression
import MetaQuery.Query.Fragment
import MetaQuery.Query.Operand

namespace MetaQuery

/-- Named values that come with a request. -/
abbrev Params := List (String × Json)

/-- The items of a list written with commas; blanks around them and empty items do not count. -/
def listItems (s : String) : List String :=
  (((Text.splitBy (· == ',') s.toList).map Text.trimBlanks).filter (!·.isEmpty)).map String.ofList

/-! ### Operands -/

/-- What a condition is compared with, by its operator. -/
inductive Operands where
  | nothing
  | items (negated : Bool) (values : List Cell)
  | range (lower upper : Cell)
  | one (value : Cell)
deriving DecidableEq, Repr

/-- A value of the catalog, brought to the type of a field. -/
def ownOperand (field : Option FieldEntry) (s : String) : Cell := coerceTo field (.text s)

/-- A value of a request, brought to the type of a field. -/
def givenOperand (field : Option FieldEntry) (v : Json) : Cell := coerceTo field (Cell.ofJson v)

/-- The parameter that takes the place of the condition's values. -/
def Condition.bound? (w : Condition) (params : Params) : Option Json :=
  if w.param = "" then none else Json.lookup w.param params

/-- The items of a list operator: an array gives its elements, anything else is a text with
    commas. -/
def itemOperands (field : Option FieldEntry) (value : String) : Option Json → List Cell
  | some (.arr items) => items.map (givenOperand field)
  | some v => (listItems (Cell.ofJson v).display).map (ownOperand field)
  | none => (listItems value).map (ownOperand field)

/-- A bound of a range that is given as an object. -/
def rangeBound (field : Option FieldEntry) (name fallback : String)
    (members : List (String × Json)) : Cell :=
  match Json.lookup name members with
  | some v => givenOperand field v
  | none => ownOperand field fallback

/-- The bounds of a range: two array elements, the members `min` and `max`, or a lower bound. -/
def rangeOperands (field : Option FieldEntry) (w : Condition) : Option Json → Cell × Cell
  | some (.arr (lower :: upper :: _)) => (givenOperand field lower, givenOperand field upper)
  | some (.obj members) =>
    (rangeBound field "min" w.value members, rangeBound field "max" w.upper members)
  | some (.arr _) => (ownOperand field w.value, ownOperand field w.upper)
  | none => (ownOperand field w.value, ownOperand field w.upper)
  | some v => (givenOperand field v, ownOperand field w.upper)

/-- The pattern of a search for a text anywhere in a column. -/
def likePattern (w : Condition) (bound : Option Json) : Cell :=
  let inner := match bound with
    | some v => (Cell.ofJson v).display
    | none => w.value
  .text ("%" ++ inner ++ "%")

def operands (field : Option FieldEntry) (w : Condition) (bound : Option Json)
    (operator : String) : Operands :=
  if operator = "IS NULL" ∨ operator = "IS NOT NULL" then .nothing
  else if operator = "IN" then .items false (itemOperands field w.value bound)
  else if operator = "NOT IN" then .items true (itemOperands field w.value bound)
  else if operator = "BETWEEN" ∨ operator = "NOT BETWEEN" then
    let (lower, upper) := rangeOperands field w bound
    .range lower upper
  else if operator = "LIKE" ∨ operator = "NOT LIKE" then .one (likePattern w bound)
  -- a parameter that is given takes the place of the condition's own value
  else match bound with
    | some v => .one (givenOperand field v)
    | none => .one (ownOperand field w.value)

/-! ### Predicates -/

/-- Arguments with commas between them. -/
def listed (f : Fragment) : List Cell → Fragment
  | [] => f
  | [v] => f.putArg v
  | v :: r => listed ((f.putArg v).putText ", ") r

/-- A comparison with its operands.  Nothing is in an empty list and everything is outside of
    it, so there the comparison is a constant. -/
def comparison (left operator : String) : Operands → Fragment
  | .nothing => .ofText (left ++ " " ++ operator)
  | .items negated [] => .ofText (if negated then "1 = 1" else "1 = 0")
  | .items _ values => (listed (.ofText (left ++ " " ++ operator ++ " (")) values).putText ")"
  | .range lower upper =>
    (((Fragment.ofText (left ++ " " ++ operator ++ " ")).putArg lower).putText " AND ").putArg upper
  | .one value => (Fragment.ofText (left ++ " " ++ operator ++ " ")).putArg value

def Model.predicate (m : Model) (params : Params) (w : Condition) : Fragment :=
  let operator := operatorText w.operator
  comparison (applyFunction w.function (m.dialect.column w.table w.column)) operator
    (operands (m.fieldOf? w.table w.column) w (w.bound? params) operator)

/-- A predicate with its brackets, put behind a fragment. -/
def Model.putPredicate (m : Model) (params : Params) (f : Fragment) (w : Condition) : Fragment :=
  ((f.putText w.opening).append (m.predicate params w)).putText w.closing

/-- A chain of predicates; the connector of the first one is not used. -/
def Model.chain (m : Model) (params : Params) : List Condition → Fragment
  | [] => .empty
  | w :: r => r.foldl
      (fun f v => m.putPredicate params (f.putText (" " ++ connectorText v.connector ++ " ")) v)
      (m.putPredicate params .empty w)

end MetaQuery
