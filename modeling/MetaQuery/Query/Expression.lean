/-
  MetaQuery/Query/Expression.lean
  ===============================
  Expressions over columns: a column, put into its function, put into its aggregate.  The texts
  of functions come from the catalog and are trusted; columns and aliases are always quoted.
-/
import MetaQuery.Catalog.Entry
import MetaQuery.Dialect

namespace MetaQuery

/-- A function applied to an expression: a template has its holes filled, a name gets the
    expression in parentheses, and where there is no function the expression stays. -/
def applyFunction (function expr : String) : String :=
  let name := Text.trimBlanks function.toList
  if name.isEmpty then expr
  else if Text.hasHole name then String.ofList (Text.fillHoles expr.toList name)
  else String.ofList name ++ "(" ++ expr ++ ")"

/-- A function that is blank is none. -/
theorem applyFunction_of_blank {function : String} (h : Text.trim function = "") (expr : String) :
    applyFunction function expr = expr := by
  have hname : Text.trimBlanks function.toList = [] := by
    rw [← Text.toList_trim, h]
    rfl
  rw [applyFunction, hname]
  rfl

/-- A word that an entry may leave out, in upper case and without the blanks around it. -/
def keyword (fallback s : String) : String :=
  let word := Text.upper (Text.trim s)
  if word = "" then fallback else word

/-- What joins a predicate to the one before it. -/
def connectorText (s : String) : String := keyword "AND" s

/-- What a predicate compares with. -/
def operatorText (s : String) : String := keyword "=" s

/-- The name that a projected field has in the rows. -/
def FieldEntry.outputName (f : FieldEntry) : String :=
  if f.shownAs = "" then f.column else f.shownAs

/-- A field in the projection: named when it is more than a column of that name. -/
def FieldEntry.projection (d : Dialect) (f : FieldEntry) : String :=
  let inner := applyFunction f.function (d.column f.table f.column)
  let aggregate := Text.trim f.aggregate
  let expr := if aggregate = "" then inner else Text.upper aggregate ++ "(" ++ inner ++ ")"
  if Text.trim f.function ≠ "" ∨ aggregate ≠ "" ∨ f.outputName ≠ f.column then
    expr ++ " AS " ++ d.quote f.outputName
  else expr

def GroupEntry.expression (d : Dialect) (g : GroupEntry) : String :=
  applyFunction g.function (d.column g.table g.column)

/-- An expression to order by, with its direction; ascending unless said otherwise. -/
def OrderEntry.expression (d : Dialect) (o : OrderEntry) : String :=
  applyFunction o.function (d.column o.table o.column) ++
    (if keyword "" o.direction = "DESC" then " DESC" else " ASC")

end MetaQuery
