/-
  MetaQuery/Query/Select.lean
  ===========================
  A SELECT by its clauses, written as the query for the rows of one page or as the query for the
  number of all rows.  Both share one body, so they share their arguments: the count wraps the
  body, and the data query puts the order and the page behind it.

  Predicates of two kinds restrict the rows: the group that the metadata describes, which may mix
  AND and OR, and predicates required beside it, each joined by AND with the group in
  parentheses.
-/
import MetaQuery.Query.Fragment

namespace MetaQuery

/-- A stretch of rows: how many at most, and how many before them. -/
structure Window where
  limit : UInt64
  offset : UInt64
deriving DecidableEq, Repr

/-- A SELECT by its clauses. -/
structure Select where
  dialect : Dialect
  /-- What is selected; all columns when empty. -/
  columns : List String
  source : Fragment
  joins : List String
  /-- The group of predicates that the metadata describes. -/
  filter : Fragment
  /-- Predicates required beside the group. -/
  required : List Fragment
  groups : List String
  having : Fragment
  orders : List String
  window : Option Window
deriving DecidableEq, Repr

namespace Select

/-- All columns of all rows of a source. -/
def all (d : Dialect) (source : Fragment) : Select where
  dialect := d
  columns := []
  source := source
  joins := []
  filter := .empty
  required := []
  groups := []
  having := .empty
  orders := []
  window := none

/-- The query with one more required predicate; the empty one changes nothing. -/
def require (q : Select) (predicate : Fragment) : Select :=
  if predicate.isEmpty then q else { q with required := q.required ++ [predicate] }

def projection (q : Select) : String :=
  if q.columns.isEmpty then "*" else Text.joinWith ", " q.columns

/-- A clause of listed expressions, written only when there are any. -/
def listClause (word : String) (items : List String) : String :=
  if items.isEmpty then "" else word ++ Text.joinWith ", " items

/-- The required predicates, joined by AND. -/
def writeRequired (st : Statement) : List Fragment → Statement
  | [] => st
  | [p] => p.write st
  | p :: r => writeRequired ((p.write st).put " AND ") r

def writeWhere (q : Select) (st : Statement) : Statement :=
  if q.required.isEmpty then
    if q.filter.isEmpty then st else q.filter.write (st.put " WHERE ")
  else
    let st := st.put " WHERE "
    let st := if q.filter.isEmpty then st else (q.filter.write (st.put "(")).put ") AND "
    writeRequired st q.required

/-- Everything before the order and the page. -/
def writeBody (q : Select) (st : Statement) : Statement :=
  let st := (st.put ("SELECT " ++ q.projection)).put " FROM "
  let st := q.source.write st
  let st := st.put (String.join (q.joins.map (" " ++ ·)))
  let st := q.writeWhere st
  let st := st.put (listClause " GROUP BY " q.groups)
  if q.having.isEmpty then st else q.having.write (st.put " HAVING ")

/-- The page. -/
def windowText : Option Window → String
  | none => ""
  | some w =>
    if w.offset = 0 then " LIMIT " ++ Decimal.intText w.limit.toNat
    else " LIMIT " ++ Decimal.intText w.limit.toNat ++ " OFFSET " ++
      Decimal.intText w.offset.toNat

/-- What follows the body in the query for rows. -/
def tail (q : Select) : String := listClause " ORDER BY " q.orders ++ windowText q.window

/-- The query for the rows of the page. -/
def statement (q : Select) : Statement := (q.writeBody (.start q.dialect)).put q.tail

/-- The query for the number of all rows; it has the same arguments. -/
def countStatement (q : Select) : Statement :=
  (q.writeBody ((Statement.start q.dialect).put "SELECT COUNT(*) FROM (")).put ") AS total_rows"

end Select

end MetaQuery
