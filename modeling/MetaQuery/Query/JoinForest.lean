/-
  MetaQuery/Query/JoinForest.lean
  ===============================
  Joins in the order in which they are written: each behind the join that it builds on, depth
  first, siblings in their order.  A join whose chain of parents does not end at the main table
  is not written, and no id is written twice, whatever the parents are.
-/
import MetaQuery.Query.Expression

namespace MetaQuery

namespace JoinPair

/-- The comparison of the two columns. -/
def comparison (d : Dialect) (j : JoinEntry) (p : JoinPair) : String :=
  let operator := Text.trim p.operator
  p.opening ++ applyFunction p.function (d.column j.table p.column) ++ " " ++
    (if operator = "" then "=" else operator) ++ " " ++
    applyFunction p.joinedFunction (d.column j.joinedTable p.joinedColumn) ++ p.closing

end JoinPair

namespace JoinEntry

/-- The kind of the join: its words in upper case, ended by JOIN. -/
def kindText (j : JoinEntry) : String :=
  let kind := keyword "JOIN" j.type
  if "JOIN".toList.isSuffixOf kind.toList then kind else kind ++ " JOIN"

/-- The comparisons, each joined to those before it. -/
def pairsText (d : Dialect) (j : JoinEntry) : String :=
  match j.pairs with
  | [] => ""
  | p :: r => p.comparison d j ++
    String.join (r.map fun q => " " ++ connectorText q.connector ++ " " ++ q.comparison d j)

/-- What the join compares: its pairs of columns, or else its text. -/
def onText (d : Dialect) (j : JoinEntry) : String :=
  if j.pairs.isEmpty then Text.trim j.on else j.pairsText d

def render (d : Dialect) (j : JoinEntry) : String :=
  let on := j.onText d
  j.kindText ++ " " ++ d.table j.joinedSchema j.joinedTable ++
    (if on = "" then "" else " ON " ++ on)

/-- The join that this one builds on; `0` is the main table. -/
def parentId (j : JoinEntry) : String := if j.parent = "" then "0" else j.parent

end JoinEntry

/-- The joins that build on a join. -/
def joinsUnder (pool : List JoinEntry) (parent : String) : List JoinEntry :=
  pool.filter (·.parentId == parent)

def joinsWithout (pool : List JoinEntry) (id : String) : List JoinEntry :=
  pool.filter (·.id != id)

theorem length_joinsWithout_lt {pool : List JoinEntry} {id : String}
    (h : (pool.any (·.id == id)) = true) : (joinsWithout pool id).length < pool.length := by
  obtain ⟨j, hj, hid⟩ := List.any_eq_true.1 h
  exact List.length_filter_lt_length_iff_exists.2 ⟨j, hj, by simpa using hid⟩

/-- Depth first through the joins; `pool` are those whose ids have not been written, `pending`
    are the next ones in order. -/
def walkJoins (pool : List JoinEntry) : List JoinEntry → List JoinEntry
  | [] => []
  | j :: pending =>
    if _h : pool.any (·.id == j.id) then
      -- a join leaves the pool when it is walked, so a loop of parents ends
      j :: walkJoins (joinsWithout pool j.id)
        (joinsUnder (joinsWithout pool j.id) j.id ++ pending)
    else walkJoins pool pending
termination_by pending => (pool.length, pending.length)
decreasing_by
  · exact Prod.Lex.left _ _ (length_joinsWithout_lt _h)
  · exact Prod.Lex.right _ (by simp)

/-- The joins in the order in which they are written. -/
def orderedJoins (joins : List JoinEntry) : List JoinEntry :=
  walkJoins joins (joinsUnder joins "0")

end MetaQuery
