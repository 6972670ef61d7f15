/-
  MetaQuery/Query/Page.lean
  =========================
  Which stretch of the rows a query takes.  The model may name a page and a page size; positive
  numbers of the request go before them.  Without a page size there is no page.  Both numbers of
  the stretch must fit a signed word, which is what datasources take.
-/
import MetaQuery.Query.Predicate
import MetaQuery.Query.Select

namespace MetaQuery

/-- A positive number of a request: a number, rounded down, or a text that spells one. -/
def positiveParam? (params : Params) (name : String) : Option UInt64 :=
  let n : Option UInt64 := match Json.lookup name params with
    | some (.int i) => (Json.int i).word?
    | some (.float x) => if 1.0 ≤ x then some (Decimal.toUInt64 x) else none
    | some (.str s) => Decimal.uint64? (Text.trimBlanks s.toList)
    | _ => none
  n.filter (0 < ·)

/-- The greatest number that a datasource takes. -/
def windowMax : Nat := 0x7fffffffffffffff

/-- The stretch of a page; pages count from one, and page zero is the first as well. -/
def windowOf (page limit : UInt64) : Except Fault (Option Window) :=
  let offset := (page.toNat - 1) * limit.toNat
  if limit = 0 then .ok none
  else if limit.toNat ≤ windowMax ∧ offset ≤ windowMax then
    .ok (some ⟨limit, UInt64.ofNat offset⟩)
  else .error (.invalid "page" (.pageOutOfRange page))

/-- The size of a page: of the request, else of the model. -/
def Model.pageSize (m : Model) (params : Params) : UInt64 :=
  ((positiveParam? params "page_size").or (positiveParam? params "limit")).getD
    (match m.limit with
      | some l => l.limit
      | none => 0)

/-- The number of the page: of the request, else of the model. -/
def Model.pageNumber (m : Model) (params : Params) : UInt64 :=
  (positiveParam? params "page").getD
    (match m.limit with
      | some l => l.page
      | none => 0)

/-- The stretch of rows that a request takes from a model. -/
def Model.window (m : Model) (params : Params) : Except Fault (Option Window) :=
  windowOf (m.pageNumber params) (m.pageSize params)

end MetaQuery
