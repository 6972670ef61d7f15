/-
  MetaQuery/Service/Answer.lean
  =============================
  What callers are handed: pages of rows, and the envelope that answers are put in.
-/
import MetaQuery.Query.Select
import MetaQuery.Record

namespace MetaQuery

/-! ### Pages -/

/-- A page of rows. -/
structure Page where
  rows : List Record
  /-- How many rows there are on all pages. -/
  total : Int64
  /-- The number of the page, counted from one. -/
  number : UInt64
  /-- How many rows a page has; zero when all rows are on one. -/
  size : UInt64
deriving DecidableEq, Repr

/-- The page that a stretch of rows is. -/
def Page.of (rows : List Record) (total : Int64) : Option Window → Page
  | some w => if 0 < w.limit then ⟨rows, total, w.offset / w.limit + 1, w.limit⟩
    else ⟨rows, total, 1, 0⟩
  | none => ⟨rows, total, 1, 0⟩

def Page.toJson (p : Page) : Json := .obj [
  ("data", .arr (p.rows.map Record.toJson)), ("total", .int p.total.toInt),
  ("page", .int p.number.toNat), ("page_size", .int p.size.toNat)]

/-! ### Envelopes -/

/-- An answer, with what is told about it. -/
structure Envelope where
  content : Json
  about : Option Json := none
deriving BEq, Repr, Inhabited

/-- An envelope as JSON; nothing stands for nothing told. -/
def Envelope.toJson (e : Envelope) : Json :=
  .obj (("data", e.content) :: match e.about with
    | some j => [("meta", j)]
    | none => [])

end MetaQuery
