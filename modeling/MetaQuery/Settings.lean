/-
  MetaQuery/Settings.lean
  =======================
  Settings of the engine.  Each has a default; a variable of the environment that is set and
  reads as a number of the right size replaces it.
-/
import MetaQuery.Decimal.Reader
import MetaQuery.Text.Blank

namespace MetaQuery

/-- Settings of the engine. -/
structure Settings where
  /-- What the names of the metadata tables start with. -/
  tablePrefix : String := "_sys_md"
  /-- How many connections a datasource may have open. -/
  maxConnections : UInt32 := 5
  /-- Statements that take longer, in milliseconds, are slow. -/
  slowQuery : UInt64 := 1000
  /-- How many rows a tree is built from at most. -/
  treePageSize : UInt64 := 10000
  defaultPageSize : UInt64 := 20
  maxPageSize : UInt64 := 10000
deriving DecidableEq, Repr, Inhabited

namespace Settings

/-- A number from the environment. -/
def number {α : Type} (read : List Char → Option α) (text : Option String) (fallback : α) : α :=
  match text with
  | some s => (read (Text.trimBlanks s.toList)).getD fallback
  | none => fallback

def ofEnvironment (value? : String → Option String) : Settings where
  tablePrefix := (value? "MDE_SYS_PREFIX").getD "_sys_md"
  maxConnections := number Decimal.uint32? (value? "MDE_MAX_CONNECTIONS") 5
  slowQuery := number Decimal.uint64? (value? "MDE_SLOW_QUERY_MS") 1000
  treePageSize := number Decimal.uint64? (value? "MDE_TREE_PAGE_SIZE") 10000
  defaultPageSize := number Decimal.uint64? (value? "MDE_DEFAULT_PAGE_SIZE") 20
  maxPageSize := number Decimal.uint64? (value? "MDE_MAX_PAGE_SIZE") 10000

/-- The name of the metadata table for a kind of entries. -/
def tableName (s : Settings) (kind : String) : String := s.tablePrefix ++ "_" ++ kind

end Settings

end MetaQuery
