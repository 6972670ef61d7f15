/-
  MetaQuery/Dialect.lean
  ======================
  SQL dialects and the kinds of datasource that speak them.

  A dialect is three conventions: the character that encloses identifiers, doubled inside them;
  how schema, table and column are put together; and how the n-th argument of a statement is
  written.  A kind of datasource has a dialect and, when a driver can open it, a URL scheme.
-/
import MetaQuery.Text.Blank
import MetaQuery.Text.Pieces
import MetaQuery.Text.Uppercase

namespace MetaQuery

/-! ### Dialects -/

/-- Conventions of SQL texts.  `ansi` serves all kinds outside the two families. -/
inductive Dialect where
  | mysql
  | postgres
  | ansi
deriving DecidableEq, Repr, Inhabited

namespace Dialect

def quoteChar : Dialect → Char
  | .mysql => '\x60'
  | _ => '"'

/-- An identifier between quotes, with the quotes inside it doubled. -/
def quote (d : Dialect) (ident : String) : String :=
  String.ofList (Text.enclose d.quoteChar ident.toList)

/-- A table, qualified by its schema when there is one. -/
def table (d : Dialect) (schema name : String) : String :=
  if schema = "" then d.quote name else d.quote schema ++ "." ++ d.quote name

/-- A column, qualified by its table when there is one. -/
def column (d : Dialect) (table name : String) : String :=
  if table = "" then d.quote name else d.quote table ++ "." ++ d.quote name

/-- The placeholder of the `n`-th argument, counted from one. -/
def placeholder (d : Dialect) (n : Nat) : String :=
  match d with
  | .postgres => String.ofList ('$' :: Nat.toDigits 10 n)
  | _ => "?"

end Dialect

/-! ### Kinds of datasource -/

/-- The kinds of datasource that a connection may name. -/
inductive SourceKind where
  | mysql
  | mariadb
  | tidb
  | oceanbase
  | doris
  | starrocks
  | clickhouse
  | postgres
  | opengauss
  | kingbase
  | sqlite
  | sqlserver
  | oracle
  | dameng
  | mongodb
  | redis
deriving DecidableEq, Repr, Inhabited

namespace SourceKind

/-- The kinds with the names they go by. -/
def names : List (SourceKind × List String) := [
  (.mysql, ["mysql"]),
  (.mariadb, ["mariadb"]),
  (.tidb, ["tidb"]),
  (.oceanbase, ["oceanbase"]),
  (.doris, ["doris"]),
  (.starrocks, ["starrocks"]),
  (.clickhouse, ["clickhouse"]),
  (.postgres, ["postgres", "postgresql", "pg"]),
  (.opengauss, ["opengauss"]),
  (.kingbase, ["kingbase"]),
  (.sqlite, ["sqlite", "sqlite3"]),
  (.sqlserver, ["sqlserver", "sql server", "mssql"]),
  (.oracle, ["oracle"]),
  (.dameng, ["dm", "dameng"]),
  (.mongodb, ["mongodb", "mongo"]),
  (.redis, ["redis"])
]

/-- The kind that a text names, regardless of case and of blanks around it. -/
def ofText? (s : String) : Option SourceKind :=
  (names.find? fun entry => Text.isOneOf (Text.trim s) entry.2).map (·.1)

def dialect : SourceKind → Dialect
  | .mysql | .mariadb | .tidb | .oceanbase | .doris | .starrocks | .clickhouse => .mysql
  | .postgres | .opengauss | .kingbase => .postgres
  | _ => .ansi

/-- The URL scheme of the driver that can open a kind. -/
def scheme? : SourceKind → Option String
  | .mysql | .mariadb | .tidb | .oceanbase | .doris | .starrocks => some "mysql"
  | .postgres | .opengauss | .kingbase => some "postgres"
  | .sqlite => some "sqlite"
  | _ => none

end SourceKind

end MetaQuery
