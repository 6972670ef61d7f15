/-
  MetaQuery/Catalog/Entry.lean
  ============================
  Entries of a catalog: the records from which models are put together.

  A model owns tables, fields, conditions, joins, orders, groups, a page and a raw text, each an
  entry of its own that names the model by its id.  Templates bring further conditions, relations
  tie a master model to its details, connections name datasources.  An entry is plain data; what
  belongs together is worked out when a model is resolved.

  Texts are empty where nothing is said.  The `blank` records are what reading starts from, so
  their values are what a missing member means.
-/
import MetaQuery.Json.Shape
import MetaQuery.Text.Uppercase

namespace MetaQuery

open Json (Column Coder Layout stringCoder flagCoder floatCoder wordCoder sizeCoder portCoder
  listCoder variantCoder)

/-! ### Models -/

/-- How a model gets its rows. -/
inductive ModelKind where
  | table
  | view
  /-- From a text written by hand. -/
  | sql
  | procedure
  | join
deriving DecidableEq, Repr, Inhabited

def ModelKind.name : ModelKind → String
  | .table => "table"
  | .view => "view"
  | .sql => "sql"
  | .procedure => "procedure"
  | .join => "join"

/-- Kinds, written by name. -/
def ModelKind.coder : Coder ModelKind :=
  variantCoder (([.table, .view, .sql, .procedure, .join] : List ModelKind).map
    fun k => (k.name, k)) ModelKind.name

/-- A model. -/
structure ModelEntry where
  id : String
  code : String
  name : String := ""
  connection : String := ""
  kind : ModelKind := .table
  isTree : Bool := false
  parentField : String := ""
  pathField : String := ""
  levelField : String := ""
deriving DecidableEq, Repr, Inhabited

def ModelEntry.layout : Layout ModelEntry where
  name := "ModelConfig"
  blank := ⟨"", "", "", "", .table, false, "", "", ""⟩
  columns := [
    .must "id" stringCoder (·.id) fun a r => { r with id := a },
    .must "code" stringCoder (·.code) fun a r => { r with code := a },
    .may "name" stringCoder (·.name) fun a r => { r with name := a },
    .may "conn_id" stringCoder (·.connection) fun a r => { r with connection := a },
    .may "kind" ModelKind.coder (·.kind) fun a r => { r with kind := a },
    .may "is_tree" flagCoder (·.isTree) fun a r => { r with isTree := a },
    .may "tree_parent_field" stringCoder (·.parentField) fun a r => { r with parentField := a },
    .may "tree_path_field" stringCoder (·.pathField) fun a r => { r with pathField := a },
    .may "tree_level_field" stringCoder (·.levelField) fun a r => { r with levelField := a }]

/-! ### Tables and fields -/

/-- A table of a model. -/
structure TableEntry where
  id : String
  model : String
  connection : String := ""
  schema : String := ""
  name : String
  isMain : Bool := false
deriving DecidableEq, Repr, Inhabited

def TableEntry.layout : Layout TableEntry where
  name := "ModelTableConfig"
  blank := ⟨"", "", "", "", "", false⟩
  columns := [
    .must "id" stringCoder (·.id) fun a r => { r with id := a },
    .must "model_id" stringCoder (·.model) fun a r => { r with model := a },
    .may "conn_id" stringCoder (·.connection) fun a r => { r with connection := a },
    .may "schema" stringCoder (·.schema) fun a r => { r with schema := a },
    .must "table_name" stringCoder (·.name) fun a r => { r with name := a },
    .may "is_main" flagCoder (·.isMain) fun a r => { r with isMain := a }]

/-- A field of a model: a column, how it is projected, and what its values must be. -/
structure FieldEntry where
  id : String
  model : String
  /-- The table of the column; empty when the column is not qualified. -/
  table : String := ""
  column : String
  title : String := ""
  /-- The name of the column in the projection. -/
  shownAs : String := ""
  /-- A function of the column: a template with holes, or a name. -/
  function : String := ""
  aggregate : String := ""
  /-- The name of the logical type. -/
  type : String := ""
  nullable : Bool := true
  isKey : Bool := false
  isAutomatic : Bool := false
  maxLength : UInt64 := 0
  least : Float := 0.0
  most : Float := 0.0
  /-- A pattern that textual values must match. -/
  rule : String := ""
deriving DecidableEq, Repr, Inhabited

def FieldEntry.layout : Layout FieldEntry where
  name := "ModelFieldConfig"
  blank := ⟨"", "", "", "", "", "", "", "", "", true, false, false, 0, 0.0, 0.0, ""⟩
  columns := [
    .must "id" stringCoder (·.id) fun a r => { r with id := a },
    .must "model_id" stringCoder (·.model) fun a r => { r with model := a },
    .may "table_name" stringCoder (·.table) fun a r => { r with table := a },
    .must "column_name" stringCoder (·.column) fun a r => { r with column := a },
    .may "title" stringCoder (·.title) fun a r => { r with title := a },
    .may "alias" stringCoder (·.shownAs) fun a r => { r with shownAs := a },
    .may "func" stringCoder (·.function) fun a r => { r with function := a },
    .may "agg_func" stringCoder (·.aggregate) fun a r => { r with aggregate := a },
    .may "field_type" stringCoder (·.type) fun a r => { r with type := a },
    .may "nullable" flagCoder (·.nullable) fun a r => { r with nullable := a },
    .may "is_primary_key" flagCoder (·.isKey) fun a r => { r with isKey := a },
    .may "is_auto_increment" flagCoder (·.isAutomatic) fun a r => { r with isAutomatic := a },
    .may "max_length" sizeCoder (·.maxLength) fun a r => { r with maxLength := a },
    .may "min" floatCoder (·.least) fun a r => { r with least := a },
    .may "max" floatCoder (·.most) fun a r => { r with most := a },
    .may "validation_rule" stringCoder (·.rule) fun a r => { r with rule := a }]

namespace FieldEntry

/-- A row must bring a value: the column is not nullable and the datasource does not fill it. -/
def isRequired (f : FieldEntry) : Bool := !f.nullable && !f.isAutomatic

def isInteger (f : FieldEntry) : Bool :=
  Text.isOneOf f.type ["integer", "int", "long", "bigint", "smallint"]

def isNumeric (f : FieldEntry) : Bool :=
  f.isInteger || Text.isOneOf f.type ["decimal", "float", "double", "numeric"]

def isBoolean (f : FieldEntry) : Bool := Text.isOneOf f.type ["boolean", "bool"]

def isTextual (f : FieldEntry) : Bool :=
  Text.isOneOf f.type ["string", "text", "varchar", "char"]

def label (f : FieldEntry) : String := if f.title = "" then f.column else f.title

end FieldEntry

/-! ### Conditions -/

/-- A predicate of a chain: of a model, of a template, or of a request. -/
structure Condition where
  id : String := ""
  model : String := ""
  /-- What joins the predicate to the one before; empty means AND. -/
  connector : String := ""
  /-- What stands before the predicate. -/
  opening : String := ""
  table : String := ""
  column : String
  function : String := ""
  /-- The comparison; empty means equality. -/
  operator : String := ""
  value : String := ""
  /-- The second bound of a range. -/
  upper : String := ""
  /-- The request parameter that takes the place of the values. -/
  param : String := ""
  /-- What stands behind the predicate. -/
  closing : String := ""
deriving DecidableEq, Repr, Inhabited

def Condition.layout : Layout Condition where
  name := "ModelWhereConfig"
  blank := ⟨"", "", "", "", "", "", "", "", "", "", "", ""⟩
  columns := [
    .may "id" stringCoder (·.id) fun a r => { r with id := a },
    .may "model_id" stringCoder (·.model) fun a r => { r with model := a },
    .may "operator1" stringCoder (·.connector) fun a r => { r with connector := a },
    .may "brackets1" stringCoder (·.opening) fun a r => { r with opening := a },
    .may "table_name" stringCoder (·.table) fun a r => { r with table := a },
    .must "column_name" stringCoder (·.column) fun a r => { r with column := a },
    .may "func" stringCoder (·.function) fun a r => { r with function := a },
    .may "operator2" stringCoder (·.operator) fun a r => { r with operator := a },
    .may "value1" stringCoder (·.value) fun a r => { r with value := a },
    .may "value2" stringCoder (·.upper) fun a r => { r with upper := a },
    .may "param_key" stringCoder (·.param) fun a r => { r with param := a },
    .may "brackets2" stringCoder (·.closing) fun a r => { r with closing := a }]

/-! ### Joins -/

/-- A pair of columns that a join compares. -/
structure JoinPair where
  connector : String := ""
  opening : String := ""
  column : String
  function : String := ""
  operator : String := ""
  joinedColumn : String
  joinedFunction : String := ""
  closing : String := ""
deriving DecidableEq, Repr, Inhabited

def JoinPair.layout : Layout JoinPair where
  name := "JoinFieldConfig"
  blank := ⟨"", "", "", "", "", "", "", ""⟩
  columns := [
    .may "operator1" stringCoder (·.connector) fun a r => { r with connector := a },
    .may "brackets1" stringCoder (·.opening) fun a r => { r with opening := a },
    .must "column_name" stringCoder (·.column) fun a r => { r with column := a },
    .may "func" stringCoder (·.function) fun a r => { r with function := a },
    .may "operator2" stringCoder (·.operator) fun a r => { r with operator := a },
    .must "join_column_name" stringCoder (·.joinedColumn) fun a r => { r with joinedColumn := a },
    .may "join_func" stringCoder (·.joinedFunction) fun a r => { r with joinedFunction := a },
    .may "brackets2" stringCoder (·.closing) fun a r => { r with closing := a }]

/-- A join of a model.  Joins form a forest by their parents. -/
structure JoinEntry where
  id : String
  model : String
  /-- The join that this one builds on; `0` or empty when it builds on the main table. -/
  parent : String := ""
  type : String := ""
  table : String := ""
  joinedSchema : String := ""
  joinedTable : String
  /-- The condition, for a join without pairs of columns. -/
  on : String := ""
  pairs : List JoinPair := []
deriving DecidableEq, Repr, Inhabited

def JoinEntry.layout : Layout JoinEntry where
  name := "ModelJoinConfig"
  blank := ⟨"", "", "", "", "", "", "", "", []⟩
  columns := [
    .must "id" stringCoder (·.id) fun a r => { r with id := a },
    .must "model_id" stringCoder (·.model) fun a r => { r with model := a },
    .may "parent_id" stringCoder (·.parent) fun a r => { r with parent := a },
    .may "join_type" stringCoder (·.type) fun a r => { r with type := a },
    .may "table_name" stringCoder (·.table) fun a r => { r with table := a },
    .may "join_schema" stringCoder (·.joinedSchema) fun a r => { r with joinedSchema := a },
    .must "join_table_name" stringCoder (·.joinedTable) fun a r => { r with joinedTable := a },
    .may "on_clause" stringCoder (·.on) fun a r => { r with on := a },
    .may "fields" (listCoder JoinPair.layout.coder) (·.pairs) fun a r => { r with pairs := a }]

/-! ### Orders, groups, pages, raw texts -/

/-- An expression that a model orders by. -/
structure OrderEntry where
  model : String
  table : String := ""
  column : String
  function : String := ""
  direction : String := ""
deriving DecidableEq, Repr, Inhabited

def OrderEntry.layout : Layout OrderEntry where
  name := "ModelOrderConfig"
  blank := ⟨"", "", "", "", ""⟩
  columns := [
    .must "model_id" stringCoder (·.model) fun a r => { r with model := a },
    .may "table_name" stringCoder (·.table) fun a r => { r with table := a },
    .must "column_name" stringCoder (·.column) fun a r => { r with column := a },
    .may "func" stringCoder (·.function) fun a r => { r with function := a },
    .may "order_type" stringCoder (·.direction) fun a r => { r with direction := a }]

/-- An expression that a model groups by. -/
structure GroupEntry where
  model : String
  table : String := ""
  column : String
  function : String := ""
deriving DecidableEq, Repr, Inhabited

def GroupEntry.layout : Layout GroupEntry where
  name := "ModelGroupConfig"
  blank := ⟨"", "", "", ""⟩
  columns := [
    .must "model_id" stringCoder (·.model) fun a r => { r with model := a },
    .may "table_name" stringCoder (·.table) fun a r => { r with table := a },
    .must "column_name" stringCoder (·.column) fun a r => { r with column := a },
    .may "func" stringCoder (·.function) fun a r => { r with function := a }]

/-- The page that a model shows when a request names none. -/
structure LimitEntry where
  model : String
  page : UInt64 := 0
  limit : UInt64 := 0
deriving DecidableEq, Repr, Inhabited

def LimitEntry.layout : Layout LimitEntry where
  name := "ModelLimitConfig"
  blank := ⟨"", 0, 0⟩
  columns := [
    .must "model_id" stringCoder (·.model) fun a r => { r with model := a },
    .may "page" wordCoder (·.page) fun a r => { r with page := a },
    .may "limit" wordCoder (·.limit) fun a r => { r with limit := a }]

/-- The text of a model written by hand. -/
structure RawEntry where
  model : String
  content : String
deriving DecidableEq, Repr, Inhabited

def RawEntry.layout : Layout RawEntry where
  name := "ModelSqlConfig"
  blank := ⟨"", ""⟩
  columns := [
    .must "model_id" stringCoder (·.model) fun a r => { r with model := a },
    .must "content" stringCoder (·.content) fun a r => { r with content := a }]

/-! ### Templates, relations, connections -/

/-- A named list of conditions that a request may add to a model. -/
structure Template where
  id : String := ""
  model : String
  name : String := ""
  code : String := ""
  isDefault : Bool := false
  remark : String := ""
  conditions : List Condition := []
deriving DecidableEq, Repr, Inhabited

def Template.layout : Layout Template where
  name := "QueryTemplate"
  blank := ⟨"", "", "", "", false, "", []⟩
  columns := [
    .may "id" stringCoder (·.id) fun a r => { r with id := a },
    .must "model_id" stringCoder (·.model) fun a r => { r with model := a },
    .may "name" stringCoder (·.name) fun a r => { r with name := a },
    .may "code" stringCoder (·.code) fun a r => { r with code := a },
    .may "is_default" flagCoder (·.isDefault) fun a r => { r with isDefault := a },
    .may "remark" stringCoder (·.remark) fun a r => { r with remark := a },
    .may "conditions" (listCoder Condition.layout.coder) (·.conditions)
      fun a r => { r with conditions := a }]

/-- A master model and a detail model whose rows carry the master's key. -/
structure Relation where
  id : String := ""
  master : String
  detail : String
  foreignKey : String
  type : String := ""
deriving DecidableEq, Repr, Inhabited

def Relation.layout : Layout Relation where
  name := "RelationConfig"
  blank := ⟨"", "", "", "", ""⟩
  columns := [
    .may "id" stringCoder (·.id) fun a r => { r with id := a },
    .must "master_model_id" stringCoder (·.master) fun a r => { r with master := a },
    .must "detail_model_id" stringCoder (·.detail) fun a r => { r with detail := a },
    .must "foreign_key" stringCoder (·.foreignKey) fun a r => { r with foreignKey := a },
    .may "relation_type" stringCoder (·.type) fun a r => { r with type := a }]

/-- A datasource and how to reach it. -/
structure ConnectionEntry where
  id : String
  name : String := ""
  kind : String
  host : String := ""
  port : UInt16 := 0
  user : String := ""
  password : String := ""
  database : String := ""
  /-- The whole address; it goes before its parts. -/
  url : String := ""
deriving DecidableEq, Repr, Inhabited

def ConnectionEntry.layout : Layout ConnectionEntry where
  name := "ConnectionConfig"
  blank := ⟨"", "", "", "", 0, "", "", "", ""⟩
  columns := [
    .must "id" stringCoder (·.id) fun a r => { r with id := a },
    .may "name" stringCoder (·.name) fun a r => { r with name := a },
    .must "kind" stringCoder (·.kind) fun a r => { r with kind := a },
    .may "host" stringCoder (·.host) fun a r => { r with host := a },
    .may "port" portCoder (·.port) fun a r => { r with port := a },
    .may "user" stringCoder (·.user) fun a r => { r with user := a },
    .may "password" stringCoder (·.password) fun a r => { r with password := a },
    .may "database" stringCoder (·.database) fun a r => { r with database := a },
    .may "url" stringCoder (·.url) fun a r => { r with url := a }]

/-! ### The catalog -/

/-- All entries together, in their order. -/
structure Catalog where
  connections : List ConnectionEntry := []
  models : List ModelEntry := []
  tables : List TableEntry := []
  fields : List FieldEntry := []
  conditions : List Condition := []
  joins : List JoinEntry := []
  orders : List OrderEntry := []
  groups : List GroupEntry := []
  havings : List Condition := []
  limits : List LimitEntry := []
  raws : List RawEntry := []
  templates : List Template := []
  relations : List Relation := []
deriving DecidableEq, Repr, Inhabited

def Catalog.layout : Layout Catalog where
  name := "MetadataSet"
  blank := ⟨[], [], [], [], [], [], [], [], [], [], [], [], []⟩
  columns := [
    .may "connections" (listCoder ConnectionEntry.layout.coder) (·.connections)
      fun a r => { r with connections := a },
    .may "models" (listCoder ModelEntry.layout.coder) (·.models) fun a r => { r with models := a },
    .may "tables" (listCoder TableEntry.layout.coder) (·.tables) fun a r => { r with tables := a },
    .may "fields" (listCoder FieldEntry.layout.coder) (·.fields) fun a r => { r with fields := a },
    .may "wheres" (listCoder Condition.layout.coder) (·.conditions)
      fun a r => { r with conditions := a },
    .may "joins" (listCoder JoinEntry.layout.coder) (·.joins) fun a r => { r with joins := a },
    .may "orders" (listCoder OrderEntry.layout.coder) (·.orders) fun a r => { r with orders := a },
    .may "groups" (listCoder GroupEntry.layout.coder) (·.groups) fun a r => { r with groups := a },
    .may "havings" (listCoder Condition.layout.coder) (·.havings)
      fun a r => { r with havings := a },
    .may "limits" (listCoder LimitEntry.layout.coder) (·.limits) fun a r => { r with limits := a },
    .may "sqls" (listCoder RawEntry.layout.coder) (·.raws) fun a r => { r with raws := a },
    .may "templates" (listCoder Template.layout.coder) (·.templates)
      fun a r => { r with templates := a },
    .may "relations" (listCoder Relation.layout.coder) (·.relations)
      fun a r => { r with relations := a }]

end MetaQuery
