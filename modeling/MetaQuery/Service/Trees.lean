/-
  MetaQuery/Service/Trees.lean
  ============================
  Models whose rows form trees by a column that holds the parent's key.  A model may also have a
  column for the level of a row and one for the path of keys that leads to it; new rows get both.

  Walking up and walking down stop at keys that were seen before.  Each step up uses up a reply,
  and each step down a row of a reply, so the replies bound both walks.
-/
import MetaQuery.Forest
import MetaQuery.Service.Rows

namespace MetaQuery.Trees

def treeModel (model : String) : Action Model := do
  let m ← Metadata.model model
  if !m.entry.isTree || m.entry.parentField == "" then throw (.metadata (.notATree model))
  return m

/-- The request for as many rows as a tree may have. -/
def ceiling : Action ListRequest := do
  return { pageSize := some (← get).settings.treePageSize }

/-! ### Reading -/

def forest (model : String) : Action (List Node) := do
  let m ← treeModel model
  let page ← Rows.list model (← ceiling)
  return MetaQuery.forest m.key m.entry.parentField page.rows

/-- The request for the rows under a key. -/
def childRequest (parentField parent : String) : ListRequest :=
  { filters := [{ column := parentField, operator := "=", value := .str parent }] }

/-- The rows directly under a key. -/
def children (model parent : String) : Action (List Record) := do
  let m ← treeModel model
  if isRootKey parent then
    let page ← Rows.list model (← ceiling)
    return rowsUnder m.entry.parentField page.rows rootKey
  else
    let page ← Rows.list model (childRequest m.entry.parentField parent)
    return page.rows

/-- The rows from a key up to the root, put in front of those below them. -/
def climb (model parentField : String) :
    Nat → List String → String → List Record → Action (List Record)
  | 0, _, _, below => return below
  | fuel + 1, seen, key, below => do
    -- a key met before is a loop, and ends the way up as the root does
    if isRootKey key || seen.contains key then return below
    match ← Rows.get? model (.text key) with
    | none => return below
    | some row =>
      climb model parentField fuel (key :: seen) (keyText (row.get? parentField)) (row :: below)

/-- The rows from the root down to a key. -/
def path (model key : String) : Action (List Record) := do
  let m ← treeModel model
  let fuel := (← get).answers.replies.length + 1
  climb model m.entry.parentField fuel [] key []

/-! ### Adding -/

def levelUnder (levelField : String) : Option Record → Int64
  | none => 1
  | some parent =>
    match (parent.get? levelField).bind Cell.float? with
    | some x => Decimal.toInt64 x + 1
    | none => 2

def pathUnder (pathField : String) (parent : Option Record) (key : String) : String :=
  let above := match parent with
    | some p => keyText (p.get? pathField)
    | none => ""
  String.ofList (above.toList.reverse.dropWhile (· == '/')).reverse ++ "/" ++ key

/-- A row with its level, where a model has levels and the row brings none. -/
def withLevel (entry : ModelEntry) (parent : Option Record) (row : Record) : Record :=
  if entry.levelField ≠ "" ∧ !row.contains entry.levelField then
    row.set entry.levelField (.int (levelUnder entry.levelField parent))
  else row

/-- A row with its path, where a model has paths, the row brings none, and it has a key. -/
def withPath (entry : ModelEntry) (keyField : String) (parent : Option Record) (row : Record) :
    Record :=
  match (row.get? keyField).filter (!·.isBlank) with
  | some key =>
    if entry.pathField ≠ "" ∧ !row.contains entry.pathField then
      row.set entry.pathField (.text (pathUnder entry.pathField parent key.display))
    else row
  | none => row

/-- The row that a new row is put under; none under the root. -/
def parentRow (model key : String) : Action (Option Record) := do
  if isRootKey key then return none
  match ← Rows.get? model (.text key) with
  | some row => return some row
  | none => throw (.notFound (.parentNode key))

def add (model : String) (row : Record) : Action Record := do
  let m ← treeModel model
  if m.entry.levelField = "" ∧ m.entry.pathField = "" then return ← Rows.create model row
  let parent ← parentRow model (parentKey (row.get? m.entry.parentField))
  Rows.create model (withPath m.entry m.key parent (withLevel m.entry parent row))

/-! ### Moving -/

/-- A row put under another one, which is neither the row itself nor below it. -/
def move (model key target : String) : Action Unit := do
  let m ← treeModel model
  let parentField := m.entry.parentField
  -- the guards compare the texts as they are given
  if key = target then throw (.invalid parentField .underItself)
  if !isRootKey target then
    let above ← path model target
    if above.any fun row => keyText (row.get? m.key) == key then
      throw (.invalid parentField .underDescendant)
  let parent := if isRootKey target then rootKey else target
  Rows.patch model (.text key) (Record.empty.set parentField (.text parent))

/-! ### Deleting -/

/-- The keys among some rows that were not seen before, each once, and all keys seen then. -/
def newKeys (keyField : String) (seen : List String) : List Record → List Cell × List String
  | [] => ([], seen)
  | row :: r =>
    match row.get? keyField with
    -- a row without its key column leads nowhere
    | none => newKeys keyField seen r
    | some key =>
      if seen.contains key.display then newKeys keyField seen r
      else
        let (keys, seen) := newKeys keyField (key.display :: seen) r
        (key :: keys, seen)

/-- The keys that are pending and all keys below them, level by level. -/
def descend (m : Model) (connection : String) :
    Nat → List String → List Cell → Action (List Cell)
  | _, _, [] => return []
  | 0, _, _ => return []
  | fuel + 1, seen, key :: pending => do
    let q ← Action.ofMetadata (m.selectChildren m.entry.parentField key)
    let rows ← Connection.runIn connection q.statement
    let (keys, seen) := newKeys m.key seen rows
    -- breadth first: what is found now is asked about last
    return key :: (← descend m connection fuel seen (pending ++ keys))

/-- How many rows some replies hold. -/
def rowCount : List Reply → Nat
  | [] => 0
  | .rows rows _ :: r => rows.length + rowCount r
  | .failure _ :: r => rowCount r

/-- The rows with some keys deleted, one after the other. -/
def deleteEach (m : Model) (connection : String) : List Cell → Action Unit
  | [] => pure ()
  | key :: r => do
    let st ← Action.ofExcept (m.delete key)
    let _ ← Connection.runIn connection st
    deleteEach m connection r

/-- A row deleted with all rows below it, those below first, in one transaction. -/
def delete (model key : String) : Action Unit := do
  let m ← treeModel model
  Connection.transaction m.connection do
    let fuel := rowCount (← get).answers.replies + 1
    let keys ← descend m m.connection fuel [key] [.text key]
    deleteEach m m.connection keys.reverse

end MetaQuery.Trees
