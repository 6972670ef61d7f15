/-
  MetaQuery/Proofs/Query/Inserting.lean
  =====================================
  An INSERT of several rows writes every cell where it belongs.

  The rows may have different columns in different orders.  The columns of the INSERT are all that
  occur, in the order in which they are first seen (`unionKeys_firstSeen`), and each row gets a
  tuple with a slot for every one of them.  NULL, and what a row does not have, takes no number, so
  the number of a slot is not its place: it counts the cells that are sent in front of it, row by
  row (`sentBefore`), and the argument with that number is the cell (`args_sentBefore`).
-/
import Mathlib.Data.List.Induction
import Mathlib.Data.List.Nodup
import MetaQuery.Query.Write

namespace MetaQuery

/-! ### The columns of some rows -/

/-- Some names with one more, unless it is there. -/
def addName (names : List String) (k : String) : List String :=
  if names.contains k then names else names ++ [k]

theorem unionKeys_eq_foldl (rows : List Record) :
    unionKeys rows = (rows.flatMap Record.keys).foldl addName [] := by
  rw [unionKeys, List.foldl_flatMap]
  rfl

/-- Names each once, in the order in which they are first seen in a list. -/
structure FirstSeen (names seen : List String) : Prop where
  nodup : names.Nodup
  mem_iff : ∀ k, k ∈ names ↔ k ∈ seen
  ordered : names.Pairwise fun k l => seen.idxOf k < seen.idxOf l

theorem FirstSeen.addName {names seen : List String} (h : FirstSeen names seen) (k : String) :
    FirstSeen (addName names k) (seen ++ [k]) := by
  -- what was seen before keeps its place
  have hplace : ∀ x ∈ names, (seen ++ [k]).idxOf x = seen.idxOf x :=
    fun x hx => List.idxOf_append_of_mem ((h.mem_iff x).1 hx)
  have hordered : names.Pairwise fun x y => (seen ++ [k]).idxOf x < (seen ++ [k]).idxOf y := by
    refine h.ordered.imp_of_mem fun hx hy hlt => ?_
    rwa [hplace _ hx, hplace _ hy]
  by_cases hk : k ∈ names
  · rw [MetaQuery.addName, if_pos (List.contains_iff_mem.2 hk)]
    refine ⟨h.nodup, fun x => ?_, hordered⟩
    rw [List.mem_append, List.mem_singleton, h.mem_iff]
    exact ⟨.inl, fun hx => hx.elim id fun hx => hx ▸ (h.mem_iff k).1 hk⟩
  · have hnew : k ∉ seen := fun hmem => hk ((h.mem_iff k).2 hmem)
    rw [MetaQuery.addName, if_neg (by simpa using hk)]
    refine ⟨?_, fun x => by simp [h.mem_iff], ?_⟩
    · refine List.nodup_append.2 ⟨h.nodup, List.nodup_singleton k, ?_⟩
      rintro x hx _ hy rfl
      exact hk (List.mem_singleton.1 hy ▸ hx)
    · refine List.pairwise_append.2 ⟨hordered, List.pairwise_singleton _ _, fun x hx y hy => ?_⟩
      rw [List.mem_singleton.1 hy, hplace x hx, List.idxOf_append_of_notMem hnew]
      exact Nat.lt_add_right _ (List.idxOf_lt_length_iff.2 ((h.mem_iff x).1 hx))

/-- The columns of some rows are all that occur, each once, as they are first seen. -/
theorem unionKeys_firstSeen (rows : List Record) :
    FirstSeen (unionKeys rows) (rows.flatMap Record.keys) := by
  rw [unionKeys_eq_foldl]
  induction rows.flatMap Record.keys using List.reverseRecOn with
  | nil => exact ⟨List.nodup_nil, fun _ => Iff.rfl, .nil⟩
  | append_singleton seen k ih =>
    rw [List.foldl_append]
    exact ih.addName k

theorem mem_unionKeys {k : String} {rows : List Record} :
    k ∈ unionKeys rows ↔ ∃ row ∈ rows, k ∈ row.keys := by
  rw [(unionKeys_firstSeen rows).mem_iff, List.mem_flatMap]

/-! ### Slots -/

namespace Model

variable (m : Model) (missing : MissingColumn)

/-- The argument that a row gives to a column: its cell, brought to the type of the field; none
    where the cell is NULL or the row lacks the column. -/
def sentCell (row : Record) (column : String) : Option Cell :=
  match row.get? column with
  | some v => if v.isNull then none else some (coerceTo (m.field? column) v)
  | none => none

/-- The arguments that a row gives to some columns. -/
def sentCells (columns : List String) (row : Record) : List Cell :=
  columns.filterMap (m.sentCell row)

/-- What is written for a column of a row, with `n` arguments in front of it. -/
def slotText (row : Record) (column : String) (n : Nat) : String :=
  match row.get? column, missing with
  | some v, _ => if v.isNull then "NULL" else m.dialect.placeholder (n + 1)
  | none, .null => "NULL"
  | none, .columnDefault => "DEFAULT"

/-- The slots of a row with `n` arguments in front of it. -/
def slotTexts (columns : List String) (row : Record) (n : Nat) : List String :=
  columns.mapIdx fun j c =>
    m.slotText missing row c (n + (m.sentCells (columns.take j) row).length)

/-- The slots of some rows with `n` arguments in front of them. -/
def tupleSlots (columns : List String) (rows : List Record) (n : Nat) : List (List String) :=
  rows.mapIdx fun i row =>
    m.slotTexts missing columns row (n + ((rows.take i).flatMap (m.sentCells columns)).length)

/-- A tuple of some slots. -/
def tupleText (slots : List String) : String := "(" ++ Text.joinWith ", " slots ++ ")"

/-- The slot of one column, and the statement behind it. -/
def bindColumn (row : Record) (st : Statement) (column : String) : String × Statement :=
  match row.get? column, missing with
  | some v, _ => m.bindCell st column v
  | none, .null => st.bind .null
  | none, .columnDefault => ("DEFAULT", st)

theorem bindColumn_eq (row : Record) {st : Statement} (hst : st.dialect = m.dialect)
    (column : String) : m.bindColumn missing row st column =
      (m.slotText missing row column st.args.length,
        { st with args := st.args ++ (m.sentCell row column).toList }) := by
  cases hcell : row.get? column with
  | none =>
    cases missing <;> simp [bindColumn, slotText, sentCell, hcell, Statement.bind, Cell.isNull]
  | some v =>
    have hnull := isNull_coerceTo (m.field? column) v
    cases hv : v.isNull with
    | true => simp [bindColumn, slotText, sentCell, hcell, bindCell, Statement.bind, hnull, hv]
    | false =>
      rw [hv] at hnull
      simp [bindColumn, slotText, sentCell, hcell, bindCell, Statement.bind_of_not_null hnull, hv,
        hst]

theorem bindRow_cons (row : Record) (st : Statement) (k : String) (r : List String) :
    m.bindRow missing row st (k :: r) =
      ((m.bindColumn missing row st k).1 ::
        (m.bindRow missing row (m.bindColumn missing row st k).2 r).1,
        (m.bindRow missing row (m.bindColumn missing row st k).2 r).2) := rfl

theorem sentCells_cons (k : String) (r : List String) (row : Record) :
    m.sentCells (k :: r) row = (m.sentCell row k).toList ++ m.sentCells r row := by
  cases hk : m.sentCell row k <;> simp [sentCells, hk]

theorem slotTexts_cons (k : String) (r : List String) (row : Record) (n : Nat) :
    m.slotTexts missing (k :: r) row n = m.slotText missing row k n ::
      m.slotTexts missing r row (n + (m.sentCell row k).toList.length) := by
  rw [slotTexts, List.mapIdx_cons, slotTexts]
  congr 1
  refine congrArg (List.mapIdx · r) (funext fun j => funext fun c => ?_)
  rw [List.take_succ_cons, sentCells_cons, List.length_append, Nat.add_assoc]

/-- A row is bound slot by slot. -/
theorem bindRow_eq (columns : List String) (row : Record) (st : Statement)
    (hst : st.dialect = m.dialect) : m.bindRow missing row st columns =
      (m.slotTexts missing columns row st.args.length,
        { st with args := st.args ++ m.sentCells columns row }) := by
  induction columns generalizing st with
  | nil => simp [bindRow, slotTexts, sentCells]
  | cons k r ih =>
    have hnext : { st with args := st.args ++ (m.sentCell row k).toList }.dialect = m.dialect := hst
    rw [bindRow_cons, bindColumn_eq m missing row hst]
    dsimp only
    rw [ih _ hnext, slotTexts_cons, sentCells_cons, List.length_append, List.append_assoc]

theorem tupleSlots_cons (columns : List String) (row : Record) (r : List Record) (n : Nat) :
    m.tupleSlots missing columns (row :: r) n = m.slotTexts missing columns row n ::
      m.tupleSlots missing columns r (n + (m.sentCells columns row).length) := by
  rw [tupleSlots, List.mapIdx_cons, tupleSlots]
  congr 1
  refine congrArg (List.mapIdx · r) (funext fun i => funext fun row' => ?_)
  rw [List.take_succ_cons, List.flatMap_cons, List.length_append, Nat.add_assoc]

/-- Rows are bound tuple by tuple. -/
theorem bindRows_eq (columns : List String) (rows : List Record) (st : Statement)
    (hst : st.dialect = m.dialect) : m.bindRows missing columns st rows =
      ((m.tupleSlots missing columns rows st.args.length).map tupleText,
        { st with args := st.args ++ rows.flatMap (m.sentCells columns) }) := by
  induction rows generalizing st with
  | nil => simp [bindRows, tupleSlots]
  | cons row r ih =>
    have hnext : { st with args := st.args ++ m.sentCells columns row }.dialect = m.dialect := hst
    rw [bindRows, bindRow_eq m missing columns row st hst]
    dsimp only
    rw [ih _ hnext, tupleSlots_cons, List.flatMap_cons, List.length_append, List.append_assoc,
      List.map_cons, tupleText]

/-! ### Numbers -/

/-- How many cells of some rows are sent in front of the `j`-th column of the `i`-th row. -/
def sentBefore (columns : List String) (rows : List Record) (row : Record) (i j : Nat) : Nat :=
  ((rows.take i).flatMap (m.sentCells columns)).length + (m.sentCells (columns.take j) row).length

/-- An element of one of some lists put together stands behind those of the lists before it. -/
theorem getElem?_flatMap {α β : Type} {f : α → List β} {l : List α} {i n : Nat} {a : α} {b : β}
    (ha : l[i]? = some a) (hb : (f a)[n]? = some b) :
    (l.flatMap f)[((l.take i).flatMap f).length + n]? = some b := by
  obtain ⟨hi, rfl⟩ := List.getElem?_eq_some_iff.1 ha
  obtain ⟨hn, -⟩ := List.getElem?_eq_some_iff.1 hb
  have hsplit : l.flatMap f = (l.take i).flatMap f ++ (f l[i] ++ (l.drop (i + 1)).flatMap f) := by
    rw [← List.flatMap_cons, ← List.flatMap_append, ← List.drop_eq_getElem_cons hi,
      List.take_append_drop]
  rw [hsplit, List.getElem?_append_right (Nat.le_add_right _ _), Nat.add_sub_cancel_left,
    List.getElem?_append_left hn, hb]

/-- The argument behind those that are sent in front of a cell is that cell. -/
theorem args_sentBefore {columns : List String} {rows : List Record} {row : Record} {i j : Nat}
    {c : String} {v : Cell} (hrow : rows[i]? = some row) (hc : columns[j]? = some c)
    (hv : m.sentCell row c = some v) :
    (rows.flatMap (m.sentCells columns))[m.sentBefore columns rows row i j]? = some v := by
  refine getElem?_flatMap hrow ?_
  rw [sentCells, List.filterMap_eq_flatMap_toList, sentCells, List.filterMap_eq_flatMap_toList]
  have hcell : (m.sentCell row c).toList[0]? = some v := by
    rw [hv]
    rfl
  exact getElem?_flatMap (f := fun c => (m.sentCell row c).toList) hc hcell

/-! ### The INSERT -/

theorem isEmpty_unionKeys (rows : List Record) :
    (unionKeys rows).isEmpty = true ↔ ∀ row ∈ rows, row.keys = [] := by
  rw [List.isEmpty_iff, List.eq_nil_iff_forall_not_mem]
  simp only [(unionKeys_firstSeen rows).mem_iff, List.mem_flatMap, not_exists, not_and,
    List.eq_nil_iff_forall_not_mem]
  exact ⟨fun h row hrow k => h k row hrow, fun h k row hrow => h row hrow k⟩

/-- What an INSERT of several rows is, slot by slot. -/
theorem insertMany_eq_ok {rows : List Record} {t : TableEntry} (ht : m.mainTable = .ok t)
    (hrows : ¬ ∀ row ∈ rows, row.keys = []) : m.insertMany rows missing = .ok {
      dialect := m.dialect
      text := "INSERT INTO " ++ m.dialect.table t.schema t.name ++ " (" ++
        Text.joinWith ", " ((unionKeys rows).map m.dialect.quote) ++ ") VALUES " ++
        Text.joinWith ", " ((rows.mapIdx fun i row => (unionKeys rows).mapIdx fun j c =>
          m.slotText missing row c (m.sentBefore (unionKeys rows) rows row i j)).map tupleText)
      args := rows.flatMap (m.sentCells (unionKeys rows)) } := by
  have htarget : m.target = .ok (m.dialect.table t.schema t.name) := by
    rw [target, ht]
    rfl
  have hslots : m.tupleSlots missing (unionKeys rows) rows 0 =
      rows.mapIdx fun i row => (unionKeys rows).mapIdx fun j c =>
        m.slotText missing row c (m.sentBefore (unionKeys rows) rows row i j) := by
    simp only [tupleSlots, slotTexts, Nat.zero_add, sentBefore]
  have hbound := m.bindRows_eq missing (unionKeys rows) rows (.start m.dialect) rfl
  rw [insertMany_eq, if_neg fun hnone => hrows ((isEmpty_unionKeys rows).1 hnone), htarget, hbound,
    ← hslots]
  simp [Statement.start, Statement.put, Except.mapError, Except.map]

/-- **An INSERT of several rows writes every cell where it belongs.**

Rows without any column are refused.  Else the columns are those that occur in any row, each once,
as they are first seen; and each row gets a tuple with one slot for each column.  A slot is the
placeholder of the row's cell, brought to the type of the field, `NULL` for a cell that is NULL,
and `NULL` or `DEFAULT` for a column that the row lacks.  The arguments are the cells in the order
of the slots, and each stands where its placeholder says. -/
theorem insertMany_places_cells (rows : List Record) :
    ((∀ row ∈ rows, row.keys = []) →
      m.insertMany rows missing = .error (.invalid "data" .noColumns)) ∧
    ∀ t, m.mainTable = .ok t → (∃ row ∈ rows, row.keys ≠ []) → ∃ columns st,
      m.insertMany rows missing = .ok st ∧
      FirstSeen columns (rows.flatMap Record.keys) ∧
      st.text = "INSERT INTO " ++ m.dialect.table t.schema t.name ++ " (" ++
        Text.joinWith ", " (columns.map m.dialect.quote) ++ ") VALUES " ++
        Text.joinWith ", " ((rows.mapIdx fun i row => columns.mapIdx fun j c =>
          m.slotText missing row c (m.sentBefore columns rows row i j)).map tupleText) ∧
      st.args = rows.flatMap (m.sentCells columns) ∧
      ∀ i row j c v, rows[i]? = some row → columns[j]? = some c → m.sentCell row c = some v →
        st.args[m.sentBefore columns rows row i j]? = some v := by
  constructor
  · intro hnone
    rw [insertMany_eq, if_pos ((isEmpty_unionKeys rows).2 hnone)]
  · rintro t ht ⟨row, hrow, hkeys⟩
    refine ⟨_, _, m.insertMany_eq_ok missing ht fun hnone => hkeys (hnone row hrow),
      unionKeys_firstSeen rows, rfl, rfl, ?_⟩
    exact fun i row j c v hrow hc hv => m.args_sentBefore hrow hc hv

/-- A table of seats whose numbers are integers. -/
def seats : Model where
  entry := { id := "seat", code := "seats" }
  tables := [{ id := "t", model := "seat", name := "seats" }]
  fields := [{ id := "n", model := "seat", column := "number", type := "integer" }]
  dialect := .postgres

/-- Rows with different columns in different orders, one of them without any. -/
def mixedRows : List Record := [
  ⟨[("row", .text "a"), ("number", .text "12")]⟩,
  ⟨[]⟩,
  ⟨[("number", .int 13), ("guest", .null), ("row", .text "b")]⟩]

theorem mixedRows_placed :
    (∀ row ∈ [Record.empty], row.keys = []) ∧
    seats.insertMany [Record.empty] .null = .error (.invalid "data" .noColumns) ∧
    (∃ t, seats.mainTable = .ok t) ∧ (∃ row ∈ mixedRows, row.keys ≠ []) ∧
    ∃ columns st, seats.insertMany mixedRows .columnDefault = .ok st ∧
      FirstSeen columns (mixedRows.flatMap Record.keys) ∧
      st.text = "INSERT INTO \"seats\" (\"row\", \"number\", \"guest\") VALUES " ++
        "($1, $2, DEFAULT), (DEFAULT, DEFAULT, DEFAULT), ($3, $4, NULL)" ∧
      st.args = [.text "a", .int 12, .text "b", .int 13] := by
  have hnone : ∀ row ∈ [Record.empty], row.keys = [] := by decide
  have hkeys : ∃ row ∈ mixedRows, row.keys ≠ [] := by decide
  obtain ⟨columns, st, hst, hseen, -⟩ :=
    (seats.insertMany_places_cells .columnDefault mixedRows).2 _ rfl hkeys
  refine ⟨hnone, (seats.insertMany_places_cells .null [Record.empty]).1 hnone, ⟨_, rfl⟩, hkeys,
    columns, st, hst, hseen, ?_⟩
  obtain rfl := Except.ok.inj hst
  decide

end Model

end MetaQuery
