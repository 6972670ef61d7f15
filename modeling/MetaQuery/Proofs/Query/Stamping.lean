/-
  MetaQuery/Proofs/Query/Stamping.lean
  ====================================
  An INSERT of rows that all got the same cell in one column.

  A row that has the column keeps it in its place, and any other row gets it at the end.  So the
  rows may have the column at different places, and the numbers of all slots behind it change with
  the rows.  Still, the other columns of the INSERT are those of the rows as they were, in the same
  order (`filter_unionKeys_set`); the slot of the column carries the cell in each tuple; and all
  other slots write what the rows had (`stamps_of_insertMany`).
-/
import MetaQuery.Proofs.Query.Columns
import MetaQuery.Proofs.Query.Inserting
import MetaQuery.Proofs.Query.Placeholders

namespace MetaQuery

/-! ### The columns -/

theorem filter_addName_of_pos {p : String → Bool} {k : String} (h : p k = true)
    (names : List String) : (addName names k).filter p = addName (names.filter p) k := by
  by_cases hk : k ∈ names
  · have hkept : k ∈ names.filter p := List.mem_filter.2 ⟨hk, h⟩
    rw [addName, addName, if_pos (List.contains_iff_mem.2 hk),
      if_pos (List.contains_iff_mem.2 hkept)]
  · have hkept : k ∉ names.filter p := fun hmem => hk (List.mem_filter.1 hmem).1
    rw [addName, addName, if_neg (by simpa using hk),
      if_neg (mt List.contains_iff_mem.1 hkept), List.filter_append, List.filter_singleton, h,
      cond_true]

theorem filter_addName_of_neg {p : String → Bool} {k : String} (h : p k = false)
    (names : List String) : (addName names k).filter p = names.filter p := by
  unfold addName
  split
  · rfl
  · rw [List.filter_append, List.filter_singleton, h, cond_false, List.append_nil]

/-- Names that are left out leave the others as they are first seen. -/
theorem filter_foldl_addName (p : String → Bool) (seen names : List String) :
    (seen.foldl addName names).filter p = (seen.filter p).foldl addName (names.filter p) := by
  induction seen generalizing names with
  | nil => rfl
  | cons k seen ih =>
    rw [List.foldl_cons, ih]
    cases hk : p k with
    | true => rw [filter_addName_of_pos hk, List.filter_cons_of_pos hk, List.foldl_cons]
    | false => rw [filter_addName_of_neg hk, List.filter_cons_of_neg (by simp [hk])]

theorem Record.keys_set (r : Record) (column : String) (v : Cell) :
    (r.set column v).keys = addName r.keys column := by
  obtain ⟨es⟩ := r
  change (put column v es).map (·.1) = addName (es.map (·.1)) column
  induction es with
  | nil => rfl
  | cons e r ih =>
    obtain ⟨k, w⟩ := e
    -- a column that is there keeps its place, a new one goes to the end
    by_cases hk : k = column
    · subst hk
      rw [put, if_pos rfl, addName, if_pos (by simp)]
      rfl
    · rw [put, if_neg hk, List.map_cons, ih, List.map_cons, addName, addName, List.contains_cons,
        beq_eq_false_iff_ne.2 (Ne.symm hk), Bool.false_or]
      split
      · rfl
      · rfl

theorem filter_unionKeys_set (rows : List Record) (column : String) (v : Cell) :
    (unionKeys (rows.map (·.set column v))).filter (· != column) =
      (unionKeys rows).filter (· != column) := by
  have hkeys : ((rows.map (·.set column v)).flatMap Record.keys).filter (· != column) =
      (rows.flatMap Record.keys).filter (· != column) := by
    rw [List.flatMap_map, List.filter_flatMap, List.filter_flatMap]
    refine congrArg (rows.flatMap ·) (funext fun row => ?_)
    rw [Record.keys_set, filter_addName_of_neg (by simp)]
  rw [unionKeys_eq_foldl, unionKeys_eq_foldl, filter_foldl_addName, filter_foldl_addName, hkeys]

theorem mem_unionKeys_set {rows : List Record} (h : rows ≠ []) (column : String) (v : Cell) :
    column ∈ unionKeys (rows.map (·.set column v)) := by
  obtain ⟨row, hrow⟩ := List.exists_mem_of_ne_nil _ h
  refine mem_unionKeys.2 ⟨row.set column v, List.mem_map_of_mem hrow, ?_⟩
  exact Record.mem_keys_iff.2 ⟨v, Record.get?_set_self row column v⟩

/-! ### The slots -/

namespace Model

variable {m : Model} {rows : List Record} {st : Statement}

/-- Each statement that inserts rows is the one that is known slot by slot. -/
theorem insertMany_slots (missing : MissingColumn) (h : m.insertMany rows missing = .ok st) :
    ∃ t, m.mainTable = .ok t ∧
      st.text = "INSERT INTO " ++ m.dialect.table t.schema t.name ++ " (" ++
        Text.joinWith ", " ((unionKeys rows).map m.dialect.quote) ++ ") VALUES " ++
        Text.joinWith ", " ((rows.mapIdx fun i row => (unionKeys rows).mapIdx fun j c =>
          m.slotText missing row c (m.sentBefore (unionKeys rows) rows row i j)).map tupleText) ∧
      st.args = rows.flatMap (m.sentCells (unionKeys rows)) := by
  have hst := h
  rw [insertMany_eq] at hst
  split at hst
  · cases hst
  · next hcolumns =>
    obtain ⟨target, htarget, -⟩ := exists_target _ hst
    obtain ⟨t, ht, -⟩ := exists_table_of_target htarget
    have hslots := m.insertMany_eq_ok missing ht fun hnone => hcolumns ((isEmpty_unionKeys rows).2 hnone)
    obtain rfl := Except.ok.inj (h.symm.trans hslots)
    exact ⟨t, ht, rfl, rfl⟩

/-- A statement that inserts rows with one cell in a column of each: one tuple for each row, in
    their order, over the columns of the rows and this one.

    The slot of the column is the placeholder of the cell, brought to the type of the field,
    whatever the row had there.  Any other slot is that of the row as it was.  An argument stands
    behind those that are sent in front of its slot. -/
structure Stamps (m : Model) (rows : List Record) (column : String) (v : Cell)
    (columns : List String) (slots : List (List String)) (st : Statement) : Prop where
  text : ∃ t, m.mainTable = .ok t ∧
    st.text = "INSERT INTO " ++ m.dialect.table t.schema t.name ++ " (" ++
      Text.joinWith ", " (columns.map m.dialect.quote) ++ ") VALUES " ++
      Text.joinWith ", " (slots.map tupleText)
  args : st.args = (rows.map (·.set column v)).flatMap (m.sentCells columns)
  nodup : columns.Nodup
  mem_columns : column ∈ columns
  others : columns.filter (· != column) = (unionKeys rows).filter (· != column)
  length_slots : slots.length = rows.length
  length_tuple : ∀ tuple ∈ slots, tuple.length = columns.length
  stamped : ∀ i row j, rows[i]? = some row → columns[j]? = some column → ∃ tuple n,
    n = m.sentBefore columns (rows.map (·.set column v)) (row.set column v) i j ∧
    slots[i]? = some tuple ∧ tuple[j]? = some (m.dialect.placeholder (n + 1)) ∧
    st.args[n]? = some (coerceTo (m.field? column) v)
  kept : ∀ i row j c, rows[i]? = some row → columns[j]? = some c → c ≠ column → ∃ tuple n,
    n = m.sentBefore columns (rows.map (·.set column v)) (row.set column v) i j ∧
    slots[i]? = some tuple ∧ tuple[j]? = some (m.slotText .null row c n) ∧
    ∀ w, m.sentCell row c = some w → st.args[n]? = some w

theorem slotText_set_self (missing : MissingColumn) (row : Record) (column : String) {v : Cell}
    (hv : v.isNull = false) (n : Nat) :
    m.slotText missing (row.set column v) column n = m.dialect.placeholder (n + 1) := by
  simp [slotText, Record.get?_set_self, hv]

theorem slotText_set_of_ne (missing : MissingColumn) (row : Record) {column c : String}
    (h : c ≠ column) (v : Cell) (n : Nat) :
    m.slotText missing (row.set column v) c n = m.slotText missing row c n := by
  unfold slotText
  rw [Record.get?_set_of_ne h]

theorem sentCell_set_self (row : Record) (column : String) {v : Cell} (hv : v.isNull = false) :
    m.sentCell (row.set column v) column = some (coerceTo (m.field? column) v) := by
  simp [sentCell, Record.get?_set_self, hv]

theorem sentCell_set_of_ne (row : Record) {column c : String} (h : c ≠ column) (v : Cell) :
    m.sentCell (row.set column v) c = m.sentCell row c := by
  rw [sentCell, sentCell, Record.get?_set_of_ne h]

/-- What stands at a place of a table of slots. -/
theorem getElem?_mapIdx_mapIdx {α β γ : Type} {f : Nat → α → Nat → β → γ} {xs : List α}
    {ys : List β} {i j : Nat} {x : α} {y : β} (hx : xs[i]? = some x) (hy : ys[j]? = some y) :
    ∃ tuple, (xs.mapIdx fun i x => ys.mapIdx fun j y => f i x j y)[i]? = some tuple ∧
      tuple[j]? = some (f i x j y) :=
  ⟨_, by rw [List.getElem?_mapIdx, hx, Option.map_some], by
    rw [List.getElem?_mapIdx, hy, Option.map_some]⟩

/-- **Rows are inserted with the cell in their column and with all else unchanged.** -/
theorem stamps_of_insertMany {column : String} {v : Cell} (hrows : rows ≠ [])
    (hv : v.isNull = false) (h : m.insertMany (rows.map (·.set column v)) .null = .ok st) :
    ∃ columns slots, m.Stamps rows column v columns slots st := by
  obtain ⟨t, ht, htext, hargs⟩ := insertMany_slots .null h
  -- rows keep their places when each is stamped
  have hrow' : ∀ {i : Nat} {row : Record}, rows[i]? = some row →
      (rows.map (·.set column v))[i]? = some (row.set column v) := by
    intro i row hrow
    rw [List.getElem?_map, hrow, Option.map_some]
  refine ⟨_, _, {
    text := ⟨t, ht, htext⟩
    args := hargs
    nodup := (unionKeys_firstSeen _).nodup
    mem_columns := mem_unionKeys_set hrows column v
    others := filter_unionKeys_set rows column v
    length_slots := by rw [List.length_mapIdx, List.length_map]
    length_tuple := fun tuple htuple => ?_
    stamped := fun i row j hrow hcolumn => ?_
    kept := fun i row j c hrow hcolumn hne => ?_ }⟩
  · obtain ⟨i, hi, rfl⟩ := List.mem_mapIdx.1 htuple
    rw [List.length_mapIdx]
  · obtain ⟨tuple, htuple, hslot⟩ := getElem?_mapIdx_mapIdx (hrow' hrow) hcolumn
    refine ⟨tuple, _, rfl, htuple, ?_, ?_⟩
    · rw [hslot, slotText_set_self .null row column hv]
    · rw [hargs]
      exact m.args_sentBefore (hrow' hrow) hcolumn (sentCell_set_self row column hv)
  · obtain ⟨tuple, htuple, hslot⟩ := getElem?_mapIdx_mapIdx (hrow' hrow) hcolumn
    refine ⟨tuple, _, rfl, htuple, ?_, fun w hw => ?_⟩
    · rw [hslot, slotText_set_of_ne .null row hne]
    · rw [hargs]
      refine m.args_sentBefore (hrow' hrow) hcolumn ?_
      rw [sentCell_set_of_ne row hne, hw]

end Model

end MetaQuery
