/-
  MetaQuery/Proofs/Tree/Records.lean
  ==================================
  The rows of a tree with all their columns, and what a move makes of them.

  `TreeTable` keeps of a row its key and that of its parent.  Here rows are whole records, so that
  columns beside these two are seen to stay as they are, and `rowsAfter` replays a log on them as
  `tableAfter` does on keys.  A move that succeeds sends quiet events and then one UPDATE of the
  parent column (`reparents_of_move`), so one column of one row is all that it changes
  (`rowsAfter_of_move`).
-/
import MetaQuery.Proofs.Tree.Moving

namespace MetaQuery

/-! ### Keys of parents -/

theorem parentKey_of_root (v : Option Cell) (h : isRootKey (keyText v) = true) :
    parentKey v = rootKey := by
  unfold parentKey
  split
  · rfl
  · next hsome => simpa [isRootKey, hsome] using h

theorem parentKey_of_not (v : Option Cell) (h : isRootKey (keyText v) = false) :
    parentKey v = keyText v := by
  refine if_neg fun hempty => ?_
  rw [hempty] at h
  exact absurd h (by decide)

theorem parentKey_eq_rootKey_iff {v : Option Cell} :
    parentKey v = rootKey ↔ isRootKey (keyText v) = true := by
  constructor
  · intro h
    by_contra hnot
    rw [Bool.not_eq_true] at hnot
    rw [parentKey_of_not v hnot] at h
    rw [h] at hnot
    exact absurd hnot (by decide)
  · exact parentKey_of_root v

/-- Keys that name one parent are both of the root, or they have one text. -/
theorem parentKey_eq_iff {v w : Option Cell} (hw : isRootKey (keyText w) = false) :
    parentKey v = parentKey w ↔ keyText v = keyText w := by
  rw [parentKey_of_not w hw]
  constructor
  · intro h
    rw [← h]
    refine (parentKey_of_not v (Bool.eq_false_iff.2 fun hv => ?_)).symm
    rw [parentKey_of_root v hv] at h
    rw [← h] at hw
    exact absurd hw (by decide)
  · intro h
    rw [parentKey_of_not v (h ▸ hw), h]

/-! ### Changes -/

namespace Model

variable (m : Model) (same : Cell → Cell → Bool)

/-- The datasource takes the key of the row for a bound one. -/
def hasKey (key : Cell) (row : Record) : Bool := (row.get? m.key).any (same · key)

/-- The row, with another parent where it is the one with the key. -/
def withParent (key parent : Cell) (row : Record) : Record :=
  if m.hasKey same key row then row.set m.entry.parentField parent else row

/-- What a change by itself makes of the rows; none when it is not the UPDATE of a move. -/
def rowsEffect (text : String) (args : List Cell) (rows : List Record) : Option (List Record) :=
  match m.target, args with
  | .ok target, [parent, key] =>
    if text = m.reparentText target then some (rows.map (m.withParent same key parent)) else none
  | _, _ => none

/-- The keys of the rows and those of their parents. -/
def treeTable (rows : List Record) : TreeTable :=
  rows.map fun row => ⟨(row.get? m.key).getD .null, (row.get? m.entry.parentField).getD .null⟩

variable {m same} {key parent : Cell} {row : Record}

theorem withParent_of_hasKey (h : m.hasKey same key row = true) :
    m.withParent same key parent row = row.set m.entry.parentField parent := if_pos h

theorem withParent_of_not (h : m.hasKey same key row = false) :
    m.withParent same key parent row = row := if_neg (by simp [h])

theorem get?_withParent_of_ne {column : String} (h : column ≠ m.entry.parentField) :
    (m.withParent same key parent row).get? column = row.get? column := by
  unfold withParent
  split
  · exact Record.get?_set_of_ne h row parent
  · rfl

theorem keyText_eq (v : Option Cell) : keyText v = (v.getD .null).display := by
  cases v with
  | none => rfl
  | some v => rfl

theorem mem_texts_treeTable {rows : List Record} {text : String} :
    text ∈ (m.treeTable rows).texts ↔ ∃ r ∈ rows, keyText (r.get? m.key) = text := by
  simp only [TreeTable.texts, treeTable, List.map_map, List.mem_map, Function.comp, keyText_eq]

/-- Of the keys, a change of the parent column changes those of the parents. -/
theorem treeTable_withParent (same : Cell → Cell → Bool) (key parent : Cell) {rows : List Record}
    (hcolumn : m.entry.parentField ≠ m.key) (hT : (m.treeTable rows).Keyed) :
    m.treeTable (rows.map (m.withParent same key parent)) =
      (m.treeTable rows).reparent same key parent := by
  rw [treeTable, TreeTable.reparent, treeTable, List.map_map, List.map_map]
  refine List.map_congr_left fun row hrow => ?_
  have hkeyed : ((row.get? m.key).getD .null).isNull = false :=
    hT.not_null _ (List.mem_map_of_mem hrow)
  -- a keyed row has a key cell, so asking the row and asking the table are the same
  have hhas : m.hasKey same key row = same ((row.get? m.key).getD .null) key := by
    cases hkey : row.get? m.key with
    | none =>
      rw [hkey] at hkeyed
      cases hkeyed
    | some v =>
      rw [hasKey, hkey]
      rfl
  simp only [Function.comp, get?_withParent_of_ne hcolumn.symm, ← hhas]
  cases hmoved : m.hasKey same key row with
  | true =>
    rw [withParent_of_hasKey hmoved, Record.get?_set_self]
    rfl
  | false =>
    rw [withParent_of_not hmoved]
    rfl

end Model

/-- What an event makes of the rows of a model; none when that is unknown. -/
def rowsStep (m : Model) (same : Cell → Cell → Bool) (rows : List Record) :
    Event → Option (List Record)
  | .executed target inTransaction text args (.rows _ _) =>
    if target = .data m.connection ∧ isChangeText text = true then
      if inTransaction then none else m.rowsEffect same text args rows
    else some rows
  | _ => some rows

/-- What a log leaves of the rows of a model; none when that is unknown. -/
def rowsAfter (m : Model) (same : Cell → Cell → Bool) (rows : List Record) (log : List Event) :
    Option (List Record) := log.foldlM (rowsStep m same) rows

section After

variable {m : Model} {same : Cell → Cell → Bool} {rows : List Record}

theorem rowsStep_quiet {ev : Event} (h : Quiet ev) : rowsStep m same rows ev = some rows := by
  cases h with
  | connected connection url failure => rfl
  | @read target text args reply h =>
    cases reply with
    | failure cause => rfl
    | rows answered affected => exact if_neg fun hchange => by simp [h] at hchange

theorem rowsAfter_quiet_append {opening : List Event} (h : ∀ ev ∈ opening, Quiet ev)
    (log : List Event) : rowsAfter m same rows (opening ++ log) = rowsAfter m same rows log := by
  induction opening with
  | nil => rfl
  | cons ev opening ih =>
    rw [List.cons_append, rowsAfter, List.foldlM_cons, rowsStep_quiet (h ev List.mem_cons_self)]
    exact ih fun x hx => h x (List.mem_cons_of_mem _ hx)

theorem rowsAfter_reparents {key parent : String} {log : List Event}
    (h : Rows.Reparents m key parent log) (hcolumn : m.entry.parentField ≠ m.key) :
    rowsAfter m same rows log = some (rows.map
      (m.withParent same (m.boundKey (.text key)) (m.boundParent (.text parent)))) := by
  cases h with
  | nothing hsame => exact absurd hsame hcolumn
  | @updated target answered affected _ htarget =>
    have heffect : m.rowsEffect same (m.reparentText target)
        [m.boundParent (.text parent), m.boundKey (.text key)] rows = some (rows.map
          (m.withParent same (m.boundKey (.text key)) (m.boundParent (.text parent)))) := by
      simp only [Model.rowsEffect, htarget, if_true]
    rw [rowsAfter, List.foldlM_cons, rowsStep, if_pos ⟨rfl, m.isChangeText_reparent target⟩,
      if_neg (by decide), heffect]
    rfl

end After

/-! ### Moves -/

namespace Trees

section Move

variable {model key target : String} {m : Model} {answer : String → List Cell → Reply}
  {s t : Session} {log : List Event}

/-- A move that succeeds has looked at the way up from the new parent, unless that is the root, and
    has sent the UPDATE behind quiet events. -/
theorem reparents_of_move (hm : ((treeModel model).exec s).1 = .ok m)
    (hrun : (move model key target).exec s = (.ok (), t))
    (hlog : t.events = s.events ++ log) (hgives : ∀ ev ∈ log, ev.Gives answer) :
    ∃ opening rest, log = opening ++ rest ∧ (∀ ev ∈ opening, Quiet ev) ∧
      Rows.Reparents m key (parentKey (some (.text target))) rest ∧
      (isRootKey target = false → ∃ read, read ⊆ log ∧ WayPast model m answer key target read) := by
  obtain ⟨first, later, u, rfl, hfirst, htree, hload, hmoved, ht⟩ :=
    moveIn_of_move hm hrun hlog hgives
  obtain ⟨parent, read, rest, v, rfl, hread, hload', hpatch, ht', hparent⟩ :=
    patched_of_moveIn htree hload hmoved ht
  obtain ⟨opening, last, rfl, hopening, hlast⟩ := Rows.reparents_of_patch hload' hpatch ht'
    fun ev hev => hgives ev (by simp [hev])
  -- every root is written as the one root key, any other target as it is
  have hnamed : parent = parentKey (some (.text target)) := by
    rcases hparent with ⟨hroot, rfl⟩ | ⟨hnot, rfl, -⟩
    · exact (parentKey_of_root (some (.text target)) hroot).symm
    · exact (parentKey_of_not (some (.text parent)) hnot).symm
  refine ⟨first ++ (read ++ opening), last, by simp, ?_, hnamed ▸ hlast, fun hnot => ?_⟩
  · intro ev hev
    rcases List.mem_append.1 hev with hev | hev
    · exact hfirst ev hev
    · rcases List.mem_append.1 hev with hev | hev
      · exact hread ev hev
      · exact hopening ev hev
  · rcases hparent with ⟨hroot, -⟩ | ⟨-, -, hway⟩
    · rw [hroot] at hnot
      cases hnot
    · exact ⟨read, fun ev hev => by simp [hev], hway⟩

/-- **A move changes the parent column of the row**, and nothing else. -/
theorem rowsAfter_of_move (hm : ((treeModel model).exec s).1 = .ok m)
    (hcolumn : m.entry.parentField ≠ m.key)
    (hrun : (move model key target).exec s = (.ok (), t))
    (hlog : t.events = s.events ++ log) (hgives : ∀ ev ∈ log, ev.Gives answer)
    (same : Cell → Cell → Bool) (rows : List Record) :
    rowsAfter m same rows log = some (rows.map (m.withParent same (m.boundKey (.text key))
      (m.boundParent (.text (parentKey (some (.text target))))))) := by
  obtain ⟨opening, rest, rfl, hquiet, hrest, -⟩ := reparents_of_move hm hrun hlog hgives
  rw [rowsAfter_quiet_append hquiet]
  exact rowsAfter_reparents hrest hcolumn

end Move

end Trees

end MetaQuery
