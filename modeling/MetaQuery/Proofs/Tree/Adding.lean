/-
  MetaQuery/Proofs/Tree/Adding.lean
  =================================
  Adding a node keeps levels and paths right.

  An addition asks for the row of the parent, makes the level and the path of the new row from it
  and inserts the row.  So when the parent is read from the table and the new row says nothing about
  its place, what is inserted has its place in the table (`add_keeps_places`).  Without a row for
  the parent nothing is inserted.  A table that grew by additions alone has all its places right,
  whatever their order (`Grows.keeps`).
-/
import MetaQuery.Proofs.Query.Columns
import MetaQuery.Proofs.Service.Creating
import MetaQuery.Proofs.Tree.Climb
import MetaQuery.Proofs.Tree.Places

namespace MetaQuery

open MetaQuery.Action PlacedTable

/-! ### Rows to be added -/

/-- The model derives a level and a path, in a column of integers and in one of texts. -/
structure Model.DerivesPlaces (m : Model) : Prop where
  level_named : m.entry.levelField ≠ ""
  path_named : m.entry.pathField ≠ ""
  level_integer : ∃ f, m.field? m.entry.levelField = some f ∧ f.isInteger = true
  path_textual : ∃ f, m.field? m.entry.pathField = some f ∧ f.isTextual = true

theorem Model.DerivesPlaces.columns_ne {m : Model} (h : m.DerivesPlaces) :
    m.entry.levelField ≠ m.entry.pathField := by
  intro hsame
  obtain ⟨f, hf, hinteger⟩ := h.level_integer
  obtain ⟨g, hg, htextual⟩ := h.path_textual
  rw [hsame, hg] at hf
  obtain rfl := Option.some.inj hf
  rw [g.not_textual_of_isInteger hinteger] at htextual
  cases htextual

/-- A row for a table that does not have its key and that says nothing about its place.  Its key and
    its parent are canonical: what is stored for them has their texts, and so has the key that the
    parent is looked for with. -/
structure NewNode (m : Model) (T : PlacedTable) (row : Record) (key parent : Cell) : Prop where
  key_given : row.get? m.key = some key
  key_filled : key.isBlank = false
  key_kept : (m.boundKey key).display = key.display
  key_new : key.display ∉ T.texts
  parent_given : row.get? m.entry.parentField = some parent
  parent_kept : (m.boundParent parent).display = parent.display
  parent_sought : isRootKey parent.display = false →
    (m.boundKey (.text parent.display)).display = parent.display
  no_level : row.contains m.entry.levelField = false
  no_path : row.contains m.entry.pathField = false

theorem NewNode.ne_of_given {m : Model} {T : PlacedTable} {row : Record} {key parent : Cell}
    (h : NewNode m T row key parent) {column : String} {v : Cell}
    (hgiven : row.get? column = some v) :
    column ≠ m.entry.levelField ∧ column ≠ m.entry.pathField := by
  have hcontains : row.contains column = true := by rw [Record.contains_eq, hgiven]; rfl
  constructor
  · rintro rfl
    rw [h.no_level] at hcontains
    cases hcontains
  · rintro rfl
    rw [h.no_path] at hcontains
    cases hcontains

/-- What is written for the row is a row of the table. -/
structure Model.Stores (m : Model) (row : Record) (r : PlacedRow) : Prop where
  key : m.storedCell row m.key = r.key
  parent : m.storedCell row m.entry.parentField = r.parent
  level : ∃ i : Int64, i.toInt = r.level ∧ m.storedCell row m.entry.levelField = .int i
  path : m.storedCell row m.entry.pathField = .text r.path

theorem Model.Stores.unique {m : Model} {row : Record} {r r' : PlacedRow} (h : m.Stores row r)
    (h' : m.Stores row r') : r = r' := by
  obtain ⟨key, parent, level, path⟩ := r
  obtain ⟨key', parent', level', path'⟩ := r'
  obtain rfl : key = key' := h.key.symm.trans h'.key
  obtain rfl : parent = parent' := h.parent.symm.trans h'.parent
  obtain rfl : path = path' := Cell.text.inj (h.path.symm.trans h'.path)
  obtain ⟨i, rfl, hi⟩ := h.level
  obtain ⟨j, rfl, hj⟩ := h'.level
  obtain rfl : i = j := Cell.int.inj (hi.symm.trans hj)
  rfl

namespace Trees

/-- A row with the place that the row above gives it. -/
def placeUnder (m : Model) (above : Option Record) (row : Record) : Record :=
  withPath m.entry m.key above (withLevel m.entry above row)

section Place

variable {m : Model} {T : PlacedTable} {row : Record} {key parent : Cell}

theorem placeUnder_eq (hm : m.DerivesPlaces) (h : NewNode m T row key parent)
    (above : Option Record) :
    placeUnder m above row =
      (row.set m.entry.levelField (.int (levelUnder m.entry.levelField above))).set
        m.entry.pathField (.text (pathUnder m.entry.pathField above key.display)) := by
  have hkey := (h.ne_of_given h.key_given).1
  have hlevel : withLevel m.entry above row =
      row.set m.entry.levelField (.int (levelUnder m.entry.levelField above)) :=
    if_pos ⟨hm.level_named, by rw [h.no_level]; rfl⟩
  have hshown : ((withLevel m.entry above row).get? m.key).filter (!·.isBlank) = some key := by
    rw [hlevel, Record.get?_set_of_ne hkey, h.key_given, Option.filter_some, h.key_filled]
    rfl
  -- the level is written first, into a column that is not the path's, so the path is still free
  have hfree : (withLevel m.entry above row).contains m.entry.pathField = false := by
    rw [hlevel, Record.contains_eq, Record.get?_set_of_ne hm.columns_ne.symm, ← Record.contains_eq,
      h.no_path]
  rw [placeUnder, withPath, hshown]
  dsimp only
  rw [if_pos ⟨hm.path_named, by rw [hfree]; rfl⟩, hlevel]

/-- All columns but the level and the path are as they were given. -/
theorem get?_placeUnder (hm : m.DerivesPlaces) (h : NewNode m T row key parent)
    (above : Option Record) {column : String} (hlevel : column ≠ m.entry.levelField)
    (hpath : column ≠ m.entry.pathField) :
    (placeUnder m above row).get? column = row.get? column := by
  rw [placeUnder_eq hm h, Record.get?_set_of_ne hpath, Record.get?_set_of_ne hlevel]

theorem stores_placeUnder (hm : m.DerivesPlaces) (h : NewNode m T row key parent)
    {above : Option Record} {level : Int} {path : String}
    (hlevel : (levelUnder m.entry.levelField above).toInt = level)
    (hpath : pathUnder m.entry.pathField above key.display = path) :
    m.Stores (placeUnder m above row) ⟨m.boundKey key, m.boundParent parent, level, path⟩ := by
  have hgiven : ∀ {column : String} {v : Cell}, row.get? column = some v →
      m.storedCell (placeUnder m above row) column = coerceTo (m.field? column) v := by
    intro column v hv
    obtain ⟨hnotLevel, hnotPath⟩ := h.ne_of_given hv
    rw [Model.storedCell, get?_placeUnder hm h above hnotLevel hnotPath, hv, Option.getD_some]
  refine ⟨hgiven h.key_given, hgiven h.parent_given, ?_, ?_⟩
  · obtain ⟨f, hf, hinteger⟩ := hm.level_integer
    refine ⟨_, hlevel, ?_⟩
    rw [Model.storedCell, placeUnder_eq hm h, Record.get?_set_of_ne hm.columns_ne,
      Record.get?_set_self, hf]
    exact f.coerce_int hinteger _
  · obtain ⟨f, hf, htextual⟩ := hm.path_textual
    rw [Model.storedCell, placeUnder_eq hm h, Record.get?_set_self, hpath, hf]
    exact f.coerce_text htextual _

end Place

/-! ### The row above -/

/-- Where the log answers the query for the row with a key, it shows the place of the row of the
    table that has the key.  It answers without rows only when there is none. -/
def PlacesFrom (m : Model) (T : PlacedTable) (log : List Event) : Prop :=
  ∀ key q rows affected, Rows.keyQuery m key = .ok q →
    .executed (.data m.connection) false q.statement.text q.statement.args
      (.rows rows affected) ∈ log →
    (rows = [] ∧ (m.boundKey key).display ∉ T.texts) ∨
      ∃ row ∈ rows.head?, ∃ p ∈ T, p.key.display = (m.boundKey key).display ∧
        m.ShowsPlace row.record p

theorem PlacesFrom.mono {m : Model} {T : PlacedTable} {log log' : List Event}
    (h : PlacesFrom m T log) (hsub : log' ⊆ log) : PlacesFrom m T log' :=
  fun key q rows affected hq hmem => h key q rows affected hq (hsub hmem)

/-- The record that a new row is put under: none under the root, and else one that shows the place
    of the parent. -/
inductive RowAbove (m : Model) (T : PlacedTable) (text : String) : Option Record → Prop where
  | top (hroot : isRootKey text = true) : RowAbove m T text none
  | under {record : Record} (p : PlacedRow) (hp : p ∈ T) (hnot : isRootKey text = false)
      (hkey : p.key.display = text) (hshows : m.ShowsPlace record p) :
      RowAbove m T text (some record)

/-- The row is a given one with a place, and the table with it behind is right again. -/
structure Extends (m : Model) (T : PlacedTable) (row : Record) (key parent : Cell) (row' : Record)
    (r : PlacedRow) : Prop where
  columns : ∀ column, column ≠ m.entry.levelField → column ≠ m.entry.pathField →
    row'.get? column = row.get? column
  stores : m.Stores row' r
  key_eq : r.key = m.boundKey key
  parent_eq : r.parent = m.boundParent parent
  placed : Placed (T ++ [r])
  level_le : ∀ x ∈ T ++ [r], x.level ≤ T.length + 1
  path_keys : IsPathKey key.display → PathKeys (T ++ [r])
  distinct : T.texts.Nodup → (texts (T ++ [r])).Nodup

section Extending

variable {m : Model} {T : PlacedTable} {row : Record} {key parent : Cell}

theorem extends_of_hasPlace {above : Option Record} {level : Int} {path : String}
    (hm : m.DerivesPlaces) (hnew : NewNode m T row key parent) (hplaced : Placed T)
    (hkeys : PathKeys T) (hlevel : (levelUnder m.entry.levelField above).toInt = level)
    (hpath : pathUnder m.entry.pathField above key.display = path)
    (hplace : HasPlace T ⟨m.boundKey key, m.boundParent parent, level, path⟩) :
    Extends m T row key parent (placeUnder m above row)
      ⟨m.boundKey key, m.boundParent parent, level, path⟩ where
  columns := fun _ => get?_placeUnder hm hnew above
  stores := stores_placeUnder hm hnew hlevel hpath
  key_eq := rfl
  parent_eq := rfl
  placed := hplaced.snoc hplace
  level_le := fun x hx => by simpa using (hplaced.snoc hplace).level_le_length hx
  path_keys := fun hplain => hkeys.snoc (by rw [hnew.key_kept]; exact hplain)
  distinct := fun hdistinct =>
    nodup_texts_snoc hdistinct (by rw [hnew.key_kept]; exact hnew.key_new)

/-- What is derived from the row above has its place in the table. -/
theorem extends_of_rowAbove {above : Option Record} (hm : m.DerivesPlaces)
    (hnew : NewNode m T row key parent) (hplaced : Placed T) (hkeys : PathKeys T)
    (hless : ∀ r ∈ T, r.level < 2 ^ 53) (h : RowAbove m T parent.display above) :
    ∃ r, Extends m T row key parent (placeUnder m above row) r := by
  cases h with
  | top hroot =>
    -- no row above: the new row is a root, of level one
    refine ⟨_, extends_of_hasPlace hm hnew hplaced hkeys (levelUnder_none _) (pathUnder_none _ _)
      (.top ?_ rfl ?_)⟩
    · rw [hnew.parent_kept]
      exact hroot
    · rw [hnew.key_kept]
  | @under record p hp hnot hkey hshows =>
    -- the level of the row above is below 2 ^ 53, where the float reads it exactly
    have hlevel := levelUnder_of_shows hshows (hplaced.level_pos hp) (hless p hp)
    have hpath := pathUnder_of_shows hshows (hplaced p hp) (hkeys p hp) key.display
    refine ⟨_, extends_of_hasPlace hm hnew hplaced hkeys hlevel hpath
      (.under p hp ?_ ?_ rfl ?_)⟩
    · rw [hnew.parent_kept]
      exact hnot
    · rw [hnew.parent_kept]
      exact hkey
    · rw [hnew.key_kept]

end Extending

/-! ### Looking for the row above -/

/-- What is made of the row that was found. -/
def foundAbove (text : String) : Option Record → Action (Option Record)
  | some row => pure (some row)
  | none => throw (.notFound (.parentNode text))

section Above

variable {model text : String} {m : Model} {T : PlacedTable} {answer : String → List Cell → Reply}
  {s : Session} {log : List Event}

theorem parentRow_of_root (h : isRootKey text = true) : parentRow model text = pure none := by
  rw [parentRow, if_pos h]

theorem parentRow_of_not_root (h : isRootKey text = false) :
    parentRow model text = Rows.get? model (.text text) >>= foundAbove text := by
  rw [parentRow, if_neg (by simp [h])]
  refine congrArg (Rows.get? model (.text text) >>= ·) (funext fun row? => ?_)
  cases row? with
  | none => rfl
  | some row => rfl

theorem foundAbove_steady (text : String) (row? : Option Record) :
    (foundAbove text row?).Steady := by
  cases row? with
  | none => exact steady_throw _
  | some row => exact steady_pure _

theorem parentRow_steady (model text : String) : (parentRow model text).Steady := by
  cases h : isRootKey text with
  | true =>
    rw [parentRow_of_root h]
    exact steady_pure none
  | false =>
    rw [parentRow_of_not_root h]
    exact (Rows.get?_steady model _).bind (foundAbove_steady text)

/-- All texts of the root are treated alike. -/
theorem parentRow_parentKey (model : String) (v : Cell) :
    parentRow model (parentKey (some v)) = parentRow model v.display := by
  by_cases hv : v.display = ""
  · have hroot : isRootKey rootKey = true := by decide
    have hempty : isRootKey "" = true := by decide
    rw [parentKey, keyText, if_pos hv, hv, parentRow_of_root hroot, parentRow_of_root hempty]
  · rw [parentKey, keyText, if_neg hv]

/-- The row with a key, read from the table. -/
theorem read_of_get? (hload : (Metadata.model model).Finds m answer s) {t : Session}
    {row? : Option Record} (hrun : (Rows.get? model (.text text)).exec s = (.ok row?, t))
    (hlog : t.events = s.events ++ log) (hgives : ∀ ev ∈ log, ev.Gives answer)
    (hplaces : PlacesFrom m T log) (hsought : (m.boundKey (.text text)).display = text) :
    (row? = none ∧ text ∉ T.texts) ∨
      ∃ record, row? = some record ∧ ∃ p ∈ T, p.key.display = text ∧ m.ShowsPlace record p := by
  obtain ⟨q, rows, affected, hq, hmem, rfl, -⟩ := Rows.asked_of_get? hload hrun hlog hgives
  have hanswer := hplaces _ q rows affected hq hmem
  rw [hsought] at hanswer
  rcases hanswer with ⟨rfl, hmissing⟩ | ⟨row, hrow, p, hp, hkey, hshows⟩
  · exact .inl ⟨rfl, hmissing⟩
  · refine .inr ⟨row.record, ?_, p, hp, hkey, hshows⟩
    rw [List.head?_map, hrow, Option.map_some]

theorem rowAbove_of_parentRow (hload : (Metadata.model model).Finds m answer s) {t : Session}
    {above : Option Record} (hrun : (parentRow model text).exec s = (.ok above, t))
    (hlog : t.events = s.events ++ log) (hgives : ∀ ev ∈ log, ev.Gives answer)
    (hplaces : PlacesFrom m T log)
    (hsought : isRootKey text = false → (m.boundKey (.text text)).display = text) :
    RowAbove m T text above := by
  cases hroot : isRootKey text with
  | true =>
    rw [parentRow_of_root hroot] at hrun
    obtain ⟨habove, -⟩ := Prod.mk.inj hrun
    obtain rfl := Except.ok.inj habove
    exact .top hroot
  | false =>
    rw [parentRow_of_not_root hroot] at hrun
    obtain ⟨row?, u, hget, hfound⟩ := ok_of_exec_bind hrun
    cases row? with
    | none => cases hfound
    | some record =>
      obtain ⟨habove, rfl⟩ := Prod.mk.inj hfound
      obtain rfl := Except.ok.inj habove
      -- the row that is read is one of the table, since its reply is given by the table
      rcases read_of_get? hload hget hlog hgives hplaces (hsought hroot) with
        ⟨hnone, -⟩ | ⟨record', hsome, p, hp, hkey, hshows⟩
      · cases hnone
      · obtain rfl := Option.some.inj hsome
        exact .under p hp hroot hkey hshows

/-- The row of the parent is found when it is read and there is one. -/
theorem parentRow_of_mem (hload : (Metadata.model model).Finds m answer s) {t : Session}
    {row? : Option Record} (hget : (Rows.get? model (.text text)).exec s = (.ok row?, t))
    (hlog : t.events = s.events ++ log) (hgives : ∀ ev ∈ log, ev.Gives answer)
    (hplaces : PlacesFrom m T log) (hsought : (m.boundKey (.text text)).display = text)
    (hroot : isRootKey text = false) (hmem : text ∈ T.texts) :
    (parentRow model text).exec s = (.ok row?, t) := by
  rw [parentRow_of_not_root hroot, exec_bind_of_ok hget]
  rcases read_of_get? hload hget hlog hgives hplaces hsought with
    ⟨-, hmissing⟩ | ⟨record, rfl, -⟩
  · exact absurd hmem hmissing
  · rfl

/-- Without a row for its key the parent is not found. -/
theorem parentRow_of_not_mem (hload : (Metadata.model model).Finds m answer s) {t : Session}
    {row? : Option Record} (hget : (Rows.get? model (.text text)).exec s = (.ok row?, t))
    (hlog : t.events = s.events ++ log) (hgives : ∀ ev ∈ log, ev.Gives answer)
    (hplaces : PlacesFrom m T log) (hsought : (m.boundKey (.text text)).display = text)
    (hroot : isRootKey text = false) (hmissing : text ∉ T.texts) :
    (parentRow model text).exec s = (.error (.notFound (.parentNode text)), t) := by
  rw [parentRow_of_not_root hroot, exec_bind_of_ok hget]
  rcases read_of_get? hload hget hlog hgives hplaces hsought with
    ⟨rfl, -⟩ | ⟨record, -, p, hp, hkey, -⟩
  · rfl
  · rw [← hkey] at hmissing
    exact absurd (List.mem_map_of_mem hp) hmissing

/-- A parent that cannot be read ends the search. -/
theorem parentRow_of_error {t : Session} {e : Fault} (hroot : isRootKey text = false)
    (hget : (Rows.get? model (.text text)).exec s = (.error e, t)) :
    (parentRow model text).exec s = (.error e, t) := by
  rw [parentRow_of_not_root hroot, exec_bind_of_error hget]

end Above

/-! ### Adding a node -/

/-- A row added, once its model is known. -/
def addIn (model : String) (row : Record) (m : Model) : Action Record :=
  if m.entry.levelField = "" ∧ m.entry.pathField = "" then Rows.create model row
  else parentRow model (parentKey (row.get? m.entry.parentField)) >>= fun above =>
    Rows.create model (placeUnder m above row)

theorem add_eq (model : String) (row : Record) :
    add model row = treeModel model >>= addIn model row := by
  unfold add
  refine congrArg (treeModel model >>= ·) (funext fun m => ?_)
  unfold addIn
  split
  · rfl
  · rfl

section Adding

variable {model : String} {m : Model} {T : PlacedTable} {row : Record} {key parent : Cell}
  {answer : String → List Cell → Reply} {log : List Event}

theorem addIn_eq (hm : m.DerivesPlaces) (h : NewNode m T row key parent) :
    addIn model row m = parentRow model parent.display >>= fun above =>
      Rows.create model (placeUnder m above row) := by
  rw [addIn, if_neg fun hnone => hm.level_named hnone.1, h.parent_given, parentRow_parentKey]

theorem addIn_steady (model : String) (row : Record) (m : Model) :
    (addIn model row m).Steady := by
  unfold addIn
  split
  · exact Rows.create_steady model row
  · exact (parentRow_steady model _).bind fun above => Rows.create_steady model _

section Running

variable {s t : Session} {above : Option Record}

theorem exec_addIn_of_above (hm : m.DerivesPlaces) (hnew : NewNode m T row key parent)
    (hparent : (parentRow model parent.display).exec s = (.ok above, t)) :
    (addIn model row m).exec s = (Rows.create model (placeUnder m above row)).exec t := by
  rw [addIn_eq hm hnew, exec_bind_of_ok hparent]

theorem exec_addIn_of_error (hm : m.DerivesPlaces) (hnew : NewNode m T row key parent) {e : Fault}
    (hparent : (parentRow model parent.display).exec s = (.error e, t)) :
    (addIn model row m).exec s = (.error e, t) := by
  rw [addIn_eq hm hnew, exec_bind_of_error hparent]

/-- An addition ends where the parent is looked for in vain, and until then it only reads. -/
theorem quiet_of_parentRow_error (hm : m.DerivesPlaces) (hnew : NewNode m T row key parent)
    {e : Fault} (hparent : (parentRow model parent.display).exec s = (.error e, t))
    (hlog : ((addIn model row m).exec s).2.events = s.events ++ log) : ∀ ev ∈ log, Quiet ev := by
  rw [exec_addIn_of_error hm hnew hparent] at hlog
  exact (Logs.of_run (parentRow_quiet model parent.display) hparent hlog).1

/-- The log of an addition starts with that of the look at the parent. -/
theorem log_of_get? (hm : m.DerivesPlaces) (hnew : NewNode m T row key parent)
    (hroot : isRootKey parent.display = false) {row? : Option Record}
    (hget : (Rows.get? model (.text parent.display)).exec s = (.ok row?, t))
    (hlog : ((addIn model row m).exec s).2.events = s.events ++ log) :
    ∃ read, t.events = s.events ++ read ∧ read ⊆ log := by
  have hsteady := Rows.get?_steady model (.text parent.display) s
  rw [hget] at hsteady
  obtain ⟨read, hread⟩ := hsteady.log
  refine ⟨read, hread, ?_⟩
  have hparent := exec_bind_of_ok (f := foundAbove parent.display) hget
  rw [← parentRow_of_not_root hroot] at hparent
  -- without a parent row the call ends there; with one, the INSERT stands behind the lookup
  cases row? with
  | none =>
    rw [exec_addIn_of_error hm hnew hparent] at hlog
    rw [List.append_cancel_left (hread.symm.trans hlog)]
    exact List.Subset.refl log
  | some record =>
    rw [addIn_eq hm hnew] at hlog
    obtain ⟨rest, rfl, -⟩ :=
      log_behind (fun above => Rows.create_steady model _) hparent hread hlog
    exact List.subset_append_left read rest

/-- What an addition that succeeds inserts is placed under the row that it found for the parent. -/
theorem inserts_placeUnder {text : String} {row' : Record}
    (hload : (Metadata.model model).Finds m answer s)
    (hrun : (parentRow model text >>= fun above =>
      Rows.create model (placeUnder m above row)).exec s = (.ok row', t))
    (hlog : t.events = s.events ++ log) (hgives : ∀ ev ∈ log, ev.Gives answer) :
    ∃ above u read, (parentRow model text).exec s = (.ok above, u) ∧
      u.events = s.events ++ read ∧ read ⊆ log ∧ row' = placeUnder m above row ∧
      Inserts m row' log := by
  obtain ⟨above, u, read, rest, habove, hcreate, hsu, -, hu, ht, rfl⟩ :=
    (parentRow_steady model _).split (fun above => Rows.create_steady model _) hrun hlog
  obtain ⟨rfl, hinserts⟩ := Rows.inserts_of_create (hload.of_precedes hsu) hcreate ht fun ev hev =>
    hgives ev (List.mem_append_right _ hev)
  obtain ⟨hquiet, -⟩ := Logs.of_run (parentRow_quiet model text) habove hu
  exact ⟨above, u, read, habove, hu, List.subset_append_left _ _, rfl, hinserts.behind hquiet⟩

/-- With its model known, an addition that succeeds inserts the row with its place. -/
theorem inserts_of_addIn {row' : Record} (hm : m.DerivesPlaces)
    (hnew : NewNode m T row key parent) (hplaced : Placed T) (hkeys : PathKeys T)
    (hless : ∀ r ∈ T, r.level < 2 ^ 53) (hload : (Metadata.model model).Finds m answer s)
    (hrun : (addIn model row m).exec s = (.ok row', t)) (hlog : t.events = s.events ++ log)
    (hgives : ∀ ev ∈ log, ev.Gives answer) (hplaces : PlacesFrom m T log) :
    Inserts m row' log ∧ ∃ r, Extends m T row key parent row' r := by
  rw [addIn_eq hm hnew] at hrun
  obtain ⟨above, u, read, habove, hu, hsub, rfl, hinserts⟩ :=
    inserts_placeUnder hload hrun hlog hgives
  have hrow := rowAbove_of_parentRow hload habove hu (fun ev hev => hgives ev (hsub hev))
    (hplaces.mono hsub) hnew.parent_sought
  exact ⟨hinserts, extends_of_rowAbove hm hnew hplaced hkeys hless hrow⟩

/-- An addition that succeeds inserts the row with its place. -/
theorem inserts_of_add {row' : Record} (hm : (treeModel model).exec s = (.ok m, t))
    (hderives : m.DerivesPlaces) (hplaced : Placed T) (hkeys : PathKeys T)
    (hless : ∀ r ∈ T, r.level < 2 ^ 53) (hnew : NewNode m T row key parent)
    (hlog : ((add model row).exec s).2.events = s.events ++ log)
    (hgives : ∀ ev ∈ log, ev.Gives answer) (hplaces : PlacesFrom m T log)
    (hok : ((add model row).exec s).1 = .ok row') :
    Inserts m row' log ∧ ∃ r, Extends m T row key parent row' r := by
  rw [add_eq] at hlog hok
  obtain ⟨first, rest, rfl, hquiet, -, hload, hrest⟩ :=
    behind_treeModel (addIn_steady model row) hm hlog hgives
  rw [exec_bind_of_ok hm] at hok
  rcases hrun : (addIn model row m).exec t with ⟨e | row'', u⟩
  · rw [hrun] at hok
    cases hok
  · rw [hrun] at hok hrest
    obtain rfl := Except.ok.inj hok
    obtain ⟨hinserts, hextends⟩ :=
      inserts_of_addIn hderives hnew hplaced hkeys hless hload hrun hrest
        (fun ev hev => hgives ev (List.mem_append_right _ hev))
        (hplaces.mono (List.subset_append_right _ _))
    -- reading the metadata changes no row
    exact ⟨hinserts.behind hquiet, hextends⟩

/-- **Adding a node keeps levels and paths right.**  In a table whose rows have their places, a row
    that is added under the root or under a row of the table is created with its own place and with
    all else as it was given, and when that succeeds, it was inserted.  When there is no row for the
    parent, it is not found, and nothing but SELECTs was sent; nor was it when reading fails. -/
theorem add_keeps_places (hm : (treeModel model).exec s = (.ok m, t))
    (hderives : m.DerivesPlaces) (hplaced : Placed T) (hkeys : PathKeys T)
    (hless : ∀ r ∈ T, r.level < 2 ^ 53) (hnew : NewNode m T row key parent)
    (hlog : ((add model row).exec s).2.events = s.events ++ log)
    (hgives : ∀ ev ∈ log, ev.Gives answer) (hplaces : PlacesFrom m T log) :
    (∀ row', ((add model row).exec s).1 = .ok row' →
      Inserts m row' log ∧ ∃ r, Extends m T row key parent row' r) ∧
    (isRootKey parent.display = true → ∃ row' r, Extends m T row key parent row' r ∧
      (add model row).exec s = (Rows.create model row').exec t) ∧
    (isRootKey parent.display = false →
      (∀ row? u, (Rows.get? model (.text parent.display)).exec t = (.ok row?, u) →
        (parent.display ∈ T.texts → ∃ row' r, Extends m T row key parent row' r ∧
          (add model row).exec s = (Rows.create model row').exec u) ∧
        (parent.display ∉ T.texts → (∀ ev ∈ log, Quiet ev) ∧
          (add model row).exec s = (.error (.notFound (.parentNode parent.display)), u))) ∧
      (∀ e u, (Rows.get? model (.text parent.display)).exec t = (.error e, u) →
        (∀ ev ∈ log, Quiet ev) ∧ (add model row).exec s = (.error e, u))) := by
  refine ⟨fun row' hok =>
    inserts_of_add hm hderives hplaced hkeys hless hnew hlog hgives hplaces hok, ?_⟩
  rw [add_eq] at hlog ⊢
  obtain ⟨first, rest, rfl, hquiet, -, hload, hrest⟩ :=
    behind_treeModel (addIn_steady model row) hm hlog hgives
  have hall : (∀ ev ∈ rest, Quiet ev) → ∀ ev ∈ first ++ rest, Quiet ev := by
    intro hreads ev hev
    rcases List.mem_append.1 hev with hev | hev
    · exact hquiet ev hev
    · exact hreads ev hev
  rw [exec_bind_of_ok hm]
  refine ⟨fun hroot => ?_, fun hroot => ⟨fun row? u hget => ?_, fun e u hget => ?_⟩⟩
  -- a top row asks nothing
  · have hparent : (parentRow model parent.display).exec t = (.ok none, t) := by
      rw [parentRow_of_root hroot]
      rfl
    obtain ⟨r, hr⟩ := extends_of_rowAbove hderives hnew hplaced hkeys hless (.top hroot)
    exact ⟨_, r, hr, exec_addIn_of_above hderives hnew hparent⟩
  · obtain ⟨read, hread, hsub⟩ := log_of_get? hderives hnew hroot hget hrest
    have hgivesRead : ∀ ev ∈ read, ev.Gives answer :=
      fun ev hev => hgives ev (List.mem_append_right _ (hsub hev))
    have hplacesRead := hplaces.mono fun ev hev => List.mem_append_right first (hsub hev)
    have hsought := hnew.parent_sought hroot
    -- the table decides whether the read finds the parent or ends in NotFound
    refine ⟨fun hmem => ?_, fun hmissing => ?_⟩
    · have hparent := parentRow_of_mem hload hget hread hgivesRead hplacesRead hsought hroot hmem
      obtain ⟨r, hr⟩ := extends_of_rowAbove hderives hnew hplaced hkeys hless
        (rowAbove_of_parentRow hload hparent hread hgivesRead hplacesRead fun _ => hsought)
      exact ⟨_, r, hr, exec_addIn_of_above hderives hnew hparent⟩
    · have hparent :=
        parentRow_of_not_mem hload hget hread hgivesRead hplacesRead hsought hroot hmissing
      exact ⟨hall (quiet_of_parentRow_error hderives hnew hparent hrest),
        exec_addIn_of_error hderives hnew hparent⟩
  · have hparent := parentRow_of_error hroot hget
    exact ⟨hall (quiet_of_parentRow_error hderives hnew hparent hrest),
      exec_addIn_of_error hderives hnew hparent⟩

end Running

end Adding

/-! ### A tree of folders -/

/-- A tree of folders with levels and paths. -/
def folders : Model where
  entry := {
    id := "dir", code := "dir", connection := "main", isTree := true, parentField := "parent"
    levelField := "level", pathField := "path" }
  tables := [{ id := "t", model := "dir", name := "folders" }]
  fields := [
    { id := "k", model := "dir", column := "id", type := "integer", isKey := true },
    { id := "p", model := "dir", column := "parent", type := "integer" },
    { id := "l", model := "dir", column := "level", type := "integer" },
    { id := "w", model := "dir", column := "path", type := "string" }]
  dialect := .mysql

theorem folders_derivesPlaces : folders.DerivesPlaces where
  level_named := by decide
  path_named := by decide
  level_integer := ⟨_, rfl, by decide⟩
  path_textual := ⟨_, rfl, by decide⟩

/-- The folders, one below the other. -/
def folderRows : PlacedTable := [⟨.int 1, .int 0, 1, "/1"⟩, ⟨.int 2, .int 1, 2, "/1/2"⟩]

theorem folderRows_placed : Placed folderRows := by
  intro r hr
  rcases List.mem_cons.1 hr with rfl | hr
  · exact .top (by decide) rfl (by decide)
  · rw [List.mem_singleton.1 hr]
    exact .under _ List.mem_cons_self (by decide) rfl rfl (by decide)

theorem folderRows_pathKeys : PathKeys folderRows := by
  unfold PathKeys
  decide

/-- A folder to be put into the second one. -/
def folderToAdd : Record := ⟨[("id", .int 3), ("parent", .int 2)]⟩

theorem folderToAdd_isNew : NewNode folders folderRows folderToAdd (.int 3) (.int 2) where
  key_given := rfl
  key_filled := rfl
  key_kept := rfl
  key_new := by decide
  parent_given := rfl
  parent_kept := rfl
  parent_sought := fun _ => by decide
  no_level := by decide
  no_path := by decide

/-- The second folder, as it is read. -/
def folderReadRow : SourceRow :=
  [("id", .integer 2), ("parent", .integer 1), ("level", .integer 2), ("path", .text "/1/2")]

def folderSelect : Select :=
  { Select.all .mysql (.ofText "`folders`") with
    columns := ["`id`", "`parent`", "`level`", "`path`"] }

def folderQuery (key : Cell) : Select :=
  { folderSelect with required := [(Fragment.ofText "`folders`.`id` = ").putArg key] }

theorem compile_folders : folders.compile [] = .ok folderSelect :=
  Model.compile_of_no_joins rfl rfl rfl rfl

theorem keyQuery_folders (key : Cell) :
    Rows.keyQuery folders key = .ok (folderQuery (folders.boundKey key)) :=
  Rows.keyQuery_of_compile compile_folders (by decide) rfl

theorem args_folderQuery (key : Cell) :
    (folderQuery key).statement.args = [key].filter (!·.isNull) := by
  rw [Select.statement_eq]
  simp [folderQuery, folderSelect, Select.arguments, Select.all]

def folderInsert : Statement :=
  ⟨.mysql, "INSERT INTO `folders` (`id`, `parent`, `level`, `path`) VALUES (?, ?, ?, ?)",
    [.int 3, .int 2, .int 3, .text "/1/2/3"]⟩

/-- What the addition asks and does. -/
def folderLog : List Event := [
  .executed (.data "main") false (folderQuery (.int 2)).statement.text
    (folderQuery (.int 2)).statement.args (.rows [folderReadRow] 0),
  .executed (.data "main") false folderInsert.text folderInsert.args (.rows [] 0)]

def folderSession : Session := sessionOf folders [.rows [folderReadRow] 0]

/-- The folder with its place. -/
def folderAdded : Record :=
  ⟨[("id", .int 3), ("parent", .int 2), ("level", .int 3), ("path", .text "/1/2/3")]⟩

theorem treeModel_folders :
    (treeModel "dir").exec folderSession = (.ok folders, folderSession) := rfl

theorem add_folder : (add "dir" folderToAdd).exec folderSession =
    (.ok folderAdded, { sessionOf folders [] with events := folderLog }) := by
  have hget := Rows.exec_get? (model_of_treeModel treeModel_folders) rfl
    (keyQuery_folders (.text (Cell.int 2).display)) rfl
  have hbound : folders.boundKey (.text (Cell.int 2).display) = .int 2 := by decide
  have hplace : placeUnder folders (some folderReadRow.record) folderToAdd = folderAdded := by
    decide
  rw [hbound] at hget
  have hparent := exec_bind_of_ok (f := foundAbove (Cell.int 2).display) hget
  rw [← parentRow_of_not_root (by decide)] at hparent
  rw [add_eq, exec_bind_of_ok treeModel_folders, addIn_eq folders_derivesPlaces folderToAdd_isNew,
    exec_bind_of_ok hparent, hplace]
  have hcreation : Rows.creation "dir" folders [folderAdded] Pattern.read = .ok folderInsert := by
    decide
  exact Rows.exec_create (m := folders) rfl rfl hcreation rfl

theorem folderLog_places : PlacesFrom folders folderRows folderLog := by
  intro key q rows affected hq hmem
  rw [keyQuery_folders] at hq
  obtain rfl := Except.ok.inj hq
  rcases List.mem_cons.1 hmem with hread | hinsert
  · obtain ⟨-, -, -, hargs, hreply⟩ := Event.executed.inj hread
    rw [args_folderQuery, args_folderQuery] at hargs
    obtain ⟨rfl, -⟩ := Reply.rows.inj hreply
    have hbound : Cell.int 2 ∈ [folders.boundKey key].filter (!·.isNull) := by
      rw [hargs]
      exact List.mem_singleton_self _
    rw [← List.mem_singleton.1 (List.mem_of_mem_filter hbound)]
    exact .inr ⟨_, rfl, ⟨.int 2, .int 1, 2, "/1/2"⟩, by decide, rfl, ⟨2, by decide, rfl⟩, rfl⟩
  · -- the INSERT is no query
    obtain ⟨-, -, htext, -⟩ := Event.executed.inj (List.mem_singleton.1 hinsert)
    have hchange := (folderQuery (folders.boundKey key)).isChangeText_statement
    rw [htext] at hchange
    exact absurd hchange (by decide)

theorem folder_keeps_places :
    ((add "dir" folderToAdd).exec folderSession).1 = .ok folderAdded ∧
    Inserts folders folderAdded folderLog ∧
    ∃ r, Extends folders folderRows folderToAdd (.int 3) (.int 2) folderAdded r ∧
      PathKeys (folderRows ++ [r]) := by
  have hok : ((add "dir" folderToAdd).exec folderSession).1 = .ok folderAdded := by
    rw [add_folder]
  have hlog : ((add "dir" folderToAdd).exec folderSession).2.events =
      folderSession.events ++ folderLog := by
    rw [add_folder]
    exact (List.nil_append folderLog).symm
  have hgives : ∀ ev ∈ folderLog, ev.Gives fun _ _ => .rows [] 0 := by
    simp [folderLog, Event.Gives]
  obtain ⟨hadded, -⟩ := add_keeps_places treeModel_folders folders_derivesPlaces folderRows_placed
    folderRows_pathKeys (by decide) folderToAdd_isNew hlog hgives folderLog_places
  obtain ⟨hinserts, r, hextends⟩ := hadded folderAdded hok
  exact ⟨hok, hinserts, r, hextends, hextends.path_keys (by decide)⟩

/-! ### A history of additions -/

/-- The table grows to another one by additions of rows whose keys can stand on paths. -/
inductive Grows (model : String) (m : Model) (T : PlacedTable) : PlacedTable → Prop where
  | refl : Grows model m T T
  | add {T' : PlacedTable} {row row' : Record} {key parent : Cell}
      {answer : String → List Cell → Reply} {s t : Session} {log : List Event} {r : PlacedRow}
      (h : Grows model m T T') (hm : (treeModel model).exec s = (.ok m, t))
      (hnew : NewNode m T' row key parent) (hplain : IsPathKey key.display)
      (hlog : ((add model row).exec s).2.events = s.events ++ log)
      (hgives : ∀ ev ∈ log, ev.Gives answer) (hplaces : PlacesFrom m T' log)
      (hok : ((add model row).exec s).1 = .ok row') (hstores : m.Stores row' r) :
      Grows model m T (T' ++ [r])

/-- **A table that grows by additions keeps its places**, as long as its levels are exact as
    doubles. -/
theorem Grows.keeps {model : String} {m : Model} {T T' : PlacedTable} (h : Grows model m T T')
    (hderives : m.DerivesPlaces) (hplaced : Placed T) (hkeys : PathKeys T)
    (hsmall : T'.length ≤ 2 ^ 53) : Placed T' ∧ PathKeys T' := by
  -- on the history: a table of at most 2 ^ 53 rows has no level beyond it, which is what
  -- one more row asks for
  induction h with
  | refl => exact ⟨hplaced, hkeys⟩
  | @add T' row row' key parent answer s t log r _ hm hnew hplain hlog hgives hplaces hok hstores
      ih =>
    rw [List.length_append, List.length_singleton] at hsmall
    obtain ⟨hplaced', hkeys'⟩ := ih (by omega)
    have hless : ∀ x ∈ T', x.level < 2 ^ 53 := by
      intro x hx
      have hle := hplaced'.level_le_length hx
      omega
    obtain ⟨-, r', hextends⟩ :=
      inserts_of_add hm hderives hplaced' hkeys' hless hnew hlog hgives hplaces hok
    -- the row the history appends is the one the call stores
    obtain rfl := hstores.unique hextends.stores
    exact ⟨hextends.placed, hextends.path_keys hplain⟩

end Trees

end MetaQuery
