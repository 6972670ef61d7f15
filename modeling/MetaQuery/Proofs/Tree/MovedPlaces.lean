/-
  MetaQuery/Proofs/Tree/MovedPlaces.lean
  ======================================
  What a move makes of levels and paths.

  A move changes the parent column of the rows whose key its UPDATE matches; how the datasource
  compares keys is left open.  The levels and the paths of those rows and of all rows below them
  stay as they were, so every other row keeps the place that its parent gives it, while a moved
  one is left with the place that it had under its old parent.  As a path says which parent it
  goes on from (`HasPlace.parentKey_eq`), that is its place after the move only where the old
  parent is the new one.
-/
import MetaQuery.Proofs.Tree.Adding
import MetaQuery.Proofs.Tree.Records

namespace MetaQuery

/-! ### Another parent for a row with its place -/

namespace PlacedTable

variable {T T' : PlacedTable} {r r' : PlacedRow}

def reparent (same : Cell → Cell → Bool) (key parent : Cell) (T : PlacedTable) : PlacedTable :=
  T.map fun r => if same r.key key then { r with parent := parent } else r

/-- The rows agree in all columns but that of the parent. -/
structure SamePlace (r r' : PlacedRow) : Prop where
  key : r'.key = r.key
  level : r'.level = r.level
  path : r'.path = r.path

/-- A row keeps its place while the keys, the levels and the paths of the table stay, and its
    parent has the same key. -/
theorem HasPlace.of_same (h : HasPlace T r) (hsame : SamePlace r r')
    (hparent : parentKey (some r'.parent) = parentKey (some r.parent))
    (htable : ∀ p ∈ T, ∃ p' ∈ T', SamePlace p p') : HasPlace T' r' := by
  cases h with
  | top hroot hlevel hpath =>
    have hroot' : parentKey (some r.parent) = rootKey := parentKey_eq_rootKey_iff.2 hroot
    refine .top (parentKey_eq_rootKey_iff.1 (hparent.trans hroot')) ?_ ?_
    · rw [hsame.level, hlevel]
    · rw [hsame.path, hsame.key, hpath]
  | under p hp hnot hkey hlevel hpath =>
    have hnot' : isRootKey r'.parent.display = false := by
      rw [Bool.eq_false_iff] at hnot ⊢
      intro hroot
      have hroot' : parentKey (some r'.parent) = rootKey := parentKey_eq_rootKey_iff.2 hroot
      exact hnot (parentKey_eq_rootKey_iff.1 (hparent.symm.trans hroot'))
    -- two parents that are no roots are compared by their texts
    have hdisplay : r'.parent.display = r.parent.display := by
      rw [parentKey_of_not (some r'.parent) hnot', parentKey_of_not (some r.parent) hnot] at hparent
      exact hparent
    obtain ⟨p', hp', hplace⟩ := htable p hp
    refine .under p' hp' hnot' ?_ ?_ ?_
    · rw [hplace.key, hkey, hdisplay]
    · rw [hsame.level, hplace.level, hlevel]
    · rw [hsame.path, hsame.key, hplace.path, hpath]

/-- The last key of a path is what stands behind its last slash. -/
theorem lastKey (above : String) {key : String} (h : '/' ∉ key.toList) :
    ((above ++ "/" ++ key).toList.reverse.takeWhile (· != '/')).reverse = key.toList := by
  have hkey : ∀ c ∈ key.toList.reverse, (c != '/') = true := by
    intro c hc
    rw [bne_iff_ne]
    rintro rfl
    exact h (List.mem_reverse.1 hc)
  have hlist : (above ++ "/" ++ key).toList.reverse =
      key.toList.reverse ++ '/' :: above.toList.reverse := by
    simp [String.toList_append]
  rw [hlist, List.takeWhile_append_of_pos hkey, List.takeWhile_cons_of_neg (by simp),
    List.append_nil, List.reverse_reverse]

/-- A path says which parent it goes on from. -/
theorem HasPlace.parentKey_eq (h : HasPlace T r) (h' : HasPlace T r') (hsame : SamePlace r r')
    (hT : Placed T) (hkeys : PathKeys T) :
    parentKey (some r'.parent) = parentKey (some r.parent) := by
  -- behind the key of the row, no path stands alone
  have htop : ∀ {p : PlacedRow}, p ∈ T → p.path ++ "/" ++ r.key.display ≠ "/" ++ r.key.display := by
    intro p hp heq
    obtain ⟨above, hpath⟩ := (hT p hp).exists_path
    have hlength := congrArg String.length heq
    rw [hpath] at hlength
    simp only [String.length_append] at hlength
    have hslash : "/".length = 1 := rfl
    omega
  cases h with
  | top hroot hlevel hpath =>
    cases h' with
    | top hroot' _ _ =>
      rw [parentKey_of_root (some r.parent) hroot, parentKey_of_root (some r'.parent) hroot']
    | under p hp _ _ _ hpath' =>
      rw [hsame.path, hsame.key, hpath] at hpath'
      exact absurd hpath'.symm (htop hp)
  | under p hp hnot hkey hlevel hpath =>
    cases h' with
    | top _ _ hpath' =>
      rw [hsame.path, hsame.key, hpath] at hpath'
      exact absurd hpath' (htop hp)
    | under q hq hnot' hkey' _ hpath' =>
      rw [hsame.path, hsame.key, hpath, String.append_left_inj, String.append_left_inj] at hpath'
      obtain ⟨above, hp'⟩ := (hT p hp).exists_path
      obtain ⟨above', hq'⟩ := (hT q hq).exists_path
      have hlast : p.key.display = q.key.display := by
        rw [← String.toList_inj, ← lastKey above (hkeys p hp).2, ← lastKey above' (hkeys q hq).2,
          ← hp', ← hq', hpath']
      rw [parentKey_of_not (some r.parent) hnot, parentKey_of_not (some r'.parent) hnot']
      change r'.parent.display = r.parent.display
      rw [← hkey, ← hkey', hlast]

section Reparent

variable {same : Cell → Cell → Bool} {key parent : Cell}

theorem samePlace_reparent (same : Cell → Cell → Bool) (key parent : Cell) (r : PlacedRow) :
    SamePlace r (if same r.key key then { r with parent := parent } else r) := by
  split
  · exact ⟨rfl, rfl, rfl⟩
  · exact ⟨rfl, rfl, rfl⟩

/-- The two tables have the same keys, levels and paths. -/
theorem exists_samePlace :
    (∀ r ∈ T, ∃ r' ∈ T.reparent same key parent, SamePlace r r') ∧
      ∀ r' ∈ T.reparent same key parent, ∃ r ∈ T, SamePlace r' r := by
  constructor
  · exact fun r hr => ⟨_, List.mem_map_of_mem hr, samePlace_reparent same key parent r⟩
  · intro r' hr'
    obtain ⟨r, hr, rfl⟩ := List.mem_map.1 hr'
    have hplace := samePlace_reparent same key parent r
    exact ⟨r, hr, hplace.key.symm, hplace.level.symm, hplace.path.symm⟩

theorem Placed.other_hasPlace (hT : Placed T) {r' : PlacedRow}
    (hr' : r' ∈ T.reparent same key parent) (hother : same r'.key key = false) :
    HasPlace (T.reparent same key parent) r' := by
  obtain ⟨r, hr, rfl⟩ := List.mem_map.1 hr'
  have hkey : same r.key key = false := by
    rw [(samePlace_reparent same key parent r).key] at hother
    exact hother
  rw [hkey]
  exact (hT r hr).of_same ⟨rfl, rfl, rfl⟩ rfl exists_samePlace.1

/-- **All rows have their place behind a move just when the parent stays the same.** -/
theorem Placed.reparent_iff (hT : Placed T) (hkeys : PathKeys T) :
    Placed (T.reparent same key parent) ↔
      ∀ r ∈ T, same r.key key = true → parentKey (some r.parent) = parentKey (some parent) := by
  constructor
  · intro hplaced r hr hkey
    -- a row that was moved keeps its level and path, and these name its old parent
    have hmoved : { r with parent := parent } ∈ T.reparent same key parent := by
      refine List.mem_map.2 ⟨r, hr, ?_⟩
      rw [if_pos hkey]
    have hold : HasPlace T { r with parent := parent } :=
      (hplaced _ hmoved).of_same ⟨rfl, rfl, rfl⟩ rfl exists_samePlace.2
    exact (HasPlace.parentKey_eq (hT r hr) hold ⟨rfl, rfl, rfl⟩ hT hkeys).symm
  · intro hstays r' hr'
    obtain ⟨r, hr, rfl⟩ := List.mem_map.1 hr'
    refine (hT r hr).of_same (samePlace_reparent same key parent r) ?_ exists_samePlace.1
    by_cases hkey : same r.key key = true
    · rw [if_pos hkey]
      exact (hstays r hr hkey).symm
    · rw [if_neg hkey]

end Reparent

end PlacedTable

open PlacedTable

/-! ### Records with their places -/

namespace Model

/-- The record shows the row, with its place. -/
structure ShowsRow (m : Model) (record : Record) (r : PlacedRow) : Prop where
  key : record.get? m.key = some r.key
  parent : record.get? m.entry.parentField = some r.parent
  place : m.ShowsPlace record r

/-- The columns for levels and paths are configured, and they and the key column are others than
    that of the parent. -/
structure PlacesBeside (m : Model) : Prop where
  level_named : m.entry.levelField ≠ ""
  path_named : m.entry.pathField ≠ ""
  key_beside : m.entry.parentField ≠ m.key
  level_beside : m.entry.levelField ≠ m.entry.parentField
  path_beside : m.entry.pathField ≠ m.entry.parentField

variable {m : Model} {same : Cell → Cell → Bool} {key parent : Cell}

theorem ShowsRow.withParent (hm : m.PlacesBeside) {record : Record} {r : PlacedRow}
    (h : m.ShowsRow record r) :
    m.ShowsRow (m.withParent same key parent record)
      (if same r.key key then { r with parent := parent } else r) := by
  have hkey : m.hasKey same key record = same r.key key := by
    simp [hasKey, h.key]
  have hplace := samePlace_reparent same key parent r
  have hlevel := h.place.level
  have hpath := h.place.path
  constructor
  · rw [get?_withParent_of_ne hm.key_beside.symm, h.key, hplace.key]
  -- the parent column is the only one written, and only in the rows of the moved key
  · cases hhas : m.hasKey same key record with
    | true => rw [withParent_of_hasKey hhas, Record.get?_set_self, if_pos (hkey.symm.trans hhas)]
    | false =>
      rw [withParent_of_not hhas, h.parent, if_neg (by rw [← hkey, hhas]; exact Bool.false_ne_true)]
  · constructor
    · rw [get?_withParent_of_ne hm.level_beside, hplace.level]
      exact hlevel
    · rw [get?_withParent_of_ne hm.path_beside, hplace.path]
      exact hpath

theorem showsRows_withParent (hm : m.PlacesBeside) {rows : List Record} {T : PlacedTable}
    (h : List.Forall₂ m.ShowsRow rows T) :
    List.Forall₂ m.ShowsRow (rows.map (m.withParent same key parent))
      (T.reparent same key parent) := by
  induction h with
  | nil => exact .nil
  | cons hrow _ ih => exact .cons (hrow.withParent hm) ih

end Model

/-! ### Moving a node -/

namespace Trees

open MetaQuery.Action

/-- **What a move makes of places.**  All keys, levels and paths stay as they were.  The rows whose
    key the UPDATE does not match have their places, however the datasource compares keys; all rows
    have theirs just when the old parent of each row that is matched is the new one. -/
theorem places_after_move {model key target : String} {m : Model} {rows : List Record}
    {T : PlacedTable} {same : Cell → Cell → Bool} {answer : String → List Cell → Reply}
    {s t : Session} {log : List Event} (hm : ((treeModel model).exec s).1 = .ok m)
    (hcolumns : m.PlacesBeside) (hrun : (move model key target).exec s = (.ok (), t))
    (hlog : t.events = s.events ++ log) (hgives : ∀ ev ∈ log, ev.Gives answer)
    (hshows : List.Forall₂ m.ShowsRow rows T) (hplaced : Placed T) (hkeys : PathKeys T) :
    ∃ rows' T', rowsAfter m same rows log = some rows' ∧ List.Forall₂ m.ShowsRow rows' T' ∧
      List.Forall₂ SamePlace T T' ∧
      (∀ r ∈ T', same r.key (m.boundKey (.text key)) = false → HasPlace T' r) ∧
      (Placed T' ↔ ∀ r ∈ T, same r.key (m.boundKey (.text key)) = true →
        parentKey (some r.parent) =
          parentKey (some (m.boundParent (.text (parentKey (some (.text target))))))) := by
  refine ⟨_, T.reparent same _ _,
    rowsAfter_of_move hm hcolumns.key_beside hrun hlog hgives same rows,
    Model.showsRows_withParent hcolumns hshows, ?_,
    fun r hr hother => hplaced.other_hasPlace hr hother, hplaced.reparent_iff hkeys⟩
  refine List.forall₂_map_right_iff.2 (List.forall₂_same.2 fun r _ => ?_)
  exact samePlace_reparent same _ _ r

/-! ### Folders moved to the top -/

/-- The folders as they are kept. -/
def folderRecords : List Record := [
  ⟨[("id", .int 1), ("parent", .int 0), ("level", .int 1), ("path", .text "/1")]⟩,
  ⟨[("id", .int 2), ("parent", .int 1), ("level", .int 2), ("path", .text "/1/2")]⟩]

theorem folderRecords_show : List.Forall₂ folders.ShowsRow folderRecords folderRows :=
  .cons ⟨rfl, rfl, ⟨1, by decide, rfl⟩, rfl⟩ (.cons ⟨rfl, rfl, ⟨2, by decide, rfl⟩, rfl⟩ .nil)

theorem folders_placesBeside : folders.PlacesBeside := by
  constructor <;> decide

def folderMove (key : Int64) : List Event := [
  .executed (.data "main") false "UPDATE `folders` SET `parent` = ? WHERE `id` = ?"
    [.int 0, .int key] (.rows [] 0)]

theorem move_folder (key : Int64) (text : String) (hself : text ≠ "0")
    (hupdate : folders.update (.text text) (Record.empty.set "parent" (.text "0")) = .ok (some
      ⟨.mysql, "UPDATE `folders` SET `parent` = ? WHERE `id` = ?", [.int 0, .int key]⟩)) :
    (move "dir" text "0").exec (sessionOf folders []) =
      (.ok (), { sessionOf folders [] with events := folderMove key }) := by
  have htree : (treeModel "dir").exec (sessionOf folders []) =
      (.ok folders, sessionOf folders []) := rfl
  have hcheck : checkPartialRow Pattern.read "dir" folders.fields
      (Record.empty.set "parent" (.text "0")) = .ok () := by
    decide
  have hpatch := Rows.exec_patch (model_of_treeModel htree) rfl hcheck hupdate rfl
  rw [move_eq, exec_bind_of_ok htree, moveIn, if_neg hself, if_pos (by decide)]
  exact hpatch

/-- The first folder is at the top, so it keeps its place when it is moved there, by a text that
    is not its key but is read as it. -/
theorem first_folder_keeps_place :
    (move "dir" "01" "0").exec (sessionOf folders []) =
      (.ok (), { sessionOf folders [] with events := folderMove 1 }) ∧
    ∃ rows T, rowsAfter folders sameText folderRecords (folderMove 1) = some rows ∧
      List.Forall₂ folders.ShowsRow rows T ∧ Placed T := by
  have hrun := move_folder 1 "01" (by decide) (by decide)
  have hgives : ∀ ev ∈ folderMove 1, ev.Gives fun _ _ => .rows [] 0 := by
    simp [folderMove, Event.Gives]
  obtain ⟨rows, T, hafter, hshows, -, -, hplaced⟩ := places_after_move (m := folders) rfl
    folders_placesBeside hrun rfl hgives folderRecords_show folderRows_placed
    folderRows_pathKeys
  exact ⟨hrun, rows, T, hafter, hshows, hplaced.2 (by decide)⟩

/-- The second folder is moved to the top, and its level and its path stay those that it had under
    the first one. -/
theorem second_folder_loses_place :
    List.Forall₂ folders.ShowsRow folderRecords folderRows ∧ Placed folderRows ∧
    ((move "dir" "2" "0").exec (sessionOf folders [])).1 = .ok () ∧
    ((move "dir" "2" "0").exec (sessionOf folders [])).2.events = folderMove 2 ∧
    ∃ rows, rowsAfter folders sameText folderRecords (folderMove 2) = some rows ∧
      List.Forall₂ folders.ShowsRow rows [⟨.int 1, .int 0, 1, "/1"⟩, ⟨.int 2, .int 0, 2, "/1/2"⟩] ∧
      ¬ Placed [⟨.int 1, .int 0, 1, "/1"⟩, ⟨.int 2, .int 0, 2, "/1/2"⟩] := by
  have hafter : rowsAfter folders sameText folderRecords (folderMove 2) = some [
      ⟨[("id", .int 1), ("parent", .int 0), ("level", .int 1), ("path", .text "/1")]⟩,
      ⟨[("id", .int 2), ("parent", .int 0), ("level", .int 2), ("path", .text "/1/2")]⟩] := by
    decide +kernel
  have hrun := move_folder 2 "2" (by decide) (by decide)
  refine ⟨folderRecords_show, folderRows_placed, by rw [hrun], by rw [hrun], _, hafter, ?_, ?_⟩
  · exact .cons ⟨rfl, rfl, ⟨1, by decide, rfl⟩, rfl⟩
      (.cons ⟨rfl, rfl, ⟨2, by decide, rfl⟩, rfl⟩ .nil)
  · intro hplaced
    -- the moved folder is a root of level two
    cases hplaced ⟨.int 2, .int 0, 2, "/1/2"⟩ (by decide) with
    | top hroot hlevel hpath => exact absurd hlevel (by decide)
    | under p hp hnot hparent hlevel hpath => exact absurd hnot (by decide)

end Trees

end MetaQuery
