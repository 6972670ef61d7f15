/-
  MetaQuery/Proofs/Tree/Levels.lean
  =================================
  The level of a row that is put under any row.

  The level of a child is one more than what its parent shows, but on the way there the level of the
  parent becomes a double and is held at the greatest signed word.  So one more overflows just when
  no word reaches the double (`overflows_iff`), and an integer level is counted on exactly when all
  its bits but the first 53 are zero (`levelUnder_eq_iff`).  An addition inserts this level
  whenever the model has levels and the row brings none (`child_level_iff`).
-/
import MetaQuery.Proofs.Decimal.Rounding
import MetaQuery.Proofs.Tree.Adding

namespace MetaQuery.Trees

open MetaQuery.Action MetaQuery.Decimal

/-! ### One more than the level above -/

/-- The level of a row as a double, where it reads as a number. -/
def shownLevel (levelField : String) (row : Record) : Option Float :=
  (row.get? levelField).bind Cell.float?

/-- The level that a child of the row is counted from: one where the row shows none. -/
def levelAbove (levelField : String) (row : Record) : Int :=
  match shownLevel levelField row with
  | some x => (toInt64 x).toInt
  | none => 1

/-- One more than the level of the row is no signed word. -/
def Overflows (levelField : String) (row : Record) : Prop :=
  ¬IsWord64 (levelAbove levelField row + 1)

section
variable {levelField : String} {parent : Record}

/-- The level under a row is one more than its own, in signed words. -/
theorem levelUnder_some : levelUnder levelField (some parent) =
    Int64.ofInt (levelAbove levelField parent + 1) := by
  have hone : (2 : Int64) = Int64.ofInt (1 + 1) := by decide
  rw [levelUnder, levelAbove, shownLevel]
  cases (parent.get? levelField).bind Cell.float? with
  | some x => exact (by rw [Int64.ofInt_add, Int64.ofInt_toInt]; rfl)
  | none => exact hone

variable (levelField parent) in
theorem isWord64_levelAbove : IsWord64 (levelAbove levelField parent) := by
  unfold levelAbove
  split
  · exact ⟨Int64.minValue_le_toInt _, Int64.toInt_le _⟩
  · decide

theorem overflows_iff_eq : Overflows levelField parent ↔
    levelAbove levelField parent = Int64.maxValue.toInt := by
  obtain ⟨hlow, hhigh⟩ := isWord64_levelAbove levelField parent
  rw [Overflows, IsWord64]
  omega

/-- One more overflows just when no word reaches the level of the row. -/
theorem overflows_iff : Overflows levelField parent ↔
    ∃ x, shownLevel levelField parent = some x ∧ wordBound ≤ x := by
  rw [overflows_iff_eq, levelAbove]
  cases shownLevel levelField parent with
  | some x => simp [Int64.toInt_inj, toInt64_eq_maxValue_iff]
  | none => exact iff_of_false (by decide) nofun

/-- The level is one more unless that overflows. -/
theorem toInt_levelUnder_iff : (levelUnder levelField (some parent)).toInt =
    levelAbove levelField parent + 1 ↔ ¬Overflows levelField parent := by
  rw [levelUnder_some, Overflows, not_not]
  constructor
  · intro h
    rw [← h]
    exact ⟨Int64.minValue_le_toInt _, Int64.toInt_le _⟩
  · exact fun h => Int64.toInt_ofInt_of_le h.1 (Int.lt_of_le_of_lt h.2 (by decide))

variable {l : Int64}

/-- The level of a row is rounded to 53 bits, and held at the greatest word. -/
theorem levelAbove_of_int (h : parent.get? levelField = some (.int l)) :
    levelAbove levelField parent = min (2 ^ 63 - 1) (roundedInt l.toInt) := by
  have hword : IsWord64 l.toInt := ⟨Int64.minValue_le_toInt _, Int64.toInt_le _⟩
  rw [levelAbove, shownLevel, h, Option.bind_some, Cell.float?]
  exact toInt_toInt64_ofInt hword

theorem overflows_iff_of_int (h : parent.get? levelField = some (.int l)) :
    Overflows levelField parent ↔ 2 ^ 63 - 512 ≤ l.toInt := by
  have hgreatest : Int64.maxValue.toInt = 9223372036854775807 := by decide
  have hword : IsWord64 l.toInt := ⟨Int64.minValue_le_toInt _, Int64.toInt_le _⟩
  have hiff := le_roundedInt_iff hword
  rw [overflows_iff_eq, levelAbove_of_int h, hgreatest]
  omega

/-- An integer level is counted on when all its bits but the first 53 are zero. -/
theorem levelUnder_eq_iff (h : parent.get? levelField = some (.int l))
    (hl : l.toInt < Int64.maxValue.toInt) :
    (levelUnder levelField (some parent)).toInt = l.toInt + 1 ↔
      2 ^ (l.toInt.natAbs.log2 - 52) ∣ l.toInt.natAbs := by
  have hgreatest : Int64.maxValue.toInt = 9223372036854775807 := by decide
  have habove := levelAbove_of_int h
  rw [← roundedInt_eq_self_iff]
  by_cases hover : Overflows levelField parent
  · have hmax := overflows_iff_eq.1 hover
    have hwrap : (levelUnder levelField (some parent)).toInt = Int64.minValue.toInt := by
      rw [levelUnder_some, hmax]
      rfl
    have hleast : Int64.minValue.toInt = -9223372036854775808 := by decide
    have hnear := (overflows_iff_of_int h).1 hover
    omega
  · rw [toInt_levelUnder_iff.2 hover]
    omega

end

/-! ### Adding under a row -/

section Adding

variable {model : String} {m : Model} {row : Record} {answer : String → List Cell → Reply}
  {log : List Event} {s t : Session}

/-- A level that the row does not bring is derived from the row above, whatever its path is. -/
theorem get?_level_placeUnder (hnamed : m.entry.levelField ≠ "")
    (hfree : row.contains m.entry.levelField = false) (above : Option Record) :
    (placeUnder m above row).get? m.entry.levelField =
      some (.int (levelUnder m.entry.levelField above)) := by
  have hlevel : withLevel m.entry above row =
      row.set m.entry.levelField (.int (levelUnder m.entry.levelField above)) :=
    if_pos ⟨hnamed, by rw [hfree]; rfl⟩
  rw [placeUnder, withPath, hlevel]
  split
  · split
    · next hpath =>
      -- a path in the column of the level would be there already
      have hne : m.entry.levelField ≠ m.entry.pathField := by
        intro hsame
        obtain ⟨-, hnone⟩ := hpath
        rw [← hsame, Record.contains_eq, Record.get?_set_self] at hnone
        cases hnone
      rw [Record.get?_set_of_ne hne, Record.get?_set_self]
    · exact Record.get?_set_self _ _ _
  · exact Record.get?_set_self _ _ _

/-- **The level of a child is one more than its parent's, as far as words and doubles allow it.**
    A row without a level of its own that is put under a row is created, and inserted, with the
    level above and one more.  That overflows just when no signed word reaches the level of the
    parent: for an integer level, in the last 512 words.  Under an integer level below the greatest
    word, the level of the child is that integer and one just when its bits but the first 53 are
    zero. -/
theorem child_level_iff {u : Session} {parent : Record}
    (hm : (treeModel model).exec s = (.ok m, t)) (hnamed : m.entry.levelField ≠ "")
    (hfree : row.contains m.entry.levelField = false)
    (hnot : isRootKey (parentKey (row.get? m.entry.parentField)) = false)
    (hread : (Rows.get? model (.text (parentKey (row.get? m.entry.parentField)))).exec t =
      (.ok (some parent), u))
    (hlog : ((add model row).exec s).2.events = s.events ++ log)
    (hgives : ∀ ev ∈ log, ev.Gives answer) :
    ∃ row' level, (add model row).exec s = (Rows.create model row').exec u ∧
      row'.get? m.entry.levelField = some (.int level) ∧
      (∀ row'', ((add model row).exec s).1 = .ok row'' → row'' = row' ∧ Inserts m row' log) ∧
      (level.toInt = levelAbove m.entry.levelField parent + 1 ↔
        ¬Overflows m.entry.levelField parent) ∧
      (Overflows m.entry.levelField parent ↔
        ∃ x, shownLevel m.entry.levelField parent = some x ∧ wordBound ≤ x) ∧
      ∀ l : Int64, parent.get? m.entry.levelField = some (.int l) →
        (Overflows m.entry.levelField parent ↔ 2 ^ 63 - 512 ≤ l.toInt) ∧
        (l.toInt < Int64.maxValue.toInt →
          (level.toInt = l.toInt + 1 ↔ 2 ^ (l.toInt.natAbs.log2 - 52) ∣ l.toInt.natAbs)) := by
  have hparent : (parentRow model (parentKey (row.get? m.entry.parentField))).exec t =
      (.ok (some parent), u) := by
    rw [parentRow_of_not_root hnot, exec_bind_of_ok hread]
    rfl
  -- a level field is named, so the parent is read whatever the path field is
  have hadd : addIn model row m = parentRow model (parentKey (row.get? m.entry.parentField)) >>=
      fun above => Rows.create model (placeUnder m above row) := if_neg fun hnone => hnamed hnone.1
  rw [add_eq] at hlog ⊢
  obtain ⟨first, rest, rfl, hquiet, -, hload, hrest⟩ :=
    behind_treeModel (addIn_steady model row) hm hlog hgives
  rw [exec_bind_of_ok hm]
  refine ⟨placeUnder m (some parent) row, _, ?_, get?_level_placeUnder hnamed hfree _,
    fun row'' hok => ?_, toInt_levelUnder_iff, overflows_iff, fun l hl =>
    ⟨overflows_iff_of_int hl, levelUnder_eq_iff hl⟩⟩
  · rw [hadd, exec_bind_of_ok hparent]
  · rcases hrun : (addIn model row m).exec t with ⟨e | row', v⟩
    · rw [hrun] at hok
      cases hok
    · rw [hrun] at hok hrest
      obtain rfl := Except.ok.inj hok
      rw [hadd] at hrun
      obtain ⟨above, w, read, habove, -, -, rfl, hinserts⟩ :=
        inserts_placeUnder hload hrun hrest fun ev hev => hgives ev (List.mem_append_right _ hev)
      rw [hparent] at habove
      obtain ⟨hsame, -⟩ := Prod.mk.inj habove
      obtain rfl := Except.ok.inj hsame
      exact ⟨rfl, hinserts.behind hquiet⟩

end Adding

/-! ### Deep folders -/

/-- The second folder, with any level. -/
def deepFolder (level : Int64) : SourceRow :=
  [("id", .integer 2), ("parent", .integer 1), ("level", .bigInt level), ("path", .text "/1/2")]

def deepSession (level : Int64) : Session := sessionOf folders [.rows [deepFolder level] 0]

/-- The folder that is put into it. -/
def folderAt (level : Int64) : Record :=
  ⟨[("id", .int 3), ("parent", .int 2), ("level", .int level), ("path", .text "/1/2/3")]⟩

def folderInsertAt (level : Int64) : Statement :=
  ⟨.mysql, "INSERT INTO `folders` (`id`, `parent`, `level`, `path`) VALUES (?, ?, ?, ?)",
    [.int 3, .int 2, .int level, .text "/1/2/3"]⟩

def deepRead (level : Int64) : Event :=
  .executed (.data "main") false (folderQuery (.int 2)).statement.text
    (folderQuery (.int 2)).statement.args (.rows [deepFolder level] 0)

theorem get?_deepFolder (level : Int64) :
    (Rows.get? "dir" (.text (parentKey (folderToAdd.get? folders.entry.parentField)))).exec
      (deepSession level) = (.ok (some (deepFolder level).record),
        { sessionOf folders [] with events := [deepRead level] }) := by
  have hkey : Cell.text (parentKey (folderToAdd.get? folders.entry.parentField)) = .text "2" := by
    decide
  have hload : (treeModel "dir").exec (deepSession level) = (.ok folders, deepSession level) := rfl
  have hget := Rows.exec_get? (model_of_treeModel hload) rfl (keyQuery_folders (.text "2")) rfl
  have hbound : folders.boundKey (.text "2") = .int 2 := by decide
  rw [hbound] at hget
  rw [hkey]
  exact hget

/-- What the addition of the folder does. -/
def deepLog (level below : Int64) : List Event :=
  [deepRead level, .executed (.data "main") false (folderInsertAt below).text
    (folderInsertAt below).args (.rows [] 0)]

theorem add_deep (level below : Int64)
    (hplace : placeUnder folders (some (deepFolder level).record) folderToAdd = folderAt below)
    (hcreation : Rows.creation "dir" folders [folderAt below] Pattern.read =
      .ok (folderInsertAt below)) :
    (add "dir" folderToAdd).exec (deepSession level) =
      (.ok (folderAt below), { sessionOf folders [] with events := deepLog level below }) := by
  have hload : (treeModel "dir").exec (deepSession level) = (.ok folders, deepSession level) := rfl
  have hparent := exec_bind_of_ok (f := foundAbove "2") (get?_deepFolder level)
  have hkey : parentKey (folderToAdd.get? folders.entry.parentField) = "2" := by decide
  rw [hkey, ← parentRow_of_not_root (by decide)] at hparent
  have hnamed : ¬(folders.entry.levelField = "" ∧ folders.entry.pathField = "") := by decide
  rw [add_eq, exec_bind_of_ok hload, addIn, if_neg hnamed, hkey, exec_bind_of_ok hparent, hplace]
  exact Rows.exec_create (m := folders) rfl rfl hcreation rfl

/-- **Counterexample.**  Under the level `2 ^ 53 + 1` a folder gets that level again, since the
    level of the parent is rounded down.  Under the level `2 ^ 63 - 2`, which is rounded up to
    `2 ^ 63`, one more overflows, and the folder gets the least level. -/
theorem levels_lost :
    ((add "dir" folderToAdd).exec (deepSession 9007199254740993)).1 =
        .ok (folderAt 9007199254740993) ∧
      Overflows "level" (deepFolder 9223372036854775806).record ∧
      ((add "dir" folderToAdd).exec (deepSession 9223372036854775806)).1 =
        .ok (folderAt (-9223372036854775808)) := by
  refine ⟨?_, (overflows_iff_of_int rfl).2 (by decide), ?_⟩
  · rw [add_deep _ 9007199254740993 (by decide) (by decide)]
  · rw [add_deep _ (-9223372036854775808) (by decide) (by decide)]

/-- The level `2 ^ 53 + 2` has a zero at its end, so it is counted on. -/
theorem deep_folder_one_below :
    ((add "dir" folderToAdd).exec (deepSession 9007199254740994)).1 =
        .ok (folderAt 9007199254740995) ∧
      Inserts folders (folderAt 9007199254740995) (deepLog 9007199254740994 9007199254740995) ∧
      ¬Overflows "level" (deepFolder 9007199254740994).record := by
  have hadd := add_deep 9007199254740994 9007199254740995 (by decide) (by decide)
  have hok : ((add "dir" folderToAdd).exec (deepSession 9007199254740994)).1 =
      .ok (folderAt 9007199254740995) := by
    rw [hadd]
  have hlog : ((add "dir" folderToAdd).exec (deepSession 9007199254740994)).2.events =
      (deepSession 9007199254740994).events ++ deepLog 9007199254740994 9007199254740995 := by
    rw [hadd]
    exact (List.nil_append _).symm
  have hgives : ∀ ev ∈ deepLog 9007199254740994 9007199254740995,
      ev.Gives fun _ _ => .rows [] 0 := by
    simp [deepLog, deepRead, Event.Gives]
  obtain ⟨row', level, -, -, hinserts, -, -, hint⟩ :=
    child_level_iff (m := folders) (t := deepSession 9007199254740994) rfl (by decide) (by decide)
      (by decide) (get?_deepFolder 9007199254740994) hlog hgives
  obtain ⟨rfl, hinserted⟩ := hinserts _ hok
  obtain ⟨hover, -⟩ := hint 9007199254740994 rfl
  exact ⟨hok, hinserted, fun h => absurd (hover.1 h) (by decide)⟩

end MetaQuery.Trees
