/-
  MetaQuery/Proofs/Tree/Places.lean
  =================================
  Levels and paths of the rows of a tree.

  A row under the root has level 1 and its key as its path; any other row is one level below its
  parent, and its path goes on from that of its parent (`HasPlace`).  Levels and paths are derived,
  so a table in which all rows have their place keeps that when a row is put behind it whose level
  and path are made from the row above it (`Placed.snoc`).

  What is made is right only for levels that come back from a double as they were, and for paths
  that do not end with a slash.  In such a table levels are positive (`Placed.level_pos`), since
  paths get longer on the way down, no level is greater than the number of rows
  (`Placed.level_le_length`), and paths end with keys.
-/
import Mathlib.Data.Int.Interval
import MetaQuery.Proofs.Catalog.Types
import MetaQuery.Proofs.Decimal.Whole
import MetaQuery.Service.Trees

namespace MetaQuery

/-! ### Rows with their places -/

/-- A row of a tree with the columns that place it. -/
structure PlacedRow where
  key : Cell
  parent : Cell
  level : Int
  path : String
deriving DecidableEq, Repr

abbrev PlacedTable := List PlacedRow

/-- A text that can be a key on a path: not that of the root, and without slashes. -/
def IsPathKey (text : String) : Prop := isRootKey text = false ∧ '/' ∉ text.toList

instance (text : String) : Decidable (IsPathKey text) := inferInstanceAs (Decidable (_ ∧ _))

namespace PlacedTable

variable {T : PlacedTable} {r : PlacedRow}

def texts (T : PlacedTable) : List String := T.map (·.key.display)

/-- The level and the path of the row are those that its parent gives it. -/
inductive HasPlace (T : PlacedTable) (r : PlacedRow) : Prop where
  | top (hroot : isRootKey r.parent.display = true) (hlevel : r.level = 1)
      (hpath : r.path = "/" ++ r.key.display)
  | under (p : PlacedRow) (hp : p ∈ T) (hnot : isRootKey r.parent.display = false)
      (hparent : p.key.display = r.parent.display) (hlevel : r.level = p.level + 1)
      (hpath : r.path = p.path ++ "/" ++ r.key.display)

/-- All rows have their place. -/
def Placed (T : PlacedTable) : Prop := ∀ r ∈ T, HasPlace T r

/-- The keys can stand on paths. -/
def PathKeys (T : PlacedTable) : Prop := ∀ r ∈ T, IsPathKey r.key.display

theorem HasPlace.mono {T' : PlacedTable} (h : HasPlace T r) (hsub : T ⊆ T') : HasPlace T' r := by
  cases h with
  | top hroot hlevel hpath => exact .top hroot hlevel hpath
  | under p hp hnot hparent hlevel hpath =>
    exact .under p (hsub hp) hnot hparent hlevel hpath

/-- A row that gets its place from the rows above it keeps all places. -/
theorem Placed.snoc (hT : Placed T) (hr : HasPlace T r) : Placed (T ++ [r]) := by
  intro x hx
  rcases List.mem_append.1 hx with hx | hx
  · exact (hT x hx).mono (List.subset_append_left T [r])
  · rw [List.mem_singleton.1 hx]
    exact hr.mono (List.subset_append_left T [r])

theorem PathKeys.snoc (hT : PathKeys T) (hr : IsPathKey r.key.display) : PathKeys (T ++ [r]) := by
  intro x hx
  rcases List.mem_append.1 hx with hx | hx
  · exact hT x hx
  · rw [List.mem_singleton.1 hx]
    exact hr

theorem nodup_texts_snoc (hT : T.texts.Nodup) (hr : r.key.display ∉ T.texts) :
    (texts (T ++ [r])).Nodup := by
  rw [texts, List.map_append, List.map_singleton, ← List.concat_eq_append]
  exact hT.concat hr

/-- Levels are positive: on the way up paths get shorter, so it ends under the root. -/
theorem Placed.level_pos (hT : Placed T) (hr : r ∈ T) : 0 < r.level := by
  induction hlength : r.path.length using Nat.strongRecOn generalizing r with
  | ind n ih =>
    cases hT r hr with
    | top hroot hlevel hpath => omega
    | under p hp hnot hparent hlevel hpath =>
      have hshorter : p.path.length < n := by
        rw [← hlength, hpath, String.length_append, String.length_append]
        have hslash : "/".length = 1 := rfl
        omega
      have habove := ih p.path.length hshorter hp rfl
      omega

/-- On the way up from a row, each level above it is passed. -/
theorem Placed.exists_level (hT : Placed T) {n : Int} (hn : 0 < n) (hr : r ∈ T)
    (hle : n ≤ r.level) : ∃ x ∈ T, x.level = n := by
  induction hsteps : (r.level - n).toNat generalizing r with
  | zero => exact ⟨r, hr, by omega⟩
  | succ k ih =>
    cases hT r hr with
    | top hroot hlevel hpath => omega
    | under p hp hnot hparent hlevel hpath => exact ih hp (by omega) (by omega)

/-- No level is greater than the number of rows. -/
theorem Placed.level_le_length (hT : Placed T) (hr : r ∈ T) : r.level ≤ T.length := by
  have hsub : Finset.Icc 1 r.level ⊆ (T.map (·.level)).toFinset := by
    intro n hn
    obtain ⟨hpos, hle⟩ := Finset.mem_Icc.1 hn
    obtain ⟨x, hx, rfl⟩ := hT.exists_level (by omega) hr hle
    exact List.mem_toFinset.2 (List.mem_map_of_mem hx)
  have hcard := (Finset.card_le_card hsub).trans (List.toFinset_card_le _)
  rw [Int.card_Icc, List.length_map] at hcard
  omega

/-- A path ends with the key of its row. -/
theorem HasPlace.exists_path (h : HasPlace T r) :
    ∃ above : String, r.path = above ++ "/" ++ r.key.display := by
  cases h with
  | top hroot hlevel hpath => exact ⟨"", hpath⟩
  | under p hp hnot hparent hlevel hpath => exact ⟨p.path, hpath⟩

end PlacedTable

open PlacedTable

/-! ### Places made from the row above -/

/-- The record shows the level and the path of the row. -/
structure Model.ShowsPlace (m : Model) (record : Record) (r : PlacedRow) : Prop where
  level : ∃ i : Int64, i.toInt = r.level ∧ record.get? m.entry.levelField = some (.int i)
  path : record.get? m.entry.pathField = some (.text r.path)

namespace Trees

/-- Nothing is taken off the end of a path that ends with a key. -/
theorem dropWhile_slash {above key : String} (h : IsPathKey key) :
    ((above ++ "/" ++ key).toList.reverse.dropWhile (· == '/')).reverse =
      (above ++ "/" ++ key).toList := by
  obtain ⟨hroot, hslash⟩ := h
  -- the path ends with the last character of the key, which is no slash
  have hsome : key.toList.reverse ≠ [] := by
    intro hnil
    have hempty : key = "" := by simpa using hnil
    rw [hempty] at hroot
    exact absurd hroot (by decide)
  have hrev : (above ++ "/" ++ key).toList.reverse =
      key.toList.reverse ++ (above ++ "/").toList.reverse := by
    rw [String.toList_append, List.reverse_append]
  cases hkey : key.toList.reverse with
  | nil => exact absurd hkey hsome
  | cons c cs =>
    have hc : (c == '/') = false := by
      refine beq_eq_false_iff_ne.2 fun hc => hslash ?_
      rw [← List.mem_reverse, hkey, hc]
      exact List.mem_cons_self
    rw [hrev, hkey, List.cons_append, List.dropWhile_cons_of_neg (by simp [hc]), ← List.cons_append,
      ← hkey, ← hrev, List.reverse_reverse]

section Under

variable {m : Model} {T : PlacedTable} {record : Record} {r : PlacedRow}

theorem levelUnder_none (levelField : String) : (levelUnder levelField none).toInt = 1 := by
  rw [levelUnder]
  decide

theorem levelUnder_of_shows (hshows : m.ShowsPlace record r) (hpos : 0 < r.level)
    (hless : r.level < 2 ^ 53) :
    (levelUnder m.entry.levelField (some record)).toInt = r.level + 1 := by
  have hone : Int64.toInt 1 = 1 := by decide
  obtain ⟨i, hi, hcell⟩ := hshows.level
  simp only [levelUnder, hcell, Option.bind_some, Cell.float?]
  rw [hi, Decimal.toInt64_ofInt hpos hless, ← hi, Int64.ofInt_toInt, Int64.toInt_add, hi, hone]
  exact Int.bmod_eq_of_le (by omega) (by omega)

theorem pathUnder_of_shows (hshows : m.ShowsPlace record r) (hplace : HasPlace T r)
    (hplain : IsPathKey r.key.display) (key : String) :
    pathUnder m.entry.pathField (some record) key = r.path ++ "/" ++ key := by
  obtain ⟨above, hpath⟩ := hplace.exists_path
  have htrim : String.ofList (r.path.toList.reverse.dropWhile (· == '/')).reverse = r.path := by
    rw [hpath, dropWhile_slash hplain, String.ofList_toList]
  simp only [pathUnder, hshows.path, keyText, Cell.display_text, htrim]

theorem pathUnder_none (pathField key : String) : pathUnder pathField none key = "/" ++ key := by
  simp [pathUnder]

end Under

end Trees

end MetaQuery
