/-
  MetaQuery/Proofs/Query/Columns.lean
  ===================================
  Columns of records: where they stand, and records without some of them.

  A record that has each column once loses a column altogether when it is removed, so columns may
  be removed one after the other or left out at once (`foldl_remove`).
-/
import Mathlib.Data.List.Nodup
import MetaQuery.Record

namespace MetaQuery.Record

/-! ### Where columns stand -/

/-- The record has a value in the column that is not blank. -/
def HasValue (r : Record) (column : String) : Prop :=
  ∃ v, r.get? column = some v ∧ v.isBlank = false

/-- A column of a row stands among the entries of the row, behind all that have other names. -/
theorem split_of_find {c : String} {v : Cell} {es : List (String × Cell)}
    (h : Record.find c es = some v) : ∃ after, es = es.takeWhile (·.1 != c) ++ (c, v) :: after := by
  induction es with
  | nil => cases h
  | cons e r ih =>
    obtain ⟨k, w⟩ := e
    by_cases hk : k = c
    · subst hk
      rw [Record.find, if_pos rfl] at h
      obtain rfl := Option.some.inj h
      exact ⟨r, by simp⟩
    · rw [Record.find, if_neg hk] at h
      obtain ⟨after, hafter⟩ := ih h
      refine ⟨after, ?_⟩
      -- an earlier entry has another name
      rw [List.takeWhile_cons_of_pos (by simpa using hk), List.cons_append, ← hafter]

theorem exists_find_of_mem {c : String} {es : List (String × Cell)} (h : c ∈ es.map (·.1)) :
    ∃ v, find c es = some v := by
  induction es with
  | nil => cases h
  | cons e r ih =>
    obtain ⟨k, v⟩ := e
    by_cases hk : k = c
    · exact ⟨v, by rw [find, if_pos hk]⟩
    · obtain ⟨w, hw⟩ := ih ((List.mem_cons.1 h).resolve_left (Ne.symm hk))
      exact ⟨w, by rw [find, if_neg hk, hw]⟩

/-- The columns of a record are those that have a cell. -/
theorem mem_keys_iff {r : Record} {c : String} : c ∈ r.keys ↔ ∃ v, r.get? c = some v := by
  constructor
  · exact exists_find_of_mem
  · rintro ⟨v, hv⟩
    obtain ⟨after, hafter⟩ := split_of_find hv
    rw [keys, hafter, List.map_append, List.map_cons]
    exact List.mem_append_right _ List.mem_cons_self

theorem contains_eq (r : Record) (key : String) : r.contains key = (r.get? key).isSome := by
  have hentries : ∀ es : List (String × Cell),
      es.any (·.1 == key) = (find key es).isSome := by
    intro es
    induction es with
    | nil => rfl
    | cons e es ih =>
      obtain ⟨k, v⟩ := e
      by_cases hk : k = key
      · simp [find, hk]
      · simp [find, hk, ih]
  exact hentries r.entries

/-! ### Records without some columns -/

theorem find_filter_of_keeps {key : String} {p : String × Cell → Bool}
    (hp : ∀ v, p (key, v) = true) (es : List (String × Cell)) :
    find key (es.filter p) = find key es := by
  induction es with
  | nil => rfl
  | cons e r ih =>
    obtain ⟨k, v⟩ := e
    by_cases hk : k = key
    · subst hk
      rw [List.filter_cons_of_pos (hp v), find, find, if_pos rfl, if_pos rfl]
    · rw [find, if_neg hk, ← ih, List.filter_cons]
      split
      · rw [find, if_neg hk]
      · rfl

theorem find_filter_of_drops {key : String} {p : String × Cell → Bool}
    (hp : ∀ v, p (key, v) = false) (es : List (String × Cell)) :
    find key (es.filter p) = none := by
  induction es with
  | nil => rfl
  | cons e r ih =>
    obtain ⟨k, v⟩ := e
    rw [List.filter_cons]
    split
    · next hkept =>
      have hk : k ≠ key := by
        rintro rfl
        rw [hp v] at hkept
        cases hkept
      rw [find, if_neg hk, ih]
    · exact ih

/-- The record without some columns. -/
def without (r : Record) (columns : List String) : Record :=
  ⟨r.entries.filter fun e => !columns.contains e.1⟩

theorem get?_without_of_mem {columns : List String} {key : String} (h : key ∈ columns)
    (r : Record) : (r.without columns).get? key = none :=
  find_filter_of_drops (fun _ => by simpa using h) r.entries

theorem get?_without_of_not_mem {columns : List String} {key : String} (h : key ∉ columns)
    (r : Record) : (r.without columns).get? key = r.get? key :=
  find_filter_of_keeps (fun _ => by simpa using h) r.entries

theorem keys_without (r : Record) (columns : List String) :
    (r.without columns).keys = r.keys.filter fun k => !columns.contains k := by
  rw [keys, keys, without, List.filter_map]
  rfl

theorem without_without (r : Record) (columns others : List String) :
    (r.without columns).without others = r.without (columns ++ others) := by
  simp only [without, List.filter_filter, List.contains_append, Bool.not_or, Bool.and_comm]

/-- A column that is there once is removed altogether. -/
theorem remove_eq_without {r : Record} (h : r.keys.Nodup) (column : String) :
    r.remove column = r.without [column] := by
  obtain ⟨es⟩ := r
  rw [keys] at h
  simp only [remove, without, Record.mk.injEq]
  induction es with
  | nil => rfl
  | cons e r ih =>
    rw [List.map_cons, List.nodup_cons] at h
    by_cases hk : e.1 = column
    -- the names differ, so the first entry removed is the only one
    · subst hk
      rw [List.eraseP_cons_of_pos (by simp), List.filter_cons_of_neg (by simp), eq_comm,
        List.filter_eq_self]
      intro x hx
      have hne : x.1 ≠ e.1 := fun heq => h.1 (heq ▸ List.mem_map_of_mem hx)
      simpa using hne
    · rw [List.eraseP_cons_of_neg (by simpa using hk), List.filter_cons_of_pos (by simpa using hk),
        ih h.2]

/-- Columns that are there once each are removed one after the other. -/
theorem foldl_remove {r : Record} (h : r.keys.Nodup) (columns : List String) :
    columns.foldl remove r = r.without columns := by
  induction columns generalizing r with
  | nil => simp [without]
  | cons column rest ih =>
    have hrest : (r.without [column]).keys.Nodup := by
      rw [keys_without]
      exact h.filter _
    rw [List.foldl_cons, remove_eq_without h, ih hrest, without_without, List.singleton_append]

end MetaQuery.Record
