/-
  MetaQuery/Proofs/Tree/KeyTexts.lean
  ===================================
  Keys survive their text form.

  A tree knows its rows by the texts of their keys.  It reads the key of a row, keeps its text, and
  binds that text again when it comes to the row or to its parent.  Binding brings it to the type
  of the column, which makes a cell of that type or leaves the cell as it is; a cell of the type
  stays, so a second time changes nothing (`coerce_coerce`).  What is displayed of an integer, a
  flag or a text reads as that cell again (`coerce_display`), and so the text addresses the row that
  the key addresses (`keys_survive_text`).
-/
import MetaQuery.Proofs.Chain.Arrays
import MetaQuery.Proofs.Tree.Records
import MetaQuery.Proofs.Tree.Spelling

namespace MetaQuery

open MetaQuery.Action

/-! ### Cells of the type of a field -/

namespace FieldEntry

variable {f : FieldEntry} {v : Cell}

/-- A cell that a key column of the field's type has. -/
inductive IsKey (f : FieldEntry) : Cell → Prop where
  | int (h : f.isInteger = true) (i : Int64) : IsKey f (.int i)
  | bool (h : f.isBoolean = true) (b : Bool) : IsKey f (.bool b)
  | text (h : f.isTextual = true) (s : String) : IsKey f (.text s)

/-- A cell of the field's type. -/
inductive IsTyped (f : FieldEntry) : Cell → Prop where
  | key {v : Cell} (h : f.IsKey v) : IsTyped f v
  | number (h : f.isNumeric = true) (x : Float) : IsTyped f (.float x)

theorem coerce_of_isKey (h : f.IsKey v) : f.coerce v = v := by
  cases h with
  | int h i => exact coerce_int h i
  | bool h b => exact coerce_bool h b
  | text h s => exact coerce_text h s

theorem coerce_of_isTyped (h : f.IsTyped v) : f.coerce v = v := by
  cases h with
  | key h => exact coerce_of_isKey h
  | number h x => exact coerce_float_of_isNumeric h x

/-- A text that reads as a cell of the type becomes that cell. -/
theorem isTyped_or_kept_text (f : FieldEntry) (s : String) :
    f.IsTyped (f.coerce (.text s)) ∨ f.coerce (.text s) = .text s := by
  rw [coerce]
  by_cases hinteger : f.isInteger = true
  · rw [if_pos hinteger, integerOf]
    cases Decimal.int64? (Text.trimBlanks s.toList) with
    | some i => exact .inl (.key (.int hinteger i))
    | none => exact .inr rfl
  rw [if_neg hinteger]
  -- the types are asked in this order: integer, number, flag
  by_cases hnumeric : f.isNumeric = true
  · rw [if_pos hnumeric, numberOf]
    cases Decimal.float? (Text.trimBlanks s.toList) with
    | some x => exact .inl (.number hnumeric x)
    | none => exact .inr rfl
  rw [if_neg hnumeric]
  by_cases hboolean : f.isBoolean = true
  · rw [if_pos hboolean, flagOf]
    split_ifs
    · exact .inl (.key (.bool hboolean true))
    · exact .inl (.key (.bool hboolean false))
    · exact .inr rfl
  · exact .inr (if_neg hboolean)

/-- A cell is brought to the type of the field, or it is left as it is. -/
theorem isTyped_or_kept (f : FieldEntry) (v : Cell) : f.IsTyped (f.coerce v) ∨ f.coerce v = v := by
  cases v with
  | text s => exact isTyped_or_kept_text f s
  | int i =>
    rw [coerce]
    split_ifs with hboolean htextual
    · exact .inl (.key (.bool hboolean _))
    · exact .inl (.key (.text htextual _))
    · exact .inr rfl
  | float x =>
    rw [coerce]
    split_ifs with htextual
    · exact .inl (.key (.text htextual _))
    · exact .inr rfl
  | bool b =>
    rw [coerce]
    split_ifs with htextual
    · exact .inl (.key (.text htextual _))
    · exact .inr rfl
  | null => exact .inr rfl

theorem coerce_coerce (f : FieldEntry) (v : Cell) : f.coerce (f.coerce v) = f.coerce v := by
  rcases isTyped_or_kept f v with h | h
  · exact coerce_of_isTyped h
  · rw [h, h]

/-! ### Texts of keys -/

theorem coerce_display_int (h : f.isInteger = true) (i : Int64) :
    f.coerce (.text (Cell.int i).display) = .int i := by
  have hword : Decimal.IsWord64 i.toInt := ⟨Int64.minValue_le_toInt _, Int64.toInt_le _⟩
  rw [coerce_text_of_isInteger h, integerOf, Cell.display,
    Text.trimBlanks_of_no_blank fun c hc => Decimal.isBlank_of_mem_intText hc,
    Decimal.int64?_intText, if_pos hword, Int64.ofInt_toInt]

theorem coerce_display_bool (h : f.isBoolean = true) (b : Bool) :
    f.coerce (.text (Cell.bool b).display) = .bool b := by
  have hread : flagOf (Cell.bool b).display = .bool b := by
    cases b with
    | false => decide
    | true => decide
  rw [coerce_text_of_isBoolean h, hread]

/-- What is displayed of a key is read as that key. -/
theorem coerce_display (h : f.IsKey v) : f.coerce (.text v.display) = v := by
  cases h with
  | int h i => exact coerce_display_int h i
  | bool h b => exact coerce_display_bool h b
  | text h s => exact coerce_text h s

end FieldEntry

theorem coerceTo_coerceTo (field : Option FieldEntry) (v : Cell) :
    coerceTo field (coerceTo field v) = coerceTo field v := by
  cases field with
  | none => rfl
  | some f => exact f.coerce_coerce v

/-- The text of a cell by which a row is looked up: that of a key, or that of a parent's key unless
    this one names the root. -/
def IsKeyText (v : Option Cell) (text : String) : Prop :=
  text = keyText v ∨ text = parentKey v ∧ isRootKey text = false

theorem IsKeyText.eq_keyText {v : Option Cell} {text : String} (h : IsKeyText v text) :
    text = keyText v := by
  rcases h with h | ⟨rfl, hroot⟩
  · exact h
  · refine parentKey_of_not v (Bool.eq_false_iff.2 fun hv => ?_)
    rw [parentKey_of_root v hv] at hroot
    exact absurd hroot (by decide)

/-! ### Addressing a row -/

namespace Rows

variable {m : Model} {key key' : Cell}

theorem keyQuery_eq_of_boundKey (h : m.boundKey key = m.boundKey key') :
    keyQuery m key = keyQuery m key' := by
  have hpredicate : m.keyPredicate key = m.keyPredicate key' := by
    unfold Model.boundKey at h
    rw [Model.keyPredicate, h, Model.keyPredicate]
  rw [keyQuery, hpredicate, keyQuery]

theorem exec_get?_eq_of_boundKey (h : m.boundKey key = m.boundKey key') {model : String}
    {s t : Session} (hload : (Metadata.model model).exec s = (.ok m, t)) :
    (get? model key).exec s = (get? model key').exec s := by
  rw [get?, exec_bind_of_ok hload, keyQuery_eq_of_boundKey h, get?, exec_bind_of_ok hload]

theorem exec_patch_eq_of_boundKey (h : m.boundKey key = m.boundKey key') {model : String}
    {s t : Session} (hload : (Metadata.model model).exec s = (.ok m, t)) (row : Record) :
    (patch model key row).exec s = (patch model key' row).exec s := by
  rw [patch, exec_bind_of_ok hload, write_eq_of_boundKey h, patch, exec_bind_of_ok hload]

end Rows

namespace Model

variable {m : Model} {key key' : Cell}

theorem delete_eq_of_boundKey (h : m.boundKey key = m.boundKey key') :
    m.delete key = m.delete key' := by
  unfold boundKey at h
  simp only [delete_eq, bindCell, h]

/-- A text addresses the row with a key: it is bound as that key, and the row is read, changed and
    deleted as it is by the key itself. -/
structure Addresses (m : Model) (text : String) (key : Cell) : Prop where
  bound : m.boundKey (.text text) = key
  read : Rows.keyQuery m (.text text) = Rows.keyQuery m key
  changed : ∀ row, m.update (.text text) row = m.update key row
  deleted : m.delete (.text text) = m.delete key
  got : ∀ (model : String) (s t : Session), (Metadata.model model).exec s = (.ok m, t) →
    (Rows.get? model (.text text)).exec s = (Rows.get? model key).exec s
  patched : ∀ (model : String) (s t : Session), (Metadata.model model).exec s = (.ok m, t) →
    ∀ row, (Rows.patch model (.text text) row).exec s = (Rows.patch model key row).exec s

theorem addresses_display {f : FieldEntry} (hf : m.field? m.key = some f) (hkey : f.IsKey key) :
    m.Addresses key.display key := by
  have hbound : m.boundKey (.text key.display) = key := by
    rw [boundKey, hf]
    exact FieldEntry.coerce_display hkey
  have hsame : m.boundKey (.text key.display) = m.boundKey key := by
    rw [hbound, boundKey, hf]
    exact (FieldEntry.coerce_of_isKey hkey).symm
  exact {
    bound := hbound
    read := Rows.keyQuery_eq_of_boundKey hsame
    changed := update_eq_of_boundKey hsame
    deleted := delete_eq_of_boundKey hsame
    got := fun _ _ _ hload => Rows.exec_get?_eq_of_boundKey hsame hload
    patched := fun _ _ _ hload => Rows.exec_patch_eq_of_boundKey hsame hload }

end Model

/-- **Keys survive their text form.**  A cell that is brought to the type of a field stays so when
    it is brought there again, and it is NULL just when it was.  A key is read back from what is
    displayed of it; so the text that is made of a key in a row addresses the row with that key. -/
theorem keys_survive_text :
    (∀ (field : Option FieldEntry) (v : Cell),
      coerceTo field (coerceTo field v) = coerceTo field v ∧
      (coerceTo field v).isNull = v.isNull) ∧
    (∀ (f : FieldEntry) (v : Cell), f.IsKey v → f.coerce (.text v.display) = v) ∧
    ∀ (m : Model) (f : FieldEntry) (row : Record) (column text : String) (key : Cell),
      m.field? m.key = some f → f.IsKey key → row.get? column = some key →
      IsKeyText (row.get? column) text → m.Addresses text key := by
  refine ⟨fun field v => ⟨coerceTo_coerceTo field v, isNull_coerceTo field v⟩,
    fun f v h => FieldEntry.coerce_display h, ?_⟩
  intro m f row column text key hf hkey hrow htext
  obtain rfl := htext.eq_keyText
  rw [hrow]
  exact Model.addresses_display hf hkey

namespace Trees

def sectionKey : FieldEntry :=
  { id := "k", model := "sec", column := "id", type := "integer", isKey := true }

/-- A section under the one with the least of all keys. -/
def underLeast : Record := (Record.empty.set "id" (.int 7)).set "parent" (.int Int64.minValue)

theorem least_section_addressed :
    sections.field? sections.key = some sectionKey ∧ sectionKey.IsKey (.int Int64.minValue) ∧
      underLeast.get? "parent" = some (.int Int64.minValue) ∧
      IsKeyText (underLeast.get? "parent") "-9223372036854775808" ∧
      sections.Addresses "-9223372036854775808" (.int Int64.minValue) := by
  have hf : sections.field? sections.key = some sectionKey := by decide
  have hkey : sectionKey.IsKey (.int Int64.minValue) := .int (by decide) _
  have hrow : underLeast.get? "parent" = some (.int Int64.minValue) := by decide
  have htext : IsKeyText (underLeast.get? "parent") "-9223372036854775808" :=
    .inr ⟨by decide, by decide⟩
  exact ⟨hf, hkey, hrow, htext, keys_survive_text.2.2 _ _ _ _ _ _ hf hkey hrow htext⟩

end Trees

end MetaQuery
