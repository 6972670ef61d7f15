/-
  MetaQuery/Proofs/Request/Numbers.lean
  =====================================
  What numbers are checked as, and what they are bound as.

  The check of a row reads every number as a double, whatever the type of its field is; binding
  reads a text of a field of integers as an integer within its word, and a text of any other
  numeric field as a double.  So what is checked and what is bound agree on all fields but those of
  integers, and there on all that is an integer (`numbers_read_alike`).  A double in a field of
  integers, and a text that is a double but no integer, are bound as they are.
-/
import MetaQuery.Proofs.Catalog.Types
import MetaQuery.Proofs.Decimal.Readers
import MetaQuery.Proofs.Query.Inserting
import MetaQuery.Proofs.Query.Updating
import MetaQuery.Proofs.Request.Ranges

namespace MetaQuery

/-! ### Cells that are numbers -/

/-- The cell is a number. -/
def Cell.isNumber : Cell → Bool
  | .int _ => true
  | .float _ => true
  | _ => false

/-- The integer that a cell is, or that it spells between blanks. -/
def Cell.integer? : Cell → Option Int64
  | .int i => some i
  | .text s => Decimal.int64? (Text.trimBlanks s.toList)
  | _ => none

theorem Cell.isNull_of_isBlank {v : Cell} (h : v.isBlank = false) : v.isNull = false := by
  cases v with
  | null => cases h
  | _ => rfl

/-- What reads as an integer reads as the double of that integer, up to the sign of zero. -/
theorem Cell.float?_of_integer? {v : Cell} {i : Int64} {x : Float} (hi : v.integer? = some i)
    (hx : v.float? = some x) :
    Float.ofInt i.toInt = x ∨ (Float.ofInt i.toInt == x) = true := by
  cases v with
  | int j =>
    obtain rfl := Option.some.inj hi
    exact .inl (Option.some.inj hx)
  | text s =>
    obtain ⟨y, hy, hsame⟩ := Decimal.float?_of_int64? hi
    obtain rfl : y = x := Option.some.inj (hy.symm.trans hx)
    rcases hsame with rfl | ⟨rfl, rfl⟩
    · exact .inl rfl
    · -- zero with a minus sign, which the integer has lost
      exact .inr (by decide)
  | float y => cases hi
  | bool b => cases hi
  | null => cases hi

/-! ### Numbers of a field -/

namespace FieldEntry

variable {f : FieldEntry} {v : Cell} {x : Float}

/-- A field of integers makes an integer of what is one, and leaves all else as it is. -/
theorem coerce_of_isInteger (h : f.isInteger = true) (hx : v.float? = some x) :
    f.coerce v = v.integer?.elim v .int := by
  have hnumeric : f.isNumeric = true := by rw [isNumeric, h, Bool.true_or]
  cases v with
  | int i => exact coerce_int h i
  | float y => exact coerce_float_of_isNumeric hnumeric y
  | text s =>
    rw [coerce_text_of_isInteger h, integerOf, Cell.integer?]
    cases Decimal.int64? (Text.trimBlanks s.toList) with
    | none => rfl
    | some i => rfl
  | bool b => cases hx
  | null => cases hx

/-- Any other numeric field makes a number of what reads as one. -/
theorem coerce_of_isNumeric (h : f.isNumeric = true) (hinteger : f.isInteger = false)
    (hx : v.float? = some x) : (f.coerce v).isNumber = true ∧ (f.coerce v).float? = some x := by
  cases v with
  | int i =>
    rw [coerce_int_of_isNumeric h]
    exact ⟨rfl, hx⟩
  | float y =>
    rw [coerce_float_of_isNumeric h]
    exact ⟨rfl, hx⟩
  | text s =>
    -- the cell is read by the same reader as the check's
    have hnumber : Decimal.float? (Text.trimBlanks s.toList) = some x := hx
    have hcoerced : f.coerce (.text s) = .float x := by
      rw [coerce, hinteger, if_neg Bool.false_ne_true, if_pos h, numberOf, hnumber]
    rw [hcoerced]
    exact ⟨rfl, rfl⟩
  | bool b => cases hx
  | null => cases hx

/-- What a number is stored as reads as the double that it is checked as. -/
theorem float?_coerce (h : f.isNumeric = true) (hx : v.float? = some x) :
    ∃ y, (f.coerce v).float? = some y ∧ (y = x ∨ (y == x) = true) := by
  cases hinteger : f.isInteger with
  | false => exact ⟨x, (coerce_of_isNumeric h hinteger hx).2, .inl rfl⟩
  | true =>
    rw [coerce_of_isInteger hinteger hx]
    cases hi : v.integer? with
    | none => exact ⟨x, hx, .inl rfl⟩
    | some i => exact ⟨_, rfl, Cell.float?_of_integer? hi hx⟩

end FieldEntry

/-! ### Numbers that are sent -/

namespace Model

variable {m : Model} {row : Record} {c : String} {v : Cell}

/-- An INSERT sends the cell of a column of a row, brought to the type of the field, as the
    argument of that row and that column. -/
theorem insertMany_sends (missing : MissingColumn) {rows : List Record} {i : Nat} {t : TableEntry}
    (ht : m.mainTable = .ok t) (hrow : rows[i]? = some row) (hv : row.get? c = some v)
    (hnull : v.isNull = false) : ∃ st, m.insertMany rows missing = .ok st ∧
      st.args[m.sentBefore (unionKeys rows) rows row i ((unionKeys rows).idxOf c)]? =
        some (coerceTo (m.field? c) v) := by
  have hkey : c ∈ row.keys := Record.mem_keys_iff.2 ⟨v, hv⟩
  have hmem : row ∈ rows := List.mem_of_getElem? hrow
  have hcolumn : c ∈ unionKeys rows := mem_unionKeys.2 ⟨row, hmem, hkey⟩
  have hsent : m.sentCell row c = some (coerceTo (m.field? c) v) := by
    rw [sentCell, hv]
    dsimp only
    rw [hnull, if_neg Bool.false_ne_true]
  exact ⟨_, m.insertMany_eq_ok missing ht fun hnone => List.ne_nil_of_mem hkey (hnone row hmem),
    m.args_sentBefore hrow (List.getElem?_idxOf hcolumn) hsent⟩

/-- **The check of a row and the binding of its cells read numbers alike, up to what is an
    integer.**  In a row that is accepted, a value of a numeric field reads as a double.  What is
    sent for it reads as that double; for a field of integers it is the integer that the value is or
    spells, and the value itself where there is none; for any other numeric field it is a number.
    An INSERT and an UPDATE both send it. -/
theorem numbers_read_alike {rules : Rules} {model : String} {f : FieldEntry}
    (haccepted : checkRow rules model m.fields row = .ok ()) (hfield : m.field? c = some f)
    (hnumeric : f.isNumeric = true) (hv : row.get? c = some v) (hblank : v.isBlank = false) :
    ∃ x w, v.float? = some x ∧
      (∃ y, w.float? = some y ∧ (y = x ∨ (y == x) = true)) ∧
      (f.isInteger = true → w = v.integer?.elim v .int) ∧
      (f.isInteger = false → w.isNumber = true) ∧
      ∀ t, m.mainTable = .ok t →
        (∀ rows missing i, rows[i]? = some row → ∃ st, m.insertMany rows missing = .ok st ∧
          st.args[m.sentBefore (unionKeys rows) rows row i ((unionKeys rows).idxOf c)]? = some w) ∧
        (∀ key, c ≠ m.key → ∃ st, m.update key row = .ok (some st) ∧
          st.args[m.assignedBefore row c]? = some w) := by
  have hcolumn : f.column = c := by simpa using List.find?_some hfield
  have hvalue := checkValue_of_accepted (accepted_of_either (.inl haccepted))
    (List.mem_of_find?_eq_some hfield) (hcolumn ▸ hv)
  -- the accepted value is a number, and that number is the one bound
  obtain ⟨x, hx, -⟩ := FieldEntry.number_of_checkValue hvalue hnumeric hblank
  have hnull := Cell.isNull_of_isBlank hblank
  have hcoerced : coerceTo (m.field? c) v = f.coerce v := by
    rw [hfield]
    rfl
  refine ⟨x, f.coerce v, hx, FieldEntry.float?_coerce hnumeric hx,
    fun hinteger => FieldEntry.coerce_of_isInteger hinteger hx,
    fun hinteger => (FieldEntry.coerce_of_isNumeric hnumeric hinteger hx).1, ?_⟩
  rw [← hcoerced]
  exact fun t ht => ⟨fun rows missing i hrow => insertMany_sends missing ht hrow hv hnull,
    fun key hkey => m.update_sends key ht hkey hv hnull⟩

/-- A table of parcels, with a number of copies and a weight. -/
def parcels : Model where
  entry := { id := "parcel", code := "parcels" }
  tables := [{ id := "t", model := "parcel", name := "parcels" }]
  fields := [
    { id := "c", model := "parcel", column := "copies", type := "integer" },
    { id := "w", model := "parcel", column := "weight", type := "decimal" }]
  dialect := .postgres

/-- A parcel with some copies and a weight. -/
def parcel (copies weight : Cell) : Record := ⟨[("copies", copies), ("weight", weight)]⟩

/-- The texts of a parcel are sent as an integer and as a number. -/
theorem parcel_read_alike :
    let row := parcel (.text " +12 ") (.text "1e3")
    (∃ st, parcels.insert row = .ok st ∧ st.args[0]? = some (.int 12)) ∧
    (∃ st, parcels.update (.int 7) row = .ok (some st) ∧ st.args[0]? = some (.int 12)) ∧
    ∃ w, w.isNumber = true ∧
      (∃ st, parcels.insert row = .ok st ∧ st.args[1]? = some w) ∧
      ∃ st, parcels.update (.int 7) row = .ok (some st) ∧ st.args[1]? = some w := by
  intro row
  have haccepted : checkRow Pattern.read "parcel" parcels.fields row = .ok () := by decide +kernel
  have htwelve : (Cell.text " +12 ").integer? = some 12 := by decide +kernel
  obtain ⟨_, w, -, -, hcopies, -, hsent⟩ := numbers_read_alike (m := parcels) (c := "copies")
    haccepted rfl (by decide) rfl rfl
  obtain ⟨_, u, -, -, -, hweight, hsent'⟩ := numbers_read_alike (m := parcels) (c := "weight")
    haccepted rfl (by decide) rfl rfl
  obtain ⟨hinsert, hupdate⟩ := hsent _ rfl
  obtain ⟨hinsert', hupdate'⟩ := hsent' _ rfl
  obtain rfl : w = .int 12 := by rw [hcopies (by decide), htwelve, Option.elim_some]
  exact ⟨hinsert [row] .null 0 rfl, hupdate (.int 7) (by decide), u, hweight (by decide),
    hinsert' [row] .null 0 rfl, hupdate' (.int 7) (by decide)⟩

/-- A number of copies that has an exponent is accepted and sent as a text, and one that is a double
    is accepted and sent as a double. -/
theorem parcel_read_apart :
    let written := parcel (.text "1e3") (.float 0.5)
    let counted := parcel (.float 2.0) (.float 0.5)
    (∃ f, parcels.field? "copies" = some f ∧ f.isInteger = true) ∧
    (checkRow Pattern.read "parcel" parcels.fields written = .ok () ∧
      (∃ st, parcels.insert written = .ok st ∧ st.args = [.text "1e3", .float 0.5]) ∧
      ∃ st, parcels.update (.int 7) written = .ok (some st) ∧
        st.args = [.text "1e3", .float 0.5, .int 7]) ∧
    checkRow Pattern.read "parcel" parcels.fields counted = .ok () ∧
    (∃ st, parcels.insert counted = .ok st ∧ st.args = [.float 2.0, .float 0.5]) ∧
    ∃ st, parcels.update (.int 7) counted = .ok (some st) ∧
      st.args = [.float 2.0, .float 0.5, .int 7] := by
  intro written counted
  refine ⟨⟨_, rfl, by decide⟩, ⟨?_, ⟨_, rfl, ?_⟩, _, rfl, ?_⟩, ?_, ⟨_, rfl, ?_⟩, _, rfl, ?_⟩
  all_goals decide +kernel

end Model

end MetaQuery
