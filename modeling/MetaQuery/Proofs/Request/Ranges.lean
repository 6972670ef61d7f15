/-
  MetaQuery/Proofs/Request/Ranges.lean
  ====================================
  Which numbers the check of a row accepts.

  The check of a range refuses what is above the greatest number and what is below the least one.
  For doubles that are numbers that is the range itself, but NaN is neither above nor below
  anything, so it passes (`checkRange_eq_ok_iff`).  NaN comes from a text that spells it, or from a
  cell that is it already; whatever else an accepted row has in a numeric field is in the range of
  the field (`accepted_in_range_iff`).
-/
import MetaQuery.Proofs.Decimal.Comparison
import MetaQuery.Proofs.Request.Partial

namespace MetaQuery

/-! ### Cells as doubles -/

/-- The cell is NaN, or a text that spells it between blanks. -/
def Cell.HoldsNan : Cell → Prop
  | .float x => x = Float.nan
  | .text s => Decimal.SpellsNan (Text.trimBlanks s.toList)
  | _ => False

theorem Cell.eq_nan_iff_of_float? {v : Cell} {x : Float} (h : v.float? = some x) :
    x = Float.nan ↔ v.HoldsNan := by
  cases v with
  | int i =>
    obtain rfl := Option.some.inj h
    exact iff_of_false (Decimal.ofInt_ne_nan _) id
  | float y =>
    obtain rfl := Option.some.inj h
    exact Iff.rfl
  | text s => exact Decimal.eq_nan_iff_of_float? h
  | bool b => cases h
  | null => cases h

/-! ### Fields and their ranges -/

namespace FieldEntry

variable {f : FieldEntry} {v : Cell} {x : Float}

/-- A range accepts what is in it, and NaN. -/
theorem checkRange_eq_ok_iff (hbounds : f.least < f.most) :
    f.checkRange x = .ok () ↔ x = Float.nan ∨ (f.least ≤ x ∧ x ≤ f.most) := by
  obtain ⟨hleast, hmost⟩ := Decimal.ne_nan_of_lt hbounds
  rw [checkRange, if_pos hbounds]
  by_cases hx : x = Float.nan
  · -- neither test is true of NaN, so neither of them refuses it
    have habove : ¬f.most < x := fun h => (Decimal.ne_nan_of_lt h).2 hx
    have hbelow : ¬x < f.least := fun h => (Decimal.ne_nan_of_lt h).1 hx
    rw [if_neg habove, if_neg hbelow]
    exact iff_of_true rfl (.inl hx)
  · rw [Decimal.le_iff_not_lt hx hleast, Decimal.le_iff_not_lt hmost hx]
    split
    · next habove => exact ⟨nofun, fun h => absurd habove (h.resolve_left hx).2⟩
    · next hmost' =>
      split
      · next hbelow => exact ⟨nofun, fun h => absurd hbelow (h.resolve_left hx).1⟩
      · next hleast' => exact iff_of_true rfl (.inr ⟨hleast', hmost'⟩)

/-- A value that a numeric field accepts is a number, in the range of the field or NaN. -/
theorem number_of_checkValue {rules : Rules} (h : f.checkValue rules v = .ok ())
    (hnumeric : f.isNumeric = true) (hblank : v.isBlank = false) :
    ∃ x, v.float? = some x ∧ f.checkRange x = .ok () := by
  rw [checkValue, hblank, if_neg Bool.false_ne_true, Catalog.andThen_eq_ok_iff,
    Catalog.andThen_eq_ok_iff] at h
  obtain ⟨-, hnumber, -⟩ := h
  rw [checkNumber, if_pos hnumeric] at hnumber
  cases hx : v.float? with
  | none =>
    rw [hx] at hnumber
    cases hnumber
  | some x =>
    rw [hx] at hnumber
    exact ⟨x, rfl, hnumber⟩

end FieldEntry

/-! ### Accepted rows -/

variable {rules : Rules} {model : String} {fields : List FieldEntry} {row : Record} {f : FieldEntry}
  {v : Cell}

/-- What is accepted as a whole row is accepted as a part of one. -/
theorem accepted_of_either
    (h : checkRow rules model fields row = .ok () ∨
      checkPartialRow rules model fields row = .ok ()) :
    checkPartialRow rules model fields row = .ok () :=
  h.elim (fun hwhole => (checkRow_eq_ok_iff.1 hwhole).1) id

theorem checkValue_of_accepted (h : checkPartialRow rules model fields row = .ok ())
    (hf : f ∈ fields) (hv : row.get? f.column = some v) : f.checkValue rules v = .ok () := by
  rcases checkPartialRow_eq_ok_iff.1 h with rfl | ⟨-, hfields⟩
  · cases hf
  · exact (hfields f hf v hv).2

/-- **An accepted number is in the range of its field, unless it is NaN.**  In a row that is
    accepted, as a whole or in part, each value of a numeric field with a range reads as a double,
    whether it is an integer, a double or a text; and the double is in the range just when the value
    neither is NaN nor spells it. -/
theorem accepted_in_range_iff
    (h : checkRow rules model fields row = .ok () ∨
      checkPartialRow rules model fields row = .ok ())
    (hf : f ∈ fields) (hnumeric : f.isNumeric = true) (hbounds : f.least < f.most)
    (hv : row.get? f.column = some v) (hblank : v.isBlank = false) :
    ∃ x, v.float? = some x ∧ ((f.least ≤ x ∧ x ≤ f.most) ↔ ¬v.HoldsNan) := by
  have hvalue := checkValue_of_accepted (accepted_of_either h) hf hv
  obtain ⟨x, hx, hrange⟩ := FieldEntry.number_of_checkValue hvalue hnumeric hblank
  rw [FieldEntry.checkRange_eq_ok_iff hbounds] at hrange
  refine ⟨x, hx, ?_⟩
  rw [← Cell.eq_nan_iff_of_float? hx]
  constructor
  · rintro ⟨hleast, -⟩
    exact (Decimal.ne_nan_of_le hleast).2
  · exact hrange.resolve_left

/-- The field of a mark between zero and ten. -/
def markField : FieldEntry where
  id := "n"
  model := "exam"
  column := "mark"
  type := "decimal"
  least := 0.0
  most := 10.0

/-- An exam with a mark. -/
def exam (mark : Cell) : Record := ⟨[("mark", mark)]⟩

/-- A mark that is written with blanks, a sign and an exponent is in its range. -/
theorem exam_in_range :
    ∃ x, (Cell.text " +75e-1 ").float? = some x ∧ markField.least ≤ x ∧ x ≤ markField.most := by
  have haccepted : checkRow Pattern.read "exam" [markField] (exam (.text " +75e-1 ")) = .ok () := by
    decide +kernel
  have hnumber : ¬(Cell.text " +75e-1 ").HoldsNan := by
    change ¬Decimal.SpellsNan (Text.trimBlanks " +75e-1 ".toList)
    decide
  obtain ⟨x, hx, hrange⟩ := accepted_in_range_iff (f := markField) (.inl haccepted)
    List.mem_cons_self (by decide) (by decide) rfl rfl
  exact ⟨x, hx, hrange.2 hnumber⟩

/-- A mark that is spelled as NaN is accepted, and it is not in the range. -/
theorem exam_beyond_range :
    checkRow Pattern.read "exam" [markField] (exam (.text "nan")) = .ok () ∧
    checkPartialRow Pattern.read "exam" [markField] (exam (.text "nan")) = .ok () ∧
    markField.isNumeric = true ∧ markField.least < markField.most ∧
    ∃ x, (Cell.text "nan").float? = some x ∧ ¬(markField.least ≤ x ∧ x ≤ markField.most) := by
  refine ⟨by decide +kernel, by decide +kernel, by decide, by decide, Float.nan, by decide +kernel,
    fun h => ?_⟩
  exact (Decimal.ne_nan_of_le h.1).2 rfl

end MetaQuery
