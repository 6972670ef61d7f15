/-
  MetaQuery/Proofs/Catalog/Types.lean
  ===================================
  Types of columns, and what they make of cells.

  A type is known by its word.  The words for texts, for integers and for truth values have none in
  common, so a column of integers holds no texts and no truth values, and a cell that it can hold is
  stored in it as it is.
-/
import MetaQuery.Query.Operand

namespace MetaQuery

theorem Text.isOneOf_disjoint {s : String} {words others : List String}
    (h : ∀ w ∈ words, w ∉ others) (hs : Text.isOneOf s words = true) :
    Text.isOneOf s others = false := by
  obtain ⟨w, hw, hword⟩ := List.any_eq_true.1 hs
  refine Bool.eq_false_iff.2 fun hother => ?_
  obtain ⟨v, hv, hsame⟩ := List.any_eq_true.1 hother
  have hlists : w.toList = v.toList :=
    (beq_iff_eq.1 hword).symm.trans (beq_iff_eq.1 hsame)
  rw [String.toList_inj.1 hlists] at hw
  exact h v hw hv

namespace FieldEntry

variable {f : FieldEntry}

/-! ### Integers -/

theorem not_textual_of_isInteger (h : f.isInteger = true) : f.isTextual = false :=
  Text.isOneOf_disjoint (by decide) h

theorem not_boolean_of_isInteger (h : f.isInteger = true) : f.isBoolean = false :=
  Text.isOneOf_disjoint (by decide) h

/-- Integers are stored in a column of integers as they are. -/
theorem coerce_int (h : f.isInteger = true) (i : Int64) : f.coerce (.int i) = .int i := by
  simp [coerce, not_boolean_of_isInteger h, not_textual_of_isInteger h]

/-- So are the doubles that stand for greater integers. -/
theorem coerce_ofInt_of_isInteger (h : f.isInteger = true) (i : Int) :
    f.coerce (.ofInt i) = .ofInt i := by
  unfold Cell.ofInt
  split
  · exact coerce_int h _
  · simp [coerce, not_textual_of_isInteger h]

theorem coerce_text_of_isInteger (h : f.isInteger = true) (s : String) :
    f.coerce (.text s) = integerOf s := by
  simp [coerce, h]

/-! ### Numbers -/

theorem not_textual_of_isNumeric (h : f.isNumeric = true) : f.isTextual = false := by
  rw [isNumeric, Bool.or_eq_true] at h
  rcases h with h | h
  · exact not_textual_of_isInteger h
  · exact Text.isOneOf_disjoint (by decide) h

theorem not_boolean_of_isNumeric (h : f.isNumeric = true) : f.isBoolean = false := by
  rw [isNumeric, Bool.or_eq_true] at h
  rcases h with h | h
  · exact not_boolean_of_isInteger h
  · exact Text.isOneOf_disjoint (by decide) h

/-- A double is stored in a column of numbers as it is. -/
theorem coerce_float_of_isNumeric (h : f.isNumeric = true) (x : Float) :
    f.coerce (.float x) = .float x := by
  simp [coerce, not_textual_of_isNumeric h]

theorem coerce_int_of_isNumeric (h : f.isNumeric = true) (i : Int64) :
    f.coerce (.int i) = .int i := by
  simp [coerce, not_boolean_of_isNumeric h, not_textual_of_isNumeric h]

/-! ### Flags -/

/-- Flags are stored in a column of flags as they are. -/
theorem coerce_bool (h : f.isBoolean = true) (b : Bool) : f.coerce (.bool b) = .bool b := by
  have htextual : f.isTextual = false := Text.isOneOf_disjoint (by decide) h
  simp [coerce, htextual]

theorem coerce_text_of_isBoolean (h : f.isBoolean = true) (s : String) :
    f.coerce (.text s) = flagOf s := by
  have hinteger : f.isInteger = false := Text.isOneOf_disjoint (by decide) h
  have hnumeric : f.isNumeric = false := by
    refine Bool.eq_false_iff.2 fun hnumeric => ?_
    rw [not_boolean_of_isNumeric hnumeric] at h
    cases h
  simp [coerce, hinteger, hnumeric, h]

/-! ### Texts -/

theorem not_boolean_of_isTextual (h : f.isTextual = true) : f.isBoolean = false :=
  Text.isOneOf_disjoint (by decide) h

/-- Texts are stored in a column of texts as they are. -/
theorem coerce_text (h : f.isTextual = true) (s : String) : f.coerce (.text s) = .text s := by
  have hinteger : f.isInteger = false := Text.isOneOf_disjoint (by decide) h
  have hnumber : f.isNumeric = false := by
    rw [isNumeric, hinteger, Bool.false_or]
    exact Text.isOneOf_disjoint (by decide) h
  simp [coerce, hinteger, hnumber, not_boolean_of_isTextual h]

/-- A whole number is stored in a column of texts as it is displayed. -/
theorem coerce_ofInt_of_isTextual (h : f.isTextual = true) (i : Int) :
    f.coerce (.ofInt i) = .text (Cell.ofInt i).display := by
  unfold Cell.ofInt
  split <;> simp [coerce, h, not_boolean_of_isTextual h]

end FieldEntry

end MetaQuery
