/-
  MetaQuery/Query/Operand.lean
  ============================
  Operands: cells brought to the type of the field they are compared with or stored in.

  A text that reads as a value of the field's type becomes that value, and what does not read is
  left as it is, so the datasource and not the engine decides about it.  Values of other types go
  to textual fields as their plain text.
-/
import MetaQuery.Catalog.Entry
import MetaQuery.Cell

namespace MetaQuery

/-- The integer that a text spells, between blanks. -/
def integerOf (s : String) : Cell :=
  match Decimal.int64? (Text.trimBlanks s.toList) with
  | some i => .int i
  | none => .text s

/-- The number that a text spells, between blanks. -/
def numberOf (s : String) : Cell :=
  match Decimal.float? (Text.trimBlanks s.toList) with
  | some x => .float x
  | none => .text s

/-- The flag that a text spells, between blanks and in any case. -/
def flagOf (s : String) : Cell :=
  let word := Text.trim s
  if Text.isOneOf word ["true", "1"] then .bool true
  else if Text.isOneOf word ["false", "0"] then .bool false
  else .text s

/-- A cell brought to the type of a field. -/
def FieldEntry.coerce (f : FieldEntry) : Cell → Cell
  | .text s =>
    if f.isInteger then integerOf s
    else if f.isNumeric then numberOf s
    else if f.isBoolean then flagOf s
    else .text s
  -- only a flag and a text change an integer
  | .int i =>
    if f.isBoolean then .bool (i != 0)
    else if f.isTextual then .text (Cell.int i).display
    else .int i
  | .float x => if f.isTextual then .text (Cell.float x).display else .float x
  | .bool b => if f.isTextual then .text (Cell.bool b).display else .bool b
  | .null => .null

/-- A cell brought to the type of a field, if the column is one. -/
def coerceTo (field : Option FieldEntry) (v : Cell) : Cell :=
  match field with
  | some f => f.coerce v
  | none => v

@[simp] theorem coerce_null (f : FieldEntry) : f.coerce .null = .null := rfl

@[simp] theorem coerceTo_none (v : Cell) : coerceTo none v = v := rfl

/-- NULL stays NULL, and nothing else becomes it. -/
theorem isNull_coerce (f : FieldEntry) (v : Cell) : (f.coerce v).isNull = v.isNull := by
  cases v with
  | text s =>
    simp only [FieldEntry.coerce, integerOf, numberOf, flagOf]
    repeat' split
    all_goals rfl
  | int i =>
    simp only [FieldEntry.coerce]
    repeat' split
    all_goals rfl
  | float x => simp only [FieldEntry.coerce]; split <;> rfl
  | bool b => simp only [FieldEntry.coerce]; split <;> rfl
  | null => rfl

theorem isNull_coerceTo (field : Option FieldEntry) (v : Cell) :
    (coerceTo field v).isNull = v.isNull := by
  cases field with
  | none => rfl
  | some f => exact isNull_coerce f v

end MetaQuery
