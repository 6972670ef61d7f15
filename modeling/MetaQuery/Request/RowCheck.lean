/-
  MetaQuery/Request/RowCheck.lean
  ===============================
  Whether a row may be written to a model.  A row has no columns but those of the model, required
  fields have values, and values fit their fields: texts are short enough, numbers are in range,
  and what has a rule matches it.  A model without fields takes any row.

  A whole row needs all required fields; of a part of a row only what is there is checked.  The
  two checks go through the fields each in its own way, and the first failure counts.

  Rules are patterns of an engine that is not part of the library.  It comes as a parameter.
-/
import MetaQuery.Fault
import MetaQuery.Model
import MetaQuery.Record

namespace MetaQuery

/-- An engine that reads rules: of a rule, the texts that match it, or why it is none. -/
abbrev Rules := String → Except String (String → Bool)

namespace FieldEntry

def checkLength (f : FieldEntry) (text : String) : Except Fault Unit :=
  if f.isTextual ∧ 0 < f.maxLength ∧ f.maxLength.toNat < text.length then
    .error (.invalid f.column (.tooLong f.maxLength text.length))
  else .ok ()

/-- A number of the field is in range; there is a range where the bounds are in order. -/
def checkRange (f : FieldEntry) (x : Float) : Except Fault Unit :=
  if f.least < f.most then
    if f.most < x then .error (.invalid f.column (.aboveMost f.most))
    else if x < f.least then .error (.invalid f.column (.belowLeast f.least))
    else .ok ()
  else .ok ()

def checkNumber (f : FieldEntry) (v : Cell) : Except Fault Unit :=
  if f.isNumeric then
    match v.float? with
    | some x => f.checkRange x
    | none => .error (.invalid f.column .notANumber)
  else .ok ()

def checkRule (f : FieldEntry) (rules : Rules) (text : String) : Except Fault Unit :=
  if f.rule = "" then .ok ()
  else match rules f.rule with
    | .ok isMatch =>
      if isMatch text then .ok () else .error (.invalid f.column .ruleUnmatched)
    | .error cause => .error (.invalid f.column (.invalidRule cause))

/-- A value fits the field; a blank one always does. -/
def checkValue (f : FieldEntry) (rules : Rules) (v : Cell) : Except Fault Unit :=
  if v.isBlank then .ok ()
  else do
    f.checkLength v.display
    f.checkNumber v
    f.checkRule rules v.display

def missing (f : FieldEntry) : Fault := .invalid f.column (.required f.label)

end FieldEntry

/-- A column of a row that no field has; the datasource may assign `id`, which is always known. -/
def unknownColumn? (fields : List FieldEntry) (row : Record) : Option String :=
  row.keys.find? fun k => k != "id" && !fields.any (·.column == k)

/-- A row has no unknown column. -/
def checkColumns (model : String) (fields : List FieldEntry) (row : Record) : Except Fault Unit :=
  match unknownColumn? fields row with
  | some k => .error (.invalid k (.unknownColumn model))
  | none => .ok ()

/-! ### Whole rows -/

/-- The fields of a whole row: the required ones have values, and the values that are there fit. -/
def checkWhole (rules : Rules) (row : Record) : List FieldEntry → Except Fault Unit
  | [] => .ok ()
  | f :: rest =>
    if f.isRequired && (row.get? f.column).all Cell.isBlank then .error f.missing
    else do
      (row.get? f.column).forM (f.checkValue rules)
      checkWhole rules row rest

/-- A whole row may be written. -/
def checkRow (rules : Rules) (model : String) (fields : List FieldEntry) (row : Record) :
    Except Fault Unit :=
  if fields.isEmpty then .ok ()
  else do
    checkColumns model fields row
    checkWhole rules row fields

/-! ### Parts of rows -/

/-- The fields of a part of a row: those whose columns it lacks are passed over. -/
def checkPresent (rules : Rules) (row : Record) : List FieldEntry → Except Fault Unit
  | [] => .ok ()
  | f :: rest =>
    match row.get? f.column with
    | none => checkPresent rules row rest
    | some v =>
      if f.isRequired && v.isBlank then .error f.missing
      else do
        f.checkValue rules v
        checkPresent rules row rest

/-- Some columns of a row may be written. -/
def checkPartialRow (rules : Rules) (model : String) (fields : List FieldEntry) (row : Record) :
    Except Fault Unit :=
  if fields.isEmpty then .ok ()
  else do
    checkColumns model fields row
    checkPresent rules row fields

end MetaQuery
