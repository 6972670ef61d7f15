/-
  MetaQuery/Proofs/Request/Partial.lean
  =====================================
  The check of a whole row and the check of some of its columns agree, whatever engine reads the
  rules.

  Both checks look for unknown columns and then go through the fields, each in its own loop.  The
  loops are compared through what they ask of one field (`FieldEntry.Fits`): both ask it, and the
  one over whole rows also asks for a value where the field is required.  So a whole row is
  accepted just when its columns are, and each required field has a value in it
  (`checkRow_eq_ok_iff`); on a row that has the columns of all required fields the loops stop at
  the same field, with one outcome; and columns that are left out of an accepted part leave a part
  that is accepted.
-/
import MetaQuery.Pattern.Reader
import MetaQuery.Proofs.Catalog.Addressing
import MetaQuery.Proofs.Query.Columns
import MetaQuery.Request.RowCheck

namespace MetaQuery

variable {rules : Rules} {model : String} {fields : List FieldEntry} {row : Record}

/-! ### One field -/

namespace FieldEntry

variable {f : FieldEntry} {v : Cell}

/-- What the row has in the column of the field, if it has something there, fits the field. -/
def Fits (f : FieldEntry) (rules : Rules) (row : Record) : Prop :=
  ∀ v, row.get? f.column = some v →
    (f.isRequired && v.isBlank) = false ∧ f.checkValue rules v = .ok ()

theorem fits_of_none (h : row.get? f.column = none) : f.Fits rules row := by
  intro v hv
  rw [h] at hv
  cases hv

theorem fits_iff_of_some (h : row.get? f.column = some v) :
    f.Fits rules row ↔ (f.isRequired && v.isBlank) = false ∧ f.checkValue rules v = .ok () := by
  constructor
  · exact fun hfits => hfits v h
  · intro hv w hw
    rw [h] at hw
    obtain rfl := Option.some.inj hw
    exact hv

theorem Fits.without (h : f.Fits rules row) (columns : List String) :
    f.Fits rules (row.without columns) := by
  by_cases hmem : f.column ∈ columns
  · exact fits_of_none (Record.get?_without_of_mem hmem row)
  · intro v hv
    rw [Record.get?_without_of_not_mem hmem] at hv
    exact h v hv

end FieldEntry

/-! ### The loops over the fields -/

theorem checkPresent_eq_ok_iff :
    checkPresent rules row fields = .ok () ↔ ∀ f ∈ fields, f.Fits rules row := by
  induction fields with
  | nil => simp [checkPresent]
  | cons f rest ih =>
    rw [checkPresent, List.forall_mem_cons]
    cases hget : row.get? f.column with
    | none => exact ih.trans (and_iff_right (FieldEntry.fits_of_none hget)).symm
    | some v =>
      rw [FieldEntry.fits_iff_of_some hget]
      dsimp only
      split
      -- a required value that is there must not be blank
      · next hmissing => simp [hmissing]
      · next hthere =>
        rw [Bool.not_eq_true] at hthere
        rw [Catalog.andThen_eq_ok_iff, ih, and_iff_right hthere]

theorem checkWhole_eq_ok_iff :
    checkWhole rules row fields = .ok () ↔
      ∀ f ∈ fields, f.Fits rules row ∧ (f.isRequired = true → row.HasValue f.column) := by
  induction fields with
  | nil => simp [checkWhole]
  | cons f rest ih =>
    rw [checkWhole, List.forall_mem_cons]
    cases hget : row.get? f.column with
    | none =>
      -- the only place where the two loops differ
      have hno : ¬row.HasValue f.column := by
        rintro ⟨v, hv, -⟩
        rw [hget] at hv
        cases hv
      cases hrequired : f.isRequired with
      | true => exact iff_of_false nofun fun h => hno (h.1.2 rfl)
      | false =>
        refine ih.trans (and_iff_right ⟨FieldEntry.fits_of_none hget, nofun⟩).symm
    | some v =>
      have hvalue : (f.isRequired && v.isBlank) = false → f.isRequired = true →
          row.HasValue f.column := by
        intro hmissing hrequired
        rw [hrequired, Bool.true_and] at hmissing
        exact ⟨v, hget, hmissing⟩
      rw [FieldEntry.fits_iff_of_some hget, Option.all_some]
      split
      · next hmissing => simp [hmissing]
      · next hthere =>
        rw [Bool.not_eq_true] at hthere
        rw [Catalog.andThen_eq_ok_iff, ih, and_iff_left (hvalue hthere), and_iff_right hthere]
        rfl

/-- Where the columns of the required fields are there, the loops stop at the same field. -/
theorem checkWhole_eq_checkPresent
    (h : ∀ f ∈ fields, f.isRequired = true → f.column ∈ row.keys) :
    checkWhole rules row fields = checkPresent rules row fields := by
  induction fields with
  | nil => rfl
  | cons f rest ih =>
    obtain ⟨hcolumn, hrest⟩ := List.forall_mem_cons.1 h
    rw [checkWhole, checkPresent, ih hrest]
    cases hget : row.get? f.column with
    | some v => rfl
    | none =>
      -- a column that is not given is not a required one
      have hoptional : f.isRequired = false := by
        rw [← Bool.not_eq_true]
        intro hrequired
        obtain ⟨v, hv⟩ := Record.mem_keys_iff.1 (hcolumn hrequired)
        rw [hget] at hv
        cases hv
      rw [hoptional]
      rfl

/-! ### Rows -/

theorem checkColumns_eq_ok_iff :
    checkColumns model fields row = .ok () ↔ unknownColumn? fields row = none := by
  rw [checkColumns]
  cases unknownColumn? fields row with
  | some k => simp
  | none => simp

/-- A whole row is accepted when it has no unknown column, what is there fits, and the required
    fields have values. -/
theorem checkRow_eq_ok_iff_fits :
    checkRow rules model fields row = .ok () ↔
      fields = [] ∨ (unknownColumn? fields row = none ∧
        ∀ f ∈ fields, f.Fits rules row ∧ (f.isRequired = true → row.HasValue f.column)) := by
  rw [checkRow, ← @checkColumns_eq_ok_iff model, ← checkWhole_eq_ok_iff,
    ← Catalog.andThen_eq_ok_iff]
  cases fields with
  | nil => simp
  | cons f rest => simp

/-- A part of a row is accepted when it has no unknown column and what is there fits. -/
theorem checkPartialRow_eq_ok_iff :
    checkPartialRow rules model fields row = .ok () ↔
      fields = [] ∨ (unknownColumn? fields row = none ∧ ∀ f ∈ fields, f.Fits rules row) := by
  rw [checkPartialRow, ← @checkColumns_eq_ok_iff model, ← checkPresent_eq_ok_iff,
    ← Catalog.andThen_eq_ok_iff]
  cases fields with
  | nil => simp
  | cons f rest => simp

theorem unknownColumn?_without (h : unknownColumn? fields row = none) (columns : List String) :
    unknownColumn? fields (row.without columns) = none := by
  rw [unknownColumn?, List.find?_eq_none] at h ⊢
  intro k hk
  rw [Record.keys_without] at hk
  exact h k (List.mem_filter.1 hk).1

/-- A whole row is accepted when its columns are and required fields have values. -/
theorem checkRow_eq_ok_iff :
    checkRow rules model fields row = .ok () ↔
      checkPartialRow rules model fields row = .ok () ∧
        ∀ f ∈ fields, f.isRequired = true → row.HasValue f.column := by
  rw [checkRow_eq_ok_iff_fits, checkPartialRow_eq_ok_iff]
  constructor
  · rintro (rfl | ⟨hknown, hfields⟩)
    · exact ⟨.inl rfl, fun f hf => by cases hf⟩
    · exact ⟨.inr ⟨hknown, fun f hf => (hfields f hf).1⟩, fun f hf => (hfields f hf).2⟩
  · rintro ⟨hnone | ⟨hknown, hfields⟩, hvalues⟩
    · exact .inl hnone
    · exact .inr ⟨hknown, fun f hf => ⟨hfields f hf, hvalues f hf⟩⟩

/-- The two checks are one on a row with the columns of all required fields. -/
theorem checkRow_eq_checkPartialRow
    (h : ∀ f ∈ fields, f.isRequired = true → f.column ∈ row.keys) :
    checkRow rules model fields row = checkPartialRow rules model fields row := by
  rw [checkRow, checkPartialRow, checkWhole_eq_checkPresent h]

theorem checkPartialRow_without (h : checkPartialRow rules model fields row = .ok ())
    (columns : List String) :
    checkPartialRow rules model fields (row.without columns) = .ok () := by
  rw [checkPartialRow_eq_ok_iff] at h ⊢
  rcases h with hnone | ⟨hknown, hfields⟩
  · exact .inl hnone
  · exact .inr ⟨unknownColumn?_without hknown columns, fun f hf => (hfields f hf).without columns⟩

/-- **The checks of whole rows and of parts of rows agree**, whatever engine reads the rules.  A
    whole row is accepted just when its part is and every required field has a value; where no
    column of a required field is missing they have one outcome, faults included; and an accepted
    part stays accepted without some of its columns, left out at once or removed one after the
    other. -/
theorem whole_and_partial_checks_agree (rules : Rules) (model : String) (fields : List FieldEntry)
    (row : Record) :
    (checkRow rules model fields row = .ok () ↔
      checkPartialRow rules model fields row = .ok () ∧
        ∀ f ∈ fields, f.isRequired = true → row.HasValue f.column) ∧
    ((∀ f ∈ fields, f.isRequired = true → f.column ∈ row.keys) →
      checkRow rules model fields row = checkPartialRow rules model fields row) ∧
    (checkPartialRow rules model fields row = .ok () → ∀ columns : List String,
      checkPartialRow rules model fields (row.without columns) = .ok () ∧
        (row.keys.Nodup →
          checkPartialRow rules model fields (columns.foldl Record.remove row) = .ok ())) := by
  refine ⟨checkRow_eq_ok_iff, checkRow_eq_checkPartialRow, fun h columns => ?_⟩
  have hwithout := checkPartialRow_without h columns
  refine ⟨hwithout, fun hkeys => ?_⟩
  rw [Record.foldl_remove hkeys]
  exact hwithout

/-- Fields of a guest: a name that is required, short and capitalized, and a number of seats. -/
def guestFields : List FieldEntry := [
  { id := "n", model := "guest", column := "name", type := "string", nullable := false,
    maxLength := 3, rule := "^[A-Z]" },
  { id := "s", model := "guest", column := "seats", type := "integer", least := 1.0, most := 8.0 }]

/-- A guest with three seats. -/
def guest : Record := ⟨[("name", .text "Ann"), ("seats", .text " 3")]⟩

/-- A guest is accepted as a whole, as a part, and without any column; without the name it is no
    whole row, and a name without a capital is refused by both checks alike. -/
theorem guest_checks_agree :
    (checkRow Pattern.read "guest" guestFields guest = .ok () ∧
      checkPartialRow Pattern.read "guest" guestFields (guest.without ["name"]) = .ok () ∧
      checkPartialRow Pattern.read "guest" guestFields
        (["seats", "name"].foldl Record.remove guest) = .ok ()) ∧
    ¬checkRow Pattern.read "guest" guestFields (guest.without ["name"]) = .ok () ∧
    checkRow Pattern.read "guest" guestFields (guest.set "name" (.text "ann")) =
      checkPartialRow Pattern.read "guest" guestFields (guest.set "name" (.text "ann")) ∧
    checkPartialRow Pattern.read "guest" guestFields (guest.set "name" (.text "ann")) =
      .error (.invalid "name" .ruleUnmatched) := by
  have hpart : checkPartialRow Pattern.read "guest" guestFields guest = .ok () := by
    decide +kernel
  -- only the name is required, and the guest has one
  have hvalues : ∀ f ∈ guestFields, f.isRequired = true → guest.HasValue f.column := by
    intro f hf hrequired
    simp only [guestFields, List.mem_cons, List.not_mem_nil, or_false] at hf
    rcases hf with rfl | rfl
    · exact ⟨.text "Ann", rfl, rfl⟩
    · cases hrequired
  have hcolumns : ∀ f ∈ guestFields, f.isRequired = true →
      f.column ∈ (guest.set "name" (.text "ann")).keys := by decide
  obtain ⟨hwhole, -, hrest⟩ :=
    whole_and_partial_checks_agree Pattern.read "guest" guestFields guest
  refine ⟨⟨hwhole.2 ⟨hpart, hvalues⟩, (hrest hpart ["name"]).1,
    (hrest hpart ["seats", "name"]).2 (by decide)⟩, fun h => ?_, ?_, by decide +kernel⟩
  · obtain ⟨v, hv, -⟩ := ((whole_and_partial_checks_agree Pattern.read "guest" guestFields
      (guest.without ["name"])).1.1 h).2 _ List.mem_cons_self rfl
    cases hv
  · exact (whole_and_partial_checks_agree Pattern.read "guest" guestFields
      (guest.set "name" (.text "ann"))).2.1 hcolumns

end MetaQuery
