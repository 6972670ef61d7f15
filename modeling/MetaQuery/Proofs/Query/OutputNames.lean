/-
  MetaQuery/Proofs/Query/OutputNames.lean
  =======================================
  The names of the projected columns, and what they make of a row.

  Each text of a projection names one column, with the output name of its field
  (`FieldEntry.names_projection_iff`).  A row comes back under these names and becomes a record,
  where of several cells with one name the last one counts.  So all fields keep their cells exactly
  when their output names are distinct (`Model.keepsFields_iff`).  The check of a catalog tells the
  columns of a model apart, but not its output names: these are distinct exactly when no field is
  renamed to the output name of another one (`Model.nodup_outputNames_iff`).
-/
import Mathlib.Data.List.Forall2
import MetaQuery.Proofs.Catalog.Addressing
import MetaQuery.Proofs.Query.Fetching

namespace MetaQuery

/-! ### Names in texts -/

namespace Dialect

variable {d : Dialect}

/-- The text of a projection names its column: by the name of the column, or by another one that
    is put behind an expression. -/
inductive Names (d : Dialect) : String → String → Prop where
  | column (table name : String) : d.Names (d.column table name) name
  | renamed (expr name : String) : d.Names (expr ++ " AS " ++ d.quote name) name

/-- The name stands at the end, between quotes of which the first one is not doubled. -/
theorem Names.ends {text name : String} (h : d.Names text name) :
    ∃ front : String, front.toList.getLast? ≠ some d.quoteChar ∧ text = front ++ d.quote name := by
  have hdot : '.' ≠ d.quoteChar := by cases d <;> decide
  have hblank : ' ' ≠ d.quoteChar := by cases d <;> decide
  cases h with
  | column table =>
    rw [Dialect.column]
    split
    · exact ⟨"", by simp, by simp⟩
    · refine ⟨d.quote table ++ ".", ?_, rfl⟩
      simpa [String.toList_append] using hdot
  | renamed expr =>
    refine ⟨expr ++ " AS ", ?_, rfl⟩
    simpa [String.toList_append] using hblank

/-- **A text names one column only.**  Read from its end, it shows where the name begins. -/
theorem Names.unique {text name name' : String} (h : d.Names text name)
    (h' : d.Names text name') : name = name' := by
  have hread : ∀ front name : String, (front ++ d.quote name).toList.reverse =
      d.quoteChar :: (Text.double d.quoteChar name.toList.reverse ++
        d.quoteChar :: front.toList.reverse) := by
    intro front name
    simp [quote, Text.enclose, String.toList_append, Text.double_reverse]
  obtain ⟨front, hfront, rfl⟩ := h.ends
  obtain ⟨front', hfront', htext⟩ := h'.ends
  rw [← List.head?_reverse] at hfront hfront'
  have hsame := congrArg (fun text : String => text.toList.reverse) htext
  simp only [hread] at hsame
  obtain ⟨hname, -⟩ := Text.double_append_inj hfront hfront' (List.cons.inj hsame).2
  exact String.toList_inj.1 (List.reverse_inj.1 hname)

end Dialect

theorem FieldEntry.names_projection (d : Dialect) (f : FieldEntry) :
    d.Names (f.projection d) f.outputName := by
  dsimp only [projection]
  split
  · exact .renamed _ _
  · next hplain =>
    obtain ⟨hfunction, haggregate, hname⟩ : Text.trim f.function = "" ∧
        Text.trim f.aggregate = "" ∧ f.outputName = f.column := by
      simpa only [not_or, not_not] using hplain
    rw [if_pos haggregate, applyFunction_of_blank hfunction, hname]
    exact .column f.table f.column

/-- A projected field has its output name and no other one. -/
theorem FieldEntry.names_projection_iff (d : Dialect) (f : FieldEntry) {name : String} :
    d.Names (f.projection d) name ↔ name = f.outputName := by
  constructor
  · intro h
    exact h.unique (f.names_projection d)
  · rintro rfl
    exact f.names_projection d

/-! ### Cells under names -/

/-- Where names are distinct, every cell of a row is found under its name. -/
theorem SourceRow.get?_record_of_nodup {row : SourceRow} (h : (row.map (·.1)).Nodup) :
    ∀ e ∈ row, row.record.get? e.1 = some e.2.cell := by
  intro e he
  have hreversed : (row.reverse.map (·.1)).Nodup := by
    rw [List.map_reverse]
    exact List.nodup_reverse.2 h
  have hfirst := (Catalog.forall_find?_key_iff (List.Nodup.of_map _ hreversed)).2 hreversed
  rw [SourceRow.get?_record, hfirst e (List.mem_reverse.2 he)]
  rfl

namespace Model

variable {m : Model}

def outputNames (m : Model) : List String := m.fields.map (·.outputName)

/-- Whatever row comes back under the names of the projection, its record has the cell of every
    field. -/
def KeepsFields (m : Model) : Prop :=
  ∀ row : SourceRow, row.map (·.1) = m.outputNames →
    List.Forall₂ (fun f e => row.record.get? f.outputName = some e.2.cell) m.fields row

theorem keepsFields_of_nodup (h : m.outputNames.Nodup) : m.KeepsFields := by
  intro row hrow
  have hcells := SourceRow.get?_record_of_nodup (hrow ▸ h)
  have hsame : List.Forall₂ (· = ·) (row.map (·.1)) (m.fields.map (·.outputName)) := by
    rw [List.forall₂_eq_eq_eq]
    exact hrow
  have hnamed : List.Forall₂ (fun e f => e.1 = FieldEntry.outputName f) row m.fields :=
    List.forall₂_map_right_iff.1 (List.forall₂_map_left_iff.1 hsame)
  apply List.Forall₂.flip
  refine ((List.forall₂_and_left row m.fields).2 ⟨hcells, hnamed⟩).imp ?_
  rintro e f ⟨hcell, hname⟩
  change row.record.get? f.outputName = some e.2.cell
  rw [← hname, hcell]

/-- When all fields keep their cells, their names are distinct: in a row in which each cell says
    which column it is of, fields with one name have one cell. -/
theorem nodup_of_keepsFields (hcolumns : (m.fields.map (·.column)).Nodup) (h : m.KeepsFields) :
    m.outputNames.Nodup := by
  let row : SourceRow := m.fields.map fun f => (f.outputName, .text f.column)
  have hrow : row.map (·.1) = m.outputNames := by
    rw [List.map_map]
    rfl
  have hkept := h row hrow
  rw [List.forall₂_map_right_iff, List.forall₂_same] at hkept
  refine List.Nodup.map_on ?_ (List.Nodup.of_map _ hcolumns)
  intro f hf g hg hname
  have hcell := hkept f hf
  rw [hname, hkept g hg] at hcell
  have hcolumn : g.column = f.column := Cell.text.inj (Option.some.inj hcell)
  exact List.inj_on_of_nodup_map hcolumns hf hg hcolumn.symm

theorem keepsFields_iff (hcolumns : (m.fields.map (·.column)).Nodup) :
    m.KeepsFields ↔ m.outputNames.Nodup :=
  ⟨nodup_of_keepsFields hcolumns, keepsFields_of_nodup⟩

/-- No field is renamed to the output name of another one. -/
def RenamesApart (m : Model) : Prop :=
  ∀ f ∈ m.fields, ∀ g ∈ m.fields, f ≠ g → f.shownAs ≠ "" → f.shownAs ≠ g.outputName

theorem nodup_outputNames_iff (hcolumns : (m.fields.map (·.column)).Nodup) :
    m.outputNames.Nodup ↔ m.RenamesApart := by
  constructor
  · intro hnames f hf g hg hne hshown hsame
    apply hne
    apply List.inj_on_of_nodup_map hnames hf hg
    rw [← hsame, FieldEntry.outputName, if_neg hshown]
  · intro happart
    refine List.Nodup.map_on ?_ (List.Nodup.of_map _ hcolumns)
    intro f hf g hg hname
    by_contra hne
    -- two fields with one name: one of them is renamed, or they are one column
    by_cases hshown : f.shownAs = ""
    · by_cases hshown' : g.shownAs = ""
      · rw [FieldEntry.outputName, FieldEntry.outputName, if_pos hshown, if_pos hshown'] at hname
        exact hne (List.inj_on_of_nodup_map hcolumns hf hg hname)
      · apply happart g hg f hf (Ne.symm hne) hshown'
        rw [hname, FieldEntry.outputName, if_neg hshown']
    · apply happart f hf g hg hne hshown
      rw [← hname, FieldEntry.outputName, if_neg hshown]

end Model

/-! ### Models of accepted catalogs -/

namespace Catalog

variable {c : Catalog} {id : String} {m : Model}

theorem nodup_columns_of_model (hcheck : c.check = .ok ()) (hm : c.model id = .ok m) :
    (m.fields.map (·.column)).Nodup := by
  rw [fields_of_model hm]
  exact Metadata.nodup_columns (check_eq_ok_iff.1 hcheck).columns m.entry.id

/-- **Fields keep their cells unless one is renamed to the name of another.**  A model of a catalog
    that passes its check is projected with one column for each field, under its output name; and
    the record of every row has the cells of all fields exactly when these names are distinct, which
    they are as long as no field is renamed to the output name of another one. -/
theorem fields_kept_iff_renamed_apart (hcheck : c.check = .ok ()) (hm : c.model id = .ok m) :
    (∀ params q, m.isRaw = false → m.compile params = .ok q → List.Forall₂
      (fun f text => ∀ name, m.dialect.Names text name ↔ name = f.outputName) m.fields q.columns) ∧
    (m.KeepsFields ↔ m.outputNames.Nodup) ∧ (m.outputNames.Nodup ↔ m.RenamesApart) := by
  have hcolumns := nodup_columns_of_model hcheck hm
  refine ⟨?_, Model.keepsFields_iff hcolumns, Model.nodup_outputNames_iff hcolumns⟩
  intro params q hraw hq
  obtain ⟨source, window, -, -, rfl⟩ := Model.eq_of_compile_entries hraw hq
  rw [List.forall₂_map_right_iff, List.forall₂_same]
  intro f _ name
  exact f.names_projection_iff m.dialect

/-- People with their names, of which one is renamed. -/
def staffCatalog : Catalog where
  models := [{ id := "person", code := "people" }]
  tables := [{ id := "t", model := "person", name := "people" }]
  fields := [{ id := "a", model := "person", column := "name" },
    { id := "b", model := "person", column := "first", shownAs := "given name" }]

def staff : Model where
  entry := { id := "person", code := "people" }
  tables := staffCatalog.tables
  fields := staffCatalog.fields
  dialect := .mysql

theorem staff_fields_kept :
    (staffCatalog.check = .ok () ∧ staffCatalog.model "person" = .ok staff) ∧
      (∀ params q, staff.isRaw = false → staff.compile params = .ok q → List.Forall₂
        (fun f text => ∀ name, staff.dialect.Names text name ↔ name = f.outputName)
        staff.fields q.columns) ∧
      (staff.KeepsFields ↔ staff.outputNames.Nodup) ∧
      (staff.outputNames.Nodup ↔ staff.RenamesApart) := by
  have hcheck : staffCatalog.check = .ok () := by decide
  have hm : staffCatalog.model "person" = .ok staff := rfl
  exact ⟨⟨hcheck, hm⟩, fields_kept_iff_renamed_apart hcheck hm⟩

/-- People whose titles are shown as names, beside their names. -/
def titledCatalog : Catalog where
  models := [{ id := "person", code := "people" }]
  tables := [{ id := "t", model := "person", name := "people" }]
  fields := [{ id := "a", model := "person", column := "name" },
    { id := "b", model := "person", column := "title", shownAs := "name" }]

def titled : Model where
  entry := { id := "person", code := "people" }
  tables := titledCatalog.tables
  fields := titledCatalog.fields
  dialect := .mysql

def titledRow : SourceRow := [("name", .text "Ann"), ("name", .text "Dr")]

/-- The check accepts a field that is renamed to the name of another one.  Both columns are selected
    under one name, and the record of a row has the second cell alone. -/
theorem title_hides_name :
    titledCatalog.check = .ok () ∧ titledCatalog.model "person" = .ok titled ∧
      (titled.compile []).map (·.columns) = .ok ["`name`", "`title` AS `name`"] ∧
      titled.outputNames = ["name", "name"] ∧ titledRow.map (·.1) = titled.outputNames ∧
      titledRow.record = ⟨[("name", .text "Dr")]⟩ ∧ ¬ titled.KeepsFields := by
  refine ⟨by decide, rfl, ?_, by decide, by decide, by decide, ?_⟩
  · decide
  · intro hkeeps
    have hnames := Model.nodup_of_keepsFields (by decide) hkeeps
    revert hnames
    decide

end Catalog

end MetaQuery
