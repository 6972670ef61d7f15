/-
  MetaQuery/Proofs/Query/Fetching.lean
  ====================================
  The rows that come back from a query.

  A datasource answers a query with the rows of a table that its predicates hold of, with one
  stretch of them, and it names their cells as the projection does (`Model.Fetches`).  So a column
  has its own name in the rows only when the last field of that name is the column itself
  (`Model.ShowsColumn`); then the record of a row has the cell of the table there
  (`ComesAs.get?_eq`).  A request that asks for a page size, of a model that begins with the first
  page, takes all rows when there are no more of them than that (`stretch_eq_self`).
-/
import Mathlib.Data.List.Forall2
import MetaQuery.Proofs.Service.Sending

namespace MetaQuery

/-! ### Cells of a record -/

theorem Record.get?_foldl_set (name : String) (pairs : List (String × Cell)) (r : Record) :
    (pairs.foldl (fun r p => r.set p.1 p.2) r).get? name =
      ((pairs.reverse.find? (·.1 == name)).map (·.2)).or (r.get? name) := by
  induction pairs generalizing r with
  | nil => rfl
  | cons p pairs ih =>
    rw [List.foldl_cons, ih, List.reverse_cons, List.find?_append, Option.map_or, Option.or_assoc]
    congr 1
    by_cases hname : p.1 = name
    · subst hname
      simp
    · simp [hname, Record.get?_set_of_ne (Ne.symm hname)]

/-- Of the cells with one name, the last one counts. -/
theorem SourceRow.get?_record (row : SourceRow) (name : String) :
    row.record.get? name = (row.reverse.find? (·.1 == name)).map (·.2.cell) := by
  rw [SourceRow.record, Record.ofList, Record.get?_foldl_set, ← List.map_reverse, List.find?_map,
    Option.map_map, Record.empty, Record.get?, Record.find, Option.or_none]
  rfl

/-- Where lists are related item by item, the first items of a kind are related. -/
theorem find?_of_forall₂ {α β : Type} {R : α → β → Prop} {p : α → Bool} {q : β → Bool}
    {xs : List α} {ys : List β} (h : List.Forall₂ R xs ys) (hkind : ∀ x y, R x y → p x = q y)
    {x : α} (hx : xs.find? p = some x) : ∃ y, ys.find? q = some y ∧ R x y := by
  induction h with
  | nil => cases hx
  | @cons a b _ _ hab _ ih =>
    rw [List.find?_cons] at hx ⊢
    rw [← hkind a b hab]
    cases hp : p a with
    | true =>
      rw [hp] at hx
      exact ⟨b, rfl, Option.some.inj hx ▸ hab⟩
    | false =>
      rw [hp] at hx
      exact ih hx

/-- A word that is written into the parameters is read back when it is positive. -/
theorem positiveParam?_of_word {params : Params} {name : String} {n? : Option UInt64}
    (h : Json.lookup name params = n?.map fun n => .int n.toNat) :
    positiveParam? params name = n?.filter (0 < ·) := by
  rw [positiveParam?, h]
  cases n? with
  | none => rfl
  | some n =>
    have hlt : (n.toNat : Int) < UInt64.size := Int.ofNat_lt.2 n.toNat_lt
    have hword : (Json.int n.toNat).word? = some n := by
      rw [Json.word?, if_pos ⟨Int.natCast_nonneg _, hlt⟩, Int.toNat_natCast, UInt64.ofNat_toNat]
    dsimp only [Option.map_some]
    rw [hword]

theorem filter_positive_some {n : UInt64} (hn : 0 < n) : (some n).filter (0 < ·) = some n :=
  Option.filter_some_pos (decide_eq_true hn)

/-- The parameters of a request that asks for a page size only. -/
def sizeParams (size : UInt64) : Params := [("page_size", .int size.toNat)]

/-! ### Rows under the names of the projection -/

namespace Model

variable {m : Model} {params : Params} {q : Select} {row : Record} {source : SourceRow}

/-- The field is a column of the main table, and nothing is made of it. -/
def IsOwnColumn (m : Model) (f : FieldEntry) : Prop :=
  Text.trim f.function = "" ∧ Text.trim f.aggregate = "" ∧
    (f.table = "" ∨ ∃ t, m.mainTable = .ok t ∧ f.table = t.name)

/-- The rows come back with a column of the main table under its own name. -/
def ShowsColumn (m : Model) (column : String) : Prop :=
  m.isRaw = true ∨ m.fields = [] ∨ ∃ f, m.fields.reverse.find? (·.outputName == column) = some f ∧
    m.IsOwnColumn f ∧ f.column = column

/-- The cell of a field in a row, under the name that the projection gives it. -/
def IsCellOf (m : Model) (row : Record) (f : FieldEntry) (e : String × SourceCell) : Prop :=
  e.1 = f.outputName ∧ (m.IsOwnColumn f → row.get? f.column = some e.2.cell)

/-- A row of the main table as a query gives it: whole when all columns are selected, and else
    with a cell for each field. -/
def ComesAs (m : Model) (q : Select) (row : Record) (source : SourceRow) : Prop :=
  if q.columns = [] then source.record = row else List.Forall₂ (m.IsCellOf row) m.fields source

theorem columns_of_compile (hq : m.compile params = .ok q) (h : m.isRaw = true ∨ m.fields = []) :
    q.columns = [] := by
  cases hraw : m.isRaw with
  | true =>
    obtain ⟨window, -, rfl⟩ := eq_of_compile_raw hraw hq
    rfl
  | false =>
    have hfields : m.fields = [] := h.resolve_left (by simp [hraw])
    obtain ⟨text, window, -, -, rfl⟩ := eq_of_compile_entries hraw hq
    rw [hfields]
    rfl

/-- **A column that is shown has the cell of the table.** -/
theorem ComesAs.get?_eq (h : m.ComesAs q row source) (hq : m.compile params = .ok q)
    {column : String} (hshown : m.ShowsColumn column) :
    source.record.get? column = row.get? column := by
  rw [ComesAs] at h
  split at h
  · rw [h]
  · next hcolumns =>
    -- without a list of columns the row comes as it is; with one, the last field of a name counts
    rcases hshown with hraw | hfields | ⟨f, hlast, hown, rfl⟩
    · exact absurd (columns_of_compile hq (.inl hraw)) hcolumns
    · exact absurd (columns_of_compile hq (.inr hfields)) hcolumns
    · have hname : ∀ g e, m.IsCellOf row g e →
          (g.outputName == f.column) = (e.1 == f.column) := fun g e hge => by rw [hge.1]
      obtain ⟨e, hfound, -, hcell⟩ :=
        find?_of_forall₂ (List.forall₂_reverse_iff.2 h) hname hlast
      rw [SourceRow.get?_record, hfound, hcell hown]
      rfl

theorem unfiltered_of_compile (hconditions : m.conditions = []) (hq : m.compile params = .ok q) :
    q.filter = .empty ∧ q.required = [] := by
  cases hraw : m.isRaw with
  | true =>
    obtain ⟨window, -, rfl⟩ := eq_of_compile_raw hraw hq
    exact ⟨rfl, rfl⟩
  | false =>
    obtain ⟨-, hfilter, hrequired⟩ := clauses_of_compile hraw hq
    rw [hconditions] at hfilter
    exact ⟨hfilter, hrequired⟩

/-! ### Pages -/

/-- The model does not begin behind its first page. -/
def BeginsFirst (m : Model) : Prop := ∀ l, m.limit = some l → l.page ≤ 1

theorem window_of_compile (hq : m.compile params = .ok q) : m.window params = .ok q.window := by
  cases hraw : m.isRaw with
  | true =>
    obtain ⟨window, hwindow, rfl⟩ := eq_of_compile_raw hraw hq
    exact hwindow
  | false =>
    obtain ⟨text, window, -, hwindow, rfl⟩ := eq_of_compile_entries hraw hq
    exact hwindow

theorem pageSize_sizeParams {size : UInt64} (hsize : 0 < size) (m : Model) :
    m.pageSize (sizeParams size) = size := by
  have hparam : positiveParam? (sizeParams size) "page_size" = (some size).filter (0 < ·) :=
    positiveParam?_of_word rfl
  rw [pageSize, hparam, filter_positive_some hsize]
  rfl

theorem pageNumber_sizeParams (hfirst : m.BeginsFirst) (size : UInt64) :
    m.pageNumber (sizeParams size) ≤ 1 := by
  have hparam : positiveParam? (sizeParams size) "page" = none := rfl
  rw [pageNumber, hparam, Option.getD_none]
  split
  · next l hlimit => exact hfirst l hlimit
  · decide

/-- A page size of a model that begins with its first page is the only bound. -/
theorem window_sizeParams {size : UInt64} (hsize : 0 < size) (hfirst : m.BeginsFirst)
    (hq : m.compile (sizeParams size) = .ok q) : q.window = some ⟨size, 0⟩ := by
  have hwindow := window_of_compile hq
  have hpage : (m.pageNumber (sizeParams size)).toNat ≤ 1 := pageNumber_sizeParams hfirst size
  rw [window, pageSize_sizeParams hsize, windowOf] at hwindow
  have hnone : (m.pageNumber (sizeParams size)).toNat - 1 = 0 := by omega
  rw [hnone, Nat.zero_mul] at hwindow
  split at hwindow
  · next hzero =>
    rw [hzero] at hsize
    exact absurd hsize (by decide)
  · split at hwindow
    · exact (Except.ok.inj hwindow).symm
    · cases hwindow

end Model

/-! ### Rows that are fetched -/

/-- The stretch of rows that a query takes. -/
def Select.stretch (q : Select) (rows : List Record) : List Record :=
  match q.window with
  | none => rows
  | some w => (rows.drop w.offset.toNat).take w.limit.toNat

theorem Model.stretch_eq_self {m : Model} {size : UInt64} {q : Select} (hfirst : m.BeginsFirst)
    (hq : m.compile (sizeParams size) = .ok q) {rows : List Record}
    (hrows : rows.length ≤ size.toNat) : q.stretch rows = rows := by
  by_cases hsize : 0 < size
  · rw [Select.stretch, window_sizeParams hsize hfirst hq]
    exact List.take_of_length_le hrows
  · -- no row is more than no page size allows
    have hzero : size = 0 := by simpa using hsize
    have hnil : rows = [] := by simpa [hzero] using hrows
    rw [hnil, Select.stretch]
    split
    · rfl
    · rw [List.drop_nil, List.take_nil]

/-- A datasource answers a query with rows of a table: with those that the predicates of the query
    hold of, in some order, one stretch of them. -/
def Model.Fetches (m : Model) (holds : Fragment → Record → Bool) (q : Select)
    (table : List Record) (answered : List SourceRow) : Prop :=
  ∃ found, found.Perm (table.filter fun row => (q.filter :: q.required).all (holds · row)) ∧
    List.Forall₂ (m.ComesAs q) (q.stretch found) answered

/-- **All rows are fetched** by a query without predicates that asks for as many as there are. -/
theorem Model.Fetches.all {m : Model} {holds : Fragment → Record → Bool} {size : UInt64}
    {q : Select} {table : List Record} {answered : List SourceRow}
    (h : m.Fetches holds q table answered) (hempty : ∀ row, holds .empty row = true)
    (hconditions : m.conditions = []) (hfirst : m.BeginsFirst)
    (hq : m.compile (sizeParams size) = .ok q) (hsize : table.length ≤ size.toNat) :
    ∃ found, found.Perm table ∧ List.Forall₂ (m.ComesAs q) found answered := by
  obtain ⟨found, hperm, hanswered⟩ := h
  obtain ⟨hfilter, hrequired⟩ := unfiltered_of_compile hconditions hq
  have hall : (table.filter fun row => (q.filter :: q.required).all (holds · row)) = table :=
    List.filter_eq_self.2 fun row _ => by simp [hfilter, hrequired, hempty]
  rw [hall] at hperm
  rw [stretch_eq_self hfirst hq (hperm.length_eq ▸ hsize)] at hanswered
  exact ⟨found, hperm, hanswered⟩

end MetaQuery
