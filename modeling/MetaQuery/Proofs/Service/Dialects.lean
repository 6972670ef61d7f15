/-
  MetaQuery/Proofs/Service/Dialects.lean
  ======================================
  Whose dialect the statements of a model are written in.

  A model is owned by its own connection or, where it names none, by that of its main table.  Its
  dialect is looked up when the model is put together, by a search for the first table flagged as
  main; its statements are run on the connection of the table at the main place.  Both ways lead to
  one connection, however many tables are flagged (`Model.connectionByPlace_eq`).  So a model that
  was loaded has the dialect of the connection that all its operations ask, and they ask no other
  one (`Metadata.dialect_of_connection`).
-/
import MetaQuery.Pattern.Reader
import MetaQuery.Proofs.Service.Keeping

namespace MetaQuery

open MetaQuery.Action

/-! ### The main place -/

/-- The places of the tables that are flagged as main. -/
def flaggedPlaces (tables : List TableEntry) : List Nat :=
  (tables.zipIdx.filter (·.1.isMain)).map (·.2)

/-- The place of the main table: the first one flagged, or else the first one of all. -/
def mainPlace? (tables : List TableEntry) : Option Nat :=
  match flaggedPlaces tables with
  | [] => if tables.isEmpty then none else some 0
  | place :: _ => some place

theorem head?_flaggedPlaces (tables : List TableEntry) :
    (flaggedPlaces tables).head? = tables.findIdx? (·.isMain) := by
  rw [flaggedPlaces, List.head?_map, List.head?_filter, List.findIdx?_eq_fst_find?_zipIdx]

/-- The table at the main place is the main table. -/
theorem bind_mainPlace? (tables : List TableEntry) :
    (mainPlace? tables).bind (tables[·]?) = mainTable? tables := by
  have hfirst := head?_flaggedPlaces tables
  rw [mainPlace?, mainTable?, List.find?_eq_bind_findIdx?_getElem?, ← hfirst]
  cases hplaces : flaggedPlaces tables with
  | nil =>
    cases tables with
    | nil => rfl
    | cons table rest => rfl
  | cons place places =>
    -- a place that is flagged is that of a table
    rw [hplaces] at hfirst
    obtain ⟨hlt, -⟩ := List.findIdx?_eq_some_iff_getElem.1 hfirst.symm
    simp [hlt]

namespace Model

/-- The connection of a model, with the main table found at its place. -/
def connectionByPlace (m : Model) : String :=
  if m.entry.connection ≠ "" then m.entry.connection
  else match (mainPlace? m.tables).bind (m.tables[·]?) with
    | some t => t.connection
    | none => ""

theorem connectionByPlace_eq (m : Model) : m.connectionByPlace = m.connection := by
  rw [connectionByPlace, bind_mainPlace?]
  rfl

end Model

/-! ### Loading -/

namespace Metadata

variable {answer : String → List Cell → Reply} {s t : Session} {log : List Event} {m : Model}

/-- The dialect that the record of a connection names; that of MySQL where there is no record. -/
def recordedDialect : Option ConnectionEntry → Except MetadataFault Dialect
  | some record => record.sourceKind.map (·.dialect)
  | none => .ok .mysql

/-- The dialect is that of a connection: of its record, or of MySQL where no connection is
    named. -/
structure SpokenAt (connection : String) (d : Dialect) (answer : String → List Cell → Reply)
    (s : Session) : Prop where
  unnamed : connection = "" → d = .mysql
  recorded : connection ≠ "" → ∃ record?, (lookup.connection connection).Finds record? answer s ∧
    recordedDialect record? = .ok d

theorem SpokenAt.before {connection : String} {d : Dialect} (h : SpokenAt connection d answer t)
    (hst : s.Precedes t) : SpokenAt connection d answer s := by
  refine ⟨h.unnamed, fun hnamed => ?_⟩
  obtain ⟨record?, hrecord, hd⟩ := h.recorded hnamed
  exact ⟨record?, hrecord.before hst, hd⟩

theorem dialectOf_of_named {connection : String} (h : connection ≠ "") :
    lookup.dialectOf connection = lookup.connection connection >>= fun record? =>
      Lookup.ofMetadata (recordedDialect record?) := by
  rw [Lookup.dialectOf, if_neg h]
  refine congrArg (lookup.connection connection >>= ·) (funext fun record? => ?_)
  cases record? with
  | none => rfl
  | some record =>
    dsimp only [recordedDialect]
    cases record.sourceKind with
    | error fault => rfl
    | ok kind => rfl

theorem spokenAt_of_dialectOf {connection : String} {d : Dialect}
    (h : (lookup.dialectOf connection).exec s = (.ok d, t)) (hlog : t.events = s.events ++ log)
    (hgives : ∀ ev ∈ log, ev.Gives answer) : SpokenAt connection d answer s := by
  constructor
  · rintro rfl
    rw [Lookup.dialectOf, if_pos rfl] at h
    exact (Except.ok.inj (Prod.mk.inj h).1).symm
  · intro hnamed
    rw [dialectOf_of_named hnamed] at h
    obtain ⟨record?, u, first, rest, hrecord, hdialect, -, -, hu, -, rfl⟩ :=
      (connection_consults connection).steady.split (fun _ => (ofMetadata_consults _).steady) h hlog
    refine ⟨record?, ?_, ?_⟩
    -- the record may be missing, which the answers tell as well
    · exact (connection_consults connection).finds (by rw [hrecord]) (by rw [hrecord, hu])
        fun ev hev => hgives ev (List.mem_append_left _ hev)
    · cases hd : recordedDialect record? with
      | error fault =>
        rw [hd] at hdialect
        cases hdialect
      | ok d' =>
        rw [hd] at hdialect
        cases hdialect
        rfl

/-- The rest of an assembly, once the dialect is known. -/
def complete (entry : ModelEntry) (tables : List TableEntry) (fields : List FieldEntry)
    (dialect : Dialect) : Action Model := do
  let conditions ← lookup.conditions entry.id
  let joins ← lookup.joins entry.id
  let orders ← lookup.orders entry.id
  let groups ← lookup.groups entry.id
  let havings ← lookup.havings entry.id
  let limit ← lookup.limit entry.id
  let raw ← lookup.raw entry.id
  return { entry, tables, fields, dialect, conditions, joins, orders, groups, havings, limit, raw }

theorem assemble_eq (entry : ModelEntry) :
    lookup.assemble entry = lookup.tables entry.id >>= fun tables =>
      lookup.fields entry.id >>= fun fields =>
        lookup.dialectOf (Model.connectionOf entry tables) >>= complete entry tables fields := rfl

theorem complete_consults (entry : ModelEntry) (tables : List TableEntry)
    (fields : List FieldEntry) (dialect : Dialect) :
    (complete entry tables fields dialect).Consults Consulted := by
  refine (ofModel_consults _ _ _ _ _).bind fun conditions => ?_
  refine (ofModel_consults _ _ _ _ _).bind fun joins => ?_
  refine (ofModel_consults _ _ _ _ _).bind fun orders => ?_
  refine (ofModel_consults _ _ _ _ _).bind fun groups => ?_
  refine (ofModel_consults _ _ _ _ _).bind fun havings => ?_
  refine (ask_consults _ fun d => Tables.loadFirst_consults d _ _ _ _).bind fun limit => ?_
  refine (ask_consults _ fun d => Tables.loadFirst_consults d _ _ _ _).bind fun raw => ?_
  exact consults_pure _

theorem ok_of_complete {entry : ModelEntry} {tables : List TableEntry} {fields : List FieldEntry}
    {dialect : Dialect} (h : (complete entry tables fields dialect).exec s = (.ok m, t)) :
    m.entry = entry ∧ m.tables = tables ∧ m.dialect = dialect := by
  obtain ⟨conditions, _, -, h⟩ := ok_of_exec_bind h
  obtain ⟨joins, _, -, h⟩ := ok_of_exec_bind h
  obtain ⟨orders, _, -, h⟩ := ok_of_exec_bind h
  obtain ⟨groups, _, -, h⟩ := ok_of_exec_bind h
  obtain ⟨havings, _, -, h⟩ := ok_of_exec_bind h
  obtain ⟨limit, _, -, h⟩ := ok_of_exec_bind h
  obtain ⟨raw, _, -, h⟩ := ok_of_exec_bind h
  obtain rfl := Except.ok.inj (Prod.mk.inj h).1
  exact ⟨rfl, rfl, rfl⟩

theorem spokenAt_of_assemble {entry : ModelEntry}
    (h : (lookup.assemble entry).exec s = (.ok m, t)) (hlog : t.events = s.events ++ log)
    (hgives : ∀ ev ∈ log, ev.Gives answer) :
    m.entry = entry ∧ SpokenAt m.connection m.dialect answer s := by
  rw [assemble_eq] at h
  have hcompleted : ∀ tables fields, (lookup.dialectOf (Model.connectionOf entry tables) >>=
      complete entry tables fields).Steady := fun tables fields =>
    (dialectOf_consults _).steady.bind fun dialect => (complete_consults _ _ _ dialect).steady
  obtain ⟨tables, u, first, rest, -, h, hsu, -, -, hu, rfl⟩ :=
    (ofModel_consults _ _ _ _ _).steady.split
      (fun tables => (ofModel_consults _ _ _ _ _).steady.bind (hcompleted tables)) h hlog
  obtain ⟨fields, v, second, rest, -, h, huv, -, -, hv, rfl⟩ :=
    (ofModel_consults _ _ _ _ _).steady.split (hcompleted tables) h hu
  -- tables and fields are read before the dialect is asked for, and neither changes the answer
  obtain ⟨dialect, w, third, rest, hdialect, h, -, -, hw, -, rfl⟩ :=
    (dialectOf_consults _).steady.split (fun dialect => (complete_consults _ _ _ dialect).steady)
      h hv
  obtain ⟨rfl, rfl, rfl⟩ := ok_of_complete h
  have hspoken := spokenAt_of_dialectOf hdialect hw fun ev hev =>
    hgives ev (List.mem_append_right _ (List.mem_append_right _ (List.mem_append_left _ hev)))
  exact ⟨rfl, hspoken.before (hsu.trans huv)⟩

/-- The model of an entry that was looked for. -/
def assembleFound (missing : Fault) : Option ModelEntry → Action Model
  | some entry => lookup.assemble entry
  | none => throw missing

theorem assembleFound_steady (missing : Fault) (found? : Option ModelEntry) :
    (assembleFound missing found?).Steady := by
  cases found? with
  | none => exact steady_throw missing
  | some entry => exact (assemble_consults entry).steady

theorem model_eq (id : String) :
    model id = lookup.modelById id >>= assembleFound (.notFound (.model id)) := by
  refine congrArg (lookup.modelById id >>= ·) (funext fun found? => ?_)
  cases found? with
  | none => rfl
  | some entry => rfl

theorem modelOfCode_eq (code : String) :
    modelOfCode code = lookup.modelByCode code >>= assembleFound (.notFound (.modelCode code)) := by
  refine congrArg (lookup.modelByCode code >>= ·) (funext fun found? => ?_)
  cases found? with
  | none => rfl
  | some entry => rfl

theorem modelById_consults (id : String) : (lookup.modelById id).Consults Consulted :=
  ask_consults _ fun d => Tables.loadFirst_consults d _ _ _ _

theorem modelByCode_consults (code : String) : (lookup.modelByCode code).Consults Consulted :=
  ask_consults _ fun d => (Tables.loadAll_consults d _ _).bind fun _ => consults_pure _

/-- A model that was loaded speaks the dialect of its connection, and its entry is found again and
    put together as before. -/
theorem loaded {find : Action (Option ModelEntry)} {missing : Fault}
    (hfind : find.Consults Consulted)
    (h : (find >>= assembleFound missing).exec s = (.ok m, t)) (hlog : t.events = s.events ++ log)
    (hgives : ∀ ev ∈ log, ev.Gives answer) :
    SpokenAt m.connection m.dialect answer s ∧ find.Finds (some m.entry) answer s ∧
      (lookup.assemble m.entry).Finds m answer s := by
  obtain ⟨found?, u, first, rest, hentry, hrest, hsu, -, hu, ht, rfl⟩ :=
    hfind.steady.split (assembleFound_steady missing) h hlog
  cases found? with
  | none => cases hrest
  | some entry =>
    have hgivesRest : ∀ ev ∈ rest, ev.Gives answer :=
      fun ev hev => hgives ev (List.mem_append_right _ hev)
    have hassembled : (lookup.assemble entry).exec u = (.ok m, t) := hrest
    -- the entry that was found is the one assembled
    obtain ⟨rfl, hspoken⟩ := spokenAt_of_assemble hassembled ht hgivesRest
    refine ⟨hspoken.before hsu, ?_, Finds.before ?_ hsu⟩
    · exact hfind.finds (by rw [hentry]) (by rw [hentry, hu]) fun ev hev =>
        hgives ev (List.mem_append_left _ hev)
    · exact (assemble_consults m.entry).finds (by rw [hassembled]) (by rw [hassembled, ht])
        hgivesRest

theorem finds_model {id : String} (hentry : (lookup.modelById id).Finds (some m.entry) answer s)
    (hassembled : (lookup.assemble m.entry).Finds m answer s) : (model id).Finds m answer s := by
  rw [model_eq]
  exact hentry.bind (modelById_consults id).steady (assembleFound_steady _) hassembled

end Metadata

/-! ### The dialect of a loaded model -/

namespace Metadata

/-- **A loaded model has the dialect of the connection it uses.**  However it was named, and
    whichever of its tables are flagged as main, the connection found by the main place is the one
    whose dialect was looked up.  That dialect is MySQL's without a connection or without a record of
    it, and else that of the record.  All operations on the rows and the trees of the model, under
    any id that leads to its entry, ask the datasource of this connection and no other. -/
theorem dialect_of_connection {name : String} {m : Model} {s t : Session} {log : List Event}
    {answer : String → List Cell → Reply}
    (hload : (model name).exec s = (.ok m, t) ∨ (modelOfCode name).exec s = (.ok m, t))
    (hlog : t.events = s.events ++ log) (hgives : ∀ ev ∈ log, ev.Gives answer) :
    m.connectionByPlace = m.connection ∧ SpokenAt m.connection m.dialect answer s ∧
      (∀ id, (lookup.modelById id).Finds (some m.entry) answer s →
        RowsOn id m.connection answer s) ∧
      ((model name).exec s = (.ok m, t) → RowsOn name m.connection answer s) := by
  refine ⟨m.connectionByPlace_eq, ?_⟩
  rcases hload with hload | hload
  · have hbyId := hload
    rw [model_eq] at hbyId
    obtain ⟨hspoken, hentry, hassembled⟩ := loaded (modelById_consults name) hbyId hlog hgives
    exact ⟨hspoken, fun id hid => rowsOn_of_finds (finds_model hid hassembled),
      fun _ => rowsOn_of_finds (finds_model hentry hassembled)⟩
  · rw [modelOfCode_eq] at hload
    obtain ⟨hspoken, -, hassembled⟩ := loaded (modelByCode_consults name) hload hlog hgives
    refine ⟨hspoken, fun id hid => rowsOn_of_finds (finds_model hid hassembled), fun hbyId => ?_⟩
    exact rowsOn_of_finds
      ((model_consults name).finds (by rw [hbyId]) (by rw [hbyId, hlog]) hgives)

/-- Stocks without a connection of their own, with two tables flagged as main behind one that is
    not, each on another connection. -/
def stockCatalog : Catalog where
  connections := [{ id := "my", kind := "mysql" }, { id := "pg", kind := "postgres" }]
  models := [{ id := "stock", code := "stocks" }]
  tables := [{ id := "a", model := "stock", name := "notes", connection := "my" },
    { id := "b", model := "stock", name := "stocks", isMain := true, connection := "pg" },
    { id := "c", model := "stock", name := "shelves", isMain := true, connection := "my" }]

def stockSession : Session where
  store := .memory stockCatalog
  rules := Pattern.read
  idAt := fun _ => ""

def stockModel : Model where
  entry := { id := "stock", code := "stocks" }
  tables := stockCatalog.tables
  fields := []
  dialect := .postgres

theorem stock_dialect :
    (modelOfCode "stocks").exec stockSession = (.ok stockModel, stockSession) ∧
      flaggedPlaces stockModel.tables = [1, 2] ∧ stockModel.connection = "pg" ∧
      stockModel.connectionByPlace = stockModel.connection ∧
      SpokenAt stockModel.connection stockModel.dialect (fun _ _ => .rows [] 0) stockSession ∧
      (∀ id, (lookup.modelById id).Finds (some stockModel.entry) (fun _ _ => .rows [] 0)
          stockSession →
        RowsOn id stockModel.connection (fun _ _ => .rows [] 0) stockSession) ∧
      ((model "stocks").exec stockSession = (.ok stockModel, stockSession) →
        RowsOn "stocks" stockModel.connection (fun _ _ => .rows [] 0) stockSession) := by
  have hload : (modelOfCode "stocks").exec stockSession = (.ok stockModel, stockSession) := rfl
  exact ⟨hload, rfl, rfl,
    dialect_of_connection (.inr hload) (List.append_nil _).symm (by simp)⟩

end Metadata

end MetaQuery