/-
  MetaQuery/Proofs/Store/Agreement.lean
  =====================================
  A catalog in memory and the same catalog in metadata tables.

  Where a kind holds the rows of a list of entries, and their texts are read back, every way of
  reading the kind gives the entries in their order: all of them, those of a model, or the first
  under an id (`Holds`).  So after an import, everything that is kept is the catalog, and every
  lookup gives from the tables what it gives from memory (`SameLookups`).
-/
import MetaQuery.Proofs.Json.Characters
import MetaQuery.Proofs.Session.Memory
import MetaQuery.Proofs.Store.Importing

namespace MetaQuery

namespace Tables

open MetaQuery.Action

variable {d : Dialect} {se : Settings} {α : Type} {coder : Json.Coder α}

/-! ### Kinds that hold a list of entries -/

/-- What is written for these values is read back. -/
def ReadsBack (coder : Json.Coder α) (xs : List α) : Prop :=
  ∀ x ∈ xs, coder.ofText (coder.text x) = .ok x

/-- The table of a kind holds the rows of a list of entries, in their places. -/
structure Holds (K : Kept) (kind : String) (coder : Json.Coder α) (xs : List α) : Prop where
  rows : K.durable kind = storedFrom 0 (xs.map coder.encode)
  places : xs.length ≤ placeLimit
  reads : ReadsBack coder xs

theorem reads_storedFrom {xs : List α} (hreads : ReadsBack coder xs) {p : StoredRow → Bool}
    {q : α → Bool} (hpq : ∀ x ∈ xs, ∀ place, p (storedRow (coder.encode x) place) = q x)
    (place : Nat) :
    List.Forall₂ (StoredRow.Reads coder) ((storedFrom place (xs.map coder.encode)).filter p)
      (xs.filter q) := by
  induction xs generalizing place with
  | nil => exact .nil
  | cons x rest ih =>
    have hrest := ih (fun y hy => hreads y (List.mem_cons_of_mem x hy))
      (fun y hy => hpq y (List.mem_cons_of_mem x hy)) (place + 1)
    have hx := hpq x List.mem_cons_self place
    rw [List.map_cons, storedFrom, List.filter_cons, List.filter_cons, hx]
    cases q x with
    | false => exact hrest
    | true => exact .cons (hreads x List.mem_cons_self) hrest

section

variable {K : Kept} {kind : String} {xs : List α}

/-- **What is listed are the entries that match, in their order.** -/
theorem Holds.yields (hK : Holds K kind coder xs) {p : StoredRow → Bool} {q : α → Bool}
    {a : Action (List α)} (ha : Lists d se coder kind p a)
    (hpq : ∀ x ∈ xs, ∀ place, p (storedRow (coder.encode x) place) = q x) :
    a.Yields d se K (xs.filter q) K := by
  have hrising : (K.durable kind).Pairwise fun r r' => r.position < r'.position := by
    rw [hK.rows]
    apply rising_storedFrom
    rw [List.length_map, Nat.zero_add]
    exact hK.places
  refine ha.yields (.refl _) (hrising.sublist List.filter_sublist) ?_
  rw [hK.rows]
  exact reads_storedFrom hK.reads hpq 0

theorem Holds.loadAll (hK : Holds K kind coder xs) :
    (loadAll d coder kind).Yields d se K xs K := by
  have h := hK.yields (q := fun _ => true) (loadAll_lists d se coder kind) fun _ _ _ => rfl
  rwa [List.filter_true] at h

/-- The entries that name a model. -/
theorem Holds.ofModel (hK : Holds K kind coder xs) {owner : α → String}
    (howner : ∀ x, memberText (coder.encode x) "model_id" = owner x) (model : String) :
    (loadWhere d coder kind "model_id" model).Yields d se K (xs.filter (owner · == model)) K := by
  apply hK.yields (loadWhere_model_lists d se coder kind model)
  intro x _ place
  rw [← howner x]
  rfl

/-- The first entry that names a model. -/
theorem Holds.firstOfModel (hK : Holds K kind coder xs) {owner : α → String}
    (howner : ∀ x, memberText (coder.encode x) "model_id" = owner x) (model : String) :
    (loadFirst d coder kind "model_id" model).Yields d se K (xs.find? (owner · == model)) K := by
  rw [← List.head?_filter]
  exact (hK.ofModel howner model).map List.head?

/-- The first entry under an id. -/
theorem Holds.firstUnder (hK : Holds K kind coder xs) {key : α → String}
    (hkey : ∀ x, memberText (coder.encode x) "id" = key x) (hne : ∀ x ∈ xs, key x ≠ "")
    (id : String) :
    (loadFirst d coder kind "id" id).Yields d se K (xs.find? (key · == id)) K := by
  rw [← List.head?_filter]
  refine Yields.map (hK.yields (loadWhere_id_lists d se coder kind id) ?_) List.head?
  intro x hx place
  have hid : rowId (coder.encode x) place = key x := by
    rw [rowId, hkey, if_neg (hne x hx)]
  rw [← hid]
  rfl

end

end Tables

open Tables

/-! ### Catalogs that can be stored -/

namespace Catalog

/-- The texts of all entries are read back. -/
structure ReadsBack (c : Catalog) : Prop where
  connections : Tables.ReadsBack ConnectionEntry.layout.coder c.connections
  models : Tables.ReadsBack ModelEntry.layout.coder c.models
  tables : Tables.ReadsBack TableEntry.layout.coder c.tables
  fields : Tables.ReadsBack FieldEntry.layout.coder c.fields
  conditions : Tables.ReadsBack Condition.layout.coder c.conditions
  joins : Tables.ReadsBack JoinEntry.layout.coder c.joins
  orders : Tables.ReadsBack OrderEntry.layout.coder c.orders
  groups : Tables.ReadsBack GroupEntry.layout.coder c.groups
  havings : Tables.ReadsBack Condition.layout.coder c.havings
  limits : Tables.ReadsBack LimitEntry.layout.coder c.limits
  raws : Tables.ReadsBack RawEntry.layout.coder c.raws
  templates : Tables.ReadsBack Template.layout.coder c.templates
  relations : Tables.ReadsBack Relation.layout.coder c.relations

/-- The entries fit together, and the rows of a kind have ids of their own. -/
structure Storable (c : Catalog) : Prop where
  checked : c.check = .ok ()
  connections : ∀ e ∈ c.connections, e.id ≠ ""
  models : ∀ e ∈ c.models, e.id ≠ ""
  templates : ∀ t ∈ c.templates, t.id ≠ ""
  distinct : ∀ p ∈ catalogRows c, (rowIds p.2).Nodup
  /-- The lists are such as a machine can hold, so their places are numbers of 64 bits. -/
  places : ∀ p ∈ catalogRows c, p.2.length ≤ placeLimit
  reads : c.ReadsBack

/-- The tables hold the entries of the catalog. -/
structure IsKept (c : Catalog) (K : Kept) : Prop where
  connections : Holds K "connections" ConnectionEntry.layout.coder c.connections
  models : Holds K "models" ModelEntry.layout.coder c.models
  tables : Holds K "tables" TableEntry.layout.coder c.tables
  fields : Holds K "fields" FieldEntry.layout.coder c.fields
  conditions : Holds K "wheres" Condition.layout.coder c.conditions
  joins : Holds K "joins" JoinEntry.layout.coder c.joins
  orders : Holds K "orders" OrderEntry.layout.coder c.orders
  groups : Holds K "groups" GroupEntry.layout.coder c.groups
  havings : Holds K "havings" Condition.layout.coder c.havings
  limits : Holds K "limits" LimitEntry.layout.coder c.limits
  raws : Holds K "sqls" RawEntry.layout.coder c.raws
  templates : Holds K "templates" Template.layout.coder c.templates
  relations : Holds K "relations" Relation.layout.coder c.relations

theorem catalogRows_eq (c : Catalog) : catalogRows c = [
    ("connections", c.connections.map ConnectionEntry.layout.coder.encode),
    ("models", c.models.map ModelEntry.layout.coder.encode),
    ("tables", c.tables.map TableEntry.layout.coder.encode),
    ("fields", c.fields.map FieldEntry.layout.coder.encode),
    ("wheres", c.conditions.map Condition.layout.coder.encode),
    ("joins", c.joins.map JoinEntry.layout.coder.encode),
    ("orders", c.orders.map OrderEntry.layout.coder.encode),
    ("groups", c.groups.map GroupEntry.layout.coder.encode),
    ("havings", c.havings.map Condition.layout.coder.encode),
    ("limits", c.limits.map LimitEntry.layout.coder.encode),
    ("sqls", c.raws.map RawEntry.layout.coder.encode),
    ("templates", c.templates.map Template.layout.coder.encode),
    ("relations", c.relations.map Relation.layout.coder.encode)] := rfl

theorem Storable.holds {α : Type} {c : Catalog} (hc : c.Storable) {K : Kept}
    (hK : Stocked K.durable (catalogRows c)) {kind : String} {coder : Json.Coder α} {xs : List α}
    (hmem : (kind, xs.map coder.encode) ∈ catalogRows c) (hreads : Tables.ReadsBack coder xs) :
    Holds K kind coder xs where
  rows := hK _ hmem
  places := by
    rw [← List.length_map (f := coder.encode)]
    exact hc.places _ hmem
  reads := hreads

theorem Storable.isKept {c : Catalog} (hc : c.Storable) {K : Kept}
    (hK : Stocked K.durable (catalogRows c)) : c.IsKept K where
  -- kind by kind: the rows kept are the entries written, and each reads back
  connections := hc.holds hK (by simp [catalogRows_eq]) hc.reads.connections
  models := hc.holds hK (by simp [catalogRows_eq]) hc.reads.models
  tables := hc.holds hK (by simp [catalogRows_eq]) hc.reads.tables
  fields := hc.holds hK (by simp [catalogRows_eq]) hc.reads.fields
  conditions := hc.holds hK (by simp [catalogRows_eq]) hc.reads.conditions
  joins := hc.holds hK (by simp [catalogRows_eq]) hc.reads.joins
  orders := hc.holds hK (by simp [catalogRows_eq]) hc.reads.orders
  groups := hc.holds hK (by simp [catalogRows_eq]) hc.reads.groups
  havings := hc.holds hK (by simp [catalogRows_eq]) hc.reads.havings
  limits := hc.holds hK (by simp [catalogRows_eq]) hc.reads.limits
  raws := hc.holds hK (by simp [catalogRows_eq]) hc.reads.raws
  templates := hc.holds hK (by simp [catalogRows_eq]) hc.reads.templates
  relations := hc.holds hK (by simp [catalogRows_eq]) hc.reads.relations

end Catalog

/-! ### Lookups -/

namespace Metadata

open MetaQuery.Action

variable {d : Dialect} {se : Settings} {K : Kept} {c : Catalog} {α : Type}

/-- The memory that holds the catalog and the tables give the same, and neither is changed. -/
def SameAnswer (d : Dialect) (se : Settings) (K : Kept) (c : Catalog) (a : Action α) : Prop :=
  ∃ x, (∀ s : Session, s.store = .memory c → a.exec s = (.ok x, s)) ∧ a.Yields d se K x K

theorem ask_yields {fromCatalog : Catalog → α} {fromTables : Dialect → Action α} {x : α}
    (h : (fromTables d).Yields d se K x K) : (ask fromCatalog fromTables).Yields d se K x K := by
  exact h.congr fun s hstore => exec_ask_of_tables hstore

theorem not_sameAnswer {a : Action α} {x y : α}
    (hmemory : ∀ s : Session, s.store = .memory c → a.exec s = (.ok x, s))
    (htables : a.Yields d se K y K) (hne : x ≠ y) : ¬ SameAnswer d se K c a := by
  rintro ⟨z, hz, hyields⟩
  have hsame := hz { store := .memory c, rules := fun _ => .error "", idAt := fun _ => "" } rfl
  rw [hmemory _ rfl] at hsame
  obtain rfl := Except.ok.inj (Prod.mk.inj hsame).1
  exact hne (hyields.unique htables).1

theorem SameAnswer.map {β : Type} {a : Action α} (h : SameAnswer d se K c a) (f : α → β) :
    SameAnswer d se K c (a >>= fun x => pure (f x)) := by
  obtain ⟨x, hmemory, htables⟩ := h
  refine ⟨f x, fun s hstore => ?_, htables.map f⟩
  rw [exec_bind_of_ok (hmemory s hstore)]
  rfl

theorem sameAnswer_ask {fromCatalog : Catalog → α} {fromTables : Dialect → Action α}
    (h : (fromTables d).Yields d se K (fromCatalog c) K) :
    SameAnswer d se K c (ask fromCatalog fromTables) := by
  exact ⟨fromCatalog c, fun s hstore => exec_ask_of_memory hstore, ask_yields h⟩

/-- Every lookup gives from the tables what it gives from memory. -/
structure SameLookups (d : Dialect) (se : Settings) (K : Kept) (c : Catalog) : Prop where
  modelById (id : String) : SameAnswer d se K c (lookup.modelById id)
  modelByCode (code : String) : SameAnswer d se K c (lookup.modelByCode code)
  tables (model : String) : SameAnswer d se K c (lookup.tables model)
  fields (model : String) : SameAnswer d se K c (lookup.fields model)
  conditions (model : String) : SameAnswer d se K c (lookup.conditions model)
  joins (model : String) : SameAnswer d se K c (lookup.joins model)
  orders (model : String) : SameAnswer d se K c (lookup.orders model)
  groups (model : String) : SameAnswer d se K c (lookup.groups model)
  havings (model : String) : SameAnswer d se K c (lookup.havings model)
  limit (model : String) : SameAnswer d se K c (lookup.limit model)
  raw (model : String) : SameAnswer d se K c (lookup.raw model)
  templatesOf (model : String) : SameAnswer d se K c (templatesOf model)
  template? (id : String) : SameAnswer d se K c (template? id)
  relation? (master detail : String) : SameAnswer d se K c (relation? master detail)
  connection (id : String) : SameAnswer d se K c (lookup.connection id)

theorem sameLookups (hK : c.IsKept K) (hconnections : ∀ e ∈ c.connections, e.id ≠ "")
    (hmodels : ∀ e ∈ c.models, e.id ≠ "") (htemplates : ∀ t ∈ c.templates, t.id ≠ "") :
    SameLookups d se K c where
  -- each lookup asks one table, by id, by owner or through all its rows
  modelById id := sameAnswer_ask (hK.models.firstUnder (fun _ => rfl) hmodels id)
  modelByCode code := by
    refine sameAnswer_ask ?_
    exact hK.models.loadAll.map _
  tables model := sameAnswer_ask (hK.tables.ofModel (fun _ => rfl) model)
  fields model := sameAnswer_ask (hK.fields.ofModel (fun _ => rfl) model)
  conditions model := sameAnswer_ask (hK.conditions.ofModel (fun _ => rfl) model)
  joins model := sameAnswer_ask (hK.joins.ofModel (fun _ => rfl) model)
  orders model := sameAnswer_ask (hK.orders.ofModel (fun _ => rfl) model)
  groups model := sameAnswer_ask (hK.groups.ofModel (fun _ => rfl) model)
  havings model := sameAnswer_ask (hK.havings.ofModel (fun _ => rfl) model)
  limit model := sameAnswer_ask (hK.limits.firstOfModel (fun _ => rfl) model)
  raw model := sameAnswer_ask (hK.raws.firstOfModel (fun _ => rfl) model)
  templatesOf model := sameAnswer_ask (hK.templates.ofModel (fun _ => rfl) model)
  template? id := sameAnswer_ask (hK.templates.firstUnder (fun _ => rfl) htemplates id)
  relation? master detail := by
    refine sameAnswer_ask ?_
    exact hK.relations.loadAll.map _
  connection id := sameAnswer_ask (hK.connections.firstUnder (fun _ => rfl) hconnections id)

theorem loadCatalog_yields (hK : c.IsKept K) : (loadCatalog d).Yields d se K c K := by
  refine Yields.bind hK.connections.loadAll ?_ <| Yields.bind hK.models.loadAll ?_ <|
    Yields.bind hK.tables.loadAll ?_ <| Yields.bind hK.fields.loadAll ?_ <|
    Yields.bind hK.conditions.loadAll ?_ <| Yields.bind hK.joins.loadAll ?_ <|
    Yields.bind hK.orders.loadAll ?_ <| Yields.bind hK.groups.loadAll ?_ <|
    Yields.bind hK.havings.loadAll ?_ <| Yields.bind hK.limits.loadAll ?_ <|
    Yields.bind hK.raws.loadAll ?_ <| Yields.bind hK.templates.loadAll ?_ <|
    Yields.bind hK.relations.loadAll ?_ <| yields_pure c K
  -- whatever a kind has given, the others are read behind it
  all_goals
    intro _
    refine Steady.on ?_
    repeat refine (loadAll_consults d _ _).steady.bind fun _ => ?_
    exact steady_pure _

/-- **The two stores agree.**  A catalog whose entries fit together is stored, is read back as it
    was, and every lookup gives from the tables what it gives from memory. -/
theorem import_agrees {c : Catalog} (hc : c.Storable) (d : Dialect) (se : Settings) (K : Kept) :
    (importCatalog d c).Achieves d se K fun _ K' =>
      everything.Yields d se K' c K' ∧ SameLookups d se K' c := by
  refine (importCatalog_achieves hc.checked hc.distinct K).mono ?_
  intro _ K' hstocked
  have hK := hc.isKept hstocked
  exact ⟨ask_yields (loadCatalog_yields hK),
    sameLookups hK hc.connections hc.models hc.templates⟩

def openTickets : Template := { id := "open", model := "ticket" }

def lateTickets : Template := { id := "late", model := "ticket" }

def ownTickets : Template := { id := "own", model := "ticket", isDefault := true }

/-- One model with two orders, which have no ids, and with three templates. -/
def ticketCatalog : Catalog where
  connections := [{ id := "main", kind := "sqlite" }]
  models := [{ id := "ticket", code := "ticket", connection := "main" }]
  orders := [{ model := "ticket", column := "due" }, { model := "ticket", column := "id" }]
  templates := [openTickets, lateTickets, ownTickets]

theorem ticketCatalog_storable : ticketCatalog.Storable where
  checked := by decide
  connections := by decide
  models := by decide
  templates := by decide
  distinct := by decide +kernel
  places := by decide +kernel
  reads := by
    constructor <;> (simp only [Tables.ReadsBack, Json.Coder.ofText_text]; decide +kernel)

theorem ticket_catalog_agrees :
    ticketCatalog.Storable ∧
      (importCatalog .ansi ticketCatalog).Achieves .ansi {} ⟨fun _ => [], fun _ => []⟩
        fun _ K' => everything.Yields .ansi {} K' ticketCatalog K' ∧
          SameLookups .ansi {} K' ticketCatalog :=
  ⟨ticketCatalog_storable, import_agrees ticketCatalog_storable .ansi {} _⟩

end Metadata

end MetaQuery
