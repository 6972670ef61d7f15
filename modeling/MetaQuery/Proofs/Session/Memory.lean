/-
  MetaQuery/Proofs/Session/Memory.lean
  ====================================
  Sessions that keep their metadata in memory.

  There a lookup sends nothing and changes nothing, and its outcome is read off the catalog
  (`Action.Recalls`).  This passes through sequences, so the model that such a session puts together
  is the one that the catalog puts together by itself (`Metadata.model_recalls`).  What an operation
  sends may then be said of the models of the catalog (`Action.EmitsOn`).
-/
import MetaQuery.Proofs.Session.Reading

namespace MetaQuery

/-! ### Recalling -/

namespace Action

variable {c : Catalog} {α β : Type}

/-- With the catalog in memory, the operation has this outcome, and does nothing else. -/
def Recalls (c : Catalog) (a : Action α) (r : Except Fault α) : Prop :=
  ∀ s : Session, s.store = .memory c → a.exec s = (r, s)

theorem recalls_pure (x : α) : (pure x : Action α).Recalls c (pure x) := fun _ _ => rfl

theorem recalls_throw (e : Fault) : (throw e : Action α).Recalls c (throw e) := fun _ _ => rfl

/-- There is no other outcome. -/
theorem Recalls.unique {a : Action α} {r r' : Except Fault α} (h : a.Recalls c r)
    (h' : a.Recalls c r') : r = r' := by
  let s : Session := { store := .memory c, rules := fun _ => .error "", idAt := fun _ => "" }
  exact (Prod.mk.inj ((h s rfl).symm.trans (h' s rfl))).1

theorem Recalls.bind {a : Action α} {r : Except Fault α} {f : α → Action β}
    {g : α → Except Fault β} (ha : a.Recalls c r) (hf : ∀ x, (f x).Recalls c (g x)) :
    (a >>= f).Recalls c (r >>= g) := by
  intro s hstore
  rw [exec_bind, ha s hstore]
  cases r with
  | error e => rfl
  | ok x => exact hf x s hstore

/-- Behind a lookup goes on what the catalog says, in the same session. -/
theorem Recalls.log_bind {a : Action α} {r : Except Fault α} {f : α → Action β} {s : Session}
    {Q : List Event → Prop} (ha : a.Recalls c r) (hstore : s.store = .memory c) (hnil : Q [])
    (hf : ∀ x, r = .ok x → ∃ log, ((f x).exec s).2.events = s.events ++ log ∧ Q log) :
    ∃ log, ((a >>= f).exec s).2.events = s.events ++ log ∧ Q log := by
  rw [exec_bind, ha s hstore]
  cases r with
  | error e => exact ⟨[], (List.append_nil _).symm, hnil⟩
  | ok x => exact hf x rfl

theorem recalls_ofExcept (r : Except Fault α) : (ofExcept r).Recalls c r := by
  cases r with
  | error e => exact recalls_throw e
  | ok x => exact recalls_pure x

/-! ### Events of one kind, with the catalog in memory -/

/-- With the catalog in memory, all events are of one kind, and the catalog stays. -/
def EmitsOn (c : Catalog) (a : Action α) (P : Event → Prop) : Prop :=
  ∀ s : Session, s.store = .memory c → (a.exec s).2.store = .memory c ∧
    ∃ log, (a.exec s).2.events = s.events ++ log ∧ ∀ ev ∈ log, P ev

variable {P Q : Event → Prop}

theorem EmitsOn.mono {a : Action α} (h : a.EmitsOn c P) (hsub : ∀ ev, P ev → Q ev) :
    a.EmitsOn c Q := by
  intro s hstore
  obtain ⟨hstore', log, hlog, hkind⟩ := h s hstore
  exact ⟨hstore', log, hlog, fun ev hev => hsub ev (hkind ev hev)⟩

theorem emitsOn_pure (x : α) : (pure x : Action α).EmitsOn c P := by
  intro s hstore
  exact ⟨hstore, [], (List.append_nil _).symm, by simp⟩

theorem EmitsOn.bind {a : Action α} {f : α → Action β} (ha : a.EmitsOn c P)
    (hf : ∀ x, (f x).EmitsOn c P) : (a >>= f).EmitsOn c P := by
  intro s hstore
  obtain ⟨hstore', first, hfirst, hkind⟩ := ha s hstore
  rw [exec_bind]
  rcases hrun : a.exec s with ⟨r, t⟩
  rw [hrun] at hstore' hfirst
  cases r with
  | error e => exact ⟨hstore', first, hfirst, hkind⟩
  | ok x =>
    obtain ⟨hstore'', rest, hrest, hkind'⟩ := hf x t hstore'
    refine ⟨hstore'', first ++ rest, ?_, fun ev hev => ?_⟩
    · rw [← List.append_assoc, ← hfirst]
      exact hrest
    · rcases List.mem_append.1 hev with hev | hev
      · exact hkind ev hev
      · exact hkind' ev hev

/-- What is looked up is what the catalog says. -/
theorem Recalls.emitsOn_bind {a : Action α} {r : Except Fault α} {f : α → Action β}
    (ha : a.Recalls c r) (hf : ∀ x, r = .ok x → (f x).EmitsOn c P) : (a >>= f).EmitsOn c P := by
  intro s hstore
  rw [exec_bind, ha s hstore]
  cases r with
  | error e => exact ⟨hstore, [], by rw [List.append_nil], by simp⟩
  | ok x => exact hf x rfl s hstore

theorem emitsOn_ofRules_bind {r : Rules → Except Fault α} {f : α → Action β}
    (hf : ∀ rules x, r rules = .ok x → (f x).EmitsOn c P) : (ofRules r >>= f).EmitsOn c P := by
  intro s hstore
  have hrun : (ofRules r).exec s = (ofExcept (r s.rules)).exec s := exec_get_bind _ s
  rw [exec_bind, hrun]
  cases hr : r s.rules with
  | error e => exact ⟨hstore, [], (List.append_nil _).symm, by simp⟩
  | ok x => exact hf _ x hr s hstore

end Action

/-! ### Lookups -/

namespace Catalog

/-- The model with an id, put together from the entries of the catalog. -/
def model (c : Catalog) (id : String) : Except Fault Model :=
  (c.lookup : Lookup (Except Fault)).model id

/-- The dialect of a connection of the catalog. -/
def dialectOf (c : Catalog) (connection : String) : Except Fault Dialect :=
  (c.lookup : Lookup (Except Fault)).dialectOf connection

end Catalog

namespace Metadata

open MetaQuery.Action

variable {c : Catalog} {d : Dialect} {α : Type}

theorem exec_ask (fromCatalog : Catalog → α) (fromTables : Dialect → Action α) (s : Session) :
    (ask fromCatalog fromTables).exec s = (askStore fromCatalog fromTables s.store).exec s := by
  exact exec_get_bind (fun t : Session => askStore fromCatalog fromTables t.store) s

theorem exec_ask_of_memory {fromCatalog : Catalog → α} {fromTables : Dialect → Action α}
    {s : Session} (h : s.store = .memory c) :
    (ask fromCatalog fromTables).exec s = (.ok (fromCatalog c), s) := by
  rw [exec_ask, h]
  rfl

theorem exec_ask_of_tables {fromCatalog : Catalog → α} {fromTables : Dialect → Action α}
    {s : Session} (h : s.store = .tables d) :
    (ask fromCatalog fromTables).exec s = (fromTables d).exec s := by
  rw [exec_ask, h]
  rfl

theorem ask_recalls (c : Catalog) (fromCatalog : Catalog → α) (fromTables : Dialect → Action α) :
    (ask fromCatalog fromTables).Recalls c (pure (fromCatalog c)) :=
  fun _ hstore => exec_ask_of_memory hstore

theorem ask_recalls_iff {fromCatalog : Catalog → α} {fromTables : Dialect → Action α} {x : α} :
    (ask fromCatalog fromTables).Recalls c (.ok x) ↔ fromCatalog c = x := by
  constructor
  · intro h
    exact Except.ok.inj ((ask_recalls c fromCatalog fromTables).unique h)
  · rintro rfl
    exact ask_recalls c fromCatalog fromTables

theorem relation?_recalls (c : Catalog) (master detail : String) :
    (relation? master detail).Recalls c (pure (c.relation? master detail)) := ask_recalls c _ _

theorem ofMetadata_recalls (r : Except MetadataFault α) :
    (Lookup.ofMetadata r : Action α).Recalls c (Lookup.ofMetadata r) := by
  cases r with
  | error fault => exact recalls_throw _
  | ok a => exact recalls_pure a

theorem dialectOf_recalls (c : Catalog) (connection : String) :
    (lookup.dialectOf connection).Recalls c (c.dialectOf connection) := by
  unfold Catalog.dialectOf Lookup.dialectOf
  split
  · exact recalls_pure _
  · refine Recalls.bind (ask_recalls c _ _) fun entry? => ?_
    cases entry? with
    | none => exact recalls_pure _
    | some entry => exact (ofMetadata_recalls _).bind fun kind => recalls_pure _

theorem assemble_recalls (c : Catalog) (entry : ModelEntry) :
    (lookup.assemble entry).Recalls c ((c.lookup : Lookup (Except Fault)).assemble entry) := by
  refine Recalls.bind (ask_recalls c _ _) fun tables => ?_
  refine Recalls.bind (ask_recalls c _ _) fun fields => ?_
  refine Recalls.bind (dialectOf_recalls c _) fun dialect => ?_
  refine Recalls.bind (ask_recalls c _ _) fun conditions => ?_
  refine Recalls.bind (ask_recalls c _ _) fun joins => ?_
  refine Recalls.bind (ask_recalls c _ _) fun orders => ?_
  refine Recalls.bind (ask_recalls c _ _) fun groups => ?_
  refine Recalls.bind (ask_recalls c _ _) fun havings => ?_
  refine Recalls.bind (ask_recalls c _ _) fun limit => ?_
  refine Recalls.bind (ask_recalls c _ _) fun raw => ?_
  exact recalls_pure _

/-- **Models are put together from the catalog in memory.** -/
theorem model_recalls (c : Catalog) (id : String) : (model id).Recalls c (c.model id) := by
  refine Recalls.bind (ask_recalls c _ _) fun entry? => ?_
  cases entry? with
  | none => exact recalls_throw _
  | some entry => exact assemble_recalls c entry

end Metadata

/-! ### Models of a catalog -/

namespace Catalog

variable {c : Catalog}

theorem assemble_eq_ok {entry : ModelEntry} {m : Model}
    (h : (c.lookup : Lookup (Except Fault)).assemble entry = .ok m) :
    m.entry = entry ∧ c.dialectOf m.connection = .ok m.dialect ∧
      m.fields = c.fields.filter (·.model == entry.id) := by
  -- only the dialect can fail
  change (c.dialectOf (Model.connectionOf entry (c.tables.filter (·.model == entry.id))) >>=
    fun dialect => _) = .ok m at h
  rcases hdialect : c.dialectOf
      (Model.connectionOf entry (c.tables.filter (·.model == entry.id))) with fault | dialect
  · rw [hdialect] at h
    cases h
  · rw [hdialect] at h
    obtain rfl := Except.ok.inj h
    exact ⟨rfl, hdialect, rfl⟩

theorem exists_entry_of_model {id : String} {m : Model} (h : c.model id = .ok m) :
    ∃ entry, c.models.find? (·.id == id) = some entry ∧
      (c.lookup : Lookup (Except Fault)).assemble entry = .ok m := by
  change pure (c.models.find? (·.id == id)) >>= _ = _ at h
  cases hentry : c.models.find? (·.id == id) with
  | none =>
    rw [hentry] at h
    cases h
  | some entry =>
    rw [hentry] at h
    exact ⟨entry, rfl, h⟩

/-- The entry of a model is listed, and its dialect is that of its connection. -/
theorem model_eq_ok {id : String} {m : Model} (h : c.model id = .ok m) :
    c.models.find? (·.id == id) = some m.entry ∧ c.dialectOf m.connection = .ok m.dialect := by
  obtain ⟨entry, hentry, hm⟩ := exists_entry_of_model h
  obtain ⟨rfl, hdialect, -⟩ := assemble_eq_ok hm
  exact ⟨hentry, hdialect⟩

/-- The fields of a model are those of its entry, in the order of the catalog. -/
theorem fields_of_model {id : String} {m : Model} (h : c.model id = .ok m) :
    m.fields = c.fields.filter (·.model == m.entry.id) := by
  obtain ⟨entry, -, hm⟩ := exists_entry_of_model h
  obtain ⟨rfl, -, hfields⟩ := assemble_eq_ok hm
  exact hfields

end Catalog

end MetaQuery
