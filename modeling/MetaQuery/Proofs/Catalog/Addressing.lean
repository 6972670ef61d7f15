/-
  MetaQuery/Proofs/Catalog/Addressing.lean
  ========================================
  What the check of a catalog promises to those who look entries up.

  A catalog passes its check exactly when its entries fit together (`check_eq_ok_iff`): the codes
  of models and the columns of a model are told apart, and whatever names a model names one that is
  there.  Of such a catalog every entry is found under the model that it names, and every model
  under its code.  Ids of models are not compared by the check, so models with one id pass it, and
  all but the first of them are not found under their id (`addressable_of_check`).
-/
import Mathlib.Data.List.Nodup
import MetaQuery.Proofs.Session.Memory

namespace MetaQuery

namespace Catalog

variable {c : Catalog}

/-! ### Checks one after the other -/

theorem andThen_eq_ok_iff {ε : Type} {first second : Except ε Unit} :
    (first >>= fun _ => second) = .ok () ↔ first = .ok () ∧ second = .ok () := by
  cases first with
  | error e => simp [bind, Except.bind]
  | ok u => simp [bind, Except.bind]

theorem forM_eq_ok_iff {ε α : Type} {f : α → Except ε Unit} {xs : List α} :
    xs.forM f = .ok () ↔ ∀ x ∈ xs, f x = .ok () := by
  induction xs with
  | nil => simp [pure, Except.pure]
  | cons x rest ih =>
    rw [List.forM, andThen_eq_ok_iff, ih, List.forall_mem_cons]

/-- Members that must differ in a key from those before them. -/
theorem checkEach_eq_ok_iff {α κ : Type} {check : List α → α → Except MetadataFault Unit}
    {p : α → Prop} {key : α → κ}
    (hcheck : ∀ before a, check before a = .ok () ↔ p a ∧ key a ∉ before.map key)
    {before xs : List α} (hbefore : (before.map key).Nodup) :
    checkEach check before xs = .ok () ↔
      (∀ a ∈ xs, p a) ∧ ((before ++ xs).map key).Nodup := by
  induction xs generalizing before with
  | nil => simpa [checkEach] using hbefore
  | cons a rest ih =>
    -- the entries checked so far grow at their end
    have hsplit : before ++ a :: rest = before ++ [a] ++ rest := by simp
    rw [checkEach, andThen_eq_ok_iff, hcheck, List.forall_mem_cons]
    constructor
    · rintro ⟨⟨ha, hnew⟩, hrest⟩
      have hnodup : ((before ++ [a]).map key).Nodup := by
        rw [List.map_append, List.nodup_append]
        refine ⟨hbefore, by simp, ?_⟩
        rintro k hk k' hk' rfl
        obtain rfl : k = key a := by simpa using hk'
        exact hnew hk
      obtain ⟨hp, hkeys⟩ := (ih hnodup).1 hrest
      exact ⟨⟨ha, hp⟩, hsplit ▸ hkeys⟩
    · rintro ⟨⟨ha, hp⟩, hkeys⟩
      rw [hsplit] at hkeys
      have hnodup : ((before ++ [a]).map key).Nodup := by
        rw [List.map_append] at hkeys
        exact (List.nodup_append.1 hkeys).1
      refine ⟨⟨ha, fun hmem => ?_⟩, (ih hnodup).2 ⟨hp, hkeys⟩⟩
      rw [List.map_append] at hnodup
      exact (List.nodup_append.1 hnodup).2.2 _ hmem _ (by simp) rfl

theorem checkEach_nil_eq_ok_iff {α κ : Type} {check : List α → α → Except MetadataFault Unit}
    {p : α → Prop} {key : α → κ}
    (hcheck : ∀ before a, check before a = .ok () ↔ p a ∧ key a ∉ before.map key) (xs : List α) :
    checkEach check [] xs = .ok () ↔ (∀ a ∈ xs, p a) ∧ (xs.map key).Nodup :=
  checkEach_eq_ok_iff hcheck .nil

/-! ### Entries that fit together -/

/-- The catalog has a model with the id. -/
def HasModel (c : Catalog) (id : String) : Prop := ∃ m ∈ c.models, m.id = id

/-- The entries fit together. -/
structure Fits (c : Catalog) : Prop where
  codes : (c.models.map (·.code)).Nodup
  connections : ∀ m ∈ c.models, m.connection ≠ "" → c.connections ≠ [] →
    m.connection ∈ c.connections.map (·.id)
  columns : (c.fields.map fun f => (f.model, f.column)).Nodup
  tables : ∀ t ∈ c.tables, c.HasModel t.model
  fields : ∀ f ∈ c.fields, c.HasModel f.model
  conditions : ∀ w ∈ c.conditions, c.HasModel w.model
  havings : ∀ w ∈ c.havings, c.HasModel w.model
  joins : ∀ j ∈ c.joins, c.HasModel j.model
  orders : ∀ o ∈ c.orders, c.HasModel o.model
  groups : ∀ g ∈ c.groups, c.HasModel g.model
  limits : ∀ l ∈ c.limits, c.HasModel l.model
  raws : ∀ s ∈ c.raws, c.HasModel s.model
  templates : ∀ t ∈ c.templates, c.HasModel t.model
  relations : ∀ r ∈ c.relations, c.HasModel r.master ∧ c.HasModel r.detail ∧ r.foreignKey ≠ ""

theorem checkOwner_eq_ok_iff {owner : String} :
    checkOwner c.models owner = .ok () ↔ c.HasModel owner := by
  rw [checkOwner, HasModel]
  split
  · next h => simpa using h
  · next h => simpa using h

theorem checkModel_eq_ok_iff {connections : List ConnectionEntry} (before : List ModelEntry)
    (m : ModelEntry) :
    checkModel connections before m = .ok () ↔
      (m.connection ≠ "" → connections ≠ [] → m.connection ∈ connections.map (·.id)) ∧
        m.code ∉ before.map (·.code) := by
  have hcode : before.any (·.code == m.code) = true ↔ m.code ∈ before.map (·.code) := by
    simp
  have hlisted : connections.any (·.id == m.connection) = true ↔
      m.connection ∈ connections.map (·.id) := by
    simp
  rw [checkModel]
  split
  -- a code met before is refused before the connection is looked at
  · next h => simp [hcode.1 h]
  · next h =>
    have hnew := mt hcode.2 h
    split
    · next hmissing =>
      obtain ⟨hnamed, hsome, hunlisted⟩ := hmissing
      have hnot := mt hlisted.2 (by simpa using hunlisted)
      simp [hnamed, hsome, hnot]
    · next hfound =>
      refine iff_of_true rfl ⟨fun hnamed hsome => ?_, hnew⟩
      by_contra hnot
      exact hfound ⟨hnamed, hsome, by simpa using mt hlisted.1 hnot⟩

theorem checkField_eq_ok_iff (before : List FieldEntry) (f : FieldEntry) :
    checkField c.models before f = .ok () ↔
      c.HasModel f.model ∧
        (f.model, f.column) ∉ before.map fun g => (g.model, g.column) := by
  have hshared : (before.any fun g => g.model == f.model && g.column == f.column) = true ↔
      (f.model, f.column) ∈ before.map fun g => (g.model, g.column) := by
    simp
  rw [checkField, andThen_eq_ok_iff, checkOwner_eq_ok_iff]
  refine and_congr_right fun _ => ?_
  split
  · next h => exact iff_of_false (by rintro ⟨⟩) fun hnot => hnot (hshared.1 h)
  · next h => exact iff_of_true rfl (mt hshared.2 h)

theorem checkRelation_eq_ok_iff {r : Relation} :
    checkRelation c.models r = .ok () ↔
      c.HasModel r.master ∧ c.HasModel r.detail ∧ r.foreignKey ≠ "" := by
  rw [checkRelation, andThen_eq_ok_iff, andThen_eq_ok_iff, checkOwner_eq_ok_iff,
    checkOwner_eq_ok_iff]
  refine and_congr_right fun _ => and_congr_right fun _ => ?_
  split
  · next h => exact iff_of_false (by rintro ⟨⟩) fun hnot => hnot h
  · next h => exact iff_of_true rfl h

/-- **The check accepts exactly the catalogs whose entries fit together.** -/
theorem check_eq_ok_iff : c.check = .ok () ↔ c.Fits := by
  simp only [check, andThen_eq_ok_iff, forM_eq_ok_iff, checkOwner_eq_ok_iff,
    checkRelation_eq_ok_iff, checkEach_nil_eq_ok_iff checkModel_eq_ok_iff,
    checkEach_nil_eq_ok_iff checkField_eq_ok_iff, List.forall_mem_append]
  constructor
  · rintro ⟨⟨hconnections, hcodes⟩, htables, ⟨hfields, hcolumns⟩, ⟨hconditions, hhavings⟩, hjoins,
      horders, hgroups, hlimits, hraws, htemplates, hrelations⟩
    exact ⟨hcodes, hconnections, hcolumns, htables, hfields, hconditions, hhavings, hjoins,
      horders, hgroups, hlimits, hraws, htemplates, hrelations⟩
  · intro h
    exact ⟨⟨h.connections, h.codes⟩, h.tables, ⟨h.fields, h.columns⟩,
      ⟨h.conditions, h.havings⟩, h.joins, h.orders, h.groups, h.limits, h.raws, h.templates,
      h.relations⟩

/-! ### Keys -/

/-- Each member is the first one with its key, exactly when no two members share a key. -/
theorem forall_find?_key_iff {α κ : Type} [BEq κ] [LawfulBEq κ] {key : α → κ} {xs : List α}
    (hxs : xs.Nodup) :
    (∀ x ∈ xs, xs.find? (key · == key x) = some x) ↔ (xs.map key).Nodup := by
  constructor
  · intro hfind
    refine List.Nodup.map_on (fun x hx y hy hkey => ?_) hxs
    have hsame := hfind x hx
    rw [hkey, hfind y hy] at hsame
    exact (Option.some.inj hsame).symm
  · intro hkeys x hx
    rcases hfind : xs.find? (key · == key x) with _ | y
    · simpa using List.find?_eq_none.1 hfind x hx
    · have hkey : key y = key x := by simpa using List.find?_some hfind
      rw [List.inj_on_of_nodup_map hkeys (List.mem_of_find?_eq_some hfind) hx hkey]

end Catalog

/-! ### Addressing -/

namespace Metadata

variable {c : Catalog}

/-- With the catalog in memory, an entry is among those that are listed for the model that it
    names, and there is such a model. -/
def FoundUnder {α : Type} (c : Catalog) (listed : String → Action (List α)) (owner : String)
    (x : α) : Prop :=
  c.HasModel owner ∧ ∃ found, (listed owner).Recalls c (.ok found) ∧ x ∈ found

/-- With the catalog in memory, entries are found where they belong, and no model has a column
    twice. -/
structure Addressable (c : Catalog) : Prop where
  byCode : ∀ m ∈ c.models, (lookup.modelByCode m.code).Recalls c (.ok (some m))
  tables : ∀ t ∈ c.tables, FoundUnder c lookup.tables t.model t
  fields : ∀ f ∈ c.fields, FoundUnder c lookup.fields f.model f
  conditions : ∀ w ∈ c.conditions, FoundUnder c lookup.conditions w.model w
  joins : ∀ j ∈ c.joins, FoundUnder c lookup.joins j.model j
  orders : ∀ o ∈ c.orders, FoundUnder c lookup.orders o.model o
  groups : ∀ g ∈ c.groups, FoundUnder c lookup.groups g.model g
  havings : ∀ w ∈ c.havings, FoundUnder c lookup.havings w.model w
  templates : ∀ t ∈ c.templates, FoundUnder c templatesOf t.model t
  columns (id : String) : ∃ found, (lookup.fields id).Recalls c (.ok found) ∧
    (found.map (·.column)).Nodup

theorem ofModel_foundUnder {α : Type} {pick : Catalog → List α} {owner : α → String}
    {coder : Json.Coder α} {kind : String} {x : α} (hx : x ∈ pick c)
    (howner : c.HasModel (owner x)) :
    FoundUnder c (ofModel pick owner coder kind) (owner x) x := by
  refine ⟨howner, _, ask_recalls c _ _, ?_⟩
  exact List.mem_filter.2 ⟨hx, beq_self_eq_true _⟩

/-- The columns of a model are told apart. -/
theorem nodup_columns {fields : List FieldEntry}
    (h : (fields.map fun f => (f.model, f.column)).Nodup) (id : String) :
    ((fields.filter (·.model == id)).map (·.column)).Nodup := by
  refine List.Nodup.map_on ?_ ((List.Nodup.of_map _ h).filter _)
  intro f hf g hg hcolumn
  obtain ⟨hf, hfowner⟩ := List.mem_filter.1 hf
  obtain ⟨hg, hgowner⟩ := List.mem_filter.1 hg
  apply List.inj_on_of_nodup_map h hf hg
  rw [hcolumn, beq_iff_eq.1 hfowner, beq_iff_eq.1 hgowner]

theorem addressable_of_fits (h : c.Fits) : Addressable c where
  byCode m hm := ask_recalls_iff.2
    ((Catalog.forall_find?_key_iff (List.Nodup.of_map _ h.codes)).2 h.codes m hm)
  tables t ht := ofModel_foundUnder ht (h.tables t ht)
  fields f hf := ofModel_foundUnder hf (h.fields f hf)
  conditions w hw := ofModel_foundUnder hw (h.conditions w hw)
  joins j hj := ofModel_foundUnder hj (h.joins j hj)
  orders o ho := ofModel_foundUnder ho (h.orders o ho)
  groups g hg := ofModel_foundUnder hg (h.groups g hg)
  havings w hw := ofModel_foundUnder hw (h.havings w hw)
  templates t ht := ofModel_foundUnder ht (h.templates t ht)
  columns id := ⟨_, ask_recalls c _ _, nodup_columns h.columns id⟩

/-- **What is accepted is found.**  Every entry is found under its model, and every model under its
    code; every model is found under its id exactly when the ids of models are distinct. -/
theorem addressable_of_check (h : c.check = .ok ()) :
    Addressable c ∧
      ((∀ m ∈ c.models, (lookup.modelById m.id).Recalls c (.ok (some m))) ↔
        (c.models.map (·.id)).Nodup) := by
  have hfits := Catalog.check_eq_ok_iff.1 h
  refine ⟨addressable_of_fits hfits, ?_⟩
  rw [← Catalog.forall_find?_key_iff (List.Nodup.of_map _ hfits.codes)]
  exact forall_congr' fun m => forall_congr' fun _ => ask_recalls_iff

def libraryCatalog : Catalog where
  models := [{ id := "book", code := "books" }, { id := "loan", code := "loans" }]
  tables := [{ id := "t", model := "book", name := "books" }]
  fields := [{ id := "b", model := "book", column := "title" },
    { id := "l", model := "loan", column := "title" }]
  conditions := [{ model := "loan", column := "due" }]

theorem library_addressable :
    libraryCatalog.check = .ok () ∧ Addressable libraryCatalog ∧
      ((∀ m ∈ libraryCatalog.models,
          (lookup.modelById m.id).Recalls libraryCatalog (.ok (some m))) ↔
        (libraryCatalog.models.map (·.id)).Nodup) :=
  ⟨by decide, addressable_of_check (by decide)⟩

def firstTwin : ModelEntry := { id := "m", code := "a" }

def secondTwin : ModelEntry := { id := "m", code := "b" }

/-- Two models with one id. -/
def twinCatalog : Catalog where
  models := [firstTwin, secondTwin]

/-- Of two models with one id, which the check accepts, the second one is not found under it. -/
theorem second_twin_not_found :
    twinCatalog.check = .ok () ∧ secondTwin ∈ twinCatalog.models ∧
      (lookup.modelById secondTwin.id).Recalls twinCatalog (.ok (some firstTwin)) ∧
      ¬ (lookup.modelById secondTwin.id).Recalls twinCatalog (.ok (some secondTwin)) := by
  have hfirst : (lookup.modelById secondTwin.id).Recalls twinCatalog (.ok (some firstTwin)) :=
    ask_recalls_iff.2 (by decide)
  refine ⟨by decide, by decide, hfirst, fun hsecond => ?_⟩
  have hsame := hfirst.unique hsecond
  revert hsame
  decide

end Metadata

end MetaQuery
