/-
  MetaQuery/Proofs/Store/Edits.lean
  =================================
  Templates saved and removed, in memory and in metadata tables.

  Both stores do the same writes with the same outcomes, and find the same template under every
  id.  The templates of a model come from memory in the order of the list, and from the tables by
  their positions; so they are the same exactly where the positions rise along the list.  They do
  as long as nothing is removed (`rising_of_saves`).  When a template is removed, the number of
  rows may be the position of another one or lie before it, and what is saved next does not come
  last then.
-/
import MetaQuery.Proofs.Store.Positions
import MetaQuery.Service.Templates

namespace MetaQuery

open Tables

/-! ### Writes -/

/-- A write on the templates. -/
inductive Edit where
  | save (t : Template)
  | remove (id : String)
deriving DecidableEq, Repr

namespace Edit

open MetaQuery.Action

/-- The write on the store of the session; with whether a template was removed. -/
def run : Edit → Action Bool
  | .save t => do
    Metadata.saveTemplate t
    return false
  | .remove id => Metadata.deleteTemplate id

def runAll : List Edit → Action (List Bool)
  | [] => pure []
  | e :: r => do
    let removed ← e.run
    let later ← runAll r
    return removed :: later

/-- The catalog after the write. -/
def onCatalog (c : Catalog) : Edit → Catalog
  | .save t => c.saveTemplate t
  | .remove id => c.deleteTemplate id

/-- The shelf after the write. -/
def onShelf (S : Shelf) : Edit → Shelf
  | .save t => S.save t
  | .remove id => S.remove id

/-- Whether the write removes a template. -/
def removes (c : Catalog) : Edit → Bool
  | .save _ => false
  | .remove id => c.templates.any (·.id == id)

/-- Which of the writes remove a template. -/
def removals (c : Catalog) : List Edit → List Bool
  | [] => []
  | e :: r => e.removes c :: removals (e.onCatalog c) r

/-! ### Writes in memory -/

theorem exec_saveTemplate_of_memory {c : Catalog} {s : Session} (h : s.store = .memory c)
    (t : Template) : (Metadata.saveTemplate t).exec s =
      (.ok (), { s with store := .memory (c.saveTemplate t) }) := by
  rw [Metadata.saveTemplate, exec_get_bind, h]
  rfl

theorem exec_deleteTemplate_of_memory {c : Catalog} {s : Session} (h : s.store = .memory c)
    (id : String) : (Metadata.deleteTemplate id).exec s =
      (.ok (c.templates.any (·.id == id)), { s with store := .memory (c.deleteTemplate id) }) := by
  rw [Metadata.deleteTemplate, exec_get_bind, h]
  rfl

theorem exec_run_of_memory {c : Catalog} {s : Session} (h : s.store = .memory c) (e : Edit) :
    e.run.exec s = (.ok (e.removes c), { s with store := .memory (e.onCatalog c) }) := by
  cases e with
  | save t =>
    rw [run, exec_bind_of_ok (exec_saveTemplate_of_memory h t)]
    rfl
  | remove id => exact exec_deleteTemplate_of_memory h id

theorem exec_runAll_of_memory {c : Catalog} {s : Session} (h : s.store = .memory c)
    (edits : List Edit) : (runAll edits).exec s =
      (.ok (removals c edits), { s with store := .memory (edits.foldl onCatalog c) }) := by
  induction edits generalizing c s with
  | nil =>
    rw [List.foldl_nil, ← h]
    rfl
  | cons e rest ih =>
    rw [runAll, exec_bind_of_ok (exec_run_of_memory h e), exec_bind_of_ok (ih rfl)]
    rfl

/-! ### Writes on tables -/

variable {d : Dialect} {se : Settings} {K : Kept} {S : Shelf} {c : Catalog}

theorem templates_onShelf (h : S.templates = c.templates) (e : Edit) :
    (onShelf S e).templates = (onCatalog c e).templates := by
  cases e with
  | save t =>
    rw [onShelf, Shelf.save, Shelf.templates_put, h]
    rfl
  | remove id =>
    rw [onShelf, Shelf.remove, Shelf.templates_filter (·.id != id), h]
    rfl

theorem templates_foldl (h : S.templates = c.templates) (edits : List Edit) :
    (edits.foldl onShelf S).templates = (edits.foldl onCatalog c).templates := by
  induction edits generalizing S c with
  | nil => exact h
  | cons e rest ih => exact ih (templates_onShelf h e)

theorem exec_saveTemplate_of_tables {s : Session} (h : s.store = .tables d) (t : Template) :
    (Metadata.saveTemplate t).exec s = (saveTemplate d t).exec s := by
  rw [Metadata.saveTemplate, exec_get_bind, h]

theorem exec_deleteTemplate_of_tables {s : Session} (h : s.store = .tables d) (id : String) :
    (Metadata.deleteTemplate id).exec s = (deleteTemplate d id).exec s := by
  rw [Metadata.deleteTemplate, exec_get_bind, h]

theorem run_achieves (h : Shelved K S) (hS : S.templates = c.templates) (e : Edit) :
    e.run.Achieves d se K fun removed K' => removed = e.removes c ∧ Shelved K' (onShelf S e) := by
  cases e with
  | save t =>
    have hsave := (saveTemplate_achieves d se h t).congr fun s hstore =>
      exec_saveTemplate_of_tables hstore t
    refine hsave.bind (fun _ => (steady_pure _).on) ?_
    intro _ K' hK'
    refine (yields_pure false K').mono ?_
    rintro _ _ ⟨rfl, rfl⟩
    exact ⟨rfl, hK'⟩
  | remove id =>
    have hdelete := (deleteTemplate_achieves d se h id).congr fun s hstore =>
      exec_deleteTemplate_of_tables hstore id
    rw [hS] at hdelete
    exact hdelete

theorem run_steadyOn (e : Edit) : e.run.SteadyOn d se := by
  have hempty : Shelved ⟨fun _ => [], fun _ => []⟩ [] := ⟨.refl [], .nil⟩
  exact (run_achieves (c := {}) hempty rfl e).steady

theorem runAll_steadyOn (edits : List Edit) : (runAll edits).SteadyOn d se := by
  induction edits with
  | nil => exact (steady_pure _).on
  | cons e rest ih => exact (run_steadyOn e).bind fun _ => ih.bind fun _ => (steady_pure _).on

/-- **The tables do the writes as memory does them, with the same outcomes.** -/
theorem runAll_achieves (h : Shelved K S) (hS : S.templates = c.templates) (edits : List Edit) :
    (runAll edits).Achieves d se K fun outcomes K' =>
      outcomes = removals c edits ∧ Shelved K' (edits.foldl onShelf S) := by
  induction edits generalizing K S c with
  | nil =>
    refine (yields_pure [] K).mono ?_
    rintro _ _ ⟨rfl, rfl⟩
    exact ⟨rfl, h⟩
  | cons e rest ih =>
    refine (run_achieves h hS e).bind
      (fun _ => (runAll_steadyOn rest).bind fun _ => (steady_pure _).on) ?_
    rintro _ K' ⟨rfl, hK'⟩
    -- the shelf after the first edit is the one the others start from
    refine (ih hK' (templates_onShelf hS e)).bind (fun _ => (steady_pure _).on) ?_
    rintro _ K'' ⟨rfl, hK''⟩
    refine (yields_pure _ K'').mono ?_
    rintro _ _ ⟨rfl, rfl⟩
    exact ⟨rfl, hK''⟩

theorem mem_putTemplate {t u : Template} {ts : List Template}
    (h : u ∈ Catalog.putTemplate t ts) : u = t ∨ u ∈ ts := by
  induction ts with
  | nil => exact .inl (List.mem_singleton.1 h)
  | cons v rest ih =>
    rw [Catalog.putTemplate] at h
    split at h
    · rcases List.mem_cons.1 h with rfl | h
      · exact .inl rfl
      · exact .inr (List.mem_cons_of_mem v h)
    · rcases List.mem_cons.1 h with rfl | h
      · exact .inr List.mem_cons_self
      · exact (ih h).imp id (List.mem_cons_of_mem v)

/-- A template that is there was there before, or was saved. -/
theorem mem_foldl {u : Template} {edits : List Edit}
    (h : u ∈ (edits.foldl onCatalog c).templates) : u ∈ c.templates ∨ .save u ∈ edits := by
  induction edits generalizing c with
  | nil => exact .inl h
  | cons e rest ih =>
    rcases ih h with h | h
    · cases e with
      | save t =>
        rcases mem_putTemplate h with rfl | h
        · exact .inr List.mem_cons_self
        · exact .inl h
      | remove id => exact .inl (List.mem_filter.1 h).1
    · exact .inr (List.mem_cons_of_mem e h)

/-- The shelf after an import and writes. -/
def shelfAfter (c : Catalog) (edits : List Edit) : Shelf :=
  edits.foldl onShelf (Shelf.ofTemplates 0 c.templates)

theorem import_runAll_achieves (hc : c.Storable) (d : Dialect) (se : Settings) (K : Kept)
    (edits : List Edit) :
    (importCatalog d c >>= fun _ => runAll edits).Achieves d se K fun outcomes K' =>
      outcomes = removals c edits ∧ Shelved K' (shelfAfter c edits) := by
  refine (importCatalog_achieves hc.checked hc.distinct K).bind (fun _ => runAll_steadyOn edits) ?_
  intro _ K' hstocked
  have htemplates :
      ("templates", c.templates.map Template.layout.coder.encode) ∈ catalogRows c := by
    simp [Catalog.catalogRows_eq]
  have hshelved := shelved_of_stored hc.templates (hc.distinct _ htemplates) (hstocked _ htemplates)
  exact runAll_achieves hshelved (Shelf.templates_ofTemplates 0 c.templates) edits

end Edit

/-! ### Where positions rise -/

open Edit

theorem Edit.packed_foldl {S : Shelf} (hS : S.Packed) {edits : List Edit}
    (hsaves : ∀ e ∈ edits, ∃ t, e = .save t) : (edits.foldl onShelf S).Packed := by
  induction edits generalizing S with
  | nil => exact hS
  | cons e rest ih =>
    obtain ⟨t, rfl⟩ := hsaves e List.mem_cons_self
    exact ih (hS.save t) fun e he => hsaves e (List.mem_cons_of_mem _ he)

/-- As long as nothing is removed, what is saved last comes last. -/
theorem rising_of_saves {c : Catalog} {edits : List Edit}
    (hsaves : ∀ e ∈ edits, ∃ t, e = .save t) (hlength : (shelfAfter c edits).length ≤ placeLimit)
    (model : String) : ((shelfAfter c edits).ofModel model).Rising := by
  have hpacked := packed_foldl (Shelf.packed_ofTemplates c.templates) hsaves
  exact List.Pairwise.sublist List.filter_sublist (Shelf.Packed.rising hpacked hlength)

/-! ### Both stores -/

/-- What the two stores say of the templates, where memory holds the catalog and the tables hold
    the shelf. -/
structure SameTemplates (d : Dialect) (se : Settings) (K : Kept) (c : Catalog) (S : Shelf) :
    Prop where
  template? (id : String) : Metadata.SameAnswer d se K c (Metadata.template? id)
  templatesOf (model : String) :
    Metadata.SameAnswer d se K c (Metadata.templatesOf model) ↔ (S.ofModel model).Rising
  default? (model : String) (h : (S.ofModel model).Rising) :
    Metadata.SameAnswer d se K c (Templates.default? model)

theorem sameTemplates {d : Dialect} {se : Settings} {K : Kept} {S : Shelf} {c : Catalog}
    (h : Shelved K S) (hreads : ReadsBack Template.layout.coder S.templates)
    (hS : S.templates = c.templates) : SameTemplates d se K c S where
  template? id := h.sameAnswer_template? hreads hS id
  templatesOf model := h.sameAnswer_templatesOf_iff hreads hS model
  default? model hrising :=
    ((h.sameAnswer_templatesOf_iff hreads hS model).2 hrising).map fun ts =>
      ts.find? (·.isDefault)

/-- **Templates in the two stores.**  After an import, memory and tables do the same writes with
    the same outcomes.  They find the same templates by id, and the same templates of a model
    exactly where the positions of these rise. -/
theorem edits_agree {c : Catalog} (hc : c.Storable) {edits : List Edit}
    (hreads : ∀ t, .save t ∈ edits →
      Template.layout.coder.ofText (Template.layout.coder.text t) = .ok t)
    (d : Dialect) (se : Settings) (K : Kept) :
    (importCatalog d c >>= fun _ => runAll edits).Achieves d se K fun outcomes K' =>
      (∀ s : Session, s.store = .memory c → (runAll edits).exec s =
        (.ok outcomes, { s with store := .memory (edits.foldl onCatalog c) })) ∧
      SameTemplates d se K' (edits.foldl onCatalog c) (shelfAfter c edits) := by
  refine (import_runAll_achieves hc d se K edits).mono ?_
  rintro _ K' ⟨rfl, hshelved⟩
  have htemplates : (shelfAfter c edits).templates = (edits.foldl onCatalog c).templates :=
    templates_foldl (Shelf.templates_ofTemplates 0 c.templates) edits
  refine ⟨fun s hstore => exec_runAll_of_memory hstore edits, sameTemplates hshelved ?_ htemplates⟩
  intro t ht
  rw [htemplates] at ht
  rcases mem_foldl ht with ht | ht
  · exact hc.reads.templates t ht
  · exact hreads t ht

def newTickets : Template := { id := "new", model := "ticket", isDefault := true }

/-- Two templates go, and one comes. -/
def ticketEdits : List Edit := [.remove "open", .remove "late", .save newTickets]

theorem newTickets_readsBack : ∀ t, .save t ∈ ticketEdits →
    Template.layout.coder.ofText (Template.layout.coder.text t) = .ok t := by
  intro t ht
  obtain rfl : t = newTickets := by simpa [ticketEdits] using ht
  rw [Json.Coder.ofText_text]
  decide +kernel

theorem ticket_edits_agree :
    Metadata.ticketCatalog.Storable ∧ (∀ t, .save t ∈ ticketEdits →
      Template.layout.coder.ofText (Template.layout.coder.text t) = .ok t) ∧
    (importCatalog .ansi Metadata.ticketCatalog >>= fun _ => runAll ticketEdits).Achieves .ansi {}
      ⟨fun _ => [], fun _ => []⟩ fun outcomes K' =>
        (∀ s : Session, s.store = .memory Metadata.ticketCatalog → (runAll ticketEdits).exec s =
          (.ok outcomes, { s with
            store := .memory (ticketEdits.foldl onCatalog Metadata.ticketCatalog) })) ∧
        SameTemplates .ansi {} K' (ticketEdits.foldl onCatalog Metadata.ticketCatalog)
          (shelfAfter Metadata.ticketCatalog ticketEdits) :=
  ⟨Metadata.ticketCatalog_storable, newTickets_readsBack,
    edits_agree Metadata.ticketCatalog_storable newTickets_readsBack .ansi {} _⟩

/-- The template that is saved last comes first from the tables, and is the default there. -/
theorem template_before_others :
    (importCatalog .ansi Metadata.ticketCatalog >>= fun _ => runAll ticketEdits).Achieves .ansi {}
      ⟨fun _ => [], fun _ => []⟩ fun _ K' =>
        (ticketEdits.foldl onCatalog Metadata.ticketCatalog).templatesOf "ticket" =
          [Metadata.ownTickets, newTickets] ∧
        (Metadata.templatesOf "ticket").Yields .ansi {} K' [newTickets, Metadata.ownTickets] K' ∧
        (Templates.default? "ticket").Yields .ansi {} K' (some newTickets) K' ∧
        ¬ Metadata.SameAnswer .ansi {} K' (ticketEdits.foldl onCatalog Metadata.ticketCatalog)
          (Metadata.templatesOf "ticket") ∧
        ¬ Metadata.SameAnswer .ansi {} K' (ticketEdits.foldl onCatalog Metadata.ticketCatalog)
          (Templates.default? "ticket") := by
  have hmemory : (ticketEdits.foldl onCatalog Metadata.ticketCatalog).templatesOf "ticket" =
      [Metadata.ownTickets, newTickets] := by decide
  have hshelf : shelfAfter Metadata.ticketCatalog ticketEdits =
      [(Metadata.ownTickets, 2), (newTickets, 1)] := by decide
  refine (import_runAll_achieves Metadata.ticketCatalog_storable .ansi {} _ ticketEdits).mono ?_
  rintro _ K' ⟨-, hshelved⟩
  rw [hshelf] at hshelved
  have hreads : Tables.ReadsBack Template.layout.coder
      (Shelf.templates [(Metadata.ownTickets, 2), (newTickets, 1)]) := by
    intro t ht
    rcases List.mem_cons.1 ht with rfl | ht
    · exact Metadata.ticketCatalog_storable.reads.templates _ (by decide)
    · obtain rfl := List.mem_singleton.1 ht
      exact newTickets_readsBack newTickets (by decide)
  -- both templates are of this model, and the new one has the lower place
  have hmine : Shelf.ofModel "ticket" [(Metadata.ownTickets, 2), (newTickets, 1)] =
      [(Metadata.ownTickets, 2), (newTickets, 1)] := by decide
  have htables : (Metadata.templatesOf "ticket").Yields .ansi {} K'
      [newTickets, Metadata.ownTickets] K' := by
    apply hshelved.templatesOf_yields hreads (M := [(newTickets, 1), (Metadata.ownTickets, 2)])
    · rw [hmine]
      exact .swap _ _ []
    · exact .cons (by decide) (.cons (by simp) .nil)
  have hdefault := htables.map fun ts => ts.find? (·.isDefault)
  have hlist : ∀ s : Session,
      s.store = .memory (ticketEdits.foldl onCatalog Metadata.ticketCatalog) →
      (Metadata.templatesOf "ticket").exec s = (.ok [Metadata.ownTickets, newTickets], s) := by
    intro s hstore
    rw [← hmemory]
    exact Metadata.exec_ask_of_memory hstore
  refine ⟨hmemory, htables, hdefault, ?_, ?_⟩
  · exact Metadata.not_sameAnswer hlist htables (by decide)
  · refine Metadata.not_sameAnswer (x := some Metadata.ownTickets) ?_ hdefault (by decide)
    intro s hstore
    rw [Templates.default?, Action.exec_bind_of_ok (hlist s hstore)]
    rfl

end MetaQuery
