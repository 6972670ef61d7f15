/-
  MetaQuery/Proofs/Service/Defaults.lean
  ======================================
  The default template of a model, in a session that keeps its metadata in memory.

  To make a template the default, the templates of its model are listed, and each one whose flag is
  wrong is saved under its id with the right one.  The list is a snapshot, while every save changes
  what is stored.  So the invariant of the loop speaks of both: the templates that are still to come
  stand in the catalog as they were listed, and those that came have their flags
  (`exec_saveFlags`).  Where ids are distinct, a save replaces one template, and it does so in
  place (`Catalog.putTemplate_eq_map`).
-/
import Mathlib.Data.List.Nodup
import MetaQuery.Pattern.Reader
import MetaQuery.Proofs.Session.Memory
import MetaQuery.Proofs.Store.Edits

namespace MetaQuery

/-! ### Flags -/

/-- The template with the flag that it has when the default is the template with an id. -/
def Template.flagged (id : String) (t : Template) : Template := { t with isDefault := t.id == id }

/-- Among things with keys of their own, a key stands for one. -/
theorem filter_key {α : Type} [DecidableEq α] {key : α → String} {xs : List α}
    (hkeys : (xs.map key).Nodup) {x : α} (hx : x ∈ xs) : xs.filter (key · == key x) = [x] := by
  have hsame : ∀ y ∈ xs, (key y == key x) = (y == x) := by
    intro y hy
    rw [Bool.eq_iff_iff, beq_iff_eq, beq_iff_eq]
    exact ⟨List.inj_on_of_nodup_map hkeys hy hx, congrArg key⟩
  rw [List.filter_congr hsame, List.filter_beq,
    List.count_eq_one_of_mem (List.Nodup.of_map _ hkeys) hx]
  rfl

namespace Catalog

variable {c : Catalog}

/-- The catalog with such flags on the templates that are picked. -/
def reflag (c : Catalog) (id : String) (pick : Template → Bool) : Catalog :=
  { c with templates := c.templates.map fun t => if pick t then t.flagged id else t }

/-- The catalog with the template of an id as the only default of a model. -/
def withDefault (c : Catalog) (model id : String) : Catalog := c.reflag id (·.model == model)

/-- The templates of a catalog have ids of their own. -/
def TemplatesDistinct (c : Catalog) : Prop := (c.templates.map (·.id)).Nodup

instance (c : Catalog) : Decidable c.TemplatesDistinct :=
  inferInstanceAs (Decidable (c.templates.map (·.id)).Nodup)

theorem TemplatesDistinct.eq (h : c.TemplatesDistinct) {t u : Template} (ht : t ∈ c.templates)
    (hu : u ∈ c.templates) (hid : t.id = u.id) : t = u :=
  List.inj_on_of_nodup_map h ht hu hid

theorem TemplatesDistinct.ofModel (h : c.TemplatesDistinct) (model : String) :
    ((c.templatesOf model).map (·.id)).Nodup :=
  List.Nodup.sublist (List.filter_sublist.map _) h

theorem TemplatesDistinct.map_reflag (h : c.TemplatesDistinct) (id : String)
    (pick : Template → Bool) : (c.reflag id pick).TemplatesDistinct := by
  have hids : (c.reflag id pick).templates.map (·.id) = c.templates.map (·.id) := by
    rw [Catalog.reflag, List.map_map]
    refine List.map_congr_left fun t _ => ?_
    simp only [Function.comp_apply]
    split
    · rfl
    · rfl
  rwa [TemplatesDistinct, hids]

/-- Flags set again are the same flags. -/
theorem reflag_reflag (id : String) {pick pick' both : Template → Bool}
    (hboth : ∀ t, both t = (pick t || pick' t)) :
    (c.reflag id pick).reflag id pick' = c.reflag id both := by
  simp only [reflag, List.map_map]
  congr 1
  refine List.map_congr_left fun t _ => ?_
  rw [Function.comp_apply, hboth]
  cases pick t with
  | false => simp
  | true => simp [Template.flagged]

/-- Where ids are distinct, the template with the id is replaced, and nothing else. -/
theorem putTemplate_eq_map {t : Template} {ts : List Template} (hids : (ts.map (·.id)).Nodup)
    (ht : t.id ∈ ts.map (·.id)) :
    putTemplate t ts = ts.map fun u => if u.id = t.id then t else u := by
  induction ts with
  | nil => cases ht
  | cons u rest ih =>
    obtain ⟨hu, hrest⟩ := List.nodup_cons.1 hids
    by_cases hid : u.id = t.id
    · have hothers : rest.map (fun v => if v.id = t.id then t else v) = rest.map id := by
        refine List.map_congr_left fun v hv => if_neg fun heq => hu ?_
        exact List.mem_map.2 ⟨v, hv, heq.trans hid.symm⟩
      rw [putTemplate, if_pos hid, List.map_cons, if_pos hid, hothers, List.map_id]
    · have ht' : t.id ∈ rest.map (·.id) := (List.mem_cons.1 ht).resolve_left (Ne.symm hid)
      rw [putTemplate, if_neg hid, List.map_cons, if_neg hid, ih hrest ht']

/-- A template of the catalog saved with its flag. -/
theorem TemplatesDistinct.save_flagged (h : c.TemplatesDistinct) {t : Template}
    (ht : t ∈ c.templates) (id : String) :
    c.saveTemplate (t.flagged id) = c.reflag id (·.id == t.id) := by
  have hput : putTemplate (t.flagged id) c.templates =
      c.templates.map fun u => if u.id = t.id then t.flagged id else u :=
    putTemplate_eq_map h (List.mem_map.2 ⟨t, ht, rfl⟩)
  rw [saveTemplate, hput, reflag]
  congr 1
  refine List.map_congr_left fun u hu => ?_
  simp only [beq_iff_eq]
  split
  · next hid => rw [h.eq hu ht hid]
  · rfl

/-- A flag that is right stays. -/
theorem TemplatesDistinct.reflag_eq_self (h : c.TemplatesDistinct) {t : Template}
    (ht : t ∈ c.templates) {id : String} (hflag : t.isDefault = (t.id == id)) :
    c.reflag id (·.id == t.id) = c := by
  have hkept : ∀ u ∈ c.templates, (if u.id == t.id then u.flagged id else u) = u := by
    intro u hu
    split
    · next hid =>
      obtain rfl := h.eq hu ht (beq_iff_eq.1 hid)
      rw [Template.flagged, ← hflag]
    · rfl
  rw [reflag, List.map_congr_left hkept, List.map_id']

/-- All templates of a model get their flags by their ids. -/
theorem TemplatesDistinct.reflag_ofModel (h : c.TemplatesDistinct) (model id : String) :
    c.reflag id (fun t => ((c.templatesOf model).map (·.id)).contains t.id) =
      c.withDefault model id := by
  rw [withDefault, reflag, reflag]
  congr 1
  refine List.map_congr_left fun t ht => ?_
  have hpick : ((c.templatesOf model).map (·.id)).contains t.id = (t.model == model) := by
    rw [Bool.eq_iff_iff, List.contains_iff_mem, List.mem_map]
    constructor
    · rintro ⟨u, hu, hid⟩
      obtain ⟨hmem, hmodel⟩ := List.mem_filter.1 hu
      rwa [h.eq ht hmem hid.symm]
    · exact fun hmodel => ⟨t, List.mem_filter.2 ⟨ht, hmodel⟩, rfl⟩
  simp only [hpick]

/-! ### One default -/

theorem templatesOf_withDefault (c : Catalog) (model id : String) :
    (c.withDefault model id).templatesOf model = (c.templatesOf model).map (·.flagged id) := by
  have hmodel : ((·.model == model) ∘ fun t : Template =>
      if t.model == model then t.flagged id else t) = (·.model == model) := by
    funext t
    simp only [Function.comp_apply]
    split
    · rfl
    · rfl
  rw [templatesOf, withDefault, reflag, List.filter_map, hmodel]
  exact List.map_congr_left fun t ht => if_pos (List.mem_filter.1 ht).2

/-- Exactly the template with the id is flagged. -/
theorem TemplatesDistinct.defaults_withDefault (h : c.TemplatesDistinct) {model : String}
    {t : Template} (ht : t ∈ c.templatesOf model) :
    ((c.withDefault model t.id).templatesOf model).filter (·.isDefault) =
      [{ t with isDefault := true }] := by
  have hflag : ((·.isDefault) ∘ fun u : Template => u.flagged t.id) = (·.id == t.id) := rfl
  rw [templatesOf_withDefault, List.filter_map, hflag, filter_key (h.ofModel model) ht]
  simp [Template.flagged]

end Catalog

/-! ### The loop -/

namespace Templates

open MetaQuery.Action

variable {c : Catalog} {s : Session}

/-- One round: afterwards the template has the right flag. -/
theorem exec_saveFlag (h : c.TemplatesDistinct) (hstore : s.store = .memory c) {t : Template}
    (ht : t ∈ c.templates) (id : String) :
    (saveFlag id t).exec s =
      (.ok (), { s with store := .memory (c.reflag id (·.id == t.id)) }) := by
  unfold saveFlag
  by_cases hflag : t.isDefault = (t.id == id)
  · rw [h.reflag_eq_self ht hflag, ← hstore]
    simp only [hflag, bne_self_eq_false]
    rfl
  · rw [← h.save_flagged ht]
    simp only [bne_iff_ne.2 hflag]
    exact Edit.exec_saveTemplate_of_memory hstore (t.flagged id)

/-- All rounds.  What comes later is stored as it was listed, since its id is another one. -/
theorem exec_saveFlags (h : c.TemplatesDistinct) (hstore : s.store = .memory c)
    {todo : List Template} (hlisted : ∀ t ∈ todo, t ∈ c.templates)
    (hids : (todo.map (·.id)).Nodup) (id : String) :
    (todo.forM (saveFlag id)).exec s = (.ok (), { s with
      store := .memory (c.reflag id fun t => (todo.map (·.id)).contains t.id) }) := by
  induction todo generalizing c s with
  | nil =>
    have hsame : c.reflag id (fun t => (([] : List Template).map (·.id)).contains t.id) = c := by
      simp [Catalog.reflag]
    rw [hsame, ← hstore]
    rfl
  | cons t rest ih =>
    obtain ⟨hfresh, hrest⟩ := List.nodup_cons.1 hids
    have ht := hlisted t List.mem_cons_self
    -- templates not reached yet are still listed, since only the flag of this one was written
    have hlater : ∀ u ∈ rest, u ∈ (c.reflag id (·.id == t.id)).templates := by
      intro u hu
      have hne : u.id ≠ t.id := fun heq => hfresh (List.mem_map.2 ⟨u, hu, heq⟩)
      refine List.mem_map.2 ⟨u, hlisted u (List.mem_cons_of_mem t hu), ?_⟩
      simp [hne]
    have hcons : (t :: rest).forM (saveFlag id) =
        saveFlag id t >>= fun _ => rest.forM (saveFlag id) := rfl
    have hboth : (c.reflag id (·.id == t.id)).reflag id
        (fun u => (rest.map (·.id)).contains u.id) =
          c.reflag id fun u => ((t :: rest).map (·.id)).contains u.id :=
      Catalog.reflag_reflag id fun _ => List.contains_cons
    rw [hcons, exec_bind_of_ok (exec_saveFlag h hstore ht id),
      ih (h.map_reflag id _) rfl hlater hrest, hboth]

/-! ### The default -/

theorem setDefault_eq (model id : String) : setDefault model id =
    Metadata.templatesOf model >>= fun templates =>
      if templates.any (·.id == id) then templates.forM (saveFlag id)
      else throw (.notFound (.templateOfModel id model)) := by
  refine congrArg (Metadata.templatesOf model >>= ·) (funext fun templates => ?_)
  cases templates.any (·.id == id) with
  | true => rfl
  | false => rfl

theorem exec_templatesOf (hstore : s.store = .memory c) (model : String) :
    (Metadata.templatesOf model).exec s = (.ok (c.templatesOf model), s) :=
  Metadata.exec_ask_of_memory hstore

theorem exec_setDefault (h : c.TemplatesDistinct) (hstore : s.store = .memory c)
    {model id : String} (hid : id ∈ (c.templatesOf model).map (·.id)) :
    (setDefault model id).exec s =
      (.ok (), { s with store := .memory (c.withDefault model id) }) := by
  obtain ⟨t, ht, rfl⟩ := List.mem_map.1 hid
  have hfound : (c.templatesOf model).any (·.id == t.id) = true :=
    List.any_eq_true.2 ⟨t, ht, beq_self_eq_true _⟩
  have hlisted : ∀ u ∈ c.templatesOf model, u ∈ c.templates :=
    fun u hu => (List.mem_filter.1 hu).1
  rw [setDefault_eq, exec_bind_of_ok (exec_templatesOf hstore model), if_pos hfound,
    exec_saveFlags h hstore hlisted (h.ofModel model), h.reflag_ofModel]

theorem exec_setDefault_of_not_mem (hstore : s.store = .memory c) {model id : String}
    (hid : id ∉ (c.templatesOf model).map (·.id)) :
    (setDefault model id).exec s = (.error (.notFound (.templateOfModel id model)), s) := by
  have hnone : ¬ (c.templatesOf model).any (·.id == id) = true := by
    rw [List.any_eq_true]
    rintro ⟨t, ht, heq⟩
    exact hid (List.mem_map.2 ⟨t, ht, beq_iff_eq.1 heq⟩)
  rw [setDefault_eq, exec_bind_of_ok (exec_templatesOf hstore model), if_neg hnone]
  rfl

/-- What it means that a template was made the default of its model, where the session was `s`
    before and is `s'` now. -/
structure MadeDefault (c : Catalog) (model id : String) (s s' : Session) : Prop where
  succeeds : (setDefault model id).exec s = (.ok (), s')
  /-- All else is as it was: the order, what templates hold, and those of other models. -/
  session : s' = { s with store := .memory (c.withDefault model id) }
  /-- One template is flagged, and it is the one with the id. -/
  one : ∃ t ∈ c.templatesOf model, t.id = id ∧
    ((c.withDefault model id).templatesOf model).filter (·.isDefault) =
      [{ t with isDefault := true }] ∧
    (default? model).exec s' = (.ok (some { t with isDefault := true }), s')
  again : (setDefault model id).exec s' = (.ok (), s')

theorem madeDefault (h : c.TemplatesDistinct) (hstore : s.store = .memory c)
    {model id : String} (hid : id ∈ (c.templatesOf model).map (·.id)) :
    MadeDefault c model id s { s with store := .memory (c.withDefault model id) } where
  succeeds := exec_setDefault h hstore hid
  session := rfl
  one := by
    obtain ⟨t, ht, rfl⟩ := List.mem_map.1 hid
    have hflagged := h.defaults_withDefault ht
    refine ⟨t, ht, rfl, hflagged, ?_⟩
    rw [default?, exec_bind_of_ok (exec_templatesOf rfl model), ← List.head?_filter, hflagged]
    rfl
  again := by
    have hid' : id ∈ ((c.withDefault model id).templatesOf model).map (·.id) := by
      rw [Catalog.templatesOf_withDefault, List.map_map]
      exact hid
    -- a flag that is set to what it is: the second run changes nothing
    have hsame : (c.withDefault model id).withDefault model id = c.withDefault model id :=
      Catalog.reflag_reflag id fun t => (Bool.or_self _).symm
    refine (exec_setDefault (h.map_reflag id _) rfl hid').trans ?_
    exact congrArg (fun c' : Catalog => (_, { s with store := .memory c' })) hsame

/-- **A template made the default is the only default of its model.**  From whatever flags there
    are, the template is flagged, the flags of the other templates of the model are cleared, and
    nothing else changes; to do it again changes nothing.  A template that the model does not have
    is not found, and then nothing changes either. -/
theorem setDefault_flags_one (h : c.TemplatesDistinct) (hstore : s.store = .memory c)
    (model id : String) :
    (id ∈ (c.templatesOf model).map (·.id) → ∃ s', MadeDefault c model id s s') ∧
    (id ∉ (c.templatesOf model).map (·.id) →
      (setDefault model id).exec s = (.error (.notFound (.templateOfModel id model)), s)) :=
  ⟨fun hid => ⟨_, madeDefault h hstore hid⟩, exec_setDefault_of_not_mem hstore⟩

/-- Two templates of tickets that are both flagged, with one of another model between them. -/
def flaggedCatalog : Catalog where
  models := [{ id := "ticket", code := "ticket" }, { id := "note", code := "note" }]
  templates := [{ id := "open", model := "ticket", isDefault := true },
    { id := "recent", model := "note", isDefault := true },
    { id := "mine", model := "ticket" },
    { id := "late", model := "ticket", isDefault := true }]

def flaggedSession : Session where
  store := .memory flaggedCatalog
  rules := Pattern.read
  idAt := fun _ => ""

theorem mine_made_default :
    flaggedCatalog.TemplatesDistinct ∧ flaggedSession.store = .memory flaggedCatalog ∧
      "mine" ∈ (flaggedCatalog.templatesOf "ticket").map (·.id) ∧
      "recent" ∉ (flaggedCatalog.templatesOf "ticket").map (·.id) ∧
      (∃ s', MadeDefault flaggedCatalog "ticket" "mine" flaggedSession s') ∧
      (setDefault "ticket" "recent").exec flaggedSession =
        (.error (.notFound (.templateOfModel "recent" "ticket")), flaggedSession) := by
  have hdistinct : flaggedCatalog.TemplatesDistinct := by decide
  have hmine : "mine" ∈ (flaggedCatalog.templatesOf "ticket").map (·.id) := by decide
  have hrecent : "recent" ∉ (flaggedCatalog.templatesOf "ticket").map (·.id) := by decide
  exact ⟨hdistinct, rfl, hmine, hrecent,
    (setDefault_flags_one hdistinct rfl "ticket" "mine").1 hmine,
    (setDefault_flags_one hdistinct rfl "ticket" "recent").2 hrecent⟩

end Templates

end MetaQuery
