/-
  MetaQuery/Proofs/Service/Copies.lean
  ====================================
  Copies of templates, in a session that keeps its metadata in memory.

  A copy is stored behind all templates, and it and its conditions get ids that are handed out for
  them (`Templates.exec_duplicate`).  A query reads neither ids nor models of conditions, so chains
  that differ in nothing else are alike (`SameChain`), and alike chains stay alike when filters are
  put behind them.  So a listing that names the copy asks what one that names the original asks
  (`Templates.copy_queries_alike`).
-/
import MetaQuery.Pattern.Reader
import MetaQuery.Proofs.Catalog.Addressing
import MetaQuery.Proofs.Chain.Filters
import MetaQuery.Proofs.Service.Defaults

namespace MetaQuery

/-! ### What a query reads of conditions -/

/-- The condition without its id and its model. -/
def Condition.unowned (w : Condition) : Condition := { w with id := "", model := "" }

/-- As many conditions in the same order, which differ in their ids and models alone. -/
def SameChain (ws vs : List Condition) : Prop := ws.map (·.unowned) = vs.map (·.unowned)

theorem map_unowned_closeLast (ws : List Condition) :
    (closeLast ws).map (·.unowned) = closeLast (ws.map (·.unowned)) := by
  fun_induction closeLast ws with
  | case1 => rfl
  | case2 w => rfl
  | case3 w r hr ih =>
    obtain ⟨v, rest, rfl⟩ := List.exists_cons_of_ne_nil hr
    rw [List.map_cons, ih]
    rfl

theorem map_unowned_groupChain (ws : List Condition) :
    (groupChain ws).map (·.unowned) = groupChain (ws.map (·.unowned)) := by
  match ws with
  | [] => rfl
  | [w] => rfl
  | w :: v :: r =>
    rw [groupChain, List.map_cons, map_unowned_closeLast]
    rfl

theorem Model.chain_map_unowned (m : Model) (params : Params) (ws : List Condition) :
    m.chain params (ws.map (·.unowned)) = m.chain params ws := by
  cases ws with
  | nil => rfl
  | cons w r =>
    rw [List.map_cons, chain, chain, List.foldl_map]
    rfl

namespace SameChain

variable {ws vs : List Condition}

theorem behind (h : SameChain ws vs) (front : List Condition) :
    SameChain (front ++ ws) (front ++ vs) := by
  rw [SameChain, List.map_append, List.map_append, h]

theorem withFilters (h : SameChain ws vs) (added : List Condition) :
    SameChain (withFilters ws added) (withFilters vs added) := by
  unfold MetaQuery.withFilters
  split
  · exact h
  · rw [SameChain, List.map_append, List.map_append, map_unowned_groupChain,
      map_unowned_groupChain, h]

theorem chain_eq (h : SameChain ws vs) (m : Model) (params : Params) :
    m.chain params ws = m.chain params vs := by
  rw [← m.chain_map_unowned, h, m.chain_map_unowned]

theorem compile_eq (h : SameChain ws vs) (m : Model) (params : Params) :
    ({ m with conditions := ws } : Model).compile params =
      ({ m with conditions := vs } : Model).compile params := by
  cases hraw : m.isRaw with
  | true =>
    -- the text of a model written by hand has no chain
    have hcompile : ∀ conditions, ({ m with conditions } : Model).compile params =
        m.compileRaw params := fun conditions => if_pos hraw
    rw [hcompile, hcompile]
  | false =>
    rw [Model.compile_conditions hraw params ws, Model.compile_conditions hraw params vs,
      h.chain_eq]

theorem select_eq (h : SameChain ws vs) (m : Model) (params : Params) :
    ({ m with conditions := ws } : Model).select params =
      ({ m with conditions := vs } : Model).select params := by
  rw [Model.select, Model.select, h.compile_eq]

theorem listQuery_eq (h : SameChain ws vs) (settings : Settings) (r : ListRequest) (m : Model) :
    Rows.listQuery settings r { m with conditions := ws } =
      Rows.listQuery settings r { m with conditions := vs } := by
  rw [Rows.listQuery, Rows.listQuery, ListRequest.restrict_eq, ListRequest.restrict_eq]
  cases r.filters.mapM (·.condition) with
  | error fault => rfl
  | ok added => exact (h.withFilters added).select_eq m (r.compileParams settings m)

end SameChain

/-! ### Queries of requests -/

theorem Metadata.exec_template? {c : Catalog} {s : Session} (hstore : s.store = .memory c)
    {id : String} {t : Template} (ht : c.template? id = some t) :
    (template? id).exec s = (.ok (some t), s) := by
  rw [← ht]
  exact exec_ask_of_memory hstore

namespace Rows

open MetaQuery.Action

/-- The query of a request on a model that its template has been applied to, and where it is
    sent. -/
def queryFor (r : ListRequest) (m : Model) : Action (String × Select) := do
  let q ← Action.ofExcept (listQuery (← get).settings r m)
  return (m.connection, q)

def queryOf (model : String) (r : ListRequest) : Action (String × Select) := do
  let m ← Metadata.model model
  let m ← Templates.applyChosen model r.template m
  queryFor r m

/-- Rows are asked for with the query and nothing else of the request. -/
theorem list_eq (model : String) (r : ListRequest) :
    list model r = queryOf model r >>= fun (connection, q) => do
      let total ← Connection.count connection q
      let rows ← Connection.run connection q.statement
      return Page.of rows total q.window := by
  simp only [list, prepare, queryOf, queryFor, bind_assoc, pure_bind]

theorem count_eq (model : String) (r : ListRequest) :
    count model r = queryOf model r >>= fun (connection, q) => Connection.count connection q := by
  simp only [count, prepare, queryOf, queryFor, bind_assoc, pure_bind]

theorem exec_queryFor (r : ListRequest) (m : Model) (s : Session) :
    (queryFor r m).exec s = ((listQuery s.settings r m).map fun q => (m.connection, q), s) := by
  rw [queryFor, exec_get_bind]
  cases listQuery s.settings r m with
  | error fault => rfl
  | ok q => rfl

variable {c : Catalog} {s : Session} {t : Template}

theorem exec_queryOf (hstore : s.store = .memory c) (ht : c.template? t.id = some t)
    (model : String) (r : ListRequest) :
    (queryOf model { r with template := some t.id }).exec s =
      (c.model model >>= fun m =>
        (listQuery s.settings r (Templates.extend m t)).map fun q => (m.connection, q), s) := by
  have hfound := Metadata.exec_template? hstore ht
  have hmodel := Metadata.model_recalls c model s hstore
  cases hm : c.model model with
  | error fault =>
    rw [hm] at hmodel
    rw [queryOf, exec_bind_of_error hmodel]
    rfl
  | ok m =>
    have happly : (Templates.applyChosen model (some t.id) m).exec s =
        (.ok (Templates.extend m t), s) := by
      rw [Templates.applyChosen, Templates.apply, exec_bind_of_ok hfound]
      rfl
    rw [hm] at hmodel
    rw [queryOf, exec_bind_of_ok hmodel, exec_bind_of_ok happly, exec_queryFor]
    rfl

/-- In the session the two requests make one query, and they have one outcome. -/
structure AnsweredAlike (s : Session) (model : String) (r r' : ListRequest) : Prop where
  query : (queryOf model r).exec s = (queryOf model r').exec s
  list : (list model r).exec s = (list model r').exec s
  count : (count model r).exec s = (count model r').exec s

theorem answeredAlike_of_query {model : String} {r r' : ListRequest}
    (h : (queryOf model r).exec s = (queryOf model r').exec s) : AnsweredAlike s model r r' := by
  constructor
  · exact h
  · rw [list_eq, list_eq, exec_bind, exec_bind, h]
  · rw [count_eq, count_eq, exec_bind, exec_bind, h]

/-- It does not matter which of two templates with chains that are alike a request names. -/
theorem answeredAlike_of_sameChain (hstore : s.store = .memory c)
    (ht : c.template? t.id = some t) {u : Template} (hu : c.template? u.id = some u)
    (h : SameChain t.conditions u.conditions) (model : String) (r : ListRequest) :
    AnsweredAlike s model { r with template := some t.id } { r with template := some u.id } := by
  apply answeredAlike_of_query
  have hquery : ∀ m : Model, listQuery s.settings r (Templates.extend m t) =
      listQuery s.settings r (Templates.extend m u) := by
    intro m
    exact (h.behind m.conditions).listQuery_eq s.settings r m
  rw [exec_queryOf hstore ht, exec_queryOf hstore hu]
  simp only [hquery]

end Rows

/-! ### New ids -/

def Template.ids (t : Template) : List String := t.id :: t.conditions.map (·.id)

/-- What a copy is made from, before it has ids; the mark tells its code apart. -/
def Template.draft (t : Template) (mark : String) : Template :=
  { t with
    id := ""
    name := t.name ++ " - Copy"
    code := t.code ++ "_copy_" ++ mark
    isDefault := false }

def Catalog.ids (c : Catalog) : List String :=
  c.connections.map (·.id) ++ c.models.map (·.id) ++ c.tables.map (·.id) ++ c.fields.map (·.id) ++
    c.conditions.map (·.id) ++ c.joins.map (·.id) ++ c.havings.map (·.id) ++
    c.relations.map (·.id) ++ c.templates.flatMap (·.ids)

/-- Conditions under other ids, as those of a model. -/
def renamedChain (model : String) (ids : List String) (ws : List Condition) : List Condition :=
  (ids.zip ws).map fun p => { p.2 with id := p.1, model := model }

section Renaming

variable {model : String} {ids : List String} {ws : List Condition}

theorem map_id_renamedChain (h : ids.length = ws.length) :
    (renamedChain model ids ws).map (·.id) = ids := by
  rw [renamedChain, List.map_map]
  exact List.map_fst_zip (Nat.le_of_eq h)

theorem sameChain_renamedChain (h : ids.length = ws.length) :
    SameChain (renamedChain model ids ws) ws := by
  have hws : (ids.zip ws).map (·.2) = ws := List.map_snd_zip (Nat.le_of_eq h.symm)
  rw [SameChain, renamedChain, List.map_map]
  conv_rhs => rw [← hws, List.map_map]
  rfl

theorem model_of_mem_renamedChain {w : Condition} (h : w ∈ renamedChain model ids ws) :
    w.model = model := by
  obtain ⟨p, -, rfl⟩ := List.mem_map.1 h
  rfl

end Renaming

namespace Session

/-- Some of the ids of the session, in the order in which they are handed out. -/
def idsFrom (s : Session) (start n : Nat) : List String := (List.range' start n).map s.idAt

theorem length_idsFrom (s : Session) (start n : Nat) : (s.idsFrom start n).length = n := by
  rw [idsFrom, List.length_map, List.length_range']

theorem idsFrom_succ (s : Session) (start n : Nat) :
    s.idsFrom start (n + 1) = s.idAt start :: s.idsFrom (start + 1) n := by
  rw [idsFrom, List.range'_succ, List.map_cons, idsFrom]

/-- The template under the ids that the session hands out next. -/
def renewed (s : Session) (t : Template) : Template :=
  { t with
    id := s.idAt s.handedOut
    conditions := renamedChain t.model (s.idsFrom (s.handedOut + 1) t.conditions.length)
      t.conditions }

theorem ids_renewed (s : Session) (t : Template) :
    (s.renewed t).ids = s.idsFrom s.handedOut (t.conditions.length + 1) := by
  rw [idsFrom_succ, Template.ids, renewed, map_id_renamedChain (s.length_idsFrom _ _)]

/-- The copy of a template; the id that is handed out first marks its code. -/
def copyOf (s : Session) (t : Template) : Template :=
  { s with handedOut := s.handedOut + 1 }.renewed (t.draft (s.idAt s.handedOut))

theorem ids_copyOf (s : Session) (t : Template) :
    (s.copyOf t).ids = s.idsFrom (s.handedOut + 1) (t.conditions.length + 1) := by
  rw [copyOf, ids_renewed]
  rfl

end Session

/-! ### Copies -/

theorem Catalog.putTemplate_of_not_mem {t : Template} {ts : List Template}
    (h : t.id ∉ ts.map (·.id)) : putTemplate t ts = ts ++ [t] := by
  induction ts with
  | nil => rfl
  | cons u rest ih =>
    rw [List.map_cons, List.mem_cons, not_or] at h
    rw [putTemplate, if_neg (Ne.symm h.1), ih h.2]
    rfl

/-- The catalog with one more template, behind all others. -/
def Catalog.addTemplate (c : Catalog) (t : Template) : Catalog :=
  { c with templates := c.templates ++ [t] }

namespace Templates

open MetaQuery.Action

variable {c : Catalog} {s : Session} {t : Template}

theorem exec_freshId (s : Session) : freshId.exec s =
    (.ok (s.idAt s.handedOut), { s with handedOut := s.handedOut + 1 }) := rfl

theorem exec_renewConditions (model : String) (ws : List Condition) (s : Session) :
    (ws.mapM (renewCondition model)).exec s =
      (.ok (renamedChain model (s.idsFrom s.handedOut ws.length) ws),
        { s with handedOut := s.handedOut + ws.length }) := by
  induction ws generalizing s with
  | nil => rfl
  | cons w rest ih =>
    have hfirst : (renewCondition model w).exec s =
        (.ok { w with id := s.idAt s.handedOut, model := model },
          { s with handedOut := s.handedOut + 1 }) := rfl
    have hcount : s.handedOut + 1 + rest.length = s.handedOut + (rest.length + 1) := by omega
    rw [List.mapM_cons, exec_bind_of_ok hfirst, exec_bind_of_ok (ih _), List.length_cons,
      s.idsFrom_succ, hcount]
    rfl

theorem exec_create (hstore : s.store = .memory c) (hmodel : t.model ≠ "") :
    (create t).exec s = (.ok (s.renewed t), { s with
      store := .memory (c.saveTemplate (s.renewed t))
      handedOut := s.handedOut + (t.conditions.length + 1) }) := by
  have hcount : s.handedOut + 1 + t.conditions.length =
      s.handedOut + (t.conditions.length + 1) := by omega
  have hsave := Edit.exec_saveTemplate_of_memory (c := c)
    (s := { s with handedOut := s.handedOut + (t.conditions.length + 1) }) hstore (s.renewed t)
  rw [create, if_neg hmodel, exec_bind_of_ok (exec_freshId s),
    exec_bind_of_ok (exec_renewConditions t.model t.conditions _), hcount]
  change (Metadata.saveTemplate (s.renewed t) >>= fun _ => pure (s.renewed t)).exec _ = _
  rw [exec_bind_of_ok hsave]
  rfl

theorem exec_duplicate (hstore : s.store = .memory c) (ht : c.template? t.id = some t)
    (hmodel : t.model ≠ "") :
    (duplicate t.id).exec s = (.ok (s.copyOf t), { s with
      store := .memory (c.saveTemplate (s.copyOf t))
      handedOut := s.handedOut + (t.conditions.length + 2) }) := by
  have hfound := Metadata.exec_template? hstore ht
  have hcount : s.handedOut + 1 + (t.conditions.length + 1) =
      s.handedOut + (t.conditions.length + 2) := by omega
  have hcreate := exec_create (c := c) (s := { s with handedOut := s.handedOut + 1 })
    (t := t.draft (s.idAt s.handedOut)) hstore hmodel
  rw [duplicate, exec_bind_of_ok hfound]
  dsimp only
  rw [exec_bind_of_ok (exec_freshId s), ← hcount]
  exact hcreate

end Templates

/-- One template copies another one in a catalog: it belongs to the same model and is no default,
    its conditions say the same, and all of its ids are new. -/
structure Template.IsCopy (copy : Template) (c : Catalog) (t : Template) : Prop where
  model : copy.model = t.model
  notDefault : copy.isDefault = false
  conditions : SameChain copy.conditions t.conditions
  owned : ∀ w ∈ copy.conditions, w.model = t.model
  distinct : copy.ids.Nodup
  fresh : ∀ id ∈ copy.ids, id ∉ c.ids

namespace Catalog

variable {c : Catalog} {t u : Template}

theorem template?_of_mem (h : c.TemplatesDistinct) (ht : t ∈ c.templates) :
    c.template? t.id = some t :=
  (forall_find?_key_iff (List.Nodup.of_map _ h)).2 h t ht

theorem template?_addTemplate_of_mem (h : c.TemplatesDistinct) (ht : t ∈ c.templates) :
    (c.addTemplate u).template? t.id = some t := by
  have hfound := template?_of_mem h ht
  rw [template?] at hfound
  rw [template?, addTemplate, List.find?_append, hfound]
  rfl

theorem template?_addTemplate_self (h : u.id ∉ c.templates.map (·.id)) :
    (c.addTemplate u).template? u.id = some u := by
  have hnone : c.templates.find? (·.id == u.id) = none := by
    rw [List.find?_eq_none]
    intro v hv hid
    exact h (List.mem_map.2 ⟨v, hv, beq_iff_eq.1 hid⟩)
  rw [template?, addTemplate, List.find?_append, hnone]
  simp

theorem not_mem_of_new {id : String} (h : id ∉ c.ids) :
    id ∉ c.templates.map (·.id) := by
  intro hmem
  obtain ⟨v, hv, rfl⟩ := List.mem_map.1 hmem
  have hids : v.id ∈ c.templates.flatMap (·.ids) :=
    List.mem_flatMap.2 ⟨v, hv, List.mem_cons_self⟩
  exact h (List.mem_append_right _ hids)

end Catalog

/-- The next ids of the session are told apart, and none of them is in the catalog. -/
structure Session.HasNewIds (s : Session) (c : Catalog) (n : Nat) : Prop where
  distinct : (s.idsFrom s.handedOut n).Nodup
  fresh : ∀ id ∈ s.idsFrom s.handedOut n, id ∉ c.ids

theorem Session.isCopy_copyOf {s : Session} {c : Catalog} {t : Template}
    (h : s.HasNewIds c (t.conditions.length + 2)) : (s.copyOf t).IsCopy c t := by
  obtain ⟨hdistinct, hfresh⟩ := h
  -- the first new id is the copy's own, the others are its conditions'
  rw [idsFrom_succ] at hdistinct hfresh
  constructor
  · rfl
  · rfl
  · exact sameChain_renamedChain (s.length_idsFrom _ _)
  · intro w hw
    exact model_of_mem_renamedChain hw
  · rw [ids_copyOf]
    exact (List.nodup_cons.1 hdistinct).2
  · intro id hid
    rw [ids_copyOf] at hid
    exact hfresh id (List.mem_cons_of_mem _ hid)

namespace Templates

open MetaQuery.Action

variable {c : Catalog} {s : Session} {t : Template}

/-- **A copy queries like its original.**  The copy comes behind all templates, which stay as they
    are.  Whatever is listed or counted from then on, a request that names the copy makes the query
    that it makes when it names the original, so it sends the same and has the same outcome. -/
theorem copy_queries_alike (hstore : s.store = .memory c) (hids : c.TemplatesDistinct)
    (ht : t ∈ c.templates) (hmodel : t.model ≠ "")
    (hnew : s.HasNewIds c (t.conditions.length + 2)) :
    (duplicate t.id).exec s = (.ok (s.copyOf t), { s with
        store := .memory (c.addTemplate (s.copyOf t))
        handedOut := s.handedOut + (t.conditions.length + 2) }) ∧
      (s.copyOf t).IsCopy c t ∧
      ∀ (model : String) (r : ListRequest) (u : Session),
        u.store = .memory (c.addTemplate (s.copyOf t)) →
        Rows.AnsweredAlike u model { r with template := some (s.copyOf t).id }
          { r with template := some t.id } := by
  have hcopy := Session.isCopy_copyOf hnew
  have hid := Catalog.not_mem_of_new (hcopy.fresh _ List.mem_cons_self)
  have hsaved : c.saveTemplate (s.copyOf t) = c.addTemplate (s.copyOf t) := by
    rw [Catalog.saveTemplate, Catalog.putTemplate_of_not_mem hid, Catalog.addTemplate]
  refine ⟨?_, hcopy, ?_⟩
  · rw [← hsaved]
    exact exec_duplicate hstore (Catalog.template?_of_mem hids ht) hmodel
  · intro model r u hu
    exact Rows.answeredAlike_of_sameChain hu (Catalog.template?_addTemplate_self hid)
      (Catalog.template?_addTemplate_of_mem hids ht) hcopy.conditions model r

def recentNotes : Template where
  id := "recent"
  model := "note"
  name := "Recent"
  code := "recent"
  isDefault := true
  conditions := [
    { id := "r1", model := "note", opening := "(", column := "year", operator := ">",
      value := "2000" },
    { id := "r2", model := "note", connector := "OR", column := "state", param := "state",
      closing := ")" }]

def noteCatalog : Catalog where
  models := [{ id := "note", code := "notes" }]
  tables := [{ id := "t", model := "note", name := "notes" }]
  templates := [{ id := "all", model := "note" }, recentNotes]

def noteSession : Session where
  store := .memory noteCatalog
  rules := Pattern.read
  idAt := (["n1", "n2", "n3", "n4"].getD · "")

theorem recent_notes_copied :
    (noteSession.store = .memory noteCatalog ∧ noteCatalog.TemplatesDistinct ∧
      recentNotes ∈ noteCatalog.templates ∧ recentNotes.model ≠ "" ∧
      noteSession.HasNewIds noteCatalog (recentNotes.conditions.length + 2)) ∧
    (duplicate recentNotes.id).exec noteSession =
        (.ok (noteSession.copyOf recentNotes), { noteSession with
          store := .memory (noteCatalog.addTemplate (noteSession.copyOf recentNotes))
          handedOut := noteSession.handedOut + (recentNotes.conditions.length + 2) }) ∧
      (noteSession.copyOf recentNotes).IsCopy noteCatalog recentNotes ∧
      ∀ (model : String) (r : ListRequest) (u : Session),
        u.store = .memory (noteCatalog.addTemplate (noteSession.copyOf recentNotes)) →
        Rows.AnsweredAlike u model { r with template := some (noteSession.copyOf recentNotes).id }
          { r with template := some recentNotes.id } := by
  have hnew : noteSession.HasNewIds noteCatalog (recentNotes.conditions.length + 2) :=
    ⟨by decide, by decide⟩
  have hdistinct : noteCatalog.TemplatesDistinct := by decide
  have hlisted : recentNotes ∈ noteCatalog.templates := by decide
  have hmodel : recentNotes.model ≠ "" := by decide
  exact ⟨⟨rfl, hdistinct, hlisted, hmodel, hnew⟩,
    copy_queries_alike (s := noteSession) rfl hdistinct hlisted hmodel hnew⟩

end Templates

end MetaQuery
