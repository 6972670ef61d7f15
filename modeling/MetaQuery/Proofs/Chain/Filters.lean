/-
  MetaQuery/Proofs/Chain/Filters.lean
  ===================================
  Filters of a request behind the chain of a model.

  The chain is put into brackets and the filters follow it.  Filters that are joined by AND narrow
  it: a row passes when it passes the whole chain and every filter, whatever brackets and ORs the
  chain holds (`filters_narrow_chain`).  A filter may also be joined by OR.  It then starts an
  alternative, which lets rows pass that the chain keeps out; filters in front of the first OR
  still narrow the chain (`filters_narrow_or_widen`).
-/
import MetaQuery.Proofs.Chain.Wording
import MetaQuery.Proofs.Query.Composition
import MetaQuery.Proofs.Service.Sending

namespace MetaQuery

/-! ### Conditions of filters -/

theorem cons_of_mapM_ok {α β ε : Type} {f : α → Except ε β} {x : α} {xs : List α} {ys : List β}
    (h : (x :: xs).mapM f = .ok ys) : ∃ y zs, f x = .ok y ∧ xs.mapM f = .ok zs ∧ y :: zs = ys := by
  rw [List.mapM_cons] at h
  cases hx : f x with
  | error e =>
    rw [hx] at h
    cases h
  | ok y =>
    rw [hx] at h
    cases hxs : xs.mapM f with
    | error e =>
      rw [hxs] at h
      cases h
    | ok zs =>
      rw [hxs] at h
      exact ⟨y, zs, rfl, rfl, Except.ok.inj h⟩

/-- One item of a list left out of what the others are mapped to. -/
theorem insert_of_mapM_ok {α β ε : Type} {f : α → Except ε β} {x : α} {front back : List α}
    {ys : List β} (h : (front ++ x :: back).mapM f = .ok ys) :
    ∃ before y after, f x = .ok y ∧ ys = before ++ y :: after ∧
      (front ++ back).mapM f = .ok (before ++ after) := by
  induction front generalizing ys with
  | nil =>
    obtain ⟨y, after, hy, hafter, rfl⟩ := cons_of_mapM_ok h
    exact ⟨[], y, after, hy, rfl, hafter⟩
  | cons z front ih =>
    obtain ⟨w, ws, hw, hws, rfl⟩ := cons_of_mapM_ok h
    obtain ⟨before, y, after, hy, rfl, hrest⟩ := ih hws
    refine ⟨w :: before, y, after, hy, rfl, ?_⟩
    rw [List.cons_append, List.mapM_cons, hw, hrest]
    rfl

theorem mem_of_mapM_ok {α β ε : Type} {f : α → Except ε β} {xs : List α} {ys : List β}
    (h : xs.mapM f = .ok ys) : ys.length = xs.length ∧ ∀ y ∈ ys, ∃ x ∈ xs, f x = .ok y := by
  induction xs generalizing ys with
  | nil =>
    obtain rfl : [] = ys := Except.ok.inj h
    exact ⟨rfl, nofun⟩
  | cons x xs ih =>
    obtain ⟨y, zs, hy, hzs, rfl⟩ := cons_of_mapM_ok h
    obtain ⟨hlength, hmem⟩ := ih hzs
    refine ⟨by rw [List.length_cons, List.length_cons, hlength], fun z hz => ?_⟩
    rcases List.mem_cons.1 hz with rfl | hz
    · exact ⟨x, List.mem_cons_self, hy⟩
    · obtain ⟨x', hx', hf⟩ := hmem z hz
      exact ⟨x', List.mem_cons_of_mem x hx', hf⟩

/-- The filter is taken: it becomes a condition. -/
def Filter.Accepted (f : Filter) : Prop := f.condition.toBool = true

instance (f : Filter) : Decidable f.Accepted := inferInstanceAs (Decidable (_ = true))

theorem exists_of_accepted {fs : List Filter} (h : ∀ f ∈ fs, f.Accepted) :
    ∃ cs, fs.mapM (·.condition) = .ok cs := by
  induction fs with
  | nil => exact ⟨[], rfl⟩
  | cons f fs ih =>
    have hf : f.Accepted := h f List.mem_cons_self
    obtain ⟨cs, hcs⟩ := ih fun g hg => h g (List.mem_cons_of_mem f hg)
    cases hc : f.condition with
    | error fault =>
      rw [Filter.Accepted, hc] at hf
      cases hf
    | ok c =>
      refine ⟨c :: cs, ?_⟩
      rw [List.mapM_cons, hc, hcs]
      rfl

/-- A condition without brackets. -/
def Condition.IsBare (c : Condition) : Prop := c.opening = "" ∧ c.closing = ""

theorem Condition.IsBare.isPlain {c : Condition} (h : c.IsBare) : c.IsPlain := by
  rw [IsPlain, h.1, h.2]
  exact ⟨nofun, nofun⟩

theorem Condition.IsBare.words_eq {c : Condition} (h : c.IsBare) (i : Nat) :
    c.words i = [.fact i] := by
  rw [words, h.1, h.2]
  rfl

theorem Filter.ok_of_knownConnector {f : Filter} {k : String} (h : f.knownConnector = .ok k) :
    connectorText f.connector = k ∧ (k = "AND" ∨ k = "OR") := by
  dsimp only [knownConnector] at h
  split at h
  · next hk =>
    obtain rfl := Except.ok.inj h
    exact ⟨rfl, hk⟩
  · cases h

/-- What the condition of a filter has of the filter. -/
structure Filter.Makes (f : Filter) (c : Condition) : Prop where
  bare : c.IsBare
  connector : c.connector = connectorText f.connector
  joined : connectorText f.connector = "AND" ∨ connectorText f.connector = "OR"
  table : c.table = f.table
  function : c.function = ""
  operator : c.operator = operatorText f.operator
  value : c.value = (f.valueTexts (operatorText f.operator)).1
  param : c.param = ""
  known : operatorText f.operator ∈ filterOperators

theorem Filter.makes_of_condition {f : Filter} {c : Condition} (h : f.condition = .ok c) :
    f.Makes c := by
  unfold condition knownOperator at h
  split at h
  · cases h
  · dsimp only at h
    split at h
    -- the operator is known; the connector may still be refused
    · next hoperator =>
      cases hconnector : f.knownConnector with
      | error e =>
        rw [hconnector] at h
        cases h
      | ok k =>
        rw [hconnector] at h
        obtain ⟨rfl, hjoined⟩ := Filter.ok_of_knownConnector hconnector
        simp only [bind, Except.bind, pure, Except.pure, Except.ok.injEq] at h
        subst h
        refine ⟨⟨rfl, rfl⟩, ?_, hjoined, ?_, ?_, ?_, ?_, ?_, List.contains_iff_mem.1 hoperator⟩
        all_goals dsimp only
    · cases h

/-- The condition of a filter has no brackets and the connective of the filter. -/
theorem Filter.condition_ok {f : Filter} {c : Condition} (h : f.condition = .ok c) :
    c.IsBare ∧ c.IsLinked ∧
      (connectorText f.connector = "AND" → c.connective = .and) ∧
      (connectorText f.connector = "OR" → c.connective = .or) := by
  have hand : connectorText "AND" = "AND" := by decide
  have hor : connectorText "OR" = "OR" := by decide
  have hmade := Filter.makes_of_condition h
  refine ⟨hmade.bare, ?_, fun hf => ?_, fun hf => ?_⟩
  · rcases hmade.joined with hk | hk
    · exact .inl (by rw [hmade.connector, hk, hand])
    · exact .inr (by rw [hmade.connector, hk, hor])
  · simp [Condition.connective, hmade.connector, hf, hand]
  · simp [Condition.connective, hmade.connector, hf, hor]

/-- The chain of a model with the conditions of filters behind it. -/
def withFilters (chain added : List Condition) : List Condition :=
  if added.isEmpty then chain else groupChain chain ++ added

theorem ListRequest.restrict_of_mapM {r : ListRequest} {cs : List Condition}
    (h : r.filters.mapM (·.condition) = .ok cs) (m : Model) :
    r.restrict m = .ok { m with conditions := withFilters m.conditions cs } := by
  have hlength := (mem_of_mapM_ok h).1
  unfold restrict
  split
  -- without filters the model stays as it is, which is what no added conditions do
  · next hnone =>
    rw [List.isEmpty_iff.1 hnone, List.length_nil] at hlength
    rw [List.eq_nil_of_length_eq_zero hlength]
    rfl
  · next hsome =>
    have hne : cs.isEmpty = false := by
      rw [List.isEmpty_eq_false_iff, ← List.length_pos_iff, hlength, List.length_pos_iff]
      exact fun hnone => hsome (List.isEmpty_iff.2 hnone)
    rw [h, withFilters, hne]
    rfl

theorem ListRequest.restrict_eq (r : ListRequest) (m : Model) :
    r.restrict m = (r.filters.mapM (·.condition) : Except Fault (List Condition)).map fun added =>
      { m with conditions := withFilters m.conditions added } := by
  cases hadded : r.filters.mapM (·.condition) with
  | ok added => exact restrict_of_mapM hadded m
  | error fault =>
    unfold restrict
    split
    · next hnone =>
      rw [List.isEmpty_iff.1 hnone] at hadded
      cases hadded
    · rw [hadded]
      rfl

theorem ListRequest.restrict_ok {r : ListRequest} {m m' : Model} (h : r.restrict m = .ok m') :
    ∃ added, r.filters.mapM (·.condition) = .ok added ∧
      m' = { m with conditions := withFilters m.conditions added } := by
  rw [restrict_eq] at h
  cases hadded : r.filters.mapM (·.condition) with
  | error fault =>
    rw [hadded] at h
    cases h
  | ok added =>
    rw [hadded] at h
    exact ⟨added, rfl, (Except.ok.inj h).symm⟩

/-! ### The text behind WHERE -/

theorem putPredicate_of_filter {m : Model} {params : Params} {f : Filter} {c : Condition}
    (h : f.condition = .ok c) (p : Fragment) :
    m.putPredicate params p c = p.append (m.predicate params c) := by
  obtain ⟨⟨hopening, hclosing⟩, -⟩ := Filter.condition_ok h
  rw [Model.putPredicate, hopening, hclosing, Fragment.putText_empty, Fragment.putText_empty]

/-- The query with other predicates. -/
def Select.filtered (q : Select) (f : Fragment) : Select := { q with filter := f }

/-- A model with other conditions is compiled to the same query with other predicates. -/
theorem Model.compile_conditions {m : Model} (hraw : m.isRaw = false) (params : Params)
    (ws : List Condition) : ({ m with conditions := ws } : Model).compile params =
      (m.compile params).map fun q => q.filtered (m.chain params ws) := by
  have hraw' : ({ m with conditions := ws } : Model).isRaw = false := hraw
  have htarget : ({ m with conditions := ws } : Model).target = m.target := rfl
  have hwindow : ({ m with conditions := ws } : Model).window params = m.window params := rfl
  rw [compile, compile, hraw, hraw', if_neg (by decide), if_neg (by decide), compileEntries_eq,
    compileEntries_eq, htarget, hwindow]
  cases m.target with
  | error fault => rfl
  | ok source =>
    cases m.window params with
    | error fault => rfl
    | ok window => rfl

/-- The WHERE clause of a model of tables is its chain. -/
theorem Model.whereReads_of_select {m : Model} {params : Params} {q : Select}
    (hraw : m.isRaw = false) (hne : m.conditions ≠ []) (hplain : PlainChain m.conditions)
    (h : m.select params = .ok q) :
    q.WhereReads (m.conditions.map (m.predicate params)) (chainWords m.conditions) := by
  obtain ⟨-, hfilter, hrequired⟩ := clauses_of_compile hraw (select_eq_ok_iff.1 h).1
  intro st
  have hwrite := m.write_chain params hplain [] (st.put " WHERE ")
  rw [List.append_nil] at hwrite
  simp [Select.writeWhere, hfilter, hrequired, m.isEmpty_chain params hne, hwrite]

section Grouping

variable {β : Type} {g : Condition → β}

theorem map_closeLast (hclose : ∀ w : Condition, g { w with closing := w.closing ++ ")" } = g w)
    (ws : List Condition) : (closeLast ws).map g = ws.map g := by
  fun_induction closeLast ws with
  | case1 => rfl
  | case2 w => rw [List.map_singleton, List.map_singleton, hclose]
  | case3 w r hr ih => rw [List.map_cons, ih, List.map_cons]

/-- Brackets around a chain change nothing but brackets. -/
theorem map_groupChain (hopen : ∀ w : Condition, g { w with opening := "(" ++ w.opening } = g w)
    (hclose : ∀ w : Condition, g { w with closing := w.closing ++ ")" } = g w)
    (ws : List Condition) : (groupChain ws).map g = ws.map g := by
  fun_cases groupChain ws with
  | case1 w v r =>
    rw [List.map_cons, hopen, map_closeLast hclose]
    rfl
  | case2 => rfl

theorem map_withFilters (hopen : ∀ w : Condition, g { w with opening := "(" ++ w.opening } = g w)
    (hclose : ∀ w : Condition, g { w with closing := w.closing ++ ")" } = g w)
    (chain added : List Condition) :
    (withFilters chain added).map g = (chain ++ added).map g := by
  unfold withFilters
  split
  · next hnone => rw [List.isEmpty_iff.1 hnone, List.append_nil]
  · rw [List.map_append, map_groupChain hopen hclose, List.map_append]

end Grouping

theorem map_predicate_withFilters (m : Model) (params : Params) (chain added : List Condition) :
    (withFilters chain added).map (m.predicate params) =
      (chain ++ added).map (m.predicate params) :=
  map_withFilters (fun _ => rfl) (fun _ => rfl) chain added

theorem Condition.IsPlain.closed {w : Condition} (h : w.IsPlain) :
    ({ w with closing := w.closing ++ ")" } : Condition).IsPlain := by
  refine ⟨h.1, fun c hc => ?_⟩
  rw [String.toList_append] at hc
  rcases List.mem_append.1 hc with hc | hc
  · exact h.2 c hc
  · simpa using hc

theorem Condition.IsPlain.opened {w : Condition} (h : w.IsPlain) :
    ({ w with opening := "(" ++ w.opening } : Condition).IsPlain := by
  refine ⟨fun c hc => ?_, h.2⟩
  rw [String.toList_append] at hc
  rcases List.mem_append.1 hc with hc | hc
  · simpa using hc
  · exact h.1 c hc

theorem mem_closeLast {ws : List Condition} {w : Condition} (h : w ∈ closeLast ws) :
    ∃ v ∈ ws, w = v ∨ w = { v with closing := v.closing ++ ")" } := by
  fun_induction closeLast ws with
  | case1 => cases h
  | case2 v => exact ⟨v, List.mem_cons_self, .inr (List.mem_singleton.1 h)⟩
  | case3 v r hr ih =>
    rcases List.mem_cons.1 h with rfl | h
    · exact ⟨w, List.mem_cons_self, .inl rfl⟩
    · obtain ⟨u, hu, hw⟩ := ih h
      exact ⟨u, List.mem_cons_of_mem v hu, hw⟩

theorem PlainChain.groupChain {ws : List Condition} (h : PlainChain ws) :
    PlainChain (groupChain ws) := by
  fun_cases MetaQuery.groupChain ws with
  | case2 => exact h
  | case1 w v r =>
    -- closing changes the last condition alone, and only its brackets
    have hclosed : ∀ u ∈ closeLast (v :: r), u.IsPlain ∧ u.IsLinked := by
      intro u hu
      obtain ⟨x, hx, hsame | hsame⟩ := mem_closeLast hu
      · rw [hsame]
        exact ⟨h.plain x (List.mem_cons_of_mem w hx), h.linked x hx⟩
      · rw [hsame]
        exact ⟨(h.plain x (List.mem_cons_of_mem w hx)).closed, h.linked x hx⟩
    constructor
    · intro u hu
      rcases List.mem_cons.1 hu with rfl | hu
      · exact (h.plain w List.mem_cons_self).opened
      · exact (hclosed u hu).1
    · exact fun u hu => (hclosed u hu).2

theorem PlainChain.withFilters {chain added : List Condition} (h : PlainChain chain)
    (hbare : ∀ c ∈ added, c.IsBare) (hlinked : ∀ c ∈ added, c.IsLinked) :
    PlainChain (withFilters chain added) := by
  unfold MetaQuery.withFilters
  split
  · exact h
  · have hgroup := h.groupChain
    constructor
    · intro w hw
      rcases List.mem_append.1 hw with hw | hw
      · exact hgroup.plain w hw
      · exact (hbare w hw).isPlain
    · intro w hw
      -- the first filter is linked only behind a chain; without one its connector is not written
      cases hchain : MetaQuery.groupChain chain with
      | nil =>
        rw [hchain] at hw
        exact hlinked w (List.mem_of_mem_tail hw)
      | cons v r =>
        rw [hchain] at hw hgroup
        rcases List.mem_append.1 hw with hw | hw
        · exact hgroup.linked w hw
        · exact hlinked w hw

/-! ### What filters make of a chain -/

/-- The connectives of filters, with the positions of their predicates behind `n` others. -/
def filterLinks : Nat → List Condition → List (Connective × Nat)
  | _, [] => []
  | n, c :: r => (c.connective, n) :: filterLinks (n + 1) r

theorem linkedWords_of_isBare {added : List Condition} (h : ∀ c ∈ added, c.IsBare) (n : Nat) :
    linkedWords n added = linkWords (filterLinks n added) := by
  induction added generalizing n with
  | nil => rfl
  | cons c r ih =>
    have hrest := ih (fun d hd => h d (List.mem_cons_of_mem c hd)) (n + 1)
    rw [linkedWords, (h c List.mem_cons_self).words_eq, hrest, filterLinks, linkWords, linkWords,
      List.flatMap_cons, List.singleton_append, List.cons_append, List.singleton_append]

theorem length_groupChain (ws : List Condition) : (groupChain ws).length = ws.length := by
  have hclose : ∀ vs : List Condition, (closeLast vs).length = vs.length := by
    intro vs
    fun_induction closeLast vs with
    | case1 => rfl
    | case2 v => rfl
    | case3 v r hr ih => rw [List.length_cons, ih, List.length_cons]
  fun_cases groupChain ws with
  | case1 w v r => rw [List.length_cons, hclose]; rfl
  | case2 => rfl

theorem length_withFilters (chain added : List Condition) :
    (withFilters chain added).length = chain.length + added.length := by
  unfold withFilters
  split
  · next hnone => rw [List.isEmpty_iff.1 hnone]; rfl
  · rw [List.length_append, length_groupChain]

/-- Filters behind a chain: those in front of the first OR narrow the chain, and each OR starts an
    alternative. -/
theorem truth?_withFilters {chain added : List Condition} (hchain : NestedChain chain)
    (hne : chain ≠ []) (hbare : ∀ c ∈ added, c.IsBare) (v : Nat → Bool) :
    ∃ b, truth? v (chainWords chain) = some b ∧
      truth? v (chainWords (withFilters chain added)) =
        some ((b && (runs (filterLinks chain.length added)).1.all v) ||
          (runs (filterLinks chain.length added)).2.any (·.all v)) := by
  obtain ⟨f, hwords, htruth⟩ := exists_factor hchain hne
  refine ⟨f.holds v, htruth v, ?_⟩
  unfold withFilters
  split
  · next hnone =>
    rw [htruth v, List.isEmpty_iff.1 hnone]
    simp [filterLinks, runs]
  · have hgroup : groupChain chain ≠ [] := by
      intro h
      exact hne (List.eq_nil_of_length_eq_zero (by rw [← length_groupChain, h, List.length_nil]))
    rw [chainWords_append hgroup, ← hwords, length_groupChain, linkedWords_of_isBare hbare]
    exact truth?_factor_append v f _

theorem runs_filterLinks {added : List Condition} (h : ∀ c ∈ added, c.connective = .and)
    (n : Nat) : runs (filterLinks n added) = (List.range' n added.length, []) := by
  induction added generalizing n with
  | nil => rfl
  | cons c r ih =>
    rw [filterLinks, h c List.mem_cons_self, runs,
      ih (fun d hd => h d (List.mem_cons_of_mem c hd)) (n + 1)]
    rfl

/-- Filters joined by AND hold together with what they follow; with no chain, with each other. -/
theorem truth?_withFilters_of_and {chain added : List Condition} (hchain : NestedChain chain)
    (hadded : added ≠ []) (hbare : ∀ c ∈ added, c.IsBare)
    (hand : ∀ c ∈ added, c.connective = .and) (v : Nat → Bool) :
    ∃ b, truth? v (chainWords chain) = some b ∧
      truth? v (chainWords (withFilters chain added)) =
        some (b && (List.range' chain.length added.length).all v) := by
  by_cases hne : chain = []
  · -- the first filter stands where the chain would, so its connector is not used
    cases added with
    | nil => exact absurd rfl hadded
    | cons c r =>
      refine ⟨true, by rw [hne]; rfl, ?_⟩
      have hrest := truth?_factor_append v (.fact 0) (filterLinks 1 r)
      rw [runs_filterLinks fun d hd => hand d (List.mem_cons_of_mem c hd)] at hrest
      rw [hne, withFilters, if_neg (by simp)]
      change truth? v (c.words 0 ++ linkedWords 1 r) = _
      rw [(hbare c List.mem_cons_self).words_eq,
        linkedWords_of_isBare fun d hd => hbare d (List.mem_cons_of_mem c hd)]
      refine hrest.trans ?_
      simp [Formula.holds, List.range'_succ]
  · obtain ⟨b, hb, htruth⟩ := truth?_withFilters hchain hne hbare v
    rw [runs_filterLinks hand] at htruth
    refine ⟨b, hb, htruth.trans ?_⟩
    simp

/-! ### Listings -/

namespace Rows

theorem listQuery_of_restrict {settings : Settings} {r : ListRequest} {m m' : Model}
    (h : r.restrict m = .ok m') :
    listQuery settings r m = m'.select (r.compileParams settings m') := by
  rw [listQuery, h]
  rfl

/-- The WHERE clause of a listing is the chain of its model with the conditions of its filters
    behind it. -/
theorem whereReads_of_prepare {model : String} {r : ListRequest} {s t : Session} {m : Model}
    {q : Select} (hrun : (prepare model r).exec s = (.ok (m, q), t)) (hraw : m.isRaw = false)
    (hchain : PlainChain m.conditions) (hne : m.conditions ≠ [] ∨ r.filters ≠ []) :
    ∃ added, r.filters.mapM (·.condition) = .ok added ∧
      q.WhereReads ((m.conditions ++ added).map (m.predicate (r.compileParams t.settings m)))
        (chainWords (withFilters m.conditions added)) := by
  obtain ⟨-, -, -, -, hquery⟩ := ok_of_prepare hrun
  cases hrestrict : r.restrict m with
  | error e =>
    rw [listQuery, hrestrict] at hquery
    cases hquery
  | ok m' =>
    rw [listQuery_of_restrict hrestrict] at hquery
    obtain ⟨added, hadded, rfl⟩ := ListRequest.restrict_ok hrestrict
    obtain ⟨hlength, hmem⟩ := mem_of_mapM_ok hadded
    refine ⟨added, hadded, ?_⟩
    have hplain : PlainChain (withFilters m.conditions added) := by
      refine hchain.withFilters (fun c hc => ?_) fun c hc => ?_
      · obtain ⟨f, -, hf⟩ := hmem c hc
        exact (Filter.condition_ok hf).1
      · obtain ⟨f, -, hf⟩ := hmem c hc
        exact (Filter.condition_ok hf).2.1
    -- with an empty chain and no filter there is no WHERE to read
    have hsome : withFilters m.conditions added ≠ [] := by
      rw [← List.length_pos_iff, length_withFilters, hlength]
      rcases hne with hne | hne
      · exact Nat.add_pos_left (List.length_pos_iff.2 hne) _
      · exact Nat.add_pos_right _ (List.length_pos_iff.2 hne)
    have hreads := Model.whereReads_of_select
      (m := { m with conditions := withFilters m.conditions added }) hraw hsome hplain hquery
    rw [← map_predicate_withFilters]
    exact hreads

/-! ### Filters on tickets -/

/-- Tickets that are somebody's own or open. -/
def tickets : Model where
  entry := { id := "ticket", code := "ticket", connection := "main" }
  tables := [{ id := "t", model := "ticket", name := "tickets" }]
  fields := []
  dialect := .mysql
  conditions := [
    { model := "ticket", column := "owner", value := "ann" },
    { model := "ticket", connector := "OR", column := "state", value := "open" }]

theorem tickets_nested : NestedChain tickets.conditions :=
  ⟨⟨by decide, by decide⟩, by decide⟩

def ticketsWith (ws : List Condition) : Model := { tickets with conditions := ws }

/-- The query for those tickets. -/
def ticketQuery (ws : List Condition) : Select :=
  { Select.all .mysql (.ofText "`tickets`") with filter := (ticketsWith ws).chain [] ws }

theorem compile_ticketsWith (ws : List Condition) :
    (ticketsWith ws).compile [] = .ok (ticketQuery ws) :=
  Model.compile_of_no_joins rfl rfl rfl rfl

/-- A request with a filter for urgent tickets. -/
def urgent (connector : String) : ListRequest where
  filters := [{ column := "urgent", value := .str "yes", connector := connector }]

def urgentCondition (connector : String) : Condition where
  connector := connector
  column := "urgent"
  operator := "="
  value := "yes"

/-- The chain of the tickets with that condition behind it. -/
def urgentChain (connector : String) : List Condition :=
  withFilters tickets.conditions [urgentCondition connector]

theorem prepare_urgent {given connector : String}
    (hrestrict : (urgent given).restrict tickets = .ok (ticketsWith (urgentChain connector)))
    (hsafe : Raw.checkSafe (ticketQuery (urgentChain connector)).statement.text = .ok ()) :
    (prepare "ticket" (urgent given)).exec tickets.session =
      (.ok (tickets, ticketQuery (urgentChain connector)), tickets.session) := by
  have hparams : (urgent given).compileParams {} (ticketsWith (urgentChain connector)) = [] := rfl
  have hquery : listQuery {} (urgent given) tickets =
      .ok (ticketQuery (urgentChain connector)) := by
    rw [listQuery_of_restrict hrestrict, hparams]
    exact Model.select_eq_ok_iff.2 ⟨compile_ticketsWith _, hsafe⟩
  exact exec_prepare rfl (Templates.exec_applyChosen_of_memory rfl rfl _) hquery

theorem prepare_urgent_and :
    (prepare "ticket" (urgent "")).exec tickets.session =
      (.ok (tickets, ticketQuery (urgentChain "AND")), tickets.session) :=
  prepare_urgent (by decide) (by decide)

theorem prepare_urgent_or :
    (prepare "ticket" (urgent "or")).exec tickets.session =
      (.ok (tickets, ticketQuery (urgentChain "OR")), tickets.session) :=
  prepare_urgent (by decide) (by decide)

section Prepared

variable {model : String} {r : ListRequest} {s t : Session} {m : Model} {q : Select}

/-- **Filters joined by AND narrow a chain as a whole.**  In a listing with such filters, the WHERE
    clause is true just when the chain of the model, with the conditions of its template, is true
    and all filters are. -/
theorem filters_narrow_chain (hrun : (prepare model r).exec s = (.ok (m, q), t))
    (hraw : m.isRaw = false) (hchain : NestedChain m.conditions) (hfilters : r.filters ≠ [])
    (hand : ∀ f ∈ r.filters, connectorText f.connector = "AND") :
    ∃ added, r.filters.mapM (·.condition) = .ok added ∧
      q.WhereReads ((m.conditions ++ added).map (m.predicate (r.compileParams t.settings m)))
        (chainWords (withFilters m.conditions added)) ∧
      ∀ v, ∃ b, truth? v (chainWords m.conditions) = some b ∧
        truth? v (chainWords (withFilters m.conditions added)) =
          some (b && (List.range' m.conditions.length added.length).all v) := by
  obtain ⟨added, hadded, hreads⟩ :=
    whereReads_of_prepare hrun hraw hchain.toPlainChain (.inr hfilters)
  obtain ⟨hlength, hmem⟩ := mem_of_mapM_ok hadded
  have hsome : added ≠ [] := by
    rw [← List.length_pos_iff, hlength]
    exact List.length_pos_iff.2 hfilters
  refine ⟨added, hadded, hreads, ?_⟩
  refine truth?_withFilters_of_and hchain hsome (fun c hc => ?_) fun c hc => ?_
  · obtain ⟨f, -, hf⟩ := hmem c hc
    exact (Filter.condition_ok hf).1
  · obtain ⟨f, hfilter, hf⟩ := hmem c hc
    exact (Filter.condition_ok hf).2.2.1 (hand f hfilter)

theorem urgent_narrows_tickets :
    (ticketQuery (urgentChain "AND")).statement.text =
      "SELECT * FROM `tickets` WHERE (`owner` = ? OR `state` = ?) AND `urgent` = ?" ∧
    ∀ v, ∃ b, truth? v (chainWords tickets.conditions) = some b ∧
      truth? v (chainWords (urgentChain "AND")) = some (b && v 2) := by
  obtain ⟨added, hadded, -, htruth⟩ := filters_narrow_chain prepare_urgent_and rfl tickets_nested
    (by decide) (by decide +kernel)
  have hconditions : (urgent "").filters.mapM (·.condition) =
      .ok [urgentCondition "AND"] := by
    decide +kernel
  obtain rfl := Except.ok.inj (hadded.symm.trans hconditions)
  refine ⟨by decide +kernel, fun v => ?_⟩
  obtain ⟨b, hb, hv⟩ := htruth v
  exact ⟨b, hb, hv.trans (by simp [tickets])⟩

/-- **Filters narrow a chain up to the first OR; from there on they are alternatives.**  In a
    listing, the WHERE clause is true just when the chain of the model and all filters in front of
    the first OR are true, or else when all filters from one OR up to the next are. -/
theorem filters_narrow_or_widen (hrun : (prepare model r).exec s = (.ok (m, q), t))
    (hraw : m.isRaw = false) (hchain : NestedChain m.conditions) (hne : m.conditions ≠ []) :
    ∃ added, r.filters.mapM (·.condition) = .ok added ∧
      q.WhereReads ((m.conditions ++ added).map (m.predicate (r.compileParams t.settings m)))
        (chainWords (withFilters m.conditions added)) ∧
      ∀ v, ∃ b, truth? v (chainWords m.conditions) = some b ∧
        truth? v (chainWords (withFilters m.conditions added)) =
          some ((b && (runs (filterLinks m.conditions.length added)).1.all v) ||
            (runs (filterLinks m.conditions.length added)).2.any (·.all v)) := by
  obtain ⟨added, hadded, hreads⟩ :=
    whereReads_of_prepare hrun hraw hchain.toPlainChain (.inl hne)
  obtain ⟨-, hmem⟩ := mem_of_mapM_ok hadded
  refine ⟨added, hadded, hreads, truth?_withFilters hchain hne fun c hc => ?_⟩
  obtain ⟨f, -, hf⟩ := hmem c hc
  exact (Filter.condition_ok hf).1

theorem urgent_or_tickets :
    (ticketQuery (urgentChain "OR")).statement.text =
      "SELECT * FROM `tickets` WHERE (`owner` = ? OR `state` = ?) OR `urgent` = ?" ∧
    ∀ v, ∃ b, truth? v (chainWords tickets.conditions) = some b ∧
      truth? v (chainWords (urgentChain "OR")) = some (b || v 2) := by
  obtain ⟨added, hadded, -, htruth⟩ :=
    filters_narrow_or_widen prepare_urgent_or rfl tickets_nested (by decide)
  have hconditions : (urgent "or").filters.mapM (·.condition) =
      .ok [urgentCondition "OR"] := by
    decide +kernel
  obtain rfl := Except.ok.inj (hadded.symm.trans hconditions)
  refine ⟨by decide +kernel, fun v => ?_⟩
  obtain ⟨b, hb, hv⟩ := htruth v
  refine ⟨b, hb, hv.trans ?_⟩
  -- the OR starts a run of its own, with the filter alone in it
  have hruns : runs (filterLinks tickets.conditions.length [urgentCondition "OR"]) =
      ([], [[2]]) := by
    decide +kernel
  rw [hruns]
  simp

/-- A filter joined by OR shows tickets that are neither the asker's nor open. -/
theorem urgent_widens_tickets :
    (prepare "ticket" (urgent "or")).exec tickets.session =
      (.ok (tickets, ticketQuery (urgentChain "OR")), tickets.session) ∧
    tickets.isRaw = false ∧ NestedChain tickets.conditions ∧
    (ticketQuery (urgentChain "OR")).WhereReads
      ((urgentChain "OR").map ((ticketsWith (urgentChain "OR")).predicate []))
      (chainWords (urgentChain "OR")) ∧
    ∃ v, truth? v (chainWords (urgentChain "OR")) = some true ∧
      truth? v (chainWords tickets.conditions) = some false := by
  have hplain : PlainChain (urgentChain "OR") := ⟨by decide, by decide⟩
  have hsafe : Raw.checkSafe (ticketQuery (urgentChain "OR")).statement.text = .ok () := by
    decide +kernel
  have hselect := Model.select_eq_ok_iff.2 ⟨compile_ticketsWith (urgentChain "OR"), hsafe⟩
  refine ⟨prepare_urgent_or, rfl, tickets_nested,
    Model.whereReads_of_select rfl (by decide) hplain hselect, (· == 2), ?_, ?_⟩
  · decide +kernel
  · decide +kernel

end Prepared

end Rows

end MetaQuery
