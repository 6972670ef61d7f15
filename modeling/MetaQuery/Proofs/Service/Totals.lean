/-
  MetaQuery/Proofs/Service/Totals.lean
  ====================================
  The number of all rows does not depend on the page.

  The page and the page size of a request travel in the parameters that its model is compiled with,
  under two names.  A model that names neither of them reads the same values whatever the page is
  (`listQuery_agree`), so all pages of a request have one query for the number of rows.  Counting
  sends that query and nothing else, and listing sends it before the query for the rows
  (`sent_count`, `sent_list`).
-/
import MetaQuery.Proofs.Chain.Filters
import MetaQuery.Proofs.Query.Names
import MetaQuery.Proofs.Service.Pages

namespace MetaQuery

/-! ### What is sent, in order -/

namespace Action

variable {α β : Type} {a : Action α} {f : α → Action β} {s t : Session}

/-- The statements that the operation sends to the datasources of connections, in order. -/
def sent (a : Action α) (s : Session) : List Sent :=
  ((a.exec s).2.events.drop s.events.length).filterMap Event.sent?

theorem sent_of_log {log : List Event} (h : (a.exec s).2.events = s.events ++ log) :
    a.sent s = log.filterMap Event.sent? := by
  rw [sent, h, List.drop_left]

theorem sent_bind_of_ok {x : α} (ha : a.Steady) (hf : (f x).Steady) (h : a.exec s = (.ok x, t)) :
    (a >>= f).sent s = a.sent s ++ (f x).sent t := by
  obtain ⟨first, hfirst⟩ := (ha s).log
  obtain ⟨rest, hrest⟩ := (hf t).log
  rw [sent_of_log hfirst, sent_of_log hrest, ← List.filterMap_append]
  refine sent_of_log ?_
  rw [h] at hfirst
  rw [exec_bind_of_ok h, hrest, hfirst, List.append_assoc]

theorem sent_bind_of_error {e : Fault} (h : a.exec s = (.error e, t)) :
    (a >>= f).sent s = a.sent s := by
  rw [sent, sent, exec_bind_of_error h, h]

theorem SendsOnly.sent_eq_nil (ha : a.SendsOnly fun _ => False) (s : Session) :
    a.sent s = [] := by
  obtain ⟨log, hlog, hkind, -⟩ := ha s
  rw [sent_of_log hlog, List.filterMap_eq_nil_iff]
  intro ev hev
  rw [Option.eq_none_iff_forall_ne_some]
  exact fun x hx => hkind ev hev x hx

/-- Putting an outcome into an answer sends nothing. -/
theorem sent_bind_pure (ha : a.Steady) (answer : α → β) (s : Session) :
    (a >>= fun y => pure (answer y)).sent s = a.sent s := by
  rcases hrun : a.exec s with ⟨r, t⟩
  cases r with
  | error e => exact sent_bind_of_error hrun
  | ok y =>
    have hpure : (pure (answer y) : Action β).sent t = [] := SendsOnly.sent_eq_nil (emits_pure _) t
    rw [sent_bind_of_ok (f := fun y => pure (answer y)) ha (steady_pure _) hrun, hpure,
      List.append_nil]

end Action

open MetaQuery.Action

/-- The datasource of a connection is open, or can be opened. -/
def Connection.Opens (connection : String) (s : Session) : Prop :=
  ((ensureOpen connection).exec s).1 = .ok ()

theorem Connection.ensureOpen_sendsNothing (connection : String) :
    (ensureOpen connection).SendsOnly fun _ => False := by
  refine (ensureOpen_opens connection).mono fun ev hev x hx => ?_
  rw [hev.sent?_eq] at hx
  cases hx

/-- A statement run by itself is sent once its datasource is open, and only then. -/
theorem Connection.sent_run (connection : String) (st : Statement) (s : Session) :
    (Opens connection s → (run connection st).sent s = [(connection, st.text, st.args)]) ∧
      (¬Opens connection s → (run connection st).sent s = []) := by
  have hsteady : ∀ reply, (recordsOf st.text reply).Steady := by
    intro reply
    exact steady_of_still fun s => by rw [exec_recordsOf]
  have hbehind : (send (.data connection) false st.text st.args >>= recordsOf st.text).Steady :=
    (steady_send _ _ _ _).bind hsteady
  rcases hrun : (ensureOpen connection).exec s with ⟨r, t⟩
  cases r with
  | error e =>
    refine ⟨fun hopens => ?_, fun _ => ?_⟩
    · rw [Opens, hrun] at hopens
      cases hopens
    · rw [run, runText, sent_bind_of_error hrun]
      exact (ensureOpen_sendsNothing connection).sent_eq_nil s
  | ok u =>
    refine ⟨fun _ => ?_, fun hcloses => absurd (by rw [Opens, hrun]) hcloses⟩
    rw [run, runText, sent_bind_of_ok (ensureOpen_steady connection) hbehind hrun,
      (ensureOpen_sendsNothing connection).sent_eq_nil, List.nil_append]
    -- an open connection sends the statement once, whatever is answered
    have hlog : ((send (.data connection) false st.text st.args >>=
        recordsOf st.text).exec t).2.events = t.events ++
          [.executed (.data connection) false st.text st.args t.answers.next.1] := by
      rw [exec_bind_of_ok (exec_send ..), exec_recordsOf]
    exact sent_of_log hlog

/-- A datasource that answered a statement is open. -/
theorem Connection.opened_of_run {connection : String} {st : Statement} {s t : Session}
    {rows : List Record} (h : (run connection st).exec s = (.ok rows, t)) :
    Opens connection s ∧ Opens connection t := by
  obtain ⟨_, u, hopens, hrest⟩ := ok_of_exec_bind h
  obtain ⟨reply, v, hsend, hrecords⟩ := ok_of_exec_bind hrest
  obtain ⟨hreply, rfl⟩ := Prod.mk.inj (hsend.symm.trans (exec_send ..))
  rw [exec_recordsOf] at hrecords
  obtain ⟨-, rfl⟩ := Prod.mk.inj hrecords
  have hopen := opened_of_ensureOpen hopens
  exact ⟨by rw [Opens, hopens], by rw [Opens, exec_ensureOpen (by exact hopen)]⟩

/-! ### Requests for pages -/

/-- Two requests differ at most in the page and in the page size. -/
structure ListRequest.SameButPage (r r' : ListRequest) : Prop where
  template : r'.template = r.template
  filters : r'.filters = r.filters
  params : r'.params = r.params

/-- A model does not name the parameters that choose the page. -/
def Model.PageFree (m : Model) : Prop := "page" ∉ m.params ∧ "page_size" ∉ m.params

/-- The page and the page size are all that a request adds to its parameters. -/
theorem ListRequest.lookup_compileParams_of_ne (r : ListRequest) (settings : Settings) (m : Model)
    {k : String} (hpage : k ≠ "page") (hsize : k ≠ "page_size") :
    Json.lookup k (r.compileParams settings m) = Json.lookup k r.params := by
  unfold compileParams
  cases r.page <;> cases r.chosenSize settings m <;>
    simp [Json.lookup_put_of_ne hpage, Json.lookup_put_of_ne hsize]

theorem ListRequest.SameButPage.agreeOn {r r' : ListRequest} (h : r.SameButPage r') {m : Model}
    (hfree : m.PageFree) (settings settings' : Settings) (n n' : Model) :
    Params.AgreeOn m.params (r.compileParams settings n) (r'.compileParams settings' n') := by
  intro k hk
  have hpage : k ≠ "page" := fun heq => hfree.1 (heq ▸ hk)
  have hsize : k ≠ "page_size" := fun heq => hfree.2 (heq ▸ hk)
  rw [lookup_compileParams_of_ne _ _ _ hpage hsize, lookup_compileParams_of_ne _ _ _ hpage hsize,
    h.params]

/-- Filters name no parameters. -/
theorem ListRequest.params_of_restrict {r : ListRequest} {m m' : Model}
    (h : r.restrict m = .ok m') : m'.params = m.params := by
  obtain ⟨added, hadded, rfl⟩ := restrict_ok h
  -- a filter's condition is bound by value and names no parameter
  have hnone : (added.map (·.param)).filter (· ≠ "") = [] := by
    rw [List.filter_eq_nil_iff]
    intro k hk
    obtain ⟨c, hc, rfl⟩ := List.mem_map.1 hk
    obtain ⟨f, -, hf⟩ := (mem_of_mapM_ok hadded).2 c hc
    simpa using (Filter.makes_of_condition hf).param
  have hconditions : (withFilters m.conditions added).map (·.param) =
      (m.conditions ++ added).map (·.param) :=
    map_withFilters (fun _ => rfl) (fun _ => rfl) m.conditions added
  have hnames : ({ m with conditions := withFilters m.conditions added } : Model).conditionParams =
      m.conditionParams := by
    simp only [Model.conditionParams, List.map_append, hconditions, List.filter_append, hnone,
      List.append_nil]
  rw [Model.params, hnames]
  rfl

namespace Rows

variable {model : String} {r r' : ListRequest} {s s' t t' : Session} {m m' : Model} {q q' : Select}

/-- The statement that asks for the number of rows of a query. -/
def countSent (m : Model) (q : Select) : Sent :=
  (m.connection, q.countStatement.text, q.countStatement.args)

/-- The statement that asks for the rows of a query. -/
def rowsSent (m : Model) (q : Select) : Sent := (m.connection, q.statement.text, q.statement.args)

/-- Requests that differ in the page have one query, up to the stretch of rows. -/
theorem listQuery_agree {settings settings' : Settings} (h : r.SameButPage r')
    (hfree : m.PageFree) (hq : listQuery settings r m = .ok q)
    (hq' : listQuery settings' r' m = .ok q') : q' = q.windowed q'.window := by
  have hrestricts : r'.restrict m = r.restrict m := by
    rw [ListRequest.restrict, ListRequest.restrict, h.filters]
  cases hrestrict : r.restrict m with
  | error fault =>
    rw [listQuery, hrestrict] at hq
    cases hq
  | ok n =>
    rw [listQuery_of_restrict hrestrict] at hq
    rw [listQuery_of_restrict (hrestricts.trans hrestrict)] at hq'
    have hnames := ListRequest.params_of_restrict hrestrict
    -- the two requests give every parameter but the page's the same value
    have hagree := h.agreeOn hfree settings settings' n n
    rw [← hnames] at hagree
    exact Model.compile_agree hagree (Model.select_eq_ok_iff.1 hq).1
      (Model.select_eq_ok_iff.1 hq').1

/-- A session prepares requests that differ in the page with one model. -/
theorem model_of_prepare_eq (h : r.SameButPage r')
    (hrun : (prepare model r).exec s = (.ok (m, q), t))
    (hrun' : (prepare model r').exec s = (.ok (m', q'), t')) : m' = m := by
  obtain ⟨base, u, hbase, hchosen, -⟩ := ok_of_prepare hrun
  obtain ⟨base', u', hbase', hchosen', -⟩ := ok_of_prepare hrun'
  obtain ⟨hsame, rfl⟩ := Prod.mk.inj (hbase.symm.trans hbase')
  obtain rfl := Except.ok.inj hsame
  rw [h.template, hchosen] at hchosen'
  exact (Except.ok.inj (Prod.mk.inj hchosen').1).symm

/-! ### What a request sends -/

/-- The number of rows of a request is asked for by one statement.  Counting sends it alone, and
    listing sends it first and then at most the query for the rows; where the datasource does not
    open, neither of them sends anything. -/
structure CountedBy (model : String) (r : ListRequest) (s : Session) (opens : Prop)
    (total rows : Sent) : Prop where
  count : opens → (count model r).sent s = [total]
  list : opens → (list model r).sent s = [total] ∨ (list model r).sent s = [total, rows]
  closed : ¬opens → (Rows.count model r).sent s = [] ∧ (Rows.list model r).sent s = []

/-- Counting sends the query for the number of rows alone. -/
theorem sent_count (hrun : (prepare model r).exec s = (.ok (m, q), t)) :
    (Connection.Opens m.connection t → (count model r).sent s = [countSent m q]) ∧
      (¬Connection.Opens m.connection t → (count model r).sent s = []) := by
  have hcounted : (count model r).sent s =
      (Connection.run m.connection q.countStatement).sent t := by
    rw [count, sent_bind_of_ok (prepare_steady model r) (count_steady _ _) hrun,
      (prepare_sendsNothing model r).sent_eq_nil, List.nil_append]
    exact sent_bind_pure (Connection.run_steady _ _) _ _
  rw [hcounted]
  exact Connection.sent_run _ _ _

/-- Listing sends the query for the number of rows, and then at most the query for the rows. -/
theorem sent_list (hrun : (prepare model r).exec s = (.ok (m, q), t)) :
    (Connection.Opens m.connection t → (list model r).sent s = [countSent m q] ∨
      (list model r).sent s = [countSent m q, rowsSent m q]) ∧
      (¬Connection.Opens m.connection t → (list model r).sent s = []) := by
  have hlisted : (list model r).sent s = (Connection.count m.connection q >>= fun total =>
      Connection.run m.connection q.statement >>= fun rows =>
      pure (Page.of rows total q.window)).sent t := by
    have hbehind : (Connection.count m.connection q >>= fun total =>
        Connection.run m.connection q.statement >>= fun rows =>
        pure (Page.of rows total q.window)).Steady :=
      (count_steady _ _).bind fun _ => (Connection.run_steady _ _).bind fun _ => steady_pure _
    rw [list, sent_bind_of_ok (prepare_steady model r) hbehind hrun,
      (prepare_sendsNothing model r).sent_eq_nil, List.nil_append]
  have hcount := Connection.sent_run m.connection q.countStatement t
  rw [hlisted, Connection.count, bind_assoc]
  rcases hcounted : (Connection.run m.connection q.countStatement).exec t with ⟨out, u⟩
  -- a count that fails ends the list: the rows are never asked for
  cases out with
  | error e =>
    rw [sent_bind_of_error hcounted]
    exact ⟨fun hopens => .inl (hcount.1 hopens), hcount.2⟩
  | ok counted =>
    obtain ⟨hopens, hopen⟩ := Connection.opened_of_run hcounted
    refine ⟨fun _ => .inr ?_, fun hcloses => absurd hopens hcloses⟩
    have hrows : (Connection.run m.connection q.statement >>= fun rows =>
        pure (Page.of rows (Connection.countOf counted) q.window)).Steady :=
      (Connection.run_steady _ _).bind fun _ => steady_pure _
    rw [sent_bind_of_ok (Connection.run_steady _ _) (by exact hrows) hcounted, hcount.1 hopens,
      pure_bind, sent_bind_pure (Connection.run_steady _ _),
      (Connection.sent_run m.connection q.statement u).1 hopen]
    rfl

theorem countedBy_of_prepare (hrun : (prepare model r).exec s = (.ok (m, q), t)) :
    CountedBy model r s (Connection.Opens m.connection t) (countSent m q) (rowsSent m q) where
  count := (sent_count hrun).1
  list := (sent_list hrun).1
  closed := fun hcloses => ⟨(sent_count hrun).2 hcloses, (sent_list hrun).2 hcloses⟩

/-- **The number of rows does not depend on the page.**  Two requests that differ in the page are
    counted by one statement, with one text and one list of arguments, when their model names no
    parameter that chooses the page: in one session, or in two that have the same model. -/
theorem counted_alike_on_every_page (hpages : r.SameButPage r') (hfree : m.PageFree)
    (hsame : s' = s ∨ m' = m) (hrun : (prepare model r).exec s = (.ok (m, q), t))
    (hrun' : (prepare model r').exec s' = (.ok (m', q'), t')) :
    m' = m ∧
      CountedBy model r s (Connection.Opens m.connection t) (countSent m q) (rowsSent m q) ∧
      CountedBy model r' s' (Connection.Opens m.connection t') (countSent m q) (rowsSent m q') := by
  have hmodel : m' = m := by
    rcases hsame with rfl | hmodel
    · exact model_of_prepare_eq hpages hrun hrun'
    · exact hmodel
  subst hmodel
  obtain ⟨-, -, -, -, hquery⟩ := ok_of_prepare hrun
  obtain ⟨-, -, -, -, hquery'⟩ := ok_of_prepare hrun'
  -- a COUNT has no window, the one part in which the two queries may differ
  have hcount : countSent m' q' = countSent m' q := by
    have hstatement : q'.countStatement = q.countStatement := by
      rw [listQuery_agree hpages hfree hquery hquery', Select.countStatement_windowed]
    rw [countSent, countSent, hstatement]
  have hcounted := countedBy_of_prepare hrun'
  rw [hcount] at hcounted
  exact ⟨rfl, countedBy_of_prepare hrun, hcounted⟩

/-! ### Duties of one person -/

/-- Duties of a person that a request names. -/
def duties : Model where
  entry := { id := "duty", code := "duties", connection := "main" }
  tables := [{ id := "t", model := "duty", name := "duties" }]
  fields := []
  dialect := .mysql
  conditions := [{ model := "duty", column := "owner", param := "owner" }]

/-- Open duties of a person, from a page of some size. -/
def openDuties (page size : Option UInt64) : ListRequest where
  page := page
  pageSize := size
  filters := [{ column := "state", value := .str "open" }]
  params := [("owner", .str "ann")]

/-- The duties that are open. -/
def dutiesOpen : Model where
  entry := duties.entry
  tables := duties.tables
  fields := []
  dialect := .mysql
  conditions := [
    { model := "duty", column := "owner", param := "owner" },
    { connector := "AND", column := "state", operator := "=", value := "open" }]

/-- The query for a stretch of open duties. -/
def dutyQuery (window : Option Window) : Select :=
  { Select.all .mysql (.ofText "`duties`") with
    filter := dutiesOpen.chain [("owner", .str "ann")] dutiesOpen.conditions
    window := window }

theorem prepare_openDuties {page size : Option UInt64} {window : Option Window}
    (hwindow : dutiesOpen.window ((openDuties page size).compileParams {} dutiesOpen) = .ok window)
    (hchain : dutiesOpen.chain ((openDuties page size).compileParams {} dutiesOpen)
      dutiesOpen.conditions = dutiesOpen.chain [("owner", .str "ann")] dutiesOpen.conditions)
    (hsafe : Raw.checkSafe (dutyQuery window).statement.text = .ok ()) :
    (prepare "duty" (openDuties page size)).exec duties.session =
      (.ok (duties, dutyQuery window), duties.session) := by
  have hrestrict : (openDuties page size).restrict duties = .ok dutiesOpen := by
    have hadded : [({ column := "state", value := .str "open" } : Filter)].mapM (·.condition) =
        .ok [{ connector := "AND", column := "state", operator := "=", value := "open" }] := by
      decide
    exact ListRequest.restrict_of_mapM (r := openDuties page size) hadded duties
  have hcompiled := Model.compile_of_no_joins (m := dutiesOpen) rfl rfl rfl hwindow
  rw [hchain] at hcompiled
  have hquery : listQuery {} (openDuties page size) duties = .ok (dutyQuery window) := by
    rw [listQuery_of_restrict hrestrict]
    exact Model.select_eq_ok_iff.2 ⟨hcompiled, hsafe⟩
  exact exec_prepare rfl (Templates.exec_applyChosen_of_memory rfl rfl _) hquery

/-- All duties of a person and the third page of them are counted by one statement. -/
theorem duties_counted_alike :
    CountedBy "duty" (openDuties none none) duties.session
        (Connection.Opens duties.connection duties.session)
        (countSent duties (dutyQuery none)) (rowsSent duties (dutyQuery none)) ∧
      CountedBy "duty" (openDuties (some 3) (some 50)) duties.session
        (Connection.Opens duties.connection duties.session)
        (countSent duties (dutyQuery none)) (rowsSent duties (dutyQuery (some ⟨50, 100⟩))) := by
  have hrun : (prepare "duty" (openDuties none none)).exec duties.session =
      (.ok (duties, dutyQuery none), duties.session) :=
    prepare_openDuties rfl rfl (by decide)
  have hrun' : (prepare "duty" (openDuties (some 3) (some 50))).exec duties.session =
      (.ok (duties, dutyQuery (some ⟨50, 100⟩)), duties.session) :=
    prepare_openDuties rfl (by decide) (by decide)
  have hfree : duties.PageFree := by
    simp [Model.PageFree, Model.params, Model.conditionParams, Model.rawText, duties]
  have hpages : (openDuties none none).SameButPage (openDuties (some 3) (some 50)) :=
    ⟨rfl, rfl, rfl⟩
  exact (counted_alike_on_every_page hpages hfree (.inr rfl) hrun hrun').2

end Rows

end MetaQuery
