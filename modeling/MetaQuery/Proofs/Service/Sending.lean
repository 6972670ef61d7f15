/-
  MetaQuery/Proofs/Service/Sending.lean
  =====================================
  What operations that read rows send to the datasources of connections.

  Such an operation loads a model, compiles a query from it and runs what was compiled.  Loading is
  a matter of the metadata, so every statement that reaches a connection can be traced back to the
  model that was loaded and to the query that was compiled from it (`sent_of_get?`, `sent_of_list`,
  `sent_of_count`).  The text of that query has passed the check for hazards, since nothing
  unchecked is compiled (`select_eq_ok_iff`).
-/
import MetaQuery.Pattern.Reader
import MetaQuery.Proofs.Service.Atomicity
import MetaQuery.Proofs.Session.Memory

namespace MetaQuery

/-- A statement on the datasource of a connection: the connection, the text and the arguments. -/
abbrev Sent := String × String × List Cell

/-- What an event sends to the datasource of a connection. -/
def Event.sent? : Event → Option Sent
  | .executed (.data connection) _ text args _ => some (connection, text, args)
  | _ => none

theorem Opening.sent?_eq {ev : Event} (h : Opening ev) : ev.sent? = none := by
  cases h with
  | consulted h =>
    cases h with
    | read h => rfl
  | connected connection url failure => rfl

namespace Action

variable {α β : Type}

/-- Run in a state, the operation sends a statement. -/
def Sends (a : Action α) (s : Session) (x : Sent) : Prop :=
  ∃ log, (a.exec s).2.events = s.events ++ log ∧ ∃ ev ∈ log, ev.sent? = some x

/-- In any state, the operation sends no other statements. -/
def SendsOnly (a : Action α) (Q : Sent → Prop) : Prop :=
  a.Emits fun ev => ∀ x, ev.sent? = some x → Q x

theorem Consults.sendsNothing {a : Action α} (h : a.Consults Consulted) :
    a.SendsOnly fun _ => False := by
  refine h.steps.emits.mono fun ev hev x hx => ?_
  rw [(Opening.consulted hev).sent?_eq] at hx
  cases hx

theorem SendsOnly.holds {a : Action α} {Q : Sent → Prop} (h : a.SendsOnly Q) {s : Session}
    {x : Sent} (hx : a.Sends s x) : Q x := by
  obtain ⟨log, hlog, ev, hev, hsent⟩ := hx
  have hemits : a.Emits fun ev => ∀ x, ev.sent? = some x → Q x := h
  exact (Logs.of_run hemits rfl hlog).1 ev hev x hsent

/-- What two parts send is sent by the first or, when that succeeds, by the second. -/
theorem Sends.of_bind {a : Action α} {f : α → Action β} {Q : Sent → Prop} (ha : a.SendsOnly Q)
    (hf : ∀ y, (f y).Steady) {s : Session} {x : Sent} (h : (a >>= f).Sends s x) :
    Q x ∨ ∃ y t, a.exec s = (.ok y, t) ∧ (f y).Sends t x := by
  obtain ⟨log, hlog, ev, hev, hx⟩ := h
  obtain ⟨first, hfirst, hkind, -⟩ := ha s
  rw [exec_bind] at hlog
  rcases hrun : a.exec s with ⟨r, t⟩
  rw [hrun] at hlog hfirst
  cases r with
  | error e =>
    obtain rfl : first = log := List.append_cancel_left (hfirst.symm.trans hlog)
    exact .inl (hkind ev hev x hx)
  | ok y =>
    obtain ⟨rest, hrest⟩ := (hf y t).log
    -- the log of the whole run is that of its first part and then of the second
    have hparts : log = first ++ rest := by
      dsimp only at hlog hfirst
      rw [hrest, hfirst, List.append_assoc] at hlog
      exact (List.append_cancel_left hlog).symm
    rw [hparts] at hev
    rcases List.mem_append.1 hev with hev | hev
    · exact .inl (hkind ev hev x hx)
    · exact .inr ⟨y, t, rfl, rest, hrest, ev, hev, hx⟩

theorem Sends.behind {a : Action α} {f : α → Action β} (ha : a.SendsOnly fun _ => False)
    (hf : ∀ y, (f y).Steady) {s : Session} {x : Sent} (h : (a >>= f).Sends s x) :
    ∃ y t, a.exec s = (.ok y, t) ∧ (f y).Sends t x :=
  (h.of_bind ha hf).resolve_left id

theorem Sends.bind_left {a : Action α} {f : α → Action β} {s : Session} {x : Sent}
    (h : a.Sends s x) (hf : ∀ y, (f y).Steady) : (a >>= f).Sends s x := by
  obtain ⟨log, hlog, ev, hev, hx⟩ := h
  rcases hrun : a.exec s with ⟨r, t⟩
  rw [hrun] at hlog
  cases r with
  | error e => exact ⟨log, by rw [exec_bind, hrun]; exact hlog, ev, hev, hx⟩
  | ok y =>
    obtain ⟨rest, hrest⟩ := (hf y t).log
    refine ⟨log ++ rest, ?_, ev, List.mem_append_left _ hev, hx⟩
    rw [exec_bind_of_ok hrun, hrest, hlog, List.append_assoc]

theorem Sends.bind_right {a : Action α} {f : α → Action β} {s t : Session} {x : Sent} {y : α}
    (ha : a.Steady) (hrun : a.exec s = (.ok y, t)) (h : (f y).Sends t x) :
    (a >>= f).Sends s x := by
  obtain ⟨first, hfirst⟩ := (ha s).log
  obtain ⟨log, hlog, ev, hev, hx⟩ := h
  rw [hrun] at hfirst
  refine ⟨first ++ log, ?_, ev, List.mem_append_right _ hev, hx⟩
  rw [exec_bind_of_ok hrun, hlog, hfirst, List.append_assoc]

/-- Putting an outcome into an answer sends nothing. -/
theorem Sends.of_bind_pure {a : Action α} {answer : α → β} {s : Session} {x : Sent}
    (h : (a >>= fun y => pure (answer y)).Sends s x) : a.Sends s x := by
  obtain ⟨log, hlog, hev⟩ := h
  refine ⟨log, ?_, hev⟩
  rw [exec_bind] at hlog
  rcases hrun : a.exec s with ⟨r, t⟩
  rw [hrun] at hlog
  cases r with
  | error e => exact hlog
  | ok y => exact hlog

end Action

open MetaQuery.Action

theorem Connection.run_sendsOnly (connection : String) (st : Statement) :
    (run connection st).SendsOnly (· = (connection, st.text, st.args)) := by
  refine Emits.bind ((ensureOpen_opens connection).mono fun ev hev x hx => ?_) fun _ => ?_
  · rw [hev.sent?_eq] at hx
    cases hx
  · refine emits_send_bind (fun reply x hx => ?_) (fun _ _ => emits_pure _) (fails_recordsOf _)
    exact (Option.some.inj hx).symm

/-- A statement run on a datasource that is opened for it, or was open. -/
theorem Connection.exec_run_of_opens {connection : String} {s t : Session} {rows : List SourceRow}
    {affected : Nat} (hopens : (ensureOpen connection).exec s = (.ok (), t)) (st : Statement)
    (hreply : t.answers.next.1 = .rows rows affected) :
    (run connection st).exec s = (.ok (rows.map (·.record)), { t with
      answers := t.answers.next.2
      events := t.events ++ [.executed (.data connection) false st.text st.args
        (.rows rows affected)] }) := by
  rw [run, runText, exec_bind_of_ok hopens, exec_bind_of_ok (exec_send _ _ _ _ t),
    exec_recordsOf, hreply]
  rfl

theorem Connection.exec_ensureOpen {connection : String} {s : Session}
    (hopen : s.opened.contains connection = true) :
    (ensureOpen connection).exec s = (.ok (), s) := by
  have hget : (get : Action Session).exec s = (.ok s, s) := rfl
  rw [ensureOpen, exec_bind_of_ok hget, if_pos hopen]
  rfl

/-- A datasource that was opened without a fault is open. -/
theorem Connection.opened_of_ensureOpen {connection : String} {s t : Session}
    (h : (ensureOpen connection).exec s = (.ok (), t)) :
    t.opened.contains connection = true := by
  obtain ⟨s', u, hget, hrest⟩ := ok_of_exec_bind h
  obtain ⟨hs', rfl⟩ := Prod.mk.inj hget
  obtain rfl := Except.ok.inj hs'
  -- open already, or opened by this call; every refusal on the way is an error
  split at hrest
  · next hopen =>
    obtain ⟨-, rfl⟩ := Prod.mk.inj hrest
    exact hopen
  · obtain ⟨url, v, -, hconnect⟩ := ok_of_exec_bind hrest
    obtain ⟨_, w, -, hconnect⟩ := ok_of_exec_bind hconnect
    split at hconnect
    · cases hconnect
    · obtain ⟨failure, x, -, hconnect⟩ := ok_of_exec_bind hconnect
      cases failure with
      | some cause => cases hconnect
      | none =>
        obtain ⟨-, rfl⟩ := Prod.mk.inj hconnect
        simp

/-- A statement run on a datasource that is open. -/
theorem Connection.exec_run {connection : String} {s : Session} {rows : List SourceRow}
    {affected : Nat} (hopen : s.opened.contains connection = true) (st : Statement)
    (hreply : s.answers.next.1 = .rows rows affected) :
    (run connection st).exec s = (.ok (rows.map (·.record)), { s with
      answers := s.answers.next.2
      events := s.events ++ [.executed (.data connection) false st.text st.args
        (.rows rows affected)] }) :=
  exec_run_of_opens (exec_ensureOpen hopen) st hreply

/-- A statement is sent when the datasource is opened for it, whatever the reply is. -/
theorem Connection.sends_run {connection : String} {s t : Session}
    (hopens : (ensureOpen connection).exec s = (.ok (), t)) (st : Statement) :
    (run connection st).Sends s (connection, st.text, st.args) := by
  refine Sends.bind_right (ensureOpen_steady connection) hopens ?_
  refine Sends.bind_left ⟨_, rfl, _, List.mem_singleton_self _, rfl⟩ fun reply => ?_
  exact steady_of_still fun s => by rw [exec_recordsOf]

/-- A statement whose rows are put into an answer is the only one that is sent. -/
theorem Connection.sent_of_run {α : Type} {connection : String} {st : Statement}
    {answer : List Record → α} {s : Session} {x : Sent}
    (h : (run connection st >>= fun rows => pure (answer rows)).Sends s x) :
    x = (connection, st.text, st.args) :=
  (run_sendsOnly connection st).holds h.of_bind_pure

/-! ### Compiled queries -/

/-- The query, when its text has no hazard. -/
def Select.checked (q : Select) : Except Fault Select :=
  (Raw.checkSafe q.statement.text).map fun _ => q

theorem Model.select_eq (m : Model) (params : Params) :
    m.select params = m.compile params >>= Select.checked := by
  refine congrArg (m.compile params >>= ·) (funext fun q => ?_)
  rw [Select.checked]
  cases Raw.checkSafe q.statement.text with
  | error e => rfl
  | ok u => rfl

/-- A query is compiled from a model when its text has no hazard. -/
theorem Model.select_eq_ok_iff {m : Model} {params : Params} {q : Select} :
    m.select params = .ok q ↔
      m.compile params = .ok q ∧ Raw.checkSafe q.statement.text = .ok () := by
  rw [select_eq]
  cases m.compile params with
  | error e => exact ⟨nofun, nofun⟩
  | ok p =>
    -- the check either hands the query on unchanged or fails
    change p.checked = _ ↔ _
    constructor
    · intro h
      rw [Select.checked] at h
      cases hsafe : Raw.checkSafe p.statement.text with
      | error e =>
        rw [hsafe] at h
        cases h
      | ok u =>
        rw [hsafe] at h
        obtain rfl := Except.ok.inj h
        exact ⟨rfl, hsafe⟩
    · rintro ⟨hp, hsafe⟩
      obtain rfl := Except.ok.inj hp
      rw [Select.checked, hsafe]
      rfl

/-- A query from the entries of a model has the clauses that they describe. -/
theorem Model.eq_of_compile_entries {m : Model} {params : Params} {q : Select}
    (hraw : m.isRaw = false) (h : m.compile params = .ok q) :
    ∃ source window, m.target = .ok source ∧ m.window params = .ok window ∧ q = {
      dialect := m.dialect
      columns := m.fields.map (·.projection m.dialect)
      source := .ofText source
      joins := (orderedJoins m.joins).map (·.render m.dialect)
      filter := m.chain params m.conditions
      required := []
      groups := m.groups.map (·.expression m.dialect)
      having := m.chain params m.havings
      orders := m.orders.map (·.expression m.dialect)
      window := window } := by
  rw [compile, hraw, if_neg (by decide), compileEntries_eq] at h
  cases htarget : m.target with
  | error fault =>
    rw [htarget] at h
    cases h
  | ok source =>
    cases hwindow : m.window params with
    | error fault =>
      rw [htarget, hwindow] at h
      cases h
    | ok window =>
      rw [htarget, hwindow] at h
      exact ⟨source, window, rfl, rfl, (Except.ok.inj h).symm⟩

/-- The predicates of a query from the entries of a model are those of its chain. -/
theorem Model.clauses_of_compile {m : Model} {params : Params} {q : Select}
    (hraw : m.isRaw = false) (h : m.compile params = .ok q) :
    q.dialect = m.dialect ∧ q.filter = m.chain params m.conditions ∧ q.required = [] := by
  obtain ⟨source, window, -, -, rfl⟩ := eq_of_compile_entries hraw h
  exact ⟨rfl, rfl, rfl⟩

/-- A query from a text written by hand has no clause but the derived table and the page. -/
theorem Model.eq_of_compile_raw {m : Model} {params : Params} {q : Select}
    (hraw : m.isRaw = true) (h : m.compile params = .ok q) :
    ∃ window, m.window params = .ok window ∧
      q = { Select.all m.dialect (m.rawSource params) with window := window } := by
  rw [compile, if_pos hraw, compileRaw_eq] at h
  split at h
  · cases h
  · cases hwindow : m.window params with
    | error fault =>
      rw [hwindow] at h
      cases h
    | ok window =>
      rw [hwindow] at h
      exact ⟨window, rfl, (Except.ok.inj h).symm⟩

/-! ### Templates -/

namespace Templates

theorem default?_consults (model : String) : (default? model).Consults Consulted :=
  (Metadata.ofModel_consults _ _ _ _ _).bind fun _ => consults_pure _

theorem template?_consults (id : String) : (Metadata.template? id).Consults Consulted :=
  Metadata.ask_consults _ fun d => Tables.loadFirst_consults d _ _ _ _

theorem applyChosen_steady (model : String) (choice : Option String) (m : Model) :
    (applyChosen model choice m).Steady := by
  cases choice with
  | some id =>
    refine (template?_consults id).steady.bind fun t? => ?_
    cases t? with
    | none => exact steady_throw _
    | some t => exact steady_pure _
  | none =>
    refine (default?_consults model).steady.bind fun t? => ?_
    cases t? with
    | none => exact steady_pure _
    | some t => exact steady_pure _

theorem applyChosen_sendsNothing (model : String) (choice : Option String) (m : Model) :
    (applyChosen model choice m).SendsOnly fun _ => False := by
  cases choice with
  | some id =>
    refine Emits.bind (template?_consults id).sendsNothing fun t? => ?_
    cases t? with
    | none => exact emits_throw _
    | some t => exact emits_pure _
  | none =>
    refine Emits.bind (default?_consults model).sendsNothing fun t? => ?_
    cases t? with
    | none => exact emits_pure _
    | some t => exact emits_pure _

theorem exec_default?_of_memory {c : Catalog} {s : Session} (hstore : s.store = .memory c)
    (model : String) :
    (default? model).exec s = (.ok ((c.templatesOf model).find? (·.isDefault)), s) := by
  have hlist : (Metadata.templatesOf model).exec s = (.ok (c.templatesOf model), s) :=
    Metadata.exec_ask_of_memory hstore
  rw [default?, exec_bind_of_ok hlist]
  rfl

/-- Where no template is chosen and none is the default, the model stays as it is. -/
theorem exec_applyChosen_of_no_default {model : String} {s t : Session}
    (h : (default? model).exec s = (.ok none, t)) (m : Model) :
    (applyChosen model none m).exec s = (.ok m, t) := by
  rw [applyChosen, exec_bind_of_ok h]
  rfl

theorem exec_applyChosen_of_memory {c : Catalog} {s : Session} (hstore : s.store = .memory c)
    {model : String} (hnone : (c.templatesOf model).find? (·.isDefault) = none) (m : Model) :
    (applyChosen model none m).exec s = (.ok m, s) := by
  refine exec_applyChosen_of_no_default ?_ m
  rw [exec_default?_of_memory hstore, hnone]

end Templates

/-! ### Operations -/

namespace Rows

/-- A request is prepared by loading its model, applying its template and compiling its query. -/
theorem ok_of_prepare {model : String} {r : ListRequest} {s t : Session} {m : Model} {q : Select}
    (h : (prepare model r).exec s = (.ok (m, q), t)) :
    ∃ base u, (Metadata.model model).exec s = (.ok base, u) ∧
      (Templates.applyChosen model r.template base).exec u = (.ok m, t) ∧
      listQuery t.settings r m = .ok q := by
  obtain ⟨base, u, hbase, hrest⟩ := ok_of_exec_bind h
  obtain ⟨m', t', hchosen, hquery⟩ := ok_of_exec_bind hrest
  obtain ⟨s', u', hget, hcompiled⟩ := ok_of_exec_bind hquery
  obtain ⟨hs', hu'⟩ := Prod.mk.inj hget
  obtain rfl : t' = s' := Except.ok.inj hs'
  obtain rfl : t' = u' := hu'
  obtain ⟨q', v, hq, hpair⟩ := ok_of_exec_bind hcompiled
  obtain ⟨hq, rfl⟩ := ok_of_exec_ofExcept hq
  obtain ⟨hout, rfl⟩ := Prod.mk.inj hpair
  obtain ⟨rfl, rfl⟩ := Prod.mk.inj (Except.ok.inj hout)
  exact ⟨base, u, hbase, hchosen, hq⟩

/-- A request whose model, template and query are known is prepared. -/
theorem exec_prepare {model : String} {r : ListRequest} {s t u : Session} {base m : Model}
    {q : Select} (hload : (Metadata.model model).exec s = (.ok base, t))
    (hchosen : (Templates.applyChosen model r.template base).exec t = (.ok m, u))
    (hquery : listQuery u.settings r m = .ok q) :
    (prepare model r).exec s = (.ok (m, q), u) := by
  have hget : (get : Action Session).exec u = (.ok u, u) := rfl
  rw [prepare, exec_bind_of_ok hload, exec_bind_of_ok hchosen, exec_bind_of_ok hget, hquery]
  rfl

theorem prepare_sendsNothing (model : String) (r : ListRequest) :
    (prepare model r).SendsOnly fun _ => False := by
  refine Emits.bind (Metadata.model_consults model).sendsNothing fun base => ?_
  refine Emits.bind (Templates.applyChosen_sendsNothing _ _ _) fun m => ?_
  refine emits_get_bind fun s => ?_
  exact (emits_ofExcept _).bind fun q => emits_pure _

theorem prepare_steady (model : String) (r : ListRequest) : (prepare model r).Steady := by
  refine (Metadata.model_consults model).steady.bind fun base => ?_
  refine (Templates.applyChosen_steady _ _ _).bind fun m => ?_
  exact steady_get_bind fun s => (steady_ofExcept _).bind fun q => steady_pure _

theorem count_steady (connection : String) (q : Select) : (Connection.count connection q).Steady :=
  (Connection.run_steady connection q.countStatement).bind fun _ => steady_pure _

theorem list_steady (model : String) (r : ListRequest) : (list model r).Steady :=
  (prepare_steady model r).bind fun _ => (count_steady _ _).bind fun _ =>
    (Connection.run_steady _ _).bind fun _ => steady_pure _

theorem keyQuery_of_compile {m : Model} {key : Cell} {q : Select} {p : Fragment}
    (hq : m.compile [] = .ok q) (hsafe : Raw.checkSafe q.statement.text = .ok ())
    (hp : m.keyPredicate key = .ok p) :
    keyQuery m key = .ok { q.require p with window := none } := by
  have hselect : m.select [] = .ok q := Model.select_eq_ok_iff.2 ⟨hq, hsafe⟩
  unfold keyQuery
  rw [hselect, hp]
  rfl

/-- A read from a datasource that is open, with a model that is loaded without an exchange. -/
theorem exec_get? {model : String} {key : Cell} {m : Model} {q : Select} {s : Session}
    {rows : List SourceRow} {affected : Nat}
    (hload : (Metadata.model model).exec s = (.ok m, s))
    (hopen : s.opened.contains m.connection = true) (hq : keyQuery m key = .ok q)
    (hreply : s.answers.next.1 = .rows rows affected) :
    (get? model key).exec s = (.ok (rows.map (·.record)).head?, { s with
      answers := s.answers.next.2
      events := s.events ++ [.executed (.data m.connection) false q.statement.text
        q.statement.args (.rows rows affected)] }) := by
  have hcompiled : (Action.ofExcept (keyQuery m key)).exec s = (.ok q, s) := by
    rw [hq]
    rfl
  rw [get?, exec_bind_of_ok hload, exec_bind_of_ok hcompiled,
    exec_bind_of_ok (Connection.exec_run hopen q.statement hreply)]
  rfl

/-- A count on a datasource that is open, with a request that is prepared without an exchange. -/
theorem sends_count {model : String} {r : ListRequest} {m : Model} {q : Select} {s : Session}
    {rows : List SourceRow} {affected : Nat} (hprepared : (prepare model r).exec s = (.ok (m, q), s))
    (hopen : s.opened.contains m.connection = true)
    (hreply : s.answers.next.1 = .rows rows affected) :
    (count model r).Sends s (m.connection, q.countStatement.text, q.countStatement.args) := by
  have hrun : (count model r).exec s = (.ok (Connection.countOf (rows.map (·.record))), { s with
      answers := s.answers.next.2
      events := s.events ++ [.executed (.data m.connection) false q.countStatement.text
        q.countStatement.args (.rows rows affected)] }) := by
    rw [count, exec_bind_of_ok hprepared]
    dsimp only
    rw [Connection.count, exec_bind_of_ok (Connection.exec_run hopen q.countStatement hreply)]
    rfl
  exact ⟨_, by rw [hrun], _, List.mem_singleton_self _, rfl⟩

/-- A list runs the count and then the query. -/
theorem exec_list {model : String} {r : ListRequest} {m : Model} {q : Select}
    {s t u v : Session} {counted records : List Record}
    (hprepared : (prepare model r).exec s = (.ok (m, q), t))
    (hcount : (Connection.run m.connection q.countStatement).exec t = (.ok counted, u))
    (hrows : (Connection.run m.connection q.statement).exec u = (.ok records, v)) :
    (list model r).exec s =
      (.ok (Page.of records (Connection.countOf counted) q.window), v) := by
  rw [list, exec_bind_of_ok hprepared]
  dsimp only
  rw [Connection.count, bind_assoc, exec_bind_of_ok hcount, pure_bind, exec_bind_of_ok hrows]
  rfl

/-- A list whose count and whose rows are answered. -/
theorem exec_list_of_replies {model : String} {r : ListRequest} {m : Model} {q : Select}
    {s t u : Session} {counted answered : List SourceRow} {a b : Nat} {more : List Reply}
    (hprepared : (prepare model r).exec s = (.ok (m, q), t))
    (hopens : (Connection.ensureOpen m.connection).exec t = (.ok (), u))
    (hreplies : u.answers.replies = .rows counted a :: .rows answered b :: more) :
    ∃ v, (list model r).exec s = (.ok (Page.of (answered.map (·.record))
      (Connection.countOf (counted.map (·.record))) q.window), v) := by
  have hnext : u.answers.next =
      (.rows counted a, { u.answers with replies := .rows answered b :: more }) := by
    rw [Answers.next, hreplies]
  have hcount := Connection.exec_run_of_opens hopens q.countStatement (congrArg (·.1) hnext)
  rw [hnext] at hcount
  have hopen := Connection.opened_of_ensureOpen hopens
  exact ⟨_, exec_list hprepared hcount (Connection.exec_run (by exact hopen) q.statement rfl)⟩

/-- The query of a list is sent once its rows are counted. -/
theorem sends_list {model : String} {r : ListRequest} {m : Model} {q : Select} {s t u : Session}
    {counted : List SourceRow} {affected : Nat}
    (hprepared : (prepare model r).exec s = (.ok (m, q), t))
    (hopens : (Connection.ensureOpen m.connection).exec t = (.ok (), u))
    (hreply : u.answers.next.1 = .rows counted affected) :
    (list model r).Sends s (m.connection, q.statement.text, q.statement.args) := by
  have hopen := Connection.opened_of_ensureOpen hopens
  have hcount := Connection.exec_run_of_opens hopens q.countStatement hreply
  refine Sends.bind_right (prepare_steady model r) hprepared ?_
  refine Sends.bind_right (count_steady _ _) (exec_bind_of_ok hcount) ?_
  have hsends := Connection.sends_run
    (s := { u with
      answers := u.answers.next.2
      events := u.events ++ [.executed (.data m.connection) false q.countStatement.text
        q.countStatement.args (.rows counted affected)] })
    (Connection.exec_ensureOpen hopen) q.statement
  exact hsends.bind_left fun _ => steady_pure _

theorem sent_of_get? {model : String} {key : Cell} {s : Session} {x : Sent}
    (h : (get? model key).Sends s x) :
    ∃ m t q, (Metadata.model model).exec s = (.ok m, t) ∧ keyQuery m key = .ok q ∧
      x = (m.connection, q.statement.text, q.statement.args) := by
  obtain ⟨m, t, hm, hrest⟩ := h.behind (Metadata.model_consults model).sendsNothing fun m =>
    (steady_ofExcept _).bind fun q => (Connection.run_steady _ _).bind fun _ => steady_pure _
  obtain ⟨q, u, hcompiled, hrun⟩ := hrest.behind (emits_ofExcept _) fun q =>
    (Connection.run_steady _ _).bind fun _ => steady_pure _
  obtain ⟨hq, rfl⟩ := ok_of_exec_ofExcept hcompiled
  exact ⟨m, u, q, hm, hq, Connection.sent_of_run hrun⟩

theorem sent_of_list {model : String} {r : ListRequest} {s : Session} {x : Sent}
    (h : (list model r).Sends s x) :
    ∃ m q t, (prepare model r).exec s = (.ok (m, q), t) ∧
      (x = (m.connection, q.countStatement.text, q.countStatement.args) ∨
        x = (m.connection, q.statement.text, q.statement.args)) := by
  obtain ⟨⟨m, q⟩, t, hprepared, hrest⟩ := h.behind (prepare_sendsNothing model r) fun _ =>
    (count_steady _ _).bind fun _ => (Connection.run_steady _ _).bind fun _ => steady_pure _
  refine ⟨m, q, t, hprepared, ?_⟩
  have hcount : (Connection.count m.connection q).SendsOnly
      (· = (m.connection, q.countStatement.text, q.countStatement.args)) :=
    Emits.bind (Connection.run_sendsOnly _ _) fun _ => emits_pure _
  rcases hrest.of_bind hcount fun _ => (Connection.run_steady _ _).bind fun _ => steady_pure _ with
    hx | ⟨total, u, -, hrows⟩
  · exact .inl hx
  · exact .inr (Connection.sent_of_run hrows)

theorem sent_of_count {model : String} {r : ListRequest} {s : Session} {x : Sent}
    (h : (count model r).Sends s x) :
    ∃ m q t, (prepare model r).exec s = (.ok (m, q), t) ∧
      x = (m.connection, q.countStatement.text, q.countStatement.args) := by
  obtain ⟨⟨m, q⟩, t, hprepared, hrest⟩ := h.behind (prepare_sendsNothing model r) fun _ =>
    count_steady _ _
  exact ⟨m, q, t, hprepared, Connection.sent_of_run hrest⟩

end Rows

/-! ### A session to look at -/

/-- A session with one model in its catalog, whose datasource is open. -/
def Model.session (m : Model) : Session where
  store := .memory {
    models := [m.entry], tables := m.tables, fields := m.fields, conditions := m.conditions,
    joins := m.joins, raws := m.raw.toList }
  rules := Pattern.read
  opened := [m.connection]
  idAt := fun _ => ""

theorem orderedJoins_nil : orderedJoins [] = [] := by
  rw [orderedJoins, joinsUnder, List.filter_nil, walkJoins]

/-- A model of tables that are not joined is compiled clause by clause. -/
theorem Model.compile_of_no_joins {m : Model} {params : Params} {source : String}
    {window : Option Window} (hraw : m.isRaw = false) (hjoins : m.joins = [])
    (htarget : m.target = .ok source) (hwindow : m.window params = .ok window) :
    m.compile params = .ok { Select.all m.dialect (.ofText source) with
      columns := m.fields.map (·.projection m.dialect)
      filter := m.chain params m.conditions
      groups := m.groups.map (·.expression m.dialect)
      having := m.chain params m.havings
      orders := m.orders.map (·.expression m.dialect)
      window := window } := by
  rw [compile, hraw, if_neg (by decide), compileEntries_eq, htarget, hwindow, hjoins,
    orderedJoins_nil]
  rfl

end MetaQuery
