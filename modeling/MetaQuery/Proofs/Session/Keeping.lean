/-
  MetaQuery/Proofs/Session/Keeping.lean
  =====================================
  Operations that ask one datasource.

  An operation keeps to a connection when no other datasource takes part in its events
  (`Action.KeepsTo`).  Which connection that is may depend on what the metadata say, so this is
  said under given answers of the metadata: behind a lookup only the values matter that it has under
  them (`KeepsTo.bind`), and what was found is the only one (`Finds.keepsTo_bind`).
-/
import MetaQuery.Proofs.Session.Transaction

namespace MetaQuery

open MetaQuery.Action

/-! ### Asking one datasource -/

/-- The connection whose datasource takes part in an event. -/
def Event.source? : Event → Option String
  | .connected connection _ _ => some connection
  | .began (.data connection) _ => some connection
  | .committed (.data connection) _ => some connection
  | .rolledBack (.data connection) _ => some connection
  | .executed (.data connection) _ _ _ _ => some connection
  | _ => none

/-- No datasource but that of the connection takes part in the event. -/
def Event.OnlyOn (connection : String) (ev : Event) : Prop :=
  ∀ other, ev.source? = some other → other = connection

theorem Consulted.onlyOn {ev : Event} (h : Consulted ev) (connection : String) :
    ev.OnlyOn connection := by
  cases h with
  | read h => exact nofun

theorem Event.onlyOn_of_source? {connection : String} {ev : Event}
    (h : ev.source? = some connection) : ev.OnlyOn connection := by
  intro other hother
  exact Option.some.inj (hother.symm.trans h)

theorem Inside.onlyOn {connection : String} {ev : Event} (h : Inside (.data connection) ev) :
    ev.OnlyOn connection := by
  cases h with
  | consulted h => exact h.onlyOn connection
  | statement => exact Event.onlyOn_of_source? rfl

namespace Action

variable {α β : Type} {connection : String} {answer : String → List Cell → Reply} {s : Session}

/-- In some state with the store and the settings of the given one, where the metadata answer as
    given, the operation has this value. -/
def CanFind (a : Action α) (x : α) (answer : String → List Cell → Reply) (s : Session) : Prop :=
  ∃ (t u : Session) (log : List Event), t.store = s.store ∧ t.settings = s.settings ∧
    a.exec t = (.ok x, u) ∧ u.events = t.events ++ log ∧ ∀ ev ∈ log, ev.Gives answer

theorem Finds.eq_of_canFind {a : Action α} {x y : α} (h : a.Finds x answer s)
    (hy : a.CanFind y answer s) : y = x := by
  obtain ⟨t, u, log, hstore, hsettings, hrun, hlog, hgives⟩ := hy
  have hfound := h t log hstore hsettings (by rw [hrun]; exact hlog) hgives
  rw [hrun] at hfound
  exact Except.ok.inj hfound

theorem CanFind.of_bind {a : Action α} {f : α → Action β} {y : β}
    (h : (a >>= f).CanFind y answer s) (ha : a.Steady) (hf : ∀ x, (f x).Steady) :
    ∃ x, a.CanFind x answer s ∧ (f x).CanFind y answer s := by
  obtain ⟨t, u, log, hstore, hsettings, hrun, hlog, hgives⟩ := h
  obtain ⟨x, v, first, rest, hfirst, hrest, htv, -, hv, hu, rfl⟩ := ha.split hf hrun hlog
  refine ⟨x, ⟨t, v, first, hstore, hsettings, hfirst, hv, fun ev hev => ?_⟩, v, u, rest,
    htv.store.trans hstore, htv.settings.trans hsettings, hrest, hu, fun ev hev => ?_⟩
  · exact hgives ev (List.mem_append_left _ hev)
  · exact hgives ev (List.mem_append_right _ hev)

/-- The operation goes on with the session.  In each state with the store and the settings of the
    given one, where the metadata answer as given, it asks no datasource but that of the
    connection. -/
structure KeepsTo (a : Action α) (connection : String) (answer : String → List Cell → Reply)
    (s : Session) : Prop where
  steady : a.Steady
  only : ∀ (t : Session) (log : List Event), t.store = s.store → t.settings = s.settings →
    (a.exec t).2.events = t.events ++ log → (∀ ev ∈ log, ev.Gives answer) →
    ∀ ev ∈ log, ev.OnlyOn connection

theorem Logs.keepsTo {a : Action α} (h : a.Logs fun _ log => ∀ ev ∈ log, ev.OnlyOn connection)
    (ha : a.Steady) : a.KeepsTo connection answer s :=
  ⟨ha, fun _ _ _ _ hlog _ => h.of_run rfl hlog⟩

theorem Emits.keepsTo {a : Action α} (h : a.Emits (Event.OnlyOn connection)) (ha : a.Steady) :
    a.KeepsTo connection answer s :=
  Logs.keepsTo (Logs.mono h fun _ _ hlog => hlog.1) ha

theorem keepsTo_pure (x : α) : (pure x : Action α).KeepsTo connection answer s :=
  (emits_pure x).keepsTo (steady_pure x)

theorem keepsTo_throw (e : Fault) : (throw e : Action α).KeepsTo connection answer s :=
  (emits_throw e).keepsTo (steady_throw e)

theorem keepsTo_ofExcept (r : Except Fault α) : (ofExcept r).KeepsTo connection answer s :=
  (emits_ofExcept r).keepsTo (steady_ofExcept r)

theorem keepsTo_ofRules (f : Rules → Except Fault α) :
    (ofRules f).KeepsTo connection answer s :=
  (emits_ofRules f).keepsTo (steady_ofRules f)

/-- A look at the metadata asks no datasource of a connection. -/
theorem Consults.keepsTo {a : Action α} (h : a.Consults Consulted) :
    a.KeepsTo connection answer s :=
  (h.steps.emits.mono fun _ hev => hev.onlyOn connection).keepsTo h.steady

theorem keepsTo_get_bind {f : Session → Action β}
    (h : ∀ t, (f t).KeepsTo connection answer s) :
    (get >>= f).KeepsTo connection answer s := by
  refine ⟨steady_get_bind fun t => (h t).steady, fun t log hstore hsettings hlog => ?_⟩
  rw [exec_get_bind] at hlog
  exact (h t).only t log hstore hsettings hlog

/-- Behind a first part, only the values matter that it has under the given answers. -/
theorem KeepsTo.bind {a : Action α} {f : α → Action β} (ha : a.KeepsTo connection answer s)
    (hf : ∀ x, (f x).Steady) (h : ∀ x, a.CanFind x answer s → (f x).KeepsTo connection answer s) :
    (a >>= f).KeepsTo connection answer s := by
  refine ⟨ha.steady.bind hf, fun t log hstore hsettings hlog hgives ev hev => ?_⟩
  have htu := ha.steady t
  rcases hrun : a.exec t with ⟨r, u⟩
  rw [hrun] at htu
  cases r with
  | error e =>
    rw [exec_bind_of_error hrun] at hlog
    exact ha.only t log hstore hsettings (by rw [hrun]; exact hlog) hgives ev hev
  | ok x =>
    obtain ⟨first, hfirst⟩ := htu.log
    obtain ⟨rest, rfl, hrest⟩ := log_behind hf hrun hfirst hlog
    -- what `f` may rely on is that `a` found `x` under the same answers
    have hgivesFirst : ∀ ev ∈ first, ev.Gives answer :=
      fun ev hev => hgives ev (List.mem_append_left _ hev)
    rcases List.mem_append.1 hev with hev | hev
    · exact ha.only t first hstore hsettings (by rw [hrun]; exact hfirst) hgivesFirst ev hev
    · refine (h x ⟨t, u, first, hstore, hsettings, hrun, hfirst, hgivesFirst⟩).only u rest
        (htu.store.trans hstore) (htu.settings.trans hsettings) hrest (fun ev hev => ?_) ev hev
      exact hgives ev (List.mem_append_right _ hev)

theorem KeepsTo.andThen {a : Action α} {f : α → Action β} (ha : a.KeepsTo connection answer s)
    (h : ∀ x, (f x).KeepsTo connection answer s) : (a >>= f).KeepsTo connection answer s :=
  ha.bind (fun x => (h x).steady) fun x _ => h x

/-- What is looked up is what is found, so nothing else has to be considered behind it. -/
theorem Finds.keepsTo_bind {a : Action α} {x : α} {f : α → Action β} (h : a.Finds x answer s)
    (ha : a.Consults Consulted) (hf : ∀ y, (f y).Steady)
    (hx : (f x).KeepsTo connection answer s) : (a >>= f).KeepsTo connection answer s := by
  refine ha.keepsTo.bind hf fun y hy => ?_
  rw [h.eq_of_canFind hy]
  exact hx

/-- With what each model asks its own connection, the model that is found asks its one. -/
theorem Finds.keepsTo_each {a : Action Model} {m : Model} {f : Model → Action β}
    (h : a.Finds m answer s) (ha : a.Consults Consulted)
    (hf : ∀ n, (f n).KeepsTo n.connection answer s) :
    (a >>= f).KeepsTo m.connection answer s :=
  h.keepsTo_bind ha (fun n => (hf n).steady) (hf m)

end Action

/-! ### Datasources -/

namespace Connection

variable {answer : String → List Cell → Reply} {s : Session}

theorem addressOf_onlyOn (connection : String) :
    (addressOf connection).Emits (Event.OnlyOn connection) := by
  have hentry := (Metadata.connection_consults connection).steps.emits
  refine (hentry.mono fun _ hev => hev.onlyOn connection).bind fun entry? => ?_
  cases entry? with
  | none => exact emits_throw _
  | some entry => exact (emits_ofMetadata _).bind fun kind => emits_ofMetadata _

theorem connect_onlyOn (connection : String) :
    (connect connection).Emits (Event.OnlyOn connection) := by
  refine (addressOf_onlyOn connection).bind fun url => ?_
  refine Emits.bind (emits_modify fun _ => rfl) fun _ => ?_
  cases addressFault? url with
  | some cause => exact ((fails_throw _).bind _).emits
  | none =>
    refine emits_pass_bind (fun failure => Event.onlyOn_of_source? rfl) rfl ?_ ?_
    · exact emits_modify fun _ => rfl
    · exact fun cause => (fails_throw _).bind _

theorem ensureOpen_keepsTo (connection : String) :
    (ensureOpen connection).KeepsTo connection answer s := by
  refine Emits.keepsTo (emits_get_bind fun t => ?_) (ensureOpen_steady connection)
  split
  · exact emits_pure _
  · exact connect_onlyOn connection

theorem recordsOf_keepsTo (connection text : String) (reply : Reply) :
    (recordsOf text reply).KeepsTo connection answer s := by
  cases reply with
  | rows rows affected => exact keepsTo_pure _
  | failure cause => exact keepsTo_throw _

theorem send_keepsTo (connection : String) (inTransaction : Bool) (text : String)
    (args : List Cell) :
    (send (.data connection) inTransaction text args).KeepsTo connection answer s := by
  refine Logs.keepsTo (Logs.mono (logs_send _ _ _ _) ?_) (steady_send _ _ _ _)
  rintro r log ⟨reply, -, rfl⟩ ev hev
  obtain rfl := List.mem_singleton.1 hev
  exact Event.onlyOn_of_source? rfl

theorem run_keepsTo (connection : String) (st : Statement) :
    (run connection st).KeepsTo connection answer s :=
  (ensureOpen_keepsTo connection).andThen fun _ =>
    (send_keepsTo connection false st.text st.args).andThen fun reply =>
      recordsOf_keepsTo connection st.text reply

theorem runIn_keepsTo (connection : String) (st : Statement) :
    (runIn connection st).KeepsTo connection answer s :=
  (send_keepsTo connection true st.text st.args).andThen fun reply =>
    recordsOf_keepsTo connection st.text reply

theorem count_keepsTo (connection : String) (q : Select) :
    (count connection q).KeepsTo connection answer s :=
  (run_keepsTo connection q.countStatement).andThen fun _ => keepsTo_pure _

theorem pass_keepsTo {connection : String} (moment : Moment) (event : Option SourceFault → Event)
    (h : ∀ failure, (event failure).source? = some connection) :
    (pass moment event).KeepsTo connection answer s := by
  refine Logs.keepsTo (Logs.mono (logs_pass moment event) ?_) (steady_pass moment event)
  rintro r log ⟨failure, -, rfl⟩ ev hev
  obtain rfl := List.mem_singleton.1 hev
  exact Event.onlyOn_of_source? (h failure)

theorem begin_keepsTo (connection : String) : (begin connection).KeepsTo connection answer s := by
  refine (ensureOpen_keepsTo connection).andThen fun _ => ?_
  refine (pass_keepsTo .begin (.began (.data connection)) fun _ => rfl).andThen fun failure => ?_
  cases failure with
  | none => exact keepsTo_pure ()
  | some cause => exact keepsTo_throw _

theorem finish_keepsTo {α : Type} (connection : String) (outcome : Except Fault α) :
    (finish connection outcome).KeepsTo connection answer s := by
  cases outcome with
  | ok a =>
    refine (pass_keepsTo .commit (.committed (.data connection)) fun _ => rfl).andThen
      fun failure => ?_
    cases failure with
    | none => exact keepsTo_pure a
    | some cause => exact keepsTo_throw _
  | error e =>
    refine (pass_keepsTo .rollback (.rolledBack (.data connection)) fun _ => rfl).andThen
      fun _ => ?_
    exact keepsTo_throw e

theorem transaction_keepsTo {α : Type} {connection : String} {body : Action α}
    (h : body.KeepsTo connection answer s) :
    (transaction connection body).KeepsTo connection answer s := by
  rw [transaction_eq]
  have hattempt : body.attempt.KeepsTo connection answer s := ⟨h.steady, h.only⟩
  exact (begin_keepsTo connection).andThen fun _ => hattempt.andThen (finish_keepsTo connection)

end Connection

end MetaQuery
