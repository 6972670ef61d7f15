/-
  MetaQuery/Proofs/Session/Journal.lean
  =====================================
  What operations ask of the datasources, read off the events that they add.

  Nothing takes an event away again, so an operation is specified by its outcome and by the log
  that it adds, whatever its session holds and whatever the datasources answer (`Action.Logs`).
  Logs of operations done one after the other stand one behind the other, which is the rule
  `Logs.bind`.

  Most operations need less: all their events are of some kind, and they stop at the first event
  that fails (`Action.Emits`).  This passes through sequences, choices and loops, so that for most
  operations the proof follows their text.
-/
import MetaQuery.Session.State

namespace MetaQuery

/-! ### Events -/

/-- The datasource did what was asked. -/
def Event.succeeded : Event → Bool
  | .connected _ _ failure => failure.isNone
  | .began _ failure => failure.isNone
  | .committed _ failure => failure.isNone
  | .rolledBack _ failure => failure.isNone
  | .executed _ _ _ _ (.rows ..) => true
  | .executed _ _ _ _ (.failure _) => false

/-! ### Splitting logs -/

theorem split_behind {first rest before after : List Event} {ev : Event} (hev : ev ∉ first)
    (h : first ++ rest = before ++ ev :: after) :
    ∃ middle, before = first ++ middle ∧ rest = middle ++ ev :: after := by
  rcases List.append_eq_append_iff.1 h with ⟨middle, hbefore, hrest⟩ | ⟨middle, hfirst, hrest⟩
  · exact ⟨middle, hbefore, hrest⟩
  · cases middle with
    | nil =>
      rw [List.append_nil] at hfirst
      exact ⟨[], by rw [hfirst, List.append_nil], hrest.symm⟩
    | cons x middle =>
      obtain rfl : ev = x := (List.cons.inj hrest).1
      exact absurd (by simp [hfirst]) hev

theorem split_before {first rest before after : List Event} {ev : Event} (hev : ev ∉ rest)
    (h : first ++ rest = before ++ ev :: after) :
    ∃ middle, first = before ++ ev :: middle ∧ after = middle ++ rest := by
  rcases List.append_eq_append_iff.1 h with ⟨middle, -, hrest⟩ | ⟨middle, hfirst, hrest⟩
  · exact absurd (by simp [hrest]) hev
  · cases middle with
    | nil =>
      rw [List.nil_append] at hrest
      exact absurd (by simp [← hrest]) hev
    | cons x middle =>
      obtain ⟨rfl, hafter⟩ := List.cons.inj hrest
      exact ⟨middle, hfirst, hafter⟩

namespace Action

variable {α β : Type}

/-! ### Running -/

theorem exec_bind (a : Action α) (f : α → Action β) (s : Session) :
    (a >>= f).exec s = match a.exec s with
      | (.ok x, t) => (f x).exec t
      | (.error e, t) => (.error e, t) := by
  rcases h : a.exec s with ⟨r, t⟩
  change ExceptT.bindCont f (a.exec s).1 (a.exec s).2 = _
  rw [h]
  cases r with
  | error e => rfl
  | ok x => rfl

theorem exec_bind_of_ok {a : Action α} {f : α → Action β} {s t : Session} {x : α}
    (h : a.exec s = (.ok x, t)) : (a >>= f).exec s = (f x).exec t := by
  rw [exec_bind, h]

theorem exec_bind_of_error {a : Action α} {f : α → Action β} {s t : Session} {e : Fault}
    (h : a.exec s = (.error e, t)) : (a >>= f).exec s = (.error e, t) := by
  rw [exec_bind, h]

theorem exec_get_bind (f : Session → Action β) (s : Session) :
    (get >>= f).exec s = (f s).exec s := by
  rw [exec_bind]
  rfl

/-- Two parts that succeed together succeed one after the other. -/
theorem ok_of_exec_bind {a : Action α} {f : α → Action β} {s u : Session} {y : β}
    (h : (a >>= f).exec s = (.ok y, u)) :
    ∃ x t, a.exec s = (.ok x, t) ∧ (f x).exec t = (.ok y, u) := by
  rw [exec_bind] at h
  rcases hrun : a.exec s with ⟨r, t⟩
  rw [hrun] at h
  cases r with
  | error e => cases h
  | ok x => exact ⟨x, t, rfl, h⟩

theorem ok_of_exec_ofExcept {r : Except Fault α} {s t : Session} {x : α}
    (h : (ofExcept r).exec s = (.ok x, t)) : r = .ok x ∧ t = s := by
  cases r with
  | error e => cases h
  | ok y =>
    obtain ⟨hx, ht⟩ := Prod.mk.inj h
    exact ⟨hx, ht.symm⟩

theorem exec_ofRules_of_ok {f : Rules → Except Fault α} {s : Session} {x : α}
    (h : f s.rules = .ok x) : (ofRules f).exec s = (.ok x, s) := by
  rw [ofRules, exec_get_bind, h]
  rfl

theorem ok_of_exec_ofRules {f : Rules → Except Fault α} {s t : Session} {x : α}
    (h : (ofRules f).exec s = (.ok x, t)) : f s.rules = .ok x ∧ t = s := by
  rw [ofRules, exec_get_bind] at h
  exact ok_of_exec_ofExcept h

/-- What was attempted has the outcome that is found. -/
theorem exec_of_attempt {a : Action α} {outcome : Except Fault α} {s t : Session}
    (h : a.attempt.exec s = (.ok outcome, t)) : a.exec s = (outcome, t) := by
  obtain ⟨houtcome, ht⟩ := Prod.mk.inj h
  exact Prod.ext (Except.ok.inj houtcome) ht

theorem exec_send (target : Target) (inTransaction : Bool) (text : String) (args : List Cell)
    (s : Session) :
    (send target inTransaction text args).exec s = (.ok s.answers.next.1, { s with
      answers := s.answers.next.2
      events := s.events ++ [.executed target inTransaction text args s.answers.next.1] }) := rfl

/-- The operation fails and does nothing else. -/
def Fails (a : Action α) : Prop := ∃ e, ∀ s, a.exec s = (.error e, s)

theorem fails_throw (e : Fault) : (throw e : Action α).Fails := ⟨e, fun _ => rfl⟩

theorem Fails.bind {a : Action α} (h : a.Fails) (f : α → Action β) : (a >>= f).Fails := by
  obtain ⟨e, he⟩ := h
  refine ⟨e, fun s => ?_⟩
  rw [exec_bind, he]

/-! ### Logs -/

/-- Whatever the session, the operation adds a log, and its outcome and the log are related. -/
def Logs (a : Action α) (R : Except Fault α → List Event → Prop) : Prop :=
  ∀ s, ∃ log, (a.exec s).2.events = s.events ++ log ∧ R (a.exec s).1 log

theorem Logs.mono {a : Action α} {R S : Except Fault α → List Event → Prop} (h : a.Logs R)
    (hsub : ∀ r log, R r log → S r log) : a.Logs S := by
  intro s
  obtain ⟨log, hlog, hr⟩ := h s
  exact ⟨log, hlog, hsub _ _ hr⟩

/-- What is known of the log that an operation adds holds of the log of any of its runs. -/
theorem Logs.of_run {a : Action α} {R : Except Fault α → List Event → Prop} (h : a.Logs R)
    {s t : Session} {r : Except Fault α} {log : List Event} (hrun : a.exec s = (r, t))
    (hlog : t.events = s.events ++ log) : R r log := by
  obtain ⟨log', hlog', hr⟩ := h s
  rw [hrun] at hlog' hr
  obtain rfl := List.append_cancel_left (hlog'.symm.trans hlog)
  exact hr

theorem logs_of_still {a : Action α} {R : Except Fault α → List Event → Prop}
    (hevents : ∀ s, (a.exec s).2.events = s.events) (h : ∀ s, R (a.exec s).1 []) : a.Logs R := by
  intro s
  exact ⟨[], by rw [hevents, List.append_nil], h s⟩

theorem logs_get_bind {f : Session → Action β} {R : Except Fault β → List Event → Prop}
    (h : ∀ t, (f t).Logs R) : (get >>= f).Logs R := by
  intro s
  rw [exec_bind]
  exact h s s

/-- The log of two parts is that of the first, followed by that of the second when the first
    succeeds. -/
theorem Logs.bind {a : Action α} {f : α → Action β} {R : Except Fault α → List Event → Prop}
    {S : α → Except Fault β → List Event → Prop} {T : Except Fault β → List Event → Prop}
    (ha : a.Logs R) (hf : ∀ x, (f x).Logs (S x))
    (herror : ∀ e log, R (.error e) log → T (.error e) log)
    (hok : ∀ x r first rest, R (.ok x) first → S x r rest → T r (first ++ rest)) :
    (a >>= f).Logs T := by
  intro s
  obtain ⟨first, hfirst, hr⟩ := ha s
  rw [exec_bind]
  rcases hrun : a.exec s with ⟨r, t⟩
  rw [hrun] at hfirst hr
  cases r with
  | error e => exact ⟨first, hfirst, herror e first hr⟩
  | ok x =>
    obtain ⟨rest, hrest, hs⟩ := hf x t
    refine ⟨first ++ rest, ?_, hok x _ first rest hr hs⟩
    rw [← List.append_assoc, ← hfirst]
    exact hrest

/-- What is attempted adds its log; its failure is an outcome like any other. -/
theorem Logs.attempt {a : Action α} {R : Except Fault α → List Event → Prop} (h : a.Logs R) :
    a.attempt.Logs fun r log => ∃ outcome, r = .ok outcome ∧ R outcome log := by
  intro s
  obtain ⟨log, hlog, hr⟩ := h s
  exact ⟨log, hlog, _, rfl, hr⟩

theorem logs_send (target : Target) (inTransaction : Bool) (text : String) (args : List Cell) :
    (send target inTransaction text args).Logs fun r log =>
      ∃ reply, r = .ok reply ∧ log = [.executed target inTransaction text args reply] := by
  intro s
  exact ⟨_, rfl, _, rfl, rfl⟩

theorem logs_pass (moment : Moment) (event : Option SourceFault → Event) :
    (pass moment event).Logs fun r log => ∃ failure, r = .ok failure ∧ log = [event failure] := by
  intro s
  exact ⟨_, rfl, _, rfl, rfl⟩

theorem Logs.then_still {a : Action α} {event : α → Event} {f : α → Action β}
    {g : α → Except Fault β} (ha : a.Logs fun r log => ∃ x, r = .ok x ∧ log = [event x])
    (hf : ∀ x s, (f x).exec s = (g x, s)) :
    (a >>= f).Logs fun r log => ∃ x, r = g x ∧ log = [event x] := by
  have hstill : ∀ x, (f x).Logs fun r log => r = g x ∧ log = [] := by
    intro x
    refine logs_of_still (fun s => ?_) (fun s => ?_)
    · rw [hf]
    · rw [hf]
      exact ⟨rfl, rfl⟩
  refine Logs.bind ha hstill ?_ ?_
  · rintro e log ⟨x, hx, -⟩
    cases hx
  · rintro x r first rest ⟨y, hy, rfl⟩ ⟨rfl, rfl⟩
    obtain rfl : x = y := Except.ok.inj hy
    exact ⟨x, rfl, rfl⟩

/-! ### Events of one kind -/

/-- All events are of one kind, and all of them succeed when the operation does. -/
def Emits (a : Action α) (P : Event → Prop) : Prop :=
  a.Logs fun r log => (∀ ev ∈ log, P ev) ∧ (r.isOk = true → ∀ ev ∈ log, ev.succeeded = true)

variable {P Q : Event → Prop}

theorem Emits.mono {a : Action α} (h : a.Emits P) (hsub : ∀ ev, P ev → Q ev) : a.Emits Q :=
  Logs.mono h fun _ _ hlog => ⟨fun ev hev => hsub ev (hlog.1 ev hev), hlog.2⟩

theorem emits_of_still {a : Action α} (h : ∀ s, (a.exec s).2.events = s.events) : a.Emits P :=
  logs_of_still h fun _ => by simp

theorem emits_pure (a : α) : (pure a : Action α).Emits P := emits_of_still fun _ => rfl

theorem Fails.emits {a : Action α} (h : a.Fails) : a.Emits P := by
  obtain ⟨e, he⟩ := h
  refine emits_of_still fun s => ?_
  rw [he]

theorem emits_throw (e : Fault) : (throw e : Action α).Emits P := (fails_throw e).emits

theorem emits_ofExcept (r : Except Fault α) : (ofExcept r).Emits P := by
  cases r with
  | error e => exact emits_throw e
  | ok a => exact emits_pure a

theorem emits_ofMetadata (r : Except MetadataFault α) : (ofMetadata r).Emits P :=
  emits_ofExcept _

theorem emits_modify {f : Session → Session} (h : ∀ s, (f s).events = s.events) :
    (modify f : Action Unit).Emits P := emits_of_still h

theorem emits_get_bind {f : Session → Action β} (h : ∀ t, (f t).Emits P) :
    (get >>= f).Emits P := logs_get_bind h

theorem emits_ofRules (f : Rules → Except Fault α) : (ofRules f).Emits P :=
  emits_get_bind fun _ => emits_ofExcept _

theorem Emits.bind {a : Action α} {f : α → Action β} (ha : a.Emits P)
    (hf : ∀ x, (f x).Emits P) : (a >>= f).Emits P := by
  -- an error of `a` ends the log, which is of one kind as a whole
  refine Logs.bind ha hf ?_ ?_
  · intro e log h
    exact ⟨h.1, by simp [Except.isOk, Except.toBool]⟩
  · intro x r first rest hfirst hrest
    constructor
    · intro ev hev
      rcases List.mem_append.1 hev with hev | hev
      · exact hfirst.1 ev hev
      · exact hrest.1 ev hev
    · intro hr ev hev
      rcases List.mem_append.1 hev with hev | hev
      · exact hfirst.2 rfl ev hev
      · exact hrest.2 hr ev hev

/-- One event, after which its outcome is looked at: a failure is not passed over. -/
theorem emits_event_bind {a : Action α} {event : α → Event} {f : α → Action β}
    (ha : a.Logs fun r log => ∃ x, r = .ok x ∧ log = [event x]) (hkind : ∀ x, P (event x))
    (hf : ∀ x, (f x).Emits P) (hstop : ∀ x, (event x).succeeded = false → (f x).Fails) :
    (a >>= f).Emits P := by
  -- an event that failed must end the run in an error, which is what `hstop` says
  have hrest : ∀ x, (f x).Logs fun r log => (∀ ev ∈ log, P ev) ∧
      (r.isOk = true → (event x).succeeded = true ∧ ∀ ev ∈ log, ev.succeeded = true) := by
    intro x
    cases hx : (event x).succeeded with
    | true => exact Logs.mono (hf x) fun r log h => ⟨h.1, fun hr => ⟨rfl, h.2 hr⟩⟩
    | false =>
      obtain ⟨e, he⟩ := hstop x hx
      refine logs_of_still (fun s => by rw [he]) fun s => ?_
      rw [he]
      simp [Except.isOk, Except.toBool]
  refine Logs.bind ha hrest ?_ ?_
  · rintro e log ⟨x, hx, -⟩
    cases hx
  · rintro x r first rest ⟨y, hy, rfl⟩ ⟨hkinds, hsucceeded⟩
    obtain rfl : x = y := Except.ok.inj hy
    constructor
    · intro ev hev
      rcases List.mem_cons.1 hev with rfl | hev
      · exact hkind x
      · exact hkinds ev hev
    · intro hr ev hev
      rcases List.mem_cons.1 hev with rfl | hev
      · exact (hsucceeded hr).1
      · exact (hsucceeded hr).2 ev hev

theorem emits_send_bind {target : Target} {inTransaction : Bool} {text : String}
    {args : List Cell} {f : Reply → Action β}
    (hkind : ∀ reply, P (.executed target inTransaction text args reply))
    (hrows : ∀ rows affected, (f (.rows rows affected)).Emits P)
    (hfailure : ∀ cause, (f (.failure cause)).Fails) :
    (send target inTransaction text args >>= f).Emits P := by
  refine emits_event_bind (logs_send target inTransaction text args) hkind ?_ ?_
  · intro reply
    cases reply with
    | rows rows affected => exact hrows rows affected
    | failure cause => exact (hfailure cause).emits
  · intro reply hreply
    cases reply with
    | rows rows affected => cases hreply
    | failure cause => exact hfailure cause

theorem emits_pass_bind {moment : Moment} {event : Option SourceFault → Event}
    {f : Option SourceFault → Action β} (hkind : ∀ failure, P (event failure))
    (hgood : (event none).succeeded = true) (hnone : (f none).Emits P)
    (hsome : ∀ cause, (f (some cause)).Fails) : (pass moment event >>= f).Emits P := by
  refine emits_event_bind (logs_pass moment event) hkind ?_ ?_
  · intro failure
    cases failure with
    | none => exact hnone
    | some cause => exact (hsome cause).emits
  · intro failure hfailure
    cases failure with
    | none =>
      rw [hgood] at hfailure
      cases hfailure
    | some cause => exact hsome cause

end Action

end MetaQuery
