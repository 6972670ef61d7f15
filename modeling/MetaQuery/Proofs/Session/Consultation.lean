/-
  MetaQuery/Proofs/Session/Consultation.lean
  ==========================================
  Operations that go on with a session, and those that only look something up.

  A steady operation keeps the store and the settings, takes replies from the front and adds
  events at the end (`Session.Precedes`).  A consultation is steady, stops where something fails,
  and its outcome is decided by the store, the settings and the replies to the statements on the
  metadata.  So two consultations of one kind agree as long as the metadata give the same answers
  (`Consults.agree`), however far apart they are, and what was found once is found again
  (`Finds`).
-/
import Mathlib.Tactic.Choose
import MetaQuery.Proofs.Session.Steps

namespace MetaQuery

/-! ### Going on with a session -/

/-- The second state comes after the first one, with the same store and settings. -/
structure Session.Precedes (s t : Session) : Prop where
  store : t.store = s.store
  settings : t.settings = s.settings
  replies : t.answers.replies <:+ s.answers.replies
  events : s.events <+: t.events

theorem Session.Precedes.refl (s : Session) : s.Precedes s :=
  ⟨rfl, rfl, List.suffix_refl _, List.prefix_refl _⟩

theorem Session.Precedes.trans {s t u : Session} (hst : s.Precedes t) (htu : t.Precedes u) :
    s.Precedes u where
  store := htu.store.trans hst.store
  settings := htu.settings.trans hst.settings
  replies := htu.replies.trans hst.replies
  events := hst.events.trans htu.events

theorem Answers.next_suffix (a : Answers) : a.next.2.replies <:+ a.replies := by
  unfold Answers.next
  split
  · exact List.suffix_refl _
  · next reply rest h =>
    rw [h]
    exact List.suffix_cons reply rest

/-- A reply that holds rows is used up. -/
theorem Answers.length_next_lt {a : Answers} {rows : List SourceRow} {affected : Nat}
    (h : a.next.1 = .rows rows affected) (hrows : rows ≠ []) :
    a.next.2.replies.length < a.replies.length := by
  rcases hreplies : a.replies with _ | ⟨reply, rest⟩
  · rw [Answers.next, hreplies] at h
    obtain ⟨hnil, -⟩ := Reply.rows.inj h
    exact absurd hnil.symm hrows
  · rw [Answers.next, hreplies]
    exact Nat.lt_succ_self _

theorem Answers.replies_meet (a : Answers) (moment : Moment) :
    (a.meet moment).2.replies = a.replies := by
  unfold Answers.meet
  split
  · rfl
  · rfl

/-- What stands between two states of which one precedes the other. -/
theorem Session.Precedes.log {s t : Session} (h : s.Precedes t) :
    ∃ log, t.events = s.events ++ log := by
  obtain ⟨log, hlog⟩ := h.events
  exact ⟨log, hlog.symm⟩

/-- A statement on the metadata is answered as the given collection of replies says. -/
def Event.Gives (answer : String → List Cell → Reply) : Event → Prop
  | .executed .metadata _ text args reply => reply = answer text args
  | _ => True

namespace Action

variable {α β : Type} {P Q : Event → Prop}

/-! ### Steady operations -/

def Steady (a : Action α) : Prop := ∀ s : Session, s.Precedes (a.exec s).2

theorem Steady.settings_eq {a : Action α} (h : a.Steady) {s t : Session} {r : Except Fault α}
    (hrun : a.exec s = (r, t)) : t.settings = s.settings := by
  have hsettings := (h s).settings
  rwa [hrun] at hsettings

theorem steady_of_still {a : Action α} (h : ∀ s, (a.exec s).2 = s) : a.Steady := by
  intro s
  rw [h]
  exact .refl s

theorem steady_pure (a : α) : (pure a : Action α).Steady := steady_of_still fun _ => rfl

theorem Fails.steady {a : Action α} (h : a.Fails) : a.Steady := by
  obtain ⟨e, he⟩ := h
  exact steady_of_still fun s => by rw [he]

theorem steady_throw (e : Fault) : (throw e : Action α).Steady := (fails_throw e).steady

theorem steady_ofExcept (r : Except Fault α) : (ofExcept r).Steady := by
  cases r with
  | error e => exact steady_throw e
  | ok a => exact steady_pure a

theorem steady_modify {f : Session → Session} (h : ∀ s : Session, s.Precedes (f s)) :
    (modify f : Action Unit).Steady := h

theorem steady_get_bind {f : Session → Action β} (h : ∀ t, (f t).Steady) :
    (get >>= f).Steady := by
  intro s
  rw [exec_bind]
  exact h s s

theorem steady_ofRules (f : Rules → Except Fault α) : (ofRules f).Steady :=
  steady_get_bind fun _ => steady_ofExcept _

theorem Steady.bind {a : Action α} {f : α → Action β} (ha : a.Steady) (hf : ∀ x, (f x).Steady) :
    (a >>= f).Steady := by
  intro s
  have hfirst := ha s
  rw [exec_bind]
  rcases hrun : a.exec s with ⟨r, t⟩
  rw [hrun] at hfirst
  cases r with
  | error e => exact hfirst
  | ok x => exact hfirst.trans (hf x t)

theorem Steady.attempt {a : Action α} (h : a.Steady) : a.attempt.Steady := h

/-- Two parts that succeed together, with the states that they lead to and the logs between. -/
theorem Steady.split {a : Action α} {f : α → Action β} (ha : a.Steady) (hf : ∀ x, (f x).Steady)
    {s u : Session} {y : β} {log : List Event} (h : (a >>= f).exec s = (.ok y, u))
    (hlog : u.events = s.events ++ log) :
    ∃ x t first rest, a.exec s = (.ok x, t) ∧ (f x).exec t = (.ok y, u) ∧ s.Precedes t ∧
      t.Precedes u ∧ t.events = s.events ++ first ∧ u.events = t.events ++ rest ∧
      log = first ++ rest := by
  obtain ⟨x, t, hfirst, hrest⟩ := ok_of_exec_bind h
  have hst := ha s
  have htu := hf x t
  rw [hfirst] at hst
  rw [hrest] at htu
  obtain ⟨first, ht⟩ := hst.log
  obtain ⟨rest, hu⟩ := htu.log
  refine ⟨x, t, first, rest, hfirst, hrest, hst, htu, ht, hu, ?_⟩
  have hevents : u.events = s.events ++ (first ++ rest) := by
    rw [hu, ht, List.append_assoc]
  exact List.append_cancel_left (hlog.symm.trans hevents)

/-- What is done with the outcome of a first part shows behind the log of that part. -/
theorem log_behind {a : Action α} {f : α → Action β} (hf : ∀ x, (f x).Steady)
    {s t : Session} {x : α} {first log : List Event} (hrun : a.exec s = (.ok x, t))
    (hfirst : t.events = s.events ++ first)
    (hlog : ((a >>= f).exec s).2.events = s.events ++ log) :
    ∃ rest, log = first ++ rest ∧ ((f x).exec t).2.events = t.events ++ rest := by
  obtain ⟨rest, hrest⟩ := (hf x t).log
  refine ⟨rest, ?_, hrest⟩
  rw [exec_bind_of_ok hrun, hrest, hfirst, List.append_assoc] at hlog
  exact (List.append_cancel_left hlog).symm

theorem steady_send (target : Target) (inTransaction : Bool) (text : String) (args : List Cell) :
    (send target inTransaction text args).Steady :=
  fun s => ⟨rfl, rfl, s.answers.next_suffix, List.prefix_append _ _⟩

theorem steady_pass (moment : Moment) (event : Option SourceFault → Event) :
    (pass moment event).Steady := by
  intro s
  have hreplies : ((pass moment event).exec s).2.answers.replies = s.answers.replies :=
    s.answers.replies_meet moment
  exact ⟨rfl, rfl, hreplies ▸ List.suffix_refl _, List.prefix_append _ _⟩

/-! ### Consultations -/

/-- What a consultation makes of a state, where `value` is what it finds under given answers. -/
structure Consultation (P : Event → Prop) (answer : String → List Cell → Reply)
    (value : Store → Settings → Except Fault α) (s : Session) (out : Except Fault α × Session)
    (log : List Event) : Prop where
  precedes : s.Precedes out.2
  events : out.2.events = s.events ++ log
  steps : StepLog P out.1 log
  value : (∀ ev ∈ log, ev.Gives answer) → out.1 = value s.store s.settings

/-- The operation looks something up in the metadata. -/
def Consults (a : Action α) (P : Event → Prop) : Prop :=
  ∀ answer, ∃ value, ∀ s, ∃ log, Consultation P answer value s (a.exec s) log

theorem Consults.steps {a : Action α} (h : a.Consults P) : a.Steps P := by
  intro s
  obtain ⟨value, hvalue⟩ := h fun _ _ => .rows [] 0
  obtain ⟨log, hlog⟩ := hvalue s
  exact ⟨log, hlog.events, hlog.steps⟩

theorem Consults.steady {a : Action α} (h : a.Consults P) : a.Steady := by
  intro s
  obtain ⟨value, hvalue⟩ := h fun _ _ => .rows [] 0
  obtain ⟨log, hlog⟩ := hvalue s
  exact hlog.precedes

/-- **Consultations agree** when the metadata give the same answers to both. -/
theorem Consults.agree {a : Action α} (h : a.Consults P) {s t : Session}
    (hstore : t.store = s.store) (hsettings : t.settings = s.settings)
    {answer : String → List Cell → Reply} {first second : List Event}
    (hfirst : (a.exec s).2.events = s.events ++ first) (hgives : ∀ ev ∈ first, ev.Gives answer)
    (hsecond : (a.exec t).2.events = t.events ++ second)
    (hgives' : ∀ ev ∈ second, ev.Gives answer) : (a.exec t).1 = (a.exec s).1 := by
  obtain ⟨value, hvalue⟩ := h answer
  have hdecided : ∀ {u : Session} {log : List Event}, (a.exec u).2.events = u.events ++ log →
      (∀ ev ∈ log, ev.Gives answer) → (a.exec u).1 = value u.store u.settings := by
    intro u log hevents hlog
    obtain ⟨log', hrun⟩ := hvalue u
    obtain rfl : log' = log := List.append_cancel_left (hrun.events.symm.trans hevents)
    exact hrun.value hlog
  rw [hdecided hfirst hgives, hdecided hsecond hgives', hstore, hsettings]

/-- Wherever the store and the settings are those of the state and the metadata answer as given,
    the operation finds the given value. -/
def Finds (a : Action α) (x : α) (answer : String → List Cell → Reply) (s : Session) : Prop :=
  ∀ (t : Session) (log : List Event), t.store = s.store → t.settings = s.settings →
    (a.exec t).2.events = t.events ++ log → (∀ ev ∈ log, ev.Gives answer) →
    (a.exec t).1 = .ok x

theorem Consults.finds {a : Action α} (h : a.Consults P) {x : α}
    {answer : String → List Cell → Reply} {s : Session} {log : List Event}
    (hx : (a.exec s).1 = .ok x) (hlog : (a.exec s).2.events = s.events ++ log)
    (hgives : ∀ ev ∈ log, ev.Gives answer) : a.Finds x answer s := by
  intro t log' hstore hsettings hlog' hgives'
  rw [h.agree hstore hsettings hlog hgives hlog' hgives', hx]

theorem Finds.of_precedes {a : Action α} {x : α} {answer : String → List Cell → Reply}
    {s t : Session} (h : a.Finds x answer s) (hst : s.Precedes t) : a.Finds x answer t :=
  fun u log hstore hsettings => h u log (hstore.trans hst.store) (hsettings.trans hst.settings)

/-- A lookup in front of a run that succeeds, with what it finds and what is left of the log. -/
theorem Consults.split {a : Action α} (ha : a.Consults P) {f : α → Action β}
    (hf : ∀ x, (f x).Steady) {answer : String → List Cell → Reply} {s u : Session} {y : β}
    {log : List Event} (hrun : (a >>= f).exec s = (.ok y, u))
    (hlog : u.events = s.events ++ log) (hgives : ∀ ev ∈ log, ev.Gives answer) :
    ∃ x t first rest, a.Finds x answer s ∧ (f x).exec t = (.ok y, u) ∧ s.Precedes t ∧
      u.events = t.events ++ rest ∧ log = first ++ rest ∧ (∀ ev ∈ first, P ev) ∧
      ∀ ev ∈ rest, ev.Gives answer := by
  obtain ⟨x, t, first, rest, hfirst, hrest, hst, -, ht, hu, rfl⟩ := ha.steady.split hf hrun hlog
  refine ⟨x, t, first, rest, ?_, hrest, hst, hu, rfl, (Logs.of_run ha.steps hfirst ht).kind,
    fun ev hev => hgives ev (List.mem_append_right _ hev)⟩
  exact ha.finds (by rw [hfirst]) (by rw [hfirst, ht]) fun ev hev =>
    hgives ev (List.mem_append_left _ hev)

/-- A consultation whose outcome is known, in front of a run that succeeds. -/
theorem Finds.split {a : Action α} {x : α} {answer : String → List Cell → Reply} {s u : Session}
    (h : a.Finds x answer s) (ha : a.Consults P) {f : α → Action β} (hf : ∀ x, (f x).Steady)
    {y : β} {log : List Event} (hrun : (a >>= f).exec s = (.ok y, u))
    (hlog : u.events = s.events ++ log) (hgives : ∀ ev ∈ log, ev.Gives answer) :
    ∃ t first rest, (f x).exec t = (.ok y, u) ∧ s.Precedes t ∧ u.events = t.events ++ rest ∧
      log = first ++ rest ∧ ∀ ev ∈ first, P ev := by
  obtain ⟨x', t, first, rest, hfirst, hrest, hst, -, ht, hu, rfl⟩ :=
    ha.steady.split hf hrun hlog
  have hfound := h s first rfl rfl (by rw [hfirst, ht]) fun ev hev =>
    hgives ev (List.mem_append_left _ hev)
  rw [hfirst] at hfound
  obtain rfl : x' = x := Except.ok.inj hfound
  exact ⟨t, first, rest, hrest, hst, hu, rfl, (Logs.of_run ha.steps hfirst ht).kind⟩

/-- What is found later on was to be found before. -/
theorem Finds.before {a : Action α} {x : α} {answer : String → List Cell → Reply} {s t : Session}
    (h : a.Finds x answer t) (hst : s.Precedes t) : a.Finds x answer s :=
  fun u log hstore hsettings =>
    h u log (hstore.trans hst.store.symm) (hsettings.trans hst.settings.symm)

/-- A sequence finds what its second part finds with what the first one finds. -/
theorem Finds.bind {a : Action α} {f : α → Action β} {x : α} {y : β}
    {answer : String → List Cell → Reply} {s : Session} (h : a.Finds x answer s) (ha : a.Steady)
    (hf : ∀ x, (f x).Steady) (hx : (f x).Finds y answer s) : (a >>= f).Finds y answer s := by
  intro t log hstore hsettings hlog hgives
  have htu := ha t
  -- in any other session of the same answers the first part finds the same value
  rcases hrun : a.exec t with ⟨r, u⟩
  rw [hrun] at htu
  obtain ⟨first, hfirst⟩ := htu.log
  cases r with
  | error e =>
    rw [exec_bind_of_error hrun] at hlog
    have hfound := h t log hstore hsettings (by rw [hrun]; exact hlog) hgives
    rw [hrun] at hfound
    cases hfound
  | ok x' =>
    obtain ⟨rest, rfl, hrest⟩ := log_behind hf hrun hfirst hlog
    have hfound := h t first hstore hsettings (by rw [hrun]; exact hfirst) fun ev hev =>
      hgives ev (List.mem_append_left _ hev)
    rw [hrun] at hfound
    obtain rfl : x' = x := Except.ok.inj hfound
    rw [exec_bind_of_ok hrun]
    exact hx u rest (htu.store.trans hstore) (htu.settings.trans hsettings) hrest fun ev hev =>
      hgives ev (List.mem_append_right _ hev)

theorem consults_of_still {a : Action α} {value : Except Fault α}
    (hrun : ∀ s, a.exec s = (value, s)) (hvalue : Refuses value) : a.Consults P := by
  intro answer
  refine ⟨fun _ _ => value, fun s => ⟨[], ?_⟩⟩
  rw [hrun]
  refine ⟨.refl s, (List.append_nil _).symm, ?_, fun _ => rfl⟩
  cases value with
  | error e => exact .nil_refused (hvalue e rfl)
  | ok a => exact .nil_done a

theorem consults_pure (a : α) : (pure a : Action α).Consults P :=
  consults_of_still (fun _ => rfl) (refuses_ok a)

theorem consults_throw {e : Fault} (h : Refusal e) : (throw e : Action α).Consults P :=
  consults_of_still (fun _ => rfl) (refuses_error h)

theorem consults_ofExcept {r : Except Fault α} (h : Refuses r) : (ofExcept r).Consults P := by
  cases r with
  | error e => exact consults_throw (h e rfl)
  | ok a => exact consults_pure a

theorem consults_ofMetadata (r : Except MetadataFault α) : (ofMetadata r).Consults P :=
  consults_ofExcept (refuses_mapError r)

/-- What is found may depend on the store and on the settings. -/
theorem consults_get_bind {f : Store → Settings → Action β} (h : ∀ st se, (f st se).Consults P) :
    (get >>= fun s => f s.store s.settings).Consults P := by
  intro answer
  choose value hvalue using fun st se => h st se answer
  refine ⟨fun st se => value st se st se, fun s => ?_⟩
  obtain ⟨log, hlog⟩ := hvalue s.store s.settings s
  exact ⟨log, hlog.precedes, hlog.events, hlog.steps, hlog.value⟩

theorem Consults.bind {a : Action α} {f : α → Action β} (ha : a.Consults P)
    (hf : ∀ x, (f x).Consults P) : (a >>= f).Consults P := by
  intro answer
  obtain ⟨value, hvalue⟩ := ha answer
  -- the value of the whole is made of the two values, each a function of what is kept
  choose next hnext using fun x => hf x answer
  refine ⟨fun st se => value st se >>= fun x => next x st se, fun s => ?_⟩
  obtain ⟨first, hfirst⟩ := hvalue s
  rw [exec_bind]
  rcases hrun : a.exec s with ⟨r, t⟩
  rw [hrun] at hfirst
  cases r with
  | error e =>
    refine ⟨first, hfirst.precedes, hfirst.events, hfirst.steps.of_error, fun hgives => ?_⟩
    rw [← hfirst.value hgives]
    rfl
  | ok x =>
    obtain ⟨rest, hrest⟩ := hnext x t
    refine ⟨first ++ rest, hfirst.precedes.trans hrest.precedes, ?_,
      hfirst.steps.append hrest.steps, fun hgives => ?_⟩
    · rw [← List.append_assoc, ← hfirst.events]
      exact hrest.events
    · have hx := hfirst.value fun ev hev => hgives ev (List.mem_append_left _ hev)
      have hy := hrest.value fun ev hev => hgives ev (List.mem_append_right _ hev)
      rw [hfirst.precedes.store, hfirst.precedes.settings] at hy
      rw [← hx, hy]
      rfl

theorem consults_mapM {f : α → Action β} (h : ∀ x, (f x).Consults P) (xs : List α) :
    (xs.mapM f).Consults P := by
  induction xs with
  | nil =>
    rw [List.mapM_nil]
    exact consults_pure []
  | cons x xs ih =>
    rw [List.mapM_cons]
    exact (h x).bind fun y => ih.bind fun ys => consults_pure (y :: ys)

/-- A statement on the metadata is a consultation when nothing but its reply is looked at. -/
theorem consults_send_bind {inTransaction : Bool} {text : String} {args : List Cell}
    {f : Reply → Action β}
    (hkind : ∀ reply, P (.executed .metadata inTransaction text args reply))
    (hrows : ∀ rows affected, ∃ x, f (.rows rows affected) = pure x)
    (hfailure : ∀ cause, f (.failure cause) = throw (.database cause)) :
    (send .metadata inTransaction text args >>= f).Consults P := by
  -- behind the reply nothing is sent any more
  have hstill : ∀ reply, ∃ r, ∀ s, (f reply).exec s = (r, s) := by
    intro reply
    cases reply with
    | rows rows affected =>
      obtain ⟨x, hx⟩ := hrows rows affected
      exact ⟨.ok x, fun s => by rw [hx]; rfl⟩
    | failure cause => exact ⟨.error (.database cause), fun s => by rw [hfailure]; rfl⟩
  choose outcome houtcome using hstill
  have hsteps : (send .metadata inTransaction text args >>= f).Steps P := by
    refine steps_send_bind hkind ?_ ?_
    · intro rows affected
      obtain ⟨x, hx⟩ := hrows rows affected
      rw [hx]
      exact steps_pure x
    · exact fun cause => ⟨.database cause, hfailure cause, rfl⟩
  have hsent := Logs.then_still (logs_send .metadata inTransaction text args) houtcome
  intro answer
  refine ⟨fun _ _ => outcome (answer text args), fun s => ?_⟩
  obtain ⟨log, hlog, hstep⟩ := hsteps s
  obtain ⟨log', hlog', reply, hout, rfl⟩ := hsent s
  obtain rfl := List.append_cancel_left (hlog.symm.trans hlog')
  refine ⟨_, ?_, hlog, hstep, fun hgives => ?_⟩
  · refine (steady_send .metadata inTransaction text args).bind (fun reply => ?_) s
    exact steady_of_still fun t => by rw [houtcome]
  · have hreply : reply = answer text args := hgives _ (List.mem_singleton_self _)
    rw [hout, hreply]

end Action

end MetaQuery
