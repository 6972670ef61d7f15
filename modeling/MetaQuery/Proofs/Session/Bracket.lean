/-
  MetaQuery/Proofs/Session/Bracket.lean
  =====================================
  What stands behind the begin of a transaction.

  Behind a begin that succeeded come the steps of the transaction and then one end, a commit or a
  rollback (`Bracket`).  Which of the two it is, and what is reported, is decided by the outcome of
  the steps alone.  An operation is bracketed when this holds behind every begin in its log
  (`Action.Bracketed`); quiet events in front do not disturb it.
-/
import MetaQuery.Proofs.Session.Transaction

namespace MetaQuery

variable {α β : Type}

/-! ### Brackets -/

/-- The steps of a transaction with their own outcome, its end, and the outcome reported. -/
structure Bracket (connection : String) (own r : Except Fault α) (steps : List Event)
    (last : Event) : Prop where
  inside : ∀ ev ∈ steps, Inside (.data connection) ev
  ends : ∃ failure, last = .committed (.data connection) failure ∨
    last = .rolledBack (.data connection) failure
  commits : (∃ failure, last = .committed (.data connection) failure) ↔
    (∀ ev ∈ steps, ev.succeeded = true) ∧ ∀ e, own = .error e → ¬ Refusal e
  stops : ∀ before ev after, steps = before ++ ev :: after → ev.succeeded = false →
    after = [] ∧ ∃ e, ev.fault? = some e ∧ own = .error e
  of_error : ∀ e, own = .error e → r = .error e
  of_committed : last = .committed (.data connection) none → r = own
  of_refused : ∀ cause, last = .committed (.data connection) (some cause) →
    r = .error (.transaction (.notCommitted cause))

/-- Steps that did not come to their end were refused, or one of them failed. -/
theorem StepLog.refusal_or_failed {P : Event → Prop} {e : Fault} {log : List Event}
    (h : StepLog P (.error e : Except Fault α) log) :
    Refusal e ∨ ∃ ev ∈ log, ev.succeeded = false := by
  cases h with
  | refused hrefusal hkind hok => exact .inl hrefusal
  | @failed _ done last hfault hkind hok =>
    exact .inr ⟨last, by simp, Event.not_succeeded_of_fault hfault⟩

theorem bracket_of_end {connection : String} {own r : Except Fault α} {steps ending : List Event}
    (hsteps : StepLog (Inside (.data connection)) own steps)
    (hend : Connection.EndLog connection own r ending) :
    ∃ last, ending = [last] ∧ Bracket connection own r steps last := by
  have hstops : ∀ before ev after, steps = before ++ ev :: after → ev.succeeded = false →
      after = [] ∧ ∃ e, ev.fault? = some e ∧ own = .error e :=
    fun before ev after => hsteps.ends_of_failed
  cases hend with
  | committed a =>
    refine ⟨_, rfl, hsteps.kind, ⟨none, .inl rfl⟩, ?_, hstops, nofun, fun _ => rfl, nofun⟩
    exact ⟨fun _ => ⟨hsteps.succeeded_of_ok, nofun⟩, fun _ => ⟨none, rfl⟩⟩
  | refused a cause =>
    refine ⟨_, rfl, hsteps.kind, ⟨some cause, .inl rfl⟩, ?_, hstops, nofun, nofun, ?_⟩
    · exact ⟨fun _ => ⟨hsteps.succeeded_of_ok, nofun⟩, fun _ => ⟨some cause, rfl⟩⟩
    · rintro cause' ⟨⟩
      rfl
  | rolledBack e failure =>
    refine ⟨_, rfl, hsteps.kind, ⟨failure, .inr rfl⟩, ?_, hstops, fun _ => id, nofun, nofun⟩
    constructor
    · rintro ⟨_, ⟨⟩⟩
    · rintro ⟨hok, hrefusal⟩
      -- an error that is no refusal comes from a statement that failed
      rcases hsteps.refusal_or_failed with h | ⟨ev, hev, hfailed⟩
      · exact absurd h (hrefusal e rfl)
      · rw [hok ev hev] at hfailed
        cases hfailed

theorem Bracket.not_began {connection : String} {own r : Except Fault α} {steps : List Event}
    {last : Event} (h : Bracket connection own r steps last) (target : Target) :
    .began target none ∉ steps ++ [last] := by
  intro hmem
  rcases List.mem_append.1 hmem with hmem | hmem
  · rcases h.inside _ hmem with ⟨⟨⟩⟩
  · obtain ⟨failure, hlast | hlast⟩ := h.ends
    · rw [hlast] at hmem
      simp at hmem
    · rw [hlast] at hmem
      simp at hmem

/-! ### Bracketed operations -/

namespace Action

/-- Behind every begin in the log, steps of the given kind are carried out in the state that the
    begin leaves, and they stand in a bracket.  Before it, there are only quiet events. -/
def Bracketed (a : Action α) (s : Session) (body : String → Action α → Prop) : Prop :=
  ∃ log, (a.exec s).2.events = s.events ++ log ∧
    ∀ before target after, log = before ++ .began target none :: after →
      ∃ (connection : String) (steps : Action α) (t : Session) (inner : List Event) (last : Event),
        target = .data connection ∧ body connection steps ∧ (∀ ev ∈ before, Quiet ev) ∧
        t.events = s.events ++ before ++ [.began target none] ∧
        (steps.exec t).2.events = t.events ++ inner ∧ after = inner ++ [last] ∧
        Bracket connection (steps.exec t).1 (a.exec s).1 inner last

theorem Bracketed.mono {a : Action α} {s : Session} {body body' : String → Action α → Prop}
    (h : a.Bracketed s body) (hsub : ∀ c b, body c b → body' c b) : a.Bracketed s body' := by
  obtain ⟨log, hlog, hbrackets⟩ := h
  refine ⟨log, hlog, fun before target after hsplit => ?_⟩
  obtain ⟨connection, steps, t, inner, last, htarget, hbody, hrest⟩ :=
    hbrackets before target after hsplit
  exact ⟨connection, steps, t, inner, last, htarget, hsub _ _ hbody, hrest⟩

theorem Emits.bind_bracketed {a : Action α} {f : α → Action β} {s : Session}
    {body : String → Action β → Prop} (ha : a.Emits Quiet)
    (hf : ∀ x t, a.exec s = (.ok x, t) → (f x).Bracketed t body) :
    (a >>= f).Bracketed s body := by
  obtain ⟨opening, hopening, hquiet, -⟩ := ha s
  -- quiet events are looked up before anything begins
  have hnot : ∀ target, Event.began target none ∉ opening := by
    intro target hmem
    cases hquiet _ hmem
  rw [Bracketed, exec_bind]
  rcases hrun : a.exec s with ⟨r, u⟩
  rw [hrun] at hopening
  cases r with
  | error e =>
    refine ⟨opening, hopening, fun before target after hlog => ?_⟩
    exact absurd (by simp [hlog]) (hnot target)
  | ok x =>
    obtain ⟨rest, hrest, hbrackets⟩ := hf x u hrun
    refine ⟨opening ++ rest, ?_, fun before target after hlog => ?_⟩
    · rw [← List.append_assoc, ← hopening]
      exact hrest
    · -- the begin is none of the quiet events in front, so it belongs to the rest
      obtain ⟨middle, rfl, hmiddle⟩ := split_behind (hnot target) hlog
      obtain ⟨connection, steps, t, inner, last, htarget, hbody, hbefore, ht, hrest⟩ :=
        hbrackets middle target after hmiddle
      refine ⟨connection, steps, t, inner, last, htarget, hbody, fun ev hev => ?_, ?_, hrest⟩
      · rcases List.mem_append.1 hev with hev | hev
        · exact hquiet ev hev
        · exact hbefore ev hev
      · rw [ht, hopening]
        simp only [List.append_assoc]

end Action

/-- **A transaction is bracketed**: steps that stop where something fails stand behind its begin,
    and one commit or rollback behind them. -/
theorem Connection.transaction_bracketed {connection : String} {steps : Action α}
    (h : steps.Steps (Inside (.data connection))) (s : Session) :
    (transaction connection steps).Bracketed s fun c b => c = connection ∧ b = steps := by
  obtain ⟨first, hfirst, hbegin⟩ := begin_logs connection s
  rw [transaction_eq, Action.Bracketed, Action.exec_bind]
  rcases hrun : (begin connection).exec s with ⟨r, t⟩
  rw [hrun] at hfirst hbegin
  cases hbegin with
  | unopened hquiet =>
    refine ⟨first, hfirst, fun before target after hlog => ?_⟩
    have hmem : Event.began target none ∈ first := by simp [hlog]
    cases hquiet _ hmem
  | @refused opening cause hquiet hopened =>
    refine ⟨_, hfirst, fun before target after hlog => ?_⟩
    have hmem : Event.began target none ∈ opening ++ [.began (.data connection) (some cause)] := by
      simp [hlog]
    rcases List.mem_append.1 hmem with hmem | hmem
    · cases hquiet _ hmem
    · simp at hmem
  | @begun opening hquiet hopened =>
    obtain ⟨inner, hinner, hsteps⟩ := h t
    obtain ⟨ending, hending, hend⟩ := finish_logs connection (steps.exec t).1 (steps.exec t).2
    obtain ⟨last, rfl, hbracket⟩ := bracket_of_end hsteps hend
    refine ⟨opening ++ .began (.data connection) none :: (inner ++ [last]), ?_, ?_⟩
    · refine hending.trans ?_
      rw [hinner, hfirst]
      simp
    · intro before target after hlog
      have hnot : Event.began target none ∉ opening := fun hmem => by cases hquiet _ hmem
      obtain ⟨middle, rfl, hmiddle⟩ := split_behind hnot hlog
      -- no other begin stands behind the first one
      cases middle with
      | cons x middle =>
        obtain ⟨-, hrest⟩ := List.cons.inj hmiddle
        exact absurd (by simp [hrest]) (hbracket.not_began target)
      | nil =>
        obtain ⟨hbegan, rfl⟩ := List.cons.inj hmiddle
        obtain rfl : Target.data connection = target := by simpa using hbegan
        rw [List.append_nil]
        refine ⟨connection, steps, t, inner, last, rfl, ⟨rfl, rfl⟩, hquiet, ?_, hinner, rfl,
          hbracket⟩
        rw [hfirst, List.append_assoc]

end MetaQuery
