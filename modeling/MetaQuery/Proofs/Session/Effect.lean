/-
  MetaQuery/Proofs/Session/Effect.lean
  ====================================
  Which changes a log leaves in effect.

  A change takes effect when it is answered outside of a transaction, and inside of one when the
  transaction is committed.  `Atomicity` relates the outcome of an operation to its log: a failure
  leaves no change in effect, and a success leaves all of them, with every transaction committed.
  Quiet events in front keep this relation, a statement run by itself has it, and so does a
  transaction around statements of its own.
-/
import MetaQuery.Proofs.Session.Transaction

namespace MetaQuery

/-! ### Changes in effect -/

def Event.isChange : Event → Bool
  | .executed _ _ text _ _ => isChangeText text
  | _ => false

/-- The change is in effect after the log: it was answered by itself, or in a transaction that was
    committed afterwards. -/
inductive InEffect (log : List Event) : Event → Prop where
  | alone {target : Target} {text : String} {args : List Cell} {rows : List SourceRow}
      {affected : Nat} (hchange : isChangeText text = true)
      (hmem : .executed target false text args (.rows rows affected) ∈ log) :
      InEffect log (.executed target false text args (.rows rows affected))
  | committed {target : Target} {text : String} {args : List Cell} {rows : List SourceRow}
      {affected : Nat} {before between after : List Event} (hchange : isChangeText text = true)
      (hlog : log = before ++ .executed target true text args (.rows rows affected) ::
        (between ++ .committed target none :: after))
      (hbetween : ∀ ev ∈ between, Within target ev) :
      InEffect log (.executed target true text args (.rows rows affected))

/-- Statements of a transaction stand behind its begin. -/
def Scoped (log : List Event) : Prop :=
  ∀ before target text args reply after,
    log = before ++ .executed target true text args reply :: after →
    ∃ earlier between, before = earlier ++ .began target none :: between ∧
      ∀ ev ∈ between, Within target ev

/-- Every transaction that was begun is committed, with nothing but its statements and quiet
    events in between. -/
def AllCommitted (log : List Event) : Prop :=
  ∀ before target after, log = before ++ .began target none :: after →
    ∃ between rest, after = between ++ .committed target none :: rest ∧
      ∀ ev ∈ between, Within target ev

/-- The log has left nothing: no change was answered outside of a transaction, and no transaction
    was committed. -/
structure LeavesNothing (log : List Event) : Prop where
  none_alone : ∀ target text args rows affected,
    .executed target false text args (.rows rows affected) ∈ log → isChangeText text = false
  none_committed : ∀ target, .committed target none ∉ log
  none_in_effect : ∀ ev, ¬ InEffect log ev

/-- The log is complete: everything succeeded, transactions are committed, and all changes are in
    effect. -/
structure Complete (log : List Event) : Prop where
  succeeded : ∀ ev ∈ log, ev.succeeded = true
  committed : AllCommitted log
  in_effect : ∀ ev ∈ log, ev.isChange = true → InEffect log ev

/-- What a failure and what a success leave behind. -/
structure Atomicity {α : Type} (r : Except Fault α) (log : List Event) : Prop where
  in_scope : Scoped log
  of_error : ∀ e, r = .error e → LeavesNothing log
  of_ok : ∀ a, r = .ok a → Complete log

theorem leavesNothing_of {log : List Event}
    (halone : ∀ target text args rows affected,
      .executed target false text args (.rows rows affected) ∈ log → isChangeText text = false)
    (hcommitted : ∀ target, .committed target none ∉ log) : LeavesNothing log := by
  refine ⟨halone, hcommitted, ?_⟩
  rintro ev (⟨hchange, hmem⟩ | @⟨target, text, args, rows, affected, before, between, after,
    hchange, hlog, hbetween⟩)
  · rw [halone _ _ _ _ _ hmem] at hchange
    cases hchange
  · refine hcommitted target ?_
    rw [hlog]
    simp

/-! ### Events of a transaction -/

theorem Quiet.isChange_eq {ev : Event} (h : Quiet ev) : ev.isChange = false := by
  cases h with
  | connected connection url failure => rfl
  | read h => exact h

theorem Within.not_began {target t : Target} : ¬ Within target (.began t none) := by
  rintro ⟨⟨⟩⟩

theorem Within.not_committed {target t : Target} {failure : Option SourceFault} :
    ¬ Within target (.committed t failure) := by
  rintro ⟨⟨⟩⟩

theorem Within.isChangeText_alone {target t : Target} {text : String} {args : List Cell}
    {reply : Reply} (h : Within target (.executed t false text args reply)) :
    isChangeText text = false := by
  cases h with
  | quiet h =>
    cases h with
    | read h => exact h

theorem Within.target_eq {target t : Target} {text : String} {args : List Cell} {reply : Reply}
    (h : Within target (.executed t true text args reply)) : t = target := by
  rcases h with ⟨⟨⟩⟩ | _
  rfl

/-! ### Logs of operations that write -/

theorem atomicity_of_quiet {α : Type} {r : Except Fault α} {log : List Event}
    (hquiet : ∀ ev ∈ log, Quiet ev) (hok : r.isOk = true → ∀ ev ∈ log, ev.succeeded = true) :
    Atomicity r log := by
  -- nothing inside a transaction, nothing changed, nothing begun
  constructor
  · intro before target text args reply after hlog
    have hmem : Event.executed target true text args reply ∈ log := by simp [hlog]
    cases hquiet _ hmem
  · intro e _
    refine leavesNothing_of ?_ ?_
    · intro target text args rows affected hmem
      exact (hquiet _ hmem).isChange_eq
    · intro target hmem
      cases hquiet _ hmem
  · intro a hr
    subst hr
    refine ⟨hok rfl, ?_, ?_⟩
    · intro before target after hlog
      have hmem : Event.began target none ∈ log := by simp [hlog]
      cases hquiet _ hmem
    · intro ev hev hchange
      rw [(hquiet ev hev).isChange_eq] at hchange
      cases hchange

theorem InEffect.append {log : List Event} {ev : Event} (h : InEffect log ev)
    (opening : List Event) : InEffect (opening ++ log) ev := by
  rcases h with ⟨hchange, hmem⟩ | @⟨target, text, args, rows, affected, before, between, after,
    hchange, hlog, hbetween⟩
  · exact .alone hchange (List.mem_append_right opening hmem)
  · have hbehind : opening ++ log = (opening ++ before) ++
        .executed target true text args (.rows rows affected) ::
          (between ++ .committed target none :: after) := by
      rw [hlog, List.append_assoc]
    exact .committed hchange hbehind hbetween

/-- Quiet events in front change nothing. -/
theorem Atomicity.behind {α : Type} {r : Except Fault α} {opening log : List Event}
    (h : Atomicity r log) (hquiet : ∀ ev ∈ opening, Quiet ev)
    (hopened : ∀ ev ∈ opening, ev.succeeded = true) : Atomicity r (opening ++ log) := by
  constructor
  · intro before target text args reply after hlog
    have hnot : Event.executed target true text args reply ∉ opening := by
      intro hmem
      cases hquiet _ hmem
    obtain ⟨middle, rfl, hrest⟩ := split_behind hnot hlog
    -- a statement of a transaction is none of the quiet events, so its begin is behind them too
    obtain ⟨earlier, between, rfl, hbetween⟩ := h.in_scope _ _ _ _ _ _ hrest
    exact ⟨opening ++ earlier, between, by simp, hbetween⟩
  · intro e hr
    have hnothing := h.of_error e hr
    refine leavesNothing_of ?_ ?_
    · intro target text args rows affected hmem
      rcases List.mem_append.1 hmem with hmem | hmem
      · exact (hquiet _ hmem).isChange_eq
      · exact hnothing.none_alone _ _ _ _ _ hmem
    · intro target hmem
      rcases List.mem_append.1 hmem with hmem | hmem
      · cases hquiet _ hmem
      · exact hnothing.none_committed target hmem
  · intro a hr
    have hcomplete := h.of_ok a hr
    refine ⟨?_, ?_, ?_⟩
    · intro ev hev
      rcases List.mem_append.1 hev with hev | hev
      · exact hopened ev hev
      · exact hcomplete.succeeded ev hev
    · intro before target after hlog
      have hnot : Event.began target none ∉ opening := by
        intro hmem
        cases hquiet _ hmem
      obtain ⟨middle, -, hrest⟩ := split_behind hnot hlog
      exact hcomplete.committed _ _ _ hrest
    · intro ev hev hchange
      rcases List.mem_append.1 hev with hev | hev
      · rw [(hquiet ev hev).isChange_eq] at hchange
        cases hchange
      · exact (hcomplete.in_effect ev hev hchange).append opening

theorem atomicity_of_statement {α : Type} {r : Except Fault α} {target : Target} {text : String}
    {args : List Cell} {reply : Reply}
    (hreply : r.isOk = (Event.executed target false text args reply).succeeded) :
    Atomicity r [.executed target false text args reply] := by
  constructor
  · intro before t x xs y after hlog
    have hmem : Event.executed t true x xs y ∈ [.executed target false text args reply] := by
      rw [hlog]
      simp
    simp at hmem
  · intro e hr
    subst hr
    cases reply with
    | rows rows affected => cases hreply
    | failure cause =>
      -- refused: the only statement changed nothing
      refine leavesNothing_of ?_ ?_
      · intro t x xs rows affected hmem
        simp at hmem
      · intro t hmem
        simp at hmem
  · intro a hr
    subst hr
    cases reply with
    | failure cause => cases hreply
    | rows rows affected =>
      refine ⟨?_, ?_, ?_⟩
      · intro ev hev
        rw [List.mem_singleton.1 hev]
        rfl
      · intro before t after hlog
        have hmem : Event.began t none ∈
            [Event.executed target false text args (.rows rows affected)] := by
          rw [hlog]
          simp
        simp at hmem
      · intro ev hev hchange
        rw [List.mem_singleton.1 hev] at hchange ⊢
        exact .alone hchange List.mem_cons_self

section Steps

variable {target : Target} {inner : List Event} (hwithin : ∀ ev ∈ inner, Within target ev)

include hwithin

theorem scoped_of_steps {last : List Event}
    (hlast : ∀ t text args reply, .executed t true text args reply ∉ last) :
    Scoped (.began target none :: (inner ++ last)) := by
  intro before t text args reply after hlog
  cases before with
  | nil => cases hlog
  | cons ev before =>
    obtain ⟨rfl, hsteps⟩ := List.cons.inj hlog
    obtain ⟨middle, rfl, -⟩ := split_before (hlast t text args reply) hsteps
    have hstatement : Within target (.executed t true text args reply) :=
      hwithin _ (by simp)
    obtain rfl := hstatement.target_eq
    exact ⟨[], before, rfl, fun ev hev => hwithin ev (List.mem_append_left _ hev)⟩

theorem leavesNothing_of_steps {last : List Event}
    (hlast : ∀ t text args reply, .executed t false text args reply ∉ last)
    (hcommitted : ∀ t, .committed t none ∉ last) :
    LeavesNothing (.began target none :: (inner ++ last)) := by
  -- a change would stand outside the transaction, in `last`, and a commit there as well
  refine leavesNothing_of ?_ ?_
  · intro t text args rows affected hmem
    rcases List.mem_cons.1 hmem with hmem | hmem
    · cases hmem
    · rcases List.mem_append.1 hmem with hmem | hmem
      · exact (hwithin _ hmem).isChangeText_alone
      · exact absurd hmem (hlast _ _ _ _)
  · intro t hmem
    rcases List.mem_cons.1 hmem with hmem | hmem
    · cases hmem
    · rcases List.mem_append.1 hmem with hmem | hmem
      · exact Within.not_committed (hwithin _ hmem)
      · exact hcommitted t hmem

theorem allCommitted_of_steps :
    AllCommitted (.began target none :: (inner ++ [.committed target none])) := by
  intro before t after hlog
  -- the begin at the head is the only one: the steps begin nothing
  cases before with
  | nil =>
    obtain ⟨hbegan, rfl⟩ := List.cons.inj hlog
    obtain rfl : target = t := by simpa using hbegan
    exact ⟨inner, [], rfl, hwithin⟩
  | cons ev before =>
    obtain ⟨-, hsteps⟩ := List.cons.inj hlog
    have hmem : Event.began t none ∈ inner ++ [.committed target none] := by
      rw [hsteps]
      simp
    rcases List.mem_append.1 hmem with hmem | hmem
    · exact absurd (hwithin _ hmem) Within.not_began
    · simp at hmem

theorem inEffect_of_steps (hok : ∀ ev ∈ inner, ev.succeeded = true) {ev : Event}
    (hev : ev ∈ inner) (hchange : ev.isChange = true) :
    InEffect (.began target none :: (inner ++ [.committed target none])) ev := by
  cases hwithin ev hev with
  | quiet h =>
    rw [h.isChange_eq] at hchange
    cases hchange
  | @statement text args reply =>
    have hreply := hok _ hev
    cases reply with
    | failure cause => cases hreply
    | rows rows affected =>
      obtain ⟨before, between, hinner⟩ := List.append_of_mem hev
      -- the log cut at the statement: its begin in front, its commit behind
      have hlog : .began target none :: (inner ++ [.committed target none]) =
          (.began target none :: before) ++
            .executed target true text args (.rows rows affected) ::
              (between ++ .committed target none :: []) := by
        rw [hinner]
        simp
      refine .committed hchange hlog fun x hx => hwithin x ?_
      rw [hinner]
      exact List.mem_append_right _ (List.mem_cons_of_mem _ hx)

theorem complete_of_steps (hok : ∀ ev ∈ inner, ev.succeeded = true) :
    Complete (.began target none :: (inner ++ [.committed target none])) := by
  refine ⟨?_, allCommitted_of_steps hwithin, ?_⟩
  · intro ev hev
    rcases List.mem_cons.1 hev with rfl | hev
    · rfl
    · rcases List.mem_append.1 hev with hev | hev
      · exact hok ev hev
      · rw [List.mem_singleton.1 hev]
        rfl
  · intro ev hev hchange
    rcases List.mem_cons.1 hev with rfl | hev
    · cases hchange
    · rcases List.mem_append.1 hev with hev | hev
      · exact inEffect_of_steps hwithin hok hev hchange
      · rw [List.mem_singleton.1 hev] at hchange
        cases hchange

end Steps

/-- The steps of a transaction between its begin and its end. -/
theorem atomicity_of_steps {α : Type} {connection : String} {outcome r : Except Fault α}
    {inner last : List Event} (hwithin : ∀ ev ∈ inner, Within (.data connection) ev)
    (hok : outcome.isOk = true → ∀ ev ∈ inner, ev.succeeded = true)
    (hend : Connection.EndLog connection outcome r last) :
    Atomicity r (.began (.data connection) none :: (inner ++ last)) := by
  cases hend with
  | committed a =>
    refine ⟨scoped_of_steps hwithin (by simp), ?_, ?_⟩
    · intro e hr
      cases hr
    · intro b _
      exact complete_of_steps hwithin (hok rfl)
  -- a commit that is refused leaves the run as good as rolled back
  | refused a cause =>
    refine ⟨scoped_of_steps hwithin (by simp), ?_, ?_⟩
    · intro e _
      exact leavesNothing_of_steps hwithin (by simp) (by simp)
    · intro b hr
      cases hr
  | rolledBack e failure =>
    refine ⟨scoped_of_steps hwithin (by simp), ?_, ?_⟩
    · intro e _
      exact leavesNothing_of_steps hwithin (by simp) (by simp)
    · intro b hr
      cases hr

theorem atomicity_of_unbegun {α : Type} {connection : String} {e : Fault} {log : List Event}
    (h : Connection.BeginLog connection (.error e) log) :
    Atomicity (.error e : Except Fault α) log := by
  cases h with
  | unopened hquiet => exact atomicity_of_quiet hquiet nofun
  | @refused opening cause hquiet hopened =>
    refine Atomicity.behind ⟨?_, ?_, ?_⟩ hquiet hopened
    · intro before t text args reply after hlog
      have hmem : Event.executed t true text args reply ∈
          [Event.began (.data connection) (some cause)] := by
        rw [hlog]
        simp
      simp at hmem
    · intro e _
      exact leavesNothing_of (by simp) (by simp)
    · intro a hr
      cases hr

namespace Action

variable {α β : Type}

/-- The operation writes wholly or not at all. -/
def Atomic (a : Action α) : Prop := a.Logs Atomicity

theorem Emits.atomic {a : Action α} (h : a.Emits Quiet) : a.Atomic :=
  Logs.mono h fun _ _ hlog => atomicity_of_quiet hlog.1 hlog.2

theorem Emits.bind_atomic {a : Action α} {f : α → Action β} (ha : a.Emits Quiet)
    (hf : ∀ x, (f x).Atomic) : (a >>= f).Atomic := by
  refine Logs.bind ha hf ?_ ?_
  · intro e log h
    exact atomicity_of_quiet h.1 nofun
  · intro x r first rest hfirst hrest
    exact hrest.behind hfirst.1 (hfirst.2 rfl)

/-- Only the outcome that is handed on changes. -/
theorem Atomic.then_pure {a : Action α} (h : a.Atomic) (f : α → β) :
    (a >>= fun x => pure (f x)).Atomic := by
  refine Logs.bind h (S := fun x r log => r = .ok (f x) ∧ log = []) ?_ ?_ ?_
  · intro x
    exact logs_of_still (fun _ => rfl) fun _ => ⟨rfl, rfl⟩
  · intro e log hlog
    exact ⟨hlog.in_scope, fun _ _ => hlog.of_error e rfl, nofun⟩
  · rintro x r first rest hlog ⟨rfl, rfl⟩
    rw [List.append_nil]
    exact ⟨hlog.in_scope, nofun, fun _ _ => hlog.of_ok x rfl⟩

end Action

namespace Connection

variable {α : Type}

theorem run_atomic (connection : String) (st : Statement) : (run connection st).Atomic := by
  refine (ensureOpen_quiet connection).bind_atomic fun _ => ?_
  have hsent := Action.Logs.then_still
    (Action.logs_send (.data connection) false st.text st.args) (exec_recordsOf st.text)
  refine hsent.mono ?_
  rintro r log ⟨reply, rfl, rfl⟩
  refine atomicity_of_statement ?_
  cases reply with
  | rows rows affected => rfl
  | failure cause => rfl

theorem transaction_atomic {connection : String} {body : Action α}
    (h : body.Steps (Inside (.data connection))) : (transaction connection body).Atomic := by
  have hwithin := h.emits.mono fun _ => Inside.within
  refine Action.Logs.mono (transaction_logs connection hwithin) ?_
  intro r log hlog
  cases hlog with
  | unbegun hbegin => exact atomicity_of_unbegun hbegin
  | ended hbegin hinner hend =>
    cases hbegin with
    | begun hquiet hopened =>
      rw [List.append_assoc]
      exact (atomicity_of_steps hinner.1 hinner.2 hend).behind hquiet hopened

end Connection

end MetaQuery
