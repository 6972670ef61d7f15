/-
  MetaQuery/Proofs/Session/Transaction.lean
  =========================================
  Everything that a transaction can ask of its datasource.

  `Connection.transaction` opens the datasource, begins, carries out its steps and ends with one
  commit or one rollback.  `TransactionLog` lists the ways in which this can go, outcome and log
  together, over any specification of the steps.
-/
import MetaQuery.Proofs.Session.Reading

namespace MetaQuery.Connection

open MetaQuery.Action

inductive BeginLog (connection : String) : Except Fault Unit → List Event → Prop where
  | unopened {e : Fault} {log : List Event} (hquiet : ∀ ev ∈ log, Quiet ev) :
      BeginLog connection (.error e) log
  | refused {opening : List Event} (cause : SourceFault) (hquiet : ∀ ev ∈ opening, Quiet ev)
      (hopened : ∀ ev ∈ opening, ev.succeeded = true) :
      BeginLog connection (.error (.transaction (.notBegun connection cause)))
        (opening ++ [.began (.data connection) (some cause)])
  | begun {opening : List Event} (hquiet : ∀ ev ∈ opening, Quiet ev)
      (hopened : ∀ ev ∈ opening, ev.succeeded = true) :
      BeginLog connection (.ok ()) (opening ++ [.began (.data connection) none])

theorem begin_logs (connection : String) : (begin connection).Logs (BeginLog connection) := by
  refine Logs.bind (ensureOpen_quiet connection) (fun _ => Logs.then_still
    (g := fun failure => match failure with
      | none => .ok ()
      | some cause => .error (.transaction (.notBegun connection cause)))
    (logs_pass .begin (.began (.data connection))) ?_) ?_ ?_
  · intro failure s
    cases failure with
    | none => rfl
    | some cause => rfl
  · intro e log h
    exact .unopened h.1
  · rintro x r first rest ⟨hquiet, hopened⟩ ⟨failure, rfl, rfl⟩
    cases failure with
    | none => exact .begun hquiet (hopened rfl)
    -- the failure is in the log, and the error of the call quotes it
    | some cause => exact .refused cause hquiet (hopened rfl)

theorem begin_steady (connection : String) : (begin connection).Steady := by
  refine (ensureOpen_steady connection).bind fun _ => ?_
  refine (steady_pass _ _).bind fun failure => ?_
  cases failure with
  | none => exact steady_pure ()
  | some cause => exact steady_throw _

variable {α : Type}

/-- How a transaction ends after the outcome of its steps: with a commit or with a rollback. -/
inductive EndLog (connection : String) : Except Fault α → Except Fault α → List Event → Prop where
  | committed (a : α) :
      EndLog connection (.ok a) (.ok a) [.committed (.data connection) none]
  | refused (a : α) (cause : SourceFault) :
      EndLog connection (.ok a) (.error (.transaction (.notCommitted cause)))
        [.committed (.data connection) (some cause)]
  | rolledBack (e : Fault) (failure : Option SourceFault) :
      EndLog connection (.error e) (.error e) [.rolledBack (.data connection) failure]

/-- What is done after the steps of a transaction. -/
def finish (connection : String) : Except Fault α → Action α
  | .ok a => do
    if let some cause ← sendCommit (.data connection) then
      throw (.transaction (.notCommitted cause))
    return a
  | .error e => do
    let _ ← sendRollback (.data connection)
    throw e

theorem transaction_eq (connection : String) (body : Action α) :
    transaction connection body = (do begin connection; finish connection (← body.attempt)) := rfl

theorem finish_steady (connection : String) (outcome : Except Fault α) :
    (finish connection outcome).Steady := by
  cases outcome with
  | ok a =>
    refine (steady_pass _ _).bind fun failure => ?_
    cases failure with
    | none => exact steady_pure a
    | some cause => exact steady_throw _
  | error e => exact (steady_pass _ _).bind fun _ => steady_throw e

theorem transaction_steady {connection : String} {body : Action α} (h : body.Steady) :
    (transaction connection body).Steady := by
  rw [transaction_eq]
  exact (begin_steady connection).bind fun _ => h.attempt.bind (finish_steady connection)

theorem finish_logs (connection : String) (outcome : Except Fault α) :
    (finish connection outcome).Logs (EndLog connection outcome) := by
  cases outcome with
  | ok a =>
    refine Logs.mono (Logs.then_still (g := fun failure => match failure with
      | none => .ok a
      | some cause => .error (.transaction (.notCommitted cause)))
      (logs_pass .commit (.committed (.data connection))) ?_) ?_
    · intro failure s
      cases failure with
      | none => rfl
      | some cause => rfl
    · rintro r log ⟨failure, rfl, rfl⟩
      cases failure with
      | none => exact .committed a
      | some cause => exact .refused a cause
  -- a body that failed is rolled back, whether or not that succeeds, and its fault is reported
  | error e =>
    refine Logs.mono (Logs.then_still (g := fun _ => .error e)
      (logs_pass .rollback (.rolledBack (.data connection))) fun _ _ => rfl) ?_
    rintro r log ⟨failure, rfl, rfl⟩
    exact .rolledBack e failure

/-- All that can become of a transaction: it is not begun, or its steps are done between its begin
    and its end. -/
inductive TransactionLog (connection : String) (R : Except Fault α → List Event → Prop) :
    Except Fault α → List Event → Prop where
  | unbegun {e : Fault} {log : List Event} (hbegin : BeginLog connection (.error e) log) :
      TransactionLog connection R (.error e) log
  | ended {outcome r : Except Fault α} {first inner last : List Event}
      (hbegin : BeginLog connection (.ok ()) first) (hinner : R outcome inner)
      (hend : EndLog connection outcome r last) :
      TransactionLog connection R r (first ++ (inner ++ last))

/-- **A transaction has one of the logs listed**, whatever its steps do. -/
theorem transaction_logs (connection : String) {body : Action α}
    {R : Except Fault α → List Event → Prop} (hbody : body.Logs R) :
    (transaction connection body).Logs (TransactionLog connection R) := by
  -- the body's outcome is caught, so that the end is reached whatever it is
  have hsteps : (body.attempt >>= finish connection).Logs fun r log =>
      ∃ outcome inner last, R outcome inner ∧ EndLog connection outcome r last ∧
        log = inner ++ last := by
    refine Logs.bind hbody.attempt (finish_logs connection) ?_ ?_
    · rintro e log ⟨outcome, h, -⟩
      cases h
    · rintro x r inner last ⟨outcome, h, hinner⟩ hend
      obtain rfl : x = outcome := Except.ok.inj h
      exact ⟨x, inner, last, hinner, hend, rfl⟩
  rw [transaction_eq]
  refine Logs.bind (begin_logs connection) (fun _ => hsteps) ?_ ?_
  · intro e log hbegin
    exact .unbegun hbegin
  · rintro x r first rest hbegin ⟨outcome, inner, last, hinner, hend, rfl⟩
    exact .ended hbegin hinner hend

end MetaQuery.Connection
