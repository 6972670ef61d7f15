/-
  MetaQuery/Proofs/Session/Steps.lean
  ===================================
  Steps that stop where something fails.

  A fault has one of two causes.  Either the datasource refused a statement, and the fault is that
  of the statement (`Event.fault?`); or something given, or kept in the metadata, is not in order,
  and then no statement has failed (`Refusal`).  `StepLog` lists the ways in which steps can go:
  all is done, or a refusal stops them behind statements that succeeded, or a statement fails and
  nothing follows it.  Steps done one after the other go in one of these ways again.
-/
import MetaQuery.Proofs.Session.Journal

namespace MetaQuery

/-! ### Faults -/

/-- The fault of a check, of metadata that are not in order, or of a master without a key. -/
inductive Refusal : Fault → Prop where
  | invalid (field : String) (issue : Issue) : Refusal (.invalid field issue)
  | metadata (cause : MetadataFault) : Refusal (.metadata cause)
  | noModel (id : String) : Refusal (.notFound (.model id))
  | unreadable (cause : SourceFault) : Refusal (.database cause)
  | noMasterKey (column : String) : Refusal (.transaction (.noMasterKey column))

section Refuses

variable {α β : Type}

/-- A step that only computes fails with refusals only. -/
def Refuses (r : Except Fault α) : Prop := ∀ e, r = .error e → Refusal e

theorem refuses_ok (a : α) : Refuses (.ok a) := nofun

theorem refuses_error {e : Fault} (h : Refusal e) : Refuses (.error e : Except Fault α) := by
  intro e' he
  obtain rfl : e = e' := Except.error.inj he
  exact h

theorem refuses_mapError (r : Except MetadataFault α) : Refuses (r.mapError .metadata) := by
  cases r with
  | error cause => exact refuses_error (.metadata cause)
  | ok a => exact refuses_ok a

theorem Refuses.bind {r : Except Fault α} {f : α → Except Fault β} (h : Refuses r)
    (hf : ∀ a, Refuses (f a)) : Refuses (r >>= f) := by
  cases r with
  | error e => exact refuses_error (h e rfl)
  | ok a => exact hf a

theorem Refuses.map {r : Except Fault α} (h : Refuses r) (f : α → β) : Refuses (r.map f) := by
  cases r with
  | error e => exact refuses_error (h e rfl)
  | ok a => exact refuses_ok (f a)

theorem refuses_forM {f : α → Except Fault Unit} (h : ∀ a, Refuses (f a)) (xs : List α) :
    Refuses (xs.forM f) := by
  induction xs with
  | nil => exact refuses_ok ()
  | cons x xs ih => exact (h x).bind fun _ => ih

end Refuses

/-- The fault of a statement that failed. -/
def Event.fault? : Event → Option Fault
  | .executed .metadata _ _ _ (.failure cause) => some (.database cause)
  | .executed (.data _) _ text _ (.failure cause) => some (.execution text cause)
  | _ => none

theorem Event.not_succeeded_of_fault {ev : Event} {e : Fault} (h : ev.fault? = some e) :
    ev.succeeded = false := by
  unfold Event.fault? at h
  split at h
  · rfl
  · rfl
  · cases h

/-! ### Logs of steps -/

/-- How steps can go whose events are of some kind. -/
inductive StepLog {α : Type} (P : Event → Prop) : Except Fault α → List Event → Prop where
  | done (a : α) {log : List Event} (hkind : ∀ ev ∈ log, P ev)
      (hok : ∀ ev ∈ log, ev.succeeded = true) : StepLog P (.ok a) log
  | refused {e : Fault} {log : List Event} (hrefusal : Refusal e) (hkind : ∀ ev ∈ log, P ev)
      (hok : ∀ ev ∈ log, ev.succeeded = true) : StepLog P (.error e) log
  | failed {e : Fault} {log : List Event} {last : Event} (hfault : last.fault? = some e)
      (hkind : ∀ ev ∈ log ++ [last], P ev) (hok : ∀ ev ∈ log, ev.succeeded = true) :
      StepLog P (.error e) (log ++ [last])

namespace StepLog

variable {α β : Type} {P Q : Event → Prop}

theorem kind {r : Except Fault α} {log : List Event} (h : StepLog P r log) :
    ∀ ev ∈ log, P ev := by
  cases h with
  | done a hkind hok => exact hkind
  | refused hrefusal hkind hok => exact hkind
  | failed hfault hkind hok => exact hkind

theorem mono {r : Except Fault α} {log : List Event} (h : StepLog P r log)
    (hsub : ∀ ev, P ev → Q ev) : StepLog Q r log := by
  cases h with
  | done a hkind hok => exact .done a (fun ev hev => hsub ev (hkind ev hev)) hok
  | refused hrefusal hkind hok => exact .refused hrefusal (fun ev hev => hsub ev (hkind ev hev)) hok
  | failed hfault hkind hok => exact .failed hfault (fun ev hev => hsub ev (hkind ev hev)) hok

/-- A fault ends steps of any kind of outcome. -/
theorem of_error {e : Fault} {log : List Event} (h : StepLog P (.error e : Except Fault α) log) :
    StepLog P (.error e : Except Fault β) log := by
  cases h with
  | refused hrefusal hkind hok => exact .refused hrefusal hkind hok
  | failed hfault hkind hok => exact .failed hfault hkind hok

theorem succeeded_of_ok {a : α} {log : List Event} (h : StepLog P (.ok a) log) :
    ∀ ev ∈ log, ev.succeeded = true := by
  cases h with
  | done _ hkind hok => exact hok

theorem append {a : α} {r : Except Fault β} {first rest : List Event}
    (hfirst : StepLog P (.ok a) first) (hrest : StepLog P r rest) :
    StepLog P r (first ++ rest) := by
  have hok := hfirst.succeeded_of_ok
  have hkinds : ∀ {more : List Event}, (∀ ev ∈ more, P ev) → ∀ ev ∈ first ++ more, P ev := by
    intro more hmore ev hev
    rcases List.mem_append.1 hev with hev | hev
    · exact hfirst.kind ev hev
    · exact hmore ev hev
  have hoks : ∀ {more : List Event}, (∀ ev ∈ more, ev.succeeded = true) →
      ∀ ev ∈ first ++ more, ev.succeeded = true := by
    intro more hmore ev hev
    rcases List.mem_append.1 hev with hev | hev
    · exact hok ev hev
    · exact hmore ev hev
  cases hrest with
  | done b hkind hdone => exact .done b (hkinds hkind) (hoks hdone)
  | refused hrefusal hkind hdone => exact .refused hrefusal (hkinds hkind) (hoks hdone)
  -- the event that failed stays the last one
  | failed hfault hkind hdone =>
    rw [← List.append_assoc]
    refine .failed hfault ?_ (hoks hdone)
    rw [List.append_assoc]
    exact hkinds hkind

theorem nil_done (a : α) : StepLog P (.ok a) [] := .done a (by simp) (by simp)

theorem nil_refused {e : Fault} (h : Refusal e) : StepLog P (.error e : Except Fault α) [] :=
  .refused h (by simp) (by simp)

/-- Nothing follows a statement that failed, and its fault is the outcome. -/
theorem ends_of_failed {r : Except Fault α} {log before after : List Event} {ev : Event}
    (h : StepLog P r log) (hlog : log = before ++ ev :: after) (hev : ev.succeeded = false) :
    after = [] ∧ ∃ e, ev.fault? = some e ∧ r = .error e := by
  have hnot : ∀ {done : List Event}, (∀ x ∈ done, x.succeeded = true) → ev ∉ done := by
    intro done hdone hmem
    rw [hdone ev hmem] at hev
    cases hev
  have hmem : ev ∈ log := by simp [hlog]
  cases h with
  | done a hkind hok => exact absurd hmem (hnot hok)
  | refused hrefusal hkind hok => exact absurd hmem (hnot hok)
  | @failed e done last hfault hkind hok =>
    -- the failure stands last, so what is behind it is empty
    obtain ⟨middle, -, hlast⟩ := split_behind (hnot hok) hlog
    cases middle with
    | nil =>
      obtain ⟨rfl, hafter⟩ := List.cons.inj hlast
      exact ⟨hafter.symm, e, hfault, rfl⟩
    | cons x middle => simp at hlast

end StepLog

namespace Action

variable {α β : Type} {P Q : Event → Prop}

/-- The operation stops where something fails, and its events are of some kind. -/
def Steps (a : Action α) (P : Event → Prop) : Prop := a.Logs (StepLog P)

theorem Steps.mono {a : Action α} (h : a.Steps P) (hsub : ∀ ev, P ev → Q ev) : a.Steps Q :=
  Logs.mono h fun _ _ hlog => hlog.mono hsub

theorem Steps.emits {a : Action α} (h : a.Steps P) : a.Emits P := by
  refine Logs.mono h fun r log hlog => ⟨hlog.kind, fun hr => ?_⟩
  cases r with
  | error e => cases hr
  | ok a => exact hlog.succeeded_of_ok

theorem steps_pure (a : α) : (pure a : Action α).Steps P :=
  logs_of_still (fun _ => rfl) fun _ => .nil_done a

theorem steps_throw {e : Fault} (h : Refusal e) : (throw e : Action α).Steps P :=
  logs_of_still (fun _ => rfl) fun _ => .nil_refused h

theorem steps_ofExcept {r : Except Fault α} (h : Refuses r) : (ofExcept r).Steps P := by
  cases r with
  | error e => exact steps_throw (h e rfl)
  | ok a => exact steps_pure a

theorem steps_ofMetadata (r : Except MetadataFault α) : (ofMetadata r).Steps P :=
  steps_ofExcept (refuses_mapError r)

theorem steps_get_bind {f : Session → Action β} (h : ∀ t, (f t).Steps P) :
    (get >>= f).Steps P := logs_get_bind h

theorem steps_ofRules {f : Rules → Except Fault α} (h : ∀ rules, Refuses (f rules)) :
    (ofRules f).Steps P := steps_get_bind fun t => steps_ofExcept (h t.rules)

theorem Steps.bind {a : Action α} {f : α → Action β} (ha : a.Steps P)
    (hf : ∀ x, (f x).Steps P) : (a >>= f).Steps P := by
  refine Logs.bind ha hf ?_ ?_
  · intro e log h
    exact h.of_error
  · intro x r first rest hfirst hrest
    exact hfirst.append hrest

/-- One statement whose reply is looked at: rows are handed on, a failure is the outcome. -/
theorem steps_send_bind {target : Target} {inTransaction : Bool} {text : String}
    {args : List Cell} {f : Reply → Action β}
    (hkind : ∀ reply, P (.executed target inTransaction text args reply))
    (hrows : ∀ rows affected, (f (.rows rows affected)).Steps P)
    (hfailure : ∀ cause, ∃ e, f (.failure cause) = throw e ∧
      (Event.executed target inTransaction text args (.failure cause)).fault? = some e) :
    (send target inTransaction text args >>= f).Steps P := by
  have hrest : ∀ reply, (f reply).Logs fun r log =>
      StepLog P r (.executed target inTransaction text args reply :: log) := by
    intro reply
    cases reply with
    | rows rows affected =>
      have hfirst : StepLog P (.ok ())
          [.executed target inTransaction text args (.rows rows affected)] :=
        .done () (by simpa using hkind _) (by simp [Event.succeeded])
      exact Logs.mono (hrows rows affected) fun r log hlog => hfirst.append hlog
    -- a refused statement ends the run at once, with its own fault
    | failure cause =>
      obtain ⟨e, hthrow, hfault⟩ := hfailure cause
      rw [hthrow]
      refine logs_of_still (fun _ => rfl) fun _ => ?_
      have hlast : StepLog P (.error e : Except Fault β)
          ([] ++ [.executed target inTransaction text args (.failure cause)]) :=
        .failed hfault (by simpa using hkind _) (by simp)
      exact hlast
  refine Logs.bind (logs_send target inTransaction text args) hrest ?_ ?_
  · rintro e log ⟨reply, hreply, -⟩
    cases hreply
  · rintro x r first rest ⟨reply, hreply, rfl⟩ hlog
    obtain rfl : x = reply := Except.ok.inj hreply
    exact hlog

end Action

end MetaQuery
