/-
  MetaQuery/Proofs/Store/Serving.lean
  ===================================
  Metadata tables that behave as tables.

  A table answers a statement as tables do (`Answers`): DELETE empties, INSERT adds a row unless
  its id is taken, SELECT returns the matching rows by ascending position, in any order where
  positions are equal.  A log is served from what the tables hold when every statement in it got
  such an answer (`Serves`); statements of a transaction see its changes, which are durable when it
  is committed.

  `Action.Achieves` is the triple for operations on such tables.  In whatever session a run is
  served, it succeeds with what is promised; and the tables do serve such a run
  (`Action.MayGive`), so the promise is not empty.  Both pass through sequences, so the rules below
  let a proof follow the operation.
-/
import Mathlib.Data.List.Forall2
import Mathlib.Logic.Function.Basic
import MetaQuery.Proofs.Store.Statements

namespace MetaQuery

/-! ### Tables -/

namespace Tables

/-- A row of a metadata table. -/
structure StoredRow where
  id : String
  model : String
  position : Int64
  payload : String
deriving DecidableEq, Repr

/-- The row as the arguments of its INSERT. -/
def StoredRow.cells (r : StoredRow) : List Cell :=
  [.text r.id, .text r.model, .int r.position, .text r.payload]

/-- The rows that match, by ascending position; rows with one position stand in any order. -/
structure IsListing (p : StoredRow → Bool) (T L : List StoredRow) : Prop where
  perm : L.Perm (T.filter p)
  sorted : L.Pairwise fun r r' => r.position ≤ r'.position

/-- The first cells of the rows of a reply are the given values, as far as they are read. -/
def FirstCells {α : Type} (read : SourceCell → Except SourceFault α) (rows : List SourceRow)
    (values : List α) : Prop :=
  List.Forall₂ (fun row value => (row.first >>= read) = .ok value) rows values

/-- What the statements that read payloads look for. -/
inductive Seeks : Verb → List Cell → (StoredRow → Bool) → Prop where
  | all : Seeks .all [] fun _ => true
  | byId (id : String) : Seeks .byId [.text id] (·.id == id)
  | byModel (model : String) : Seeks .byModel [.text model] (·.model == model)

/-- A table with some rows answers a statement, and has other rows then. -/
inductive Answers : Verb → List Cell → List StoredRow → Reply → List StoredRow → Prop where
  | clear (T : List StoredRow) : Answers .clear [] T (.rows [] T.length) []
  | inserted {T : List StoredRow} {r : StoredRow} (hfree : r.id ∉ T.map (·.id)) :
      Answers .insert r.cells T (.rows [] 1) (T ++ [r])
  | taken {T : List StoredRow} {r : StoredRow} (htaken : r.id ∈ T.map (·.id))
      (cause : SourceFault) : Answers .insert r.cells T (.failure cause) T
  | read {v : Verb} {args : List Cell} {p : StoredRow → Bool} {T L : List StoredRow}
      {rows : List SourceRow} (affected : Nat) (hseeks : Seeks v args p) (hL : IsListing p T L)
      (hrows : FirstCells SourceCell.asText rows (L.map (·.payload))) :
      Answers v args T (.rows rows affected) T
  | place {T L : List StoredRow} {rows : List SourceRow} {id : String} (affected : Nat)
      (hL : L.Perm (T.filter (·.id == id)))
      (hrows : FirstCells SourceCell.asInteger rows (L.map (·.position))) :
      Answers .place [.text id] T (.rows rows affected) T
  | count {T : List StoredRow} {rows : List SourceRow} (affected : Nat)
      (hrows : FirstCells SourceCell.asInteger rows [Int64.ofNat T.length]) :
      Answers .count [] T (.rows rows affected) T
  | remove (T : List StoredRow) (id : String) :
      Answers .remove [.text id] T (.rows [] (T.countP (·.id == id))) (T.filter (·.id != id))

/-! ### Logs -/

/-- The rows of the tables of all kinds. -/
abbrev Holdings := String → List StoredRow

/-- What the tables hold, and what the transaction that is open sees. -/
structure Kept where
  durable : Holdings
  pending : Holdings

/-- What a statement sees. -/
def Kept.seen (K : Kept) (inTransaction : Bool) : Holdings :=
  if inTransaction then K.pending else K.durable

/-- The table of one kind, as a statement leaves it. -/
def Kept.put (K : Kept) (inTransaction : Bool) (kind : String) (T : List StoredRow) : Kept :=
  if inTransaction then { K with pending := Function.update K.pending kind T }
  else { K with durable := Function.update K.durable kind T }

section Serving

variable (d : Dialect) (se : Settings)

/-- One exchange with the metadata tables. -/
inductive Exchange : Kept → Event → Kept → Prop where
  | began (K : Kept) : Exchange K (.began .metadata none) ⟨K.durable, K.durable⟩
  | committed (K : Kept) : Exchange K (.committed .metadata none) ⟨K.pending, K.pending⟩
  | executed {K : Kept} {inTransaction : Bool} {v : Verb} {kind : String} {args : List Cell}
      {reply : Reply} {T : List StoredRow}
      (h : Answers v args (K.seen inTransaction kind) reply T) :
      Exchange K (.executed .metadata inTransaction (v.text d se kind) args reply)
        (K.put inTransaction kind T)

/-- The exchanges of a log, one after the other. -/
inductive Serves : Kept → List Event → Kept → Prop where
  | nil (K : Kept) : Serves K [] K
  | cons {K K' K'' : Kept} {ev : Event} {log : List Event} (h : Exchange d se K ev K')
      (hrest : Serves K' log K'') : Serves K (ev :: log) K''

variable {d se}

theorem Serves.append {K K' K'' : Kept} {first rest : List Event} (h : Serves d se K first K')
    (h' : Serves d se K' rest K'') : Serves d se K (first ++ rest) K'' := by
  induction h with
  | nil K => exact h'
  | cons hev _ ih => exact .cons hev (ih h')

theorem Serves.split {K K'' : Kept} {first rest : List Event}
    (h : Serves d se K (first ++ rest) K'') :
    ∃ K', Serves d se K first K' ∧ Serves d se K' rest K'' := by
  induction first generalizing K with
  | nil => exact ⟨K, .nil K, h⟩
  | cons ev first ih =>
    cases h with
    | cons hev hlater =>
      obtain ⟨K', hfirst, hrest⟩ := ih hlater
      exact ⟨K', .cons hev hfirst, hrest⟩

theorem Serves.single {K K' : Kept} {ev : Event} (h : Serves d se K [ev] K') :
    Exchange d se K ev K' := by
  cases h with
  | cons hev hrest =>
    cases hrest
    exact hev

/-- A statement that was served was answered by the table that it names. -/
theorem Exchange.answers {K K' : Kept} {inTransaction : Bool} {v : Verb} {kind : String}
    {args : List Cell} {reply : Reply}
    (h : Exchange d se K (.executed .metadata inTransaction (v.text d se kind) args reply) K') :
    ∃ T, Answers v args (K.seen inTransaction kind) reply T ∧ K' = K.put inTransaction kind T := by
  generalize hev : Event.executed .metadata inTransaction (v.text d se kind) args reply = ev at h
  cases h with
  | began => cases hev
  | committed => cases hev
  | @executed _ _ _ _ _ T hanswer =>
    injection hev with _ hin htext hargs hreply
    obtain ⟨rfl, rfl⟩ := Verb.text_injective htext
    subst hin hargs hreply
    exact ⟨T, hanswer, rfl⟩

end Serving

/-- A statement that changes nothing leaves the tables as they are. -/
theorem Kept.put_seen (K : Kept) (inTransaction : Bool) (kind : String) :
    K.put inTransaction kind (K.seen inTransaction kind) = K := by
  cases inTransaction with
  | true => simp [put, seen]
  | false => simp [put, seen]

theorem Kept.seen_put (K : Kept) (inTransaction : Bool) (kind : String) (T : List StoredRow) :
    (K.put inTransaction kind T).seen inTransaction kind = T := by
  cases inTransaction with
  | true => simp [put, seen]
  | false => simp [put, seen]

theorem Kept.put_put (K : Kept) (inTransaction : Bool) (kind : String) (T T' : List StoredRow) :
    (K.put inTransaction kind T).put inTransaction kind T' = K.put inTransaction kind T' := by
  cases inTransaction with
  | true => simp [put]
  | false => simp [put]

end Tables

open Tables

/-! ### What operations achieve -/

namespace Action

variable {d : Dialect} {se : Settings} {α β : Type}

/-- The operation goes on with every session that keeps the metadata in tables. -/
def SteadyOn (d : Dialect) (se : Settings) (a : Action α) : Prop :=
  ∀ s : Session, s.store = .tables d → s.settings = se → s.Precedes (a.exec s).2

theorem Steady.on {a : Action α} (h : a.Steady) : a.SteadyOn d se := fun s _ _ => h s

theorem SteadyOn.bind {a : Action α} {f : α → Action β} (ha : a.SteadyOn d se)
    (hf : ∀ x, (f x).SteadyOn d se) : (a >>= f).SteadyOn d se := by
  intro s hstore hsettings
  have hfirst := ha s hstore hsettings
  rw [exec_bind]
  rcases hrun : a.exec s with ⟨r, t⟩
  rw [hrun] at hfirst
  cases r with
  | error e => exact hfirst
  | ok x =>
    exact hfirst.trans (hf x t (hfirst.store.trans hstore) (hfirst.settings.trans hsettings))

/-- There are answers of the tables with which the operation succeeds, with this outcome and with
    these tables. -/
def MayGive (d : Dialect) (se : Settings) (a : Action α) (K : Kept) (x : α) (K' : Kept) : Prop :=
  ∃ (replies : List Reply) (log : List Event), Serves d se K log K' ∧
    ∀ (s : Session) (more : List Reply), s.store = .tables d → s.settings = se →
      s.answers = ⟨replies ++ more, []⟩ →
      a.exec s = (.ok x, { s with answers := ⟨more, []⟩, events := s.events ++ log })

/-- From what the tables hold, the operation succeeds, with an outcome and with tables as
    described. -/
structure Achieves (d : Dialect) (se : Settings) (a : Action α) (K : Kept)
    (Q : α → Kept → Prop) : Prop where
  steady : a.SteadyOn d se
  /-- However the tables answer. -/
  forced : ∀ (s : Session) (log : List Event) (K' : Kept), s.store = .tables d → s.settings = se →
    (a.exec s).2.events = s.events ++ log → Serves d se K log K' →
    ∃ x, (a.exec s).1 = .ok x ∧ Q x K'
  /-- And there are answers. -/
  possible : ∃ x K', a.MayGive d se K x K'

/-- The operation succeeds with just this outcome, and leaves the tables just so. -/
abbrev Yields (d : Dialect) (se : Settings) (a : Action α) (K : Kept) (x : α) (K' : Kept) : Prop :=
  a.Achieves d se K fun y K'' => y = x ∧ K'' = K'

theorem Achieves.mono {a : Action α} {K : Kept} {Q R : α → Kept → Prop}
    (h : a.Achieves d se K Q) (hsub : ∀ x K', Q x K' → R x K') : a.Achieves d se K R where
  steady := h.steady
  forced s log K' hstore hsettings hlog hserves := by
    obtain ⟨x, hx, hQ⟩ := h.forced s log K' hstore hsettings hlog hserves
    exact ⟨x, hx, hsub x K' hQ⟩
  possible := h.possible

/-- What an operation may give is as promised. -/
theorem Achieves.of_mayGive {a : Action α} {K K' : Kept} {Q : α → Kept → Prop} {x : α}
    (h : a.Achieves d se K Q) (hgive : a.MayGive d se K x K') : Q x K' := by
  obtain ⟨replies, log, hserves, hrun⟩ := hgive
  let s : Session := {
    store := .tables d
    rules := fun _ => .error ""
    settings := se
    idAt := fun _ => ""
    answers := ⟨replies ++ [], []⟩ }
  have hs := hrun s [] rfl rfl rfl
  obtain ⟨y, hy, hQ⟩ := h.forced s log K' rfl rfl (by rw [hs]) hserves
  rw [hs] at hy
  obtain rfl := Except.ok.inj hy
  exact hQ

theorem Yields.mayGive {a : Action α} {K K' : Kept} {x : α} (h : a.Yields d se K x K') :
    a.MayGive d se K x K' := by
  obtain ⟨y, K'', hgive⟩ := h.possible
  obtain ⟨rfl, rfl⟩ := h.of_mayGive hgive
  exact hgive

/-- There is no other outcome. -/
theorem Yields.unique {a : Action α} {K K' K'' : Kept} {x y : α} (h : a.Yields d se K x K')
    (h' : a.Yields d se K y K'') : x = y ∧ K' = K'' :=
  h'.of_mayGive h.mayGive

/-- An operation that does the same on tables achieves the same. -/
theorem Achieves.congr {a b : Action α} {K : Kept} {Q : α → Kept → Prop}
    (h : b.Achieves d se K Q) (hab : ∀ s : Session, s.store = .tables d → a.exec s = b.exec s) :
    a.Achieves d se K Q where
  steady s hstore hsettings := by
    rw [hab s hstore]
    exact h.steady s hstore hsettings
  forced s log K' hstore hsettings := by
    rw [hab s hstore]
    exact h.forced s log K' hstore hsettings
  possible := by
    obtain ⟨x, K', replies, log, hserves, hrun⟩ := h.possible
    refine ⟨x, K', replies, log, hserves, fun s more hstore hsettings hanswers => ?_⟩
    rw [hab s hstore]
    exact hrun s more hstore hsettings hanswers

/-! ### Sequences -/

/-- A step that asks nothing. -/
theorem mayGive_of_still {a : Action α} {x : α}
    (h : ∀ s, s.store = .tables d → s.settings = se → a.exec s = (.ok x, s)) (K : Kept) :
    a.MayGive d se K x K := by
  refine ⟨[], [], .nil K, fun s more hstore hsettings hanswers => ?_⟩
  rw [h s hstore hsettings, List.append_nil, ← List.nil_append more, ← hanswers]

theorem yields_of_still {a : Action α} {x : α}
    (h : ∀ s, s.store = .tables d → s.settings = se → a.exec s = (.ok x, s)) (K : Kept) :
    a.Yields d se K x K where
  steady s hstore hsettings := by
    rw [h s hstore hsettings]
    exact .refl s
  forced s log K' hstore hsettings hlog hserves := by
    rw [h s hstore hsettings] at hlog ⊢
    obtain rfl : log = [] := by simpa using hlog
    cases hserves
    exact ⟨x, rfl, rfl, rfl⟩
  possible := ⟨x, K, mayGive_of_still h K⟩

theorem yields_pure (x : α) (K : Kept) : (pure x : Action α).Yields d se K x K :=
  yields_of_still (fun _ _ _ => rfl) K

theorem MayGive.bind {a : Action α} {f : α → Action β} {K K' K'' : Kept} {x : α} {y : β}
    (ha : a.MayGive d se K x K') (hf : (f x).MayGive d se K' y K'') :
    (a >>= f).MayGive d se K y K'' := by
  obtain ⟨replies, first, hserves, hrun⟩ := ha
  obtain ⟨replies', rest, hserves', hrun'⟩ := hf
  refine ⟨replies ++ replies', first ++ rest, hserves.append hserves',
    fun s more hstore hsettings hanswers => ?_⟩
  rw [exec_bind_of_ok (hrun s (replies' ++ more) hstore hsettings
    (by rw [hanswers, List.append_assoc]))]
  have hlast := hrun' { s with
    answers := ⟨replies' ++ more, []⟩, events := s.events ++ first } more hstore hsettings rfl
  rw [hlast, List.append_assoc]

/-- **Operations one after the other.** -/
theorem Achieves.bind {a : Action α} {f : α → Action β} {K : Kept} {Q : α → Kept → Prop}
    {R : β → Kept → Prop} (ha : a.Achieves d se K Q) (hsteady : ∀ x, (f x).SteadyOn d se)
    (hf : ∀ x K', Q x K' → (f x).Achieves d se K' R) : (a >>= f).Achieves d se K R where
  steady := ha.steady.bind hsteady
  forced s log K'' hstore hsettings hlog hserves := by
    -- the log splits where the first step ends, and the tables serve each part
    rw [exec_bind] at hlog ⊢
    have hst := ha.steady s hstore hsettings
    rcases hrun : a.exec s with ⟨r, t⟩
    rw [hrun] at hlog hst
    obtain ⟨first, hfirst⟩ := hst.log
    have hout : ∀ K', Serves d se K first K' → ∃ x, r = .ok x ∧ Q x K' := by
      intro K' hserves'
      have h := ha.forced s first K' hstore hsettings (by rw [hrun]; exact hfirst) hserves'
      rwa [hrun] at h
    have hstore' : t.store = .tables d := hst.store.trans hstore
    have hsettings' : t.settings = se := hst.settings.trans hsettings
    cases r with
    | error e =>
      obtain rfl : first = log := List.append_cancel_left (hfirst.symm.trans hlog)
      obtain ⟨x, hx, -⟩ := hout K'' hserves
      cases hx
    | ok x =>
      obtain ⟨rest, hrest⟩ := (hsteady x t hstore' hsettings').log
      obtain rfl : log = first ++ rest := by
        rw [hfirst, List.append_assoc] at hrest
        exact List.append_cancel_left (hlog.symm.trans hrest)
      obtain ⟨K', hserves', hserves''⟩ := hserves.split
      obtain ⟨y, hy, hQ⟩ := hout K' hserves'
      obtain rfl := Except.ok.inj hy
      exact (hf x K' hQ).forced t rest K'' hstore' hsettings' hrest hserves''
  possible := by
    obtain ⟨x, K', hgive⟩ := ha.possible
    obtain ⟨y, K'', hgive'⟩ := (hf x K' (ha.of_mayGive hgive)).possible
    exact ⟨y, K'', hgive.bind hgive'⟩

/-- A first step with one outcome. -/
theorem Yields.bind {a : Action α} {f : α → Action β} {K K' : Kept} {x : α}
    {R : β → Kept → Prop} (ha : a.Yields d se K x K') (hsteady : ∀ x, (f x).SteadyOn d se)
    (hf : (f x).Achieves d se K' R) : (a >>= f).Achieves d se K R := by
  refine Achieves.bind ha hsteady ?_
  rintro y K'' ⟨rfl, rfl⟩
  exact hf

/-- What is made of an outcome. -/
theorem Yields.map {a : Action α} {K K' : Kept} {x : α} (ha : a.Yields d se K x K') (f : α → β) :
    (a >>= fun x => pure (f x)).Yields d se K (f x) K' :=
  Yields.bind ha (fun _ => (steady_pure _).on) (yields_pure (f x) K')

end Action

/-! ### Statements on tables -/

namespace Tables

open MetaQuery.Action

variable {d : Dialect} {se : Settings}

/-- What a reply makes of a statement on the metadata. -/
def outcomeOf : Reply → Except Fault (List SourceRow × Nat)
  | .rows rows affected => .ok (rows, affected)
  | .failure cause => .error (.database cause)

theorem exec_run (inTransaction : Bool) (text : String) (args : List Cell) (s : Session) :
    (run inTransaction text args).exec s = (outcomeOf s.answers.next.1, { s with
      answers := s.answers.next.2
      events := s.events ++ [.executed .metadata inTransaction text args s.answers.next.1] }) := by
  rw [run, exec_bind_of_ok (exec_send _ _ _ _ s)]
  cases s.answers.next.1 with
  | rows rows affected => rfl
  | failure cause => rfl

theorem run_steady (inTransaction : Bool) (text : String) (args : List Cell) :
    (run inTransaction text args).Steady := by
  refine (steady_send _ _ _ _).bind fun reply => ?_
  cases reply with
  | rows rows affected => exact steady_pure _
  | failure cause => exact steady_throw _

section

variable {inTransaction : Bool} {v : Verb} {kind text : String} {args : List Cell} {K : Kept}

theorem mayGive_run (htext : text = v.text d se kind) {rows : List SourceRow} {affected : Nat}
    {T : List StoredRow} (h : Answers v args (K.seen inTransaction kind) (.rows rows affected) T) :
    (run inTransaction text args).MayGive d se K (rows, affected) (K.put inTransaction kind T) := by
  subst htext
  refine ⟨[.rows rows affected], _, .cons (.executed h) (.nil _),
    fun s more hstore hsettings hanswers => ?_⟩
  rw [exec_run, hanswers]
  rfl

/-- **A statement that the table answers with rows, as described.** -/
theorem achieves_run (htext : text = v.text d se kind) {Q : List SourceRow × Nat → Kept → Prop}
    (hall : ∀ reply T, Answers v args (K.seen inTransaction kind) reply T →
      ∃ rows affected, reply = .rows rows affected ∧
        Q (rows, affected) (K.put inTransaction kind T))
    (hsome : ∃ reply T, Answers v args (K.seen inTransaction kind) reply T) :
    (run inTransaction text args).Achieves d se K Q where
  steady := (run_steady inTransaction text args).on
  forced s log K' hstore hsettings hlog hserves := by
    subst htext
    rw [exec_run] at hlog ⊢
    obtain rfl := List.append_cancel_left hlog
    obtain ⟨T, hanswer, rfl⟩ := hserves.single.answers
    obtain ⟨rows, affected, hreply, hQ⟩ := hall _ T hanswer
    exact ⟨(rows, affected), by rw [hreply]; rfl, hQ⟩
  possible := by
    obtain ⟨reply, T, hanswer⟩ := hsome
    obtain ⟨rows, affected, rfl, -⟩ := hall reply T hanswer
    exact ⟨_, _, mayGive_run htext hanswer⟩

end

theorem tableOf_yields (kind : String) (K : Kept) :
    (tableOf d kind).Yields d se K (d.quote (se.tableName kind)) K := by
  refine yields_of_still (fun s _ hsettings => ?_) K
  rw [← hsettings]
  rfl

/-- A moment that must pass. -/
def passed (moment : Moment) (event : Option SourceFault → Event) : Action Unit := do
  if let some cause ← pass moment event then throw (.database cause)

theorem passed_steady (moment : Moment) (event : Option SourceFault → Event) :
    (passed moment event).Steady := by
  refine (steady_pass moment event).bind fun failure => ?_
  cases failure with
  | none => exact steady_pure ()
  | some cause => exact steady_throw _

theorem exec_passed (moment : Moment) (event : Option SourceFault → Event) (s : Session) :
    (passed moment event).exec s = (match (s.answers.meet moment).1 with
        | none => .ok ()
        | some cause => .error (.database cause), { s with
      answers := (s.answers.meet moment).2
      events := s.events ++ [event (s.answers.meet moment).1] }) := by
  have hpass : (pass moment event).exec s = (.ok (s.answers.meet moment).1, { s with
      answers := (s.answers.meet moment).2
      events := s.events ++ [event (s.answers.meet moment).1] }) := rfl
  rw [passed, exec_bind_of_ok hpass]
  cases (s.answers.meet moment).1 with
  | none => rfl
  | some cause => rfl

/-- A moment that passes wherever tables serve it. -/
theorem passed_yields {moment : Moment} {event : Option SourceFault → Event} {K K' : Kept}
    (hserves : ∀ failure K'', Exchange d se K (event failure) K'' → failure = none ∧ K'' = K')
    (hgood : Exchange d se K (event none) K') : (passed moment event).Yields d se K () K' where
  steady := (passed_steady moment event).on
  forced s log K'' hstore hsettings hlog hlogged := by
    rw [exec_passed] at hlog ⊢
    obtain rfl := List.append_cancel_left hlog
    obtain ⟨hnone, rfl⟩ := hserves _ _ hlogged.single
    exact ⟨(), by rw [hnone], rfl, rfl⟩
  possible := by
    refine ⟨(), K', [], [event none], .cons hgood (.nil K'),
      fun s more hstore hsettings hanswers => ?_⟩
    rw [exec_passed, hanswers]
    rfl

theorem begin_yields (K : Kept) : begin.Yields d se K () ⟨K.durable, K.durable⟩ := by
  refine passed_yields ?_ (.began K)
  rintro failure K' ⟨⟩
  exact ⟨rfl, rfl⟩

theorem commit_yields (K : Kept) : commit.Yields d se K () ⟨K.pending, K.pending⟩ := by
  refine passed_yields ?_ (.committed K)
  rintro failure K' ⟨⟩
  exact ⟨rfl, rfl⟩

end Tables

end MetaQuery
