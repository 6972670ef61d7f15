/-
  MetaQuery/Proofs/Store/Interruption.lean
  ========================================
  Where an import stops.

  For each kind an import asks for a begin, for the statement that empties the table, for one
  statement per entry, and for a commit (`kindScript`).  It asks for one thing after the other, as
  long as they are done, and ends with the first failure (`Follows`).  So at each moment some kinds
  have been replaced, at most one transaction stands open, and nothing has been asked about the
  kinds behind it (`ImportLog`).

  Tables undergo such a log: what was done has its effect, and what failed has none that lasts
  (`Undergoes`).  Main statement: wherever an import stops, the kinds that were committed hold the
  entries of the catalog in their places, and all others hold what they held before.
-/
import MetaQuery.Pattern.Reader
import MetaQuery.Proofs.Store.Importing

namespace MetaQuery

open MetaQuery.Action

/-- Why an exchange failed. -/
def Event.cause? : Event → Option SourceFault
  | .connected _ _ failure => failure
  | .began _ failure => failure
  | .committed _ failure => failure
  | .rolledBack _ failure => failure
  | .executed _ _ _ _ (.failure cause) => some cause
  | .executed _ _ _ _ (.rows ..) => none

namespace Tables

/-! ### Requests -/

/-- What the metadata tables are asked for. -/
inductive Request where
  | begin
  /-- A statement of the transaction. -/
  | statement (text : String) (args : List Cell)
  | commit
deriving DecidableEq, Repr

/-- The exchange is that of the request, whatever its outcome. -/
inductive Request.Makes : Request → Event → Prop where
  | begin (failure : Option SourceFault) : Makes .begin (.began .metadata failure)
  | statement (text : String) (args : List Cell) (reply : Reply) :
      Makes (.statement text args) (.executed .metadata true text args reply)
  | commit (failure : Option SourceFault) : Makes .commit (.committed .metadata failure)

/-- Requests made one after the other, up to the first that fails. -/
inductive Follows : List Request → Except Fault Unit → List Event → Prop where
  | done : Follows [] (.ok ()) []
  | next {request : Request} {rest : List Request} {ev : Event} {outcome : Except Fault Unit}
      {log : List Event} (hmakes : request.Makes ev) (hok : ev.cause? = none)
      (hrest : Follows rest outcome log) : Follows (request :: rest) outcome (ev :: log)
  | stopped {request : Request} {rest : List Request} {ev : Event} {cause : SourceFault}
      (hmakes : request.Makes ev) (hfailed : ev.cause? = some cause) :
      Follows (request :: rest) (.error (.database cause)) [ev]

namespace Follows

variable {first rest : List Request} {outcome : Except Fault Unit} {e : Fault}
  {log log' : List Event}

theorem append (h : Follows first (.ok ()) log) (h' : Follows rest outcome log') :
    Follows (first ++ rest) outcome (log ++ log') := by
  generalize hout : (.ok () : Except Fault Unit) = out at h
  induction h with
  | done => exact h'
  | next hmakes hok _ ih => exact .next hmakes hok (ih hout)
  | stopped => cases hout

/-- Behind a failure, nothing is asked. -/
theorem append_of_error (h : Follows first (.error e) log) (rest : List Request) :
    Follows (first ++ rest) (.error e) log := by
  generalize hout : (.error e : Except Fault Unit) = out at h
  induction h with
  | done => cases hout
  | next hmakes hok _ ih => exact .next hmakes hok (ih hout)
  | stopped hmakes hfailed => exact .stopped hmakes hfailed

/-- Requests in two parts either stop in the first part or go on with the second one. -/
theorem split (h : Follows (first ++ rest) outcome log) :
    (∃ e, outcome = .error e ∧ Follows first (.error e) log) ∨
      ∃ done later, log = done ++ later ∧ Follows first (.ok ()) done ∧
        Follows rest outcome later := by
  induction first generalizing log with
  | nil => exact .inr ⟨[], log, rfl, .done, h⟩
  | cons request first ih =>
    cases h with
    | next hmakes hok hlater =>
      rcases ih hlater with ⟨e, rfl, hfirst⟩ | ⟨done, later, rfl, hdone, hrest⟩
      · exact .inl ⟨e, rfl, .next hmakes hok hfirst⟩
      · exact .inr ⟨_ :: done, later, rfl, .next hmakes hok hdone, hrest⟩
    | stopped hmakes hfailed => exact .inl ⟨_, rfl, .stopped hmakes hfailed⟩

/-- Requests for several things stop at one of them. -/
theorem stops_at {α : Type} {script : α → List Request} {xs : List α}
    (h : Follows (xs.flatMap script) (.error e) log) :
    ∃ before x after first last, xs = before ++ x :: after ∧ log = first ++ last ∧
      Follows (before.flatMap script) (.ok ()) first ∧ Follows (script x) (.error e) last := by
  induction xs generalizing log with
  | nil => cases h
  | cons x xs ih =>
    rw [List.flatMap_cons] at h
    rcases h.split with ⟨e', he, hstopped⟩ | ⟨done, later, rfl, hdone, hlater⟩
    · obtain rfl := Except.error.inj he
      exact ⟨[], x, xs, [], log, rfl, rfl, .done, hstopped⟩
    · obtain ⟨before, y, after, first, last, rfl, rfl, hfirst, hlast⟩ := ih hlater
      refine ⟨x :: before, y, after, done ++ first, last, rfl, (List.append_assoc ..).symm, ?_,
        hlast⟩
      rw [List.flatMap_cons]
      exact hdone.append hfirst

end Follows

end Tables

/-! ### Operations that follow a script -/

namespace Action

open Tables

variable {α β : Type} {first rest : List Request}

/-- The operation makes the requests, and succeeds when all of them are done. -/
def Pursues (a : Action α) (script : List Request) : Prop :=
  a.Logs fun r log => Follows script (r.map fun _ => ()) log

theorem pursues_pure (x : α) : (pure x : Action α).Pursues [] :=
  logs_of_still (fun _ => rfl) fun _ => .done

theorem Pursues.bind {a : Action α} {f : α → Action β} (ha : a.Pursues first)
    (hf : ∀ x, (f x).Pursues rest) : (a >>= f).Pursues (first ++ rest) := by
  refine Logs.bind ha hf ?_ ?_
  · intro e log h
    exact h.append_of_error rest
  · intro x r log log' h h'
    exact h.append h'

end Action

namespace Tables

variable {d : Dialect} {se : Settings}

theorem run_pursues (text : String) (args : List Cell) :
    (run true text args).Pursues [.statement text args] := by
  intro s
  rw [exec_run]
  refine ⟨_, rfl, ?_⟩
  cases s.answers.next.1 with
  | rows rows affected => exact .next (.statement text args _) rfl .done
  | failure cause => exact .stopped (.statement text args _) rfl

theorem passed_pursues {moment : Moment} {event : Option SourceFault → Event} {request : Request}
    (hmakes : ∀ failure, request.Makes (event failure))
    (hcause : ∀ failure, (event failure).cause? = failure) :
    (passed moment event).Pursues [request] := by
  intro s
  rw [exec_passed]
  refine ⟨_, rfl, ?_⟩
  cases (s.answers.meet moment).1 with
  | none => exact .next (hmakes none) (hcause none) .done
  | some cause => exact .stopped (hmakes (some cause)) (hcause (some cause))

theorem begin_pursues : begin.Pursues [.begin] := passed_pursues .begin fun _ => rfl

theorem commit_pursues : commit.Pursues [.commit] := passed_pursues .commit fun _ => rfl

/-! ### Scripts of kinds -/

/-- The statements that store entries from a place on. -/
def insertions (d : Dialect) (table : String) (place : Nat) : List Json → List Request
  | [] => []
  | entry :: r =>
    .statement (insertion d table) (rowCells entry place) :: insertions d table (place + 1) r

theorem insertFrom_pursues (table : String) (place : Nat) (entries : List Json) :
    (insertFrom d table place entries).Pursues (insertions d table place entries) := by
  induction entries generalizing place with
  | nil => exact pursues_pure ()
  | cons entry rest ih => exact (run_pursues _ _).bind fun _ => ih (place + 1)

/-- The transaction that replaces the rows of a table. -/
def refillScript (d : Dialect) (table : String) (entries : List Json) : List Request :=
  .begin :: .statement ("DELETE FROM " ++ table) [] ::
    (insertions d table 0 entries ++ [.commit])

theorem refill_pursues (table : String) (entries : List Json) :
    (refill d table entries).Pursues (refillScript d table entries) := by
  refine begin_pursues.bind fun _ => (run_pursues _ _).bind fun _ => ?_
  refine (insertFrom_pursues table 0 entries).bind fun _ => ?_
  exact commit_pursues.bind fun _ => pursues_pure entries.length

/-- The transaction that replaces a kind. -/
def kindScript (d : Dialect) (se : Settings) (p : String × List Json) : List Request :=
  refillScript d (d.quote (se.tableName p.1)) p.2

theorem replaceRows_follows {p : String × List Json} (hkind : p.1 ∈ kinds) (s : Session) :
    ∃ log, ((replaceRows d p.1 p.2).exec s).2.events = s.events ++ log ∧
      Follows (kindScript d s.settings p) (((replaceRows d p.1 p.2).exec s).1.map fun _ => ())
        log := by
  have htable : (tableOf d p.1).exec s = (.ok (d.quote (s.settings.tableName p.1)), s) := rfl
  rw [replaceRows_eq hkind, exec_bind_of_ok htable]
  exact refill_pursues _ p.2 s

theorem replaceAll_follows {rows : List (String × List Json)} (hknown : ∀ p ∈ rows, p.1 ∈ kinds)
    (s : Session) :
    ∃ log, ((replaceAll d rows).exec s).2.events = s.events ++ log ∧
      Follows (rows.flatMap (kindScript d s.settings)) ((replaceAll d rows).exec s).1 log := by
  induction rows generalizing s with
  | nil => exact ⟨[], (List.append_nil _).symm, .done⟩
  | cons p rest ih =>
    obtain ⟨first, hfirst, hfollows⟩ := replaceRows_follows (d := d) (hknown p List.mem_cons_self) s
    have hsettings := (replaceRows_steady (d := d) p.1 p.2 s).settings
    have hcons : replaceAll d (p :: rest) =
        (replaceRows d p.1 p.2 >>= fun _ => pure ()) >>= fun _ => replaceAll d rest := rfl
    rw [hcons, exec_bind, exec_bind, List.flatMap_cons]
    rcases hrun : (replaceRows d p.1 p.2).exec s with ⟨r, t⟩
    rw [hrun] at hfirst hfollows hsettings
    -- the scripts of the kinds stand one behind the other, and an error cuts them short
    cases r with
    | error e => exact ⟨first, hfirst, hfollows.append_of_error _⟩
    | ok n =>
      obtain ⟨later, hlater, hrest⟩ := ih (fun q hq => hknown q (List.mem_cons_of_mem p hq)) t
      rw [hsettings] at hrest
      refine ⟨first ++ later, ?_, hfollows.append hrest⟩
      rw [← List.append_assoc, ← hfirst]
      exact hlater

/-! ### Statements on a kind -/

/-- No statement of the log is on the table of the kind. -/
def Untouched (d : Dialect) (se : Settings) (kind : String) (log : List Event) : Prop :=
  ∀ inTransaction v args reply,
    .executed .metadata inTransaction (Verb.text d se kind v) args reply ∉ log

theorem Follows.makes {script : List Request} {outcome : Except Fault Unit} {log : List Event}
    (h : Follows script outcome log) : ∀ ev ∈ log, ∃ request ∈ script, request.Makes ev := by
  induction h with
  | done => simp
  | @next request _ ev _ _ hmakes _ _ ih =>
    intro ev' hev
    rcases List.mem_cons.1 hev with rfl | hev
    · exact ⟨request, List.mem_cons_self, hmakes⟩
    · obtain ⟨request', hmem, hmakes'⟩ := ih ev' hev
      exact ⟨request', List.mem_cons_of_mem _ hmem, hmakes'⟩
  | @stopped request _ ev _ hmakes _ =>
    intro ev' hev
    obtain rfl := List.mem_singleton.1 hev
    exact ⟨request, List.mem_cons_self, hmakes⟩

theorem text_of_mem_insertions {table text : String} {args : List Cell} {place : Nat}
    {entries : List Json} (h : .statement text args ∈ insertions d table place entries) :
    text = insertion d table := by
  induction entries generalizing place with
  | nil => cases h
  | cons entry rest ih =>
    rcases List.mem_cons.1 h with heq | h
    · exact (Request.statement.inj heq).1
    · exact ih h

/-- The statements of a transaction are on the table of its kind. -/
theorem text_of_mem_kindScript {p : String × List Json} {text : String} {args : List Cell}
    (h : .statement text args ∈ kindScript d se p) : ∃ v : Verb, text = v.text d se p.1 := by
  simp only [kindScript, refillScript, List.mem_cons, List.mem_append, List.not_mem_nil,
    reduceCtorEq, false_or, or_false, Request.statement.injEq] at h
  rcases h with ⟨rfl, -⟩ | h
  · exact ⟨.clear, String.append_empty.symm⟩
  · refine ⟨.insert, ?_⟩
    rw [text_of_mem_insertions h]
    exact insertion_eq p.1

theorem Follows.untouched {rows : List (String × List Json)} {outcome : Except Fault Unit}
    {log : List Event} (h : Follows (rows.flatMap (kindScript d se)) outcome log) {kind : String}
    (hkind : kind ∉ rows.map (·.1)) : Untouched d se kind log := by
  intro inTransaction v args reply hmem
  obtain ⟨request, hrequest, hmakes⟩ := h.makes _ hmem
  obtain ⟨p, hp, hrequest⟩ := List.mem_flatMap.1 hrequest
  cases hmakes with
  | statement text args reply =>
    obtain ⟨w, hw⟩ := text_of_mem_kindScript hrequest
    obtain ⟨-, rfl⟩ := Verb.text_injective hw
    exact hkind (List.mem_map_of_mem hp)

/-! ### Transactions that were not committed -/

theorem not_committed_of_failed {ev : Event} {cause : SourceFault}
    (h : ev.cause? = some cause) : .committed .metadata none ∉ [ev] := by
  intro hmem
  obtain rfl := List.mem_singleton.1 hmem
  cases h

/-- Requests of which only the last one is a commit stop before anything is committed. -/
theorem Follows.not_committed {script : List Request} {e : Fault} {log : List Event}
    (h : Follows (script ++ [.commit]) (.error e) log) (hscript : .commit ∉ script) :
    .committed .metadata none ∉ log := by
  -- the commit is the last request, so a script that stops has not reached it or not made it
  induction script generalizing log with
  | nil =>
    cases h with
    | next _ _ hrest => cases hrest
    | stopped _ hfailed => exact not_committed_of_failed hfailed
  | cons request script ih =>
    obtain ⟨hrequest, hscript⟩ := not_or.1 (mt List.mem_cons.2 hscript)
    cases h with
    | next hmakes _ hrest =>
      intro hmem
      rcases List.mem_cons.1 hmem with rfl | hmem
      · cases hmakes
        exact hrequest rfl
      · exact ih hrest hscript hmem
    | stopped _ hfailed => exact not_committed_of_failed hfailed

theorem commit_not_mem_insertions {table : String} {place : Nat} {entries : List Json} :
    .commit ∉ insertions d table place entries := by
  induction entries generalizing place with
  | nil => simp [insertions]
  | cons entry rest ih => simp [insertions, ih]

theorem kindScript_not_committed {p : String × List Json} {e : Fault} {log : List Event}
    (h : Follows (kindScript d se p) (.error e) log) : .committed .metadata none ∉ log := by
  have hscript : .commit ∉ Request.begin ::
      .statement ("DELETE FROM " ++ d.quote (se.tableName p.1)) [] ::
        insertions d (d.quote (se.tableName p.1)) 0 p.2 := by
    simp [commit_not_mem_insertions]
  exact Follows.not_committed h hscript

/-! ### What tables undergo -/

section

variable (d se)

/-- The tables through a log with failures.  What failed has no effect that lasts. -/
inductive Undergoes : Kept → List Event → Kept → Prop where
  | nil (K : Kept) : Undergoes K [] K
  | served {K K' K'' : Kept} {ev : Event} {log : List Event} (h : Exchange d se K ev K')
      (hrest : Undergoes K' log K'') : Undergoes K (ev :: log) K''
  | failed {K K' K'' : Kept} {ev : Event} {log : List Event} {cause : SourceFault}
      (h : ev.cause? = some cause) (hkept : K'.durable = K.durable)
      (hrest : Undergoes K' log K'') : Undergoes K (ev :: log) K''

end

theorem Undergoes.split {K K'' : Kept} {first rest : List Event}
    (h : Undergoes d se K (first ++ rest) K'') :
    ∃ K', Undergoes d se K first K' ∧ Undergoes d se K' rest K'' := by
  induction first generalizing K with
  | nil => exact ⟨K, .nil K, h⟩
  | cons ev first ih =>
    cases h with
    | served hev hlater =>
      obtain ⟨K', hfirst, hrest⟩ := ih hlater
      exact ⟨K', .served hev hfirst, hrest⟩
    | failed hev hkept hlater =>
      obtain ⟨K', hfirst, hrest⟩ := ih hlater
      exact ⟨K', .failed hev hkept hfirst, hrest⟩

/-- A request that was done was served. -/
theorem Undergoes.next {K K' : Kept} {request : Request} {rest : List Request} {log : List Event}
    (h : Undergoes d se K log K') (hfollows : Follows (request :: rest) (.ok ()) log) :
    ∃ K₁ ev log', request.Makes ev ∧ ev.cause? = none ∧ Exchange d se K ev K₁ ∧
      Undergoes d se K₁ log' K' ∧ Follows rest (.ok ()) log' := by
  cases hfollows with
  | next hmakes hok hrest =>
    cases h with
    | served hev hlater => exact ⟨_, _, _, hmakes, hok, hev, hlater, hrest⟩
    | failed hev =>
      rw [hok] at hev
      cases hev

/-- What is done in a transaction is for good only when it is committed. -/
theorem Undergoes.durable_eq {K K' : Kept} {log : List Event} (h : Undergoes d se K log K')
    (hrequests : ∀ ev ∈ log, ∃ request : Request, request.Makes ev)
    (hcommitted : .committed .metadata none ∉ log) : K'.durable = K.durable := by
  induction h with
  | nil K => rfl
  | @served K K₁ K₂ ev log hev hrest ih =>
    have hlater := ih (fun ev' h => hrequests ev' (List.mem_cons_of_mem _ h))
      fun h => hcommitted (List.mem_cons_of_mem _ h)
    obtain ⟨request, hmakes⟩ := hrequests _ List.mem_cons_self
    rw [hlater]
    cases hev with
    | began => rfl
    | committed => exact absurd List.mem_cons_self hcommitted
    -- what an import executes stands inside its transaction
    | executed hanswer =>
      cases hmakes
      rfl
  | failed hev hkept hrest ih =>
    rw [ih (fun ev' h => hrequests ev' (List.mem_cons_of_mem _ h))
      fun h => hcommitted (List.mem_cons_of_mem _ h), hkept]

theorem Exchange.of_begin {K K' : Kept} {ev : Event} (hmakes : Request.begin.Makes ev)
    (h : Exchange d se K ev K') : K' = ⟨K.durable, K.durable⟩ := by
  cases hmakes
  cases h
  rfl

theorem Exchange.of_commit {K K' : Kept} {ev : Event} (hmakes : Request.commit.Makes ev)
    (h : Exchange d se K ev K') : K' = ⟨K.pending, K.pending⟩ := by
  cases hmakes
  cases h
  rfl

theorem Exchange.of_clear {K K' : Kept} {kind : String} {ev : Event}
    (hmakes : (Request.statement ("DELETE FROM " ++ d.quote (se.tableName kind)) []).Makes ev)
    (h : Exchange d se K ev K') : K' = K.put true kind [] := by
  have htext : "DELETE FROM " ++ d.quote (se.tableName kind) = Verb.clear.text d se kind :=
    String.append_empty.symm
  rw [htext] at hmakes
  cases hmakes
  obtain ⟨T, hanswer, rfl⟩ := h.answers
  rw [hanswer.of_clear.2]

/-- A row whose statement was done is stored in the transaction. -/
theorem Exchange.of_insertion {K K' : Kept} {kind : String} {r : StoredRow} {ev : Event}
    (hmakes : (Request.statement (insertion d (d.quote (se.tableName kind))) r.cells).Makes ev)
    (hok : ev.cause? = none) (h : Exchange d se K ev K') :
    K' = K.put true kind (K.pending kind ++ [r]) := by
  rw [insertion_eq] at hmakes
  cases hmakes
  obtain ⟨T, hanswer, rfl⟩ := h.answers
  rcases hanswer.of_insert with ⟨-, -, rfl⟩ | ⟨-, cause, rfl⟩
  · rfl
  · cases hok

theorem Undergoes.insertions {K K' : Kept} {kind : String} {place : Nat} {entries : List Json}
    {log : List Event} (h : Undergoes d se K log K')
    (hfollows : Follows (insertions d (d.quote (se.tableName kind)) place entries) (.ok ()) log) :
    K' = K.put true kind (K.pending kind ++ storedFrom place entries) := by
  induction entries generalizing place K log with
  | nil =>
    cases hfollows
    rw [storedFrom, List.append_nil]
    cases h
    exact (Kept.put_seen _ true kind).symm
  | cons entry rest ih =>
    obtain ⟨K₁, ev, later, hmakes, hok, hev, hlater, hrest⟩ := h.next hfollows
    have hfirst := Exchange.of_insertion (r := storedRow entry place) hmakes hok hev
    have hseen : K₁.pending kind = K.pending kind ++ [storedRow entry place] := by
      rw [hfirst]
      exact K.seen_put true kind _
    -- each row goes behind the rows there, at the place counted so far
    rw [ih hlater hrest, hseen, hfirst, K.put_put, storedFrom, List.append_assoc,
      List.singleton_append]

/-- A transaction that went through has replaced the rows of its kind. -/
theorem Undergoes.kindScript {K K' : Kept} {p : String × List Json} {log : List Event}
    (h : Undergoes d se K log K') (hfollows : Follows (kindScript d se p) (.ok ()) log) :
    K' = K.refilled p.1 p.2 := by
  obtain ⟨K₁, ev, log₁, hmakes, -, hbegun, h, hfollows⟩ := h.next hfollows
  obtain rfl := hbegun.of_begin hmakes
  obtain ⟨K₂, ev, log₂, hmakes, -, hcleared, h, hfollows⟩ := h.next hfollows
  obtain rfl := hcleared.of_clear hmakes
  rcases hfollows.split with ⟨e, ⟨⟩, -⟩ | ⟨inserts, last, rfl, hinserts, hlast⟩
  obtain ⟨K₃, hinserted, h⟩ := h.split
  obtain rfl := hinserted.insertions hinserts
  obtain ⟨K₄, ev, log₄, hmakes, -, hcommitted, h, hend⟩ := h.next hlast
  obtain rfl := hcommitted.of_commit hmakes
  cases hend
  cases h
  simp [Kept.refilled, Kept.put]

theorem Undergoes.replaced {K K' : Kept} {rows : List (String × List Json)} {log : List Event}
    (hkinds : (rows.map (·.1)).Nodup) (h : Undergoes d se K log K')
    (hfollows : Follows (rows.flatMap (Tables.kindScript d se)) (.ok ()) log) :
    Replaced rows K.durable K'.durable := by
  induction rows generalizing K log with
  | nil =>
    cases hfollows
    cases h
    exact .nil _
  | cons p rest ih =>
    obtain ⟨hfresh, hrest⟩ := List.nodup_cons.1 hkinds
    rcases Follows.split hfollows with ⟨e, ⟨⟩, -⟩ | ⟨first, later, rfl, hfirst, hlater⟩
    obtain ⟨K₁, hone, h⟩ := h.split
    obtain rfl := hone.kindScript hfirst
    exact (ih hrest h hlater).cons hfresh

/-! ### Imports -/

section

variable (d se)

/-- What can become of an import: its outcome, the kinds that it committed, and its log. -/
inductive ImportLog (c : Catalog) :
    Except Fault Unit → List (String × List Json) → List Event → Prop where
  /-- The entries do not fit together, and nothing is asked. -/
  | rejected {fault : MetadataFault} (hcheck : c.check = .error fault) :
      ImportLog c (.error (.metadata fault)) [] []
  | complete {log : List Event} (hcheck : c.check = .ok ())
      (hall : Follows ((catalogRows c).flatMap (kindScript d se)) (.ok ()) log) :
      ImportLog c (.ok ()) (catalogRows c) log
  /-- Some kinds are committed, the next one is not, and those behind it are not touched. -/
  | stopped {e : Fault} {committed rest : List (String × List Json)} {p : String × List Json}
      {first last : List Event} (hcheck : c.check = .ok ())
      (hrows : catalogRows c = committed ++ p :: rest)
      (hfirst : Follows (committed.flatMap (kindScript d se)) (.ok ()) first)
      (hlast : Follows (kindScript d se p) (.error e) last)
      (hopen : .committed .metadata none ∉ last)
      (hrest : ∀ q ∈ rest, Untouched d se q.1 (first ++ last)) :
      ImportLog c (.error e) committed (first ++ last)

end

theorem ImportLog.replaced {c : Catalog} {outcome : Except Fault Unit}
    {committed : List (String × List Json)} {log : List Event}
    (h : ImportLog d se c outcome committed log) {K K' : Kept} (hlog : Undergoes d se K log K') :
    Replaced committed K.durable K'.durable := by
  have hkinds := nodup_catalogRows c
  cases h with
  | rejected hcheck =>
    cases hlog
    exact .nil _
  | complete hcheck hall => exact hlog.replaced hkinds hall
  | @stopped _ _ rest p first last hcheck hrows hfirst hlast hopen hrest =>
    rw [hrows, List.map_append] at hkinds
    obtain ⟨K₁, hdone, hbroken⟩ := hlog.split
    -- the kind that was broken off is rolled back as a whole
    have hkept : K'.durable = K₁.durable := by
      refine hbroken.durable_eq (fun ev hev => ?_) hopen
      obtain ⟨request, -, hmakes⟩ := hlast.makes ev hev
      exact ⟨request, hmakes⟩
    rw [hkept]
    exact hdone.replaced (List.nodup_append.1 hkinds).1 hfirst

theorem importCatalog_log (d : Dialect) (c : Catalog) (s : Session) :
    ∃ committed log, ((importCatalog d c).exec s).2.events = s.events ++ log ∧
      ImportLog d s.settings c ((importCatalog d c).exec s).1 committed log := by
  have himport : importCatalog d c = ofMetadata c.check >>= fun _ => replaceAll d (catalogRows c) :=
    rfl
  rw [himport]
  cases hcheck : c.check with
  | error fault => exact ⟨[], [], (List.append_nil _).symm, .rejected hcheck⟩
  | ok u =>
    obtain ⟨log, hlog, hfollows⟩ :=
      replaceAll_follows (d := d) (@mem_kinds_of_catalogRows c) s
    have hchecked : (ofMetadata (.ok u : Except MetadataFault Unit)).exec s = (.ok u, s) := rfl
    rw [exec_bind_of_ok hchecked]
    cases houtcome : ((replaceAll d (catalogRows c)).exec s).1 with
    | ok v =>
      rw [houtcome] at hfollows
      exact ⟨catalogRows c, log, hlog, .complete hcheck hfollows⟩
    | error e =>
      rw [houtcome] at hfollows
      obtain ⟨committed, p, rest, first, last, hrows, rfl, hfirst, hlast⟩ := hfollows.stops_at
      refine ⟨committed, first ++ last, hlog, .stopped hcheck hrows hfirst hlast
        (kindScript_not_committed hlast) fun q hq => ?_⟩
      -- what was asked is about the kinds up to this one, and no two kinds share a table
      have hasked : Follows ((committed ++ [p]).flatMap (kindScript d s.settings)) (.error e)
          (first ++ last) := by
        rw [List.flatMap_append, List.flatMap_singleton]
        exact hfirst.append hlast
      refine hasked.untouched fun hmem => ?_
      have hkinds := nodup_catalogRows c
      rw [hrows, List.append_cons, List.map_append] at hkinds
      exact (List.nodup_append.1 hkinds).2.2 _ hmem _ (List.mem_map_of_mem hq) rfl

/-- **An import never leaves a kind half replaced.**  Kinds are taken in their order, each in its
    own transaction.  Where the entries do not fit together, nothing is asked.  Otherwise the first
    kinds are committed, one behind them is not, and the rest is not touched, unless all went well.
    Tables that undergo this hold the entries of the committed kinds in their places, and of all
    other kinds what they held before. -/
theorem import_stops (d : Dialect) (c : Catalog) (s : Session) :
    (catalogRows c).map (·.1) = kinds ∧
      ∃ committed log, ((importCatalog d c).exec s).2.events = s.events ++ log ∧
        ImportLog d s.settings c ((importCatalog d c).exec s).1 committed log ∧
        ∀ K K', Undergoes d s.settings K log K' → Replaced committed K.durable K'.durable := by
  obtain ⟨committed, log, hlog, himport⟩ := importCatalog_log d c s
  exact ⟨kinds_catalogRows c, committed, log, hlog, himport, fun K K' h => himport.replaced h⟩

/-- A connection and a model. -/
def noteCatalog : Catalog where
  connections := [{ id := "main", kind := "sqlite" }]
  models := [{ id := "note", code := "note", connection := "main" }]

def noteEntry : Json := ModelEntry.layout.coder.encode
  { id := "note", code := "note", connection := "main" }

def mainEntry : Json := ConnectionEntry.layout.coder.encode { id := "main", kind := "sqlite" }

def diskFull : SourceFault := .reported "disk full"

/-- The datasource commits the connections and fails when the models are to be committed. -/
def fullSession : Session where
  store := .tables .ansi
  rules := Pattern.read
  idAt := fun _ => ""
  answers := {
    replies := [.rows [] 0, .rows [] 1, .rows [] 1, .rows [] 1]
    outcomes := [(.commit, none), (.commit, some diskFull)] }

def fullLog : List Event := [
  .began .metadata none,
  .executed .metadata true (Verb.clear.text .ansi {} "connections") [] (.rows [] 0),
  .executed .metadata true (Verb.insert.text .ansi {} "connections") (storedRow mainEntry 0).cells
    (.rows [] 1),
  .committed .metadata none,
  .began .metadata none,
  .executed .metadata true (Verb.clear.text .ansi {} "models") [] (.rows [] 1),
  .executed .metadata true (Verb.insert.text .ansi {} "models") (storedRow noteEntry 0).cells
    (.rows [] 1),
  .committed .metadata (some diskFull)]

theorem exec_fullSession :
    ((importCatalog .ansi noteCatalog).exec fullSession).1 = .error (.database diskFull) ∧
      ((importCatalog .ansi noteCatalog).exec fullSession).2.events = fullLog := by
  decide +kernel

def oldNote : StoredRow := ⟨"old", "", 0, ""⟩

/-- The table of models holds a row. -/
def oldHoldings : Holdings := fun kind => if kind = "models" then [oldNote] else []

theorem note_import_stops :
    (((importCatalog .ansi noteCatalog).exec fullSession).1 = .error (.database diskFull) ∧
      ((importCatalog .ansi noteCatalog).exec fullSession).2.events = fullLog) ∧
    (∃ K, Undergoes .ansi {} ⟨oldHoldings, oldHoldings⟩ fullLog K ∧
      K.durable "connections" = [storedRow mainEntry 0] ∧ K.durable "models" = [oldNote]) ∧
    (catalogRows noteCatalog).map (·.1) = kinds ∧
      ∃ committed log,
        ((importCatalog .ansi noteCatalog).exec fullSession).2.events =
          fullSession.events ++ log ∧
        ImportLog .ansi {} noteCatalog ((importCatalog .ansi noteCatalog).exec fullSession).1
          committed log ∧
        ∀ K K', Undergoes .ansi {} K log K' → Replaced committed K.durable K'.durable := by
  refine ⟨exec_fullSession, ?_, import_stops .ansi noteCatalog fullSession⟩
  refine ⟨_, .served (.began _) <| .served (.executed (.clear [])) <|
    .served (.executed (.inserted (by decide))) <| .served (.committed _) <|
    .served (.began _) <| .served (.executed (.clear [oldNote])) <|
    .served (.executed (.inserted (by decide))) <| .failed rfl rfl (.nil _), ?_, ?_⟩
  · rfl
  · rfl

end Tables

end MetaQuery
