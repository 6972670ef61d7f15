/-
  MetaQuery/Proofs/Store/Failing.lean
  ===================================
  Operations on metadata tables when statements fail.

  `Action.Leaves` is the triple for tables that undergo the log of an operation: whatever fails,
  the outcome, the number of transactions that were committed, and the tables that are left are
  related as promised.  Most steps make nothing durable, and a promise is needed only for their
  success (`Action.Prepares`).  A template that is saved is prepared in a transaction and made
  durable by its commit, so a save is done wholly or not at all (`saveTemplate_leaves`).
-/
import MetaQuery.Proofs.Store.Interruption
import MetaQuery.Proofs.Store.Shelf

namespace MetaQuery

open Tables

/-- How many transactions on the metadata tables are committed. -/
def commits (log : List Event) : Nat := log.count (.committed .metadata none)

theorem commits_append (first rest : List Event) :
    commits (first ++ rest) = commits first + commits rest := List.count_append

theorem commits_singleton_of_ne {ev : Event} (h : ev ≠ .committed .metadata none) :
    commits [ev] = 0 := List.count_eq_zero.2 (by simpa using h.symm)

namespace Action

/-! ### What operations leave -/

variable {d : Dialect} {se : Settings} {α β : Type}

/-- From what the tables hold, whatever fails: the outcome, the number of commits and the tables
    that are left are related. -/
structure Leaves (d : Dialect) (se : Settings) (a : Action α) (K : Kept)
    (Q : Except Fault α → Nat → Kept → Prop) : Prop where
  steady : a.SteadyOn d se
  left : ∀ (s : Session) (log : List Event) (K' : Kept), s.store = .tables d → s.settings = se →
    (a.exec s).2.events = s.events ++ log → Undergoes d se K log K' →
    Q (a.exec s).1 (commits log) K'

theorem Leaves.mono {a : Action α} {K : Kept} {Q R : Except Fault α → Nat → Kept → Prop}
    (h : a.Leaves d se K Q) (hsub : ∀ r n K', Q r n K' → R r n K') : a.Leaves d se K R where
  steady := h.steady
  left s log K' hstore hsettings hlog hunder :=
    hsub _ _ _ (h.left s log K' hstore hsettings hlog hunder)

/-- An operation that does the same on tables leaves the same. -/
theorem Leaves.congr {a b : Action α} {K : Kept} {Q : Except Fault α → Nat → Kept → Prop}
    (h : b.Leaves d se K Q) (hab : ∀ s : Session, s.store = .tables d → a.exec s = b.exec s) :
    a.Leaves d se K Q where
  steady s hstore hsettings := by
    rw [hab s hstore]
    exact h.steady s hstore hsettings
  left s log K' hstore hsettings := by
    rw [hab s hstore]
    exact h.left s log K' hstore hsettings

/-- A step that asks nothing. -/
theorem leaves_of_still {a : Action α} {r : Except Fault α}
    (h : ∀ s, s.store = .tables d → s.settings = se → a.exec s = (r, s)) (K : Kept) :
    a.Leaves d se K fun r' n K' => r' = r ∧ n = 0 ∧ K' = K where
  steady s hstore hsettings := by
    rw [h s hstore hsettings]
    exact .refl s
  left s log K' hstore hsettings hlog hunder := by
    rw [h s hstore hsettings] at hlog ⊢
    obtain rfl : log = [] := by simpa using hlog
    cases hunder
    exact ⟨rfl, rfl, rfl⟩

/-- **Operations one after the other.**  A failure of the first one is the outcome. -/
theorem Leaves.bind {a : Action α} {f : α → Action β} {K : Kept}
    {Q : Except Fault α → Nat → Kept → Prop} {R : Except Fault β → Nat → Kept → Prop}
    (ha : a.Leaves d se K Q) (hsteady : ∀ x, (f x).SteadyOn d se)
    (herror : ∀ e n K', Q (.error e) n K' → R (.error e) n K')
    (hok : ∀ x n K', Q (.ok x) n K' → (f x).Leaves d se K' fun r m K'' => R r (n + m) K'') :
    (a >>= f).Leaves d se K R where
  steady := ha.steady.bind hsteady
  left s log K'' hstore hsettings hlog hunder := by
    rw [exec_bind] at hlog ⊢
    have hst := ha.steady s hstore hsettings
    have hleft := ha.left s
    rcases hrun : a.exec s with ⟨r, t⟩
    rw [hrun] at hlog hst hleft
    cases r with
    | error e => exact herror e _ K'' (hleft log K'' hstore hsettings hlog hunder)
    | ok x =>
      -- the log splits where the first operation ends
      have hstore' : t.store = .tables d := hst.store.trans hstore
      have hsettings' : t.settings = se := hst.settings.trans hsettings
      obtain ⟨first, hfirst⟩ := hst.log
      obtain ⟨rest, hrest⟩ := (hsteady x t hstore' hsettings').log
      obtain rfl : log = first ++ rest := by
        dsimp only at hfirst hlog
        rw [hrest, hfirst, List.append_assoc] at hlog
        exact (List.append_cancel_left hlog).symm
      obtain ⟨K', hunder', hunder''⟩ := hunder.split
      have hQ := hleft first K' hstore hsettings hfirst hunder'
      rw [commits_append]
      exact (hok x _ K' hQ).left t rest K'' hstore' hsettings' hrest hunder''

/-- Nothing is made durable; when the operation succeeds, its outcome and what the open
    transaction sees are as described. -/
abbrev Prepares (d : Dialect) (se : Settings) (a : Action α) (K : Kept)
    (P : α → Kept → Prop) : Prop :=
  a.Leaves d se K fun r n K' => n = 0 ∧ K'.durable = K.durable ∧ ∀ x, r = .ok x → P x K'

theorem prepares_of_still {a : Action α} {r : Except Fault α}
    (h : ∀ s, s.store = .tables d → s.settings = se → a.exec s = (r, s)) (K : Kept) :
    a.Prepares d se K fun x K' => r = .ok x ∧ K' = K := by
  refine (leaves_of_still h K).mono ?_
  rintro r' n K' ⟨rfl, rfl, rfl⟩
  exact ⟨rfl, rfl, fun x hx => ⟨hx, rfl⟩⟩

theorem Prepares.mono {a : Action α} {K : Kept} {P P' : α → Kept → Prop}
    (h : a.Prepares d se K P) (hsub : ∀ x K', P x K' → P' x K') : a.Prepares d se K P' :=
  Leaves.mono h fun _ _ _ ⟨hn, hkept, hP⟩ => ⟨hn, hkept, fun x hx => hsub x _ (hP x hx)⟩

/-- Behind what was prepared. -/
theorem Prepares.then {a : Action α} {f : α → Action β} {K : Kept} {P : α → Kept → Prop}
    {R : Except Fault β → Nat → Kept → Prop} (ha : a.Prepares d se K P)
    (hsteady : ∀ x, (f x).SteadyOn d se)
    (herror : ∀ e K', K'.durable = K.durable → R (.error e) 0 K')
    (hok : ∀ x K', K'.durable = K.durable → P x K' → (f x).Leaves d se K' R) :
    (a >>= f).Leaves d se K R := by
  refine Leaves.bind ha hsteady ?_ ?_
  · rintro e n K' ⟨rfl, hkept, -⟩
    exact herror e K' hkept
  · rintro x n K' ⟨rfl, hkept, hP⟩
    refine (hok x K' hkept (hP x rfl)).mono fun r m K'' hR => ?_
    rwa [Nat.zero_add]

theorem Prepares.bind {a : Action α} {f : α → Action β} {K : Kept} {P : α → Kept → Prop}
    {P' : β → Kept → Prop} (ha : a.Prepares d se K P) (hsteady : ∀ x, (f x).SteadyOn d se)
    (hf : ∀ x K', K'.durable = K.durable → P x K' → (f x).Prepares d se K' P') :
    (a >>= f).Prepares d se K P' := by
  refine Prepares.then ha hsteady ?_ ?_
  · intro e K' hkept
    exact ⟨rfl, hkept, nofun⟩
  · intro x K' hkept hP
    refine Leaves.mono (hf x K' hkept hP) ?_
    rintro r n K'' ⟨rfl, hkept', hP'⟩
    exact ⟨rfl, hkept'.trans hkept, hP'⟩

/-- One commit makes durable what is described, or a failure leaves what is durable. -/
inductive AllOrNothing (K : Kept) (P : Holdings → Prop) :
    Except Fault Unit → Nat → Kept → Prop where
  | all {K' : Kept} (h : P K'.durable) : AllOrNothing K P (.ok ()) 1 K'
  | nothing {K' : Kept} (e : Fault) (hkept : K'.durable = K.durable) :
      AllOrNothing K P (.error e) 0 K'

theorem AllOrNothing.mono {K K₁ K' : Kept} {P P' : Holdings → Prop} {r : Except Fault Unit}
    {n : Nat} (h : AllOrNothing K₁ P r n K') (hkept : K₁.durable = K.durable)
    (hsub : ∀ D, P D → P' D) : AllOrNothing K P' r n K' := by
  cases h with
  | all h => exact .all (hsub _ h)
  | nothing e hsame => exact .nothing e (hsame.trans hkept)

/-- Behind what was prepared for one commit. -/
theorem Prepares.then_all {a : Action α} {f : α → Action Unit} {K : Kept}
    {P : α → Kept → Prop} {D : Holdings → Prop} (ha : a.Prepares d se K P)
    (hsteady : ∀ x, (f x).SteadyOn d se)
    (hf : ∀ x K', K'.durable = K.durable → P x K' → (f x).Leaves d se K' (AllOrNothing K' D)) :
    (a >>= f).Leaves d se K (AllOrNothing K D) := by
  refine Prepares.then ha hsteady (fun e K' hkept => .nothing e hkept) fun x K' hkept hP => ?_
  exact (hf x K' hkept hP).mono fun _ _ _ h => h.mono hkept fun _ => id

end Action

namespace Tables

open MetaQuery.Action

variable {d : Dialect} {se : Settings}

/-! ### Statements that may fail -/

/-- A statement that a table refuses leaves the table as it is. -/
theorem Answers.of_failure {v : Verb} {args : List Cell} {T T' : List StoredRow}
    {cause : SourceFault} (h : Answers v args T (.failure cause) T') : T' = T := by
  cases h with
  | taken htaken => rfl

/-- A statement is done, with an answer of the table, or it fails and leaves the tables. -/
theorem run_leaves {inTransaction : Bool} {v : Verb} {kind text : String} {args : List Cell}
    (htext : text = v.text d se kind) (K : Kept) :
    (run inTransaction text args).Leaves d se K fun r n K' => n = 0 ∧
      ((∃ rows affected T, r = .ok (rows, affected) ∧
          Answers v args (K.seen inTransaction kind) (.rows rows affected) T ∧
          K' = K.put inTransaction kind T) ∨
        (∃ e, r = .error e) ∧ K'.durable = K.durable) where
  steady := (run_steady inTransaction text args).on
  left s log K' hstore hsettings hlog hunder := by
    subst htext
    rw [exec_run] at hlog ⊢
    obtain rfl := List.append_cancel_left hlog
    refine ⟨commits_singleton_of_ne nofun, ?_⟩
    -- the statement is answered from the rows, or refused with the stored rows as they were
    cases hunder with
    | served hev hrest =>
      cases hrest
      obtain ⟨T, hanswer, rfl⟩ := hev.answers
      rcases hreply : s.answers.next.1 with ⟨rows, affected⟩ | cause
      · rw [hreply] at hanswer
        exact .inl ⟨rows, affected, T, rfl, hanswer, rfl⟩
      · rw [hreply] at hanswer
        rw [hanswer.of_failure, K.put_seen]
        exact .inr ⟨⟨_, rfl⟩, rfl⟩
    | failed hev hkept hrest =>
      cases hrest
      rcases hreply : s.answers.next.1 with ⟨rows, affected⟩ | cause
      · rw [hreply] at hev
        cases hev
      · exact .inr ⟨⟨_, rfl⟩, hkept⟩

/-- A statement of a transaction. -/
theorem run_prepares {v : Verb} {kind text : String} {args : List Cell}
    (htext : text = v.text d se kind) (K : Kept) :
    (run true text args).Prepares d se K fun reply K' =>
      ∃ T, Answers v args (K.pending kind) (.rows reply.1 reply.2) T ∧
        K' = K.put true kind T := by
  refine (run_leaves htext K).mono ?_
  rintro r n K' ⟨rfl, ⟨rows, affected, T, rfl, hanswer, rfl⟩ | ⟨⟨e, rfl⟩, hkept⟩⟩
  · refine ⟨rfl, rfl, ?_⟩
    rintro _ ⟨⟩
    exact ⟨T, hanswer, rfl⟩
  · exact ⟨rfl, hkept, nofun⟩

/-- What was looked for is read, by itself. -/
theorem read_prepares {v : Verb} {kind text : String} {args : List Cell} {p : StoredRow → Bool}
    (hseeks : Seeks v args p) (htext : text = v.text d se kind) (K : Kept) :
    (run false text args).Prepares d se K fun reply _ => ∃ L, IsListing p (K.durable kind) L ∧
      FirstCells SourceCell.asText reply.1 (L.map (·.payload)) := by
  refine (run_leaves htext K).mono ?_
  rintro r n K' ⟨rfl, ⟨rows, affected, T, rfl, hanswer, rfl⟩ | ⟨⟨e, rfl⟩, hkept⟩⟩
  · obtain ⟨rfl, L, rows', affected', hreply, hL, hrows⟩ := hseeks.answered hanswer
    obtain ⟨rfl, rfl⟩ := Reply.rows.inj hreply
    refine ⟨rfl, by rw [K.put_seen], ?_⟩
    rintro _ ⟨⟩
    exact ⟨L, hL, hrows⟩
  · exact ⟨rfl, hkept, nofun⟩

theorem tableOf_prepares (kind : String) (K : Kept) :
    (tableOf d kind).Prepares d se K fun table K' =>
      table = d.quote (se.tableName kind) ∧ K' = K := by
  refine (prepares_of_still (r := .ok (d.quote (se.tableName kind))) ?_ K).mono ?_
  · rintro s - rfl
    rfl
  · rintro table K' ⟨htable, rfl⟩
    exact ⟨(Except.ok.inj htable).symm, rfl⟩

theorem passed_leaves {moment : Moment} {event : Option SourceFault → Event} {K K' : Kept}
    (hserves : ∀ failure K'', Exchange d se K (event failure) K'' → failure = none ∧ K'' = K')
    (hcause : ∀ failure, (event failure).cause? = failure) :
    (passed moment event).Leaves d se K fun r n K'' =>
      (r = .ok () ∧ n = commits [event none] ∧ K'' = K') ∨
        (∃ e cause, r = .error e ∧ n = commits [event (some cause)]) ∧ K''.durable = K.durable where
  steady := (passed_steady moment event).on
  left s log K'' hstore hsettings hlog hunder := by
    rw [exec_passed] at hlog ⊢
    obtain rfl := List.append_cancel_left hlog
    cases hunder with
    -- the moment was answered: it is what a serving database does, or nothing durable changed
    | served hev hrest =>
      cases hrest
      obtain ⟨hnone, rfl⟩ := hserves _ _ hev
      rw [hnone]
      exact .inl ⟨rfl, rfl, rfl⟩
    | failed hev hkept hrest =>
      cases hrest
      rw [hcause] at hev
      rw [hev]
      exact .inr ⟨⟨_, _, rfl, rfl⟩, hkept⟩

theorem begin_prepares (K : Kept) :
    begin.Prepares d se K fun _ K' => K' = ⟨K.durable, K.durable⟩ := by
  have hserves : ∀ failure K', Exchange d se K (.began .metadata failure) K' →
      failure = none ∧ K' = ⟨K.durable, K.durable⟩ := by
    rintro failure K' ⟨⟩
    exact ⟨rfl, rfl⟩
  refine Leaves.mono (passed_leaves hserves fun _ => rfl) ?_
  rintro r n K' (⟨rfl, rfl, rfl⟩ | ⟨⟨e, cause, rfl, rfl⟩, hkept⟩)
  · exact ⟨commits_singleton_of_ne nofun, rfl, fun _ _ => rfl⟩
  · exact ⟨commits_singleton_of_ne nofun, hkept, nofun⟩

/-- A commit makes durable what was prepared, unless it fails. -/
theorem commit_leaves (K : Kept) :
    commit.Leaves d se K (AllOrNothing K (· = K.pending)) := by
  have hserves : ∀ failure K', Exchange d se K (.committed .metadata failure) K' →
      failure = none ∧ K' = ⟨K.pending, K.pending⟩ := by
    rintro failure K' ⟨⟩
    exact ⟨rfl, rfl⟩
  refine Leaves.mono (passed_leaves hserves fun _ => rfl) ?_
  rintro r n K' (⟨rfl, rfl, rfl⟩ | ⟨⟨e, cause, rfl, rfl⟩, hkept⟩)
  · exact .all rfl
  · have hopen : commits [.committed .metadata (some cause)] = 0 :=
      commits_singleton_of_ne (by simp)
    rw [hopen]
    exact .nothing e hkept

/-! ### Reading entries -/

section

variable {α β : Type} {coder : Json.Coder α}

theorem exec_mapM_ofExcept (f : α → Except Fault β) (xs : List α) (s : Session) :
    (xs.mapM fun x => ofExcept (f x)).exec s = (xs.mapM f, s) := by
  induction xs with
  | nil => rfl
  | cons x xs ih =>
    rw [List.mapM_cons, List.mapM_cons, exec_bind]
    cases hx : f x with
    | error e => rfl
    | ok y =>
      change ((xs.mapM fun x => ofExcept (f x)) >>= fun ys => pure (y :: ys)).exec s = _
      rw [exec_bind, ih]
      cases xs.mapM f with
      | error e => rfl
      | ok ys => rfl

theorem forall₂_of_mapM_ok {f : α → Except Fault β} {xs : List α} {ys : List β}
    (h : xs.mapM f = .ok ys) : List.Forall₂ (fun x y => f x = .ok y) xs ys := by
  induction xs generalizing ys with
  | nil =>
    obtain rfl := Except.ok.inj h
    exact .nil
  | cons x xs ih =>
    rw [List.mapM_cons] at h
    cases hx : f x with
    | error e =>
      rw [hx] at h
      cases h
    | ok y =>
      cases hrest : xs.mapM f with
      | error e =>
        rw [hx, hrest] at h
        cases h
      | ok ys' =>
        rw [hx, hrest] at h
        obtain rfl := Except.ok.inj h
        exact .cons hx (ih hrest)

/-- Payloads that are read are those of the rows. -/
theorem decodeRows_prepares {rows : List SourceRow} {L : List StoredRow}
    (hrows : FirstCells SourceCell.asText rows (L.map (·.payload))) (K : Kept) :
    (decodeRows coder rows).Prepares d se K fun xs _ =>
      List.Forall₂ (StoredRow.Reads coder) L xs := by
  -- decoding sends nothing, so what is stored stays as it is
  have hexec : ∀ s, (decodeRows coder rows).exec s = ((L.map (·.payload)).mapM fun text =>
      ((coder.ofText text).mapError .unreadable).mapError .metadata, s) := by
    intro s
    have htexts : (rows.mapM fun row => ofSource (row.first >>= SourceCell.asText)).exec s =
        (.ok (L.map (·.payload)), s) := by
      refine exec_mapM_of_forall₂ (hrows.imp fun row text h => ?_)
      rw [h]
      rfl
    rw [decodeRows, exec_bind_of_ok htexts]
    exact exec_mapM_ofExcept _ _ s
  refine (prepares_of_still (fun s _ _ => hexec s) K).mono ?_
  rintro xs K' ⟨hxs, -⟩
  refine (List.forall₂_map_left_iff.1 (forall₂_of_mapM_ok hxs)).imp fun r x h => ?_
  change coder.ofText r.payload = .ok x
  cases hread : coder.ofText r.payload with
  | error e =>
    rw [hread] at h
    cases h
  | ok y =>
    rw [hread] at h
    obtain rfl := Except.ok.inj h
    rfl

/-- The entries under the rows of a model. -/
theorem loadWhere_model_prepares (kind model : String) (K : Kept) :
    (loadWhere d coder kind "model_id" model).Prepares d se K fun xs _ =>
      ∃ L, IsListing (·.model == model) (K.durable kind) L ∧
        List.Forall₂ (StoredRow.Reads coder) L xs := by
  rw [loadWhere_eq]
  refine Prepares.bind (tableOf_prepares kind K) (fun _ => (readAll_steady _ _).on) ?_
  rintro _ K - ⟨rfl, rfl⟩
  refine Prepares.bind (read_prepares (.byModel model) (byModel_text kind) K)
    (fun reply => (decodeRows_steady coder reply.1).on) ?_
  rintro reply K' - ⟨L, hL, hrows⟩
  exact (decodeRows_prepares hrows K').mono fun xs _ hxs => ⟨L, hL, hxs⟩

end

/-! ### Saving a template -/

/-- The place for what is saved under an id: that of a row under it, or else the number of rows. -/
inductive PlaceFor (T : List StoredRow) (id : String) : Int64 → Prop where
  | kept {r : StoredRow} (hr : r ∈ T) (hid : r.id = id) : PlaceFor T id r.position
  | new (hnone : id ∉ T.map (·.id)) : PlaceFor T id (Int64.ofNat T.length)

/-- The rows once a template is saved at a place. -/
def withSaved (T : List StoredRow) (u : Template × Int64) : List StoredRow :=
  T.filter (·.id != u.1.id) ++ [Shelf.row u]

theorem ofSource_prepares {α : Type} {r : Except SourceFault α} {x : α} (h : r = .ok x)
    (K : Kept) : (ofSource r).Prepares d se K fun y K' => y = x ∧ K' = K := by
  subst h
  refine (prepares_of_still (fun _ _ _ => rfl) K).mono ?_
  rintro y K' ⟨hy, rfl⟩
  exact ⟨(Except.ok.inj hy).symm, rfl⟩

theorem count_prepares (kind : String) (K : Kept) :
    (run true ("SELECT COUNT(*) FROM " ++ d.quote (se.tableName kind)) [] >>=
      fun reply => firstInteger reply.1).Prepares d se K fun place K' =>
        place = Int64.ofNat (K.pending kind).length ∧ K' = K := by
  refine (run_prepares (v := .count) String.append_empty.symm K).bind
    (fun reply => (firstInteger_steady reply.1).on) ?_
  rintro ⟨rows, affected⟩ K' - ⟨T, hanswer, rfl⟩
  have hsame : K.put true kind (K.pending kind) = K := K.put_seen true kind
  cases hanswer with
  | read _ hseeks => cases hseeks
  | count _ hrows =>
    rw [hsame]
    cases hrows with
    | cons hfirst hrest =>
      cases hrest
      exact ofSource_prepares hfirst K

theorem templatePlace_prepares (id : String) (K : Kept) :
    (templatePlace d (d.quote (se.tableName "templates")) id).Prepares d se K fun place K' =>
      PlaceFor (K.pending "templates") id place ∧ K' = K := by
  rw [templatePlace_eq]
  refine (run_prepares (v := .place) (String.append_assoc ..) K).bind
    (fun reply => (placeIn_steady _ reply.1).on) ?_
  rintro ⟨rows, affected⟩ K' - ⟨T, hanswer, rfl⟩
  have hsame : K.put true "templates" (K.pending "templates") = K := K.put_seen true "templates"
  cases hanswer with
  | read _ hseeks => cases hseeks
  | @place _ L _ _ _ hL hrows =>
    rw [hsame]
    cases L with
    | nil =>
      cases hrows
      -- no row listed under this id: the place is the count of all rows
      have hnone : id ∉ (K.pending "templates").map (·.id) := by
        intro hmem
        obtain ⟨r, hr, hid⟩ := List.mem_map.1 hmem
        have : r ∈ ([] : List StoredRow) :=
          hL.mem_iff.2 (List.mem_filter.2 ⟨hr, beq_iff_eq.2 hid⟩)
        cases this
      refine (count_prepares "templates" K).mono ?_
      rintro place K' ⟨rfl, rfl⟩
      exact ⟨.new hnone, rfl⟩
    | cons r rest =>
      obtain ⟨hr, hid⟩ := List.mem_filter.1 (hL.mem_iff.1 List.mem_cons_self)
      cases hrows with
      | cons hfirst hrest =>
        refine (ofSource_prepares hfirst K).mono ?_
        rintro place K' ⟨rfl, rfl⟩
        exact ⟨.kept hr (beq_iff_eq.1 hid), rfl⟩

theorem replaceTemplate_leaves (t : Template) (place : Int64) (K : Kept) :
    (replaceTemplate d (d.quote (se.tableName "templates")) t place).Leaves d se K
      (AllOrNothing K (· = Function.update K.pending "templates"
        (withSaved (K.pending "templates") (t, place)))) := by
  refine (run_prepares (removal_eq "templates") K).then_all
    (fun _ => (run_steady _ _ _).on.bind fun _ => commit_steady.on) ?_
  rintro ⟨rows, affected⟩ K₁ - ⟨T, hremoved, rfl⟩
  cases hremoved with
  | read _ hseeks => cases hseeks
  -- a DELETE and an INSERT, both seen in the transaction only until the commit
  | remove =>
    refine (run_prepares (insertion_eq "templates") _).then_all (fun _ => commit_steady.on) ?_
    rintro ⟨rows, affected⟩ K₂ - ⟨T, hinserted, rfl⟩
    rcases hinserted.of_insert with ⟨-, -, rfl⟩ | ⟨-, cause, hfailed⟩
    · refine (commit_leaves _).mono fun _ _ _ h => h.mono rfl ?_
      rintro D rfl
      simp [Kept.put, withSaved]
    · cases hfailed

/-- **A template is saved wholly or not at all**, wherever its transaction stops. -/
theorem saveTemplate_leaves (d : Dialect) (se : Settings) (t : Template) (K : Kept) :
    (saveTemplate d t).Leaves d se K (AllOrNothing K fun D =>
      ∃ place, PlaceFor (K.durable "templates") t.id place ∧
        D = Function.update K.durable "templates"
          (withSaved (K.durable "templates") (t, place))) := by
  have hreplace : ∀ table place, (replaceTemplate d table t place).SteadyOn d se :=
    fun table place => (replaceTemplate_steady table t place).on
  have hplaced : ∀ table, (templatePlace d table t.id >>= replaceTemplate d table t).SteadyOn d se :=
    fun table => (templatePlace_steady table t.id).on.bind (hreplace table)
  rw [saveTemplate_eq]
  refine Prepares.then_all (tableOf_prepares "templates" K)
    (fun table => begin_steady.on.bind fun _ => hplaced table) ?_
  rintro _ K - ⟨rfl, rfl⟩
  -- up to here nothing is durable, and the place is read inside the transaction
  refine Prepares.then_all (begin_prepares K) (fun _ => hplaced _) ?_
  rintro _ _ - rfl
  refine Prepares.then_all (templatePlace_prepares t.id _) (hreplace _) ?_
  rintro place _ - ⟨hplace, rfl⟩
  refine (replaceTemplate_leaves t place _).mono fun _ _ _ h => h.mono rfl ?_
  rintro D rfl
  exact ⟨place, hplace, rfl⟩

end Tables

end MetaQuery
