/-
  MetaQuery/Proofs/Tree/Climb.lean
  ================================
  The way up from a key.

  Each step up loads the model anew and reads one row.  As long as the metadata give the same
  answers, each load gives the same model, and when the rows are read from a table (`ReadsFrom`),
  the climb follows the links of the table.  It stops at a key of the root, at a key that it has
  seen and at a key without a row, none of which lies on the way to a row above.  So it passes
  every row above its key (`climb_passes`).
-/
import MetaQuery.Proofs.Service.Sending
import MetaQuery.Proofs.Tree.Table

open Relation

namespace MetaQuery

open MetaQuery.Action

/-! ### Reading a row -/

namespace Rows

theorem get?_steady (model : String) (key : Cell) : (get? model key).Steady := by
  refine (Metadata.model_consults model).steady.bind fun m => ?_
  refine (steady_ofExcept _).bind fun q => ?_
  exact (Connection.run_steady m.connection q.statement).bind fun rows => steady_pure _

/-- The row with a key is asked for with the model's query, and it uses up a reply. -/
theorem asked_of_get? {model : String} {key : Cell} {m : Model}
    {answer : String → List Cell → Reply} {s t : Session} {row? : Option Record}
    {log : List Event} (hload : (Metadata.model model).Finds m answer s)
    (hrun : (get? model key).exec s = (.ok row?, t)) (hlog : t.events = s.events ++ log)
    (hgives : ∀ ev ∈ log, ev.Gives answer) :
    ∃ q rows affected, keyQuery m key = .ok q ∧
      .executed (.data m.connection) false q.statement.text q.statement.args
        (.rows rows affected) ∈ log ∧
      row? = (rows.map (·.record)).head? ∧
      (rows ≠ [] → t.answers.replies.length < s.answers.replies.length) := by
  obtain ⟨u, first, rest, hrest, hsu, ht, rfl, -⟩ := hload.split (Metadata.model_consults model)
    (fun m => (steady_ofExcept _).bind fun q => (Connection.run_steady _ _).bind fun _ =>
      steady_pure _) hrun hlog hgives
  obtain ⟨q, v, hcompiled, hsent⟩ := ok_of_exec_bind hrest
  obtain ⟨hq, rfl⟩ := ok_of_exec_ofExcept hcompiled
  obtain ⟨records, w, hrecords, hhead⟩ := ok_of_exec_bind hsent
  obtain ⟨hrow, rfl⟩ := Prod.mk.inj hhead
  obtain ⟨rows, affected, opening, x, hvx, hopening, -, hreply, rfl, rfl⟩ :=
    Connection.answered_of_run hrecords
  -- a reply that holds rows is used up, and so the climb gets shorter
  refine ⟨q, rows, affected, hq, ?_, (Except.ok.inj hrow).symm, fun hrows => ?_⟩
  · dsimp only at ht
    rw [hopening, List.append_assoc] at ht
    rw [← List.append_cancel_left ht]
    simp
  · exact Nat.lt_of_lt_of_le (Answers.length_next_lt hreply hrows)
      (hsu.trans hvx).replies.length_le

end Rows

/-! ### Climbing -/

namespace Trees

/-- Where the log answers the query for the row with a key, it answers with the texts that the
    row of the table has. -/
def ReadsFrom (m : Model) (T : TreeTable) (log : List Event) : Prop :=
  ∀ r ∈ T, ∀ q rows affected, Rows.keyQuery m (.text r.key.display) = .ok q →
    .executed (.data m.connection) false q.statement.text q.statement.args
      (.rows rows affected) ∈ log →
    ∃ row ∈ rows.head?, keyText (row.record.get? m.key) = r.key.display ∧
      keyText (row.record.get? m.entry.parentField) = r.parent.display

theorem ReadsFrom.mono {m : Model} {T : TreeTable} {log log' : List Event}
    (h : ReadsFrom m T log) (hsub : log' ⊆ log) : ReadsFrom m T log' :=
  fun r hr q rows affected hq hmem => h r hr q rows affected hq (hsub hmem)

section Climb

variable {model parentField : String}

/-- What is done behind the look at a row. -/
def climbOver (model parentField : String) (fuel : Nat) (seen : List String) (key : String)
    (below : List Record) : Option Record → Action (List Record)
  | none => pure below
  | some row =>
    climb model parentField fuel (key :: seen) (keyText (row.get? parentField)) (row :: below)

theorem climb_eq (fuel : Nat) {seen : List String} {key : String}
    (h : isRootKey key = false ∧ key ∉ seen) (below : List Record) :
    climb model parentField (fuel + 1) seen key below =
      Rows.get? model (.text key) >>= climbOver model parentField fuel seen key below := by
  rw [climb, h.1, Bool.false_or, if_neg (by simpa using h.2)]
  rfl

theorem climb_stop (fuel : Nat) {seen : List String} {key : String}
    (h : ¬ (isRootKey key = false ∧ key ∉ seen)) (below : List Record) :
    climb model parentField (fuel + 1) seen key below = pure below := by
  rw [climb, if_pos]
  by_contra hgo
  simp_all

theorem climb_steady (fuel : Nat) (seen : List String) (key : String) (below : List Record) :
    (climb model parentField fuel seen key below).Steady := by
  induction fuel generalizing seen key below with
  | zero => exact steady_pure below
  | succ fuel ih =>
    by_cases h : isRootKey key = false ∧ key ∉ seen
    · rw [climb_eq fuel h]
      refine (Rows.get?_steady model (.text key)).bind fun row? => ?_
      cases row? with
      | none => exact steady_pure below
      | some row => exact ih _ _ _
    · rw [climb_stop fuel h]
      exact steady_pure below

theorem climbOver_steady (fuel : Nat) (seen : List String) (key : String) (below : List Record)
    (row? : Option Record) : (climbOver model parentField fuel seen key below row?).Steady := by
  cases row? with
  | none => exact steady_pure below
  | some row => exact climb_steady _ _ _ _

/-- Nothing that was passed is lost. -/
theorem mem_of_climb {fuel : Nat} {seen : List String} {key : String} {below above : List Record}
    {s t : Session} (h : (climb model parentField fuel seen key below).exec s = (.ok above, t))
    {row : Record} (hrow : row ∈ below) : row ∈ above := by
  -- where the climb ends, the rows below are all there is
  have hpure : ∀ {s t : Session}, (pure below : Action (List Record)).exec s = (.ok above, t) →
      row ∈ above := by
    rintro s t ⟨⟩
    exact hrow
  induction fuel generalizing seen key below s with
  | zero => exact hpure h
  | succ fuel ih =>
    by_cases hgo : isRootKey key = false ∧ key ∉ seen
    · rw [climb_eq fuel hgo] at h
      obtain ⟨row?, u, -, hrest⟩ := ok_of_exec_bind h
      cases row? with
      | none => exact hpure hrest
      | some found =>
        refine ih hrest (List.mem_cons_of_mem _ hrow) ?_
        rintro s t ⟨⟩
        exact List.mem_cons_of_mem _ hrow
    · rw [climb_stop fuel hgo] at h
      exact hpure h

end Climb

section Passing

variable {model : String} {m : Model} {T : TreeTable} {answer : String → List Cell → Reply}

/-- One step up, from a key that has a row and was not seen before. -/
theorem climb_step {r : TreeRow} (hr : r ∈ T) {fuel : Nat} {seen : List String}
    (hgo : isRootKey r.key.display = false ∧ r.key.display ∉ seen) {below above : List Record}
    {s t : Session} {log : List Event} (hload : (Metadata.model model).Finds m answer s)
    (hrun : (climb model m.entry.parentField fuel seen r.key.display below).exec s =
      (.ok above, t))
    (hlog : t.events = s.events ++ log) (hgives : ∀ ev ∈ log, ev.Gives answer)
    (hreads : ReadsFrom m T log) (hfuel : s.answers.replies.length < fuel) :
    ∃ fuel' row rest, ∃ u : Session, s.Precedes u ∧ t.events = u.events ++ rest ∧ rest ⊆ log ∧
      u.answers.replies.length < fuel' ∧ keyText (row.get? m.key) = r.key.display ∧
      (climb model m.entry.parentField fuel' (r.key.display :: seen) r.parent.display
        (row :: below)).exec u = (.ok above, t) := by
  cases fuel with
  | zero => cases hfuel
  | succ fuel =>
    rw [climb_eq fuel hgo] at hrun
    obtain ⟨row?, u, first, rest, hget, hrest, hsu, -, hu, ht, rfl⟩ :=
      (Rows.get?_steady model _).split (climbOver_steady fuel seen _ below) hrun hlog
    obtain ⟨q, rows, affected, hq, hmem, rfl, hused⟩ := Rows.asked_of_get? hload hget hu
      fun ev hev => hgives ev (List.mem_append_left _ hev)
    obtain ⟨found, hfound, hkey, hparent⟩ :=
      hreads r hr q rows affected hq (List.mem_append_left _ hmem)
    cases rows with
    | nil => cases hfound
    | cons head tail =>
      obtain rfl : head = found := Option.some.inj hfound
      refine ⟨fuel, head.record, rest, u, hsu, ht, List.subset_append_right _ _, ?_, hkey, ?_⟩
      -- a row came back, so a reply was taken and the fuel that is left still covers the rest
      · have hless := hused (List.cons_ne_nil _ _)
        omega
      · rw [← hparent]
        exact hrest

/-- **The climb passes every row above its key**, in a forest without rows of the root. -/
theorem climb_passes (hforest : T.IsForest) (hroots : ∀ x ∈ T.texts, isRootKey x = false)
    {top : String} (htop : top ∈ T.texts) {key : String} (hpath : ReflTransGen T.Link key top)
    {fuel : Nat} {seen : List String} {below above : List Record} {s t : Session}
    {log : List Event} (hload : (Metadata.model model).Finds m answer s)
    (hrun : (climb model m.entry.parentField fuel seen key below).exec s = (.ok above, t))
    (hlog : t.events = s.events ++ log) (hgives : ∀ ev ∈ log, ev.Gives answer)
    (hreads : ReadsFrom m T log) (hfuel : s.answers.replies.length < fuel)
    (hseen : ∀ x ∈ seen, TransGen T.Link x key) :
    ∃ row ∈ above, keyText (row.get? m.key) = top := by
  -- a key that was seen is below this one, so this one would be its own ancestor
  have hfree : ∀ {seen : List String} {key : String}, (∀ x ∈ seen, TransGen T.Link x key) →
      key ∉ seen := fun hseen hmem => hforest.no_loop (hseen _ hmem)
  induction hpath using ReflTransGen.head_induction_on generalizing fuel seen below s log with
  | refl =>
    obtain ⟨r, hr, rfl⟩ := List.mem_map.1 htop
    obtain ⟨fuel', row, rest, u, -, -, -, -, hkey, hrest⟩ :=
      climb_step hr ⟨hroots _ htop, hfree hseen⟩ hload hrun hlog hgives hreads hfuel
    exact ⟨row, mem_of_climb hrest List.mem_cons_self, hkey⟩
  | @head key parent hlink _ ih =>
    obtain ⟨r, hr, rfl, -, rfl⟩ := id hlink
    obtain ⟨fuel', row, rest, u, hsu, ht, hsub, hfuel', -, hrest⟩ :=
      climb_step hr ⟨hroots _ hlink.mem_texts, hfree hseen⟩ hload hrun hlog hgives hreads hfuel
    refine ih (hload.of_precedes hsu) hrest ht (fun ev hev => hgives ev (hsub hev))
      (hreads.mono hsub) hfuel' fun x hx => ?_
    rcases List.mem_cons.1 hx with rfl | hx
    · exact .single hlink
    · exact (hseen x hx).tail hlink

theorem model_of_treeModel {s t : Session} (h : (treeModel model).exec s = (.ok m, t)) :
    (Metadata.model model).exec s = (.ok m, t) := by
  obtain ⟨m', u, hload, hrest⟩ := ok_of_exec_bind h
  split at hrest
  · cases hrest
  · cases hrest
    exact hload

/-- Behind the load of the model of a tree, which is quiet, the same model is found again. -/
theorem behind_treeModel {β : Type} {f : Model → Action β} (hf : ∀ m, (f m).Steady)
    {s t : Session} {log : List Event} (hm : (treeModel model).exec s = (.ok m, t))
    (hlog : ((treeModel model >>= f).exec s).2.events = s.events ++ log)
    (hgives : ∀ ev ∈ log, ev.Gives answer) :
    ∃ first rest, log = first ++ rest ∧ (∀ ev ∈ first, Quiet ev) ∧
      (treeModel model).Finds m answer t ∧ (Metadata.model model).Finds m answer t ∧
      ((f m).exec t).2.events = t.events ++ rest := by
  obtain ⟨first, hfirst, hquiet, -⟩ := treeModel_quiet model s
  have hprecedes := (treeModel_consults model).steady s
  have hmodel := model_of_treeModel hm
  rw [hm] at hfirst hprecedes
  obtain ⟨rest, rfl, hrest⟩ := log_behind hf hm hfirst hlog
  have hgivesFirst : ∀ ev ∈ first, ev.Gives answer :=
    fun ev hev => hgives ev (List.mem_append_left _ hev)
  -- both loads already answered in `s`; the session only moved on since
  refine ⟨first, rest, rfl, hquiet, Finds.of_precedes ?_ hprecedes,
    Finds.of_precedes ?_ hprecedes, hrest⟩
  · exact (treeModel_consults model).finds (by rw [hm]) (by rw [hm, hfirst]) hgivesFirst
  · exact (Metadata.model_consults model).finds (by rw [hmodel]) (by rw [hmodel, hfirst])
      hgivesFirst

theorem path_steady (model key : String) : (path model key).Steady := by
  refine (treeModel_consults model).steady.bind fun m => ?_
  exact steady_get_bind fun s => climb_steady _ _ _ _

theorem path_passes (hforest : T.IsForest) (hroots : ∀ x ∈ T.texts, isRootKey x = false)
    {top : String} (htop : top ∈ T.texts) {key : String} (hpath : ReflTransGen T.Link key top)
    {above : List Record} {s t : Session} {log : List Event}
    (htree : (treeModel model).Finds m answer s) (hload : (Metadata.model model).Finds m answer s)
    (hrun : (path model key).exec s = (.ok above, t)) (hlog : t.events = s.events ++ log)
    (hgives : ∀ ev ∈ log, ev.Gives answer) (hreads : ReadsFrom m T log) :
    ∃ row ∈ above, keyText (row.get? m.key) = top := by
  obtain ⟨u, first, rest, hrest, hsu, ht, rfl, -⟩ := htree.split (treeModel_consults model)
    (fun m => steady_get_bind fun s => climb_steady _ _ _ _) hrun hlog hgives
  have hclimb : (climb model m.entry.parentField (u.answers.replies.length + 1) [] key []).exec u =
      (.ok above, t) := hrest
  exact climb_passes hforest hroots htop hpath (hload.of_precedes hsu) hclimb ht
    (fun ev hev => hgives ev (List.mem_append_right _ hev))
    (hreads.mono (List.subset_append_right _ _)) (Nat.lt_succ_self _) (by simp)

end Passing

end Trees

end MetaQuery
