/-
  MetaQuery/Proofs/Tree/Missing.lean
  ==================================
  Deleting a key that no row has.

  Such a removal still asks for the rows under the key, and deletes them with all that is below
  them.  So the table stays as it is just when the removal fails, or when no row has the key as
  its parent.  A key of the root is no exception: rows under it go.
-/
import MetaQuery.Proofs.Service.Atomicity
import MetaQuery.Proofs.Tree.Subtree

namespace MetaQuery

/-! ### The deletions of a removal -/

namespace Model

variable {m : Model} {key : Cell}

theorem delete_of_not_null {target : String} (htarget : m.target = .ok target)
    (hkey : key.isNull = false) :
    m.delete key = .ok ⟨m.dialect, m.deleteText target, [m.boundKey key]⟩ := by
  have hnull : (coerceTo (m.field? m.key) key).isNull = false := (m.isNull_boundKey key).trans hkey
  rw [delete_eq, htarget]
  change Except.ok (Statement.put (m.bindCell (.start m.dialect) m.key key).2 _) = _
  rw [bindCell, Statement.bind_of_not_null hnull]
  exact congrArg (fun text => Except.ok (Statement.mk _ text _)) (String.empty_append)

theorem args_delete {st : Statement} (hst : m.delete key = .ok st) :
    st.args = [m.boundKey key].filter (!·.isNull) := by
  rw [delete_eq] at hst
  cases htarget : m.target with
  | error fault =>
    rw [htarget] at hst
    cases hst
  | ok target =>
    rw [htarget] at hst
    obtain rfl := Except.ok.inj hst
    exact Statement.args_bind _ _

theorem isChangeText_delete {st : Statement} (hst : m.delete key = .ok st) :
    isChangeText st.text = true := by
  rw [delete_eq] at hst
  cases htarget : m.target with
  | error fault =>
    rw [htarget] at hst
    cases hst
  | ok target =>
    rw [htarget] at hst
    obtain rfl := Except.ok.inj hst
    have hstart : (m.bindCell (.start m.dialect) m.key key).2.text = "" := by
      unfold bindCell Statement.bind
      split <;> rfl
    rw [Statement.text_put, hstart, String.empty_append]
    exact isChangeText_of_head (c := 'D') (by simp [String.toList_append]; rfl) (by decide)

/-- Where it is known what a deletion does, it deletes the rows with the key. -/
theorem effect_delete {st : Statement} (hst : m.delete key = .ok st) {same : Cell → Cell → Bool}
    {T T' : TreeTable} (h : m.effect same st.text st.args T = some T') :
    T' = T.without same (m.boundKey key) := by
  have hargs := args_delete hst
  unfold effect at h
  cases hnull : (m.boundKey key).isNull with
  -- a NULL key binds no argument, and such a DELETE names no row
  | true =>
    rw [List.filter_cons_of_neg (by simp [hnull])] at hargs
    rw [hargs] at h
    split at h <;> simp_all
  | false =>
    rw [List.filter_cons_of_pos (by simp [hnull]), List.filter_nil] at hargs
    rw [hargs] at h
    split at h
    · next target k htarget hk =>
      obtain rfl : m.boundKey key = k := (List.cons.inj hk).1
      split at h
      · exact (Option.some.inj h).symm
      · cases h
    · next hk => cases hk
    · cases h

theorem effect_delete_of_not_null {target : String} (htarget : m.target = .ok target)
    {st : Statement} (hst : m.delete key = .ok st) (hkey : key.isNull = false)
    (same : Cell → Cell → Bool) (T : TreeTable) :
    m.effect same st.text st.args T = some (T.without same (m.boundKey key)) := by
  rw [delete_of_not_null htarget hkey] at hst
  obtain rfl := Except.ok.inj hst
  simp only [effect, htarget, if_true]

end Model

namespace Contents

open Trees

variable {m : Model} {same : Cell → Cell → Bool}

theorem step_answered_select (q : Select) (rows : List SourceRow) (affected : Nat)
    (c : Contents) : c.step m same (answered m q.statement rows affected) = c := by
  refine if_neg ?_
  rintro ⟨-, hchange⟩
  rw [q.isChangeText_statement] at hchange
  cases hchange

theorem foldl_asks {keys : List Cell} {asked : List Event} (h : List.Forall₂ (Asks m) keys asked)
    (c : Contents) : asked.foldl (step m same) c = c := by
  induction h with
  | nil => rfl
  | cons hask _ ih =>
    cases hask with
    | @intro q hq rows affected => rw [List.foldl_cons, step_answered_select, ih]

theorem step_deletes {key : Cell} {ev : Event} (h : Deletes m key ev) (c : Contents) :
    ∃ st, m.delete key = .ok st ∧
      c.step m same ev = { c with pending := c.pending.bind (m.effect same st.text st.args) } := by
  cases h with
  | @intro st hst rows affected =>
    exact ⟨st, hst, if_pos ⟨rfl, Model.isChangeText_delete hst⟩⟩

/-- A row is gone behind deletions when one of them has its key, or when it was gone before. -/
theorem gone_of_deletes {keys : List Cell} {deleted : List Event}
    (h : List.Forall₂ (Deletes m) keys deleted) {r : TreeRow} (c : Contents)
    (hgone : (∀ T, c.pending = some T → r ∉ T) ∨
      ∃ key ∈ keys, same r.key (m.boundKey key) = true) :
    ∀ T, (deleted.foldl (step m same) c).pending = some T → r ∉ T := by
  induction h generalizing c with
  | nil =>
    rcases hgone with hgone | ⟨key, hkey, -⟩
    · exact hgone
    · cases hkey
  | @cons key ev keys deleted hdeletes _ ih =>
    obtain ⟨st, hst, hstep⟩ := step_deletes hdeletes c
    rw [List.foldl_cons, hstep]
    refine ih _ ?_
    -- a row that one DELETE removes is not put back by the later ones
    have hdeleted : ((∀ T, c.pending = some T → r ∉ T) ∨ same r.key (m.boundKey key) = true) →
        ∀ T, c.pending.bind (m.effect same st.text st.args) = some T → r ∉ T := by
      intro hr T hT
      obtain ⟨T₀, hT₀, heffect⟩ := Option.bind_eq_some_iff.1 hT
      rw [Model.effect_delete hst heffect]
      exact TreeTable.not_mem_without (hr.imp (fun hgone => hgone T₀ hT₀) id)
    rcases hgone with hgone | ⟨key', hkey', hsame⟩
    · exact .inl (hdeleted (.inl hgone))
    · rcases List.mem_cons.1 hkey' with rfl | hkey'
      · exact .inl (hdeleted (.inr hsame))
      · exact .inr ⟨key', hkey', hsame⟩

end Contents

namespace Trees

open MetaQuery.Action

variable {model key : String} {m : Model} {s : Session} {log : List Event}

/-! ### Removals that succeed -/

theorem removal_without_target {fault : MetadataFault} (h : m.target = .error fault) (key : String)
    (t : Session) : ∃ e, ((removal m key).exec t).1 = .error e := by
  have hq : m.selectChildren m.entry.parentField (.text key) = .error fault := by
    rw [Model.selectChildren, h]
    rfl
  have hdescend :
      (descend m m.connection (rowCount t.answers.replies + 1) [key] [.text key]).exec t =
      (.error (.metadata fault), t) := by
    rw [descend, hq]
    rfl
  have hrun : (removal m key).exec t =
      (descend m m.connection (rowCount t.answers.replies + 1) [key] [.text key] >>= fun keys =>
        deleteEach m m.connection keys.reverse).exec t := rfl
  exact ⟨.metadata fault, by rw [hrun, exec_bind_of_error hdescend]⟩

theorem began_of_ok (hm : ((treeModel model).exec s).1 = .ok m)
    (hlog : ((delete model key).exec s).2.events = s.events ++ log)
    (hr : ((delete model key).exec s).1 = .ok ()) : .began (.data m.connection) none ∈ log := by
  obtain ⟨opening, hopening, -⟩ := treeModel_quiet model s
  rcases hrun : (treeModel model).exec s with ⟨r, t⟩
  rw [hrun] at hm hopening
  obtain rfl : r = .ok m := hm
  rw [delete_eq, exec_bind_of_ok hrun] at hlog hr
  obtain ⟨rest, hrest, htransaction⟩ :=
    Connection.transaction_logs m.connection (removal_steps m key) t
  have hsplit : log = opening ++ rest := by
    rw [hrest, hopening, List.append_assoc] at hlog
    exact (List.append_cancel_left hlog).symm
  rw [hr] at htransaction
  cases htransaction with
  | ended hbegin hinner hend =>
    cases hbegin with
    | begun hquiet hopened =>
      rw [hsplit]
      simp

theorem delete_walks_of_ok (hm : ((treeModel model).exec s).1 = .ok m)
    (hlog : ((delete model key).exec s).2.events = s.events ++ log)
    (hr : ((delete model key).exec s).1 = .ok ()) :
    ∃ target before keys asked deleted, m.target = .ok target ∧
      log = before ++ .began (.data m.connection) none ::
        (asked ++ deleted ++ [.committed (.data m.connection) none]) ∧
      (∀ ev ∈ before, Quiet ev) ∧ Walk m [key] [.text key] keys asked ∧
      List.Forall₂ (Deletes m) keys.reverse deleted := by
  obtain ⟨before, after, rfl⟩ := List.append_of_mem (began_of_ok hm hlog hr)
  have hcomplete := (Logs.of_run (delete_atomic model key) rfl hlog).of_ok () hr
  cases htarget : m.target with
  | error fault =>
    -- without a table the steps are refused, and then the removal fails
    obtain ⟨_, hevents, hbrackets⟩ := delete_bracketed model key s
    obtain rfl := List.append_cancel_left (hevents.symm.trans hlog)
    obtain ⟨connection, steps, t, inner, last, -, ⟨m', hm', -, rfl⟩, -, -, -, -, hbracket⟩ :=
      hbrackets before _ after rfl
    obtain rfl : m' = m := Except.ok.inj (hm'.symm.trans hm)
    obtain ⟨e, he⟩ := removal_without_target htarget key t
    rw [hbracket.of_error e he] at hr
    cases hr
  | ok target =>
    have hsucceeded : ∀ target inTransaction text args cause,
        .executed target inTransaction text args (.failure cause) ∉ after := by
      intro target inTransaction text args cause hmem
      cases hcomplete.succeeded _ (List.mem_append_right before (List.mem_cons_of_mem _ hmem))
    obtain ⟨keys, asked, deleted, failure, rfl, hwalk, hdeletes, hbefore, hout⟩ :=
      delete_walks hm htarget hlog hsucceeded
    cases failure with
    | some cause =>
      rw [hout] at hr
      cases hr
    | none => exact ⟨target, before, keys, asked, deleted, rfl, rfl, hbefore, hwalk, hdeletes⟩

/-- What such a log leaves of the table is what the deletions leave to its transaction. -/
theorem tableAfter_of_walk {same : Cell → Cell → Bool} {before asked deleted : List Event}
    {keys : List Cell} (hbefore : ∀ ev ∈ before, Quiet ev)
    (hasked : List.Forall₂ (Asks m) keys asked) (T : TreeTable) :
    tableAfter m same T (before ++ .began (.data m.connection) none ::
        (asked ++ deleted ++ [.committed (.data m.connection) none])) =
      (deleted.foldl (Contents.step m same) ⟨some T, some T⟩).pending := by
  rw [tableAfter, List.foldl_append, Contents.foldl_quiet hbefore, List.foldl_cons,
    List.foldl_append, List.foldl_append]
  have hbegan : (Contents.mk (some T) (some T)).step m same (.began (.data m.connection) none) =
      ⟨some T, some T⟩ := if_pos rfl
  rw [hbegan, Contents.foldl_asks hasked, List.foldl_cons, List.foldl_nil]
  exact congrArg Contents.durable (if_pos rfl)

/-! ### Keys without a row -/

section Rowless

variable {same : Cell → Cell → Bool} {T : TreeTable} {keys : List Cell} {asked deleted : List Event}

/-- A row under the key is found by the first query, and its deletion is not undone. -/
theorem changed_of_under (hwalk : Walk m [key] [.text key] keys asked)
    (hdeletes : List.Forall₂ (Deletes m) keys.reverse deleted)
    (hkeys : ∀ r ∈ T, same r.key (m.boundKey r.key) = true)
    (hmissing : ∀ r ∈ T, r.key.display ≠ key)
    (hanswered : AnswersChildren m T (.text key) (fun r =>
      same r.parent (m.boundParent (.text key)) = true) asked)
    {r : TreeRow} (hr : r ∈ T) (hunder : same r.parent (m.boundParent (.text key)) = true) :
    (deleted.foldl (Contents.step m same) ⟨some T, some T⟩).pending ≠ some T := by
  intro hkept
  cases hwalk with
  | @visit _ _ _ keys q rows affected asked hq hrest =>
  obtain ⟨row, hmem, hget⟩ :=
    (hanswered q rows affected hq List.mem_cons_self r.key).2 ⟨r, hr, hunder, rfl⟩
  have hseen := seen_of_newKeys m.key [key] _ (List.mem_map_of_mem hmem) hget
  rcases (mem_newKeys_seen m.key [key] _ _).1 hseen with hself | hnew
  · exact hmissing r hr (List.mem_singleton.1 hself)
  · -- the key that is deleted has the text of the row's key, and is that of a row
    obtain ⟨c, hc, -⟩ := List.mem_map.1 hnew
    obtain ⟨r', hr', -, rfl⟩ := hanswered.row_of_new hq List.mem_cons_self hc
    have hdeleted : r'.key ∈ (.text key :: keys).reverse :=
      List.mem_reverse.2 (List.mem_cons_of_mem _ (hrest.mem_of_pending hc))
    exact Contents.gone_of_deletes hdeletes _ (.inr ⟨r'.key, hdeleted, hkeys r' hr'⟩) T hkept hr'

/-- Without a row under the key, only the key itself is deleted, which no row has. -/
theorem kept_of_none_under {target : String} (htarget : m.target = .ok target)
    (hwalk : Walk m [key] [.text key] keys asked)
    (hdeletes : List.Forall₂ (Deletes m) keys.reverse deleted)
    (hmissing : ∀ r ∈ T, same r.key (m.boundKey (.text key)) = false)
    (hanswered : AnswersChildren m T (.text key) (fun r =>
      same r.parent (m.boundParent (.text key)) = true) asked)
    (hnone : ∀ r ∈ T, same r.parent (m.boundParent (.text key)) = false) :
    (deleted.foldl (Contents.step m same) ⟨some T, some T⟩).pending = some T := by
  cases hwalk with
  | @visit _ _ _ keys q rows affected asked hq hrest =>
  have hnew : (newKeys m.key [key] (rows.map (·.record))).1 = [] := by
    refine List.eq_nil_iff_forall_not_mem.2 fun c hc => ?_
    obtain ⟨r, hr, hunder, -⟩ := hanswered.row_of_new hq List.mem_cons_self hc
    rw [hnone r hr] at hunder
    cases hunder
  rw [hnew] at hrest
  cases hrest
  rcases hdeletes with _ | ⟨hdelete, ⟨⟩⟩
  obtain ⟨st, hst, hstep⟩ := Contents.step_deletes hdelete ⟨some T, some T⟩
  rw [List.foldl_cons, List.foldl_nil, hstep]
  refine (Model.effect_delete_of_not_null htarget hst rfl same T).trans ?_
  rw [TreeTable.without_eq_self hmissing]

end Rowless

/-- **Deleting a key that no row has** leaves the table as it is just when it fails or when no row
    has the key as its parent; in particular, a key of the root is taken as it stands. -/
theorem delete_missing_iff {same : Cell → Cell → Bool} {T : TreeTable}
    (hm : ((treeModel model).exec s).1 = .ok m)
    (hlog : ((delete model key).exec s).2.events = s.events ++ log)
    (hkeys : ∀ r ∈ T, same r.key (m.boundKey r.key) = true)
    (hmissing : ∀ r ∈ T, r.key.display ≠ key ∧ same r.key (m.boundKey (.text key)) = false)
    (hanswered : AnswersChildren m T (.text key) (fun r =>
      same r.parent (m.boundParent (.text key)) = true) log) :
    tableAfter m same T log = some T ↔
      (∃ e, ((delete model key).exec s).1 = .error e) ∨
        ∀ r ∈ T, same r.parent (m.boundParent (.text key)) = false := by
  -- a call that failed left no committed change
  rcases hr : ((delete model key).exec s).1 with e | ⟨⟩
  · obtain ⟨log', hlog', hatomic⟩ := delete_atomic model key s
    obtain rfl := List.append_cancel_left (hlog'.symm.trans hlog)
    exact ⟨fun _ => .inl ⟨e, rfl⟩, fun _ => (hatomic.of_error e hr).tableAfter m same T⟩
  · obtain ⟨target, before, keys, asked, deleted, htarget, rfl, hbefore, hwalk, hdeletes⟩ :=
      delete_walks_of_ok hm hlog hr
    have hasked : AnswersChildren m T (.text key) (fun r =>
        same r.parent (m.boundParent (.text key)) = true) asked :=
      fun q rows affected hq hmem => hanswered q rows affected hq (by simp [hmem])
    -- the walk asks for the children of the missing key first; its own DELETE matches no row, so
    -- the table changes exactly when some row names it as parent
    rw [tableAfter_of_walk hbefore hwalk.asks]
    constructor
    · intro hkept
      refine .inr fun r hr => Bool.eq_false_iff.2 fun hunder => ?_
      exact changed_of_under hwalk hdeletes hkeys (fun r hr => (hmissing r hr).1) hasked hr hunder
        hkept
    · rintro (⟨e, ⟨⟩⟩ | hnone)
      exact kept_of_none_under htarget hwalk hdeletes (fun r hr => (hmissing r hr).2) hasked hnone

def rootReplies : List Reply := [.rows [[("id", .integer 1)]] 0, .rows [[("id", .integer 2)]] 0]

/-- What deleting the root's key asks and deletes. -/
def rootRemoval : List Event := [
  .began (.data "main") none,
  departmentStatement "SELECT `id` FROM `departments` WHERE `parent_id` = ?" (.text "0")
    [[("id", .integer 1)]],
  departmentStatement "SELECT `id` FROM `departments` WHERE `parent_id` = ?" (.int 1)
    [[("id", .integer 2)]],
  departmentStatement "SELECT `id` FROM `departments` WHERE `parent_id` = ?" (.int 2) [],
  departmentStatement "DELETE FROM `departments` WHERE `id` = ?" (.int 2) [],
  departmentStatement "DELETE FROM `departments` WHERE `id` = ?" (.int 1) [],
  departmentStatement "DELETE FROM `departments` WHERE `id` = ?" (.text "0") [],
  .committed (.data "main") none]

theorem rootRemoval_eq :
    ((delete "dept" "0").exec (sessionOf departments rootReplies)).1 = .ok () ∧
    ((delete "dept" "0").exec (sessionOf departments rootReplies)).2.events = rootRemoval := by
  decide +kernel

/-- No department has the key of the root, and still its deletion takes two of them along. -/
theorem departments_root_removed :
    "0" ∉ departmentRows.texts ∧
    ((delete "dept" "0").exec (sessionOf departments rootReplies)).1 = .ok () ∧
    tableAfter departments sameText departmentRows
        ((delete "dept" "0").exec (sessionOf departments rootReplies)).2.events =
      some [⟨.int 3, .null⟩] := by
  obtain ⟨hr, hlog⟩ := rootRemoval_eq
  rw [hlog]
  exact ⟨by decide, hr, by decide +kernel⟩

theorem departments_delete_missing :
    ¬ tableAfter departments sameText departmentRows rootRemoval = some departmentRows := by
  have hm : ((treeModel "dept").exec (sessionOf departments rootReplies)).1 = .ok departments := rfl
  obtain ⟨hr, hevents⟩ := rootRemoval_eq
  have hlog : ((delete "dept" "0").exec (sessionOf departments rootReplies)).2.events =
      [] ++ rootRemoval := hevents
  have hanswered : AnswersChildren departments departmentRows (.text "0") (fun r =>
      sameText r.parent (departments.boundParent (.text "0")) = true) rootRemoval := by
    intro q rows affected hq hmem c
    -- the first statement asks for the children of 0, the second is the DELETE of one of them
    have hargs : q.statement.args = [.text "0"] := by
      rw [args_selectChildren hq]
      decide
    have hselect := q.isChangeText_statement
    simp only [rootRemoval, departmentStatement, answered, hargs, List.mem_cons,
      Event.executed.injEq, List.cons.injEq, Reply.rows.injEq, List.not_mem_nil, or_false,
      reduceCtorEq, false_and, and_false, false_or, or_self] at hmem
    rcases hmem with ⟨-, -, -, -, rfl, -⟩ | h
    · have hget : (SourceRow.record [("id", .integer 1)]).get? departments.key =
          some (.int 1) := by
        decide
      exact one_row_answers hget (by decide) ⟨⟨.int 1, .int 0⟩, by decide, rfl⟩ c
    · rw [h.2.2.1] at hselect
      exact absurd hselect (by decide)
  rw [delete_missing_iff hm hlog (by decide) (by decide) hanswered]
  rintro (⟨e, he⟩ | hnone)
  · rw [hr] at he
    cases he
  · exact absurd (hnone ⟨.int 1, .int 0⟩ (by decide)) (by decide)

end Trees

end MetaQuery
