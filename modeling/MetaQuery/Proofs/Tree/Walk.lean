/-
  MetaQuery/Proofs/Tree/Walk.lean
  ===============================
  The walk down from a key, and the deletions behind it.

  `Trees.descend` carries fuel, and a list of keys that grows while it is read.  `Walk` is the walk
  without fuel: it ends only when no key is pending.  As each pending key stands for a row of a
  reply that was used up, the fuel is never short, so statements that succeed make a walk
  (`descend_walks`) and then one deletion for each key (`deleteEach_deletes`).
-/
import Mathlib.Data.List.Forall2
import MetaQuery.Proofs.Service.Transactions

namespace MetaQuery.Trees

open MetaQuery.Action

/-! ### New keys -/

section NewKeys

variable (keyField : String) (seen : List String) (rows : List Record)

theorem mem_newKeys_seen (text : String) :
    text ∈ (newKeys keyField seen rows).2 ↔
      text ∈ seen ∨ text ∈ (newKeys keyField seen rows).1.map Cell.display := by
  fun_induction newKeys keyField seen rows with
  | case1 seen => simp
  | case2 seen row r hkey ih => exact ih
  | case3 seen row r key hkey hseen ih => exact ih
  | case4 seen row r key hkey hseen keys seen' hrest ih =>
    rw [hrest] at ih
    simp only [List.mem_cons, List.map_cons] at ih ⊢
    rw [ih, or_assoc, or_left_comm]

theorem exists_of_mem_newKeys {key : Cell} (h : key ∈ (newKeys keyField seen rows).1) :
    ∃ row ∈ rows, row.get? keyField = some key := by
  fun_induction newKeys keyField seen rows with
  | case1 seen => cases h
  | case2 seen row r hkey ih =>
    obtain ⟨found, hfound, hget⟩ := ih h
    exact ⟨found, List.mem_cons_of_mem _ hfound, hget⟩
  | case3 seen row r key hkey hseen ih =>
    obtain ⟨found, hfound, hget⟩ := ih h
    exact ⟨found, List.mem_cons_of_mem _ hfound, hget⟩
  | case4 seen row r key hkey hseen keys seen' hrest ih =>
    rw [hrest] at ih
    rcases List.mem_cons.1 h with rfl | h
    · exact ⟨row, List.mem_cons_self, hkey⟩
    · obtain ⟨found, hfound, hget⟩ := ih h
      exact ⟨found, List.mem_cons_of_mem _ hfound, hget⟩

theorem seen_of_newKeys {row : Record} {key : Cell} (hrow : row ∈ rows)
    (hget : row.get? keyField = some key) :
    key.display ∈ (newKeys keyField seen rows).2 := by
  -- what was seen stays seen
  have hgrows : ∀ (seen : List String) (rows : List Record) (text : String), text ∈ seen →
      text ∈ (newKeys keyField seen rows).2 :=
    fun seen rows text h => (mem_newKeys_seen keyField seen rows text).2 (.inl h)
  fun_induction newKeys keyField seen rows with
  | case1 seen => cases hrow
  | case2 seen first r hkey ih =>
    rcases List.mem_cons.1 hrow with rfl | hrow
    · rw [hkey] at hget
      cases hget
    · exact ih hrow
  | case3 seen first r key' hkey hseen ih =>
    rcases List.mem_cons.1 hrow with rfl | hrow
    · obtain rfl : key' = key := Option.some.inj (hkey.symm.trans hget)
      exact hgrows _ _ _ (by simpa using hseen)
    · exact ih hrow
  | case4 seen first r key' hkey hseen keys seen' hrest ih =>
    rw [hrest] at ih
    rcases List.mem_cons.1 hrow with rfl | hrow
    · obtain rfl : key' = key := Option.some.inj (hkey.symm.trans hget)
      have hmem := hgrows (key'.display :: seen) r key'.display List.mem_cons_self
      rw [hrest] at hmem
      exact hmem
    · exact ih hrow

theorem length_newKeys_le : (newKeys keyField seen rows).1.length ≤ rows.length := by
  fun_induction newKeys keyField seen rows with
  | case1 seen => exact Nat.le_refl 0
  | case2 seen row r hkey ih => exact Nat.le_succ_of_le ih
  | case3 seen row r key hkey hseen ih => exact Nat.le_succ_of_le ih
  | case4 seen row r key hkey hseen keys seen' hrest ih =>
    rw [hrest] at ih
    exact Nat.succ_le_succ ih

end NewKeys

/-! ### Walks -/

/-- A statement in the transaction of a model, answered with rows. -/
def answered (m : Model) (st : Statement) (rows : List SourceRow) (affected : Nat) : Event :=
  .executed (.data m.connection) true st.text st.args (.rows rows affected)

/-- From the keys seen and those pending, the keys of the walk and its log. -/
inductive Walk (m : Model) : List String → List Cell → List Cell → List Event → Prop where
  | done (seen : List String) : Walk m seen [] [] []
  | visit {seen : List String} {key : Cell} {pending keys : List Cell} {q : Select}
      {rows : List SourceRow} {affected : Nat} {log : List Event}
      (hq : m.selectChildren m.entry.parentField key = .ok q)
      (hrest : Walk m (newKeys m.key seen (rows.map (·.record))).2
        (pending ++ (newKeys m.key seen (rows.map (·.record))).1) keys log) :
      Walk m seen (key :: pending) (key :: keys) (answered m q.statement rows affected :: log)

theorem Walk.mem_of_pending {m : Model} {seen : List String} {pending keys : List Cell}
    {log : List Event} (h : Walk m seen pending keys log) {key : Cell} (hkey : key ∈ pending) :
    key ∈ keys := by
  induction h with
  | done seen => exact hkey
  | visit hq hrest ih =>
    rcases List.mem_cons.1 hkey with rfl | hkey
    · exact List.mem_cons_self
    · exact List.mem_cons_of_mem _ (ih (List.mem_append_left _ hkey))

theorem rowCount_next {a : Answers} {rows : List SourceRow} {affected : Nat}
    (h : a.next.1 = .rows rows affected) :
    rows.length + rowCount a.next.2.replies = rowCount a.replies := by
  rcases hreplies : a.replies with _ | ⟨reply, rest⟩
  · rw [Answers.next, hreplies] at h ⊢
    cases h
    simp only [hreplies]
    rfl
  · rw [Answers.next, hreplies] at h ⊢
    obtain rfl : reply = .rows rows affected := h
    rfl

theorem selectChildren_ok {m : Model} {target : String} (h : m.target = .ok target)
    (parentField : String) (key : Cell) : ∃ q, m.selectChildren parentField key = .ok q := by
  rw [Model.selectChildren, h]
  exact ⟨_, rfl⟩

/-- The query for the keys under a key binds that key alone. -/
theorem args_selectChildren {m : Model} {parentField : String} {key : Cell} {q : Select}
    (hq : m.selectChildren parentField key = .ok q) :
    q.statement.args = [coerceTo (m.field? parentField) key].filter (!·.isNull) := by
  rw [Model.selectChildren] at hq
  cases htarget : m.target with
  | error fault =>
    rw [htarget] at hq
    cases hq
  | ok target =>
    rw [htarget] at hq
    obtain rfl := Except.ok.inj hq
    rw [Select.statement_eq]
    simp only [Select.arguments, Select.all, Fragment.args_ofText, Fragment.args_putArg,
      Fragment.args_empty, List.flatMap_nil, List.append_nil, List.nil_append]

theorem delete_ok {m : Model} {target : String} (h : m.target = .ok target) (key : Cell) :
    ∃ st, m.delete key = .ok st := by
  rw [Model.delete_eq, h]
  exact ⟨_, rfl⟩

/-- The state behind a statement in the transaction of a model. -/
def behind (m : Model) (st : Statement) (s : Session) : Session :=
  { s with
    answers := s.answers.next.2
    events := s.events ++ [.executed (.data m.connection) true st.text st.args s.answers.next.1] }

section Descend

variable {m : Model} {key : Cell} {q : Select} (fuel : Nat) (seen : List String)
  (pending : List Cell) {s : Session} (hq : m.selectChildren m.entry.parentField key = .ok q)

include hq

theorem exec_descend_of_rows {rows : List SourceRow} {affected : Nat}
    (hreply : s.answers.next.1 = .rows rows affected) :
    (descend m m.connection (fuel + 1) seen (key :: pending)).exec s =
      (descend m m.connection fuel (newKeys m.key seen (rows.map (·.record))).2
          (pending ++ (newKeys m.key seen (rows.map (·.record))).1) >>= fun keys =>
        pure (key :: keys)).exec (behind m q.statement s) := by
  have hsent := Connection.exec_runIn m.connection q.statement s
  rw [hreply] at hsent
  rw [descend, hq, behind, hreply]
  exact (exec_bind_of_ok (x := q) rfl).trans (exec_bind_of_ok hsent)

theorem exec_descend_of_failure {cause : SourceFault}
    (hreply : s.answers.next.1 = .failure cause) :
    (descend m m.connection (fuel + 1) seen (key :: pending)).exec s =
      (.error (.execution q.statement.text cause), behind m q.statement s) := by
  have hsent := Connection.exec_runIn m.connection q.statement s
  rw [hreply] at hsent
  rw [descend, hq, behind, hreply]
  exact (exec_bind_of_ok (x := q) rfl).trans (exec_bind_of_error hsent)

end Descend

/-- **Statements that succeed make a walk**, as long as the fuel covers the keys that are pending
    and the rows that are still to come. -/
theorem descend_walks {m : Model} {target : String} (htarget : m.target = .ok target) (fuel : Nat)
    (seen : List String) (pending : List Cell) (s : Session)
    (hfuel : pending.length + rowCount s.answers.replies ≤ fuel) :
    ∃ log, ((descend m m.connection fuel seen pending).exec s).2.events = s.events ++ log ∧
      ((∀ ev ∈ log, ev.succeeded = true) → ∃ keys,
        ((descend m m.connection fuel seen pending).exec s).1 = .ok keys ∧
          Walk m seen pending keys log) := by
  induction fuel generalizing seen pending s with
  | zero =>
    obtain rfl : pending = [] := List.eq_nil_of_length_eq_zero (by omega)
    exact ⟨[], (List.append_nil _).symm, fun _ => ⟨[], rfl, .done seen⟩⟩
  | succ fuel ih =>
    cases pending with
    | nil => exact ⟨[], (List.append_nil _).symm, fun _ => ⟨[], rfl, .done seen⟩⟩
    | cons key pending =>
      obtain ⟨q, hq⟩ := selectChildren_ok htarget m.entry.parentField key
      rcases hreply : s.answers.next.1 with ⟨rows, affected⟩ | cause
      · rw [exec_descend_of_rows fuel seen pending hq hreply, exec_bind]
        -- the rows of the reply pay for the keys that they add
        have hfuel' : (pending ++ (newKeys m.key seen (rows.map (·.record))).1).length +
            rowCount (behind m q.statement s).answers.replies ≤ fuel := by
          have hnew := length_newKeys_le m.key seen (rows.map (·.record))
          have hrows := rowCount_next hreply
          rw [List.length_map] at hnew
          rw [List.length_cons] at hfuel
          rw [List.length_append]
          change _ + rowCount s.answers.next.2.replies ≤ fuel
          omega
        obtain ⟨log, hlog, hwalk⟩ := ih (newKeys m.key seen (rows.map (·.record))).2 _ _ hfuel'
        -- of the rest of the walk, only its outcome and its log matter from here on
        generalize (descend m m.connection fuel (newKeys m.key seen (rows.map (·.record))).2
          (pending ++ (newKeys m.key seen (rows.map (·.record))).1)).exec
            (behind m q.statement s) = out at hlog hwalk ⊢
        obtain ⟨r, t⟩ := out
        refine ⟨answered m q.statement rows affected :: log, ?_, fun hok => ?_⟩
        · have ht : t.events = s.events ++ answered m q.statement rows affected :: log := by
            rw [hlog, behind, hreply, List.append_assoc]
            rfl
          cases r with
          | error e => exact ht
          | ok keys => exact ht
        · obtain ⟨keys, hkeys, hrest⟩ := hwalk fun ev hev => hok ev (List.mem_cons_of_mem _ hev)
          dsimp only at hkeys
          subst hkeys
          exact ⟨key :: keys, rfl, .visit hq hrest⟩
      · rw [exec_descend_of_failure fuel seen pending hq hreply]
        refine ⟨[.executed (.data m.connection) true q.statement.text q.statement.args
          (.failure cause)], ?_, fun hok => ?_⟩
        · rw [behind, hreply]
        · cases hok _ (List.mem_singleton_self _)

/-! ### Deletions -/

/-- The statement that deletes the row with a key, answered. -/
inductive Deletes (m : Model) (key : Cell) : Event → Prop where
  | intro {st : Statement} (hst : m.delete key = .ok st) (rows : List SourceRow)
      (affected : Nat) : Deletes m key (answered m st rows affected)

theorem deleteEach_deletes {m : Model} {target : String} (htarget : m.target = .ok target)
    (keys : List Cell) :
    (deleteEach m m.connection keys).Logs fun r log =>
      (∀ ev ∈ log, ev.succeeded = true) → r = .ok () ∧ List.Forall₂ (Deletes m) keys log := by
  induction keys with
  | nil => exact logs_of_still (fun _ => rfl) fun _ _ => ⟨rfl, .nil⟩
  | cons key keys ih =>
    obtain ⟨st, hst⟩ := delete_ok htarget key
    rw [deleteEach, hst]
    change (Connection.runIn m.connection st >>= fun _ => deleteEach m m.connection keys).Logs _
    -- a DELETE that failed is in the log, so a log without failures reaches the last key
    refine Logs.bind (Logs.then_still (logs_send (.data m.connection) true st.text st.args)
      (Connection.exec_recordsOf st.text)) (fun _ => ih) ?_ ?_
    · rintro e log ⟨reply, hreply, rfl⟩ hok
      cases reply with
      | rows rows affected => cases hreply
      | failure cause => cases hok _ (List.mem_singleton_self _)
    · rintro records r first rest ⟨reply, hreply, rfl⟩ hrest hok
      cases reply with
      | failure cause => cases hreply
      | rows rows affected =>
        obtain ⟨hr, hdeletes⟩ := hrest fun ev hev => hok ev (List.mem_append_right _ hev)
        exact ⟨hr, .cons (.intro hst rows affected) hdeletes⟩

/-- **The steps of a removal that all succeed** are a walk and then one deletion for each of its
    keys, in the opposite order. -/
theorem removal_walks {m : Model} {target : String} (htarget : m.target = .ok target) (key : String)
    (s : Session) :
    ∃ log, ((removal m key).exec s).2.events = s.events ++ log ∧
      ((∀ ev ∈ log, ev.succeeded = true) → ((removal m key).exec s).1 = .ok () ∧
        ∃ keys asked deleted, log = asked ++ deleted ∧ Walk m [key] [.text key] keys asked ∧
          List.Forall₂ (Deletes m) keys.reverse deleted) := by
  -- every key asked for came in with a row of the replies, so the fuel is enough
  have hfuel : [Cell.text key].length + rowCount s.answers.replies ≤
      rowCount s.answers.replies + 1 := by
    rw [List.length_singleton]
    omega
  obtain ⟨asked, hasked, hwalk⟩ := descend_walks htarget _ [key] [.text key] s hfuel
  have hrun : (removal m key).exec s =
      (descend m m.connection (rowCount s.answers.replies + 1) [key] [.text key] >>= fun keys =>
        deleteEach m m.connection keys.reverse).exec s := rfl
  rw [hrun, exec_bind]
  generalize (descend m m.connection (rowCount s.answers.replies + 1) [key] [.text key]).exec s =
    out at hasked hwalk ⊢
  obtain ⟨r, t⟩ := out
  cases r with
  | error e =>
    refine ⟨asked, hasked, fun hok => ?_⟩
    obtain ⟨keys, hkeys, -⟩ := hwalk hok
    cases hkeys
  | ok keys =>
    obtain ⟨deleted, hdeleted, hdeletes⟩ := deleteEach_deletes htarget keys.reverse t
    refine ⟨asked ++ deleted, ?_, fun hok => ?_⟩
    · rw [← List.append_assoc, ← hasked]
      exact hdeleted
    · obtain ⟨keys', hkeys, hwalk⟩ := hwalk fun ev hev => hok ev (List.mem_append_left _ hev)
      obtain rfl : keys = keys' := Except.ok.inj hkeys
      obtain ⟨hr, hdeletes⟩ := hdeletes fun ev hev => hok ev (List.mem_append_right _ hev)
      exact ⟨hr, keys, asked, deleted, rfl, hwalk, hdeletes⟩

end MetaQuery.Trees
