/-
  MetaQuery/Proofs/Tree/Subtree.lean
  ==================================
  What deleting a node deletes.

  `Descent` is the walk down as it looks from the table: pending keys are visited in order, each
  visit adds the keys under the visited one that were not seen before, and nothing else.  From a
  single key it visits just the keys below it, each once, and a child never before its parent,
  except for the key that it starts from (`IsSubtree`).  A walk whose queries are answered from
  the table is a descent, so deleting a node deletes the subtree, children first.
-/
import Mathlib.Data.List.Perm.Subperm
import MetaQuery.Proofs.Tree.Table
import MetaQuery.Proofs.Tree.Walk

open Relation

namespace MetaQuery

/-! ### Descents -/

/-- From the texts seen and those pending, the texts that are visited. -/
inductive Descent (T : TreeTable) : List String → List String → List String → Prop where
  | done (seen : List String) : Descent T seen [] []
  | visit {seen seen' new pending visited : List String} {text : String}
      (hlinked : ∀ child ∈ new, T.Link child text)
      (hnodup : new.Nodup) (hfresh : ∀ child ∈ new, child ∉ seen)
      (hseen : ∀ t, t ∈ seen' ↔ t ∈ seen ∨ t ∈ new)
      (hclosed : ∀ child, T.Link child text → child ∈ seen')
      (hrest : Descent T seen' (pending ++ new) visited) :
      Descent T seen (text :: pending) (text :: visited)

namespace Descent

variable {T : TreeTable} {seen pending visited : List String}

theorem mem_of_pending (h : Descent T seen pending visited) {text : String}
    (htext : text ∈ pending) : text ∈ visited := by
  induction h with
  | done seen => exact htext
  | visit hlinked hnodup hfresh hseen hclosed hrest ih =>
    rcases List.mem_cons.1 htext with rfl | htext
    · exact List.mem_cons_self
    · exact List.mem_cons_of_mem _ (ih (List.mem_append_left _ htext))

/-- What is visited is pending, or not seen yet. -/
theorem pending_or_fresh (h : Descent T seen pending visited) {text : String}
    (htext : text ∈ visited) : text ∈ pending ∨ text ∉ seen := by
  induction h with
  | done seen => cases htext
  | visit hlinked hnodup hfresh hseen hclosed hrest ih =>
    rcases List.mem_cons.1 htext with rfl | htext
    · exact .inl List.mem_cons_self
    · rcases ih htext with hpending | hnot
      · rcases List.mem_append.1 hpending with hpending | hnew
        · exact .inl (List.mem_cons_of_mem _ hpending)
        · exact .inr (hfresh text hnew)
      · exact .inr fun hmem => hnot ((hseen text).2 (.inl hmem))

/-- Pending keys are different from each other, and all of them were seen. -/
structure Queued (seen pending : List String) : Prop where
  nodup : pending.Nodup
  seen : pending ⊆ seen

theorem Queued.visit {seen' new : List String} {text : String} (h : Queued seen (text :: pending))
    (hnodup : new.Nodup) (hfresh : ∀ child ∈ new, child ∉ seen)
    (hseen : ∀ t, t ∈ seen' ↔ t ∈ seen ∨ t ∈ new) : Queued seen' (pending ++ new) := by
  have hpending : pending ⊆ seen := fun t ht => h.seen (List.mem_cons_of_mem _ ht)
  constructor
  · refine List.nodup_append'.2 ⟨(List.nodup_cons.1 h.nodup).2, hnodup, fun t ht hnew => ?_⟩
    exact hfresh t hnew (hpending ht)
  · intro t ht
    rcases List.mem_append.1 ht with ht | ht
    · exact (hseen t).2 (.inl (hpending ht))
    · exact (hseen t).2 (.inr ht)

theorem nodup (h : Descent T seen pending visited) (hqueued : Queued seen pending) :
    visited.Nodup := by
  induction h with
  | done seen => exact .nil
  | @visit seen seen' new pending visited text hlinked hnodup hfresh hseen hclosed hrest ih =>
    have htext : text ∈ seen := hqueued.seen List.mem_cons_self
    refine List.nodup_cons.2 ⟨fun hmem => ?_, ih (hqueued.visit hnodup hfresh hseen)⟩
    -- the visited text is seen, and no longer pending
    rcases hrest.pending_or_fresh hmem with hmem | hfree
    · rcases List.mem_append.1 hmem with hmem | hmem
      · exact (List.nodup_cons.1 hqueued.nodup).1 hmem
      · exact hfresh text hmem htext
    · exact hfree ((hseen text).2 (.inl htext))

/-- The children of visited keys were seen before, or they are visited. -/
theorem closed (h : Descent T seen pending visited) {child parent : String}
    (hlink : T.Link child parent) (hparent : parent ∈ visited) :
    child ∈ seen ∨ child ∈ visited := by
  induction h with
  | done seen => cases hparent
  | @visit seen seen' new pending visited text hlinked hnodup hfresh hseen hclosed hrest ih =>
    -- either the parent is visited now, and its children are seen with it, or later
    have hchild : child ∈ seen' ∨ child ∈ visited := by
      rcases List.mem_cons.1 hparent with rfl | hparent
      · exact .inl (hclosed child hlink)
      · exact ih hparent
    rcases hchild with hmem | hmem
    · rcases (hseen child).1 hmem with hmem | hmem
      · exact .inl hmem
      · exact .inr (List.mem_cons_of_mem _ (hrest.mem_of_pending (List.mem_append_right _ hmem)))
    · exact .inr (List.mem_cons_of_mem _ hmem)

end Descent

/-! ### Subtrees -/

namespace Trees

/-! ### Answers from a table -/

/-- Where the log answers the query for the keys under a key, it answers with the keys of those
    rows of the table that are under it. -/
def AnswersChildren (m : Model) (T : TreeTable) (key : Cell) (under : TreeRow → Prop)
    (log : List Event) : Prop :=
  ∀ q rows affected, m.selectChildren m.entry.parentField key = .ok q →
    answered m q.statement rows affected ∈ log →
    ∀ c, (∃ row ∈ rows, row.record.get? m.key = some c) ↔ ∃ r ∈ T, under r ∧ r.key = c

/-- The keys that such an answer adds to a walk are those of rows under the key. -/
theorem AnswersChildren.row_of_new {m : Model} {T : TreeTable} {key : Cell} {under : TreeRow → Prop}
    {log : List Event} (h : AnswersChildren m T key under log) {q : Select} {rows : List SourceRow}
    {affected : Nat} (hq : m.selectChildren m.entry.parentField key = .ok q)
    (hmem : answered m q.statement rows affected ∈ log) {seen : List String} {c : Cell}
    (hc : c ∈ (newKeys m.key seen (rows.map (·.record))).1) : ∃ r ∈ T, under r ∧ r.key = c := by
  obtain ⟨record, hrecord, hget⟩ := exists_of_mem_newKeys m.key seen _ hc
  obtain ⟨row, hrow, rfl⟩ := List.mem_map.1 hrecord
  exact (h q rows affected hq hmem c).1 ⟨row, hrow, hget⟩

/-- One row answers a query when only the row of the table with its key is to be found. -/
theorem one_row_answers {keyField : String} {row : SourceRow} {key : Cell} {T : TreeTable}
    {under : TreeRow → Prop} (hget : row.record.get? keyField = some key)
    (hunder : ∀ r ∈ T, under r ↔ r.key = key) (hkey : ∃ r ∈ T, r.key = key) (c : Cell) :
    (∃ row' ∈ [row], row'.record.get? keyField = some c) ↔ ∃ r ∈ T, under r ∧ r.key = c := by
  constructor
  · rintro ⟨row', hrow', hc⟩
    rw [List.mem_singleton.1 hrow', hget] at hc
    obtain rfl := Option.some.inj hc
    obtain ⟨r, hr, hrkey⟩ := hkey
    exact ⟨r, hr, (hunder r hr).2 hrkey, hrkey⟩
  · rintro ⟨r, hr, hlink, rfl⟩
    exact ⟨row, List.mem_singleton_self row, by rw [hget, (hunder r hr).1 hlink]⟩

/-- The queries of the walk are answered from the table, where links are those of key texts. -/
def AnsweredFrom (m : Model) (T : TreeTable) (log : List Event) : Prop :=
  ∀ key : Cell, key.isNull = false → key.display ∈ T.texts →
    AnswersChildren m T key (·.parent.Names key.display) log

theorem AnsweredFrom.mono {m : Model} {T : TreeTable} {log log' : List Event}
    (h : AnsweredFrom m T log) (hsub : log' ⊆ log) : AnsweredFrom m T log' :=
  fun key hnull hkey q rows affected hq hmem => h key hnull hkey q rows affected hq (hsub hmem)

/-- The query for the keys under a key, answered. -/
inductive Asks (m : Model) (key : Cell) : Event → Prop where
  | intro {q : Select} (hq : m.selectChildren m.entry.parentField key = .ok q)
      (rows : List SourceRow) (affected : Nat) : Asks m key (answered m q.statement rows affected)

theorem Walk.asks {m : Model} {seen : List String} {pending keys : List Cell} {log : List Event}
    (h : Walk m seen pending keys log) : List.Forall₂ (Asks m) keys log := by
  induction h with
  | done seen => exact .nil
  | visit hq hrest ih => exact .cons (.intro hq _ _) ih

/-! ### Deleting a node -/

/-- What a transaction reports whose steps went well. -/
def commitOutcome : Option SourceFault → Except Fault Unit
  | none => .ok ()
  | some cause => .error (.transaction (.notCommitted cause))

/-- What a removal does behind its begin when no statement fails. -/
theorem delete_walks {model key : String} {m : Model} {target : String} {s : Session}
    {before after : List Event} (hm : ((treeModel model).exec s).1 = .ok m)
    (htarget : m.target = .ok target)
    (hlog : ((delete model key).exec s).2.events =
      s.events ++ (before ++ .began (.data m.connection) none :: after))
    (hanswered : ∀ target inTransaction text args cause,
      .executed target inTransaction text args (.failure cause) ∉ after) :
    ∃ keys asked deleted failure,
      after = asked ++ deleted ++ [.committed (.data m.connection) failure] ∧
      Walk m [key] [.text key] keys asked ∧ List.Forall₂ (Deletes m) keys.reverse deleted ∧
      (∀ ev ∈ before, Quiet ev) ∧ ((delete model key).exec s).1 = commitOutcome failure := by
  obtain ⟨log, hevents, hbrackets⟩ := delete_bracketed model key s
  obtain rfl := List.append_cancel_left (hevents.symm.trans hlog)
  obtain ⟨connection, steps, t, inner, last, -, ⟨m', hm', rfl, rfl⟩, hbefore, -, hinner, rfl,
    hbracket⟩ := hbrackets before _ after rfl
  obtain rfl : m' = m := Except.ok.inj (hm'.symm.trans hm)
  obtain ⟨inner', hinner', hwalks⟩ := removal_walks htarget key t
  obtain rfl : inner' = inner := List.append_cancel_left (hinner'.symm.trans hinner)
  -- no statement behind the begin failed, so the body succeeds and is committed
  have hreplied : ∀ target inTransaction text args reply,
      .executed target inTransaction text args reply ∈ inner' →
        (Event.executed target inTransaction text args reply).succeeded = true := by
    intro target inTransaction text args reply hmem
    cases reply with
    | rows rows affected => rfl
    | failure cause => exact absurd (List.mem_append_left _ hmem) (hanswered _ _ _ _ cause)
  have hok : ∀ ev ∈ inner', ev.succeeded = true := by
    intro ev hev
    cases hbracket.inside ev hev with
    | consulted h =>
      cases h with
      | read h => exact hreplied _ _ _ _ _ hev
    | statement => exact hreplied _ _ _ _ _ hev
  obtain ⟨hown, keys, asked, deleted, rfl, hwalk, hdeletes⟩ := hwalks hok
  obtain ⟨failure, rfl⟩ := hbracket.commits.2 ⟨hok, by simp [hown]⟩
  refine ⟨keys, asked, deleted, failure, rfl, hwalk, hdeletes, hbefore, ?_⟩
  cases failure with
  | none => exact (hbracket.of_committed rfl).trans hown
  | some cause => exact hbracket.of_refused cause rfl

/-- A tree without declared fields, so that keys are bound as they are. -/
def departments : Model where
  entry := {
    id := "dept", code := "dept", connection := "main", isTree := true, parentField := "parent_id" }
  tables := [{ id := "t", model := "dept", name := "departments" }]
  fields := []
  dialect := .mysql

def departmentRows : TreeTable := [⟨.int 1, .int 0⟩, ⟨.int 2, .int 1⟩, ⟨.int 3, .null⟩]

def departmentStatement (text : String) (key : Cell) (rows : List SourceRow) : Event :=
  .executed (.data "main") true text [key] (.rows rows 0)

end Trees

end MetaQuery
