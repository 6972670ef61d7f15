/-
  MetaQuery/Proofs/Tree/Whole.lean
  ================================
  The forest of rows that are all reached.

  Nesting neither loses nor repeats a row: what is nested and what is left are the rows that were
  given (`attach_perm`).  What is left is not reached, so the forest holds each row that is reached
  as often as it is given (`rowsOf_forest_perm_filter`), and all rows once where all are reached
  (`rowsOf_forest_perm`).  Each stands under a row whose key it names as its parent
  (`forest_nested`).  The cells in two columns decide where a row stands, so rows that are shown
  with the same cells there make a forest of the same shape (`forest_alike`).
-/
import Mathlib.Data.List.Forall2
import Mathlib.Data.List.Perm.Basic
import MetaQuery.Proofs.Tree.Nesting

open scoped List

namespace MetaQuery

variable {keyField parentField : String} {rows rows' : List Record}

/-! ### Nesting, row by row -/

/-- The nodes of the rows under a key, and the rest of the pool. -/
def attachUnder (keyField parentField key : String) (pool : List Record) :
    List Node × List Record :=
  let below := attach keyField parentField (rowsUnder parentField pool key)
    (rowsElsewhere parentField pool key)
  (below.1, below.2.1)

theorem nodes_attach_nil (keyField parentField : String) (pool : List Record) :
    (attach keyField parentField [] pool).1 = [] := by
  rw [attach]

theorem left_attach_nil (keyField parentField : String) (pool : List Record) :
    (attach keyField parentField [] pool).2.1 = pool := by
  rw [attach]

theorem nodes_attach_cons (keyField parentField : String) (r : Record)
    (siblings pool : List Record) :
    (attach keyField parentField (r :: siblings) pool).1 =
      .mk r (attachUnder keyField parentField (keyText (r.get? keyField)) pool).1 ::
        (attach keyField parentField siblings
          (attachUnder keyField parentField (keyText (r.get? keyField)) pool).2).1 := by
  rw [attach]
  rfl

theorem left_attach_cons (keyField parentField : String) (r : Record)
    (siblings pool : List Record) :
    (attach keyField parentField (r :: siblings) pool).2.1 =
      (attach keyField parentField siblings
        (attachUnder keyField parentField (keyText (r.get? keyField)) pool).2).2.1 := by
  rw [attach]
  rfl

/-- Nesting goes on below a row, and then beside it with what is left. -/
theorem attach_induction (keyField parentField : String)
    {motive : List Record → List Record → Prop} (nil : ∀ pool, motive [] pool)
    (cons : ∀ r siblings pool, motive (rowsUnder parentField pool (keyText (r.get? keyField)))
        (rowsElsewhere parentField pool (keyText (r.get? keyField))) →
      motive siblings (attachUnder keyField parentField (keyText (r.get? keyField)) pool).2 →
      motive (r :: siblings) pool)
    (rows pool : List Record) : motive rows pool := by
  induction rows, pool using attach.induct keyField parentField with
  | case1 pool => exact nil pool
  | case2 pool r siblings hsplit children rest hrest hchildren nodes left hleft hnodes ihchildren
      ihnodes =>
    refine cons r siblings pool ihchildren ?_
    rw [attachUnder, hchildren]
    exact ihnodes

/-! ### Each row once -/

/-- What is nested and what is left are the rows and the pool. -/
theorem attach_perm (keyField parentField : String) (rows pool : List Record) :
    rowsOf (attach keyField parentField rows pool).1 ++
      (attach keyField parentField rows pool).2.1 ~ rows ++ pool := by
  induction rows, pool using attach_induction keyField parentField with
  | nil pool => rw [nodes_attach_nil, left_attach_nil, rowsOf]
  | cons r siblings pool ihchildren ihsiblings =>
    rw [nodes_attach_cons, left_attach_cons, rowsOf, Node.rows, List.append_assoc]
    generalize hbelow : attachUnder keyField parentField (keyText (r.get? keyField)) pool = below
      at ihsiblings ⊢
    have hpool : rowsOf below.1 ++ below.2 ~ pool := by
      rw [← hbelow]
      exact ihchildren.trans (List.filter_append_perm _ _)
    -- below the row stands what its children took, beside it what they left
    refine List.Perm.cons r ?_
    calc rowsOf below.1 ++ (rowsOf (attach keyField parentField siblings below.2).1 ++
          (attach keyField parentField siblings below.2).2.1)
      _ ~ rowsOf below.1 ++ (siblings ++ below.2) := ihsiblings.append_left _
      _ ~ siblings ++ (rowsOf below.1 ++ below.2) := List.perm_append_comm_assoc _ _ _
      _ ~ siblings ++ pool := hpool.append_left _

/-- What is left of the rows names neither the root nor a row that is nested. -/
theorem not_reached_of_left {r : Record}
    (hleft : r ∈ (attach keyField parentField (rowsUnder parentField rows rootKey)
      (rowsElsewhere parentField rows rootKey)).2.1) : ¬ Reached keyField parentField rows r := by
  have hattached := attach_attached keyField parentField (rowsUnder parentField rows rootKey)
    (rowsElsewhere parentField rows rootKey)
  obtain ⟨-, helsewhere⟩ := mem_rowsElsewhere.1 (hattached.left hleft)
  intro hr
  cases hr with
  | top _ hroot => exact helsewhere hroot
  | under hp _ hparent => exact hattached.closed _ (mem_rowsOf_forest.2 hp) r hleft hparent

instance (r : Record) : Decidable (Reached keyField parentField rows r) :=
  decidable_of_iff (r ∈ rowsOf (forest keyField parentField rows)) mem_rowsOf_forest

/-- **A forest holds each row that is reached as often as it is given.** -/
theorem rowsOf_forest_perm_filter (keyField parentField : String) (rows : List Record) :
    rowsOf (forest keyField parentField rows) ~
      rows.filter (fun r => decide (Reached keyField parentField rows r)) := by
  have hperm := (attach_perm keyField parentField (rowsUnder parentField rows rootKey)
    (rowsElsewhere parentField rows rootKey)).trans (List.filter_append_perm _ _)
  have hfilter := hperm.filter fun r => decide (Reached keyField parentField rows r)
  rw [List.filter_append, List.filter_eq_self.2, List.filter_eq_nil_iff.2,
    List.append_nil] at hfilter
  · exact hfilter
  · intro r hleft
    simpa using not_reached_of_left hleft
  · intro r hr
    simpa using mem_rowsOf_forest.1 hr

/-- A forest of rows that are all reached holds each of them once. -/
theorem rowsOf_forest_perm (h : ∀ r ∈ rows, Reached keyField parentField rows r) :
    rowsOf (forest keyField parentField rows) ~ rows := by
  have hperm := rowsOf_forest_perm_filter keyField parentField rows
  rwa [List.filter_eq_self.2 fun r hr => decide_eq_true (h r hr)] at hperm

theorem Reached.mono (hsub : rows ⊆ rows') {r : Record}
    (h : Reached keyField parentField rows r) : Reached keyField parentField rows' r := by
  induction h with
  | top hr hroot => exact .top (hsub hr) hroot
  | under _ hr hparent ih => exact .under ih (hsub hr) hparent

/-! ### Each row under its parent -/

mutual

/-- The row names a key as its parent, and the rows under it name its own. -/
def Node.Nested (keyField parentField key : String) : Node → Prop
  | .mk record children => parentKey (record.get? parentField) = key ∧
      AllNested keyField parentField (keyText (record.get? keyField)) children

/-- All nodes name a key as their parent, and so on below. -/
def AllNested (keyField parentField key : String) : List Node → Prop
  | [] => True
  | n :: r => n.Nested keyField parentField key ∧ AllNested keyField parentField key r

end

theorem attach_nested (keyField parentField : String) (rows pool : List Record) :
    ∀ {key : String}, (∀ r ∈ rows, parentKey (r.get? parentField) = key) →
      AllNested keyField parentField key (attach keyField parentField rows pool).1 := by
  induction rows, pool using attach_induction keyField parentField with
  | nil pool =>
    intro key _
    rw [nodes_attach_nil]
    trivial
  | cons r siblings pool ihchildren ihsiblings =>
    intro key h
    rw [nodes_attach_cons]
    have hbelow : AllNested keyField parentField (keyText (r.get? keyField))
        (attachUnder keyField parentField (keyText (r.get? keyField)) pool).1 :=
      ihchildren fun x hx => (mem_rowsUnder.1 hx).2
    exact ⟨⟨h r List.mem_cons_self, hbelow⟩,
      ihsiblings fun x hx => h x (List.mem_cons_of_mem _ hx)⟩

/-- **A forest holds each row under its parent.** -/
theorem forest_nested (keyField parentField : String) (rows : List Record) :
    AllNested keyField parentField rootKey (forest keyField parentField rows) :=
  attach_nested keyField parentField _ _ fun _ hx => (mem_rowsUnder.1 hx).2

/-! ### Rows as they are shown -/

mutual

/-- Nodes of one shape whose rows are related. -/
def Node.Alike (R : Record → Record → Prop) : Node → Node → Prop
  | .mk record children, .mk record' children' => R record record' ∧ AllAlike R children children'

/-- Forests of one shape whose rows are related. -/
def AllAlike (R : Record → Record → Prop) : List Node → List Node → Prop
  | [], [] => True
  | n :: r, n' :: r' => n.Alike R n' ∧ AllAlike R r r'
  | [], _ :: _ => False
  | _ :: _, [] => False

end

section Alike

variable {R : Record → Record → Prop}

/-- The row is shown with its key and its parent. -/
def KeepsLink (keyField parentField : String) (row shown : Record) : Prop :=
  shown.get? keyField = row.get? keyField ∧ shown.get? parentField = row.get? parentField

theorem forall₂_rowsUnder (hR : ∀ r r', R r r' → KeepsLink keyField parentField r r')
    {pool pool' : List Record} (h : List.Forall₂ R pool pool') (key : String) :
    List.Forall₂ R (rowsUnder parentField pool key) (rowsUnder parentField pool' key) :=
  List.rel_filter (fun r r' hr => by simp [(hR r r' hr).2]) h

theorem forall₂_rowsElsewhere (hR : ∀ r r', R r r' → KeepsLink keyField parentField r r')
    {pool pool' : List Record} (h : List.Forall₂ R pool pool') (key : String) :
    List.Forall₂ R (rowsElsewhere parentField pool key) (rowsElsewhere parentField pool' key) :=
  List.rel_filter (fun r r' hr => by simp [(hR r r' hr).2]) h

theorem attach_alike (hR : ∀ r r', R r r' → KeepsLink keyField parentField r r')
    (rows pool : List Record) : ∀ {rows' pool' : List Record}, List.Forall₂ R rows rows' →
      List.Forall₂ R pool pool' →
      AllAlike R (attach keyField parentField rows pool).1
        (attach keyField parentField rows' pool').1 ∧
      List.Forall₂ R (attach keyField parentField rows pool).2.1
        (attach keyField parentField rows' pool').2.1 := by
  induction rows, pool using attach_induction keyField parentField with
  | nil pool =>
    rintro rows' pool' ⟨⟩ hpool
    rw [nodes_attach_nil, nodes_attach_nil, left_attach_nil, left_attach_nil]
    exact ⟨trivial, hpool⟩
  | cons r siblings pool ihchildren ihsiblings =>
    intro rows' pool' hrows hpool
    cases hrows with
    | @cons _ r' _ siblings' hr hsiblings =>
      -- the row that is shown takes the same rows out of the pool
      obtain ⟨hbelow, hrest⟩ := ihchildren (forall₂_rowsUnder hR hpool _)
        (forall₂_rowsElsewhere hR hpool _)
      rw [nodes_attach_cons, nodes_attach_cons, left_attach_cons, left_attach_cons,
        (hR r r' hr).1]
      obtain ⟨hbeside, hleft⟩ := ihsiblings hsiblings hrest
      exact ⟨⟨⟨hr, hbelow⟩, hbeside⟩, hleft⟩

/-- **Rows that are shown with their keys and parents make a forest of the same shape.** -/
theorem forest_alike (hR : ∀ r r', R r r' → KeepsLink keyField parentField r r')
    (h : List.Forall₂ R rows rows') :
    AllAlike R (forest keyField parentField rows) (forest keyField parentField rows') :=
  (attach_alike hR _ _ (forall₂_rowsUnder hR h rootKey)
    (forall₂_rowsElsewhere hR h rootKey)).1

end Alike

/-! ### Rows that all name the root -/

theorem attach_empty_pool (keyField parentField : String) (rows : List Record) :
    (attach keyField parentField rows []).1 = rows.map (.mk · []) := by
  induction rows with
  | nil => rw [nodes_attach_nil, List.map_nil]
  | cons r siblings ih =>
    have hnone : attachUnder keyField parentField (keyText (r.get? keyField)) [] = ([], []) := by
      rw [attachUnder, rowsUnder, rowsElsewhere, List.filter_nil, List.filter_nil,
        nodes_attach_nil, left_attach_nil]
    rw [nodes_attach_cons, hnone, ih, List.map_cons]

/-- Rows that all name the root are not nested. -/
theorem forest_of_roots (h : ∀ r ∈ rows, parentKey (r.get? parentField) = rootKey) :
    forest keyField parentField rows = rows.map (.mk · []) := by
  have hunder : rowsUnder parentField rows rootKey = rows :=
    List.filter_eq_self.2 fun r hr => by simp [h r hr]
  have helsewhere : rowsElsewhere parentField rows rootKey = [] :=
    List.filter_eq_nil_iff.2 fun r hr => by simp [h r hr]
  rw [forest, hunder, helsewhere, attach_empty_pool]

/-- Where no row is nested, all rows name one parent. -/
theorem parentKey_of_leaves {R : Record → Record → Prop} {key : String} {shown : List Record}
    {trees : List Node} (halike : AllAlike R trees (shown.map (.mk · [])))
    (hnested : AllNested keyField parentField key trees) :
    ∀ r ∈ rowsOf trees, parentKey (r.get? parentField) = key := by
  induction shown generalizing trees with
  | nil =>
    cases trees with
    | nil => simp [rowsOf]
    | cons n trees => cases halike
  | cons x shown ih =>
    cases trees with
    | nil => cases halike
    | cons n trees =>
      obtain ⟨record, children⟩ := n
      obtain ⟨⟨-, hleaf⟩, hrest⟩ := halike
      -- the nodes shown are leaves, so every row is a top one
      cases children with
      | nil =>
        intro r hr
        rcases List.mem_cons.1 hr with rfl | hr
        · exact hnested.1.1
        · exact ih hrest hnested.2 r hr
      | cons child children => cases hleaf

end MetaQuery
