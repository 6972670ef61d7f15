/-
  MetaQuery/Proofs/Query/JoinOrder.lean
  =====================================
  Joins are written depth first, each one once.

  The walk through the joins keeps a list of what comes next and a pool of what is not yet written.
  Where ids are distinct and none is the id of the main table, a join gets its turn only behind the
  join that it builds on (`Walking`), so when its turn comes nothing that builds on it is written,
  and it finds all of that in the pool (`Walking.joinsUnder_unwritten`).  So the order is the depth
  first order over all joins (`walkJoins_depthFirst`), with every join whose chain of parents
  reaches the main table and no other.
-/
import Mathlib.Data.List.Nodup
import MetaQuery.Proofs.Service.Sending

namespace MetaQuery

/-! ### Depth first order -/

/-- The join builds on the main table. -/
def JoinEntry.isTop (j : JoinEntry) : Bool := j.parent == "" || j.parent == "0"

/-- The chain of parents of a join reaches the main table. -/
inductive Connected (joins : List JoinEntry) : JoinEntry → Prop where
  | top {j : JoinEntry} (hj : j ∈ joins) (htop : j.isTop = true) : Connected joins j
  | under {p j : JoinEntry} (hp : Connected joins p) (hj : j ∈ joins) (hparent : j.parent = p.id) :
      Connected joins j

/-- Some joins depth first: behind each one all that builds on it, in the order of `joins`, and
    then the next one. -/
inductive DepthFirst (joins : List JoinEntry) : List JoinEntry → List JoinEntry → Prop where
  | none : DepthFirst joins [] []
  | next {j : JoinEntry} {siblings below beside : List JoinEntry}
      (hbelow : DepthFirst joins (joins.filter (·.parent == j.id)) below)
      (hbeside : DepthFirst joins siblings beside) :
      DepthFirst joins (j :: siblings) (j :: (below ++ beside))

variable {joins pending order : List JoinEntry}

namespace DepthFirst

/-- Depth first through two lists is depth first through one and then through the other. -/
theorem split {first second : List JoinEntry} (h : DepthFirst joins (first ++ second) order) :
    ∃ before behind, order = before ++ behind ∧ DepthFirst joins first before ∧
      DepthFirst joins second behind := by
  induction first generalizing order with
  | nil => exact ⟨[], order, rfl, .none, h⟩
  | cons j siblings ih =>
    cases h with
    | next hbelow hbeside =>
      obtain ⟨before, behind, rfl, hfirst, hsecond⟩ := ih hbeside
      exact ⟨_, behind, by simp, .next hbelow hfirst, hsecond⟩

theorem subset (h : DepthFirst joins pending order) : pending ⊆ order := by
  induction h with
  | none => exact List.Subset.refl _
  | next _ _ _ ihbeside =>
    exact List.cons_subset_cons _ (List.Subset.trans ihbeside (List.subset_append_right _ _))

/-- What builds on a join of the order is in the order. -/
theorem closed (h : DepthFirst joins pending order) {p j : JoinEntry} (hp : p ∈ order)
    (hj : j ∈ joins) (hparent : j.parent = p.id) : j ∈ order := by
  induction h with
  | none => cases hp
  | next hbelow _ ihbelow ihbeside =>
    refine List.mem_cons_of_mem _ (List.mem_append.2 ?_)
    rcases List.mem_cons.1 hp with rfl | hp
    · exact .inl (hbelow.subset (List.mem_filter.2 ⟨hj, by simpa using hparent⟩))
    · exact (List.mem_append.1 hp).imp ihbelow ihbeside

theorem connected (h : DepthFirst joins pending order) (hpending : ∀ j ∈ pending, Connected joins j)
    {j : JoinEntry} (hj : j ∈ order) : Connected joins j := by
  induction h with
  | none => cases hj
  | @next k _ _ _ _ _ ihbelow ihbeside =>
    have hk : Connected joins k := hpending k List.mem_cons_self
    rcases List.mem_cons.1 hj with rfl | hj
    · exact hk
    · rcases List.mem_append.1 hj with hj | hj
      · refine ihbelow (fun c hc => ?_) hj
        obtain ⟨hc, hparent⟩ := List.mem_filter.1 hc
        exact .under hk hc (by simpa using hparent)
      · exact ihbeside (fun c hc => hpending c (List.mem_cons_of_mem _ hc)) hj

/-- A join of the order is one to start with, or stands behind the one that it builds on. -/
theorem parent_before (h : DepthFirst joins pending order) {j : JoinEntry} (hj : j ∈ order) :
    j ∈ pending ∨ ∃ p, j.parent = p.id ∧ [p, j].Sublist order := by
  -- below a join stand its children, beside it the joins that were pending with it
  induction h with
  | none => cases hj
  | @next k siblings below beside _ _ ihbelow ihbeside =>
    rcases List.mem_cons.1 hj with rfl | hj
    · exact .inl List.mem_cons_self
    · rcases List.mem_append.1 hj with hbelow | hbeside
      · rcases ihbelow hbelow with hchild | ⟨p, hparent, hsub⟩
        · refine .inr ⟨k, by simpa using (List.mem_filter.1 hchild).2, ?_⟩
          exact (List.singleton_sublist.2 hj).cons_cons k
        · exact .inr ⟨p, hparent, (hsub.trans (List.sublist_append_left _ _)).cons k⟩
      · rcases ihbeside hbeside with hsibling | ⟨p, hparent, hsub⟩
        · exact .inl (List.mem_cons_of_mem _ hsibling)
        · exact .inr ⟨p, hparent, (hsub.trans (List.sublist_append_right _ _)).cons k⟩

end DepthFirst

/-! ### The walk -/

theorem joinsUnder_zero (joins : List JoinEntry) :
    joinsUnder joins "0" = joins.filter (·.isTop) := by
  refine List.filter_congr fun j _ => ?_
  by_cases hparent : j.parent = "" <;> simp [JoinEntry.parentId, JoinEntry.isTop, hparent]

theorem joinsUnder_id {id : String} (hid : id ≠ "" ∧ id ≠ "0") (joins : List JoinEntry) :
    joinsUnder joins id = joins.filter (·.parent == id) := by
  refine List.filter_congr fun j _ => ?_
  by_cases hparent : j.parent = "" <;>
    simp [JoinEntry.parentId, hparent, Ne.symm hid.1, Ne.symm hid.2]

/-- The joins whose ids are not written. -/
def unwritten (joins : List JoinEntry) (written : List String) : List JoinEntry :=
  joins.filter fun j => !written.contains j.id

theorem joinsWithout_unwritten (joins : List JoinEntry) (written : List String) (id : String) :
    joinsWithout (unwritten joins written) id = unwritten joins (id :: written) := by
  rw [joinsWithout, unwritten, List.filter_filter, unwritten]
  refine List.filter_congr fun j _ => ?_
  simp [bne, beq_eq_decide]

/-- Between two steps of the walk: `written` are the ids written so far and `pending` what comes
    next.  What a join builds on is written before its turn comes. -/
structure Walking (joins : List JoinEntry) (written : List String) (pending : List JoinEntry) :
    Prop where
  /-- The main table has no join of its own. -/
  main : "0" ∉ written
  behind : ∀ j ∈ joins, j.id ∈ written → j.parentId = "0" ∨ j.parentId ∈ written
  mem : ∀ j ∈ pending, j ∈ joins
  fresh : ∀ j ∈ pending, j.id ∉ written
  ready : ∀ j ∈ pending, j.parentId = "0" ∨ j.parentId ∈ written
  nodup : pending.Nodup

namespace Walking

variable {written : List String} {j : JoinEntry}

theorem start (hdistinct : (joins.map (·.id)).Nodup) : Walking joins [] (joinsUnder joins "0") where
  main := List.not_mem_nil
  behind := by simp
  mem := fun j hj => (List.mem_filter.1 hj).1
  fresh := by simp
  ready := fun j hj => .inl (by simpa using (List.mem_filter.1 hj).2)
  nodup := (List.Nodup.of_map _ hdistinct).filter _

/-- Nothing that builds on the next join is written, and it is not that join itself. -/
theorem notMem_of_under (h : Walking joins written (j :: pending))
    (hdistinct : (joins.map (·.id)).Nodup) (hid : j.id ≠ "0") {c : JoinEntry} (hc : c ∈ joins)
    (hparent : c.parentId = j.id) : c.id ∉ j.id :: written := by
  have hfresh : j.id ∉ written := h.fresh j List.mem_cons_self
  have hbehind : ¬ (c.parentId = "0" ∨ c.parentId ∈ written) := by
    rw [hparent]
    exact not_or.2 ⟨hid, hfresh⟩
  intro hmem
  rcases List.mem_cons.1 hmem with hsame | hwritten
  · obtain rfl : c = j :=
      List.inj_on_of_nodup_map hdistinct hc (h.mem j List.mem_cons_self) hsame
    exact hbehind (h.ready c List.mem_cons_self)
  · exact hbehind (h.behind c hc hwritten)

theorem joinsUnder_unwritten (h : Walking joins written (j :: pending))
    (hdistinct : (joins.map (·.id)).Nodup) (hid : j.id ≠ "0") :
    joinsUnder (unwritten joins (j.id :: written)) j.id = joinsUnder joins j.id := by
  rw [joinsUnder, unwritten, List.filter_filter, joinsUnder]
  refine List.filter_congr fun c hc => ?_
  rw [Bool.and_eq_left_iff_imp]
  intro hparent
  simpa using h.notMem_of_under hdistinct hid hc (by simpa using hparent)

theorem next (h : Walking joins written (j :: pending)) (hdistinct : (joins.map (·.id)).Nodup)
    (hid : j.id ≠ "0") : Walking joins (j.id :: written) (joinsUnder joins j.id ++ pending) := by
  have hfresh : j.id ∉ written := h.fresh j List.mem_cons_self
  have hnodup := List.nodup_cons.1 h.nodup
  have hunder : ∀ c ∈ joinsUnder joins j.id, c ∈ joins ∧ c.parentId = j.id :=
    fun c hc => ⟨(List.mem_filter.1 hc).1, by simpa using (List.mem_filter.1 hc).2⟩
  have hmem : ∀ c ∈ pending, c ∈ joins := fun c hc => h.mem c (List.mem_cons_of_mem _ hc)
  have hready : ∀ c ∈ pending, c.parentId = "0" ∨ c.parentId ∈ written :=
    fun c hc => h.ready c (List.mem_cons_of_mem _ hc)
  constructor
  case main => exact List.not_mem_cons_of_ne_of_not_mem (Ne.symm hid) h.main
  case behind =>
    intro c hc hwritten
    refine Or.imp_right (List.mem_cons_of_mem _) ?_
    rcases List.mem_cons.1 hwritten with hsame | hwritten
    · obtain rfl : c = j :=
        List.inj_on_of_nodup_map hdistinct hc (h.mem j List.mem_cons_self) hsame
      exact h.ready c List.mem_cons_self
    · exact h.behind c hc hwritten
  case mem =>
    intro c hc
    exact (List.mem_append.1 hc).elim (fun hc => (hunder c hc).1) (hmem c)
  case fresh =>
    intro c hc
    rcases List.mem_append.1 hc with hc | hc
    · exact h.notMem_of_under hdistinct hid (hunder c hc).1 (hunder c hc).2
    · refine List.not_mem_cons_of_ne_of_not_mem (fun hsame => ?_)
        (h.fresh c (List.mem_cons_of_mem _ hc))
      exact hnodup.1 (List.inj_on_of_nodup_map hdistinct (hmem c hc) (h.mem j List.mem_cons_self)
        hsame ▸ hc)
  case ready =>
    intro c hc
    rcases List.mem_append.1 hc with hc | hc
    · exact .inr ((hunder c hc).2 ▸ List.mem_cons_self)
    · exact (hready c hc).imp_right (List.mem_cons_of_mem _)
  case nodup =>
    refine List.nodup_append.2 ⟨(List.Nodup.of_map _ hdistinct).filter _, hnodup.2, ?_⟩
    -- what comes next builds on something else than on the join whose turn it is
    rintro c hchild _ hpending rfl
    rcases (hunder c hchild).2 ▸ hready c hpending with hmain | hwritten
    · exact hid hmain
    · exact hfresh hwritten

end Walking

/-- **The walk is depth first** from any state between two steps. -/
theorem walkJoins_depthFirst (hdistinct : (joins.map (·.id)).Nodup)
    (hids : ∀ j ∈ joins, j.id ≠ "" ∧ j.id ≠ "0") {written : List String}
    (h : Walking joins written pending) :
    DepthFirst joins pending (walkJoins (unwritten joins written) pending) := by
  generalize hpool : unwritten joins written = pool
  fun_induction walkJoins pool pending generalizing written with
  | case1 => exact .none
  | case2 pool j pending hj ih =>
    subst hpool
    have hid := hids j (h.mem j List.mem_cons_self)
    rw [joinsWithout_unwritten, h.joinsUnder_unwritten hdistinct hid.2] at ih ⊢
    obtain ⟨below, beside, horder, hbelow, hbeside⟩ := (ih (h.next hdistinct hid.2) rfl).split
    rw [horder]
    exact .next (joinsUnder_id hid joins ▸ hbelow) hbeside
  | case3 pool j pending hj ih =>
    subst hpool
    -- the next join is not written, so the pool has it
    have hpool : j ∈ unwritten joins written :=
      List.mem_filter.2 ⟨h.mem j List.mem_cons_self, by simpa using h.fresh j List.mem_cons_self⟩
    exact absurd (List.any_eq_true.2 ⟨j, hpool, beq_self_eq_true j.id⟩) hj

theorem mem_ids_joinsWithout {pool : List JoinEntry} {id x : String} :
    x ∈ (joinsWithout pool id).map (·.id) ↔ x ∈ pool.map (·.id) ∧ x ≠ id := by
  simp only [joinsWithout, List.mem_map, List.mem_filter, bne_iff_ne]
  constructor
  · rintro ⟨j, ⟨hj, hne⟩, rfl⟩
    exact ⟨⟨j, hj, rfl⟩, hne⟩
  · rintro ⟨⟨j, hj, rfl⟩, hne⟩
    exact ⟨j, ⟨hj, hne⟩, rfl⟩

/-- The walk writes ids of its pool. -/
theorem ids_walkJoins_subset (pool pending : List JoinEntry) :
    (walkJoins pool pending).map (·.id) ⊆ pool.map (·.id) := by
  fun_induction walkJoins pool pending with
  | case1 => exact List.nil_subset _
  | case2 pool j pending hj ih =>
    obtain ⟨k, hk, hsame⟩ := List.any_eq_true.1 hj
    have hid : j.id ∈ pool.map (·.id) := List.mem_map.2 ⟨k, hk, by simpa using hsame⟩
    exact List.cons_subset.2 ⟨hid, fun x hx => (mem_ids_joinsWithout.1 (ih hx)).1⟩
  | case3 pool j pending hj ih => exact ih

/-- No id is written twice, whatever the ids and the parents are. -/
theorem ids_walkJoins_nodup (pool pending : List JoinEntry) :
    ((walkJoins pool pending).map (·.id)).Nodup := by
  fun_induction walkJoins pool pending with
  | case1 => exact List.nodup_nil
  | case2 pool j pending hj ih =>
    refine List.nodup_cons.2 ⟨fun hmem => ?_, ih⟩
    exact (mem_ids_joinsWithout.1 (ids_walkJoins_subset _ _ hmem)).2 rfl
  | case3 pool j pending hj ih => exact ih

/-! ### The order of the joins -/

/-- **Joins are written once, parents first**, in a query compiled from any list of joins with
    distinct ids, none of them that of the main table.

The order is depth first from the joins that build on the main table.  It has the joins whose chain
of parents reaches the main table, and no others: a join whose parent is missing, or that is part
of a cycle, is left out with all that builds on it.  Each join but the top ones stands behind the
one that it builds on. -/
theorem joins_depth_first (hdistinct : (joins.map (·.id)).Nodup)
    (hids : ∀ j ∈ joins, j.id ≠ "" ∧ j.id ≠ "0") :
    DepthFirst joins (joins.filter (·.isTop)) (orderedJoins joins) ∧
    ((orderedJoins joins).map (·.id)).Nodup ∧
    (∀ j, j ∈ orderedJoins joins ↔ Connected joins j) ∧
    (∀ j ∈ orderedJoins joins,
      j.isTop = true ∨ ∃ p, j.parent = p.id ∧ [p, j].Sublist (orderedJoins joins)) ∧
    ∀ (m : Model) (params : Params) (q : Select), m.joins = joins → m.isRaw = false →
      m.compile params = .ok q → q.joins = (orderedJoins joins).map (·.render m.dialect) := by
  have horder : DepthFirst joins (joins.filter (·.isTop)) (orderedJoins joins) := by
    -- nothing is written yet, so the walk has every join before it
    have hall : unwritten joins [] = joins := List.filter_eq_self.2 fun _ _ => rfl
    have hwalk := walkJoins_depthFirst hdistinct hids (Walking.start hdistinct)
    rw [hall] at hwalk
    exact joinsUnder_zero joins ▸ hwalk
  have htop : ∀ j ∈ joins.filter (·.isTop), j ∈ joins ∧ j.isTop = true :=
    fun j hj => List.mem_filter.1 hj
  refine ⟨horder, ids_walkJoins_nodup _ _, fun j => ⟨?_, fun hj => ?_⟩, fun j hj => ?_, ?_⟩
  · exact horder.connected fun j hj => .top (htop j hj).1 (htop j hj).2
  · induction hj with
    | top hj htop => exact horder.subset (List.mem_filter.2 ⟨hj, htop⟩)
    | under _ hj hparent ih => exact horder.closed ih hj hparent
  · exact (horder.parent_before hj).imp_left fun hj => (htop j hj).2
  · rintro m params q rfl hraw hq
    obtain ⟨source, window, -, -, rfl⟩ := Model.eq_of_compile_entries hraw hq
    rfl

/-- Joins in any order: two top ones, of which the first has two with one more below; an orphan;
    and a cycle with one join below it. -/
def scatteredJoins : List JoinEntry := [
  { id := "seat", model := "trip", parent := "leg", joinedTable := "seats" },
  { id := "lost", model := "trip", parent := "gone", joinedTable := "losses" },
  { id := "booking", model := "trip", parent := "0", joinedTable := "bookings" },
  { id := "leg", model := "trip", parent := "booking", joinedTable := "legs" },
  { id := "egg", model := "trip", parent := "hen", joinedTable := "eggs" },
  { id := "hen", model := "trip", parent := "egg", joinedTable := "hens" },
  { id := "chick", model := "trip", parent := "egg", joinedTable := "chicks" },
  { id := "guest", model := "trip", joinedTable := "guests" },
  { id := "bill", model := "trip", parent := "booking", joinedTable := "bills" }]

theorem scatteredJoins_ordered :
    (scatteredJoins.map (·.id)).Nodup ∧
    (∀ j ∈ scatteredJoins, j.id ≠ "" ∧ j.id ≠ "0") ∧
    DepthFirst scatteredJoins (scatteredJoins.filter (·.isTop)) (orderedJoins scatteredJoins) ∧
    ∀ j, j ∈ orderedJoins scatteredJoins ↔ Connected scatteredJoins j := by
  have hdistinct : (scatteredJoins.map (·.id)).Nodup := by decide
  have hids : ∀ j ∈ scatteredJoins, j.id ≠ "" ∧ j.id ≠ "0" := by decide
  obtain ⟨horder, -, hconnected, -⟩ := joins_depth_first hdistinct hids
  exact ⟨hdistinct, hids, horder, hconnected⟩

example : (orderedJoins scatteredJoins).map (·.id) =
    ["booking", "leg", "seat", "bill", "guest"] := by
  cbv

end MetaQuery
