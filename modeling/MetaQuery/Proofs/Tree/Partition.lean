/-
  MetaQuery/Proofs/Tree/Partition.lean
  ====================================
  Where each row of a forest stands.

  Nesting takes rows out of a pool, and what a later sibling finds there depends on all that was
  nested before it: the pool less all rows that name a nested row as their parent
  (`left_attach_eq_filter`).  Where keys are distinct, no later row would have got any of these, so
  the rows under each node are those that name it in the whole input, in their order
  (`children_of_attach`).  Whatever the keys are, the rows at the top are those that name the root,
  and each row that is reached is nested once (`forest_partitions`).
-/
import MetaQuery.Proofs.Tree.Whole

open scoped List

namespace MetaQuery

/-! ### Nodes -/

/-- The row of a node. -/
def Node.record : Node → Record
  | .mk record _ => record

/-- The nodes under a node. -/
def Node.children : Node → List Node
  | .mk _ children => children

mutual

/-- A node and all nodes below it. -/
def Node.nodes : Node → List Node
  | .mk record children => .mk record children :: nodesOf children

/-- Some nodes and all nodes below them. -/
def nodesOf : List Node → List Node
  | [] => []
  | n :: r => n.nodes ++ nodesOf r

end

variable {keyField parentField : String} {rows pool : List Record}

mutual

theorem Node.map_record_nodes (n : Node) : n.nodes.map Node.record = n.rows := by
  cases n with
  | mk record children =>
    rw [Node.nodes, Node.rows, List.map_cons, map_record_nodesOf children]
    rfl

/-- The nodes at all depths have the rows that are held. -/
theorem map_record_nodesOf (ns : List Node) : (nodesOf ns).map Node.record = rowsOf ns := by
  cases ns with
  | nil => rfl
  | cons n r =>
    rw [nodesOf, rowsOf, List.map_append, Node.map_record_nodes n, map_record_nodesOf r]

end

theorem record_mem_rowsOf {ns : List Node} {n : Node} (h : n ∈ nodesOf ns) :
    n.record ∈ rowsOf ns := by
  rw [← map_record_nodesOf]
  exact List.mem_map_of_mem h

theorem mem_nodesOf_cons {n : Node} {r : Record} {children nodes : List Node} :
    n ∈ nodesOf (.mk r children :: nodes) ↔
      n = .mk r children ∨ n ∈ nodesOf children ∨ n ∈ nodesOf nodes := by
  rw [nodesOf, Node.nodes, List.cons_append, List.mem_cons, List.mem_append]

/-- Each row gets a node of its own, in order. -/
theorem map_record_attach (keyField parentField : String) (rows pool : List Record) :
    (attach keyField parentField rows pool).1.map Node.record = rows := by
  induction rows, pool using attach_induction keyField parentField with
  | nil pool => rw [nodes_attach_nil, List.map_nil]
  | cons r siblings pool _ ihsiblings =>
    rw [nodes_attach_cons, List.map_cons, ihsiblings, Node.record]

/-! ### The calls of one run -/

/-- Nesting some rows with a pool gives these nodes and leaves this, in so many calls. -/
inductive Nests (keyField parentField : String) :
    List Record → List Record → List Node → List Record → Nat → Prop where
  | none (pool : List Record) : Nests keyField parentField [] pool [] pool 0
  | next {r : Record} {siblings pool rest left : List Record} {children nodes : List Node}
      {below beside : Nat}
      (hchildren : Nests keyField parentField
        (rowsUnder parentField pool (keyText (r.get? keyField)))
        (rowsElsewhere parentField pool (keyText (r.get? keyField))) children rest below)
      (hsiblings : Nests keyField parentField siblings rest nodes left beside) :
      Nests keyField parentField (r :: siblings) pool (.mk r children :: nodes) left
        (below + beside + 1)

/-- Nesting comes to an end, with a call for each row that it nests. -/
theorem attach_nests (keyField parentField : String) (rows pool : List Record) :
    Nests keyField parentField rows pool (attach keyField parentField rows pool).1
      (attach keyField parentField rows pool).2.1
      (rowsOf (attach keyField parentField rows pool).1).length := by
  induction rows, pool using attach_induction keyField parentField with
  | nil pool =>
    rw [nodes_attach_nil, left_attach_nil]
    exact .none pool
  | cons r siblings pool ihchildren ihsiblings =>
    rw [nodes_attach_cons, left_attach_cons, rowsOf, Node.rows, List.cons_append,
      List.length_cons, List.length_append]
    exact .next ihchildren ihsiblings

/-! ### What is left of the pool -/

/-- The keys of some rows. -/
def keysOf (keyField : String) (rows : List Record) : List String :=
  rows.map fun r => keyText (r.get? keyField)

/-- The rows that name none of these keys as their parent. -/
def rowsBeside (parentField : String) (pool : List Record) (keys : List String) : List Record :=
  pool.filter fun x => !keys.contains (parentKey (x.get? parentField))

theorem rowsBeside_nil (parentField : String) (pool : List Record) :
    rowsBeside parentField pool [] = pool :=
  List.filter_eq_self.2 fun _ _ => rfl

theorem rowsBeside_append (parentField : String) (pool : List Record) (keys keys' : List String) :
    rowsBeside parentField pool (keys ++ keys') =
      rowsBeside parentField (rowsBeside parentField pool keys) keys' := by
  simp [rowsBeside, List.filter_filter, Bool.and_comm]

theorem rowsElsewhere_eq_rowsBeside (parentField : String) (pool : List Record) (key : String) :
    rowsElsewhere parentField pool key = rowsBeside parentField pool [key] := by
  simp only [rowsElsewhere, rowsBeside, List.contains_cons, List.contains_nil, Bool.or_false]

/-- The rows under a key are beside all other keys. -/
theorem rowsUnder_rowsBeside {key : String} {keys : List String} (h : key ∉ keys) :
    rowsUnder parentField (rowsBeside parentField pool keys) key =
      rowsUnder parentField pool key := by
  rw [rowsUnder, rowsBeside, List.filter_filter, rowsUnder]
  refine List.filter_congr fun x _ => ?_
  rw [Bool.and_eq_left_iff_imp]
  intro hkey
  rw [beq_iff_eq.1 hkey]
  simpa using h

/-- What is left is the pool without the rows that name a nested row, in its order. -/
theorem left_attach_eq_rowsBeside (keyField parentField : String) (rows pool : List Record) :
    (attach keyField parentField rows pool).2.1 = rowsBeside parentField pool
      (keysOf keyField (rowsOf (attach keyField parentField rows pool).1)) := by
  induction rows, pool using attach_induction keyField parentField with
  | nil pool =>
    rw [nodes_attach_nil, left_attach_nil]
    exact (rowsBeside_nil parentField pool).symm
  | cons r siblings pool ihchildren ihsiblings =>
    rw [nodes_attach_cons, left_attach_cons, ihsiblings]
    generalize (attach keyField parentField siblings _).1 = nodes
    rw [attachUnder]
    dsimp only
    rw [ihchildren, rowsElsewhere_eq_rowsBeside, ← rowsBeside_append, ← rowsBeside_append]
    simp [keysOf, rowsOf, Node.rows]

/-! ### The rows under a node -/

theorem key_mem_keysOf {r : Record} (h : r ∈ rows) :
    keyText (r.get? keyField) ∈ keysOf keyField rows :=
  List.mem_map_of_mem h

theorem keysOf_cons (keyField : String) (r : Record) (rows : List Record) :
    keysOf keyField (r :: rows) = keyText (r.get? keyField) :: keysOf keyField rows :=
  List.map_cons

theorem keysOf_append (keyField : String) (rows rows' : List Record) :
    keysOf keyField (rows ++ rows') = keysOf keyField rows ++ keysOf keyField rows' :=
  List.map_append

theorem keysOf_nodup_of_perm {rows' : List Record} (hperm : rows ~ rows')
    (h : (keysOf keyField rows).Nodup) : (keysOf keyField rows').Nodup :=
  (hperm.map _).nodup_iff.1 h

/-- A nested row is one that was given, or one of the pool. -/
theorem record_mem_of_attach {n : Node}
    (hn : n ∈ nodesOf (attach keyField parentField rows pool).1) : n.record ∈ rows ++ pool :=
  (attach_perm keyField parentField rows pool).subset
    (List.mem_append_left _ (record_mem_rowsOf hn))

theorem under_append_elsewhere_perm (parentField : String) (pool : List Record) (key : String) :
    rowsUnder parentField pool key ++ rowsElsewhere parentField pool key ~ pool :=
  List.filter_append_perm _ _

theorem attachUnder_perm (keyField parentField key : String) (pool : List Record) :
    rowsOf (attachUnder keyField parentField key pool).1 ++
      (attachUnder keyField parentField key pool).2 ~ pool :=
  (attach_perm keyField parentField _ _).trans (under_append_elsewhere_perm parentField pool key)

theorem left_attachUnder_eq_rowsBeside (keyField parentField key : String) (pool : List Record) :
    (attachUnder keyField parentField key pool).2 = rowsBeside parentField pool
      (key :: keysOf keyField (rowsOf (attachUnder keyField parentField key pool).1)) := by
  rw [← List.singleton_append, rowsBeside_append, ← rowsElsewhere_eq_rowsBeside]
  exact left_attach_eq_rowsBeside keyField parentField _ _

/-- Where keys are distinct, the rows under each node are those of the pool that name it. -/
theorem children_of_attach (keyField parentField : String) (rows pool : List Record) :
    (keysOf keyField (rows ++ pool)).Nodup →
      ∀ n ∈ nodesOf (attach keyField parentField rows pool).1, n.children.map Node.record =
        rowsUnder parentField pool (keyText (n.record.get? keyField)) := by
  induction rows, pool using attach_induction keyField parentField with
  | nil pool =>
    intro _ n hn
    rw [nodes_attach_nil] at hn
    cases hn
  | cons r siblings pool ihchildren ihsiblings =>
    intro hkeys n hn
    rw [List.cons_append, keysOf_cons, List.nodup_cons] at hkeys
    obtain ⟨hfresh, hkeys⟩ := hkeys
    rw [nodes_attach_cons] at hn
    rcases mem_nodesOf_cons.1 hn with rfl | hchild | hsibling
    · exact map_record_attach keyField parentField _ _
    · -- a row below has a key of its own, so what names it is not under this row
      have hsplit := under_append_elsewhere_perm parentField pool (keyText (r.get? keyField))
      have hdistinct : (keysOf keyField pool).Nodup := by
        rw [keysOf_append] at hkeys
        exact (List.nodup_append.1 hkeys).2.1
      have hmem : n.record ∈ pool := hsplit.subset (record_mem_of_attach hchild)
      rw [ihchildren (keysOf_nodup_of_perm hsplit.symm hdistinct) n hchild,
        rowsElsewhere_eq_rowsBeside, rowsUnder_rowsBeside]
      intro hkey
      rw [← List.mem_singleton.1 hkey] at hfresh
      exact hfresh (key_mem_keysOf (List.mem_append_right _ hmem))
    · -- a row beside has a key that neither this row nor one below it has
      generalize hbelow : attachUnder keyField parentField (keyText (r.get? keyField)) pool = below
        at hsibling ihsiblings
      have hleft := left_attachUnder_eq_rowsBeside keyField parentField
        (keyText (r.get? keyField)) pool
      have hsplit := attachUnder_perm keyField parentField (keyText (r.get? keyField)) pool
      rw [hbelow] at hleft hsplit
      have hall : siblings ++ pool ~ rowsOf below.1 ++ (siblings ++ below.2) :=
        (hsplit.symm.append_left siblings).trans (List.perm_append_comm_assoc _ _ _)
      have hmem : n.record ∈ siblings ++ below.2 := record_mem_of_attach hsibling
      have hparts := keysOf_nodup_of_perm hall hkeys
      rw [keysOf_append, List.nodup_append] at hparts
      rw [ihsiblings hparts.2.1 n hsibling, hleft, rowsUnder_rowsBeside]
      intro hkey
      rcases List.mem_cons.1 hkey with hkey | hkey
      · rw [← hkey] at hfresh
        exact hfresh (key_mem_keysOf (hall.symm.subset (List.mem_append_right _ hmem)))
      · exact hparts.2.2 _ hkey _ (key_mem_keysOf hmem) rfl

/-! ### The forest -/

theorem rowsUnder_rootKey (parentField : String) (rows : List Record) :
    rowsUnder parentField rows rootKey =
      rows.filter fun r => isRootKey (keyText (r.get? parentField)) := by
  refine List.filter_congr fun r _ => ?_
  rw [parentKey, isRootKey]
  split <;> simp_all

/-- **A forest is a partition of what is reached.**

Nesting ends, with at most a call a row.  The nodes hold the rows whose chain of parents leads to
the root, each as often as it is given.  The top ones are the rows that name the root, in order;
and where keys are distinct and none names the root, the nodes under a node are the rows that name
its key, in order. -/
theorem forest_partitions (keyField parentField : String) (rows : List Record) :
    (∃ left calls, Nests keyField parentField (rowsUnder parentField rows rootKey)
      (rowsElsewhere parentField rows rootKey) (forest keyField parentField rows) left calls ∧
      calls ≤ rows.length) ∧
    rowsOf (forest keyField parentField rows) ~
      rows.filter (fun r => decide (Reached keyField parentField rows r)) ∧
    (forest keyField parentField rows).map Node.record =
      rows.filter (fun r => isRootKey (keyText (r.get? parentField))) ∧
    ((keysOf keyField rows).Nodup →
      (∀ r ∈ rows, isRootKey (keyText (r.get? keyField)) = false) →
      ∀ n ∈ nodesOf (forest keyField parentField rows), n.children.map Node.record =
        rows.filter (fun r => parentKey (r.get? parentField) ==
          keyText (n.record.get? keyField))) := by
  have hperm := rowsOf_forest_perm_filter keyField parentField rows
  have hsplit := under_append_elsewhere_perm parentField rows rootKey
  refine ⟨⟨_, _, attach_nests keyField parentField _ _, ?_⟩, hperm, ?_, ?_⟩
  · exact Nat.le_trans (Nat.le_of_eq hperm.length_eq) (List.length_filter_le _ _)
  · rw [← rowsUnder_rootKey]
    exact map_record_attach keyField parentField _ _
  · intro hkeys hroot n hn
    have hmem : n.record ∈ rows := hsplit.subset (record_mem_of_attach hn)
    -- only the rows under the virtual root have left the pool
    have hkey : keyText (n.record.get? keyField) ∉ [rootKey] := by
      intro hkey
      have := hroot _ hmem
      rw [List.mem_singleton.1 hkey] at this
      cases this
    rw [children_of_attach keyField parentField _ _ (keysOf_nodup_of_perm hsplit.symm hkeys) n hn,
      rowsElsewhere_eq_rowsBeside, rowsUnder_rowsBeside hkey, rowsUnder]

/-- Two tops, one with two rows under it that do not stand together, a cycle and an orphan. -/
def scatteredRows : List Record := [
  ⟨[("id", .int 2), ("parent", .int 1)]⟩,
  ⟨[("id", .int 5), ("parent", .int 6)]⟩,
  ⟨[("id", .int 1), ("parent", .null)]⟩,
  ⟨[("id", .int 6), ("parent", .text "5")]⟩,
  ⟨[("id", .int 4), ("parent", .int 2)]⟩,
  ⟨[("id", .text "x"), ("parent", .text "1")]⟩,
  ⟨[("id", .int 3), ("parent", .text "")]⟩,
  ⟨[("id", .int 7), ("parent", .int 9)]⟩]

theorem scatteredRows_partitioned :
    (keysOf "id" scatteredRows).Nodup ∧
    (∀ r ∈ scatteredRows, isRootKey (keyText (r.get? "id")) = false) ∧
    ∀ n ∈ nodesOf (forest "id" "parent" scatteredRows), n.children.map Node.record =
      scatteredRows.filter (fun r => parentKey (r.get? "parent") ==
        keyText (n.record.get? "id")) := by
  have hkeys : (keysOf "id" scatteredRows).Nodup := by decide
  have hroot : ∀ r ∈ scatteredRows, isRootKey (keyText (r.get? "id")) = false := by decide
  exact ⟨hkeys, hroot, (forest_partitions "id" "parent" scatteredRows).2.2.2 hkeys hroot⟩

example : (nodesOf (forest "id" "parent" scatteredRows)).map
    (fun n => keyText (n.record.get? "id")) = ["1", "2", "4", "x", "3"] := by
  cbv

end MetaQuery
