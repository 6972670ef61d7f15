/-
  MetaQuery/Proofs/Service/Atomicity.lean
  =======================================
  Operations that write rows do so wholly or not at all.

  Each of them reads and checks first, which is quiet, and then sends one statement by itself or
  runs one transaction.  So the proofs follow the operations step by step, and both ends are those
  of `Connection.run_atomic` and `Connection.transaction_atomic`.
-/
import MetaQuery.Proofs.Service.Transactions
import MetaQuery.Proofs.Session.Effect

namespace MetaQuery

open MetaQuery.Action

/-! ### Rows -/

namespace Rows

theorem get?_quiet (model : String) (key : Cell) : (get? model key).Emits Quiet := by
  refine (Metadata.model_quiet model).bind fun m => ?_
  refine (emits_ofExcept _).bind fun q => ?_
  exact (Connection.run_quiet m.connection q).bind fun rows => emits_pure _

theorem create_atomic (model : String) (row : Record) : (create model row).Atomic := by
  refine (Metadata.model_quiet model).bind_atomic fun m => ?_
  refine (emits_ofRules _).bind_atomic fun st => ?_
  exact (Connection.run_atomic m.connection st).then_pure fun _ => row

theorem createAll_atomic (model : String) (rows : List Record) :
    (createAll model rows).Atomic := by
  unfold createAll
  split
  · exact (emits_pure _).atomic
  · refine (Metadata.model_quiet model).bind_atomic fun m => ?_
    refine (emits_ofRules _).bind_atomic fun st => ?_
    exact (Connection.run_atomic m.connection st).then_pure fun _ => rows

theorem write_atomic (m : Model) (key : Cell) (row : Record) : (write m key row).Atomic := by
  refine (emits_ofExcept _).bind_atomic fun st? => ?_
  cases st? with
  | none => exact (emits_pure _).atomic
  | some st => exact (Connection.run_atomic m.connection st).then_pure fun _ => ()

theorem update_atomic (model : String) (key : Cell) (row : Record) :
    (update model key row).Atomic := by
  refine (Metadata.model_quiet model).bind_atomic fun m => ?_
  refine (emits_ofRules _).bind_atomic fun _ => ?_
  exact write_atomic m key row

theorem patch_atomic (model : String) (key : Cell) (row : Record) :
    (patch model key row).Atomic := by
  refine (Metadata.model_quiet model).bind_atomic fun m => ?_
  refine (emits_ofRules _).bind_atomic fun _ => ?_
  exact write_atomic m key row

theorem delete_atomic (model : String) (key : Cell) : (delete model key).Atomic := by
  refine (Metadata.model_quiet model).bind_atomic fun m => ?_
  refine (emits_ofExcept _).bind_atomic fun st => ?_
  exact (Connection.run_atomic m.connection st).then_pure fun _ => ()

theorem deleteAll_atomic (model : String) (keys : List Cell) :
    (deleteAll model keys).Atomic := by
  unfold deleteAll
  split
  · exact (emits_pure _).atomic
  · refine (Metadata.model_quiet model).bind_atomic fun m => ?_
    refine (emits_ofExcept _).bind_atomic fun st? => ?_
    cases st? with
    | none => exact (emits_pure _).atomic
    | some st => exact (Connection.run_atomic m.connection st).then_pure fun _ => ()

end Rows

/-! ### Trees -/

namespace Trees

theorem climb_quiet (model parentField : String) (fuel : Nat) (seen : List String) (key : String)
    (below : List Record) : (climb model parentField fuel seen key below).Emits Quiet := by
  induction fuel generalizing seen key below with
  | zero => exact emits_pure below
  | succ fuel ih =>
    rw [climb]
    split
    · exact emits_pure below
    · refine (Rows.get?_quiet model (.text key)).bind fun row? => ?_
      cases row? with
      | none => exact emits_pure below
      | some row => exact ih _ _ _

theorem path_quiet (model key : String) : (path model key).Emits Quiet := by
  refine (treeModel_quiet model).bind fun m => ?_
  refine emits_get_bind fun s => ?_
  exact climb_quiet model m.entry.parentField _ [] key []

theorem parentRow_quiet (model key : String) : (parentRow model key).Emits Quiet := by
  unfold parentRow
  split
  · exact emits_pure none
  · refine (Rows.get?_quiet model (.text key)).bind fun row? => ?_
    cases row? with
    | none => exact emits_throw _
    | some row => exact emits_pure (some row)

theorem add_atomic (model : String) (row : Record) : (add model row).Atomic := by
  refine (treeModel_quiet model).bind_atomic fun m => ?_
  split
  · exact Rows.create_atomic model row
  · refine (parentRow_quiet model _).bind_atomic fun parent => ?_
    exact Rows.create_atomic model _

theorem move_atomic (model key target : String) : (move model key target).Atomic := by
  refine (treeModel_quiet model).bind_atomic fun m => ?_
  dsimp only
  by_cases hself : key = target
  · rw [if_pos hself]
    exact ((fails_throw _).bind _).emits.atomic
  · rw [if_neg hself]
    by_cases hroot : (!isRootKey target) = true
    · rw [if_pos hroot]
      -- the way up only reads; the UPDATE behind it is the one change
      refine (path_quiet model target).bind_atomic fun above => ?_
      by_cases hbelow : (above.any fun row => keyText (row.get? m.key) == key) = true
      · rw [if_pos hbelow]
        exact ((fails_throw _).bind _).emits.atomic
      · rw [if_neg hbelow]
        exact Rows.patch_atomic model _ _
    · rw [if_neg hroot]
      exact Rows.patch_atomic model _ _

theorem delete_atomic (model key : String) : (delete model key).Atomic := by
  refine (treeModel_quiet model).bind_atomic fun m => ?_
  exact Connection.transaction_atomic (removal_steps m key)

end Trees

/-! ### Masters with details -/

namespace MasterDetail

theorem create_atomic (master detail : String) (payload : Payload) :
    (create master detail payload).Atomic := by
  refine (relation_quiet master detail).bind_atomic fun r => ?_
  refine (Metadata.model_quiet master).bind_atomic fun m => ?_
  refine (Metadata.model_quiet detail).bind_atomic fun _ => ?_
  exact Connection.transaction_atomic (insertBoth_steps _ _ _ _ _ _)

end MasterDetail

/-- **Operations that write are atomic.**  Whatever the session holds and whatever the datasources
    answer, an operation that fails has left no change in effect: none was answered outside of a
    transaction, and none of its transactions was committed.  When it succeeds, all that it asked
    succeeded, its transactions were committed, and all its changes are in effect. -/
theorem writes_atomic :
    (∀ model row, (Rows.create model row).Atomic) ∧
    (∀ model key row, (Rows.update model key row).Atomic) ∧
    (∀ model key, (Rows.delete model key).Atomic) ∧
    (∀ model rows, (Rows.createAll model rows).Atomic) ∧
    (∀ model keys, (Rows.deleteAll model keys).Atomic) ∧
    (∀ model row, (Trees.add model row).Atomic) ∧
    (∀ model key target, (Trees.move model key target).Atomic) ∧
    (∀ model key, (Trees.delete model key).Atomic) ∧
    (∀ master detail payload, (MasterDetail.create master detail payload).Atomic) :=
  ⟨Rows.create_atomic, Rows.update_atomic, Rows.delete_atomic, Rows.createAll_atomic,
    Rows.deleteAll_atomic, Trees.add_atomic, Trees.move_atomic, Trees.delete_atomic,
    MasterDetail.create_atomic⟩

end MetaQuery
