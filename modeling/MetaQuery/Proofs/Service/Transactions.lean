/-
  MetaQuery/Proofs/Service/Transactions.lean
  ==========================================
  The transactions of deleting a subtree and of creating a master with its details.

  Their steps check rows, look up metadata and run statements of the transaction, and they stop
  where one of these fails.  So both operations are bracketed.
-/
import MetaQuery.Pattern.Reader
import MetaQuery.Proofs.Session.Bracket
import MetaQuery.Service.MasterDetail
import MetaQuery.Service.Trees

namespace MetaQuery

open MetaQuery.Action

/-! ### Checks -/

namespace FieldEntry

theorem checkLength_refuses (f : FieldEntry) (text : String) : Refuses (f.checkLength text) := by
  unfold checkLength
  split
  · exact refuses_error (.invalid _ _)
  · exact refuses_ok ()

theorem checkRange_refuses (f : FieldEntry) (x : Float) : Refuses (f.checkRange x) := by
  unfold checkRange
  split
  · split
    · exact refuses_error (.invalid _ _)
    · split
      · exact refuses_error (.invalid _ _)
      · exact refuses_ok ()
  · exact refuses_ok ()

theorem checkNumber_refuses (f : FieldEntry) (v : Cell) : Refuses (f.checkNumber v) := by
  unfold checkNumber
  split
  · cases v.float? with
    | some x => exact f.checkRange_refuses x
    | none => exact refuses_error (.invalid _ _)
  · exact refuses_ok ()

theorem checkRule_refuses (f : FieldEntry) (rules : Rules) (text : String) :
    Refuses (f.checkRule rules text) := by
  unfold checkRule
  split
  · exact refuses_ok ()
  · cases rules f.rule with
    | error cause => exact refuses_error (.invalid _ _)
    | ok isMatch =>
      dsimp only
      split
      · exact refuses_ok ()
      · exact refuses_error (.invalid _ _)

theorem checkValue_refuses (f : FieldEntry) (rules : Rules) (v : Cell) :
    Refuses (f.checkValue rules v) := by
  unfold checkValue
  split
  · exact refuses_ok ()
  · refine (f.checkLength_refuses v.display).bind fun _ => ?_
    exact (f.checkNumber_refuses v).bind fun _ => f.checkRule_refuses rules v.display

end FieldEntry

theorem checkColumns_refuses (model : String) (fields : List FieldEntry) (row : Record) :
    Refuses (checkColumns model fields row) := by
  unfold checkColumns
  cases unknownColumn? fields row with
  | some k => exact refuses_error (.invalid _ _)
  | none => exact refuses_ok ()

theorem checkWhole_refuses (rules : Rules) (row : Record) (fields : List FieldEntry) :
    Refuses (checkWhole rules row fields) := by
  induction fields with
  | nil => exact refuses_ok ()
  | cons f rest ih =>
    rw [checkWhole]
    split
    · exact refuses_error (.invalid _ _)
    · cases row.get? f.column with
      | none => exact ih
      | some v => exact (f.checkValue_refuses rules v).bind fun _ => ih

theorem checkRow_refuses (rules : Rules) (model : String) (fields : List FieldEntry)
    (row : Record) : Refuses (checkRow rules model fields row) := by
  unfold checkRow
  split
  · exact refuses_ok ()
  · exact (checkColumns_refuses model fields row).bind fun _ => checkWhole_refuses rules row fields

/-! ### Statements -/

namespace Model

theorem insertMany_refuses (m : Model) (rows : List Record) (missing : MissingColumn) :
    Refuses (m.insertMany rows missing) := by
  rw [insertMany_eq]
  split
  · exact refuses_error (.invalid _ _)
  · exact (refuses_mapError m.target).map _

theorem delete_refuses (m : Model) (key : Cell) : Refuses (m.delete key) := by
  rw [delete_eq]
  exact (refuses_mapError m.target).map _

end Model

theorem Rows.creation_refuses (model : String) (m : Model) (rows : List Record) (rules : Rules) :
    Refuses (creation model m rows rules) :=
  (refuses_forM (checkRow_refuses rules model m.fields) rows).bind fun _ =>
    m.insertMany_refuses rows .null

theorem MasterDetail.masterKey_refuses (keyField : String) (master : Record) :
    Refuses (masterKey keyField master) := by
  unfold masterKey
  cases (master.get? keyField).filter (!·.isBlank) with
  | some key => exact refuses_ok key
  | none => exact refuses_error (.noMasterKey keyField)

/-! ### Looking up -/

theorem Trees.treeModel_consults (model : String) : (treeModel model).Consults Consulted := by
  refine (Metadata.model_consults model).bind fun m => ?_
  split
  · exact (consults_throw (.metadata _)).bind fun _ => consults_pure m
  · exact consults_pure m

theorem Trees.treeModel_quiet (model : String) : (treeModel model).Emits Quiet :=
  (treeModel_consults model).quiet

theorem MasterDetail.relation_consults (master detail : String) :
    (relation master detail).Consults Consulted := by
  refine (Metadata.relation?_consults master detail).bind fun r? => ?_
  cases r? with
  | none => exact consults_throw (.metadata _)
  | some r =>
    dsimp only
    split
    · exact consults_throw (.metadata _)
    · exact consults_pure r

theorem MasterDetail.relation_quiet (master detail : String) :
    (relation master detail).Emits Quiet :=
  (relation_consults master detail).quiet

/-! ### Steps -/

namespace Rows

variable (connection model : String)

theorem createIn_steps (row : Record) :
    (createIn connection model row).Steps (Inside (.data connection)) := by
  refine ((Metadata.model_consults model).steps.mono fun _ => .consulted).bind fun m => ?_
  refine (steps_ofRules (creation_refuses model m [row])).bind fun st => ?_
  exact (Connection.runIn_steps connection st).bind fun _ => steps_pure row

theorem createAllIn_steps (rows : List Record) :
    (createAllIn connection model rows).Steps (Inside (.data connection)) := by
  unfold createAllIn
  split
  · exact steps_pure []
  · refine ((Metadata.model_consults model).steps.mono fun _ => .consulted).bind fun m => ?_
    refine (steps_ofRules (creation_refuses model m rows)).bind fun st => ?_
    exact (Connection.runIn_steps connection st).bind fun _ => steps_pure rows

end Rows

theorem MasterDetail.insertBoth_steps (connection master detail keyField foreignKey : String)
    (payload : Payload) :
    (insertBoth connection master detail keyField foreignKey payload).Steps
      (Inside (.data connection)) := by
  refine (Rows.createIn_steps connection master payload.master).bind fun created => ?_
  refine (steps_ofExcept (masterKey_refuses keyField created)).bind fun key => ?_
  exact (Rows.createAllIn_steps connection detail _).bind fun _ => steps_pure created

namespace Trees

variable (m : Model) (connection : String)

theorem descend_steps (fuel : Nat) (seen : List String) (keys : List Cell) :
    (descend m connection fuel seen keys).Steps (Inside (.data connection)) := by
  fun_induction descend m connection fuel seen keys with
  | case1 => exact steps_pure []
  | case2 => exact steps_pure []
  | case3 seen fuel key pending ih =>
    refine (steps_ofMetadata _).bind fun q => ?_
    refine (Connection.runIn_steps connection q.statement).bind fun rows => ?_
    exact (ih _ _).bind fun keys => steps_pure (key :: keys)

theorem deleteEach_steps (keys : List Cell) :
    (deleteEach m connection keys).Steps (Inside (.data connection)) := by
  induction keys with
  | nil => exact steps_pure ()
  | cons key keys ih =>
    refine (steps_ofExcept (m.delete_refuses key)).bind fun st => ?_
    exact (Connection.runIn_steps connection st).bind fun _ => ih

/-- The steps of deleting a subtree: all its keys are found first, then its rows are deleted. -/
def removal (key : String) : Action Unit := do
  let fuel := rowCount (← get).answers.replies + 1
  let keys ← descend m m.connection fuel [key] [.text key]
  deleteEach m m.connection keys.reverse

theorem removal_steps (key : String) : (removal m key).Steps (Inside (.data m.connection)) := by
  refine steps_get_bind fun s => ?_
  refine (descend_steps m m.connection _ [key] [.text key]).bind fun keys => ?_
  exact deleteEach_steps m m.connection keys.reverse

theorem delete_eq (model key : String) :
    delete model key = (do
      let m ← treeModel model
      Connection.transaction m.connection (removal m key)) := rfl

end Trees

/-! ### Brackets -/

/-- The steps of deleting the subtree under a key, on the connection of its model. -/
def Trees.IsRemoval (model key : String) (s : Session) (connection : String)
    (steps : Action Unit) : Prop :=
  ∃ m, ((treeModel model).exec s).1 = .ok m ∧ connection = m.connection ∧ steps = removal m key

theorem Trees.delete_bracketed (model key : String) (s : Session) :
    (delete model key).Bracketed s (IsRemoval model key s) := by
  rw [delete_eq]
  refine (treeModel_quiet model).bind_bracketed fun m t hm => ?_
  refine (Connection.transaction_bracketed (removal_steps m key) t).mono ?_
  rintro c b ⟨rfl, rfl⟩
  exact ⟨m, by rw [hm], rfl, rfl⟩

/-- The steps of creating a master and its details, on the connection of the master's model. -/
def MasterDetail.IsInsertion (master detail : String) (payload : Payload) (s : Session)
    (connection : String) (steps : Action Record) : Prop :=
  ∃ r t m, (relation master detail).exec s = (.ok r, t) ∧
    ((Metadata.model master).exec t).1 = .ok m ∧ connection = m.connection ∧
    steps = insertBoth m.connection master detail m.key r.foreignKey payload

theorem MasterDetail.create_bracketed (master detail : String) (payload : Payload) (s : Session) :
    (create master detail payload).Bracketed s (IsInsertion master detail payload s) := by
  refine (relation_quiet master detail).bind_bracketed fun r t hr => ?_
  refine (Metadata.model_quiet master).bind_bracketed fun m u hm => ?_
  refine (Metadata.model_quiet detail).bind_bracketed fun _ v _ => ?_
  refine (Connection.transaction_bracketed (insertBoth_steps _ _ _ _ _ payload) v).mono ?_
  rintro c b ⟨rfl, rfl⟩
  exact ⟨r, t, m, hr, by rw [hm], rfl, rfl⟩

/-- **Deleting a subtree and creating a master with details run one bracketed transaction.**
    Behind its begin come the steps, then one commit or one rollback, and nothing more.  It is a
    commit just when all statements succeeded and nothing was refused; nothing follows a statement
    that failed; the fault of the steps is reported whatever comes of the rollback, and a commit
    that fails is reported as one. -/
theorem transactions_bracketed (s : Session) :
    (∀ model key, (Trees.delete model key).Bracketed s (Trees.IsRemoval model key s)) ∧
    (∀ master detail payload, (MasterDetail.create master detail payload).Bracketed s
      (MasterDetail.IsInsertion master detail payload s)) :=
  ⟨fun model key => Trees.delete_bracketed model key s,
    fun master detail payload => MasterDetail.create_bracketed master detail payload s⟩

/-- Shelves in a tree, in a datasource that is open.  It refuses to delete one, and it is gone when
    the transaction is to be rolled back. -/
def shelfSession : Session where
  store := .memory {
    models := [{
      id := "shelf", code := "shelf", connection := "main", isTree := true, parentField := "under" }]
    tables := [{ id := "t", model := "shelf", name := "shelves", connection := "main" }]
    connections := [{ id := "main", kind := "sqlite" }] }
  rules := Pattern.read
  opened := ["main"]
  idAt := fun _ => ""
  answers := {
    replies := [.rows [] 0, .failure (.reported "locked")]
    outcomes := [(.rollback, some (.reported "gone"))] }

def shelfRemoval : List Event := [
  .executed (.data "main") true "SELECT \"id\" FROM \"shelves\" WHERE \"under\" = ?" [.text "1"]
    (.rows [] 0),
  .executed (.data "main") true "DELETE FROM \"shelves\" WHERE \"id\" = ?" [.text "1"]
    (.failure (.reported "locked"))]

/-- Behind the begin, a shelf is not deleted: that is what is reported, not that the rollback fails
    too. -/
theorem shelf_removal_bracketed :
    ((Trees.delete "shelf" "1").exec shelfSession).2.events =
      .began (.data "main") none ::
        (shelfRemoval ++ [.rolledBack (.data "main") (some (.reported "gone"))]) ∧
    ((Trees.delete "shelf" "1").exec shelfSession).1 =
      .error (.execution "DELETE FROM \"shelves\" WHERE \"id\" = ?" (.reported "locked")) ∧
    ∃ (steps : Action Unit) (t : Session), Trees.IsRemoval "shelf" "1" shelfSession "main" steps ∧
      Bracket "main" (steps.exec t).1 ((Trees.delete "shelf" "1").exec shelfSession).1 shelfRemoval
        (.rolledBack (.data "main") (some (.reported "gone"))) := by
  have hrun : ((Trees.delete "shelf" "1").exec shelfSession).2.events =
      .began (.data "main") none ::
        (shelfRemoval ++ [.rolledBack (.data "main") (some (.reported "gone"))]) := by
    decide +kernel
  refine ⟨hrun, rfl, ?_⟩
  -- the log above is the one the general statement speaks of, cut at its only begin
  obtain ⟨log, hlog, hbrackets⟩ := (transactions_bracketed shelfSession).1 "shelf" "1"
  obtain rfl := (hrun.symm.trans hlog).symm
  obtain ⟨connection, steps, t, inner, last, htarget, hsteps, -, -, -, hafter, hbracket⟩ :=
    hbrackets [] _ _ rfl
  obtain rfl := (Target.data.inj htarget).symm
  obtain ⟨hinner, hlast⟩ := List.append_inj' hafter rfl
  obtain rfl := (List.singleton_inj.1 hlast).symm
  exact ⟨steps, t, hsteps, hinner ▸ hbracket⟩

end MetaQuery
