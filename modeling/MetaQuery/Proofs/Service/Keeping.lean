/-
  MetaQuery/Proofs/Service/Keeping.lean
  =====================================
  All operations on the rows and on the trees of a model ask one datasource, that of the model's
  connection.

  Each operation loads its model anew, and a tree does so several times.  Under the same answers of
  the metadata each load finds the same model, so all of them keep to its connection
  (`rowsOn_of_finds`).
-/
import MetaQuery.Proofs.Session.Keeping
import MetaQuery.Proofs.Tree.Adding
import MetaQuery.Proofs.Tree.Moving

namespace MetaQuery

open MetaQuery.Action

/-! ### Rows -/

namespace Rows

variable {model : String} {m : Model} {answer : String → List Cell → Reply} {s : Session}

theorem write_keepsTo (n : Model) (key : Cell) (row : Record) :
    (write n key row).KeepsTo n.connection answer s := by
  refine (keepsTo_ofExcept _).andThen fun st? => ?_
  cases st? with
  | none => exact keepsTo_pure ()
  | some st => exact (Connection.run_keepsTo n.connection st).andThen fun _ => keepsTo_pure ()

section Loaded

variable (hload : (Metadata.model model).Finds m answer s)

include hload

theorem create_keepsTo (row : Record) : (create model row).KeepsTo m.connection answer s :=
  hload.keepsTo_each (Metadata.model_consults model) fun n =>
    (keepsTo_ofRules _).andThen fun st => (Connection.run_keepsTo n.connection st).andThen fun _ =>
      keepsTo_pure row

theorem createAll_keepsTo (rows : List Record) :
    (createAll model rows).KeepsTo m.connection answer s := by
  unfold createAll
  split
  · exact keepsTo_pure []
  · exact hload.keepsTo_each (Metadata.model_consults model) fun n =>
      (keepsTo_ofRules _).andThen fun st =>
        (Connection.run_keepsTo n.connection st).andThen fun _ => keepsTo_pure rows

theorem update_keepsTo (key : Cell) (row : Record) :
    (update model key row).KeepsTo m.connection answer s :=
  hload.keepsTo_each (Metadata.model_consults model) fun n =>
    (keepsTo_ofRules _).andThen fun _ => write_keepsTo n key row

theorem patch_keepsTo (key : Cell) (row : Record) :
    (patch model key row).KeepsTo m.connection answer s :=
  hload.keepsTo_each (Metadata.model_consults model) fun n =>
    (keepsTo_ofRules _).andThen fun _ => write_keepsTo n key row

theorem delete_keepsTo (key : Cell) : (delete model key).KeepsTo m.connection answer s :=
  hload.keepsTo_each (Metadata.model_consults model) fun n =>
    (keepsTo_ofExcept _).andThen fun st => (Connection.run_keepsTo n.connection st).andThen fun _ =>
      keepsTo_pure ()

theorem deleteAll_keepsTo (keys : List Cell) :
    (deleteAll model keys).KeepsTo m.connection answer s := by
  unfold deleteAll
  split
  · exact keepsTo_pure ()
  · refine hload.keepsTo_each (Metadata.model_consults model) fun n => ?_
    refine (keepsTo_ofExcept _).andThen fun st? => ?_
    cases st? with
    | none => exact keepsTo_pure ()
    | some st => exact (Connection.run_keepsTo n.connection st).andThen fun _ => keepsTo_pure ()

theorem get?_keepsTo (key : Cell) : (get? model key).KeepsTo m.connection answer s :=
  hload.keepsTo_each (Metadata.model_consults model) fun n =>
    (keepsTo_ofExcept _).andThen fun q =>
      (Connection.run_keepsTo n.connection q.statement).andThen fun _ => keepsTo_pure _

end Loaded

end Rows

/-! ### Lists -/

namespace Templates

variable {model : String} {answer : String → List Cell → Reply} {s : Session}

theorem applyChosen_keepsTo (connection : String) (choice : Option String) (m : Model) :
    (applyChosen model choice m).KeepsTo connection answer s := by
  cases choice with
  | some id =>
    refine (template?_consults id).keepsTo.andThen fun t? => ?_
    cases t? with
    | none => exact keepsTo_throw _
    | some t => exact keepsTo_pure _
  | none =>
    refine (default?_consults model).keepsTo.andThen fun t? => ?_
    cases t? with
    | none => exact keepsTo_pure _
    | some t => exact keepsTo_pure _

/-- A template leaves a model on its connection. -/
theorem connection_of_applyChosen {choice : Option String} {m n : Model} {s t : Session}
    (h : (applyChosen model choice m).exec s = (.ok n, t)) : n.connection = m.connection := by
  -- a template adds columns and conditions, never a connection
  cases choice with
  | some id =>
    obtain ⟨t?, u, -, hrest⟩ := ok_of_exec_bind h
    cases t? with
    | none => cases hrest
    | some t =>
      cases hrest
      rfl
  | none =>
    obtain ⟨t?, u, -, hrest⟩ := ok_of_exec_bind h
    cases t? with
    | none =>
      cases hrest
      rfl
    | some t =>
      cases hrest
      rfl

end Templates

namespace Rows

variable {model : String} {m : Model} {answer : String → List Cell → Reply} {s : Session}

/-- What is done with the model of a request, once its template is applied. -/
def compileRequest (r : ListRequest) (m : Model) : Action (Model × Select) := do
  let q ← Action.ofExcept (listQuery (← get).settings r m)
  return (m, q)

theorem prepare_eq (model : String) (r : ListRequest) :
    prepare model r = Metadata.model model >>= fun base =>
      Templates.applyChosen model r.template base >>= compileRequest r := rfl

theorem compileRequest_steady (r : ListRequest) (m : Model) : (compileRequest r m).Steady :=
  steady_get_bind fun _ => (steady_ofExcept _).bind fun _ => steady_pure _

theorem model_of_compileRequest {r : ListRequest} {m n : Model} {q : Select} {s t : Session}
    (h : (compileRequest r m).exec s = (.ok (n, q), t)) : n = m := by
  obtain ⟨_, u, -, hrest⟩ := ok_of_exec_bind h
  obtain ⟨q', v, -, hpair⟩ := ok_of_exec_bind hrest
  cases hpair
  rfl

theorem prepare_keepsTo (connection : String) (r : ListRequest) :
    (prepare model r).KeepsTo connection answer s := by
  refine (Metadata.model_consults model).keepsTo.andThen fun base => ?_
  refine (Templates.applyChosen_keepsTo connection r.template base).andThen fun n => ?_
  exact keepsTo_get_bind fun t => (keepsTo_ofExcept _).andThen fun q => keepsTo_pure _

section Loaded

variable (hload : (Metadata.model model).Finds m answer s)

include hload

theorem connection_of_prepare {r : ListRequest} {n : Model} {q : Select}
    (h : (prepare model r).CanFind (n, q) answer s) : n.connection = m.connection := by
  rw [prepare_eq] at h
  have hrest : ∀ base, (Templates.applyChosen model r.template base >>= compileRequest r).Steady :=
    fun base => (Templates.applyChosen_steady _ _ _).bind (compileRequest_steady r)
  obtain ⟨base, hbase, hchosen⟩ := h.of_bind (Metadata.model_consults model).steady hrest
  obtain rfl := hload.eq_of_canFind hbase
  obtain ⟨n', ⟨_, _, _, -, -, happlied, -⟩, _, _, _, -, -, hcompiled, -⟩ :=
    hchosen.of_bind (Templates.applyChosen_steady _ _ _) (compileRequest_steady r)
  rw [model_of_compileRequest hcompiled]
  exact Templates.connection_of_applyChosen happlied

theorem list_keepsTo (r : ListRequest) : (list model r).KeepsTo m.connection answer s := by
  have hread : ∀ p : Model × Select, (do
      let total ← Connection.count p.1.connection p.2
      let rows ← Connection.run p.1.connection p.2.statement
      return Page.of rows total p.2.window : Action Page).KeepsTo p.1.connection answer s :=
    fun p => (Connection.count_keepsTo _ _).andThen fun _ =>
      (Connection.run_keepsTo _ _).andThen fun _ => keepsTo_pure _
  refine (prepare_keepsTo m.connection r).bind (fun p => (hread p).steady) fun p hp => ?_
  rw [← connection_of_prepare hload hp]
  exact hread p

theorem count_keepsTo (r : ListRequest) : (count model r).KeepsTo m.connection answer s := by
  refine (prepare_keepsTo m.connection r).bind (fun p => count_steady _ _) fun p hp => ?_
  rw [← connection_of_prepare hload hp]
  exact Connection.count_keepsTo _ _

end Loaded

end Rows

/-! ### Trees -/

namespace Trees

variable {model : String} {m : Model} {answer : String → List Cell → Reply} {s : Session}

theorem descend_keepsTo (n : Model) (connection : String) (fuel : Nat) (seen : List String)
    (keys : List Cell) : (descend n connection fuel seen keys).KeepsTo connection answer s := by
  fun_induction descend n connection fuel seen keys with
  | case1 => exact keepsTo_pure []
  | case2 => exact keepsTo_pure []
  | case3 seen fuel key pending ih =>
    refine (keepsTo_ofExcept _).andThen fun q => ?_
    refine (Connection.runIn_keepsTo connection q.statement).andThen fun rows => ?_
    exact (ih _ _).andThen fun keys => keepsTo_pure (key :: keys)

theorem deleteEach_keepsTo (n : Model) (connection : String) (keys : List Cell) :
    (deleteEach n connection keys).KeepsTo connection answer s := by
  induction keys with
  | nil => exact keepsTo_pure ()
  | cons key keys ih =>
    refine (keepsTo_ofExcept _).andThen fun st => ?_
    exact (Connection.runIn_keepsTo connection st).andThen fun _ => ih

theorem removal_keepsTo (n : Model) (key : String) :
    (removal n key).KeepsTo n.connection answer s := by
  refine keepsTo_get_bind fun t => ?_
  refine (descend_keepsTo n n.connection _ [key] [.text key]).andThen fun keys => ?_
  exact deleteEach_keepsTo n n.connection keys.reverse

theorem ceiling_keepsTo (connection : String) : ceiling.KeepsTo connection answer s :=
  keepsTo_get_bind fun _ => keepsTo_pure _

section Loaded

variable (hload : (Metadata.model model).Finds m answer s)

include hload

/-- The model of a tree is the model that is found. -/
theorem eq_of_treeModel {n : Model} (h : (treeModel model).CanFind n answer s) : n = m := by
  obtain ⟨t, u, log, hstore, hsettings, hrun, hlog, hgives⟩ := h
  exact hload.eq_of_canFind ⟨t, u, log, hstore, hsettings, model_of_treeModel hrun, hlog, hgives⟩

theorem treeModel_keepsTo_bind {α : Type} {f : Model → Action α} (hf : ∀ n, (f n).Steady)
    (h : (f m).KeepsTo m.connection answer s) :
    (treeModel model >>= f).KeepsTo m.connection answer s := by
  refine (treeModel_consults model).keepsTo.bind hf fun n hn => ?_
  rw [eq_of_treeModel hload hn]
  exact h

theorem forest_keepsTo : (forest model).KeepsTo m.connection answer s := by
  have hread : ∀ n : Model, (do
      let page ← Rows.list model (← ceiling)
      return MetaQuery.forest n.key n.entry.parentField page.rows :
        Action (List Node)).KeepsTo m.connection answer s := fun n =>
    (ceiling_keepsTo m.connection).andThen fun r =>
      (Rows.list_keepsTo hload r).andThen fun _ => keepsTo_pure _
  exact treeModel_keepsTo_bind hload (fun n => (hread n).steady) (hread m)

theorem children_keepsTo (parent : String) :
    (children model parent).KeepsTo m.connection answer s := by
  unfold children
  have hread : ∀ n : Model, (if isRootKey parent then do
      let page ← Rows.list model (← ceiling)
      return rowsUnder n.entry.parentField page.rows rootKey
    else do
      let page ← Rows.list model (childRequest n.entry.parentField parent)
      return page.rows : Action (List Record)).KeepsTo m.connection answer s := by
    intro n
    -- the roots are read as a page without filters, other children by a filter on the parent
    split
    · exact (ceiling_keepsTo m.connection).andThen fun r =>
        (Rows.list_keepsTo hload r).andThen fun _ => keepsTo_pure _
    · exact (Rows.list_keepsTo hload _).andThen fun _ => keepsTo_pure _
  exact treeModel_keepsTo_bind hload (fun n => (hread n).steady) (hread m)

theorem climb_keepsTo (parentField : String) (fuel : Nat) (seen : List String) (key : String)
    (below : List Record) :
    (climb model parentField fuel seen key below).KeepsTo m.connection answer s := by
  induction fuel generalizing seen key below with
  | zero => exact keepsTo_pure below
  | succ fuel ih =>
    rw [climb]
    split
    · exact keepsTo_pure below
    · refine (Rows.get?_keepsTo hload (.text key)).andThen fun row? => ?_
      cases row? with
      | none => exact keepsTo_pure below
      | some row => exact ih _ _ _

theorem path_keepsTo (key : String) : (path model key).KeepsTo m.connection answer s := by
  have hclimb : ∀ n : Model, (do
      let fuel := (← get).answers.replies.length + 1
      climb model n.entry.parentField fuel [] key [] :
        Action (List Record)).KeepsTo m.connection answer s := fun n =>
    keepsTo_get_bind fun t => climb_keepsTo hload n.entry.parentField _ [] key []
  exact treeModel_keepsTo_bind hload (fun n => (hclimb n).steady) (hclimb m)

theorem parentRow_keepsTo (text : String) :
    (parentRow model text).KeepsTo m.connection answer s := by
  unfold parentRow
  split
  · exact keepsTo_pure none
  · refine (Rows.get?_keepsTo hload (.text text)).andThen fun row? => ?_
    cases row? with
    | none => exact keepsTo_throw _
    | some row => exact keepsTo_pure (some row)

theorem addIn_keepsTo (row : Record) (n : Model) :
    (addIn model row n).KeepsTo m.connection answer s := by
  unfold addIn
  split
  · exact Rows.create_keepsTo hload row
  · exact (parentRow_keepsTo hload _).andThen fun above => Rows.create_keepsTo hload _

theorem add_keepsTo (row : Record) : (add model row).KeepsTo m.connection answer s := by
  rw [add_eq]
  exact treeModel_keepsTo_bind hload (addIn_steady model row) (addIn_keepsTo hload row m)

theorem moveIn_keepsTo (key target : String) (n : Model) :
    (moveIn model key target n).KeepsTo m.connection answer s := by
  unfold moveIn
  split
  · exact keepsTo_throw _
  · split
    · exact Rows.patch_keepsTo hload _ _
    · refine (path_keepsTo hload target).andThen fun above => ?_
      unfold moveBelow
      split
      · exact keepsTo_throw _
      · exact Rows.patch_keepsTo hload _ _

theorem move_keepsTo (key target : String) :
    (move model key target).KeepsTo m.connection answer s := by
  rw [move_eq]
  exact treeModel_keepsTo_bind hload (moveIn_steady model key target)
    (moveIn_keepsTo hload key target m)

theorem delete_keepsTo (key : String) : (delete model key).KeepsTo m.connection answer s := by
  have hremoval : ∀ n : Model, (Connection.transaction n.connection
      (removal n key)).KeepsTo n.connection answer s :=
    fun n => Connection.transaction_keepsTo (removal_keepsTo n key)
  rw [delete_eq]
  exact treeModel_keepsTo_bind hload (fun n => (hremoval n).steady) (hremoval m)

end Loaded

end Trees

/-! ### All operations -/

/-- All that is done with the rows of a model and with its trees asks one datasource. -/
structure RowsOn (model connection : String) (answer : String → List Cell → Reply) (s : Session) :
    Prop where
  create : ∀ row, (Rows.create model row).KeepsTo connection answer s
  createAll : ∀ rows, (Rows.createAll model rows).KeepsTo connection answer s
  update : ∀ key row, (Rows.update model key row).KeepsTo connection answer s
  patch : ∀ key row, (Rows.patch model key row).KeepsTo connection answer s
  delete : ∀ key, (Rows.delete model key).KeepsTo connection answer s
  deleteAll : ∀ keys, (Rows.deleteAll model keys).KeepsTo connection answer s
  get? : ∀ key, (Rows.get? model key).KeepsTo connection answer s
  list : ∀ r, (Rows.list model r).KeepsTo connection answer s
  count : ∀ r, (Rows.count model r).KeepsTo connection answer s
  forest : (Trees.forest model).KeepsTo connection answer s
  children : ∀ parent, (Trees.children model parent).KeepsTo connection answer s
  path : ∀ key, (Trees.path model key).KeepsTo connection answer s
  add : ∀ row, (Trees.add model row).KeepsTo connection answer s
  move : ∀ key target, (Trees.move model key target).KeepsTo connection answer s
  deleteTree : ∀ key, (Trees.delete model key).KeepsTo connection answer s

theorem rowsOn_of_finds {model : String} {m : Model} {answer : String → List Cell → Reply}
    {s : Session} (hload : (Metadata.model model).Finds m answer s) :
    RowsOn model m.connection answer s where
  create := Rows.create_keepsTo hload
  createAll := Rows.createAll_keepsTo hload
  update := Rows.update_keepsTo hload
  patch := Rows.patch_keepsTo hload
  delete := Rows.delete_keepsTo hload
  deleteAll := Rows.deleteAll_keepsTo hload
  get? := Rows.get?_keepsTo hload
  list := Rows.list_keepsTo hload
  count := Rows.count_keepsTo hload
  forest := Trees.forest_keepsTo hload
  children := Trees.children_keepsTo hload
  path := Trees.path_keepsTo hload
  add := Trees.add_keepsTo hload
  move := Trees.move_keepsTo hload
  deleteTree := Trees.delete_keepsTo hload

end MetaQuery
