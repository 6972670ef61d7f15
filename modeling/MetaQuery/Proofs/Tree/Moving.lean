/-
  MetaQuery/Proofs/Tree/Moving.lean
  =================================
  Moving a node keeps a forest a forest.

  Another parent for a row makes a cycle only when the row is above that parent
  (`IsForest.reparent`).  The climb from the new parent passes every row above it, so a move that
  would make a cycle finds the node that it moves and is refused.  This needs rows that show their
  keys: where a model declares fields but not its key column, the rows that are read do not have
  it, and nothing is refused.
-/
import MetaQuery.Proofs.Tree.Climb

open Relation

namespace MetaQuery

/-! ### Another parent -/

namespace TreeTable

variable {T : TreeTable} {same : Cell → Cell → Bool} {key parent : Cell} {text : String}

theorem link_reparent (hsame : ∀ r ∈ T, same r.key key = true ↔ r.key.display = text)
    {child next : String} (h : (T.reparent same key parent).Link child next) :
    (child = text ∧ next = parent.display) ∨ (child ≠ text ∧ T.Link child next) := by
  obtain ⟨r', hr', hchild, hnames⟩ := h
  obtain ⟨r, hr, rfl⟩ := List.mem_map.1 hr'
  by_cases hkey : same r.key key = true
  · rw [if_pos hkey] at hchild hnames
    exact .inl ⟨hchild ▸ (hsame r hr).1 hkey, hnames.2.symm⟩
  · rw [if_neg hkey] at hchild hnames
    exact .inr ⟨fun htext => hkey ((hsame r hr).2 (hchild.trans htext)), r, hr, hchild, hnames⟩

/-- Without the moved row, the way up is the old one. -/
theorem climbs_of_reparent (hsame : ∀ r ∈ T, same r.key key = true ↔ r.key.display = text)
    {first last : String} (hfree : ¬ ReflTransGen T.Link first text)
    (h : ReflTransGen (T.reparent same key parent).Link first last) :
    ReflTransGen T.Link first last := by
  induction h with
  | refl => exact .refl
  | tail _ hlink ih =>
    rcases link_reparent hsame hlink with ⟨rfl, -⟩ | ⟨-, hold⟩
    · exact absurd ih hfree
    · exact ih.tail hold

/-- A way up is the old one, or it leads over the moved row. -/
theorem climbs_or_passes (hsame : ∀ r ∈ T, same r.key key = true ↔ r.key.display = text)
    {first last : String} (h : TransGen (T.reparent same key parent).Link first last) :
    TransGen T.Link first last ∨
      ReflTransGen (T.reparent same key parent).Link first text ∧
        TransGen (T.reparent same key parent).Link text last := by
  induction h with
  | single hlink =>
    rcases link_reparent hsame hlink with ⟨rfl, -⟩ | ⟨-, hold⟩
    · exact .inr ⟨.refl, .single hlink⟩
    · exact .inl (.single hold)
  | @tail middle last hbefore hlink ih =>
    rcases ih with hold | ⟨hup, hover⟩
    · rcases link_reparent hsame hlink with ⟨rfl, -⟩ | ⟨-, hlast⟩
      · exact .inr ⟨hbefore.to_reflTransGen, .single hlink⟩
      · exact .inl (hold.tail hlast)
    · exact .inr ⟨hup, hover.tail hlink⟩

/-- **Another parent makes no cycle**, unless the row is above that parent. -/
theorem IsForest.reparent (hT : T.IsForest)
    (hsame : ∀ r ∈ T, same r.key key = true ↔ r.key.display = text)
    (hfree : ¬ ReflTransGen T.Link parent.display text) :
    (T.reparent same key parent).IsForest := by
  intro r _ hloop
  rcases climbs_or_passes hsame hloop with hold | ⟨hup, hover⟩
  · exact hT.no_loop hold
  · -- a cycle over the moved row goes on at its new parent
    obtain ⟨next, hlink, hback⟩ := TransGen.head'_iff.1 (hover.trans_left hup)
    rcases link_reparent hsame hlink with ⟨-, rfl⟩ | ⟨hne, -⟩
    · exact hfree (climbs_of_reparent hsame hfree hback)
    · exact hne rfl

theorem reparent_eq_self (h : ∀ r ∈ T, same r.key key = false) :
    T.reparent same key parent = T := by
  refine (List.map_congr_left fun r hr => ?_).trans (List.map_id T)
  rw [h r hr]
  rfl

end TreeTable

/-! ### The UPDATE of a move -/

namespace Model

variable {m : Model} {key parent : Cell} {target : String}

theorem update_parent (htarget : m.target = .ok target) (hcolumn : m.entry.parentField ≠ m.key)
    (hkey : key.isNull = false) (hparent : parent.isNull = false) :
    m.update key (Record.empty.set m.entry.parentField parent) =
      .ok (some ⟨m.dialect, m.reparentText target, [m.boundParent parent, m.boundKey key]⟩) := by
  have hkeyNull : (coerceTo (m.field? m.key) key).isNull = false :=
    (m.isNull_boundKey key).trans hkey
  have hparentNull : (coerceTo (m.field? m.entry.parentField) parent).isNull = false :=
    (m.isNull_boundParent parent).trans hparent
  -- the record to write has the parent alone, beside the key
  have hentries : (Record.empty.set m.entry.parentField parent).entries.filter (·.1 != m.key) =
      [(m.entry.parentField, parent)] := List.filter_cons_of_pos (by simpa using hcolumn)
  rw [update_eq, hentries, htarget]
  simp only [bindAssignments, bindCell]
  rw [Statement.bind_of_not_null hparentNull]
  dsimp only
  rw [Statement.bind_of_not_null hkeyNull]
  exact congrArg (fun text => Except.ok (some (Statement.mk _ text _))) (String.empty_append)

theorem update_key (key parent : Cell) :
    m.update key (Record.empty.set m.key parent) = .ok none := by
  have hentries : (Record.empty.set m.key parent).entries.filter (·.1 != m.key) = [] :=
    List.filter_cons_of_neg (by simp)
  rw [update_eq, hentries]
  rfl

theorem target_of_update_parent (hcolumn : m.entry.parentField ≠ m.key) {key parent : Cell}
    {st? : Option Statement}
    (h : m.update key (Record.empty.set m.entry.parentField parent) = .ok st?) :
    ∃ target, m.target = .ok target := by
  have hentries : (Record.empty.set m.entry.parentField parent).entries.filter (·.1 != m.key) =
      [(m.entry.parentField, parent)] := List.filter_cons_of_pos (by simpa using hcolumn)
  rw [update_eq, hentries] at h
  cases htarget : m.target with
  | ok target => exact ⟨target, rfl⟩
  | error fault =>
    rw [htarget] at h
    cases h

theorem isChangeText_reparent (m : Model) (target : String) :
    isChangeText (m.reparentText target) = true :=
  isChangeText_of_head (c := 'U') (by simp [reparentText, String.toList_append]; rfl) (by decide)

end Model

theorem tableAfter_quiet_append {opening : List Event} (h : ∀ ev ∈ opening, Quiet ev) (m : Model)
    (same : Cell → Cell → Bool) (T : TreeTable) (log : List Event) :
    tableAfter m same T (opening ++ log) = tableAfter m same T log := by
  rw [tableAfter, List.foldl_append, Contents.foldl_quiet h]
  rfl

theorem tableAfter_reparent {m : Model} {target : String} (htarget : m.target = .ok target)
    (same : Cell → Cell → Bool) (T : TreeTable) (key parent : Cell) (rows : List SourceRow)
    (affected : Nat) :
    tableAfter m same T [.executed (.data m.connection) false (m.reparentText target)
      [parent, key] (.rows rows affected)] = some (T.reparent same key parent) := by
  have heffect : m.effect same (m.reparentText target) [parent, key] T =
      some (T.reparent same key parent) := by
    simp only [Model.effect, htarget, if_true]
  rw [tableAfter, List.foldl_cons, List.foldl_nil, Contents.step,
    if_pos ⟨rfl, m.isChangeText_reparent target⟩]
  exact heffect

namespace Trees

open MetaQuery.Action

/-- A row put under another one, once the rows above that one are known. -/
def moveBelow (model key target : String) (m : Model) (above : List Record) : Action Unit :=
  if (above.any fun row => keyText (row.get? m.key) == key) = true then
    throw (.invalid m.entry.parentField .underDescendant)
  else Rows.patch model (.text key) (Record.empty.set m.entry.parentField (.text target))

/-- A row moved, once its model is known. -/
def moveIn (model key target : String) (m : Model) : Action Unit :=
  if key = target then throw (.invalid m.entry.parentField .underItself)
  else if isRootKey target = true then
    Rows.patch model (.text key) (Record.empty.set m.entry.parentField (.text rootKey))
  else path model target >>= moveBelow model key target m

theorem move_eq (model key target : String) :
    move model key target = treeModel model >>= moveIn model key target := by
  unfold move
  refine congrArg (treeModel model >>= ·) (funext fun m => ?_)
  unfold moveIn
  by_cases hself : key = target
  · rw [if_pos hself, if_pos hself]
    rfl
  · rw [if_neg hself, if_neg hself]
    by_cases hroot : isRootKey target = true
    · simp [hroot]
    -- the nested conditions of the code as three steps: itself, the root, a node below
    · have hnot : (!isRootKey target) = true := by simpa using hroot
      rw [if_pos hnot]
      simp only [if_neg hroot]
      refine congrArg (path model target >>= ·) (funext fun above => ?_)
      unfold moveBelow
      by_cases hbelow : (above.any fun row => keyText (row.get? m.key) == key) = true
      · rw [if_pos hbelow, if_pos hbelow]
        rfl
      · rw [if_neg hbelow, if_neg hbelow]

end Trees

namespace Rows

open MetaQuery.Action

theorem write_steady (m : Model) (key : Cell) (row : Record) : (write m key row).Steady := by
  refine (steady_ofExcept _).bind fun st? => ?_
  cases st? with
  | none => exact steady_pure ()
  | some st => exact (Connection.run_steady m.connection st).bind fun _ => steady_pure ()

theorem patch_steady (model : String) (key : Cell) (row : Record) :
    (patch model key row).Steady := by
  refine (Metadata.model_consults model).steady.bind fun m => ?_
  exact (steady_ofRules _).bind fun _ => write_steady m key row

/-- A patch on a datasource that is open, with a model that is loaded without an exchange. -/
theorem exec_patch {model : String} {m : Model} {key : Cell} {row : Record} {st : Statement}
    {s : Session} {rows : List SourceRow} {affected : Nat}
    (hload : (Metadata.model model).exec s = (.ok m, s))
    (hopen : s.opened.contains m.connection = true)
    (hcheck : checkPartialRow s.rules model m.fields row = .ok ())
    (hst : m.update key row = .ok (some st))
    (hreply : s.answers.next.1 = .rows rows affected) :
    (patch model key row).exec s = (.ok (), { s with
      answers := s.answers.next.2
      events := s.events ++ [.executed (.data m.connection) false st.text st.args
        (.rows rows affected)] }) := by
  have hchecked : (Action.ofRules fun rules => checkPartialRow rules model m.fields row).exec s =
      (.ok (), s) := exec_ofRules_of_ok hcheck
  have hcompiled : (Action.ofExcept (m.update key row)).exec s = (.ok (some st), s) := by
    rw [hst]
    rfl
  rw [patch, exec_bind_of_ok hload, exec_bind_of_ok hchecked, write, exec_bind_of_ok hcompiled]
  dsimp only
  rw [exec_bind_of_ok (Connection.exec_run hopen st hreply)]
  rfl

/-- The one statement that gives a row another parent; none where the parent column is the key
    column itself. -/
inductive Reparents (m : Model) (key parent : String) : List Event → Prop where
  | nothing (hcolumn : m.entry.parentField = m.key) : Reparents m key parent []
  | updated {target : String} (rows : List SourceRow) (affected : Nat)
      (hcolumn : m.entry.parentField ≠ m.key) (htarget : m.target = .ok target) :
      Reparents m key parent [.executed (.data m.connection) false (m.reparentText target)
        [m.boundParent (.text parent), m.boundKey (.text key)] (.rows rows affected)]

/-- Giving a row another parent sends that statement behind quiet events. -/
theorem reparents_of_patch {model : String} {m : Model} {answer : String → List Cell → Reply}
    {key parent : String} {s t : Session} {log : List Event}
    (hload : (Metadata.model model).Finds m answer s)
    (hrun : (patch model (.text key) (Record.empty.set m.entry.parentField (.text parent))).exec s =
      (.ok (), t))
    (hlog : t.events = s.events ++ log) (hgives : ∀ ev ∈ log, ev.Gives answer) :
    ∃ opening rest, log = opening ++ rest ∧ (∀ ev ∈ opening, Quiet ev) ∧
      Reparents m key parent rest := by
  obtain ⟨u, first, rest, hrest, -, ht, rfl, hfirst⟩ := hload.split (Metadata.model_consults model)
    (fun m => (steady_ofRules _).bind fun _ => write_steady m _ _) hrun hlog hgives
  have hquietFirst : ∀ ev ∈ first, Quiet ev := fun ev hev => (hfirst ev hev).quiet
  obtain ⟨_, v, hcheck, hwrite⟩ := ok_of_exec_bind hrest
  obtain ⟨-, rfl⟩ := ok_of_exec_ofRules hcheck
  obtain ⟨st?, w, hupdate, hsent⟩ := ok_of_exec_bind hwrite
  obtain ⟨hst, rfl⟩ := ok_of_exec_ofExcept hupdate
  cases st? with
  -- no statement: the parent column is the key column, which an update leaves out
  | none =>
    obtain ⟨-, rfl⟩ := Prod.mk.inj hsent
    have hnil : rest = [] := by simpa using ht
    refine ⟨first, rest, rfl, hquietFirst, ?_⟩
    rw [hnil]
    refine .nothing (by_contra fun hcolumn => ?_)
    obtain ⟨target, htarget⟩ := Model.target_of_update_parent hcolumn hst
    rw [Model.update_parent htarget hcolumn rfl rfl] at hst
    cases hst
  | some st =>
    have hcolumn : m.entry.parentField ≠ m.key := by
      intro hcolumn
      rw [hcolumn, Model.update_key] at hst
      cases hst
    obtain ⟨target, htarget⟩ := Model.target_of_update_parent hcolumn hst
    rw [Model.update_parent htarget hcolumn rfl rfl] at hst
    obtain rfl := Option.some.inj (Except.ok.inj hst)
    obtain ⟨records, x, hrecords, hout⟩ := ok_of_exec_bind hsent
    obtain ⟨-, rfl⟩ := Prod.mk.inj hout
    obtain ⟨rows, affected, opening, y, -, hopening, hquiet, -, -, rfl⟩ :=
      Connection.answered_of_run hrecords
    dsimp only at ht
    rw [hopening, List.append_assoc] at ht
    refine ⟨first ++ opening, _, ?_, ?_, .updated rows affected hcolumn htarget⟩
    · rw [← List.append_cancel_left ht, List.append_assoc]
    · intro ev hev
      rcases List.mem_append.1 hev with hev | hev
      · exact hquietFirst ev hev
      · exact hquiet ev hev

/-- What giving a row another parent makes of the table: nothing where the parent column is the
    key column itself. -/
theorem tableAfter_patch {model : String} {m : Model} {answer : String → List Cell → Reply}
    {key parent : String} {s t : Session} {log : List Event}
    (hload : (Metadata.model model).Finds m answer s)
    (hrun : (patch model (.text key) (Record.empty.set m.entry.parentField (.text parent))).exec s =
      (.ok (), t))
    (hlog : t.events = s.events ++ log) (hgives : ∀ ev ∈ log, ev.Gives answer)
    (same : Cell → Cell → Bool) (T : TreeTable) :
    tableAfter m same T log = some T ∨
      tableAfter m same T log =
        some (T.reparent same (m.boundKey (.text key)) (m.boundParent (.text parent))) := by
  obtain ⟨opening, rest, rfl, hquiet, hrest⟩ := reparents_of_patch hload hrun hlog hgives
  rw [tableAfter_quiet_append hquiet]
  cases hrest with
  | nothing hcolumn => exact .inl rfl
  | updated rows affected hcolumn htarget =>
    exact .inr (tableAfter_reparent htarget same T _ _ rows affected)

end Rows

/-! ### Moving a node -/

theorem TreeTable.IsForest.moved {T : TreeTable} (hT : T.IsForest) {same : Cell → Cell → Bool}
    {key parent : Cell} {text : String}
    (hsame : ∀ r ∈ T, same r.key key = true ↔ r.key.display = text)
    (hfree : text ∈ T.texts → ¬ ReflTransGen T.Link parent.display text) :
    (T.reparent same key parent).IsForest := by
  by_cases hrow : text ∈ T.texts
  · exact hT.reparent hsame (hfree hrow)
  · have hnone : ∀ r ∈ T, same r.key key = false := by
      intro r hr
      refine Bool.eq_false_iff.2 fun hkey => hrow ?_
      rw [← (hsame r hr).1 hkey]
      exact List.mem_map_of_mem hr
    rw [TreeTable.reparent_eq_self hnone]
    exact hT

namespace Trees

open MetaQuery.Action

theorem moveBelow_steady (model key target : String) (m : Model) (above : List Record) :
    (moveBelow model key target m above).Steady := by
  unfold moveBelow
  split
  · exact steady_throw _
  · exact Rows.patch_steady _ _ _

theorem moveIn_steady (model key target : String) (m : Model) :
    (moveIn model key target m).Steady := by
  unfold moveIn
  split
  · exact steady_throw _
  · split
    · exact Rows.patch_steady _ _ _
    · exact (path_steady model target).bind (moveBelow_steady model key target m)

/-- The way up from a key was read in a session that loads the model, and it does not pass another
    key. -/
def WayPast (model : String) (m : Model) (answer : String → List Cell → Reply) (key target : String)
    (log : List Event) : Prop :=
  ∃ (s t : Session) (above : List Record), (treeModel model).Finds m answer s ∧
    (Metadata.model model).Finds m answer s ∧ (path model target).exec s = (.ok above, t) ∧
    t.events = s.events ++ log ∧ ∀ row ∈ above, keyText (row.get? m.key) ≠ key

theorem WayPast.not_above {model : String} {m : Model} {answer : String → List Cell → Reply}
    {key target : String} {log : List Event} (h : WayPast model m answer key target log)
    {T : TreeTable} (hforest : T.IsForest) (hroots : ∀ x ∈ T.texts, isRootKey x = false)
    (hgives : ∀ ev ∈ log, ev.Gives answer) (hreads : ReadsFrom m T log) (hkey : key ∈ T.texts) :
    ¬ ReflTransGen T.Link target key := by
  obtain ⟨s, t, above, htree, hload, hrun, hlog, hpast⟩ := h
  intro hpath
  obtain ⟨row, hrow, hfound⟩ :=
    path_passes hforest hroots hkey hpath htree hload hrun hlog hgives hreads
  exact hpast row hrow hfound

/-- A move that succeeds has loaded its model and has gone on with it. -/
theorem moveIn_of_move {model key target : String} {m : Model}
    {answer : String → List Cell → Reply} {s t : Session} {log : List Event}
    (hm : ((treeModel model).exec s).1 = .ok m)
    (hrun : (move model key target).exec s = (.ok (), t))
    (hlog : t.events = s.events ++ log) (hgives : ∀ ev ∈ log, ev.Gives answer) :
    ∃ first rest, ∃ u : Session, log = first ++ rest ∧ (∀ ev ∈ first, Quiet ev) ∧
      (treeModel model).Finds m answer u ∧ (Metadata.model model).Finds m answer u ∧
      (moveIn model key target m).exec u = (.ok (), t) ∧ t.events = u.events ++ rest := by
  rcases hload : (treeModel model).exec s with ⟨r, u⟩
  rw [hload] at hm
  obtain rfl : r = .ok m := hm
  rw [move_eq] at hrun
  obtain ⟨first, rest, rfl, hquiet, htree, hmodel, hrest⟩ :=
    behind_treeModel (moveIn_steady model key target) hload (by rw [hrun, hlog]) hgives
  rw [exec_bind_of_ok hload] at hrun
  rw [hrun] at hrest
  exact ⟨first, rest, u, rfl, hquiet, htree, hmodel, hrun, hrest⟩

/-- With its model known, a move that succeeds has looked at the way up from the new parent, unless
    that is the root, and then it has changed the row. -/
theorem patched_of_moveIn {model key target : String} {m : Model}
    {answer : String → List Cell → Reply} {s t : Session} {log : List Event}
    (htree : (treeModel model).Finds m answer s) (hload : (Metadata.model model).Finds m answer s)
    (hrun : (moveIn model key target m).exec s = (.ok (), t))
    (hlog : t.events = s.events ++ log) :
    ∃ parent read rest, ∃ u : Session, log = read ++ rest ∧ (∀ ev ∈ read, Quiet ev) ∧
      (Metadata.model model).Finds m answer u ∧
      (Rows.patch model (.text key) (Record.empty.set m.entry.parentField (.text parent))).exec u =
        (.ok (), t) ∧ t.events = u.events ++ rest ∧
      (isRootKey target = true ∧ parent = rootKey ∨
        isRootKey target = false ∧ parent = target ∧ WayPast model m answer key target read) := by
  rw [moveIn] at hrun
  by_cases hself : key = target
  · rw [if_pos hself] at hrun
    cases hrun
  · rw [if_neg hself] at hrun
    by_cases hroot : isRootKey target = true
    · rw [if_pos hroot] at hrun
      exact ⟨rootKey, [], log, s, rfl, by simp, hload, hrun, hlog, .inl ⟨hroot, rfl⟩⟩
    · rw [if_neg hroot] at hrun
      obtain ⟨above, u, read, rest, hpath, hpatch, hsu, -, hu, ht, rfl⟩ :=
        (path_steady model target).split (moveBelow_steady model key target m) hrun hlog
      rw [moveBelow] at hpatch
      by_cases hbelow : (above.any fun row => keyText (row.get? m.key) == key) = true
      · rw [if_pos hbelow] at hpatch
        cases hpatch
      · rw [if_neg hbelow] at hpatch
        -- the way up from the target passes no row of this key
        have hpast : ∀ row ∈ above, keyText (row.get? m.key) ≠ key := by
          simpa using hbelow
        obtain ⟨hkind, -⟩ := Logs.of_run (path_quiet model target) hpath hu
        exact ⟨target, read, rest, u, rfl, hkind, hload.of_precedes hsu, hpatch, ht,
          .inr ⟨by simpa using hroot, rfl, s, u, above, htree, hload, hpath, hu, hpast⟩⟩

/-- **Moving a node keeps a forest a forest**, and a move that fails leaves the table as it is.
    The rows that are read must show the key of the row and that of its parent. -/
theorem move_keeps_forest {model key target : String} {m : Model} {T : TreeTable}
    {same : Cell → Cell → Bool} {answer : String → List Cell → Reply} {s : Session}
    {log : List Event} (hm : ((treeModel model).exec s).1 = .ok m)
    (hlog : ((move model key target).exec s).2.events = s.events ++ log)
    (hgives : ∀ ev ∈ log, ev.Gives answer) (hforest : T.IsForest)
    (hroots : ∀ x ∈ T.texts, isRootKey x = false)
    (hroot : isRootKey target = true → (m.boundParent (.text rootKey)).display ∉ T.texts)
    (htarget : isRootKey target = false → (m.boundParent (.text target)).display = target)
    (hsame : ∀ r ∈ T, same r.key (m.boundKey (.text key)) = true ↔ r.key.display = key)
    (hreads : ReadsFrom m T log) :
    ∃ T', tableAfter m same T log = some T' ∧ T'.IsForest ∧
      ∀ e, ((move model key target).exec s).1 = .error e → T' = T := by
  rcases hr : (move model key target).exec s with ⟨e | ⟨⟩, t⟩
  -- an error leaves nothing behind, so the table is the one from before
  · obtain ⟨log', hlog', hatomic⟩ := move_atomic model key target s
    obtain rfl := List.append_cancel_left (hlog'.symm.trans hlog)
    have hnothing := hatomic.of_error e (by rw [hr])
    exact ⟨T, hnothing.tableAfter m same T, hforest, fun _ _ => rfl⟩
  · rw [hr] at hlog
    obtain ⟨first, later, u, rfl, hfirst, htree, hload, hrun, ht⟩ :=
      moveIn_of_move hm hr hlog hgives
    obtain ⟨parent, read, rest, v, rfl, hread, hload', hpatch, ht', hparent⟩ :=
      patched_of_moveIn htree hload hrun ht
    have hreadSub : read ⊆ first ++ (read ++ rest) := fun ev hev => by simp [hev]
    have hrestSub : rest ⊆ first ++ (read ++ rest) := fun ev hev => by simp [hev]
    have hfree : key ∈ T.texts →
        ¬ ReflTransGen T.Link (m.boundParent (.text parent)).display key := by
      intro hkey
      rcases hparent with ⟨hroot', rfl⟩ | ⟨hnot, rfl, hway⟩
      · -- no row has the key of the root, so nothing is above it
        intro hpath
        rcases hpath.cases_head with heq | ⟨next, hlink, -⟩
        · exact hroot hroot' (heq ▸ hkey)
        · exact hroot hroot' hlink.mem_texts
      · rw [htarget hnot]
        exact hway.not_above hforest hroots (fun ev hev => hgives ev (hreadSub hev))
          (hreads.mono hreadSub) hkey
    have hafter := Rows.tableAfter_patch hload' hpatch ht'
      (fun ev hev => hgives ev (hrestSub hev)) same T
    rw [tableAfter_quiet_append hfirst, tableAfter_quiet_append hread]
    rcases hafter with hafter | hafter
    · exact ⟨T, hafter, hforest, nofun⟩
    · exact ⟨_, hafter, hforest.moved hsame hfree, nofun⟩

/-! ### A tree of teams -/

/-- A tree of teams, which may declare its key column or leave it out. -/
def teams (keyed : Bool) : Model where
  entry := {
    id := "team", code := "team", connection := "main", isTree := true, parentField := "parent" }
  tables := [{ id := "t", model := "team", name := "teams" }]
  fields :=
    (if keyed then
      [{ id := "k", model := "team", column := "id", type := "string", isKey := true }]
    else []) ++ [{ id := "p", model := "team", column := "parent", type := "string" }]
  dialect := .mysql

def teamRows : TreeTable := [
  ⟨.text "a", .text "0"⟩, ⟨.text "b", .text "a"⟩, ⟨.text "c", .text "0"⟩]

theorem teamRows_isForest : teamRows.IsForest :=
  TreeTable.isForest_of_rank (fun t => if t = "b" then 2 else if t = "0" then 0 else 1) (by decide)

/-- A session in which the teams are known, some replies are to come and something was asked. -/
def teamSession (keyed : Bool) (replies : List Reply) (events : List Event) : Session :=
  { sessionOf (teams keyed) replies with events := events }

theorem treeModel_teams (keyed : Bool) (replies : List Reply) (events : List Event) :
    (treeModel "team").exec (teamSession keyed replies events) =
      (.ok (teams keyed), teamSession keyed replies events) := by
  cases keyed with
  | false => rfl
  | true => rfl

def teamSelect (keyed : Bool) : Select :=
  { Select.all .mysql (.ofText "`teams`") with
    columns := (teams keyed).fields.map fun f => f.projection .mysql }

def teamQuery (keyed : Bool) (key : String) : Select :=
  { teamSelect keyed with required := [(Fragment.ofText "`teams`.`id` = ").putArg (.text key)] }

theorem compile_teams (keyed : Bool) : (teams keyed).compile [] = .ok (teamSelect keyed) :=
  Model.compile_of_no_joins rfl rfl rfl rfl

theorem keyQuery_teams (keyed : Bool) (key : String) :
    Rows.keyQuery (teams keyed) (.text key) = .ok (teamQuery keyed key) := by
  cases keyed with
  | false => exact Rows.keyQuery_of_compile (compile_teams false) (by decide) rfl
  | true => exact Rows.keyQuery_of_compile (compile_teams true) (by decide) rfl

theorem args_teamQuery (keyed : Bool) (key : String) :
    (teamQuery keyed key).statement.args = [.text key] := by
  rw [Select.statement_eq]
  simp [teamQuery, teamSelect, Select.arguments, Select.all, Cell.isNull]

/-- The row of a team, read by its key. -/
def teamRead (keyed : Bool) (key : String) (row : SourceRow) : Event :=
  .executed (.data "main") false (teamQuery keyed key).statement.text
    (teamQuery keyed key).statement.args (.rows [row] 0)

theorem exec_get?_teams (keyed : Bool) (key : String) (row : SourceRow) (replies : List Reply)
    (events : List Event) :
    (Rows.get? "team" (.text key)).exec (teamSession keyed (.rows [row] 0 :: replies) events) =
      (.ok (some row.record), teamSession keyed replies (events ++ [teamRead keyed key row])) := by
  have hopen : (teamSession keyed (.rows [row] 0 :: replies) events).opened.contains
      (teams keyed).connection = true := rfl
  have hreply : (teamSession keyed (.rows [row] 0 :: replies) events).answers.next.1 =
      .rows [row] 0 := rfl
  exact Rows.exec_get? (model_of_treeModel (treeModel_teams keyed _ _)) hopen
    (keyQuery_teams keyed key) hreply

section Replies

variable {keyed : Bool} {lower upper : SourceRow}

theorem path_teams (hlower : keyText (lower.record.get? "parent") = "a")
    (hupper : keyText (upper.record.get? "parent") = "0") :
    (path "team" "b").exec (teamSession keyed [.rows [lower] 0, .rows [upper] 0] []) =
      (.ok [upper.record, lower.record],
        teamSession keyed [] [teamRead keyed "b" lower, teamRead keyed "a" upper]) := by
  have hclimb : (climb "team" "parent" 3 [] "b" []).exec
      (teamSession keyed [.rows [lower] 0, .rows [upper] 0] []) =
      (.ok [upper.record, lower.record],
        teamSession keyed [] [teamRead keyed "b" lower, teamRead keyed "a" upper]) := by
    -- two rows up, then the virtual root
    rw [climb_eq 2 (by decide), exec_bind_of_ok (exec_get?_teams keyed "b" lower _ _), climbOver,
      hlower, climb_eq 1 (by decide), exec_bind_of_ok (exec_get?_teams keyed "a" upper _ _),
      climbOver, hupper, climb_stop 0 (by decide)]
    rfl
  have hstate : (get : Action Session).exec
      (teamSession keyed [.rows [lower] 0, .rows [upper] 0] []) = (.ok _, _) := rfl
  rw [path, exec_bind_of_ok (treeModel_teams keyed _ _)]
  dsimp only
  rw [exec_bind_of_ok hstate]
  exact hclimb

def teamMove (key target : String) : Event :=
  .executed (.data "main") false "UPDATE `teams` SET `parent` = ? WHERE `id` = ?"
    [.text target, .text key] (.rows [] 0)

/-- A move of a team under the second one, when neither row on the way up shows its key. -/
theorem move_teams {key : String} (hkey : key ≠ "b")
    (hlower : keyText (lower.record.get? "parent") = "a")
    (hupper : keyText (upper.record.get? "parent") = "0")
    (hlowerKey : keyText (lower.record.get? "id") ≠ key)
    (hupperKey : keyText (upper.record.get? "id") ≠ key) :
    (move "team" key "b").exec (teamSession keyed [.rows [lower] 0, .rows [upper] 0] []) =
      (.ok (), teamSession keyed []
        [teamRead keyed "b" lower, teamRead keyed "a" upper, teamMove key "b"]) := by
  -- neither row of the path has the moved key
  have hnone : ¬ ([upper.record, lower.record].any fun row =>
      keyText (row.get? (teams keyed).key) == key) = true := by
    have hcolumn : (teams keyed).key = "id" := by
      cases keyed with
      | false => rfl
      | true => rfl
    simp [hcolumn, hlowerKey, hupperKey]
  rw [move_eq, exec_bind_of_ok (treeModel_teams keyed _ _), moveIn, if_neg hkey,
    if_neg (by decide), exec_bind_of_ok (path_teams hlower hupper), moveBelow, if_neg hnone]
  cases keyed with
  | false => rfl
  | true => rfl

end Replies

/-- What a move of the first team under the second one does where the key column is not declared,
    so that the rows lack it. -/
def keylessMove : List Event := [
  teamRead false "b" [("parent", .text "a")],
  teamRead false "a" [("parent", .text "0")],
  teamMove "a" "b"]

def keylessReplies : List Reply :=
  [.rows [[("parent", .text "a")]] 0, .rows [[("parent", .text "0")]] 0]

/-- Where the key column is not declared, a team can be moved under the team below it. -/
theorem teams_move_makes_cycle :
    teamRows.IsForest ∧
    ((move "team" "a" "b").exec (teamSession false keylessReplies [])).1 = .ok () ∧
    ((move "team" "a" "b").exec (teamSession false keylessReplies [])).2.events = keylessMove ∧
    ∃ T, tableAfter (teams false) sameText teamRows keylessMove = some T ∧ ¬ T.IsForest := by
  have hrun : (move "team" "a" "b").exec (teamSession false keylessReplies []) =
      (.ok (), teamSession false [] keylessMove) :=
    move_teams (by decide) rfl rfl (by decide) (by decide)
  have hafter : tableAfter (teams false) sameText teamRows keylessMove =
      some [⟨.text "a", .text "b"⟩, ⟨.text "b", .text "a"⟩, ⟨.text "c", .text "0"⟩] := by
    decide +kernel
  refine ⟨teamRows_isForest, by rw [hrun], by rw [hrun]; rfl, _, hafter, ?_⟩
  intro hforest
  refine hforest ⟨.text "a", .text "b"⟩ (by decide) ?_
  exact .head ⟨⟨.text "a", .text "b"⟩, by decide, rfl, by decide⟩
    (.single ⟨⟨.text "b", .text "a"⟩, by decide, rfl, by decide⟩)

/-- What a move of the third team under the second one does where the rows have their keys. -/
def keyedMove : List Event := [
  teamRead true "b" [("id", .text "b"), ("parent", .text "a")],
  teamRead true "a" [("id", .text "a"), ("parent", .text "0")],
  teamMove "c" "b"]

def keyedReplies : List Reply :=
  [.rows [[("id", .text "b"), ("parent", .text "a")]] 0,
   .rows [[("id", .text "a"), ("parent", .text "0")]] 0]

theorem keyedMove_reads : ReadsFrom (teams true) teamRows keyedMove := by
  intro r hr q rows affected hq hmem
  rw [keyQuery_teams] at hq
  obtain rfl := Except.ok.inj hq
  -- the argument of a query tells which of the two reads it is
  simp only [keyedMove, teamRead, teamMove, args_teamQuery, List.mem_cons, Event.executed.injEq,
    List.cons.injEq, Cell.text.injEq, Reply.rows.injEq, List.not_mem_nil, or_false, and_true,
    reduceCtorEq, false_and, and_false] at hmem
  have hshows : ∀ r ∈ teamRows, (r.key.display = "b" → r.parent.display = "a") ∧
      (r.key.display = "a" → r.parent.display = "0") := by decide
  rcases hmem with ⟨-, -, -, hkey, rfl, -⟩ | ⟨-, -, -, hkey, rfl, -⟩
  · rw [hkey, (hshows r hr).1 hkey]
    exact ⟨_, rfl, rfl, rfl⟩
  · rw [hkey, (hshows r hr).2 hkey]
    exact ⟨_, rfl, rfl, rfl⟩

theorem teams_move_keeps_forest :
    ∃ T, tableAfter (teams true) sameText teamRows keyedMove = some T ∧ T.IsForest := by
  have hm : ((treeModel "team").exec (teamSession true keyedReplies [])).1 = .ok (teams true) := rfl
  have hrun : (move "team" "c" "b").exec (teamSession true keyedReplies []) =
      (.ok (), teamSession true [] keyedMove) :=
    move_teams (by decide) rfl rfl (by decide) (by decide)
  have hlog : ((move "team" "c" "b").exec (teamSession true keyedReplies [])).2.events =
      [] ++ keyedMove := by
    rw [hrun]
    rfl
  have hgives : ∀ ev ∈ keyedMove, ev.Gives fun _ _ => .rows [] 0 := by
    simp [keyedMove, teamRead, teamMove, Event.Gives]
  have hsame : ∀ r ∈ teamRows, sameText r.key ((teams true).boundKey (.text "c")) = true ↔
      r.key.display = "c" := by
    decide
  -- the guards read the path to "b" from this very table
  obtain ⟨T, hafter, hforest, -⟩ := move_keeps_forest hm hlog hgives teamRows_isForest (by decide)
    (by decide) (fun _ => rfl) hsame keyedMove_reads
  exact ⟨T, hafter, hforest⟩

end Trees

end MetaQuery
