/-
  MetaQuery/Proofs/Tree/Spelling.lean
  ===================================
  One key spelled in two ways.

  A move addresses its row by the key that its text is brought to, so `1`, `01` and `+1` change the
  same row where the key column is an integer one.  But what keeps a node from being moved under
  itself, or under a row below it, is a comparison of texts: with the text of the new parent, and
  with the texts that the rows on the way up show (`Bars`).  So two spellings of one key are
  treated alike, down to the last event, as long as neither is barred; and they are told apart just
  when one is barred and the other one, for the very same row, is accepted
  (`spellings_moved_alike`).
-/
import MetaQuery.Proofs.Tree.Moving

namespace MetaQuery

open MetaQuery.Action

/-! ### Equal keys -/

namespace Model

variable {m : Model} {key key' : Cell}

theorem update_eq_of_boundKey (h : m.boundKey key = m.boundKey key') (row : Record) :
    m.update key row = m.update key' row := by
  unfold boundKey at h
  simp only [update_eq, bindCell, h]

end Model

namespace Rows

theorem write_eq_of_boundKey {m : Model} {key key' : Cell} (h : m.boundKey key = m.boundKey key')
    (row : Record) : write m key row = write m key' row := by
  unfold write
  rw [Model.update_eq_of_boundKey h]

/-- A row is patched alike under equal keys. -/
theorem patch_alike {model : String} {m : Model} {answer : String → List Cell → Reply}
    {key key' : Cell} {row : Record} {s : Session} {log : List Event}
    (hload : (Metadata.model model).Finds m answer s) (hkey : m.boundKey key = m.boundKey key')
    (hlog : ((patch model key row).exec s).2.events = s.events ++ log)
    (hgives : ∀ ev ∈ log, ev.Gives answer) :
    (patch model key row).exec s = (patch model key' row).exec s := by
  have hsteady : ∀ m' : Model, (Action.ofRules (checkPartialRow · model m'.fields row) >>= fun _ =>
      write m' key row).Steady :=
    fun m' => (steady_ofRules _).bind fun _ => write_steady m' key row
  rcases hrun : (Metadata.model model).exec s with ⟨e | m', t⟩
  · rw [patch, patch, exec_bind_of_error hrun, exec_bind_of_error hrun]
  · have hprecedes := (Metadata.model_consults model).steady s
    rw [hrun] at hprecedes
    obtain ⟨first, hfirst⟩ := hprecedes.log
    obtain ⟨rest, rfl, -⟩ := log_behind hsteady hrun hfirst hlog
    -- the model is loaded anew, and it is the same one
    have hfound := hload s first rfl rfl (by rw [hrun, hfirst]) fun ev hev =>
      hgives ev (List.mem_append_left _ hev)
    rw [hrun] at hfound
    obtain rfl : m' = m := Except.ok.inj hfound
    rw [patch, patch, exec_bind_of_ok hrun, exec_bind_of_ok hrun, write_eq_of_boundKey hkey]

end Rows

namespace Trees

/-! ### What bars a move -/

/-- The text keeps the row from being moved: it is the text of the new parent, or a row on the way
    up from there shows it as its key. -/
def Bars (model : String) (m : Model) (key target : String) (t : Session) : Prop :=
  key = target ∨ isRootKey target = false ∧ ∃ above u,
    (path model target).exec t = (.ok above, u) ∧ ∃ row ∈ above, keyText (row.get? m.key) = key

/-- What a move does when nothing bars it. -/
def reparent (model key target : String) (m : Model) : Action Unit :=
  if isRootKey target = true then
    Rows.patch model (.text key) (Record.empty.set m.entry.parentField (.text rootKey))
  else path model target >>= fun _ =>
    Rows.patch model (.text key) (Record.empty.set m.entry.parentField (.text target))

section Moving

variable {model key target : String} {m : Model} {t : Session}

theorem moveIn_of_bars (h : Bars model m key target t) :
    ∃ flaw, ((moveIn model key target m).exec t).1 = .error (.invalid m.entry.parentField flaw) := by
  by_cases hself : key = target
  · refine ⟨.underItself, ?_⟩
    rw [moveIn, if_pos hself]
    rfl
  · obtain ⟨hroot, above, u, hpath, row, hrow, hshows⟩ := h.resolve_left hself
    have hbelow : (above.any fun row => keyText (row.get? m.key) == key) = true :=
      List.any_eq_true.2 ⟨row, hrow, by rw [hshows, beq_self_eq_true]⟩
    refine ⟨.underDescendant, ?_⟩
    rw [moveIn, if_neg hself, hroot, if_neg (by decide), exec_bind_of_ok hpath, moveBelow,
      if_pos hbelow]
    rfl

theorem moveIn_of_not_bars (h : ¬ Bars model m key target t) :
    (moveIn model key target m).exec t = (reparent model key target m).exec t := by
  have hself : key ≠ target := fun hself => h (.inl hself)
  rw [moveIn, if_neg hself, reparent]
  by_cases hroot : isRootKey target = true
  · rw [if_pos hroot, if_pos hroot]
  · rw [if_neg hroot, if_neg hroot]
    rcases hpath : (path model target).exec t with ⟨e | above, u⟩
    · rw [exec_bind_of_error hpath, exec_bind_of_error hpath]
    -- a row of the path that shows the key would bar the move
    · have hbelow : ¬ (above.any fun row => keyText (row.get? m.key) == key) = true := by
        intro hany
        obtain ⟨row, hrow, hshows⟩ := List.any_eq_true.1 hany
        exact h (.inr ⟨by simpa using hroot, above, u, hpath, row, hrow, by simpa using hshows⟩)
      rw [exec_bind_of_ok hpath, exec_bind_of_ok hpath, moveBelow, if_neg hbelow]

/-- Where nothing bars it, equal keys are moved alike. -/
theorem reparent_alike {answer : String → List Cell → Reply} {key' : String} {log : List Event}
    (hload : (Metadata.model model).Finds m answer t)
    (hkey : m.boundKey (.text key) = m.boundKey (.text key'))
    (hlog : ((reparent model key target m).exec t).2.events = t.events ++ log)
    (hgives : ∀ ev ∈ log, ev.Gives answer) :
    (reparent model key target m).exec t = (reparent model key' target m).exec t := by
  unfold reparent at hlog ⊢
  by_cases hroot : isRootKey target = true
  · rw [if_pos hroot] at hlog
    rw [if_pos hroot, if_pos hroot]
    exact Rows.patch_alike hload hkey hlog hgives
  · rw [if_neg hroot] at hlog
    rw [if_neg hroot, if_neg hroot]
    rcases hpath : (path model target).exec t with ⟨e | above, u⟩
    · rw [exec_bind_of_error hpath, exec_bind_of_error hpath]
    · have hprecedes := path_steady model target t
      rw [hpath] at hprecedes
      obtain ⟨first, hfirst⟩ := hprecedes.log
      -- the path is read before the key is used, so the two runs part only at the UPDATE
      obtain ⟨rest, rfl, hrest⟩ :=
        log_behind (fun _ => Rows.patch_steady _ _ _) hpath hfirst hlog
      rw [exec_bind_of_ok hpath, exec_bind_of_ok hpath]
      exact Rows.patch_alike (hload.of_precedes hprecedes) hkey hrest fun ev hev =>
        hgives ev (List.mem_append_right _ hev)

end Moving

/-- The move is carried out. -/
def Accepts (model key target : String) (s : Session) : Prop :=
  ((move model key target).exec s).1 = .ok ()

/-- A text that rows show as a key is not accepted for a row at or above the new parent. -/
theorem not_above_of_accepts {model key target : String} {m : Model} {T : TreeTable}
    {answer : String → List Cell → Reply} {s : Session} {log : List Event}
    (hm : ((treeModel model).exec s).1 = .ok m)
    (hlog : ((move model key target).exec s).2.events = s.events ++ log)
    (hgives : ∀ ev ∈ log, ev.Gives answer) (haccepts : Accepts model key target s)
    (htarget : isRootKey target = false) (hforest : T.IsForest)
    (hroots : ∀ x ∈ T.texts, isRootKey x = false) (hreads : ReadsFrom m T log)
    (hkey : key ∈ T.texts) : ¬ Relation.ReflTransGen T.Link target key := by
  rcases hrun : (move model key target).exec s with ⟨e | ⟨⟩, u⟩
  · rw [Accepts, hrun] at haccepts
    cases haccepts
  · rw [hrun] at hlog
    obtain ⟨first, later, v, rfl, -, htree, hload, hmove, hv⟩ :=
      moveIn_of_move hm hrun hlog hgives
    obtain ⟨parent, read, rest, w, rfl, -, -, -, -, hparent⟩ :=
      patched_of_moveIn htree hload hmove hv
    have hsub : read ⊆ first ++ (read ++ rest) := fun ev hev => by simp [hev]
    -- an accepted move has read the whole way up from the target, and no row of it shows the key
    rcases hparent with ⟨hroot, -⟩ | ⟨-, -, hway⟩
    · rw [hroot] at htarget
      cases htarget
    · exact hway.not_above hforest hroots (fun ev hev => hgives ev (hsub hev)) (hreads.mono hsub)
        hkey

/-- **Two spellings of one key are treated alike, unless one is barred and the other accepted.**
    A spelling that is barred is refused, and the move leaves nothing.  When neither is barred, the
    two moves are the same run.  Where rows are read from a forest, the text that a row shows as
    its key is not accepted for a move under the row itself or under a row below it. -/
theorem spellings_moved_alike {model key key' target : String} {m : Model}
    {answer : String → List Cell → Reply} {s t : Session} {log : List Event}
    (hm : (treeModel model).exec s = (.ok m, t))
    (hkey : m.boundKey (.text key) = m.boundKey (.text key'))
    (hlog : ((move model key target).exec s).2.events = s.events ++ log)
    (hgives : ∀ ev ∈ log, ev.Gives answer) :
    (∀ k, Bars model m k target t →
      (∃ flaw, ((move model k target).exec s).1 = .error (.invalid m.entry.parentField flaw)) ∧
      ∃ log', ((move model k target).exec s).2.events = s.events ++ log' ∧ LeavesNothing log') ∧
    (¬ Bars model m key target t → ¬ Bars model m key' target t →
      (move model key target).exec s = (move model key' target).exec s) ∧
    ((Accepts model key target s ↔ Accepts model key' target s) ↔
      ¬ (Accepts model key target s ∧ Bars model m key' target t) ∧
      ¬ (Accepts model key' target s ∧ Bars model m key target t)) ∧
    (Accepts model key target s → isRootKey target = false → ∀ T : TreeTable, T.IsForest →
      (∀ x ∈ T.texts, isRootKey x = false) → ReadsFrom m T log → key ∈ T.texts →
        ¬ Relation.ReflTransGen T.Link target key) := by
  -- loading the model does not depend on the spelling of the key
  have hmove : ∀ k, (move model k target).exec s = (moveIn model k target m).exec t := by
    intro k
    rw [move_eq, exec_bind_of_ok hm]
  have hrefused : ∀ k, Bars model m k target t →
      ∃ flaw, ((move model k target).exec s).1 = .error (.invalid m.entry.parentField flaw) := by
    intro k hbars
    rw [hmove]
    exact moveIn_of_bars hbars
  have hfree : ∀ k, Accepts model k target s → ¬ Bars model m k target t := by
    intro k haccepts hbars
    obtain ⟨flaw, hflaw⟩ := hrefused k hbars
    rw [Accepts, hflaw] at haccepts
    cases haccepts
  have habove := fun T : TreeTable =>
    not_above_of_accepts (T := T) (by rw [hm]) hlog hgives
  -- past the guards only the bound key is left of the spelling, and both bind the same
  have halike : ¬ Bars model m key target t → ¬ Bars model m key' target t →
      (move model key target).exec s = (move model key' target).exec s := by
    intro hbars hbars'
    rw [move_eq] at hlog
    obtain ⟨first, rest, rfl, -, -, hload, hrest⟩ :=
      behind_treeModel (moveIn_steady model key target) hm hlog hgives
    rw [moveIn_of_not_bars hbars] at hrest
    rw [hmove, hmove, moveIn_of_not_bars hbars, moveIn_of_not_bars hbars']
    exact reparent_alike hload hkey hrest fun ev hev => hgives ev (List.mem_append_right _ hev)
  refine ⟨fun k hbars => ⟨hrefused k hbars, ?_⟩, halike, ?_, fun haccepts htarget T =>
    habove T haccepts htarget⟩
  -- a refused move is an error, and errors leave nothing behind
  · obtain ⟨flaw, hflaw⟩ := hrefused k hbars
    obtain ⟨log', hlog', hatomic⟩ := move_atomic model k target s
    exact ⟨log', hlog', hatomic.of_error _ hflaw⟩
  · constructor
    -- one is accepted and the other not just when a guard bars the other one
    · intro hsame
      exact ⟨fun h => hfree key' (hsame.1 h.1) h.2, fun h => hfree key (hsame.2 h.1) h.2⟩
    · rintro ⟨hnot, hnot'⟩
      constructor
      · intro haccepts
        rw [Accepts, ← halike (hfree key haccepts) fun hbars => hnot ⟨haccepts, hbars⟩]
        exact haccepts
      · intro haccepts
        rw [Accepts, halike (fun hbars => hnot' ⟨haccepts, hbars⟩) (hfree key' haccepts)]
        exact haccepts

/-! ### A tree of sections -/

/-- A tree whose keys are integers. -/
def sections : Model where
  entry := {
    id := "sec", code := "sec", connection := "main", isTree := true, parentField := "parent" }
  tables := [{ id := "t", model := "sec", name := "sections" }]
  fields := [
    { id := "k", model := "sec", column := "id", type := "integer", isKey := true },
    { id := "p", model := "sec", column := "parent", type := "integer" }]
  dialect := .mysql

def sectionRows : TreeTable := [⟨.int 1, .int 0⟩, ⟨.int 3, .int 0⟩]

theorem sectionRows_isForest : sectionRows.IsForest :=
  TreeTable.isForest_of_rank (fun t => if t = "0" then 0 else 1) (by decide)

/-- A section under the root. -/
def sectionRow (key : Int64) : SourceRow := [("id", .integer key), ("parent", .integer 0)]

/-- A session in which a section under the root is to be read. -/
def sectionSession (key : Int64) : Session := sessionOf sections [.rows [sectionRow key] 0]

def sectionSelect : Select :=
  { Select.all .mysql (.ofText "`sections`") with columns := ["`id`", "`parent`"] }

def sectionQuery (key : Cell) : Select :=
  { sectionSelect with required := [(Fragment.ofText "`sections`.`id` = ").putArg key] }

theorem compile_sections : sections.compile [] = .ok sectionSelect :=
  Model.compile_of_no_joins rfl rfl rfl rfl

theorem keyQuery_sections (key : String) :
    Rows.keyQuery sections (.text key) = .ok (sectionQuery (sections.boundKey (.text key))) :=
  Rows.keyQuery_of_compile compile_sections (by decide) rfl

/-- A section under the root, read by its key. -/
def sectionRead (key : Int64) : Event :=
  .executed (.data "main") false (sectionQuery (.int key)).statement.text
    (sectionQuery (.int key)).statement.args (.rows [sectionRow key] 0)

/-- The state behind some events, when the replies are used up. -/
def sectionsAfter (events : List Event) : Session := { sessionOf sections [] with events := events }

theorem treeModel_sections (key : Int64) :
    (treeModel "sec").exec (sectionSession key) = (.ok sections, sectionSession key) := rfl

/-- The way up from a section under the root is that section. -/
theorem path_sections {key : Int64} {text : String}
    (htext : sections.boundKey (.text text) = .int key) (hroot : isRootKey text = false) :
    (path "sec" text).exec (sectionSession key) =
      (.ok [(sectionRow key).record], sectionsAfter [sectionRead key]) := by
  have hload := model_of_treeModel (treeModel_sections key)
  have hreply : (sectionSession key).answers.next.1 = .rows [sectionRow key] 0 := rfl
  have hopen : (sectionSession key).opened.contains sections.connection = true := rfl
  have hget := Rows.exec_get? hload hopen (keyQuery_sections text) hreply
  rw [htext] at hget
  -- the one row read is a root
  have hclimb : (climb "sec" "parent" 2 [] text []).exec (sectionSession key) =
      (.ok [(sectionRow key).record], sectionsAfter [sectionRead key]) := by
    rw [climb_eq 1 ⟨hroot, List.not_mem_nil⟩, exec_bind_of_ok hget]
    rfl
  have hstate : (get : Action Session).exec (sectionSession key) = (.ok _, _) := rfl
  rw [path, exec_bind_of_ok (treeModel_sections key)]
  dsimp only
  rw [exec_bind_of_ok hstate]
  exact hclimb

/-- A misspelled key is barred by nothing but its own text. -/
theorem not_bars_sections {key : Int64} {text target : String}
    (htarget : sections.boundKey (.text target) = .int key) (hroot : isRootKey target = false)
    (hself : text ≠ target) (hshown : (Cell.int key).display ≠ text) :
    ¬ Bars "sec" sections text target (sectionSession key) := by
  rintro (h | ⟨-, above, u, hpath, row, hrow, hshows⟩)
  · exact hself h
  · rw [path_sections htarget hroot] at hpath
    obtain ⟨habove, -⟩ := Prod.mk.inj hpath
    obtain rfl := Except.ok.inj habove
    rw [List.mem_singleton.1 hrow] at hshows
    exact hshown hshows

def sectionMove (key target : Int64) : Event :=
  .executed (.data "main") false "UPDATE `sections` SET `parent` = ? WHERE `id` = ?"
    [.int target, .int key] (.rows [] 0)

/-- The first section put under the third one, by a misspelled key. -/
theorem move_first_section : (move "sec" "01" "3").exec (sectionSession 3) =
    (.ok (), sectionsAfter [sectionRead 3, sectionMove 1 3]) := by
  have hfree : ¬ Bars "sec" sections "01" "3" (sectionSession 3) :=
    not_bars_sections (by decide) (by decide) (by decide) (by decide)
  rw [move_eq, exec_bind_of_ok (treeModel_sections 3), moveIn_of_not_bars hfree, reparent,
    if_neg (by decide), exec_bind_of_ok (path_sections (by decide) (by decide))]
  rfl

theorem sections_moved_alike :
    sections.boundKey (.text "01") = sections.boundKey (.text "+1") ∧
    (move "sec" "+1" "3").exec (sectionSession 3) =
      (.ok (), sectionsAfter [sectionRead 3, sectionMove 1 3]) := by
  have hkey : sections.boundKey (.text "01") = sections.boundKey (.text "+1") := by
    decide
  have hlog : ((move "sec" "01" "3").exec (sectionSession 3)).2.events =
      (sectionSession 3).events ++ [sectionRead 3, sectionMove 1 3] := by
    rw [move_first_section]
    rfl
  have hgives : ∀ ev ∈ [sectionRead 3, sectionMove 1 3],
      ev.Gives fun _ _ => .rows [] 0 := by
    simp [sectionRead, sectionMove, Event.Gives]
  have htarget : sections.boundKey (.text "3") = .int 3 := by decide
  obtain ⟨-, hsame, -, -⟩ := spellings_moved_alike (treeModel_sections 3) hkey hlog hgives
  refine ⟨hkey, ?_⟩
  rw [← hsame (not_bars_sections htarget (by decide) (by decide) (by decide))
    (not_bars_sections htarget (by decide) (by decide) (by decide))]
  exact move_first_section

/-- The first section, called `01`, is put under itself, which is refused when it is called `1`. -/
theorem misspelled_section_under_itself :
    sections.boundKey (.text "01") = sections.boundKey (.text "1") ∧ sectionRows.IsForest ∧
    ((move "sec" "1" "1").exec (sectionSession 1)).1 =
      .error (.invalid "parent" .underItself) ∧
    (move "sec" "01" "1").exec (sectionSession 1) =
      (.ok (), sectionsAfter [sectionRead 1, sectionMove 1 1]) ∧
    ∃ T, tableAfter sections sameText sectionRows [sectionRead 1, sectionMove 1 1] = some T ∧
      ¬ T.IsForest := by
  -- the guards compare texts, and "01" is not the text "1" the row shows
  have hfree : ¬ Bars "sec" sections "01" "1" (sectionSession 1) :=
    not_bars_sections (by decide) (by decide) (by decide) (by decide)
  have hrun : (move "sec" "01" "1").exec (sectionSession 1) =
      (.ok (), sectionsAfter [sectionRead 1, sectionMove 1 1]) := by
    rw [move_eq, exec_bind_of_ok (treeModel_sections 1), moveIn_of_not_bars hfree, reparent,
      if_neg (by decide), exec_bind_of_ok (path_sections (by decide) (by decide))]
    rfl
  have hafter : tableAfter sections sameText sectionRows [sectionRead 1, sectionMove 1 1] =
      some [⟨.int 1, .int 1⟩, ⟨.int 3, .int 0⟩] := by
    decide
  refine ⟨by decide, sectionRows_isForest, ?_, hrun, _, hafter, ?_⟩
  · rw [move_eq, exec_bind_of_ok (treeModel_sections 1), moveIn, if_pos rfl]
    rfl
  · intro hforest
    refine hforest ⟨.int 1, .int 1⟩ (by decide) ?_
    exact .single ⟨⟨.int 1, .int 1⟩, by decide, rfl, by decide⟩

end Trees

end MetaQuery
