/-
  MetaQuery/Proofs/Tree/Orphans.lean
  ==================================
  Which rows a tree shows after a move.

  The climb from the new parent ends without a complaint where a row is missing, so a move accepts
  a parent that does not exist, or that hangs nowhere.  The row stays in its table then, but no
  forest reaches it any more, and with it all rows below it are lost.  So a move keeps what the
  tree shows just when the moved row was not shown, or the new parent is the root or is shown.
-/
import MetaQuery.Proofs.Tree.Rooted

open Relation

namespace MetaQuery

open MetaQuery.Action

/-! ### Reading a forest -/

theorem Page.rows_of (rows : List Record) (total : Int64) (window : Option Window) :
    (Page.of rows total window).rows = rows := by
  cases window with
  | none => rfl
  | some w =>
    rw [Page.of]
    split <;> rfl

/-- A list that succeeds ends with its query, whose answer is the page. -/
theorem Rows.answered_of_list {model : String} {r : ListRequest} {s t : Session} {page : Page}
    (h : (list model r).exec s = (.ok page, t)) :
    ∃ connection text args answered affected,
      t.events.getLast? = some (.executed (.data connection) false text args
        (.rows answered affected)) ∧ page.rows = answered.map (·.record) := by
  obtain ⟨⟨m, q⟩, u, -, hrest⟩ := ok_of_exec_bind h
  obtain ⟨total, v, -, hlast⟩ := ok_of_exec_bind hrest
  obtain ⟨records, w, hrun, hpure⟩ := ok_of_exec_bind hlast
  obtain ⟨hpage, rfl⟩ := Prod.mk.inj hpure
  obtain ⟨answered, affected, opening, x, -, -, -, -, rfl, rfl⟩ := Connection.answered_of_run hrun
  refine ⟨m.connection, q.statement.text, q.statement.args, answered, affected, by simp, ?_⟩
  rw [← Except.ok.inj hpage, Page.rows_of]

/-- The keys of the rows that some nodes hold. -/
def nodeKeys (keyField : String) (nodes : List Node) : List String :=
  (rowsOf nodes).map fun r => keyText (r.get? keyField)

namespace Trees

/-- The forest was read when the model was loaded and the table held the rows. -/
def ReadOff (model : String) (m : Model) (rows : List Record) (nodes : List Node) : Prop :=
  ∃ (s t : Session) (connection text : String) (args : List Cell) (answered : List SourceRow)
    (affected : Nat), ((treeModel model).exec s).1 = .ok m ∧
    (forest model).exec s = (.ok nodes, t) ∧
    t.events.getLast? = some (.executed (.data connection) false text args
      (.rows answered affected)) ∧
    (answered.map (·.record)).Perm rows

theorem ReadOff.exists_rows {model : String} {m : Model} {rows : List Record} {nodes : List Node}
    (h : ReadOff model m rows nodes) :
    ∃ found, found.Perm rows ∧ nodes = MetaQuery.forest m.key m.entry.parentField found := by
  obtain ⟨s, t, connection, text, args, answered, affected, hm, hrun, hevent, hperm⟩ := h
  obtain ⟨m', u, hload, hrest⟩ := ok_of_exec_bind hrun
  rw [hload] at hm
  obtain rfl : m' = m := Except.ok.inj hm
  obtain ⟨request, v, -, hlist⟩ := ok_of_exec_bind hrest
  obtain ⟨page, w, hpage, hpure⟩ := ok_of_exec_bind hlist
  obtain ⟨hnodes, rfl⟩ := Prod.mk.inj hpure
  obtain ⟨connection', text', args', answered', affected', hevent', hrows⟩ :=
    Rows.answered_of_list hpage
  -- the last statement sent is the listing's data statement, and its rows are the forest's
  rw [hevent] at hevent'
  obtain ⟨-, -, -, -, hreply⟩ := Event.executed.inj (Option.some.inj hevent')
  obtain ⟨rfl, -⟩ := Reply.rows.inj hreply
  exact ⟨_, hperm, by rw [← Except.ok.inj hnodes, hrows]⟩

/-- **A forest shows just the rooted keys.** -/
theorem ReadOff.mem_nodeKeys {model : String} {m : Model} {rows : List Record} {nodes : List Node}
    (h : ReadOff model m rows nodes) (hT : (m.treeTable rows).texts.Nodup) {text : String} :
    text ∈ nodeKeys m.key nodes ↔ (m.treeTable rows).Rooted text := by
  obtain ⟨found, hperm, rfl⟩ := h.exists_rows
  have htables : (m.treeTable found).Perm (m.treeTable rows) := hperm.map _
  have hnodup : (m.treeTable found).texts.Nodup := (htables.map _).nodup_iff.2 hT
  -- the database may answer in any order: what is rooted does not depend on it
  constructor
  · intro htext
    obtain ⟨r, hr, rfl⟩ := List.mem_map.1 htext
    exact (Model.rooted_of_reached (mem_rowsOf_forest.1 hr)).mono htables.subset
  · intro htext
    have hfound := htext.mono htables.symm.subset
    obtain ⟨r, hr, rfl⟩ := Model.mem_texts_treeTable.1 hfound.mem_texts
    have hreached := Model.reached_of_rooted hnodup hfound hr rfl
    exact List.mem_map.2 ⟨r, mem_rowsOf_forest.2 hreached, rfl⟩

/-! ### Moving a node -/

section Move

variable {model key target : String} {m : Model} {answer : String → List Cell → Reply}
  {log : List Event} {T rooted : TreeTable} {parent : Cell}

/-- Where the new parent is stored as it is named, either text says whether it is the root, or some
    key. -/
theorem root_or_iff (hstored : parentKey (some parent) = parentKey (some (.text target)))
    (P : String → Prop) :
    isRootKey parent.display = true ∨ P parent.display ↔ isRootKey target = true ∨ P target := by
  have hroot : isRootKey parent.display = true ↔ isRootKey target = true := by
    have hparent := parentKey_eq_rootKey_iff (v := some parent)
    rw [hstored] at hparent
    exact hparent.symm.trans parentKey_eq_rootKey_iff
  cases htarget : isRootKey target with
  | true => simp [hroot.2 htarget]
  | false =>
    have hsame : parent.display = target :=
      (parentKey_eq_iff (w := some (.text target)) htarget).1 hstored
    rw [hsame, htarget]

/-- The way up from the new parent does not pass the moved row, if that one was rooted. -/
theorem free_of_wayPast (hpart : T.IsRootedPart rooted) (hT : T.texts.Nodup)
    (hgives : ∀ ev ∈ log, ev.Gives answer) (hreads : ReadsFrom m T log)
    (hstored : parentKey (some parent) = parentKey (some (.text target)))
    (hway : isRootKey target = false →
      ∃ read, read ⊆ log ∧ WayPast model m answer key target read)
    (hkey : T.Rooted key) (hnot : isRootKey key = false) :
    ¬ ReflTransGen rooted.Link parent.display key := by
  intro hpath
  cases htarget : isRootKey target with
  | true =>
    have hroot : isRootKey parent.display = true := by
      rw [parentKey_of_root (some (.text target)) htarget] at hstored
      exact parentKey_eq_rootKey_iff.1 hstored
    rcases hpath.cases_head with rfl | ⟨next, hlink, -⟩
    · rw [hroot] at hnot
      cases hnot
    · rw [hpart.not_root hlink.mem_texts] at hroot
      cases hroot
  | false =>
    obtain ⟨read, hsub, hpast⟩ := hway htarget
    have hsame : parent.display = target :=
      (parentKey_eq_iff (w := some (.text target)) htarget).1 hstored
    obtain ⟨r, hr, rfl⟩ := List.mem_map.1 hkey.mem_texts
    have hrow : r ∈ rooted := (hpart r).2 ⟨hr, hnot, hkey⟩
    rw [hsame] at hpath
    -- the whole table may have cycles; the way up is judged in its rooted part, a forest
    refine hpast.not_above (hpart.isForest hT) (fun x hx => hpart.not_root hx)
      (fun ev hev => hgives ev (hsub hev)) ?_ (List.mem_map_of_mem hrow) hpath
    exact ReadsFrom.mono (fun r hr => hreads r ((hpart r).1 hr).1) hsub

/-- **What a move keeps of a tree.**  The moved row has the root or a row as its parent just when
    the move names one, and the tree shows all keys that it showed before just when the moved key
    was not among them, or it is put under the root or under a key that was shown. -/
theorem move_keeps_shown_iff {rows : List Record} {same : Cell → Cell → Bool} {s t : Session}
    (hm : ((treeModel model).exec s).1 = .ok m) (hcolumn : m.entry.parentField ≠ m.key)
    (hrun : (move model key target).exec s = (.ok (), t))
    (hlog : t.events = s.events ++ log) (hgives : ∀ ev ∈ log, ev.Gives answer)
    (hT : (m.treeTable rows).Keyed)
    (hsame : ∀ r ∈ m.treeTable rows,
      same r.key (m.boundKey (.text key)) = true ↔ r.key.display = key)
    (hstored : parentKey (some (m.boundParent (.text (parentKey (some (.text target)))))) =
      parentKey (some (.text target)))
    (hreads : ReadsFrom m (m.treeTable rows) log) :
    ∃ rows', rowsAfter m same rows log = some rows' ∧
      (m.treeTable rows').texts = (m.treeTable rows).texts ∧
      ((∀ r ∈ m.treeTable rows', r.key.display = key →
          isRootKey r.parent.display = true ∨ r.parent.display ∈ (m.treeTable rows').texts) ↔
        (key ∈ (m.treeTable rows).texts →
          isRootKey target = true ∨ target ∈ (m.treeTable rows).texts)) ∧
      ∀ before after, ReadOff model m rows before → ReadOff model m rows' after →
        ((∀ text ∈ nodeKeys m.key before, text ∈ nodeKeys m.key after) ↔
          (key ∈ nodeKeys m.key before →
            isRootKey target = true ∨ target ∈ nodeKeys m.key before)) := by
  obtain ⟨opening, rest, -, -, -, hway⟩ := reparents_of_move hm hrun hlog hgives
  obtain ⟨rooted, hpart⟩ := (m.treeTable rows).exists_rootedPart
  have hrows := rowsAfter_of_move hm hcolumn hrun hlog hgives same rows
  -- the rows after the move are those before with one parent written, so both sides are about it
  generalize m.boundParent (.text (parentKey (some (.text target)))) = parent at hrows hstored
  have htable := Model.treeTable_withParent same (m.boundKey (.text key)) parent hcolumn hT
  refine ⟨_, hrows, ?_, ?_, ?_⟩
  · rw [htable, TreeTable.texts_reparent]
  · rw [htable, TreeTable.texts_reparent, ← root_or_iff hstored (· ∈ (m.treeTable rows).texts)]
    constructor
    · intro hall hkey
      obtain ⟨r, hr, hmoved, hparent⟩ := TreeTable.exists_moved parent hsame hkey
      rw [← hparent]
      exact hall r hr hmoved
    · intro hparent r hr hkey
      rcases TreeTable.of_mem_reparent hsame hr with ⟨-, hmoved⟩ | ⟨hne, -⟩
      · rw [hmoved]
        refine hparent ?_
        rw [← TreeTable.texts_reparent, ← hkey]
        exact List.mem_map_of_mem hr
      · exact absurd hkey hne
  -- what a forest shows are the rooted keys of the rows it was read from
  · intro before after hbefore hafter
    have hnodup : (m.treeTable (rows.map
        (m.withParent same (m.boundKey (.text key)) parent))).texts.Nodup := by
      rw [htable, TreeTable.texts_reparent]
      exact hT.distinct
    simp only [hbefore.mem_nodeKeys hT.distinct, hafter.mem_nodeKeys hnodup, htable]
    rw [← root_or_iff hstored (m.treeTable rows).Rooted]
    exact TreeTable.rooted_reparent_iff hpart hsame
      (free_of_wayPast hpart hT.distinct hgives hreads hstored hway)

end Move

/-! ### Teams put under others -/

/-- The teams as they are kept, with the parents of the second and of the third one. -/
def teamRecords (second third : String) : List Record := [
  ⟨[("id", .text "a"), ("parent", .text "0")]⟩, ⟨[("id", .text "b"), ("parent", .text second)]⟩,
  ⟨[("id", .text "c"), ("parent", .text third)]⟩]

/-- The teams as they are answered. -/
def teamAnswer (second third : String) : List SourceRow := [
  [("id", .text "a"), ("parent", .text "0")], [("id", .text "b"), ("parent", .text second)],
  [("id", .text "c"), ("parent", .text third)]]

/-- The query for the whole tree of teams. -/
def teamListing : Select := { teamSelect true with window := some ⟨10000, 0⟩ }

theorem prepare_teams (replies : List Reply) :
    (Rows.prepare "team" { pageSize := some 10000 }).exec (teamSession true replies []) =
      (.ok (teams true, teamListing), teamSession true replies []) := by
  have hwindow : (teams true).window [("page_size", .int 10000)] = .ok (some ⟨10000, 0⟩) := by
    decide
  have htarget : (teams true).target = .ok "`teams`" := by decide
  have hcompiled : (teams true).compile [("page_size", .int 10000)] = .ok teamListing :=
    Model.compile_of_no_joins rfl rfl htarget hwindow
  have hquery : Rows.listQuery {} { pageSize := some 10000 } (teams true) = .ok teamListing :=
    Model.select_eq_ok_iff.2 ⟨hcompiled, by decide⟩
  exact Rows.exec_prepare rfl (Templates.exec_applyChosen_of_memory rfl rfl _) hquery

/-- The count and the rows of the tree of teams, answered. -/
def teamCounted : Event :=
  .executed (.data "main") false teamListing.countStatement.text teamListing.countStatement.args
    (.rows [] 0)

def teamListed (second third : String) : Event :=
  .executed (.data "main") false teamListing.statement.text teamListing.statement.args
    (.rows (teamAnswer second third) 0)

theorem exec_run_teams (st : Statement) (rows : List SourceRow) (replies : List Reply)
    (events : List Event) :
    (Connection.run "main" st).exec (teamSession true (.rows rows 0 :: replies) events) =
      (.ok (rows.map (·.record)), teamSession true replies
        (events ++ [.executed (.data "main") false st.text st.args (.rows rows 0)])) := by
  have hopen : (teamSession true (.rows rows 0 :: replies) events).opened.contains "main" = true :=
    rfl
  have hreply : (teamSession true (.rows rows 0 :: replies) events).answers.next.1 =
      .rows rows 0 := rfl
  exact Connection.exec_run hopen st hreply

theorem readOff_teams (second third : String) :
    ReadOff "team" (teams true) (teamRecords second third)
      (MetaQuery.forest "id" "parent" (teamRecords second third)) := by
  have hcount := exec_run_teams teamListing.countStatement [] [.rows (teamAnswer second third) 0] []
  have hrows := exec_run_teams teamListing.statement (teamAnswer second third) [] [teamCounted]
  -- a listing counts before it reads
  have hlist := Rows.exec_list (prepare_teams _) hcount hrows
  have hceiling : ∀ replies, ceiling.exec (teamSession true replies []) =
      (.ok { pageSize := some 10000 }, teamSession true replies []) := fun _ => rfl
  have hforest : (forest "team").exec
      (teamSession true [.rows [] 0, .rows (teamAnswer second third) 0] []) =
        (.ok (MetaQuery.forest "id" "parent" (teamRecords second third)),
          teamSession true [] [teamCounted, teamListed second third]) := by
    rw [forest, exec_bind_of_ok (treeModel_teams true _ []), exec_bind_of_ok (hceiling _),
      exec_bind_of_ok hlist]
    rfl
  exact ⟨_, _, "main", _, _, teamAnswer second third, 0, by rw [treeModel_teams], hforest, rfl,
    .refl _⟩

theorem second_team_rooted : teamRows.Rooted "b" :=
  .under (r := ⟨.text "b", .text "a"⟩) (by decide) (by decide)
    (.top (r := ⟨.text "a", .text "0"⟩) (by decide) (by decide))

/-- The third team is put under the second one, and all teams are shown as before. -/
theorem third_team_keeps_shown :
    rowsAfter (teams true) sameText (teamRecords "a" "0") keyedMove =
      some (teamRecords "a" "b") ∧
    ∀ text ∈ nodeKeys "id" (MetaQuery.forest "id" "parent" (teamRecords "a" "0")),
      text ∈ nodeKeys "id" (MetaQuery.forest "id" "parent" (teamRecords "a" "b")) := by
  have hrun : (move "team" "c" "b").exec (teamSession true keyedReplies []) =
      (.ok (), teamSession true [] keyedMove) :=
    move_teams (by decide) rfl rfl (by decide) (by decide)
  have hgives : ∀ ev ∈ keyedMove, ev.Gives fun _ _ => .rows [] 0 := by
    simp [keyedMove, teamRead, teamMove, Event.Gives]
  have hkeyed : ((teams true).treeTable (teamRecords "a" "0")).Keyed := ⟨by decide, by decide⟩
  have hafter : rowsAfter (teams true) sameText (teamRecords "a" "0") keyedMove =
      some (teamRecords "a" "b") := by
    decide +kernel
  have hsame : ∀ r ∈ (teams true).treeTable (teamRecords "a" "0"),
      sameText r.key ((teams true).boundKey (.text "c")) = true ↔ r.key.display = "c" := by
    decide
  obtain ⟨rows, hrows, -, -, hshown⟩ := move_keeps_shown_iff (by rw [treeModel_teams]) (by decide)
    hrun rfl hgives hkeyed hsame (by decide) keyedMove_reads
  obtain rfl := Option.some.inj (hafter.symm.trans hrows)
  -- the second team hangs from a root, and so does what is moved under it
  refine ⟨hafter, (hshown _ _ (readOff_teams "a" "0") (readOff_teams "a" "b")).2 fun _ => .inr ?_⟩
  exact ((readOff_teams "a" "0").mem_nodeKeys hkeyed.distinct).2 second_team_rooted

/-- The look at a team that is missing. -/
def missingRead : Event :=
  .executed (.data "main") false (teamQuery true "z").statement.text
    (teamQuery true "z").statement.args (.rows [] 0)

theorem move_under_missing :
    (move "team" "b" "z").exec (teamSession true [.rows [] 0] []) =
      (.ok (), teamSession true [] [missingRead, teamMove "b" "z"]) := by
  have hget : (Rows.get? "team" (.text "z")).exec (teamSession true [.rows [] 0] []) =
      (.ok none, teamSession true [] [missingRead]) := by
    have hload := model_of_treeModel (treeModel_teams true [.rows [] 0] [])
    have hreply : (teamSession true [.rows [] 0] []).answers.next.1 = .rows [] 0 := rfl
    exact Rows.exec_get? hload rfl (keyQuery_teams true "z") hreply
  have hpath : (path "team" "z").exec (teamSession true [.rows [] 0] []) =
      (.ok [], teamSession true [] [missingRead]) := by
    have hstate : (get : Action Session).exec (teamSession true [.rows [] 0] []) = (.ok _, _) := rfl
    rw [path, exec_bind_of_ok (treeModel_teams true _ _)]
    dsimp only
    rw [exec_bind_of_ok hstate]
    change (climb "team" "parent" 2 [] "z" []).exec _ = _
    -- the climb ends at the missing row
    rw [climb_eq 1 (by decide), exec_bind_of_ok hget]
    rfl
  rw [move_eq, exec_bind_of_ok (treeModel_teams true _ _), moveIn, if_neg (by decide),
    if_neg (by decide), exec_bind_of_ok hpath]
  rfl

/-- The second team is put under one that does not exist.  The move succeeds, the parent of the
    team is no root and no team, and the tree shows the team no more. -/
theorem team_lost_under_missing :
    ((teams true).treeTable (teamRecords "a" "0")).Keyed ∧
    ((move "team" "b" "z").exec (teamSession true [.rows [] 0] [])).1 = .ok () ∧
    ((move "team" "b" "z").exec (teamSession true [.rows [] 0] [])).2.events =
      [missingRead, teamMove "b" "z"] ∧
    rowsAfter (teams true) sameText (teamRecords "a" "0") [missingRead, teamMove "b" "z"] =
      some (teamRecords "z" "0") ∧
    isRootKey "z" = false ∧ "z" ∉ ((teams true).treeTable (teamRecords "z" "0")).texts ∧
    ∃ before after, ReadOff "team" (teams true) (teamRecords "a" "0") before ∧
      ReadOff "team" (teams true) (teamRecords "z" "0") after ∧
      "b" ∈ nodeKeys "id" before ∧ "b" ∉ nodeKeys "id" after := by
  have hkeyed : ((teams true).treeTable (teamRecords "a" "0")).Keyed := ⟨by decide, by decide⟩
  refine ⟨hkeyed, by rw [move_under_missing], by rw [move_under_missing]; rfl, by decide +kernel,
    by decide, by decide, _, _, readOff_teams "a" "0", readOff_teams "z" "0",
    ((readOff_teams "a" "0").mem_nodeKeys hkeyed.distinct).2 second_team_rooted, fun hshown => ?_⟩
  have hrooted := ((readOff_teams "z" "0").mem_nodeKeys (by decide)).1 hshown
  have hrow : ∀ r ∈ (teams true).treeTable (teamRecords "z" "0"), "b" = r.key.display →
      r.parent.display = "z" := by
    decide
  -- its parent is "z" now, which is neither a root key nor the key of a row
  generalize hx : "b" = x at hrooted
  cases hrooted with
  | top hr hroot =>
    rw [hrow _ hr hx] at hroot
    exact absurd hroot (by decide)
  | under hr _ hparent =>
    rw [hrow _ hr hx] at hparent
    exact absurd hparent.mem_texts (by decide)

end Trees

end MetaQuery
