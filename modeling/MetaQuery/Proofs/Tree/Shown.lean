/-
  MetaQuery/Proofs/Tree/Shown.lean
  ================================
  The whole forest is shown.

  A forest is built from the rows as they come back, by the names of the key column and of the
  parent column.  When both columns come back under their own names, every row stands where it
  stands in the table, so a table whose rows are all reached is shown as a whole: each row once,
  under its parent (`forest_shows_all`).  A field that gives the parent column another name hides
  it.  Then all rows are taken for roots, and none is nested (`aliased_teams_not_nested`).
-/
import MetaQuery.Proofs.Query.Fetching
import MetaQuery.Proofs.Session.Memory
import MetaQuery.Proofs.Tree.Orphans
import MetaQuery.Proofs.Tree.Whole

namespace MetaQuery

open MetaQuery.Action

/-! ### Reading a forest -/

/-- The record is what a row of the table comes back as. -/
def Model.Shows (m : Model) (q : Select) (row shown : Record) : Prop :=
  ∃ source, m.ComesAs q row source ∧ source.record = shown

theorem Model.Shows.keepsLink {m : Model} {params : Params} {q : Select} {row shown : Record}
    (h : m.Shows q row shown) (hq : m.compile params = .ok q) (hkey : m.ShowsColumn m.key)
    (hparent : m.ShowsColumn m.entry.parentField) :
    KeepsLink m.key m.entry.parentField row shown := by
  obtain ⟨source, hcomes, rfl⟩ := h
  exact ⟨hcomes.get?_eq hq hkey, hcomes.get?_eq hq hparent⟩

namespace Trees

variable {model : String} {m : Model} {q : Select} {s u : Session}
  {counted answered : List SourceRow} {a b : Nat} {more : List Reply}

/-- All goes well in the read of a forest up to its first query: the model of the tree is loaded,
    twice alike and without a default template, and its datasource is open. -/
def Prepared (model : String) (m : Model) (s u : Session) : Prop :=
  ∃ loaded again chosen, (treeModel model).exec s = (.ok m, loaded) ∧
    (Metadata.model model).exec loaded = (.ok m, again) ∧
    (Templates.default? model).exec again = (.ok none, chosen) ∧
    (Connection.ensureOpen m.connection).exec chosen = (.ok (), u)

/-- With its metadata in memory, only the datasource can be missing. -/
theorem prepared_of_memory {c : Catalog} (hstore : s.store = .memory c)
    (hm : c.model model = .ok m) (htree : m.entry.isTree = true)
    (hparent : m.entry.parentField ≠ "")
    (hdefault : (c.templatesOf model).find? (·.isDefault) = none)
    (hopens : (Connection.ensureOpen m.connection).exec s = (.ok (), u)) :
    Prepared model m s u := by
  have hmodel : (Metadata.model model).exec s = (.ok m, s) := by
    rw [Metadata.model_recalls c model s hstore, hm]
  have htreeModel : (treeModel model).exec s = (.ok m, s) := by
    rw [treeModel, exec_bind_of_ok hmodel, if_neg (by simp [htree, hparent])]
    rfl
  have hnone : (Templates.default? model).exec s = (.ok none, s) := by
    rw [Templates.exec_default?_of_memory hstore, hdefault]
  exact ⟨s, s, s, htreeModel, hmodel, hnone, hopens⟩

/-- As many rows as a forest is built from at most. -/
def rowCeiling (settings : Settings) : UInt64 := min settings.treePageSize settings.maxPageSize

/-- The forest is that of the rows that answer the query. -/
theorem exec_forest (hprepared : Prepared model m s u)
    (hq : m.select (sizeParams (rowCeiling s.settings)) = .ok q)
    (hreplies : u.answers.replies = .rows counted a :: .rows answered b :: more) :
    ∃ t, (forest model).exec s =
      (.ok (MetaQuery.forest m.key m.entry.parentField (answered.map (·.record))), t) := by
  obtain ⟨loaded, again, chosen, htree, hmodel, hdefault, hopens⟩ := hprepared
  have hloaded := (treeModel_consults model).steady.settings_eq htree
  have hagain := (Metadata.model_consults model).steady.settings_eq hmodel
  have hchosen := (Templates.default?_consults model).steady.settings_eq hdefault
  have hquery : Rows.listQuery chosen.settings
      { pageSize := some loaded.settings.treePageSize } m = .ok q := by
    rw [hchosen, hagain, hloaded]
    exact hq
  -- no default template: the model is listed as it is
  have htemplate := Templates.exec_applyChosen_of_no_default hdefault m
  obtain ⟨t, hlist⟩ := Rows.exec_list_of_replies (Rows.exec_prepare hmodel htemplate hquery) hopens
    hreplies
  have hceiling : ceiling.exec loaded =
      (.ok { pageSize := some loaded.settings.treePageSize }, loaded) := rfl
  refine ⟨t, ?_⟩
  rw [forest, exec_bind_of_ok htree, exec_bind_of_ok hceiling, exec_bind_of_ok hlist,
    Page.rows_of]
  rfl

/-- **The whole forest is shown.**  Where the key column and the parent column come back under their
    own names, and the model begins with its first page, a forest shows each row of its table once,
    under its parent. -/
theorem forest_shows_all {holds : Fragment → Record → Bool} {table : List Record}
    (hprepared : Prepared model m s u)
    (hreplies : u.answers.replies = .rows counted a :: .rows answered b :: more)
    (hq : m.select (sizeParams (rowCeiling s.settings)) = .ok q)
    (hconditions : m.conditions = []) (hempty : ∀ row, holds .empty row = true)
    (hfetched : m.Fetches holds q table answered)
    (hsize : table.length ≤ (rowCeiling s.settings).toNat)
    (hforest : ∀ row ∈ table, Reached m.key m.entry.parentField table row)
    (hfirst : m.BeginsFirst) (hkey : m.ShowsColumn m.key)
    (hparent : m.ShowsColumn m.entry.parentField) :
    ∃ nodes t trees, (forest model).exec s = (.ok nodes, t) ∧ (rowsOf trees).Perm table ∧
      AllNested m.key m.entry.parentField rootKey trees ∧ AllAlike (m.Shows q) trees nodes := by
  have hcompiled := (Model.select_eq_ok_iff.1 hq).1
  obtain ⟨found, hperm, hcomes⟩ := hfetched.all hempty hconditions hfirst hcompiled hsize
  obtain ⟨t, hrun⟩ := exec_forest hprepared hq hreplies
  have hshown : List.Forall₂ (m.Shows q) found (answered.map (·.record)) :=
    List.forall₂_map_right_iff.2 (hcomes.imp fun row source h => ⟨source, h, rfl⟩)
  have hreached : ∀ row ∈ found, Reached m.key m.entry.parentField found row :=
    fun row hrow => (hforest row (hperm.subset hrow)).mono hperm.symm.subset
  refine ⟨_, t, MetaQuery.forest m.key m.entry.parentField found, hrun,
    (rowsOf_forest_perm hreached).trans hperm, forest_nested _ _ _, ?_⟩
  exact forest_alike (fun row shown h => h.keepsLink hcompiled hkey hparent) hshown

/-! ### Teams under another name -/

def parentName (hidden : Bool) : String := if hidden then "under" else "parent"

/-- The teams, where the field of their parents may have a name of its own. -/
def shownTeams (hidden : Bool) : Model :=
  { teams true with fields := [
      { id := "k", model := "team", column := "id", type := "string", isKey := true },
      { id := "p", model := "team", column := "parent", type := "string",
        shownAs := if hidden then "under" else "" }] }

def shownListing (hidden : Bool) : Select :=
  { Select.all .mysql (.ofText "`teams`") with
    columns := (shownTeams hidden).fields.map (·.projection .mysql)
    window := some ⟨10000, 0⟩ }

/-- The answer to the query: the second team is under the first one. -/
def shownAnswer (hidden : Bool) : List SourceRow := [
  [("id", .text "a"), (parentName hidden, .text "0")],
  [("id", .text "b"), (parentName hidden, .text "a")],
  [("id", .text "c"), (parentName hidden, .text "0")]]

def shownSession (hidden : Bool) : Session :=
  sessionOf (shownTeams hidden) [.rows [] 0, .rows (shownAnswer hidden) 0]

theorem prepared_shownTeams (hidden : Bool) :
    Prepared "team" (shownTeams hidden) (shownSession hidden) (shownSession hidden) := by
  refine prepared_of_memory rfl ?_ rfl (by decide +revert) rfl (Connection.exec_ensureOpen rfl)
  cases hidden with
  | false => rfl
  | true => rfl

theorem select_shownTeams (hidden : Bool) :
    (shownTeams hidden).select (sizeParams (rowCeiling (shownSession hidden).settings)) =
      .ok (shownListing hidden) := by
  have htarget : (shownTeams hidden).target = .ok "`teams`" := rfl
  have hwindow : (shownTeams hidden).window
      (sizeParams (rowCeiling (shownSession hidden).settings)) = .ok (some ⟨10000, 0⟩) := by
    decide +revert
  have hsafe : Raw.checkSafe (shownListing hidden).statement.text = .ok () := by
    cases hidden with
    | false => decide
    | true => decide
  exact Model.select_eq_ok_iff.2 ⟨Model.compile_of_no_joins rfl rfl htarget hwindow, hsafe⟩

theorem comesAs_team (hidden : Bool) (key parent : String) :
    (shownTeams hidden).ComesAs (shownListing hidden)
      ⟨[("id", .text key), ("parent", .text parent)]⟩
      [("id", .text key), (parentName hidden, .text parent)] := by
  rw [Model.ComesAs, if_neg (by simp [shownListing, shownTeams])]
  refine .cons ⟨rfl, fun _ => rfl⟩ (.cons ⟨?_, fun _ => rfl⟩ .nil)
  cases hidden with
  | false => rfl
  | true => rfl

theorem fetches_shownTeams (hidden : Bool) :
    (shownTeams hidden).Fetches (fun _ _ => true) (shownListing hidden) (teamRecords "a" "0")
      (shownAnswer hidden) := by
  refine ⟨teamRecords "a" "0", .refl _, ?_⟩
  exact .cons (comesAs_team hidden _ _)
    (.cons (comesAs_team hidden _ _) (.cons (comesAs_team hidden _ _) .nil))

theorem reached_teams : ∀ row ∈ teamRecords "a" "0",
    Reached "id" "parent" (teamRecords "a" "0") row := by
  have hfirst : Reached "id" "parent" (teamRecords "a" "0")
      ⟨[("id", .text "a"), ("parent", .text "0")]⟩ := .top (by decide) (by decide)
  intro row hrow
  rcases List.mem_cons.1 hrow with rfl | hrow
  · exact hfirst
  · rcases List.mem_cons.1 hrow with rfl | hrow
    · exact .under hfirst (by decide) (by decide)
    · obtain rfl := List.mem_singleton.1 hrow
      exact .top (by decide) (by decide)

/-- Where the parents of teams come back under the name of their column, all teams are shown. -/
theorem teams_all_shown :
    ∃ nodes t trees, (forest "team").exec (shownSession false) = (.ok nodes, t) ∧
      (rowsOf trees).Perm (teamRecords "a" "0") ∧ AllNested "id" "parent" rootKey trees ∧
      AllAlike ((shownTeams false).Shows (shownListing false)) trees nodes := by
  have hown : ∀ f ∈ (shownTeams false).fields, (shownTeams false).IsOwnColumn f := by
    intro f hf
    exact ⟨by revert f; decide, by revert f; decide, .inl (by revert f; decide)⟩
  have hkey : (shownTeams false).ShowsColumn "id" :=
    .inr (.inr ⟨_, rfl, hown _ List.mem_cons_self, rfl⟩)
  have hparent : (shownTeams false).ShowsColumn "parent" :=
    .inr (.inr ⟨_, rfl, hown _ (List.mem_cons_of_mem _ List.mem_cons_self), rfl⟩)
  exact forest_shows_all (prepared_shownTeams false) rfl (select_shownTeams false) rfl
    (fun _ => rfl) (fetches_shownTeams false) (by decide) reached_teams nofun hkey hparent

/-- Where the parents of teams come back under another name, no team is under another one, though
    the second one names the first one as its parent. -/
theorem aliased_teams_not_nested :
    Prepared "team" (shownTeams true) (shownSession true) (shownSession true) ∧
    (shownTeams true).conditions = [] ∧
    (shownTeams true).select (sizeParams (rowCeiling (shownSession true).settings)) =
      .ok (shownListing true) ∧
    (shownSession true).answers.replies = [.rows [] 0, .rows (shownAnswer true) 0] ∧
    (shownTeams true).Fetches (fun _ _ => true) (shownListing true) (teamRecords "a" "0")
      (shownAnswer true) ∧
    (teamRecords "a" "0").length ≤ (rowCeiling (shownSession true).settings).toNat ∧
    (∀ row ∈ teamRecords "a" "0", Reached "id" "parent" (teamRecords "a" "0") row) ∧
    ∃ nodes t, (forest "team").exec (shownSession true) = (.ok nodes, t) ∧
      ¬ ∃ trees, (rowsOf trees).Perm (teamRecords "a" "0") ∧
        AllNested "id" "parent" rootKey trees ∧
        AllAlike ((shownTeams true).Shows (shownListing true)) trees nodes := by
  obtain ⟨t, hrun⟩ := exec_forest (prepared_shownTeams true) (select_shownTeams true) rfl
  refine ⟨prepared_shownTeams true, rfl, select_shownTeams true, rfl, fetches_shownTeams true,
    by decide, reached_teams, _, t, hrun, ?_⟩
  -- no record has the parent column, so all rows are taken for roots
  have hroots : ∀ r ∈ (shownAnswer true).map (·.record),
      parentKey (r.get? "parent") = rootKey := by decide
  rintro ⟨trees, hperm, hnested, halike⟩
  rw [show (shownTeams true).entry.parentField = "parent" from rfl, forest_of_roots hroots]
    at halike
  have hsecond := parentKey_of_leaves halike hnested ⟨[("id", .text "b"), ("parent", .text "a")]⟩
    (hperm.mem_iff.2 (by decide))
  exact absurd hsecond (by decide)

end Trees

end MetaQuery
