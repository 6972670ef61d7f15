/-
  MetaQuery/Proofs/Tree/Ceiling.lean
  ==================================
  How many rows a tree is built from.

  A forest, and the rows under the root, are made of a list whose request asks for the ceiling of
  trees as its page size (`sent_of_fromRows`).  So the ceiling goes the way of all page sizes that
  are asked for: it is held at the greatest one, and the page that the model begins with decides
  which stretch of that size is taken.  A tree within its ceiling is built from all of its rows just
  when neither gets in the way (`ceiling_kept_iff`); otherwise rows are left out, and the rows under
  them with them (`three_boughs_cut`).
-/
import MetaQuery.Pattern.Reader
import MetaQuery.Proofs.Service.Pages
import MetaQuery.Proofs.Tree.Shown

namespace MetaQuery

open MetaQuery.Action

/-! ### Whole stretches -/

/-- A stretch leaves out none of so many rows just when it begins with the first row and takes as
    many. -/
theorem Select.stretch_eq_self_iff {q : Select} {w : Window} (hw : q.window = some w) {n : Nat}
    (hn : 0 < n) : (∀ rows : List Record, rows.length ≤ n → q.stretch rows = rows) ↔
      n ≤ w.limit.toNat ∧ w.offset = 0 := by
  have hstretch : ∀ rows, q.stretch rows = (rows.drop w.offset.toNat).take w.limit.toNat := by
    intro rows
    rw [stretch, hw]
  constructor
  · intro h
    -- of so many rows alike, each one that is left out is missed
    have hlength := congrArg List.length (h (List.replicate n Record.empty) (by simp))
    rw [hstretch, List.length_take, List.length_drop, List.length_replicate] at hlength
    rw [← UInt64.toNat_inj, UInt64.toNat_zero]
    omega
  · rintro ⟨hlimit, hoffset⟩ rows hrows
    rw [hstretch, hoffset]
    exact List.take_of_length_le (Nat.le_trans hrows hlimit)

/-- The number of the page that a model begins with. -/
def Model.ownPage (m : Model) : Nat := (m.limit.elim 0 (·.page)).toNat

namespace Trees

variable {model parent : String} {m : Model} {s : Session}

/-! ### Rows that trees are built from -/

/-- The request for as many rows as a tree may have under some settings. -/
def ceilingRequest (settings : Settings) : ListRequest where
  pageSize := some settings.treePageSize

/-- An answer made of the rows that a tree is built from. -/
def fromRows {α : Type} (model : String) (answer : Model → Page → α) : Action α := do
  let m ← treeModel model
  let page ← Rows.list model (← ceiling)
  return answer m page

theorem forest_eq_fromRows (model : String) :
    forest model =
      fromRows model fun m page => MetaQuery.forest m.key m.entry.parentField page.rows := rfl

theorem children_eq_fromRows (model : String) (hroot : isRootKey parent = true) :
    children model parent =
      fromRows model fun m page => rowsUnder m.entry.parentField page.rows rootKey := by
  unfold children
  rw [hroot]
  rfl

theorem ceiling_steady : ceiling.Steady := steady_get_bind fun _ => steady_pure _

/-- A read of the rows that a tree is built from sends what their list sends. -/
theorem sent_of_fromRows {α : Type} {answer : Model → Page → α} {x : Sent}
    (h : (fromRows model answer).Sends s x) :
    ∃ m t, (treeModel model).exec s = (.ok m, t) ∧ t.settings = s.settings ∧
      (Rows.list model (ceilingRequest s.settings)).Sends t x := by
  obtain ⟨m, t, htree, hrest⟩ := h.behind (treeModel_consults model).sendsNothing fun m =>
    ceiling_steady.bind fun r => (Rows.list_steady model r).bind fun _ => steady_pure _
  have hsettings := (treeModel_consults model).steady.settings_eq htree
  have hnothing : ceiling.SendsOnly fun _ => False := emits_get_bind fun _ => emits_pure _
  obtain ⟨r, u, hr, hrest⟩ := hrest.behind hnothing fun r =>
    (Rows.list_steady model r).bind fun _ => steady_pure _
  have hread : ceiling.exec t = (.ok (ceilingRequest t.settings), t) := rfl
  obtain ⟨hrequest, rfl⟩ := Prod.mk.inj (hread.symm.trans hr)
  obtain rfl := Except.ok.inj hrequest
  rw [hsettings] at hrest
  exact ⟨m, t, htree, hsettings, hrest.of_bind_pure⟩

theorem sends_fromRows {α : Type} {answer : Model → Page → α} {t : Session} {x : Sent}
    (hload : (treeModel model).exec s = (.ok m, t))
    (h : (Rows.list model (ceilingRequest t.settings)).Sends t x) :
    (fromRows model answer).Sends s x := by
  have hread : ceiling.exec t = (.ok (ceilingRequest t.settings), t) := rfl
  refine Sends.bind_right (treeModel_consults model).steady hload ?_
  exact Sends.bind_right ceiling_steady hread (h.bind_left fun _ => steady_pure _)

/-! ### The ceiling as a page size -/

/-- Nothing gets in the way of the ceiling: neither the greatest page size nor the page that the
    model begins with. -/
def KeepsCeiling (settings : Settings) (m : Model) : Prop :=
  settings.treePageSize ≤ settings.maxPageSize ∧ m.BeginsFirst

theorem beginsFirst_iff (m : Model) : m.BeginsFirst ↔ m.ownPage ≤ 1 := by
  rw [Model.BeginsFirst, Model.ownPage]
  cases m.limit with
  | none => simp
  | some l => simp [UInt64.le_iff_toNat_le]

section Positive

variable {settings : Settings} (htree : 0 < settings.treePageSize)
include htree

theorem ceilingRequest_wellFormed : (ceilingRequest settings).WellFormed :=
  ⟨nofun, fun _ hn => Option.some.inj hn ▸ htree, fun _ _ => rfl⟩

variable (hmax : 0 < settings.maxPageSize)
include hmax

theorem rowCeiling_pos : 0 < rowCeiling settings := pos_min htree hmax

theorem sizeOf_ceilingRequest (m : Model) :
    (ceilingRequest settings).sizeOf settings m = rowCeiling settings :=
  ListRequest.sizeOf_of_chosen rfl (rowCeiling_pos htree hmax)

/-- The stretch of a model that a tree is built from. -/
theorem window_of_ceiling (m : Model) :
    m.window ((ceilingRequest settings).compileParams settings m) =
      windowOf (m.limit.elim 0 (·.page)) (rowCeiling settings) := by
  rw [ListRequest.window_compileParams (ceilingRequest_wellFormed htree),
    sizeOf_ceilingRequest htree hmax]
  rfl

theorem takes_of_ceiling {window : Option Window}
    (h : windowOf (m.limit.elim 0 (·.page)) (rowCeiling settings) = .ok window) :
    ∃ w, window = some w ∧ w.Takes (rowCeiling settings).toNat (max m.ownPage 1) := by
  obtain ⟨w, hw, htakes, -⟩ :=
    takes_of_windowOf (UInt64.pos_iff_ne_zero.1 (rowCeiling_pos htree hmax)) h
  exact ⟨w, hw, htakes⟩

/-- A stretch that trees are built from is whole, up to the ceiling, just when nothing gets in the
    way. -/
theorem whole_iff_keepsCeiling {w : Window}
    (h : w.Takes (rowCeiling settings).toNat (max m.ownPage 1)) :
    settings.treePageSize.toNat ≤ w.limit.toNat ∧ w.offset = 0 ↔ KeepsCeiling settings m := by
  have hpos := UInt64.lt_iff_toNat_lt.1 (rowCeiling_pos htree hmax)
  rw [KeepsCeiling, beginsFirst_iff, UInt64.le_iff_toNat_le, ← UInt64.toNat_inj, h.offset, h.limit,
    UInt64.toNat_zero, Nat.mul_eq_zero, rowCeiling, UInt64.toNat_min]
  rw [rowCeiling, UInt64.toNat_min, UInt64.toNat_zero] at hpos
  omega

theorem eq_ceiling_iff_keepsCeiling {w : Window}
    (h : w.Takes (rowCeiling settings).toNat (max m.ownPage 1)) :
    w = ⟨settings.treePageSize, 0⟩ ↔ KeepsCeiling settings m := by
  rw [← whole_iff_keepsCeiling htree hmax h]
  constructor
  · rintro rfl
    exact ⟨Nat.le_refl _, rfl⟩
  · rintro ⟨hlimit, hoffset⟩
    have hle : w.limit.toNat ≤ settings.treePageSize.toNat := by
      rw [h.limit, rowCeiling, UInt64.toNat_min]
      exact Nat.min_le_left _ _
    rw [← UInt64.toNat_inj.1 (Nat.le_antisymm hle hlimit), ← hoffset]

/-- A model is compiled with the ceiling just when nothing gets in the way. -/
theorem exists_compile_iff_keepsCeiling (hrange : settings.treePageSize.toNat ≤ windowMax)
    (hsource : m.HasSource) :
    (∃ q, m.compile ((ceilingRequest settings).compileParams settings m) = .ok q ∧
      q.window = some ⟨settings.treePageSize, 0⟩) ↔ KeepsCeiling settings m := by
  obtain ⟨query, hquery, hcompile⟩ := Model.exists_compile hsource
    ((ceilingRequest settings).compileParams settings m)
  rw [hcompile, window_of_ceiling htree hmax]
  constructor
  · rintro ⟨q, hq, hwhole⟩
    cases hwindow : windowOf (m.limit.elim 0 (·.page)) (rowCeiling settings) with
    | error fault =>
      rw [hwindow] at hq
      cases hq
    | ok window =>
      rw [hwindow] at hq
      obtain rfl := Except.ok.inj hq
      obtain ⟨w, rfl, htakes⟩ := takes_of_ceiling htree hmax hwindow
      rw [hquery] at hwhole
      exact (eq_ceiling_iff_keepsCeiling htree hmax htakes).1 (Option.some.inj hwhole)
  · intro hkeeps
    have hfirst : m.ownPage ≤ 1 := (beginsFirst_iff m).1 hkeeps.2
    have hle : (rowCeiling settings).toNat ≤ windowMax := by
      rw [rowCeiling, UInt64.toNat_min]
      exact Nat.le_trans (Nat.min_le_left _ _) hrange
    -- on the first page nothing is left out in front, so only the size can be out of range
    have hin : InRange (rowCeiling settings).toNat (max m.ownPage 1) := by
      refine ⟨hle, ?_⟩
      rw [Nat.max_eq_right hfirst, Nat.sub_self, Nat.zero_mul]
      exact Nat.zero_le _
    obtain ⟨w, hwindow, htakes⟩ :=
      windowOf_of_inRange (UInt64.pos_iff_ne_zero.1 (rowCeiling_pos htree hmax)) hin
    rw [hwindow]
    refine ⟨_, rfl, ?_⟩
    rw [hquery, (eq_ceiling_iff_keepsCeiling htree hmax htakes).2 hkeeps]

end Positive

/-! ### Boughs -/

/-- A tree that begins with a page of five rows. -/
def boughs (page : UInt64) : Model where
  entry := {
    id := "bough", code := "bough", connection := "main", isTree := true, parentField := "parent" }
  tables := [{ id := "t", model := "bough", name := "boughs" }]
  fields := []
  dialect := .mysql
  limit := some { model := "bough", page := page, limit := 5 }

def boughSettings (ceiling greatest : UInt64) : Settings where
  treePageSize := ceiling
  maxPageSize := greatest

/-- The tree in a session with some settings, and a datasource that is open. -/
def boughSession (page : UInt64) (settings : Settings) : Session where
  store := .memory (boughs page).pagedCatalog
  rules := Pattern.read
  settings := settings
  opened := ["main"]
  idAt := fun _ => ""

/-- The query for a stretch of the tree. -/
def boughQuery (w : Window) : Select :=
  { Select.all .mysql (.ofText "`boughs`") with window := some w }

section Boughs

variable {page : UInt64} {settings : Settings} {w : Window}
  (hwindow : (boughs page).window
    ((ceilingRequest settings).compileParams settings (boughs page)) = .ok (some w))
include hwindow

theorem compile_boughs : (boughs page).compile
    ((ceilingRequest settings).compileParams settings (boughs page)) = .ok (boughQuery w) :=
  Model.compile_of_no_joins rfl rfl rfl hwindow

variable (hsafe : Raw.checkSafe (boughQuery w).statement.text = .ok ())
include hsafe

theorem prepare_boughs :
    (Rows.prepare "bough" (ceilingRequest settings)).exec (boughSession page settings) =
      (.ok (boughs page, boughQuery w), boughSession page settings) := by
  have hquery : Rows.listQuery settings (ceilingRequest settings) (boughs page) =
      .ok (boughQuery w) := by
    rw [Rows.listQuery_of_restrict rfl]
    exact Model.select_eq_ok_iff.2 ⟨compile_boughs hwindow, hsafe⟩
  have hload : (Metadata.model "bough").exec (boughSession page settings) =
      (.ok (boughs page), boughSession page settings) := rfl
  exact Rows.exec_prepare hload (Templates.exec_applyChosen_of_memory rfl rfl _) hquery

theorem sends_boughs : (forest "bough").Sends (boughSession page settings)
    ("main", (boughQuery w).statement.text, []) := by
  have hload : (treeModel "bough").exec (boughSession page settings) =
      (.ok (boughs page), boughSession page settings) := rfl
  rw [forest_eq_fromRows]
  exact sends_fromRows hload
    (Rows.sends_list (prepare_boughs hwindow hsafe) (Connection.exec_ensureOpen rfl) rfl)

end Boughs

/-- **A tree is built from as many rows as its ceiling says, just when nothing gets in the way.**
    What is sent to build a forest, or the rows under the root, counts or takes one stretch of the
    model's rows: as many as the ceiling and the greatest page size both allow, behind the pages in
    front of the model's own.  It is the first stretch of the ceiling's size, and then leaves out
    none of so many rows, just when the greatest page size is not below the ceiling and the model
    begins with its first page. -/
theorem ceiling_kept_iff (htree : 0 < s.settings.treePageSize) (hmax : 0 < s.settings.maxPageSize)
    (hrange : s.settings.treePageSize.toNat ≤ windowMax) :
    (∀ m : Model, m.HasSource →
      ((∃ q, m.compile ((ceilingRequest s.settings).compileParams s.settings m) = .ok q ∧
        q.window = some ⟨s.settings.treePageSize, 0⟩) ↔ KeepsCeiling s.settings m)) ∧
    ∀ x, ((forest model).Sends s x ∨
        ∃ parent, isRootKey parent = true ∧ (children model parent).Sends s x) →
      ∃ tree t m q u w, (treeModel model).exec s = (.ok tree, t) ∧
        (Rows.prepare model (ceilingRequest s.settings)).exec t = (.ok (m, q), u) ∧
        (x = (m.connection, q.countStatement.text, q.countStatement.args) ∨
          x = (m.connection, q.statement.text, q.statement.args)) ∧
        q.window = some w ∧ w.limit = rowCeiling s.settings ∧
        w.offset.toNat = (m.ownPage - 1) * (rowCeiling s.settings).toNat ∧
        (w = ⟨s.settings.treePageSize, 0⟩ ↔ KeepsCeiling s.settings m) ∧
        ((∀ rows : List Record, rows.length ≤ s.settings.treePageSize.toNat →
          q.stretch rows = rows) ↔ KeepsCeiling s.settings m) := by
  refine ⟨fun m hsource => exists_compile_iff_keepsCeiling htree hmax hrange hsource,
    fun x hsent => ?_⟩
  -- the whole forest and the children of a root are both made from one list of rows
  have hlist : ∃ tree t, (treeModel model).exec s = (.ok tree, t) ∧ t.settings = s.settings ∧
      (Rows.list model (ceilingRequest s.settings)).Sends t x := by
    rcases hsent with hforest | ⟨parent, hroot, hchildren⟩
    · rw [forest_eq_fromRows] at hforest
      exact sent_of_fromRows hforest
    · rw [children_eq_fromRows model hroot] at hchildren
      exact sent_of_fromRows hchildren
  obtain ⟨tree, t, hload, hsettings, hlist⟩ := hlist
  obtain ⟨m, q, u, hprepared, hx⟩ := Rows.sent_of_list hlist
  obtain ⟨base, v, -, -, hwindow⟩ :=
    Rows.window_of_prepare (ceilingRequest_wellFormed htree) hprepared
  rw [hsettings, sizeOf_ceilingRequest htree hmax] at hwindow
  obtain ⟨w, hw, htakes⟩ := takes_of_ceiling htree hmax hwindow
  have hbefore : max m.ownPage 1 - 1 = m.ownPage - 1 := by omega
  refine ⟨tree, t, m, q, u, w, hload, hprepared, hx, hw, UInt64.toNat_inj.1 htakes.limit, ?_,
    eq_ceiling_iff_keepsCeiling htree hmax htakes, ?_⟩
  · rw [htakes.offset, hbefore]
  · rw [Select.stretch_eq_self_iff hw (UInt64.lt_iff_toNat_lt.1 htree),
      whole_iff_keepsCeiling htree hmax htakes]

/-- A tree is built from all of three rows when its ceiling is three. -/
theorem three_boughs_kept :
    (forest "bough").Sends (boughSession 1 (boughSettings 3 10))
      ("main", "SELECT * FROM `boughs` LIMIT 3", []) ∧
    (∃ q, (boughs 1).compile ((ceilingRequest (boughSettings 3 10)).compileParams
      (boughSettings 3 10) (boughs 1)) = .ok q ∧ q.window = some ⟨3, 0⟩) ∧
    ∀ rows : List Record, rows.length ≤ 3 → (boughQuery ⟨3, 0⟩).stretch rows = rows := by
  have hwindow : (boughs 1).window ((ceilingRequest (boughSettings 3 10)).compileParams
      (boughSettings 3 10) (boughs 1)) = .ok (some ⟨3, 0⟩) := by
    decide
  have hsafe : Raw.checkSafe (boughQuery ⟨3, 0⟩).statement.text = .ok () := by decide
  have hkeeps : KeepsCeiling (boughSettings 3 10) (boughs 1) :=
    ⟨by decide, (beginsFirst_iff _).2 (by decide)⟩
  have hsends := sends_boughs hwindow hsafe
  have hsource : (boughs 1).HasSource := ⟨_, rfl⟩
  obtain ⟨hcompiled, hread⟩ := ceiling_kept_iff (s := boughSession 1 (boughSettings 3 10))
    (by decide) (by decide) (by decide)
  obtain ⟨tree, t, m, q, u, w, hload, hprepared, -, -, -, -, -, hwhole⟩ := hread _ (.inl hsends)
  obtain ⟨-, rfl⟩ := Prod.mk.inj hload
  obtain ⟨hmq, -⟩ := Prod.mk.inj ((prepare_boughs hwindow hsafe).symm.trans hprepared)
  obtain ⟨rfl, rfl⟩ := Prod.mk.inj (Except.ok.inj hmq)
  exact ⟨hsends, (hcompiled _ hsource).2 hkeeps, hwhole.2 hkeeps⟩

/-- A tree of three rows loses one when no page may have more than two, and loses all when the model
    begins with its second page, though its ceiling is three. -/
theorem three_boughs_cut :
    (forest "bough").Sends (boughSession 0 (boughSettings 3 2))
      ("main", "SELECT * FROM `boughs` LIMIT 2", []) ∧
    (forest "bough").Sends (boughSession 2 (boughSettings 3 10))
      ("main", "SELECT * FROM `boughs` LIMIT 3 OFFSET 3", []) ∧
    ∀ a b c : Record, (boughQuery ⟨2, 0⟩).stretch [a, b, c] = [a, b] ∧
      (boughQuery ⟨3, 3⟩).stretch [a, b, c] = [] := by
  have hclamped : (boughs 0).window ((ceilingRequest (boughSettings 3 2)).compileParams
      (boughSettings 3 2) (boughs 0)) = .ok (some ⟨2, 0⟩) := by
    decide
  have hpaged : (boughs 2).window ((ceilingRequest (boughSettings 3 10)).compileParams
      (boughSettings 3 10) (boughs 2)) = .ok (some ⟨3, 3⟩) := by
    decide
  exact ⟨sends_boughs hclamped (by decide), sends_boughs hpaged (by decide),
    fun a b c => ⟨rfl, rfl⟩⟩

end Trees

end MetaQuery
