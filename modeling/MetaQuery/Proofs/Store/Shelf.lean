/-
  MetaQuery/Proofs/Store/Shelf.lean
  =================================
  Templates in a metadata table, as they are saved and removed.

  A shelf is the list of the templates in the order in which memory keeps them, each with the
  position of its row (`Shelf`).  A template that is saved again keeps its position, and a new one
  gets the number of rows as its position, which need not be behind all others.  The table holds
  the rows of the shelf in some order (`Shelved`), and writes keep it so (`saveTemplate_achieves`,
  `deleteTemplate_achieves`).
-/
import MetaQuery.Proofs.Store.Importing

namespace MetaQuery

namespace Tables

open MetaQuery.Action

/-! ### Shelves -/

/-- Templates, in the order of the catalog, with the positions of their rows. -/
abbrev Shelf := List (Template × Int64)

namespace Shelf

/-- The row of a template at a position. -/
def row (u : Template × Int64) : StoredRow where
  id := u.1.id
  model := u.1.model
  position := u.2
  payload := Template.layout.coder.text u.1

def templates (S : Shelf) : List Template := S.map (·.1)

/-- Templates at places that follow each other. -/
def ofTemplates (place : Nat) : List Template → Shelf
  | [] => []
  | t :: r => (t, Int64.ofNat place) :: ofTemplates (place + 1) r

/-- The position for a template with an id: that of its row, or the number of rows. -/
def placeFor (id : String) (S : Shelf) : Int64 :=
  match S.find? (·.1.id == id) with
  | some u => u.2
  | none => Int64.ofNat S.length

/-- A template put in the place of the one with its id, or behind all others. -/
def put (t : Template) (position : Int64) : Shelf → Shelf
  | [] => [(t, position)]
  | u :: r => if u.1.id = t.id then (t, position) :: r else u :: put t position r

def save (t : Template) (S : Shelf) : Shelf := S.put t (S.placeFor t.id)

def remove (id : String) (S : Shelf) : Shelf := S.filter (·.1.id != id)

/-- No two templates have one id. -/
def Distinct (S : Shelf) : Prop := S.Pairwise fun u v => u.1.id ≠ v.1.id

theorem templates_ofTemplates (place : Nat) (ts : List Template) :
    (ofTemplates place ts).templates = ts := by
  induction ts generalizing place with
  | nil => rfl
  | cons t rest ih =>
    rw [ofTemplates, templates, List.map_cons]
    exact congrArg (t :: ·) (ih (place + 1))

theorem templates_put (t : Template) (position : Int64) (S : Shelf) :
    (S.put t position).templates = Catalog.putTemplate t S.templates := by
  induction S with
  | nil => rfl
  | cons u rest ih =>
    simp only [put, templates, List.map_cons, Catalog.putTemplate] at ih ⊢
    split
    · rfl
    · rw [List.map_cons, ih]

theorem templates_filter (p : Template → Bool) (S : Shelf) :
    templates (S.filter fun u => p u.1) = S.templates.filter p := by
  rw [templates, templates, List.filter_map]
  rfl

theorem positions_ofTemplates (place : Nat) (ts : List Template) :
    (ofTemplates place ts).map (·.2) = (List.range' place ts.length).map Int64.ofNat := by
  induction ts generalizing place with
  | nil => rfl
  | cons t rest ih =>
    rw [ofTemplates, List.map_cons, ih, List.length_cons, List.range'_succ, List.map_cons]

theorem put_of_none {t : Template} {S : Shelf} (h : S.find? (·.1.id == t.id) = none)
    (position : Int64) : S.put t position = S ++ [(t, position)] := by
  induction S with
  | nil => rfl
  | cons u rest ih =>
    rw [List.find?_cons] at h
    split at h
    · cases h
    · next hid => rw [put, if_neg (by simpa using hid), ih h, List.cons_append]

theorem positions_put_of_some {t : Template} {S : Shelf} {u : Template × Int64}
    (h : S.find? (·.1.id == t.id) = some u) : (S.put t u.2).map (·.2) = S.map (·.2) := by
  induction S with
  | nil => cases h
  | cons v rest ih =>
    rw [List.find?_cons] at h
    split at h
    · next hid =>
      obtain rfl := Option.some.inj h
      rw [put, if_pos (by simpa using hid), List.map_cons, List.map_cons]
    · next hid => rw [put, if_neg (by simpa using hid), List.map_cons, List.map_cons, ih h]

/-- Imported templates are stored under their ids. -/
theorem map_row_ofTemplates {ts : List Template} (hids : ∀ t ∈ ts, t.id ≠ "") (place : Nat) :
    (ofTemplates place ts).map row = storedFrom place (ts.map Template.layout.coder.encode) := by
  induction ts generalizing place with
  | nil => rfl
  | cons t rest ih =>
    have hid : rowId (Template.layout.coder.encode t) place = t.id :=
      if_neg (hids t List.mem_cons_self)
    have hrow : storedRow (Template.layout.coder.encode t) place =
        row (t, Int64.ofNat place) := by
      rw [storedRow, hid]
      rfl
    rw [ofTemplates, List.map_cons, List.map_cons, storedFrom, hrow,
      ih (fun u hu => hids u (List.mem_cons_of_mem t hu))]

/-- What is put stands beside all that have other ids. -/
theorem put_perm {S : Shelf} (hS : S.Distinct) (t : Template) (position : Int64) :
    (S.put t position).Perm ((t, position) :: S.remove t.id) := by
  induction S with
  | nil => exact .refl _
  | cons u rest ih =>
    obtain ⟨hfirst, hrest⟩ := List.pairwise_cons.1 hS
    by_cases hid : u.1.id = t.id
    -- the id occurs at the head and nowhere else
    · have hall : rest.filter (·.1.id != t.id) = rest := by
        apply List.filter_eq_self.2
        intro v hv
        simpa [hid] using (hfirst v hv).symm
      simp [put, remove, hid, hall]
    · have hkeep : remove t.id (u :: rest) = u :: remove t.id rest := by
        simp [remove, hid]
      rw [hkeep, put, if_neg hid]
      exact ((ih hrest).cons u).trans (.swap _ _ _)

theorem Distinct.remove {S : Shelf} (hS : S.Distinct) (id : String) : (S.remove id).Distinct :=
  List.Pairwise.sublist List.filter_sublist hS

theorem Distinct.save {S : Shelf} (hS : S.Distinct) (t : Template) : (S.save t).Distinct := by
  have hperm := put_perm hS t (S.placeFor t.id)
  refine (hperm.pairwise_iff fun h => h.symm).2 (List.pairwise_cons.2 ⟨?_, hS.remove t.id⟩)
  intro v hv heq
  exact bne_iff_ne.1 (List.mem_filter.1 hv).2 heq.symm

/-- Under an id there is one template at most. -/
theorem filter_id {S : Shelf} (hS : S.Distinct) (id : String) :
    S.filter (·.1.id == id) = (S.find? (·.1.id == id)).toList := by
  induction S with
  | nil => rfl
  | cons u rest ih =>
    obtain ⟨hfirst, hrest⟩ := List.pairwise_cons.1 hS
    by_cases hid : u.1.id = id
    · have hnone : rest.filter (·.1.id == id) = [] := by
        apply List.filter_eq_nil_iff.2
        intro v hv
        simpa [hid] using (hfirst v hv).symm
      simp [hid, hnone]
    · simpa [hid] using ih hrest

end Shelf

/-- The table of the templates holds the rows of a shelf. -/
structure Shelved (K : Kept) (S : Shelf) : Prop where
  rows : (K.durable "templates").Perm (S.map Shelf.row)
  distinct : S.Distinct

/-- After an import the table holds the templates in their places. -/
theorem shelved_of_stored {K : Kept} {ts : List Template} (hids : ∀ t ∈ ts, t.id ≠ "")
    (hdistinct : (rowIds (ts.map Template.layout.coder.encode)).Nodup)
    (hK : K.durable "templates" = storedFrom 0 (ts.map Template.layout.coder.encode)) :
    Shelved K (Shelf.ofTemplates 0 ts) := by
  have hrows := Shelf.map_row_ofTemplates hids 0
  refine ⟨by rw [hK, hrows], ?_⟩
  rw [rowIds, ← hrows, List.map_map] at hdistinct
  exact List.pairwise_map.1 hdistinct

/-- Rows picked by what they share with their templates. -/
theorem Shelved.filter {K : Kept} {S : Shelf} (h : Shelved K S) {p : StoredRow → Bool}
    {q : Template × Int64 → Bool} (hpq : ∀ u, p (Shelf.row u) = q u) :
    ((K.durable "templates").filter p).Perm ((S.filter q).map Shelf.row) := by
  have hperm := h.rows.filter p
  have heq : p ∘ Shelf.row = q := funext hpq
  rwa [List.filter_map, heq] at hperm

/-! ### Statements on the templates -/

section

variable {d : Dialect} {se : Settings} {K : Kept} {kind : String}

theorem removal_eq (kind : String) :
    removal d (d.quote (se.tableName kind)) = Verb.remove.text d se kind := by
  change removal d (d.quote (se.tableName kind)) = "DELETE FROM " ++
    d.quote (se.tableName kind) ++ (" WHERE id = " ++ d.placeholder 1)
  unfold removal
  simp only [String.append_assoc]

/-- The row under an id is removed. -/
theorem remove_yields (d : Dialect) (se : Settings) (inTransaction : Bool) (kind id : String)
    (K : Kept) :
    (run inTransaction (removal d (d.quote (se.tableName kind))) [.text id]).Yields d se K
      ([], (K.seen inTransaction kind).countP (·.id == id))
      (K.put inTransaction kind ((K.seen inTransaction kind).filter (·.id != id))) := by
  apply achieves_run (removal_eq kind)
  · intro reply T hanswer
    cases hanswer with
    | remove => exact ⟨[], _, rfl, rfl, rfl⟩
    | read _ hseeks => cases hseeks
  · exact ⟨_, _, .remove _ id⟩

/-- The integer in the first cell of the first row. -/
def firstInteger : List SourceRow → Action Int64
  | row :: _ => ofSource (row.first >>= SourceCell.asInteger)
  | [] => throw (.database .rowNotFound)

/-- The position in a reply; the number of rows where there is none. -/
def placeIn (table : String) : List SourceRow → Action Int64
  | row :: _ => ofSource (row.first >>= SourceCell.asInteger)
  | [] => run true ("SELECT COUNT(*) FROM " ++ table) [] >>= fun reply => firstInteger reply.1

theorem templatePlace_eq (d : Dialect) (table id : String) : templatePlace d table id =
    run true ("SELECT position FROM " ++ table ++ " WHERE id = " ++ d.placeholder 1) [.text id] >>=
      fun reply => placeIn table reply.1 := by
  rfl

theorem firstInteger_steady (rows : List SourceRow) : (firstInteger rows).Steady := by
  cases rows with
  | nil => exact steady_throw _
  | cons row rest => exact (ofSource_consults _).steady

theorem placeIn_steady (table : String) (rows : List SourceRow) : (placeIn table rows).Steady := by
  cases rows with
  | nil => exact (run_steady _ _ _).bind fun reply => firstInteger_steady reply.1
  | cons row rest => exact (ofSource_consults _).steady

theorem ofSource_yields {α : Type} {r : Except SourceFault α} {x : α} (h : r = .ok x) (K : Kept) :
    (ofSource r).Yields d se K x K := by
  rw [h]
  exact yields_pure x K

/-- The rows of a table counted. -/
theorem count_yields (d : Dialect) (se : Settings) (kind : String) (K : Kept) :
    (run true ("SELECT COUNT(*) FROM " ++ d.quote (se.tableName kind)) [] >>=
      fun reply => firstInteger reply.1).Yields d se K (Int64.ofNat (K.pending kind).length) K := by
  have hrun : (run true ("SELECT COUNT(*) FROM " ++ d.quote (se.tableName kind)) []).Achieves d se K
      fun reply K' => K' = K ∧
        FirstCells SourceCell.asInteger reply.1 [Int64.ofNat (K.pending kind).length] := by
    -- whatever the column is called, the one row's first cell is the count
    apply achieves_run (v := .count) (String.append_empty).symm
    · intro reply T hanswer
      cases hanswer with
      | count affected hrows => exact ⟨_, _, rfl, K.put_seen true kind, hrows⟩
      | read _ hseeks => cases hseeks
    · have hrows : FirstCells SourceCell.asInteger
          [[("count", .bigInt (Int64.ofNat (K.pending kind).length))]]
          [Int64.ofNat (K.pending kind).length] := .cons rfl .nil
      exact ⟨_, _, .count 0 hrows⟩
  refine hrun.bind (fun reply => (firstInteger_steady reply.1).on) ?_
  rintro ⟨rows, affected⟩ K' ⟨rfl, hrows⟩
  cases hrows with
  | cons hfirst hrest =>
    cases hrest
    exact ofSource_yields hfirst K'

/-- The position under an id read, of a template that is on the shelf. -/
theorem positionUnder_achieves (d : Dialect) (se : Settings) {D : Holdings} {S : Shelf}
    (h : Shelved ⟨D, D⟩ S) (id : String) :
    (run true ("SELECT position FROM " ++ d.quote (se.tableName "templates") ++ " WHERE id = " ++
      d.placeholder 1) [.text id]).Achieves d se ⟨D, D⟩ fun reply K' => K' = ⟨D, D⟩ ∧
        FirstCells SourceCell.asInteger reply.1 ((S.find? (·.1.id == id)).toList.map (·.2)) := by
  have hunder : ((D "templates").filter (·.id == id)).Perm
      ((S.find? (·.1.id == id)).toList.map Shelf.row) := by
    rw [← Shelf.filter_id h.distinct]
    exact h.filter fun _ => rfl
  apply achieves_run (v := .place) (String.append_assoc ..)
  · intro reply T hanswer
    cases hanswer with
    | @place _ L _ _ affected hL hrows =>
      refine ⟨_, affected, rfl, Kept.put_seen ⟨D, D⟩ true "templates", ?_⟩
      -- one row at most is under the id, so the order in which they are read does not matter
      have hone : L = (S.find? (·.1.id == id)).toList.map Shelf.row := by
        have hperm := hL.trans hunder
        cases hfind : S.find? (·.1.id == id) with
        | none =>
          rw [hfind] at hperm
          exact hperm.eq_nil
        | some u =>
          rw [hfind] at hperm
          exact hperm.eq_singleton
      rw [hone, List.map_map] at hrows
      exact hrows
    | read _ hseeks => cases hseeks
  · have hrows : FirstCells SourceCell.asInteger
        (((D "templates").filter (·.id == id)).map fun r => [("position", .bigInt r.position)])
        (((D "templates").filter (·.id == id)).map (·.position)) :=
      List.forall₂_map_left_iff.2 (List.forall₂_map_right_iff.2
        (List.forall₂_same.2 fun _ _ => rfl))
    exact ⟨_, _, .place 0 (.refl _) hrows⟩

/-- **The position for a template.** -/
theorem templatePlace_yields (d : Dialect) (se : Settings) {D : Holdings} {S : Shelf}
    (h : Shelved ⟨D, D⟩ S) (id : String) :
    (templatePlace d (d.quote (se.tableName "templates")) id).Yields d se ⟨D, D⟩ (S.placeFor id)
      ⟨D, D⟩ := by
  rw [templatePlace_eq]
  refine (positionUnder_achieves d se h id).bind (fun reply => (placeIn_steady _ reply.1).on) ?_
  rintro ⟨rows, affected⟩ K' ⟨rfl, hrows⟩
  -- a template that is new gets the number of rows, one that is there keeps its place
  cases hfind : S.find? (·.1.id == id) with
  | none =>
    rw [hfind] at hrows
    cases hrows
    have hlength : (D "templates").length = S.length := by
      rw [h.rows.length_eq, List.length_map]
    have hcount := count_yields d se "templates" ⟨D, D⟩
    rw [Shelf.placeFor, hfind, ← hlength]
    exact hcount
  | some u =>
    rw [hfind] at hrows
    cases hrows with
    | cons hfirst hrest =>
      rw [Shelf.placeFor, hfind]
      exact ofSource_yields hfirst _

/-! ### Writes -/

theorem templatePlace_steady (table id : String) : (templatePlace d table id).Steady := by
  rw [templatePlace_eq]
  exact (run_steady _ _ _).bind fun reply => placeIn_steady table reply.1

/-- What is done when the place for a template is known. -/
def replaceTemplate (d : Dialect) (table : String) (t : Template) (place : Int64) :
    Action Unit := do
  let _ ← run true (removal d table) [.text t.id]
  let _ ← run true (insertion d table) (Shelf.row (t, place)).cells
  commit

theorem saveTemplate_eq (d : Dialect) (t : Template) :
    saveTemplate d t = tableOf d "templates" >>= fun table =>
      begin >>= fun _ => templatePlace d table t.id >>= replaceTemplate d table t := rfl

theorem replaceTemplate_steady (table : String) (t : Template) (place : Int64) :
    (replaceTemplate d table t place).Steady := by
  refine (run_steady _ _ _).bind fun _ => (run_steady _ _ _).bind fun _ => ?_
  exact commit_steady

theorem replaceTemplate_achieves (K : Kept) (t : Template) (place : Int64) :
    (replaceTemplate d (d.quote (se.tableName "templates")) t place).Achieves d se K fun _ K' =>
      K'.durable "templates" =
        (K.pending "templates").filter (·.id != t.id) ++ [Shelf.row (t, place)] := by
  have hothers := K.seen_put true "templates" ((K.pending "templates").filter (·.id != t.id))
  have hfree : (Shelf.row (t, place)).id ∉
      ((K.pending "templates").filter (·.id != t.id)).map (·.id) := by
    intro hmem
    obtain ⟨r, hr, hid⟩ := List.mem_map.1 hmem
    exact bne_iff_ne.1 (List.mem_filter.1 hr).2 hid
  -- the id is free once the old row is removed
  rw [← hothers] at hfree
  have hinsert := insert_yields d se true "templates" hfree
  rw [hothers, Kept.put_put] at hinsert
  refine Yields.bind (remove_yields d se true "templates" t.id K)
    (fun _ => (run_steady _ _ _).on.bind fun _ => commit_steady.on) <|
    Yields.bind hinsert (fun _ => commit_steady.on) ?_
  refine (commit_yields _).mono ?_
  rintro _ K' ⟨rfl, rfl⟩
  exact K.seen_put true "templates" _

/-- **A template saved again keeps its place, and a new one gets the number of rows.** -/
theorem saveTemplate_achieves (d : Dialect) (se : Settings) {S : Shelf} (h : Shelved K S)
    (t : Template) :
    (saveTemplate d t).Achieves d se K fun _ K' => Shelved K' (S.save t) := by
  have hplace := templatePlace_yields d se (D := K.durable) ⟨h.rows, h.distinct⟩ t.id
  rw [saveTemplate_eq]
  refine Yields.bind (tableOf_yields "templates" K) (fun table => ?_) <|
    Yields.bind (begin_yields K) (fun _ => ?_) <|
    Yields.bind hplace (fun place => (replaceTemplate_steady _ t place).on) ?_
  · exact begin_steady.on.bind fun _ => (templatePlace_steady _ _).on.bind fun place =>
      (replaceTemplate_steady _ t place).on
  · exact (templatePlace_steady _ _).on.bind fun place => (replaceTemplate_steady _ t place).on
  refine (replaceTemplate_achieves _ t (S.placeFor t.id)).mono ?_
  intro _ K' hK'
  refine ⟨?_, h.distinct.save t⟩
  -- removing and inserting puts the row last; the shelf holds it up to the order of rows
  have hothers : ((K.durable "templates").filter (·.id != t.id)).Perm
      ((S.remove t.id).map Shelf.row) := h.filter fun _ => rfl
  have hput := (Shelf.put_perm h.distinct t (S.placeFor t.id)).map Shelf.row
  rw [hK']
  calc (K.durable "templates").filter (·.id != t.id) ++ [Shelf.row (t, S.placeFor t.id)]
      _ |>.Perm (Shelf.row (t, S.placeFor t.id) ::
          (K.durable "templates").filter (·.id != t.id)) := List.perm_append_singleton _ _
      _ |>.Perm (Shelf.row (t, S.placeFor t.id) :: (S.remove t.id).map Shelf.row) := hothers.cons _
      _ |>.Perm ((S.save t).map Shelf.row) := hput.symm

theorem deleteTemplate_achieves (d : Dialect) (se : Settings) {S : Shelf} (h : Shelved K S)
    (id : String) :
    (deleteTemplate d id).Achieves d se K fun removed K' =>
      removed = S.templates.any (·.id == id) ∧ Shelved K' (S.remove id) := by
  -- the DELETE reports how many rows it removed
  have hremoved : decide (0 < (K.durable "templates").countP (·.id == id)) =
      S.templates.any (·.id == id) := by
    rw [h.rows.countP_eq, List.countP_map, Bool.eq_iff_iff, decide_eq_true_iff, List.countP_pos_iff,
      List.any_eq_true, Shelf.templates]
    simp [Shelf.row]
  have hrows := K.seen_put false "templates" ((K.durable "templates").filter (·.id != id))
  have hyields := (remove_yields d se false "templates" id K).map fun reply => decide (0 < reply.2)
  refine Achieves.mono (Yields.bind (tableOf_yields "templates" K) (fun table => ?_) hyields) ?_
  · exact (run_steady _ _ _).on.bind fun _ => (steady_pure _).on
  · rintro _ K' ⟨rfl, rfl⟩
    refine ⟨hremoved, ?_, h.distinct.remove id⟩
    have hothers : ((K.durable "templates").filter (·.id != id)).Perm
        ((S.remove id).map Shelf.row) := h.filter fun _ => rfl
    rw [← hrows] at hothers
    exact hothers

end

end Tables

end MetaQuery
