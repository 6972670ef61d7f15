/-
  MetaQuery/Proofs/Store/Loading.lean
  ===================================
  Reading metadata tables.

  An operation that lists the entries under some rows of a table (`Lists`) gives what these rows
  hold, by ascending position; where positions are equal it may give them in any order.  So on a
  table whose positions rise strictly it gives just one list (`Lists.yields`).
-/
import Mathlib.Data.List.Pairwise
import MetaQuery.Proofs.Store.Serving

namespace MetaQuery

namespace Action

theorem exec_mapM_of_forall₂ {α β : Type} {f : α → Action β} {xs : List α} {ys : List β}
    {s : Session} (h : List.Forall₂ (fun x y => (f x).exec s = (.ok y, s)) xs ys) :
    (xs.mapM f).exec s = (.ok ys, s) := by
  induction h with
  | nil => rfl
  | cons hx hrest ih =>
    rw [List.mapM_cons, exec_bind_of_ok hx, exec_bind_of_ok ih]
    rfl

end Action

namespace Tables

open MetaQuery.Action

variable {d : Dialect} {se : Settings} {α : Type} {coder : Json.Coder α}

/-! ### Payloads -/

/-- The payload of the row reads as the value. -/
def StoredRow.Reads (coder : Json.Coder α) (r : StoredRow) (x : α) : Prop :=
  coder.ofText r.payload = .ok x

theorem StoredRow.Reads.unique {r : StoredRow} {x y : α} (hx : r.Reads coder x)
    (hy : r.Reads coder y) : x = y :=
  Except.ok.inj (hx.symm.trans hy)

theorem exists_reads {L : List StoredRow} (h : ∀ r ∈ L, ∃ x, r.Reads coder x) :
    ∃ xs, List.Forall₂ (StoredRow.Reads coder) L xs := by
  induction L with
  | nil => exact ⟨[], .nil⟩
  | cons r L ih =>
    obtain ⟨x, hx⟩ := h r List.mem_cons_self
    obtain ⟨xs, hxs⟩ := ih fun r' hr' => h r' (List.mem_cons_of_mem _ hr')
    exact ⟨x :: xs, .cons hx hxs⟩

theorem exists_of_reads {L : List StoredRow} {xs : List α}
    (h : List.Forall₂ (StoredRow.Reads coder) L xs) {r : StoredRow} (hr : r ∈ L) :
    ∃ x, r.Reads coder x := by
  induction h with
  | nil => cases hr
  | cons hx hrest ih =>
    rcases List.mem_cons.1 hr with rfl | hr
    · exact ⟨_, hx⟩
    · exact ih hr

theorem exists_row_of_reads {L : List StoredRow} {xs : List α}
    (h : List.Forall₂ (StoredRow.Reads coder) L xs) {x : α} (hx : x ∈ xs) :
    ∃ r ∈ L, r.Reads coder x := by
  induction h with
  | nil => cases hx
  | cons hread hrest ih =>
    rcases List.mem_cons.1 hx with rfl | hx
    · exact ⟨_, List.mem_cons_self, hread⟩
    · obtain ⟨r, hr, hread'⟩ := ih hx
      exact ⟨r, List.mem_cons_of_mem _ hr, hread'⟩

theorem exec_decodeRows {rows : List SourceRow} {L : List StoredRow} {xs : List α}
    (hrows : FirstCells SourceCell.asText rows (L.map (·.payload)))
    (hreads : List.Forall₂ (StoredRow.Reads coder) L xs) (s : Session) :
    (decodeRows coder rows).exec s = (.ok xs, s) := by
  have htexts : (rows.mapM fun row => ofSource (row.first >>= SourceCell.asText)).exec s =
      (.ok (L.map (·.payload)), s) := by
    refine exec_mapM_of_forall₂ (hrows.imp fun row text h => ?_)
    rw [h]
    rfl
  rw [decodeRows, exec_bind_of_ok htexts]
  refine exec_mapM_of_forall₂ (List.forall₂_map_left_iff.2 (hreads.imp fun r x h => ?_))
  rw [show coder.ofText r.payload = .ok x from h]
  rfl

/-- Rows that hold what is stored in them. -/
theorem exists_firstCells (L : List StoredRow) :
    ∃ rows, FirstCells SourceCell.asText rows (L.map (·.payload)) := by
  refine ⟨L.map fun r => [("payload", .text r.payload)], ?_⟩
  refine List.forall₂_map_left_iff.2 (List.forall₂_map_right_iff.2 ?_)
  exact List.forall₂_same.2 fun r _ => rfl

/-! ### Listings -/

/-- A list can be put in the order of positions. -/
theorem exists_perm_sorted {β : Type} (position : β → Int64) (l : List β) :
    ∃ M : List β, M.Perm l ∧ M.Pairwise fun a b => position a ≤ position b := by
  let le : β → β → Bool := fun a b => decide (position a ≤ position b)
  have hsorted : (l.mergeSort le).Pairwise fun a b => le a b := by
    apply List.pairwise_mergeSort
    · intro a b c hab hbc
      exact decide_eq_true (Int64.le_trans (of_decide_eq_true hab) (of_decide_eq_true hbc))
    · intro a b
      rcases Int64.le_total (position a) (position b) with h | h
      · simp [le, h]
      · simp [le, h]
  refine ⟨l.mergeSort le, List.mergeSort_perm _ _, hsorted.imp ?_⟩
  intro a b hab
  exact of_decide_eq_true hab

theorem exists_listing (p : StoredRow → Bool) (T : List StoredRow) : ∃ L, IsListing p T L := by
  obtain ⟨L, hperm, hsorted⟩ := exists_perm_sorted (·.position) (T.filter p)
  exact ⟨L, hperm, hsorted⟩

/-- Strictly rising positions leave one order. -/
theorem IsListing.eq {p : StoredRow → Bool} {T L M : List StoredRow} (h : IsListing p T L)
    (hM : M.Perm (T.filter p)) (hrising : M.Pairwise fun r r' => r.position < r'.position) :
    L = M := by
  refine List.Perm.eq_of_pairwise ?_ h.sorted (hrising.imp Int64.le_of_lt) (h.perm.trans hM.symm)
  intro a b ha hb hab hba
  by_contra hne
  -- two different rows stand in some order, and then their positions differ
  have hdiffer : M.Pairwise fun r r' => r.position ≠ r'.position :=
    hrising.imp fun h => Int64.ne_of_lt h
  have : Std.Symm fun r r' : StoredRow => r.position ≠ r'.position := ⟨fun _ _ h => h.symm⟩
  have ha' : a ∈ M := (h.perm.trans hM.symm).mem_iff.1 ha
  exact hdiffer.forall ha' hb hne (Int64.le_antisymm hab hba)

theorem Seeks.answered {v : Verb} {args : List Cell} {p : StoredRow → Bool} {T T' : List StoredRow}
    {reply : Reply} (h : Seeks v args p) (hanswer : Answers v args T reply T') :
    T' = T ∧ ∃ L rows affected, reply = .rows rows affected ∧ IsListing p T L ∧
      FirstCells SourceCell.asText rows (L.map (·.payload)) := by
  cases h with
  | all =>
    cases hanswer with
    | read affected hseeks hL hrows =>
      cases hseeks
      exact ⟨rfl, _, _, _, rfl, hL, hrows⟩
  | byId id =>
    cases hanswer with
    | read affected hseeks hL hrows =>
      cases hseeks
      exact ⟨rfl, _, _, _, rfl, hL, hrows⟩
  | byModel model =>
    cases hanswer with
    | read affected hseeks hL hrows =>
      cases hseeks
      exact ⟨rfl, _, _, _, rfl, hL, hrows⟩

/-! ### Operations that list entries -/

/-- The operation gives the entries under the rows of a kind that match. -/
structure Lists (d : Dialect) (se : Settings) (coder : Json.Coder α) (kind : String)
    (p : StoredRow → Bool) (a : Action (List α)) : Prop where
  achieves (K : Kept) (hreads : ∀ r ∈ K.durable kind, p r = true → ∃ x, r.Reads coder x) :
    a.Achieves d se K fun xs K' => K' = K ∧
      ∃ L, IsListing p (K.durable kind) L ∧ List.Forall₂ (StoredRow.Reads coder) L xs
  mayGive (K : Kept) {L : List StoredRow} {xs : List α} (hL : IsListing p (K.durable kind) L)
    (hxs : List.Forall₂ (StoredRow.Reads coder) L xs) : a.MayGive d se K xs K

/-- The payloads that a statement gives, read. -/
def readAll (coder : Json.Coder α) (text : String) (args : List Cell) : Action (List α) := do
  let (rows, _) ← run false text args
  decodeRows coder rows

theorem decodeRows_steady (coder : Json.Coder α) (rows : List SourceRow) :
    (decodeRows coder rows).Steady :=
  (decodeRows_consults coder rows).steady

theorem readAll_steady (text : String) (args : List Cell) : (readAll coder text args).Steady :=
  (run_steady false text args).bind fun reply => decodeRows_steady coder reply.1

section

variable {p : StoredRow → Bool} {kind text : String} {args : List Cell}

theorem readAll_lists {v : Verb} (hseeks : Seeks v args p) (htext : text = v.text d se kind) :
    Lists d se coder kind p (readAll coder text args) where
  achieves K hreads := by
    have hrun : (run false text args).Achieves d se K fun reply K' => K' = K ∧
        ∃ L, IsListing p (K.durable kind) L ∧
          FirstCells SourceCell.asText reply.1 (L.map (·.payload)) := by
      apply achieves_run htext
      · intro reply T hanswer
        obtain ⟨rfl, L, rows, affected, rfl, hL, hrows⟩ := hseeks.answered hanswer
        exact ⟨rows, affected, rfl, K.put_seen false kind, L, hL, hrows⟩
      · obtain ⟨L, hL⟩ := exists_listing p (K.durable kind)
        obtain ⟨rows, hrows⟩ := exists_firstCells L
        exact ⟨.rows rows 0, _, .read 0 hseeks hL hrows⟩
    refine hrun.bind (fun reply => (decodeRows_steady coder reply.1).on) ?_
    rintro ⟨rows, affected⟩ K' ⟨rfl, L, hL, hrows⟩
    -- only the rows the condition selects are decoded, so no other needs to be readable
    have hL' : ∀ r ∈ L, ∃ x, r.Reads coder x := by
      intro r hr
      obtain ⟨hmem, hp⟩ := List.mem_filter.1 (hL.perm.mem_iff.1 hr)
      exact hreads r hmem hp
    obtain ⟨xs, hxs⟩ := exists_reads hL'
    refine (yields_of_still (fun s _ _ => exec_decodeRows hrows hxs s) K').mono ?_
    rintro ys K'' ⟨rfl, rfl⟩
    exact ⟨rfl, L, hL, hxs⟩
  mayGive K L xs hL hxs := by
    obtain ⟨rows, hrows⟩ := exists_firstCells L
    have hrun := mayGive_run htext
      (Answers.read (T := K.seen false kind) 0 hseeks hL hrows)
    rw [K.put_seen] at hrun
    exact hrun.bind (mayGive_of_still (fun s _ _ => exec_decodeRows hrows hxs s) K)

theorem Lists.behind_table {text : String → String}
    (h : Lists d se coder kind p (readAll coder (text (d.quote (se.tableName kind))) args)) :
    Lists d se coder kind p (tableOf d kind >>= fun table => readAll coder (text table) args) where
  achieves K hreads :=
    (tableOf_yields kind K).bind (fun _ => (readAll_steady _ _).on) (h.achieves K hreads)
  mayGive K _ _ hL hxs := (tableOf_yields kind K).mayGive.bind (h.mayGive K hL hxs)

/-- **On strictly rising positions the outcome is one.** -/
theorem Lists.yields {a : Action (List α)} (h : Lists d se coder kind p a) {K : Kept}
    {M : List StoredRow} {xs : List α} (hM : M.Perm ((K.durable kind).filter p))
    (hrising : M.Pairwise fun r r' => r.position < r'.position)
    (hxs : List.Forall₂ (StoredRow.Reads coder) M xs) : a.Yields d se K xs K := by
  have hreads : ∀ r ∈ K.durable kind, p r = true → ∃ x, r.Reads coder x := by
    intro r hr hp
    exact exists_of_reads hxs (hM.mem_iff.2 (List.mem_filter.2 ⟨hr, hp⟩))
  refine (h.achieves K hreads).mono ?_
  rintro ys K' ⟨rfl, L, hL, hys⟩
  rw [hL.eq hM hrising] at hys
  exact ⟨List.right_unique_forall₂' (fun _ _ _ hx hy => hx.unique hy) hys hxs, rfl⟩

end

theorem loadAll_eq (coder : Json.Coder α) (kind : String) :
    loadAll d coder kind = tableOf d kind >>= fun table =>
      readAll coder ("SELECT payload FROM " ++ table ++ " ORDER BY position") [] := rfl

theorem loadAll_lists (d : Dialect) (se : Settings) (coder : Json.Coder α) (kind : String) :
    Lists d se coder kind (fun _ => true) (loadAll d coder kind) := by
  rw [loadAll_eq]
  apply Lists.behind_table
  exact readAll_lists .all rfl

theorem loadWhere_eq (coder : Json.Coder α) (kind column value : String) :
    loadWhere d coder kind column value = tableOf d kind >>= fun table =>
      readAll coder ("SELECT payload FROM " ++ table ++ " WHERE " ++ column ++ " = " ++
        d.placeholder 1 ++ " ORDER BY position") [.text value] := rfl

theorem loadWhere_id_lists (d : Dialect) (se : Settings) (coder : Json.Coder α)
    (kind id : String) :
    Lists d se coder kind (·.id == id) (loadWhere d coder kind "id" id) := by
  rw [loadWhere_eq]
  apply Lists.behind_table
  apply readAll_lists (.byId id)
  have hwords : " WHERE id = " = " WHERE " ++ ("id" ++ " = ") := by decide
  change _ = "SELECT payload FROM " ++ d.quote (se.tableName kind) ++
    (" WHERE id = " ++ d.placeholder 1 ++ " ORDER BY position")
  rw [hwords]
  simp only [String.append_assoc]

theorem byModel_text (kind : String) :
    "SELECT payload FROM " ++ d.quote (se.tableName kind) ++ " WHERE " ++ "model_id" ++ " = " ++
      d.placeholder 1 ++ " ORDER BY position" = Verb.byModel.text d se kind := by
  have hwords : " WHERE model_id = " = " WHERE " ++ ("model_id" ++ " = ") := by decide
  change _ = "SELECT payload FROM " ++ d.quote (se.tableName kind) ++
    (" WHERE model_id = " ++ d.placeholder 1 ++ " ORDER BY position")
  rw [hwords]
  simp only [String.append_assoc]

theorem loadWhere_model_lists (d : Dialect) (se : Settings) (coder : Json.Coder α)
    (kind model : String) :
    Lists d se coder kind (·.model == model) (loadWhere d coder kind "model_id" model) := by
  rw [loadWhere_eq]
  apply Lists.behind_table
  exact readAll_lists (.byModel model) (byModel_text kind)

end Tables

end MetaQuery
