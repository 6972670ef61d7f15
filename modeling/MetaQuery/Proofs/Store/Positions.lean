/-
  MetaQuery/Proofs/Store/Positions.lean
  =====================================
  The order in which templates are read from a metadata table.

  Under an id there is one template at most, so the tables find the one that memory finds.  The
  templates of a model come from memory in the order of the shelf and from the tables by their
  positions.  If positions rise along the shelf, these are the same; and if the tables give them in
  the order of the shelf however they answer, positions rise, for templates with one position could
  come in either order (`Shelved.sameAnswer_templatesOf_iff`).
-/
import Mathlib.Data.List.Chain
import MetaQuery.Proofs.Store.Agreement
import MetaQuery.Proofs.Store.Shelf

namespace MetaQuery

namespace Tables

open MetaQuery.Action

variable {d : Dialect} {se : Settings} {K : Kept} {S : Shelf} {c : Catalog}

namespace Shelf

/-- The templates of a model, with their positions. -/
def ofModel (model : String) (S : Shelf) : Shelf := S.filter (·.1.model == model)

/-- Positions rise along the shelf. -/
def Rising (S : Shelf) : Prop := S.Pairwise fun u v => u.2 < v.2

theorem Distinct.filter (hS : S.Distinct) (q : Template × Int64 → Bool) :
    Distinct (S.filter q) :=
  List.Pairwise.sublist List.filter_sublist hS

theorem Distinct.eq_of_id (hS : S.Distinct) {u v : Template × Int64} (hu : u ∈ S) (hv : v ∈ S)
    (h : u.1.id = v.1.id) : u = v := by
  have : Std.Symm fun u v : Template × Int64 => u.1.id ≠ v.1.id := ⟨fun _ _ h => h.symm⟩
  by_contra hne
  exact List.Pairwise.forall hS hu hv hne h

/-- Templates with ids of their own say which entries they are. -/
theorem Distinct.eq_of_templates (hS : S.Distinct) {M : Shelf} (hperm : M.Perm S)
    (h : M.templates = S.templates) : M = S := by
  refine List.ext_getElem hperm.length_eq ?_
  intro i hM hi
  have htemplate : M[i].1 = S[i].1 := by
    have hat := congrArg (·[i]?) h
    simpa [templates, hM, hi] using hat
  apply hS.eq_of_id (hperm.mem_iff.1 (List.getElem_mem hM)) (List.getElem_mem hi)
  rw [htemplate]

/-- If there is no other order of the positions than along the shelf, they rise. -/
theorem Distinct.rising_of_unique (hS : S.Distinct)
    (h : ∀ M : Shelf, M.Perm S → (M.Pairwise fun u v => u.2 ≤ v.2) → M = S) : S.Rising := by
  have hsorted : S.Pairwise fun u v => u.2 ≤ v.2 := by
    obtain ⟨M, hperm, hM⟩ := exists_perm_sorted (·.2) S
    rwa [h M hperm hM] at hM
  let before : Template × Int64 → Template × Int64 → Prop := fun u v => u.2 < v.2
  have : Trans before before before := ⟨Int64.lt_trans⟩
  refine List.isChain_iff_pairwise.1 (List.isChain_iff_forall_rel_of_append_cons_cons.2 ?_)
  intro u v front rest hsplit
  obtain ⟨hfront, hbehind, hacross⟩ := List.pairwise_append.1 (hsplit ▸ hsorted)
  obtain ⟨hu, htail⟩ := List.pairwise_cons.1 hbehind
  obtain ⟨hv, hrest⟩ := List.pairwise_cons.1 htail
  by_contra hnot
  have heq : u.2 = v.2 := Int64.le_antisymm (hu v List.mem_cons_self) (Int64.not_lt.1 hnot)
  -- two neighbours with one position can change places
  have hswap : front ++ v :: u :: rest = S := by
    apply h
    · rw [hsplit]
      exact (List.Perm.swap u v rest).append_left front
    · refine List.pairwise_append.2 ⟨hfront, ?_, ?_⟩
      · refine .cons ?_ (.cons (fun w hw => hu w (List.mem_cons_of_mem v hw)) hrest)
        intro w hw
        rcases List.mem_cons.1 hw with rfl | hw
        · exact Int64.le_of_eq heq.symm
        · exact hv w hw
      · intro a ha w hw
        apply hacross a ha w
        simpa [or_left_comm] using hw
  rw [hsplit] at hswap
  obtain ⟨huv, -⟩ := List.cons.inj (List.append_cancel_left hswap)
  have hids := (List.pairwise_append.1 (hsplit ▸ hS)).2.1
  exact (List.pairwise_cons.1 hids).1 v List.mem_cons_self (by rw [huv])

/-- The positions are those of the places. -/
def Packed (S : Shelf) : Prop := S.map (·.2) = (List.range S.length).map Int64.ofNat

theorem packed_ofTemplates (ts : List Template) : (ofTemplates 0 ts).Packed := by
  have hlength : (ofTemplates 0 ts).length = ts.length := by
    rw [← List.length_map (f := (·.1))]
    exact congrArg List.length (templates_ofTemplates 0 ts)
  rw [Packed, positions_ofTemplates, hlength, List.range_eq_range']

/-- What is saved takes the place of what it replaces, or the next one. -/
theorem Packed.save (hS : S.Packed) (t : Template) : (S.save t).Packed := by
  rw [Shelf.save, placeFor]
  cases hfind : S.find? (·.1.id == t.id) with
  | none =>
    rw [put_of_none hfind, Packed, List.length_append, List.length_singleton, List.range_succ]
    rw [List.map_append, List.map_append, hS]
    rfl
  | some u =>
    have hpositions := positions_put_of_some hfind
    have hlength : (S.put t u.2).length = S.length := by
      simpa using congrArg List.length hpositions
    rw [Packed, hpositions, hlength]
    exact hS

theorem Packed.rising (hS : S.Packed) (hlength : S.length ≤ placeLimit) : S.Rising := by
  have hpositions : (S.map (·.2)).Pairwise (· < ·) := by
    rw [hS]
    refine List.pairwise_map.2 (List.pairwise_lt_range.imp_of_mem ?_)
    intro i j hi hj hij
    rw [List.mem_range] at hj
    exact ofNat_lt_ofNat (by omega) hij
  exact List.pairwise_map.1 hpositions

theorem reads_of_perm {model : String} {M : Shelf}
    (hreads : ReadsBack Template.layout.coder S.templates) (hM : M.Perm (S.ofModel model)) :
    ReadsBack Template.layout.coder M.templates := by
  intro t ht
  obtain ⟨u, hu, rfl⟩ := List.mem_map.1 ht
  exact hreads u.1 (List.mem_map_of_mem (List.mem_filter.1 (hM.mem_iff.1 hu)).1)

theorem reads_rows {M : Shelf} (hreads : ReadsBack Template.layout.coder M.templates) :
    List.Forall₂ (StoredRow.Reads Template.layout.coder) (M.map row) M.templates := by
  refine List.forall₂_map_left_iff.2 (List.forall₂_map_right_iff.2 (List.forall₂_same.2 ?_))
  intro u hu
  exact hreads u.1 (List.mem_map_of_mem hu)

end Shelf

theorem Shelved.rows_ofModel (h : Shelved K S) (model : String) :
    ((S.ofModel model).map Shelf.row).Perm
      ((K.durable "templates").filter (·.model == model)) :=
  (h.filter (p := (·.model == model)) fun _ => rfl).symm

section

variable (h : Shelved K S) (hreads : ReadsBack Template.layout.coder S.templates)

include h hreads

/-- The templates of a model in an order in which positions rise. -/
theorem Shelved.templatesOf_yields {model : String} {M : Shelf} (hM : M.Perm (S.ofModel model))
    (hrising : M.Rising) : (Metadata.templatesOf model).Yields d se K M.templates K := by
  have hrows := (hM.map Shelf.row).trans (h.rows_ofModel model)
  apply Metadata.ask_yields
  apply (loadWhere_model_lists d se Template.layout.coder "templates" model).yields hrows
  · exact List.pairwise_map.2 hrising
  · exact Shelf.reads_rows (Shelf.reads_of_perm hreads hM)

/-- **Memory and tables give the same templates of a model exactly where positions rise.** -/
theorem Shelved.sameAnswer_templatesOf_iff (hS : S.templates = c.templates) (model : String) :
    Metadata.SameAnswer d se K c (Metadata.templatesOf model) ↔ (S.ofModel model).Rising := by
  have hmemory : ∀ s : Session, s.store = .memory c →
      (Metadata.templatesOf model).exec s = (.ok (S.ofModel model).templates, s) := by
    intro s hstore
    rw [Shelf.ofModel, Shelf.templates_filter (·.model == model), hS]
    exact Metadata.exec_ask_of_memory hstore
  constructor
  · rintro ⟨ts, hts, hyields⟩
    apply (h.distinct.filter _).rising_of_unique
    intro M hM hsorted
    -- the tables may give the templates in the order of `M`
    have hlisting : IsListing (·.model == model) (K.durable "templates") (M.map Shelf.row) :=
      ⟨(hM.map Shelf.row).trans (h.rows_ofModel model), List.pairwise_map.2 hsorted⟩
    have hgive := (loadWhere_model_lists d se Template.layout.coder "templates" model).mayGive K
      hlisting (Shelf.reads_rows (Shelf.reads_of_perm hreads hM))
    have hload : (loadWhere d Template.layout.coder "templates" "model_id" model).Yields d se K ts
        K := by
      refine hyields.congr fun s hstore => ?_
      rw [Metadata.templatesOf, Metadata.ofModel, Metadata.exec_ask_of_tables hstore]
    obtain ⟨hts', -⟩ := hload.of_mayGive hgive
    apply (h.distinct.filter _).eq_of_templates hM
    have hfound := hts { store := .memory c, rules := fun _ => .error "", idAt := fun _ => "" } rfl
    rw [hmemory _ rfl] at hfound
    rw [hts']
    exact (Except.ok.inj (Prod.mk.inj hfound).1).symm
  · intro hrising
    exact ⟨_, hmemory, h.templatesOf_yields hreads (.refl _) hrising⟩

theorem Shelved.sameAnswer_template? (hS : S.templates = c.templates) (id : String) :
    Metadata.SameAnswer d se K c (Metadata.template? id) := by
  -- ids differ, so the lookup finds one row at most and its position orders nothing
  have hone : Shelf.Rising (S.filter (·.1.id == id)) := by
    rw [Shelf.filter_id h.distinct]
    cases S.find? (·.1.id == id) with
    | none => exact .nil
    | some u => exact List.pairwise_singleton ..
  have hrows := (h.filter (p := (·.id == id)) (q := (·.1.id == id)) fun _ => rfl).symm
  have hload := (loadWhere_id_lists d se Template.layout.coder "templates" id).yields hrows
    (List.pairwise_map.2 hone) (Shelf.reads_rows fun t ht => hreads t ?_)
  · have hfirst := hload.map List.head?
    rw [Shelf.templates_filter (·.id == id), hS, List.head?_filter] at hfirst
    exact Metadata.sameAnswer_ask hfirst
  · rw [Shelf.templates_filter (·.id == id)] at ht
    exact (List.mem_filter.1 ht).1

end

end Tables

end MetaQuery
