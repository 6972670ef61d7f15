/-
  MetaQuery/Proofs/Tree/Rooted.lean
  =================================
  Keys that hang at the root.

  A key is rooted when its row names the root as its parent, or a key that is rooted; these are the
  keys of the rows that a forest holds (`rooted_of_reached`, `reached_of_rooted`).  Among the rooted
  keys no row is its own ancestor, whatever cycles and orphans there are beside them (`isForest`).
  When a row gets another parent, all rooted keys stay so just when the row was not rooted, or its
  new parent is the root or rooted itself (`rooted_reparent_iff`), as long as the row is not above
  that parent.
-/
import MetaQuery.Proofs.Tree.Nesting
import MetaQuery.Proofs.Tree.Records

open Relation

namespace MetaQuery

namespace TreeTable

variable {T : TreeTable}

/-- The parents of the row lead up to the root. -/
inductive Rooted (T : TreeTable) : String → Prop where
  | top {r : TreeRow} (hr : r ∈ T) (hroot : isRootKey r.parent.display = true) :
      Rooted T r.key.display
  | under {r : TreeRow} (hr : r ∈ T) (hnot : isRootKey r.parent.display = false)
      (hparent : Rooted T r.parent.display) : Rooted T r.key.display

theorem Rooted.mem_texts {text : String} (h : T.Rooted text) : text ∈ T.texts := by
  cases h with
  | top hr _ => exact List.mem_map_of_mem hr
  | under hr _ _ => exact List.mem_map_of_mem hr

theorem Rooted.mono {T' : TreeTable} {text : String} (h : T.Rooted text) (hsub : T ⊆ T') :
    T'.Rooted text := by
  induction h with
  | top hr hroot => exact .top (hsub hr) hroot
  | under hr hnot _ ih => exact .under (hsub hr) hnot ih

/-! ### Rows that are rooted -/

/-- The rows with rooted keys, other than those of the root. -/
def IsRootedPart (T rooted : TreeTable) : Prop :=
  ∀ r, r ∈ rooted ↔ r ∈ T ∧ isRootKey r.key.display = false ∧ T.Rooted r.key.display

theorem exists_rootedPart (T : TreeTable) : ∃ rooted, T.IsRootedPart rooted := by
  classical
  refine ⟨T.filter fun r => isRootKey r.key.display = false ∧ T.Rooted r.key.display, fun r => ?_⟩
  rw [List.mem_filter, decide_eq_true_eq]

namespace IsRootedPart

variable {rooted : TreeTable}

theorem not_root (h : T.IsRootedPart rooted) {text : String} (htext : text ∈ rooted.texts) :
    isRootKey text = false := by
  obtain ⟨r, hr, rfl⟩ := List.mem_map.1 htext
  exact ((h r).1 hr).2.1

/-- The link from a row of the table leads to its parent. -/
theorem parent_of_link (h : T.IsRootedPart rooted) (hT : T.texts.Nodup) {r : TreeRow} (hr : r ∈ T)
    {next : String} (hlink : rooted.Link r.key.display next) : next = r.parent.display := by
  obtain ⟨r', hr', hkey, -, rfl⟩ := hlink
  rw [List.inj_on_of_nodup_map hT ((h r').1 hr').1 hr hkey]

theorem link (h : T.IsRootedPart rooted) {r : TreeRow} (hr : r ∈ T)
    (hkey : isRootKey r.key.display = false) (hrooted : T.Rooted r.key.display)
    (hnot : isRootKey r.parent.display = false) :
    rooted.Link r.key.display r.parent.display := by
  refine ⟨r, (h r).2 ⟨hr, hkey, hrooted⟩, rfl, ?_, rfl⟩
  -- NULL names the root
  cases hparent : r.parent with
  | null =>
    rw [hparent] at hnot
    exact absurd hnot (by decide)
  | int i => rfl
  | float x => rfl
  | bool b => rfl
  | text s => rfl

/-- **The rooted rows are a forest**, whatever the rest of the table is. -/
theorem isForest (h : T.IsRootedPart rooted) (hT : T.texts.Nodup) : rooted.IsForest := by
  have hnone : ∀ {text : String}, T.Rooted text → isRootKey text = false →
      ¬ TransGen rooted.Link text text := by
    -- a loop goes through the parent, so it comes down to a key under the root
    intro text htext hnot hloop
    induction htext with
    | top hr hroot =>
      obtain ⟨next, hlink, hback⟩ := TransGen.head'_iff.1 hloop
      obtain rfl := h.parent_of_link hT hr hlink
      rcases hback.cases_head with hsame | ⟨next, hlink', -⟩
      · rw [hsame, hnot] at hroot
        cases hroot
      · rw [h.not_root hlink'.mem_texts] at hroot
        cases hroot
    | under hr hparent _ ih =>
      obtain ⟨next, hlink, hback⟩ := TransGen.head'_iff.1 hloop
      obtain rfl := h.parent_of_link hT hr hlink
      exact ih hparent (TransGen.tail' hback hlink)
  intro r hr
  obtain ⟨-, hnot, hrooted⟩ := (h r).1 hr
  exact hnone hrooted hnot

end IsRootedPart

/-! ### Another parent -/

section Reparent

variable {same : Cell → Cell → Bool} {key parent : Cell} {text : String}

theorem mem_reparent_of_ne (hsame : ∀ r ∈ T, same r.key key = true ↔ r.key.display = text)
    {r : TreeRow} (hr : r ∈ T) (hne : r.key.display ≠ text) : r ∈ T.reparent same key parent := by
  refine List.mem_map.2 ⟨r, hr, if_neg ?_⟩
  rwa [hsame r hr]

theorem exists_moved (parent : Cell)
    (hsame : ∀ r ∈ T, same r.key key = true ↔ r.key.display = text)
    (htext : text ∈ T.texts) :
    ∃ r ∈ T.reparent same key parent, r.key.display = text ∧ r.parent = parent := by
  obtain ⟨r, hr, rfl⟩ := List.mem_map.1 htext
  exact ⟨⟨r.key, parent⟩, List.mem_map.2 ⟨r, hr, if_pos ((hsame r hr).2 rfl)⟩, rfl, rfl⟩

/-- A row of the new table is the moved one, or it was there. -/
theorem of_mem_reparent (hsame : ∀ r ∈ T, same r.key key = true ↔ r.key.display = text)
    {r' : TreeRow} (hr' : r' ∈ T.reparent same key parent) :
    r'.key.display = text ∧ r'.parent = parent ∨ r'.key.display ≠ text ∧ r' ∈ T := by
  obtain ⟨r, hr, rfl⟩ := List.mem_map.1 hr'
  by_cases hkey : same r.key key = true
  · rw [if_pos hkey]
    exact .inl ⟨(hsame r hr).1 hkey, rfl⟩
  · rw [if_neg hkey]
    exact .inr ⟨fun heq => hkey ((hsame r hr).2 heq), hr⟩

theorem texts_reparent : (T.reparent same key parent).texts = T.texts := by
  rw [texts, reparent, List.map_map]
  refine List.map_congr_left fun r _ => ?_
  dsimp only [Function.comp]
  split <;> rfl

/-- A key that is rooted afterwards was so before, unless it hangs under the moved row, and then
    the new parent was. -/
theorem rooted_of_reparent (hsame : ∀ r ∈ T, same r.key key = true ↔ r.key.display = text)
    (hnot : isRootKey parent.display = false) {x : String}
    (h : (T.reparent same key parent).Rooted x) : T.Rooted x ∨ T.Rooted parent.display := by
  induction h with
  | top hr hroot =>
    rcases of_mem_reparent hsame hr with ⟨-, rfl⟩ | ⟨-, hr⟩
    · rw [hnot] at hroot
      cases hroot
    · exact .inl (.top hr hroot)
  | under hr hnot _ ih =>
    rcases of_mem_reparent hsame hr with ⟨-, rfl⟩ | ⟨-, hr⟩
    · exact .inr (ih.elim id id)
    · exact ih.imp_left (.under hr hnot)

/-- A rooted key stays so if the moved one does. -/
theorem Rooted.reparent (hsame : ∀ r ∈ T, same r.key key = true ↔ r.key.display = text)
    (hmoved : T.Rooted text → (T.reparent same key parent).Rooted text) {x : String}
    (h : T.Rooted x) : (T.reparent same key parent).Rooted x := by
  induction h with
  | @top r hr hroot =>
    by_cases heq : r.key.display = text
    · rw [heq]
      exact hmoved (heq ▸ .top hr hroot)
    · exact .top (mem_reparent_of_ne hsame hr heq) hroot
  | @under r hr hnot hparent ih =>
    by_cases heq : r.key.display = text
    · rw [heq]
      exact hmoved (heq ▸ .under hr hnot hparent)
    · exact .under (mem_reparent_of_ne hsame hr heq) hnot ih

/-- A rooted key stays so if the moved row is not above it. -/
theorem Rooted.reparent_of_free {rooted : TreeTable} (hpart : T.IsRootedPart rooted)
    (hsame : ∀ r ∈ T, same r.key key = true ↔ r.key.display = text) {x : String}
    (h : T.Rooted x) (hnot : isRootKey x = false)
    (hfree : isRootKey text = false → ¬ ReflTransGen rooted.Link x text) :
    (T.reparent same key parent).Rooted x := by
  have hne : ∀ {x : String}, isRootKey x = false →
      (isRootKey text = false → ¬ ReflTransGen rooted.Link x text) → x ≠ text := by
    rintro x hnot hfree rfl
    exact hfree hnot .refl
  induction h with
  | top hr hroot => exact .top (mem_reparent_of_ne hsame hr (hne hnot hfree)) hroot
  | under hr hparent hrooted ih =>
    have hlink := hpart.link hr hnot (.under hr hparent hrooted) hparent
    refine .under (mem_reparent_of_ne hsame hr (hne hnot hfree)) hparent (ih hparent ?_)
    exact fun htext hpath => hfree htext (.head hlink hpath)

/-- **When rooted keys stay rooted**: the moved row was not rooted, or it is put under the root or
    under a rooted key. -/
theorem rooted_reparent_iff {rooted : TreeTable} (hpart : T.IsRootedPart rooted)
    (hsame : ∀ r ∈ T, same r.key key = true ↔ r.key.display = text)
    (hfree : T.Rooted text → isRootKey text = false →
      ¬ ReflTransGen rooted.Link parent.display text) :
    (∀ x, T.Rooted x → (T.reparent same key parent).Rooted x) ↔
      (T.Rooted text → isRootKey parent.display = true ∨ T.Rooted parent.display) := by
  constructor
  · intro hall htext
    have hmoved := hall text htext
    by_contra hlost
    obtain ⟨hnot, hparent⟩ := not_or.1 hlost
    rw [Bool.not_eq_true] at hnot
    have hnone : ∀ r ∈ T.reparent same key parent, r.key.display = text → r.parent = parent := by
      intro r hr heq
      rcases of_mem_reparent hsame hr with ⟨-, hmoved⟩ | ⟨hne, -⟩
      · exact hmoved
      · exact absurd heq hne
    -- the moved row alone decides: it stays rooted only through its new parent
    generalize hx : text = x at hmoved
    cases hmoved with
    | top hr hroot =>
      rw [hnone _ hr hx.symm, hnot] at hroot
      cases hroot
    | under hr _ hup =>
      rw [hnone _ hr hx.symm] at hup
      exact hparent ((rooted_of_reparent hsame hnot hup).elim id id)
  -- any other way to a root is kept, and one that passes the moved row goes on from its new parent
  · intro hrooted x hx
    refine hx.reparent hsame fun htext => ?_
    obtain ⟨r, hr, rfl, rfl⟩ := exists_moved parent hsame htext.mem_texts
    cases hroot : isRootKey r.parent.display with
    | true => exact .top hr hroot
    | false =>
      have hparent : T.Rooted r.parent.display := by
        rcases hrooted htext with htop | hparent
        · rw [hroot] at htop
          cases htop
        · exact hparent
      exact .under hr hroot (hparent.reparent_of_free hpart hsame hroot (hfree htext))

end Reparent

end TreeTable

/-! ### Rows that a forest holds -/

namespace Model

variable {m : Model} {rows : List Record}

theorem mem_treeTable {r : Record} (hr : r ∈ rows) :
    ⟨(r.get? m.key).getD .null, (r.get? m.entry.parentField).getD .null⟩ ∈ m.treeTable rows :=
  List.mem_map_of_mem hr

/-- A key is rooted under the root, and under a key that is rooted. -/
theorem rooted_of_parent {r : Record} (hr : r ∈ rows)
    (hparent : isRootKey (keyText (r.get? m.entry.parentField)) = false →
      (m.treeTable rows).Rooted (keyText (r.get? m.entry.parentField))) :
    (m.treeTable rows).Rooted (keyText (r.get? m.key)) := by
  rw [keyText_eq] at hparent
  rw [keyText_eq (r.get? m.key)]
  cases hroot : isRootKey ((r.get? m.entry.parentField).getD .null).display with
  | true => exact .top (mem_treeTable hr) hroot
  | false => exact .under (mem_treeTable hr) hroot (keyText_eq _ ▸ hparent hroot)

theorem rooted_of_reached {r : Record} (h : Reached m.key m.entry.parentField rows r) :
    (m.treeTable rows).Rooted (keyText (r.get? m.key)) := by
  induction h with
  | top hr hroot =>
    refine rooted_of_parent hr fun hnot => ?_
    rw [parentKey_of_not _ hnot] at hroot
    rw [hroot] at hnot
    exact absurd hnot (by decide)
  | under _ hr hparent ih =>
    refine rooted_of_parent hr fun hnot => ?_
    rw [← parentKey_of_not _ hnot, hparent]
    exact ih

/-- **Rooted keys are reached**, where they are distinct: the row that makes a key rooted is then
    the one that has the key. -/
theorem reached_of_rooted (hT : (m.treeTable rows).texts.Nodup) {x : String}
    (h : (m.treeTable rows).Rooted x) {r : Record} (hr : r ∈ rows)
    (hkey : keyText (r.get? m.key) = x) : Reached m.key m.entry.parentField rows r := by
  induction h generalizing r with
  | top htr hroot =>
    rw [keyText_eq] at hkey
    rw [← List.inj_on_of_nodup_map hT (mem_treeTable hr) htr hkey] at hroot
    exact .top hr (parentKey_of_root _ (keyText_eq _ ▸ hroot))
  | under htr hnot hrooted ih =>
    rw [keyText_eq] at hkey
    rw [← List.inj_on_of_nodup_map hT (mem_treeTable hr) htr hkey] at hnot hrooted ih
    -- a rooted parent is the key of a row, and that one is reached
    obtain ⟨p, hp, hpkey⟩ := mem_texts_treeTable.1 hrooted.mem_texts
    have hup := ih hp hpkey
    rw [← keyText_eq] at hnot hpkey
    refine .under hup hr ?_
    rw [parentKey_of_not _ hnot, hpkey]

end Model

end MetaQuery
