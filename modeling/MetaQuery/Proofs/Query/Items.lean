/-
  MetaQuery/Proofs/Query/Items.lean
  =================================
  Fragments character by character.

  How the text of a fragment is cut into parts is no concern of what it says, so it is compared
  with other fragments as one row of characters and arguments.  Nothing is lost by that: a fragment
  that is built by putting texts and arguments behind one another never has an empty text or two
  texts in a row (`Fragment.IsNormal`), so its items determine its parts.
-/
import Mathlib.Data.List.Chain
import MetaQuery.Proofs.Query.Composition

namespace MetaQuery

/-- A character or an argument. -/
inductive Item where
  | char (c : Char)
  | arg (v : Cell)
deriving DecidableEq, Repr

namespace Item

/-- The argument of an item. -/
def arg? : Item → Option Cell
  | .arg v => some v
  | .char _ => none

/-- The text of some items behind `n` numbered arguments. -/
def render (d : Dialect) : Nat → List Item → List Char
  | _, [] => []
  | n, .char c :: r => c :: render d n r
  | n, .arg v :: r =>
    if v.isNull then "NULL".toList ++ render d n r
    else (d.placeholder (n + 1)).toList ++ render d (n + 1) r

theorem render_chars_append (d : Dialect) (n : Nat) (cs : List Char) (r : List Item) :
    render d n (cs.map .char ++ r) = cs ++ render d n r := by
  induction cs with
  | nil => rfl
  | cons c cs ih => rw [List.map_cons, List.cons_append, render, ih, List.cons_append]

theorem filterMap_arg?_chars (cs : List Char) : (cs.map Item.char).filterMap arg? = [] := by
  induction cs with
  | nil => rfl
  | cons c cs ih => exact ih

end Item

/-- The items of a part. -/
def Part.items : Part → List Item
  | .text s => s.toList.map .char
  | .arg v => [.arg v]

/-- The text of some parts is that of their items. -/
theorem Part.toList_render (d : Dialect) (n : Nat) (parts : List Part) :
    (render d n parts).toList = Item.render d n (parts.flatMap items) := by
  induction parts generalizing n with
  | nil => rfl
  | cons p r ih =>
    cases p with
    | text s =>
      rw [render, String.toList_append, ih, List.flatMap_cons, items, Item.render_chars_append]
    | arg v =>
      rw [render, List.flatMap_cons, items, List.singleton_append, Item.render]
      split
      · rw [String.toList_append, ih]
      · rw [String.toList_append, ih]

namespace Fragment

/-- The items of a fragment. -/
def items (f : Fragment) : List Item := f.parts.flatMap Part.items

@[simp] theorem items_empty : empty.items = [] := rfl

theorem toList_render (d : Dialect) (n : Nat) (f : Fragment) :
    (Part.render d n f.parts).toList = Item.render d n f.items :=
  Part.toList_render d n f.parts

theorem args_eq_items (f : Fragment) : f.args = f.items.filterMap Item.arg? := by
  have hparts : ∀ parts : List Part,
      parts.filterMap Part.arg? = (parts.flatMap Part.items).filterMap Item.arg? := by
    intro parts
    induction parts with
    | nil => rfl
    | cons p r ih =>
      rw [List.flatMap_cons, List.filterMap_append, ← ih]
      cases p with
      | text s => rw [Part.items, Item.filterMap_arg?_chars]; rfl
      | arg v => rfl
  exact hparts f.parts

@[simp] theorem items_putText (f : Fragment) (s : String) :
    (f.putText s).items = f.items ++ s.toList.map .char := by
  have hparts : ∀ parts : List Part,
      (addText s parts).flatMap Part.items = parts.flatMap Part.items ++ s.toList.map .char := by
    intro parts
    fun_induction addText s parts with
    | case1 => simp [Part.items]
    | case2 t => simp [Part.items]
    | case3 p r hr ih => rw [List.flatMap_cons, ih, List.flatMap_cons, List.append_assoc]
  unfold putText
  split
  · next hs => simp [hs]
  · exact hparts f.parts

@[simp] theorem items_putArg (f : Fragment) (v : Cell) :
    (f.putArg v).items = f.items ++ [.arg v] := by
  simp [items, putArg, Part.items]

end Fragment

/-! ### Normal form -/

/-- The part is a text. -/
def Part.isText : Part → Bool
  | .text _ => true
  | .arg _ => false

/-- One of the parts is an argument. -/
def Part.Apart (p q : Part) : Prop := p.isText = true → q.isText = false

namespace Fragment

/-- No text of the fragment is empty, and no two texts stand in a row. -/
structure IsNormal (f : Fragment) : Prop where
  nonempty : .text "" ∉ f.parts
  apart : f.parts.IsChain Part.Apart

theorem isNormal_empty : empty.IsNormal := ⟨nofun, .nil⟩

theorem isText_head_addText (s : String) (p : Part) (r : List Part) :
    ∀ q ∈ (addText s (p :: r)).head?, q.isText = p.isText := by
  intro q hq
  -- the text is added to the last part, and no part changes its kind
  cases r with
  | nil =>
    cases p with
    | text t =>
      obtain rfl : Part.text (t ++ s) = q := by simpa [addText] using hq
      rfl
    | arg v =>
      obtain rfl : Part.arg v = q := by simpa [addText] using hq
      rfl
  | cons p' r =>
    rw [addText_cons (List.cons_ne_nil p' r)] at hq
    obtain rfl : p = q := by simpa using hq
    rfl

theorem isChain_addText (s : String) {parts : List Part} (h : parts.IsChain Part.Apart) :
    (addText s parts).IsChain Part.Apart := by
  fun_induction addText s parts with
  | case1 => exact .singleton _
  | case2 t => exact .singleton _
  | case3 p r hr ih =>
    obtain ⟨hhead, htail⟩ := List.isChain_cons.1 h
    refine List.isChain_cons.2 ⟨fun q hq => ?_, ih htail⟩
    cases r with
    | nil =>
      -- a text alone would have been joined
      cases p with
      | text t => exact (hr t rfl rfl).elim
      | arg v =>
        intro htext
        cases htext
    | cons p' r =>
      have hkind := isText_head_addText s p' r q hq
      rw [Part.Apart, hkind]
      exact hhead p' rfl

theorem text_empty_notMem_addText {s : String} (hs : s ≠ "") {parts : List Part}
    (h : .text "" ∉ parts) : .text "" ∉ addText s parts := by
  fun_induction addText s parts with
  | case1 => simpa using Ne.symm hs
  | case2 t => simp [hs]
  | case3 p r hr ih =>
    rw [List.mem_cons, not_or] at h ⊢
    exact ⟨h.1, ih h.2⟩

theorem IsNormal.putText {f : Fragment} (h : f.IsNormal) (s : String) : (f.putText s).IsNormal := by
  unfold Fragment.putText
  split
  · exact h
  · next hs => exact ⟨text_empty_notMem_addText hs h.nonempty, isChain_addText s h.apart⟩

theorem IsNormal.putArg {f : Fragment} (h : f.IsNormal) (v : Cell) : (f.putArg v).IsNormal where
  nonempty := by
    have hnonempty := h.nonempty
    simpa [Fragment.putArg] using hnonempty
  apart := by
    refine List.isChain_append.2 ⟨h.apart, .singleton _, fun p _ q hq => ?_⟩
    obtain rfl : Part.arg v = q := by simpa using hq
    exact fun _ => rfl

end Fragment

namespace Item

/-- Some items as parts: characters in a row are one text. -/
def parts : List Item → List Part
  | [] => []
  | .arg v :: r => .arg v :: parts r
  | .char c :: r =>
    match parts r with
    | .text s :: ps => .text (String.singleton c ++ s) :: ps
    | ps => .text (String.singleton c) :: ps

theorem parts_chars_append {cs : List Char} (hcs : cs ≠ []) {r : List Item}
    (hr : ∀ p ∈ (parts r).head?, p.isText = false) :
    parts (cs.map .char ++ r) = .text (String.ofList cs) :: parts r := by
  induction cs with
  | nil => exact absurd rfl hcs
  | cons c cs ih =>
    by_cases hone : cs = []
    · obtain rfl := hone
      rw [List.map_singleton, List.singleton_append, parts]
      split
      · next s ps heq =>
        rw [heq] at hr
        cases hr (.text s) rfl
      · rfl
    · rw [List.map_cons, List.cons_append, parts, ih hone]
      -- the characters before join the text that the rest begins with
      have happend : String.ofList ([c] ++ cs) = String.ofList [c] ++ String.ofList cs :=
        String.ofList_append
      exact congrArg (Part.text · :: parts r) happend.symm

/-- A row of characters is one text, if it is not empty. -/
theorem parts_chars (cs : List Char) :
    parts (cs.map .char) = if cs = [] then [] else [.text (String.ofList cs)] := by
  split
  · next hcs => rw [hcs]; rfl
  · next hcs =>
    have hparts := parts_chars_append hcs (r := []) nofun
    rwa [List.append_nil] at hparts

end Item

namespace Fragment

/-- The items of a fragment in normal form determine its parts. -/
theorem IsNormal.parts_items {f : Fragment} (h : f.IsNormal) : Item.parts f.items = f.parts := by
  obtain ⟨parts⟩ := f
  obtain ⟨hnonempty, hapart⟩ := h
  induction parts with
  | nil => rfl
  | cons p r ih =>
    -- no two texts stand side by side, so none of them run together
    obtain ⟨hhead, htail⟩ := List.isChain_cons.1 hapart
    have hrest := ih (fun hmem => hnonempty (List.mem_cons_of_mem p hmem)) htail
    cases p with
    | arg v => exact congrArg (Part.arg v :: ·) hrest
    | text s =>
      have hs : s.toList ≠ [] := by
        intro hempty
        obtain rfl := String.toList_eq_nil_iff.1 hempty
        exact hnonempty List.mem_cons_self
      have happend := Item.parts_chars_append hs (r := (Fragment.mk r).items) (by
        rw [hrest]
        exact fun p hp => hhead p hp rfl)
      rw [hrest, String.ofList_toList] at happend
      exact happend

theorem IsNormal.ext_items {f g : Fragment} (hf : f.IsNormal) (hg : g.IsNormal)
    (h : f.items = g.items) : f = g := by
  have hparts : f.parts = g.parts := by rw [← hf.parts_items, h, hg.parts_items]
  cases f
  cases g
  exact congrArg Fragment.mk hparts

end Fragment

end MetaQuery
