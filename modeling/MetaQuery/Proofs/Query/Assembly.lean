/-
  MetaQuery/Proofs/Query/Assembly.lean
  ====================================
  Fragments are a normal form of what is put into them.

  Whatever order texts, arguments and other fragments are put behind one another in, no part of the
  result is an empty text, and no two texts are neighbours (`Assembly.isNormal_fragment`).  Its
  items are those that were put in, in their order (`Assembly.items_fragment`), and in normal form
  items determine parts.  So two fragments are equal just when the same characters and arguments
  were put into them, which makes appending associative, and a fragment is empty just when neither
  a character nor an argument was (`assembled_normal`).
-/
import MetaQuery.Proofs.Query.Items

namespace MetaQuery

namespace Fragment

/-! ### Appending -/

theorem append_putPart (f g : Fragment) (p : Part) :
    f.append (g.putPart p) = (f.append g).putPart p := by
  cases p with
  | text s => exact append_putText f g s
  | arg v => exact append_putArg f g v

theorem append_assoc (f g h : Fragment) : (f.append g).append h = f.append (g.append h) := by
  have hparts : ∀ (parts : List Part) (g : Fragment),
      parts.foldl putPart (f.append g) = f.append (parts.foldl putPart g) := by
    intro parts
    induction parts with
    | nil => exact fun g => rfl
    | cons p r ih =>
      intro g
      rw [List.foldl_cons, ← append_putPart, ih, List.foldl_cons]
  exact hparts h.parts g

@[simp] theorem append_empty (f : Fragment) : f.append empty = f := rfl

@[simp] theorem items_putPart (f : Fragment) (p : Part) :
    (f.putPart p).items = f.items ++ p.items := by
  cases p with
  | text s => exact items_putText f s
  | arg v => exact items_putArg f v

@[simp] theorem items_append (f g : Fragment) : (f.append g).items = f.items ++ g.items := by
  have hparts : ∀ (parts : List Part) (f : Fragment),
      (parts.foldl putPart f).items = f.items ++ parts.flatMap Part.items := by
    intro parts
    induction parts with
    | nil => exact fun f => (List.append_nil _).symm
    | cons p r ih =>
      intro f
      rw [List.foldl_cons, ih, items_putPart, List.flatMap_cons, List.append_assoc]
  exact hparts g.parts f

theorem IsNormal.putPart {f : Fragment} (h : f.IsNormal) (p : Part) : (f.putPart p).IsNormal := by
  cases p with
  | text s => exact h.putText s
  | arg v => exact h.putArg v

/-- Only the front needs to be in normal form: all behind it is put there part by part. -/
theorem IsNormal.append {f : Fragment} (h : f.IsNormal) (g : Fragment) : (f.append g).IsNormal := by
  have hparts : ∀ (parts : List Part) {f : Fragment}, f.IsNormal →
      (parts.foldl Fragment.putPart f).IsNormal := by
    intro parts
    induction parts with
    | nil => exact fun hf => hf
    | cons p r ih => exact fun hf => ih (hf.putPart p)
  exact hparts g.parts h

theorem IsNormal.empty_append {f : Fragment} (h : f.IsNormal) : empty.append f = f := by
  refine (isNormal_empty.append f).ext_items h ?_
  rw [items_append, items_empty, List.nil_append]

theorem IsNormal.isEmpty_iff {f : Fragment} (h : f.IsNormal) :
    f.isEmpty = true ↔ f.items = [] := by
  constructor
  · intro hempty
    rw [items, List.isEmpty_iff.1 hempty, List.flatMap_nil]
  · intro hitems
    rw [h.ext_items isNormal_empty hitems]
    rfl

end Fragment

/-! ### Histories -/

/-- How a fragment is put together. -/
inductive Assembly where
  | empty
  | ofText (s : String)
  | putText (a : Assembly) (s : String)
  | putArg (a : Assembly) (v : Cell)
  | append (a b : Assembly)

namespace Assembly

/-- The fragment that is put together. -/
def fragment : Assembly → Fragment
  | .empty => .empty
  | .ofText s => .ofText s
  | .putText a s => a.fragment.putText s
  | .putArg a v => a.fragment.putArg v
  | .append a b => a.fragment.append b.fragment

/-- All texts and arguments that are put in, one by one. -/
def pushed : Assembly → List Part
  | .empty => []
  | .ofText s => [.text s]
  | .putText a s => a.pushed ++ [.text s]
  | .putArg a v => a.pushed ++ [.arg v]
  | .append a b => a.pushed ++ b.pushed

/-- Every step of an assembly leaves a fragment in normal form. -/
theorem isNormal_fragment (a : Assembly) : a.fragment.IsNormal := by
  induction a with
  | empty => exact Fragment.isNormal_empty
  | ofText s => exact Fragment.isNormal_empty.putText s
  | putText a s ih => exact ih.putText s
  | putArg a v ih => exact ih.putArg v
  | append a b iha _ => exact iha.append b.fragment

/-- Nothing that is put in is lost, and its order is kept. -/
theorem items_fragment (a : Assembly) : a.fragment.items = a.pushed.flatMap Part.items := by
  induction a with
  | empty => rfl
  | ofText s => simp [fragment, pushed, Fragment.ofText, Part.items]
  | putText a s ih => simp [fragment, pushed, ih, Part.items]
  | putArg a v ih => simp [fragment, pushed, ih, Part.items]
  | append a b iha ihb => simp [fragment, pushed, iha, ihb]

end Assembly

theorem Part.items_eq_nil_iff {p : Part} : p.items = [] ↔ p = .text "" := by
  cases p with
  | text s => simp [items]
  | arg v => simp [items]

/-- **Fragments are a normal form.**  Put together in any way, they have neither empty texts nor
    texts next to each other; they are equal just when the same characters and arguments were put
    in, and empty just when only empty texts were.  Appending is associative, with the empty
    fragment as its unit, and what is appended is written behind, as text and as arguments. -/
theorem assembled_normal (a b c : Assembly) :
    a.fragment.IsNormal ∧
      (a.fragment.append b.fragment).append c.fragment =
        a.fragment.append (b.fragment.append c.fragment) ∧
      Fragment.empty.append a.fragment = a.fragment ∧
      a.fragment.append Fragment.empty = a.fragment ∧
      (a.fragment.isEmpty = true ↔ ∀ p ∈ a.pushed, p = .text "") ∧
      (a.fragment = b.fragment ↔
        a.pushed.flatMap Part.items = b.pushed.flatMap Part.items) ∧
      ∀ st, (a.fragment.append b.fragment).write st = b.fragment.write (a.fragment.write st) := by
  have ha := a.isNormal_fragment
  refine ⟨ha, Fragment.append_assoc _ _ _, ha.empty_append, Fragment.append_empty _, ?_, ?_,
    Fragment.write_append _ _⟩
  · simp only [ha.isEmpty_iff, a.items_fragment, List.flatMap_eq_nil_iff, Part.items_eq_nil_iff]
  · rw [← a.items_fragment, ← b.items_fragment]
    exact ⟨congrArg Fragment.items, ha.ext_items b.isNormal_fragment⟩

end MetaQuery
