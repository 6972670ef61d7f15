/-
  MetaQuery/Proofs/Query/Composition.lean
  =======================================
  Fragments put together.

  Putting a piece behind a fragment that is then put behind another one is the same as putting the
  piece behind both (`append_putText`, `append_putArg`).  So a fragment that ends with a piece
  leaves nothing empty that it is put behind, which tells whether a clause is written at all.
-/
import MetaQuery.Proofs.Query.Numbering
import MetaQuery.Query.Predicate

namespace MetaQuery

namespace Fragment

/-! ### Texts behind texts -/

theorem addText_ne_nil (s : String) (parts : List Part) : addText s parts ≠ [] := by
  fun_cases addText s parts with
  | case1 => exact List.cons_ne_nil _ _
  | case2 t => exact List.cons_ne_nil _ _
  | case3 p r hr => exact List.cons_ne_nil _ _

theorem addText_cons {parts : List Part} (h : parts ≠ []) (s : String) (p : Part) :
    addText s (p :: parts) = p :: addText s parts := by
  cases parts with
  | nil => exact absurd rfl h
  | cons q r => simp [addText]

theorem addText_addText (s t : String) (parts : List Part) :
    addText t (addText s parts) = addText (s ++ t) parts := by
  fun_induction addText s parts with
  | case1 => rfl
  | case2 u => simp [addText, String.append_assoc]
  | case3 p r hr ih =>
    have hrest : addText (s ++ t) (p :: r) = p :: addText (s ++ t) r := by
      cases r with
      | nil =>
        cases p with
        | text u => exact absurd rfl (hr u rfl)
        | arg v => rfl
      | cons q r => exact addText_cons (List.cons_ne_nil q r) _ p
    rw [addText_cons (addText_ne_nil s r), ih, hrest]

theorem putText_putText (f : Fragment) (s t : String) :
    (f.putText s).putText t = f.putText (s ++ t) := by
  by_cases hs : s = ""
  · simp [hs]
  · by_cases ht : t = ""
    · simp [ht]
    · have hst : s ++ t ≠ "" := by
        intro h
        exact hs (String.append_eq_empty_iff.1 h).1
      simp [putText, hs, ht, hst, addText_addText]

/-! ### Fragments behind fragments -/

theorem append_ofText (f : Fragment) (s : String) : f.append (ofText s) = f.putText s := by
  by_cases hs : s = ""
  · simp [hs, ofText, append]
  · simp [ofText, putText, hs, append, addText, putPart]

theorem append_putText (f g : Fragment) (s : String) :
    f.append (g.putText s) = (f.append g).putText s := by
  have hparts : ∀ (parts : List Part) (f : Fragment),
      (addText s parts).foldl putPart f = (parts.foldl putPart f).putText s := by
    intro parts
    fun_induction addText s parts with
    | case1 => exact fun f => rfl
    | case2 t => exact fun f => (f.putText_putText t s).symm
    | case3 p r hr ih => exact fun f => ih (f.putPart p)
  by_cases hs : s = ""
  · simp [hs]
  · rw [putText, if_neg hs]
    exact hparts g.parts f

theorem append_putArg (f g : Fragment) (v : Cell) :
    f.append (g.putArg v) = (f.append g).putArg v := by
  simp [append, putArg, List.foldl_append, putPart]

/-! ### Empty fragments -/

@[simp] theorem isEmpty_putArg (f : Fragment) (v : Cell) : (f.putArg v).isEmpty = false := by
  simp [isEmpty, putArg]

theorem isEmpty_putText_of_ne {s : String} (h : s ≠ "") (f : Fragment) :
    (f.putText s).isEmpty = false := by
  have hne := addText_ne_nil s f.parts
  simp [isEmpty, putText, h, hne]

theorem isEmpty_putText {f : Fragment} (h : f.isEmpty = false) (s : String) :
    (f.putText s).isEmpty = false := by
  by_cases hs : s = ""
  · rw [hs, putText_empty, h]
  · exact isEmpty_putText_of_ne hs f

/-! ### Texts of fragments -/

/-- A statement behind which numbering goes on from `n`. -/
def numberedFrom (d : Dialect) (n : Nat) : Statement := ⟨d, "", List.replicate n .null⟩

theorem write_numberedFrom (f : Fragment) (d : Dialect) (n : Nat) :
    f.write (numberedFrom d n) =
      ⟨d, Part.render d n f.parts, List.replicate n .null ++ Part.numbered f.parts⟩ := by
  rw [write_eq_foldl, foldl_writePart, numberedFrom, List.length_replicate, String.empty_append]

theorem render_putText (d : Dialect) (n : Nat) (f : Fragment) (s : String) :
    Part.render d n (f.putText s).parts = Part.render d n f.parts ++ s := by
  have hwrite := f.write_putText s (numberedFrom d n)
  rw [write_numberedFrom, write_numberedFrom] at hwrite
  exact congrArg Statement.text hwrite

theorem numbered_putText (f : Fragment) (s : String) :
    Part.numbered (f.putText s).parts = Part.numbered f.parts := by
  have hwrite := f.write_putText s (numberedFrom .ansi 0)
  rw [write_numberedFrom, write_numberedFrom] at hwrite
  exact congrArg Statement.args hwrite

theorem render_ofText (d : Dialect) (n : Nat) (s : String) :
    Part.render d n (ofText s).parts = s :=
  (render_putText d n empty s).trans String.empty_append

theorem numbered_ofText (s : String) : Part.numbered (ofText s).parts = [] :=
  numbered_putText empty s

theorem render_putArg (d : Dialect) (n : Nat) (f : Fragment) (v : Cell) :
    Part.render d n (f.putArg v).parts = Part.render d n f.parts ++
      (if v.isNull then "NULL" else d.placeholder (n + (Part.numbered f.parts).length + 1)) := by
  have hwrite := f.write_putArg v (numberedFrom d n)
  rw [write_numberedFrom, write_numberedFrom, Statement.putArg_eq, List.length_append,
    List.length_replicate] at hwrite
  exact congrArg Statement.text hwrite

theorem numbered_putArg (f : Fragment) (v : Cell) :
    Part.numbered (f.putArg v).parts = Part.numbered f.parts ++ [v].filter (!·.isNull) := by
  have hwrite := f.write_putArg v (numberedFrom .ansi 0)
  rw [write_numberedFrom, write_numberedFrom, Statement.putArg_eq] at hwrite
  exact congrArg Statement.args hwrite

theorem render_append (d : Dialect) (n : Nat) (f g : Fragment) :
    Part.render d n (f.append g).parts =
      Part.render d n f.parts ++ Part.render d (n + (Part.numbered f.parts).length) g.parts := by
  have hwrite := f.write_append g (numberedFrom d n)
  rw [write_numberedFrom, write_numberedFrom, write_eq_foldl, foldl_writePart, List.length_append,
    List.length_replicate] at hwrite
  exact congrArg Statement.text hwrite

theorem numbered_append (f g : Fragment) :
    Part.numbered (f.append g).parts = Part.numbered f.parts ++ Part.numbered g.parts := by
  have hwrite := f.write_append g (numberedFrom .ansi 0)
  rw [write_numberedFrom, write_numberedFrom, write_eq_foldl, foldl_writePart] at hwrite
  exact congrArg Statement.args hwrite

end Fragment

/-! ### Predicates and chains -/

open Fragment

theorem ne_empty_of_blank (left operator : String) : left ++ " " ++ operator ≠ "" := by
  intro h
  obtain ⟨hleft, -⟩ := String.append_eq_empty_iff.1 h
  exact absurd (String.append_eq_empty_iff.1 hleft).2 (by decide)

theorem isEmpty_append_comparison (f : Fragment) (left operator : String) (os : Operands) :
    (f.append (comparison left operator os)).isEmpty = false := by
  fun_cases comparison left operator os with
  | case1 =>
    rw [append_ofText]
    exact isEmpty_putText_of_ne (ne_empty_of_blank left operator) f
  | case2 negated =>
    rw [append_ofText]
    cases negated with
    | true => exact isEmpty_putText_of_ne (by decide) f
    | false => exact isEmpty_putText_of_ne (by decide) f
  | case3 negated values h =>
    rw [append_putText]
    exact isEmpty_putText_of_ne (by decide) _
  | case4 lower upper =>
    rw [append_putArg]
    exact isEmpty_putArg _ _
  | case5 value =>
    rw [append_putArg]
    exact isEmpty_putArg _ _

theorem Model.isEmpty_putPredicate (m : Model) (params : Params) (f : Fragment) (w : Condition) :
    (m.putPredicate params f w).isEmpty = false := by
  rw [putPredicate, predicate]
  exact isEmpty_putText (isEmpty_append_comparison _ _ _ _) _

/-- A chain of conditions is empty only when there are none. -/
theorem Model.isEmpty_chain (m : Model) (params : Params) {ws : List Condition} (h : ws ≠ []) :
    (m.chain params ws).isEmpty = false := by
  cases ws with
  | nil => exact absurd rfl h
  | cons w r =>
    have hfold : ∀ (vs : List Condition) {f : Fragment}, f.isEmpty = false →
        (vs.foldl (fun f v => m.putPredicate params
          (f.putText (" " ++ connectorText v.connector ++ " ")) v) f).isEmpty = false := by
      intro vs
      induction vs with
      | nil => exact fun hf => hf
      | cons v vs ih => exact fun _ => ih (m.isEmpty_putPredicate params _ v)
    exact hfold r (m.isEmpty_putPredicate params .empty w)

end MetaQuery
