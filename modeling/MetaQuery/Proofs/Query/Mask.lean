/-
  MetaQuery/Proofs/Query/Mask.lean
  ================================
  What the text of a query shows of its arguments.

  Masking keeps of an argument only whether it is NULL.  Building fragments commutes with masking,
  and the text of a SELECT is that of the masked one, so two fragments or queries with the same
  mask have the same text.  Statements about pairs of runs are then equations between masks.
-/
import MetaQuery.Proofs.Query.Numbering

namespace MetaQuery

/-! ### Masks -/

/-- What a text shows of a cell: whether it is NULL. -/
def Cell.mask (v : Cell) : Cell := if v.isNull then .null else .bool true

/-- A part with its argument masked. -/
def Part.mask : Part → Part
  | .text s => .text s
  | .arg v => .arg v.mask

/-- A fragment with its arguments masked. -/
def Fragment.mask (f : Fragment) : Fragment := ⟨f.parts.map Part.mask⟩

/-- A SELECT with its arguments masked. -/
def Select.mask (q : Select) : Select :=
  { q with
    source := q.source.mask
    filter := q.filter.mask
    required := q.required.map Fragment.mask
    having := q.having.mask }

theorem Cell.isNull_mask (v : Cell) : v.mask.isNull = v.isNull := by
  cases v <;> rfl

theorem Cell.mask_of_not_null {v : Cell} (h : v.isNull = false) : v.mask = .bool true := by
  rw [mask, h]
  rfl

/-- The text of some parts shows nothing else of their arguments. -/
theorem Part.render_map_mask (d : Dialect) (n : Nat) (parts : List Part) :
    render d n (parts.map mask) = render d n parts := by
  induction parts generalizing n with
  | nil => rfl
  | cons p r ih =>
    cases p with
    | text s => simp only [List.map_cons, mask, render, ih]
    | arg v => simp only [List.map_cons, mask, render, Cell.isNull_mask, ih]

/-! ### Fragments -/

namespace Fragment

@[simp] theorem parts_mask (f : Fragment) : f.mask.parts = f.parts.map Part.mask := rfl

@[simp] theorem mask_empty : empty.mask = empty := rfl

@[simp] theorem isEmpty_mask (f : Fragment) : f.mask.isEmpty = f.isEmpty := by
  simp [mask, isEmpty]

theorem map_mask_addText (s : String) (parts : List Part) :
    (addText s parts).map Part.mask = addText s (parts.map Part.mask) := by
  fun_induction addText s parts with
  | case1 => rfl
  | case2 t => rfl
  | case3 p r hp ih =>
    rw [List.map_cons, ih, List.map_cons]
    cases p with
    | arg v => rfl
    | text t =>
      cases r with
      | nil => exact (hp t rfl rfl).elim
      | cons p' r' => rfl

@[simp] theorem mask_putText (f : Fragment) (s : String) :
    (f.putText s).mask = f.mask.putText s := by
  by_cases h : s = ""
  · simp [putText, h]
  · simp only [putText, if_neg h, mask, map_mask_addText]

@[simp] theorem mask_putArg (f : Fragment) (v : Cell) :
    (f.putArg v).mask = f.mask.putArg v.mask := by
  simp [putArg, mask, Part.mask]

@[simp] theorem mask_ofText (s : String) : (ofText s).mask = ofText s := by
  simp [ofText]

theorem mask_foldl_putPart (parts : List Part) (f : Fragment) :
    (parts.foldl putPart f).mask = (parts.map Part.mask).foldl putPart f.mask := by
  induction parts generalizing f with
  | nil => rfl
  | cons p r ih =>
    rw [List.foldl_cons, ih, List.map_cons, List.foldl_cons]
    cases p with
    | text s => rw [putPart, mask_putText, Part.mask, putPart]
    | arg v => rw [putPart, mask_putArg, Part.mask, putPart]

@[simp] theorem mask_append (f g : Fragment) : (f.append g).mask = f.mask.append g.mask :=
  mask_foldl_putPart g.parts f

end Fragment

/-! ### Queries -/

namespace Select

theorem requiredParts_map_mask (ps : List Fragment) :
    requiredParts (ps.map Fragment.mask) = (requiredParts ps).map Part.mask := by
  fun_induction requiredParts ps with
  | case1 => rfl
  | case2 p => rfl
  | case3 p r hr ih =>
    rw [List.map_cons, requiredParts, ih, List.map_append]
    · rfl
    · exact fun h => hr (List.map_eq_nil_iff.1 h)

theorem groupParts_mask (q : Select) : q.mask.groupParts = q.groupParts.map Part.mask := by
  have hempty : q.mask.filter.isEmpty = q.filter.isEmpty := Fragment.isEmpty_mask q.filter
  by_cases h : q.filter.isEmpty
  · rw [groupParts, groupParts, if_pos h, if_pos (hempty.trans h)]
    rfl
  · rw [groupParts, groupParts, if_neg h, if_neg (by rwa [hempty])]
    simp [Select.mask, Part.mask]

theorem whereParts_mask (q : Select) : q.mask.whereParts = q.whereParts.map Part.mask := by
  have hrequired : q.mask.required.isEmpty = q.required.isEmpty := by simp [Select.mask]
  have hfilter : q.mask.filter.isEmpty = q.filter.isEmpty := Fragment.isEmpty_mask q.filter
  rw [whereParts, whereParts, hrequired, hfilter, groupParts_mask]
  by_cases h : q.required.isEmpty
  · rw [if_pos h, if_pos h]
    split
    · rfl
    · simp [Select.mask, Part.mask]
  · rw [if_neg h, if_neg h]
    simp [Select.mask, Part.mask, requiredParts_map_mask]

theorem havingParts_mask (q : Select) : q.mask.havingParts = q.havingParts.map Part.mask := by
  have hempty : q.mask.having.isEmpty = q.having.isEmpty := Fragment.isEmpty_mask q.having
  rw [havingParts, havingParts, hempty]
  split
  · rfl
  · simp [Select.mask, Part.mask]

theorem bodyParts_mask (q : Select) : q.mask.bodyParts = q.bodyParts.map Part.mask := by
  rw [bodyParts, whereParts_mask, havingParts_mask]
  simp [bodyParts, Select.mask, projection, Part.mask]

/-- The text of a query is that of the masked query. -/
theorem text_statement_mask (q : Select) : q.mask.statement.text = q.statement.text := by
  rw [statement_eq, statement_eq, bodyParts_mask]
  exact congrArg (· ++ q.tail) (Part.render_map_mask q.dialect 0 q.bodyParts)

theorem text_countStatement_mask (q : Select) :
    q.mask.countStatement.text = q.countStatement.text := by
  rw [countStatement_eq, countStatement_eq, bodyParts_mask]
  exact congrArg ("SELECT COUNT(*) FROM (" ++ · ++ ") AS total_rows")
    (Part.render_map_mask q.dialect 0 q.bodyParts)

end Select

end MetaQuery
