/-
  MetaQuery/Proofs/Query/Independence.lean
  ========================================
  The values of a request never reach the text of a query.

  Two requests have one outline for a model when they name the same parameters, agree on those
  that choose the page, and give every other parameter values of one kind, none of them NULL and
  with as many items where a condition lists them.  A model compiles two such requests to the same
  texts, or refuses both with the same fault.

  The proof follows the compiler.  Each step commutes with masking (`Mask.lean`), so it is enough
  that operands and arguments have the same masks, and these depend on the outline alone.
-/
import MetaQuery.Proofs.Query.Mask
import MetaQuery.Query.Compile

namespace MetaQuery

/-! ### Outlines -/

/-- The value is a number, whole or not. -/
def Json.isNumber : Json → Bool
  | .int _ => true
  | .float _ => true
  | _ => false

/-- The value is an array. -/
def Json.isArray : Json → Bool
  | .arr _ => true
  | _ => false

/-- Two values of one kind, neither of them NULL: arrays of one length and objects with the same
    names, with nothing NULL inside. -/
inductive Json.Alike : Json → Json → Prop where
  | bool (b c : Bool) : Alike (.bool b) (.bool c)
  | number {v w : Json} (hv : v.isNumber = true) (hw : w.isNumber = true) : Alike v w
  | text (s t : String) : Alike (.str s) (.str t)
  | array {xs ys : List Json} (hlength : xs.length = ys.length)
      (hxs : ∀ x ∈ xs, x ≠ .null) (hys : ∀ y ∈ ys, y ≠ .null) : Alike (.arr xs) (.arr ys)
  | object {xs ys : List (String × Json)}
      (hnames : ∀ k, (lookup k xs).isSome = (lookup k ys).isSome)
      (hxs : ∀ k, lookup k xs ≠ some .null) (hys : ∀ k, lookup k ys ≠ some .null) :
      Alike (.obj xs) (.obj ys)

/-- The parameters that choose the page. -/
def pagingNames : List String := ["page", "page_size", "limit"]

/-- The condition compares with a list. -/
def Condition.isListed (w : Condition) : Prop :=
  operatorText w.operator = "IN" ∨ operatorText w.operator = "NOT IN"

/-- How many items a value has as a list written with commas. -/
def Json.itemCount (v : Json) : Nat := (listItems (Cell.ofJson v).display).length

/-- Two requests with one outline for a model. -/
structure SameOutline (m : Model) (p p' : Params) : Prop where
  names : ∀ k, (Json.lookup k p).isSome = (Json.lookup k p').isSome
  paging : ∀ k ∈ pagingNames, Json.lookup k p = Json.lookup k p'
  kinds : ∀ k, k ∉ pagingNames → ∀ v w, Json.lookup k p = some v → Json.lookup k p' = some w →
    v.Alike w
  items : ∀ c ∈ m.conditions ++ m.havings, c.isListed → ∀ v w, c.bound? p = some v →
    c.bound? p' = some w → v.isArray = false → v.itemCount = w.itemCount

/-! ### Values and operands -/

theorem Json.Alike.symm {v w : Json} (h : v.Alike w) : w.Alike v := by
  cases h with
  | bool b c => exact .bool c b
  | number hv hw => exact .number hw hv
  | text s t => exact .text t s
  | array hlength hxs hys => exact .array hlength.symm hys hxs
  | object hnames hxs hys => exact .object (fun k => (hnames k).symm) hys hxs

theorem Json.Alike.ne_null {v w : Json} (h : v.Alike w) : v ≠ .null := by
  cases h with
  | number hv hw =>
    rintro rfl
    simp [isNumber] at hv
  | _ => simp

theorem Cell.isNull_ofInt (i : Int) : (ofInt i).isNull = false := by
  unfold ofInt
  split <;> rfl

theorem Cell.isNull_ofJson {v : Json} (h : v ≠ .null) : (ofJson v).isNull = false := by
  cases v with
  | null => exact (h rfl).elim
  | int i => exact isNull_ofInt i
  | _ => rfl

theorem isNull_ownOperand (field : Option FieldEntry) (s : String) :
    (ownOperand field s).isNull = false := by
  rw [ownOperand, isNull_coerceTo]
  rfl

theorem isNull_givenOperand (field : Option FieldEntry) {v : Json} (h : v ≠ .null) :
    (givenOperand field v).isNull = false := by
  rw [givenOperand, isNull_coerceTo]
  exact Cell.isNull_ofJson h

theorem map_mask_eq_replicate {vs : List Cell} (h : ∀ v ∈ vs, v.isNull = false) :
    vs.map Cell.mask = List.replicate vs.length (.bool true) := by
  rw [List.eq_replicate_iff]
  refine ⟨List.length_map _, ?_⟩
  intro b hb
  obtain ⟨v, hv, rfl⟩ := List.mem_map.1 hb
  exact Cell.mask_of_not_null (h v hv)

theorem map_mask_eq {vs ws : List Cell} (hlength : vs.length = ws.length)
    (hvs : ∀ v ∈ vs, v.isNull = false) (hws : ∀ w ∈ ws, w.isNull = false) :
    vs.map Cell.mask = ws.map Cell.mask := by
  rw [map_mask_eq_replicate hvs, map_mask_eq_replicate hws, hlength]

theorem mask_eq_of_not_null {v w : Cell} (hv : v.isNull = false) (hw : w.isNull = false) :
    v.mask = w.mask := by
  rw [Cell.mask_of_not_null hv, Cell.mask_of_not_null hw]

/-- What two requests may bind to one condition: nothing, the same, or values alike. -/
inductive BoundAlike : Option Json → Option Json → Prop where
  | none : BoundAlike none none
  | same (v : Json) : BoundAlike (some v) (some v)
  | alike {v w : Json} (h : v.Alike w) : BoundAlike (some v) (some w)

theorem SameOutline.lookup_alike {m : Model} {p p' : Params} (h : SameOutline m p p')
    (k : String) : BoundAlike (Json.lookup k p) (Json.lookup k p') := by
  -- page and size are the same in both, other parameters of one kind only
  by_cases hpaging : k ∈ pagingNames
  · rw [h.paging k hpaging]
    cases Json.lookup k p' with
    | none => exact .none
    | some v => exact .same v
  · have hsome := h.names k
    cases hv : Json.lookup k p with
    | none =>
      have hnone : Json.lookup k p' = none := by simpa [hv] using hsome
      rw [hnone]
      exact .none
    | some v =>
      obtain ⟨w, hw⟩ := Option.isSome_iff_exists.1 (by simpa [hv] using hsome)
      rw [hw]
      exact .alike (h.kinds k hpaging v w hv hw)

theorem SameOutline.bound_alike {m : Model} {p p' : Params} (h : SameOutline m p p')
    (c : Condition) : BoundAlike (c.bound? p) (c.bound? p') := by
  unfold Condition.bound?
  split
  · exact .none
  · exact h.lookup_alike c.param

/-! ### Operands of a condition -/

/-- Operands with their cells masked. -/
def Operands.mask : Operands → Operands
  | .nothing => .nothing
  | .items negated values => .items negated (values.map Cell.mask)
  | .range lower upper => .range lower.mask upper.mask
  | .one value => .one value.mask

theorem mask_listed (f : Fragment) (vs : List Cell) :
    (listed f vs).mask = listed f.mask (vs.map Cell.mask) := by
  fun_induction listed f vs with
  | case1 f => rfl
  | case2 f v => simp [listed]
  | case3 f v r hr ih =>
    rw [ih, List.map_cons, listed]
    · simp
    · simpa using hr

theorem mask_comparison (left operator : String) (o : Operands) :
    (comparison left operator o).mask = comparison left operator o.mask := by
  cases o with
  | nothing => simp [comparison, Operands.mask]
  | items negated values =>
    cases values with
    | nil => simp [comparison, Operands.mask]
    | cons v r => simp [comparison, Operands.mask, mask_listed]
  | range lower upper => simp [comparison, Operands.mask]
  | one value => simp [comparison, Operands.mask]

section
variable (field : Option FieldEntry)

theorem isNull_listedOperands (s : String) :
    ∀ v ∈ (listItems s).map (ownOperand field), v.isNull = false := by
  intro v hv
  obtain ⟨item, -, rfl⟩ := List.mem_map.1 hv
  exact isNull_ownOperand field item

theorem isNull_givenOperands {xs : List Json} (h : ∀ x ∈ xs, x ≠ .null) :
    ∀ v ∈ xs.map (givenOperand field), v.isNull = false := by
  intro v hv
  obtain ⟨x, hx, rfl⟩ := List.mem_map.1 hv
  exact isNull_givenOperand field (h x hx)

theorem itemOperands_of_not_array (value : String) {v : Json} (h : v.isArray = false) :
    itemOperands field value (some v) =
      (listItems (Cell.ofJson v).display).map (ownOperand field) := by
  cases v with
  | arr xs => simp [Json.isArray] at h
  | _ => rfl

theorem Json.Alike.isArray_eq {v w : Json} (h : v.Alike w) : v.isArray = w.isArray := by
  cases h with
  | number hv hw => cases v <;> cases w <;> simp_all [isNumber, isArray]
  | _ => rfl

theorem map_mask_itemOperands (value : String) {b b' : Option Json} (h : BoundAlike b b')
    (hitems : ∀ v w, b = some v → b' = some w → v.isArray = false →
      v.itemCount = w.itemCount) :
    (itemOperands field value b).map Cell.mask = (itemOperands field value b').map Cell.mask := by
  cases h with
  | none => rfl
  | same v => rfl
  | @alike v w h =>
    -- an array gives an operand per entry, any other value its text cut at commas
    by_cases harray : v.isArray = true
    · cases h with
      | array hlength hxs hys =>
        exact map_mask_eq (by simpa [itemOperands] using hlength)
          (isNull_givenOperands field hxs) (isNull_givenOperands field hys)
      | number hv hw => cases v <;> simp_all [Json.isNumber, Json.isArray]
      | _ => simp [Json.isArray] at harray
    · have hv : v.isArray = false := by simpa using harray
      have hw : w.isArray = false := h.isArray_eq ▸ hv
      rw [itemOperands_of_not_array field value hv, itemOperands_of_not_array field value hw]
      exact map_mask_eq (by simpa [Json.itemCount] using hitems v w rfl rfl hv)
        (isNull_listedOperands field _) (isNull_listedOperands field _)

theorem isNull_rangeBound (name fallback : String) {members : List (String × Json)}
    (h : ∀ k, Json.lookup k members ≠ some .null) :
    (rangeBound field name fallback members).isNull = false := by
  unfold rangeBound
  split
  · rename_i v hv
    exact isNull_givenOperand field fun hnull => h name (hnull ▸ hv)
  · exact isNull_ownOperand field fallback

/-- The bounds of a range are never NULL when nothing inside the value is. -/
theorem isNull_rangeOperands (c : Condition) {v w : Json} (h : v.Alike w) :
    (rangeOperands field c (some v)).1.isNull = false ∧
      (rangeOperands field c (some v)).2.isNull = false := by
  have hown := isNull_ownOperand field
  have hgiven := isNull_givenOperand field h.ne_null
  cases h with
  | bool b b' => simp only [rangeOperands, hgiven, hown, and_self]
  | number hv hw =>
    cases v with
    | int i => simp only [rangeOperands, hgiven, hown, and_self]
    | float x => simp only [rangeOperands, hgiven, hown, and_self]
    | _ => simp [Json.isNumber] at hv
  | text s t => simp only [rangeOperands, hgiven, hown, and_self]
  -- with fewer than two elements the range is read from the condition's own texts
  | @array xs ys hlength hxs hys =>
    rcases xs with _ | ⟨lower, _ | ⟨upper, r⟩⟩
    · simp only [rangeOperands, hown, and_self]
    · simp only [rangeOperands, hown, and_self]
    · have hlower := isNull_givenOperand field (hxs lower (by simp))
      have hupper := isNull_givenOperand field (hxs upper (by simp))
      simp only [rangeOperands, hlower, hupper, and_self]
  | object hnames hxs hys =>
    have hlower := isNull_rangeBound field "min" c.value hxs
    have hupper := isNull_rangeBound field "max" c.upper hxs
    simp only [rangeOperands, hlower, hupper, and_self]

theorem mask_rangeOperands (c : Condition) {b b' : Option Json} (h : BoundAlike b b') :
    (rangeOperands field c b).1.mask = (rangeOperands field c b').1.mask ∧
      (rangeOperands field c b).2.mask = (rangeOperands field c b').2.mask := by
  cases h with
  | none => exact ⟨rfl, rfl⟩
  | same v => exact ⟨rfl, rfl⟩
  | alike h =>
    have hv := isNull_rangeOperands field c h
    have hw := isNull_rangeOperands field c h.symm
    exact ⟨mask_eq_of_not_null hv.1 hw.1, mask_eq_of_not_null hv.2 hw.2⟩

theorem mask_oneOperand (value : String) {b b' : Option Json} (h : BoundAlike b b') :
    (match b with
      | some v => givenOperand field v
      | none => ownOperand field value).mask =
    (match b' with
      | some v => givenOperand field v
      | none => ownOperand field value).mask := by
  cases h with
  | none => rfl
  | same v => rfl
  | alike h =>
    exact mask_eq_of_not_null (isNull_givenOperand field h.ne_null)
      (isNull_givenOperand field h.symm.ne_null)

/-- The operands of a condition have one mask under both requests, by each operator in turn. -/
theorem mask_operands (c : Condition) {b b' : Option Json} (h : BoundAlike b b')
    (hitems : c.isListed → ∀ v w, b = some v → b' = some w → v.isArray = false →
      v.itemCount = w.itemCount) :
    (operands field c b (operatorText c.operator)).mask =
      (operands field c b' (operatorText c.operator)).mask := by
  unfold operands
  split
  · rfl
  · split
    · rename_i hin
      -- in a list the number of items decides the text, so it has to agree
      exact congrArg (Operands.items false)
        (map_mask_itemOperands field c.value h (hitems (.inl hin)))
    · split
      · rename_i hnot
        exact congrArg (Operands.items true)
          (map_mask_itemOperands field c.value h (hitems (.inr hnot)))
      · split
        · have hrange := mask_rangeOperands field c h
          simp only [Operands.mask, hrange]
        · split
          · -- A pattern is a text, whatever it is made from.
            rfl
          · have hone := mask_oneOperand field c.value h
            cases h with
            | none => rfl
            | same v => rfl
            | alike h => exact congrArg Operands.one hone

end

/-! ### Chains of predicates -/

theorem mask_predicate {m : Model} {p p' : Params} (h : SameOutline m p p') {c : Condition}
    (hc : c ∈ m.conditions ++ m.havings) :
    (m.predicate p c).mask = (m.predicate p' c).mask := by
  rw [Model.predicate, Model.predicate, mask_comparison, mask_comparison,
    mask_operands _ c (h.bound_alike c) (h.items c hc)]

theorem mask_putPredicate {m : Model} {p p' : Params} (h : SameOutline m p p') {c : Condition}
    (hc : c ∈ m.conditions ++ m.havings) {f g : Fragment} (hfg : f.mask = g.mask) :
    (m.putPredicate p f c).mask = (m.putPredicate p' g c).mask := by
  simp only [Model.putPredicate, Fragment.mask_putText, Fragment.mask_append,
    mask_predicate h hc, hfg]

theorem mask_chain {m : Model} {p p' : Params} (h : SameOutline m p p') {cs : List Condition}
    (hcs : ∀ c ∈ cs, c ∈ m.conditions ++ m.havings) :
    (m.chain p cs).mask = (m.chain p' cs).mask := by
  -- both folds write the same connectors, so masks that agree before a step agree behind it
  have hrest : ∀ (r : List Condition), (∀ c ∈ r, c ∈ m.conditions ++ m.havings) →
      ∀ f g : Fragment, f.mask = g.mask →
      (r.foldl (fun f v => m.putPredicate p
        (f.putText (" " ++ connectorText v.connector ++ " ")) v) f).mask =
      (r.foldl (fun f v => m.putPredicate p'
        (f.putText (" " ++ connectorText v.connector ++ " ")) v) g).mask := by
    intro r
    induction r with
    | nil => exact fun _ f g hfg => hfg
    | cons c r ih =>
      intro hr f g hfg
      rw [List.foldl_cons, List.foldl_cons]
      refine ih (fun x hx => hr x (List.mem_cons_of_mem c hx)) _ _ ?_
      refine mask_putPredicate h (hr c List.mem_cons_self) ?_
      rw [Fragment.mask_putText, Fragment.mask_putText, hfg]
  cases cs with
  | nil => rfl
  | cons c r =>
    exact hrest r (fun x hx => hcs x (List.mem_cons_of_mem c hx)) _ _
      (mask_putPredicate h (hcs c List.mem_cons_self) rfl)

/-! ### Texts written by hand -/

namespace Raw

/-- A part of a literal with its argument masked. -/
def LiteralPart.mask : LiteralPart → LiteralPart
  | .text cs => .text cs
  | .arg v => .arg v.mask

theorem map_mask_prepend (cs : List Char) (parts : List LiteralPart) :
    (prepend cs parts).map LiteralPart.mask = prepend cs (parts.map LiteralPart.mask) := by
  cases parts with
  | nil => rfl
  | cons p r => cases p <;> rfl

theorem mask_ofJson_eq {v w : Json} (h : BoundAlike (some v) (some w)) :
    (Cell.ofJson v).mask = (Cell.ofJson w).mask := by
  cases h with
  | same v => rfl
  | alike h =>
    exact mask_eq_of_not_null (Cell.isNull_ofJson h.ne_null) (Cell.isNull_ofJson h.symm.ne_null)

section
variable {p p' : Params} (h : ∀ k, BoundAlike (Json.lookup k p) (Json.lookup k p'))
include h

theorem map_mask_literalParts (ps : List Piece) :
    (literalParts p ps).map LiteralPart.mask = (literalParts p' ps).map LiteralPart.mask := by
  induction ps with
  | nil => rfl
  | cons piece r ih =>
    cases piece with
    | plain c => rw [literalParts, literalParts, map_mask_prepend, map_mask_prepend, ih]
    -- alike params know the same names, so a name is replaced on both sides or on neither
    | name n =>
      have hn := h (String.ofList n)
      rw [literalParts, literalParts]
      cases hv : Json.lookup (String.ofList n) p with
      | none =>
        cases hw : Json.lookup (String.ofList n) p' with
        | none => simp only [map_mask_prepend, ih]
        | some w => rw [hv, hw] at hn; cases hn
      | some v =>
        cases hw : Json.lookup (String.ofList n) p' with
        | none => rw [hv, hw] at hn; cases hn
        | some w =>
          rw [hv, hw] at hn
          simp only [List.map_cons, LiteralPart.mask, mask_ofJson_eq hn, ih]

omit h in
theorem mask_putLiteralPart (f : Fragment) (part : LiteralPart) :
    (putLiteralPart f part).mask = putLiteralPart f.mask part.mask := by
  cases part with
  | text cs => exact Fragment.mask_putText f _
  | arg v => exact Fragment.mask_putArg f v

omit h in
theorem mask_putLiteralParts (d : Dialect) (f : Fragment) (parts : List LiteralPart) :
    (putLiteralParts d f parts).mask =
      putLiteralParts d f.mask (parts.map LiteralPart.mask) := by
  fun_induction putLiteralParts d f parts with
  | case1 f => rfl
  | case2 f part => exact mask_putLiteralPart f part
  | case3 f part r hr ih =>
    rw [ih, List.map_cons, putLiteralParts]
    · rw [Fragment.mask_putText, mask_putLiteralPart]
    · simpa using hr

omit h in
theorem any_isArg_map_mask (parts : List LiteralPart) :
    (parts.map LiteralPart.mask).any (·.isArg) = parts.any (·.isArg) := by
  rw [List.any_map]
  congr 1
  funext part
  cases part <;> rfl

theorem mask_putLiteral (d : Dialect) {f g : Fragment} (hfg : f.mask = g.mask)
    (content : List Char) :
    (putLiteral p d f content).mask = (putLiteral p' d g content).mask := by
  have hparts := map_mask_literalParts h (pieces content)
  have hany : (literalParts p (pieces content)).any (·.isArg) =
      (literalParts p' (pieces content)).any (·.isArg) := by
    rw [← any_isArg_map_mask, hparts, any_isArg_map_mask]
  simp only [putLiteral, hany]
  split
  · simp only [Fragment.mask_putText, mask_putLiteralParts, hparts, hfg]
  · simp only [Fragment.mask_putText, hfg]

theorem mask_putToken (d : Dialect) {f g : Fragment} (hfg : f.mask = g.mask) (t : Token) :
    (putToken p d f t).mask = (putToken p' d g t).mask := by
  cases t with
  | plain c => simp only [putToken, Fragment.mask_putText, hfg]
  | literal content closed => exact mask_putLiteral h d hfg content
  | quoted q rest => simp only [putToken, Fragment.mask_putText, hfg]
  | cast => simp only [putToken, Fragment.mask_putText, hfg]
  | name n =>
    -- a name is replaced in both or in neither
    have hn := h (String.ofList n)
    rw [putToken, putToken]
    cases hv : Json.lookup (String.ofList n) p with
    | none =>
      cases hw : Json.lookup (String.ofList n) p' with
      | none => simp only [Fragment.mask_putText, hfg]
      | some w => rw [hv, hw] at hn; cases hn
    | some v =>
      cases hw : Json.lookup (String.ofList n) p' with
      | none => rw [hv, hw] at hn; cases hn
      | some w =>
        rw [hv, hw] at hn
        simp only [Fragment.mask_putArg, mask_ofJson_eq hn, hfg]

theorem mask_substitute (d : Dialect) (sql : List Char) :
    (substitute p d sql).mask = (substitute p' d sql).mask := by
  have hfold : ∀ (ts : List Token) (f g : Fragment), f.mask = g.mask →
      (ts.foldl (putToken p d) f).mask = (ts.foldl (putToken p' d) g).mask := by
    intro ts
    induction ts with
    | nil => exact fun f g hfg => hfg
    | cons t r ih => exact fun f g hfg => ih _ _ (mask_putToken h d hfg t)
  exact hfold (tokens sql) .empty .empty rfl

end

end Raw

/-! ### Compiled queries -/

/-- The texts of the query for rows and of the query for their number. -/
def Select.texts (q : Select) : String × String := (q.statement.text, q.countStatement.text)

theorem Select.texts_eq_of_mask_eq {q q' : Select} (h : q.mask = q'.mask) : q.texts = q'.texts := by
  rw [texts, texts, ← text_statement_mask q, ← text_countStatement_mask q, h,
    text_statement_mask, text_countStatement_mask]

/-- Two ways to put a query around a stretch of rows show the same texts when they make queries
    of one mask. -/
theorem Select.map_texts_eq {f g : Option Window → Select} (r : Except Fault (Option Window))
    (h : ∀ window, (f window).mask = (g window).mask) :
    (r.map f).map texts = (r.map g).map texts := by
  cases r with
  | error fault => rfl
  | ok window => exact congrArg Except.ok (texts_eq_of_mask_eq (h window))

section
variable {m : Model} {p p' : Params} (h : SameOutline m p p')
include h

theorem window_eq : m.window p = m.window p' := by
  have hnumber : ∀ k ∈ pagingNames, positiveParam? p k = positiveParam? p' k := by
    intro k hk
    rw [positiveParam?, positiveParam?, h.paging k hk]
  rw [Model.window, Model.window, Model.pageNumber, Model.pageNumber, Model.pageSize,
    Model.pageSize, hnumber "page" (by simp [pagingNames]),
    hnumber "page_size" (by simp [pagingNames]), hnumber "limit" (by simp [pagingNames])]

theorem compileEntries_texts_eq :
    (m.compileEntries p).map Select.texts = (m.compileEntries p').map Select.texts := by
  have hfilter : (m.chain p m.conditions).mask = (m.chain p' m.conditions).mask :=
    mask_chain h fun c hc => List.mem_append_left _ hc
  have hhaving : (m.chain p m.havings).mask = (m.chain p' m.havings).mask :=
    mask_chain h fun c hc => List.mem_append_right _ hc
  rw [m.compileEntries_eq p, m.compileEntries_eq p', window_eq h]
  cases m.target with
  | error fault => rfl
  | ok source =>
    refine Select.map_texts_eq _ fun window => ?_
    simp only [Select.mask, hfilter, hhaving]

theorem compileRaw_texts_eq :
    (m.compileRaw p).map Select.texts = (m.compileRaw p').map Select.texts := by
  have hsource : (m.rawSource p).mask = (m.rawSource p').mask := by
    simp only [Model.rawSource, Fragment.mask_putText, Fragment.mask_append,
      Raw.mask_substitute h.lookup_alike]
  rw [m.compileRaw_eq p, m.compileRaw_eq p', window_eq h]
  split
  · rfl
  · refine Select.map_texts_eq _ fun window => ?_
    simp only [Select.mask, Select.all, hsource]

end

/-- **The values of a request never reach the text.**  A model compiles two requests of one
    outline to the same texts, or refuses both with the same fault. -/
theorem compile_texts_eq {m : Model} {p p' : Params} (h : SameOutline m p p') :
    (m.compileEntries p).map Select.texts = (m.compileEntries p').map Select.texts ∧
      (m.compileRaw p).map Select.texts = (m.compileRaw p').map Select.texts :=
  ⟨compileEntries_texts_eq h, compileRaw_texts_eq h⟩

/-- A search for users by their ids and by their name. -/
def userSearch : Model where
  entry := { id := "m", code := "users" }
  tables := [{ id := "t", model := "m", name := "user" }]
  fields := []
  dialect := .postgres
  conditions := [
    { column := "id", operator := "IN", param := "ids" },
    { column := "name", operator := "LIKE", param := "name" }]

/-- The search for a plain name. -/
def plainSearch : Params := [("ids", .str "1,2"), ("name", .str "bob")]

/-- The search for a name that is made to break out of its quotes. -/
def hostileSearch : Params := [("ids", .str "7, 8"), ("name", .str "x' OR '1'='1")]

/-- A name made to break out of its quotes leaves the texts as they are. -/
theorem hostileSearch_texts :
    SameOutline userSearch plainSearch hostileSearch ∧
    ((userSearch.compileEntries plainSearch).map Select.texts =
        (userSearch.compileEntries hostileSearch).map Select.texts ∧
      (userSearch.compileRaw plainSearch).map Select.texts =
        (userSearch.compileRaw hostileSearch).map Select.texts) := by
  have houtline : SameOutline userSearch plainSearch hostileSearch := by
    refine ⟨?_, ?_, ?_, ?_⟩
    · intro k
      simp only [plainSearch, hostileSearch, Json.lookup]
      split
      · rfl
      · split <;> rfl
    · intro k hk
      simp only [pagingNames, List.mem_cons, List.not_mem_nil, or_false] at hk
      -- neither gives a page or a size
      rcases hk with rfl | rfl | rfl <;> simp [plainSearch, hostileSearch, Json.lookup]
    · intro k _ v w hv hw
      simp only [plainSearch, hostileSearch, Json.lookup] at hv hw
      split at hv
      · simp_all only [Option.some.injEq, if_true]
        subst hv hw
        exact .text _ _
      · split at hv
        · simp_all only [Option.some.injEq, if_true, if_false]
          subst hv hw
          exact .text _ _
        · simp at hv
    · intro c hc _ v w hv hw _
      simp only [userSearch, List.append_nil, List.mem_cons, List.not_mem_nil, or_false] at hc
      rcases hc with rfl | rfl
      · have hv' : v = .str "1,2" := by
          simpa [Condition.bound?, plainSearch, Json.lookup] using hv.symm
        have hw' : w = .str "7, 8" := by
          simpa [Condition.bound?, hostileSearch, Json.lookup] using hw.symm
        subst hv' hw'
        decide
      · have hv' : v = .str "bob" := by
          simpa [Condition.bound?, plainSearch, Json.lookup] using hv.symm
        have hw' : w = .str "x' OR '1'='1" := by
          simpa [Condition.bound?, hostileSearch, Json.lookup] using hw.symm
        subst hv' hw'
        decide
  exact ⟨houtline, compile_texts_eq houtline⟩

end MetaQuery
