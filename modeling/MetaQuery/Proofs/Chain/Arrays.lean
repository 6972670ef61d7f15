/-
  MetaQuery/Proofs/Chain/Arrays.lean
  ==================================
  What a list operator makes of an array.

  A parameter that is an array gives one operand for each element.  A filter is a condition of the
  catalog, whose values are texts, so its array is written with commas first and cut at the commas
  later; blanks around the pieces and empty pieces are dropped.  Cutting undoes writing piece by
  piece (`listItems_joinWith`), so the two ways agree just when every element by itself survives
  being written (`FieldEntry.Keeps`): an element with a comma becomes several operands, and one
  that is blank becomes none.
-/
import MetaQuery.Proofs.Catalog.Types
import MetaQuery.Proofs.Chain.Reach
import MetaQuery.Proofs.Decimal.Integers
import MetaQuery.Proofs.Raw.Renumbering
import MetaQuery.Proofs.Raw.Woven

namespace MetaQuery

/-! ### Lists written with commas -/

namespace Text

theorem trimBlanks_trimBlanks (cs : List Char) : trimBlanks (trimBlanks cs) = trimBlanks cs := by
  obtain ⟨front, back, hcs, hfront, hback⟩ := exists_trimBlanks cs
  rw [← Raw.trimBlanks_between hfront hback (trimBlanks cs), ← hcs]

theorem trimBlanks_of_no_blank {cs : List Char} (h : ∀ c ∈ cs, isBlank c = false) :
    trimBlanks cs = cs := by
  have hstart : ∀ {l : List Char}, (∀ c ∈ l, isBlank c = false) → trimStart l = l := by
    intro l hl
    cases l with
    | nil => rfl
    | cons c r => exact trimStart_cons_of_not_blank (hl c List.mem_cons_self)
  rw [trimBlanks, hstart h, trimEnd, hstart fun c hc => h c (List.mem_reverse.1 hc),
    List.reverse_reverse]

theorem not_of_mem_splitBy {p : Char → Bool} {cs piece : List Char} (h : piece ∈ splitBy p cs) :
    ∀ c ∈ piece, p c = false := by
  fun_induction splitBy p cs generalizing piece with
  | case1 =>
    rw [List.mem_singleton.1 h]
    nofun
  | case2 c r hc ih =>
    rcases List.mem_cons.1 h with rfl | h
    · nofun
    · exact ih h
  | case3 c r hc hnil ih => exact absurd hnil (splitBy_ne_nil p r)
  -- the character joins the first piece of the rest
  | case4 c r hc first rest hpieces ih =>
    rcases List.mem_cons.1 h with rfl | h
    · rintro x hx
      rcases List.mem_cons.1 hx with rfl | hx
      · simpa using hc
      · exact ih (hpieces ▸ List.mem_cons_self) x hx
    · exact ih (hpieces ▸ List.mem_cons_of_mem first h)

end Text

/-- An item that stands as it is in a list written with commas. -/
structure IsListItem (s : String) : Prop where
  comma : ',' ∉ s.toList
  ne_empty : s ≠ ""
  trimmed : Text.trim s = s

instance (s : String) : Decidable (IsListItem s) :=
  decidable_of_iff (',' ∉ s.toList ∧ s ≠ "" ∧ Text.trim s = s)
    ⟨fun ⟨h, h', h''⟩ => ⟨h, h', h''⟩, fun ⟨h, h', h''⟩ => ⟨h, h', h''⟩⟩

theorem isListItem_of_mem {s p : String} (h : p ∈ listItems s) : IsListItem p := by
  obtain ⟨cs, hcs, rfl⟩ := List.mem_map.1 h
  obtain ⟨hmem, hne⟩ := List.mem_filter.1 hcs
  obtain ⟨piece, hpiece, rfl⟩ := List.mem_map.1 hmem
  constructor
  · rw [String.toList_ofList]
    intro hcomma
    simpa using Text.not_of_mem_splitBy hpiece ',' (Raw.trimBlanks_subset piece hcomma)
  · intro hempty
    rw [String.ofList_eq_empty_iff] at hempty
    rw [hempty] at hne
    cases hne
  · rw [Text.trim, String.toList_ofList, Text.trimBlanks_trimBlanks]

/-- A text without commas is one item, unless it is blank. -/
theorem listItems_of_notMem {s : String} (h : ',' ∉ s.toList) :
    listItems s = if Text.trim s = "" then [] else [Text.trim s] := by
  have hpieces : Text.splitBy (· == ',') s.toList = [s.toList] :=
    Text.splitBy_of_forall_not fun c hc => by
      rw [beq_eq_false_iff_ne]
      rintro rfl
      exact h hc
  have hblank : Text.trim s = "" ↔ Text.trimBlanks s.toList = [] := String.ofList_eq_empty_iff
  rw [listItems, hpieces]
  by_cases htrim : Text.trimBlanks s.toList = []
  · simp [htrim, hblank]
  · rw [if_neg (mt hblank.1 htrim)]
    simp [htrim, Text.trim]

theorem listItems_empty : listItems "" = [] := rfl

theorem listItems_append_comma (s t : String) :
    listItems (s ++ "," ++ t) = listItems s ++ listItems t := by
  have hpieces : Text.splitBy (· == ',') (s ++ "," ++ t).toList =
      Text.splitBy (· == ',') s.toList ++ Text.splitBy (· == ',') t.toList := by
    rw [String.toList_append, String.toList_append, List.append_assoc]
    exact Text.splitBy_append_cons rfl s.toList t.toList
  rw [listItems, hpieces]
  simp [listItems]

/-- The items of some texts written with commas are those of each text in turn. -/
theorem listItems_joinWith (ss : List String) :
    listItems (Text.joinWith "," ss) = ss.flatMap listItems := by
  fun_induction Text.joinWith "," ss with
  | case1 => exact listItems_empty
  | case2 s => rw [List.flatMap_singleton]
  | case3 s t r ih => rw [listItems_append_comma, ih, ← List.flatMap_cons]

/-! ### Elements that are kept -/

/-- An element of an array that is the same operand by itself and as an item of a list written with
    commas. -/
inductive FieldEntry.Keeps (f : FieldEntry) : Json → Prop where
  /-- A text without commas and without blanks at its ends. -/
  | item {s : String} (h : IsListItem s) : Keeps f (.str s)
  /-- A text that spells a signed word, with or without blanks around it. -/
  | spelled {s : String} {i : Int64} (hinteger : f.isInteger = true)
      (h : Decimal.int64? (Text.trimBlanks s.toList) = some i) : Keeps f (.str s)
  | word {i : Int} (h : Decimal.IsWord64 i) : Keeps f (.int i)
  /-- A greater number that is displayed with all its digits when it is made a double. -/
  | double {i : Int} (htextual : f.isTextual = true)
      (h : (Cell.ofInt i).display = Decimal.intText i) : Keeps f (.int i)

/-- The element is a text or a whole number. -/
def Json.isTextOrInt : Json → Bool
  | .str _ => true
  | .int _ => true
  | _ => false

/-! ### Elements one by one -/

section Elements

variable {f : FieldEntry}

/-- A text becomes itself, or the signed word that it spells. -/
theorem ownOperand_cases (hf : f.isTextual = true ∨ f.isInteger = true) (s : String) :
    ownOperand (some f) s = .text s ∨
      f.isInteger = true ∧ ∃ i, Decimal.int64? (Text.trimBlanks s.toList) = some i ∧
        ownOperand (some f) s = .int i := by
  rw [ownOperand, coerceTo]
  rcases hf with hf | hf
  · exact .inl (FieldEntry.coerce_text hf s)
  · rw [FieldEntry.coerce_text_of_isInteger hf, integerOf]
    cases hread : Decimal.int64? (Text.trimBlanks s.toList) with
    | none => exact .inl rfl
    | some i => exact .inr ⟨hf, i, rfl, rfl⟩

theorem eq_of_ownOperand_eq_text (hf : f.isTextual = true ∨ f.isInteger = true) {s t : String}
    (h : ownOperand (some f) s = .text t) : s = t := by
  rcases ownOperand_cases hf s with htext | ⟨-, i, -, hint⟩
  · exact Cell.text.inj (htext.symm.trans h)
  · rw [hint] at h
    cases h

theorem operandText_int (i : Int) : operandText (.int i) = Decimal.intText i := by
  rw [operandText, Json.text]

theorem isListItem_intText (i : Int) : IsListItem (Decimal.intText i) where
  comma h := by
    have hblank := Decimal.mem_intText h
    revert hblank
    decide
  ne_empty h := Decimal.intText_ne_nil i (by rw [h]; rfl)
  trimmed := by
    rw [Text.trim, Text.trimBlanks_of_no_blank fun c hc => Decimal.isBlank_of_mem_intText hc,
      String.ofList_toList]

theorem listItems_of_isListItem {s : String} (h : IsListItem s) : listItems s = [s] := by
  rw [listItems_of_notMem h.comma, h.trimmed, if_neg h.ne_empty]

/-- A text that spells a signed word is one item, without the blanks around it. -/
theorem listItems_of_spelled {s : String} {i : Int64}
    (h : Decimal.int64? (Text.trimBlanks s.toList) = some i) : listItems s = [Text.trim s] := by
  obtain ⟨hne, hchars⟩ := Decimal.chars_of_int64? h
  have hcomma : ',' ∉ s.toList := by
    obtain ⟨front, back, hs, hfront, hback⟩ := Text.exists_trimBlanks s.toList
    rw [hs]
    intro hmem
    rcases List.mem_append.1 hmem with hmem | hmem
    · rcases List.mem_append.1 hmem with hmem | hmem
      · exact absurd (hfront _ hmem) (by decide)
      · exact absurd (hchars _ hmem) (by decide)
    · exact absurd (hback _ hmem) (by decide)
  have hsome : Text.trim s ≠ "" := fun hblank => hne (String.ofList_eq_empty_iff.1 hblank)
  rw [listItems_of_notMem hcomma, if_neg hsome]

/-- An element is one item of a written list, or it is a text that is none and stays a text. -/
theorem one_item_or_lost (hf : f.isTextual = true ∨ f.isInteger = true) {v : Json}
    (hv : v.isTextOrInt = true) :
    (∃ p, listItems (operandText v) = [p]) ∨
      ∃ s, ¬ IsListItem s ∧ givenOperand (some f) v = .text s := by
  cases v with
  | int i =>
    rw [operandText_int]
    exact .inl ⟨_, listItems_of_isListItem (isListItem_intText i)⟩
  | str s =>
    rcases ownOperand_cases hf s with htext | ⟨-, i, hread, -⟩
    · by_cases hitem : IsListItem s
      · exact .inl ⟨s, listItems_of_isListItem hitem⟩
      · exact .inr ⟨s, hitem, htext⟩
    · exact .inl ⟨_, listItems_of_spelled hread⟩
  | _ => cases hv

theorem ofInt_eq (i : Int) : Cell.ofInt i =
    if Decimal.IsWord64 i then .int (Int64.ofInt i) else .float (Float.ofInt i) := rfl

theorem display_ofInt_of_isWord64 {i : Int} (h : Decimal.IsWord64 i) :
    (Cell.ofInt i).display = Decimal.intText i := by
  rw [ofInt_eq, if_pos h, Cell.display, Decimal.toInt_ofInt_of_isWord64 h]

theorem keeps_int_iff (hf : f.isTextual = true ∨ f.isInteger = true) (i : Int) :
    ownOperand (some f) (Decimal.intText i) = givenOperand (some f) (.int i) ↔
      f.Keeps (.int i) := by
  rw [ownOperand, givenOperand, coerceTo, coerceTo, Cell.ofJson]
  -- a text field compares texts, an integer field what is read from them
  rcases hf with hf | hf
  · rw [FieldEntry.coerce_text hf, FieldEntry.coerce_ofInt_of_isTextual hf,
      Cell.text.injEq]
    refine ⟨fun h => .double hf h.symm, fun h => ?_⟩
    cases h with
    | word h => exact (display_ofInt_of_isWord64 h).symm
    | double _ h => exact h.symm
  · have htrim : Text.trimBlanks (Decimal.intText i).toList = (Decimal.intText i).toList :=
      Text.trimBlanks_of_no_blank fun c hc => Decimal.isBlank_of_mem_intText hc
    rw [FieldEntry.coerce_text_of_isInteger hf, FieldEntry.coerce_ofInt_of_isInteger hf, integerOf,
      htrim, Decimal.int64?_intText]
    by_cases hword : Decimal.IsWord64 i
    · rw [if_pos hword, ofInt_eq, if_pos hword]
      exact iff_of_true rfl (.word hword)
    · rw [if_neg hword, ofInt_eq, if_neg hword]
      -- out of the range of words: read as a double in the array, left as a text when cut
      refine iff_of_false (fun h => ?_) fun h => ?_
      · cases h
      · cases h with
        | word h => exact hword h
        | double htextual _ =>
          rw [FieldEntry.not_textual_of_isInteger hf] at htextual
          cases htextual

theorem keeps_str_iff (hf : f.isTextual = true ∨ f.isInteger = true) (s : String) :
    (listItems s).map (ownOperand (some f)) = [ownOperand (some f) s] ↔ f.Keeps (.str s) := by
  constructor
  · intro h
    obtain ⟨p, hp, hown⟩ := List.map_eq_singleton_iff.1 h
    -- one piece is left: either its text is the given one, or both spell one integer
    rcases ownOperand_cases hf s with htext | ⟨hinteger, i, hread, -⟩
    · obtain rfl : p = s := eq_of_ownOperand_eq_text hf (hown.trans htext)
      exact .item (isListItem_of_mem (hp ▸ List.mem_singleton_self p))
    · exact .spelled hinteger hread
  · intro h
    cases h with
    | item h => rw [listItems_of_isListItem h, List.map_singleton]
    | @spelled _ i hinteger h =>
      have htrimmed : Decimal.int64? (Text.trimBlanks (Text.trim s).toList) = some i := by
        rw [Text.toList_trim, Text.trimBlanks_trimBlanks]
        exact h
      rw [listItems_of_spelled h, List.map_singleton, ownOperand, ownOperand, coerceTo, coerceTo,
        FieldEntry.coerce_text_of_isInteger hinteger, FieldEntry.coerce_text_of_isInteger hinteger,
        integerOf, integerOf, h, htrimmed]

theorem keeps_iff (hf : f.isTextual = true ∨ f.isInteger = true) {v : Json}
    (hv : v.isTextOrInt = true) :
    (listItems (operandText v)).map (ownOperand (some f)) = [givenOperand (some f) v] ↔
      f.Keeps v := by
  cases v with
  | int i =>
    rw [operandText_int, listItems_of_isListItem (isListItem_intText i), List.map_singleton,
      List.singleton_inj]
    exact keeps_int_iff hf i
  | str s => exact keeps_str_iff hf s
  | _ => cases hv

end Elements

/-! ### The operands of an array -/

theorem eq_singleton_of_flatMap_eq_map {α β : Type} {g : α → List β} {h : α → β} {l : List α}
    (hone : ∀ a ∈ l, ∃ b, g a = [b]) (heq : l.flatMap g = l.map h) : ∀ a ∈ l, g a = [h a] := by
  induction l with
  | nil => nofun
  | cons a r ih =>
    obtain ⟨b, hb⟩ := hone a List.mem_cons_self
    rw [List.flatMap_cons, List.map_cons, hb, List.singleton_append] at heq
    obtain ⟨rfl, hrest⟩ := List.cons.inj heq
    exact List.forall_mem_cons.2 ⟨hb, ih (fun x hx => hone x (List.mem_cons_of_mem a hx)) hrest⟩

/-- Writing an array with commas and cutting it gives the operands of its elements just when every
    element is kept. -/
theorem operands_eq_iff {f : FieldEntry} (hf : f.isTextual = true ∨ f.isInteger = true)
    {items : List Json} (hitems : ∀ v ∈ items, v.isTextOrInt = true) :
    items.flatMap (fun v => (listItems (operandText v)).map (ownOperand (some f))) =
      items.map (givenOperand (some f)) ↔ ∀ v ∈ items, f.Keeps v := by
  constructor
  · intro h
    have hone : ∀ v ∈ items, ∃ b, (listItems (operandText v)).map (ownOperand (some f)) = [b] := by
      intro v hv
      rcases one_item_or_lost hf (hitems v hv) with ⟨p, hp⟩ | ⟨s, hlost, hgiven⟩
      · exact ⟨ownOperand (some f) p, by rw [hp, List.map_singleton]⟩
      · -- the text is an operand of the array, and cutting yields no such text
        have hmem : Cell.text s ∈ items.map (givenOperand (some f)) :=
          hgiven ▸ List.mem_map_of_mem hv
        rw [← h] at hmem
        obtain ⟨w, -, hpiece⟩ := List.mem_flatMap.1 hmem
        obtain ⟨p, hp, hown⟩ := List.mem_map.1 hpiece
        exact absurd (eq_of_ownOperand_eq_text hf hown ▸ isListItem_of_mem hp) hlost
    intro v hv
    exact (keeps_iff hf (hitems v hv)).1 (eq_singleton_of_flatMap_eq_map hone h v hv)
  · intro h
    rw [List.map_eq_flatMap]
    exact List.flatMap_congr fun v hv => (keeps_iff hf (hitems v hv)).2 (h v hv)

/-! ### Predicates -/

theorem operandTexts_eq_map (items : List Json) : operandTexts items = items.map operandText := by
  induction items with
  | nil => rfl
  | cons v r ih => rw [operandTexts, ih, List.map_cons]

/-- The items of an array written with commas are those of each element in turn. -/
theorem listItems_operandText_arr (items : List Json) :
    listItems (operandText (.arr items)) = items.flatMap fun v => listItems (operandText v) := by
  rw [operandText, operandTexts_eq_map, listItems_joinWith, List.flatMap_map]

/-- The condition compares the filter's column by the filter's operator. -/
structure Filter.Matches (f : Filter) (w : Condition) : Prop where
  table : w.table = f.table
  column : w.column = f.column
  function : w.function = ""
  operator : operatorText w.operator = operatorText f.operator

section Predicates

variable {m : Model} {params : Params} {f : Filter} {c w : Condition} {field : FieldEntry}
  {items : List Json}

/-- The operands of a list operator. -/
theorem operands_listed (field : Option FieldEntry) (w : Condition) (bound : Option Json)
    {operator : String} (h : operator = "IN" ∨ operator = "NOT IN") :
    operands field w bound operator =
      .items (operator == "NOT IN") (itemOperands field w.value bound) := by
  rcases h with rfl | rfl <;> rfl

theorem predicate_of_bound (hw : f.Matches w)
    (hfield : m.fieldOf? f.table f.column = some field)
    (hop : operatorText f.operator = "IN" ∨ operatorText f.operator = "NOT IN")
    (hbound : w.bound? params = some (.arr items)) :
    m.predicate params w = comparison (m.dialect.column f.table f.column)
      (operatorText f.operator) (.items (operatorText f.operator == "NOT IN")
        (items.map (givenOperand (some field)))) := by
  rw [Model.predicate, hw.operator, hw.table, hw.column, hw.function, hfield, hbound,
    operands_listed _ _ _ hop]
  rfl

theorem Filter.column_of_condition (h : f.condition = .ok c) : c.column = f.column := by
  unfold condition at h
  split at h
  · cases h
  -- only an accepted filter makes a condition
  · cases hoperator : f.knownOperator with
    | error e =>
      rw [hoperator] at h
      cases h
    | ok operator =>
      cases hconnector : f.knownConnector with
      | error e =>
        rw [hoperator, hconnector] at h
        cases h
      | ok connector =>
        rw [hoperator, hconnector] at h
        obtain rfl := Except.ok.inj h
        rfl

theorem predicate_of_filter (hc : f.condition = .ok c)
    (hfield : m.fieldOf? f.table f.column = some field)
    (hop : operatorText f.operator = "IN" ∨ operatorText f.operator = "NOT IN")
    (hvalue : f.value = .arr items) :
    m.predicate params c = comparison (m.dialect.column f.table f.column)
      (operatorText f.operator) (.items (operatorText f.operator == "NOT IN")
        (items.flatMap fun v => (listItems (operandText v)).map (ownOperand (some field)))) := by
  have hmade := Filter.makes_of_condition hc
  have hoperator : operatorText c.operator = operatorText f.operator := by
    rw [hmade.operator]
    rcases hop with hop | hop <;> rw [hop] <;> decide
  have hbound : c.bound? params = none := by
    rw [Condition.bound?, if_pos hmade.param]
  -- the filter of a list writes the array as a single text
  have hlist : c.value = operandText (.arr items) := by
    have hrange : Filter.isRange (operatorText f.operator) = false := by
      rcases hop with hop | hop <;> rw [hop] <;> decide
    rw [hmade.value, Filter.valueTexts, hvalue, hrange]
    split
    · next heq => cases heq
    · rfl
  rw [Model.predicate, hoperator, hmade.table, Filter.column_of_condition hc, hmade.function,
    hfield, hbound,
    operands_listed _ _ _ hop, itemOperands, hlist, listItems_operandText_arr, List.map_flatMap]
  rfl

theorem Json.ne_null_of_isTextOrInt {v : Json} (h : v.isTextOrInt = true) : v ≠ .null := by
  rintro rfl
  cases h

/-- **A filter means its array just when every element is kept.**

A column of texts or integers is compared by `IN` or `NOT IN` with an array of texts and whole
numbers.  A condition whose parameter is the array binds one argument for each element, in order,
brought to the type of the column.  The filter binds what its elements leave behind as items of a
list written with commas.  The two predicates are the same, and so are their arguments, just when
each element is the same operand both ways. -/
theorem array_filter_alike_iff (hc : f.condition = .ok c) (hw : f.Matches w)
    (hfield : m.fieldOf? f.table f.column = some field)
    (hkind : field.isTextual = true ∨ field.isInteger = true)
    (hop : operatorText f.operator = "IN" ∨ operatorText f.operator = "NOT IN")
    (hvalue : f.value = .arr items) (hbound : w.bound? params = some (.arr items))
    (hitems : ∀ v ∈ items, v.isTextOrInt = true) (params' : Params) :
    Part.numbered (m.predicate params w).parts =
      items.map (fun v => field.coerce (Cell.ofJson v)) ∧
    Part.numbered (m.predicate params' c).parts =
      items.flatMap (fun v => (listItems (operandText v)).map fun s => field.coerce (.text s)) ∧
    (m.predicate params' c = m.predicate params w ↔ ∀ v ∈ items, field.Keeps v) ∧
    (Part.numbered (m.predicate params' c).parts = Part.numbered (m.predicate params w).parts ↔
      ∀ v ∈ items, field.Keeps v) := by
  have hgiven : Part.numbered (m.predicate params w).parts =
      items.map (givenOperand (some field)) := by
    rw [predicate_of_bound hw hfield hop hbound, numbered_comparison, Operands.values,
      List.filter_eq_self]
    intro v hv
    obtain ⟨j, hj, rfl⟩ := List.mem_map.1 hv
    rw [isNull_givenOperand _ (Json.ne_null_of_isTextOrInt (hitems j hj))]
    rfl
  -- no cell of either side is NULL, so all of them are numbered
  have hwritten : Part.numbered (m.predicate params' c).parts =
      items.flatMap fun v => (listItems (operandText v)).map (ownOperand (some field)) := by
    rw [predicate_of_filter hc hfield hop hvalue, numbered_comparison, Operands.values,
      List.filter_eq_self]
    intro v hv
    obtain ⟨j, -, hj⟩ := List.mem_flatMap.1 hv
    obtain ⟨s, -, rfl⟩ := List.mem_map.1 hj
    rw [isNull_ownOperand]
    rfl
  have hargs : Part.numbered (m.predicate params' c).parts =
      Part.numbered (m.predicate params w).parts ↔ ∀ v ∈ items, field.Keeps v := by
    rw [hgiven, hwritten]
    exact operands_eq_iff hkind hitems
  refine ⟨hgiven, hwritten, ⟨fun h => hargs.1 (by rw [h]), fun h => ?_⟩, hargs⟩
  rw [predicate_of_filter hc hfield hop hvalue, predicate_of_bound hw hfield hop hbound,
    (operands_eq_iff hkind hitems).2 h]

end Predicates

/-! ### People to look for -/

def personName : FieldEntry := { id := "n", model := "person", column := "name", type := "string" }

def personAge : FieldEntry := { id := "a", model := "person", column := "age", type := "integer" }

/-- People with a name and an age. -/
def people : Model where
  entry := { id := "person", code := "people", connection := "main" }
  tables := [{ id := "t", model := "person", name := "people" }]
  fields := [personName, personAge]
  dialect := .ansi

/-- A filter that takes a list. -/
def listFilter (column : String) (items : List Json) : Filter :=
  { column := column, operator := "in", value := .arr items }

/-- A condition on a list that a parameter gives. -/
def listCondition (column : String) : Condition :=
  { model := "person", column := column, operator := "IN", param := "list" }

/-- Texts that spell integers may have blanks around them where the column holds integers. -/
theorem ages_filter_alike :
    ∃ c, (listFilter "age" [.str "7", .int 8, .str " 09 "]).condition = .ok c ∧
      (∀ v ∈ [Json.str "7", .int 8, .str " 09 "], personAge.Keeps v) ∧
      people.predicate [] c =
        people.predicate [("list", .arr [.str "7", .int 8, .str " 09 "])] (listCondition "age") ∧
      Part.numbered (people.predicate [] c).parts = [.int 7, .int 8, .int 9] := by
  -- a spelling of nine that is no plain word: the integer column reads it all the same
  have hninth : Decimal.int64? (Text.trimBlanks " 09 ".toList) = some 9 := by decide +kernel
  have hkeeps : ∀ v ∈ [Json.str "7", .int 8, .str " 09 "], personAge.Keeps v := by
    rw [List.forall_mem_cons, List.forall_mem_cons, List.forall_mem_singleton]
    exact ⟨.item (by decide), .word (by decide), .spelled rfl hninth⟩
  have hcondition : (listFilter "age" [.str "7", .int 8, .str " 09 "]).condition =
      .ok { connector := "AND", column := "age", operator := "IN", value := "7,8, 09 " } := rfl
  have hbound : (listCondition "age").bound? [("list", .arr [.str "7", .int 8, .str " 09 "])] =
      some (.arr [.str "7", .int 8, .str " 09 "]) := rfl
  have hfield : people.fieldOf? "" "age" = some personAge := rfl
  have hcells : [Json.str "7", .int 8, .str " 09 "].flatMap (fun v =>
      (listItems (operandText v)).map fun s => personAge.coerce (.text s)) =
        [.int 7, .int 8, .int 9] := by decide +kernel
  obtain ⟨-, hwritten, hpredicate, -⟩ := array_filter_alike_iff hcondition
    ⟨rfl, rfl, rfl, by decide +kernel⟩ hfield (.inr rfl) (.inl (by decide +kernel)) rfl hbound
    (by decide) []
  exact ⟨_, hcondition, hkeeps, hpredicate.2 hkeeps, hwritten.trans hcells⟩

/-- A name with a comma is one operand of a parameter, and two operands of a filter. -/
theorem names_split_at_commas :
    ∃ c, (listFilter "name" [.str "Smith, J"]).condition = .ok c ∧
      Filter.Matches (listFilter "name" [.str "Smith, J"]) (listCondition "name") ∧
      people.isRaw = false ∧ people.fieldOf? "" "name" = some personName ∧
      personName.isTextual = true ∧
      Part.numbered (people.predicate [] c).parts = [.text "Smith", .text "J"] ∧
      Part.numbered (people.predicate [("list", .arr [.str "Smith, J"])]
        (listCondition "name")).parts = [.text "Smith, J"] ∧
      Part.render .ansi 0 (people.predicate [] c).parts = "\"name\" IN (?, ?)" ∧
      Part.render .ansi 0 (people.predicate [("list", .arr [.str "Smith, J"])]
        (listCondition "name")).parts = "\"name\" IN (?)" :=
  ⟨_, rfl, ⟨rfl, rfl, rfl, by decide +kernel⟩, rfl, rfl, rfl, by decide +kernel, by decide +kernel,
    by decide +kernel, by decide +kernel⟩

end MetaQuery
