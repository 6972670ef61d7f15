/-
  MetaQuery/Proofs/Chain/Quoting.lean
  ===================================
  What a request chooses in its filters stays inside quotes and arguments.

  Filters name tables and columns and bring values.  Two requests whose filters agree in place on
  the operator, the connector, whether a table is named, and on the number of items of a list, make
  queries that read the same outside of quoted spans (`filters_stay_quoted`), as long as the model
  has no quotes in its free texts.  Their names and values may hold any quotes, in any number.

  The two queries are built side by side.  Names are enclosed, so each is read as one blank;
  values are bound, so only their number shows; and what stands between two predicates starts with
  a blank, so no span goes on from one into the next.
-/
import MetaQuery.Proofs.Chain.Filters
import MetaQuery.Proofs.Query.Weaving

namespace MetaQuery

open Raw Fragment

/-! ### Filters with one outline -/

/-- How many items the value of a filter has as a list written with commas. -/
def Filter.itemCount (f : Filter) : Nat := (listItems (operandText f.value)).length

/-- Two filters that may differ in the names of their table and column and in their values. -/
structure Filter.Alike (f g : Filter) : Prop where
  operator : operatorText f.operator = operatorText g.operator
  connector : connectorText f.connector = connectorText g.connector
  table : f.table = "" ↔ g.table = ""
  items : operatorText f.operator = "IN" ∨ operatorText f.operator = "NOT IN" →
    f.itemCount = g.itemCount

theorem operatorText_of_mem {operator : String} (h : operator ∈ filterOperators) :
    operatorText operator = operator ∧ Unquoted operator.toList := by
  have hall : ∀ o ∈ filterOperators, operatorText o = o ∧ Unquoted o.toList := by decide
  exact hall operator h

/-! ### Predicates that read the same -/

/-- The fragments take as many numbers and read the same, wherever their numbers start. -/
structure Fragment.SameReading (d : Dialect) (f g : Fragment) : Prop where
  count : (Part.numbered f.parts).length = (Part.numbered g.parts).length
  reading : ∀ n, Raw.SameReading (Part.render d n f.parts).toList (Part.render d n g.parts).toList

theorem length_numbered_map_mask (parts : List Part) :
    (Part.numbered (parts.map Part.mask)).length = (Part.numbered parts).length := by
  induction parts with
  | nil => rfl
  | cons p r ih =>
    cases p with
    | text s => exact ih
    | arg v =>
      simp only [Part.numbered, List.map_cons, Part.mask, Part.args_arg, List.filter_cons,
        Cell.isNull_mask] at ih ⊢
      split
      · simp [ih]
      · exact ih

/-- Fragments with one mask differ in no place that shows. -/
theorem Fragment.same_of_mask_eq {f g : Fragment} (h : f.mask = g.mask) (d : Dialect) :
    (Part.numbered f.parts).length = (Part.numbered g.parts).length ∧
      ∀ n, Part.render d n f.parts = Part.render d n g.parts := by
  have hparts : f.parts.map Part.mask = g.parts.map Part.mask := congrArg parts h
  constructor
  · rw [← length_numbered_map_mask, hparts, length_numbered_map_mask]
  · intro n
    rw [← Part.render_map_mask, hparts, Part.render_map_mask]

theorem mask_operands_unbound (field field' : Option FieldEntry) {c c' : Condition}
    {operator : String} (h : operator = "IN" ∨ operator = "NOT IN" →
      (listItems c.value).length = (listItems c'.value).length) :
    (operands field c none operator).mask = (operands field' c' none operator).mask := by
  have hitems : operator = "IN" ∨ operator = "NOT IN" →
      (itemOperands field c.value none).map Cell.mask =
        (itemOperands field' c'.value none).map Cell.mask := by
    intro hlist
    exact map_mask_eq (by simpa [itemOperands] using h hlist) (isNull_listedOperands field _)
      (isNull_listedOperands field' _)
  -- an operand of a filter is an argument whatever its text, NULL being no text
  have hown : ∀ s s', (ownOperand field s).mask = (ownOperand field' s').mask := fun s s' =>
    mask_eq_of_not_null (isNull_ownOperand field s) (isNull_ownOperand field' s')
  unfold operands
  split
  · rfl
  · split
    · next hin => exact congrArg (Operands.items false) (hitems (.inl hin))
    · split
      · next hnot => exact congrArg (Operands.items true) (hitems (.inr hnot))
      · split
        · simp only [rangeOperands, Operands.mask, Operands.range.injEq]
          exact ⟨hown _ _, hown _ _⟩
        · split
          · rfl
          · exact congrArg Operands.one (hown _ _)

theorem Fragment.IsWoven.sameReading {d : Dialect} {f : Fragment} (h : f.IsWoven d) :
    f.SameReading d f :=
  ⟨rfl, fun n => (h n).sameReading⟩

/-- Columns read the same when both or neither of them are qualified, whatever they are called. -/
theorem sameReading_comparison (d : Dialect) {table table' : String}
    (htable : table = "" ↔ table' = "") (column column' : String) {operator : String}
    (hoperator : Unquoted operator.toList) {os os' : Operands} (hos : os.mask = os'.mask) :
    (comparison (d.column table column) operator os).SameReading d
      (comparison (d.column table' column') operator os') := by
  have hplain := isPlain_comparison d hoperator
  by_cases hempty : ∃ negated, os = .items negated []
  · -- the comparison with an empty list is a constant
    obtain ⟨negated, rfl⟩ := hempty
    obtain rfl : os' = .items negated [] := by
      cases os' with
      | items negated' values =>
        simp only [Operands.mask, Operands.items.injEq, List.map_nil] at hos
        obtain ⟨rfl, hvalues⟩ := hos
        rw [List.map_eq_nil_iff.1 hvalues.symm]
      | _ => simp [Operands.mask] at hos
    exact (hplain (.items negated [])).isWoven.sameReading
  -- the mask tells an empty list from all other operands, so both sides have one or none
  · have hempty' : ¬ ∃ negated, os' = .items negated [] := by
      rintro ⟨negated, rfl⟩
      apply hempty
      cases os with
      | items negated' values =>
        simp only [Operands.mask, Operands.items.injEq, List.map_nil, List.map_eq_nil_iff] at hos
        exact ⟨negated', by rw [hos.2]⟩
      | _ => simp [Operands.mask] at hos
    have hmask : (comparison "" operator os).mask = (comparison "" operator os').mask := by
      rw [mask_comparison, mask_comparison, hos]
    obtain ⟨hcount, htext⟩ := Fragment.same_of_mask_eq hmask d
    -- behind the column both texts are equal: only the column is read, as a span or two
    rw [comparison_eq_append _ operator fun negated h => hempty ⟨negated, h⟩,
      comparison_eq_append _ operator fun negated h => hempty' ⟨negated, h⟩]
    constructor
    · rw [numbered_append, numbered_append, numbered_ofText, numbered_ofText, List.nil_append,
        List.nil_append, hcount]
    · intro n
      have hbehind := hplain os n
      have hread := bare?_unquoted hbehind
      have hsame : columnReading table = columnReading table' := by
        simp only [columnReading, htable]
      rw [render_append, render_append, render_ofText, render_ofText, numbered_ofText,
        numbered_ofText, List.length_nil, Nat.add_zero, ← htext, String.toList_append,
        String.toList_append]
      refine ⟨_, bare?_column_append d table column hbehind.startsPlain hread, ?_⟩
      rw [hsame]
      exact bare?_column_append d table' column' hbehind.startsPlain hread

section Predicates

variable (m : Model) (params : Params) {f g : Filter} {c c' : Condition}

theorem sameReading_predicate (hc : f.condition = .ok c) (hc' : g.condition = .ok c')
    (h : f.Alike g) :
    (m.predicate params c).SameReading m.dialect (m.predicate params c') := by
  have hf := Filter.makes_of_condition hc
  have hg := Filter.makes_of_condition hc'
  obtain ⟨hsame, hunquoted⟩ := operatorText_of_mem hf.known
  have hitems : operatorText f.operator = "IN" ∨ operatorText f.operator = "NOT IN" →
      (listItems c.value).length = (listItems c'.value).length := by
    intro hlist
    -- a list operator is not a range, so its items are those of the value
    have hrange : ∀ k : Filter, (k.valueTexts (operatorText f.operator)).1 = operandText k.value := by
      intro k
      rcases hlist with hlist | hlist <;> simp [hlist, Filter.valueTexts, Filter.isRange]
    rw [hf.value, hg.value, ← h.operator, hrange, hrange]
    exact h.items hlist
  have hmask := mask_operands_unbound (m.fieldOf? c.table c.column)
    (m.fieldOf? c'.table c'.column) hitems
  have htable : c.table = "" ↔ c'.table = "" := by
    rw [hf.table, hg.table]
    exact h.table
  have hpredicate : ∀ {k : Filter} {w : Condition}, k.Makes w →
      operatorText k.operator = operatorText f.operator →
      m.predicate params w = comparison (m.dialect.column w.table w.column)
        (operatorText f.operator) (operands (m.fieldOf? w.table w.column) w none
          (operatorText f.operator)) := by
    intro k w hw hk
    have hbound : w.bound? params = none := by rw [Condition.bound?, if_pos hw.param]
    rw [Model.predicate, hbound, hw.function, hw.operator, hk, hsame]
    rfl
  rw [hpredicate hf rfl, hpredicate hg h.operator.symm]
  exact sameReading_comparison m.dialect htable c.column c'.column hunquoted hmask

end Predicates

/-- Behind fragments that read the same, predicates that read the same with a link in between. -/
theorem Fragment.SameReading.link {d : Dialect} {f g p q : Fragment} (h : f.SameReading d g)
    (hp : p.SameReading d q) {s : String} (hs : Unquoted s.toList) (hapart : ∃ r, s.toList = ' ' :: r) :
    ((f.putText s).append p).SameReading d ((g.putText s).append q) := by
  constructor
  · simp only [numbered_append, numbered_putText, List.length_append, h.count, hp.count]
  · intro n
    -- the blank in front keeps a quote at the seam from meeting one on the other side
    have hplain : ∀ x, StartsPlain (s.toList ++ x) := by
      intro x
      obtain ⟨r, hr⟩ := hapart
      rw [hr]
      exact (standsApart_cons (r ++ x)).startsPlain
    have hread := (h.reading n).append (hplain _) (hplain _)
      ((hp.reading (n + (Part.numbered f.parts).length)).behind hs)
    rw [render_append, render_append, numbered_putText, numbered_putText, render_putText,
      render_putText, String.toList_append, String.toList_append, String.toList_append,
      String.toList_append, List.append_assoc, List.append_assoc, ← h.count]
    exact hread

theorem Fragment.SameReading.behind_empty {d : Dialect} {p q : Fragment}
    (h : p.SameReading d q) : (empty.append p).SameReading d (empty.append q) := by
  constructor
  · simp only [numbered_append, List.length_append, h.count]
  · intro n
    rw [render_append, render_append, String.toList_append, String.toList_append]
    exact h.reading (n + 0)

/-- Two conditions made from filters with one outline. -/
def Condition.Paired (c c' : Condition) : Prop :=
  ∃ f g : Filter, f.condition = .ok c ∧ g.condition = .ok c' ∧ f.Alike g

theorem paired_of_mapM {fs gs : List Filter} (h : List.Forall₂ Filter.Alike fs gs)
    {cs ds : List Condition} (hcs : fs.mapM (·.condition) = .ok cs)
    (hds : gs.mapM (·.condition) = .ok ds) : List.Forall₂ Condition.Paired cs ds := by
  induction h generalizing cs ds with
  | nil =>
    obtain rfl : [] = cs := Except.ok.inj hcs
    obtain rfl : [] = ds := Except.ok.inj hds
    exact .nil
  | @cons f g fs gs h _ ih =>
    obtain ⟨c, cs, hc, hfront, rfl⟩ := cons_of_mapM_ok hcs
    obtain ⟨d, ds, hd, hback, rfl⟩ := cons_of_mapM_ok hds
    exact .cons ⟨f, g, hc, hd, h⟩ (ih hfront hback)

/-- What joins the condition of a filter to what is in front of it. -/
theorem Condition.Paired.link {c c' : Condition} (h : c.Paired c') :
    connectorText c.connector = connectorText c'.connector ∧
      Unquoted (" " ++ connectorText c.connector ++ " ").toList ∧
        ∃ r, (" " ++ connectorText c.connector ++ " ").toList = ' ' :: r := by
  obtain ⟨f, g, hc, hc', halike⟩ := h
  have hconnector : c.connector = c'.connector := by
    rw [(Filter.makes_of_condition hc).connector, (Filter.makes_of_condition hc').connector,
      halike.connector]
  refine ⟨by rw [hconnector], ?_, by simp⟩
  rcases (Filter.condition_ok hc).2.1 with hlink | hlink
  · rw [hlink]
    decide
  · rw [hlink]
    decide

section Chains

variable {m : Model} {params : Params}

theorem sameReading_foldl {cs ds : List Condition} (h : List.Forall₂ Condition.Paired cs ds)
    {p q : Fragment} (hpq : p.SameReading m.dialect q) :
    (cs.foldl (fun p c => m.putPredicate params
        (p.putText (" " ++ connectorText c.connector ++ " ")) c) p).SameReading m.dialect
      (ds.foldl (fun q c => m.putPredicate params
        (q.putText (" " ++ connectorText c.connector ++ " ")) c) q) := by
  induction h generalizing p q with
  | nil => exact hpq
  | @cons c d cs ds hpair _ ih =>
    obtain ⟨hsame, hunquoted, hapart⟩ := hpair.link
    obtain ⟨f, g, hc, hd, halike⟩ := hpair
    have hlinked := hpq.link (sameReading_predicate m params hc hd halike) hunquoted hapart
    rw [List.foldl_cons, List.foldl_cons, putPredicate_of_filter hc, putPredicate_of_filter hd,
      ← hsame]
    exact ih hlinked

/-- Paired conditions behind one chain make chains that read the same. -/
theorem sameReading_chain {ws : List Condition} (hws : ∀ w ∈ ws, w.IsUnquoted)
    {cs ds : List Condition} (h : List.Forall₂ Condition.Paired cs ds) :
    (m.chain params (ws ++ cs)).SameReading m.dialect (m.chain params (ws ++ ds)) := by
  cases ws with
  | nil =>
    -- the first filter starts the chain, and its connector is not used
    cases h with
    | nil => exact isWoven_empty.sameReading
    | @cons c d cs ds hpair h =>
      obtain ⟨f, g, hc, hd, halike⟩ := hpair
      apply sameReading_foldl h
      rw [putPredicate_of_filter hc, putPredicate_of_filter hd]
      exact (sameReading_predicate m params hc hd halike).behind_empty
  | cons w r =>
    have hfront : (m.chain params (w :: r)).SameReading m.dialect (m.chain params (w :: r)) :=
      (m.isWoven_chain hws).sameReading
    rw [List.cons_append, List.cons_append, Model.chain, Model.chain, List.foldl_append,
      List.foldl_append]
    exact sameReading_foldl h hfront

end Chains

/-! ### Queries that read the same -/

namespace Select

/-- What the texts of a query show outside of quoted spans. -/
def bareTexts (q : Select) : Option (List Char) × Option (List Char) :=
  (bare? q.statement.text.toList, bare? q.countStatement.text.toList)

theorem restText_filtered (q : Select) {f g : Fragment} (hrequired : q.required = [])
    (h : f.SameReading q.dialect g) (hempty : f.isEmpty = g.isEmpty) :
    (q.filtered f).restText = (q.filtered g).restText := by
  have hwhere : ∀ p : Fragment, (q.filtered p).whereParts =
      if p.isEmpty then [] else .text " WHERE " :: p.parts := by
    intro p
    simp [whereParts, filtered, hrequired]
  -- what follows is rendered alike once as many placeholders stand before it
  have hcount : (Part.numbered (q.headParts ++ (q.filtered f).whereParts)).length =
      (Part.numbered (q.headParts ++ (q.filtered g).whereParts)).length := by
    have hpair := h.count
    rw [hwhere, hwhere, ← hempty]
    simp only [Part.numbered, Part.args_append, List.filter_append, List.length_append]
    split
    · rfl
    · exact congrArg _ hpair
  exact congrArg (fun n => Part.render q.dialect n q.restParts) hcount

/-- Behind WHERE stands what reads the same, and the clauses around it are the same. -/
theorem sameReading_bodyText {q : Select} (hframed : q.Framed) (hrequired : q.required = [])
    {f g : Fragment} (h : f.SameReading q.dialect g) (hempty : f.isEmpty = g.isEmpty) :
    Raw.SameReading (q.filtered f).bodyText.toList (q.filtered g).bodyText.toList := by
  have hbody : ∀ p : Fragment, (q.filtered p).bodyText =
      q.headText ++ (if p.isEmpty then "" else " WHERE " ++
        Part.render q.dialect (Part.numbered q.headParts).length p.parts) ++
          (q.filtered p).restText :=
    fun p => bodyText_eq (q := q.filtered p) hrequired
  -- what follows WHERE is the same text on both sides and starts with a blank or nothing
  have hrest : StartsPlain (q.filtered f).restText.toList :=
    (standsApart_render_restParts q _).startsPlain
  rw [hbody, hbody, ← restText_filtered q hrequired h hempty, ← hempty]
  simp only [String.toList_append]
  refine Raw.SameReading.append ?_ hrest hrest (hframed.rest _).sameReading
  cases f.isEmpty with
  | true => simpa using hframed.head.sameReading
  | false =>
    have hapart : ∀ x, StartsPlain (" WHERE ".toList ++ x) := fun x =>
      (standsApart_cons _).startsPlain
    simp only [Bool.false_eq_true, if_false, String.toList_append]
    exact hframed.head.sameReading.append (hapart _) (hapart _)
      ((h.reading _).behind (by decide))

theorem sameReading_texts {q : Select} (hframed : q.Framed) (hrequired : q.required = [])
    {f g : Fragment} (h : f.SameReading q.dialect g) (hempty : f.isEmpty = g.isEmpty) :
    Raw.SameReading (q.filtered f).statement.text.toList (q.filtered g).statement.text.toList ∧
      Raw.SameReading (q.filtered f).countStatement.text.toList
        (q.filtered g).countStatement.text.toList := by
  have hbody := sameReading_bodyText hframed hrequired h hempty
  have htail : StandsApart q.tail.toList := by
    rw [tail, String.toList_append]
    exact (standsApart_listClause rfl q.orders).append (detached_windowText q.window).apart
  constructor
  · rw [statement_eq, statement_eq, String.toList_append, String.toList_append]
    exact hbody.append htail.startsPlain htail.startsPlain hframed.tail.sameReading
  -- the count wraps the body in a text without quotes, which is read as it stands
  · obtain ⟨x, hx, hx'⟩ := hbody
    have hcount : ∀ p : Fragment, bare? (q.filtered p).bodyText.toList = some x →
        bare? (q.filtered p).countStatement.text.toList =
          some ("SELECT COUNT(*) FROM (".toList ++ x ++ ") AS total_rows".toList) := by
      intro p hp
      rw [countStatement_eq, ← bodyText, String.toList_append, String.toList_append,
        bare?_between (by decide) (by decide), hp]
      rfl
    exact ⟨_, hcount f hx, hcount g hx'⟩

end Select

/-! ### Requests whose filters agree in outline -/

theorem isUnquoted_groupChain {ws : List Condition} (h : ∀ w ∈ ws, w.IsUnquoted) :
    ∀ w ∈ groupChain ws, w.IsUnquoted := by
  -- grouping writes brackets only
  have hopen : Unquoted "(".toList := by decide
  have hclose : Unquoted ")".toList := by decide
  fun_cases groupChain ws with
  | case2 => exact h
  | case1 w v r =>
    intro u hu
    rcases List.mem_cons.1 hu with rfl | hu
    · have hw := h w List.mem_cons_self
      refine { hw with opening := ?_ }
      rw [String.toList_append]
      exact hopen.append hw.opening
    · obtain ⟨x, hx, rfl | rfl⟩ := mem_closeLast hu
      · exact h _ (List.mem_cons_of_mem w hx)
      · have hx := h x (List.mem_cons_of_mem w hx)
        refine { hx with closing := ?_ }
        rw [String.toList_append]
        exact hx.closing.append hclose

theorem sameReading_withFilters (m : Model) (params : Params) {ws cs ds : List Condition}
    (hws : ∀ w ∈ ws, w.IsUnquoted) (h : List.Forall₂ Condition.Paired cs ds) :
    (m.chain params (withFilters ws cs)).SameReading m.dialect
        (m.chain params (withFilters ws ds)) ∧
      (m.chain params (withFilters ws cs)).isEmpty =
        (m.chain params (withFilters ws ds)).isEmpty := by
  cases h with
  | nil => exact ⟨(m.isWoven_chain hws).sameReading, rfl⟩
  | @cons c d cs ds hpair hrest =>
    refine ⟨sameReading_chain (isUnquoted_groupChain hws) (.cons hpair hrest), ?_⟩
    rw [m.isEmpty_chain params, m.isEmpty_chain params]
    · exact List.append_ne_nil_of_right_ne_nil _ (List.cons_ne_nil d ds)
    · exact List.append_ne_nil_of_right_ne_nil _ (List.cons_ne_nil c cs)

namespace Rows

/-- What is checked and read the same is passed or refused alike. -/
theorem map_bareTexts_checked {q q' : Select}
    (hrows : Raw.SameReading q.statement.text.toList q'.statement.text.toList)
    (hcount : Raw.SameReading q.countStatement.text.toList q'.countStatement.text.toList) :
    q.checked.map Select.bareTexts = q'.checked.map Select.bareTexts := by
  have htexts : q.bareTexts = q'.bareTexts := Prod.ext hrows.bare?_eq hcount.bare?_eq
  rw [Select.checked, Select.checked, hrows.checkSafe_eq]
  cases checkSafe q'.statement.text with
  | error fault => rfl
  | ok u => exact congrArg Except.ok htexts

/-- **What a request chooses in its filters stays inside quotes and arguments.**  Accepted filters
    that agree in outline make queries whose texts, with the quoted spans taken out, are the same;
    all spans are closed; and the check passes or refuses both alike. -/
theorem filters_stay_quoted {m : Model} (hraw : m.isRaw = false) (hm : m.IsUnquoted)
    {fs gs : List Filter} (halike : List.Forall₂ Filter.Alike fs gs)
    (hfs : ∀ f ∈ fs, f.Accepted) (hgs : ∀ g ∈ gs, g.Accepted) (r : ListRequest) :
    ∃ m₁ m₂ : Model, ({ r with filters := fs } : ListRequest).restrict m = .ok m₁ ∧
      ({ r with filters := gs } : ListRequest).restrict m = .ok m₂ ∧
      (∀ params, (m₁.compile params).map Select.bareTexts =
        (m₂.compile params).map Select.bareTexts) ∧
      (∀ params q, m₁.compile params = .ok q → ∃ x y, q.bareTexts = (some x, some y)) ∧
      ∀ settings, (listQuery settings { r with filters := fs } m).map Select.bareTexts =
        (listQuery settings { r with filters := gs } m).map Select.bareTexts := by
  obtain ⟨cs, hcs⟩ := exists_of_accepted hfs
  obtain ⟨ds, hds⟩ := exists_of_accepted hgs
  have hfirst := ListRequest.restrict_of_mapM (r := { r with filters := fs }) hcs m
  have hsecond := ListRequest.restrict_of_mapM (r := { r with filters := gs }) hds m
  have hpaired := paired_of_mapM halike hcs hds
  -- the two queries are one query with two chains of predicates
  have hcompile := fun params added =>
    Model.compile_conditions hraw params (withFilters m.conditions added)
  have hread : ∀ params q, m.compile params = .ok q →
      Raw.SameReading
          (q.filtered (m.chain params (withFilters m.conditions cs))).statement.text.toList
          (q.filtered (m.chain params (withFilters m.conditions ds))).statement.text.toList ∧
        Raw.SameReading
          (q.filtered (m.chain params (withFilters m.conditions cs))).countStatement.text.toList
          (q.filtered (m.chain params (withFilters m.conditions ds))).countStatement.text.toList := by
    intro params q hq
    obtain ⟨hdialect, -, hrequired⟩ := Model.clauses_of_compile hraw hq
    obtain ⟨hchain, hempty⟩ := sameReading_withFilters m params hm.conditions hpaired
    rw [← hdialect] at hchain
    exact Select.sameReading_texts (Model.framed_of_compile hraw hm hq) hrequired hchain hempty
  refine ⟨_, _, hfirst, hsecond, fun params => ?_, fun params q h => ?_, fun settings => ?_⟩
  · rw [hcompile, hcompile]
    cases hq : m.compile params with
    | error fault => rfl
    | ok q =>
      obtain ⟨hrows, hcount⟩ := hread params q hq
      exact congrArg Except.ok (Prod.ext hrows.bare?_eq hcount.bare?_eq)
  · rw [hcompile] at h
    cases hq : m.compile params with
    | error fault =>
      rw [hq] at h
      cases h
    | ok base =>
      rw [hq] at h
      obtain rfl := Except.ok.inj h
      obtain ⟨⟨x, hx, -⟩, y, hy, -⟩ := hread params base hq
      exact ⟨x, y, Prod.ext hx hy⟩
  · have hparams : ∀ (hs : List Filter) (ws : List Condition),
        ({ r with filters := hs } : ListRequest).compileParams settings
          { m with conditions := ws } = r.compileParams settings m := fun _ _ => rfl
    rw [listQuery_of_restrict hfirst, listQuery_of_restrict hsecond,
      hparams fs (withFilters m.conditions cs), hparams gs (withFilters m.conditions ds),
      Model.select_eq, Model.select_eq, hcompile, hcompile]
    cases hq : m.compile (r.compileParams settings m) with
    | error fault => rfl
    | ok q =>
      have hbind : ∀ f : Select → Select,
          ((Except.ok q : Except Fault Select).map f >>= Select.checked) = (f q).checked :=
        fun _ => rfl
      obtain ⟨hrows, hcount⟩ := hread _ q hq
      rw [hbind, hbind]
      exact map_bareTexts_checked hrows hcount

/-- Filters by a state and by a list of numbers. -/
def plainFilters : List Filter := [
  { column := "state", value := .str "open" },
  { table := "tickets", column := "number", operator := "in", value := .str "1, 2" }]

/-- Filters made to break out of their quotes in the same places. -/
def hostileFilters : List Filter := [
  { column := "state\x60 = 1 OR \x60state", operator := " = ", value := .str "x' OR '1'='1" },
  { table := "tickets\x60; DROP TABLE \x60tickets", column := "number\"", operator := "IN"
    value := .arr [.str "7", .str "') --"], connector := "and" }]

theorem hostile_filters_quoted :
    tickets.isRaw = false ∧ tickets.IsUnquoted ∧
    List.Forall₂ Filter.Alike plainFilters hostileFilters ∧
    (∀ f ∈ plainFilters, f.Accepted) ∧ (∀ f ∈ hostileFilters, f.Accepted) ∧
    ∃ m₁ m₂ : Model, ({ filters := plainFilters } : ListRequest).restrict tickets = .ok m₁ ∧
      ({ filters := hostileFilters } : ListRequest).restrict tickets = .ok m₂ ∧
      (∀ params, (m₁.compile params).map Select.bareTexts =
        (m₂.compile params).map Select.bareTexts) ∧
      (∀ params q, m₁.compile params = .ok q → ∃ x y, q.bareTexts = (some x, some y)) ∧
      ∀ settings, (listQuery settings { filters := plainFilters } tickets).map Select.bareTexts =
        (listQuery settings { filters := hostileFilters } tickets).map Select.bareTexts := by
  have hunquoted : tickets.IsUnquoted := by
    refine ⟨nofun, nofun, ?_, nofun, nofun, nofun⟩
    intro w hw
    simp only [tickets, List.mem_cons, List.not_mem_nil, or_false] at hw
    rcases hw with rfl | rfl
    · constructor <;> decide
    · constructor <;> decide
  -- names and values differ, quotes and all; the operators come to the same words
  have halike : List.Forall₂ Filter.Alike plainFilters hostileFilters := by
    refine .cons ?_ (.cons ?_ .nil)
    · constructor <;> decide
    · constructor <;> decide
  have hplain : ∀ f ∈ plainFilters, f.Accepted := by decide
  have hhostile : ∀ f ∈ hostileFilters, f.Accepted := by decide
  exact ⟨rfl, hunquoted, halike, hplain, hhostile,
    filters_stay_quoted rfl hunquoted halike hplain hhostile {}⟩

end Rows

end MetaQuery
