/-
  MetaQuery/Proofs/Chain/Reach.lean
  =================================
  Whether the filters of a request reach the datasource.

  On a model of tables they do: both statements that a listing may send contain the predicate of
  each filter, numbered for its place, with its operands in that place among the arguments, and no
  statement is the same with a filter left out (`filters_reach_statements`).  Leaving one out is
  seen in the blanks of the text.  Blanks do not depend on how arguments are numbered or which of
  them are NULL, and every condition of a chain brings at least two.

  On a model of a text written by hand they do not: filters are taken and checked, and then the
  query is the same as without any (`adults_unfiltered`).
-/
import Mathlib.Algebra.GroupWithZero.Nat
import MetaQuery.Proofs.Chain.Filters
import MetaQuery.Proofs.Query.Independence

namespace MetaQuery

open Fragment

/-! ### Operands -/

namespace Operands

/-- The operands in order. -/
def values : Operands → List Cell
  | .nothing => []
  | .items _ values => values
  | .range lower upper => [lower, upper]
  | .one value => [value]

end Operands

theorem numbered_listed (f : Fragment) (vs : List Cell) :
    Part.numbered (listed f vs).parts = Part.numbered f.parts ++ vs.filter (!·.isNull) := by
  fun_induction listed f vs with
  | case1 f => rw [List.filter_nil, List.append_nil]
  | case2 f v => exact numbered_putArg f v
  | case3 f v r _ ih =>
    rw [ih, numbered_putText, numbered_putArg, List.append_assoc, ← List.filter_append]
    rfl

/-- A comparison binds its operands, but for the NULL ones. -/
theorem numbered_comparison (left operator : String) (os : Operands) :
    Part.numbered (comparison left operator os).parts = os.values.filter (!·.isNull) := by
  fun_cases comparison left operator os with
  | case1 => exact numbered_ofText _
  | case2 negated => exact numbered_ofText _
  | case3 negated values hvalues =>
    rw [numbered_putText, numbered_listed, numbered_ofText, List.nil_append]
    rfl
  -- BETWEEN: either bound may be NULL on its own
  | case4 lower upper =>
    rw [numbered_putArg, numbered_putText, numbered_putArg, numbered_ofText, List.nil_append,
      ← List.filter_append]
    rfl
  | case5 value =>
    rw [numbered_putArg, numbered_ofText, List.nil_append]
    rfl

/-- Operands that a condition has of its own are not NULL. -/
theorem isNull_values_operands (field : Option FieldEntry) (c : Condition) (operator : String) :
    ∀ v ∈ (operands field c none operator).values, v.isNull = false := by
  have hitems : ∀ v ∈ itemOperands field c.value none, v.isNull = false :=
    isNull_listedOperands field _
  -- a listed value, both ends of a range and a single value are all read from texts
  unfold operands
  split
  · nofun
  · split
    · exact hitems
    · split
      · exact hitems
      · split
        · intro v hv
          rcases List.mem_pair.1 hv with rfl | rfl
          · exact isNull_ownOperand field c.value
          · exact isNull_ownOperand field c.upper
        · split
          · intro v hv
            rw [List.mem_singleton.1 hv]
            rfl
          · intro v hv
            rw [List.mem_singleton.1 hv]
            exact isNull_ownOperand field c.value

/-- The predicate of a filter binds all operands of the filter. -/
theorem numbered_predicate_of_filter (m : Model) (params : Params) {f : Filter} {c : Condition}
    (h : f.condition = .ok c) :
    Part.numbered (m.predicate params c).parts =
      (operands (m.fieldOf? c.table c.column) c none (operatorText c.operator)).values := by
  have hbound : c.bound? params = none := by
    rw [Condition.bound?, if_pos (Filter.makes_of_condition h).param]
  rw [Model.predicate, hbound, numbered_comparison, List.filter_eq_self]
  intro v hv
  rw [isNull_values_operands _ c _ v hv]
  rfl

/-! ### What a statement contains -/

/-- The fragment stands in the text of the statement, numbered for its place, and the values stand
    in that place among the arguments. -/
def Statement.Contains (st : Statement) (p : Fragment) (values : List Cell) : Prop :=
  ∃ front back before after,
    st.text = front ++ Part.render st.dialect before.length p.parts ++ back ∧
      st.args = before ++ values ++ after

theorem contains_write (p : Fragment) (st : Statement) :
    (p.write st).Contains p (Part.numbered p.parts) := by
  rw [write_eq_foldl, foldl_writePart]
  exact ⟨st.text, "", st.args, [], by simp, by simp⟩

namespace Statement.Contains

variable {st : Statement} {p : Fragment} {values : List Cell}

theorem put (h : st.Contains p values) (s : String) : (st.put s).Contains p values := by
  obtain ⟨front, back, before, after, htext, hargs⟩ := h
  refine ⟨front, back ++ s, before, after, ?_, hargs⟩
  rw [text_put, htext, String.append_assoc, dialect_put]

theorem write (h : st.Contains p values) (f : Fragment) : (f.write st).Contains p values := by
  obtain ⟨front, back, before, after, htext, hargs⟩ := h
  rw [write_eq_foldl, foldl_writePart]
  refine ⟨front, back ++ Part.render st.dialect st.args.length f.parts, before,
    after ++ Part.numbered f.parts, ?_, ?_⟩
  · dsimp only
    rw [htext, String.append_assoc]
  · dsimp only
    rw [hargs, List.append_assoc]

theorem putPredicate {f : Fragment} (h : (f.write st).Contains p values) (m : Model)
    (params : Params) (w : Condition) :
    ((m.putPredicate params f w).write st).Contains p values := by
  rw [Model.putPredicate, write_putText, write_append, write_putText]
  exact ((h.put _).write _).put _

end Statement.Contains

section Chains

variable (m : Model) (params : Params)

theorem contains_putPredicate (f : Fragment) (w : Condition) (st : Statement) :
    ((m.putPredicate params f w).write st).Contains (m.predicate params w)
      (Part.numbered (m.predicate params w).parts) := by
  rw [Model.putPredicate, write_putText, write_append]
  exact (contains_write _ _).put _

/-- A chain contains the predicates of all its conditions. -/
theorem contains_chain {ws : List Condition} {w : Condition} (hw : w ∈ ws) (st : Statement) :
    ((m.chain params ws).write st).Contains (m.predicate params w)
      (Part.numbered (m.predicate params w).parts) := by
  -- what is put behind a chain takes nothing away from it
  have hkeep : ∀ (vs : List Condition) {f : Fragment},
      (f.write st).Contains (m.predicate params w) (Part.numbered (m.predicate params w).parts) →
      ((vs.foldl (fun f v => m.putPredicate params
        (f.putText (" " ++ connectorText v.connector ++ " ")) v) f).write st).Contains
          (m.predicate params w) (Part.numbered (m.predicate params w).parts) := by
    intro vs
    induction vs with
    | nil => exact fun h => h
    | cons v vs ih =>
      intro f h
      refine ih (Statement.Contains.putPredicate ?_ m params v)
      rw [write_putText]
      exact h.put _
  have hrest : ∀ (vs : List Condition) (f : Fragment), w ∈ vs →
      ((vs.foldl (fun f v => m.putPredicate params
        (f.putText (" " ++ connectorText v.connector ++ " ")) v) f).write st).Contains
          (m.predicate params w) (Part.numbered (m.predicate params w).parts) := by
    intro vs
    induction vs with
    | nil => exact fun f h => absurd h List.not_mem_nil
    | cons v vs ih =>
      intro f h
      rcases List.mem_cons.1 h with rfl | h
      · exact hkeep vs (contains_putPredicate m params _ w st)
      · exact ih _ h
  cases ws with
  | nil => exact absurd hw List.not_mem_nil
  | cons v r =>
    rcases List.mem_cons.1 hw with rfl | hw
    · exact hkeep r (contains_putPredicate m params .empty w st)
    · exact hrest r _ hw

end Chains

/-- What the predicates of a query contain, both its statements contain. -/
theorem Select.contains_of_filter {q : Select} (hrequired : q.required = [])
    (hsome : q.filter.isEmpty = false) {p : Fragment} {values : List Cell}
    (h : ∀ st, (q.filter.write st).Contains p values) :
    q.statement.Contains p values ∧ q.countStatement.Contains p values := by
  -- without a required fact the WHERE is the chain itself
  have hwhere : ∀ st, (q.writeWhere st).Contains p values := by
    intro st
    simp only [writeWhere, hrequired, hsome, List.isEmpty_nil, if_true, Bool.false_eq_true,
      if_false]
    exact h _
  have hbody : ∀ st, (q.writeBody st).Contains p values := by
    intro st
    unfold writeBody
    dsimp only
    split
    · exact (hwhere _).put _
    · exact (((hwhere _).put _).put _).write _
  exact ⟨(hbody _).put _, (hbody _).put _⟩

/-! ### Blanks of a text -/

/-- The number of blanks in a text. -/
def blanksIn (s : String) : Nat := s.toList.count ' '

theorem blanksIn_append (s t : String) : blanksIn (s ++ t) = blanksIn s + blanksIn t := by
  rw [blanksIn, String.toList_append, List.count_append]
  rfl

/-- The number of blanks in the texts of a fragment. -/
def Fragment.blanks (f : Fragment) : Nat := blanksIn (Part.render .ansi 0 f.parts)

theorem blanksIn_render (d d' : Dialect) (n n' : Nat) (parts : List Part) :
    blanksIn (Part.render d n parts) = blanksIn (Part.render d' n' parts) := by
  have hslot : ∀ (e : Dialect) (k : Nat), blanksIn (e.placeholder k) = 0 := by
    intro e k
    -- placeholders have no blank in any dialect, so their numbers do not matter
    have hdigits : ' ' ∉ '$' :: Nat.toDigits 10 k := by
      intro h
      rcases List.mem_cons.1 h with h | h
      · exact absurd h (by decide)
      · exact absurd (Nat.isDigit_of_mem_toDigits (by decide) (by decide) h) (by decide)
    cases e with
    | postgres =>
      rw [Dialect.placeholder, blanksIn, String.toList_ofList]
      exact List.count_eq_zero.2 hdigits
    | mysql => exact show blanksIn "?" = 0 by decide
    | ansi => exact show blanksIn "?" = 0 by decide
  induction parts generalizing n n' with
  | nil => rfl
  | cons p r ih =>
    cases p with
    | text s =>
      rw [Part.render, Part.render, blanksIn_append, blanksIn_append, ih n n']
    | arg v =>
      rw [Part.render, Part.render]
      split
      · rw [blanksIn_append, blanksIn_append, ih n n']
      · rw [blanksIn_append, blanksIn_append, hslot, hslot, ih (n + 1) (n' + 1)]

theorem blanks_putText (f : Fragment) (s : String) :
    (f.putText s).blanks = f.blanks + blanksIn s := by
  rw [blanks, render_putText, blanksIn_append]
  rfl

theorem blanks_append (f g : Fragment) : (f.append g).blanks = f.blanks + g.blanks := by
  rw [blanks, render_append, blanksIn_append, blanksIn_render .ansi .ansi _ 0 g.parts]
  rfl

theorem blanksIn_write (f : Fragment) (st : Statement) :
    blanksIn (f.write st).text = blanksIn st.text + f.blanks := by
  rw [write_eq_foldl, foldl_writePart, blanksIn_append, blanksIn_render _ .ansi _ 0 f.parts]
  rfl

section Counting

variable (m : Model) (params : Params)

/-- The blanks that a condition brings: its own and two around the word in front of it. -/
def Model.blanksOf (w : Condition) : Nat :=
  2 + (blanksIn w.opening + (m.predicate params w).blanks + blanksIn w.closing)

/-- The blanks of the WHERE clause of a chain.  The word in front of the first condition is WHERE,
    in front of any other it is a connector. -/
def Model.blanksOfChain (ws : List Condition) : Nat :=
  (ws.map (m.blanksOf params)).sum +
    (ws.map fun w => blanksIn (connectorText w.connector)).tail.sum

theorem blanks_putPredicate (f : Fragment) (w : Condition) :
    (m.putPredicate params f w).blanks + 2 = f.blanks + m.blanksOf params w := by
  rw [Model.putPredicate, blanks_putText, blanks_append, blanks_putText, Model.blanksOf]
  omega

theorem blanks_foldl (ws : List Condition) (f : Fragment) :
    (ws.foldl (fun f v => m.putPredicate params
      (f.putText (" " ++ connectorText v.connector ++ " ")) v) f).blanks =
        f.blanks + (ws.map (m.blanksOf params)).sum +
          (ws.map fun w => blanksIn (connectorText w.connector)).sum := by
  induction ws generalizing f with
  | nil => rfl
  | cons w r ih =>
    have hput := blanks_putPredicate m params
      (f.putText (" " ++ connectorText w.connector ++ " ")) w
    have hblank : blanksIn " " = 1 := rfl
    rw [blanks_putText, blanksIn_append, blanksIn_append, hblank] at hput
    rw [List.foldl_cons, ih, List.map_cons, List.map_cons, List.sum_cons, List.sum_cons]
    omega

/-- The blanks of the WHERE clause with a chain. -/
theorem blanks_chain {ws : List Condition} (h : ws ≠ []) :
    (m.chain params ws).blanks + 2 = m.blanksOfChain params ws := by
  cases ws with
  | nil => exact absurd rfl h
  | cons w r =>
    have hfirst := blanks_putPredicate m params .empty w
    have hempty : Fragment.blanks .empty = 0 := rfl
    rw [Model.chain, blanks_foldl, Model.blanksOfChain, List.map_cons, List.map_cons,
      List.sum_cons, List.tail_cons]
    omega

/-- One condition more brings blanks, wherever it stands. -/
theorem blanksOfChain_insert (front back : List Condition) (w : Condition) :
    m.blanksOfChain params (front ++ back) < m.blanksOfChain params (front ++ w :: back) := by
  have hown : 2 ≤ m.blanksOf params w := Nat.le_add_right 2 _
  unfold Model.blanksOfChain
  cases front with
  | nil =>
    -- the next condition gets a connector, where it had WHERE
    cases back with
    | nil =>
      simp only [List.nil_append, List.map_cons, List.map_nil, List.sum_cons, List.sum_nil,
        List.tail_cons, List.tail_nil]
      omega
    | cons v r =>
      simp only [List.nil_append, List.map_cons, List.sum_cons, List.tail_cons]
      omega
  | cons v r =>
    simp only [List.cons_append, List.map_cons, List.map_append, List.sum_cons, List.sum_append,
      List.tail_cons]
    omega

theorem blanksOfChain_withFilters (chain added : List Condition) :
    m.blanksOfChain params (withFilters chain added) =
      m.blanksOfChain params (chain ++ added) := by
  -- the brackets of the group add no blank
  have hbracket : blanksIn "(" = 0 ∧ blanksIn ")" = 0 := ⟨rfl, rfl⟩
  have hown : (withFilters chain added).map (m.blanksOf params) =
      (chain ++ added).map (m.blanksOf params) := by
    apply map_withFilters
    · intro w
      simp only [Model.blanksOf, blanksIn_append, hbracket, Nat.zero_add]
      rfl
    · intro w
      simp only [Model.blanksOf, blanksIn_append, hbracket, Nat.add_zero]
      rfl
  have hlinks : (withFilters chain added).map (fun w => blanksIn (connectorText w.connector)) =
      (chain ++ added).map fun w => blanksIn (connectorText w.connector) :=
    map_withFilters (fun _ => rfl) (fun _ => rfl) chain added
  rw [Model.blanksOfChain, hown, hlinks, Model.blanksOfChain]

end Counting

/-- A chain brings its blanks to both statements of a query. -/
theorem Select.blanks_filtered (q : Select) (hrequired : q.required = []) (m : Model)
    (params : Params) (ws : List Condition) :
    blanksIn (q.filtered (m.chain params ws)).statement.text =
        blanksIn (q.filtered .empty).statement.text + m.blanksOfChain params ws ∧
      blanksIn (q.filtered (m.chain params ws)).countStatement.text =
        blanksIn (q.filtered .empty).countStatement.text + m.blanksOfChain params ws := by
  have hword : blanksIn " WHERE " = 2 := rfl
  have hwhere : ∀ st, blanksIn ((q.filtered (m.chain params ws)).writeWhere st).text =
      blanksIn st.text + m.blanksOfChain params ws := by
    intro st
    simp only [writeWhere, filtered, hrequired, List.isEmpty_nil, if_true]
    by_cases hws : ws = []
    · rw [hws]
      rfl
    · have hchain := blanks_chain m params hws
      rw [m.isEmpty_chain params hws, if_neg (by decide), blanksIn_write, Statement.text_put,
        blanksIn_append, hword]
      omega
  -- without a chain no WHERE is written at all
  have hnone : ∀ st, (q.filtered .empty).writeWhere st = st := by
    intro st
    simp only [writeWhere, filtered, hrequired, List.isEmpty_nil, if_true]
    rfl
  have hbody : ∀ st, blanksIn ((q.filtered (m.chain params ws)).writeBody st).text =
      blanksIn ((q.filtered .empty).writeBody st).text + m.blanksOfChain params ws := by
    intro st
    have hprojection : ∀ f, (q.filtered f).projection = q.projection := fun _ => rfl
    have hhaving : ∀ f, (q.filtered f).having = q.having := fun _ => rfl
    have hgroups : ∀ f, (q.filtered f).groups = q.groups := fun _ => rfl
    have hjoins : ∀ f, (q.filtered f).joins = q.joins := fun _ => rfl
    have hsource : ∀ f, (q.filtered f).source = q.source := fun _ => rfl
    unfold writeBody
    dsimp only
    rw [hnone, hhaving, hhaving]
    split
    · simp only [Statement.text_put, blanksIn_append, blanksIn_write, hwhere, hprojection, hgroups,
        hjoins, hsource]
      omega
    · simp only [Statement.text_put, blanksIn_append, blanksIn_write, hwhere, hprojection, hgroups,
        hjoins, hsource]
      omega
  have hdialect : ∀ f, (q.filtered f).dialect = q.dialect := fun _ => rfl
  have htail : ∀ f, (q.filtered f).tail = q.tail := fun _ => rfl
  constructor
  · simp only [statement, Statement.text_put, blanksIn_append, hbody, htail, hdialect]
    omega
  · simp only [countStatement, Statement.text_put, blanksIn_append, hbody, hdialect]
    omega

/-- A condition among those behind a chain is seen in both texts: they have more blanks. -/
theorem Select.texts_ne_of_left_out (q : Select) (hrequired : q.required = []) (m : Model)
    (params : Params) (chain before after : List Condition) (c : Condition) :
    (q.filtered (m.chain params (withFilters chain (before ++ after)))).statement.text ≠
        (q.filtered (m.chain params (withFilters chain (before ++ c :: after)))).statement.text ∧
      (q.filtered (m.chain params (withFilters chain (before ++ after)))).countStatement.text ≠
        (q.filtered
          (m.chain params (withFilters chain (before ++ c :: after)))).countStatement.text := by
  -- every condition brings blanks of its own, so one less shows in their number
  have hless := blanksOfChain_insert m params (chain ++ before) after c
  rw [List.append_assoc, List.append_assoc, ← blanksOfChain_withFilters,
    ← blanksOfChain_withFilters] at hless
  obtain ⟨hrows, hcount⟩ := q.blanks_filtered hrequired m params
    (withFilters chain (before ++ c :: after))
  obtain ⟨hrows', hcount'⟩ := q.blanks_filtered hrequired m params
    (withFilters chain (before ++ after))
  constructor
  · intro hsame
    rw [hsame] at hrows'
    omega
  · intro hsame
    rw [hsame] at hcount'
    omega

/-! ### Listings -/

/-- Both statements of a query contain the predicate of a condition, with the operands that the
    condition has of its own. -/
def Select.Restricts (q : Select) (m : Model) (params : Params) (c : Condition) : Prop :=
  q.statement.Contains (m.predicate params c)
      (operands (m.fieldOf? c.table c.column) c none (operatorText c.operator)).values ∧
    q.countStatement.Contains (m.predicate params c)
      (operands (m.fieldOf? c.table c.column) c none (operatorText c.operator)).values

/-- Of a text written by hand, the conditions have no part in the query. -/
theorem Model.compile_raw_conditions {m : Model} (hraw : m.isRaw = true) (params : Params)
    (ws : List Condition) : ({ m with conditions := ws } : Model).compile params =
      m.compile params := by
  have hraw' : ({ m with conditions := ws } : Model).isRaw = true := hraw
  rw [compile, compile, if_pos hraw, if_pos hraw']
  rfl

namespace Rows

/-- The query of a listing on a model of tables is the query of the model behind whose chain the
    conditions of the filters stand. -/
theorem filtered_of_listQuery {settings : Settings} {r : ListRequest} {m : Model} {q : Select}
    (hraw : m.isRaw = false) (h : listQuery settings r m = .ok q) :
    ∃ added base, r.filters.mapM (·.condition) = .ok added ∧
      m.compile (r.compileParams settings m) = .ok base ∧
      q = base.filtered (m.chain (r.compileParams settings m) (withFilters m.conditions added)) := by
  cases hrestrict : r.restrict m with
  | error fault =>
    rw [listQuery, hrestrict] at h
    cases h
  | ok m' =>
    obtain ⟨added, hadded, rfl⟩ := ListRequest.restrict_ok hrestrict
    rw [listQuery_of_restrict hrestrict] at h
    have hcompiled := (Model.select_eq_ok_iff.1 h).1
    rw [Model.compile_conditions hraw] at hcompiled
    change (m.compile (r.compileParams settings m)).map _ = _ at hcompiled
    cases hbase : m.compile (r.compileParams settings m) with
    | error fault =>
      rw [hbase] at hcompiled
      cases hcompiled
    | ok base =>
      rw [hbase] at hcompiled
      exact ⟨added, base, hadded, rfl, (Except.ok.inj hcompiled).symm⟩

/-- On a text written by hand all accepted filters make the same query. -/
theorem listQuery_raw {settings : Settings} {r : ListRequest} {m : Model}
    (hraw : m.isRaw = true) (haccepted : ∀ f ∈ r.filters, f.Accepted) :
    listQuery settings r m = m.select (r.compileParams settings m) := by
  obtain ⟨added, hadded⟩ := exists_of_accepted haccepted
  rw [listQuery_of_restrict (ListRequest.restrict_of_mapM hadded m), Model.select, Model.select,
    Model.compile_raw_conditions hraw]
  rfl

theorem accepted_of_listQuery {settings : Settings} {r : ListRequest} {m : Model} {q : Select}
    (h : listQuery settings r m = .ok q) : ∀ f ∈ r.filters, f.Accepted := by
  cases hrestrict : r.restrict m with
  | error fault =>
    rw [listQuery, hrestrict] at h
    cases h
  | ok m' =>
    obtain ⟨added, hadded, -⟩ := ListRequest.restrict_ok hrestrict
    intro f hf
    obtain ⟨front, back, hsplit⟩ := List.append_of_mem hf
    rw [hsplit] at hadded
    obtain ⟨-, c, -, hc, -, -⟩ := insert_of_mapM_ok hadded
    rw [Filter.Accepted, hc]
    rfl

section Prepared

variable {model : String} {r : ListRequest} {s t : Session} {m : Model} {q : Select}

/-- Of two requests that choose the same template, one is prepared on the model of the other. -/
theorem listQuery_of_prepare (hrun : (prepare model r).exec s = (.ok (m, q), t))
    (r' : ListRequest) (htemplate : r'.template = r.template) {m' : Model} {q' : Select}
    {t' : Session} (hrun' : (prepare model r').exec s = (.ok (m', q'), t')) :
    m' = m ∧ t' = t ∧ listQuery t.settings r' m = .ok q' := by
  obtain ⟨base, u, hbase, hchosen, -⟩ := ok_of_prepare hrun
  obtain ⟨base', u', hbase', hchosen', hquery'⟩ := ok_of_prepare hrun'
  obtain ⟨hsame, rfl⟩ := Prod.mk.inj (hbase.symm.trans hbase')
  obtain rfl := Except.ok.inj hsame
  rw [htemplate] at hchosen'
  obtain ⟨hsame, rfl⟩ := Prod.mk.inj (hchosen.symm.trans hchosen')
  obtain rfl := Except.ok.inj hsame
  exact ⟨rfl, rfl, hquery'⟩

/-- **On a model of tables every filter reaches the datasource; on a text written by hand none
    does.**  All that a listing or a count sends are the two statements of one query.  On a model
    of tables both contain the predicate of each filter with its operands, and with a filter left
    out both are others.  On a text written by hand, all accepted filters make the same query. -/
theorem filters_reach_statements (hrun : (prepare model r).exec s = (.ok (m, q), t)) :
    (∀ x, (list model r).Sends s x ∨ (count model r).Sends s x →
      x = (m.connection, q.statement.text, q.statement.args) ∨
        x = (m.connection, q.countStatement.text, q.countStatement.args)) ∧
    (m.isRaw = false → ∀ front f back, r.filters = front ++ f :: back →
      (∃ c, f.condition = .ok c ∧ q.Restricts m (r.compileParams t.settings m) c) ∧
      ∀ m' q' t', (prepare model { r with filters := front ++ back }).exec s =
          (.ok (m', q'), t') →
        q'.statement.text ≠ q.statement.text ∧
          q'.countStatement.text ≠ q.countStatement.text) ∧
    (m.isRaw = true → ∀ gs : List Filter, (∀ g ∈ gs, g.Accepted) →
      (prepare model { r with filters := gs }).exec s = (.ok (m, q), t)) := by
  obtain ⟨base, u, hload, hchosen, hquery⟩ := ok_of_prepare hrun
  refine ⟨fun x hx => ?_, fun hraw front f back hsplit => ?_, fun hraw gs hgs => ?_⟩
  -- one run prepares one query, so whatever is sent comes from that query
  · rcases hx with hx | hx
    · obtain ⟨m', q', t', hrun', hsent⟩ := sent_of_list hx
      obtain ⟨hsame, -⟩ := Prod.mk.inj (hrun.symm.trans hrun')
      obtain ⟨rfl, rfl⟩ := Prod.mk.inj (Except.ok.inj hsame)
      exact hsent.symm
    · obtain ⟨m', q', t', hrun', hsent⟩ := sent_of_count hx
      obtain ⟨hsame, -⟩ := Prod.mk.inj (hrun.symm.trans hrun')
      obtain ⟨rfl, rfl⟩ := Prod.mk.inj (Except.ok.inj hsame)
      exact .inr hsent
  · obtain ⟨added, p, hadded, hp, rfl⟩ := filtered_of_listQuery hraw hquery
    obtain ⟨-, -, hrequired⟩ := Model.clauses_of_compile hraw hp
    rw [hsplit] at hadded
    obtain ⟨before, c, after, hc, rfl, hothers⟩ := insert_of_mapM_ok hadded
    constructor
    · refine ⟨c, hc, ?_⟩
      have hmem : c ∈ withFilters m.conditions (before ++ c :: after) := by
        rw [withFilters, if_neg (by simp)]
        simp
      have hsome := m.isEmpty_chain (r.compileParams t.settings m) (List.ne_nil_of_mem hmem)
      have hcontains := fun st => contains_chain m (r.compileParams t.settings m) hmem st
      rw [numbered_predicate_of_filter m _ hc] at hcontains
      exact Select.contains_of_filter
        (q := p.filtered (m.chain (r.compileParams t.settings m)
          (withFilters m.conditions (before ++ c :: after)))) hrequired hsome hcontains
    -- the request without the filter differs in its chain only: same model, same base query
    · intro m' q' t' hrun'
      obtain ⟨-, -, hquery'⟩ := listQuery_of_prepare hrun { r with filters := front ++ back } rfl
        hrun'
      obtain ⟨added', p', hadded', hp', rfl⟩ := filtered_of_listQuery hraw hquery'
      obtain rfl := Except.ok.inj (hothers.symm.trans hadded')
      obtain rfl : p = p' := Except.ok.inj (hp.symm.trans hp')
      exact p.texts_ne_of_left_out hrequired m (r.compileParams t.settings m) m.conditions before
        after c
  -- a raw query is read from the model alone once its filters are accepted
  · have hsame : listQuery t.settings { r with filters := gs } m = listQuery t.settings r m := by
      rw [listQuery_raw hraw hgs, listQuery_raw hraw (accepted_of_listQuery hquery)]
      rfl
    exact exec_prepare hload hchosen (hsame.trans hquery)

end Prepared

/-- Urgent tickets are asked for by the filter, and the text is not the one without it. -/
theorem urgent_reaches_tickets :
    (prepare "ticket" (urgent "")).exec tickets.session =
      (.ok (tickets, ticketQuery (urgentChain "AND")), tickets.session) ∧
    (ticketQuery (urgentChain "AND")).Restricts tickets [] (urgentCondition "AND") ∧
    ∀ m' q' t', (prepare "ticket" {}).exec tickets.session = (.ok (m', q'), t') →
      q'.statement.text ≠ (ticketQuery (urgentChain "AND")).statement.text ∧
        q'.countStatement.text ≠ (ticketQuery (urgentChain "AND")).countStatement.text := by
  obtain ⟨-, htables, -⟩ := filters_reach_statements prepare_urgent_and
  obtain ⟨⟨c, hc, hrestricts⟩, hothers⟩ := htables rfl [] _ [] rfl
  have hcondition : Filter.condition { column := "urgent", value := .str "yes", connector := "" } =
      .ok (urgentCondition "AND") := by
    decide
  obtain rfl := Except.ok.inj (hc.symm.trans hcondition)
  exact ⟨prepare_urgent_and, hrestricts, hothers⟩

/-! ### A filter that is dropped -/

/-- People of age, by a text written by hand. -/
def adults : Model where
  entry := { id := "adult", code := "adults", connection := "main", kind := .sql }
  tables := []
  fields := []
  dialect := .mysql
  raw := some { model := "adult", content := "SELECT * FROM people WHERE age > 17" }

/-- A request for those of them below thirty. -/
def young : ListRequest where
  filters := [{ column := "age", operator := "<", value := .str "30" }]

def youngCondition : Condition where
  connector := "AND"
  column := "age"
  operator := "<"
  value := "30"

/-- The query for all adults. -/
def adultQuery : Select := Select.all .mysql (adults.rawSource [])

theorem prepare_adults {r : ListRequest} (haccepted : ∀ f ∈ r.filters, f.Accepted)
    (htemplate : r.template = none) (hparams : r.compileParams {} adults = []) :
    (prepare "adult" r).exec adults.session = (.ok (adults, adultQuery), adults.session) := by
  have hchosen : (Templates.applyChosen "adult" r.template adults).exec adults.session =
      (.ok adults, adults.session) := by
    rw [htemplate]
    exact Templates.exec_applyChosen_of_memory rfl rfl _
  have hcompile : adults.compile [] = .ok adultQuery := by
    rfl
  have hquery : listQuery {} r adults = .ok adultQuery := by
    rw [listQuery_raw rfl haccepted, hparams]
    exact Model.select_eq_ok_iff.2 ⟨hcompile, by decide +kernel⟩
  exact exec_prepare rfl hchosen hquery

/-- A count of adults below thirty counts all adults. -/
theorem adults_unfiltered :
    (∀ f ∈ young.filters, f.Accepted) ∧
    young.filters.mapM (·.condition) = .ok [youngCondition] ∧
    (prepare "adult" young).exec adults.session = (.ok (adults, adultQuery), adults.session) ∧
    (prepare "adult" {}).exec adults.session = (.ok (adults, adultQuery), adults.session) ∧
    (count "adult" young).Sends adults.session ("main",
      "SELECT COUNT(*) FROM (SELECT * FROM (SELECT * FROM people WHERE age > 17) AS raw_model) " ++
        "AS total_rows", []) ∧
    ¬ adultQuery.Restricts adults [] youngCondition := by
  have haccepted : ∀ f ∈ young.filters, f.Accepted := by decide
  have hprepared := prepare_adults haccepted rfl rfl
  have hcount : adultQuery.countStatement = ⟨.mysql, "SELECT COUNT(*) FROM (SELECT * FROM " ++
      "(SELECT * FROM people WHERE age > 17) AS raw_model) AS total_rows", []⟩ := by
    decide +kernel
  have hreply : adults.session.answers.next.1 = .rows [] 0 := rfl
  have hsent := sends_count hprepared rfl hreply
  rw [hcount] at hsent
  refine ⟨haccepted, by decide, hprepared, prepare_adults (by decide) rfl rfl, hsent, ?_⟩
  -- the statement binds nothing, and a restricting one would bind the filter's value
  rintro ⟨-, -, -, before, after, -, hargs⟩
  have hvalues : (operands (adults.fieldOf? "" "age") youngCondition none
      (operatorText "<")).values = [.text "30"] := by
    decide
  rw [hcount] at hargs
  change [] = before ++ (operands (adults.fieldOf? "" "age") youngCondition none
    (operatorText "<")).values ++ after at hargs
  rw [hvalues] at hargs
  simp at hargs

end Rows

end MetaQuery
