/-
  MetaQuery/Proofs/Query/Weaving.lean
  ===================================
  The texts of a model leave no quoted span open.

  A model brings free texts of its own: functions, brackets, operators, connectors, kinds of joins
  and ON clauses.  Where none of them has a quote (`Model.IsUnquoted`), all quotes of a query come
  from names, which are enclosed with their quotes doubled.  So the clauses of a query in front of
  its predicates and behind them are woven (`Select.Framed`), and so is every chain of predicates,
  whatever tables, columns and values are called.
-/
import MetaQuery.Proofs.Query.Composition
import MetaQuery.Proofs.Query.Frames
import MetaQuery.Proofs.Query.Independence
import MetaQuery.Proofs.Raw.Woven

namespace MetaQuery

open Raw Text

/-! ### Free texts without quotes -/

structure Condition.IsUnquoted (w : Condition) : Prop where
  connector : Unquoted w.connector.toList
  opening : Unquoted w.opening.toList
  function : Unquoted w.function.toList
  operator : Unquoted w.operator.toList
  closing : Unquoted w.closing.toList

structure JoinPair.IsUnquoted (p : JoinPair) : Prop where
  connector : Unquoted p.connector.toList
  opening : Unquoted p.opening.toList
  function : Unquoted p.function.toList
  operator : Unquoted p.operator.toList
  joinedFunction : Unquoted p.joinedFunction.toList
  closing : Unquoted p.closing.toList

structure JoinEntry.IsUnquoted (j : JoinEntry) : Prop where
  type : Unquoted j.type.toList
  on : Unquoted j.on.toList
  pairs : ∀ p ∈ j.pairs, p.IsUnquoted

structure FieldEntry.IsUnquoted (f : FieldEntry) : Prop where
  function : Unquoted f.function.toList
  aggregate : Unquoted f.aggregate.toList

/-- No free text of the model has a quote. -/
structure Model.IsUnquoted (m : Model) : Prop where
  fields : ∀ f ∈ m.fields, f.IsUnquoted
  joins : ∀ j ∈ m.joins, j.IsUnquoted
  conditions : ∀ w ∈ m.conditions, w.IsUnquoted
  groups : ∀ g ∈ m.groups, Unquoted g.function.toList
  havings : ∀ w ∈ m.havings, w.IsUnquoted
  orders : ∀ o ∈ m.orders, Unquoted o.function.toList

/-! ### Expressions and joins -/

theorem woven_connectorText {s : String} (h : Unquoted s.toList) : Woven (connectorText s) :=
  (Unquoted.keyword (by decide) h).woven

theorem unquoted_operatorText {s : String} (h : Unquoted s.toList) :
    Unquoted (operatorText s).toList :=
  Unquoted.keyword (by decide) h

theorem FieldEntry.woven_projection (d : Dialect) {f : FieldEntry} (h : f.IsUnquoted) :
    Woven (f.projection d) := by
  have hinner : Woven (applyFunction f.function (d.column f.table f.column)) :=
    (woven_column d f.table f.column).applyFunction h.function
  have haggregate : Woven (Text.upper (Text.trim f.aggregate)) := h.aggregate.trim.upper.woven
  have hopen : Woven "(" := Unquoted.woven (by decide)
  have hclose : Woven ")" := Unquoted.woven (by decide)
  have has : Woven " AS " := Unquoted.woven (by decide)
  -- an aggregate puts the inner expression in brackets of its own
  have hexpr : Woven (if Text.trim f.aggregate = "" then
      applyFunction f.function (d.column f.table f.column)
      else Text.upper (Text.trim f.aggregate) ++ "(" ++
        applyFunction f.function (d.column f.table f.column) ++ ")") := by
    split
    · exact hinner
    · exact ((haggregate.append hopen).append hinner).append hclose
  unfold projection
  dsimp only
  split
  · exact (hexpr.append has).append (woven_quote d f.outputName)
  · exact hexpr

theorem GroupEntry.woven_expression (d : Dialect) {g : GroupEntry}
    (h : Unquoted g.function.toList) : Woven (g.expression d) :=
  (woven_column d g.table g.column).applyFunction h

theorem OrderEntry.woven_expression (d : Dialect) {o : OrderEntry}
    (h : Unquoted o.function.toList) : Woven (o.expression d) := by
  have hexpr : Woven (applyFunction o.function (d.column o.table o.column)) :=
    (woven_column d o.table o.column).applyFunction h
  unfold expression
  split
  · exact hexpr.append (Unquoted.woven (by decide))
  · exact hexpr.append (Unquoted.woven (by decide))

theorem JoinPair.woven_comparison (d : Dialect) (j : JoinEntry) {p : JoinPair}
    (h : p.IsUnquoted) : Woven (p.comparison d j) := by
  have hleft : Woven (applyFunction p.function (d.column j.table p.column)) :=
    (woven_column d j.table p.column).applyFunction h.function
  have hright : Woven (applyFunction p.joinedFunction (d.column j.joinedTable p.joinedColumn)) :=
    (woven_column d j.joinedTable p.joinedColumn).applyFunction h.joinedFunction
  have hblank : Woven " " := Unquoted.woven (by decide)
  have hoperator : Woven (if Text.trim p.operator = "" then "=" else Text.trim p.operator) := by
    split
    · exact Unquoted.woven (by decide)
    · exact h.operator.trim.woven
  unfold comparison
  exact (((((h.opening.woven.append hleft).append hblank).append hoperator).append hblank).append
    hright).append h.closing.woven

theorem JoinEntry.woven_onText (d : Dialect) {j : JoinEntry} (h : j.IsUnquoted) :
    Woven (j.onText d) := by
  have hblank : Woven " " := Unquoted.woven (by decide)
  unfold onText
  split
  -- an ON text was given; without one the pairs are written out
  · exact h.on.trim.woven
  · unfold pairsText
    split
    · exact Unquoted.woven (by decide)
    · next p r hpairs =>
      have hmem : ∀ q ∈ p :: r, q.IsUnquoted := fun q hq => h.pairs q (hpairs ▸ hq)
      refine (JoinPair.woven_comparison d j (hmem p List.mem_cons_self)).append ?_
      apply woven_join
      intro s hs
      obtain ⟨q, hq, rfl⟩ := List.mem_map.1 hs
      have hq := hmem q (List.mem_cons_of_mem p hq)
      exact ((hblank.append (woven_connectorText hq.connector)).append hblank).append
        (JoinPair.woven_comparison d j hq)

theorem JoinEntry.woven_render (d : Dialect) {j : JoinEntry} (h : j.IsUnquoted) :
    Woven (j.render d) := by
  have hkeyword : Woven (keyword "JOIN" j.type) := (Unquoted.keyword (by decide) h.type).woven
  have hkind : Woven j.kindText := by
    unfold kindText
    dsimp only
    split
    · exact hkeyword
    · exact hkeyword.append (Unquoted.woven (by decide))
  have hfront : Woven (j.kindText ++ " " ++ d.table j.joinedSchema j.joinedTable) :=
    (hkind.append (Unquoted.woven (by decide))).append (woven_table d _ _)
  unfold render
  dsimp only
  split
  · exact hfront.append (Unquoted.woven (by decide))
  · exact hfront.append ((Unquoted.woven (by decide)).append (woven_onText d h))

theorem mem_of_mem_walkJoins {pool pending : List JoinEntry} {j : JoinEntry}
    (h : j ∈ walkJoins pool pending) : j ∈ pool ∨ j ∈ pending := by
  fun_induction walkJoins pool pending with
  | case1 => cases h
  | case2 pool k pending hid ih =>
    -- the pool only shrinks
    have hpool : ∀ x, x ∈ joinsWithout pool k.id → x ∈ pool := fun x hx => (List.mem_filter.1 hx).1
    rcases List.mem_cons.1 h with rfl | h
    · exact .inr List.mem_cons_self
    · rcases ih h with hj | hj
      · exact .inl (hpool j hj)
      · rcases List.mem_append.1 hj with hj | hj
        · exact .inl (hpool j (List.mem_filter.1 hj).1)
        · exact .inr (List.mem_cons_of_mem k hj)
  | case3 pool k pending hid ih =>
    rcases ih h with hj | hj
    · exact .inl hj
    · exact .inr (List.mem_cons_of_mem k hj)

theorem mem_of_mem_orderedJoins {joins : List JoinEntry} {j : JoinEntry}
    (h : j ∈ orderedJoins joins) : j ∈ joins := by
  rcases mem_of_mem_walkJoins h with hj | hj
  · exact hj
  · exact (List.mem_filter.1 hj).1

/-! ### Fragments -/

namespace Fragment

/-- The text of the fragment is woven, wherever its numbers start. -/
def IsWoven (d : Dialect) (f : Fragment) : Prop := ∀ n, Woven (Part.render d n f.parts)

/-- The text of the fragment has no quotes. -/
def IsPlain (d : Dialect) (f : Fragment) : Prop := ∀ n, Unquoted (Part.render d n f.parts).toList

variable {d : Dialect} {f g : Fragment}

theorem IsPlain.isWoven (h : f.IsPlain d) : f.IsWoven d := fun n => (h n).woven

theorem isPlain_ofText {s : String} (h : Unquoted s.toList) : (ofText s).IsPlain d := by
  intro n
  rw [render_ofText]
  exact h

theorem IsPlain.putText (h : f.IsPlain d) {s : String} (hs : Unquoted s.toList) :
    (f.putText s).IsPlain d := by
  intro n
  rw [render_putText, String.toList_append]
  exact (h n).append hs

theorem IsPlain.putArg (h : f.IsPlain d) (v : Cell) : (f.putArg v).IsPlain d := by
  -- NULL, a question mark or a dollar sign with a number
  have hslot : ∀ k, Unquoted (if v.isNull then "NULL" else d.placeholder (k + 1)).toList := by
    intro k
    split
    · decide
    · cases d with
      | postgres =>
        have hnumber : IsNumber (Nat.toDigits 10 (k + 1)) :=
          ⟨Nat.toDigits_ne_nil, fun c hc => Nat.isDigit_of_mem_toDigits (by decide) (by decide) hc⟩
        rw [Dialect.placeholder, String.toList_ofList]
        exact hnumber.unquoted
      | mysql => exact show Unquoted "?".toList by decide
      | ansi => exact show Unquoted "?".toList by decide
  intro n
  rw [render_putArg, String.toList_append]
  exact (h n).append (hslot _)

theorem IsPlain.listed (h : f.IsPlain d) (vs : List Cell) : (listed f vs).IsPlain d := by
  fun_induction MetaQuery.listed f vs with
  | case1 f => exact h
  | case2 f v => exact h.putArg v
  | case3 f v r _ ih => exact ih ((h.putArg v).putText (by decide))

theorem IsWoven.putText (h : f.IsWoven d) {s : String} (hs : Woven s) :
    (f.putText s).IsWoven d := by
  intro n
  rw [render_putText]
  exact (h n).append hs

theorem IsWoven.append (h : f.IsWoven d) (hg : g.IsWoven d) : (f.append g).IsWoven d := by
  intro n
  rw [render_append]
  exact (h n).append (hg _)

theorem isWoven_empty : empty.IsWoven d := fun _ => woven_empty

theorem isWoven_ofText {s : String} (h : Woven s) : (ofText s).IsWoven d :=
  isWoven_empty.putText h

end Fragment

/-! ### Comparisons and chains -/

open Fragment

theorem append_listed (f g : Fragment) (vs : List Cell) :
    f.append (listed g vs) = listed (f.append g) vs := by
  fun_induction listed g vs with
  | case1 g => rfl
  | case2 g v => rw [append_putArg, listed]
  | case3 g v r hr ih =>
    rw [ih, append_putText, append_putArg]
    cases r with
    | nil => exact absurd rfl hr
    | cons w r => rfl

/-- Nothing but an empty list is compared without the left side. -/
theorem comparison_eq_append (left operator : String) {os : Operands}
    (h : ∀ negated, os ≠ .items negated []) :
    comparison left operator os = (ofText left).append (comparison "" operator os) := by
  have htext : ∀ s, ofText (left ++ s) = (ofText left).append (ofText s) := by
    intro s
    rw [append_ofText]
    exact (putText_putText empty left s).symm
  -- the column is written first in every case but the empty list, which has no column
  cases os with
  | nothing =>
    simp only [comparison, String.empty_append]
    rw [← htext, String.append_assoc]
  | items negated values =>
    cases values with
    | nil => exact absurd rfl (h negated)
    | cons v r =>
      simp only [comparison, String.empty_append]
      rw [append_putText, append_listed, ← htext, String.append_assoc, String.append_assoc,
        String.append_assoc]
  | range lower upper =>
    simp only [comparison, String.empty_append]
    rw [append_putArg, append_putText, append_putArg, ← htext, String.append_assoc,
      String.append_assoc, String.append_assoc]
  | one value =>
    simp only [comparison, String.empty_append]
    rw [append_putArg, ← htext, String.append_assoc, String.append_assoc, String.append_assoc]

theorem isPlain_comparison (d : Dialect) {operator : String} (h : Unquoted operator.toList)
    (os : Operands) : (comparison "" operator os).IsPlain d := by
  have hblank : Unquoted " ".toList := by decide
  have hfront : Unquoted ("" ++ " " ++ operator).toList := by
    rw [String.empty_append, String.toList_append]
    exact hblank.append h
  fun_cases comparison "" operator os with
  | case1 => exact isPlain_ofText hfront
  | case2 negated =>
    cases negated with
    | true => exact isPlain_ofText (by decide)
    | false => exact isPlain_ofText (by decide)
  | case3 negated values hvalues =>
    refine IsPlain.putText (IsPlain.listed (isPlain_ofText ?_) values) (by decide)
    rw [String.toList_append]
    exact hfront.append (by decide)
  | case4 lower upper =>
    refine (((isPlain_ofText ?_).putArg lower).putText (by decide)).putArg upper
    rw [String.toList_append]
    exact hfront.append hblank
  | case5 value =>
    refine (isPlain_ofText ?_).putArg value
    rw [String.toList_append]
    exact hfront.append hblank

theorem isWoven_comparison (d : Dialect) {left operator : String} (hleft : Woven left)
    (h : Unquoted operator.toList) (os : Operands) : (comparison left operator os).IsWoven d := by
  by_cases hempty : ∃ negated, os = .items negated []
  · obtain ⟨negated, rfl⟩ := hempty
    exact (isPlain_comparison d h (.items negated [])).isWoven
  · rw [comparison_eq_append left operator fun negated hos => hempty ⟨negated, hos⟩]
    exact (isWoven_ofText hleft).append (isPlain_comparison d h os).isWoven

namespace Model

variable {m : Model} {params : Params}

theorem isWoven_putPredicate {f : Fragment} (hf : f.IsWoven m.dialect) {w : Condition}
    (h : w.IsUnquoted) : (m.putPredicate params f w).IsWoven m.dialect := by
  have hleft : Woven (applyFunction w.function (m.dialect.column w.table w.column)) :=
    (woven_column m.dialect w.table w.column).applyFunction h.function
  have hpredicate : (m.predicate params w).IsWoven m.dialect := by
    rw [predicate]
    exact isWoven_comparison m.dialect hleft (unquoted_operatorText h.operator) _
  rw [putPredicate]
  exact ((hf.putText h.opening.woven).append hpredicate).putText h.closing.woven

/-- A chain without quotes in its free texts is woven. -/
theorem isWoven_chain {ws : List Condition} (h : ∀ w ∈ ws, w.IsUnquoted) :
    (m.chain params ws).IsWoven m.dialect := by
  have hblank : Woven " " := Unquoted.woven (by decide)
  -- the fold starts from the first condition, so the induction is on the conditions behind it
  have hfold : ∀ (vs : List Condition) {f : Fragment}, f.IsWoven m.dialect →
      (∀ v ∈ vs, v.IsUnquoted) → (vs.foldl (fun f v => m.putPredicate params
        (f.putText (" " ++ connectorText v.connector ++ " ")) v) f).IsWoven m.dialect := by
    intro vs
    induction vs with
    | nil => exact fun hf _ => hf
    | cons v vs ih =>
      intro f hf hvs
      have hv := hvs v List.mem_cons_self
      have hlink := (hblank.append (woven_connectorText hv.connector)).append hblank
      exact ih (isWoven_putPredicate (hf.putText hlink) hv) fun x hx =>
        hvs x (List.mem_cons_of_mem v hx)
  cases ws with
  | nil => exact isWoven_empty
  | cons w r =>
    exact hfold r (isWoven_putPredicate isWoven_empty (h w List.mem_cons_self)) fun x hx =>
      h x (List.mem_cons_of_mem w hx)

end Model

/-! ### The clauses around the predicates -/

/-- What stands around the predicates of a query is woven. -/
structure Select.Framed (q : Select) : Prop where
  head : Woven q.headText
  rest : ∀ n, Woven (Part.render q.dialect n q.restParts)
  tail : Woven q.tail

namespace Select

theorem woven_listClause {word : String} (hword : Unquoted word.toList) {items : List String}
    (h : ∀ s ∈ items, Woven s) : Woven (listClause word items) := by
  unfold listClause
  split
  · exact woven_empty
  · exact hword.woven.append (woven_joinWith (by decide) h)

variable {q : Select}

theorem woven_headText (hcolumns : ∀ s ∈ q.columns, Woven s) (hsource : q.source.IsWoven q.dialect)
    (hjoins : ∀ s ∈ q.joins, Woven s) : Woven q.headText := by
  have hprojection : Woven q.projection := by
    unfold projection
    split
    · exact Unquoted.woven (by decide)
    · exact woven_joinWith (by decide) hcolumns
  have hjoined : Woven (String.join (q.joins.map (" " ++ ·))) := by
    apply woven_join
    intro s hs
    obtain ⟨t, ht, rfl⟩ := List.mem_map.1 hs
    exact (Unquoted.woven (by decide)).append (hjoins t ht)
  have hselect : Woven ("SELECT " ++ q.projection) :=
    (Unquoted.woven (by decide)).append hprojection
  have hfrom : Woven " FROM " := Unquoted.woven (by decide)
  rw [headText, headParts, Part.render, Part.render, Part.render_append, Part.render, Part.render]
  exact hselect.append (hfrom.append ((hsource 0).append (hjoined.append woven_empty)))

theorem woven_restParts (hgroups : ∀ s ∈ q.groups, Woven s) (hhaving : q.having.IsWoven q.dialect)
    (n : Nat) : Woven (Part.render q.dialect n q.restParts) := by
  rw [restParts, Part.render]
  refine (woven_listClause (by decide) hgroups).append ?_
  unfold havingParts
  split
  · exact woven_empty
  · exact (Unquoted.woven (by decide)).append (hhaving n)

end Select

/-- **The query of a model without quotes in its free texts is woven around its predicates.** -/
theorem Model.framed_of_compile {m : Model} (hraw : m.isRaw = false) (hm : m.IsUnquoted)
    {params : Params} {q : Select} (h : m.compile params = .ok q) : q.Framed := by
  have hcolumns : ∀ s ∈ m.fields.map (·.projection m.dialect), Woven s := by
    intro s hs
    obtain ⟨f, hf, rfl⟩ := List.mem_map.1 hs
    exact FieldEntry.woven_projection m.dialect (hm.fields f hf)
  have hjoins : ∀ s ∈ (orderedJoins m.joins).map (·.render m.dialect), Woven s := by
    intro s hs
    obtain ⟨j, hj, rfl⟩ := List.mem_map.1 hs
    exact JoinEntry.woven_render m.dialect (hm.joins j (mem_of_mem_orderedJoins hj))
  have hgroups : ∀ s ∈ m.groups.map (·.expression m.dialect), Woven s := by
    intro s hs
    obtain ⟨g, hg, rfl⟩ := List.mem_map.1 hs
    exact GroupEntry.woven_expression m.dialect (hm.groups g hg)
  have horders : ∀ s ∈ m.orders.map (·.expression m.dialect), Woven s := by
    intro s hs
    obtain ⟨o, ho, rfl⟩ := List.mem_map.1 hs
    exact OrderEntry.woven_expression m.dialect (hm.orders o ho)
  rw [compile, hraw, if_neg (by decide), compileEntries_eq] at h
  -- a model without a table, and a page beyond the last, are errors and compile to nothing
  cases htarget : m.target with
  | error fault =>
    rw [htarget] at h
    cases h
  | ok source =>
    cases hwindow : m.window params with
    | error fault =>
      rw [htarget, hwindow] at h
      cases h
    | ok window =>
      rw [htarget, hwindow] at h
      obtain rfl := Except.ok.inj h
      have hsource : Woven source := by
        obtain ⟨t, -, rfl⟩ := exists_table_of_target htarget
        exact woven_table m.dialect t.schema t.name
      constructor
      · exact Select.woven_headText hcolumns (isWoven_ofText hsource) hjoins
      · exact Select.woven_restParts hgroups (isWoven_chain hm.havings)
      · exact (Select.woven_listClause (by decide) horders).append
          (Select.unquoted_windowText window).woven

end MetaQuery
