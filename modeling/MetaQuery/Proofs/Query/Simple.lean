/-
  MetaQuery/Proofs/Query/Simple.lean
  ==================================
  The check never refuses the query of a model without free texts.

  A simple model has no functions, aggregates and ON clauses, its operators are those that filters
  may have, its connectors are AND and OR, its joins are plain ones, and the brackets of its chains
  are parentheses that add up.  What is left to it are names and values.  Names are enclosed in
  quotes and values are bound, so every piece of its query is mild, and so is the whole, with the
  filters of any request put behind its chain (`Model.simple_unrefused`).
-/
import MetaQuery.Proofs.Chain.Quoting
import MetaQuery.Proofs.Raw.Mild
import MetaQuery.Proofs.Raw.Unterminated

namespace MetaQuery

open Raw Text

/-! ### Simple models -/

structure Condition.IsSimple (w : Condition) : Prop where
  linked : w.IsLinked
  opening : IsBrackets w.opening
  function : Text.trim w.function = ""
  operator : operatorText w.operator ∈ filterOperators
  closing : IsBrackets w.closing

structure JoinPair.IsSimple (p : JoinPair) : Prop where
  connector : connectorText p.connector = "AND" ∨ connectorText p.connector = "OR"
  opening : p.opening = ""
  function : Text.trim p.function = ""
  operator : operatorText p.operator ∈ filterOperators
  joinedFunction : Text.trim p.joinedFunction = ""
  closing : p.closing = ""

structure JoinEntry.IsSimple (j : JoinEntry) : Prop where
  type : keyword "JOIN" j.type ∈ ["JOIN", "INNER", "LEFT", "RIGHT"]
  on : Text.trim j.on = ""
  pairs : ∀ p ∈ j.pairs, p.IsSimple

structure FieldEntry.IsSimple (f : FieldEntry) : Prop where
  function : Text.trim f.function = ""
  aggregate : Text.trim f.aggregate = ""

/-- The brackets of a chain, from left to right. -/
def brackets (ws : List Condition) : List Char :=
  ws.flatMap fun w => w.opening.toList ++ w.closing.toList

/-- A chain without free texts, whose brackets add up. -/
structure SimpleChain (ws : List Condition) : Prop where
  conditions : ∀ w ∈ ws, w.IsSimple
  brackets : excess (brackets ws) = 0

/-- A model of tables without free texts. -/
structure Model.IsSimple (m : Model) : Prop where
  tables : m.isRaw = false
  fields : ∀ f ∈ m.fields, f.IsSimple
  joins : ∀ j ∈ m.joins, j.IsSimple
  conditions : SimpleChain m.conditions
  groups : ∀ g ∈ m.groups, Text.trim g.function = ""
  havings : SimpleChain m.havings
  orders : ∀ o ∈ m.orders, Text.trim o.function = ""

/-! ### Expressions and joins -/

section
variable (d : Dialect)

theorem FieldEntry.mild_projection {f : FieldEntry} (h : f.IsSimple) : Mild 0 (f.projection d) := by
  have hcolumn := mild_column d f.table f.column
  have has : Mild 0 " AS " := mild_plain (by decide)
  simp only [projection, h.aggregate, applyFunction_of_blank h.function, if_true]
  split
  · have hfront := hcolumn.append has (.inr (by decide))
    exact hfront.append (mild_quote d f.outputName)
      (.inl (endsApart_append_of_ne (by decide) (by decide) _))
  · exact hcolumn

theorem GroupEntry.mild_expression {g : GroupEntry} (h : Text.trim g.function = "") :
    Mild 0 (g.expression d) := by
  rw [expression, applyFunction_of_blank h]
  exact mild_column d g.table g.column

theorem OrderEntry.mild_expression {o : OrderEntry} (h : Text.trim o.function = "") :
    Mild 0 (o.expression d) := by
  have hcolumn := mild_column d o.table o.column
  rw [expression, applyFunction_of_blank h]
  split
  · exact hcolumn.append (f := 0) (mild_plain (by decide)) (.inr (by decide))
  · exact hcolumn.append (f := 0) (mild_plain (by decide)) (.inr (by decide))

/-- An operator of a join may be written in any case, and be left out. -/
theorem JoinPair.mild_operator {p : JoinPair} (h : operatorText p.operator ∈ filterOperators) :
    Mild 0 (if Text.trim p.operator = "" then "=" else Text.trim p.operator) := by
  split
  · exact mild_plain (by decide)
  · have hupper : (Text.upper (Text.trim p.operator)) ∈ "" :: filterOperators := by
      rw [operatorText, keyword] at h
      split at h
      · next hempty => simp [hempty]
      · exact List.mem_cons_of_mem _ h
    -- the operators are upper-case words and signs, none of them a keyword of the check
    have hall : ∀ s ∈ "" :: filterOperators,
        (Unquoted s.toList ∧ ';' ∉ s.toList ∧ '(' ∉ s.toList ∧ ')' ∉ s.toList) ∧
          ∀ w ∈ (splitBy (fun c => !isWordChar c) s.toList).map String.ofList,
            dangerousKeywords.contains w = false := by decide
    obtain ⟨hplain, hwords⟩ := hall _ hupper
    exact mild_of_upper (toList_upper _).symm hplain hwords

theorem JoinPair.mild_comparison (j : JoinEntry) {p : JoinPair} (h : p.IsSimple) :
    Mild 0 (p.comparison d j) := by
  have hblank : Mild 0 " " := mild_plain (by decide)
  have hleft := mild_column d j.table p.column
  have hright := mild_column d j.joinedTable p.joinedColumn
  have hoperator := mild_operator h.operator
  rw [comparison, h.opening, h.closing, String.empty_append, String.append_empty,
    applyFunction_of_blank h.function, applyFunction_of_blank h.joinedFunction]
  have hfront := (hleft.append hblank (.inr (by decide))).append hoperator
    (.inl (endsApart_append_of_ne (by decide) (by decide) _))
  exact (hfront.append hblank (.inr (by decide))).append hright
    (.inl (endsApart_append_of_ne (by decide) (by decide) _))

/-- A connector between blanks. -/
theorem mild_link {s : String} (h : connectorText s = "AND" ∨ connectorText s = "OR") :
    Mild 0 (" " ++ connectorText s ++ " ") ∧ StartsApart (" " ++ connectorText s ++ " ") ∧
      EndsApart (" " ++ connectorText s ++ " ") ∧ " " ++ connectorText s ++ " " ≠ "" := by
  rcases h with h | h
  · rw [h]
    exact ⟨mild_plain (by decide), by decide⟩
  · rw [h]
    exact ⟨mild_plain (by decide), by decide⟩

theorem JoinEntry.mild_onText {j : JoinEntry} (h : j.IsSimple) : Mild 0 (j.onText d) := by
  rw [onText, h.on]
  split
  · exact mild_plain (by decide)
  · unfold pairsText
    split
    · exact mild_plain (by decide)
    · next p r hpairs =>
      have hmem : ∀ q ∈ p :: r, q.IsSimple := fun q hq => h.pairs q (hpairs ▸ hq)
      have hfirst := JoinPair.mild_comparison d j (hmem p List.mem_cons_self)
      -- each connector is set between blanks, so no word grows across it
      have hlinked : ∀ s ∈ r.map fun q =>
          " " ++ connectorText q.connector ++ " " ++ q.comparison d j,
          Mild 0 s ∧ StartsApart s := by
        intro s hs
        obtain ⟨q, hq, rfl⟩ := List.mem_map.1 hs
        have hq := hmem q (List.mem_cons_of_mem p hq)
        obtain ⟨hlink, hstart, hend, hne⟩ := mild_link hq.connector
        exact ⟨hlink.append (JoinPair.mild_comparison d j hq) (.inl hend),
          startsApart_append_of_ne hstart hne _⟩
      obtain ⟨hrest, hstart⟩ := mild_join hlinked
      exact hfirst.append hrest (.inr hstart)

theorem JoinEntry.mild_render {j : JoinEntry} (h : j.IsSimple) : Mild 0 (j.render d) := by
  -- four kinds of joins, each of them a text without quotes
  have hkind : Mild 0 (j.kindText ++ " ") ∧ EndsApart (j.kindText ++ " ") := by
    have hall : ∀ kind ∈ ["JOIN", "INNER", "LEFT", "RIGHT"],
        (if "JOIN".toList.isSuffixOf kind.toList then kind else kind ++ " JOIN") ++ " " ∈
          ["JOIN ", "INNER JOIN ", "LEFT JOIN ", "RIGHT JOIN "] := by decide
    have hkinds : ∀ s ∈ ["JOIN ", "INNER JOIN ", "LEFT JOIN ", "RIGHT JOIN "],
        (Unquoted s.toList ∧ ';' ∉ s.toList ∧ Tame s.toList ∧ excess s.toList = 0) ∧
          EndsApart s := by decide
    obtain ⟨hplain, hend⟩ := hkinds _ (hall _ h.type)
    exact ⟨mild_plain hplain, hend⟩
  have hfront := hkind.1.append (mild_table d j.joinedSchema j.joinedTable) (.inl hkind.2)
  unfold render
  dsimp only
  split
  · rwa [String.append_empty]
  · have hon : Mild 0 (" ON " ++ j.onText d) :=
      (mild_onText d h).behind (mild_plain (by decide)) (by decide)
    exact hfront.append hon (.inr (startsApart_append_of_ne (by decide) (by decide) _))

end

/-! ### Fragments -/

namespace Fragment

/-- The text of the fragment is mild, wherever its numbers start. -/
def IsMild (d : Dialect) (e : Int) (f : Fragment) : Prop := ∀ n, Mild e (Part.render d n f.parts)

/-- The text of the fragment has a seam at its end. -/
def EndsApart (d : Dialect) (f : Fragment) : Prop := ∀ n, Raw.EndsApart (Part.render d n f.parts)

variable {d : Dialect} {e e' : Int} {f g : Fragment} {s : String}

theorem IsMild.putText (h : f.IsMild d e) (hs : Mild e' s)
    (hseam : f.EndsApart d ∨ StartsApart s) : (f.putText s).IsMild d (e + e') := by
  intro n
  rw [render_putText]
  exact (h n).append hs (hseam.imp_left fun hend => hend n)

theorem EndsApart.putText (h : f.EndsApart d) (hs : Raw.EndsApart s) :
    (f.putText s).EndsApart d := by
  intro n
  rw [render_putText]
  exact (h n).append hs

theorem endsApart_putText_of_ne (hs : Raw.EndsApart s) (hne : s ≠ "") (f : Fragment) :
    (f.putText s).EndsApart d := by
  intro n
  rw [render_putText]
  exact endsApart_append_of_ne hs hne _

theorem IsMild.putArg (h : f.IsMild d e) (hend : f.EndsApart d) (v : Cell) :
    (f.putArg v).IsMild d e := by
  intro n
  have hslot : ∀ k, (if v.isNull then "NULL" else d.placeholder k) =
      String.ofList (slotText d k v) := by
    intro k
    rw [slotText]
    split <;> simp
  have hmild := fun k => (h n).append (mild_slotText d k v) (.inl (hend n))
  rw [render_putArg, hslot]
  rw [Int.add_zero] at hmild
  exact hmild _

theorem IsMild.append (h : f.IsMild d e) (hg : g.IsMild d e') (hend : f.EndsApart d) :
    (f.append g).IsMild d (e + e') := by
  intro n
  rw [render_append]
  exact (h n).append (hg _) (.inl (hend n))

theorem IsMild.listed (h : f.IsMild d e) (hend : f.EndsApart d) (vs : List Cell) :
    (listed f vs).IsMild d e := by
  have hcomma : Mild 0 ", " := mild_plain (by decide)
  fun_induction MetaQuery.listed f vs with
  | case1 f => exact h
  | case2 f v => exact h.putArg hend v
  | case3 f v r _ ih =>
    have hnext := (h.putArg hend v).putText hcomma (.inr (by decide))
    rw [Int.add_zero] at hnext
    exact ih hnext (endsApart_putText_of_ne (by decide) (by decide) _)

theorem isMild_empty : empty.IsMild d 0 := by
  intro n
  exact show Mild 0 "" from mild_plain (by decide)

theorem endsApart_empty : empty.EndsApart d := by
  intro n
  exact show Raw.EndsApart "" by decide

theorem isMild_ofText (h : Mild e s) : (ofText s).IsMild d e := by
  intro n
  rw [render_ofText]
  exact h

end Fragment

/-! ### Chains -/

open Fragment

/-- A comparison by one of the operators of filters is mild, whatever it is compared with. -/
theorem isMild_comparison (d : Dialect) {left operator : String} (hleft : Mild 0 left)
    (h : operator ∈ filterOperators) (os : Operands) :
    (comparison left operator os).IsMild d 0 := by
  -- the accepted operators are a short closed list, so they are simply inspected
  have hoperators : ∀ o ∈ filterOperators,
      Unquoted o.toList ∧ ';' ∉ o.toList ∧ Tame o.toList ∧ excess o.toList = 0 := by decide
  have hblank : Mild 0 " " := mild_plain (by decide)
  have hfront : Mild 0 (left ++ " " ++ operator) :=
    (hleft.append hblank (.inr (by decide))).append (mild_plain (hoperators _ h))
      (.inl (endsApart_append_of_ne (by decide) (by decide) _))
  have hopen : (ofText (left ++ " " ++ operator ++ " ")).IsMild d 0 :=
    isMild_ofText (hfront.append hblank (.inr (by decide)))
  have hend : (ofText (left ++ " " ++ operator ++ " ")).EndsApart d := by
    intro n
    rw [render_ofText]
    exact endsApart_append_of_ne (by decide) (by decide) _
  fun_cases comparison left operator os with
  | case1 => exact isMild_ofText hfront
  | case2 negated =>
    cases negated with
    | true => exact isMild_ofText (mild_plain (by decide))
    | false => exact isMild_ofText (mild_plain (by decide))
  | case3 negated values hvalues =>
    -- the list opens one bracket and closes it behind its last value
    have hparen : Mild 1 " (" := mild_plain (by decide)
    have hclose : Mild (-1) ")" := mild_plain (by decide)
    have hlist : (ofText (left ++ " " ++ operator ++ " (")).IsMild d 1 :=
      isMild_ofText (hfront.append hparen (.inr (by decide)))
    have hlistend : (ofText (left ++ " " ++ operator ++ " (")).EndsApart d := by
      intro n
      rw [render_ofText]
      exact endsApart_append_of_ne (by decide) (by decide) _
    exact (hlist.listed hlistend values).putText hclose (.inr (by decide))
  | case4 lower upper =>
    have hand : Mild 0 " AND " := mild_plain (by decide)
    have hlower := (hopen.putArg hend lower).putText hand (.inr (by decide))
    exact hlower.putArg (endsApart_putText_of_ne (by decide) (by decide) _) upper
  | case5 value => exact hopen.putArg hend value

namespace Model

variable {m : Model} (params : Params)

/-- A predicate leaves open what its brackets do. -/
theorem isMild_putPredicate {e : Int} {f : Fragment} (hf : f.IsMild m.dialect e)
    (hend : f.EndsApart m.dialect) {w : Condition} (h : w.IsSimple) :
    (m.putPredicate params f w).IsMild m.dialect
      (e + excess (w.opening.toList ++ w.closing.toList)) := by
  have hpredicate : (m.predicate params w).IsMild m.dialect 0 := by
    rw [predicate, applyFunction_of_blank h.function]
    exact isMild_comparison m.dialect (mild_column _ _ _) h.operator _
  have hopening := hf.putText h.opening.mild (.inl hend)
  have hinside := hopening.append hpredicate (hend.putText h.opening.endsApart)
  have hwhole := hinside.putText h.closing.mild (.inr h.closing.startsApart)
  rw [putPredicate, excess_append]
  rwa [Int.add_zero, Int.add_assoc] at hwhole

/-- The parentheses of a chain are those of its brackets. -/
theorem isMild_chain {ws : List Condition} (h : ∀ w ∈ ws, w.IsSimple) :
    (m.chain params ws).IsMild m.dialect (excess (brackets ws)) := by
  -- the surplus of brackets so far is the invariant; it need not be zero inside the chain
  have hfold : ∀ (vs : List Condition) {e : Int} {f : Fragment}, f.IsMild m.dialect e →
      (∀ v ∈ vs, v.IsSimple) → (vs.foldl (fun f v => m.putPredicate params
        (f.putText (" " ++ connectorText v.connector ++ " ")) v) f).IsMild m.dialect
          (e + excess (brackets vs)) := by
    intro vs
    induction vs with
    | nil =>
      intro e f hf _
      have hnone : excess (brackets []) = 0 := rfl
      rwa [hnone, Int.add_zero]
    | cons v vs ih =>
      intro e f hf hvs
      have hv := hvs v List.mem_cons_self
      obtain ⟨hlink, hstart, hend, hne⟩ := mild_link hv.linked
      have hnext := hf.putText hlink (.inr hstart)
      rw [Int.add_zero] at hnext
      have hput := isMild_putPredicate params hnext (endsApart_putText_of_ne hend hne f) hv
      have hfold := ih hput fun x hx => hvs x (List.mem_cons_of_mem v hx)
      rw [brackets, List.flatMap_cons, excess_append, ← Int.add_assoc]
      exact hfold
  cases ws with
  | nil => exact isMild_empty
  | cons w r =>
    have hfirst : (m.putPredicate params .empty w).IsMild m.dialect
        (0 + excess (w.opening.toList ++ w.closing.toList)) :=
      isMild_putPredicate params isMild_empty endsApart_empty (h w List.mem_cons_self)
    have hrest := hfold r hfirst fun x hx => h x (List.mem_cons_of_mem w hx)
    rw [brackets, List.flatMap_cons, excess_append]
    rwa [Int.zero_add] at hrest

end Model

/-! ### Filters -/

theorem brackets_cons (w : Condition) (ws : List Condition) :
    brackets (w :: ws) = w.opening.toList ++ w.closing.toList ++ brackets ws := List.flatMap_cons

theorem excess_brackets_closeLast (w : Condition) (ws : List Condition) :
    excess (brackets (closeLast (w :: ws))) = excess (brackets (w :: ws)) - 1 := by
  have hclose : excess [')'] = -1 := rfl
  induction ws generalizing w with
  | nil =>
    -- the bracket that closes the group goes behind the last condition
    have hlast : brackets (closeLast [w]) = w.opening.toList ++ (w.closing.toList ++ [')']) := by
      rw [closeLast, brackets_cons, String.toList_append]
      exact List.append_nil _
    have hone : brackets [w] = w.opening.toList ++ w.closing.toList := List.append_nil _
    rw [hlast, hone, excess_append, excess_append, excess_append, hclose]
    omega
  | cons v ws ih =>
    rw [closeLast, brackets_cons, brackets_cons w, excess_append, excess_append _ (brackets _), ih]
    · omega
    · exact List.cons_ne_nil v ws

theorem excess_brackets_groupChain (ws : List Condition) :
    excess (brackets (groupChain ws)) = excess (brackets ws) := by
  fun_cases groupChain ws with
  | case2 => rfl
  | case1 w v r =>
    have hopen : excess ['('] = 1 := rfl
    have hfirst : ("(" ++ w.opening).toList = ['('] ++ w.opening.toList := String.toList_append
    rw [brackets_cons, brackets_cons w, hfirst]
    simp only [excess_append, hopen, excess_brackets_closeLast]
    omega

theorem isSimple_groupChain {ws : List Condition} (h : ∀ w ∈ ws, w.IsSimple) :
    ∀ w ∈ groupChain ws, w.IsSimple := by
  have hopen : IsBrackets "(" := by decide
  have hclose : IsBrackets ")" := by decide
  -- the first condition gets the opening bracket, the last the closing one
  fun_cases groupChain ws with
  | case2 => exact h
  | case1 w v r =>
    intro u hu
    rcases List.mem_cons.1 hu with rfl | hu
    · have hw := h w List.mem_cons_self
      exact { hw with opening := hopen.append hw.opening }
    · obtain ⟨x, hx, rfl | rfl⟩ := mem_closeLast hu
      · exact h _ (List.mem_cons_of_mem w hx)
      · have hx := h x (List.mem_cons_of_mem w hx)
        exact { hx with closing := hx.closing.append hclose }

theorem Filter.isSimple_of_condition {f : Filter} {c : Condition} (h : f.condition = .ok c) :
    c.IsSimple ∧ c.IsBare := by
  have hmakes := Filter.makes_of_condition h
  obtain ⟨hopening, hclosing⟩ := hmakes.bare
  have hnone : IsBrackets "" := by decide
  have hoperator := operatorText_of_mem hmakes.known
  refine ⟨⟨(Filter.condition_ok h).2.1, ?_, ?_, ?_, ?_⟩, hmakes.bare⟩
  · rwa [hopening]
  · rw [hmakes.function]
    rfl
  · rw [hmakes.operator, hoperator.1]
    exact hmakes.known
  · rwa [hclosing]

/-- Filters leave a chain simple, since they bring no brackets but the pair around it. -/
theorem SimpleChain.withFilters {chain added : List Condition} (h : SimpleChain chain)
    (hadded : ∀ c ∈ added, c.IsSimple ∧ c.IsBare) : SimpleChain (withFilters chain added) := by
  unfold MetaQuery.withFilters
  split
  · exact h
  · constructor
    · intro w hw
      rcases List.mem_append.1 hw with hw | hw
      · exact isSimple_groupChain h.conditions w hw
      · exact (hadded w hw).1
    -- filters bring no brackets of their own
    · have hnone : MetaQuery.brackets added = [] := by
        rw [MetaQuery.brackets, List.flatMap_eq_nil_iff]
        intro w hw
        rw [(hadded w hw).2.1, (hadded w hw).2.2]
        rfl
      rw [MetaQuery.brackets, List.flatMap_append, ← MetaQuery.brackets, ← MetaQuery.brackets,
        hnone, List.append_nil, excess_brackets_groupChain, h.brackets]

theorem Model.IsSimple.restrict {m m' : Model} (hm : m.IsSimple) {r : ListRequest}
    (h : r.restrict m = .ok m') : m'.IsSimple := by
  obtain ⟨added, hadded, rfl⟩ := ListRequest.restrict_ok h
  have hconditions : SimpleChain (MetaQuery.withFilters m.conditions added) := by
    apply hm.conditions.withFilters
    intro c hc
    obtain ⟨f, -, hf⟩ := (mem_of_mapM_ok hadded).2 c hc
    exact Filter.isSimple_of_condition hf
  exact { hm with conditions := hconditions }

/-! ### Queries -/

theorem startsApart_of_standsApart {s : String} (h : StandsApart s.toList) : StartsApart s := by
  rw [startsApart_iff]
  rcases h with h | ⟨r, h⟩
  · exact .inl h
  · exact .inr ⟨' ', r, h, by decide⟩

namespace Select

theorem mild_windowText (w : Option Window) : Mild 0 (windowText w) := by
  have hoffset : Mild 0 " OFFSET " := mild_plain (by decide)
  have hpage : ∀ n : Nat, Mild 0 (" LIMIT " ++ Decimal.intText n) := fun n =>
    (mild_intText n).behind (mild_plain (by decide)) (by decide)
  fun_cases windowText w with
  | case1 => exact mild_plain (by decide)
  | case2 w hw => exact hpage _
  | case3 w hw =>
    have hfront := (hpage w.limit.toNat).append hoffset (.inr (by decide))
    exact hfront.append (mild_intText _) (.inl (endsApart_append_of_ne (by decide) (by decide) _))

theorem mild_listClause {word : String} (hword : Mild 0 word) (hend : EndsApart word)
    {items : List String} (h : ∀ s ∈ items, Mild 0 s) : Mild 0 (listClause word items) := by
  unfold listClause
  split
  · exact mild_plain (by decide)
  · exact (mild_joinWith h).behind hword hend

variable {q : Select}

theorem mild_headText (hcolumns : ∀ s ∈ q.columns, Mild 0 s) (hsource : q.source.IsMild q.dialect 0)
    (hjoins : ∀ s ∈ q.joins, Mild 0 s) : Mild 0 q.headText := by
  have hprojection : Mild 0 q.projection := by
    unfold projection
    split
    · exact mild_plain (by decide)
    · exact mild_joinWith hcolumns
  -- every join starts with a blank
  have hjoined : ∀ s ∈ q.joins.map (" " ++ ·), Mild 0 s ∧ StartsApart s := by
    intro s hs
    obtain ⟨t, ht, rfl⟩ := List.mem_map.1 hs
    exact ⟨(hjoins t ht).behind (mild_plain (by decide)) (by decide),
      startsApart_append_of_ne (by decide) (by decide) t⟩
  obtain ⟨hjoin, hstart⟩ := mild_join hjoined
  have hselect : Mild 0 ("SELECT " ++ q.projection) :=
    hprojection.behind (mild_plain (by decide)) (by decide)
  have htables := (hsource 0).append hjoin (.inr hstart)
  have hword : Mild 0 " FROM " := mild_plain (by decide)
  have hfrom := htables.behind hword (by decide)
  rw [headText, headParts, Part.render, Part.render, Part.render_append, Part.render, Part.render,
    String.append_empty]
  exact hselect.append hfrom (.inr (startsApart_append_of_ne (by decide) (by decide) _))

theorem mild_restText (hgroups : ∀ s ∈ q.groups, Mild 0 s) (hhaving : q.having.IsMild q.dialect 0) :
    Mild 0 q.restText := by
  have hgroup : Mild 0 (listClause " GROUP BY " q.groups) :=
    mild_listClause (mild_plain (by decide)) (by decide) hgroups
  rw [restText, restParts, Part.render]
  unfold havingParts
  split
  · rw [Part.render, String.append_empty]
    exact hgroup
  · have hhaving : Mild 0 (" HAVING " ++ Part.render q.dialect
        (Part.numbered (q.headParts ++ q.whereParts)).length q.having.parts) :=
      (hhaving _).behind (mild_plain (by decide)) (by decide)
    exact hgroup.append hhaving (.inr (startsApart_append_of_ne (by decide) (by decide) _))

end Select

namespace Model

variable {m : Model} {params : Params} {q : Select}

theorem mild_target {source : String} (h : m.target = .ok source) : Mild 0 source := by
  obtain ⟨t, -, rfl⟩ := exists_table_of_target h
  exact mild_table m.dialect t.schema t.name

/-- The query of a simple model is mild, clause by clause. -/
theorem mild_statement (hm : m.IsSimple) (h : m.compile params = .ok q) :
    Mild 0 q.statement.text := by
  obtain ⟨source, window, htarget, -, rfl⟩ := eq_of_compile_entries hm.tables h
  -- a simple chain closes all it opens
  have hchain : ∀ {ws}, SimpleChain ws → (m.chain params ws).IsMild m.dialect 0 := by
    intro ws hws
    have hmild := isMild_chain (m := m) params hws.conditions
    rwa [hws.brackets] at hmild
  have hitems : ∀ {α : Type} {items : List α} {g : α → String}, (∀ x ∈ items, Mild 0 (g x)) →
      ∀ s ∈ items.map g, Mild 0 s := by
    intro α items g hg s hs
    obtain ⟨x, hx, rfl⟩ := List.mem_map.1 hs
    exact hg x hx
  rw [Select.text_statement rfl]
  refine Mild.append (e := 0) (f := 0) (Mild.append (e := 0) (f := 0) (Mild.append (e := 0) (f := 0)
    ?head ?filter (.inr ?filterStart)) ?rest (.inr ?restStart)) ?tail (.inr ?tailStart)
  case head =>
    exact Select.mild_headText (hitems fun f hf => FieldEntry.mild_projection _ (hm.fields f hf))
      (isMild_ofText (mild_target htarget))
      (hitems fun j hj => JoinEntry.mild_render _ (hm.joins j (mem_of_mem_orderedJoins hj)))
  case filter =>
    split
    · exact mild_plain (by decide)
    · exact (hchain hm.conditions _).behind (mild_plain (by decide)) (by decide)
  case filterStart =>
    split
    · decide
    · exact startsApart_append_of_ne (by decide) (by decide) _
  case rest =>
    exact Select.mild_restText
      (hitems fun g hg => GroupEntry.mild_expression _ (hm.groups g hg)) (hchain hm.havings)
  case restStart =>
    exact startsApart_of_standsApart (Select.standsApart_render_restParts _ _)
  case tail =>
    have horders := hitems fun o ho => OrderEntry.mild_expression m.dialect (hm.orders o ho)
    exact Mild.append (f := 0) (Select.mild_listClause (mild_plain (by decide)) (by decide) horders)
      (Select.mild_windowText window)
      (.inr (startsApart_of_standsApart (Select.detached_windowText window).apart))
  case tailStart =>
    apply startsApart_of_standsApart
    rw [Select.tail, String.toList_append]
    exact (Select.standsApart_listClause rfl _).append (Select.detached_windowText window).apart

/-- What is left to fail is a missing table, and the page. -/
theorem compile_ne_hazard (hraw : m.isRaw = false) (params : Params) (hazard : Hazard) :
    m.compile params ≠ .error (.hazard hazard) := by
  intro h
  rw [compile, hraw, if_neg (by decide), compileEntries_eq] at h
  cases htarget : m.target with
  | error fault =>
    rw [htarget] at h
    cases h
  | ok source =>
    cases hwindow : m.window params with
    | error fault =>
      rw [htarget, hwindow] at h
      obtain rfl := Except.error.inj h
      exact window_ne_hazard params hazard hwindow
    | ok window =>
      rw [htarget, hwindow] at h
      cases h

/-- **The check never refuses a simple model.**  Whatever its tables, columns and values are called,
    and whatever filters of a request are put behind its chain, its query is compiled as if there
    were no check: it is not refused for a hazard, with any parameters. -/
theorem simple_unrefused {m' : Model} (hm : m.IsSimple) {r : ListRequest}
    (h : r.restrict m = .ok m') (params : Params) :
    m'.select params = m'.compile params ∧
      ∀ hazard, m'.select params ≠ .error (.hazard hazard) := by
  have hm' := hm.restrict h
  have hselect : m'.select params = m'.compile params := by
    cases hcompile : m'.compile params with
    | error fault => rw [select_eq, hcompile]; rfl
    | ok q => exact select_eq_ok_iff.2 ⟨hcompile, (mild_statement hm' hcompile).checkSafe⟩
  refine ⟨hselect, fun hazard => ?_⟩
  rw [hselect]
  exact compile_ne_hazard hm'.tables params hazard

end Model

/-- A model whose names are keywords, semicolons, parentheses and quotes. -/
def hostileModel : Model where
  entry := { id := "orders", code := "orders" }
  tables := [{ id := "t", model := "orders", schema := "a;b", name := "DROP" }]
  fields := [
    { id := "f", model := "orders", table := "(", column := "GRANT", shownAs := "x\"; EXEC '" },
    { id := "g", model := "orders", column := "n'" }]
  dialect := .postgres
  conditions := [
    { opening := "((", column := "DROP TABLE x", operator := "in", value := "a,b;c" },
    { connector := "or", column := ")", operator := "is null", closing := "))" }]
  joins := [
    { id := "j", model := "orders", type := "left", table := "DROP", joinedTable := "ALTER; --"
      pairs := [{ column := "\"", operator := "like", joinedColumn := "\x60" }] }]
  groups := [{ model := "orders", column := "--" }]
  orders := [{ model := "orders", column := "/*", direction := "desc" }]

/-- A filter whose column and value would end the statement. -/
def hostileRequest : ListRequest where
  filters := [{ column := "a;b", operator := "like", value := .str "'); DROP TABLE x; --" }]

/-- The hostile model with the condition of the filter. -/
def hostileRestricted : Model :=
  { hostileModel with
    conditions := withFilters hostileModel.conditions
      [{ connector := "AND", column := "a;b", operator := "LIKE",
         value := "'); DROP TABLE x; --" }] }

theorem isSimple_hostileModel : hostileModel.IsSimple where
  tables := rfl
  fields := List.forall_mem_cons.2
    ⟨⟨by decide, by decide⟩, List.forall_mem_singleton.2 ⟨by decide, by decide⟩⟩
  joins := List.forall_mem_singleton.2 ⟨by decide, by decide,
    List.forall_mem_singleton.2 ⟨by decide, rfl, by decide, by decide, by decide, rfl⟩⟩
  conditions := ⟨List.forall_mem_cons.2 ⟨⟨by decide, by decide, by decide, by decide, by decide⟩,
    List.forall_mem_singleton.2 ⟨by decide, by decide, by decide, by decide, by decide⟩⟩, by decide⟩
  groups := List.forall_mem_singleton.2 (by decide)
  havings := ⟨nofun, by decide⟩
  orders := List.forall_mem_singleton.2 (by decide)

/-- The names of a hostile model and of a filter are all enclosed. -/
theorem hostile_model_unrefused :
    (hostileModel.IsSimple ∧ hostileRequest.restrict hostileModel = .ok hostileRestricted) ∧
      hostileRestricted.select [] = hostileRestricted.compile [] ∧
        ∀ hazard, hostileRestricted.select [] ≠ .error (.hazard hazard) := by
  have hrestrict : hostileRequest.restrict hostileModel = .ok hostileRestricted :=
    ListRequest.restrict_of_mapM rfl hostileModel
  exact ⟨⟨isSimple_hostileModel, hrestrict⟩,
    Model.simple_unrefused isSimple_hostileModel hrestrict []⟩

end MetaQuery
