/-
  MetaQuery/Proofs/Chain/Wording.lean
  ===================================
  The words of a chain of conditions.

  A chain is compiled condition by condition into one fragment, in which brackets, connectives and
  predicates are only text.  Where the brackets of the conditions hold nothing but parentheses and
  their connectors are AND or OR, this text is that of the chain's words (`write_chain`), and where
  the parentheses are nested well, the words make a formula (`read_chainWords`).

  In brackets, a chain is one factor with the same meaning (`exists_factor`).  Predicates put
  behind a factor go on with its term until the first OR, and start terms of their own from there
  on (`truth?_factor_append`).
-/
import MetaQuery.Proofs.Chain.Formula
import MetaQuery.Proofs.Query.Numbering
import MetaQuery.Request.Listing

namespace MetaQuery

/-! ### Conditions as words -/

namespace Condition

/-- What joins the predicate to the one before it; what is no OR is an AND. -/
def connective (w : Condition) : Connective :=
  if connectorText w.connector = "OR" then .or else .and

/-- The predicate of a condition at a position, with its brackets. -/
def words (i : Nat) (w : Condition) : List Word :=
  List.replicate w.opening.toList.length .opening ++
    .fact i :: List.replicate w.closing.toList.length .closing

/-- The brackets of the condition are parentheses. -/
def IsPlain (w : Condition) : Prop :=
  (∀ c ∈ w.opening.toList, c = '(') ∧ ∀ c ∈ w.closing.toList, c = ')'

instance (w : Condition) : Decidable w.IsPlain :=
  @instDecidableAnd _ _ (List.decidableBAll (· = '(') w.opening.toList)
    (List.decidableBAll (· = ')') w.closing.toList)

/-- The connector of the condition is AND or OR; where it is left out, it is AND. -/
def IsLinked (w : Condition) : Prop :=
  connectorText w.connector = "AND" ∨ connectorText w.connector = "OR"

instance (w : Condition) : Decidable w.IsLinked := inferInstanceAs (Decidable (_ ∨ _))

end Condition

/-- Predicates from a position on, each joined to the one before it. -/
def linkedWords : Nat → List Condition → List Word
  | _, [] => []
  | i, w :: r => .link w.connective :: (w.words i ++ linkedWords (i + 1) r)

/-- The words of a chain; the connector of the first condition is not used. -/
def chainWords : List Condition → List Word
  | [] => []
  | w :: r => w.words 0 ++ linkedWords 1 r

/-- The parentheses of some conditions are nested well, `d` of them being open in front. -/
def NestedFrom : Nat → List Condition → Prop
  | d, [] => d = 0
  | d, w :: r => w.closing.toList.length ≤ d + w.opening.toList.length ∧
    NestedFrom (d + w.opening.toList.length - w.closing.toList.length) r

instance decidableNestedFrom : (d : Nat) → (ws : List Condition) → Decidable (NestedFrom d ws)
  | d, [] => inferInstanceAs (Decidable (d = 0))
  | d, w :: r =>
    have := decidableNestedFrom (d + w.opening.toList.length - w.closing.toList.length) r
    inferInstanceAs (Decidable (_ ∧ _))

/-- The texts of a chain are parentheses, ANDs and ORs. -/
structure PlainChain (ws : List Condition) : Prop where
  plain : ∀ w ∈ ws, w.IsPlain
  linked : ∀ w ∈ ws.tail, w.IsLinked

/-- A chain whose parentheses are nested well. -/
structure NestedChain (ws : List Condition) : Prop extends PlainChain ws where
  nested : NestedFrom 0 ws

theorem linkedWords_append (i : Nat) (ws vs : List Condition) :
    linkedWords i (ws ++ vs) = linkedWords i ws ++ linkedWords (i + ws.length) vs := by
  induction ws generalizing i with
  | nil => rfl
  | cons w r ih => simp [linkedWords, ih, Nat.add_assoc, Nat.add_comm 1]

theorem chainWords_append {ws : List Condition} (h : ws ≠ []) (vs : List Condition) :
    chainWords (ws ++ vs) = chainWords ws ++ linkedWords ws.length vs := by
  cases ws with
  | nil => exact absurd rfl h
  | cons w r => simp [chainWords, linkedWords_append, Nat.add_comm 1]

/-! ### The text of a chain -/

/-- A word written where a statement ends; `ps` are the predicates. -/
def Word.write (ps : List Fragment) (st : Statement) : Word → Statement
  | .opening => st.put "("
  | .closing => st.put ")"
  | .link .and => st.put " AND "
  | .link .or => st.put " OR "
  | .fact i => (ps.getD i .empty).write st

/-- Words written where a statement ends. -/
def writeWords (ps : List Fragment) (ws : List Word) (st : Statement) : Statement :=
  ws.foldl (Word.write ps) st

/-- The WHERE clause of a query is written with some words; `ps` are its predicates. -/
def Select.WhereReads (q : Select) (ps : List Fragment) (ws : List Word) : Prop :=
  ∀ st, q.writeWhere st = writeWords ps ws (st.put " WHERE ")

theorem writeWords_cons (ps : List Fragment) (w : Word) (ws : List Word) (st : Statement) :
    writeWords ps (w :: ws) st = writeWords ps ws (Word.write ps st w) := rfl

theorem writeWords_append (ps : List Fragment) (ws vs : List Word) (st : Statement) :
    writeWords ps (ws ++ vs) st = writeWords ps vs (writeWords ps ws st) :=
  List.foldl_append

theorem writeWords_replicate (ps : List Fragment) (word : Word) {c : Char}
    (hword : ∀ st, word.write ps st = st.put (String.singleton c)) {s : String}
    (hs : ∀ x ∈ s.toList, x = c) (st : Statement) :
    writeWords ps (List.replicate s.toList.length word) st = st.put s := by
  -- on the characters: a text in which only `c` occurs is one word after another
  have hall : ∀ (cs : List Char), (∀ x ∈ cs, x = c) → ∀ st : Statement,
      writeWords ps (List.replicate cs.length word) st = st.put (String.ofList cs) := by
    intro cs
    induction cs with
    | nil =>
      intro _ st
      simp [writeWords, Statement.put]
    | cons x cs ih =>
      intro hcs st
      obtain rfl := hcs x List.mem_cons_self
      have hrest := ih (fun y hy => hcs y (List.mem_cons_of_mem x hy)) (st.put (String.singleton x))
      have htext : String.ofList (x :: cs) = String.singleton x ++ String.ofList cs := by
        rw [← String.toList_inj]
        simp
      rw [List.length_cons, List.replicate_succ, writeWords, List.foldl_cons, hword]
      refine hrest.trans ?_
      simp only [htext, Statement.put, String.append_assoc]
  simpa using hall s.toList hs st

theorem write_connective {w : Condition} (hw : w.IsLinked) (ps : List Fragment) (st : Statement) :
    Word.write ps st (.link w.connective) = st.put (" " ++ connectorText w.connector ++ " ") := by
  rcases hw with hand | hor
  · rw [Condition.connective, hand, if_neg (by decide)]
    rfl
  · rw [Condition.connective, hor, if_pos rfl]
    rfl

namespace Model

variable (m : Model) (params : Params)

theorem write_putPredicate {w : Condition} (hw : w.IsPlain) {i : Nat} {ps : List Fragment}
    (hi : ps.getD i .empty = m.predicate params w) (f : Fragment) (st : Statement) :
    (m.putPredicate params f w).write st = writeWords ps (w.words i) (f.write st) := by
  have hopening := writeWords_replicate ps .opening (fun _ => rfl) hw.1 (f.write st)
  have hfact : ∀ (vs : List Word) (t : Statement),
      writeWords ps (.fact i :: vs) t = writeWords ps vs ((m.predicate params w).write t) := by
    intro vs t
    rw [← hi]
    rfl
  rw [Condition.words, writeWords_append, hopening, hfact,
    writeWords_replicate ps .closing (fun _ => rfl) hw.2, putPredicate,
    Fragment.write_putText, Fragment.write_append, Fragment.write_putText]

/-- The predicates behind the first one are written as their words are. -/
theorem write_foldl_putPredicate (front ws : List Condition) (back : List Fragment)
    (hplain : ∀ w ∈ ws, w.IsPlain) (hlinked : ∀ w ∈ ws, w.IsLinked) (f : Fragment)
    (st : Statement) :
    (ws.foldl (fun f v =>
        m.putPredicate params (f.putText (" " ++ connectorText v.connector ++ " ")) v) f).write st =
      writeWords ((front ++ ws).map (m.predicate params) ++ back) (linkedWords front.length ws)
        (f.write st) := by
  -- Positions count from the start of the chain, so what has been written joins `front`.
  induction ws generalizing front f with
  | nil => rfl
  | cons w r ih =>
    have hrest := ih (front ++ [w]) (fun v hv => hplain v (List.mem_cons_of_mem w hv))
      (fun v hv => hlinked v (List.mem_cons_of_mem w hv))
      (m.putPredicate params (f.putText (" " ++ connectorText w.connector ++ " ")) w)
    have hi : ((front ++ w :: r).map (m.predicate params) ++ back).getD front.length .empty =
        m.predicate params w := by
      simp
    rw [List.append_assoc, List.singleton_append, List.length_append, List.length_singleton]
      at hrest
    rw [List.foldl_cons, hrest, m.write_putPredicate params (hplain w List.mem_cons_self) hi,
      Fragment.write_putText, ← write_connective (hlinked w List.mem_cons_self),
      ← writeWords_append, ← writeWords_cons, linkedWords]

/-- A chain is written as its words are; other predicates may follow its own. -/
theorem write_chain {ws : List Condition} (h : PlainChain ws) (back : List Fragment)
    (st : Statement) :
    (m.chain params ws).write st =
      writeWords (ws.map (m.predicate params) ++ back) (chainWords ws) st := by
  cases ws with
  | nil => rfl
  | cons w r =>
    have hplain : ∀ v ∈ r, v.IsPlain := fun v hv => h.plain v (List.mem_cons_of_mem w hv)
    have hi : ((w :: r).map (m.predicate params) ++ back).getD 0 .empty = m.predicate params w := by
      simp
    rw [chain, m.write_foldl_putPredicate params [w] r back hplain h.linked,
      List.singleton_append, m.write_putPredicate params (h.plain w List.mem_cons_self) hi,
      Fragment.write_empty, chainWords, writeWords_append, List.length_singleton]

end Model

/-! ### Reading a chain -/

open Formula

theorem read_openings (n : Nat) (here : Pending) (outer : List Pending) :
    ∃ here' outer', (List.replicate n Word.opening).foldlM step (.before here outer) =
      some (.before here' outer') ∧ outer'.length = outer.length + n := by
  induction n generalizing here outer with
  | zero => exact ⟨here, outer, rfl, rfl⟩
  | succ n ih =>
    obtain ⟨here', outer', hrun, hlength⟩ := ih {} (here :: outer)
    refine ⟨here', outer', ?_, ?_⟩
    · rw [List.replicate_succ, List.foldlM_cons]
      exact hrun
    · rw [hlength, List.length_cons]
      omega

theorem read_closings {n : Nat} {outer : List Pending} (h : n ≤ outer.length)
    (s : Option (Formula .sum)) (t : Formula .term) :
    ∃ s' t' outer', (List.replicate n Word.closing).foldlM step (.behind s t outer) =
      some (.behind s' t' outer') ∧ outer'.length = outer.length - n := by
  induction n generalizing s t outer with
  | zero => exact ⟨s, t, outer, rfl, rfl⟩
  | succ n ih =>
    -- each closing word ends the innermost pending group
    cases outer with
    | nil => simp at h
    | cons here outer =>
      rw [List.length_cons] at h
      obtain ⟨s', t', outer', hrun, hlength⟩ :=
        ih (Nat.le_of_succ_le_succ h) here.sum (extend here.term (group (close s t)))
      refine ⟨s', t', outer', ?_, ?_⟩
      · rw [List.replicate_succ, List.foldlM_cons]
        exact hrun
      · rw [hlength, List.length_cons]
        omega

/-- A condition is read where enough brackets are open for those that it closes. -/
theorem read_condition {w : Condition} (outer : List Pending)
    (h : w.closing.toList.length ≤ outer.length + w.opening.toList.length) (i : Nat)
    (here : Pending) :
    ∃ s t outer', (w.words i).foldlM step (.before here outer) = some (.behind s t outer') ∧
      outer'.length = outer.length + w.opening.toList.length - w.closing.toList.length := by
  obtain ⟨here₁, outer₁, hopen, hlength₁⟩ :=
    read_openings w.opening.toList.length here outer
  rw [← hlength₁] at h ⊢
  obtain ⟨s, t, outer₂, hclose, hlength₂⟩ :=
    read_closings h here₁.sum (extend here₁.term (fact i))
  refine ⟨s, t, outer₂, ?_, hlength₂⟩
  rw [Condition.words, List.foldlM_append, hopen]
  exact hclose

theorem step_link (s : Option (Formula .sum)) (t : Formula .term) (k : Connective)
    (outer : List Pending) :
    ∃ here, step (.behind s t outer) (.link k) = some (.before here outer) := by
  cases k with
  | and => exact ⟨_, rfl⟩
  | or => exact ⟨_, rfl⟩

theorem read_linkedWords {ws : List Condition} {outer : List Pending}
    (h : NestedFrom outer.length ws) (i : Nat) (s : Option (Formula .sum)) (t : Formula .term) :
    ∃ s' t', (linkedWords i ws).foldlM step (.behind s t outer) = some (.behind s' t' []) := by
  induction ws generalizing i s t outer with
  | nil =>
    obtain rfl : outer = [] := List.eq_nil_of_length_eq_zero h
    exact ⟨s, t, rfl⟩
  | cons w r ih =>
    obtain ⟨henough, hrest⟩ := h
    obtain ⟨here, hlink⟩ := step_link s t w.connective outer
    obtain ⟨s₁, t₁, outer₁, hcondition, hlength⟩ := read_condition outer henough i here
    -- the brackets still open are those that the rest has to close
    rw [← hlength] at hrest
    obtain ⟨s₂, t₂, hrun⟩ := ih hrest (i + 1) s₁ t₁
    refine ⟨s₂, t₂, ?_⟩
    rw [linkedWords, List.foldlM_cons, hlink]
    change (w.words i ++ _).foldlM step _ = _
    rw [List.foldlM_append, hcondition]
    exact hrun

/-- The words of a chain make a formula. -/
theorem read_chainWords {ws : List Condition} (h : NestedChain ws) (hne : ws ≠ []) :
    ∃ s, read? (chainWords ws) = some s := by
  cases ws with
  | nil => exact absurd rfl hne
  | cons w r =>
    obtain ⟨henough, hrest⟩ := h.nested
    obtain ⟨s₁, t₁, outer₁, hcondition, hlength⟩ :=
      read_condition [] henough 0 {}
    rw [List.length_nil] at hlength
    rw [← hlength] at hrest
    -- the conditions behind close exactly what the first one left open
    obtain ⟨s₂, t₂, hrun⟩ := read_linkedWords hrest 1 s₁ t₁
    refine ⟨close s₂ t₂, ?_⟩
    rw [read?, chainWords, List.foldlM_append, hcondition]
    change ((linkedWords 1 r).foldlM step (.behind s₁ t₁ outer₁)).bind result? = _
    rw [hrun]
    rfl

/-! ### A chain in brackets -/

theorem linkedWords_closeLast (i : Nat) (w : Condition) (r : List Condition) :
    linkedWords i (closeLast (w :: r)) = linkedWords i (w :: r) ++ [.closing] := by
  induction r generalizing i w with
  | nil =>
    simp [closeLast, linkedWords, Condition.words, Condition.connective, List.replicate_succ']
  | cons v r ih => simp [closeLast, linkedWords, ih]

theorem chainWords_groupChain (w v : Condition) (r : List Condition) :
    chainWords (groupChain (w :: v :: r)) =
      .opening :: (chainWords (w :: v :: r) ++ [.closing]) := by
  simp [groupChain, chainWords, linkedWords_closeLast, Condition.words, List.replicate_succ]

/-- A factor in some brackets. -/
def nest : Nat → Formula .factor → Formula .factor
  | 0, f => f
  | n + 1, f => group (.term (.factor (nest n f)))

theorem words_nest (n : Nat) (f : Formula .factor) :
    (nest n f).words =
      List.replicate n Word.opening ++ f.words ++ List.replicate n Word.closing := by
  induction n with
  | zero => simp [nest]
  | succ n ih =>
    rw [List.replicate_succ' (a := Word.closing)]
    simp [nest, words, ih, List.replicate_succ]

/-- In brackets, a chain is one factor that holds just when the chain does; a single predicate is
    one without them. -/
theorem exists_factor {ws : List Condition} (h : NestedChain ws) (hne : ws ≠ []) :
    ∃ f : Formula .factor, f.words = chainWords (groupChain ws) ∧
      ∀ v, truth? v (chainWords ws) = some (f.holds v) := by
  match ws, hne with
  | [w], _ =>
    -- no brackets are put around a single condition, which closes as many as it opens
    obtain ⟨henough, hclosed⟩ := h.nested
    have hcount : w.opening.toList.length = w.closing.toList.length := by
      have : 0 + w.opening.toList.length - w.closing.toList.length = 0 := hclosed
      omega
    have hwords : (nest w.opening.toList.length (fact 0)).words = chainWords [w] := by
      rw [words_nest, hcount]
      simp [chainWords, linkedWords, Condition.words, words, hcount]
    refine ⟨nest w.opening.toList.length (fact 0), hwords, fun v => ?_⟩
    rw [← hwords]
    exact truth?_words v (.term (.factor (nest w.opening.toList.length (fact 0))))
  | w :: v :: r, _ =>
    obtain ⟨s, hs⟩ := read_chainWords h (by simp)
    have hwords := words_of_read? hs
    refine ⟨group s, ?_, fun val => ?_⟩
    · rw [chainWords_groupChain, ← hwords]
      rfl
    · rw [← hwords]
      exact truth?_words val s

/-! ### Predicates behind a factor -/

/-- Predicates without brackets, each joined to what stands before it. -/
def linkWords (ks : List (Connective × Nat)) : List Word :=
  ks.flatMap fun k => [.link k.1, .fact k.2]

/-- Predicates joined by connectives, cut at the ORs: those in front of the first OR, and those
    from each OR up to the next one. -/
def runs : List (Connective × Nat) → List Nat × List (List Nat)
  | [] => ([], [])
  | (.and, i) :: r => (i :: (runs r).1, (runs r).2)
  | (.or, i) :: r => ([], (i :: (runs r).1) :: (runs r).2)

theorem holds_close (v : Nat → Bool) (s : Option (Formula .sum)) (t : Formula .term) :
    (close s t).holds v = (s.any (·.holds v) || t.holds v) := by
  cases s with
  | none => rfl
  | some s => rfl

/-- What predicates behind a term make of it. -/
theorem read_linkWords (v : Nat → Bool) (ks : List (Connective × Nat))
    (s : Option (Formula .sum)) (t : Formula .term) :
    ∃ s' t', (linkWords ks).foldlM step (.behind s t []) = some (.behind s' t' []) ∧
      (close s' t').holds v = (s.any (·.holds v) ||
        ((t.holds v && (runs ks).1.all v) || (runs ks).2.any (·.all v))) := by
  -- an AND goes on with the current run, an OR closes it and starts the next
  induction ks generalizing s t with
  | nil => exact ⟨s, t, rfl, by simp [holds_close, runs]⟩
  | cons k ks ih =>
    obtain ⟨k, i⟩ := k
    cases k with
    | and =>
      obtain ⟨s', t', hrun, hholds⟩ := ih s (.and t (fact i))
      refine ⟨s', t', hrun, ?_⟩
      rw [hholds]
      simp [runs, holds, Bool.and_assoc]
    | or =>
      obtain ⟨s', t', hrun, hholds⟩ := ih (some (close s t)) (.factor (fact i))
      refine ⟨s', t', hrun, ?_⟩
      rw [hholds]
      simp [runs, holds, holds_close, Bool.or_assoc]

/-- Predicates behind a factor restrict it up to the first OR; from there on they are
    alternatives. -/
theorem truth?_factor_append (v : Nat → Bool) (f : Formula .factor)
    (ks : List (Connective × Nat)) :
    truth? v (f.words ++ linkWords ks) =
      some ((f.holds v && (runs ks).1.all v) || (runs ks).2.any (·.all v)) := by
  have hfirst := foldlM_words_factor f {} []
  obtain ⟨s, t, hrun, hholds⟩ := read_linkWords v ks none (.factor f)
  have hread : read? (f.words ++ linkWords ks) = some (close s t) := by
    rw [read?, List.foldlM_append, hfirst]
    change ((linkWords ks).foldlM step (.behind none (.factor f) [])).bind result? = _
    rw [hrun]
    rfl
  rw [← words_of_read? hread, truth?_words, hholds]
  simp [holds]

end MetaQuery
