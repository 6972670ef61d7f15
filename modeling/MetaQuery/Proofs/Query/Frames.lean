/-
  MetaQuery/Proofs/Query/Frames.lean
  ==================================
  Statements around the clauses of a query that has passed the check.

  Only the query for rows is checked.  The query for their number puts its body into a derived
  table, and the query for one row puts the predicate of a key behind its filter.  In both, text
  that ended the checked statement has something behind it.  So a semicolon that was its end becomes
  one in the middle, and a span that only the end of the text closed is left open.  Where the
  clauses close their spans, this is all that can make a difference (`checkSafe_countStatement`,
  `checkSafe_keyed`).
-/
import MetaQuery.Proofs.Raw.Renumbering

namespace MetaQuery

open Text

namespace Raw

/-! ### Texts that stand apart -/

/-- The text is empty or starts with a blank, so it goes on with neither a span nor a word. -/
def StandsApart (r : List Char) : Prop := r = [] ∨ ∃ s, r = ' ' :: s

theorem standsApart_nil : StandsApart [] := .inl rfl

theorem standsApart_cons (s : List Char) : StandsApart (' ' :: s) := .inr ⟨s, rfl⟩

theorem StandsApart.append {a b : List Char} (ha : StandsApart a) (hb : StandsApart b) :
    StandsApart (a ++ b) := by
  rcases ha with rfl | ⟨s, rfl⟩
  · exact hb
  · exact standsApart_cons (s ++ b)

theorem StandsApart.startsPlain {r : List Char} (h : StandsApart r) : StartsPlain r := by
  rcases h with rfl | ⟨s, rfl⟩
  · intro c hc
    simp at hc
  · intro c hc
    obtain rfl : ' ' = c := by simpa using hc
    decide

theorem StandsApart.bare {r x : List Char} (h : StandsApart r) (hx : bare? r = some x) :
    StandsApart x := by
  rcases h with rfl | ⟨s, rfl⟩
  · obtain rfl := Option.some.inj hx
    exact standsApart_nil
  · rw [bare?, bareFrom_cons_of_not_quote (by decide)] at hx
    obtain ⟨y, -, rfl⟩ := Option.map_eq_some_iff.1 hx
    exact standsApart_cons y

theorem tame_append {r : List Char} (h : StandsApart r) (a : List Char) :
    Tame (a ++ r) ↔ Tame a ∧ Tame r := by
  rcases h with rfl | ⟨s, rfl⟩
  · simp [tame_nil]
  · rw [tame_append_cons (by decide), tame_cons (by decide)]

/-- Two texts, the second of which stands apart, are read one after the other. -/
theorem bare?_append_eq_some_iff {a x r z : List Char} (ha : bare? a = some x)
    (hr : StandsApart r) :
    bare? (a ++ r) = some z ↔ ∃ y, bare? r = some y ∧ z = x ++ y := by
  rw [bare?_append ha hr.startsPlain, Option.map_eq_some_iff]
  simp only [eq_comm]

/-! ### Frames of harmless texts -/

theorem SemicolonLast.of_append {a b : List Char} (h : SemicolonLast (a ++ b)) :
    SemicolonLast a := by
  induction a with
  | nil => trivial
  | cons c a ih =>
    rw [List.cons_append, SemicolonLast] at h
    rw [SemicolonLast]
    split
    · next hc =>
      rw [if_pos hc] at h
      exact fun x hx => h x (List.mem_append_left b hx)
    · next hc =>
      rw [if_neg hc] at h
      exact ih h

theorem ParenBalanced.append_iff {b : List Char} (hb : ParenBalanced b) (a : List Char) :
    ParenBalanced (a ++ b) ↔ ParenBalanced a := by
  unfold ParenBalanced at *
  rw [List.count_append, List.count_append]
  omega

/-- A harmless text that other text stands apart from, put into the derived table of a count. -/
theorem harmless_counted_iff {x y : List Char} (hy : StandsApart y) (h : Harmless (x ++ y)) :
    Harmless ("SELECT COUNT(*) FROM (".toList ++ x ++ ") AS total_rows".toList) ↔
      ';' ∉ x ∧ ParenBalanced x := by
  have hfront : ';' ∉ "SELECT COUNT(*) FROM (".toList := by decide
  have hback : ¬ AllBlank ") AS total_rows".toList := by decide
  have hsemicolon : SemicolonLast
      ("SELECT COUNT(*) FROM (".toList ++ x ++ ") AS total_rows".toList) ↔ ';' ∉ x := by
    rw [semicolonLast_append hback]
    simp only [List.mem_append, hfront, false_or, and_iff_left_iff_imp]
    exact fun _ => by decide
  have hwords : Tame ("SELECT COUNT(*) FROM (".toList ++ x ++ ") AS total_rows".toList) := by
    have hx := ((tame_append hy x).1 h.words).1
    have hsplit : "SELECT COUNT(*) FROM (".toList ++ x ++ ") AS total_rows".toList =
        "SELECT COUNT(*) FROM ".toList ++ '(' :: (x ++ ')' :: " AS total_rows".toList) := by
      simp
    rw [hsplit, tame_append_cons (by decide), tame_append_cons (by decide)]
    exact ⟨by decide, hx, by decide⟩
  have hparens : ParenBalanced ("SELECT COUNT(*) FROM (".toList ++ x ++ ") AS total_rows".toList) ↔
      ParenBalanced x := by
    unfold ParenBalanced
    -- the front leaves one parenthesis open, which the back closes
    have hfront : "SELECT COUNT(*) FROM (".toList.count '(' = 2 ∧
        "SELECT COUNT(*) FROM (".toList.count ')' = 1 := by decide
    have hback : ") AS total_rows".toList.count '(' = 0 ∧
        ") AS total_rows".toList.count ')' = 1 := by decide
    rw [List.count_append, List.count_append, List.count_append, List.count_append]
    omega
  constructor
  · exact fun hcounted => ⟨hsemicolon.1 hcounted.semicolon, hparens.1 hcounted.parentheses⟩
  · exact fun hx => ⟨hsemicolon.2 hx.1, hwords, hparens.2 hx.2⟩

theorem Harmless.of_append {x y : List Char} (hy : StandsApart y) (hbalanced : ParenBalanced y)
    (h : Harmless (x ++ y)) : Harmless x :=
  ⟨h.semicolon.of_append, ((tame_append hy x).1 h.words).1,
    (hbalanced.append_iff x).1 h.parentheses⟩

/-- What may be put anywhere into a text: it has no word, parenthesis or semicolon that could do
    harm, and is not blank. -/
structure Inert (p : List Char) : Prop where
  words : Tame p
  parentheses : ParenBalanced p
  semicolon : ';' ∉ p
  visible : ¬ AllBlank p

/-- The front of a harmless text replaced by another one with something inert behind it. -/
theorem harmless_replaced_iff {a b p t : List Char} (hp : Inert p) (ht : StandsApart t)
    (h : Harmless (a ++ t)) (hwords : Tame a → Tame (b ++ p))
    (hparens : ParenBalanced (a ++ t) → ParenBalanced (b ++ t)) (hsame : ';' ∈ a ↔ ';' ∈ b) :
    Harmless (b ++ p ++ t) ↔ ';' ∉ b := by
  -- the key predicate is not blank, so a semicolon in front of it is not the last character
  have hvisible : ¬ AllBlank (p ++ t) := fun hall =>
    hp.visible fun c hc => hall c (List.mem_append_left t hc)
  constructor
  · intro hkeyed
    have hsemicolon := hkeyed.semicolon
    rw [List.append_assoc, semicolonLast_append hvisible] at hsemicolon
    exact hsemicolon.1
  · intro hb
    have ha : ';' ∉ a := fun hmem => hb (hsame.1 hmem)
    have hbp : ';' ∉ b ++ p := fun hmem => (List.mem_append.1 hmem).elim hb hp.semicolon
    refine ⟨?_, ?_, ?_⟩
    · rw [semicolonLast_append_of_notMem hbp]
      exact (semicolonLast_append_of_notMem ha t).1 h.semicolon
    -- words are inspected piece by piece, since the rest stands apart from what is before it
    · rw [tame_append ht]
      have hat := (tame_append ht a).1 h.words
      exact ⟨hwords hat.1, hat.2⟩
    · have hbt := hparens h.parentheses
      have hcount := hp.parentheses
      unfold ParenBalanced at *
      simp only [List.count_append] at *
      omega

/-- Something inert required beside a filter, which is put into parentheses. -/
theorem harmless_keyed_iff {h f p t : List Char} (hp : Inert p) (ht : StandsApart t)
    (hok : Harmless (h ++ " WHERE ".toList ++ f ++ t)) :
    Harmless (h ++ " WHERE (".toList ++ f ++ ") AND ".toList ++ p ++ t) ↔ ';' ∉ h ∧ ';' ∉ f := by
  have hfront : ';' ∉ " WHERE ".toList ∧ ';' ∉ " WHERE (".toList ∧ ';' ∉ ") AND ".toList := by
    decide
  have hwords : Tame (h ++ " WHERE ".toList ++ f) →
      Tame (h ++ " WHERE (".toList ++ f ++ ") AND ".toList ++ p) := by
    -- blanks and brackets separate words, so the words are those of the pieces
    have hplain : h ++ " WHERE ".toList ++ f = h ++ ' ' :: ("WHERE".toList ++ ' ' :: f) := by simp
    have hkeyed : h ++ " WHERE (".toList ++ f ++ ") AND ".toList ++ p =
        h ++ ' ' :: ("WHERE ".toList ++ '(' :: (f ++ ')' :: (" AND".toList ++ ' ' :: p))) := by simp
    rw [hplain, hkeyed]
    simp only [tame_append_cons (by decide : IsSeparator ' '),
      tame_append_cons (by decide : IsSeparator '('),
      tame_append_cons (by decide : IsSeparator ')')]
    exact fun ⟨hh, _, hf⟩ => ⟨hh, by decide, hf, by decide, hp.words⟩
  have hparens : ParenBalanced (h ++ " WHERE ".toList ++ f ++ t) →
      ParenBalanced (h ++ " WHERE (".toList ++ f ++ ") AND ".toList ++ t) := by
    intro hbalanced
    simp [ParenBalanced] at hbalanced ⊢
    omega
  have hnone : ';' ∉ h ++ " WHERE (".toList ++ f ++ ") AND ".toList ↔ ';' ∉ h ∧ ';' ∉ f := by
    simp only [List.mem_append, hfront, or_false, not_or]
  rw [← hnone]
  refine harmless_replaced_iff hp ht hok hwords hparens ?_
  simp only [List.mem_append, hfront, or_false]

/-- Something inert required of rows that nothing else restricts. -/
theorem harmless_keyed_alone_iff {h p t : List Char} (hp : Inert p) (ht : StandsApart t)
    (hok : Harmless (h ++ t)) : Harmless (h ++ " WHERE ".toList ++ p ++ t) ↔ ';' ∉ h := by
  have hfront : ';' ∉ " WHERE ".toList := by decide
  -- blanks part the keyword and the key fact from the words before them
  have hwords : Tame h → Tame (h ++ " WHERE ".toList ++ p) := by
    have hkeyed : h ++ " WHERE ".toList ++ p = h ++ ' ' :: ("WHERE".toList ++ ' ' :: p) := by simp
    rw [hkeyed]
    simp only [tame_append_cons (by decide : IsSeparator ' ')]
    exact fun hh => ⟨hh, by decide, hp.words⟩
  have hparens : ParenBalanced (h ++ t) → ParenBalanced (h ++ " WHERE ".toList ++ t) := by
    intro hbalanced
    simp [ParenBalanced] at hbalanced ⊢
    omega
  have hnone : ';' ∉ h ++ " WHERE ".toList ↔ ';' ∉ h := by
    simp only [List.mem_append, hfront, or_false]
  rw [← hnone]
  refine harmless_replaced_iff hp ht hok hwords hparens ?_
  simp only [List.mem_append, hfront, or_false]

/-! ### Pieces of statements -/

/-- All quoted spans of the text are closed. -/
def Closed (sql : String) : Prop := ∃ x, bare? sql.toList = some x

/-- A piece of a statement: its spans are closed, and no semicolon stands outside of them. -/
def IsPiece (sql : String) : Prop := ∃ x, bare? sql.toList = some x ∧ ';' ∉ x

theorem IsPiece.closed {sql : String} (h : IsPiece sql) : Closed sql := by
  obtain ⟨x, hx, -⟩ := h
  exact ⟨x, hx⟩

theorem isPiece_iff {sql : String} {x : List Char} (h : bare? sql.toList = some x) :
    IsPiece sql ↔ ';' ∉ x := by
  simp [IsPiece, h]

/-- Plain text that stands apart from what is in front of it, such as a page. -/
structure Detached (w : List Char) : Prop where
  apart : StandsApart w
  unquoted : Unquoted w
  balanced : ParenBalanced w

/-- Where the front of a checked text closes its spans, the rest does so too, up to plain text at
    the end. -/
theorem exists_rest {a x t w : List Char} (ha : bare? a = some x) (ht : StandsApart t)
    (hw : Detached w) (h : hazard? (a ++ (t ++ w)) = none) :
    ∃ y, bare? t = some y ∧ Harmless (x ++ y) := by
  obtain ⟨z, hz, hharmless⟩ := (hazard?_eq_none_iff _).1 h
  obtain ⟨y, hy, rfl⟩ := (bare?_append_eq_some_iff ha (ht.append hw.apart)).1 hz
  cases hread : bare? t with
  | none =>
    rw [bare?, bareFrom_append_of_none (by simp) hread hw.unquoted] at hy
    cases hy
  | some y' =>
    obtain ⟨w', hw', rfl⟩ := (bare?_append_eq_some_iff hread hw.apart).1 hy
    obtain rfl := Option.some.inj (hw'.symm.trans (bare?_unquoted hw.unquoted))
    rw [← List.append_assoc] at hharmless
    exact ⟨y', rfl, hharmless.of_append hw.apart hw.balanced⟩

section Keyed

variable {h p t w a x : List Char}

/-- A key required of checked rows that nothing else restricts. -/
theorem hazard?_keyed_alone_iff (hhead : bare? h = some a) (hread : bare? p = some x)
    (hinert : Inert x) (ht : StandsApart t) (hw : Detached w)
    (hchecked : hazard? (h ++ (t ++ w)) = none) :
    hazard? (h ++ (" WHERE ".toList ++ (p ++ t))) = none ↔ ';' ∉ a := by
  have hwhere : ∀ r, StandsApart (" WHERE ".toList ++ r) := fun r => standsApart_cons _
  obtain ⟨y, hy, hok⟩ := exists_rest hhead ht hw hchecked
  have hbehind := bare?_unquoted_append (u := " WHERE ".toList) (by decide)
    (bare?_append_eq_some hread ht.startsPlain hy)
  have hkeyed := bare?_append_eq_some hhead (hwhere _).startsPlain hbehind
  have halone := harmless_keyed_alone_iff hinert (ht.bare hy) hok
  rw [hazard?_eq_none_iff, hkeyed, ← halone]
  simp only [Option.some.injEq, exists_eq_left', List.append_assoc]

/-- A key required beside the filter of checked rows. -/
theorem hazard?_keyed_iff {f b : List Char} (hhead : bare? h = some a) (hfilter : bare? f = some b)
    (hread : bare? p = some x) (hinert : Inert x) (ht : StandsApart t) (hw : Detached w)
    (hchecked : hazard? (h ++ (" WHERE ".toList ++ f) ++ (t ++ w)) = none) :
    hazard? (h ++ (" WHERE (".toList ++ (f ++ (") AND ".toList ++ (p ++ t))))) = none ↔
      ';' ∉ a ∧ ';' ∉ b := by
  have hwhere : ∀ r, StandsApart (" WHERE ".toList ++ r) := fun r => standsApart_cons _
  have hopen : ∀ r, StandsApart (" WHERE (".toList ++ r) := fun r => standsApart_cons _
  have hfront : bare? (h ++ (" WHERE ".toList ++ f)) = some (a ++ (" WHERE ".toList ++ b)) :=
    bare?_append_eq_some hhead (hwhere f).startsPlain (bare?_unquoted_append (by decide) hfilter)
  obtain ⟨y, hy, hok⟩ := exists_rest hfront ht hw hchecked
  -- no piece starts with a quote, so no span reaches over a seam
  have hclose : StartsPlain (") AND ".toList ++ (p ++ t)) := by
    intro c hc
    obtain rfl : ')' = c := Option.some.inj hc
    decide
  have hbehind := bare?_unquoted_append (u := ") AND ".toList) (by decide)
    (bare?_append_eq_some hread ht.startsPlain hy)
  have hgroup := bare?_unquoted_append (u := " WHERE (".toList) (by decide)
    (bare?_append_eq_some hfilter hclose hbehind)
  have hkeyed := bare?_append_eq_some hhead (hopen _).startsPlain hgroup
  rw [← List.append_assoc] at hok
  have hboth := harmless_keyed_iff hinert (ht.bare hy) hok
  rw [hazard?_eq_none_iff, hkeyed, ← hboth]
  simp only [Option.some.injEq, exists_eq_left', List.append_assoc]

end Keyed

/-- What can stand in parentheses: a piece that has its own parentheses in pairs. -/
def IsEnclosable (sql : String) : Prop :=
  ∃ x, bare? sql.toList = some x ∧ ';' ∉ x ∧ ParenBalanced x

end Raw

namespace Part

theorem render_append (d : Dialect) (n : Nat) (ps rs : List Part) :
    render d n (ps ++ rs) = render d n ps ++ render d (n + (numbered ps).length) rs := by
  induction ps generalizing n with
  | nil => simp [render, numbered]
  | cons p ps ih =>
    cases p with
    | text s =>
      rw [List.cons_append, render, render, ih, String.append_assoc]
      rfl
    | arg v =>
      rw [List.cons_append, render, render]
      cases hv : v.isNull with
      | true => simp [ih, numbered, hv, String.append_assoc]
      | false => simp [ih, numbered, hv, String.append_assoc, Nat.add_assoc, Nat.add_comm 1]

end Part

namespace Select

open Raw

/-! ### The clauses of a query -/

/-- What stands in front of WHERE. -/
def headParts (q : Select) : List Part :=
  .text ("SELECT " ++ q.projection) :: .text " FROM " ::
    (q.source.parts ++ [.text (String.join (q.joins.map (" " ++ ·)))])

/-- What stands behind WHERE, up to the order. -/
def restParts (q : Select) : List Part :=
  .text (listClause " GROUP BY " q.groups) :: q.havingParts

theorem bodyParts_eq (q : Select) :
    q.bodyParts = q.headParts ++ (q.whereParts ++ q.restParts) := by
  simp [bodyParts, headParts, restParts]

/-- The text in front of WHERE. -/
def headText (q : Select) : String := Part.render q.dialect 0 q.headParts

/-- The text of the predicates behind WHERE. -/
def filterText (q : Select) : String :=
  Part.render q.dialect (Part.numbered q.headParts).length q.filter.parts

/-- The text in front of the order and the page. -/
def bodyText (q : Select) : String := Part.render q.dialect 0 q.bodyParts

theorem standsApart_listClause {word : String} {w : List Char} (h : word.toList = ' ' :: w)
    (items : List String) : StandsApart (listClause word items).toList := by
  unfold listClause
  split
  · exact standsApart_nil
  · rw [String.toList_append, h]
    exact standsApart_cons _

theorem standsApart_render_restParts (q : Select) (n : Nat) :
    StandsApart (Part.render q.dialect n q.restParts).toList := by
  rw [restParts, Part.render, String.toList_append]
  refine (standsApart_listClause rfl q.groups).append ?_
  unfold havingParts
  split
  · exact standsApart_nil
  · rw [Part.render, String.toList_append]
    exact standsApart_cons _

/-- The text of a page consists of words and numbers. -/
theorem windowText_chars (w : Option Window) :
    ∀ c ∈ (windowText w).toList, c = ' ' ∨ isWordChar c = true := by
  -- a number is written in digits, and the sign of a natural is never written
  have hnumber : ∀ n : Nat, ∀ c ∈ (Decimal.intText n).toList, c = ' ' ∨ isWordChar c = true := by
    intro n c hc
    have hdigit : c.isDigit = true := by
      rw [Decimal.intText, if_neg (by omega), Int.natAbs_natCast, String.toList_ofList] at hc
      exact Nat.isDigit_of_mem_toDigits (by decide) (by decide) hc
    exact .inr (by simp [isWordChar, Char.isAlphanum, hdigit])
  have hlimit : " LIMIT ".toList.all (fun c => c == ' ' || isWordChar c) = true := by decide
  have hoffset : " OFFSET ".toList.all (fun c => c == ' ' || isWordChar c) = true := by decide
  simp only [List.all_eq_true, Bool.or_eq_true, beq_iff_eq] at hlimit hoffset
  cases w with
  | none => simp [windowText]
  | some w =>
    intro c hc
    rw [windowText] at hc
    split at hc
    · rw [String.toList_append] at hc
      exact (List.mem_append.1 hc).elim (hlimit c) (hnumber _ c)
    · rw [String.toList_append, String.toList_append, String.toList_append] at hc
      rcases List.mem_append.1 hc with hc | hc
      · rcases List.mem_append.1 hc with hc | hc
        · exact (List.mem_append.1 hc).elim (hlimit c) (hnumber _ c)
        · exact hoffset c hc
      · exact hnumber _ c hc

theorem notMem_windowText {c : Char} (hblank : c ≠ ' ') (hword : isWordChar c = false)
    (w : Option Window) : c ∉ (windowText w).toList := by
  intro hc
  rcases windowText_chars w c hc with h | h
  · exact hblank h
  · rw [hword] at h
    cases h

theorem unquoted_windowText (w : Option Window) : Unquoted (windowText w).toList := by
  intro c hc
  cases hquote : isQuote c with
  | false => rfl
  | true =>
    refine absurd hc ?_
    simp only [isQuote, Bool.or_eq_true, beq_iff_eq] at hquote
    rcases hquote with (rfl | rfl) | rfl
    · exact notMem_windowText (by decide) (by decide) w
    · exact notMem_windowText (by decide) (by decide) w
    · exact notMem_windowText (by decide) (by decide) w

theorem detached_windowText (w : Option Window) : Detached (windowText w).toList where
  apart := by
    cases w with
    | none => exact standsApart_nil
    | some w =>
      rw [windowText]
      split
      · rw [String.toList_append]
        exact standsApart_cons _
      · rw [String.toList_append, String.toList_append, String.toList_append]
        exact standsApart_cons _
  unquoted := unquoted_windowText w
  balanced := by
    rw [ParenBalanced, List.count_eq_zero_of_not_mem (notMem_windowText (by decide) (by decide) w),
      List.count_eq_zero_of_not_mem (notMem_windowText (by decide) (by decide) w)]

/-! ### The query for the number of rows -/

/-- **The query for the number of rows passes the check just when its body can stand in
    parentheses.** -/
theorem checkSafe_countStatement {q : Select} (h : checkSafe q.statement.text = .ok ()) :
    checkSafe q.countStatement.text = .ok () ↔ IsEnclosable q.bodyText := by
  have hstatement : q.statement.text.toList = q.bodyText.toList ++ q.tail.toList := by
    rw [statement_eq, String.toList_append, bodyText]
  have hcount : q.countStatement.text.toList =
      "SELECT COUNT(*) FROM (".toList ++ q.bodyText.toList ++ ") AS total_rows".toList := by
    rw [countStatement_eq, String.toList_append, String.toList_append, bodyText]
  -- the orders and the window, which the COUNT leaves out, read apart from the body
  have htail : StandsApart q.tail.toList := by
    rw [tail, String.toList_append]
    exact (standsApart_listClause rfl q.orders).append (detached_windowText q.window).apart
  obtain ⟨z, hz, hharmless⟩ := (checkSafe_eq_ok_iff _).1 h
  rw [hstatement] at hz
  rw [checkSafe_eq_ok_iff, hcount, bare?_between (by decide) (by decide), IsEnclosable]
  cases hbody : bare? q.bodyText.toList with
  | none => simp
  | some x =>
    obtain ⟨y, hy, rfl⟩ := (bare?_append_eq_some_iff hbody htail).1 hz
    have hcounted := harmless_counted_iff (htail.bare hy) hharmless
    simpa using hcounted

/-- A checked text up to its page can stand in parentheses when it ends with some plain text. -/
theorem isEnclosable_of_checked {front back : String} {w : Option Window}
    (h : checkSafe (front ++ back ++ windowText w) = .ok ()) (hplain : Unquoted back.toList)
    (hvisible : ¬ AllBlank back.toList) (hsemicolon : ';' ∉ back.toList) :
    IsEnclosable (front ++ back) := by
  obtain ⟨z, hz, hharmless⟩ := (checkSafe_eq_ok_iff _).1 h
  rw [String.toList_append, String.toList_append] at hz
  cases hread : bare? (front.toList ++ back.toList) with
  | none =>
    -- a page has no quote that could close the span
    rw [bare?, bareFrom_append_of_none (by simp) hread (unquoted_windowText w)] at hz
    cases hz
  | some y =>
    have hy : ∃ x, y = x ++ back.toList := by
      have hbetween := bare?_between (a := []) (by decide) hplain front.toList
      rw [List.nil_append, hread] at hbetween
      obtain ⟨x, -, hx⟩ := Option.map_eq_some_iff.1 hbetween.symm
      exact ⟨x, hx.symm⟩
    obtain ⟨x, rfl⟩ := hy
    have hwhole := bare?_append_eq_some hread (unquoted_windowText w).startsPlain
      (bare?_unquoted (unquoted_windowText w))
    obtain rfl := Option.some.inj (hwhole.symm.trans hz)
    have hpage := detached_windowText w
    have hchecked := hharmless.of_append hpage.apart hpage.balanced
    have hx : ';' ∉ x := ((semicolonLast_append hvisible x).1 hchecked.semicolon).1
    refine ⟨x ++ back.toList, by rw [String.toList_append, hread], ?_, hchecked.parentheses⟩
    exact fun hmem => (List.mem_append.1 hmem).elim hx hsemicolon

/-! ### The query for one row -/

/-- The text behind WHERE, up to the order. -/
def restText (q : Select) : String :=
  Part.render q.dialect (Part.numbered (q.headParts ++ q.whereParts)).length q.restParts

/-- The body of a query without required predicates, clause by clause. -/
theorem bodyText_eq {q : Select} (hrequired : q.required = []) :
    q.bodyText =
      q.headText ++ (if q.filter.isEmpty then "" else " WHERE " ++ q.filterText) ++ q.restText := by
  have hwhere : Part.render q.dialect (Part.numbered q.headParts).length q.whereParts =
      if q.filter.isEmpty then "" else " WHERE " ++ q.filterText := by
    cases hfilter : q.filter.isEmpty with
    | true => simp [whereParts, hrequired, hfilter, Part.render]
    | false => simp [whereParts, hrequired, hfilter, Part.render, filterText]
  rw [bodyText, bodyParts_eq, ← List.append_assoc, Part.render_append, Part.render_append,
    Nat.zero_add, Nat.zero_add, hwhere]
  rfl

theorem text_statement {q : Select} (hrequired : q.required = []) :
    q.statement.text = q.headText ++ (if q.filter.isEmpty then "" else " WHERE " ++ q.filterText) ++
      q.restText ++ q.tail := by
  rw [statement_eq, ← bodyText_eq hrequired]
  rfl

/-- The query for one row: a predicate is required, and no page is cut out. -/
def keyed (q : Select) (p : Fragment) : Select := { q.require p with window := none }

/-- Its text as it would be if the predicate had no argument. -/
def keyedText (q : Select) (p : Fragment) : String :=
  q.headText ++ (if q.filter.isEmpty then " WHERE " else " WHERE (" ++ q.filterText ++ ") AND ") ++
    Part.render q.dialect 0 p.parts ++ (q.restText ++ listClause " ORDER BY " q.orders)

theorem render_groupParts (q : Select) :
    Part.render q.dialect (Part.numbered q.headParts).length (.text " WHERE " :: q.groupParts) =
      if q.filter.isEmpty then " WHERE " else " WHERE (" ++ q.filterText ++ ") AND " := by
  have hopening : " WHERE " ++ "(" = " WHERE (" := rfl
  unfold groupParts
  split
  · simp [Part.render]
  · simp only [Part.render, Part.render_append, filterText, String.append_empty,
      ← String.append_assoc, hopening]

theorem keyed_renumbered {q : Select} {p : Fragment} (hrequired : q.required = [])
    (hp : p.isEmpty = false) :
    Renumbered (q.keyed p).statement.text.toList (q.keyedText p).toList := by
  have hkeyed : q.keyed p = { q with required := [p], window := none } := by
    simp [keyed, require, hp, hrequired]
  have hbody : (q.keyed p).bodyParts =
      q.headParts ++ ((.text " WHERE " :: q.groupParts) ++ (p.parts ++ q.restParts)) := by
    rw [hkeyed, bodyParts_eq]
    simp [whereParts, requiredParts, headParts, restParts, groupParts, projection, havingParts]
  have htail : (q.keyed p).tail = listClause " ORDER BY " q.orders := by
    rw [hkeyed, tail, windowText, String.append_empty]
  have hdialect : (q.keyed p).dialect = q.dialect := by rw [hkeyed]
  rw [statement_eq, hbody, htail, hdialect, Part.render_append, Part.render_append,
    Part.render_append, Nat.zero_add, render_groupParts, keyedText, headText, restText]
  simp only [String.toList_append, ← List.append_assoc]
  -- the key takes a number of its own, so the placeholders behind it count on from another one
  refine .append (.append (.append (.refl _) ?_) ?_) (.refl _)
  · exact render_renumbered q.dialect _ _ p.parts
  · exact render_renumbered q.dialect _ _ q.restParts

/-- **The query for one row passes the check just when head and filter are pieces of a statement**,
    where both close their spans. -/
theorem checkSafe_keyed {q : Select} {p : Fragment} {x : List Char} (hrequired : q.required = [])
    (hp : p.isEmpty = false) (hread : bare? (Part.render q.dialect 0 p.parts).toList = some x)
    (hinert : Inert x) (h : checkSafe q.statement.text = .ok ()) (hhead : Closed q.headText)
    (hfilter : Closed q.filterText) :
    checkSafe (q.keyed p).statement.text = .ok () ↔ IsPiece q.headText ∧ IsPiece q.filterText := by
  obtain ⟨a, ha⟩ := hhead
  obtain ⟨f, hf⟩ := hfilter
  have hrest : StandsApart (q.restText ++ listClause " ORDER BY " q.orders).toList := by
    rw [String.toList_append]
    exact (standsApart_render_restParts q _).append (standsApart_listClause rfl q.orders)
  have hpage := detached_windowText q.window
  rw [checkSafe_eq_ok_iff_hazard?, text_statement hrequired, tail, ← String.append_assoc] at h
  rw [checkSafe_renumbered (keyed_renumbered hrequired hp), checkSafe_eq_ok_iff_hazard?,
    isPiece_iff ha, isPiece_iff hf, keyedText]
  -- without a filter the key stands alone behind WHERE, else behind the bracketed filter
  cases hempty : q.filter.isEmpty with
  | true =>
    have hnone : f = [] := by
      have hparts : q.filter.parts = [] := List.isEmpty_iff.1 hempty
      rw [filterText, hparts] at hf
      exact (Option.some.inj hf).symm
    have halone := hazard?_keyed_alone_iff ha hread hinert hrest hpage (by simpa [hempty] using h)
    simpa [hnone] using halone
  | false =>
    have hboth := hazard?_keyed_iff ha hf hread hinert hrest hpage (by simpa [hempty] using h)
    simpa using hboth

end Select

end MetaQuery
