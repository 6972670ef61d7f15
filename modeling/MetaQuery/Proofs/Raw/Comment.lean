/-
  MetaQuery/Proofs/Raw/Comment.lean
  =================================
  What becomes of the check when a line comment is taken out of a text.

  The check knows no comments: a quote in a comment opens a span as any other quote does.  Read
  character by character, a text takes the quote it stands in to the next one, and different quotes
  to different ones (`openQuote_injective`).  So if the comment leaves a span open, the rest is read
  inside out, and one of the two texts, with the comment and without it, is not closed.  If the
  comment is closed, only its parentheses can make a difference, since semicolons and words that are
  not in the comment stay where they are (`accepted_without_comment`).
-/
import MetaQuery.Proofs.Raw.Unterminated

namespace MetaQuery.Raw

open Text

/-! ### The quote that is open -/

/-- The quote of the span that stands open behind a character, if there is one. -/
def stepQuote : Option Char → Char → Option Char
  | none, c => if isQuote c then some c else none
  | some q, c => if c = q then none else some q

/-- The quote of the span that stands open behind a text. -/
def openQuote (o : Option Char) (cs : List Char) : Option Char := cs.foldl stepQuote o

section
variable {o o' : Option Char} {c : Char} {cs u : List Char}

theorem stepQuote_valid (ho : ∀ q ∈ o, isQuote q = true) :
    ∀ q ∈ stepQuote o c, isQuote q = true := by
  intro q hq
  cases o with
  | none =>
    rw [stepQuote] at hq
    split at hq
    · next hc =>
      obtain rfl : c = q := Option.some.inj hq
      exact hc
    · cases hq
  | some p =>
    rw [stepQuote] at hq
    split at hq
    · cases hq
    · obtain rfl : p = q := Option.some.inj hq
      exact ho p rfl

/-- A character takes different quotes to different ones. -/
theorem stepQuote_injective (ho : ∀ q ∈ o, isQuote q = true) (ho' : ∀ q ∈ o', isQuote q = true)
    (h : stepQuote o c = stepQuote o' c) : o = o' := by
  -- a quote that closes one span opens another one outside of it
  have hoff : ∀ q, isQuote q = true → stepQuote none c ≠ stepQuote (some q) c := by
    intro q hq heq
    rw [stepQuote, stepQuote] at heq
    split at heq
    · split at heq
      · cases heq
      · next hne => exact hne (Option.some.inj heq)
    · next hplain =>
      split at heq
      · next hc => exact hplain (hc ▸ hq)
      · cases heq
  cases o with
  | none =>
    cases o' with
    | none => rfl
    | some q => exact absurd h (hoff q (ho' q rfl))
  | some q =>
    cases o' with
    | none => exact absurd h.symm (hoff q (ho q rfl))
    | some q' =>
      rw [stepQuote, stepQuote] at h
      split at h
      · next hc =>
        split at h
        · next hc' => rw [← hc, ← hc']
        · cases h
      · split at h
        · cases h
        · exact h

theorem openQuote_valid (ho : ∀ q ∈ o, isQuote q = true) :
    ∀ q ∈ openQuote o cs, isQuote q = true := by
  induction cs generalizing o with
  | nil => exact ho
  | cons c cs ih => exact ih (stepQuote_valid ho)

theorem openQuote_injective (ho : ∀ q ∈ o, isQuote q = true) (ho' : ∀ q ∈ o', isQuote q = true)
    (h : openQuote o cs = openQuote o' cs) : o = o' := by
  induction cs generalizing o o' with
  | nil => exact h
  | cons c cs ih =>
    exact stepQuote_injective ho ho' (ih (stepQuote_valid ho) (stepQuote_valid ho') h)

theorem openQuote_append (o : Option Char) (a b : List Char) :
    openQuote o (a ++ b) = openQuote (openQuote o a) b := List.foldl_append

theorem openQuote_of_unquoted (ho : ∀ q ∈ o, isQuote q = true) (hu : Unquoted u) :
    openQuote o u = o := by
  induction u with
  | nil => rfl
  | cons c u ih =>
    have hc := hu c List.mem_cons_self
    -- outside a span only a quote opens one, inside only the span's own quote closes it
    have hstep : stepQuote o c = o := by
      cases o with
      | none => rw [stepQuote, if_neg (by simp [hc])]
      | some q =>
        have hne : c ≠ q := by
          rintro rfl
          rw [ho c rfl] at hc
          cases hc
        rw [stepQuote, if_neg hne]
    rw [openQuote, List.foldl_cons, hstep]
    exact ih fun x hx => hu x (List.mem_cons_of_mem c hx)

/-- A text is closed just when no quote is open behind it.  A quote written twice closes its span
    and opens it again. -/
theorem openQuote_eq_none_iff (ho : ∀ q ∈ o, isQuote q = true) :
    openQuote o cs = none ↔ bareFrom o cs ≠ none := by
  fun_induction bareFrom o cs with
  | case1 => exact iff_of_true rfl (Option.some_ne_none _)
  | case2 c cs hc ih =>
    rw [openQuote, List.foldl_cons, stepQuote, if_pos hc]
    exact ih (by simpa using hc)
  | case3 c cs hc ih =>
    rw [openQuote, List.foldl_cons, stepQuote, if_neg hc, ne_eq, Option.map_eq_none_iff]
    exact ih ho
  | case4 q => exact iff_of_false (Option.some_ne_none q) (fun h => h rfl)
  | case5 q => exact iff_of_true (by simp [openQuote, stepQuote]) (Option.some_ne_none _)
  | case6 q c hc => exact iff_of_false (by simp [openQuote, stepQuote, hc]) (fun h => h rfl)
  | case7 q c d cs hc ih =>
    rw [openQuote, List.foldl_cons, stepQuote, if_neg hc]
    exact ih ho
  | case8 q c cs hc ih =>
    obtain rfl : q = c := by simpa using hc
    -- a doubled quote closes and opens again, which is back in the same state
    have htwice : openQuote (some q) (q :: q :: cs) = openQuote (some q) cs := by
      simp [openQuote, stepQuote, ho q rfl]
    rw [htwice]
    exact ih ho
  | case9 q c d cs hc hd ih =>
    obtain rfl : c = q := by simpa using hc
    rw [openQuote, List.foldl_cons, stepQuote, if_pos rfl, ne_eq, Option.map_eq_none_iff]
    exact ih (by simp)

/-- A text that is closed inside of a span is open outside of it. -/
theorem bare?_eq_none_of_inside {q : Char} (hq : isQuote q = true)
    (h : openQuote (some q) cs = none) : bare? cs = none := by
  by_contra hread
  have hclosed : openQuote none cs = none := (openQuote_eq_none_iff (by simp)).2 hread
  cases openQuote_injective (by simpa using hq) (by simp) (h.trans hclosed.symm)

end

/-! ### Parentheses that do not add up -/

theorem bareHazard?_eq_unbalanced_iff {cs : List Char}
    (hlast : ∀ c, cs.getLast? = some c → isBlank c = false) :
    bareHazard? cs = some .unbalancedParentheses ↔
      SemicolonLast cs ∧ Tame cs ∧ ¬ ParenBalanced cs := by
  have hwords : (upperWords cs).find? (dangerousKeywords.contains ·) = none ↔ Tame cs := by
    simp [Tame]
  rw [← severalStatements_eq_false_iff hlast, ← hwords, bareHazard?]
  cases severalStatements cs with
  | true => simp
  | false =>
    cases (upperWords cs).find? (dangerousKeywords.contains ·) with
    | some word => simp
    | none => simp [ParenBalanced]

theorem checkSafe_eq_unbalanced_iff {sql : String} {x : List Char}
    (h : bare? sql.toList = some x) : checkSafe sql = .error (.hazard .unbalancedParentheses) ↔
      SemicolonLast x ∧ Tame x ∧ ¬ ParenBalanced x := by
  obtain ⟨front, back, hx, hfront, hback⟩ := exists_trimBlanks x
  have hlast : ∀ c, (trimBlanks x).getLast? = some c → isBlank c = false :=
    fun c => isBlank_getLast?_trimBlanks
  have htrim := bareHazard?_eq_unbalanced_iff hlast
  rw [← semicolonLast_between hfront hback, ← tame_between hfront hback,
    ← parenBalanced_between hfront hback, ← hx] at htrim
  rw [← htrim, checkSafe, hazard?_of_bare? h]
  cases bareHazard? (trimBlanks x) with
  | none => simp
  | some hazard => simp

/-! ### Comments -/

section
variable {pre comment rest x : List Char}

theorem unquoted_dashes : Unquoted ['-', '-'] := by decide

theorem unquoted_newline : Unquoted ['\n'] := by decide

/-- A comment that leaves a span open turns the rest inside out. -/
theorem bare?_without_open_comment (hpre : bare? pre = some x) (hcomment : bare? comment = none)
    (h : bare? (pre ++ ['-', '-'] ++ comment ++ ['\n'] ++ rest) ≠ none) :
    bare? (pre ++ ['\n'] ++ rest) = none := by
  have hnone : ∀ {cs : List Char}, openQuote none cs = none ↔ bare? cs ≠ none :=
    openQuote_eq_none_iff (by simp)
  have hfront : openQuote none pre = none := hnone.2 (by simp [hpre])
  obtain ⟨q, hq⟩ := Option.ne_none_iff_exists'.1 (mt hnone.1 (not_not_intro hcomment))
  have hquote : isQuote q = true := openQuote_valid (o := none) (by simp) q hq
  -- the comment opened a span that the rest closes; without the comment the rest opens one itself
  have hinside : openQuote (some q) rest = none := by
    have hwhole := hnone.2 h
    rwa [openQuote_append, openQuote_append, openQuote_append, openQuote_append, hfront,
      openQuote_of_unquoted (by simp) unquoted_dashes, hq,
      openQuote_of_unquoted (by simpa using hquote) unquoted_newline] at hwhole
  have hrest := bare?_eq_none_of_inside hquote hinside
  have hplain : StartsPlain (['\n'] ++ rest) := by
    intro c hc
    obtain rfl : '\n' = c := Option.some.inj hc
    decide
  rw [List.append_assoc, bare?_append hpre hplain, bare?, bareFrom_append_of_unquoted
    unquoted_newline, ← bare?, hrest]
  rfl

/-- Around a closed comment, all is read as it is without it. -/
theorem bare?_with_closed_comment {y : List Char} (hpre : bare? pre = some x)
    (hcomment : bare? comment = some y) (rest : List Char) :
    bare? (pre ++ ['-', '-'] ++ comment ++ ['\n'] ++ rest) =
        (bare? rest).map (fun z => x ++ '-' :: '-' :: (y ++ '\n' :: z)) ∧
      bare? (pre ++ ['\n'] ++ rest) = (bare? rest).map (fun z => x ++ '\n' :: z) := by
  have hplain : ∀ {c : Char} {r : List Char}, isQuote c = false → StartsPlain (c :: r) := by
    intro c r hc d hd
    obtain rfl : c = d := Option.some.inj hd
    exact hc
  have hnewline : bare? ('\n' :: rest) = (bare? rest).map ('\n' :: ·) :=
    bareFrom_cons_of_not_quote (by decide) rest
  -- dashes and line break are not quotes, so prefix, comment and rest are read one by one
  simp only [List.append_assoc, List.cons_append, List.nil_append]
  constructor
  · rw [bare?_append hpre (hplain (by decide)), bare?, bareFrom_cons_of_not_quote (by decide),
      bareFrom_cons_of_not_quote (by decide), ← bare?, bare?_append hcomment (hplain (by decide)),
      hnewline]
    simp [Function.comp_def]
  · rw [bare?_append hpre (hplain (by decide)), hnewline]
    simp [Function.comp_def]

/-- Without the comment, the semicolons and words stay harmless, and the totals of the parentheses
    are those of the whole less those of the comment. -/
theorem harmless_without_comment {y z : List Char}
    (h : Harmless (x ++ '-' :: '-' :: (y ++ '\n' :: z))) :
    SemicolonLast (x ++ '\n' :: z) ∧ Tame (x ++ '\n' :: z) ∧
      (ParenBalanced (x ++ '\n' :: z) ↔ ParenBalanced y) := by
  have hdash : IsSeparator '-' := by decide
  have hnewline : IsSeparator '\n' := by decide
  refine ⟨?_, ?_, ?_⟩
  · -- the dashes are not blank, so no semicolon stands in front of them
    have hvisible : ¬ AllBlank ('-' :: '-' :: (y ++ '\n' :: z)) := fun hblank =>
      absurd (hblank '-' List.mem_cons_self) (by decide)
    obtain ⟨hfront, hback⟩ := (semicolonLast_append hvisible x).1 h.semicolon
    have hback : SemicolonLast (y ++ '\n' :: z) := hback
    rw [semicolonLast_append_of_notMem hfront]
    by_cases hblank : AllBlank ('\n' :: z)
    · exact semicolonLast_of_notMem (notMem_of_allBlank hblank (by decide))
    · exact ((semicolonLast_append hblank y).1 hback).2
  · have hwords := h.words
    rw [tame_append_cons hdash, tame_cons hdash, tame_append_cons hnewline] at hwords
    exact (tame_append_cons hnewline x z).2 ⟨hwords.1, hwords.2.2⟩
  · have hparens := h.parentheses
    simp only [ParenBalanced, List.count_append, List.count_cons] at hparens ⊢
    simp at hparens ⊢
    omega

end

/-- **What becomes of an accepted text without one of its comments.**  If the comment leaves a span
    open, the text without it is refused as unterminated.  If it is closed, the text without it is
    accepted where the parentheses of the comment add up, and refused for its parentheses where they
    do not. -/
theorem accepted_without_comment {pre comment rest : String}
    (hpre : bare? pre.toList ≠ none)
    (h : checkSafe (pre ++ "--" ++ comment ++ "\n" ++ rest) = .ok ()) :
    checkSafe (pre ++ "\n" ++ rest) = match bare? comment.toList with
      | none => .error (.hazard .unterminatedQuote)
      | some y => if ParenBalanced y then .ok () else .error (.hazard .unbalancedParentheses) := by
  obtain ⟨x, hx⟩ := Option.ne_none_iff_exists'.1 hpre
  obtain ⟨w, hw, hharmless⟩ := (checkSafe_eq_ok_iff _).1 h
  have hwith : (pre ++ "--" ++ comment ++ "\n" ++ rest).toList =
      pre.toList ++ ['-', '-'] ++ comment.toList ++ ['\n'] ++ rest.toList := by
    simp only [String.toList_append]
    rfl
  have hwithout : (pre ++ "\n" ++ rest).toList = pre.toList ++ ['\n'] ++ rest.toList := by
    simp only [String.toList_append]
    rfl
  rw [hwith] at hw
  -- the comment's own quotes decide whether the rest is read inside out
  cases hcomment : bare? comment.toList with
  | none =>
    refine checkSafe_eq_unterminated_iff.2 (bare?_eq_none_iff.1 ?_)
    rw [hwithout]
    refine bare?_without_open_comment hx hcomment ?_
    rw [hw]
    exact Option.some_ne_none w
  | some y =>
    obtain ⟨hread, hread'⟩ := bare?_with_closed_comment hx hcomment rest.toList
    rw [hread] at hw
    obtain ⟨z, hz, rfl⟩ := Option.map_eq_some_iff.1 hw
    rw [hz, Option.map_some, ← hwithout] at hread'
    obtain ⟨hsemicolon, hwords, hparens⟩ := harmless_without_comment hharmless
    dsimp only
    split
    · next hbalanced =>
      exact (checkSafe_eq_ok_iff _).2 ⟨_, hread', hsemicolon, hwords, hparens.2 hbalanced⟩
    · next hbalanced =>
      exact (checkSafe_eq_unbalanced_iff hread').2 ⟨hsemicolon, hwords, mt hparens.1 hbalanced⟩

/-- A comment with a literal in it, and with its parentheses closed. -/
theorem quoted_comment_removed :
    let comment := " the name (and the 'nick')"
    (bare? "SELECT name".toList ≠ none ∧
      checkSafe ("SELECT name" ++ "--" ++ comment ++ "\n" ++ "FROM notes") = .ok ()) ∧
      checkSafe ("SELECT name" ++ "\n" ++ "FROM notes") = match bare? comment.toList with
        | none => .error (.hazard .unterminatedQuote)
        | some y =>
          if ParenBalanced y then .ok () else .error (.hazard .unbalancedParentheses) := by
  have hfront : bare? "SELECT name".toList ≠ none := by decide
  have hsafe : checkSafe ("SELECT name" ++ "--" ++ " the name (and the 'nick')" ++ "\n" ++
      "FROM notes") = .ok () := by decide +kernel
  exact ⟨⟨hfront, hsafe⟩, accepted_without_comment hfront hsafe⟩

/-- A quote in a comment makes a literal of the second statement, up to the quote in another
    comment.  A parenthesis in a comment closes one that is open without it. -/
theorem comments_hide_statements :
    (bare? "SELECT 1 ".toList ≠ none ∧
      checkSafe ("SELECT 1 " ++ "--" ++ " it's" ++ "\n" ++ "; DROP TABLE notes -- '") = .ok () ∧
      checkSafe ("SELECT 1 " ++ "\n" ++ "; DROP TABLE notes -- '") =
        .error (.hazard .unterminatedQuote)) ∧
    (bare? "SELECT (1 ".toList ≠ none ∧
      checkSafe ("SELECT (1 " ++ "--" ++ " )" ++ "\n" ++ "") = .ok () ∧
      checkSafe ("SELECT (1 " ++ "\n" ++ "") = .error (.hazard .unbalancedParentheses)) := by
  decide +kernel

end MetaQuery.Raw
