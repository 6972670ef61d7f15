/-
  MetaQuery/Proofs/Raw/Parentheses.lean
  =====================================
  What the totals of parentheses say about a text, and what they do not say.

  The check compares how many parentheses are opened outside of spans with how many are closed.
  Texts with equal totals need not be well nested: they are just when none of their beginnings
  closes more than it opens (`nested_iff_counts`).  Binding parameters exchanges stretches that
  close by themselves for others that do (`Exchanged`), so what is written for a text is nested
  just if the text is.

  A text written by hand stands in a derived table, between a parenthesis in front of it and one
  behind it.  These two belong together just when the text is well nested; the totals alone do not
  give that (`parentheses_add_up`, `crossed_parentheses_accepted`).
-/
import Mathlib.Data.List.Count
import MetaQuery.Proofs.Raw.Accepted
import MetaQuery.Proofs.Raw.Unterminated

namespace MetaQuery.Raw

open Text

/-! ### Nesting by counts -/

section
variable {k : Nat} {l : Lexeme} {ls : List Lexeme}

/-- Only the two parentheses change how many are open. -/
theorem nested_cons_of_ne (hopening : l ≠ .char '(') (hclosing : l ≠ .char ')') :
    Nested k (l :: ls) ↔ Nested k ls := by
  cases l with
  | char c =>
    have hne : c ≠ '(' ∧ c ≠ ')' := ⟨fun hc => hopening (hc ▸ rfl), fun hc => hclosing (hc ▸ rfl)⟩
    rw [Nested, if_neg hne.1, if_neg hne.2]
  | span q body => rfl
  | opened q body => rfl

theorem nested_opening : Nested k (.char '(' :: ls) ↔ Nested (k + 1) ls := Iff.rfl

theorem nested_closing : Nested k (.char ')' :: ls) ↔ 0 < k ∧ Nested (k - 1) ls := Iff.rfl

/-- Parentheses are nested well just when as many are closed as are opened, and no beginning closes
    more than are open. -/
theorem nested_iff_counts : Nested k ls ↔
    k + ls.count (.char '(') = ls.count (.char ')') ∧
      ∀ a, a <+: ls → a.count (.char ')') ≤ k + a.count (.char '(') := by
  induction ls generalizing k with
  | nil => simp [Nested]
  | cons l ls ih =>
    -- a beginning of the longer list is empty or one of the rest with `l` before it
    have hbeginnings : (∀ a, a <+: l :: ls → a.count (.char ')') ≤ k + a.count (.char '(')) ↔
        ∀ a, a <+: ls → (l :: a).count (.char ')') ≤ k + (l :: a).count (.char '(') := by
      constructor
      · exact fun h a ha => h (l :: a) (List.prefix_cons_iff.2 (.inr ⟨a, rfl, ha⟩))
      · intro h a ha
        rcases List.prefix_cons_iff.1 ha with rfl | ⟨b, rfl, hb⟩
        · exact Nat.zero_le _
        · exact h b hb
    rw [hbeginnings]
    by_cases hopening : l = .char '('
    · simp only [hopening, nested_opening, ih, List.count_cons_self,
        List.count_cons_of_ne (show Lexeme.char '(' ≠ .char ')' by decide), Nat.add_assoc,
        Nat.add_comm 1]
    by_cases hclosing : l = .char ')'
    · simp only [hclosing, nested_closing, ih, List.count_cons_self,
        List.count_cons_of_ne (show Lexeme.char ')' ≠ .char '(' by decide)]
      constructor
      · rintro ⟨hk, htotal, hrest⟩
        exact ⟨by omega, fun a ha => by have := hrest a ha; omega⟩
      · rintro ⟨htotal, hrest⟩
        have hk := hrest [] List.nil_prefix
        simp only [List.count_nil] at hk
        exact ⟨by omega, by omega, fun a ha => by have := hrest a ha; omega⟩
    · simp only [nested_cons_of_ne hopening hclosing, ih, List.count_cons_of_ne hopening,
        List.count_cons_of_ne hclosing]

theorem nested_append {j : Nat} {a b : List Lexeme} (ha : Nested j a) :
    Nested (j + k) (a ++ b) ↔ Nested k b := by
  induction a generalizing j with
  | nil =>
    obtain rfl : j = 0 := ha
    rw [List.nil_append, Nat.zero_add]
  | cons l a ih =>
    rw [List.cons_append]
    by_cases hopening : l = .char '('
    · subst hopening
      rw [nested_opening, Nat.add_right_comm]
      exact ih ha
    by_cases hclosing : l = .char ')'
    · subst hclosing
      obtain ⟨hj, ha⟩ := nested_closing.1 ha
      -- `a` closes nothing it has not opened, so `j` is not used up here
      rw [nested_closing, show j + k - 1 = j - 1 + k by omega, ih ha]
      simp [Nat.add_pos_left hj k]
    · rw [nested_cons_of_ne hopening hclosing]
      exact ih ((nested_cons_of_ne hopening hclosing).1 ha)

end

/-! ### The parenthesis that closes -/

/-- What stands behind the parenthesis that closes an open one, `k` more of them being opened
    behind that. -/
def behindClosing : Nat → List Lexeme → Option (List Lexeme)
  | _, [] => none
  | k, .char c :: r =>
    if c = '(' then behindClosing (k + 1) r
    else if c = ')' then if k = 0 then some r else behindClosing (k - 1) r
    else behindClosing k r
  | k, _ :: r => behindClosing k r

section
variable {k : Nat} {l : Lexeme} {ls out tail : List Lexeme}

theorem behindClosing_cons_of_ne (hopening : l ≠ .char '(') (hclosing : l ≠ .char ')') :
    behindClosing k (l :: ls) = behindClosing k ls := by
  cases l with
  | char c =>
    have hne : c ≠ '(' ∧ c ≠ ')' := ⟨fun hc => hopening (hc ▸ rfl), fun hc => hclosing (hc ▸ rfl)⟩
    rw [behindClosing, if_neg hne.1, if_neg hne.2]
  | span q body => rfl
  | opened q body => rfl

theorem length_behindClosing_lt (h : behindClosing k ls = some out) : out.length < ls.length := by
  induction ls generalizing k with
  | nil => cases h
  | cons l ls ih =>
    rw [List.length_cons]
    by_cases hopening : l = .char '('
    · subst hopening
      exact Nat.lt_succ_of_lt (ih h)
    by_cases hclosing : l = .char ')'
    · subst hclosing
      rw [behindClosing, if_neg (by decide), if_pos rfl] at h
      split at h
      · obtain rfl := Option.some.inj h
        exact Nat.lt_succ_self _
      · exact Nat.lt_succ_of_lt (ih h)
    · rw [behindClosing_cons_of_ne hopening hclosing] at h
      exact Nat.lt_succ_of_lt (ih h)

/-- A parenthesis behind some lexemes closes the one in front of them just when they are nested. -/
theorem behindClosing_append_iff :
    behindClosing k (ls ++ .char ')' :: tail) = some tail ↔ Nested k ls := by
  induction ls generalizing k with
  | nil =>
    rw [List.nil_append, behindClosing, if_neg (by decide), if_pos rfl]
    split
    · next hk => exact iff_of_true rfl hk
    · next hk => exact iff_of_false (fun h => Nat.lt_irrefl _ (length_behindClosing_lt h)) hk
  | cons l ls ih =>
    rw [List.cons_append]
    by_cases hopening : l = .char '('
    · subst hopening
      exact ih
    by_cases hclosing : l = .char ')'
    · subst hclosing
      rw [nested_closing, behindClosing, if_neg (by decide), if_pos rfl]
      split
      · next hk =>
        -- the first one is closed already inside of the lexemes
        refine iff_of_false (fun h => ?_) fun h => absurd hk h.1.ne'
        have hlength := congrArg List.length (Option.some.inj h)
        simp only [List.length_append, List.length_cons] at hlength
        omega
      · next hk => rw [ih, and_iff_right (Nat.pos_of_ne_zero hk)]
    · rw [behindClosing_cons_of_ne hopening hclosing, nested_cons_of_ne hopening hclosing, ih]

end

/-! ### Lists whose parentheses are alike -/

/-- The parentheses of the one list are nested where those of the other are, and their totals differ
    by the same. -/
structure SameParens (a b : List Lexeme) : Prop where
  nested_iff : ∀ k, Nested k a ↔ Nested k b
  totals : a.count (.char '(') + b.count (.char ')') = b.count (.char '(') + a.count (.char ')')

namespace SameParens

variable {a b c x y : List Lexeme}

theorem refl (a : List Lexeme) : SameParens a a := ⟨fun _ => Iff.rfl, rfl⟩

theorem trans (h : SameParens a b) (h' : SameParens b c) : SameParens a c := by
  refine ⟨fun k => (h.nested_iff k).trans (h'.nested_iff k), ?_⟩
  have hleft := h.totals
  have hright := h'.totals
  omega

theorem cons (l : Lexeme) (h : SameParens a b) : SameParens (l :: a) (l :: b) where
  nested_iff := by
    intro k
    by_cases hopening : l = .char '('
    · subst hopening
      exact h.nested_iff (k + 1)
    by_cases hclosing : l = .char ')'
    · subst hclosing
      rw [nested_closing, nested_closing, h.nested_iff]
    · rw [nested_cons_of_ne hopening hclosing, nested_cons_of_ne hopening hclosing, h.nested_iff]
  totals := by
    have htotals := h.totals
    simp only [List.count_cons]
    omega

theorem append (x : List Lexeme) (h : SameParens a b) : SameParens (x ++ a) (x ++ b) := by
  induction x with
  | nil => exact h
  | cons l x ih => exact ih.cons l

/-- Stretches that close by themselves make no difference. -/
theorem stretch (hx : Nested 0 x) (hy : Nested 0 y) (h : SameParens a b) :
    SameParens (x ++ a) (y ++ b) where
  nested_iff := by
    intro k
    have hleft : Nested (0 + k) (x ++ a) ↔ Nested k a := nested_append hx
    have hright : Nested (0 + k) (y ++ b) ↔ Nested k b := nested_append hy
    rw [Nat.zero_add] at hleft hright
    rw [hleft, hright, h.nested_iff]
  totals := by
    have hleft := (nested_iff_counts.1 hx).1
    have hright := (nested_iff_counts.1 hy).1
    have htotals := h.totals
    simp only [List.count_append]
    omega

end SameParens

theorem nested_chars {u : List Char} (hu : '(' ∉ u ∧ ')' ∉ u) : Nested 0 (u.map .char) := by
  have h := (nested_chars_append hu 0 []).2 rfl
  rwa [List.append_nil] at h

/-! ### Bound parameters -/

section
variable {params : Params} {d : Dialect} {s : Segment} {ms r : List Mark}
  {sql cs rest u : List Char} {ls : List Lexeme} {ss : List Segment} {mss : List (List Mark)}

theorem Mark.render_lexemes_append (d : Dialect) (n : Nat) (ls : List Lexeme) (r : List Mark) :
    render d n (ls.map .lexeme ++ r) = ls ++ render d n r := by
  induction ls with
  | nil => rfl
  | cons l ls ih => exact congrArg (l :: ·) ih

theorem Mark.exists_render_append (d : Dialect) (n : Nat) (ms r : List Mark) :
    ∃ n', render d n (ms ++ r) = render d n ms ++ render d n' r := by
  induction ms generalizing n with
  | nil => exact ⟨n, rfl⟩
  | cons m ms ih =>
    cases m with
    | lexeme l =>
      obtain ⟨n', h⟩ := ih n
      exact ⟨n', congrArg (l :: ·) h⟩
    | arg v =>
      obtain ⟨n', h⟩ := ih (if v.isNull then n else n + 1)
      refine ⟨n', ?_⟩
      rw [List.cons_append, render, h, render, List.append_assoc]

/-- What becomes of a segment closes what it opens, or is the segment itself. -/
theorem Replaced.sameParens_append (h : Replaced params d s ms) (hfits : s.Fits rest)
    (hr : ∀ n, SameParens (Mark.render d n r) ls) (n : Nat) :
    SameParens (Mark.render d n (ms ++ r)) (s.lexemes ++ ls) := by
  cases h with
  | kept hnames =>
    rw [Mark.render_lexemes_append]
    exact (hr n).append s.lexemes
  | @argument name v hvalue =>
    have hname : ∀ c, isNameRest c = false → c ≠ ':' → c ∉ ':' :: name := by
      intro c hrest hcolon hmem
      rcases List.mem_cons.1 hmem with rfl | hmem
      · exact hcolon rfl
      · rw [hfits.1.rest c hmem] at hrest
        cases hrest
    -- neither a placeholder nor the name it replaces holds a bracket
    have hslot : Nested 0 ((slotText d (n + 1) (Cell.ofJson v)).map .char) :=
      nested_chars ⟨notMem_slotText (by decide) d _ _, notMem_slotText (by decide) d _ _⟩
    have hwritten : Nested 0 ((':' :: name).map .char) :=
      nested_chars ⟨hname '(' (by decide) (by decide), hname ')' (by decide) (by decide)⟩
    exact .stretch hslot hwritten (hr _)
  | concatenation hnames hws =>
    obtain ⟨n', hrender⟩ := Mark.exists_render_append d n (Raw.concatenation params d _) r
    rw [hrender]
    exact .stretch (nested_concatenation d _ n) rfl (hr n')

theorem sameParens_flatten (h : segmenting.Reads sql ss)
    (hmss : List.Forall₂ (Replaced params d) ss mss)
    (n : Nat) : SameParens (Mark.render d n mss.flatten) (ss.flatMap Segment.lexemes) := by
  induction hmss generalizing sql n with
  | nil => exact .refl []
  | @cons s ms ss mss hms hrest ih =>
    obtain ⟨rest, rfl, hfits, hread⟩ := h
    rw [List.flatten_cons, List.flatMap_cons]
    exact hms.sameParens_append hfits (fun n => ih hread n) n

/-- A literal that is left open has no parentheses outside of it, whether it is closed or not. -/
theorem exists_reads_closing (h : Opens '\'' sql) (hls : quoting.Reads sql ls) :
    ∃ ls', quoting.Reads (sql ++ ['\'']) ls' ∧ SameParens ls' ls := by
  -- on the reading up to the span that is left open: closing it changes that span alone
  refine h.induction (P := fun sql => ∀ ls, quoting.Reads sql ls →
    ∃ ls', quoting.Reads (sql ++ ['\'']) ls' ∧ SameParens ls' ls) (fun body hq ls hls => ?_)
    (fun l rest hfits hrest _ ih ls hls => ?_) ls hls
  · have hopened : quoting.Reads ('\'' :: double '\'' body) [.opened '\'' body] :=
      reads_opened_iff.2 ⟨rfl, hq, rfl⟩
    have hclosed : quoting.Reads ('\'' :: double '\'' body ++ ['\'']) [.span '\'' body] :=
      reads_span_iff.2 ⟨[], (List.append_nil _).symm, ⟨hq, nofun⟩, rfl⟩
    obtain rfl := hls.unique hopened
    exact ⟨_, hclosed,
      .stretch (x := [.span '\'' body]) (y := [.opened '\'' body]) rfl rfl (.refl [])⟩
  · obtain ⟨behind, hbehind⟩ := quoting.exists_reads rest
    obtain ⟨closed, hclosed, hsame⟩ := ih behind hbehind
    obtain rfl := hls.unique (.cons hfits hbehind)
    refine ⟨l :: closed, ?_, hsame.cons l⟩
    rw [List.append_assoc]
    exact .cons (hfits.append hrest ['\'']) hclosed

/-- **Binding parameters leaves the parentheses of a text alike**, also where a literal is open. -/
theorem sameParens_substitute (params : Params) (d : Dialect) (hls : quoting.Reads sql ls)
    (n : Nat) :
    ∃ body, quoting.Reads (Part.render d n (substitute params d sql).parts).toList body ∧
      SameParens body ls := by
  have hclosed : ∀ {sql : List Char} {ls : List Lexeme}, ¬ Opens '\'' sql → quoting.Reads sql ls →
      ∃ body, quoting.Reads (Part.render d n (substitute params d sql).parts).toList body ∧
        SameParens body ls := by
    intro sql ls hopen hls
    obtain ⟨ss, hss⟩ := segmenting.exists_reads sql
    obtain ⟨mss, hmss, htext⟩ := exists_replaced_segments params d hss (literals_closed hss hopen)
    have hitems := (items_substitute params d sql).trans htext
    obtain rfl := hls.unique (quoting_of_segmenting hss)
    rw [toList_render_of_marks hitems]
    exact ⟨_, readsBack_flatten hss hmss n, sameParens_flatten hss hmss n⟩
  -- an open literal is read as if its quote stood at the end, and then nothing is open
  by_cases hopen : Opens '\'' sql
  · obtain ⟨ls', hls', hsame⟩ := exists_reads_closing hopen hls
    have hquote : ¬ Opens '\'' (sql ++ ['\'']) := fun h =>
      hopen.closed_by_quote (bare?_eq_none_iff.2 ⟨'\'', h⟩)
    obtain ⟨body, hbody, hbound⟩ := hclosed hquote hls'
    rw [substitute_closing hopen] at hbody
    exact ⟨body, hbody, hbound.trans hsame⟩
  · exact hclosed hopen hls

end

/-! ### Accepted texts -/

theorem count_bare {c : Char} (hc : c ≠ ' ') (ls : List Lexeme) :
    (ls.map Lexeme.bare).count c = ls.count (.char c) := by
  induction ls with
  | nil => rfl
  | cons l ls ih =>
    rw [List.map_cons, List.count_cons, List.count_cons, ih]
    cases l with
    | char x => simp [Lexeme.bare]
    | span q body => simp [Lexeme.bare, Ne.symm hc]
    | opened q body => simp [Lexeme.bare, Ne.symm hc]

/-- A text that is closed and read as these lexemes, whose parentheses add up. -/
structure AddsUp (ls : List Lexeme) : Prop where
  closed : AllClosed ls
  totals : ls.count (.char '(') = ls.count (.char ')')
  /-- The totals leave open in which order the parentheses stand. -/
  nested_iff : Nested 0 ls ↔ ∀ a, a <+: ls → a.count (.char ')') ≤ a.count (.char '(')

theorem addsUp_of_checkSafe {sql : String} (h : checkSafe sql = .ok ()) {ls : List Lexeme}
    (hls : quoting.Reads sql.toList ls) : AddsUp ls := by
  obtain ⟨x, hx, hharmless⟩ := (checkSafe_eq_ok_iff sql).1 h
  have hclosed : AllClosed ls := by
    intro q body hopen
    rw [bare?_eq_none_iff.2 ⟨q, ls, body, hls, hopen⟩] at hx
    cases hx
  obtain rfl := Option.some.inj ((bare?_of_reads hls hclosed).symm.trans hx)
  have htotals := hharmless.parentheses
  rw [ParenBalanced, count_bare (by decide), count_bare (by decide)] at htotals
  refine ⟨hclosed, htotals, ?_⟩
  rw [nested_iff_counts]
  simp only [Nat.zero_add, htotals, true_and]

section
variable {cs rest u : List Char} {l : Lexeme} {ls : List Lexeme}

theorem Lexeme.Fits.append_unquoted (h : l.Fits rest) (hclosed : ∀ q body, l ≠ .opened q body)
    (hu : Unquoted u) : l.Fits (rest ++ u) := by
  by_cases hrest : rest = []
  · subst hrest
    cases l with
    | char c => exact h
    | opened q body => exact absurd rfl (hclosed q body)
    | span q body =>
      refine ⟨h.1, fun hhead => ?_⟩
      have hplain := hu q (List.mem_of_mem_head? hhead)
      rw [h.1] at hplain
      cases hplain
  · exact h.append hrest u

theorem reads_append_chars (h : quoting.Reads cs ls) (hclosed : AllClosed ls) (hu : Unquoted u) :
    quoting.Reads (cs ++ u) (ls ++ u.map .char) := by
  induction ls generalizing cs with
  | nil =>
    obtain rfl : cs = [] := h
    have hchars := reads_chars_append hu .nil
    rwa [List.append_nil, List.append_nil] at hchars
  | cons l ls ih =>
    obtain ⟨rest, rfl, hfits, hrest⟩ := h
    have hfirst : ∀ q body, l ≠ .opened q body := by
      rintro q body rfl
      exact hclosed q body List.mem_cons_self
    have hread := Grammar.Reads.cons (hfits.append_unquoted hfirst hu) (ih hrest hclosed.tail)
    rwa [← List.append_assoc] at hread

end

/-! ### Derived tables -/

/-- What stands behind the parenthesis in front of the name of a derived table. -/
def derivedTail (window : Option Window) : List Char :=
  (" AS " ++ rawAlias).toList ++ (Select.windowText window).toList

theorem notMem_derivedTail {c : Char} (hname : c ∉ (" AS " ++ rawAlias).toList) (hblank : c ≠ ' ')
    (hword : isWordChar c = false) (window : Option Window) : c ∉ derivedTail window := fun hc =>
  (List.mem_append.1 hc).elim hname (Select.notMem_windowText hblank hword window)

/-- The query of a text written by hand: the text with its parameters bound stands between a
    parenthesis and the one in front of the name of the derived table. -/
structure Encloses (m : Model) (q : Select) (ls body : List Lexeme) : Prop where
  text : quoting.Reads m.rawText ls
  totals : ls.count (.char '(') = ls.count (.char ')')
  query : quoting.Reads q.statement.text.toList
    ("SELECT * FROM (".toList.map .char ++
      (body ++ .char ')' :: (derivedTail q.window).map .char))
  /-- The parenthesis in front of the text is closed by the one behind it. -/
  closes_iff : behindClosing 0 (body ++ .char ')' :: (derivedTail q.window).map .char) =
    some ((derivedTail q.window).map .char) ↔ Nested 0 ls

theorem count_chars (c : Char) (u : List Char) : (u.map Lexeme.char).count (.char c) = u.count c :=
  List.count_map_of_injective u Lexeme.char (fun _ _ => Lexeme.char.inj) c

theorem exists_encloses {m : Model} {params : Params} {q : Select} (hraw : m.isRaw = true)
    (h : m.select params = .ok q) : ∃ ls body, Encloses m q ls body := by
  obtain ⟨hcompiled, hsafe⟩ := Model.select_eq_ok_iff.1 h
  obtain ⟨window, -, hq⟩ := Model.eq_of_compile_raw hraw hcompiled
  obtain rfl : q = m.rawQuery params window := hq
  obtain ⟨ls, hls⟩ := quoting.exists_reads m.rawText
  obtain ⟨body, hbody, hsame⟩ := sameParens_substitute params m.dialect hls 0
  -- an open span of the body would be an open span of the query, and the check refuses it
  have hclosed : AllClosed body := by
    intro q inside hopen
    have hquery := (Model.opens_rawQuery_iff params window).2 ⟨body, inside, hbody, hopen⟩
    rw [checkSafe_eq_unterminated_iff.2 ⟨q, hquery⟩] at hsafe
    cases hsafe
  have hread : quoting.Reads (m.rawQuery params window).statement.text.toList
      ("SELECT * FROM (".toList.map .char ++
        (body ++ .char ')' :: (derivedTail window).map .char)) := by
    have hplain : Unquoted (')' :: derivedTail window) :=
      Unquoted.append (a := (") AS " ++ rawAlias).toList) (by decide)
        (Select.unquoted_windowText window)
    rw [Model.toList_rawQuery, List.append_assoc]
    exact reads_chars_append (by decide) (reads_append_chars hbody hclosed hplain)
  -- the query adds one opening and one closing bracket to the body's
  have htotals := (addsUp_of_checkSafe hsafe hread).totals
  have hbody : body.count (.char '(') = body.count (.char ')') := by
    have hhead : "SELECT * FROM (".toList.count '(' = 1 ∧
        "SELECT * FROM (".toList.count ')' = 0 := by decide
    have hopening := notMem_derivedTail (c := '(') (by decide) (by decide) (by decide) window
    have hclosing := notMem_derivedTail (c := ')') (by decide) (by decide) (by decide) window
    simp only [List.count_append, count_chars, hhead, List.count_cons_self,
      List.count_cons_of_ne (show Lexeme.char ')' ≠ .char '(' by decide),
      List.count_eq_zero_of_not_mem hopening, List.count_eq_zero_of_not_mem hclosing] at htotals
    omega
  refine ⟨ls, body, hls, ?_, hread, ?_⟩
  · have hbound := hsame.totals
    omega
  · rw [behindClosing_append_iff, hsame.nested_iff]

/-- **The totals of parentheses add up, and no more.**  A text that passes the check closes as many
    parentheses outside of its spans as it opens, and they are nested well just when none of its
    beginnings closes more than it opens.  For a model written by hand whose query passes, the
    totals of its text are equal too, whatever the parameters are, and the parenthesis in front of
    the text is closed by the one in front of the name of the derived table, and not inside of the
    text, just when the text is nested well. -/
theorem parentheses_add_up (sql : String) (m : Model) (params : Params) (q : Select) :
    (checkSafe sql = .ok () → ∃ ls, quoting.Reads sql.toList ls ∧ AddsUp ls) ∧
      (m.isRaw = true → m.select params = .ok q → ∃ ls body, Encloses m q ls body) := by
  constructor
  · intro h
    obtain ⟨ls, hls⟩ := quoting.exists_reads sql.toList
    exact ⟨ls, hls, addsUp_of_checkSafe h hls⟩
  · exact fun hraw h => exists_encloses hraw h

/-- Parentheses in a literal do not count, and those of a call do. -/
theorem nested_text_adds_up :
    let m := Model.ofContent "SELECT max(n), ')(' FROM notes"
    let q := m.rawQuery [] none
    (checkSafe q.statement.text = .ok () ∧ m.isRaw = true ∧ m.select [] = .ok q) ∧
      (∃ ls, quoting.Reads q.statement.text.toList ls ∧ AddsUp ls) ∧
        ∃ ls body, Encloses m q ls body := by
  intro m q
  have hsafe : checkSafe q.statement.text = .ok () := by decide +kernel
  have hselect : m.select [] = .ok q := Model.select_eq_ok_iff.2 ⟨rfl, hsafe⟩
  obtain ⟨hsum, hencloses⟩ := parentheses_add_up q.statement.text m [] q
  exact ⟨⟨hsafe, rfl, hselect⟩, hsum hsafe, hencloses rfl hselect⟩

/-- The query of two texts side by side, each without one of its parentheses. -/
def crossedQuery : Select := Model.rawQuery (.ofContent "SELECT 1) AS a, (SELECT 2") [] none

/-- A text that closes first and opens then is accepted, also in a derived table, whose first
    parenthesis is closed inside of the text. -/
theorem crossed_parentheses_accepted :
    (checkSafe ")(" = .ok () ∧ quoting.Reads ")(".toList [.char ')', .char '('] ∧
      ¬ Nested 0 [.char ')', .char '(']) ∧
    (Model.ofContent "SELECT 1) AS a, (SELECT 2").select [] = .ok crossedQuery ∧
      crossedQuery.statement.text = "SELECT * FROM (SELECT 1) AS a, (SELECT 2) AS raw_model" ∧
      quoting.Reads crossedQuery.statement.text.toList
        ("SELECT * FROM (".toList.map .char ++
          "SELECT 1) AS a, (SELECT 2) AS raw_model".toList.map .char) ∧
      behindClosing 0 ("SELECT 1) AS a, (SELECT 2) AS raw_model".toList.map .char) =
        some (" AS a, (SELECT 2) AS raw_model".toList.map .char) := by
  have htext : crossedQuery.statement.text =
      "SELECT * FROM (SELECT 1) AS a, (SELECT 2) AS raw_model" := by decide +kernel
  refine ⟨⟨by decide, ?_, ?_⟩, Model.select_eq_ok_iff.2 ⟨rfl, by decide +kernel⟩, htext, ?_,
    by decide +kernel⟩
  · exact reads_chars_append (u := ")(".toList) (by decide) .nil
  · exact fun h => Nat.lt_irrefl 0 (nested_closing.1 h).1
  · have hchars := reads_chars_append
      (u := "SELECT * FROM (SELECT 1) AS a, (SELECT 2) AS raw_model".toList) (by decide) .nil
    rw [List.append_nil, List.append_nil] at hchars
    rw [htext]
    exact hchars

end MetaQuery.Raw
