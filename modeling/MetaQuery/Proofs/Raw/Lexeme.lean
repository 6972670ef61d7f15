/-
  MetaQuery/Proofs/Raw/Lexeme.lean
  ================================
  Characters outside of quoted spans, and the spans.

  A lexical grammar says how each of its items is written and in front of which rest of a text it
  may stand.  Its laws are that a text starts with exactly one item, so every text is read in
  exactly one way (`Grammar.exists_reads`, `Grammar.Reads.unique`).

  The first such grammar is that of quotes: a text is a row of characters and spans, where a quote
  inside a span is written twice, and a span that is never closed takes the whole rest.  It is what
  the check of a text goes by: `bare?` fails just when a span stays open (`bare?_eq_none_iff`), and
  otherwise leaves the characters, with a blank for each span (`bare?_of_reads`).
-/
import MetaQuery.Proofs.Raw.Bare

namespace MetaQuery.Raw

open Text

/-! ### Lexical grammars -/

/-- How items are written, and in front of which rests they may stand. -/
structure Grammar (α : Type) where
  text : α → List Char
  fits : α → List Char → Prop
  text_ne_nil : ∀ {x rest}, fits x rest → text x ≠ []
  unique : ∀ {x y r s}, fits x r → fits y s → text x ++ r = text y ++ s → x = y
  total : ∀ {cs}, cs ≠ [] → ∃ x rest, cs = text x ++ rest ∧ fits x rest

namespace Grammar

/-- The text is read as these items, one behind the other. -/
def Reads {α : Type} (g : Grammar α) : List Char → List α → Prop
  | cs, [] => cs = []
  | cs, x :: xs => ∃ rest, cs = g.text x ++ rest ∧ g.fits x rest ∧ Reads g rest xs

variable {α : Type} {g : Grammar α} {cs rest : List Char} {x : α} {xs ys : List α}

theorem Reads.nil : g.Reads [] [] := rfl

theorem Reads.cons (hx : g.fits x rest) (h : g.Reads rest xs) :
    g.Reads (g.text x ++ rest) (x :: xs) :=
  ⟨rest, rfl, hx, h⟩

/-- What is read is written back as the text. -/
theorem Reads.flatMap_text (h : g.Reads cs xs) : xs.flatMap g.text = cs := by
  induction xs generalizing cs with
  | nil => exact h.symm
  | cons x xs ih =>
    obtain ⟨rest, rfl, -, hrest⟩ := h
    rw [List.flatMap_cons, ih hrest]

theorem Reads.unique (h : g.Reads cs xs) (h' : g.Reads cs ys) : xs = ys := by
  induction xs generalizing cs ys with
  | nil =>
    cases ys with
    | nil => rfl
    | cons y ys =>
      obtain ⟨rest, hcs, hy, -⟩ := h'
      have hnil : g.text y ++ rest = [] := hcs.symm.trans h
      exact absurd (List.append_eq_nil_iff.1 hnil).1 (g.text_ne_nil hy)
  | cons x xs ih =>
    obtain ⟨rest, rfl, hx, hrest⟩ := h
    cases ys with
    | nil => exact absurd (List.append_eq_nil_iff.1 h').1 (g.text_ne_nil hx)
    | cons y ys =>
      obtain ⟨rest', hcs, hy, hrest'⟩ := h'
      -- the first pieces agree because each is decided by what follows it
      obtain rfl := g.unique hx hy hcs
      obtain rfl := List.append_cancel_left hcs
      rw [ih hrest hrest']

variable (g) in
theorem exists_reads (cs : List Char) : ∃ xs, g.Reads cs xs := by
  induction hlength : cs.length using Nat.strongRecOn generalizing cs with
  | ind n ih =>
    by_cases hcs : cs = []
    · exact ⟨[], hcs⟩
    · obtain ⟨x, rest, rfl, hx⟩ := g.total hcs
      have hpos := List.length_pos_iff.2 (g.text_ne_nil hx)
      rw [List.length_append] at hlength
      obtain ⟨xs, hxs⟩ := ih rest.length (by omega) rest rfl
      exact ⟨x :: xs, .cons hx hxs⟩

end Grammar

/-! ### Spans -/

/-- The content of a span behind its opening quote, and what follows its closing quote; a quote
    written twice is one quote of the content. -/
def readSpan (q : Char) : List Char → List Char × Option (List Char)
  | [] => ([], none)
  | [c] => if c = q then ([], some []) else ([c], none)
  | c :: d :: r =>
    if c ≠ q then (c :: (readSpan q (d :: r)).1, (readSpan q (d :: r)).2)
    else if d = q then (q :: (readSpan q r).1, (readSpan q r).2)
    else ([], some (d :: r))

/-- A span is closed where its content ends, or takes the whole rest. -/
theorem readSpan_spec (q : Char) (cs : List Char) :
    match readSpan q cs with
    | (body, some rest) => cs = double q body ++ q :: rest ∧ rest.head? ≠ some q
    | (body, none) => cs = double q body := by
  fun_induction readSpan q cs with
  | case1 => rfl
  | case2 => simp
  | case3 c hc => simp [double, hc]
  | case4 c d r hc ih =>
    rcases hread : readSpan q (d :: r) with ⟨body, rest⟩
    rw [hread] at ih
    cases rest with
    | none => simpa [double, hc] using ih
    | some rest => simpa [double, hc] using ih
  -- two quotes in a row are one in the content
  | case5 c r hc ih =>
    obtain rfl : c = q := by simpa using hc
    rcases hread : readSpan c r with ⟨body, rest⟩
    rw [hread] at ih
    cases rest with
    | none => simpa [double] using ih
    | some rest => simpa [double] using ih
  | case6 c d r hc hd =>
    obtain rfl : c = q := by simpa using hc
    simpa using hd

theorem readSpan_cons_of_ne {q c : Char} (hc : c ≠ q) (r : List Char) :
    readSpan q (c :: r) = (c :: (readSpan q r).1, (readSpan q r).2) := by
  cases r with
  | nil => simp [readSpan, hc]
  | cons d r => rw [readSpan, if_pos hc]

theorem readSpan_double_append (q : Char) (body : List Char) {rest : List Char}
    (h : rest.head? ≠ some q) : readSpan q (double q body ++ q :: rest) = (body, some rest) := by
  induction body with
  | nil =>
    cases rest with
    | nil => simp [readSpan]
    | cons d rest =>
      have hd : d ≠ q := by simpa using h
      simp [readSpan, hd]
  | cons c body ih =>
    by_cases hc : c = q
    · simp [double, hc, readSpan, ih]
    · rw [double, if_neg hc, List.cons_append, readSpan_cons_of_ne hc, ih]

theorem readSpan_double (q : Char) (body : List Char) :
    readSpan q (double q body) = (body, none) := by
  induction body with
  | nil => rfl
  | cons c body ih =>
    by_cases hc : c = q
    · simp [double, hc, readSpan, ih]
    · rw [double, if_neg hc, readSpan_cons_of_ne hc, ih]

/-! ### Lexemes -/

/-- A character outside of quoted spans, or a span by its content. -/
inductive Lexeme where
  | char (c : Char)
  | span (q : Char) (body : List Char)
  /-- A span that is not closed. -/
  | opened (q : Char) (body : List Char)
deriving DecidableEq, Repr

namespace Lexeme

/-- What the lexeme is written as. -/
def text : Lexeme → List Char
  | .char c => [c]
  | .span q body => enclose q body
  | .opened q body => q :: double q body

/-- Where the lexeme may stand: a closed span ends at its last quote, so the rest does not go on
    with that quote; a span that is not closed has no rest. -/
def Fits : Lexeme → List Char → Prop
  | .char c, _ => isQuote c = false
  | .span q _, rest => isQuote q = true ∧ rest.head? ≠ some q
  | .opened q _, rest => isQuote q = true ∧ rest = []

/-- What the check of a text sees of the lexeme. -/
def bare : Lexeme → Char
  | .char c => c
  | _ => ' '

theorem text_ne_nil (l : Lexeme) : l.text ≠ [] := by
  cases l with
  | char c => exact List.cons_ne_nil c []
  | span q body => exact List.cons_ne_nil q _
  | opened q body => exact List.cons_ne_nil q _

theorem enclose_append (q : Char) (body r : List Char) :
    enclose q body ++ r = q :: (double q body ++ q :: r) := by
  simp [enclose]

/-- The lexeme that a text starts with. -/
def first : List Char → Option Lexeme
  | [] => none
  | c :: r =>
    if isQuote c then
      match readSpan c r with
      | (body, some _) => some (.span c body)
      | (body, none) => some (.opened c body)
    else some (.char c)

theorem first_of_fits {l : Lexeme} {rest : List Char} (h : l.Fits rest) :
    first (l.text ++ rest) = some l := by
  cases l with
  | char c =>
    have hc : isQuote c = false := h
    simp [text, first, hc]
  | span q body =>
    rw [text, enclose_append, first, if_pos h.1, readSpan_double_append q body h.2]
  | opened q body =>
    obtain ⟨hq, rfl⟩ := h
    rw [text, List.append_nil, first, if_pos hq, readSpan_double]

theorem exists_fits {cs : List Char} (h : cs ≠ []) :
    ∃ (l : Lexeme) (rest : List Char), cs = l.text ++ rest ∧ l.Fits rest := by
  cases cs with
  | nil => exact absurd rfl h
  | cons c r =>
    cases hc : isQuote c with
    | false => exact ⟨.char c, r, rfl, hc⟩
    | true =>
      -- a quote opens a span that is closed later or runs to the end
      have hspec := readSpan_spec c r
      rcases hread : readSpan c r with ⟨body, rest⟩
      rw [hread] at hspec
      cases rest with
      | none =>
        have hspec : r = double c body := hspec
        exact ⟨.opened c body, [], by rw [hspec, List.append_nil, text], hc, rfl⟩
      | some rest =>
        obtain ⟨rfl, hend⟩ := hspec
        exact ⟨.span c body, rest, (enclose_append c body rest).symm, hc, hend⟩

end Lexeme

/-- Texts read by their quotes. -/
def quoting : Grammar Lexeme where
  text := Lexeme.text
  fits := Lexeme.Fits
  text_ne_nil := fun {l _} _ => l.text_ne_nil
  unique := by
    intro x y r s hx hy h
    have hfirst := congrArg Lexeme.first h
    rw [Lexeme.first_of_fits hx, Lexeme.first_of_fits hy] at hfirst
    exact Option.some.inj hfirst
  total := Lexeme.exists_fits

section
variable {cs : List Char} {ls : List Lexeme} {c q : Char} {body : List Char}

theorem reads_char_iff : quoting.Reads cs (.char c :: ls) ↔
    ∃ rest, cs = c :: rest ∧ isQuote c = false ∧ quoting.Reads rest ls := Iff.rfl

theorem reads_span_iff : quoting.Reads cs (.span q body :: ls) ↔
    ∃ rest, cs = enclose q body ++ rest ∧ (isQuote q = true ∧ rest.head? ≠ some q) ∧
      quoting.Reads rest ls := Iff.rfl

/-- Nothing stands behind a span that is left open. -/
theorem reads_opened_iff : quoting.Reads cs (.opened q body :: ls) ↔
    cs = q :: double q body ∧ isQuote q = true ∧ ls = [] := by
  constructor
  · rintro ⟨rest, rfl, ⟨hq, rfl⟩, hrest⟩
    exact ⟨List.append_nil _, hq, hrest.unique .nil⟩
  · rintro ⟨rfl, hq, rfl⟩
    exact ⟨[], (List.append_nil _).symm, ⟨hq, rfl⟩, rfl⟩

/-- A text without quotes is read character by character. -/
theorem reads_chars_append {u : List Char} (hu : Unquoted u) (h : quoting.Reads cs ls) :
    quoting.Reads (u ++ cs) (u.map .char ++ ls) := by
  induction u with
  | nil => exact h
  | cons c u ih =>
    have hrest := ih fun x hx => hu x (List.mem_cons_of_mem c hx)
    exact reads_char_iff.2 ⟨u ++ cs, rfl, hu c List.mem_cons_self, hrest⟩

end

/-- The parentheses outside of spans are nested well, `k` of them being open in front. -/
def Nested : Nat → List Lexeme → Prop
  | k, [] => k = 0
  | k, .char c :: r =>
    if c = '(' then Nested (k + 1) r
    else if c = ')' then 0 < k ∧ Nested (k - 1) r
    else Nested k r
  | k, _ :: r => Nested k r

theorem nested_chars_append {u : List Char} (hu : '(' ∉ u ∧ ')' ∉ u) (k : Nat) (ls : List Lexeme) :
    Nested k (u.map .char ++ ls) ↔ Nested k ls := by
  induction u with
  | nil => rfl
  | cons c u ih =>
    simp only [List.mem_cons, not_or] at hu
    rw [List.map_cons, List.cons_append, Nested, if_neg (Ne.symm hu.1.1), if_neg (Ne.symm hu.2.1)]
    exact ih ⟨hu.1.2, hu.2.2⟩

/-! ### What the check sees -/

/-- No span of the lexemes is left open. -/
def AllClosed (ls : List Lexeme) : Prop := ∀ q body, .opened q body ∉ ls

theorem AllClosed.tail {l : Lexeme} {ls : List Lexeme} (h : AllClosed (l :: ls)) : AllClosed ls :=
  fun q body hmem => h q body (List.mem_cons_of_mem l hmem)

section
variable {l : Lexeme} {ls : List Lexeme} {cs rest : List Char}

theorem bare?_text_append (hfits : l.Fits rest) (hclosed : ∀ q body, l ≠ .opened q body) :
    bare? (l.text ++ rest) = (bare? rest).map (l.bare :: ·) := by
  cases l with
  | char c => exact bareFrom_cons_of_not_quote hfits rest
  | span q body => exact bareFrom_enclose hfits.1 body hfits.2
  | opened q body => exact absurd rfl (hclosed q body)

/-- The check leaves the characters outside of spans, and a blank for each span. -/
theorem bare?_of_reads (h : quoting.Reads cs ls) (hclosed : AllClosed ls) :
    bare? cs = some (ls.map Lexeme.bare) := by
  induction ls generalizing cs with
  | nil =>
    obtain rfl : cs = [] := h
    rfl
  | cons l ls ih =>
    obtain ⟨rest, rfl, hfits, hrest⟩ := h
    have hfirst : ∀ q body, l ≠ .opened q body := by
      rintro q body rfl
      exact hclosed q body List.mem_cons_self
    refine (bare?_text_append hfits hfirst).trans ?_
    rw [ih hrest hclosed.tail]
    rfl

end

/-! ### Open spans -/

/-- The text ends inside of a span of `q`. -/
def Opens (q : Char) (cs : List Char) : Prop :=
  ∃ ls body, quoting.Reads cs ls ∧ .opened q body ∈ ls

section
variable {l : Lexeme} {ls : List Lexeme} {cs rest : List Char} {q q' : Char}

theorem opens_iff_of_reads (h : quoting.Reads cs ls) :
    Opens q cs ↔ ∃ body, .opened q body ∈ ls := by
  constructor
  · rintro ⟨ls', body, h', hopen⟩
    rw [h'.unique h] at hopen
    exact ⟨body, hopen⟩
  · rintro ⟨body, hopen⟩
    exact ⟨ls, body, h, hopen⟩

theorem opens_opened_iff (hq : isQuote q = true) (body : List Char) :
    Opens q' (q :: double q body) ↔ q' = q := by
  have hread : quoting.Reads (q :: double q body) [.opened q body] :=
    reads_opened_iff.2 ⟨rfl, hq, rfl⟩
  rw [opens_iff_of_reads hread]
  simp

/-- A lexeme in front of some text opens nothing and closes nothing. -/
theorem opens_text_append_iff (hfits : l.Fits rest) (hrest : rest ≠ []) :
    Opens q (l.text ++ rest) ↔ Opens q rest := by
  obtain ⟨ls, hls⟩ := quoting.exists_reads rest
  have hread : quoting.Reads (l.text ++ rest) (l :: ls) := .cons hfits hls
  have hfirst : ∀ body, .opened q body ≠ l := by
    rintro body rfl
    exact hrest hfits.2
  simp only [opens_iff_of_reads hread, opens_iff_of_reads hls, List.mem_cons, hfirst, false_or]

/-- What holds of an open span, and is kept by what stands in front of it, holds of a text that
    ends inside of a span. -/
theorem Opens.induction (h : Opens q cs) {P : List Char → Prop}
    (hopened : ∀ body, isQuote q = true → P (q :: double q body))
    (hbehind : ∀ (l : Lexeme) (rest : List Char), l.Fits rest → rest ≠ [] → Opens q rest →
      P rest → P (l.text ++ rest)) : P cs := by
  obtain ⟨ls, body, hls, hopen⟩ := h
  induction ls generalizing cs with
  | nil => cases hopen
  | cons l ls ih =>
    rcases List.mem_cons.1 hopen with rfl | hopen
    · obtain ⟨rfl, hq, -⟩ := reads_opened_iff.1 hls
      exact hopened body hq
    · obtain ⟨rest, rfl, hfits, hrest⟩ := hls
      refine hbehind l rest hfits ?_ ⟨ls, body, hrest, hopen⟩ (ih hrest hopen)
      rintro rfl
      rw [hrest.unique .nil] at hopen
      cases hopen

/-- The check fails just on the texts that end inside of a span. -/
theorem bare?_eq_none_iff : bare? cs = none ↔ ∃ q, Opens q cs := by
  constructor
  · intro hnone
    -- every text has a reading; if none of its pieces is left open, the text is read to its end
    obtain ⟨ls, hls⟩ := quoting.exists_reads cs
    refine Classical.byContradiction fun hclosed => ?_
    have hread := bare?_of_reads hls fun q body hmem => hclosed ⟨q, ls, body, hls, hmem⟩
    rw [hnone] at hread
    cases hread
  · rintro ⟨q, h⟩
    refine h.induction (P := fun cs => bare? cs = none) (fun body hq => ?_)
      fun l rest hfits hrest _ ih => ?_
    · have hinside := bareFrom_some_double q body []
      rw [List.append_nil] at hinside
      rw [bare?, bareFrom_cons_of_quote hq, hinside]
      rfl
    · have hclosed : ∀ q body, l ≠ .opened q body := by
        rintro q body rfl
        exact hrest hfits.2
      rw [bare?_text_append hfits hclosed, ih]
      rfl

end

end MetaQuery.Raw
