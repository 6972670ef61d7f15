/-
  MetaQuery/Proofs/Chain/Formula.lean
  ===================================
  What a WHERE clause says, read off its words.

  A clause is a row of words: brackets, connectives and facts, which are its predicates by their
  positions.  `Formula` is its grammar.  A sum is made of terms joined by OR, a term of factors
  joined by AND, and a factor is a fact or a sum in brackets, so AND binds tighter than OR.

  The reader goes over the words once and keeps what it has not finished, one entry for each
  bracket that is open.  It reads back what a formula is written as, and accepts nothing else
  (`read?_eq_some_iff`), so a clause has one meaning at most.
-/
import Mathlib.Data.List.Basic

namespace MetaQuery

/-! ### Words and formulas -/

/-- What joins two predicates. -/
inductive Connective where
  | and
  | or
deriving DecidableEq, Repr

/-- A word of a clause. -/
inductive Word where
  | opening
  | closing
  | link (k : Connective)
  /-- The predicate at a position. -/
  | fact (i : Nat)
deriving DecidableEq, Repr

/-- The three kinds of formulas. -/
inductive Rank where
  | factor
  | term
  | sum
deriving DecidableEq, Repr

/-- The grammar of clauses. -/
inductive Formula : Rank → Type where
  | fact (i : Nat) : Formula .factor
  | group (s : Formula .sum) : Formula .factor
  | factor (f : Formula .factor) : Formula .term
  | and (t : Formula .term) (f : Formula .factor) : Formula .term
  | term (t : Formula .term) : Formula .sum
  | or (s : Formula .sum) (t : Formula .term) : Formula .sum
deriving DecidableEq, Repr

namespace Formula

/-- How a formula is written. -/
def words : {r : Rank} → Formula r → List Word
  | _, fact i => [.fact i]
  | _, group s => .opening :: (s.words ++ [.closing])
  | _, factor f => f.words
  | _, and t f => t.words ++ .link .and :: f.words
  | _, term t => t.words
  | _, or s t => s.words ++ .link .or :: t.words

/-- The truth of a formula, given that of its facts. -/
def holds (v : Nat → Bool) : {r : Rank} → Formula r → Bool
  | _, fact i => v i
  | _, group s => s.holds v
  | _, factor f => f.holds v
  | _, and t f => t.holds v && f.holds v
  | _, term t => t.holds v
  | _, or s t => s.holds v || t.holds v

/-! ### The reader -/

/-- A term with one more factor. -/
def extend (t? : Option (Formula .term)) (f : Formula .factor) : Formula .term :=
  match t? with
  | none => factor f
  | some t => and t f

/-- A sum with one more term. -/
def close (s? : Option (Formula .sum)) (t : Formula .term) : Formula .sum :=
  match s? with
  | none => term t
  | some s => or s t

/-- What has been read inside of a bracket before a factor that is still to come: the sum in front
    of an OR, and the term in front of an AND. -/
structure Pending where
  sum : Option (Formula .sum) := none
  term : Option (Formula .term) := none
deriving DecidableEq, Repr

/-- Where the reader stands; `outer` are the brackets around that place, innermost first. -/
inductive Cursor where
  /-- In front of a factor. -/
  | before (here : Pending) (outer : List Pending)
  /-- Behind a factor. -/
  | behind (sum : Option (Formula .sum)) (term : Formula .term) (outer : List Pending)
deriving DecidableEq, Repr

/-- The reader behind one more factor. -/
def Pending.take (p : Pending) (f : Formula .factor) (outer : List Pending) : Cursor :=
  .behind p.sum (extend p.term f) outer

/-- One word read. -/
def step : Cursor → Word → Option Cursor
  | .before here outer, .fact i => some (here.take (fact i) outer)
  | .before here outer, .opening => some (.before {} (here :: outer))
  | .behind s t outer, .link .and => some (.before ⟨s, some t⟩ outer)
  | .behind s t outer, .link .or => some (.before ⟨some (close s t), none⟩ outer)
  | .behind s t (here :: outer), .closing => some (here.take (group (close s t)) outer)
  | _, _ => none

/-- The formula that ends where the reader stands, when no bracket is open. -/
def result? : Cursor → Option (Formula .sum)
  | .behind s t [] => some (close s t)
  | _ => none

/-- The formula that is written with some words. -/
def read? (ws : List Word) : Option (Formula .sum) :=
  (ws.foldlM step (.before {} [])).bind result?

/-! ### Reading what is written -/

/-- A formula is read off its words, whatever stands in front of them: a factor is taken up by
    what is pending there, a term where no other one is pending, a sum behind a bracket. -/
def ReadBack : {r : Rank} → Formula r → Prop
  | .factor, f => ∀ here outer, f.words.foldlM step (.before here outer) = some (here.take f outer)
  | .term, t => ∀ s outer, t.words.foldlM step (.before ⟨s, none⟩ outer) = some (.behind s t outer)
  | .sum, s => ∀ outer, ∃ s' t, close s' t = s ∧
      s.words.foldlM step (.before {} outer) = some (.behind s' t outer)

theorem readBack {r : Rank} (e : Formula r) : e.ReadBack := by
  induction e with
  | fact i =>
    intro here outer
    rfl
  | group s ih =>
    intro here outer
    -- inside the bracket nothing is pending yet; `here` waits among the outer ones
    obtain ⟨s', t, rfl, hs⟩ := ih (here :: outer)
    rw [words, List.foldlM_cons]
    change (_ ++ [Word.closing]).foldlM step (.before {} (here :: outer)) = _
    rw [List.foldlM_append, hs]
    rfl
  | factor f ih =>
    intro s outer
    exact ih ⟨s, none⟩ outer
  | and t f iht ihf =>
    intro s outer
    rw [words, List.foldlM_append, iht s outer]
    exact ihf ⟨s, some t⟩ outer
  | term t ih =>
    intro outer
    exact ⟨none, t, rfl, ih none outer⟩
  | or s t ihs iht =>
    intro outer
    obtain ⟨s', t', rfl, hs⟩ := ihs outer
    refine ⟨some (close s' t'), t, rfl, ?_⟩
    rw [words, List.foldlM_append, hs]
    exact iht (some (close s' t')) outer

theorem foldlM_words_factor (f : Formula .factor) (here : Pending) (outer : List Pending) :
    f.words.foldlM step (.before here outer) = some (here.take f outer) := f.readBack here outer

theorem read?_words (s : Formula .sum) : read? s.words = some s := by
  obtain ⟨s', t, rfl, hs⟩ := s.readBack []
  rw [read?, hs]
  rfl

/-! ### Writing what was read -/

/-- The words in front of a factor to come. -/
def Pending.words (p : Pending) : List Word :=
  (p.sum.elim [] fun s => s.words ++ [.link .or]) ++
    p.term.elim [] fun t => t.words ++ [.link .and]

/-- The words up to the innermost open bracket. -/
def outerWords : List Pending → List Word
  | [] => []
  | p :: outer => outerWords outer ++ p.words ++ [.opening]

/-- The words that have been read. -/
def Cursor.words : Cursor → List Word
  | .before here outer => outerWords outer ++ here.words
  | .behind s t outer => outerWords outer ++ (close s t).words

theorem words_extend (t? : Option (Formula .term)) (f : Formula .factor) :
    (extend t? f).words = (t?.elim [] fun t => t.words ++ [.link .and]) ++ f.words := by
  cases t? with
  | none => rfl
  | some t => simp [extend, words]

theorem words_close (s? : Option (Formula .sum)) (t : Formula .term) :
    (close s? t).words = (s?.elim [] fun s => s.words ++ [.link .or]) ++ t.words := by
  cases s? with
  | none => rfl
  | some s => simp [close, words]

theorem words_take (p : Pending) (f : Formula .factor) (outer : List Pending) :
    (p.take f outer).words = outerWords outer ++ p.words ++ f.words := by
  simp [Pending.take, Cursor.words, Pending.words, words_close, words_extend]

/-- A word read is one more word of what has been read. -/
theorem words_step {c d : Cursor} {w : Word} (h : step c w = some d) :
    d.words = c.words ++ [w] := by
  unfold step at h
  split at h
  · obtain rfl := Option.some.inj h
    rw [words_take]
    rfl
  · obtain rfl := Option.some.inj h
    simp [Cursor.words, Pending.words, outerWords]
  · obtain rfl := Option.some.inj h
    simp [Cursor.words, Pending.words, words_close]
  · obtain rfl := Option.some.inj h
    simp [Cursor.words, Pending.words]
  · obtain rfl := Option.some.inj h
    rw [words_take]
    simp [Cursor.words, words, outerWords]
  · cases h

theorem words_foldlM {ws : List Word} {c d : Cursor} (h : ws.foldlM step c = some d) :
    d.words = c.words ++ ws := by
  induction ws generalizing c with
  | nil =>
    obtain rfl := Option.some.inj h
    simp
  | cons w ws ih =>
    rw [List.foldlM_cons] at h
    obtain ⟨b, hb, hd⟩ := Option.bind_eq_some_iff.1 h
    rw [ih hd, words_step hb, List.append_assoc, List.singleton_append]

theorem words_of_read? {ws : List Word} {s : Formula .sum} (h : read? ws = some s) :
    s.words = ws := by
  obtain ⟨c, hc, hs⟩ := Option.bind_eq_some_iff.1 h
  unfold result? at hs
  split at hs
  · obtain rfl := Option.some.inj hs
    simpa [Cursor.words, outerWords, Pending.words] using words_foldlM hc
  · cases hs

/-- What is read is what was written. -/
theorem read?_eq_some_iff {ws : List Word} {s : Formula .sum} :
    read? ws = some s ↔ s.words = ws := by
  constructor
  · exact words_of_read?
  · rintro rfl
    exact read?_words s

end Formula

/-! ### The truth of a clause -/

/-- The truth of a clause, given that of its predicates; nothing when its words make no formula.
    No clause restricts nothing. -/
def truth? (v : Nat → Bool) (ws : List Word) : Option Bool :=
  if ws.isEmpty then some true else (Formula.read? ws).map (·.holds v)

/-- AND binds tighter than OR on either side of it. -/
example (v : Nat → Bool) :
    truth? v [.fact 0, .link .or, .fact 1, .link .and, .fact 2, .link .or, .fact 3] =
      some ((v 0 || (v 1 && v 2)) || v 3) := rfl

theorem truth?_words (v : Nat → Bool) (s : Formula .sum) :
    truth? v s.words = some (s.holds v) := by
  cases hws : s.words with
  | nil =>
    have hread := s.read?_words
    rw [hws] at hread
    cases hread
  | cons w ws =>
    rw [truth?, ← hws, s.read?_words, hws]
    rfl

end MetaQuery
