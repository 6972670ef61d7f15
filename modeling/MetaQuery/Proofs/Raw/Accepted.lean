/-
  MetaQuery/Proofs/Raw/Accepted.lean
  ==================================
  What is known of a text that passes the check, stated on the text as it is written.

  The check trims the text, takes the spans out of it, puts the rest in upper case and cuts it into
  words.  Capitals of characters beyond ASCII may be letters of a keyword, or several letters, so
  the words of the upper case are not those of the text.  But an ASCII character that is no part of
  a word stays what it is, and a span becomes a blank: between two of these, the letters of a
  keyword are a word of their own.
-/
import MetaQuery.Proofs.Raw.Lexeme
import MetaQuery.Proofs.Raw.Renumbering

namespace MetaQuery.Raw

open Text

/-! ### Lexemes between which a word stands alone -/

/-- White space or a span. -/
def Lexeme.Idle : Lexeme → Prop
  | .char c => isBlank c = true
  | _ => True

/-- A span, or an ASCII character other than a letter, a digit and the underscore. -/
def Lexeme.Borders : Lexeme → Prop
  | .char c => c.toNat < 128 ∧ c.isAlphanum = false ∧ c ≠ '_'
  | _ => True

theorem isSeparator_bare {l : Lexeme} (h : l.Borders) : IsSeparator l.bare := by
  have hall : ∀ n ∈ List.range 128, isWordChar (Char.ofNat n) = false →
      IsSeparator (Char.ofNat n) := by decide +kernel
  cases l with
  | char c =>
    obtain ⟨hascii, hletter, hunderscore⟩ := h
    have hc := hall c.toNat (List.mem_range.2 hascii)
    rw [Char.ofNat_toNat] at hc
    exact hc (by simp [isWordChar, hletter, hunderscore])
  | span q body => exact isSeparator_of_isBlank (c := ' ') (by decide)
  | opened q body => exact isSeparator_of_isBlank (c := ' ') (by decide)

theorem tame_of_bordered {a w b : List Char} (h : Tame (a ++ w ++ b))
    (ha : ∀ c ∈ a.getLast?, IsSeparator c) (hb : ∀ c ∈ b.head?, IsSeparator c) : Tame w := by
  have hfront : Tame (w ++ b) := by
    rw [List.append_assoc] at h
    rcases List.eq_nil_or_concat a with rfl | ⟨a, c, rfl⟩
    · exact h
    · rw [List.concat_eq_append, List.append_assoc, List.singleton_append] at h
      exact ((tame_append_cons (ha c (by simp)) a _).1 h).2
  cases b with
  | nil => rwa [List.append_nil] at hfront
  | cons c b => exact ((tame_append_cons (hb c rfl) w b).1 hfront).1

/-! ### Keywords -/

theorem toNat_lt_of_toUpper {c : Char} (h : c.toUpper.toNat < 128) : c.toNat < 128 := by
  delta Char.toUpper at h
  split at h
  · next hlower =>
    have hle := UInt32.le_iff_toNat_le.1 hlower.2
    exact Nat.lt_of_le_of_lt hle (by decide)
  · exact h

/-- A keyword in any ASCII case is a word in upper case. -/
theorem not_tame_of_keyword {w : List Char} {k : String} (hk : k ∈ dangerousKeywords)
    (hw : w.map Char.toUpper = k.toList) : ¬ Tame w := by
  -- the keywords are words of ASCII letters, so upper-casing goes letter by letter
  have hletters : dangerousKeywords.all (fun k =>
      k.toList.all fun c => decide (c.toNat < 128) && isWordChar c) = true := by decide
  simp only [List.all_eq_true, Bool.and_eq_true, decide_eq_true_eq] at hletters
  have hupper : upperChars w = k.toList := by
    have hascii : ∀ c ∈ w, upperChar c = [c.toUpper] := by
      intro c hc
      have hmem : c.toUpper ∈ k.toList := hw ▸ List.mem_map_of_mem hc
      rw [upperChar, if_pos (toNat_lt_of_toUpper (hletters k hk _ hmem).1)]
    rw [upperChars, List.flatMap_congr hascii, ← hw, List.map_eq_flatMap]
  have hwords : upperWords w = [k] := by
    have hsplit := splitBy_append_word (p := fun c => !isWordChar c) (m := k.toList)
      (fun c hc => by simp [(hletters k hk c hc).2]) (a := []) rfl
    rw [List.append_nil] at hsplit
    simp [upperWords, hupper, hsplit]
  intro htame
  have hfree := htame k (by simp [hwords])
  simp [hk] at hfree

/-! ### Accepted texts -/

/-- What an accepted text shows outside of its spans. -/
structure HidesNothing (ls : List Lexeme) : Prop where
  closed : AllClosed ls
  semicolons : ls.count (.char ';') ≤ 1
  /-- Behind a semicolon stand only white space and spans. -/
  last : ∀ a b, ls = a ++ .char ';' :: b → ∀ l ∈ b, l.Idle
  /-- Between two borders, and where the text starts or ends, stands no keyword in any case. -/
  words : ∀ (a : List Lexeme) (w : List Char) (b : List Lexeme), ls = a ++ w.map .char ++ b →
    (∀ l ∈ a.getLast?, l.Borders) → (∀ l ∈ b.head?, l.Borders) →
    ∀ k ∈ dangerousKeywords, w.map Char.toUpper ≠ k.toList

section
variable {ls : List Lexeme} (h : Harmless (ls.map Lexeme.bare))
include h

/-- A semicolon is not blank, so none stands in front of another one. -/
theorem semicolon_alone_of_harmless {a b : List Lexeme} (hsplit : ls = a ++ .char ';' :: b) :
    .char ';' ∉ a ∧ ∀ l ∈ b, l.Idle := by
  have hlast := h.semicolon
  rw [hsplit, List.map_append, List.map_cons] at hlast
  have hvisible : ¬ AllBlank (';' :: b.map Lexeme.bare) := fun hblank =>
    absurd (hblank ';' List.mem_cons_self) (by decide)
  obtain ⟨hfront, hback⟩ := (semicolonLast_append hvisible _).1 hlast
  refine ⟨fun ha => hfront (List.mem_map_of_mem (f := Lexeme.bare) ha), fun l hl => ?_⟩
  have hblank : isBlank l.bare = true := hback l.bare (List.mem_map_of_mem hl)
  cases l with
  | char c => exact hblank
  | span q body => trivial
  | opened q body => trivial

theorem count_semicolon_of_harmless : ls.count (.char ';') ≤ 1 := by
  by_cases hmem : .char ';' ∈ ls
  · obtain ⟨a, b, hsplit⟩ := List.append_of_mem hmem
    obtain ⟨ha, hidle⟩ := semicolon_alone_of_harmless h hsplit
    -- a second semicolon behind the first would not be blank
    have hb : .char ';' ∉ b := by
      intro hb
      have hblank : isBlank ';' = true := hidle _ hb
      revert hblank
      decide
    have hbefore := List.count_eq_zero_of_not_mem ha
    have hbehind := List.count_eq_zero_of_not_mem hb
    simp only [hsplit, List.count_append, List.count_cons_self]
    omega
  · rw [List.count_eq_zero_of_not_mem hmem]
    exact Nat.zero_le 1

theorem no_keyword_of_harmless {a b : List Lexeme} {w : List Char}
    (hsplit : ls = a ++ w.map .char ++ b) (ha : ∀ l ∈ a.getLast?, l.Borders)
    (hb : ∀ l ∈ b.head?, l.Borders) {k : String} (hk : k ∈ dangerousKeywords) :
    w.map Char.toUpper ≠ k.toList := by
  intro hw
  have hseparates : ∀ {o : Option Lexeme}, (∀ l ∈ o, l.Borders) →
      ∀ c ∈ o.map Lexeme.bare, IsSeparator c := by
    intro o ho c hc
    obtain ⟨l, hl, rfl⟩ := Option.map_eq_some_iff.1 hc
    exact isSeparator_bare (ho l hl)
  have hchars : (w.map Lexeme.char).map Lexeme.bare = w := by
    rw [List.map_map]
    exact List.map_id w
  have htame := h.words
  rw [hsplit, List.map_append, List.map_append, hchars] at htame
  -- what borders the word in the text separates words there too, so the word is one of the check's
  refine not_tame_of_keyword hk hw (tame_of_bordered htame ?_ ?_)
  · rw [List.getLast?_map]
    exact hseparates ha
  · rw [List.head?_map]
    exact hseparates hb

end

/-- **An accepted text hides no semicolon and no keyword.**  Its spans are all closed, at most one
    semicolon stands outside of them, with only white space and spans behind it, and no dangerous
    keyword stands there as a word of its own, whatever the case of its letters is. -/
theorem accepted_hides_nothing {sql : String} (h : checkSafe sql = .ok ()) :
    ∃ ls, quoting.Reads sql.toList ls ∧ HidesNothing ls := by
  obtain ⟨x, hx, hharmless⟩ := (checkSafe_eq_ok_iff sql).1 h
  obtain ⟨ls, hls⟩ := quoting.exists_reads sql.toList
  have hclosed : AllClosed ls := by
    intro q body hopen
    rw [bare?_eq_none_iff.2 ⟨q, ls, body, hls, hopen⟩] at hx
    cases hx
  have hread : some (ls.map Lexeme.bare) = some x := (bare?_of_reads hls hclosed).symm.trans hx
  obtain rfl := Option.some.inj hread
  refine ⟨ls, hls, hclosed, count_semicolon_of_harmless hharmless, ?_, ?_⟩
  · exact fun a b hsplit => (semicolon_alone_of_harmless hharmless hsplit).2
  · exact fun a w b hsplit ha hb k hk => no_keyword_of_harmless hharmless hsplit ha hb hk

/-- Keywords in spans and as parts of words, and a semicolon with a blank behind it. -/
theorem notes_hide_nothing :
    checkSafe "SELECT 'drop it', \"grant\", dropped FROM notes; " = .ok () ∧
      ∃ ls, quoting.Reads "SELECT 'drop it', \"grant\", dropped FROM notes; ".toList ls ∧
        HidesNothing ls := by
  have hsafe : checkSafe "SELECT 'drop it', \"grant\", dropped FROM notes; " = .ok () := by
    decide +kernel
  exact ⟨hsafe, accepted_hides_nothing hsafe⟩

end MetaQuery.Raw
