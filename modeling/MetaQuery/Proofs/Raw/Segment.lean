/-
  MetaQuery/Proofs/Raw/Segment.lean
  =================================
  Where a text has parameters.

  Outside of spans, two colons are a cast, and a colon with a name behind it may be a parameter; the
  name is as long as it can be.  Read in this way (`segmenting`), a text is changed segment by
  segment: a known name becomes one argument together with its colon, a literal with known names
  becomes a concatenation, and everything else stays as it is written (`known_names_replaced`).

  Parameters are found by a reader of its own, for which a quoted identifier ends at its first
  quote.  An identifier with a doubled quote is then two of them, side by side, and since both are
  kept, that makes no difference.
-/
import MetaQuery.Proofs.Raw.Literal
import MetaQuery.Proofs.Raw.Woven

namespace MetaQuery.Raw

open Text

/-! ### Segments -/

/-- A lexeme, a cast, or a name behind a colon. -/
inductive Segment where
  | lexeme (l : Lexeme)
  | cast
  | name (n : List Char)
deriving DecidableEq, Repr

namespace Segment

/-- The lexemes that make the segment. -/
def lexemes : Segment → List Lexeme
  | .lexeme l => [l]
  | .cast => [.char ':', .char ':']
  | .name n => .char ':' :: n.map .char

/-- What the segment is written as. -/
def text (s : Segment) : List Char := s.lexemes.flatMap Lexeme.text

/-- Where the segment may stand: a colon for itself has neither another one nor a name behind it,
    and a name is as long as it can be. -/
def Fits : Segment → List Char → Prop
  | .lexeme l, rest => l.Fits rest ∧
      (l = .char ':' → ∀ c ∈ rest.head?, c ≠ ':' ∧ isNameStart c = false)
  | .cast, _ => True
  | .name n, rest => IsName n ∧ EndsName rest

@[simp] theorem text_lexeme (l : Lexeme) : (lexeme l).text = l.text := List.flatMap_singleton _ _

@[simp] theorem text_cast : cast.text = [':', ':'] := rfl

@[simp] theorem text_name (n : List Char) : (name n).text = ':' :: n :=
  congrArg (':' :: ·) (flatMap_text_chars n)

theorem text_ne_nil (s : Segment) : s.text ≠ [] := by
  cases s with
  | lexeme l => rw [text_lexeme]; exact l.text_ne_nil
  | cast => exact List.cons_ne_nil _ _
  | name n => rw [text_name]; exact List.cons_ne_nil _ _

/-- The segment that a text starts with. -/
def first : List Char → Option Segment
  | [] => none
  | c :: r =>
    if c = ':' then
      if r.head? = some ':' then some .cast
      else if (takeName r).1 = [] then some (.lexeme (.char ':'))
      else some (.name (takeName r).1)
    else (Lexeme.first (c :: r)).map .lexeme

theorem takeName_eq_nil {r : List Char} (h : ∀ c ∈ r.head?, isNameStart c = false) :
    (takeName r).1 = [] := by
  cases r with
  | nil => rfl
  | cons c r =>
    have hc : isNameStart c = false := h c rfl
    simp [takeName, hc]

/-- Only a colon is written with a colon at its start. -/
theorem exists_text_eq_cons {l : Lexeme} {rest : List Char} (h : l.Fits rest)
    (hl : l ≠ .char ':') : ∃ c r, l.text = c :: r ∧ c ≠ ':' := by
  have hquote : ∀ q, isQuote q = true → q ≠ ':' := by
    rintro q hq rfl
    cases hq
  cases l with
  | char c => exact ⟨c, [], rfl, fun hc => hl (congrArg Lexeme.char hc)⟩
  | span q body => exact ⟨q, _, rfl, hquote q h.1⟩
  | opened q body => exact ⟨q, _, rfl, hquote q h.1⟩

theorem first_of_fits {s : Segment} {rest : List Char} (h : s.Fits rest) :
    first (s.text ++ rest) = some s := by
  cases s with
  | lexeme l =>
    rw [text_lexeme]
    -- a colon stands for itself only if it starts neither a cast nor a name
    by_cases hl : l = .char ':'
    · obtain rfl := hl
      have hrest := h.2 rfl
      have hcast : rest.head? ≠ some ':' := fun hhead => (hrest ':' hhead).1 rfl
      have hname := takeName_eq_nil fun c hc => (hrest c hc).2
      simp [Lexeme.text, first, hcast, hname]
    · obtain ⟨c, r, htext, hc⟩ := exists_text_eq_cons h.1 hl
      have hfirst := Lexeme.first_of_fits h.1
      rw [htext, List.cons_append] at hfirst ⊢
      rw [first, if_neg hc, hfirst]
      rfl
  | cast => simp [first]
  | name n =>
    obtain ⟨hn, hrest⟩ := h
    have hcast : (n ++ rest).head? ≠ some ':' := by
      rw [List.head?_append_of_ne_nil _ hn.ne_nil]
      intro hhead
      exact absurd (hn.rest ':' (List.mem_of_mem_head? hhead)) (by decide)
    rw [text_name, List.cons_append, first, if_pos rfl, if_neg hcast, takeName_append_eq hn hrest,
      if_neg hn.ne_nil]

theorem exists_fits {cs : List Char} (h : cs ≠ []) :
    ∃ (s : Segment) (rest : List Char), cs = s.text ++ rest ∧ s.Fits rest := by
  obtain ⟨l, rest, rfl, hl⟩ := Lexeme.exists_fits h
  -- only a colon can begin something longer than a lexeme: a cast or a name
  by_cases hcolon : l = .char ':'
  · obtain rfl := hcolon
    by_cases hcast : rest.head? = some ':'
    · obtain ⟨r, rfl⟩ := List.head?_eq_some_iff.1 hcast
      exact ⟨.cast, r, rfl, trivial⟩
    · by_cases hname : (takeName rest).1 = []
      · refine ⟨.lexeme (.char ':'), rest, by rw [text_lexeme], hl, fun _ c hc => ⟨?_, ?_⟩⟩
        · rintro rfl
          exact hcast hc
        · cases rest with
          | nil => cases hc
          | cons d r =>
            obtain rfl : d = c := Option.some.inj hc
            cases hd : isNameStart d with
            | false => rfl
            | true => simp [takeName, hd] at hname
      · refine ⟨.name (takeName rest).1, (takeName rest).2, ?_, isName_takeName hname⟩
        rw [text_name, List.cons_append, takeName_append]
        rfl
  · exact ⟨.lexeme l, rest, by rw [text_lexeme], hl, fun hl => absurd hl hcolon⟩

end Segment

/-- Texts read by their quotes and colons. -/
def segmenting : Grammar Segment where
  text := Segment.text
  fits := Segment.Fits
  text_ne_nil := fun {s _} _ => s.text_ne_nil
  unique := by
    intro x y r s hx hy h
    have hfirst := congrArg Segment.first h
    rw [Segment.first_of_fits hx, Segment.first_of_fits hy] at hfirst
    exact Option.some.inj hfirst
  total := Segment.exists_fits

section
variable {sql : List Char} {ss : List Segment}

theorem unquoted_name {n : List Char} (h : IsName n) : Unquoted (':' :: n) := by
  have hquotes : ∀ q ∈ quoteCodes, isNameRest (Char.ofNat q) = false := by decide
  intro c hc
  rcases List.mem_cons.1 hc with rfl | hc
  · decide
  · rw [isQuote_eq_false_iff]
    intro hcode
    have hrest := hquotes c.toNat hcode
    rw [Char.ofNat_toNat, h.rest c hc] at hrest
    cases hrest

/-- Reading colons leaves the reading by quotes as it is. -/
theorem quoting_of_segmenting (h : segmenting.Reads sql ss) :
    quoting.Reads sql (ss.flatMap Segment.lexemes) := by
  induction ss generalizing sql with
  | nil => exact h
  | cons s ss ih =>
    obtain ⟨rest, rfl, hs, hrest⟩ := h
    have hlexemes := ih hrest
    cases s with
    | lexeme l =>
      rw [show segmenting.text (.lexeme l) = l.text from Segment.text_lexeme l]
      exact .cons hs.1 hlexemes
    | cast =>
      exact reads_chars_append (u := [':', ':']) (by decide) hlexemes
    | name n =>
      rw [show segmenting.text (.name n) = ':' :: n from Segment.text_name n]
      exact reads_chars_append (unquoted_name hs.1) hlexemes

end

/-! ### The reader of parameters -/

theorem tokens_plain {c : Char} (hquote : isQuote c = false) (hcolon : c ≠ ':') (r : List Char) :
    tokens (c :: r) = .plain c :: tokens r := by
  simp only [isQuote, Bool.or_eq_false_iff, beq_eq_false_iff_ne] at hquote
  simp only [tokens.eq_def (c :: r), hquote, hcolon, or_false, if_false]

theorem tokens_cast (r : List Char) : tokens (':' :: ':' :: r) = .cast :: tokens r := by
  rw [tokens]
  rfl

theorem tokens_colon {r : List Char} (h : r.head? ≠ some ':') : tokens (':' :: r) =
    if (takeName r).1 = [] then .plain ':' :: tokens r
    else .name (takeName r).1 :: tokens (takeName r).2 := by
  rw [tokens]
  · simp
  · rintro r' rfl
    exact h rfl

theorem IsName.head?_append_ne {n : List Char} (hn : IsName n) (rest : List Char) :
    (n ++ rest).head? ≠ some ':' := by
  rw [List.head?_append_of_ne_nil _ hn.ne_nil]
  intro hhead
  exact absurd (hn.rest ':' (List.mem_of_mem_head? hhead)) (by decide)

theorem tokens_name_append {n rest : List Char} (hn : IsName n) (hrest : EndsName rest) :
    tokens (':' :: (n ++ rest)) = .name n :: tokens rest := by
  rw [tokens_colon (hn.head?_append_ne rest), takeName_append_eq hn hrest, if_neg hn.ne_nil]

theorem tokens_identifier {q : Char} (hq : isQuote q = true) (hne : q ≠ '\'') (r : List Char) :
    tokens (q :: r) = .quoted q (readQuoted q r).1 :: tokens (readQuoted q r).2 := by
  have hquote : q = '"' ∨ q = '\x60' := by simpa [isQuote, hne] using hq
  simp only [tokens.eq_def (q :: r), hne, hquote, if_false, if_true]

section
variable (params : Params) (d : Dialect)

/-- What a token adds to a fragment. -/
def tokenItems (t : Token) : List Item := (putToken params d .empty t).items

/-- What the tokens of a text add to a fragment. -/
def textItems (cs : List Char) : List Item := (tokens cs).flatMap (tokenItems params d)

variable {params d}

theorem textItems_nil : textItems params d [] = [] := by
  rw [textItems, tokens]
  rfl

theorem textItems_of_tokens {cs rest : List Char} {t : Token} (h : tokens cs = t :: tokens rest) :
    textItems params d cs = tokenItems params d t ++ textItems params d rest := by
  rw [textItems, h]
  rfl

theorem items_putToken (f : Fragment) (t : Token) :
    (putToken params d f t).items = f.items ++ tokenItems params d t := by
  cases t with
  | plain c => simp [tokenItems, putToken]
  | literal content closed => exact items_putLiteral_eq_append params d f content
  | quoted q rest => simp [tokenItems, putToken]
  | cast => simp [tokenItems, putToken]
  | name n =>
    rw [tokenItems, putToken, putToken]
    cases Json.lookup (String.ofList n) params with
    | none => simp
    | some v => simp

theorem items_substitute (params : Params) (d : Dialect) (sql : List Char) :
    (substitute params d sql).items = textItems params d sql := by
  have hfold : ∀ (ts : List Token) (f : Fragment), (ts.foldl (putToken params d) f).items =
      f.items ++ ts.flatMap (tokenItems params d) := by
    intro ts
    induction ts with
    | nil => exact fun f => (List.append_nil _).symm
    | cons t ts ih =>
      intro f
      rw [List.foldl_cons, ih, items_putToken, List.flatMap_cons, List.append_assoc]
  exact hfold (tokens sql) .empty

theorem isNormal_putLiteral {f : Fragment} (h : f.IsNormal) (content : List Char) :
    (putLiteral params d f content).IsNormal := by
  have hpart : ∀ {f : Fragment} (p : LiteralPart), f.IsNormal → (putLiteralPart f p).IsNormal := by
    intro f p hf
    cases p with
    | text cs => exact hf.putText _
    | arg v => exact hf.putArg v
  -- the parts are put one behind another, with a separator between two of them
  have hparts : ∀ (parts : List LiteralPart) {f : Fragment}, f.IsNormal →
      (putLiteralParts d f parts).IsNormal := by
    intro parts
    induction parts with
    | nil => exact fun hf => hf
    | cons p parts ih =>
      intro f hf
      cases parts with
      | nil => exact hpart p hf
      | cons p' parts => exact ih ((hpart p hf).putText _)
  rw [putLiteral]
  split
  · exact (hparts _ (h.putText _)).putText _
  · exact h.putText _

theorem isNormal_putToken {f : Fragment} (h : f.IsNormal) (t : Token) :
    (putToken params d f t).IsNormal := by
  cases t with
  | plain c => exact h.putText _
  | literal content closed => exact isNormal_putLiteral h content
  | quoted q rest => exact h.putText _
  | cast => exact h.putText _
  | name n =>
    rw [putToken]
    split
    · exact h.putArg _
    · exact h.putText _

/-- Bound parameters leave a fragment in normal form. -/
theorem isNormal_substitute (sql : List Char) : (substitute params d sql).IsNormal :=
  List.foldlRecOn (tokens sql) (putToken params d) Fragment.isNormal_empty
    fun _ hf t _ => isNormal_putToken hf t

end

/-! ### Kept texts -/

section
variable (params : Params) (d : Dialect)

theorem textItems_plain {c : Char} (hquote : isQuote c = false) (hcolon : c ≠ ':')
    (r : List Char) : textItems params d (c :: r) = .char c :: textItems params d r := by
  rw [textItems_of_tokens (tokens_plain hquote hcolon r)]
  simp [tokenItems, putToken]

theorem textItems_colon {r : List Char} (h : ∀ c ∈ r.head?, c ≠ ':' ∧ isNameStart c = false) :
    textItems params d (':' :: r) = .char ':' :: textItems params d r := by
  have hcast : r.head? ≠ some ':' := fun hhead => (h ':' hhead).1 rfl
  have hfirst := tokens_colon hcast
  rw [if_pos (Segment.takeName_eq_nil fun c hc => (h c hc).2)] at hfirst
  rw [textItems_of_tokens hfirst]
  simp [tokenItems, putToken]

theorem textItems_cast (r : List Char) :
    textItems params d (':' :: ':' :: r) = .char ':' :: .char ':' :: textItems params d r := by
  rw [textItems_of_tokens (tokens_cast r)]
  simp [tokenItems, putToken]

theorem textItems_quoteLiteral_append (c : List Char) {rest : List Char}
    (h : rest.head? ≠ some '\'') : textItems params d (quoteLiteral c ++ rest) =
      (putLiteral params d .empty c).items ++ textItems params d rest :=
  textItems_of_tokens (tokens_quoteLiteral_append c h)

/-- The items of a text that starts inside of an identifier. -/
def identifierItems (params : Params) (d : Dialect) (q : Char) (cs : List Char) : List Item :=
  (readQuoted q cs).1.map .char ++ textItems params d (readQuoted q cs).2

theorem textItems_identifier {q : Char} (hq : isQuote q = true) (hne : q ≠ '\'')
    (r : List Char) :
    textItems params d (q :: r) = .char q :: identifierItems params d q r := by
  rw [textItems_of_tokens (tokens_identifier hq hne r), identifierItems]
  simp [tokenItems, putToken]

/-- An identifier is kept, whether the reader takes its doubled quotes for one identifier or for
    two. -/
theorem identifierItems_double_append {q : Char} (hq : isQuote q = true) (hne : q ≠ '\'')
    (body tail : List Char) : identifierItems params d q (double q body ++ tail) =
      (double q body).map .char ++ identifierItems params d q tail := by
  induction body with
  | nil => rfl
  | cons c body ih =>
    by_cases hc : c = q
    -- the reader sees a quote written twice as a span closed and opened again
    · have hreopened := textItems_identifier params d hq hne (double q body ++ tail)
      rw [ih] at hreopened
      rw [double, if_pos hc]
      simp only [List.cons_append, identifierItems, readQuoted, if_true]
      rw [hreopened]
      rfl
    · rw [double, if_neg hc]
      simp only [List.cons_append, identifierItems, readQuoted, if_neg hc]
      exact congrArg (Item.char c :: ·) ih

theorem textItems_span_append {q : Char} (hq : isQuote q = true) (hne : q ≠ '\'')
    (body rest : List Char) : textItems params d (enclose q body ++ rest) =
      (enclose q body).map .char ++ textItems params d rest := by
  rw [Lexeme.enclose_append, textItems_identifier params d hq hne,
    identifierItems_double_append params d hq hne]
  simp [identifierItems, readQuoted, enclose]

theorem textItems_opened {q : Char} (hq : isQuote q = true) (hne : q ≠ '\'') (body : List Char) :
    textItems params d (q :: double q body) = (q :: double q body).map .char := by
  have hinside := identifierItems_double_append params d hq hne body []
  rw [List.append_nil] at hinside
  rw [textItems_identifier params d hq hne, hinside]
  simp [identifierItems, readQuoted, textItems_nil]

theorem textItems_literal_append {params : Params} {c : List Char}
    (hnames : knownNames params c = []) {rest : List Char} (h : rest.head? ≠ some '\'') :
    textItems params d (quoteLiteral c ++ rest) =
      (quoteLiteral c).map .char ++ textItems params d rest := by
  obtain ⟨ws, hws⟩ := (splitting params).exists_reads c
  rw [textItems_quoteLiteral_append params d c h, (items_putLiteral hws d .empty).1 hnames,
    Fragment.items_putText, Fragment.items_empty, String.toList_ofList, List.nil_append]

end

/-! ### What becomes of a segment -/

/-- The known names that the segment is, or that are in it if it is a literal. -/
def Segment.knownNames (params : Params) : Segment → List (List Char)
  | .lexeme (.span q c) => if q = '\'' then Raw.knownNames params c else []
  | .name n => if (Json.lookup (String.ofList n) params).isSome then [n] else []
  | _ => []

/-- What a segment becomes: a known name is one argument, a literal with known names is a
    concatenation, and everything else is kept. -/
inductive Replaced (params : Params) (d : Dialect) : Segment → List Mark → Prop where
  | kept {s : Segment} (h : s.knownNames params = []) :
      Replaced params d s (s.lexemes.map .lexeme)
  | argument {n : List Char} {v : Json} (h : Json.lookup (String.ofList n) params = some v) :
      Replaced params d (.name n) [.arg (Cell.ofJson v)]
  | concatenation {c : List Char} {ws : List LiteralWord} (h : knownNames params c ≠ [])
      (hws : (splitting params).Reads c ws) :
      Replaced params d (.lexeme (.span '\'' c)) (concatenation params d ws)

section
variable {params : Params} {d : Dialect} {s : Segment} {ms : List Mark}

theorem exists_replaced (params : Params) (d : Dialect) (s : Segment) :
    ∃ ms, Replaced params d s ms := by
  -- known names stand in a name of its own or inside a literal
  by_cases hnames : s.knownNames params = []
  · exact ⟨_, .kept hnames⟩
  · cases s with
    | cast => exact absurd rfl hnames
    | name n =>
      cases hvalue : Json.lookup (String.ofList n) params with
      | none => exact absurd (by simp [Segment.knownNames, hvalue]) hnames
      | some v => exact ⟨_, .argument hvalue⟩
    | lexeme l =>
      cases l with
      | char c => exact absurd rfl hnames
      | opened q body => exact absurd rfl hnames
      | span q c =>
        rw [Segment.knownNames] at hnames
        split at hnames
        · next hq =>
          obtain rfl := hq
          obtain ⟨ws, hws⟩ := (splitting params).exists_reads c
          exact ⟨_, .concatenation hnames hws⟩
        · exact absurd rfl hnames

/-- The arguments of a segment are the values of its known names. -/
theorem Replaced.filterMap_arg? (h : Replaced params d s ms) :
    ms.filterMap Mark.arg? = (s.knownNames params).map (valueOf params) := by
  cases h with
  | kept hnames =>
    rw [hnames, List.filterMap_map]
    exact List.filterMap_eq_nil_iff.2 fun _ _ => rfl
  | argument hvalue => simp [Mark.arg?, Segment.knownNames, valueOf, hvalue]
  | concatenation hnames hws =>
    rw [filterMap_arg?_concatenation, filterMap_name?_of_reads hws]
    rfl

theorem flatMap_items_lexemes (s : Segment) :
    (s.lexemes.map Mark.lexeme).flatMap Mark.items = s.text.map .char := by
  rw [Segment.text, List.map_flatMap, List.flatMap_map]
  rfl

theorem textItems_kept (hnames : s.knownNames params = []) {rest : List Char}
    (hfits : s.Fits rest) (hclosed : ∀ body, s ≠ .lexeme (.opened '\'' body)) :
    textItems params d (s.text ++ rest) = s.text.map .char ++ textItems params d rest := by
  cases s with
  | cast => exact textItems_cast params d rest
  | name n =>
    have hvalue : Json.lookup (String.ofList n) params = none := by
      simpa [Segment.knownNames] using hnames
    rw [Segment.text_name, List.cons_append,
      textItems_of_tokens (tokens_name_append hfits.1 hfits.2), tokenItems, putToken, hvalue]
    simp
  | lexeme l =>
    rw [Segment.text_lexeme]
    cases l with
    | char c =>
      by_cases hc : c = ':'
      · obtain rfl := hc
        exact textItems_colon params d (hfits.2 rfl)
      · exact textItems_plain params d hfits.1 hc rest
    | span q c =>
      obtain ⟨hq, hend⟩ := hfits.1
      by_cases hliteral : q = '\''
      · obtain rfl := hliteral
        exact textItems_literal_append d hnames hend
      · exact textItems_span_append params d hq hliteral c rest
    | opened q body =>
      obtain ⟨hq, rfl⟩ := hfits.1
      -- a literal left open would be closed, which is no keeping
      have hliteral : q ≠ '\'' := by
        rintro rfl
        exact hclosed body rfl
      rw [textItems_nil, List.append_nil, List.append_nil]
      exact textItems_opened params d hq hliteral body

/-- A segment in front of a text adds what it becomes. -/
theorem Replaced.textItems_append (h : Replaced params d s ms) {rest : List Char}
    (hfits : s.Fits rest) (hclosed : ∀ body, s ≠ .lexeme (.opened '\'' body)) :
    textItems params d (s.text ++ rest) = ms.flatMap Mark.items ++ textItems params d rest := by
  cases h with
  | kept hnames => rw [flatMap_items_lexemes, textItems_kept hnames hfits hclosed]
  | argument hvalue =>
    rw [Segment.text_name, List.cons_append,
      textItems_of_tokens (tokens_name_append hfits.1 hfits.2), tokenItems, putToken, hvalue]
    simp [Mark.items]
  | concatenation hnames hws =>
    have hput := (items_putLiteral hws d .empty).2 hnames
    rw [Fragment.items_empty, List.nil_append] at hput
    rw [Segment.text_lexeme, ← hput]
    exact textItems_quoteLiteral_append params d _ hfits.1.2

/-! ### Texts with parameters -/

variable {sql : List Char} {ss : List Segment}

theorem opened_mem_lexemes_iff {q : Char} {body : List Char} :
    .opened q body ∈ s.lexemes ↔ s = .lexeme (.opened q body) := by
  cases s with
  | lexeme l => simp [Segment.lexemes, eq_comm]
  | cast => simp [Segment.lexemes]
  | name n => simp [Segment.lexemes]

/-- The open span of a text is one of its segments. -/
theorem opens_iff_of_segmenting (h : segmenting.Reads sql ss) {q : Char} :
    Opens q sql ↔ ∃ body, .lexeme (.opened q body) ∈ ss := by
  rw [opens_iff_of_reads (quoting_of_segmenting h)]
  simp only [List.mem_flatMap, opened_mem_lexemes_iff, exists_eq_right]

theorem literals_closed (h : segmenting.Reads sql ss) (hclosed : ¬ Opens '\'' sql) :
    ∀ s ∈ ss, ∀ body, s ≠ .lexeme (.opened '\'' body) := by
  rintro s hs body rfl
  exact hclosed ((opens_iff_of_segmenting h).2 ⟨body, hs⟩)

/-- A text is changed segment by segment. -/
theorem exists_replaced_segments (params : Params) (d : Dialect) (h : segmenting.Reads sql ss)
    (hclosed : ∀ s ∈ ss, ∀ body, s ≠ .lexeme (.opened '\'' body)) :
    ∃ mss, List.Forall₂ (Replaced params d) ss mss ∧
      textItems params d sql = mss.flatten.flatMap Mark.items := by
  induction ss generalizing sql with
  | nil =>
    obtain rfl : sql = [] := h
    exact ⟨[], .nil, textItems_nil⟩
  | cons s ss ih =>
    obtain ⟨rest, rfl, hfits, hrest⟩ := h
    obtain ⟨ms, hms⟩ := exists_replaced params d s
    obtain ⟨mss, hmss, hitems⟩ := ih hrest fun s' hs' => hclosed s' (List.mem_cons_of_mem s hs')
    refine ⟨ms :: mss, .cons hms hmss, ?_⟩
    rw [List.flatten_cons, List.flatMap_append, ← hitems]
    exact hms.textItems_append hfits (hclosed s List.mem_cons_self)

theorem filterMap_arg?_flatten {mss : List (List Mark)}
    (h : List.Forall₂ (Replaced params d) ss mss) : mss.flatten.filterMap Mark.arg? =
      (ss.flatMap (Segment.knownNames params)).map (valueOf params) := by
  induction h with
  | nil => rfl
  | cons hms _ ih =>
    rw [List.flatten_cons, List.filterMap_append, hms.filterMap_arg?, ih, List.flatMap_cons,
      List.map_append]

theorem Replaced.flatMap_items_of_nil (h : Replaced params d s ms)
    (hnames : s.knownNames params = []) : ms.flatMap Mark.items = s.text.map .char := by
  cases h with
  | kept _ => exact flatMap_items_lexemes s
  | argument hvalue => simp [Segment.knownNames, hvalue] at hnames
  | concatenation hsome _ => exact absurd hnames hsome

theorem flatMap_items_flatten_of_nil {mss : List (List Mark)}
    (h : List.Forall₂ (Replaced params d) ss mss)
    (hnames : ss.flatMap (Segment.knownNames params) = []) :
    mss.flatten.flatMap Mark.items = (ss.flatMap Segment.text).map .char := by
  induction h with
  | nil => rfl
  | cons hms _ ih =>
    rw [List.flatMap_cons, List.append_eq_nil_iff] at hnames
    rw [List.flatten_cons, List.flatMap_append, hms.flatMap_items_of_nil hnames.1, ih hnames.2,
      List.flatMap_cons, List.map_append]

/-- A text read as segments, and what these become with the parameters bound. -/
structure Substitutes (params : Params) (d : Dialect) (sql : List Char) (ss : List Segment)
    (mss : List (List Mark)) : Prop where
  reads : segmenting.Reads sql ss
  replaced : List.Forall₂ (Replaced params d) ss mss
  items : (substitute params d sql).items = mss.flatten.flatMap Mark.items
  normal : (substitute params d sql).IsNormal
  args : (substitute params d sql).args =
    (ss.flatMap (Segment.knownNames params)).map (valueOf params)
  unchanged : ss.flatMap (Segment.knownNames params) = [] →
    (substitute params d sql).parts = if sql = [] then [] else [.text (String.ofList sql)]

/-- **Only known names are replaced.**  A text whose literals are closed is read in one way as
    segments, and the text with its parameters bound is what these become, one behind the other: a
    known name is replaced by one argument, together with its colon, a literal with known names by
    a concatenation, and everything else is kept in its place.  The arguments are the values of the
    known names in their order, and without a known name the text is left as it is. -/
theorem known_names_replaced (params : Params) (d : Dialect) (h : ¬ Opens '\'' sql) :
    ∃ ss mss, Substitutes params d sql ss mss := by
  obtain ⟨ss, hss⟩ := segmenting.exists_reads sql
  obtain ⟨mss, hmss, htext⟩ := exists_replaced_segments params d hss (literals_closed hss h)
  have hitems := (items_substitute params d sql).trans htext
  refine ⟨ss, mss, hss, hmss, hitems, isNormal_substitute sql, ?_, fun hnames => ?_⟩
  · rw [args_of_marks hitems, filterMap_arg?_flatten hmss]
  · have hchars := flatMap_items_flatten_of_nil hmss hnames
    rw [show ss.flatMap Segment.text = sql from hss.flatMap_text] at hchars
    rw [← (isNormal_substitute sql).parts_items, hitems, hchars, Item.parts_chars]

end

/-- Two names in a text with a cast, an identifier and a literal. -/
theorem two_names_replaced :
    let params : Params := [("name", .str "bob"), ("n", .int 1)]
    let sql := "SELECT \"a\"\":n\", x::n FROM t WHERE y LIKE '%:name''' AND z = :n".toList
    ¬ Opens '\'' sql ∧ ∃ ss mss, Substitutes params .mysql sql ss mss :=
  have hread : bare? _ ≠ none := by decide +kernel
  have hclosed := fun hopen => hread (bare?_eq_none_iff.2 ⟨'\'', hopen⟩)
  ⟨hclosed, known_names_replaced _ .mysql hclosed⟩

end MetaQuery.Raw
