/-
  MetaQuery/Proofs/Raw/Scanner.lean
  =================================
  The reading of a text by positions.

  A cursor goes over the bytes of a text.  It stops at quotes and colons, and skips all other bytes
  one by one, also those inside of a character.  What lies between the pending position and the
  cursor is not written yet.  Every part of the text is cut out by its positions, which fails where
  the text cannot be cut (`slice?`), and then the whole reading fails.

  Each pass moves the cursor on, and at most one byte beyond the end of the text
  (`pos_of_pass`), where an identifier that is not closed leaves it.  Where it stops stands a
  character of ASCII, so all characters in front of it are whole, and what the pass reads there is
  what the tokens say (`advances_mark`).  So no pass fails (`Safe.exists_pass`), and the fragment
  is that of the tokens (`read_by_positions`).
-/
import MetaQuery.Proofs.Query.Composition
import MetaQuery.Proofs.Raw.Segment
import MetaQuery.Proofs.Raw.Spans

namespace MetaQuery.Raw

/-! ### The cursor -/

/-- How far a text is read. -/
structure Cursor where
  pos : Nat
  /-- What is in front of this position is written. -/
  pending : Nat
  out : Fragment

/-- One pass of the cursor, at a byte of the text. -/
def pass (params : Params) (d : Dialect) (text : List Char) (c : Cursor) : Option Cursor := do
  let b ← (utf8 text)[c.pos]?
  if b = quoteByte then
    let part ← slice? text c.pending c.pos
    let (content, next) ← literalFrom? text (c.pos + 1) (c.pos + 1) []
    let out ← putLiteralAt? params d (c.out.putText (String.ofList part)) content
    return ⟨next, next, out⟩
  else if b = '"'.toUInt8 ∨ b = '\x60'.toUInt8 then
    return { c with pos := closingAt (utf8 text) b (c.pos + 1) + 1 }
  else if b = ':'.toUInt8 then
    if (utf8 text)[c.pos + 1]? = some ':'.toUInt8 then return { c with pos := c.pos + 2 }
    else match ← valueAt? params text (c.pos + 1) with
      | some v =>
        let stop := nameStop (utf8 text) (c.pos + 1) (c.pos + 1)
        let part ← slice? text c.pending c.pos
        return ⟨stop, stop, (c.out.putText (String.ofList part)).putArg (Cell.ofJson v)⟩
      | none => return { c with pos := c.pos + 1 }
  else return { c with pos := c.pos + 1 }

/-- The cursor moves on, at most to the byte behind the end. -/
theorem pos_of_pass {params : Params} {d : Dialect} {text : List Char} {c c' : Cursor}
    (h : pass params d text c = some c') :
    c.pos < c'.pos ∧ c'.pos ≤ (utf8 text).length + 1 := by
  -- the branches of a pass: a literal, an identifier, a cast or a name, any other byte
  obtain ⟨b, hb, h⟩ := Option.bind_eq_some_iff.1 h
  have hlt := (List.getElem?_eq_some_iff.1 hb).1
  split at h
  · obtain ⟨part, -, h⟩ := Option.bind_eq_some_iff.1 h
    obtain ⟨⟨content, next⟩, hliteral, h⟩ := Option.bind_eq_some_iff.1 h
    obtain ⟨out, -, h⟩ := Option.bind_eq_some_iff.1 h
    have := next_of_literalFrom? hliteral (by omega)
    cases h
    dsimp only
    omega
  split at h
  · have := le_closingAt (utf8 text) b (c.pos + 1)
    cases h
    dsimp only
    omega
  split at h
  · split at h
    · next hnext =>
      have := (List.getElem?_eq_some_iff.1 hnext).1
      cases h
      dsimp only
      omega
    · obtain ⟨value, -, h⟩ := Option.bind_eq_some_iff.1 h
      have := le_nameStop (utf8 text) (c.pos + 1) (c.pos + 1)
      cases value with
      | none =>
        cases h
        dsimp only
        omega
      | some v =>
        obtain ⟨part, -, h⟩ := Option.bind_eq_some_iff.1 h
        cases h
        dsimp only
        omega
  · cases h
    dsimp only
    omega

/-- The fragment of a text from the cursor on. -/
def scanFrom (params : Params) (d : Dialect) (text : List Char) (c : Cursor) : Option Fragment :=
  if c.pos < (utf8 text).length then
    match _h : pass params d text c with
    | some c' => scanFrom params d text c'
    | none => none
  else (slice? text (min c.pending (utf8 text).length) (utf8 text).length).map fun rest =>
    c.out.putText (String.ofList rest)
termination_by (utf8 text).length - c.pos
decreasing_by
  have := pos_of_pass _h
  omega

/-- The fragment of a text, read by positions; nothing when the text is cut where it cannot be. -/
def scan (params : Params) (d : Dialect) (text : List Char) : Option Fragment :=
  scanFrom params d text ⟨0, 0, .empty⟩

/-! ### What a pass reads -/

/-- The cursor behind `front`, which is written, and `pend`, which is not. -/
def cursorAt (front pend : List Char) (f : Fragment) : Cursor :=
  ⟨(utf8 (front ++ pend)).length, (utf8 front).length, f⟩

theorem exists_append_readLiteral (r : List Char) :
    ∃ w, r = w ++ (readLiteral r).2.getD [] := by
  have hspec := readSpan_spec '\'' r
  rw [← readLiteral_eq_readSpan] at hspec
  rcases hread : readLiteral r with ⟨content, rest⟩
  rw [hread] at hspec
  cases rest with
  | none => exact ⟨r, (List.append_nil r).symm⟩
  | some rest =>
    refine ⟨Text.double '\'' content ++ ['\''], ?_⟩
    rw [hspec.1, List.append_assoc]
    rfl

section
variable (params : Params) (d : Dialect) (front pend : List Char) (f : Fragment)

/-- At a quote a literal is read. -/
theorem pass_quote (r : List Char) :
    ∃ w, r = w ++ (readLiteral r).2.getD [] ∧
      pass params d (front ++ pend ++ '\'' :: r) (cursorAt front pend f) =
        some (cursorAt (front ++ pend ++ '\'' :: w) []
          (putLiteral params d (f.putText (String.ofList pend)) (readLiteral r).1)) := by
  have hquote : '\''.toNat < 128 := by decide
  obtain ⟨w, hw⟩ := exists_append_readLiteral r
  refine ⟨w, hw, ?_⟩
  have hnext : (utf8 (front ++ pend ++ '\'' :: r)).length -
      (utf8 ((readLiteral r).2.getD [])).length = (utf8 (front ++ pend ++ '\'' :: w)).length := by
    -- the cursor is told where the rest begins, counted from the end of the text
    have htext : front ++ pend ++ '\'' :: r =
        front ++ pend ++ '\'' :: w ++ (readLiteral r).2.getD [] := by
      rw [List.append_assoc _ ('\'' :: w), List.cons_append, ← hw]
    rw [htext, length_utf8_append, Nat.add_sub_cancel]
  rw [pass, cursorAt, cursorAt, List.append_nil, getElem?_utf8_of_lt hquote, ← hnext]
  dsimp only [Option.bind_eq_bind, Option.bind_some]
  rw [if_pos (by decide), slice?_append]
  dsimp only [Option.bind_some]
  rw [literalFrom?_quote]
  dsimp only [Option.bind_some]
  rw [putLiteralAt?_eq]
  rfl

/-- At another quote an identifier is passed, and what is behind the end when it is not closed. -/
theorem pass_identifier {q : Char} (hq : q = '"' ∨ q = '\x60') (r : List Char) :
    pass params d (front ++ pend ++ q :: r) (cursorAt front pend f) =
        some (cursorAt front (pend ++ q :: (readQuoted q r).1) f) ∨
      (readQuoted q r).2 = [] ∧
        pass params d (front ++ pend ++ q :: r) (cursorAt front pend f) =
          some ⟨(utf8 (front ++ pend ++ q :: r)).length + 1, (utf8 front).length, f⟩ := by
  have hascii : q.toNat < 128 := by rcases hq with rfl | rfl <;> decide
  have hne : q.toUInt8 ≠ quoteByte := by rcases hq with rfl | rfl <;> decide
  have hbyte : q.toUInt8 = '"'.toUInt8 ∨ q.toUInt8 = '\x60'.toUInt8 :=
    hq.imp (congrArg Char.toUInt8) (congrArg Char.toUInt8)
  have hpass : pass params d (front ++ pend ++ q :: r) (cursorAt front pend f) =
      some ⟨closingAt (utf8 (front ++ pend ++ q :: r)) q.toUInt8 ((utf8 (front ++ pend)).length + 1)
        + 1, (utf8 front).length, f⟩ := by
    rw [pass, cursorAt, getElem?_utf8_of_lt hascii]
    dsimp only [Option.bind_eq_bind, Option.bind_some]
    rw [if_neg hne, if_pos hbyte]
    rfl
  have hclosing := closingAt_readQuoted hascii (front ++ pend ++ [q]) r
  rw [length_utf8_append_singleton hascii, List.append_assoc _ [q], List.append_assoc _ [q],
    List.singleton_append, List.singleton_append] at hclosing
  rw [hpass]
  -- left open, the identifier takes the rest and the position ends one behind the text
  rcases hclosing with hclosed | ⟨hrest, hopen⟩
  · left
    rw [hclosed, cursorAt, List.append_assoc]
  · right
    rw [hopen]
    exact ⟨hrest, rfl⟩

/-- A cast is passed. -/
theorem pass_cast (r : List Char) :
    pass params d (front ++ pend ++ ':' :: ':' :: r) (cursorAt front pend f) =
      some (cursorAt front (pend ++ [':', ':']) f) := by
  have hcolon : ':'.toNat < 128 := by decide
  have hnext : (utf8 (front ++ pend ++ ':' :: ':' :: r))[(utf8 (front ++ pend)).length + 1]? =
      some ':'.toUInt8 := (getElem?_utf8_succ_eq_iff hcolon hcolon _ _).2 rfl
  rw [pass, cursorAt, getElem?_utf8_of_lt hcolon]
  dsimp only [Option.bind_eq_bind, Option.bind_some]
  rw [if_neg (by decide), if_neg (by decide), if_pos rfl, if_pos hnext, cursorAt,
    ← List.append_assoc, length_utf8_append _ [':', ':']]
  rfl

variable {params}

/-- A colon is passed where no known name starts. -/
theorem pass_colon_of_none {r : List Char} (hcast : r.head? ≠ some ':')
    (h : knownNameAt params (':' :: r) = none) :
    pass params d (front ++ pend ++ ':' :: r) (cursorAt front pend f) =
      some (cursorAt front (pend ++ [':']) f) := by
  have hcolon : ':'.toNat < 128 := by decide
  have hnext := mt (getElem?_utf8_succ_eq_iff hcolon hcolon (front ++ pend) r).1 hcast
  rw [pass, cursorAt, getElem?_utf8_of_lt hcolon]
  dsimp only [Option.bind_eq_bind, Option.bind_some]
  rw [if_neg (by decide), if_neg (by decide), if_pos rfl, if_neg hnext, valueAt?_of_none h,
    cursorAt, ← List.append_assoc, length_utf8_append_singleton hcolon]
  rfl

/-- A known name is written as an argument. -/
theorem pass_name {n rest : List Char} (hn : IsName n) (hends : EndsName rest)
    (hvalue : (Json.lookup (String.ofList n) params).isSome = true) :
    pass params d (front ++ pend ++ ':' :: (n ++ rest)) (cursorAt front pend f) =
      some (cursorAt (front ++ pend ++ ':' :: n) []
        ((f.putText (String.ofList pend)).putArg (valueOf params n))) := by
  have hcolon : ':'.toNat < 128 := by decide
  obtain ⟨v, hv⟩ := Option.isSome_iff_exists.1 hvalue
  have hnext := mt (getElem?_utf8_succ_eq_iff hcolon hcolon (front ++ pend) _).1
    (hn.head?_append_ne rest)
  rw [pass, cursorAt, getElem?_utf8_of_lt hcolon]
  dsimp only [Option.bind_eq_bind, Option.bind_some]
  rw [if_neg (by decide), if_neg (by decide), if_pos rfl, if_neg hnext, valueAt?_name hn hends hv]
  dsimp only [Option.bind_some]
  rw [nameStop_name hn hends, slice?_append, cursorAt, List.append_nil, valueOf, hv]
  rfl

end

/-! ### The tokens of what a pass reads -/

/-- The tokens of a text behind a fragment. -/
def putTokens (params : Params) (d : Dialect) (f : Fragment) (cs : List Char) : Fragment :=
  (tokens cs).foldl (putToken params d) f

section
variable (params : Params) (d : Dialect)

theorem putTokens_nil (f : Fragment) : putTokens params d f [] = f := by
  rw [putTokens, tokens]
  rfl

theorem putTokens_of_tokens {cs rest : List Char} {t : Token} (h : tokens cs = t :: tokens rest)
    (f : Fragment) : putTokens params d f cs = putTokens params d (putToken params d f t) rest := by
  rw [putTokens, h]
  rfl

theorem putTokens_quote (f : Fragment) (r : List Char) :
    putTokens params d f ('\'' :: r) =
      putTokens params d (putLiteral params d f (readLiteral r).1) ((readLiteral r).2.getD []) := by
  rcases hread : readLiteral r with ⟨content, rest⟩
  rw [putTokens, tokens_quote hread]
  cases rest with
  | none => exact (putTokens_nil params d _).symm
  | some rest => rfl

/-- Characters that are no quotes and no colons are put as they are. -/
theorem putTokens_chars {m : List Char} (hquotes : Unquoted m) (hcolon : ':' ∉ m) (f : Fragment)
    (r : List Char) :
    putTokens params d f (m ++ r) = putTokens params d (f.putText (String.ofList m)) r := by
  induction m generalizing f with
  | nil => rw [List.nil_append, String.ofList_nil, Fragment.putText_empty]
  | cons c m ih =>
    have hc := tokens_plain (hquotes c List.mem_cons_self)
      (fun hc => hcolon (hc ▸ List.mem_cons_self)) (m ++ r)
    have hm := ih (fun e he => hquotes e (.tail c he)) (fun h => hcolon (.tail c h))
      (f.putText (String.singleton c))
    rw [Fragment.putText_putText, String.singleton_eq_ofList, ← String.ofList_append] at hm
    rw [List.cons_append, putTokens_of_tokens params d hc, putToken, String.singleton_eq_ofList, hm]
    rfl

variable {params}

/-- Where no known name starts, the colon stands alone. -/
theorem putTokens_colon_of_none {r : List Char} (hcast : r.head? ≠ some ':')
    (h : knownNameAt params (':' :: r) = none) (f : Fragment) :
    putTokens params d f (':' :: r) = putTokens params d (f.putText ":") r := by
  -- a colon without a name, or with one that no parameter has: it is written back
  by_cases hname : (takeName r).1 = []
  · have htokens : tokens (':' :: r) = .plain ':' :: tokens r := by
      rw [tokens_colon hcast, if_pos hname]
    exact putTokens_of_tokens params d htokens f
  · have htokens : tokens (':' :: r) = .name (takeName r).1 :: tokens (takeName r).2 := by
      rw [tokens_colon hcast, if_neg hname]
    have hn := (isName_takeName hname).1
    have hcolon : ':' ∉ (takeName r).1 := fun h => absurd (hn.rest ':' h) (by decide)
    have hquotes : Unquoted (takeName r).1 := fun c hc => unquoted_name hn c (.tail ':' hc)
    have hchars := putTokens_chars params d hquotes hcolon (f.putText ":") (takeName r).2
    rw [takeName_append, Fragment.putText_putText] at hchars
    rw [putTokens_of_tokens params d htokens, hchars, putToken, lookup_takeName_of_none h hname]
    dsimp only
    rw [← List.singleton_append, String.ofList_append]

end

/-! ### Marks -/

/-- The characters that the cursor stops at. -/
def marks : List Char := ['\'', '"', '\x60', ':']

theorem marks_ascii {q : Char} (hq : q ∈ marks) : q.toNat < 128 := by
  have hall : marks.all (fun q => decide (q.toNat < 128)) = true := by decide
  exact of_decide_eq_true (List.all_eq_true.1 hall q hq)

section
variable {params : Params} {d : Dialect}

/-- Any other byte is passed. -/
theorem pass_other {text : List Char} {c : Cursor} {b : UInt8} (hb : (utf8 text)[c.pos]? = some b)
    (hother : ∀ q ∈ marks, b ≠ q.toUInt8) :
    pass params d text c = some ⟨c.pos + 1, c.pending, c.out⟩ := by
  have hquote : b ≠ quoteByte := hother '\'' (by decide)
  have hidentifier : ¬(b = '"'.toUInt8 ∨ b = '\x60'.toUInt8) :=
    not_or.2 ⟨hother '"' (by decide), hother '\x60' (by decide)⟩
  rw [pass, hb]
  dsimp only [Option.bind_eq_bind, Option.bind_some]
  rw [if_neg hquote, if_neg hidentifier, if_neg (hother ':' (by decide))]
  rfl

theorem putTokens_other {c : Char} (hc : c ∉ marks) (f : Fragment) (r : List Char) :
    putTokens params d f (c :: r) = putTokens params d (f.putText (String.ofList [c])) r := by
  simp only [marks, List.mem_cons, List.not_mem_nil, or_false, not_or] at hc
  have hquote : isQuote c = false := by simp [isQuote, hc]
  have hcolon : ':' ∉ [c] := fun h => hc.2.2.2 (List.mem_singleton.1 h).symm
  exact putTokens_chars params d (List.forall_mem_singleton.2 hquote) hcolon f r

/-- What a pass at the start of `cs` does: it takes some of it, and the tokens of the rest are
    still to be put; or an identifier is not closed, and the cursor is left beyond the end. -/
def Advances (params : Params) (d : Dialect) (front pend cs : List Char) (f : Fragment) : Prop :=
  (∃ front' pend' cs' f', front ++ pend ++ cs = front' ++ pend' ++ cs' ∧ cs'.length < cs.length ∧
    pass params d (front ++ pend ++ cs) (cursorAt front pend f) = some (cursorAt front' pend' f') ∧
    putTokens params d (f.putText (String.ofList pend)) cs =
      putTokens params d (f'.putText (String.ofList pend')) cs') ∨
  (pass params d (front ++ pend ++ cs) (cursorAt front pend f) =
      some ⟨(utf8 (front ++ pend ++ cs)).length + 1, (utf8 front).length, f⟩ ∧
    putTokens params d (f.putText (String.ofList pend)) cs = f.putText (String.ofList (pend ++ cs)))

variable (params) (d) (front pend : List Char) (f : Fragment)

theorem advances_quote (r : List Char) : Advances params d front pend ('\'' :: r) f := by
  left
  obtain ⟨w, hw, hpass⟩ := pass_quote params d front pend f r
  refine ⟨_, [], (readLiteral r).2.getD [], _, ?_, ?_, hpass, ?_⟩
  · rw [List.append_nil, List.append_assoc _ ('\'' :: w), List.cons_append, ← hw]
  · have hlength := congrArg List.length hw
    rw [List.length_append] at hlength
    rw [List.length_cons]
    omega
  · rw [putTokens_quote, String.ofList_nil, Fragment.putText_empty]

theorem advances_identifier {q : Char} (hq : q = '"' ∨ q = '\x60') (r : List Char) :
    Advances params d front pend (q :: r) f := by
  have hquote : isQuote q = true ∧ q ≠ '\'' := by rcases hq with rfl | rfl <;> decide
  have htext := readQuoted_append q r
  have hput := putTokens_of_tokens params d (tokens_identifier hquote.1 hquote.2 r)
    (f.putText (String.ofList pend))
  rw [putToken, Fragment.putText_putText, ← String.ofList_append] at hput
  -- the identifier is closed and the pass goes on behind it, or it takes all that is left
  rcases pass_identifier params d front pend f hq r with hpass | ⟨hrest, hpass⟩
  · left
    refine ⟨front, _, (readQuoted q r).2, f, ?_, ?_, hpass, hput⟩
    · rw [List.append_assoc, List.append_assoc, List.append_assoc, List.cons_append, htext]
    · exact Nat.lt_succ_of_le (length_readQuoted_le q r)
  · right
    rw [hrest, List.append_nil] at htext
    rw [hrest, putTokens_nil, htext] at hput
    exact ⟨hpass, hput⟩

theorem advances_colon (r : List Char) : Advances params d front pend (':' :: r) f := by
  left
  by_cases hcast : r.head? = some ':'
  · obtain ⟨r, rfl⟩ := List.head?_eq_some_iff.1 hcast
    refine ⟨front, _, r, f, ?_, ?_, pass_cast params d front pend f r, ?_⟩
    · simp
    · exact Nat.lt_succ_of_lt (Nat.lt_succ_self r.length)
    · rw [putTokens_of_tokens params d (tokens_cast r), putToken, Fragment.putText_putText,
        String.ofList_append]
  -- a known name is put as an argument, an unknown one stays behind its colon
  cases hname : knownNameAt params (':' :: r) with
  | none =>
    refine ⟨front, _, r, f, ?_, ?_, pass_colon_of_none d front pend f hcast hname, ?_⟩
    · simp
    · simp
    · rw [putTokens_colon_of_none d hcast hname, Fragment.putText_putText, String.ofList_append]
  | some n =>
    obtain ⟨rest, hr, hn, hends, hvalue⟩ := knownNameAt_eq_some_iff.1 hname
    obtain rfl : r = n ++ rest := (List.cons.inj hr).2
    obtain ⟨v, hv⟩ := Option.isSome_iff_exists.1 hvalue
    refine ⟨_, [], rest, _, ?_, ?_, pass_name d front pend f hn hends hvalue, ?_⟩
    · simp
    · rw [List.length_cons, List.length_append]
      omega
    · rw [putTokens_of_tokens params d (tokens_name_append hn hends), putToken, valueOf, hv,
        String.ofList_nil, Fragment.putText_empty]

theorem advances_mark {q : Char} (hq : q ∈ marks) (r : List Char) :
    Advances params d front pend (q :: r) f := by
  simp only [marks, List.mem_cons, List.not_mem_nil, or_false] at hq
  rcases hq with rfl | rfl | rfl | rfl
  · exact advances_quote params d front pend f r
  · exact advances_identifier params d front pend f (.inl rfl) r
  · exact advances_identifier params d front pend f (.inr rfl) r
  · exact advances_colon params d front pend f r

end

/-! ### No pass fails -/

/-- What every pass keeps: the text can be cut where it is not written yet, and the cursor is
    not in front of that position and at most one byte beyond the end. -/
structure Safe (text : List Char) (c : Cursor) : Prop where
  pending : IsBoundary text c.pending
  pending_le : c.pending ≤ c.pos
  pos_le : c.pos ≤ (utf8 text).length + 1

theorem safe_start (text : List Char) : Safe text ⟨0, 0, .empty⟩ :=
  ⟨isBoundary_iff.2 ⟨[], text, rfl, rfl⟩, Nat.le_refl _, Nat.zero_le _⟩

/-- Where a safe cursor meets a character of ASCII, it is behind characters. -/
theorem Safe.exists_cursorAt {text : List Char} {c : Cursor} (h : Safe text c) {q : Char}
    (hq : q.toNat < 128) (hbyte : (utf8 text)[c.pos]? = some q.toUInt8) :
    ∃ front pend r, text = front ++ pend ++ q :: r ∧ c = cursorAt front pend c.out := by
  obtain ⟨front, pend, suf, rfl, hfront, hpend⟩ :=
    exists_between h.pending (boundaries_of_ascii hq hbyte).1 h.pending_le
  rw [← hpend, ← Nat.add_zero (utf8 (front ++ pend)).length, getElem?_utf8_append,
    ← List.head?_eq_getElem?, head?_utf8_iff hq] at hbyte
  obtain ⟨r, rfl⟩ := List.head?_eq_some_iff.1 hbyte
  refine ⟨front, pend, r, rfl, ?_⟩
  rw [cursorAt, hfront, hpend]

section
variable {params : Params} {d : Dialect}

theorem Advances.exists_pass {front pend cs : List Char} {f : Fragment}
    (h : Advances params d front pend cs f) :
    ∃ c', pass params d (front ++ pend ++ cs) (cursorAt front pend f) = some c' ∧
      IsBoundary (front ++ pend ++ cs) c'.pending ∧ c'.pending ≤ c'.pos := by
  have hfront : ∀ a b e : List Char, IsBoundary (a ++ b ++ e) (utf8 a).length :=
    fun a b e => isBoundary_iff.2 ⟨a, b ++ e, List.append_assoc a b e, rfl⟩
  rcases h with ⟨front', pend', cs', f', htext, -, hpass, -⟩ | ⟨hpass, -⟩
  · refine ⟨_, hpass, ?_, ?_⟩
    · rw [htext]
      exact hfront front' pend' cs'
    · rw [cursorAt, length_utf8_append]
      exact Nat.le_add_right _ _
  · refine ⟨_, hpass, hfront front pend cs, ?_⟩
    rw [List.append_assoc, length_utf8_append]
    exact Nat.le_succ_of_le (Nat.le_add_right _ _)

variable (params) (d)

/-- **A pass does not fail.**  A safe cursor at a byte of the text goes on, and is safe again. -/
theorem Safe.exists_pass {text : List Char} {c : Cursor} (h : Safe text c)
    (hlt : c.pos < (utf8 text).length) :
    ∃ c', pass params d text c = some c' ∧ c.pos < c'.pos ∧ Safe text c' := by
  have hbyte : (utf8 text)[c.pos]? = some (utf8 text)[c.pos] := List.getElem?_eq_getElem hlt
  by_cases hother : ∀ q ∈ marks, (utf8 text)[c.pos] ≠ q.toUInt8
  · exact ⟨_, pass_other hbyte hother, Nat.lt_succ_self _, h.pending,
      Nat.le_succ_of_le h.pending_le, Nat.succ_le_succ hlt.le⟩
  · push Not at hother
    obtain ⟨q, hq, hmark⟩ := hother
    rw [hmark] at hbyte
    -- an ASCII byte is a character of its own, so the cursor stands between two characters
    obtain ⟨front, pend, r, rfl, hc⟩ := h.exists_cursorAt (marks_ascii hq) hbyte
    obtain ⟨c', hpass, hpending, hle⟩ :=
      (advances_mark params d front pend c.out hq r).exists_pass
    rw [← hc] at hpass
    obtain ⟨hmoved, hpos⟩ := pos_of_pass hpass
    exact ⟨c', hpass, hmoved, hpending, hle, hpos⟩

/-! ### Reading to the end -/

theorem scanFrom_of_pass {text : List Char} {c c' : Cursor} (hlt : c.pos < (utf8 text).length)
    (h : pass params d text c = some c') :
    scanFrom params d text c = scanFrom params d text c' := by
  rw [scanFrom, if_pos hlt]
  split
  · next c'' heq =>
    rw [h] at heq
    rw [Option.some.inj heq]
  · next heq =>
    rw [h] at heq
    cases heq

theorem scanFrom_end (front pend : List Char) (f : Fragment) {pos : Nat}
    (hpos : (utf8 (front ++ pend)).length ≤ pos) :
    scanFrom params d (front ++ pend) ⟨pos, (utf8 front).length, f⟩ =
      some (f.putText (String.ofList pend)) := by
  have hmin : min (utf8 front).length (utf8 (front ++ pend)).length = (utf8 front).length := by
    rw [length_utf8_append]
    exact Nat.min_eq_left (Nat.le_add_right _ _)
  have hrest := slice?_append front pend []
  rw [List.append_nil] at hrest
  rw [scanFrom, if_neg (Nat.not_lt.2 hpos), hmin, hrest]
  rfl

/-- Behind the cursor the tokens of the text are put. -/
theorem scanFrom_cursorAt (front pend cs : List Char) (f : Fragment) :
    scanFrom params d (front ++ pend ++ cs) (cursorAt front pend f) =
      some (putTokens params d (f.putText (String.ofList pend)) cs) := by
  -- by recursion on what is left: a mark makes a pass, all other characters join the pending run
  cases cs with
  | nil =>
    rw [List.append_nil, putTokens_nil]
    exact scanFrom_end params d front pend f (Nat.le_refl _)
  | cons c r =>
    by_cases hc : c ∈ marks
    · have hlt : (cursorAt front pend f).pos < (utf8 (front ++ pend ++ c :: r)).length := by
        have hrest := length_utf8_pos (List.cons_ne_nil c r)
        rw [cursorAt, length_utf8_append _ (c :: r)]
        exact Nat.lt_add_of_pos_right hrest
      rcases advances_mark params d front pend f hc r with
        ⟨front', pend', cs', f', htext, hless, hpass, hput⟩ | ⟨hpass, hput⟩
      · rw [scanFrom_of_pass params d hlt hpass, htext, hput]
        exact scanFrom_cursorAt front' pend' cs' f'
      · rw [scanFrom_of_pass params d hlt hpass, hput, List.append_assoc]
        exact scanFrom_end params d front (pend ++ c :: r) f (Nat.le_succ _)
    · -- a byte of `c` is none of a mark, so all of them are passed
      have hskip := eq_of_skip_char
        (g := fun i => scanFrom params d (front ++ pend ++ c :: r) ⟨i, (utf8 front).length, f⟩)
        (front ++ pend) c r ?_
      · have hrest := scanFrom_cursorAt front (pend ++ [c]) r f
        rw [cursorAt, ← List.append_assoc front, List.append_assoc _ [c], List.singleton_append,
          ← hskip, String.ofList_append, ← Fragment.putText_putText, ← putTokens_other hc] at hrest
        exact hrest
      · intro i b hi hb
        have hother : ∀ q ∈ marks, b ≠ q.toUInt8 := by
          intro q hq
          have hne : c ≠ q := fun h => hc (h ▸ hq)
          exact ne_toUInt8_of_mem (marks_ascii hq) hne hb
        exact scanFrom_of_pass params d (List.getElem?_eq_some_iff.1 hi).1 (pass_other hi hother)
termination_by cs.length
decreasing_by
  · exact hless
  · exact Nat.lt_succ_self r.length

/-- **Every text is read to its end.**  Read by positions, it gives what its tokens give, and
    nothing is cut out of it where it cannot be cut: on both sides of a part stand whole
    characters.  Each pass moves the cursor on and keeps it safe, wherever a safe cursor is; and
    when it has come to the end or beyond it, the rest can be cut out. -/
theorem read_by_positions (params : Params) (d : Dialect) (text : List Char) :
    scan params d text = some (substitute params d text) ∧
    (∀ (cs : List Char) (start stop : Nat), (slice? cs start stop).isSome = true ↔
      start ≤ stop ∧ stop ≤ (utf8 cs).length ∧ IsBoundary cs start ∧ IsBoundary cs stop) ∧
    Safe text ⟨0, 0, .empty⟩ ∧
    ∀ c, Safe text c →
      (c.pos < (utf8 text).length →
        ∃ c', pass params d text c = some c' ∧ c.pos < c'.pos ∧ Safe text c') ∧
      (slice? text (min c.pending (utf8 text).length) (utf8 text).length).isSome = true := by
  have hscan := scanFrom_cursorAt params d [] [] text .empty
  rw [String.ofList_nil, Fragment.putText_empty] at hscan
  refine ⟨hscan, fun cs start stop => isSome_slice?_iff, safe_start text, fun c hc => ?_⟩
  constructor
  · exact hc.exists_pass params d
  · rw [Nat.min_eq_left hc.pending.le]
    exact isSome_slice?_iff.2 ⟨hc.pending.le, Nat.le_refl _, hc.pending, isBoundary_length text⟩

end

/-- An identifier that is not closed, between letters of two bytes: the cursor is left one byte
    beyond the end, and the whole text is still to be written. -/
theorem unclosed_identifier_passed :
    scan [] .ansi "é\"ü".toList = some (substitute [] .ansi "é\"ü".toList) ∧
      pass [] .ansi "é\"ü".toList ⟨2, 0, .empty⟩ = some ⟨6, 0, .empty⟩ ∧
      Safe "é\"ü".toList ⟨6, 0, .empty⟩ := by
  have hcursor : Safe "é\"ü".toList ⟨2, 0, .empty⟩ := ⟨by decide, by decide, by decide⟩
  have hread := read_by_positions [] .ansi "é\"ü".toList
  obtain ⟨c', hpass, -, hsafe⟩ := (hread.2.2.2 _ hcursor).1 (by decide)
  have hleft : pass [] .ansi "é\"ü".toList ⟨2, 0, .empty⟩ = some ⟨6, 0, .empty⟩ := by cbv
  obtain rfl : c' = ⟨6, 0, .empty⟩ := Option.some.inj (hpass.symm.trans hleft)
  exact ⟨hread.1, hleft, hsafe⟩

end MetaQuery.Raw
