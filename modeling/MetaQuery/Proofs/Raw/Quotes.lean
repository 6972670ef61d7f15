/-
  MetaQuery/Proofs/Raw/Quotes.lean
  ================================
  What is written between quotes is read back.

  An identifier between the quotes of its dialect is one span for the check of a text, whatever
  quotes are in it; the texts around it are read as they are read alone, unless one of them puts a
  quote of the same kind next to it (`identifier_one_span`).

  A literal is read from the position of its opening quote, which is that of a byte.  Byte by byte,
  the reader copies the runs between quotes; as no byte of another character is that of a quote, it
  finds what is found character by character (`literalAt_quote`), so the content comes back, and
  the content of a literal is written as that literal (`literal_read_back`).
-/
import MetaQuery.Proofs.Raw.Bytes
import MetaQuery.Proofs.Raw.Literal

namespace MetaQuery.Raw

open Text

/-! ### Identifiers -/

/-- Only one name is written between quotes like this. -/
theorem enclose_injective (q : Char) : Function.Injective (enclose q) := by
  intro a b h
  have hend : ([] : List Char).head? ≠ some q := nofun
  exact (double_append_inj hend hend (List.cons.inj h).2).1

/-- **A quoted identifier is one span.**  Behind a text whose spans are closed and in front of
    another one, it is read as a blank, whichever quotes are in the identifier; only its own quote
    must not be next to it.  Two identifiers are not quoted alike. -/
theorem identifier_one_span (d : Dialect) :
    (∀ (ident : String) (pre suf a b : List Char), bare? pre = some a → bare? suf = some b →
      pre.getLast? ≠ some d.quoteChar → suf.head? ≠ some d.quoteChar →
      bare? (pre ++ (d.quote ident).toList ++ suf) = some (a ++ ' ' :: b)) ∧
    Function.Injective d.quote := by
  constructor
  · intro ident pre suf a b hpre hsuf hlast hhead
    have hspan : bare? ((d.quote ident).toList ++ suf) = some (' ' :: b) := by
      rw [bare?_quote_append d ident hhead, hsuf]
      rfl
    -- the text before does not end in the quote, so the opening one is not a quote written twice
    have hapart : Apart pre ((d.quote ident).toList ++ suf) := by
      intro q _ hq hopening
      rw [Dialect.quote, String.toList_ofList] at hopening
      exact hlast (hq.trans hopening.symm)
    rw [List.append_assoc, bare?, bareFrom_append_of_apart (by simp) hpre hapart, ← bare?, hspan]
    rfl
  · intro ident ident' h
    exact String.toList_inj.1 (enclose_injective d.quoteChar (String.ofList_injective h))

/-- An identifier of quotes of every kind, between two literals. -/
theorem quotes_in_identifier_one_span :
    bare? "x='`'.".toList = some "x= .".toList ∧ bare? "='it''s'".toList = some "= ".toList ∧
      bare? ("x='`'.".toList ++ (Dialect.mysql.quote "`'\"``").toList ++ "='it''s'".toList) =
        some "x= . = ".toList := by
  have hpre : bare? "x='`'.".toList = some "x= .".toList := by decide
  have hsuf : bare? "='it''s'".toList = some "= ".toList := by decide
  exact ⟨hpre, hsuf, (identifier_one_span .mysql).1 "`'\"``" _ _ _ _ hpre hsuf (by decide)
    (by decide)⟩

/-! ### Bytes -/

/-- The byte of the quote around a literal. -/
def quoteByte : UInt8 := 39

theorem utf8_quote_cons (r : List Char) : utf8 ('\'' :: r) = quoteByte :: utf8 r := rfl

/-- The byte of a quote is not met in another character, however many bytes that has. -/
theorem quoteByte_notMem_utf8EncodeChar {c : Char} (hc : c ≠ '\'') :
    quoteByte ∉ String.utf8EncodeChar c := by
  intro h
  have hquote : '\''.toNat < 128 := by decide
  exact hc (eq_of_toUInt8_mem hquote h)

/-! ### Literals by position -/

/-- The content of a literal from byte `i` on, where the bytes from `run` on are not copied yet,
    and the position behind its closing quote or the end of the text. -/
def scanLiteral (bytes : List UInt8) (i run : Nat) (content : List UInt8) : List UInt8 × Nat :=
  if h : i < bytes.length then
    if bytes[i] = quoteByte then
      let copied := content ++ (bytes.drop run).take (i - run)
      if bytes[i + 1]? = some quoteByte then
        scanLiteral bytes (i + 2) (i + 2) (copied ++ [quoteByte])
      else (copied, i + 1)
    else scanLiteral bytes (i + 1) run content
  else (content ++ bytes.drop run, bytes.length)
termination_by bytes.length - i

/-- The content of the literal whose opening quote is the byte at `opening`, and the position
    behind it. -/
def literalAt (text : List Char) (opening : Nat) : List UInt8 × Nat :=
  scanLiteral (utf8 text) (opening + 1) (opening + 1) []

theorem scanLiteral_end (front pending content : List UInt8) :
    scanLiteral (front ++ pending) (front ++ pending).length front.length content =
      (content ++ pending, (front ++ pending).length) := by
  rw [scanLiteral, dif_neg (Nat.lt_irrefl _), List.drop_left]

/-- Bytes that are no quotes join the run. -/
theorem scanLiteral_run (front : List UInt8) {w : List UInt8} (hw : quoteByte ∉ w)
    (r : List UInt8) (run : Nat) (content : List UInt8) :
    scanLiteral (front ++ w ++ r) front.length run content =
      scanLiteral (front ++ w ++ r) (front ++ w).length run content := by
  refine eq_of_skip (g := fun i => scanLiteral (front ++ w ++ r) i run content) front w r ?_
  intro i b hi hb
  obtain ⟨hlt, hbyte⟩ := List.getElem?_eq_some_iff.1 hi
  have hother : (front ++ w ++ r)[i] ≠ quoteByte := by
    intro hquote
    rw [← hquote, hbyte] at hw
    exact hw hb
  rw [scanLiteral, dif_pos hlt, if_neg hother]

/-- At a quote the run is copied; the next byte tells whether the literal ends. -/
theorem scanLiteral_quote (front pending r content : List UInt8) :
    scanLiteral (front ++ pending ++ quoteByte :: r) (front ++ pending).length front.length
        content =
      if r.head? = some quoteByte then
        scanLiteral (front ++ pending ++ quoteByte :: r) ((front ++ pending).length + 2)
          ((front ++ pending).length + 2) (content ++ pending ++ [quoteByte])
      else (content ++ pending, (front ++ pending).length + 1) := by
  have hquote : (front ++ pending ++ quoteByte :: r)[(front ++ pending).length]? =
      some quoteByte := by
    rw [List.getElem?_append_right (Nat.le_refl _), Nat.sub_self]
    rfl
  have hnext : (front ++ pending ++ quoteByte :: r)[(front ++ pending).length + 1]? = r.head? := by
    rw [List.getElem?_append_right (by omega), Nat.add_sub_cancel_left]
    exact List.head?_eq_getElem?.symm
  have hrun : ((front ++ pending ++ quoteByte :: r).drop front.length).take
      ((front ++ pending).length - front.length) = pending := by
    rw [List.append_assoc, List.drop_left, List.length_append, Nat.add_sub_cancel_left,
      List.take_left]
  rw [scanLiteral, dif_pos (by simp), if_pos ((List.getElem_eq_iff _).2 hquote), hnext, hrun]

/-- The bytes of a literal give what its characters give, wherever the scan of them stands. -/
theorem scanLiteral_utf8 (front pending content : List UInt8) (cs : List Char) :
    scanLiteral (front ++ pending ++ utf8 cs) (front ++ pending).length front.length content =
      (content ++ pending ++ utf8 (readLiteral cs).1,
        (front ++ pending ++ utf8 cs).length - (utf8 ((readLiteral cs).2.getD [])).length) := by
  fun_induction readLiteral cs generalizing front pending content with
  | case1 =>
    have hend := scanLiteral_end front pending content
    simpa [utf8] using hend
  -- a doubled quote: the run so far and one quote are kept, and a new run begins behind both
  | case2 r inner rest heq ih =>
    rw [heq] at ih
    have hstep := ih (front ++ pending ++ [quoteByte, quoteByte]) []
      (content ++ pending ++ [quoteByte])
    have hhead : (quoteByte :: utf8 r).head? = some quoteByte := rfl
    rw [utf8_quote_cons, utf8_quote_cons, scanLiteral_quote, if_pos hhead]
    simpa [utf8_quote_cons, Nat.add_assoc] using hstep
  -- the closing quote: no second one follows it
  | case3 r hr =>
    have hhead : r.head? ≠ some '\'' := by
      intro hd
      cases r with
      | nil => cases hd
      | cons d r =>
        obtain rfl := Option.some.inj hd
        exact hr r rfl rfl
    have hquote : '\''.toNat < 128 := by decide
    have hbyte : (utf8 r).head? ≠ some quoteByte := mt (head?_utf8_iff hquote).1 hhead
    rw [utf8_quote_cons, scanLiteral_quote, if_neg hbyte]
    simp [utf8]
    omega
  -- none of the bytes of another character is a quote, so all of them join the run
  | case4 c r _ hc inner rest heq ih =>
    rw [heq] at ih
    have hrun := scanLiteral_run (front ++ pending) (quoteByte_notMem_utf8EncodeChar hc) (utf8 r)
      front.length content
    have hstep := ih front (pending ++ String.utf8EncodeChar c) content
    rw [← List.append_assoc front] at hstep
    rw [utf8_cons, ← List.append_assoc, hrun, hstep]
    simp [utf8_cons]

/-- What is found by the bytes from a quote on is what is found by the characters. -/
theorem literalAt_quote (pre r : List Char) :
    literalAt (pre ++ '\'' :: r) (utf8 pre).length =
      (utf8 (readLiteral r).1, (utf8 (pre ++ '\'' :: r)).length -
        (utf8 ((readLiteral r).2.getD [])).length) := by
  have hscan := scanLiteral_utf8 (utf8 pre ++ [quoteByte]) [] [] r
  have hopening : (utf8 pre ++ [quoteByte]).length = (utf8 pre).length + 1 := List.length_append
  have htext : utf8 (pre ++ '\'' :: r) = utf8 pre ++ [quoteByte] ++ utf8 r := by
    rw [utf8_append, utf8_quote_cons, List.append_assoc, List.singleton_append]
  rw [List.append_nil, hopening] at hscan
  rw [literalAt, htext, hscan]
  rfl

/-! ### Literals -/

/-- The inside of a literal: each quote in it is written twice. -/
inductive LiteralBody : List Char → Prop where
  | nil : LiteralBody []
  | char {c : Char} {r : List Char} (hc : c ≠ '\'') (h : LiteralBody r) : LiteralBody (c :: r)
  | quote {r : List Char} (h : LiteralBody r) : LiteralBody ('\'' :: '\'' :: r)

/-- A literal with its quotes. -/
def IsLiteral (lit : List Char) : Prop :=
  ∃ body, LiteralBody body ∧ lit = '\'' :: (body ++ ['\''])

/-- What is inside of a literal is some content with its quotes written twice. -/
theorem LiteralBody.exists_double {body : List Char} (h : LiteralBody body) :
    ∃ content, body = double '\'' content := by
  induction h with
  | nil => exact ⟨[], rfl⟩
  | @char c r hc _ ih =>
    obtain ⟨content, rfl⟩ := ih
    exact ⟨c :: content, (double_cons_of_ne hc content).symm⟩
  | quote _ ih =>
    obtain ⟨content, rfl⟩ := ih
    exact ⟨'\'' :: content, (double_cons_self '\'' content).symm⟩

/-- A literal is written from its content. -/
theorem IsLiteral.exists_quoteLiteral {lit : List Char} (h : IsLiteral lit) :
    ∃ content, quoteLiteral content = lit := by
  obtain ⟨body, hbody, rfl⟩ := h
  obtain ⟨content, rfl⟩ := hbody.exists_double
  exact ⟨content, rfl⟩

/-- The reading of a text from a quote on finds this content and ends in front of `suf`: by its
    characters, and by its bytes. -/
structure ReadsLiteral (pre lit suf content : List Char) : Prop where
  chars : readLiteral (lit ++ suf).tail = (content, some suf)
  bytes : literalAt (pre ++ lit ++ suf) (utf8 pre).length =
    (utf8 content, (utf8 (pre ++ lit)).length)

theorem readsLiteral_quoteLiteral (pre content : List Char) {suf : List Char}
    (h : suf.head? ≠ some '\'') : ReadsLiteral pre (quoteLiteral content) suf content := by
  have htext : quoteLiteral content ++ suf = '\'' :: (double '\'' content ++ '\'' :: suf) :=
    Lexeme.enclose_append '\'' content suf
  have hread : readLiteral (double '\'' content ++ '\'' :: suf) = (content, some suf) := by
    rw [readLiteral_eq_readSpan, readSpan_double_append '\'' content h]
  refine ⟨by rw [htext, List.tail_cons, hread], ?_⟩
  have hposition : (utf8 (pre ++ quoteLiteral content ++ suf)).length - (utf8 suf).length =
      (utf8 (pre ++ quoteLiteral content)).length := by
    rw [utf8_append _ suf, List.length_append, Nat.add_sub_cancel]
  rw [← hposition, List.append_assoc, htext, literalAt_quote, hread]
  rfl

/-- **Reading a literal undoes its writing.**  Every content is read back from its literal, up to
    the position behind the closing quote, whatever stands around it, unless the text goes on with
    another quote; and every literal of a text is what is written for the content read there. -/
theorem literal_read_back :
    (∀ content pre suf : List Char, suf.head? ≠ some '\'' →
      ReadsLiteral pre (quoteLiteral content) suf content) ∧
    ∀ pre lit suf : List Char, IsLiteral lit → suf.head? ≠ some '\'' →
      ∃ content, ReadsLiteral pre lit suf content ∧ quoteLiteral content = lit := by
  refine ⟨fun content pre suf h => readsLiteral_quoteLiteral pre content h, ?_⟩
  intro pre lit suf hlit h
  obtain ⟨content, rfl⟩ := hlit.exists_quoteLiteral
  exact ⟨content, readsLiteral_quoteLiteral pre content h, rfl⟩

/-- A literal behind a letter of two bytes, which starts with another one and ends in a quote. -/
theorem accented_literal_read_back :
    literalAt "é='ü''')".toList 3 = ([195, 188, 39], 9) ∧
      readLiteral "ü''')".toList = ("ü'".toList, some ")".toList) ∧
      ∃ content, ReadsLiteral "é=".toList "'ü'''".toList ")".toList content ∧
        quoteLiteral content = "'ü'''".toList := by
  have hread := literal_read_back.1 "ü'".toList "é=".toList ")".toList (by decide)
  have hlit : IsLiteral "'ü'''".toList :=
    ⟨"ü''".toList, .char (by decide) (.quote .nil), rfl⟩
  exact ⟨hread.bytes, hread.chars, literal_read_back.2 _ _ _ hlit (by decide)⟩

end MetaQuery.Raw
