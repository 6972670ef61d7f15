/-
  MetaQuery/Proofs/Raw/Spans.lean
  ===============================
  Names, quoted identifiers and literals by their positions.

  They are looked for byte by byte, and what is found is cut out of the text (`slice?`).  All that
  is looked for is ASCII, so the cuts are between characters, and what is found is what is found
  character by character: the longest name and its value (`valueAt?_colon`), the closing quote of
  an identifier (`closingAt_readQuoted`), the content of a literal (`literalFrom?_quote`), and what
  is written for a literal (`putLiteralAt?_eq`).
-/
import MetaQuery.Proofs.Raw.Quotes
import MetaQuery.Proofs.Raw.Slices
import MetaQuery.Raw.Substitution

namespace MetaQuery.Raw

/-! ### Names -/

/-- The position behind the name that starts at `start`, from byte `i` of it on. -/
def nameStop (bytes : List UInt8) (start i : Nat) : Nat :=
  if h : i < bytes.length then
    let c := Char.ofUInt8 bytes[i]
    if isNameStart c || (decide (start < i) && c.isDigit) then nameStop bytes start (i + 1) else i
  else i
termination_by bytes.length - i

theorem le_nameStop (bytes : List UInt8) (start i : Nat) :
    i ≤ nameStop bytes start i ∧ (i ≤ bytes.length → nameStop bytes start i ≤ bytes.length) := by
  fun_induction nameStop bytes start i with
  | case1 i h c hc ih => exact ⟨by omega, fun _ => ih.2 (by omega)⟩
  | case2 i h c hc => exact ⟨Nat.le_refl _, id⟩
  | case3 i h => exact ⟨Nat.le_refl _, id⟩

/-- Names are ASCII. -/
theorem isNameRest_ascii {c : Char} (h : isNameRest c = true) : c.toNat < 128 := by
  have hkinds : ((c == '_' || c.isAlpha) || c.isDigit) = true := h
  rw [Bool.or_assoc, ← Char.isAlphanum, Bool.or_eq_true, beq_iff_eq] at hkinds
  rcases hkinds with rfl | halphanum
  · decide
  · exact isAlphanum_ascii halphanum

/-- One character of a name, or the first one behind it. -/
theorem nameStop_cons (pre : List Char) (start : Nat) (c : Char) (r : List Char) :
    nameStop (utf8 (pre ++ c :: r)) start (utf8 pre).length =
      if isNameStart c || (decide (start < (utf8 pre).length) && c.isDigit) then
        nameStop (utf8 (pre ++ c :: r)) start (utf8 (pre ++ [c])).length
      else (utf8 pre).length := by
  obtain ⟨b, hb, hbyte⟩ := exists_getElem?_utf8 pre c r
  obtain ⟨hlt, hget⟩ := List.getElem?_eq_some_iff.1 hbyte
  -- a byte is compared as a character, which is right since names are ASCII
  have hascii : ∀ d : Char, (isNameStart d || (decide (start < (utf8 pre).length) && d.isDigit)) =
      true → d.toNat < 128 := by
    intro d hd
    apply isNameRest_ascii
    rcases Bool.or_eq_true_iff.1 hd with hd | hd
    · rw [isNameRest, hd, Bool.true_or]
    · rw [isNameRest, (Bool.and_eq_true_iff.1 hd).2, Bool.or_true]
  have hread := ofUInt8_eq_of_mem hascii hb
  rw [nameStop, dif_pos hlt, hget]
  dsimp only
  rw [hread]
  split
  · next hname => rw [length_utf8_append_singleton (hascii c hname)]
  · rfl

theorem nameStop_takeWhile (pre : List Char) {start : Nat} (r : List Char)
    (hstart : start < (utf8 pre).length) :
    nameStop (utf8 (pre ++ r)) start (utf8 pre).length =
      (utf8 (pre ++ r.takeWhile isNameRest)).length := by
  induction r generalizing pre with
  | nil =>
    rw [List.takeWhile_nil, List.append_nil, nameStop, dif_neg (Nat.lt_irrefl _)]
  | cons c r ih =>
    rw [nameStop_cons, decide_eq_true hstart, Bool.true_and, ← isNameRest]
    cases hc : isNameRest c with
    | false => simp [hc]
    | true =>
      have hstop := ih (pre ++ [c]) (by rw [length_utf8_append]; omega)
      rw [List.append_assoc, List.append_assoc, List.singleton_append, List.singleton_append]
        at hstop
      rw [if_pos rfl, hstop, List.takeWhile_cons_of_pos hc]

/-- The longest name is found. -/
theorem nameStop_takeName (pre r : List Char) :
    nameStop (utf8 (pre ++ r)) (utf8 pre).length (utf8 pre).length =
      (utf8 (pre ++ (takeName r).1)).length := by
  cases r with
  | nil =>
    rw [List.append_nil, nameStop, dif_neg (Nat.lt_irrefl _)]
    simp [takeName]
  | cons c r =>
    rw [nameStop_cons, decide_eq_false (Nat.lt_irrefl _), Bool.false_and, Bool.or_false, takeName]
    cases hc : isNameStart c with
    | false => simp
    | true =>
      have hrest : isNameRest c = true := by rw [isNameRest, hc, Bool.true_or]
      have hlt : (utf8 pre).length < (utf8 (pre ++ [c])).length := by
        rw [length_utf8_append_singleton (isNameRest_ascii hrest)]
        exact Nat.lt_succ_self _
      -- behind the first character digits count as well
      have hstop := nameStop_takeWhile (pre ++ [c]) r hlt
      rw [List.append_assoc, List.append_assoc, List.singleton_append, List.singleton_append]
        at hstop
      rw [if_pos rfl, if_pos rfl, hstop]

/-- The value of the name that starts at a byte, if there is a name and it is known. -/
def valueAt? (params : Params) (text : List Char) (start : Nat) : Option (Option Json) := do
  let stop := nameStop (utf8 text) start start
  let name ← slice? text start stop
  return if start < stop then Json.lookup (String.ofList name) params else none

/-- Behind a colon the value of a known name is found. -/
theorem valueAt?_colon (params : Params) (pre r : List Char) :
    valueAt? params (pre ++ ':' :: r) ((utf8 pre).length + 1) =
      some ((knownNameAt params (':' :: r)).bind fun n =>
        Json.lookup (String.ofList n) params) := by
  have hcolon : ':'.toNat < 128 := by decide
  have htext : pre ++ ':' :: r = pre ++ [':'] ++ r := by simp
  have hname := slice?_append (pre ++ [':']) (takeName r).1 (takeName r).2
  rw [List.append_assoc _ (takeName r).1, takeName_append] at hname
  rw [valueAt?, ← length_utf8_append_singleton hcolon pre, htext, nameStop_takeName, hname,
    length_utf8_append _ (takeName r).1, knownNameAt]
  -- no name behind the colon: the slice is empty and nothing is looked up
  by_cases hempty : (takeName r).1 = []
  · rw [if_neg fun h => h.2.1 hempty, hempty]
    simp [utf8]
  · have hlength := length_utf8_pos hempty
    cases hvalue : Json.lookup (String.ofList (takeName r).1) params with
    | none => simp [hvalue]
    | some v => simp [hempty, hlength, hvalue]

section
variable {params : Params}

theorem valueAt?_of_none {pre r : List Char} (h : knownNameAt params (':' :: r) = none) :
    valueAt? params (pre ++ ':' :: r) ((utf8 pre).length + 1) = some none := by
  rw [valueAt?_colon, h, Option.bind_none]

variable {n rest : List Char} (hn : IsName n) (hrest : EndsName rest)
include hn hrest

theorem valueAt?_name {v : Json} (hv : Json.lookup (String.ofList n) params = some v)
    {pre : List Char} :
    valueAt? params (pre ++ ':' :: (n ++ rest)) ((utf8 pre).length + 1) = some (some v) := by
  have hknown : knownNameAt params (':' :: (n ++ rest)) = some n :=
    knownNameAt_eq_some_iff.2 ⟨rest, rfl, hn, hrest, Option.isSome_of_eq_some hv⟩
  rw [valueAt?_colon, hknown, Option.bind_some, hv]

theorem nameStop_name {pre : List Char} :
    nameStop (utf8 (pre ++ ':' :: (n ++ rest))) ((utf8 pre).length + 1) ((utf8 pre).length + 1) =
      (utf8 (pre ++ ':' :: n)).length := by
  have hcolon : ':'.toNat < 128 := by decide
  have hstop := nameStop_takeName (pre ++ [':']) (n ++ rest)
  rw [takeName_append_eq hn hrest, length_utf8_append_singleton hcolon, List.append_assoc,
    List.append_assoc, List.singleton_append, List.singleton_append] at hstop
  exact hstop

end

/-! ### Quoted identifiers -/

/-- The position of the next byte `q`, or the end. -/
def closingAt (bytes : List UInt8) (q : UInt8) (i : Nat) : Nat :=
  if h : i < bytes.length then
    if bytes[i] = q then i else closingAt bytes q (i + 1)
  else i
termination_by bytes.length - i

theorem le_closingAt (bytes : List UInt8) (q : UInt8) (i : Nat) :
    i ≤ closingAt bytes q i ∧ (i ≤ bytes.length → closingAt bytes q i ≤ bytes.length) := by
  fun_induction closingAt bytes q i with
  | case1 i h hq => exact ⟨Nat.le_refl _, id⟩
  | case2 i h hq ih => exact ⟨by omega, fun _ => ih.2 (by omega)⟩
  | case3 i h => exact ⟨Nat.le_refl _, id⟩

/-- The closing quote is found, or the end when there is none. -/
theorem closingAt_readQuoted {q : Char} (hq : q.toNat < 128) (pre r : List Char) :
    closingAt (utf8 (pre ++ r)) q.toUInt8 (utf8 pre).length + 1 =
        (utf8 (pre ++ (readQuoted q r).1)).length ∨
      (readQuoted q r).2 = [] ∧
        closingAt (utf8 (pre ++ r)) q.toUInt8 (utf8 pre).length = (utf8 (pre ++ r)).length := by
  induction r generalizing pre with
  | nil =>
    right
    refine ⟨rfl, ?_⟩
    rw [List.append_nil, closingAt, dif_neg (Nat.lt_irrefl _)]
  | cons c r ih =>
    by_cases hc : c = q
    · left
      subst hc
      obtain ⟨hlt, hget⟩ := List.getElem?_eq_some_iff.1 (getElem?_utf8_of_lt hq pre r)
      rw [readQuoted, if_pos rfl, length_utf8_append_singleton hq, closingAt, dif_pos hlt,
        if_pos hget]
    -- no byte of another character closes the identifier
    · have hskip := eq_of_skip_char (g := closingAt (utf8 (pre ++ c :: r)) q.toUInt8) pre c r ?_
      · rw [readQuoted, if_neg hc, hskip]
        have hrest := ih (pre ++ [c])
        rw [List.append_assoc, List.append_assoc] at hrest
        exact hrest
      · intro i b hi hb
        obtain ⟨hlt, hget⟩ := List.getElem?_eq_some_iff.1 hi
        have hother := ne_toUInt8_of_mem hq hc hb
        rw [← hget] at hother
        rw [closingAt, dif_pos hlt, if_neg hother]

/-! ### Literals -/

/-- The content of a literal from byte `i` on, where the characters from `run` on are not copied
    yet, and the position behind its closing quote or the end of the text. -/
def literalFrom? (text : List Char) (i run : Nat) (content : List Char) :
    Option (List Char × Nat) :=
  if h : i < (utf8 text).length then
    if (utf8 text)[i] = quoteByte then
      (slice? text run i).bind fun part =>
        if (utf8 text)[i + 1]? = some quoteByte then
          literalFrom? text (i + 2) (i + 2) (content ++ part ++ ['\''])
        else some (content ++ part, i + 1)
    else literalFrom? text (i + 1) run content
  else (slice? text run (utf8 text).length).map fun part => (content ++ part, (utf8 text).length)
termination_by (utf8 text).length - i

theorem next_of_literalFrom? {text content cs : List Char} {i run next : Nat}
    (h : literalFrom? text i run content = some (cs, next)) (hi : i ≤ (utf8 text).length) :
    i ≤ next ∧ next ≤ (utf8 text).length := by
  fun_induction literalFrom? text i run content with
  | case1 i run content hlt hquote ih =>
    obtain ⟨part, -, hnext⟩ := Option.bind_eq_some_iff.1 h
    split at hnext
    · next hdouble =>
      have hlength := (List.getElem?_eq_some_iff.1 hdouble).1
      have := ih part hnext (by omega)
      omega
    · cases hnext
      omega
  | case2 i run content hlt hquote ih =>
    have := ih h (by omega)
    omega
  | case3 i run content hlt =>
    obtain ⟨part, -, hnext⟩ := Option.map_eq_some_iff.1 h
    cases hnext
    omega

/-- Everything that is copied can be cut out, and its bytes are those of the literal. -/
theorem exists_literalFrom? {text : List Char} {i run : Nat} (hrun : IsBoundary text run)
    (hle : run ≤ i) (hi : i ≤ (utf8 text).length) (content : List Char) :
    ∃ cs next, literalFrom? text i run content = some (cs, next) ∧
      scanLiteral (utf8 text) i run (utf8 content) = (utf8 cs, next) := by
  have hquote : '\''.toNat < 128 := by decide
  fun_induction literalFrom? text i run content with
  | case1 i run content hlt hbyte ih =>
    -- a quote is one byte, so the run up to it ends between two characters
    have hstop := (boundaries_of_ascii hquote (List.getElem?_eq_some_iff.2 ⟨hlt, hbyte⟩)).1
    obtain ⟨part, hpart, hbytes⟩ := exists_slice? hrun hstop hle
    rw [scanLiteral, dif_pos hlt, if_pos hbyte, hpart, Option.bind_some, ← hbytes]
    dsimp only
    split
    · next hnext =>
      have hdouble := (List.getElem?_eq_some_iff.1 hnext).1
      have hrest := ih part (boundaries_of_ascii hquote hnext).2 (Nat.le_refl _) hdouble
      rw [utf8_append, utf8_append] at hrest
      exact hrest
    · refine ⟨_, _, rfl, ?_⟩
      rw [utf8_append]
  | case2 i run content hlt hbyte ih =>
    rw [scanLiteral, dif_pos hlt, if_neg hbyte]
    exact ih hrun (Nat.le_succ_of_le hle) hlt
  | case3 i run content hlt =>
    obtain ⟨part, hpart, hbytes⟩ := exists_slice? hrun (isBoundary_length text) hrun.le
    rw [List.take_of_length_le (by rw [List.length_drop])] at hbytes
    refine ⟨content ++ part, (utf8 text).length, by rw [hpart, Option.map_some], ?_⟩
    rw [scanLiteral, dif_neg hlt, utf8_append, hbytes]

/-- What is found from a quote on is what is found by the characters. -/
theorem literalFrom?_quote (pre r : List Char) :
    literalFrom? (pre ++ '\'' :: r) ((utf8 pre).length + 1) ((utf8 pre).length + 1) [] =
      some ((readLiteral r).1, (utf8 (pre ++ '\'' :: r)).length -
        (utf8 ((readLiteral r).2.getD [])).length) := by
  have hquote : '\''.toNat < 128 := by decide
  have hrun := (boundaries_of_ascii hquote (getElem?_utf8_of_lt hquote pre r)).2
  obtain ⟨cs, next, hfrom, hscan⟩ := exists_literalFrom? hrun (Nat.le_refl _) hrun.le []
  have hread := literalAt_quote pre r
  rw [literalAt, show ([] : List UInt8) = utf8 [] from rfl, hscan] at hread
  obtain ⟨hcontent, hnext⟩ := Prod.mk.inj hread
  rw [hfrom, utf8_injective hcontent, hnext]

/-! ### The parts of a literal -/

/-- The text between two positions as a part of a literal; none when they are the same. -/
def textPart? (content : List Char) (start stop : Nat) : Option (List LiteralPart) :=
  if start < stop then (slice? content start stop).map fun cs => [.text cs] else some []

/-- The parts of a literal up to its last known name, from byte `i` on, where the text from `last`
    on is in no part yet; and the position behind that name. -/
def partsFrom? (params : Params) (content : List Char) (i last : Nat) (parts : List LiteralPart) :
    Option (List LiteralPart × Nat) :=
  if h : i < (utf8 content).length then
    if (utf8 content)[i] = ':'.toUInt8 then
      (valueAt? params content (i + 1)).bind fun
        | some v =>
          let stop := nameStop (utf8 content) (i + 1) (i + 1)
          (textPart? content last i).bind fun before =>
            partsFrom? params content stop stop (parts ++ before ++ [.arg (Cell.ofJson v)])
        | none => partsFrom? params content (i + 1) last parts
    else partsFrom? params content (i + 1) last parts
  else some (parts, last)
termination_by (utf8 content).length - i
decreasing_by
  · have := (le_nameStop (utf8 content) (i + 1) (i + 1)).1
    omega
  · omega
  · omega

/-- A literal behind a fragment. -/
def putLiteralAt? (params : Params) (d : Dialect) (f : Fragment) (content : List Char) :
    Option Fragment := do
  let (parts, last) ← partsFrom? params content 0 0 []
  if parts.isEmpty then return f.putText (String.ofList (quoteLiteral content))
  let rest ← textPart? content last (utf8 content).length
  return (putLiteralParts d (f.putText (concatOpening d)) (parts ++ rest)).putText ")"

/-- Text in front of the parts of a literal, if there is any. -/
def stretch (cs : List Char) (parts : List LiteralPart) : List LiteralPart :=
  if cs = [] then parts else prepend cs parts

theorem stretch_prepend (a b : List Char) (parts : List LiteralPart) (hb : b ≠ []) :
    stretch a (prepend b parts) = stretch (a ++ b) parts := by
  have hab : a ++ b ≠ [] := fun h => hb (List.append_eq_nil_iff.1 h).2
  rw [stretch, stretch, if_neg hab, prepend_prepend]
  split
  · next ha => rw [ha, List.nil_append]
  · rfl

theorem stretch_arg (cs : List Char) (v : Cell) (parts : List LiteralPart) :
    stretch cs (.arg v :: parts) = stretch cs [] ++ .arg v :: parts := by
  rw [stretch, stretch]
  split <;> rfl

theorem any_isArg_stretch_nil (cs : List Char) : (stretch cs []).any (·.isArg) = false := by
  rw [stretch]
  split <;> rfl

theorem textPart?_append (pre part suf : List Char) :
    textPart? (pre ++ part ++ suf) (utf8 pre).length (utf8 (pre ++ part)).length =
      some (stretch part []) := by
  rw [textPart?, slice?_append, length_utf8_append, stretch]
  by_cases hpart : part = []
  · rw [hpart, if_neg (by simp [utf8]), if_pos rfl]
  · have hlength := length_utf8_pos hpart
    rw [if_pos (by omega), if_neg hpart]
    rfl

section
variable {params : Params}

/-- What starts no known name is passed. -/
theorem partsFrom?_of_none {x : Char} {r : List Char} (h : knownNameAt params (x :: r) = none)
    (pre : List Char) (last : Nat) (parts : List LiteralPart) :
    partsFrom? params (pre ++ x :: r) (utf8 pre).length last parts =
      partsFrom? params (pre ++ x :: r) (utf8 (pre ++ [x])).length last parts := by
  have hcolon : ':'.toNat < 128 := by decide
  by_cases hx : x = ':'
  · subst hx
    obtain ⟨hlt, hget⟩ := List.getElem?_eq_some_iff.1 (getElem?_utf8_of_lt hcolon pre r)
    rw [length_utf8_append_singleton hcolon, partsFrom?, dif_pos hlt, if_pos hget,
      valueAt?_of_none h]
    rfl
  -- the bytes of a longer character are passed one by one, and none of them is a colon
  · refine eq_of_skip_char (g := fun i => partsFrom? params (pre ++ x :: r) i last parts) pre x r ?_
    intro i b hi hb
    obtain ⟨hlt, hget⟩ := List.getElem?_eq_some_iff.1 hi
    have hother := ne_toUInt8_of_mem hcolon hx hb
    rw [← hget] at hother
    rw [partsFrom?, dif_pos hlt, if_neg hother]

/-- A known name is a part behind the text in front of it. -/
theorem partsFrom?_name {n rest : List Char} (hn : IsName n) (hrest : EndsName rest)
    (hvalue : (Json.lookup (String.ofList n) params).isSome = true) (front pend : List Char)
    (parts : List LiteralPart) :
    partsFrom? params (front ++ pend ++ ':' :: (n ++ rest)) (utf8 (front ++ pend)).length
        (utf8 front).length parts =
      partsFrom? params (front ++ pend ++ ':' :: (n ++ rest))
        (utf8 (front ++ pend ++ ':' :: n)).length (utf8 (front ++ pend ++ ':' :: n)).length
        (parts ++ stretch pend [] ++ [.arg (valueOf params n)]) := by
  have hcolon : ':'.toNat < 128 := by decide
  obtain ⟨v, hv⟩ := Option.isSome_iff_exists.1 hvalue
  obtain ⟨hlt, hget⟩ := List.getElem?_eq_some_iff.1
    (getElem?_utf8_of_lt hcolon (front ++ pend) (n ++ rest))
  rw [partsFrom?, dif_pos hlt, if_pos hget, valueAt?_name hn hrest hv, Option.bind_some]
  dsimp only
  rw [nameStop_name hn hrest, textPart?_append, valueOf, hv]
  rfl

/-- All parts are found: those up to the last known name, which are none only when there is no
    such name, and the text behind it. -/
theorem exists_partsFrom? (params : Params) (front pend cs : List Char) (parts : List LiteralPart) :
    ∃ new last rest,
      partsFrom? params (front ++ pend ++ cs) (utf8 (front ++ pend)).length (utf8 front).length
        parts = some (parts ++ new, last) ∧
      textPart? (front ++ pend ++ cs) last (utf8 (front ++ pend ++ cs)).length = some rest ∧
      new ++ rest = stretch pend (literalParts params (pieces cs)) ∧
      new.any (·.isArg) = !new.isEmpty ∧ rest.any (·.isArg) = false := by
  cases cs with
  | nil =>
    refine ⟨[], (utf8 front).length, stretch pend [], ?_, ?_, ?_, rfl, any_isArg_stretch_nil pend⟩
    · rw [List.append_nil, partsFrom?, dif_neg (Nat.lt_irrefl _), List.append_nil]
    · have hpart := textPart?_append front pend []
      rwa [List.append_nil] at hpart ⊢
    · rw [pieces]
      rfl
  | cons x r =>
    cases hname : knownNameAt params (x :: r) with
    | none =>
      have hrest := exists_partsFrom? params front (pend ++ [x]) r parts
      rw [← List.append_assoc front, List.append_assoc _ [x], List.singleton_append] at hrest
      rw [partsFrom?_of_none hname, literalParts_cons_of_none hname,
        stretch_prepend _ _ _ (List.cons_ne_nil x [])]
      exact hrest
    | some n =>
      obtain ⟨rest, hcs, hn, hends, hvalue⟩ := knownNameAt_eq_some_iff.1 hname
      -- behind a name the pending text is empty again
      obtain ⟨new, last, tail, hparts, htail, hall, hnew, hnone⟩ := exists_partsFrom? params
        (front ++ pend ++ ':' :: n) [] rest (parts ++ stretch pend [] ++ [.arg (valueOf params n)])
      have htext : front ++ pend ++ ':' :: n ++ [] ++ rest =
          front ++ pend ++ ':' :: (n ++ rest) := by simp
      rw [htext] at hparts htail
      rw [List.append_nil] at hparts
      rw [hcs, partsFrom?_name hn hends hvalue, hparts, literalParts_name_append hn hends hvalue,
        stretch_arg]
      refine ⟨stretch pend [] ++ .arg (valueOf params n) :: new, last, tail, ?_, htail, ?_, ?_,
        hnone⟩
      · simp
      · rw [List.append_assoc, List.cons_append, hall]
        rfl
      · simp [LiteralPart.isArg]
termination_by cs.length
decreasing_by
  · simp
  · rw [hcs, List.length_cons, List.length_append]
    omega

/-- What is written for a literal by the positions in it is what is written by its characters. -/
theorem putLiteralAt?_eq (d : Dialect) (f : Fragment) (content : List Char) :
    putLiteralAt? params d f content = some (putLiteral params d f content) := by
  obtain ⟨new, last, rest, hparts, hrest, hall, hnew, hnone⟩ :=
    exists_partsFrom? params [] [] content []
  have hliteral : literalParts params (pieces content) = new ++ rest := hall.symm
  have hany : (new ++ rest).any (·.isArg) = !new.isEmpty := by
    rw [List.any_append, hnew, hnone, Bool.or_false]
  simp only [List.append_nil, List.nil_append] at hparts hrest
  rw [putLiteralAt?, putLiteral, hliteral, show (0 : Nat) = (utf8 []).length from rfl, hparts]
  dsimp only
  rw [hany]
  -- no argument among the parts: the literal is written back whole
  cases new with
  | nil => rfl
  | cons p new =>
    rw [Option.bind_eq_bind, Option.bind_some, hrest]
    rfl

end

end MetaQuery.Raw
