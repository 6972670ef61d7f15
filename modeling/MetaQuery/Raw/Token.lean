/-
  MetaQuery/Raw/Token.lean
  ========================
  A SQL text written by hand, read as tokens: string literals, quoted identifiers, casts, names
  behind a colon, and all other characters one by one.

  Only what matters for parameters is told apart.  A literal is kept by its content, with doubled
  quotes counted once; what a literal or a quoted identifier lacks at its end, the end of the text
  supplies.
-/
import MetaQuery.Text.Pieces

namespace MetaQuery.Raw

/-! ### Names -/

def isNameStart (c : Char) : Bool := c == '_' || c.isAlpha

def isNameRest (c : Char) : Bool := isNameStart c || c.isDigit

/-- The longest name at the start of a text, and what follows it. -/
def takeName : List Char → List Char × List Char
  | [] => ([], [])
  | c :: r =>
    if isNameStart c then (c :: r.takeWhile isNameRest, r.dropWhile isNameRest) else ([], c :: r)

/-- The name and the rest are the text. -/
theorem takeName_append (cs : List Char) : (takeName cs).1 ++ (takeName cs).2 = cs := by
  cases cs with
  | nil => rfl
  | cons c r => by_cases h : isNameStart c <;> simp [takeName, h]

theorem length_takeName_le (cs : List Char) : (takeName cs).2.length ≤ cs.length := by
  have h := congrArg List.length (takeName_append cs)
  simp only [List.length_append] at h
  omega

/-! ### Literals and quoted identifiers -/

/-- The content of a literal behind its opening quote, and what follows its closing quote; a
    quote written twice is one quote of the content. -/
def readLiteral : List Char → List Char × Option (List Char)
  | [] => ([], none)
  -- a quote written twice is one quote of the content
  | '\'' :: '\'' :: r =>
    let (content, rest) := readLiteral r
    ('\'' :: content, rest)
  | c :: r =>
    if c = '\'' then ([], some r)
    else
      let (content, rest) := readLiteral r
      (c :: content, rest)

theorem length_readLiteral_lt (cs : List Char) :
    ∀ rest, (readLiteral cs).2 = some rest → rest.length < cs.length := by
  fun_induction readLiteral cs with
  | case1 => simp
  | case2 r content rest heq ih =>
    intro out h
    rw [heq] at ih
    have := ih out h
    simp only [List.length_cons]
    omega
  | case3 r _ => simp
  | case4 c r _ hc content rest heq ih =>
    intro out h
    rw [heq] at ih
    have := ih out h
    simp only [List.length_cons]
    omega

/-- A quoted identifier behind its opening quote, with its closing quote, and what follows. -/
def readQuoted (q : Char) : List Char → List Char × List Char
  | [] => ([], [])
  | c :: r =>
    if c = q then ([c], r)
    else
      let (inner, rest) := readQuoted q r
      (c :: inner, rest)

/-- The identifier and the rest are the text. -/
theorem readQuoted_append (q : Char) (cs : List Char) :
    (readQuoted q cs).1 ++ (readQuoted q cs).2 = cs := by
  induction cs with
  | nil => rfl
  | cons c r ih => by_cases h : c = q <;> simp [readQuoted, h, ih]

theorem length_readQuoted_le (q : Char) (cs : List Char) :
    (readQuoted q cs).2.length ≤ cs.length := by
  have h := congrArg List.length (readQuoted_append q cs)
  simp only [List.length_append] at h
  omega

/-! ### Tokens -/

/-- A token of a SQL text. -/
inductive Token where
  /-- A character that means nothing here. -/
  | plain (c : Char)
  /-- A literal by its content, and whether its closing quote was there. -/
  | literal (content : List Char) (closed : Bool)
  /-- A quoted identifier behind its opening quote, as written. -/
  | quoted (q : Char) (rest : List Char)
  /-- Two colons. -/
  | cast
  /-- A colon and a name. -/
  | name (n : List Char)
deriving DecidableEq, Repr

def tokens : List Char → List Token
  | [] => []
  | c :: r =>
    if c = '\'' then
      match _h : readLiteral r with
      -- left open, the literal takes the rest of the text
      | (content, none) => [.literal content false]
      | (content, some rest) => .literal content true :: tokens rest
    else if c = '"' ∨ c = '\x60' then
      .quoted c (readQuoted c r).1 :: tokens (readQuoted c r).2
    else if c = ':' then
      match r with
      | ':' :: r => .cast :: tokens r
      | r =>
        -- a colon that no name follows is a colon
        if (takeName r).1.isEmpty then .plain c :: tokens r
        else .name (takeName r).1 :: tokens (takeName r).2
    else .plain c :: tokens r
termination_by cs => cs.length
decreasing_by
  · have := length_readLiteral_lt r rest (by rw [_h])
    simp only [List.length_cons]; omega
  · have := length_readQuoted_le c r
    simp only [List.length_cons]; omega
  · simp only [List.length_cons]; omega
  · simp
  · have := length_takeName_le r
    simp only [List.length_cons]; omega
  · simp

/-- A piece of the content of a literal. -/
inductive Piece where
  | plain (c : Char)
  | name (n : List Char)
deriving DecidableEq, Repr

/-- The pieces of the content of a literal. -/
def pieces : List Char → List Piece
  | [] => []
  | c :: r =>
    if c = ':' ∧ !(takeName r).1.isEmpty then
      .name (takeName r).1 :: pieces (takeName r).2
    else .plain c :: pieces r
termination_by cs => cs.length
decreasing_by
  · have := length_takeName_le r
    simp only [List.length_cons]; omega
  · simp

/-! ### What tokens are written from -/

/-- A literal as it is written. -/
def quoteLiteral (content : List Char) : List Char := Text.enclose '\'' content

end MetaQuery.Raw
