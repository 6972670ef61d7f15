/-
  MetaQuery/Raw/Safety.lean
  =========================
  What a SQL text must not contain: a second statement, a keyword that destroys or grants, or
  parentheses that do not add up.  Quoted spans are data and are not looked into; each counts as
  one blank.  In a span a doubled quote stands for itself.
-/
import MetaQuery.Fault
import MetaQuery.Text.Blank
import MetaQuery.Text.Uppercase

namespace MetaQuery.Raw

/-- A character that opens and closes a quoted span. -/
def isQuote (c : Char) : Bool := c == '\'' || c == '"' || c == '\x60'

/-- The text with every quoted span replaced by a blank; nothing when a span is not closed.
    The first argument is the quote of the span that the text starts in, if it does. -/
def bareFrom : Option Char → List Char → Option (List Char)
  | none, [] => some []
  | none, c :: r => if isQuote c then bareFrom (some c) r else (bareFrom none r).map (c :: ·)
  | some _, [] => none
  -- a span that is closed leaves one blank, so the words beside it stay apart
  | some q, [c] => if c = q then some [' '] else none
  | some q, c :: d :: r =>
    if c ≠ q then bareFrom (some q) (d :: r)
    else if d = q then bareFrom (some q) r
    else (bareFrom none (d :: r)).map (' ' :: ·)

/-- The text with every quoted span replaced by a blank. -/
def bare? (sql : List Char) : Option (List Char) := bareFrom none sql

/-- The keywords that no text may contain. -/
def dangerousKeywords : List String :=
  ["DROP", "TRUNCATE", "ALTER", "GRANT", "REVOKE", "SHUTDOWN", "EXEC"]

def isWordChar (c : Char) : Bool := c.isAlphanum || c == '_'

/-- The words of a text, in upper case. -/
def upperWords (cs : List Char) : List String :=
  (Text.splitBy (fun c => !isWordChar c) (Text.upperChars cs)).map String.ofList

/-- A semicolon with something behind it, or a second one. -/
def severalStatements (cs : List Char) : Bool :=
  let semicolons := cs.count ';'
  decide (1 < semicolons) || (semicolons == 1 && cs.getLast? != some ';')

/-- The hazard of a text without quoted spans and without blanks around it. -/
def bareHazard? (cs : List Char) : Option Hazard :=
  if severalStatements cs then some .severalStatements
  else match (upperWords cs).find? (dangerousKeywords.contains ·) with
    | some word => some (.dangerousKeyword word)
    | none =>
      if cs.count '(' ≠ cs.count ')' then some .unbalancedParentheses else none

/-- The hazard of a SQL text. -/
def hazard? (sql : List Char) : Option Hazard :=
  match bare? (Text.trimBlanks sql) with
  | none => some .unterminatedQuote
  | some cs => bareHazard? (Text.trimBlanks cs)

def checkSafe (sql : String) : Except Fault Unit :=
  match hazard? sql.toList with
  | some h => .error (.hazard h)
  | none => .ok ()

end MetaQuery.Raw
