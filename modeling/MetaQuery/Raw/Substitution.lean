/-
  MetaQuery/Raw/Substitution.lean
  ===============================
  Parameters in a SQL text written by hand.  A colon and the name of a known parameter become a
  bound argument; unknown names stay as written, and so do casts and quoted identifiers.  Inside
  a literal a known name splits it, and what is left of it and the arguments are concatenated.
-/
import MetaQuery.Query.Predicate
import MetaQuery.Raw.Token

namespace MetaQuery.Raw

/-- A part of a literal: text of it, or an argument. -/
inductive LiteralPart where
  | text (cs : List Char)
  | arg (v : Cell)
deriving DecidableEq, Repr

/-- Characters put before the parts of a literal. -/
def prepend (cs : List Char) : List LiteralPart → List LiteralPart
  | .text ds :: r => .text (cs ++ ds) :: r
  | r => .text cs :: r

/-- The parts of a literal: known names are arguments, all else is text. -/
def literalParts (params : Params) : List Piece → List LiteralPart
  | [] => []
  | .plain c :: r => prepend [c] (literalParts params r)
  | .name n :: r =>
    match Json.lookup (String.ofList n) params with
    | some v => .arg (Cell.ofJson v) :: literalParts params r
    | none => prepend (':' :: n) (literalParts params r)

def LiteralPart.isArg : LiteralPart → Bool
  | .arg _ => true
  | .text _ => false

/-- A part of a literal behind a fragment. -/
def putLiteralPart (f : Fragment) : LiteralPart → Fragment
  | .text cs => f.putText (String.ofList (quoteLiteral cs))
  | .arg v => f.putArg v

/-- How a concatenation is opened. -/
def concatOpening : Dialect → String
  | .mysql => "CONCAT("
  | _ => "("

/-- What stands between the parts of a concatenation. -/
def concatSeparator : Dialect → String
  | .mysql => ", "
  | _ => " || "

/-- The parts of a concatenation behind a fragment. -/
def putLiteralParts (d : Dialect) (f : Fragment) : List LiteralPart → Fragment
  | [] => f
  | [p] => putLiteralPart f p
  | p :: r => putLiteralParts d ((putLiteralPart f p).putText (concatSeparator d)) r

/-- A literal behind a fragment. -/
def putLiteral (params : Params) (d : Dialect) (f : Fragment) (content : List Char) : Fragment :=
  let parts := literalParts params (pieces content)
  if parts.any (·.isArg) then
    (putLiteralParts d (f.putText (concatOpening d)) parts).putText ")"
  else f.putText (String.ofList (quoteLiteral content))

/-- A token behind a fragment. -/
def putToken (params : Params) (d : Dialect) (f : Fragment) : Token → Fragment
  | .plain c => f.putText (String.singleton c)
  | .literal content _ => putLiteral params d f content
  | .quoted q rest => f.putText (String.ofList (q :: rest))
  | .cast => f.putText "::"
  | .name n =>
    match Json.lookup (String.ofList n) params with
    | some v => f.putArg (Cell.ofJson v)
    | none => f.putText (String.ofList (':' :: n))

/-- A SQL text with its parameters bound. -/
def substitute (params : Params) (d : Dialect) (sql : List Char) : Fragment :=
  (tokens sql).foldl (putToken params d) .empty

end MetaQuery.Raw
