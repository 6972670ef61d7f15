/-
  MetaQuery/Json/Value.lean
  =========================
  JSON documents as the engine sees them: members keep their order, and whole numbers are kept
  apart from doubles, because a request, a stored record and a bound argument all depend on the
  difference.  Members of one object have distinct names; putting a name in twice keeps the
  place of the first and the value of the last.
-/

namespace MetaQuery

/-- A JSON document. -/
inductive Json where
  | null
  | bool (b : Bool)
  /-- A number written without fraction and exponent that fits a signed or an unsigned word. -/
  | int (i : Int)
  | float (x : Float)
  | str (s : String)
  | arr (items : List Json)
  | obj (members : List (String × Json))
deriving BEq, Repr, Inhabited

namespace Json

/-- The value under a name in a list of members. -/
def lookup (name : String) : List (String × Json) → Option Json
  | [] => none
  | (k, v) :: r => if k = name then some v else lookup name r

/-- The members with a value put under a name: in the place of the old value, or at the end. -/
def put (name : String) (value : Json) : List (String × Json) → List (String × Json)
  | [] => [(name, value)]
  | (k, v) :: r => if k = name then (name, value) :: r else (k, v) :: put name value r

def get? (j : Json) (name : String) : Option Json :=
  match j with
  | .obj members => lookup name members
  | _ => none

def text? : Json → Option String
  | .str s => some s
  | _ => none

def word? : Json → Option UInt64
  | .int i => if 0 ≤ i ∧ i < UInt64.size then some (UInt64.ofNat i.toNat) else none
  | _ => none

theorem lookup_put_self (name : String) (value : Json) (members : List (String × Json)) :
    lookup name (put name value members) = some value := by
  induction members with
  | nil => simp [put, lookup]
  | cons m r ih =>
    obtain ⟨k, v⟩ := m
    by_cases h : k = name <;> simp [put, lookup, h, ih]

theorem lookup_put_of_ne {name other : String} (h : other ≠ name) (value : Json)
    (members : List (String × Json)) :
    lookup other (put name value members) = lookup other members := by
  induction members with
  | nil => simp [put, lookup, Ne.symm h]
  | cons m r ih =>
    obtain ⟨k, v⟩ := m
    by_cases hk : k = name
    · subst hk; simp [put, lookup, Ne.symm h]
    · simp [put, lookup, hk, ih]

end Json

end MetaQuery
