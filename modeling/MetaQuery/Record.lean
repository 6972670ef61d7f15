/-
  MetaQuery/Record.lean
  =====================
  Records: rows as column names with their cells, in column order.  Setting a column that is
  there replaces its cell in place; a new column goes to the end.
-/
import MetaQuery.Cell

namespace MetaQuery

/-- A row: column names with their cells, in column order. -/
structure Record where
  entries : List (String × Cell)
deriving DecidableEq, Repr, Inhabited

namespace Record

def empty : Record := ⟨[]⟩

/-- The cell under a column name. -/
def find (key : String) : List (String × Cell) → Option Cell
  | [] => none
  | (k, v) :: r => if k = key then some v else find key r

/-- The entries with a cell put under a column name: in the old place, or at the end. -/
def put (key : String) (value : Cell) : List (String × Cell) → List (String × Cell)
  | [] => [(key, value)]
  | (k, v) :: r => if k = key then (key, value) :: r else (k, v) :: put key value r

def get? (r : Record) (key : String) : Option Cell := find key r.entries

def contains (r : Record) (key : String) : Bool := r.entries.any (·.1 == key)

def set (r : Record) (key : String) (value : Cell) : Record := ⟨put key value r.entries⟩

def remove (r : Record) (key : String) : Record := ⟨r.entries.eraseP (·.1 == key)⟩

def keys (r : Record) : List String := r.entries.map (·.1)

def size (r : Record) : Nat := r.entries.length

/-- The record has no columns. -/
def isEmpty (r : Record) : Bool := r.entries.isEmpty

/-- The record of pairs set one after the other. -/
def ofList (pairs : List (String × Cell)) : Record :=
  pairs.foldl (fun r p => r.set p.1 p.2) empty

def ofMembers (members : List (String × Json)) : Record :=
  ofList (members.map fun m => (m.1, Cell.ofJson m.2))

def toJson (r : Record) : Json := .obj (r.entries.map fun e => (e.1, e.2.toJson))

def coder : Json.Coder Record where
  encode := toJson
  decode := fun _ d => match d with
    | .obj members => (Json.finishMembers [] members).mapError .malformed |>.map ofMembers
    | d => .error (d.refuse "a map")

def text (r : Record) : String := r.toJson.text

/-! ### Looking up after an update -/

theorem find_put_self (key : String) (value : Cell) (es : List (String × Cell)) :
    find key (put key value es) = some value := by
  induction es with
  | nil => simp [put, find]
  | cons e r ih =>
    obtain ⟨k, v⟩ := e
    by_cases h : k = key <;> simp [put, find, h, ih]

theorem find_put_of_ne {key other : String} (h : other ≠ key) (value : Cell)
    (es : List (String × Cell)) : find other (put key value es) = find other es := by
  induction es with
  | nil => simp [put, find, Ne.symm h]
  | cons e r ih =>
    obtain ⟨k, v⟩ := e
    by_cases hk : k = key
    · subst hk; simp [put, find, Ne.symm h]
    · simp [put, find, hk, ih]

@[simp] theorem get?_set_self (r : Record) (key : String) (value : Cell) :
    (r.set key value).get? key = some value :=
  find_put_self key value r.entries

theorem get?_set_of_ne {key other : String} (h : other ≠ key) (r : Record) (value : Cell) :
    (r.set key value).get? other = r.get? other :=
  find_put_of_ne h value r.entries

end Record

end MetaQuery
