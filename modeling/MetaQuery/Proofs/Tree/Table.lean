/-
  MetaQuery/Proofs/Tree/Table.lean
  ================================
  The table behind a tree, and what a log makes of it.

  A row counts by its key and by the key of its parent.  Rows are linked by the texts of these
  keys, which is what the engine compares; NULL names no row.  `tableAfter` replays the changes of
  a log on a table, read off the texts of the statements, with the comparison of keys left to the
  datasource.  A change in a transaction shows only when the transaction is committed, and what a
  statement of any other form does is not known.
-/
import Mathlib.Data.List.Nodup
import Mathlib.Logic.Relation
import MetaQuery.Pattern.Reader
import MetaQuery.Proofs.Session.Effect
import MetaQuery.Query.Write

namespace MetaQuery

/-! ### Rows and links -/

/-- The cell is a key with this text.  NULL is none, although its text is the empty one. -/
def Cell.Names (v : Cell) (text : String) : Prop := v.isNull = false ∧ v.display = text

instance (v : Cell) (text : String) : Decidable (v.Names text) :=
  inferInstanceAs (Decidable (_ ∧ _))

structure TreeRow where
  key : Cell
  parent : Cell
deriving DecidableEq, Repr

abbrev TreeTable := List TreeRow

namespace TreeTable

variable {T : TreeTable}

def texts (T : TreeTable) : List String := T.map (·.key.display)

/-- No key is NULL, and no two rows have keys with one text. -/
structure Keyed (T : TreeTable) : Prop where
  not_null : ∀ r ∈ T, r.key.isNull = false
  distinct : T.texts.Nodup

/-- A row with the first key has the second one as its parent. -/
def Link (T : TreeTable) (child parent : String) : Prop :=
  ∃ r ∈ T, r.key.display = child ∧ r.parent.Names parent

/-- No row is its own ancestor. -/
def IsForest (T : TreeTable) : Prop :=
  ∀ r ∈ T, ¬ Relation.TransGen T.Link r.key.display r.key.display

theorem Link.mem_texts {child parent : String} (h : T.Link child parent) : child ∈ T.texts := by
  obtain ⟨r, hr, rfl, -⟩ := h
  exact List.mem_map_of_mem hr

/-- Keys that can be ranked, parents below their children, are those of a forest. -/
theorem isForest_of_rank (rank : String → Nat)
    (h : ∀ r ∈ T, r.parent.isNull = false → rank r.parent.display < rank r.key.display) :
    T.IsForest := by
  have hless : ∀ {first last : String}, Relation.TransGen T.Link first last →
      rank last < rank first := by
    have hlink : ∀ {child parent : String}, T.Link child parent → rank parent < rank child := by
      rintro child parent ⟨r, hr, rfl, hnull, rfl⟩
      exact h r hr hnull
    intro first last hup
    induction hup with
    | single hlast => exact hlink hlast
    | tail _ hlast ih => exact Nat.lt_trans (hlink hlast) ih
  intro r _ hloop
  exact Nat.lt_irrefl _ (hless hloop)

theorem IsForest.no_loop (hT : T.IsForest) {text : String} :
    ¬ Relation.TransGen T.Link text text := by
  intro hloop
  obtain ⟨next, hlink, -⟩ := Relation.TransGen.head'_iff.1 hloop
  obtain ⟨r, hr, rfl, -⟩ := hlink
  exact hT r hr hloop

/-! ### Changes -/

section Changes

variable (same : Cell → Cell → Bool)

def without (key : Cell) (T : TreeTable) : TreeTable := T.filter fun r => !same r.key key

def reparent (key parent : Cell) (T : TreeTable) : TreeTable :=
  T.map fun r => if same r.key key then { r with parent := parent } else r

end Changes

theorem without_eq_self {same : Cell → Cell → Bool} {key : Cell}
    (h : ∀ r ∈ T, same r.key key = false) : T.without same key = T := by
  refine List.filter_eq_self.2 fun r hr => ?_
  rw [h r hr, Bool.not_false]

theorem not_mem_without {same : Cell → Cell → Bool} {key : Cell} {r : TreeRow}
    (h : r ∉ T ∨ same r.key key = true) : r ∉ T.without same key := by
  intro hmem
  obtain ⟨hr, hkey⟩ := List.mem_filter.1 hmem
  rcases h with h | h
  · exact h hr
  · rw [h] at hkey
    cases hkey

end TreeTable

namespace Model

/-- A key as it is bound for the key column. -/
def boundKey (m : Model) (key : Cell) : Cell := coerceTo (m.field? m.key) key

/-- A key as it is bound for the parent column. -/
def boundParent (m : Model) (key : Cell) : Cell := coerceTo (m.field? m.entry.parentField) key

theorem isNull_boundKey (m : Model) (key : Cell) : (m.boundKey key).isNull = key.isNull :=
  isNull_coerceTo _ key

theorem isNull_boundParent (m : Model) (key : Cell) : (m.boundParent key).isNull = key.isNull :=
  isNull_coerceTo _ key

/-- The text that deletes the row with a key. -/
def deleteText (m : Model) (target : String) : String :=
  "DELETE FROM " ++ target ++ " WHERE " ++ m.dialect.quote m.key ++ " = " ++
    m.dialect.placeholder 1

/-- The text that gives the row with a key another parent. -/
def reparentText (m : Model) (target : String) : String :=
  "UPDATE " ++ target ++ " SET " ++
    (m.dialect.quote m.entry.parentField ++ " = " ++ m.dialect.placeholder 1) ++ " WHERE " ++
    m.dialect.quote m.key ++ " = " ++ m.dialect.placeholder 2

/-- What a change makes of the table; `same` says whether the datasource takes the key of a row
    for a bound one. -/
def effect (m : Model) (same : Cell → Cell → Bool) (text : String) (args : List Cell)
    (T : TreeTable) : Option TreeTable :=
  match m.target, args with
  | .ok target, [key] => if text = m.deleteText target then some (T.without same key) else none
  | .ok target, [parent, key] =>
    if text = m.reparentText target then some (T.reparent same key parent) else none
  | _, _ => none

end Model

/-! ### Replaying a log -/

/-- A table as it is kept, and as the transaction that is open sees it; none when unknown. -/
structure Contents where
  durable : Option TreeTable
  pending : Option TreeTable

namespace Contents

variable (m : Model) (same : Cell → Cell → Bool)

def step (c : Contents) : Event → Contents
  | .began target none =>
    if target = .data m.connection then { c with pending := c.durable } else c
  | .committed target none =>
    if target = .data m.connection then { c with durable := c.pending } else c
  | .executed target inTransaction text args (.rows _ _) =>
    if target = .data m.connection ∧ isChangeText text = true then
      if inTransaction then { c with pending := c.pending.bind (m.effect same text args) }
      else { c with durable := c.durable.bind (m.effect same text args) }
    else c
  | _ => c

/-- Events that keep what is durable: no commit that succeeds, no change by itself. -/
def Idle (ev : Event) : Prop :=
  (∀ target, ev ≠ .committed target none) ∧
    ∀ target text args rows affected, ev = .executed target false text args (.rows rows affected) →
      isChangeText text = false

variable {m same}

theorem durable_step {ev : Event} (h : Idle ev) (c : Contents) :
    (c.step m same ev).durable = c.durable := by
  unfold step
  split
  · split <;> rfl
  · next target => exact absurd rfl (h.1 target)
  · next target inTransaction text args rows affected =>
    cases inTransaction with
    | true => split <;> rfl
    | false =>
      rw [h.2 _ _ _ _ _ rfl, if_neg]
      rintro ⟨-, ⟨⟩⟩
  · rfl

theorem durable_foldl {log : List Event} (h : ∀ ev ∈ log, Idle ev) (c : Contents) :
    (log.foldl (step m same) c).durable = c.durable := by
  induction log generalizing c with
  | nil => rfl
  | cons ev log ih =>
    rw [List.foldl_cons, ih fun x hx => h x (List.mem_cons_of_mem _ hx)]
    exact durable_step (h ev List.mem_cons_self) c

theorem step_quiet {ev : Event} (h : Quiet ev) (c : Contents) : c.step m same ev = c := by
  cases h with
  | connected connection url failure => rfl
  | @read target text args reply h =>
    cases reply with
    | failure cause => rfl
    | rows rows affected => exact if_neg fun hchange => by simp [h] at hchange

theorem foldl_quiet {log : List Event} (h : ∀ ev ∈ log, Quiet ev) (c : Contents) :
    log.foldl (step m same) c = c := by
  induction log with
  | nil => rfl
  | cons ev log ih =>
    rw [List.foldl_cons, step_quiet (h ev List.mem_cons_self)]
    exact ih fun x hx => h x (List.mem_cons_of_mem _ hx)

end Contents

/-- What a log leaves of the table that a model's rows are kept in; none when unknown. -/
def tableAfter (m : Model) (same : Cell → Cell → Bool) (T : TreeTable) (log : List Event) :
    Option TreeTable :=
  (log.foldl (Contents.step m same) ⟨some T, some T⟩).durable

/-- A log that leaves nothing leaves the table as it is. -/
theorem LeavesNothing.tableAfter {log : List Event} (h : LeavesNothing log) (m : Model)
    (same : Cell → Cell → Bool) (T : TreeTable) : tableAfter m same T log = some T := by
  refine Contents.durable_foldl (fun ev hev => ⟨?_, ?_⟩) _
  · rintro target rfl
    exact h.none_committed target hev
  · rintro target text args rows affected rfl
    exact h.none_alone target text args rows affected hev

/-! ### A tree to look at -/

/-- A session with one model in its catalog, whose datasource is open, and replies to come. -/
def sessionOf (m : Model) (replies : List Reply) : Session where
  store := .memory { models := [m.entry], tables := m.tables, fields := m.fields }
  rules := Pattern.read
  opened := [m.connection]
  idAt := fun _ => ""
  answers := { replies := replies }

/-- A datasource that compares keys by their texts. -/
def sameText (stored bound : Cell) : Bool := !stored.isNull && stored.display == bound.display

end MetaQuery
