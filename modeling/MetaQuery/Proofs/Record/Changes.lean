/-
  MetaQuery/Proofs/Record/Changes.lean
  ====================================
  A record is a map that keeps its columns in order.

  What a record holds is told by the changes that it went through, and those by which it was built
  are the first of them.  A column has the cell that it was set to last, unless it was removed since
  (`LastSet`).  Columns stand in the order in which they came in, where a column comes in when it is
  set while it is absent (`CameIn`).  The record itself is a plain list, and that no column stands
  in it twice is not part of its type.  So all of this is one invariant (`Follows`): each change
  keeps it (`Follows.change`), and hence every run of changes does.
-/
import Mathlib.Data.List.Nodup
import MetaQuery.Proofs.Query.Stamping
import MetaQuery.Request.Listing

namespace MetaQuery.Record

/-! ### Changes -/

/-- A change of a record. -/
inductive Change where
  | set (key : String) (value : Cell)
  | remove (key : String)
deriving DecidableEq, Repr

def Change.key : Change → String
  | .set key _ => key
  | .remove key => key

/-- The record after a change. -/
def change (r : Record) : Change → Record
  | .set key value => r.set key value
  | .remove key => r.remove key

/-- The record after some changes, earliest first. -/
def after (r : Record) (changes : List Change) : Record := changes.foldl change r

/-- The changes that build a record from pairs. -/
def settings (pairs : List (String × Cell)) : List Change := pairs.map fun p => .set p.1 p.2

/-- The last change of a column sets it to the value. -/
def LastSet (history : List Change) (key : String) (value : Cell) : Prop :=
  ∃ before later, history = before ++ .set key value :: later ∧ ∀ c ∈ later, c.key ≠ key

/-- A column that is there came in by the `i`-th change: it was set while it was absent, and has not
    been removed since then. -/
structure CameIn (history : List Change) (key : String) (i : Nat) : Prop where
  set : ∃ value, history[i]? = some (.set key value)
  absent : ¬∃ value, LastSet (history.take i) key value
  kept : .remove key ∉ history.drop i

section Histories

variable {history : List Change} {c : Change} {key : String} {value : Cell} {i : Nat}

theorem lastSet_snoc : LastSet (history ++ [c]) key value ↔
    c = .set key value ∨ c.key ≠ key ∧ LastSet history key value := by
  constructor
  · rintro ⟨before, later, heq, hlater⟩
    -- the last change is the one set, or it is a later one of another key
    rcases List.eq_nil_or_concat' later with rfl | ⟨later, d, rfl⟩
    · obtain ⟨-, hlast⟩ := List.append_inj' heq rfl
      exact .inl (List.cons.inj hlast).1
    · have hassoc : before ++ .set key value :: (later ++ [d]) =
          before ++ .set key value :: later ++ [d] := by simp
      rw [hassoc] at heq
      obtain ⟨hhistory, hlast⟩ := List.append_inj' heq rfl
      obtain rfl : c = d := (List.cons.inj hlast).1
      refine .inr ⟨hlater c (by simp), before, later, hhistory, fun e he => ?_⟩
      exact hlater e (List.mem_append_left _ he)
  · rintro (rfl | ⟨hne, before, later, rfl, hlater⟩)
    · exact ⟨history, [], rfl, by simp⟩
    · refine ⟨before, later ++ [c], by simp, fun d hd => ?_⟩
      rcases List.mem_append.1 hd with hd | hd
      · exact hlater d hd
      · rwa [List.mem_singleton.1 hd]

theorem not_lastSet_nil : ¬LastSet [] key value := by
  rintro ⟨before, later, heq, -⟩
  simp at heq

theorem CameIn.lt (h : CameIn history key i) : i < history.length := by
  obtain ⟨value, hvalue⟩ := h.set
  exact (List.getElem?_eq_some_iff.1 hvalue).1

theorem cameIn_snoc : CameIn (history ++ [c]) key i ↔
    CameIn history key i ∧ c ≠ .remove key ∨
      i = history.length ∧ (∃ value, c = .set key value) ∧ ¬∃ value, LastSet history key value := by
  -- the step `i` is an earlier one, the last one or none at all
  rcases Nat.lt_trichotomy i history.length with hlt | rfl | hgt
  · have hset : (history ++ [c])[i]? = history[i]? := List.getElem?_append_left hlt
    have htake : (history ++ [c]).take i = history.take i :=
      List.take_append_of_le_length (Nat.le_of_lt hlt)
    have hdrop : (history ++ [c]).drop i = history.drop i ++ [c] :=
      List.drop_append_of_le_length (Nat.le_of_lt hlt)
    constructor
    · rintro ⟨hvalue, habsent, hkept⟩
      rw [hset] at hvalue
      rw [htake] at habsent
      rw [hdrop, List.mem_append, not_or, List.mem_singleton] at hkept
      exact .inl ⟨⟨hvalue, habsent, hkept.1⟩, Ne.symm hkept.2⟩
    · rintro (⟨⟨hvalue, habsent, hkept⟩, hc⟩ | ⟨rfl, -⟩)
      · refine ⟨hset ▸ hvalue, htake ▸ habsent, ?_⟩
        rw [hdrop, List.mem_append, not_or, List.mem_singleton]
        exact ⟨hkept, Ne.symm hc⟩
      · exact absurd hlt (Nat.lt_irrefl _)
  · constructor
    · rintro ⟨hvalue, habsent, -⟩
      rw [List.getElem?_concat_length] at hvalue
      rw [List.take_left] at habsent
      obtain ⟨value, hvalue⟩ := hvalue
      exact .inr ⟨rfl, ⟨value, Option.some.inj hvalue⟩, habsent⟩
    · rintro (⟨hcame, -⟩ | ⟨-, ⟨value, rfl⟩, habsent⟩)
      · exact absurd hcame.lt (Nat.lt_irrefl _)
      · refine ⟨⟨value, List.getElem?_concat_length⟩, ?_, ?_⟩
        · rwa [List.take_left]
        · simp
  · constructor
    · intro hcame
      have hle := hcame.lt
      rw [List.length_append, List.length_singleton] at hle
      omega
    · rintro (⟨hcame, -⟩ | ⟨rfl, -⟩)
      · exact absurd hcame.lt (Nat.lt_asymm hgt)
      · exact absurd hgt (Nat.lt_irrefl _)

end Histories

/-! ### Records that follow their changes -/

/-- A record holds what its changes say. -/
structure Follows (history : List Change) (r : Record) : Prop where
  nodup : r.keys.Nodup
  get? : ∀ key value, r.get? key = some value ↔ LastSet history key value
  cameIn : ∀ key, key ∈ r.keys ↔ ∃ i, CameIn history key i
  ordered : r.keys.Pairwise fun k l => ∀ i j, CameIn history k i → CameIn history l j → i < j

section Steps

variable {history : List Change} {r : Record} {key : String} {value : Cell}

theorem follows_empty : Follows [] empty where
  nodup := List.nodup_nil
  get? key value := iff_of_false (by simp [Record.get?, empty, find]) not_lastSet_nil
  cameIn key := by
    refine iff_of_false List.not_mem_nil ?_
    rintro ⟨i, hcame⟩
    exact absurd hcame.lt (Nat.not_lt_zero i)
  ordered := .nil

theorem Follows.mem_keys_iff (h : Follows history r) :
    key ∈ r.keys ↔ ∃ value, LastSet history key value := by
  rw [Record.mem_keys_iff]
  exact exists_congr fun value => h.get? key value

theorem keys_set_of_mem (h : key ∈ r.keys) (value : Cell) : (r.set key value).keys = r.keys := by
  rw [keys_set, addName, if_pos (List.contains_iff_mem.2 h)]

theorem keys_set_of_not_mem (h : key ∉ r.keys) (value : Cell) :
    (r.set key value).keys = r.keys ++ [key] := by
  rw [keys_set, addName, if_neg (mt List.contains_iff_mem.1 h)]

/-- A change concerns no other column than its own. -/
theorem cameIn_snoc_of_ne (c : Change) (hkey : c.key ≠ key) {i : Nat} :
    CameIn (history ++ [c]) key i ↔ CameIn history key i := by
  rw [cameIn_snoc]
  constructor
  · rintro (⟨hcame, -⟩ | ⟨-, ⟨value, rfl⟩, -⟩)
    · exact hcame
    · exact absurd rfl hkey
  · intro hcame
    refine .inl ⟨hcame, ?_⟩
    rintro rfl
    exact hkey rfl

/-- A column that is there stays where it came in. -/
theorem Follows.cameIn_set_of_mem (h : Follows history r) (hmem : key ∈ r.keys) {k : String}
    {i : Nat} : CameIn (history ++ [.set key value]) k i ↔ CameIn history k i := by
  by_cases hkey : key = k
  · subst hkey
    rw [cameIn_snoc]
    constructor
    · rintro (⟨hcame, -⟩ | ⟨-, -, habsent⟩)
      · exact hcame
      · exact absurd (h.mem_keys_iff.1 hmem) habsent
    · intro hcame
      exact .inl ⟨hcame, by simp⟩
  · exact cameIn_snoc_of_ne (.set key value) hkey

/-- A column that is absent comes in now. -/
theorem Follows.cameIn_set_of_not_mem (h : Follows history r) (hmem : key ∉ r.keys) {i : Nat} :
    CameIn (history ++ [.set key value]) key i ↔ i = history.length := by
  rw [cameIn_snoc]
  constructor
  · rintro (⟨hcame, -⟩ | ⟨hi, -⟩)
    · exact absurd ((h.cameIn key).2 ⟨i, hcame⟩) hmem
    · exact hi
  · intro hi
    exact .inr ⟨hi, ⟨value, rfl⟩, mt h.mem_keys_iff.2 hmem⟩

theorem not_cameIn_remove {i : Nat} : ¬CameIn (history ++ [.remove key]) key i := by
  rw [cameIn_snoc]
  rintro (⟨-, hne⟩ | ⟨-, ⟨value, hset⟩, -⟩)
  · exact hne rfl
  · cases hset

theorem get?_set (r : Record) (key : String) (value : Cell) (k : String) :
    (r.set key value).get? k = if key = k then some value else r.get? k := by
  split
  · next hkey => rw [← hkey, get?_set_self]
  · next hkey => rw [get?_set_of_ne (Ne.symm hkey)]

theorem Follows.get?_set_iff (h : Follows history r) (k : String) (v : Cell) :
    (r.set key value).get? k = some v ↔ LastSet (history ++ [.set key value]) k v := by
  rw [get?_set, lastSet_snoc, ← h.get?]
  by_cases hkey : key = k
  · simp [hkey, Change.key]
  · simp [hkey, Change.key]

theorem Follows.set (h : Follows history r) (key : String) (value : Cell) :
    Follows (history ++ [.set key value]) (r.set key value) := by
  by_cases hmem : key ∈ r.keys
  -- a key that is there keeps the place it came in with
  · have hkeys := keys_set_of_mem hmem value
    refine ⟨hkeys ▸ h.nodup, h.get?_set_iff, fun k => ?_, ?_⟩
    · rw [hkeys, h.cameIn]
      exact exists_congr fun i => (h.cameIn_set_of_mem hmem).symm
    · rw [hkeys]
      refine h.ordered.imp fun {k l} hkl i j hi hj => ?_
      exact hkl i j ((h.cameIn_set_of_mem hmem).1 hi) ((h.cameIn_set_of_mem hmem).1 hj)
  -- a new key comes in with this step, behind all the others
  · have hkeys := keys_set_of_not_mem hmem value
    have hne : ∀ k ∈ r.keys, key ≠ k := by
      rintro k hk rfl
      exact hmem hk
    refine ⟨?_, h.get?_set_iff, fun k => ?_, ?_⟩
    · rw [hkeys]
      rw [← List.concat_eq_append]
      exact List.Nodup.concat hmem h.nodup
    · rw [hkeys, List.mem_append, List.mem_singleton]
      by_cases hk : k = key
      · subst hk
        refine iff_of_true (.inr rfl) ⟨history.length, ?_⟩
        exact (h.cameIn_set_of_not_mem hmem).2 rfl
      · rw [or_iff_left hk, h.cameIn]
        exact exists_congr fun i => (cameIn_snoc_of_ne (.set key value) (Ne.symm hk)).symm
    · rw [hkeys, List.pairwise_append]
      refine ⟨?_, List.pairwise_singleton _ _, ?_⟩
      · refine h.ordered.imp_of_mem fun {k l} hk hl hkl i j hi hj => ?_
        have hi' := (cameIn_snoc_of_ne (.set key value) (hne k hk)).1 hi
        have hj' := (cameIn_snoc_of_ne (.set key value) (hne l hl)).1 hj
        exact hkl i j hi' hj'
      · intro k hk l hl i j hi hj
        obtain rfl := List.mem_singleton.1 hl
        rw [(h.cameIn_set_of_not_mem hmem).1 hj]
        exact ((cameIn_snoc_of_ne (.set l value) (hne k hk)).1 hi).lt

theorem Follows.remove (h : Follows history r) (key : String) :
    Follows (history ++ [.remove key]) (r.remove key) := by
  have hkeys : (r.without [key]).keys = r.keys.filter fun k => !([key].contains k) :=
    keys_without r [key]
  have hmem : ∀ k, k ∈ (r.without [key]).keys ↔ k ∈ r.keys ∧ key ≠ k := by
    intro k
    rw [hkeys, List.mem_filter]
    simp [ne_comm (a := key)]
  rw [remove_eq_without h.nodup]
  refine ⟨?_, fun k v => ?_, fun k => ?_, ?_⟩
  · rw [hkeys]
    exact h.nodup.filter _
  · rw [lastSet_snoc]
    by_cases hkey : key = k
    · subst hkey
      rw [get?_without_of_mem (List.mem_singleton_self key)]
      simp [Change.key]
    · rw [get?_without_of_not_mem (by simpa using Ne.symm hkey), h.get?]
      simp [Change.key, hkey]
  · rw [hmem, h.cameIn]
    constructor
    · rintro ⟨⟨i, hcame⟩, hkey⟩
      exact ⟨i, (cameIn_snoc_of_ne (.remove key) hkey).2 hcame⟩
    · rintro ⟨i, hcame⟩
      have hkey : key ≠ k := by
        rintro rfl
        exact not_cameIn_remove hcame
      exact ⟨⟨i, (cameIn_snoc_of_ne (.remove key) hkey).1 hcame⟩, hkey⟩
  -- the keys that stay came in at the same steps as before
  · have hordered := h.ordered.filter fun k => !([key].contains k)
    rw [← hkeys] at hordered
    refine hordered.imp_of_mem fun {k l} hk hl hkl i j hi hj => ?_
    have hi' := (cameIn_snoc_of_ne (.remove key) ((hmem k).1 hk).2).1 hi
    have hj' := (cameIn_snoc_of_ne (.remove key) ((hmem l).1 hl).2).1 hj
    exact hkl i j hi' hj'

/-- **Each change keeps the record with its history.** -/
theorem Follows.change (h : Follows history r) (c : Change) :
    Follows (history ++ [c]) (r.change c) := by
  cases c with
  | set key value => exact h.set key value
  | remove key => exact h.remove key

theorem Follows.after (h : Follows history r) (changes : List Change) :
    Follows (history ++ changes) (r.after changes) := by
  induction changes generalizing history r with
  | nil =>
    rw [List.append_nil]
    exact h
  | cons c rest ih =>
    have hrest := ih (h.change c)
    rwa [List.append_assoc, List.singleton_append] at hrest

end Steps

/-! ### Views -/

section Views

variable {r : Record} {key : String}

/-- A column that is there keeps its place, and no other entry changes. -/
theorem entries_set_of_mem (h : r.keys.Nodup) (hmem : key ∈ r.keys) (value : Cell) :
    (r.set key value).entries = r.entries.map fun e => if e.1 = key then (key, value) else e := by
  obtain ⟨es⟩ := r
  change put key value es = es.map fun e => if e.1 = key then (key, value) else e
  rw [keys] at h hmem
  induction es with
  | nil => cases hmem
  | cons e rest ih =>
    obtain ⟨k, v⟩ := e
    rw [List.map_cons, List.nodup_cons] at h
    by_cases hk : k = key
    · subst hk
      -- without repetitions no later entry has this key
      have hothers : rest.map (fun e => if e.1 = k then (k, value) else e) = rest.map id := by
        apply List.map_congr_left
        intro e he
        apply if_neg
        intro hsame
        exact h.1 (List.mem_map.2 ⟨e, he, hsame⟩)
      rw [put, if_pos rfl, List.map_cons, if_pos rfl, hothers, List.map_id]
    · have hrest := ih h.2 ((List.mem_cons.1 hmem).resolve_left (Ne.symm hk))
      rw [put, if_neg hk, List.map_cons, if_neg hk, hrest]

theorem lookup_map_toJson (key : String) (es : List (String × Cell)) :
    Json.lookup key (es.map fun e => (e.1, e.2.toJson)) = (find key es).map Cell.toJson := by
  induction es with
  | nil => rfl
  | cons e rest ih =>
    by_cases hk : e.1 = key
    · simp [Json.lookup, find, hk]
    · simp [Json.lookup, find, hk, ih]

end Views

/-- A record as an ordered map: it holds what its changes say, and so do all views of it. -/
structure OrderedMap (history : List Change) (r : Record) : Prop extends Follows history r where
  replaces : ∀ key value, key ∈ r.keys → (r.set key value).entries =
    r.entries.map fun e => if e.1 = key then (key, value) else e
  size : r.size = r.keys.length
  contains : ∀ key, r.contains key = true ↔ ∃ value, LastSet history key value
  json : ∃ members, r.toJson = .obj members ∧ members.map (·.1) = r.keys ∧
    ∀ key, Json.lookup key members = (r.get? key).map Cell.toJson

theorem Follows.orderedMap {history : List Change} {r : Record} (h : Follows history r) :
    OrderedMap history r where
  toFollows := h
  replaces key value hmem := entries_set_of_mem h.nodup hmem value
  size := by rw [Record.size, keys, List.length_map]
  contains key := by
    rw [contains_eq, Option.isSome_iff_exists]
    exact exists_congr fun value => h.get? key value
  json := by
    refine ⟨_, rfl, ?_, fun key => lookup_map_toJson key r.entries⟩
    rw [keys, List.map_map]
    rfl

theorem after_settings (r : Record) (pairs : List (String × Cell)) :
    r.after (settings pairs) = pairs.foldl (fun r p => r.set p.1 p.2) r := by
  rw [after, settings, List.foldl_map]
  rfl

/-- A record built from pairs went through the changes that set them. -/
theorem follows_ofList (pairs : List (String × Cell)) (changes : List Change) :
    Follows (settings pairs ++ changes) ((ofList pairs).after changes) := by
  have hbuilt := follows_empty.after (settings pairs)
  rw [List.nil_append, after_settings] at hbuilt
  exact hbuilt.after changes

/-- The cells of the members of an object. -/
def cellsOf (members : List (String × Json)) : List (String × Cell) :=
  members.map fun m => (m.1, Cell.ofJson m.2)

/-- What is read from a text is the record of the members of an object. -/
theorem members_of_decode {origin : Json.Origin} {draft : Json.Draft} {r : Record}
    (h : coder.decode origin draft = .ok r) : ∃ drafts members,
      draft = .obj drafts ∧ Json.finishMembers [] drafts = .ok members ∧ r = ofMembers members := by
  cases draft with
  | obj drafts =>
    simp only [coder] at h
    cases hmembers : Json.finishMembers [] drafts with
    | error flaw =>
      rw [hmembers] at h
      cases h
    | ok members =>
      rw [hmembers] at h
      exact ⟨drafts, members, rfl, hmembers, (Except.ok.inj h).symm⟩
  -- a record is read from an object and nothing else
  | null => cases h
  | bool b => cases h
  | int i => cases h
  | float x => cases h
  | str s => cases h
  | arr items => cases h
  | faulty flaw => cases h
  | broken flaw => cases h

/-- **A record is a map that keeps its columns in order.**  This holds of every record that is built
    from pairs, from an object, or from the text of one, and then changed in any way. -/
theorem ordered_map_of_changes (changes : List Change) :
    (∀ pairs, OrderedMap (settings pairs ++ changes) ((ofList pairs).after changes)) ∧
      (∀ members, ∃ r, ofJson (.obj members) = .ok r ∧
        OrderedMap (settings (cellsOf members) ++ changes) (r.after changes)) ∧
      (∀ origin draft r, coder.decode origin draft = .ok r → ∃ drafts members,
        draft = .obj drafts ∧ Json.finishMembers [] drafts = .ok members ∧
          OrderedMap (settings (cellsOf members) ++ changes) (r.after changes)) := by
  refine ⟨fun pairs => ?_, fun members => ?_, fun origin draft r hread => ?_⟩
  · exact (follows_ofList pairs changes).orderedMap
  · exact ⟨_, rfl, (follows_ofList (cellsOf members) changes).orderedMap⟩
  · obtain ⟨drafts, members, hdraft, hmembers, rfl⟩ := members_of_decode hread
    exact ⟨drafts, members, hdraft, hmembers,
      (follows_ofList (cellsOf members) changes).orderedMap⟩

/-- The members of a text that gives `a` twice. -/
def repeatedMembers : List (String × Json.Draft) :=
  [("a", .int 1), ("b", .str "x"), ("a", .int 2)]

/-- `a` goes and comes back behind `b` and `c`. -/
def returningColumn : List Change :=
  [.set "c" .null, .remove "a", .set "b" (.bool true), .set "a" (.int 3)]

example : ((ofList [("a", .int 2), ("b", .text "x")]).after returningColumn).entries =
    [("b", .bool true), ("c", .null), ("a", .int 3)] := by decide

theorem repeated_members_ordered :
    coder.decode .text (.obj repeatedMembers) =
        .ok (ofList [("a", .int 2), ("b", .text "x")]) ∧
      ∃ drafts members, Json.Draft.obj repeatedMembers = .obj drafts ∧
        Json.finishMembers [] drafts = .ok members ∧
        OrderedMap (settings (cellsOf members) ++ returningColumn)
          ((ofList [("a", .int 2), ("b", .text "x")]).after returningColumn) := by
  have hread : coder.decode .text (.obj repeatedMembers) =
      .ok (ofList [("a", .int 2), ("b", .text "x")]) := by rfl
  exact ⟨hread, (ordered_map_of_changes returningColumn).2.2 .text (.obj repeatedMembers) _ hread⟩

end MetaQuery.Record
