/-
  MetaQuery/Proofs/Tree/WayUp.lean
  ================================
  Where the climb from a key goes, in whatever way the rows name their parents.

  Rows that name each other as parents need not form a forest: a parent may be missing, and ways up
  may run into cycles.  An `Ascent` lists the keys that are asked for on the way up and the rows
  that are found; it ends at the root or a key that was asked for before, or else behind a key
  without a row.  There is one from every key when finitely many keys have rows (`exists_ascent`),
  and all that is said about the way up is shown by induction on it.  The climb follows the ascent
  of a datasource that answers its keys (`climb_of_ascent`).
-/
import Mathlib.Data.Finset.Card
import Mathlib.Data.List.Chain
import MetaQuery.Proofs.Tree.Moving

namespace MetaQuery

open MetaQuery.Action

/-- A row that is found by its key was in a reply, which is used up. -/
theorem Rows.length_replies_lt_of_get? {model : String} {key : Cell} {row : Record} {s t : Session}
    (h : (get? model key).exec s = (.ok (some row), t)) :
    t.answers.replies.length < s.answers.replies.length := by
  obtain ⟨m, u, hload, hrest⟩ := ok_of_exec_bind h
  obtain ⟨q, v, hcompiled, hsent⟩ := ok_of_exec_bind hrest
  obtain ⟨-, rfl⟩ := ok_of_exec_ofExcept hcompiled
  obtain ⟨records, w, hrecords, hhead⟩ := ok_of_exec_bind hsent
  obtain ⟨hrow, rfl⟩ := Prod.mk.inj hhead
  obtain ⟨rows, affected, opening, x, hvx, -, -, hreply, rfl, rfl⟩ :=
    Connection.answered_of_run hrecords
  -- a row was found, so the reply is not the empty one an exhausted list gives
  have hrows : rows ≠ [] := by
    rintro rfl
    cases hrow
  have hsu := (Metadata.model_consults model).steady s
  rw [hload] at hsu
  exact Nat.lt_of_lt_of_le (Answers.length_next_lt hreply hrows) (hsu.trans hvx).replies.length_le

namespace Trees

/-! ### Ways up -/

/-- The key of a row's parent, as a text. -/
def parentText (parentField : String) (row : Record) : String := keyText (row.get? parentField)

/-- The way up from a key behind the keys that were seen: the keys that are asked for, and the rows
    that are found, the lowest ones first. -/
inductive Ascent (f : String → Option Record) (parentField : String) :
    List String → String → List String → List Record → Prop where
  | stop {seen : List String} {key : String} (h : ¬ (isRootKey key = false ∧ key ∉ seen)) :
      Ascent f parentField seen key [] []
  | missing {seen : List String} {key : String} (hgo : isRootKey key = false ∧ key ∉ seen)
      (h : f key = none) : Ascent f parentField seen key [key] []
  | up {seen : List String} {key : String} {row : Record} {keys : List String}
      {rows : List Record} (hgo : isRootKey key = false ∧ key ∉ seen) (h : f key = some row)
      (rest : Ascent f parentField (key :: seen) (parentText parentField row) keys rows) :
      Ascent f parentField seen key (key :: keys) (row :: rows)

section Ascent

variable {f : String → Option Record} {parentField : String}

/-- The way up ends when finitely many keys have rows. -/
theorem exists_ascent (parentField : String) {present : Finset String}
    (hpresent : ∀ k row, f k = some row → k ∈ present) (seen : List String) (key : String) :
    ∃ keys rows, Ascent f parentField seen key keys rows ∧
      keys.length ≤ (present.filter (· ∉ seen)).card + 1 := by
  -- each step up takes one of the keys that have rows and were not seen
  induction hn : (present.filter (· ∉ seen)).card using Nat.strong_induction_on
    generalizing seen key with
  | _ n ih =>
    by_cases hgo : isRootKey key = false ∧ key ∉ seen
    · cases hrow : f key with
      | none => exact ⟨[key], [], .missing hgo hrow, Nat.le_add_left 1 n⟩
      | some row =>
        have hless : (present.filter (· ∉ key :: seen)).card < n := by
          rw [← hn]
          refine Finset.card_lt_card (Finset.ssubset_iff_of_subset ?_ |>.2 ⟨key, ?_, by simp⟩)
          · exact Finset.monotone_filter_right present fun k _ hk hmem =>
              hk (List.mem_cons_of_mem key hmem)
          · exact Finset.mem_filter.2 ⟨hpresent key row hrow, hgo.2⟩
        obtain ⟨keys, rows, hrest, hlength⟩ := ih _ hless (key :: seen)
          (parentText parentField row) rfl
        refine ⟨key :: keys, row :: rows, .up hgo hrow hrest, ?_⟩
        rw [List.length_cons]
        omega
    · exact ⟨[], [], .stop hgo, Nat.zero_le _⟩

namespace Ascent

variable {seen : List String} {key : String} {keys : List String} {rows : List Record}

/-- No key is asked for twice, no key that was seen, and no key of the root. -/
theorem fresh (h : Ascent f parentField seen key keys rows) :
    keys.Nodup ∧ ∀ k ∈ keys, isRootKey k = false ∧ k ∉ seen := by
  induction h with
  | stop h => exact ⟨List.nodup_nil, nofun⟩
  | missing hgo h => exact ⟨List.nodup_singleton _, List.forall_mem_singleton.2 hgo⟩
  | @up seen key row keys rows hgo h rest ih =>
    obtain ⟨hnodup, hrest⟩ := ih
    refine ⟨List.nodup_cons.2 ⟨fun hmem => (hrest key hmem).2 List.mem_cons_self, hnodup⟩, ?_⟩
    refine List.forall_mem_cons.2 ⟨hgo, fun k hk => ⟨(hrest k hk).1, fun hmem => ?_⟩⟩
    exact (hrest k hk).2 (List.mem_cons_of_mem key hmem)

/-- The key comes first, and then the parents of the rows that are found. -/
theorem keys_prefix (h : Ascent f parentField seen key keys rows) :
    keys <+: key :: rows.map (parentText parentField) := by
  induction h with
  | stop h => exact List.nil_prefix
  | missing hgo h => exact List.prefix_rfl
  | up hgo h rest ih => exact List.prefix_cons_inj _ |>.2 ih

theorem filterMap_keys (h : Ascent f parentField seen key keys rows) : keys.filterMap f = rows := by
  induction h with
  | stop h => rfl
  | missing hgo h => rw [List.filterMap_cons_none h, List.filterMap_nil]
  | up hgo h rest ih => rw [List.filterMap_cons_some h, ih]

theorem rows_eq_nil_iff (h : Ascent f parentField seen key keys rows) :
    rows = [] ↔ ¬ (isRootKey key = false ∧ key ∉ seen) ∨ f key = none := by
  cases h with
  | stop h => exact iff_of_true rfl (.inl h)
  | missing hgo h => exact iff_of_true rfl (.inr h)
  | up hgo h rest =>
    refine iff_of_false (List.cons_ne_nil _ _) ?_
    rintro (hstop | hnone)
    · exact hstop hgo
    · rw [h] at hnone
      cases hnone

theorem head_row (h : Ascent f parentField seen key keys rows) :
    ∀ row ∈ rows.head?, f key = some row := by
  cases h with
  | stop h => nofun
  | missing hgo h => nofun
  | up hgo h rest =>
    intro row hrow
    rw [← Option.some.inj hrow]
    exact h

/-- Behind each row comes the row of its parent. -/
theorem rows_chain (h : Ascent f parentField seen key keys rows) :
    rows.IsChain fun lower upper => f (parentText parentField lower) = some upper := by
  induction h with
  | stop h => exact .nil
  | missing hgo h => exact .nil
  | up hgo h rest ih => exact List.isChain_cons.2 ⟨rest.head_row, ih⟩

/-- The way up ends at the root, at a key without a row, or at a key that was asked for before. -/
theorem end_of_last (h : Ascent f parentField seen key keys rows) :
    ∀ row ∈ rows.getLast?, isRootKey (parentText parentField row) = true ∨
      f (parentText parentField row) = none ∨ parentText parentField row ∈ keys ++ seen := by
  induction h with
  | stop h => nofun
  | missing hgo h => nofun
  | @up seen key row keys rows hgo h rest ih =>
    intro top htop
    cases rows with
    | nil =>
      obtain rfl : row = top := Option.some.inj htop
      -- no row is found above this one, so the way up stops at its parent
      rcases rest.rows_eq_nil_iff.1 rfl with hstop | hnone
      · cases hroot : isRootKey (parentText parentField row) with
        | true => exact .inl rfl
        | false =>
          have hseen := not_not.1 fun hnot => hstop ⟨hroot, hnot⟩
          refine .inr (.inr ?_)
          rcases List.mem_cons.1 hseen with heq | hseen
          · rw [heq]
            exact List.mem_cons_self
          · exact List.mem_append_right _ hseen
      · exact .inr (.inl hnone)
    | cons lower rows =>
      rw [List.getLast?_cons_cons] at htop
      refine (ih top htop).imp_right (Or.imp_right fun hmem => ?_)
      rw [List.mem_append, List.mem_cons] at hmem
      rw [List.cons_append, List.mem_cons, List.mem_append]
      tauto

end Ascent

/-! ### Datasources that are functions -/

/-- The rows of some keys are asked for one after the other, each by a look of its own, and the
    answers are those of the function. -/
def Answered (f : String → Option Record) (model : String) : List String → Session → Session → Prop
  | [], s, t => s = t
  | key :: keys, s, t =>
    ∃ u, (Rows.get? model (.text key)).exec s = (.ok (f key), u) ∧ Answered f model keys u t

/-- Keys on the way up from a key.  Each other one is the parent's in the row of the one before;
    no key comes twice, and the key of the root does not come. -/
structure OnWayUp (f : String → Option Record) (parentField key : String) (keys : List String) :
    Prop where
  head : keys.head? = some key
  links : keys.IsChain fun lower upper =>
    ∃ row, f lower = some row ∧ parentText parentField row = upper
  nodup : keys.Nodup
  not_root : ∀ k ∈ keys, isRootKey k = false

/-- The datasource answers a look at a row as the function does, in every state that looks at the
    rows on the way up from a key can lead to. -/
def Serves (f : String → Option Record) (model parentField key : String) (s : Session) : Prop :=
  ∀ front next t, OnWayUp f parentField key (front ++ [next]) → Answered f model front s t →
    ∃ u, (Rows.get? model (.text next)).exec t = (.ok (f next), u)

variable {model key : String} {seen keys front : List String} {rows : List Record}
  {s t : Session}

theorem answered_append {back : List String} :
    Answered f model (front ++ back) s t ↔
      ∃ u, Answered f model front s u ∧ Answered f model back u t := by
  induction front generalizing s with
  | nil => exact ⟨fun h => ⟨s, rfl, h⟩, fun ⟨u, hsu, h⟩ => hsu ▸ h⟩
  | cons key front ih =>
    constructor
    · rintro ⟨u, hget, hrest⟩
      obtain ⟨v, hfront, hback⟩ := ih.1 hrest
      exact ⟨v, ⟨u, hget, hfront⟩, hback⟩
    · rintro ⟨v, ⟨u, hget, hfront⟩, hback⟩
      exact ⟨u, hget, ih.2 ⟨v, hfront, hback⟩⟩

theorem Answered.unique {u : Session} (h : Answered f model keys s t)
    (h' : Answered f model keys s u) : t = u := by
  induction keys generalizing s with
  | nil => exact h.symm.trans h'
  | cons key keys ih =>
    obtain ⟨v, hget, hrest⟩ := h
    obtain ⟨w, hget', hrest'⟩ := h'
    obtain ⟨-, rfl⟩ := Prod.mk.inj (hget.symm.trans hget')
    exact ih hrest hrest'

/-- Keys that are asked for lead from one row to the parent. -/
theorem Ascent.links (h : Ascent f parentField seen key keys rows) :
    keys.IsChain fun lower upper =>
      ∃ row, f lower = some row ∧ parentText parentField row = upper := by
  induction h with
  | stop h => exact .nil
  | missing hgo h => exact .singleton _
  | @up seen key row keys rows hgo h rest ih =>
    refine List.isChain_cons.2 ⟨fun next hnext => ⟨row, h, ?_⟩, ih⟩
    obtain ⟨back, hback⟩ := rest.keys_prefix
    obtain ⟨_, rfl⟩ := List.head?_eq_some_iff.1 hnext
    exact (List.cons.inj hback).1.symm

theorem Ascent.onWayUp (h : Ascent f parentField seen key keys rows) {next : String}
    (hfirst : front ++ [next] <+: keys) :
    OnWayUp f parentField key (front ++ [next]) where
  head := by
    obtain ⟨back, hback⟩ := hfirst.trans h.keys_prefix
    cases front with
    | nil => exact congrArg some (List.cons.inj hback).1
    | cons k front => exact congrArg some (List.cons.inj hback).1
  links := List.IsChain.prefix h.links hfirst
  nodup := h.fresh.1.sublist hfirst.sublist
  not_root k hk := (h.fresh.2 k (hfirst.subset hk)).1

/-- The keys on a way up are the first ones of the ascent. -/
theorem OnWayUp.first_keys (h : OnWayUp f parentField key front)
    (hascent : Ascent f parentField seen key keys rows) (hseen : ∀ k ∈ front, k ∉ seen) :
    front <+: keys := by
  induction hascent generalizing front with
  | @stop seen key hstop =>
    have hmem := List.mem_of_mem_head? h.head
    exact absurd ⟨h.not_root key hmem, hseen key hmem⟩ hstop
  | @missing seen key hgo hnone =>
    obtain ⟨rest, rfl⟩ := List.head?_eq_some_iff.1 h.head
    cases rest with
    | nil => exact List.prefix_rfl
    | cons next rest =>
      obtain ⟨row, hrow, -⟩ := (List.isChain_cons_cons.1 h.links).1
      rw [hnone] at hrow
      cases hrow
  | @up seen key row keys rows hgo hrow rest ih =>
    obtain ⟨back, rfl⟩ := List.head?_eq_some_iff.1 h.head
    refine (List.prefix_cons_inj key).2 ?_
    cases back with
    | nil => exact List.nil_prefix
    | cons next back =>
      -- both ways go on with the parent in the row of this key
      obtain ⟨⟨row', hrow', hnext⟩, hlinks⟩ := List.isChain_cons_cons.1 h.links
      obtain rfl := Option.some.inj (hrow.symm.trans hrow')
      obtain ⟨hfirst, hnodup⟩ := List.nodup_cons.1 h.nodup
      refine ih ⟨congrArg some hnext.symm, hlinks, hnodup,
        fun k hk => h.not_root k (List.mem_cons_of_mem key hk)⟩ fun k hk hmem => ?_
      rcases List.mem_cons.1 hmem with rfl | hmem
      · exact hfirst hk
      · exact hseen k (List.mem_cons_of_mem key hk) hmem

/-- A datasource serves the way up from a key just when it answers the keys of the ascent. -/
theorem serves_iff (h : Ascent f parentField [] key keys rows) :
    Serves f model parentField key s ↔ ∃ t, Answered f model keys s t := by
  constructor
  · intro hserves
    -- the reads are answered one after another, each from where the last one left off
    have hfronts : ∀ front, front <+: keys → ∃ t, Answered f model front s t := by
      intro front
      induction front using List.reverseRecOn with
      | nil => exact fun _ => ⟨s, rfl⟩
      | append_singleton front next ih =>
        intro hfirst
        obtain ⟨t, hfront⟩ := ih ((List.prefix_append front [next]).trans hfirst)
        obtain ⟨u, hget⟩ := hserves front next t (h.onWayUp hfirst) hfront
        exact ⟨u, answered_append.2 ⟨t, hfront, u, hget, rfl⟩⟩
    exact hfronts keys List.prefix_rfl
  · rintro ⟨t, hkeys⟩ front next u hway hfront
    obtain ⟨back, rfl⟩ := hway.first_keys h fun k _ => List.not_mem_nil
    obtain ⟨v, hnext, -⟩ := answered_append.1 hkeys
    obtain ⟨w, hfront', x, hget, -⟩ := answered_append.1 hnext
    rw [hfront.unique hfront']
    exact ⟨x, hget⟩

/-! ### The climb -/

/-- The climb asks for the keys of the ascent and gathers its rows.  The replies are enough fuel,
    since each row that is found uses up one. -/
theorem climb_of_ascent (h : Ascent f parentField seen key keys rows)
    (hanswered : Answered f model keys s t) {fuel : Nat}
    (hfuel : s.answers.replies.length ≤ fuel) (below : List Record) :
    (climb model parentField (fuel + 1) seen key below).exec s =
      (.ok (rows.reverse ++ below), t) := by
  induction h generalizing s fuel below with
  | stop h =>
    rw [climb_stop fuel h, ← hanswered]
    rfl
  | missing hgo h =>
    obtain ⟨u, hget, rfl⟩ := hanswered
    rw [h] at hget
    rw [climb_eq fuel hgo, exec_bind_of_ok hget]
    rfl
  | @up seen key row keys rows hgo h rest ih =>
    obtain ⟨u, hget, hrest⟩ := hanswered
    rw [h] at hget
    -- every row on the way costs a reply, so the fuel outlasts the climb
    have hused := Rows.length_replies_lt_of_get? hget
    have hpositive : fuel ≠ 0 := by omega
    obtain ⟨left, rfl⟩ := Nat.exists_eq_succ_of_ne_zero hpositive
    rw [climb_eq _ hgo, exec_bind_of_ok hget, List.reverse_cons, List.append_assoc]
    exact ih hrest (by omega) (row :: below)

theorem path_of_ascent {m : Model} {u : Session} (hm : (treeModel model).exec s = (.ok m, u))
    (h : Ascent f m.entry.parentField [] key keys rows) (hanswered : Answered f model keys u t) :
    (path model key).exec s = (.ok rows.reverse, t) := by
  rw [path, exec_bind_of_ok hm, exec_get_bind, climb_of_ascent h hanswered (Nat.le_refl _),
    List.append_nil]

end Ascent

/-- **The path to a key is the chain of the rows above it**, in a datasource that answers looks at
rows as a function does.

There is one look for each key that is visited, and none is visited twice: the key itself, and then
the parents of the rows that are found.  So there are at most as many looks as keys that have rows,
and one more.  The path is empty just when the key is the root's or has no row.  Else it ends with
the row of the key, each row in it stands before those that name it as their parent, and it begins
where the parent is the root, has no row, or was visited before. -/
theorem path_is_chain_of_parents {f : String → Option Record} {present : Finset String}
    (hpresent : ∀ k row, f k = some row → k ∈ present) {model key : String} {m : Model}
    {s u : Session} (hm : (treeModel model).exec s = (.ok m, u))
    (hserves : Serves f model m.entry.parentField key u) :
    ∃ keys rows t, (path model key).exec s = (.ok rows, t) ∧ Answered f model keys u t ∧
      keys.Nodup ∧ (∀ k ∈ keys, isRootKey k = false) ∧ keys.length ≤ present.card + 1 ∧
      keys <+: key :: rows.reverse.map (parentText m.entry.parentField) ∧
      keys.filterMap f = rows.reverse ∧
      (rows = [] ↔ isRootKey key = true ∨ f key = none) ∧
      (∀ row ∈ rows.getLast?, f key = some row) ∧
      (rows.IsChain fun upper lower => f (parentText m.entry.parentField lower) = some upper) ∧
      (∀ row ∈ rows.head?, isRootKey (parentText m.entry.parentField row) = true ∨
        f (parentText m.entry.parentField row) = none ∨
        parentText m.entry.parentField row ∈ keys) := by
  obtain ⟨keys, rows, hascent, hlength⟩ := exists_ascent m.entry.parentField hpresent [] key
  obtain ⟨t, hanswered⟩ := (serves_iff hascent).1 hserves
  -- the climb collects the rows downwards, the ascent upwards
  refine ⟨keys, rows.reverse, t, path_of_ascent hm hascent hanswered, hanswered, hascent.fresh.1,
    fun k hk => (hascent.fresh.2 k hk).1, ?_, ?_, ?_, ?_, ?_, ?_, ?_⟩
  · simpa using hlength
  · rw [List.reverse_reverse]
    exact hascent.keys_prefix
  · rw [List.reverse_reverse]
    exact hascent.filterMap_keys
  · rw [List.reverse_eq_nil_iff, hascent.rows_eq_nil_iff]
    simp
  · rw [List.getLast?_reverse]
    exact hascent.head_row
  · rw [List.isChain_reverse]
    exact hascent.rows_chain
  · rw [List.head?_reverse]
    intro row hrow
    simpa using hascent.end_of_last row hrow

/-! ### Teams in a loop -/

/-- A team and its parent. -/
def teamRow (key parent : String) : SourceRow := [("id", .text key), ("parent", .text parent)]

/-- A team under two teams that name each other as their parents. -/
def loopRow (key : String) : Option SourceRow :=
  ([("c", "b"), ("b", "a"), ("a", "b")].lookup key).map (teamRow key)

def loopRecord (key : String) : Option Record := (loopRow key).map (·.record)

/-- The replies to looks at the teams on the way up from the lowest one. -/
def loopReplies : List Reply :=
  [.rows [teamRow "c" "b"] 0, .rows [teamRow "b" "a"] 0, .rows [teamRow "a" "b"] 0]

/-- The path from the lowest team shows each team once; the loop above it ends the path. -/
theorem path_ends_at_loop :
    ∃ (keys : List String) (t : Session),
      (path "team" "c").exec (teamSession true loopReplies []) =
        (.ok [(teamRow "a" "b").record, (teamRow "b" "a").record, (teamRow "c" "b").record], t) ∧
      keys.filterMap loopRecord =
        [(teamRow "c" "b").record, (teamRow "b" "a").record, (teamRow "a" "b").record] ∧
      keys.Nodup ∧ "b" ∈ keys := by
  have hpresent : ∀ k row, loopRecord k = some row → k ∈ ({"a", "b", "c"} : Finset String) := by
    intro k row hrow
    by_contra hk
    simp only [Finset.mem_insert, Finset.mem_singleton, not_or] at hk
    obtain ⟨ha, hb, hc⟩ := hk
    rw [loopRecord, loopRow, List.lookup_cons, List.lookup_cons, List.lookup_cons,
      beq_false_of_ne hc, beq_false_of_ne hb, beq_false_of_ne ha] at hrow
    cases hrow
  -- up from c over b and a, and b again is where the way ends
  have hascent : Ascent loopRecord "parent" [] "c" ["c", "b", "a"]
      [(teamRow "c" "b").record, (teamRow "b" "a").record, (teamRow "a" "b").record] :=
    .up (by decide) rfl (.up (by decide) rfl (.up (by decide) rfl (.stop (by decide))))
  have hanswered : Answered loopRecord "team" ["c", "b", "a"] (teamSession true loopReplies [])
      (teamSession true [] [teamRead true "c" (teamRow "c" "b"),
        teamRead true "b" (teamRow "b" "a"), teamRead true "a" (teamRow "a" "b")]) :=
    ⟨_, exec_get?_teams true "c" _ _ _, _, exec_get?_teams true "b" _ _ _, _,
      exec_get?_teams true "a" _ _ _, rfl⟩
  have hm := treeModel_teams true loopReplies []
  obtain ⟨keys, rows, t, hpath, -, hnodup, -, -, -, hfound, -, -, -, htop⟩ :=
    path_is_chain_of_parents hpresent hm ((serves_iff hascent).2 ⟨_, hanswered⟩)
  have hrun := path_of_ascent hm hascent hanswered
  obtain ⟨hrows, -⟩ := Prod.mk.inj (hrun.symm.trans hpath)
  obtain rfl := Except.ok.inj hrows
  refine ⟨keys, t, hpath, hfound, hnodup, ?_⟩
  rcases htop _ rfl with hroot | hnone | hmem
  · cases hroot
  · cases hnone
  · exact hmem

end Trees

end MetaQuery
