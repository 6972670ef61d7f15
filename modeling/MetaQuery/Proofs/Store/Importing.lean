/-
  MetaQuery/Proofs/Store/Importing.lean
  =====================================
  A catalog stored in metadata tables.

  Each entry of a kind becomes a row: under its id, or under its model and its place where it has
  none, with its place as the position and its text as the payload (`storedFrom`).  A kind is
  replaced in a transaction of its own.  The import succeeds, and then each kind holds the rows of
  its entries, whatever it held before (`importCatalog_achieves`).
-/
import MetaQuery.Proofs.Store.Loading

namespace MetaQuery

namespace Tables

open MetaQuery.Action

variable {d : Dialect} {se : Settings}

/-! ### Rows of entries -/

/-- The row of an entry at a place. -/
def storedRow (entry : Json) (place : Nat) : StoredRow where
  id := rowId entry place
  model := memberText entry "model_id"
  position := Int64.ofNat place
  payload := entry.text

/-- The rows of entries that stand at a place and behind it. -/
def storedFrom (place : Nat) : List Json → List StoredRow
  | [] => []
  | entry :: r => storedRow entry place :: storedFrom (place + 1) r

/-- What the entries of a kind are stored under. -/
def rowIds (entries : List Json) : List String := (storedFrom 0 entries).map (·.id)

/-- How many places there are: positions are numbers of 64 bits, of which one is the sign. -/
def placeLimit : Nat := 9223372036854775808

theorem ofNat_lt_ofNat {i j : Nat} (hj : j < placeLimit) (h : i < j) :
    Int64.ofNat i < Int64.ofNat j := by
  rw [placeLimit] at hj
  exact (Int64.ofNat_lt_iff_lt (by omega) (by omega)).2 h

theorem position_of_mem_storedFrom {r : StoredRow} {entries : List Json} {place : Nat}
    (h : r ∈ storedFrom place entries) :
    ∃ i, place ≤ i ∧ i < place + entries.length ∧ r.position = Int64.ofNat i := by
  induction entries generalizing place with
  | nil => cases h
  | cons entry rest ih =>
    rcases List.mem_cons.1 h with rfl | h
    · refine ⟨place, Nat.le_refl place, ?_, rfl⟩
      simp
    · obtain ⟨i, hle, hlt, hposition⟩ := ih h
      refine ⟨i, by omega, ?_, hposition⟩
      simp only [List.length_cons]
      omega

/-- Positions rise, as far as places are numbers of 64 bits. -/
theorem rising_storedFrom {entries : List Json} {place : Nat}
    (h : place + entries.length ≤ placeLimit) :
    (storedFrom place entries).Pairwise fun r r' => r.position < r'.position := by
  induction entries generalizing place with
  | nil => exact .nil
  | cons entry rest ih =>
    simp only [List.length_cons] at h
    refine .cons ?_ (ih (by omega))
    intro r hr
    obtain ⟨i, hle, hlt, hposition⟩ := position_of_mem_storedFrom hr
    rw [hposition]
    exact ofNat_lt_ofNat (by omega) (by omega)

/-! ### Storing -/

theorem StoredRow.cells_inj {r r' : StoredRow} (h : r.cells = r'.cells) : r = r' := by
  cases r
  cases r'
  simpa [cells] using h

theorem insertion_eq (kind : String) :
    insertion d (d.quote (se.tableName kind)) = Verb.insert.text d se kind := by
  change insertion d (d.quote (se.tableName kind)) = "INSERT INTO " ++
    d.quote (se.tableName kind) ++ (" (id, model_id, position, payload) VALUES (" ++
      d.placeholder 1 ++ ", " ++ d.placeholder 2 ++ ", " ++ d.placeholder 3 ++ ", " ++
      d.placeholder 4 ++ ")")
  unfold insertion
  simp only [String.append_assoc]

/-- A row is stored, unless its id is taken. -/
theorem Answers.of_insert {r : StoredRow} {T T' : List StoredRow} {reply : Reply}
    (h : Answers .insert r.cells T reply T') :
    (r.id ∉ T.map (·.id) ∧ reply = .rows [] 1 ∧ T' = T ++ [r]) ∨
      (r.id ∈ T.map (·.id) ∧ ∃ cause, reply = .failure cause) := by
  generalize hargs : r.cells = args at h
  cases h with
  | inserted hfree =>
    obtain rfl := StoredRow.cells_inj hargs
    exact .inl ⟨hfree, rfl, rfl⟩
  | taken htaken cause =>
    obtain rfl := StoredRow.cells_inj hargs
    exact .inr ⟨htaken, cause, rfl⟩
  | read _ hseeks => cases hseeks

theorem Answers.of_clear {T T' : List StoredRow} {reply : Reply}
    (h : Answers .clear [] T reply T') : reply = .rows [] T.length ∧ T' = [] := by
  cases h with
  | clear => exact ⟨rfl, rfl⟩
  | read _ hseeks => cases hseeks

/-- A row under an id that is free is stored. -/
theorem insert_yields (d : Dialect) (se : Settings) {K : Kept} (inTransaction : Bool)
    (kind : String) {r : StoredRow} (hfree : r.id ∉ (K.seen inTransaction kind).map (·.id)) :
    (run inTransaction (insertion d (d.quote (se.tableName kind))) r.cells).Yields d se K ([], 1)
      (K.put inTransaction kind (K.seen inTransaction kind ++ [r])) := by
  apply achieves_run (insertion_eq kind)
  · intro reply T hanswer
    rcases hanswer.of_insert with ⟨-, rfl, rfl⟩ | ⟨htaken, -⟩
    · exact ⟨[], 1, rfl, rfl, rfl⟩
    · exact absurd htaken hfree
  · exact ⟨_, _, .inserted hfree⟩

theorem clear_achieves (K : Kept) (kind : String) :
    (run true ("DELETE FROM " ++ d.quote (se.tableName kind)) []).Achieves d se K
      fun _ K' => K' = K.put true kind [] := by
  apply achieves_run (v := .clear) (String.append_empty).symm
  · intro reply T hanswer
    obtain ⟨rfl, rfl⟩ := hanswer.of_clear
    exact ⟨[], _, rfl, rfl⟩
  · exact ⟨_, _, .clear _⟩

theorem insertFrom_steady (table : String) (place : Nat) (entries : List Json) :
    (insertFrom d table place entries).Steady := by
  induction entries generalizing place with
  | nil => exact steady_pure ()
  | cons entry rest ih => exact (run_steady _ _ _).bind fun _ => ih (place + 1)

/-- Entries are stored behind what is there. -/
theorem insertFrom_yields (d : Dialect) (se : Settings) {K : Kept} {kind : String} (place : Nat)
    {entries : List Json}
    (hids : ((K.seen true kind ++ storedFrom place entries).map (·.id)).Nodup) :
    (insertFrom d (d.quote (se.tableName kind)) place entries).Yields d se K ()
      (K.put true kind (K.seen true kind ++ storedFrom place entries)) := by
  induction entries generalizing place K with
  | nil =>
    have hK : K.put true kind (K.seen true kind ++ storedFrom place []) = K := by
      rw [storedFrom, List.append_nil]
      exact K.put_seen true kind
    rw [hK]
    exact yields_pure () K
  | cons entry rest ih =>
    have hrows : K.seen true kind ++ storedFrom place (entry :: rest) =
        (K.seen true kind ++ [storedRow entry place]) ++ storedFrom (place + 1) rest := by
      rw [storedFrom, List.append_assoc, List.singleton_append]
    rw [hrows] at hids ⊢
    -- ids that are distinct in the end leave the first one free now
    have hfree : (storedRow entry place).id ∉ (K.seen true kind).map (·.id) := by
      intro hmem
      rw [List.map_append, List.map_append] at hids
      have hfirst := (List.nodup_append.1 (List.nodup_append.1 hids).1).2.2
      exact hfirst _ hmem _ List.mem_cons_self rfl
    refine Yields.bind (insert_yields d se true kind (r := storedRow entry place) hfree)
      (fun _ => (insertFrom_steady _ _ _).on) ?_
    have hlater := ih (K := K.put true kind (K.seen true kind ++ [storedRow entry place]))
      (place + 1) (by rw [K.seen_put]; exact hids)
    rw [K.seen_put, K.put_put] at hlater
    exact hlater

/-! ### Kinds -/

/-- All rows of a kind replaced, in the transaction. -/
def refill (d : Dialect) (table : String) (entries : List Json) : Action Nat := do
  begin
  let _ ← run true ("DELETE FROM " ++ table) []
  insertFrom d table 0 entries
  commit
  return entries.length

theorem begin_steady : begin.Steady := passed_steady .begin (.began .metadata)

theorem commit_steady : commit.Steady := passed_steady .commit (.committed .metadata)

theorem refill_steady (table : String) (entries : List Json) : (refill d table entries).Steady := by
  refine begin_steady.bind fun _ => (run_steady _ _ _).bind fun _ => ?_
  exact (insertFrom_steady _ _ _).bind fun _ => commit_steady.bind fun _ => steady_pure _

theorem replaceRows_eq {kind : String} (hkind : kind ∈ kinds) (entries : List Json) :
    replaceRows d kind entries = tableOf d kind >>= fun table => refill d table entries := by
  have hcontains : (!kinds.contains kind) = false := by simpa using hkind
  rw [replaceRows, hcontains]
  rfl

theorem replaceRows_steady (kind : String) (entries : List Json) :
    (replaceRows d kind entries).Steady := by
  by_cases hkind : kind ∈ kinds
  · rw [replaceRows_eq hkind]
    exact (tableOf_consults d kind).steady.bind fun table => refill_steady table entries
  · have hcontains : (!kinds.contains kind) = true := by simpa using hkind
    rw [replaceRows, if_pos hcontains]
    exact ((fails_throw _).bind _).steady

/-- What the tables hold when the transaction has replaced a kind. -/
def Kept.refilled (K : Kept) (kind : String) (entries : List Json) : Kept where
  durable := Function.update K.durable kind (storedFrom 0 entries)
  pending := Function.update K.durable kind (storedFrom 0 entries)

theorem replaceRows_yields (d : Dialect) (se : Settings) (K : Kept) {kind : String}
    {entries : List Json} (hkind : kind ∈ kinds) (hids : (rowIds entries).Nodup) :
    (replaceRows d kind entries).Yields d se K entries.length (K.refilled kind entries) := by
  rw [replaceRows_eq hkind]
  refine Yields.bind (tableOf_yields kind K) (fun table => (refill_steady table entries).on) ?_
  refine Yields.bind (begin_yields K) (fun _ => ?_) ?_
  · refine (run_steady _ _ _).on.bind fun _ => (insertFrom_steady _ _ _).on.bind fun _ => ?_
    exact commit_steady.on.bind fun _ => (steady_pure _).on
  refine (clear_achieves ⟨K.durable, K.durable⟩ kind).bind (fun _ => ?_) ?_
  · exact (insertFrom_steady _ _ _).on.bind fun _ => commit_steady.on.bind fun _ =>
      (steady_pure _).on
  rintro reply K' rfl
  -- the kind is empty by now, so ids that differ among themselves are free
  have hpending := Kept.seen_put ⟨K.durable, K.durable⟩ true kind []
  have hfill := insertFrom_yields d se 0 (K := Kept.put ⟨K.durable, K.durable⟩ true kind [])
    (by rw [hpending]; exact hids)
  rw [hpending, Kept.put_put, List.nil_append] at hfill
  refine Yields.bind hfill (fun _ => commit_steady.on.bind fun _ => (steady_pure _).on) ?_
  exact Yields.map (commit_yields _) fun _ => entries.length

/-! ### Catalogs -/

/-- Each kind holds the rows of the entries that are given for it. -/
def Stocked (H : Holdings) (rows : List (String × List Json)) : Prop :=
  ∀ p ∈ rows, H p.1 = storedFrom 0 p.2

/-- Some kinds hold the rows of their entries now, and the others hold what they held. -/
def Replaced (rows : List (String × List Json)) (H H' : Holdings) : Prop :=
  Stocked H' rows ∧ ∀ kind, kind ∉ rows.map (·.1) → H' kind = H kind

theorem Replaced.nil (H : Holdings) : Replaced [] H H := by
  refine ⟨?_, fun _ _ => rfl⟩
  intro p hp
  cases hp

/-- One kind is replaced before the others. -/
theorem Replaced.cons {p : String × List Json} {rest : List (String × List Json)} {K : Kept}
    {H : Holdings} (hfresh : p.1 ∉ rest.map (·.1))
    (h : Replaced rest (K.refilled p.1 p.2).durable H) : Replaced (p :: rest) K.durable H := by
  obtain ⟨hstocked, hothers⟩ := h
  refine ⟨?_, ?_⟩
  · intro q hq
    rcases List.mem_cons.1 hq with rfl | hq
    · rw [hothers q.1 hfresh]
      exact Function.update_self ..
    · exact hstocked q hq
  · intro kind hkind
    rw [hothers kind fun h => hkind (List.mem_cons_of_mem _ h)]
    refine Function.update_of_ne ?_ ..
    rintro rfl
    exact hkind List.mem_cons_self

/-- Kinds replaced one after the other. -/
def replaceAll (d : Dialect) (rows : List (String × List Json)) : Action Unit :=
  rows.forM fun (kind, entries) => do
    let _ ← replaceRows d kind entries

theorem replaceAll_steady (rows : List (String × List Json)) : (replaceAll d rows).Steady := by
  induction rows with
  | nil => exact steady_pure ()
  | cons p rest ih =>
    exact ((replaceRows_steady p.1 p.2).bind fun _ => steady_pure ()).bind fun _ => ih

theorem replaceAll_achieves {rows : List (String × List Json)} {K : Kept}
    (hkinds : (rows.map (·.1)).Nodup) (hknown : ∀ p ∈ rows, p.1 ∈ kinds)
    (hids : ∀ p ∈ rows, (rowIds p.2).Nodup) :
    (replaceAll d rows).Achieves d se K fun _ K' => Replaced rows K.durable K'.durable := by
  induction rows generalizing K with
  | nil =>
    refine (yields_pure () K).mono ?_
    rintro _ K' ⟨rfl, rfl⟩
    exact .nil K'.durable
  | cons p rest ih =>
    -- a kind is written once: later kinds leave its rows alone
    obtain ⟨hfresh, hrest⟩ := List.nodup_cons.1 hkinds
    have hfirst := (replaceRows_yields d se K (hknown p List.mem_cons_self)
      (hids p List.mem_cons_self)).map fun _ => ()
    have hlater := ih (K := K.refilled p.1 p.2) hrest
      (fun q hq => hknown q (List.mem_cons_of_mem p hq))
      (fun q hq => hids q (List.mem_cons_of_mem p hq))
    exact (Yields.bind hfirst (fun _ => (replaceAll_steady rest).on) hlater).mono
      fun _ _ h => h.cons hfresh

theorem kinds_catalogRows (c : Catalog) : (catalogRows c).map (·.1) = kinds := rfl

theorem nodup_catalogRows (c : Catalog) : ((catalogRows c).map (·.1)).Nodup := by
  rw [kinds_catalogRows]
  decide

theorem mem_kinds_of_catalogRows {c : Catalog} : ∀ p ∈ catalogRows c, p.1 ∈ kinds := by
  intro p hp
  rw [← kinds_catalogRows c]
  exact List.mem_map_of_mem hp

/-- **An import succeeds, and stores the entries of every kind.** -/
theorem importCatalog_achieves {c : Catalog} (hcheck : c.check = .ok ())
    (hids : ∀ p ∈ catalogRows c, (rowIds p.2).Nodup) (K : Kept) :
    (importCatalog d c).Achieves d se K fun _ K' => Stocked K'.durable (catalogRows c) := by
  have hchecked : (ofMetadata c.check).Yields d se K () K := by
    rw [hcheck]
    exact yields_pure () K
  have hall : (replaceAll d (catalogRows c)).Achieves d se K fun _ K' =>
      Replaced (catalogRows c) K.durable K'.durable :=
    replaceAll_achieves (nodup_catalogRows c) mem_kinds_of_catalogRows hids
  exact Yields.bind hchecked (fun _ => (replaceAll_steady _).on)
    (hall.mono fun _ _ h => h.1)

end Tables

end MetaQuery
