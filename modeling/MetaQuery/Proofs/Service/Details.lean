/-
  MetaQuery/Proofs/Service/Details.lean
  =====================================
  The details of a master carry its key.

  Creating a master with its details runs one transaction: the INSERT of the master as it was given
  and, where there are details, one INSERT of all of them, with the key of the master in the column
  of the foreign key (`Model.Stamps`), whatever they had there.  The key is taken from the row of
  the master, and a row without one stops the transaction, so nothing is committed then
  (`create_stamps_details`).
-/
import MetaQuery.Proofs.Query.Stamping
import MetaQuery.Proofs.Service.Rendering

namespace MetaQuery

open MetaQuery.Action

/-! ### Transactions that were committed -/

namespace Connection

variable {α : Type} {connection : String}

/-- A begin that succeeds stands behind the opening of its datasource. -/
theorem began_of_begin {s t : Session} {log : List Event}
    (h : (begin connection).exec s = (.ok (), t)) (hlog : t.events = s.events ++ log) :
    ∃ opening, (∀ ev ∈ opening, Opening ev) ∧
      log = opening ++ [.began (.data connection) none] := by
  obtain ⟨_, u, hopen, hsent⟩ := ok_of_exec_bind h
  obtain ⟨failure, v, hpass, hrest⟩ := ok_of_exec_bind hsent
  obtain ⟨opening, hopening, hkind, -⟩ := ensureOpen_opens connection s
  obtain ⟨sent, hbegan, failure', hfailure, rfl⟩ :=
    logs_pass .begin (.began (.data connection)) u
  have hrun : (pass .begin (.began (.data connection))).exec u = (.ok failure, v) := hpass
  rw [hrun] at hbegan hfailure
  rw [hopen] at hopening
  obtain rfl : failure = failure' := Except.ok.inj hfailure
  -- a begin that is refused ends the call
  cases failure with
  | some cause => cases hrest
  | none =>
    obtain ⟨-, rfl⟩ := Prod.mk.inj hrest
    have hevents : s.events ++ log =
        s.events ++ (opening ++ [.began (.data connection) none]) := by
      rw [← List.append_assoc, ← hopening, ← hlog]
      exact hbegan
    exact ⟨opening, hkind, List.append_cancel_left hevents⟩

/-- A transaction that succeeds has carried out its steps between a begin and a commit. -/
theorem committed_of_transaction {body : Action α} (hbody : body.Steady) {s t : Session} {x : α}
    {log : List Event} (h : (transaction connection body).exec s = (.ok x, t))
    (hlog : t.events = s.events ++ log) :
    ∃ u v opening inner, body.exec u = (.ok x, v) ∧ s.Precedes u ∧
      v.events = u.events ++ inner ∧ (∀ ev ∈ opening, Opening ev) ∧
      log = opening ++ .began (.data connection) none ::
        (inner ++ [.committed (.data connection) none]) := by
  rw [transaction_eq] at h
  obtain ⟨_, u, first, rest, hbegin, hrest, hsu, -, hu, ht, rfl⟩ := (begin_steady connection).split
    (fun _ => hbody.attempt.bind (finish_steady connection)) h hlog
  obtain ⟨outcome, v, inner, last, hattempt, hfinish, -, -, hv, hended, rfl⟩ :=
    hbody.attempt.split (finish_steady connection) hrest ht
  obtain ⟨opening, hopening, rfl⟩ := began_of_begin hbegin hu
  have hsteps := exec_of_attempt hattempt
  have hend := (finish_logs connection outcome).of_run hfinish hended
  cases hend with
  | committed a => exact ⟨u, v, opening, inner, hsteps, hsu, hv, hopening, by simp⟩

end Connection

/-! ### The INSERT in a transaction -/

/-- The log of a look at the metadata and of a statement in the transaction on a connection, which
    is answered with rows. -/
def RunsIn (connection : String) (st : Statement) (log : List Event) : Prop :=
  ∃ looked rows affected, (∀ ev ∈ looked, Consulted ev) ∧
    log = looked ++ [.executed (.data connection) true st.text st.args (.rows rows affected)]

namespace Rows

variable {α : Type} {connection model : String}

/-- Some rows inserted in the transaction on a connection, once their model is known. -/
def insertIn (connection model : String) (rows : List Record) (out : α) (m : Model) : Action α := do
  let st ← Action.ofRules (creation model m rows)
  let _ ← Connection.runIn connection st
  return out

theorem createIn_eq (connection model : String) (row : Record) :
    createIn connection model row =
      Metadata.model model >>= insertIn connection model [row] row := rfl

theorem createAllIn_of_ne_nil {rows : List Record} (h : rows ≠ []) :
    createAllIn connection model rows =
      Metadata.model model >>= insertIn connection model rows rows := by
  rw [createAllIn, if_neg (by simpa using h)]
  rfl

theorem insertIn_steady (rows : List Record) (out : α) (m : Model) :
    (insertIn connection model rows out m).Steady :=
  (steady_ofRules _).bind fun st => (Connection.runIn_steady connection st).bind fun _ =>
    steady_pure out

theorem createIn_steady (row : Record) : (createIn connection model row).Steady :=
  (Metadata.model_consults model).steady.bind (insertIn_steady [row] row)

theorem createAllIn_steady (rows : List Record) : (createAllIn connection model rows).Steady := by
  unfold createAllIn
  split
  · exact steady_pure []
  · exact (Metadata.model_consults model).steady.bind (insertIn_steady rows rows)

/-- An insertion that succeeds has run the INSERT of its rows and nothing else. -/
theorem runsIn_of_insertion {rows : List Record} {out x : α} {m : Model}
    {answer : String → List Cell → Reply} {s t : Session} {log : List Event}
    (hload : (Metadata.model model).Finds m answer s)
    (hrun : (Metadata.model model >>= insertIn connection model rows out).exec s = (.ok x, t))
    (hlog : t.events = s.events ++ log) (hgives : ∀ ev ∈ log, ev.Gives answer) :
    x = out ∧ ∃ st, m.insertMany rows .null = .ok st ∧ RunsIn connection st log := by
  obtain ⟨u, looked, rest, hrest, -, ht, rfl, hlooked⟩ := hload.split
    (Metadata.model_consults model) (insertIn_steady rows out) hrun hlog hgives
  obtain ⟨st, v, hcreation, hsent⟩ := ok_of_exec_bind hrest
  obtain ⟨hst, rfl⟩ := ok_of_exec_ofRules hcreation
  obtain ⟨records, w, hrecords, hout⟩ := ok_of_exec_bind hsent
  obtain ⟨hx, rfl⟩ := Prod.mk.inj hout
  rw [Connection.exec_runIn] at hrecords
  obtain ⟨houtcome, rfl⟩ := Prod.mk.inj hrecords
  refine ⟨(Except.ok.inj hx).symm, st, insertMany_of_creation hst, ?_⟩
  -- the call went on, so the statement was answered with rows
  cases hreply : v.answers.next.1 with
  | failure cause =>
    rw [hreply] at houtcome
    cases houtcome
  | rows answered affected =>
    rw [hreply] at ht
    exact ⟨looked, answered, affected, hlooked, by rw [← List.append_cancel_left ht]⟩

theorem row_of_createIn {row created : Record} {s t : Session}
    (h : (createIn connection model row).exec s = (.ok created, t)) : created = row := by
  obtain ⟨m, u, -, h⟩ := ok_of_exec_bind h
  obtain ⟨st, v, -, h⟩ := ok_of_exec_bind h
  obtain ⟨records, w, -, h⟩ := ok_of_exec_bind h
  exact (Except.ok.inj (Prod.mk.inj h).1).symm

end Rows

/-! ### Operations that are not committed -/

theorem not_committed_of_quiet {log : List Event} (h : ∀ ev ∈ log, Quiet ev) (target : Target)
    (failure : Option SourceFault) : .committed target failure ∉ log := by
  intro hmem
  cases h _ hmem

/-- The operation fails, and nothing is committed. -/
structure Action.Aborts {α : Type} (a : Action α) (s : Session) : Prop where
  fails : ∃ e, (a.exec s).1 = .error e
  uncommitted : ∃ log, (a.exec s).2.events = s.events ++ log ∧
    ∀ target failure, .committed target failure ∉ log

/-- What is quiet in front leaves it at that. -/
theorem Action.Emits.bind_aborts {α β : Type} {a : Action α} {f : α → Action β} {s : Session}
    (ha : a.Emits Quiet) (hf : ∀ x t, a.exec s = (.ok x, t) → (f x).Aborts t) :
    (a >>= f).Aborts s := by
  obtain ⟨first, hfirst, hquiet, -⟩ := ha s
  rcases hrun : a.exec s with ⟨r, t⟩
  rw [hrun] at hfirst
  -- `a` fails itself, or it reads and what follows aborts
  cases r with
  | error e =>
    have hfailed : (a >>= f).exec s = (.error e, t) := exec_bind_of_error hrun
    exact ⟨⟨e, by rw [hfailed]⟩, first, by rw [hfailed]; exact hfirst,
      not_committed_of_quiet hquiet⟩
  | ok x =>
    obtain ⟨⟨e, he⟩, rest, hrest, hnone⟩ := hf x t hrun
    refine ⟨⟨e, by rw [exec_bind_of_ok hrun, he]⟩, first ++ rest, ?_, fun target failure hmem => ?_⟩
    · rw [exec_bind_of_ok hrun, hrest, hfirst, List.append_assoc]
    · rcases List.mem_append.1 hmem with hmem | hmem
      · exact not_committed_of_quiet hquiet target failure hmem
      · exact hnone target failure hmem

/-- A transaction whose steps fail is not committed. -/
theorem Connection.transaction_aborts {α : Type} {connection : String} {body : Action α}
    (hbody : body.Logs fun r log => (∃ e, r = .error e) ∧
      ∀ ev ∈ log, Inside (.data connection) ev) (s : Session) :
    (transaction connection body).Aborts s := by
  obtain ⟨log, hlog, hends⟩ := transaction_logs connection hbody s
  generalize hr : ((transaction connection body).exec s).1 = r at hends
  cases hends with
  | @unbegun e log hbegin =>
    refine ⟨⟨e, hr⟩, log, hlog, fun target failure hmem => ?_⟩
    cases hbegin with
    | unopened hquiet => exact not_committed_of_quiet hquiet target failure hmem
    | refused cause hquiet hopened =>
      rcases List.mem_append.1 hmem with hmem | hmem
      · exact not_committed_of_quiet hquiet target failure hmem
      · simp at hmem
  | @ended outcome r first inner last hbegin hinner hend =>
    -- begun: the body fails, so the end is a rollback
    obtain ⟨⟨e, rfl⟩, hinside⟩ := hinner
    cases hend with
    | rolledBack e failure =>
      refine ⟨⟨e, hr⟩, _, hlog, fun target failure hmem => ?_⟩
      cases hbegin with
      | begun hquiet hopened =>
        simp only [List.mem_append, List.mem_singleton] at hmem
        rcases hmem with (hmem | hmem) | hmem | hmem
        · exact not_committed_of_quiet hquiet target failure hmem
        · cases hmem
        · rcases hinside _ hmem with ⟨⟨⟩⟩
        · cases hmem

/-! ### Masters with details -/

namespace MasterDetail

variable {master detail : String} {payload : Payload} {answer : String → List Cell → Reply}
  {s t : Session} {log : List Event}

theorem masterKey_eq_ok_iff {keyField : String} {row : Record} {key : Cell} :
    masterKey keyField row = .ok key ↔ row.get? keyField = some key ∧ key.isBlank = false := by
  unfold masterKey
  constructor
  · intro h
    split at h
    · next found hfound =>
      obtain rfl := Except.ok.inj h
      obtain ⟨hget, hfilled⟩ := Option.filter_eq_some_iff.1 hfound
      exact ⟨hget, by simpa using hfilled⟩
    · cases h
  · rintro ⟨hget, hfilled⟩
    rw [hget, Option.filter_some, hfilled]
    rfl

/-- The details of a master inserted with its key: by no statement where there are none, and else
    by one. -/
def DetailsInserted (connection : String) (n : Model) (details : List Record)
    (foreignKey : String) (key : Cell) (log : List Event) : Prop :=
  (details = [] ∧ log = []) ∨
    (details ≠ [] ∧ ∃ st columns slots, n.Stamps details foreignKey key columns slots st ∧
      RunsIn connection st log)

section Steps

variable {connection keyField foreignKey : String}

theorem insertBoth_steady :
    (insertBoth connection master detail keyField foreignKey payload).Steady :=
  (Rows.createIn_steady payload.master).bind fun _ => (steady_ofExcept _).bind fun _ =>
    (Rows.createAllIn_steady _).bind fun _ => steady_pure _

theorem detailsInserted_of_createAllIn {details written : List Record} {n : Model} {key : Cell}
    (hkey : key.isNull = false) (hdetail : (Metadata.model detail).Finds n answer s)
    (hrun : (Rows.createAllIn connection detail (details.map (·.set foreignKey key))).exec s =
      (.ok written, t))
    (hlog : t.events = s.events ++ log) (hgives : ∀ ev ∈ log, ev.Gives answer) :
    DetailsInserted connection n details foreignKey key log := by
  by_cases hdetails : details = []
  · subst hdetails
    obtain ⟨-, rfl⟩ := Prod.mk.inj hrun
    exact .inl ⟨rfl, List.append_cancel_left (hlog.symm.trans (List.append_nil _).symm)⟩
  · have hstamped : details.map (·.set foreignKey key) ≠ [] := by simpa using hdetails
    rw [Rows.createAllIn_of_ne_nil hstamped] at hrun
    obtain ⟨-, st, hst, hran⟩ := Rows.runsIn_of_insertion hdetail hrun hlog hgives
    obtain ⟨columns, slots, hstamps⟩ := Model.stamps_of_insertMany hdetails hkey hst
    exact .inr ⟨hdetails, st, columns, slots, hstamps, hran⟩

/-- The steps that succeed are the INSERT of the master and that of its details, which get the key
    that the master brings. -/
theorem inserted_of_insertBoth {m n : Model} {row : Record}
    (hmaster : (Metadata.model master).Finds m answer s)
    (hdetail : (Metadata.model detail).Finds n answer s)
    (hrun : (insertBoth connection master detail keyField foreignKey payload).exec s =
      (.ok row, t))
    (hlog : t.events = s.events ++ log) (hgives : ∀ ev ∈ log, ev.Gives answer) :
    row = payload.master ∧ ∃ key first rest, masterKey keyField payload.master = .ok key ∧
      log = first ++ rest ∧
      (∃ st, m.insert payload.master = .ok st ∧ RunsIn connection st first) ∧
      DetailsInserted connection n payload.details foreignKey key rest := by
  -- the log is cut where the master's INSERT ends and the details begin
  obtain ⟨created, u, first, rest, hcreated, hrest, hsu, -, hu, ht, rfl⟩ :=
    (Rows.createIn_steady payload.master).split (fun created => (steady_ofExcept _).bind fun _ =>
      (Rows.createAllIn_steady _).bind fun _ => steady_pure created) hrun hlog
  rw [Rows.createIn_eq] at hcreated
  obtain ⟨rfl, hinserted⟩ := Rows.runsIn_of_insertion hmaster hcreated hu fun ev hev =>
    hgives ev (List.mem_append_left _ hev)
  obtain ⟨key, v, hchecked, hstamped⟩ := ok_of_exec_bind hrest
  obtain ⟨hkey, rfl⟩ := ok_of_exec_ofExcept hchecked
  obtain ⟨written, w, hwritten, hout⟩ := ok_of_exec_bind hstamped
  obtain ⟨hrow, rfl⟩ := Prod.mk.inj hout
  refine ⟨(Except.ok.inj hrow).symm, key, first, rest, hkey, rfl, hinserted, ?_⟩
  exact detailsInserted_of_createAllIn (not_null_of_masterKey hkey) (hdetail.of_precedes hsu)
    hwritten ht fun ev hev => hgives ev (List.mem_append_right _ hev)

theorem masterKey_of_insertBoth {row : Record}
    (hrun : (insertBoth connection master detail keyField foreignKey payload).exec s =
      (.ok row, t)) : ∃ key, masterKey keyField payload.master = .ok key := by
  obtain ⟨created, u, hcreated, hrest⟩ := ok_of_exec_bind hrun
  obtain rfl := Rows.row_of_createIn hcreated
  obtain ⟨key, v, hkey, -⟩ := ok_of_exec_bind hrest
  exact ⟨key, (ok_of_exec_ofExcept hkey).1⟩

end Steps

/-- What creating a master with its details has found, and what it has done. -/
structure Created (master detail : String) (payload : Payload)
    (answer : String → List Cell → Reply) (s : Session) (log : List Event) (r : Relation)
    (m n : Model) (key : Cell) : Prop where
  relation_found : (relation master detail).Finds r answer s
  master_found : (Metadata.model master).Finds m answer s
  detail_found : (Metadata.model detail).Finds n answer s
  key_given : payload.master.get? m.key = some key
  key_filled : key.isBlank = false
  /-- Behind what is looked up comes one transaction: the INSERT of the master, then that of the
      details. -/
  done : ∃ opening first rest, (∀ ev ∈ opening, Opening ev) ∧
    log = opening ++ .began (.data m.connection) none ::
      (first ++ (rest ++ [.committed (.data m.connection) none])) ∧
    (∃ st, m.insert payload.master = .ok st ∧ RunsIn m.connection st first) ∧
    DetailsInserted m.connection n payload.details r.foreignKey key rest

theorem created_of_create {row : Record}
    (hrun : (create master detail payload).exec s = (.ok row, t))
    (hlog : t.events = s.events ++ log) (hgives : ∀ ev ∈ log, ev.Gives answer) :
    row = payload.master ∧ ∃ r m n key, Created master detail payload answer s log r m n key := by
  have hsteady : ∀ (r : Relation) (m : Model), (Connection.transaction m.connection
      (insertBoth m.connection master detail m.key r.foreignKey payload)).Steady :=
    fun r m => Connection.transaction_steady insertBoth_steady
  obtain ⟨r, s₁, log₁, rest₁, hr, hrun₁, h₁, ht₁, rfl, hlooked₁, hgives₁⟩ :=
    (relation_consults master detail).split (fun r => (Metadata.model_consults master).steady.bind
      fun m => (Metadata.model_consults detail).steady.bind fun _ => hsteady r m) hrun hlog hgives
  obtain ⟨m, s₂, log₂, rest₂, hm, hrun₂, h₂, ht₂, rfl, hlooked₂, hgives₂⟩ :=
    (Metadata.model_consults master).split (fun m => (Metadata.model_consults detail).steady.bind
      fun _ => hsteady r m) hrun₁ ht₁ hgives₁
  obtain ⟨n, s₃, log₃, rest₃, hn, hrun₃, h₃, ht₃, rfl, hlooked₃, hgives₃⟩ :=
    (Metadata.model_consults detail).split (fun _ => hsteady r m) hrun₂ ht₂ hgives₂
  obtain ⟨u, v, opening, inner, hsteps, hu, hv, hopening, rfl⟩ :=
    Connection.committed_of_transaction insertBoth_steady hrun₃ ht₃
  -- what was looked up earlier still stands when the rows are written
  have hmu := hm.of_precedes (h₂.trans (h₃.trans hu))
  have hnu := hn.of_precedes (h₃.trans hu)
  obtain ⟨rfl, key, first, rest, hkey, rfl, hmaster, hdetails⟩ :=
    inserted_of_insertBoth hmu hnu hsteps hv fun ev hev => hgives₃ ev (by simp [hev])
  obtain ⟨hgiven, hfilled⟩ := masterKey_eq_ok_iff.1 hkey
  refine ⟨rfl, r, m, n, key, hr, hm.before h₁, hn.before (h₁.trans h₂), hgiven, hfilled,
    log₁ ++ (log₂ ++ (log₃ ++ opening)), first, rest, ?_, by simp, hmaster, hdetails⟩
  intro ev hev
  simp only [List.mem_append] at hev
  rcases hev with hev | hev | hev | hev
  · exact .consulted (hlooked₁ ev hev)
  · exact .consulted (hlooked₂ ev hev)
  · exact .consulted (hlooked₃ ev hev)
  · exact hopening ev hev

/-! ### Masters without a key -/

theorem insertBoth_logs_of_no_key {connection keyField foreignKey : String}
    (hkey : ∀ key, masterKey keyField payload.master ≠ .ok key) :
    (insertBoth connection master detail keyField foreignKey payload).Logs fun r log =>
      (∃ e, r = .error e) ∧ ∀ ev ∈ log, Inside (.data connection) ev := by
  intro s
  obtain ⟨log, hlog, hsteps⟩ :=
    insertBoth_steps connection master detail keyField foreignKey payload s
  refine ⟨log, hlog, ?_, hsteps.kind⟩
  rcases hrun : (insertBoth connection master detail keyField foreignKey payload).exec s with ⟨r, t⟩
  cases r with
  | error e => exact ⟨e, rfl⟩
  | ok row =>
    obtain ⟨key, hfound⟩ := masterKey_of_insertBoth hrun
    exact absurd hfound (hkey key)

/-- **Each detail is created with the key of its master.**  When a master is created with its
    details, it is given back as it came, and the transaction that was committed consists of the
    INSERT of the master and, where there are details, of one INSERT of them all.  That writes a
    tuple for each detail, in their order: in the column of the foreign key the key of the master,
    whatever the detail had there, and in every other column what the detail had.

    A master whose key is missing, NULL or empty leads to a failure, and nothing is committed. -/
theorem create_stamps_details (master detail : String) (payload : Payload) (s : Session) :
    (∀ row t log answer, (create master detail payload).exec s = (.ok row, t) →
      t.events = s.events ++ log → (∀ ev ∈ log, ev.Gives answer) →
      row = payload.master ∧ ∃ r m n key, Created master detail payload answer s log r m n key) ∧
    ((∀ r t m u key, (relation master detail).exec s = (.ok r, t) →
        (Metadata.model master).exec t = (.ok m, u) → payload.master.get? m.key = some key →
        key.isBlank = true) →
      (create master detail payload).Aborts s) := by
  refine ⟨fun row t log answer => created_of_create, fun hblank => ?_⟩
  refine (relation_quiet master detail).bind_aborts fun r t hr => ?_
  refine (Metadata.model_quiet master).bind_aborts fun m u hm => ?_
  refine (Metadata.model_quiet detail).bind_aborts fun n v _ => ?_
  refine Connection.transaction_aborts (insertBoth_logs_of_no_key fun key hkey => ?_) v
  obtain ⟨hgiven, hfilled⟩ := masterKey_eq_ok_iff.1 hkey
  rw [hblank r t m u key hr hm hgiven] at hfilled
  cases hfilled

/-- Items of an order, one of which names another order. -/
def strayPayload : Payload where
  master := ⟨[("id", .text "o1")]⟩
  details := [⟨[("sku", .text "a")]⟩, ⟨[("order_id", .text "o9"), ("sku", .text "b")]⟩]

def strayLog : List Event := [
  .began (.data "pg") none,
  .executed (.data "pg") true "INSERT INTO \"orders\" (\"id\") VALUES ($1)" [.text "o1"]
    (.rows [] 0),
  .executed (.data "pg") true
    "INSERT INTO \x60items\x60 (\x60sku\x60, \x60order_id\x60) VALUES (?, ?), (?, ?)"
    [.text "a", .text "o1", .text "b", .text "o1"] (.rows [] 0),
  .committed (.data "pg") none]

/-- An order with an empty key. -/
def namelessPayload : Payload where
  master := ⟨[("id", .text "")]⟩
  details := [⟨[("sku", .text "a")]⟩]

theorem strays_stamped :
    ((create "order" "item" strayPayload).exec orderSession).2.events = strayLog ∧
      (∃ r m n key, Created "order" "item" strayPayload (fun _ _ => .rows [] 0) orderSession strayLog
        r m n key) ∧
      (create "order" "item" namelessPayload).Aborts orderSession := by
  have hevents : ((create "order" "item" strayPayload).exec orderSession).2.events = strayLog := by
    decide +kernel
  have hout : ((create "order" "item" strayPayload).exec orderSession).1 =
      .ok strayPayload.master := by
    decide +kernel
  refine ⟨hevents, ?_, ?_⟩
  · refine ((create_stamps_details "order" "item" strayPayload orderSession).1 _ _ _ _
      (Prod.ext hout rfl) hevents ?_).2
    simp [Event.Gives]
  · refine (create_stamps_details "order" "item" namelessPayload orderSession).2 ?_
    rintro r t m u key ⟨⟩ ⟨⟩ ⟨⟩
    rfl

end MasterDetail

end MetaQuery
