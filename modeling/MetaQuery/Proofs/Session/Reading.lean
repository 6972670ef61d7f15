/-
  MetaQuery/Proofs/Session/Reading.lean
  =====================================
  Operations that change nothing.

  Every statement that is no SELECT is taken for a change, so nothing that writes is overlooked.
  Finding a model is a consultation, wherever the metadata is kept: all it does is to run SELECTs
  on the metadata (`Consulted`).  Opening a datasource and running a SELECT on it add events that
  are neither changes nor part of a transaction (`Quiet`), and they go on with the session.
-/
import MetaQuery.Proofs.Query.Numbering
import MetaQuery.Proofs.Session.Consultation
import MetaQuery.Session.Connection

namespace MetaQuery

/-! ### Changes -/

/-- The statement may change rows: it is no SELECT. -/
def isChangeText (text : String) : Bool := !"SELECT ".toList.isPrefixOf text.toList

theorem isChangeText_of_select {text : String} (h : "SELECT ".toList <+: text.toList) :
    isChangeText text = false := by
  rw [isChangeText, List.isPrefixOf_iff_prefix.2 h, Bool.not_true]

theorem isChangeText_of_head {text : String} {c : Char} {rest : List Char}
    (h : text.toList = c :: rest) (hc : c ≠ 'S') : isChangeText text = true := by
  have hword : "SELECT ".toList = 'S' :: "ELECT ".toList := by decide
  have hhead : ('S' == c) = false := by simpa using hc.symm
  rw [isChangeText, h, hword, List.isPrefixOf_cons_cons, hhead, Bool.false_and, Bool.not_false]

theorem Select.isChangeText_statement (q : Select) : isChangeText q.statement.text = false := by
  apply isChangeText_of_select
  rw [statement_eq, bodyParts]
  simp [Part.render]

/-- An event that neither changes rows nor belongs to a transaction. -/
inductive Quiet : Event → Prop where
  | connected (connection url : String) (failure : Option SourceFault) :
      Quiet (.connected connection url failure)
  | read {target : Target} {text : String} {args : List Cell} {reply : Reply}
      (h : isChangeText text = false) : Quiet (.executed target false text args reply)

/-- An event inside of a transaction: a statement of it, or a quiet one. -/
inductive Within (target : Target) : Event → Prop where
  | quiet {ev : Event} (h : Quiet ev) : Within target ev
  | statement {text : String} {args : List Cell} {reply : Reply} :
      Within target (.executed target true text args reply)

/-- A SELECT on the metadata. -/
inductive Consulted : Event → Prop where
  | read {text : String} {args : List Cell} {reply : Reply} (h : isChangeText text = false) :
      Consulted (.executed .metadata false text args reply)

theorem Consulted.quiet {ev : Event} (h : Consulted ev) : Quiet ev := by
  cases h with
  | read h => exact .read h

/-- An event that opening a datasource consists of. -/
inductive Opening : Event → Prop where
  | consulted {ev : Event} (h : Consulted ev) : Opening ev
  | connected (connection url : String) (failure : Option SourceFault) :
      Opening (.connected connection url failure)

theorem Opening.quiet {ev : Event} (h : Opening ev) : Quiet ev := by
  cases h with
  | consulted h => exact h.quiet
  | connected connection url failure => exact .connected connection url failure

/-- A step inside of a transaction: a statement of it, or a look at the metadata. -/
inductive Inside (target : Target) : Event → Prop where
  | consulted {ev : Event} (h : Consulted ev) : Inside target ev
  | statement {text : String} {args : List Cell} {reply : Reply} :
      Inside target (.executed target true text args reply)

theorem Inside.within {target : Target} {ev : Event} (h : Inside target ev) :
    Within target ev := by
  cases h with
  | consulted h => exact .quiet h.quiet
  | statement => exact .statement

open MetaQuery.Action

theorem Action.Consults.quiet {α : Type} {a : Action α} (h : a.Consults Consulted) :
    a.Emits Quiet := h.steps.emits.mono fun _ => Consulted.quiet

/-! ### Metadata -/

namespace Tables

theorem run_consults {text : String} (h : isChangeText text = false) (args : List Cell) :
    (run false text args).Consults Consulted :=
  consults_send_bind (fun _ => .read h) (fun rows affected => ⟨(rows, affected), rfl⟩)
    fun _ => rfl

theorem tableOf_consults (d : Dialect) (kind : String) : (tableOf d kind).Consults Consulted :=
  consults_get_bind (f := fun _ se => pure (d.quote (se.tableName kind))) fun _ _ =>
    consults_pure _

theorem ofSource_consults {α : Type} (r : Except SourceFault α) :
    (ofSource r).Consults Consulted := by
  refine consults_ofExcept ?_
  cases r with
  | ok a => exact refuses_ok a
  | error cause => exact refuses_error (.unreadable cause)

theorem decodeRows_consults {α : Type} (coder : Json.Coder α) (rows : List SourceRow) :
    (decodeRows coder rows).Consults Consulted := by
  refine Consults.bind (consults_mapM (fun _ => ofSource_consults _) rows) fun payloads => ?_
  exact consults_mapM (fun _ => consults_ofMetadata _) payloads

theorem loadAll_consults {α : Type} (d : Dialect) (coder : Json.Coder α) (kind : String) :
    (loadAll d coder kind).Consults Consulted := by
  refine Consults.bind (tableOf_consults d kind) fun table => ?_
  refine Consults.bind (run_consults (isChangeText_of_select (by simp)) _) fun reply => ?_
  exact decodeRows_consults coder reply.1

theorem loadWhere_consults {α : Type} (d : Dialect) (coder : Json.Coder α)
    (kind column value : String) : (loadWhere d coder kind column value).Consults Consulted := by
  refine Consults.bind (tableOf_consults d kind) fun table => ?_
  refine Consults.bind (run_consults (isChangeText_of_select (by simp)) _) fun reply => ?_
  exact decodeRows_consults coder reply.1

theorem loadFirst_consults {α : Type} (d : Dialect) (coder : Json.Coder α)
    (kind column value : String) : (loadFirst d coder kind column value).Consults Consulted :=
  (loadWhere_consults d coder kind column value).bind fun _ => consults_pure _

end Tables

namespace Metadata

/-- What a store of either kind is asked. -/
def askStore {α : Type} (fromCatalog : Catalog → α) (fromTables : Dialect → Action α) :
    Store → Action α
  | .memory c => pure (fromCatalog c)
  | .tables d => fromTables d

theorem ask_consults {α : Type} (fromCatalog : Catalog → α) {fromTables : Dialect → Action α}
    (h : ∀ d, (fromTables d).Consults Consulted) :
    (ask fromCatalog fromTables).Consults Consulted := by
  refine consults_get_bind (f := fun st _ => askStore fromCatalog fromTables st) fun st se => ?_
  cases st with
  | memory c => exact consults_pure _
  | tables d => exact h d

theorem ofModel_consults {α : Type} (pick : Catalog → List α) (owner : α → String)
    (coder : Json.Coder α) (kind id : String) :
    (ofModel pick owner coder kind id).Consults Consulted :=
  ask_consults _ fun d => Tables.loadWhere_consults d coder kind "model_id" id

theorem connection_consults (id : String) : (lookup.connection id).Consults Consulted :=
  ask_consults _ fun d =>
    Tables.loadFirst_consults d ConnectionEntry.layout.coder "connections" "id" id

theorem ofMetadata_consults {α : Type} (r : Except MetadataFault α) :
    (Lookup.ofMetadata r : Action α).Consults Consulted := by
  cases r with
  | error fault => exact consults_throw (.metadata fault)
  | ok a => exact consults_pure a

theorem dialectOf_consults (connection : String) :
    (lookup.dialectOf connection).Consults Consulted := by
  unfold Lookup.dialectOf
  split
  · exact consults_pure _
  · refine (connection_consults connection).bind fun entry? => ?_
    cases entry? with
    | none => exact consults_pure _
    | some entry => exact (ofMetadata_consults _).bind fun kind => consults_pure _

theorem assemble_consults (entry : ModelEntry) : (lookup.assemble entry).Consults Consulted := by
  unfold Lookup.assemble
  refine (ofModel_consults _ _ _ _ _).bind fun tables => ?_
  refine (ofModel_consults _ _ _ _ _).bind fun fields => ?_
  refine (dialectOf_consults _).bind fun dialect => ?_
  refine (ofModel_consults _ _ _ _ _).bind fun conditions => ?_
  refine (ofModel_consults _ _ _ _ _).bind fun joins => ?_
  refine (ofModel_consults _ _ _ _ _).bind fun orders => ?_
  refine (ofModel_consults _ _ _ _ _).bind fun groups => ?_
  refine (ofModel_consults _ _ _ _ _).bind fun havings => ?_
  refine (ask_consults _ fun d => Tables.loadFirst_consults d _ _ _ _).bind fun limit => ?_
  refine (ask_consults _ fun d => Tables.loadFirst_consults d _ _ _ _).bind fun raw => ?_
  exact consults_pure _

theorem model_consults (id : String) : (model id).Consults Consulted := by
  refine (ask_consults _ fun d => Tables.loadFirst_consults d _ _ _ _).bind fun entry? => ?_
  cases entry? with
  | none => exact consults_throw (.noModel id)
  | some entry => exact assemble_consults entry

theorem model_quiet (id : String) : (model id).Emits Quiet := (model_consults id).quiet

theorem relation?_consults (master detail : String) :
    (relation? master detail).Consults Consulted :=
  ask_consults _ fun d => (Tables.loadAll_consults d Relation.layout.coder "relations").bind
    fun _ => consults_pure _

end Metadata

/-! ### Datasources -/

namespace Connection

theorem addressOf_opens (connection : String) : (addressOf connection).Emits Opening := by
  have hentry := (Metadata.connection_consults connection).steps.emits
  refine (hentry.mono fun _ => Opening.consulted).bind fun entry? => ?_
  cases entry? with
  | none => exact emits_throw _
  | some entry => exact (emits_ofMetadata _).bind fun kind => emits_ofMetadata _

theorem connect_opens (connection : String) : (connect connection).Emits Opening := by
  refine (addressOf_opens connection).bind fun url => ?_
  refine Emits.bind (emits_modify fun _ => rfl) fun _ => ?_
  cases addressFault? url with
  | some cause => exact ((fails_throw _).bind _).emits
  | none =>
    refine emits_pass_bind (fun failure => .connected connection url failure) rfl ?_ ?_
    · exact emits_modify fun _ => rfl
    · exact fun cause => (fails_throw _).bind _

theorem ensureOpen_opens (connection : String) : (ensureOpen connection).Emits Opening := by
  refine emits_get_bind fun s => ?_
  split
  · exact emits_pure _
  · exact connect_opens connection

theorem ensureOpen_quiet (connection : String) : (ensureOpen connection).Emits Quiet :=
  (ensureOpen_opens connection).mono fun _ => Opening.quiet

theorem addressOf_steady (connection : String) : (addressOf connection).Steady := by
  refine (Metadata.connection_consults connection).steady.bind fun entry? => ?_
  cases entry? with
  | none => exact steady_throw _
  | some entry => exact (steady_ofExcept _).bind fun kind => steady_ofExcept _

theorem connect_steady (connection : String) : (connect connection).Steady := by
  refine (addressOf_steady connection).bind fun url => ?_
  refine Steady.bind (steady_modify fun s => ?_) fun _ => ?_
  · exact ⟨rfl, rfl, List.suffix_refl _, List.prefix_refl _⟩
  · cases addressFault? url with
    | some cause => exact ((fails_throw _).bind _).steady
    | none =>
      refine Steady.bind (steady_pass _ _) fun failure => ?_
      cases failure with
      | some cause => exact ((fails_throw _).bind _).steady
      | none => exact steady_modify fun s => ⟨rfl, rfl, List.suffix_refl _, List.prefix_refl _⟩

theorem ensureOpen_steady (connection : String) : (ensureOpen connection).Steady := by
  refine steady_get_bind fun s => ?_
  split
  · exact steady_pure _
  · exact connect_steady connection

/-- What a reply makes of the operation that looks at it. -/
def outcomeOf (text : String) : Reply → Except Fault (List Record)
  | .rows rows _ => .ok (rows.map (·.record))
  | .failure cause => .error (.execution text cause)

theorem exec_recordsOf (text : String) (reply : Reply) (s : Session) :
    (recordsOf text reply).exec s = (outcomeOf text reply, s) := by
  cases reply with
  | rows rows affected => rfl
  | failure cause => rfl

theorem fails_recordsOf (text : String) (cause : SourceFault) :
    (recordsOf text (.failure cause)).Fails := fails_throw _

theorem runText_quiet (connection : String) {text : String} (h : isChangeText text = false)
    (args : List Cell) : (runText connection text args).Emits Quiet := by
  refine (ensureOpen_quiet connection).bind fun _ => ?_
  exact emits_send_bind (fun _ => .read h) (fun _ _ => emits_pure _) (fails_recordsOf text)

/-- A statement run by itself that succeeds was answered with rows. -/
theorem answered_of_run {connection : String} {st : Statement} {s t : Session}
    {records : List Record} (h : (run connection st).exec s = (.ok records, t)) :
    ∃ rows affected opening, ∃ u : Session, s.Precedes u ∧ u.events = s.events ++ opening ∧
      (∀ ev ∈ opening, Quiet ev) ∧ u.answers.next.1 = .rows rows affected ∧
      records = rows.map (·.record) ∧ t = { u with
        answers := u.answers.next.2
        events := u.events ++
          [.executed (.data connection) false st.text st.args (.rows rows affected)] } := by
  obtain ⟨_, u, hopen, hsent⟩ := ok_of_exec_bind h
  rw [exec_bind_of_ok (exec_send _ _ _ _ u), exec_recordsOf] at hsent
  have hsteady := ensureOpen_steady connection s
  obtain ⟨opening, hopening, hquiet, -⟩ := ensureOpen_quiet connection s
  rw [hopen] at hsteady hopening
  rcases hreply : u.answers.next.1 with ⟨rows, affected⟩ | cause
  · rw [hreply] at hsent
    obtain ⟨hrecords, rfl⟩ := Prod.mk.inj hsent
    exact ⟨rows, affected, opening, u, hsteady, hopening, hquiet, hreply,
      (Except.ok.inj hrecords).symm, rfl⟩
  · rw [hreply] at hsent
    cases (Prod.mk.inj hsent).1

theorem run_steady (connection : String) (st : Statement) : (run connection st).Steady := by
  refine (ensureOpen_steady connection).bind fun _ => ?_
  refine (steady_send _ _ _ _).bind fun reply => ?_
  exact steady_of_still fun s => by rw [exec_recordsOf]

theorem run_quiet (connection : String) (q : Select) :
    (run connection q.statement).Emits Quiet :=
  runText_quiet connection q.isChangeText_statement q.statement.args

theorem exec_runIn (connection : String) (st : Statement) (s : Session) :
    (runIn connection st).exec s = (outcomeOf st.text s.answers.next.1, { s with
      answers := s.answers.next.2
      events := s.events ++
        [.executed (.data connection) true st.text st.args s.answers.next.1] }) := by
  rw [runIn, exec_bind_of_ok (exec_send _ _ _ _ s), exec_recordsOf]

theorem runIn_steady (connection : String) (st : Statement) : (runIn connection st).Steady := by
  refine (steady_send _ _ _ _).bind fun reply => ?_
  exact steady_of_still fun s => by rw [exec_recordsOf]

theorem runIn_steps (connection : String) (st : Statement) :
    (runIn connection st).Steps (Inside (.data connection)) :=
  steps_send_bind (fun _ => .statement) (fun _ _ => steps_pure _) fun _ => ⟨_, rfl, rfl⟩

end Connection

end MetaQuery
