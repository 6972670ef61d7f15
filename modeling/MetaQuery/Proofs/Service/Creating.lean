/-
  MetaQuery/Proofs/Service/Creating.lean
  ======================================
  What creating a row sends.

  The row is checked and inserted by one statement, which writes each column of the row, brought to
  the type of its field (`storedCell`), and carries all that is not NULL as arguments
  (`args_insert`).  A creation that succeeds has sent that statement behind a look at the metadata
  and the opening of the datasource (`inserts_of_create`).
-/
import MetaQuery.Proofs.Service.Sending

namespace MetaQuery

open MetaQuery.Action

/-! ### The INSERT of a row -/

namespace Model

/-- What an INSERT of the row writes in a column: NULL where the row does not have it. -/
def storedCell (m : Model) (row : Record) (column : String) : Cell :=
  coerceTo (m.field? column) ((row.get? column).getD .null)

theorem args_bindRow (m : Model) (row : Record) (columns : List String) (st : Statement) :
    (m.bindRow .null row st columns).2.args =
      st.args ++ (columns.map (m.storedCell row)).filter (!·.isNull) := by
  induction columns generalizing st with
  | nil => simp [bindRow]
  | cons k r ih =>
    -- a column without a value is bound as the NULL that its field stands for
    have hslot : m.bindRow .null row st (k :: r) =
        let bound := st.bind (m.storedCell row k)
        let rest := m.bindRow .null row bound.2 r
        (bound.1 :: rest.1, rest.2) := by
      cases hget : row.get? k with
      | some v =>
        simp only [bindRow, storedCell, hget]
        rfl
      | none =>
        simp only [bindRow, storedCell, hget]
        cases m.field? k with
        | none => rfl
        | some f => rfl
    rw [hslot]
    dsimp only
    rw [ih, Statement.args_bind, List.append_assoc, ← List.filter_append]
    rfl

theorem args_bindRows (m : Model) (columns : List String) (rows : List Record) (st : Statement) :
    (m.bindRows .null columns st rows).2.args =
      st.args ++ rows.flatMap fun row =>
        (columns.map (m.storedCell row)).filter (!·.isNull) := by
  induction rows generalizing st with
  | nil => simp [bindRows]
  | cons row rest ih =>
    rw [bindRows]
    dsimp only
    rw [ih, args_bindRow, List.append_assoc, List.flatMap_cons]

/-- An INSERT carries what it writes, row by row and column by column, but for the NULL cells. -/
theorem args_insertMany {m : Model} {rows : List Record} {st : Statement}
    (h : m.insertMany rows .null = .ok st) :
    st.args = rows.flatMap fun row =>
      ((unionKeys rows).map (m.storedCell row)).filter (!·.isNull) := by
  rw [insertMany_eq] at h
  split at h
  · cases h
  · cases htarget : m.target with
    | error fault =>
      rw [htarget] at h
      cases h
    | ok target =>
      rw [htarget] at h
      obtain rfl := Except.ok.inj h
      exact m.args_bindRows (unionKeys rows) rows (.start m.dialect)

theorem args_insert {m : Model} {row : Record} {st : Statement} (h : m.insert row = .ok st) :
    st.args = ((unionKeys [row]).map (m.storedCell row)).filter (!·.isNull) := by
  rw [args_insertMany h, List.flatMap_singleton]

end Model

/-- The log is that of reading and then inserting the row. -/
def Inserts (m : Model) (row : Record) (log : List Event) : Prop :=
  ∃ read st rows affected, m.insert row = .ok st ∧
    st.args = ((unionKeys [row]).map (m.storedCell row)).filter (!·.isNull) ∧
    (∀ ev ∈ read, Quiet ev) ∧
    log = read ++ [.executed (.data m.connection) false st.text st.args (.rows rows affected)]

theorem Inserts.behind {m : Model} {row : Record} {log read : List Event} (h : Inserts m row log)
    (hread : ∀ ev ∈ read, Quiet ev) : Inserts m row (read ++ log) := by
  obtain ⟨read', st, rows, affected, hst, hargs, hread', rfl⟩ := h
  refine ⟨read ++ read', st, rows, affected, hst, hargs, fun ev hev => ?_,
    (List.append_assoc _ _ _).symm⟩
  rcases List.mem_append.1 hev with hev | hev
  · exact hread ev hev
  · exact hread' ev hev

/-! ### Creating -/

namespace Rows

theorem create_steady (model : String) (row : Record) : (create model row).Steady := by
  refine (Metadata.model_consults model).steady.bind fun m => ?_
  refine (steady_ofRules _).bind fun st => ?_
  exact (Connection.run_steady m.connection st).bind fun _ => steady_pure row

/-- A row is created on a datasource that is open, with a model that is loaded without an
    exchange. -/
theorem exec_create {model : String} {m : Model} {row : Record} {st : Statement} {s : Session}
    {rows : List SourceRow} {affected : Nat} (hload : (Metadata.model model).exec s = (.ok m, s))
    (hopen : s.opened.contains m.connection = true) (hst : creation model m [row] s.rules = .ok st)
    (hreply : s.answers.next.1 = .rows rows affected) :
    (create model row).exec s = (.ok row, { s with
      answers := s.answers.next.2
      events := s.events ++ [.executed (.data m.connection) false st.text st.args
        (.rows rows affected)] }) := by
  rw [create, exec_bind_of_ok hload, exec_bind_of_ok (exec_ofRules_of_ok hst),
    exec_bind_of_ok (Connection.exec_run hopen st hreply)]
  rfl

theorem insertMany_of_creation {rules : Rules} {model : String} {m : Model} {rows : List Record}
    {st : Statement} (h : creation model m rows rules = .ok st) :
    m.insertMany rows .null = .ok st := by
  unfold creation at h
  cases hcheck : rows.forM (checkRow rules model m.fields) with
  | error fault =>
    rw [hcheck] at h
    cases h
  | ok u =>
    rw [hcheck] at h
    exact h

/-- A row that is created was inserted. -/
theorem inserts_of_create {model : String} {m : Model} {answer : String → List Cell → Reply}
    {row row' : Record} {s t : Session} {log : List Event}
    (hload : (Metadata.model model).Finds m answer s)
    (hrun : (create model row).exec s = (.ok row', t)) (hlog : t.events = s.events ++ log)
    (hgives : ∀ ev ∈ log, ev.Gives answer) : row' = row ∧ Inserts m row log := by
  obtain ⟨u, first, rest, hrest, -, ht, rfl, hfirst⟩ := hload.split (Metadata.model_consults model)
    (fun m => (steady_ofRules _).bind fun st => (Connection.run_steady _ _).bind fun _ =>
      steady_pure row) hrun hlog hgives
  obtain ⟨st, v, hcreation, hsent⟩ := ok_of_exec_bind hrest
  obtain ⟨hst, rfl⟩ := ok_of_exec_ofRules hcreation
  obtain ⟨records, w, hrecords, hout⟩ := ok_of_exec_bind hsent
  obtain ⟨hrow, rfl⟩ := Prod.mk.inj hout
  obtain ⟨rows, affected, opening, x, -, hopening, hquiet, -, -, rfl⟩ :=
    Connection.answered_of_run hrecords
  dsimp only at ht
  rw [hopening, List.append_assoc] at ht
  obtain rfl := List.append_cancel_left ht
  have hinsert : m.insert row = .ok st := insertMany_of_creation hst
  refine ⟨(Except.ok.inj hrow).symm, ?_⟩
  -- looking up the model and opening the connection are quiet: the INSERT is the one change
  refine Inserts.behind ⟨opening, st, rows, affected, hinsert, Model.args_insert hinsert, hquiet,
    rfl⟩ fun ev hev => (hfirst ev hev).quiet

end Rows

end MetaQuery
