/-
  MetaQuery/Proofs/Service/Rendering.lean
  =======================================
  In which dialect a master and its details are written.

  The transaction runs on the connection of the master, whose INSERT is written in the dialect of
  that connection.  The INSERT of the details is written in the dialect of the connection of their
  own model, though it runs on the connection of the master.  The two dialects quote the table or
  write the foreign key in different ways (`Model.Writes.unique`), so the details are written as
  their connection reads them only where both are the same (`create_rendering`).
-/
import MetaQuery.Pattern.Reader
import MetaQuery.Proofs.Query.Columns
import MetaQuery.Proofs.Query.Inserting
import MetaQuery.Proofs.Query.Placeholders
import MetaQuery.Proofs.Service.Creating
import MetaQuery.Proofs.Session.Memory

namespace MetaQuery

open MetaQuery.Action

/-! ### Statements in a dialect -/

theorem Dialect.head?_table (d : Dialect) (schema name : String) :
    (d.table schema name).toList.head? = some d.quoteChar := by
  unfold table
  split
  · simp [quote, Text.enclose]
  · simp [quote, Text.enclose]

/-- The first placeholder shows whether placeholders are numbered. -/
theorem numberedPlaceholders_ne {n : Nat} (h : n ≠ 0) :
    numberedPlaceholders .postgres n ≠ numberedPlaceholders .ansi n := by
  obtain ⟨k, rfl⟩ := Nat.exists_eq_succ_of_ne_zero h
  intro heq
  simp [numberedPlaceholders, List.range_succ_eq_map, List.replicate_succ] at heq

namespace Model

theorem head?_target {m : Model} {target : String} (h : m.target = .ok target) :
    target.toList.head? = some m.dialect.quoteChar := by
  obtain ⟨t, -, rfl⟩ := exists_table_of_target h
  exact m.dialect.head?_table t.schema t.name

/-- The table stands behind the first words of an INSERT, and shows the quotes of the dialect. -/
theorem head?_insertMany {m : Model} {rows : List Record} {missing : MissingColumn}
    {st : Statement} (h : m.insertMany rows missing = .ok st) :
    (st.text.toList.drop "INSERT INTO ".toList.length).head? = some m.dialect.quoteChar := by
  rw [insertMany_eq] at h
  split at h
  · cases h
  · obtain ⟨target, htarget, rfl⟩ := exists_target _ h
    have hhead := head?_target htarget
    obtain ⟨new, hout, -, -⟩ := binds_bindRows m missing (unionKeys rows) rows (.start m.dialect)
    dsimp only
    rw [hout]
    simp only [Statement.start, Statement.text_put, String.empty_append, String.append_assoc,
      String.toList_append, List.drop_left]
    rw [List.head?_append, hhead, Option.some_or]

/-- The model with its statements in another dialect. -/
def inDialect (m : Model) (d : Dialect) : Model := { m with dialect := d }

/-- The statement is the INSERT of the rows as a dialect writes it. -/
def Writes (m : Model) (d : Dialect) (rows : List Record) (text : String) (args : List Cell) :
    Prop :=
  ∃ st, (m.inDialect d).insertMany rows .null = .ok st ∧ st.text = text ∧ st.args = args

variable {m : Model} {d d' : Dialect} {rows : List Record} {text : String} {args : List Cell}

theorem Writes.quoteChar (h : m.Writes d rows text args) :
    (text.toList.drop "INSERT INTO ".toList.length).head? = some d.quoteChar := by
  obtain ⟨st, hst, rfl, -⟩ := h
  exact head?_insertMany hst

theorem Writes.placeholders (h : m.Writes d rows text args) :
    (Raw.bare? text.toList).map MetaQuery.placeholders =
      some (numberedPlaceholders d args.length) := by
  obtain ⟨st, hst, rfl, rfl⟩ := h
  exact (insertMany_wellNumbered _ hst).placeholders

/-- **A statement with arguments is written in one dialect only.** -/
theorem Writes.unique (h : m.Writes d rows text args) (h' : m.Writes d' rows text args)
    (hargs : args ≠ []) : d = d' := by
  have hquote : d.quoteChar = d'.quoteChar := Option.some.inj (h.quoteChar.symm.trans h'.quoteChar)
  have hshown : numberedPlaceholders d args.length = numberedPlaceholders d' args.length :=
    Option.some.inj (h.placeholders.symm.trans h'.placeholders)
  have hlength : args.length ≠ 0 := by simpa using hargs
  -- MySQL differs in its quote, and the other two in their numbered placeholders
  cases d with
  | mysql =>
    cases d' with
    | mysql => rfl
    | postgres => exact absurd hquote (by decide)
    | ansi => exact absurd hquote (by decide)
  | postgres =>
    cases d' with
    | mysql => exact absurd hquote (by decide)
    | postgres => rfl
    | ansi => exact absurd hshown (numberedPlaceholders_ne hlength)
  | ansi =>
    cases d' with
    | mysql => exact absurd hquote (by decide)
    | postgres => exact absurd hshown.symm (numberedPlaceholders_ne hlength)
    | ansi => rfl

end Model

/-! ### Rows that carry a value -/

/-- A cell that is not NULL is carried by the INSERT of its row. -/
theorem Model.args_ne_nil {m : Model} {rows : List Record} {st : Statement}
    (h : m.insertMany rows .null = .ok st) {row : Record} (hrow : row ∈ rows) {k : String}
    {v : Cell} (hcell : row.get? k = some v) (hv : v.isNull = false) : st.args ≠ [] := by
  have hstored : (m.storedCell row k).isNull = false := by
    rw [storedCell, hcell, Option.getD_some, isNull_coerceTo, hv]
  have hcolumn : k ∈ unionKeys rows := mem_unionKeys.2 ⟨row, hrow, Record.mem_keys_iff.2 ⟨v, hcell⟩⟩
  rw [args_insertMany h]
  have hcarried : m.storedCell row k ∈
      ((unionKeys rows).map (m.storedCell row)).filter (!·.isNull) :=
    List.mem_filter.2 ⟨List.mem_map_of_mem hcolumn, by rw [hstored, Bool.not_false]⟩
  exact List.ne_nil_of_mem (List.mem_flatMap.2 ⟨row, hrow, hcarried⟩)

/-! ### The statements of the transaction -/

/-- The event is that of the INSERT of some rows into a model, in a transaction on a connection. -/
def Inserted (c : Catalog) (connection model : String) (rows : List Record) (ev : Event) : Prop :=
  ∃ m st reply, c.model model = .ok m ∧ m.insertMany rows .null = .ok st ∧
    ev = .executed (.data connection) true st.text st.args reply

variable {c : Catalog} {P : Event → Prop}

theorem Connection.runIn_emitsOn {connection : String} {st : Statement}
    (h : ∀ reply, P (.executed (.data connection) true st.text st.args reply)) :
    (runIn connection st).EmitsOn c P := by
  intro s hstore
  rw [exec_runIn]
  exact ⟨hstore, _, rfl, by simpa using h _⟩

/-- Rows are inserted into a model as the catalog has it. -/
theorem Rows.insertion_emitsOn {α : Type} (connection model : String) (rows : List Record)
    (out : α) :
    (do
      let m ← Metadata.model model
      let st ← Action.ofRules (creation model m rows)
      let _ ← Connection.runIn connection st
      return out : Action α).EmitsOn c (Inserted c connection model rows) := by
  refine (Metadata.model_recalls c model).emitsOn_bind fun m hm => ?_
  refine emitsOn_ofRules_bind fun rules st hst => ?_
  refine EmitsOn.bind (Connection.runIn_emitsOn fun reply => ?_) fun _ => emitsOn_pure out
  exact ⟨m, st, reply, hm, insertMany_of_creation hst, rfl⟩

namespace MasterDetail

/-- The details with the key of their master. -/
def stamped (details : List Record) (foreignKey : String) (key : Cell) : List Record :=
  details.map (·.set foreignKey key)

theorem not_null_of_masterKey {keyField : String} {row : Record} {key : Cell}
    (h : masterKey keyField row = .ok key) : key.isNull = false := by
  unfold masterKey at h
  split at h
  · next found hfound =>
    obtain rfl := Except.ok.inj h
    have hblank := (Option.filter_eq_some_iff.1 hfound).2
    cases found with
    | null => cases hblank
    | _ => rfl
  · cases h

/-- What a statement of the transaction is. -/
inductive Written (c : Catalog) (connection master detail foreignKey : String)
    (payload : Payload) : Event → Prop where
  | master {ev : Event} (h : Inserted c connection master [payload.master] ev) :
      Written c connection master detail foreignKey payload ev
  | details {ev : Event} {key : Cell} (hkey : key.isNull = false)
      (h : Inserted c connection detail (stamped payload.details foreignKey key) ev) :
      Written c connection master detail foreignKey payload ev

theorem insertBoth_emitsOn (connection master detail keyField foreignKey : String)
    (payload : Payload) :
    (insertBoth connection master detail keyField foreignKey payload).EmitsOn c
      (Written c connection master detail foreignKey payload) := by
  have hmaster := Rows.insertion_emitsOn (c := c) connection master [payload.master] payload.master
  refine EmitsOn.bind (hmaster.mono fun _ => .master) fun created => ?_
  refine (recalls_ofExcept _).emitsOn_bind fun key hkey => ?_
  refine EmitsOn.bind ?_ fun _ => emitsOn_pure created
  unfold Rows.createAllIn
  split
  · exact emitsOn_pure []
  · exact (Rows.insertion_emitsOn connection detail _ _).mono fun _ =>
      .details (not_null_of_masterKey hkey)

end MasterDetail

/-! ### The transaction -/

namespace Connection

theorem EndLog.not_executed {α : Type} {connection : String} {outcome r : Except Fault α}
    {log : List Event} (h : EndLog connection outcome r log) {target : Target}
    {inTransaction : Bool} {text : String} {args : List Cell} {reply : Reply} :
    .executed target inTransaction text args reply ∉ log := by
  cases h with
  | committed a => simp
  | refused a cause => simp
  | rolledBack e failure => simp

/-- With the catalog in memory, the statements in a transaction stand behind a begin on its
    connection, and they are those of its steps. -/
theorem statements_of_transaction {α : Type} {connection : String} {body : Action α}
    (hbody : body.EmitsOn c P) {s : Session} (hstore : s.store = .memory c) :
    ∃ log, ((transaction connection body).exec s).2.events = s.events ++ log ∧
      ∀ target text args reply, .executed target true text args reply ∈ log →
        .began (.data connection) none ∈ log ∧ P (.executed target true text args reply) := by
  have hquiets : ∀ {log : List Event} {target text args reply}, (∀ ev ∈ log, Quiet ev) →
      Event.executed target true text args reply ∉ log := by
    intro log target text args reply hquiet hmem
    cases hquiet _ hmem
  obtain ⟨first, hfirst, hbegin⟩ := begin_logs connection s
  have hsteady := begin_steady connection s
  rw [transaction_eq, exec_bind]
  rcases hrun : (begin connection).exec s with ⟨r, t⟩
  rw [hrun] at hfirst hbegin hsteady
  -- only behind a begin that succeeded is anything sent inside the transaction
  cases hbegin with
  | unopened hquiet =>
    exact ⟨first, hfirst, fun target text args reply hmem => absurd hmem (hquiets hquiet)⟩
  | @refused opening cause hquiet hopened =>
    refine ⟨_, hfirst, fun target text args reply hmem => ?_⟩
    rcases List.mem_append.1 hmem with hmem | hmem
    · exact absurd hmem (hquiets hquiet)
    · simp at hmem
  | @begun opening hquiet hopened =>
    obtain ⟨-, inner, hinner, hkind⟩ := hbody t (hsteady.store.trans hstore)
    obtain ⟨ending, hending, hend⟩ := finish_logs connection (body.exec t).1 (body.exec t).2
    refine ⟨opening ++ .began (.data connection) none :: (inner ++ ending), ?_, ?_⟩
    · refine hending.trans ?_
      rw [hinner, hfirst]
      simp
    · intro target text args reply hmem
      refine ⟨by simp, ?_⟩
      rcases List.mem_append.1 hmem with hmem | hmem
      · exact absurd hmem (hquiets hquiet)
      · rcases List.mem_cons.1 hmem with heq | hmem
        · cases heq
        · rcases List.mem_append.1 hmem with hmem | hmem
          · exact hkind _ hmem
          · exact absurd hmem hend.not_executed

end Connection

namespace MasterDetail

/-- The relation between two models of a catalog, which has a foreign key. -/
def relationOf (c : Catalog) (master detail : String) : Except Fault Relation :=
  match c.relation? master detail with
  | none => .error (.metadata (.missingRelation master detail))
  | some r =>
    if r.foreignKey = "" then .error (.metadata (.namedRelationWithoutKey r.id)) else .ok r

theorem relation_recalls (c : Catalog) (master detail : String) :
    (relation master detail).Recalls c (relationOf c master detail) := by
  intro s hstore
  rw [relation, exec_bind, Metadata.relation?_recalls c master detail s hstore, relationOf]
  dsimp only [pure, Except.pure]
  cases c.relation? master detail with
  | none => rfl
  | some r =>
    dsimp only
    split
    · rfl
    · rfl

theorem relation?_of_relationOf {master detail : String} {r : Relation}
    (h : relationOf c master detail = .ok r) : c.relation? master detail = some r := by
  unfold relationOf at h
  split at h
  · cases h
  · next found hfound =>
    split at h
    · cases h
    · rw [hfound, Except.ok.inj h]

/-- The statements in the transaction, with the catalog in memory. -/
theorem statements_of_create (master detail : String) (payload : Payload) {s : Session}
    (hstore : s.store = .memory c) :
    ∃ log, ((create master detail payload).exec s).2.events = s.events ++ log ∧
      ∀ target text args reply, .executed target true text args reply ∈ log →
        ∃ r m, c.relation? master detail = some r ∧ c.model master = .ok m ∧
          .began (.data m.connection) none ∈ log ∧
          Written c m.connection master detail r.foreignKey payload
            (.executed target true text args reply) := by
  refine (relation_recalls c master detail).log_bind hstore (by simp) fun r hr => ?_
  refine (Metadata.model_recalls c master).log_bind hstore (by simp) fun m hm => ?_
  refine (Metadata.model_recalls c detail).log_bind hstore (by simp) fun _ _ => ?_
  obtain ⟨log, hlog, hstatements⟩ := Connection.statements_of_transaction
    (insertBoth_emitsOn m.connection master detail m.key r.foreignKey payload) hstore
  refine ⟨log, hlog, fun target text args reply hmem => ?_⟩
  obtain ⟨hbegan, hwritten⟩ := hstatements target text args reply hmem
  exact ⟨r, m, relation?_of_relationOf hr, hm, hbegan, hwritten⟩

theorem ne_nil_of_insertMany {m : Model} {rows : List Record} {missing : MissingColumn}
    {st : Statement} (h : m.insertMany rows missing = .ok st) : rows ≠ [] := by
  rintro rfl
  cases h

/-- **In which dialect a master and its details are written.**  Each statement of the transaction
    runs on the connection of the master, on which it was begun.  It is the INSERT of the master,
    in the dialect of that connection, or the INSERT of the details, in the dialect of their own
    one; and the latter is as the connection reads it exactly when the two dialects are one. -/
theorem create_rendering {master detail : String} {payload : Payload} {s : Session}
    {log : List Event} (hstore : s.store = .memory c)
    (hlog : ((create master detail payload).exec s).2.events = s.events ++ log)
    {target : Target} {text : String} {args : List Cell} {reply : Reply}
    (hev : .executed target true text args reply ∈ log) :
    ∃ m d, c.model master = .ok m ∧ target = .data m.connection ∧ .began target none ∈ log ∧
      c.dialectOf m.connection = .ok d ∧
      (m.Writes d [payload.master] text args ∨
        ∃ n r key, c.model detail = .ok n ∧ c.relation? master detail = some r ∧
          key.isNull = false ∧ c.dialectOf n.connection = .ok n.dialect ∧
          n.Writes n.dialect (stamped payload.details r.foreignKey key) text args ∧
          (n.Writes d (stamped payload.details r.foreignKey key) text args ↔ n.dialect = d)) := by
  obtain ⟨log', hlog', hstatements⟩ := statements_of_create master detail payload hstore
  obtain rfl : log = log' := List.append_cancel_left (hlog.symm.trans hlog')
  obtain ⟨r, m, hr, hm, hbegan, hwritten⟩ := hstatements target text args reply hev
  refine ⟨m, m.dialect, hm, ?_⟩
  cases hwritten with
  | master h =>
    obtain ⟨m', st, reply', hm', hst, heq⟩ := h
    obtain rfl : m = m' := Except.ok.inj (hm.symm.trans hm')
    injection heq with htarget _ htext hargs
    subst htarget htext hargs
    exact ⟨rfl, hbegan, (Catalog.model_eq_ok hm).2, .inl ⟨st, hst, rfl, rfl⟩⟩
  | @details key hkey h =>
    obtain ⟨n, st, reply', hn, hst, heq⟩ := h
    injection heq with htarget _ htext hargs
    subst htarget htext hargs
    refine ⟨rfl, hbegan, (Catalog.model_eq_ok hm).2, .inr ⟨n, r, key, hn, hr, hkey,
      (Catalog.model_eq_ok hn).2, ⟨st, hst, rfl, rfl⟩, ?_⟩⟩
    have hown : n.Writes n.dialect (stamped payload.details r.foreignKey key) st.text st.args :=
      ⟨st, hst, rfl, rfl⟩
    constructor
    · intro hother
      -- each detail brings the key of the master, so the INSERT has arguments
      obtain ⟨row, hrow⟩ := List.exists_mem_of_ne_nil _ (ne_nil_of_insertMany hst)
      obtain ⟨row', -, hset⟩ := List.mem_map.1 hrow
      have hcell : row.get? r.foreignKey = some key := by
        rw [← hset]
        exact Record.get?_set_self row' r.foreignKey key
      exact hown.unique hother (Model.args_ne_nil hst hrow hcell hkey)
    · intro hsame
      rwa [← hsame]

/-- Orders on a PostgreSQL datasource, with items on a MySQL one. -/
def orderCatalog : Catalog where
  connections := [{ id := "pg", kind := "postgres" }, { id := "my", kind := "mysql" }]
  models := [{ id := "order", code := "order", connection := "pg" },
    { id := "item", code := "item", connection := "my" }]
  tables := [{ id := "o", model := "order", name := "orders" },
    { id := "i", model := "item", name := "items" }]
  relations := [{ master := "order", detail := "item", foreignKey := "order_id" }]

/-- A session in which the datasource of the orders is open. -/
def orderSession : Session where
  store := .memory orderCatalog
  rules := Pattern.read
  opened := ["pg"]
  idAt := fun _ => ""

def orderPayload : Payload where
  master := ⟨[("id", .text "o1")]⟩
  details := [⟨[("sku", .text "a")]⟩]

def itemText : String :=
  "INSERT INTO \x60items\x60 (\x60sku\x60, \x60order_id\x60) VALUES (?, ?)"

def itemEvent : Event :=
  .executed (.data "pg") true itemText [.text "a", .text "o1"] (.rows [] 0)

def orderLog : List Event := [
  .began (.data "pg") none,
  .executed (.data "pg") true "INSERT INTO \"orders\" (\"id\") VALUES ($1)" [.text "o1"]
    (.rows [] 0),
  itemEvent,
  .committed (.data "pg") none]

theorem orderLog_eq :
    ((create "order" "item" orderPayload).exec orderSession).2.events = orderLog := by
  decide +kernel

theorem itemEvent_rendering :
    orderSession.store = .memory orderCatalog ∧ itemEvent ∈ orderLog ∧
      ∃ m d, orderCatalog.model "order" = .ok m ∧ Target.data "pg" = .data m.connection ∧
        .began (.data "pg") none ∈ orderLog ∧ orderCatalog.dialectOf m.connection = .ok d ∧
        (m.Writes d [orderPayload.master] itemText [.text "a", .text "o1"] ∨
          ∃ n r key, orderCatalog.model "item" = .ok n ∧
            orderCatalog.relation? "order" "item" = some r ∧ key.isNull = false ∧
            orderCatalog.dialectOf n.connection = .ok n.dialect ∧
            n.Writes n.dialect (stamped orderPayload.details r.foreignKey key) itemText
              [.text "a", .text "o1"] ∧
            (n.Writes d (stamped orderPayload.details r.foreignKey key) itemText
              [.text "a", .text "o1"] ↔ n.dialect = d)) := by
  have hmem : itemEvent ∈ orderLog := by simp [orderLog]
  exact ⟨rfl, hmem, create_rendering rfl orderLog_eq hmem⟩

/-- In the transaction on the PostgreSQL datasource, a statement is sent that PostgreSQL does not
    write, whatever the model and the rows. -/
theorem items_sent_in_other_dialect :
    ((create "order" "item" orderPayload).exec orderSession).2.events = orderLog ∧
      orderCatalog.dialectOf "pg" = .ok .postgres ∧ .began (.data "pg") none ∈ orderLog ∧
      itemEvent ∈ orderLog ∧
      ∀ (m : Model) rows args, ¬ m.Writes .postgres rows itemText args := by
  refine ⟨orderLog_eq, rfl, by simp [orderLog], by simp [orderLog], fun m rows args h => ?_⟩
  exact absurd h.quoteChar (by decide)

end MasterDetail

end MetaQuery
