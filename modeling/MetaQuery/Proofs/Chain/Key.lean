/-
  MetaQuery/Proofs/Chain/Key.lean
  ===============================
  The key of a row beside the chain of a model.

  A row is read by its key with the query of its model, of which the key is required beside the
  chain.  The chain then stands in parentheses, so the key restricts all of it, also where the
  chain has an OR of its own: no row with another key passes, and no row that the chain keeps out
  (`get_reads_row`).
-/
import MetaQuery.Proofs.Chain.Filters

namespace MetaQuery

/-! ### A required predicate -/

/-- The words of a chain and of one more predicate that is required beside it. -/
def requiredWords (ws : List Condition) : List Word :=
  if ws.isEmpty then [.fact 0]
  else .opening :: (chainWords ws ++ [.closing, .link .and, .fact ws.length])

/-- Both have to hold, the chain as a whole. -/
theorem truth?_requiredWords {ws : List Condition} (h : NestedChain ws) (v : Nat → Bool) :
    ∃ b, truth? v (chainWords ws) = some b ∧
      truth? v (requiredWords ws) = some (b && v ws.length) := by
  by_cases hne : ws = []
  · refine ⟨true, by rw [hne]; rfl, ?_⟩
    have hfact := truth?_factor_append v (.fact 0) []
    rw [requiredWords, if_pos (List.isEmpty_iff.2 hne), hne]
    refine hfact.trans ?_
    simp [runs, Formula.holds]
  -- the chain goes in brackets and is one operand of the AND
  · obtain ⟨f, hf⟩ := read_chainWords h hne
    have hwords := Formula.words_of_read? hf
    have hlink := truth?_factor_append v (.group f) [(.and, ws.length)]
    refine ⟨f.holds v, by rw [← hwords, truth?_words], ?_⟩
    rw [requiredWords, if_neg (by simpa using hne), ← hwords]
    have hlayout : (Formula.group f).words ++ linkWords [(.and, ws.length)] =
        .opening :: (f.words ++ [.closing, .link .and, .fact ws.length]) := by
      simp [Formula.words, linkWords]
    rw [← hlayout, hlink]
    simp [runs, Formula.holds]

theorem Select.source_require (q : Select) (p : Fragment) : (q.require p).source = q.source := by
  unfold require
  split <;> rfl

/-- A predicate required of a query without predicates is all that restricts its rows. -/
theorem Select.whereReads_alone {q : Select} {p : Fragment} (hp : p.isEmpty = false)
    (hfilter : q.filter.isEmpty = true) (hrequired : q.required = []) :
    (q.require p).WhereReads [p] [.fact 0] := by
  intro st
  simp [require, hp, writeWhere, hrequired, hfilter, writeRequired, writeWords, Word.write]

/-- A predicate required beside a chain is written behind it, the chain in parentheses. -/
theorem Select.whereReads_require {q : Select} {p : Fragment} {m : Model} {params : Params}
    {ws : List Condition} (hp : p.isEmpty = false) (hfilter : q.filter = m.chain params ws)
    (hrequired : q.required = []) (hplain : PlainChain ws) :
    (q.require p).WhereReads (ws.map (m.predicate params) ++ [p]) (requiredWords ws) := by
  by_cases hne : ws = []
  · have hnone : q.filter.isEmpty = true := by
      rw [hfilter, hne]
      rfl
    rw [hne]
    exact whereReads_alone hp hnone hrequired
  · intro st
    have hsome : q.filter.isEmpty = false := by
      rw [hfilter, m.isEmpty_chain params hne]
    have hwrite := m.write_chain params hplain [p] ((st.put " WHERE ").put "(")
    rw [← hfilter] at hwrite
    -- the bracket and the AND are put at once
    have hclose : ∀ t : Statement, t.put ") AND " = (t.put ")").put " AND " := by
      intro t
      simp only [Statement.put, String.append_assoc]
      rfl
    simp [require, hp, writeWhere, hrequired, hsome, hne, requiredWords, writeRequired,
      writeWords_cons, writeWords_append, Word.write, hwrite, hclose]
    rfl

/-! ### The predicate of a key -/

/-- The key column of a table equals a key, which is brought to the type of the column. -/
def Model.keyFact (m : Model) (table : String) (key : Cell) : Fragment :=
  (Fragment.ofText (m.dialect.column table m.key ++ " = ")).putArg (coerceTo (m.field? m.key) key)

theorem Model.keyPredicate_of_raw {m : Model} {key : Cell} (hraw : m.isRaw = true) :
    m.keyPredicate key = .ok (m.keyFact rawAlias key) := by
  simp [keyPredicate, hraw, keyFact]

theorem Model.keyPredicate_of_tables {m : Model} {key : Cell} {p : Fragment}
    (hraw : m.isRaw = false) (h : m.keyPredicate key = .ok p) :
    ∃ main, m.mainTable = .ok main ∧ p = m.keyFact main.name key := by
  cases hmain : m.mainTable with
  | error fault =>
    rw [keyPredicate, hraw, hmain] at h
    cases h
  | ok main =>
    rw [keyPredicate, hraw, hmain] at h
    exact ⟨main, rfl, (Except.ok.inj h).symm⟩

/-! ### Reading a row -/

namespace Rows

theorem ok_of_keyQuery {m : Model} {key : Cell} {q : Select} (h : keyQuery m key = .ok q) :
    ∃ q' p, m.select [] = .ok q' ∧ m.keyPredicate key = .ok p ∧
      q = { q'.require p with window := none } := by
  unfold keyQuery at h
  cases hselect : m.select [] with
  | error fault =>
    rw [hselect] at h
    cases h
  | ok q' =>
    cases hkey : m.keyPredicate key with
    | error fault =>
      rw [hselect, hkey] at h
      cases h
    | ok p =>
      rw [hselect, hkey] at h
      exact ⟨q', p, rfl, rfl, (Except.ok.inj h).symm⟩

/-- **A row that is read by its key has that key and passes the chain.**  The WHERE clause of the
    only statement that reads it is true just when the chain of the model is true and the key
    column equals the key; of a model written by hand, just when the latter holds of the derived
    table.  No page is cut out of the rows. -/
theorem get_reads_row {model : String} {key : Cell} {s : Session} {x : Sent}
    (h : (get? model key).Sends s x) :
    ∃ m t q, (Metadata.model model).exec s = (.ok m, t) ∧ keyQuery m key = .ok q ∧
      x = (m.connection, q.statement.text, q.statement.args) ∧
      q.statement = (q.writeBody (.start q.dialect)).put
        (Select.listClause " ORDER BY " q.orders) ∧
      (m.isRaw = true → q.source = m.rawSource [] ∧
        q.WhereReads [m.keyFact rawAlias key] [.fact 0]) ∧
      (m.isRaw = false → NestedChain m.conditions → ∃ main, m.mainTable = .ok main ∧
        q.WhereReads (m.conditions.map (m.predicate []) ++ [m.keyFact main.name key])
          (requiredWords m.conditions) ∧
        ∀ v, ∃ b, truth? v (chainWords m.conditions) = some b ∧
          truth? v (requiredWords m.conditions) = some (b && v m.conditions.length)) := by
  obtain ⟨m, t, q, hm, hq, hx⟩ := sent_of_get? h
  obtain ⟨q', p, hselect, hkey, rfl⟩ := ok_of_keyQuery hq
  obtain ⟨hcompiled, -⟩ := Model.select_eq_ok_iff.1 hselect
  refine ⟨m, t, _, hm, hq, hx, ?_, fun hraw => ?_, fun hraw hchain => ?_⟩
  · simp [Select.statement, Select.tail, Select.windowText]
  -- a raw text is wrapped: the key is the only condition of the query around it
  · obtain ⟨window, -, hquery⟩ := Model.eq_of_compile_raw hraw hcompiled
    have hp : m.keyFact rawAlias key = p :=
      Except.ok.inj ((Model.keyPredicate_of_raw hraw).symm.trans hkey)
    have hsome : p.isEmpty = false := by
      rw [← hp]
      exact Fragment.isEmpty_putArg _ _
    rw [hp, hquery]
    refine ⟨Select.source_require _ p, ?_⟩
    exact Select.whereReads_alone hsome rfl rfl
  -- a chain is put in brackets, and the key stands behind it
  · obtain ⟨-, hfilter, hrequired⟩ := Model.clauses_of_compile hraw hcompiled
    obtain ⟨main, hmain, hp⟩ := Model.keyPredicate_of_tables hraw hkey
    have hsome : p.isEmpty = false := by
      rw [hp]
      exact Fragment.isEmpty_putArg _ _
    refine ⟨main, hmain, ?_, truth?_requiredWords hchain⟩
    rw [← hp]
    exact Select.whereReads_require hsome hfilter hrequired hchain.toPlainChain

/-- The query for the ticket with a key. -/
def ticketKeyQuery (key : String) : Select :=
  { (ticketQuery tickets.conditions).require (tickets.keyFact "tickets" (.text key)) with
    window := none }

theorem ticket_sends : (get? "ticket" (.text "7")).Sends tickets.session
    ("main", (ticketKeyQuery "7").statement.text, (ticketKeyQuery "7").statement.args) := by
  have hkey : keyQuery tickets (.text "7") = .ok (ticketKeyQuery "7") :=
    keyQuery_of_compile (compile_ticketsWith tickets.conditions) (by decide) rfl
  have hload : (Metadata.model "ticket").exec tickets.session = (.ok tickets, tickets.session) :=
    rfl
  have hopen : tickets.session.opened.contains tickets.connection = true := rfl
  have hreply : tickets.session.answers.next.1 = .rows [] 0 := rfl
  have hrun := exec_get? hload hopen hkey hreply
  exact ⟨_, by rw [hrun], _, List.mem_singleton_self _, rfl⟩

theorem ticket_read_by_key :
    (ticketKeyQuery "7").statement.text =
      "SELECT * FROM `tickets` WHERE (`owner` = ? OR `state` = ?) AND `tickets`.`id` = ?" ∧
    ∀ v, ∃ b, truth? v (chainWords tickets.conditions) = some b ∧
      truth? v (requiredWords tickets.conditions) = some (b && v 2) := by
  obtain ⟨m, t, q, hm, -, -, -, -, htables⟩ := get_reads_row ticket_sends
  obtain ⟨hm, -⟩ := Prod.mk.inj hm
  obtain rfl : tickets = m := Except.ok.inj hm
  obtain ⟨main, -, -, htruth⟩ := htables rfl tickets_nested
  exact ⟨by decide +kernel, htruth⟩

end Rows

end MetaQuery
