/-
  MetaQuery/Proofs/Service/Checked.lean
  =====================================
  What the check of a query says about the statements that are sent.

  Every query is checked when it is compiled, in its form as the query for rows.  Listing sends that
  form as it is, but it also sends the query for the number of rows, and reading a row sends the
  query with a predicate added and the page taken out; these two are not checked again.  For a model
  written by hand they pass all the same, since its text already stands in parentheses.  For a model
  of tables they pass where the texts of its entries are pieces of a statement
  (`selects_checked`), and a join whose text ends with a semicolon shows that they need not
  (`joined_tickets_unchecked`).
-/
import MetaQuery.Proofs.Chain.Key
import MetaQuery.Proofs.Query.Frames

namespace MetaQuery

open Raw Text

/-! ### The text of a key predicate -/

theorem Model.parts_keyFact (m : Model) (table : String) (key : Cell) :
    (m.keyFact table key).parts =
      [.text (m.dialect.column table m.key ++ " = "), .arg (coerceTo (m.field? m.key) key)] := by
  have hne : m.dialect.column table m.key ++ " = " ≠ "" := fun h =>
    absurd (String.append_eq_empty_iff.1 h).2 (by decide)
  rw [keyFact, Fragment.putArg, Fragment.ofText, Fragment.putText, if_neg hne]
  rfl

theorem Model.exists_keyFact {m : Model} {key : Cell} {p : Fragment}
    (h : m.keyPredicate key = .ok p) : ∃ table, p = m.keyFact table key := by
  cases hraw : m.isRaw with
  | true => exact ⟨rawAlias, Except.ok.inj (h.symm.trans (keyPredicate_of_raw hraw))⟩
  | false =>
    obtain ⟨main, -, hp⟩ := keyPredicate_of_tables hraw h
    exact ⟨main.name, hp⟩

theorem Model.unrequired_of_compile {m : Model} {params : Params} {q : Select}
    (h : m.compile params = .ok q) : q.dialect = m.dialect ∧ q.required = [] := by
  cases hraw : m.isRaw with
  | true =>
    obtain ⟨window, -, rfl⟩ := eq_of_compile_raw hraw h
    exact ⟨rfl, rfl⟩
  | false =>
    obtain ⟨hdialect, -, hrequired⟩ := clauses_of_compile hraw h
    exact ⟨hdialect, hrequired⟩

/-- The predicate of a key may be put anywhere into a text, whatever the columns are called. -/
theorem Model.exists_inert_keyFact (m : Model) (table : String) (key : Cell) :
    ∃ x, bare? (Part.render m.dialect 0 (m.keyFact table key).parts).toList = some x ∧ Inert x := by
  have hslot : ∃ slot ∈ [" = NULL", " = $1", " = ?"],
      Part.render m.dialect 0 (m.keyFact table key).parts =
        m.dialect.column table m.key ++ slot := by
    rw [parts_keyFact, Part.render, Part.render, String.append_assoc]
    -- a key that is NULL has no placeholder
    split
    · exact ⟨" = NULL", by decide, rfl⟩
    · cases m.dialect with
      | postgres => exact ⟨" = $1", by decide, rfl⟩
      | mysql => exact ⟨" = ?", by decide, rfl⟩
      | ansi => exact ⟨" = ?", by decide, rfl⟩
  obtain ⟨slot, hslot, htext⟩ := hslot
  have hunquoted : ∀ slot ∈ [" = NULL", " = $1", " = ?"], Unquoted slot.toList := by decide
  have hinert : ∀ slot ∈ [" = NULL", " = $1", " = ?"], ∀ w ∈ [" ".toList, " . ".toList],
      Tame (w ++ slot.toList) ∧ ParenBalanced (w ++ slot.toList) ∧ ';' ∉ w ++ slot.toList ∧
        ¬ AllBlank (w ++ slot.toList) := by
    decide
  have hread := bare?_column_append m.dialect table m.key
    (hunquoted slot hslot).startsPlain (bare?_unquoted (hunquoted slot hslot))
  have hcolumn : columnReading table ∈ [" ".toList, " . ".toList] := by
    unfold columnReading
    split <;> simp
  obtain ⟨hwords, hparens, hsemicolon, hvisible⟩ := hinert slot hslot _ hcolumn
  rw [htext, String.toList_append]
  exact ⟨_, hread, hwords, hparens, hsemicolon, hvisible⟩

/-! ### The text of a model written by hand -/

/-- A query without clauses is its source with a page behind it. -/
theorem Select.texts_all {q : Select} {d : Dialect} {source : Fragment} {w : Option Window}
    (hq : q = { Select.all d source with window := w }) :
    q.headText = "SELECT * FROM " ++ Part.render d 0 source.parts ∧
      q.bodyText = q.headText ∧ q.statement.text = q.headText ++ windowText q.window ∧
      q.filterText = "" := by
  -- no projection, no join and no WHERE: the head is the source, and the rest is empty
  have hparts : q.headParts =
      .text "SELECT *" :: .text " FROM " :: (source.parts ++ [.text ""]) := by
    rw [hq]
    rfl
  have hdialect : q.dialect = d := by rw [hq]; rfl
  have hempty : ∀ n, Part.render d n [.text ""] = "" := fun _ => rfl
  have hhead : q.headText = "SELECT * FROM " ++ Part.render d 0 source.parts := by
    have hfront : "SELECT *" ++ " FROM " = "SELECT * FROM " := rfl
    rw [headText, hparts, hdialect, Part.render, Part.render, Part.render_append, hempty,
      String.append_empty, ← String.append_assoc, hfront]
  have hbody : q.bodyText = q.headText := by
    have hrest : q.whereParts ++ q.restParts = [.text ""] := by rw [hq]; rfl
    rw [bodyText, bodyParts_eq, hrest, Part.render_append, hdialect, hempty, String.append_empty,
      headText, hdialect]
  have htail : q.tail = windowText q.window := by
    rw [hq]
    exact String.empty_append
  refine ⟨hhead, hbody, ?_, by rw [hq]; rfl⟩
  rw [statement_eq, htail, ← hbody]
  rfl

/-- The query of a text written by hand is a derived table with a page behind it. -/
theorem Model.texts_of_compile_raw {m : Model} {params : Params} {q : Select}
    (hraw : m.isRaw = true) (h : m.compile params = .ok q) :
    ∃ front, q.headText = front ++ (") AS " ++ rawAlias) ∧ q.bodyText = q.headText ∧
      q.statement.text = q.headText ++ Select.windowText q.window ∧ q.filterText = "" := by
  obtain ⟨window, -, hq⟩ := eq_of_compile_raw hraw h
  obtain ⟨hhead, htexts⟩ := Select.texts_all hq
  rw [rawSource, Fragment.render_putText, ← String.append_assoc] at hhead
  exact ⟨_, hhead, htexts⟩

/-- What a text written by hand is sent in can stand in parentheses. -/
theorem Model.isEnclosable_of_raw {m : Model} {params : Params} {q : Select}
    (hraw : m.isRaw = true) (h : m.select params = .ok q) :
    IsEnclosable q.bodyText ∧ IsPiece q.headText ∧ IsPiece q.filterText := by
  obtain ⟨hcompiled, hsafe⟩ := select_eq_ok_iff.1 h
  obtain ⟨front, hhead, hbody, hstatement, hfilter⟩ := texts_of_compile_raw hraw hcompiled
  rw [hstatement, hhead] at hsafe
  have henclosable := Select.isEnclosable_of_checked hsafe (by decide) (by decide) (by decide)
  rw [← hhead] at henclosable
  obtain ⟨x, hx, hnone, hbalanced⟩ := henclosable
  rw [hbody, hfilter]
  exact ⟨⟨x, hx, hnone, hbalanced⟩, ⟨x, hx, hnone⟩, [], rfl, nofun⟩

/-! ### Statements that are sent -/

/-- The text of a statement has no hazard. -/
def Sent.Safe (x : Sent) : Prop := checkSafe x.2.1 = .ok ()

namespace Rows

theorem select_of_listQuery {settings : Settings} {r : ListRequest} {m : Model} {q : Select}
    (h : listQuery settings r m = .ok q) :
    ∃ (m' : Model) (params : Params), m'.isRaw = m.isRaw ∧ m'.select params = .ok q := by
  cases hrestrict : r.restrict m with
  | error e =>
    rw [listQuery, hrestrict] at h
    cases h
  | ok m' =>
    rw [listQuery_of_restrict hrestrict] at h
    obtain ⟨added, -, rfl⟩ := ListRequest.restrict_ok hrestrict
    refine ⟨_, _, ?_, h⟩
    rfl

/-- The statements of a request that lists or counts rows. -/
theorem safe_of_prepare {model : String} {r : ListRequest} {s t : Session} {m : Model} {q : Select}
    (h : (prepare model r).exec s = (.ok (m, q), t)) :
    checkSafe q.statement.text = .ok () ∧
      (m.isRaw = true → checkSafe q.countStatement.text = .ok ()) ∧
      (checkSafe q.countStatement.text = .ok () ↔ IsEnclosable q.bodyText) := by
  obtain ⟨base, u, -, -, hquery⟩ := ok_of_prepare h
  obtain ⟨m', params, hraw, hselect⟩ := select_of_listQuery hquery
  have hsafe := (Model.select_eq_ok_iff.1 hselect).2
  have hcount := Select.checkSafe_countStatement hsafe
  refine ⟨hsafe, fun hm => hcount.2 ?_, hcount⟩
  exact (Model.isEnclosable_of_raw (hraw.trans hm) hselect).1

/-- The statement that reads a row. -/
theorem safe_of_keyQuery {m : Model} {key : Cell} {q' : Select} (h : keyQuery m key = .ok q') :
    ∃ q, m.select [] = .ok q ∧ (m.isRaw = true → checkSafe q'.statement.text = .ok ()) ∧
      (Closed q.headText → Closed q.filterText →
        (checkSafe q'.statement.text = .ok () ↔ IsPiece q.headText ∧ IsPiece q.filterText)) := by
  obtain ⟨q, p, hselect, hkey, rfl⟩ := ok_of_keyQuery h
  obtain ⟨hcompiled, hsafe⟩ := Model.select_eq_ok_iff.1 hselect
  obtain ⟨hdialect, hrequired⟩ := Model.unrequired_of_compile hcompiled
  obtain ⟨table, hp⟩ := Model.exists_keyFact hkey
  obtain ⟨x, hread, hinert⟩ := m.exists_inert_keyFact table key
  have hsome : p.isEmpty = false := by
    rw [hp]
    exact Fragment.isEmpty_putArg _ _
  rw [← hp, ← hdialect] at hread
  -- the key fact is inert: it opens no span and holds neither a semicolon nor a keyword
  have hkeyed := Select.checkSafe_keyed hrequired hsome hread hinert hsafe
  refine ⟨q, hselect, fun hraw => ?_, hkeyed⟩
  obtain ⟨-, hhead, hfilter⟩ := Model.isEnclosable_of_raw hraw hselect
  exact (hkeyed hhead.closed hfilter.closed).2 ⟨hhead, hfilter⟩

/-- **A query is checked in the form that lists its rows, and this decides what is known of the
    other forms.**  The statement for the rows of a list has no hazard.  The statement for their
    number has none just when the body of the query can stand in parentheses.  Where the texts in
    front of and behind WHERE close their spans, the statement for the row with a key has none just
    when no semicolon stands in these texts.  Models written by hand have no hazard in any form. -/
theorem selects_checked (s : Session) (x : Sent) :
    (∀ model r, (list model r).Sends s x → ∃ m q t, (prepare model r).exec s = (.ok (m, q), t) ∧
      (x = (m.connection, q.statement.text, q.statement.args) ∧ x.Safe ∨
        x = (m.connection, q.countStatement.text, q.countStatement.args) ∧
          (m.isRaw = true → x.Safe) ∧ (x.Safe ↔ IsEnclosable q.bodyText))) ∧
    (∀ model r, (count model r).Sends s x → ∃ m q t, (prepare model r).exec s = (.ok (m, q), t) ∧
      x = (m.connection, q.countStatement.text, q.countStatement.args) ∧
        (m.isRaw = true → x.Safe) ∧ (x.Safe ↔ IsEnclosable q.bodyText)) ∧
    (∀ model key, (get? model key).Sends s x → ∃ m q t, (Metadata.model model).exec s = (.ok m, t) ∧
      m.select [] = .ok q ∧ (m.isRaw = true → x.Safe) ∧
        (Closed q.headText → Closed q.filterText →
          (x.Safe ↔ IsPiece q.headText ∧ IsPiece q.filterText))) := by
  -- a listing, a count, a lookup by key
  refine ⟨fun model r hsent => ?_, fun model r hsent => ?_, fun model key hsent => ?_⟩
  · obtain ⟨m, q, t, hprepared, hx⟩ := sent_of_list hsent
    obtain ⟨hrows, hraw, hcount⟩ := safe_of_prepare hprepared
    refine ⟨m, q, t, hprepared, ?_⟩
    rcases hx with rfl | rfl
    · exact .inr ⟨rfl, hraw, hcount⟩
    · exact .inl ⟨rfl, hrows⟩
  · obtain ⟨m, q, t, hprepared, rfl⟩ := sent_of_count hsent
    obtain ⟨-, hraw, hcount⟩ := safe_of_prepare hprepared
    exact ⟨m, q, t, hprepared, rfl, hraw, hcount⟩
  · obtain ⟨m, t, q', hm, hq', rfl⟩ := sent_of_get? hsent
    obtain ⟨q, hselect, hraw, hpieces⟩ := safe_of_keyQuery hq'
    exact ⟨m, q, t, hm, hselect, hraw, hpieces⟩

theorem ticket_safe :
    Sent.Safe ("main", (ticketKeyQuery "7").statement.text, (ticketKeyQuery "7").statement.args) := by
  obtain ⟨m, q, t, hm, hselect, -, hsafe⟩ :=
    (selects_checked tickets.session _).2.2 "ticket" (.text "7") ticket_sends
  obtain rfl : tickets = m := Except.ok.inj (Prod.mk.inj hm).1
  have hq : tickets.select [] = .ok (ticketQuery tickets.conditions) :=
    Model.select_eq_ok_iff.2 ⟨compile_ticketsWith tickets.conditions, by decide +kernel⟩
  obtain rfl : ticketQuery tickets.conditions = q := Except.ok.inj (hq.symm.trans hselect)
  have hhead : IsPiece (ticketQuery tickets.conditions).headText :=
    ⟨"SELECT * FROM  ".toList, by decide +kernel, by decide⟩
  have hfilter : IsPiece (ticketQuery tickets.conditions).filterText :=
    ⟨"  = ? OR   = ?".toList, by decide +kernel, by decide⟩
  exact (hsafe hhead.closed hfilter.closed).2 ⟨hhead, hfilter⟩

/-! ### A join that ends with a semicolon -/

/-- Tickets joined with their owners by a text that ends with a semicolon. -/
def joinedTickets : Model where
  entry := { id := "ticket", code := "ticket", connection := "main" }
  tables := [{ id := "t", model := "ticket", name := "tickets" }]
  fields := []
  dialect := .mysql
  joins := [{
    id := "j", model := "ticket", joinedTable := "users", on := "users.id = tickets.owner;" }]

def joinedQuery : Select :=
  { Select.all .mysql (.ofText "`tickets`") with
    joins := ["JOIN `users` ON users.id = tickets.owner;"] }

theorem compile_joinedTickets : joinedTickets.compile [] = .ok joinedQuery := by
  have hjoins : (orderedJoins joinedTickets.joins).map (·.render joinedTickets.dialect) =
      joinedQuery.joins := by
    have hordered : orderedJoins joinedTickets.joins = joinedTickets.joins := by
      simp [orderedJoins, joinedTickets, joinsUnder, joinsWithout, JoinEntry.parentId, walkJoins]
    rw [hordered]
    decide
  change joinedTickets.compileEntries [] = _
  rw [Model.compileEntries_eq, hjoins]
  rfl

/-- The statement for one of these tickets. -/
def joinedText : String :=
  "SELECT * FROM `tickets` JOIN `users` ON users.id = tickets.owner; WHERE `tickets`.`id` = ?"

/-- The model passes the check, and then reading a ticket sends a statement that would not. -/
theorem joined_tickets_unchecked :
    joinedTickets.select [] = .ok joinedQuery ∧
    (get? "ticket" (.text "7")).Sends joinedTickets.session ("main", joinedText, [.text "7"]) ∧
    checkSafe joinedText = .error (.hazard .severalStatements) := by
  -- the text that is checked ends in the semicolon, and the key fact puts a WHERE behind it
  have hsafe : checkSafe joinedQuery.statement.text = .ok () := by decide +kernel
  have hkey : keyQuery joinedTickets (.text "7") =
      .ok (joinedQuery.keyed (joinedTickets.keyFact "tickets" (.text "7"))) :=
    keyQuery_of_compile compile_joinedTickets hsafe rfl
  have hload : (Metadata.model "ticket").exec joinedTickets.session =
      (.ok joinedTickets, joinedTickets.session) := rfl
  have hopen : joinedTickets.session.opened.contains joinedTickets.connection = true := rfl
  have hreply : joinedTickets.session.answers.next.1 = .rows [] 0 := rfl
  have hstatement : (joinedQuery.keyed (joinedTickets.keyFact "tickets" (.text "7"))).statement =
      ⟨.mysql, joinedText, [.text "7"]⟩ := by
    decide +kernel
  have hrun := exec_get? hload hopen hkey hreply
  rw [hstatement] at hrun
  have hsent : (get? "ticket" (.text "7")).Sends joinedTickets.session
      ("main", joinedText, [.text "7"]) :=
    ⟨_, by rw [hrun], _, List.mem_singleton_self _, rfl⟩
  exact ⟨Model.select_eq_ok_iff.2 ⟨compile_joinedTickets, hsafe⟩, hsent, by decide +kernel⟩

end Rows

end MetaQuery
