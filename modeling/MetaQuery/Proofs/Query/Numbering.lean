/-
  MetaQuery/Proofs/Query/Numbering.lean
  =====================================
  Arguments are numbered where they are written.

  A SELECT is written by threading a statement through its clauses, so nothing in the code says
  directly which number an argument gets.  Here the body of a SELECT is laid out as one list of
  parts (`Select.bodyParts`), and the text of such a list is given by a rule of its own
  (`Part.render`): the k-th argument that is not NULL is the k-th placeholder, and NULL is a word.

  Main statement: the query for rows and the query for their number are that one text, with the
  order and the page behind it or with the count around it, and they carry the same arguments in
  the order of the clauses.
-/
import MetaQuery.Query.Select

namespace MetaQuery

/-! ### Lists of parts -/

namespace Part

/-- The argument of a part. -/
def arg? : Part → Option Cell
  | .arg v => some v
  | .text _ => none

/-- The arguments of some parts in order. -/
def args (parts : List Part) : List Cell := parts.filterMap arg?

/-- The arguments that take a number: all but the NULL ones. -/
def numbered (parts : List Part) : List Cell := (args parts).filter (!·.isNull)

/-- The text of some parts behind `n` numbered arguments. -/
def render (d : Dialect) : Nat → List Part → String
  | _, [] => ""
  | n, .text s :: r => s ++ render d n r
  | n, .arg v :: r =>
    if v.isNull then "NULL" ++ render d n r else d.placeholder (n + 1) ++ render d (n + 1) r

@[simp] theorem args_nil : args [] = [] := rfl

@[simp] theorem args_text (s : String) (r : List Part) : args (.text s :: r) = args r := rfl

@[simp] theorem args_arg (v : Cell) (r : List Part) : args (.arg v :: r) = v :: args r := rfl

@[simp] theorem args_append (p r : List Part) : args (p ++ r) = args p ++ args r := by
  simp [args]

end Part

@[simp] theorem Fragment.args_parts (f : Fragment) : Part.args f.parts = f.args := rfl

@[simp] theorem Fragment.args_empty : empty.args = [] := rfl

@[simp] theorem Fragment.args_ofText (s : String) : (ofText s).args = [] := by
  unfold ofText putText
  split <;> rfl

@[simp] theorem Fragment.args_putArg (f : Fragment) (v : Cell) :
    (f.putArg v).args = f.args ++ [v] := by
  simp [args, putArg]

/-! ### Writing parts -/

/-- An argument is written as the next placeholder, or as a word when it is NULL. -/
theorem Statement.putArg_eq (st : Statement) (v : Cell) :
    st.putArg v = ⟨st.dialect,
      st.text ++ (if v.isNull then "NULL" else st.dialect.placeholder (st.args.length + 1)),
      st.args ++ [v].filter (!·.isNull)⟩ := by
  cases h : v.isNull <;> simp [putArg, bind, push, put, h]

/-- Parts are written behind a statement by the rule of `Part.render`, whose numbers go on from
    the arguments that are there. -/
theorem foldl_writePart (parts : List Part) (st : Statement) :
    parts.foldl Fragment.writePart st =
      ⟨st.dialect, st.text ++ Part.render st.dialect st.args.length parts,
        st.args ++ Part.numbered parts⟩ := by
  induction parts generalizing st with
  | nil => simp [Part.render, Part.numbered]
  | cons p r ih =>
    rw [List.foldl_cons, ih]
    cases p with
    | text s =>
      simp only [Fragment.writePart, Statement.dialect_put, Statement.text_put,
        Statement.args_put, Part.render, Part.numbered, Part.args_text, String.append_assoc]
    | arg v =>
      -- a NULL is written out and takes no number
      rw [Fragment.writePart, Statement.putArg_eq]
      cases h : v.isNull with
      | true => simp [Part.render, Part.numbered, h, String.append_assoc]
      | false => simp [Part.render, Part.numbered, h, String.append_assoc]

theorem Fragment.write_eq_foldl (f : Fragment) (st : Statement) :
    f.write st = f.parts.foldl Fragment.writePart st := rfl

theorem foldl_writePart_addText (s : String) (parts : List Part) (st : Statement) :
    (Fragment.addText s parts).foldl Fragment.writePart st =
      (parts.foldl Fragment.writePart st).put s := by
  fun_induction Fragment.addText s parts generalizing st with
  | case1 => rfl
  | case2 t => simp [Fragment.writePart, Statement.put, String.append_assoc]
  | case3 p r hr ih => exact ih (Fragment.writePart st p)

theorem Fragment.write_putText (f : Fragment) (s : String) (st : Statement) :
    (f.putText s).write st = (f.write st).put s := by
  unfold putText
  split
  · next hs => simp [hs, Statement.put]
  · exact foldl_writePart_addText s f.parts st

theorem Fragment.write_putArg (f : Fragment) (v : Cell) (st : Statement) :
    (f.putArg v).write st = (f.write st).putArg v := by
  simp [write, putArg, List.foldl_append, writePart]

theorem Fragment.write_putPart (f : Fragment) (p : Part) (st : Statement) :
    (f.putPart p).write st = writePart (f.write st) p := by
  cases p with
  | text s => exact f.write_putText s st
  | arg v => exact f.write_putArg v st

/-- Fragments put together are written one behind the other. -/
theorem Fragment.write_append (f g : Fragment) (st : Statement) :
    (f.append g).write st = g.write (f.write st) := by
  have hparts : ∀ (parts : List Part) (f : Fragment),
      (parts.foldl putPart f).write st = parts.foldl writePart (f.write st) := by
    intro parts
    induction parts with
    | nil => exact fun f => rfl
    | cons p r ih =>
      intro f
      rw [List.foldl_cons, ih, write_putPart, List.foldl_cons]
  exact hparts g.parts f

theorem Statement.put_eq_writePart (st : Statement) (s : String) :
    st.put s = [Part.text s].foldl Fragment.writePart st := rfl

/-! ### The body of a SELECT -/

namespace Select

/-- The parts of the required predicates. -/
def requiredParts : List Fragment → List Part
  | [] => []
  | [p] => p.parts
  | p :: r => p.parts ++ .text " AND " :: requiredParts r

/-- The parts of the group of predicates in front of the required ones. -/
def groupParts (q : Select) : List Part :=
  if q.filter.isEmpty then [] else .text "(" :: (q.filter.parts ++ [.text ") AND "])

/-- The parts of the WHERE clause. -/
def whereParts (q : Select) : List Part :=
  if q.required.isEmpty then
    if q.filter.isEmpty then [] else .text " WHERE " :: q.filter.parts
  else .text " WHERE " :: (q.groupParts ++ requiredParts q.required)

/-- The parts of the HAVING clause. -/
def havingParts (q : Select) : List Part :=
  if q.having.isEmpty then [] else .text " HAVING " :: q.having.parts

/-- Everything before the order and the page, as parts. -/
def bodyParts (q : Select) : List Part :=
  .text ("SELECT " ++ q.projection) :: .text " FROM " ::
    (q.source.parts ++ .text (String.join (q.joins.map (" " ++ ·))) ::
      (q.whereParts ++ .text (listClause " GROUP BY " q.groups) :: q.havingParts))

/-- The arguments of a SELECT, clause by clause. -/
def arguments (q : Select) : List Cell :=
  q.source.args ++ (q.filter.args ++ q.required.flatMap (·.args)) ++ q.having.args

theorem writeRequired_eq_foldl (ps : List Fragment) (st : Statement) :
    writeRequired st ps = (requiredParts ps).foldl Fragment.writePart st := by
  fun_induction requiredParts ps generalizing st with
  | case1 => rfl
  | case2 p => rfl
  | case3 p r hr ih =>
    rw [writeRequired, ih, Fragment.write_eq_foldl, Statement.put_eq_writePart,
      ← List.foldl_append, ← List.foldl_append]
    · rfl
    · exact hr

theorem writeWhere_eq_foldl (q : Select) (st : Statement) :
    q.writeWhere st = q.whereParts.foldl Fragment.writePart st := by
  by_cases hrequired : q.required.isEmpty
  · by_cases hfilter : q.filter.isEmpty
    · simp [writeWhere, whereParts, hrequired, hfilter]
    · simp [writeWhere, whereParts, hrequired, hfilter, Fragment.write_eq_foldl,
        Fragment.writePart]
  · by_cases hfilter : q.filter.isEmpty
    · simp [writeWhere, whereParts, groupParts, hrequired, hfilter, writeRequired_eq_foldl,
        Fragment.writePart]
    · simp [writeWhere, whereParts, groupParts, hrequired, hfilter, writeRequired_eq_foldl,
        Fragment.write_eq_foldl, Fragment.writePart]

theorem writeBody_eq_foldl (q : Select) (st : Statement) :
    q.writeBody st = q.bodyParts.foldl Fragment.writePart st := by
  by_cases hhaving : q.having.isEmpty
  · simp [writeBody, bodyParts, havingParts, hhaving, writeWhere_eq_foldl,
      Fragment.write_eq_foldl, Fragment.writePart]
  · simp [writeBody, bodyParts, havingParts, hhaving, writeWhere_eq_foldl,
      Fragment.write_eq_foldl, Fragment.writePart]

theorem args_requiredParts (ps : List Fragment) :
    Part.args (requiredParts ps) = ps.flatMap (·.args) := by
  fun_induction requiredParts ps with
  | case1 => rfl
  | case2 p => simp
  | case3 p r hr ih => simp [ih]

theorem args_of_isEmpty {f : Fragment} (h : f.isEmpty = true) : f.args = [] := by
  have hparts : f.parts = [] := by simpa [Fragment.isEmpty] using h
  simp [Fragment.args, hparts]

theorem args_whereParts (q : Select) :
    Part.args q.whereParts = q.filter.args ++ q.required.flatMap (·.args) := by
  by_cases hfilter : q.filter.isEmpty
  · by_cases hrequired : q.required.isEmpty
    · have hnone : q.required = [] := by simpa using hrequired
      simp [whereParts, hfilter, hnone, args_of_isEmpty hfilter]
    · simp [whereParts, groupParts, hfilter, hrequired, args_of_isEmpty hfilter,
        args_requiredParts]
  · by_cases hrequired : q.required.isEmpty
    · have hnone : q.required = [] := by simpa using hrequired
      simp [whereParts, hfilter, hnone]
    · simp [whereParts, groupParts, hfilter, hrequired, args_requiredParts]

theorem args_bodyParts (q : Select) : Part.args q.bodyParts = q.arguments := by
  by_cases hhaving : q.having.isEmpty
  · simp [bodyParts, havingParts, hhaving, arguments, args_whereParts, args_of_isEmpty hhaving]
  · simp [bodyParts, havingParts, hhaving, arguments, args_whereParts]

/-- The body written behind a statement that has no arguments yet. -/
theorem writeBody_eq (q : Select) (st : Statement) (hargs : st.args = []) :
    q.writeBody st = ⟨st.dialect, st.text ++ Part.render st.dialect 0 q.bodyParts,
      q.arguments.filter (!·.isNull)⟩ := by
  rw [writeBody_eq_foldl, foldl_writePart, Part.numbered, args_bodyParts, hargs]
  rfl

/-! ### The two queries -/

theorem statement_eq (q : Select) :
    q.statement = ⟨q.dialect, Part.render q.dialect 0 q.bodyParts ++ q.tail,
      q.arguments.filter (!·.isNull)⟩ := by
  rw [statement, writeBody_eq q _ rfl]
  simp [Statement.start, Statement.put]

theorem countStatement_eq (q : Select) :
    q.countStatement = ⟨q.dialect,
      "SELECT COUNT(*) FROM (" ++ Part.render q.dialect 0 q.bodyParts ++ ") AS total_rows",
      q.arguments.filter (!·.isNull)⟩ := by
  rw [countStatement, writeBody_eq q _ rfl]
  simp [Statement.start, Statement.put]

/-- **Both queries are one body with one list of arguments.**  The body has the arguments of the
    source, the filter, the required predicates and HAVING in this order; the statements carry
    those that are not NULL, and only the order and the page follow the body. -/
theorem statements_share_body (q : Select) :
    Part.args q.bodyParts =
      q.source.args ++ (q.filter.args ++ q.required.flatMap (·.args)) ++ q.having.args ∧
    q.statement.args = (Part.args q.bodyParts).filter (!·.isNull) ∧
    q.countStatement.args = (Part.args q.bodyParts).filter (!·.isNull) ∧
    q.statement.text = Part.render q.dialect 0 q.bodyParts ++
      (listClause " ORDER BY " q.orders ++ windowText q.window) ∧
    q.countStatement.text =
      "SELECT COUNT(*) FROM (" ++ Part.render q.dialect 0 q.bodyParts ++ ") AS total_rows" := by
  rw [statement_eq, countStatement_eq, args_bodyParts]
  exact ⟨rfl, rfl, rfl, rfl, rfl⟩

end Select

end MetaQuery
