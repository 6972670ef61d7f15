/-
  MetaQuery/Query/Statement.lean
  ==============================
  Statements: SQL text with positional arguments.

  Arguments are numbered as they are bound.  NULL is written as a word and takes no number: a
  bound NULL carries a type on some datasources, and a textual NULL is refused by columns that
  are not textual.  So no argument of a statement is ever NULL.
-/
import MetaQuery.Cell
import MetaQuery.Dialect

namespace MetaQuery

/-- SQL text and its arguments, in the order of their placeholders. -/
structure Statement where
  dialect : Dialect
  text : String
  args : List Cell
deriving DecidableEq, Repr, Inhabited

namespace Statement

def start (d : Dialect) : Statement := ⟨d, "", []⟩

def put (st : Statement) (s : String) : Statement := { st with text := st.text ++ s }

/-- One more argument, whatever it is; with its number, counted from one. -/
def push (st : Statement) (v : Cell) : Nat × Statement :=
  (st.args.length + 1, { st with args := st.args ++ [v] })

/-- One more argument with the text that stands for it. -/
def bind (st : Statement) (v : Cell) : String × Statement :=
  if v.isNull then ("NULL", st)
  else
    let (n, st) := st.push v
    (st.dialect.placeholder n, st)

/-- One more argument, written where the text ends. -/
def putArg (st : Statement) (v : Cell) : Statement :=
  let (slot, st) := st.bind v
  st.put slot

/-- Several arguments bound one after the other, with the texts that stand for them. -/
def bindAll (st : Statement) : List Cell → List String × Statement
  | [] => ([], st)
  | v :: r =>
    let (slot, st) := st.bind v
    let (slots, st) := st.bindAll r
    (slot :: slots, st)

@[simp] theorem dialect_put (st : Statement) (s : String) : (st.put s).dialect = st.dialect := rfl

@[simp] theorem args_put (st : Statement) (s : String) : (st.put s).args = st.args := rfl

@[simp] theorem text_put (st : Statement) (s : String) : (st.put s).text = st.text ++ s := rfl

/-- An argument other than NULL is appended and takes the next number. -/
theorem bind_of_not_null {v : Cell} (h : v.isNull = false) (st : Statement) :
    st.bind v =
      (st.dialect.placeholder (st.args.length + 1), { st with args := st.args ++ [v] }) := by
  simp [bind, push, h]

/-- Binding appends the argument unless it is NULL. -/
theorem args_bind (st : Statement) (v : Cell) :
    (st.bind v).2.args = st.args ++ [v].filter (!·.isNull) := by
  cases h : v.isNull <;> simp [bind, push, h]

end Statement

end MetaQuery
