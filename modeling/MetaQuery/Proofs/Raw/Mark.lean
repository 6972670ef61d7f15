/-
  MetaQuery/Proofs/Raw/Mark.lean
  ==============================
  What a fragment puts into a text: lexemes, and arguments between them.

  An argument is written as a placeholder or as NULL, wherever its number comes from, so its text
  has no quote.  Marks therefore stay apart however they are numbered, as long as no closed span
  has its own quote behind it: the text of such marks is read as their lexemes again, with the
  characters of the placeholders for the arguments (`ReadsBack`).
-/
import MetaQuery.Proofs.Query.Items
import MetaQuery.Proofs.Raw.Lexeme

namespace MetaQuery.Raw

open Text

/-- A lexeme or an argument. -/
inductive Mark where
  | lexeme (l : Lexeme)
  | arg (v : Cell)
deriving DecidableEq, Repr

/-- Each character of a text for itself. -/
def charMarks (cs : List Char) : List Mark := cs.map fun c => .lexeme (.char c)

/-- What an argument is written as where it would get the number `n`. -/
def slotText (d : Dialect) (n : Nat) (v : Cell) : List Char :=
  if v.isNull then "NULL".toList else (d.placeholder n).toList

namespace Mark

/-- The mark in a fragment. -/
def items : Mark → List Item
  | .lexeme l => l.text.map .char
  | .arg v => [.arg v]

/-- The argument, if the mark is one. -/
def arg? : Mark → Option Cell
  | .lexeme _ => none
  | .arg v => some v

/-- The lexemes of some marks behind `n` numbered arguments. -/
def render (d : Dialect) : Nat → List Mark → List Lexeme
  | _, [] => []
  | n, .lexeme l :: r => l :: render d n r
  | n, .arg v :: r =>
    (slotText d (n + 1) v).map .char ++ render d (if v.isNull then n else n + 1) r

/-- The text of some marks behind `n` numbered arguments. -/
def text (d : Dialect) (n : Nat) (ms : List Mark) : List Char :=
  (render d n ms).flatMap Lexeme.text

/-- The character that some marks start with, if they do not start with an argument. -/
def head? : List Mark → Option Char
  | .lexeme l :: _ => l.text.head?
  | _ => none

end Mark

theorem flatMap_text_chars (cs : List Char) : (cs.map Lexeme.char).flatMap Lexeme.text = cs := by
  induction cs with
  | nil => rfl
  | cons c cs ih => exact congrArg (c :: ·) ih

theorem Mark.text_arg_cons (d : Dialect) (n : Nat) (v : Cell) (r : List Mark) :
    text d n (.arg v :: r) =
      slotText d (n + 1) v ++ text d (if v.isNull then n else n + 1) r := by
  rw [text, render, List.flatMap_append, flatMap_text_chars]
  rfl

/-- Marks are written as their items are. -/
theorem Mark.text_eq_render (d : Dialect) (n : Nat) (ms : List Mark) :
    text d n ms = Item.render d n (ms.flatMap items) := by
  induction ms generalizing n with
  | nil => rfl
  | cons m r ih =>
    cases m with
    | lexeme l =>
      have hrest : text d n (.lexeme l :: r) = l.text ++ text d n r := rfl
      rw [hrest, ih, List.flatMap_cons, items, Item.render_chars_append]
    | arg v =>
      rw [text_arg_cons, ih, List.flatMap_cons, items, List.singleton_append, Item.render, slotText]
      split <;> rfl

theorem render_charMarks_append (d : Dialect) (n : Nat) (cs : List Char) (r : List Mark) :
    Mark.render d n (charMarks cs ++ r) = cs.map .char ++ Mark.render d n r := by
  induction cs with
  | nil => rfl
  | cons c cs ih => exact congrArg (Lexeme.char c :: ·) ih

theorem flatMap_items_charMarks (cs : List Char) :
    (charMarks cs).flatMap Mark.items = cs.map .char := by
  induction cs with
  | nil => rfl
  | cons c cs ih => exact congrArg (Item.char c :: ·) ih

theorem filterMap_arg?_charMarks (cs : List Char) : (charMarks cs).filterMap Mark.arg? = [] := by
  induction cs with
  | nil => rfl
  | cons c cs ih => exact ih

/-- The arguments of a fragment are those of its marks. -/
theorem args_of_marks {f : Fragment} {ms : List Mark} (h : f.items = ms.flatMap Mark.items) :
    f.args = ms.filterMap Mark.arg? := by
  rw [f.args_eq_items, h]
  clear h
  induction ms with
  | nil => rfl
  | cons m ms ih =>
    rw [List.flatMap_cons, List.filterMap_append, ih]
    cases m with
    | lexeme l =>
      rw [Mark.items, Item.filterMap_arg?_chars]
      rfl
    | arg v => rfl

/-- The text of a fragment is that of its marks. -/
theorem toList_render_of_marks {f : Fragment} {ms : List Mark}
    (h : f.items = ms.flatMap Mark.items) (d : Dialect) (n : Nat) :
    (Part.render d n f.parts).toList = Mark.text d n ms := by
  rw [f.toList_render, h, Mark.text_eq_render]

/-! ### Placeholders -/

/-- The character can be part of a placeholder or of NULL. -/
def isSlotChar (c : Char) : Bool := c == '$' || c == '?' || c.isAlphanum

theorem isSlotChar_of_mem {d : Dialect} {n : Nat} {v : Cell} {c : Char}
    (h : c ∈ slotText d n v) : isSlotChar c = true := by
  have hnull : "NULL".toList.all isSlotChar = true := by decide
  have hmark : "?".toList.all isSlotChar = true := by decide
  rw [List.all_eq_true] at hnull hmark
  unfold slotText at h
  split at h
  · exact hnull c h
  · cases d with
    | mysql => exact hmark c h
    | ansi => exact hmark c h
    | postgres =>
      -- a numbered placeholder is a dollar sign and digits
      have hplaceholder : (Dialect.placeholder .postgres n).toList = '$' :: Nat.toDigits 10 n := by
        simp [Dialect.placeholder]
      rw [hplaceholder] at h
      rcases List.mem_cons.1 h with rfl | h
      · decide
      · have hdigit := Nat.isDigit_of_mem_toDigits (by decide) (by decide) h
        simp [isSlotChar, Char.isAlphanum, hdigit]

theorem isSlotChar_ne {c q : Char} (hc : isSlotChar c = true) (hq : isSlotChar q = false) :
    c ≠ q := by
  rintro rfl
  rw [hc] at hq
  cases hq

theorem unquoted_slotText (d : Dialect) (n : Nat) (v : Cell) : Unquoted (slotText d n v) := by
  intro c hc
  have hne := fun q => isSlotChar_ne (q := q) (isSlotChar_of_mem hc)
  simp [isQuote, hne '\'' (by decide), hne '"' (by decide), hne '\x60' (by decide)]

theorem notMem_slotText {c : Char} (hc : isSlotChar c = false) (d : Dialect) (n : Nat) (v : Cell) :
    c ∉ slotText d n v := fun h => isSlotChar_ne (isSlotChar_of_mem h) hc rfl

theorem slotText_ne_nil (d : Dialect) (n : Nat) (v : Cell) : slotText d n v ≠ [] := by
  have hmark : "?".toList ≠ [] := by decide
  unfold slotText
  split
  · decide
  · cases d with
    | mysql => exact hmark
    | ansi => exact hmark
    | postgres => simp [Dialect.placeholder]

/-! ### Reading marks back -/

/-- However the arguments are numbered, the text of the marks is read as their lexemes. -/
def ReadsBack (d : Dialect) (ms : List Mark) : Prop :=
  ∀ n, quoting.Reads (Mark.text d n ms) (Mark.render d n ms)

/-- Only a lexeme can start marks with a quote. -/
theorem Mark.head?_text_ne {q : Char} (hq : isQuote q = true) {ms : List Mark}
    (h : head? ms ≠ some q) (d : Dialect) (n : Nat) : (text d n ms).head? ≠ some q := by
  cases ms with
  | nil => exact nofun
  | cons m r =>
    cases m with
    | lexeme l =>
      have htext : text d n (.lexeme l :: r) = l.text ++ text d n r := rfl
      rw [htext, List.head?_append_of_ne_nil _ l.text_ne_nil]
      exact h
    | arg v =>
      rw [text_arg_cons, List.head?_append_of_ne_nil _ (slotText_ne_nil d (n + 1) v)]
      intro hhead
      -- a placeholder begins with no quote
      have hplain := unquoted_slotText d (n + 1) v q (List.mem_of_mem_head? hhead)
      rw [hq] at hplain
      cases hplain

namespace ReadsBack

variable {d : Dialect} {ms : List Mark}

theorem nil : ReadsBack d [] := fun _ => .nil

theorem chars_append {cs : List Char} (hcs : Unquoted cs) (h : ReadsBack d ms) :
    ReadsBack d (charMarks cs ++ ms) := by
  intro n
  rw [Mark.text, render_charMarks_append, List.flatMap_append, flatMap_text_chars]
  exact reads_chars_append hcs (h n)

theorem arg (v : Cell) (h : ReadsBack d ms) : ReadsBack d (.arg v :: ms) := by
  intro n
  rw [Mark.text_arg_cons]
  exact reads_chars_append (unquoted_slotText d (n + 1) v) (h _)

theorem span {q : Char} (hq : isQuote q = true) (body : List Char) (hhead : Mark.head? ms ≠ some q)
    (h : ReadsBack d ms) : ReadsBack d (.lexeme (.span q body) :: ms) := fun n =>
  reads_span_iff.2 ⟨Mark.text d n ms, rfl, ⟨hq, Mark.head?_text_ne hq hhead d n⟩, h n⟩

theorem opened {q : Char} (hq : isQuote q = true) (body : List Char) :
    ReadsBack d [.lexeme (.opened q body)] := fun _ =>
  reads_opened_iff.2 ⟨List.append_nil _, hq, rfl⟩

end ReadsBack

/-- What is written of marks has their open spans and no other ones. -/
theorem opened_mem_render_iff {d : Dialect} {ms : List Mark} {q : Char} {body : List Char}
    {n : Nat} : .opened q body ∈ Mark.render d n ms ↔ .lexeme (.opened q body) ∈ ms := by
  induction ms generalizing n with
  | nil => exact ⟨nofun, nofun⟩
  | cons m ms ih =>
    cases m with
    | lexeme l => rw [Mark.render, List.mem_cons, List.mem_cons, ih, Mark.lexeme.injEq]
    | arg v =>
      rw [Mark.render, List.mem_append, ih, List.mem_cons]
      simp

/-- Marks that bring no parenthesis of their own leave the nesting of what follows. -/
theorem nested_render_append {d : Dialect} {k : Nat} {ms tail : List Mark}
    (hms : ∀ c, .lexeme (.char c) ∈ ms → c ≠ '(' ∧ c ≠ ')')
    (htail : ∀ n, Nested k (Mark.render d n tail)) (n : Nat) :
    Nested k (Mark.render d n (ms ++ tail)) := by
  -- the depth `k` is the same before every mark, since none of them is a bracket
  induction ms generalizing n with
  | nil => exact htail n
  | cons m ms ih =>
    have hrest := ih fun c hc => hms c (List.mem_cons_of_mem m hc)
    cases m with
    | lexeme l =>
      cases l with
      | char c =>
        obtain ⟨hopening, hclosing⟩ := hms c List.mem_cons_self
        rw [List.cons_append, Mark.render, Nested, if_neg hopening, if_neg hclosing]
        exact hrest n
      | span q body => exact hrest n
      | opened q body => exact hrest n
    | arg v =>
      rw [List.cons_append, Mark.render]
      exact (nested_chars_append ⟨notMem_slotText (by decide) d _ v,
        notMem_slotText (by decide) d _ v⟩ k _).2 (hrest _)

end MetaQuery.Raw
