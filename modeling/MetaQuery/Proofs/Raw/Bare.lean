/-
  MetaQuery/Proofs/Raw/Bare.lean
  ==============================
  How a text is read from left to right without its quoted spans.

  A text without quotes is read as it is.  A quoted identifier is read as one blank, whatever is
  in it, because each quote inside it is written twice; the text behind it must not start with the
  same quote, which would go on with the span.  So a text whose spans are closed is read by
  itself, as long as what follows does not write the quote at its end twice
  (`bareFrom_append_of_apart`), which a text that starts with no quote cannot (`bare?_append`).
-/
import MetaQuery.Dialect
import MetaQuery.Raw.Safety

namespace MetaQuery.Raw

/-- No character of the text is a quote. -/
def Unquoted (cs : List Char) : Prop := ∀ c ∈ cs, isQuote c = false

instance (cs : List Char) : Decidable (Unquoted cs) :=
  List.decidableBAll (fun c => isQuote c = false) cs

theorem isQuote_of_isDigit {c : Char} (h : c.isDigit = true) : isQuote c = false := by
  have hne : ∀ q, q.isDigit = false → c ≠ q := by
    rintro q hq rfl
    simp [h] at hq
  simp [isQuote, hne '\'' (by decide), hne '"' (by decide), hne '\x60' (by decide)]

theorem isQuote_quoteChar (d : Dialect) : isQuote d.quoteChar = true := by
  cases d <;> rfl

theorem bareFrom_cons_of_quote {q : Char} (h : isQuote q = true) (r : List Char) :
    bareFrom none (q :: r) = bareFrom (some q) r := by
  rw [bareFrom, if_pos h]

theorem bareFrom_cons_of_not_quote {c : Char} (h : isQuote c = false) (r : List Char) :
    bareFrom none (c :: r) = (bareFrom none r).map (c :: ·) := by
  rw [bareFrom, if_neg (by simp [h])]

theorem bareFrom_append_of_unquoted {cs : List Char} (h : Unquoted cs) (r : List Char) :
    bareFrom none (cs ++ r) = (bareFrom none r).map (cs ++ ·) := by
  induction cs with
  | nil => simp
  | cons c cs ih =>
    have hc : isQuote c = false := h c List.mem_cons_self
    rw [List.cons_append, bareFrom_cons_of_not_quote hc,
      ih fun x hx => h x (List.mem_cons_of_mem c hx)]
    cases bareFrom none r <;> rfl

theorem bareFrom_some_cons_of_ne {q c : Char} (h : c ≠ q) (r : List Char) :
    bareFrom (some q) (c :: r) = bareFrom (some q) r := by
  cases r with
  | nil => simp [bareFrom, h]
  | cons d r => simp [bareFrom, h]

theorem bareFrom_some_twice (q : Char) (r : List Char) :
    bareFrom (some q) (q :: q :: r) = bareFrom (some q) r := by
  simp [bareFrom]

/-- A quote ends its span when the text does not go on with it. -/
theorem bareFrom_some_closing {q : Char} {r : List Char} (h : r.head? ≠ some q) :
    bareFrom (some q) (q :: r) = (bareFrom none r).map (' ' :: ·) := by
  cases r with
  | nil => simp [bareFrom]
  | cons d r =>
    have hd : d ≠ q := by simpa using h
    simp [bareFrom, hd]

theorem bareFrom_some_double (q : Char) (cs r : List Char) :
    bareFrom (some q) (Text.double q cs ++ r) = bareFrom (some q) r := by
  induction cs with
  | nil => rfl
  | cons c cs ih =>
    by_cases hc : c = q
    · rw [Text.double, if_pos hc, List.cons_append, List.cons_append, bareFrom_some_twice, ih]
    · rw [Text.double, if_neg hc, List.cons_append, bareFrom_some_cons_of_ne hc, ih]

theorem bareFrom_enclose {q : Char} (hq : isQuote q = true) (cs : List Char) {r : List Char}
    (h : r.head? ≠ some q) :
    bareFrom none (Text.enclose q cs ++ r) = (bareFrom none r).map (' ' :: ·) := by
  have htext : Text.enclose q cs ++ r = q :: (Text.double q cs ++ q :: r) := by
    simp [Text.enclose]
  rw [htext, bareFrom_cons_of_quote hq, bareFrom_some_double, bareFrom_some_closing h]

/-! ### Texts one behind the other -/

/-- The text does not go on with a span that ends in front of it. -/
def StartsPlain (r : List Char) : Prop := ∀ c, r.head? = some c → isQuote c = false

theorem Unquoted.startsPlain {cs : List Char} (h : Unquoted cs) : StartsPlain cs :=
  fun c hc => h c (List.mem_of_mem_head? hc)

theorem bareFrom_some_append_of_unquoted {q : Char} (hq : isQuote q = true) {cs : List Char}
    (h : Unquoted cs) (r : List Char) : bareFrom (some q) (cs ++ r) = bareFrom (some q) r := by
  induction cs with
  | nil => rfl
  | cons c cs ih =>
    have hc : c ≠ q := by
      rintro rfl
      rw [h c List.mem_cons_self] at hq
      cases hq
    rw [List.cons_append, bareFrom_some_cons_of_ne hc]
    exact ih fun x hx => h x (List.mem_cons_of_mem c hx)

/-- Where the two texts meet, no quote is written twice. -/
def Apart (cs r : List Char) : Prop :=
  ∀ q, isQuote q = true → cs.getLast? = some q → r.head? ≠ some q

theorem StartsPlain.apart {r : List Char} (h : StartsPlain r) (cs : List Char) : Apart cs r := by
  intro q hq _ hhead
  rw [h q hhead] at hq
  cases hq

theorem Apart.tail {c : Char} {cs r : List Char} (h : Apart (c :: cs) r) : Apart cs r := by
  intro q hq hlast
  refine h q hq ?_
  rw [List.getLast?_cons, hlast]
  rfl

/-- Behind a text whose spans are closed, another one is read anew. -/
theorem bareFrom_append_of_apart {o : Option Char} {cs x : List Char}
    (ho : ∀ q ∈ o, isQuote q = true) (h : bareFrom o cs = some x) {r : List Char}
    (hr : Apart cs r) : bareFrom o (cs ++ r) = (bareFrom none r).map (x ++ ·) := by
  fun_induction bareFrom o cs generalizing x with
  | case1 =>
    obtain rfl := Option.some.inj h
    simp
  | case2 c cs hc ih =>
    rw [List.cons_append, bareFrom_cons_of_quote hc]
    exact ih (by simpa using hc) h hr.tail
  | case3 c cs hc ih =>
    obtain ⟨y, hy, rfl⟩ := Option.map_eq_some_iff.1 h
    rw [List.cons_append, bareFrom_cons_of_not_quote (by simpa using hc), ih ho hy hr.tail]
    simp [Function.comp_def]
  | case4 q => cases h
  | case5 q =>
    -- the last quote closes its span, since `r` cannot make it a quote written twice
    obtain rfl := Option.some.inj h
    rw [List.singleton_append, bareFrom_some_closing (hr q (ho q rfl) rfl)]
    rfl
  | case6 q c hc => cases h
  | case7 q c d cs hc ih =>
    rw [List.cons_append, bareFrom_some_cons_of_ne hc]
    exact ih ho h hr.tail
  | case8 q c cs hc ih =>
    obtain rfl : q = c := by simpa using hc
    rw [List.cons_append, List.cons_append, bareFrom_some_twice]
    exact ih ho h hr.tail.tail
  | case9 q c d cs hc hd ih =>
    obtain rfl : c = q := by simpa using hc
    obtain ⟨y, hy, rfl⟩ := Option.map_eq_some_iff.1 h
    rw [List.cons_append, bareFrom_some_closing (by simpa using hd), ih nofun hy hr.tail]
    simp [Function.comp_def]

theorem bareFrom_append {o : Option Char} {cs x : List Char} (ho : ∀ q ∈ o, isQuote q = true)
    (h : bareFrom o cs = some x) {r : List Char} (hr : StartsPlain r) :
    bareFrom o (cs ++ r) = (bareFrom none r).map (x ++ ·) :=
  bareFrom_append_of_apart ho h (hr.apart cs)

/-- A text without quotes closes no span. -/
theorem bareFrom_append_of_none {o : Option Char} {cs : List Char} (ho : ∀ q ∈ o, isQuote q = true)
    (h : bareFrom o cs = none) {u : List Char} (hu : Unquoted u) : bareFrom o (cs ++ u) = none := by
  fun_induction bareFrom o cs with
  | case1 => cases h
  | case2 c cs hc ih =>
    rw [List.cons_append, bareFrom_cons_of_quote hc]
    exact ih (by simpa using hc) h
  | case3 c cs hc ih =>
    rw [List.cons_append, bareFrom_cons_of_not_quote (by simpa using hc),
      ih ho (Option.map_eq_none_iff.1 h)]
    rfl
  -- open at the end: what is appended has no quote that could close it
  | case4 q =>
    have hopen := bareFrom_some_append_of_unquoted (ho q rfl) hu []
    rw [List.append_nil] at hopen
    exact hopen
  | case5 q => cases h
  | case6 q c hc =>
    have hopen := bareFrom_some_append_of_unquoted (ho q rfl) hu []
    rw [List.append_nil] at hopen
    rw [List.singleton_append, bareFrom_some_cons_of_ne hc]
    exact hopen
  | case7 q c d cs hc ih =>
    rw [List.cons_append, bareFrom_some_cons_of_ne hc]
    exact ih ho h
  -- a doubled quote stays inside the span
  | case8 q c cs hc ih =>
    obtain rfl : q = c := by simpa using hc
    rw [List.cons_append, List.cons_append, bareFrom_some_twice]
    exact ih ho h
  | case9 q c d cs hc hd ih =>
    obtain rfl : c = q := by simpa using hc
    rw [List.cons_append, bareFrom_some_closing (by simpa using hd),
      ih nofun (Option.map_eq_none_iff.1 h)]
    rfl

theorem bare?_append {cs x : List Char} (h : bare? cs = some x) {r : List Char}
    (hr : StartsPlain r) : bare? (cs ++ r) = (bare? r).map (x ++ ·) :=
  bareFrom_append (by simp) h hr

/-- What is read of two texts is read of the two together. -/
theorem bare?_append_eq_some {a x r y : List Char} (ha : bare? a = some x) (hr : StartsPlain r)
    (hy : bare? r = some y) : bare? (a ++ r) = some (x ++ y) := by
  rw [bare?_append ha hr, hy]
  rfl

theorem bare?_unquoted_append {u : List Char} (hu : Unquoted u) {r y : List Char}
    (hy : bare? r = some y) : bare? (u ++ r) = some (u ++ y) := by
  rw [bare?, bareFrom_append_of_unquoted hu, ← bare?, hy]
  rfl

theorem bare?_unquoted {u : List Char} (hu : Unquoted u) : bare? u = some u := by
  have h := bare?_unquoted_append hu (r := []) rfl
  rwa [List.append_nil] at h

/-- A text without quotes stays at either end of what is read. -/
theorem bare?_between {a b : List Char} (ha : Unquoted a) (hb : Unquoted b) (cs : List Char) :
    bare? (a ++ cs ++ b) = (bare? cs).map (a ++ · ++ b) := by
  rw [List.append_assoc, bare?, bareFrom_append_of_unquoted ha]
  cases hcs : bareFrom none cs with
  | none =>
    rw [bareFrom_append_of_none (by simp) hcs hb, bare?, hcs]
    rfl
  | some x =>
    have hread := bareFrom_append (by simp) hcs hb.startsPlain
    rw [hread, ← bare?, bare?_unquoted hb, bare?, hcs]
    simp

/-- A quoted identifier is one span, whatever its name is. -/
theorem bare?_quote_append (d : Dialect) (ident : String) {r : List Char}
    (h : r.head? ≠ some d.quoteChar) :
    bare? ((d.quote ident).toList ++ r) = (bare? r).map (' ' :: ·) := by
  rw [bare?, Dialect.quote, String.toList_ofList]
  exact bareFrom_enclose (isQuote_quoteChar d) ident.toList h

theorem StartsPlain.head?_ne {r : List Char} (h : StartsPlain r) (d : Dialect) :
    r.head? ≠ some d.quoteChar := by
  intro hhead
  have hquote := h d.quoteChar hhead
  rw [isQuote_quoteChar] at hquote
  cases hquote

/-- What is read of a column: a blank, or two with a dot between them where a table qualifies it. -/
def columnReading (table : String) : List Char :=
  if table = "" then " ".toList else " . ".toList

theorem bare?_column_append (d : Dialect) (table name : String) {r y : List Char}
    (hr : StartsPlain r) (hy : bare? r = some y) :
    bare? ((d.column table name).toList ++ r) = some (columnReading table ++ y) := by
  have hname : bare? ((d.quote name).toList ++ r) = some (' ' :: y) := by
    rw [bare?_quote_append d name (hr.head?_ne d), hy]
    rfl
  unfold Dialect.column columnReading
  split
  · exact hname
  -- the two quoted names are kept apart by the dot, which no span takes in
  · have hdot : bare? (".".toList ++ ((d.quote name).toList ++ r)) = some ('.' :: ' ' :: y) :=
      bare?_unquoted_append (by decide) hname
    have hplain : StartsPlain (".".toList ++ ((d.quote name).toList ++ r)) := by
      intro c hc
      obtain rfl : '.' = c := Option.some.inj hc
      decide
    rw [String.toList_append, String.toList_append, List.append_assoc, List.append_assoc,
      bare?_quote_append d table (hplain.head?_ne d), hdot]
    rfl

end MetaQuery.Raw
