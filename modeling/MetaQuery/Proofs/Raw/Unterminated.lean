/-
  MetaQuery/Proofs/Raw/Unterminated.lean
  ======================================
  What becomes of a text that ends inside of a span.

  The reader of parameters and the check read the same text one after the other.  A quoted
  identifier that is left open is kept by the reader, so the check still finds it open, whatever is
  written behind it (`opens_substitute_iff`).  A literal that is left open is written by its content
  instead, and closed by that: the text becomes the same as if its closing quote had been there
  (`substitute_closing`).  So the check refuses a model with an open identifier and does not see
  that a literal was open (`select_of_opens`).
-/
import MetaQuery.Proofs.Raw.Segment
import MetaQuery.Proofs.Service.Checked

namespace MetaQuery

namespace Raw

open Text

/-! ### Open spans -/

section
variable {cs u : List Char} {q q' : Char}

theorem Lexeme.Fits.append {l : Lexeme} {rest : List Char} (h : l.Fits rest) (hrest : rest ≠ [])
    (u : List Char) : l.Fits (rest ++ u) := by
  cases l with
  | char c => exact h
  | span q body => exact ⟨h.1, by rw [List.head?_append_of_ne_nil _ hrest]; exact h.2⟩
  | opened q body => exact absurd h.2 hrest

/-- Only one span is open. -/
theorem Opens.unique (h : Opens q cs) (h' : Opens q' cs) : q' = q := by
  refine h.induction (P := fun cs => Opens q' cs → q' = q) (fun body hq => ?_)
    (fun l rest hfits hrest _ ih => ?_) h'
  · exact (opens_opened_iff hq body).1
  · exact fun hopen => ih ((opens_text_append_iff hfits hrest).1 hopen)

theorem Opens.ne_nil (h : Opens q cs) : cs ≠ [] := by
  rintro rfl
  exact absurd (bare?_eq_none_iff.2 ⟨q, h⟩) nofun

theorem Opens.unquoted_append (h : Opens q cs) (hu : Unquoted u) : Opens q (u ++ cs) := by
  obtain ⟨ls, body, hls, hopen⟩ := h
  exact ⟨_, body, reads_chars_append hu hls, List.mem_append_right _ hopen⟩

theorem double_of_unquoted (hq : isQuote q = true) (hu : Unquoted u) : double q u = u := by
  induction u with
  | nil => rfl
  | cons c u ih =>
    have hc : c ≠ q := by
      rintro rfl
      rw [hu c List.mem_cons_self] at hq
      cases hq
    rw [double, if_neg hc, ih fun x hx => hu x (List.mem_cons_of_mem c hx)]

/-- A text without quotes does not close a span. -/
theorem Opens.append_unquoted (h : Opens q cs) (hu : Unquoted u) : Opens q (cs ++ u) := by
  refine h.induction (P := fun cs => Opens q (cs ++ u)) (fun body hq => ?_)
    fun l rest hfits hrest _ ih => ?_
  · have hopened := (opens_opened_iff hq (body ++ u)).2 rfl
    rwa [double_append, double_of_unquoted hq hu] at hopened
  · rw [List.append_assoc, opens_text_append_iff (hfits.append hrest u)
      (List.append_ne_nil_of_left_ne_nil hrest u)]
    exact ih

/-- A text without quotes neither opens nor closes a span. -/
theorem opens_between_iff {a b : List Char} (ha : Unquoted a) (hb : Unquoted b) (cs : List Char) :
    Opens q (a ++ cs ++ b) ↔ Opens q cs := by
  constructor
  · intro h
    have hnone : bare? cs = none := by
      have hread := bare?_eq_none_iff.2 ⟨q, h⟩
      rwa [bare?_between ha hb, Option.map_eq_none_iff] at hread
    obtain ⟨q', h'⟩ := bare?_eq_none_iff.1 hnone
    obtain rfl := h.unique ((h'.unquoted_append ha).append_unquoted hb)
    exact h'
  · exact fun h => (h.unquoted_append ha).append_unquoted hb

/-- A text that ends inside of a span is closed by the quote of the span. -/
theorem Opens.closed_by_quote (h : Opens q cs) : bare? (cs ++ [q]) ≠ none := by
  refine h.induction (P := fun cs => bare? (cs ++ [q]) ≠ none) (fun body hq => ?_)
    fun l rest hfits hrest _ ih => ?_
  · have hread := bareFrom_enclose hq body (r := []) (by simp)
    rw [List.append_nil] at hread
    rw [List.cons_append, ← enclose, bare?, hread]
    exact Option.some_ne_none _
  · have hclosed : ∀ q body, l ≠ .opened q body := by
      rintro q body rfl
      exact hrest hfits.2
    rw [List.append_assoc, bare?_text_append (hfits.append hrest [q]) hclosed, ne_eq,
      Option.map_eq_none_iff]
    exact ih

end

/-! ### Open identifiers -/

section
variable {params : Params} {d : Dialect} {s : Segment} {ms tail : List Mark}
  {sql rest : List Char} {ss : List Segment} {mss : List (List Mark)}

/-- What becomes of a segment is open just if the segment is. -/
theorem Replaced.opened_mem_iff (h : Replaced params d s ms) {q : Char} {body : List Char} :
    .lexeme (.opened q body) ∈ ms ↔ s = .lexeme (.opened q body) := by
  cases h with
  | kept hnames => simp [opened_mem_lexemes_iff]
  | argument hvalue => simp
  | concatenation hnames hws =>
    simp [opened_notMem_concatenation]

theorem opened_mem_flatten_iff (h : List.Forall₂ (Replaced params d) ss mss) {q : Char}
    {body : List Char} :
    .lexeme (.opened q body) ∈ mss.flatten ↔ .lexeme (.opened q body) ∈ ss := by
  induction h with
  | nil => exact ⟨nofun, nofun⟩
  | @cons s ms ss mss hms _ ih =>
    rw [List.flatten_cons, List.mem_append, hms.opened_mem_iff, List.mem_cons, ← ih, eq_comm]

/-- What becomes of a segment starts with a quote only if the segment does. -/
theorem Replaced.head?_append_ne (h : Replaced params d s ms) {q : Char} (hq : isQuote q = true)
    (hs : s.text.head? ≠ some q) : Mark.head? (ms ++ tail) ≠ some q := by
  cases h with
  | kept hnames =>
    cases s with
    | lexeme l => rwa [Segment.text_lexeme] at hs
    | cast => exact hs
    | name n => exact hs
  | argument hvalue => exact nofun
  | concatenation hnames hws =>
    have hopening : ∀ c, isQuote c = false → some c ≠ some q := by
      rintro c hc ⟨⟩
      rw [hq] at hc
      cases hc
    cases d with
    | mysql => exact hopening 'C' (by decide)
    | postgres => exact hopening '(' (by decide)
    | ansi => exact hopening '(' (by decide)

theorem head?_flatten_ne (h : segmenting.Reads sql ss)
    (hmss : List.Forall₂ (Replaced params d) ss mss) {q : Char} (hq : isQuote q = true)
    (hsql : sql.head? ≠ some q) : Mark.head? mss.flatten ≠ some q := by
  cases hmss with
  | nil => exact nofun
  | @cons s ms ss mss hms _ =>
    obtain ⟨rest, rfl, -, -⟩ := h
    have hfirst : (s.text ++ rest).head? = s.text.head? :=
      List.head?_append_of_ne_nil _ s.text_ne_nil
    exact hms.head?_append_ne hq (hfirst ▸ hsql)

/-- Segments are read from what becomes of them as the same spans, however the arguments are
    numbered. -/
theorem readsBack_flatten (h : segmenting.Reads sql ss)
    (hmss : List.Forall₂ (Replaced params d) ss mss) : ReadsBack d mss.flatten := by
  induction hmss generalizing sql with
  | nil => exact .nil
  | @cons s ms ss mss hms hrest ih =>
    obtain ⟨rest, rfl, hfits, hread⟩ := h
    have hback := ih hread
    rw [List.flatten_cons]
    cases hms with
    -- each segment is put as spans and quote-free text, so no span is open behind it
    | argument hvalue => exact hback.arg _
    | concatenation hnames hws => exact readsBack_concatenation_append params d _ hback
    | kept hnames =>
      cases s with
      | cast =>
        have hcast : Unquoted [':', ':'] := by decide
        exact hback.chars_append hcast
      | name n =>
        have hname := hback.chars_append (unquoted_name hfits.1)
        simpa [Segment.lexemes, charMarks, Function.comp_def] using hname
      | lexeme l =>
        cases l with
        | char c =>
          have hchar : Unquoted [c] := fun x hx => List.mem_singleton.1 hx ▸ hfits.1
          exact hback.chars_append hchar
        | span q body =>
          obtain ⟨hq, hend⟩ := hfits.1
          exact hback.span hq body (head?_flatten_ne hread hrest hq hend)
        -- an identifier left open is the last segment and is kept as it stands
        | opened q body =>
          obtain ⟨hq, rfl⟩ := hfits.1
          obtain rfl := hread.unique .nil
          cases hrest
          exact .opened hq body

/-- **Where no literal is open, the check finds a span open just if the text left it open**, whatever
    the parameters are and wherever their numbers start. -/
theorem opens_substitute_iff (params : Params) (d : Dialect) (h : ¬ Opens '\'' sql) (n : Nat)
    {q : Char} :
    Opens q (Part.render d n (substitute params d sql).parts).toList ↔ Opens q sql := by
  obtain ⟨ss, hss⟩ := segmenting.exists_reads sql
  obtain ⟨mss, hmss, htext⟩ := exists_replaced_segments params d hss (literals_closed hss h)
  have hitems := (items_substitute params d sql).trans htext
  rw [toList_render_of_marks hitems, opens_iff_of_reads (readsBack_flatten hss hmss n),
    opens_iff_of_segmenting hss]
  simp only [opened_mem_render_iff, opened_mem_flatten_iff hmss]

end

/-! ### Open literals -/

section
variable {params : Params} {d : Dialect} {sql : List Char}

theorem Segment.Fits.append {s : Segment} {rest : List Char} (h : s.Fits rest) (hrest : rest ≠ [])
    (u : List Char) : s.Fits (rest ++ u) := by
  have hhead : (rest ++ u).head? = rest.head? := List.head?_append_of_ne_nil _ hrest
  cases s with
  | lexeme l =>
    refine ⟨h.1.append hrest u, fun hl => ?_⟩
    rw [hhead]
    exact h.2 hl
  | cast => trivial
  | name n =>
    refine ⟨h.1, ?_⟩
    rw [EndsName, hhead]
    exact h.2

theorem textItems_closing {ss : List Segment} {body : List Char} (h : segmenting.Reads sql ss)
    (hopen : .lexeme (.opened '\'' body) ∈ ss) :
    textItems params d (sql ++ ['\'']) = textItems params d sql := by
  induction ss generalizing sql with
  | nil => cases hopen
  | cons s ss ih =>
    obtain ⟨rest, rfl, hfits, hrest⟩ := h
    rcases List.mem_cons.1 hopen with rfl | hopen
    -- the open literal comes last: closing it changes nothing, since it is read as closed anyway
    · obtain ⟨-, rfl⟩ := hfits.1
      have hend : ([] : List Char).head? ≠ some '\'' := nofun
      have hclosed := textItems_quoteLiteral_append params d body hend
      rw [List.append_nil, textItems_nil, List.append_nil] at hclosed
      have hopened : textItems params d ('\'' :: double '\'' body) =
          (putLiteral params d .empty body).items := by
        rw [textItems, tokens_open_literal]
        exact List.append_nil _
      have hwritten : segmenting.text (.lexeme (.opened '\'' body)) = '\'' :: double '\'' body :=
        Segment.text_lexeme _
      rw [List.append_nil, hwritten, hopened]
      exact hclosed
    -- any segment before it is replaced alike, whatever stands at the end of the text
    · have hne : rest ≠ [] := by
        rintro rfl
        rw [hrest.unique .nil] at hopen
        cases hopen
      have hfirst : ∀ body, s ≠ .lexeme (.opened '\'' body) := by
        rintro body rfl
        exact hne hfits.1.2
      obtain ⟨ms, hms⟩ := exists_replaced params d s
      have hleft := hms.textItems_append (hfits.append hne ['\'']) hfirst
      have hright := hms.textItems_append hfits hfirst
      rw [ih hrest hopen, ← hright, ← List.append_assoc] at hleft
      exact hleft

/-- **A literal that is left open is written as if its closing quote had been there.** -/
theorem substitute_closing (h : Opens '\'' sql) :
    substitute params d (sql ++ ['\'']) = substitute params d sql := by
  obtain ⟨ss, hss⟩ := segmenting.exists_reads sql
  obtain ⟨body, hopen⟩ := (opens_iff_of_segmenting hss).1 h
  refine (isNormal_substitute _).ext_items (isNormal_substitute _) ?_
  rw [items_substitute, items_substitute, textItems_closing hss hopen]

end

/-! ### The check -/

theorem bareHazard?_ne_unterminatedQuote (cs : List Char) :
    bareHazard? cs ≠ some .unterminatedQuote := by
  unfold bareHazard?
  split
  · exact nofun
  · split
    · exact nofun
    · split <;> exact nofun

theorem opens_trimBlanks_iff {q : Char} (cs : List Char) :
    Opens q (trimBlanks cs) ↔ Opens q cs := by
  obtain ⟨front, back, hcs, hfront, hback⟩ := exists_trimBlanks cs
  have hbetween : Opens q (front ++ trimBlanks cs ++ back) ↔ Opens q (trimBlanks cs) :=
    opens_between_iff (unquoted_of_allBlank hfront) (unquoted_of_allBlank hback) _
  rw [← hcs] at hbetween
  exact hbetween.symm

/-- The check refuses a text for an open span just when there is one. -/
theorem checkSafe_eq_unterminated_iff {s : String} :
    checkSafe s = .error (.hazard .unterminatedQuote) ↔ ∃ q, Opens q s.toList := by
  simp only [← opens_trimBlanks_iff s.toList]
  rw [← bare?_eq_none_iff, checkSafe, hazard?]
  cases bare? (trimBlanks s.toList) with
  | none => exact iff_of_true rfl rfl
  | some x =>
    refine iff_of_false ?_ (Option.some_ne_none x)
    -- a text that reads to its end can be refused for other reasons only
    have hne := bareHazard?_ne_unterminatedQuote (trimBlanks x)
    dsimp only
    cases hhazard : bareHazard? (trimBlanks x) with
    | none =>
      intro h
      cases h
    | some h =>
      rintro ⟨⟩
      exact hne hhazard

end Raw

/-! ### Models written by hand -/

namespace Text

theorem isBlank_head?_trimBlanks {cs : List Char} :
    ∀ c ∈ (trimBlanks cs).head?, isBlank c = false := by
  intro c hc
  obtain ⟨back, hback, -⟩ := exists_trimEnd (trimStart cs)
  have hhead : (trimStart cs).head? = some c := by
    rw [hback, List.head?_append, ← trimBlanks, Option.mem_def.1 hc]
    rfl
  have hdrop := List.head?_dropWhile_not isBlank cs
  rw [← trimStart, hhead] at hdrop
  simpa using hdrop

/-- A text between two characters that are not blank is not trimmed. -/
theorem trimBlanks_append_singleton {cs : List Char} {c : Char} (hc : isBlank c = false)
    (h : ∀ x ∈ cs.head?, isBlank x = false) : trimBlanks (cs ++ [c]) = cs ++ [c] := by
  have hstart : trimStart (cs ++ [c]) = cs ++ [c] := by
    cases cs with
    | nil => exact trimStart_cons_of_not_blank hc
    | cons x r => exact trimStart_cons_of_not_blank (h x rfl)
  rw [trimBlanks, hstart, trimEnd, List.reverse_append, List.reverse_singleton,
    List.singleton_append, trimStart_cons_of_not_blank hc, List.reverse_cons, List.reverse_reverse]

end Text

namespace Model

open Raw Text

variable {m : Model} {r : RawEntry} {q : Char}

/-- The text of a model ends inside of a span just if its content does. -/
theorem opens_rawText_iff (hr : m.raw = some r) : Opens q m.rawText ↔ Opens q r.content.toList := by
  -- semicolons are no quotes, so cutting them off the end opens and closes nothing
  have hsemicolons : ∀ cs : List Char,
      Opens q (cs.reverse.dropWhile (· == ';')).reverse ↔ Opens q cs := by
    intro cs
    have hplain : Unquoted (cs.reverse.takeWhile (· == ';')).reverse := by
      intro c hc
      have hall := List.all_eq_true.1 List.all_takeWhile c (List.mem_reverse.1 hc)
      rw [beq_iff_eq.1 hall]
      decide
    have hbetween := opens_between_iff (q := q) (a := []) nofun hplain
      (cs.reverse.dropWhile (· == ';')).reverse
    rw [List.nil_append, ← List.reverse_append, List.takeWhile_append_dropWhile,
      List.reverse_reverse] at hbetween
    exact hbetween.symm
  rw [rawText, hr]
  exact (opens_trimBlanks_iff _).trans ((hsemicolons _).trans (opens_trimBlanks_iff _))

/-- The model with a quote behind its text. -/
def closing (m : Model) : Model :=
  { m with raw := m.raw.map fun r => { r with content := String.ofList (m.rawText ++ ['\'']) } }

theorem rawText_closing (hr : m.raw = some r) : m.closing.rawText = m.rawText ++ ['\''] := by
  have hhead : ∀ c ∈ m.rawText.head?, isBlank c = false := by
    rw [rawText, hr]
    exact isBlank_head?_trimBlanks
  have hraw : m.closing.raw = some { r with content := String.ofList (m.rawText ++ ['\'']) } := by
    rw [closing, hr]
    rfl
  have hsemicolons : ((m.rawText ++ ['\'']).reverse.dropWhile (· == ';')).reverse =
      m.rawText ++ ['\''] := by
    simp
  -- the quote at the end is neither blank nor a semicolon, so nothing is trimmed there
  have htrim := trimBlanks_append_singleton (c := '\'') (by decide) hhead
  rw [rawText, hraw]
  dsimp only
  rw [String.toList_ofList, htrim, hsemicolons, htrim]

/-- The query of a text written by hand, for a stretch of its rows. -/
def rawQuery (m : Model) (params : Params) (window : Option Window) : Select :=
  { Select.all m.dialect (m.rawSource params) with window := window }

/-- A text that is not empty makes a query, which is checked, unless the page is out of range. -/
theorem select_raw (hraw : m.isRaw = true) (hne : m.rawText ≠ []) (params : Params) :
    m.select params = (m.window params).bind fun window => (m.rawQuery params window).checked := by
  rw [select_eq, compile, if_pos hraw, compileRaw_eq, if_neg (by simpa using hne)]
  cases m.window params with
  | error fault => rfl
  | ok window => rfl

/-- The query is a derived table around the text with the parameters bound, and a page. -/
theorem toList_rawQuery (m : Model) (params : Params) (window : Option Window) :
    (m.rawQuery params window).statement.text.toList =
      "SELECT * FROM (".toList ++
        (Part.render m.dialect 0 (substitute params m.dialect m.rawText).parts).toList ++
        ((") AS " ++ rawAlias).toList ++ (Select.windowText window).toList) := by
  obtain ⟨hhead, -, htext, -⟩ := Select.texts_all (q := m.rawQuery params window) rfl
  rw [htext, hhead, rawSource, Fragment.render_putText, Fragment.render_append,
    Fragment.render_ofText, Fragment.numbered_ofText]
  simp only [String.toList_append, List.append_assoc, List.length_nil, Nat.add_zero]
  rfl

/-- The query ends inside of a span just if its text does with the parameters bound. -/
theorem opens_rawQuery_iff (params : Params) (window : Option Window) :
    Opens q (m.rawQuery params window).statement.text.toList ↔
      Opens q (Part.render m.dialect 0 (substitute params m.dialect m.rawText).parts).toList := by
  have hplain : Unquoted ((") AS " ++ rawAlias).toList ++ (Select.windowText window).toList) :=
    Unquoted.append (by decide) (Select.unquoted_windowText window)
  rw [toList_rawQuery]
  exact opens_between_iff (by decide) hplain _

/-- A query is refused for an open span just when it ends inside of one. -/
theorem checked_eq_unterminated_iff {query : Select} :
    query.checked = .error (.hazard .unterminatedQuote) ↔
      ∃ q, Opens q query.statement.text.toList := by
  rw [← checkSafe_eq_unterminated_iff, Select.checked]
  cases checkSafe query.statement.text with
  | error e =>
    constructor
    · exact fun h => congrArg Except.error (Except.error.inj h)
    · exact fun h => congrArg Except.error (Except.error.inj h)
  | ok u =>
    constructor
    · intro h
      cases h
    · intro h
      cases h

theorem window_ne_hazard (params : Params) (h : Hazard) : m.window params ≠ .error (.hazard h) := by
  unfold window windowOf
  dsimp only
  split
  · exact nofun
  · split <;> exact nofun

section
variable (hraw : m.isRaw = true) (hr : m.raw = some r) (params : Params)
include hraw hr

/-- An identifier that is left open is found by the check of the query. -/
theorem select_of_opens_identifier (hq : q ≠ '\'') (hopen : Opens q r.content.toList) :
    m.select params = (m.window params).bind fun _ => .error (.hazard .unterminatedQuote) := by
  have htext := (opens_rawText_iff hr).2 hopen
  have hliterals : ¬ Opens '\'' m.rawText := fun h => hq (h.unique htext)
  rw [select_raw hraw htext.ne_nil]
  refine congrArg (m.window params).bind (funext fun window => ?_)
  have hbound := (opens_substitute_iff params m.dialect hliterals 0).2 htext
  exact checked_eq_unterminated_iff.2 ⟨q, (opens_rawQuery_iff params window).2 hbound⟩

/-- A literal that is left open makes the query of the closed one. -/
theorem select_closing (hopen : Opens '\'' r.content.toList) :
    m.closing.select params = m.select params := by
  have htext := (opens_rawText_iff hr).2 hopen
  have hclosing := rawText_closing hr
  have hne : m.closing.rawText ≠ [] := by
    rw [hclosing]
    exact List.concat_ne_nil _ _
  have hsource : m.closing.rawSource params = m.rawSource params := by
    rw [rawSource, rawSource, hclosing, ← substitute_closing htext]
    rfl
  rw [select_raw hraw htext.ne_nil, select_raw (m := m.closing) hraw hne]
  refine congrArg (m.window params).bind (funext fun window => ?_)
  rw [rawQuery, hsource]
  rfl

/-- A literal that is left open is not found by the check of the query. -/
theorem select_ne_of_opens_literal (hopen : Opens '\'' r.content.toList) :
    m.select params ≠ .error (.hazard .unterminatedQuote) := by
  have htext := (opens_rawText_iff hr).2 hopen
  have hclosed : ∀ q, ¬ Opens q (m.rawText ++ ['\'']) := fun q h =>
    htext.closed_by_quote (bare?_eq_none_iff.2 ⟨q, h⟩)
  rw [select_raw hraw htext.ne_nil]
  cases hwindow : m.window params with
  | error fault =>
    rintro ⟨⟩
    exact window_ne_hazard params _ hwindow
  | ok window =>
    intro hchecked
    simp only [Except.bind] at hchecked
    -- the substitution has closed the literal before the text is checked
    obtain ⟨q, hquery⟩ := checked_eq_unterminated_iff.1 hchecked
    rw [opens_rawQuery_iff, ← substitute_closing htext,
      opens_substitute_iff _ _ (hclosed '\'')] at hquery
    exact hclosed q hquery

/-- **What becomes of a text that ends inside of a span.**  The check refuses the text itself.  If
    the span is an identifier, it also refuses the query, whatever the parameters are, unless the
    page is out of range.  If it is a literal, the query is that of the text with the quote
    supplied, so it is not refused for an open span. -/
theorem select_of_opens (hopen : Opens q r.content.toList) :
    checkSafe r.content = .error (.hazard .unterminatedQuote) ∧
      (q ≠ '\'' → m.select params =
        (m.window params).bind fun _ => .error (.hazard .unterminatedQuote)) ∧
      (q = '\'' → m.closing.select params = m.select params ∧
        m.select params ≠ .error (.hazard .unterminatedQuote)) := by
  refine ⟨checkSafe_eq_unterminated_iff.2 ⟨q, hopen⟩, fun hq => ?_, ?_⟩
  · exact select_of_opens_identifier hraw hr params hq hopen
  · rintro rfl
    exact ⟨select_closing hraw hr params hopen, select_ne_of_opens_literal hraw hr params hopen⟩

end

/-- A model written by hand, with this text. -/
def ofContent (content : String) : Model where
  entry := { id := "note", code := "notes", kind := .sql }
  tables := []
  fields := []
  dialect := .ansi
  raw := some { model := "note", content := content }

/-- An open identifier is refused. -/
theorem open_table_refused :
    Opens '"' "SELECT * FROM \"notes".toList ∧
      (ofContent "SELECT * FROM \"notes").select [] = .error (.hazard .unterminatedQuote) := by
  have hidentifier := (opens_opened_iff (q := '"') rfl "notes".toList).2 rfl
  have hopen := hidentifier.unquoted_append (u := "SELECT * FROM ".toList) (by decide)
  exact ⟨hopen, (select_of_opens rfl rfl [] hopen).2.1 (by decide)⟩

/-- The query of an open literal. -/
def openQuery : Select := rawQuery (ofContent "SELECT 'abc") [] none

/-- An open literal is not refused, but closed. -/
theorem open_literal_accepted :
    Opens '\'' "SELECT 'abc".toList ∧
      checkSafe "SELECT 'abc" = .error (.hazard .unterminatedQuote) ∧
      (ofContent "SELECT 'abc").select [] = .ok openQuery ∧
      openQuery.statement.text = "SELECT * FROM (SELECT 'abc') AS raw_model" := by
  have hliteral := (opens_opened_iff (q := '\'') rfl "abc".toList).2 rfl
  refine ⟨hliteral.unquoted_append (u := "SELECT ".toList) (by decide), by decide, ?_, ?_⟩
  · exact select_eq_ok_iff.2 ⟨rfl, by decide +kernel⟩
  · decide +kernel

end Model

end MetaQuery
