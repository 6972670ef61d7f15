/-
  MetaQuery/Proofs/Query/Placeholders.lean
  ========================================
  Placeholders match arguments, whatever the columns are called.

  The statements that write rows quote names that come with the rows, and these may hold quotes,
  question marks or `$1`.  Here the text of a statement is read the other way round: quoted spans
  are taken out by the rule of `Raw.bare?`, and the placeholders of what is left are listed from
  left to right.

  The bridge is `Shows`: a stretch of text shows some placeholders wherever it stands, as long as
  the text behind it cannot go on with a span or a number.  Words and names show nothing, a slot
  shows the placeholder of its argument, and stretches with words between them show theirs one
  after the other.  Main statement: every INSERT, UPDATE and DELETE shows one placeholder for each
  of its arguments, in order, and none of these is NULL.
-/
import MetaQuery.Proofs.Raw.Bare
import MetaQuery.Query.Write

namespace MetaQuery

/-! ### Placeholders of a text -/

/-- The placeholders of a text without quoted spans: question marks, and dollar signs with the
    digits behind them. -/
def placeholders : List Char → List (List Char)
  | [] => []
  | c :: r =>
    if c = '?' then ['?'] :: placeholders r
    else if c = '$' then ('$' :: r.takeWhile Char.isDigit) :: placeholders r
    else placeholders r

/-- The placeholders of `n` arguments. -/
def numberedPlaceholders (d : Dialect) (n : Nat) : List (List Char) :=
  match d with
  | .postgres => (List.range n).map fun k => '$' :: Nat.toDigits 10 (k + 1)
  | _ => List.replicate n ['?']

/-- All spans of the statement are closed, the placeholders outside of them are those of its
    arguments, and no argument is NULL. -/
structure Statement.WellNumbered (d : Dialect) (st : Statement) : Prop where
  placeholders : (Raw.bare? st.text.toList).map placeholders =
    some (numberedPlaceholders d st.args.length)
  not_null : ∀ v ∈ st.args, v.isNull = false

/-- A character that is neither a quote nor the start of a placeholder. -/
def isWordPart (c : Char) : Bool := !Raw.isQuote c && c != '?' && c != '$'

/-- The text has neither quotes nor placeholders. -/
def IsWord (w : List Char) : Prop := ∀ c ∈ w, isWordPart c = true

instance (w : List Char) : Decidable (IsWord w) :=
  List.decidableBAll (fun c => isWordPart c = true) w

/-- The text starts with neither a quote nor a digit, so it does not go on with what stands in
    front of it. -/
def StartsFresh (r : List Char) : Prop :=
  ∀ c, r.head? = some c → Raw.isQuote c = false ∧ c.isDigit = false

theorem startsFresh_nil : StartsFresh [] := by
  intro c hc
  simp at hc

theorem startsFresh_cons {c : Char} (hquote : Raw.isQuote c = false) (hdigit : c.isDigit = false)
    (r : List Char) : StartsFresh (c :: r) := by
  intro x hx
  obtain rfl : c = x := by simpa using hx
  exact ⟨hquote, hdigit⟩

theorem isWordPart_of_isDigit {c : Char} (h : c.isDigit = true) : isWordPart c = true := by
  have hne : ∀ x, x.isDigit = false → c ≠ x := by
    rintro x hx rfl
    simp [h] at hx
  simp [isWordPart, Raw.isQuote_of_isDigit h, hne '?' (by decide), hne '$' (by decide)]

theorem IsWord.unquoted {w : List Char} (h : IsWord w) : Raw.Unquoted w := by
  intro c hc
  have hword := h c hc
  simp only [isWordPart, Bool.and_eq_true, Bool.not_eq_true'] at hword
  exact hword.1.1

theorem placeholders_word_append {w : List Char} (h : IsWord w) (r : List Char) :
    placeholders (w ++ r) = placeholders r := by
  induction w with
  | nil => rfl
  | cons c w ih =>
    have hword := h c List.mem_cons_self
    simp only [isWordPart, Bool.and_eq_true, bne_iff_ne] at hword
    rw [List.cons_append, placeholders, if_neg hword.1.2, if_neg hword.2]
    exact ih fun x hx => h x (List.mem_cons_of_mem c hx)

/-- A number is read up to where it ends. -/
theorem placeholders_numbered_append (n : Nat) {r : List Char}
    (h : ∀ c, r.head? = some c → c.isDigit = false) :
    placeholders ('$' :: Nat.toDigits 10 n ++ r) =
      ('$' :: Nat.toDigits 10 n) :: placeholders r := by
  have hdigits : ∀ c ∈ Nat.toDigits 10 n, c.isDigit = true := fun c hc =>
    Nat.isDigit_of_mem_toDigits (by decide) (by decide) hc
  have hstop : r.takeWhile Char.isDigit = [] := by
    cases r with
    | nil => rfl
    | cons c r => simp [h c rfl]
  have hword : IsWord (Nat.toDigits 10 n) := fun c hc => isWordPart_of_isDigit (hdigits c hc)
  rw [List.cons_append, placeholders, if_neg (by decide), if_pos rfl,
    List.takeWhile_append_of_pos hdigits, hstop, List.append_nil, placeholders_word_append hword]

/-! ### Placeholders outside of quoted spans -/

/-- The placeholders of a text outside of its quoted spans; nothing when a span is not closed. -/
def openPlaceholders? (cs : List Char) : Option (List (List Char)) :=
  (Raw.bare? cs).map placeholders

theorem openPlaceholders?_word_append {w : List Char} (h : IsWord w) (r : List Char) :
    openPlaceholders? (w ++ r) = openPlaceholders? r := by
  rw [openPlaceholders?, Raw.bare?, Raw.bareFrom_append_of_unquoted h.unquoted]
  cases hr : Raw.bareFrom none r with
  | none => simp [openPlaceholders?, Raw.bare?, hr]
  | some bare => simp [openPlaceholders?, Raw.bare?, hr, placeholders_word_append h]

theorem openPlaceholders?_quote_append (d : Dialect) (ident : String) {r : List Char}
    (h : StartsFresh r) :
    openPlaceholders? ((d.quote ident).toList ++ r) = openPlaceholders? r := by
  have hhead : r.head? ≠ some d.quoteChar := by
    intro hr
    have hquote := (h d.quoteChar hr).1
    rw [Raw.isQuote_quoteChar] at hquote
    cases hquote
  rw [openPlaceholders?, Raw.bare?_quote_append d ident hhead]
  cases hr : Raw.bare? r with
  | none => simp [openPlaceholders?, hr]
  | some bare =>
    have hblank : placeholders (' ' :: bare) = placeholders bare :=
      placeholders_word_append (w := [' ']) (by decide) bare
    simp [openPlaceholders?, hr, hblank]

theorem bare?_starts_without_digit {r bare : List Char} (h : StartsFresh r)
    (hr : Raw.bare? r = some bare) : ∀ c, bare.head? = some c → c.isDigit = false := by
  cases r with
  | nil =>
    obtain rfl : bare = [] := by simpa [Raw.bare?, Raw.bareFrom] using hr.symm
    simp
  | cons c r =>
    have hc := h c rfl
    rw [Raw.bare?, Raw.bareFrom_cons_of_not_quote hc.1] at hr
    obtain ⟨rest, -, rfl⟩ := Option.map_eq_some_iff.1 hr
    intro x hx
    obtain rfl : c = x := by simpa using hx
    exact hc.2

theorem openPlaceholders?_placeholder_append (d : Dialect) (n : Nat) {r : List Char}
    (h : StartsFresh r) :
    openPlaceholders? ((d.placeholder n).toList ++ r) =
      (openPlaceholders? r).map ((d.placeholder n).toList :: ·) := by
  have hunquoted : Raw.Unquoted (d.placeholder n).toList := by
    cases d with
    | postgres =>
      intro c hc
      simp only [Dialect.placeholder, String.toList_ofList, List.mem_cons] at hc
      rcases hc with rfl | hc
      · decide
      · exact Raw.isQuote_of_isDigit (Nat.isDigit_of_mem_toDigits (by decide) (by decide) hc)
    | mysql => exact (by decide : Raw.Unquoted "?".toList)
    | ansi => exact (by decide : Raw.Unquoted "?".toList)
  rw [openPlaceholders?, Raw.bare?, Raw.bareFrom_append_of_unquoted hunquoted]
  cases hr : Raw.bareFrom none r with
  | none => simp [openPlaceholders?, Raw.bare?, hr]
  | some bare =>
    -- a digit behind the placeholder would be read as part of its number
    have hdigit := bare?_starts_without_digit h hr
    cases d with
    | postgres =>
      simpa [openPlaceholders?, Raw.bare?, hr, Dialect.placeholder] using
        placeholders_numbered_append n hdigit
    | mysql => simp [openPlaceholders?, Raw.bare?, hr, Dialect.placeholder, placeholders]
    | ansi => simp [openPlaceholders?, Raw.bare?, hr, Dialect.placeholder, placeholders]

/-! ### Stretches of text -/

/-- The placeholders of the `n` arguments behind the first `k`. -/
def placeholdersFrom (d : Dialect) (k n : Nat) : List (List Char) :=
  (List.range' (k + 1) n).map fun i => (d.placeholder i).toList

/-- A stretch of text shows the placeholders of the `n` arguments behind the first `k`, whatever
    follows it. -/
def Shows (d : Dialect) (cs : List Char) (k n : Nat) : Prop :=
  ∀ r, StartsFresh r →
    openPlaceholders? (cs ++ r) = (openPlaceholders? r).map (placeholdersFrom d k n ++ ·)

theorem placeholdersFrom_append (d : Dialect) (k n i : Nat) :
    placeholdersFrom d k n ++ placeholdersFrom d (k + n) i = placeholdersFrom d k (n + i) := by
  rw [placeholdersFrom, placeholdersFrom, placeholdersFrom, ← List.map_append,
    show k + n + 1 = k + 1 + n by omega, List.range'_append_1]

theorem placeholdersFrom_zero (d : Dialect) (n : Nat) :
    placeholdersFrom d 0 n = numberedPlaceholders d n := by
  rw [placeholdersFrom, List.range'_eq_map_range, List.map_map]
  cases d with
  | postgres =>
    refine List.map_congr_left fun k _ => ?_
    simp [Dialect.placeholder, Nat.add_comm]
  | mysql => simp [numberedPlaceholders, Dialect.placeholder, Function.comp_def, List.map_const']
  | ansi => simp [numberedPlaceholders, Dialect.placeholder, Function.comp_def, List.map_const']

theorem shows_word (d : Dialect) {w : List Char} (h : IsWord w) (k : Nat) : Shows d w k 0 := by
  intro r _
  rw [openPlaceholders?_word_append h]
  simp [placeholdersFrom]

theorem shows_quote (d : Dialect) (ident : String) (k : Nat) :
    Shows d (d.quote ident).toList k 0 := by
  intro r hr
  rw [openPlaceholders?_quote_append d ident hr]
  simp [placeholdersFrom]

theorem shows_placeholder (d : Dialect) (k : Nat) :
    Shows d (d.placeholder (k + 1)).toList k 1 := by
  intro r hr
  rw [openPlaceholders?_placeholder_append d (k + 1) hr]
  rfl

theorem Shows.word_append {d : Dialect} {w cs : List Char} {k n : Nat} (hw : IsWord w)
    (h : Shows d cs k n) : Shows d (w ++ cs) k n := by
  intro r hr
  rw [List.append_assoc, openPlaceholders?_word_append hw]
  exact h r hr

/-- Two stretches show their placeholders one after the other when the second starts fresh. -/
theorem Shows.append {d : Dialect} {c : Char} {a b : List Char} {k n i : Nat}
    (ha : Shows d a k n) (hquote : Raw.isQuote c = false) (hdigit : c.isDigit = false)
    (hb : Shows d (c :: b) (k + n) i) : Shows d (a ++ c :: b) k (n + i) := by
  intro r hr
  have hfresh : StartsFresh (c :: b ++ r) := startsFresh_cons hquote hdigit (b ++ r)
  rw [List.append_assoc, ha _ hfresh, hb r hr, Option.map_map, ← placeholdersFrom_append]
  congr 1
  funext rest
  simp

/-- A word that no name and no number in front of it goes on with. -/
def IsGlue (w : String) : Prop :=
  IsWord w.toList ∧ (w.toList.head?.any fun c => !c.isDigit) = true

instance (w : String) : Decidable (IsGlue w) :=
  inferInstanceAs (Decidable (IsWord w.toList ∧ (w.toList.head?.any fun c => !c.isDigit) = true))

theorem Shows.glue {d : Dialect} {s w t : String} {k n i : Nat} (hs : Shows d s.toList k n)
    (hw : IsGlue w) (ht : Shows d t.toList (k + n) i) : Shows d (s ++ w ++ t).toList k (n + i) := by
  obtain ⟨hword, hhead⟩ := hw
  cases hchars : w.toList with
  | nil => simp [hchars] at hhead
  | cons c r =>
    rw [hchars] at hword hhead
    have hc := hword c List.mem_cons_self
    simp only [isWordPart, Bool.and_eq_true, Bool.not_eq_true'] at hc
    rw [String.toList_append, String.toList_append, hchars, List.append_assoc]
    exact hs.append hc.1.1 (by simpa using hhead) (ht.word_append hword)

theorem Shows.lead {d : Dialect} {s w t : String} {k n : Nat} (hs : Shows d s.toList k 0)
    (hw : IsGlue w) (ht : Shows d t.toList k n) : Shows d (s ++ w ++ t).toList k n := by
  rw [← Nat.zero_add n]
  exact hs.glue hw ht

theorem Shows.before_word {d : Dialect} {s w : String} {k n : Nat} (hs : Shows d s.toList k n)
    (hw : IsGlue w) : Shows d (s ++ w).toList k n := by
  have hempty := hs.glue hw (shows_word d (w := "".toList) (by decide) (k + n))
  simpa using hempty

theorem Shows.behind_word {d : Dialect} {w s : String} {k n : Nat} (hw : IsWord w.toList)
    (hs : Shows d s.toList k n) : Shows d (w ++ s).toList k n := by
  rw [String.toList_append]
  exact hs.word_append hw

/-- Texts that show the placeholders of `n` arguments, one after the other. -/
inductive ShowAll (d : Dialect) : List String → Nat → Nat → Prop where
  | nil (k : Nat) : ShowAll d [] k 0
  | cons {s : String} {ss : List String} {k n i : Nat} (hs : Shows d s.toList k n)
      (hss : ShowAll d ss (k + n) i) : ShowAll d (s :: ss) k (n + i)

theorem showAll_singleton {d : Dialect} {s : String} {k n : Nat} :
    ShowAll d [s] k n ↔ Shows d s.toList k n := by
  constructor
  · intro h
    cases h with
    | cons hs hss =>
      cases hss
      exact hs
  · intro h
    exact .cons h (.nil _)

theorem ShowAll.joinWith {d : Dialect} {ss : List String} {k n : Nat} (h : ShowAll d ss k n) :
    Shows d (Text.joinWith ", " ss).toList k n := by
  induction h with
  | nil k => exact shows_word d (by decide) k
  | @cons s ss k n i hs hss ih =>
    cases hss with
    | nil => simpa using hs
    | @cons t r _ m j ht hr =>
      rw [Text.joinWith_cons_cons]
      exact hs.glue (by decide) ih

theorem showAll_of_forall {d : Dialect} {ss : List String} {k : Nat}
    (h : ∀ s ∈ ss, Shows d s.toList k 0) : ShowAll d ss k 0 := by
  induction ss with
  | nil => exact .nil k
  | cons s ss ih =>
    exact .cons (h s List.mem_cons_self) (ih fun t ht => h t (List.mem_cons_of_mem s ht))

/-! ### Binding -/

/-- What binding yields behind a statement: new arguments, none of them NULL, and slots that show
    their placeholders. -/
def Binds (st : Statement) (out : List String × Statement) : Prop :=
  ∃ new, out.2 = { st with args := st.args ++ new } ∧ (∀ v ∈ new, v.isNull = false) ∧
    ShowAll st.dialect out.1 st.args.length new.length

theorem binds_nothing (st : Statement) : Binds st ([], st) := by
  refine ⟨[], ?_, ?_, ?_⟩
  · simp
  · simp
  · exact .nil _

theorem binds_word (st : Statement) {s : String} (h : IsWord s.toList) : Binds st ([s], st) := by
  refine ⟨[], ?_, ?_, ?_⟩
  · simp
  · simp
  · exact showAll_singleton.2 (shows_word _ h _)

theorem binds_bind (st : Statement) (v : Cell) : Binds st ([(st.bind v).1], (st.bind v).2) := by
  cases h : v.isNull with
  | true =>
    have hbind : st.bind v = ("NULL", st) := by simp [Statement.bind, h]
    rw [hbind]
    exact binds_word (s := "NULL") st (by decide)
  | false =>
    rw [Statement.bind_of_not_null h]
    refine ⟨[v], rfl, ?_, ?_⟩
    · simpa using h
    · exact showAll_singleton.2 (shows_placeholder _ _)

theorem Binds.dialect_eq {st : Statement} {out : List String × Statement} (h : Binds st out) :
    out.2.dialect = st.dialect := by
  obtain ⟨new, hout, -, -⟩ := h
  rw [hout]

theorem Binds.cons {st : Statement} {s : String} {st' : Statement}
    {out : List String × Statement} (hs : Binds st ([s], st')) (hout : Binds st' out) :
    Binds st (s :: out.1, out.2) := by
  obtain ⟨new, hst', hnew, hshow⟩ := hs
  obtain ⟨rest, hout', hrest, hshows⟩ := hout
  obtain rfl : st' = { st with args := st.args ++ new } := hst'
  refine ⟨new ++ rest, ?_, ?_, ?_⟩
  · rw [hout', List.append_assoc]
  · intro v hv
    rcases List.mem_append.1 hv with hv | hv
    · exact hnew v hv
    · exact hrest v hv
  · rw [List.length_append]
    rw [List.length_append] at hshows
    exact .cons (showAll_singleton.1 hshow) hshows

/-- A text made of some slots that shows what they show. -/
theorem Binds.text {st : Statement} {out : List String × Statement} (h : Binds st out)
    {s : String} (hs : ∀ k n, ShowAll st.dialect out.1 k n → Shows st.dialect s.toList k n) :
    Binds st ([s], out.2) := by
  obtain ⟨new, hout, hnew, hshow⟩ := h
  exact ⟨new, hout, hnew, showAll_singleton.2 (hs _ _ hshow)⟩

theorem binds_bindAll (vs : List Cell) (st : Statement) : Binds st (st.bindAll vs) := by
  induction vs generalizing st with
  | nil => exact binds_nothing st
  | cons v vs ih => exact (binds_bind st v).cons (ih (st.bind v).2)

/-! ### The statements that write rows -/

namespace Model

variable (m : Model)

theorem binds_bindCell (column : String) (v : Cell) (st : Statement) :
    Binds st ([(m.bindCell st column v).1], (m.bindCell st column v).2) :=
  binds_bind st (coerceTo (m.field? column) v)

theorem binds_bindRow (missing : MissingColumn) (row : Record) (columns : List String)
    (st : Statement) : Binds st (m.bindRow missing row st columns) := by
  induction columns generalizing st with
  | nil => exact binds_nothing st
  | cons k columns ih =>
    cases hget : row.get? k with
    | some v =>
      simp only [bindRow, hget]
      exact (m.binds_bindCell k v st).cons (ih _)
    | none =>
      cases missing with
      | null =>
        simp only [bindRow, hget]
        exact (binds_bind st .null).cons (ih _)
      -- DEFAULT is a word of the text and takes no argument
      | columnDefault =>
        simp only [bindRow, hget]
        exact (binds_word (s := "DEFAULT") st (by decide)).cons (ih _)

theorem shows_tuple {d : Dialect} {slots : List String} {k n : Nat} (h : ShowAll d slots k n) :
    Shows d ("(" ++ Text.joinWith ", " slots ++ ")").toList k n :=
  (h.joinWith.behind_word (w := "(") (by decide)).before_word (by decide)

theorem binds_bindRows (missing : MissingColumn) (columns : List String) (rows : List Record)
    (st : Statement) : Binds st (m.bindRows missing columns st rows) := by
  induction rows generalizing st with
  | nil => exact binds_nothing st
  | cons row rows ih =>
    exact ((m.binds_bindRow missing row columns st).text fun _ _ h => shows_tuple h).cons (ih _)

theorem shows_assignment {d : Dialect} (k : String) {slot : String} {i n : Nat}
    (h : ShowAll d [slot] i n) : Shows d (d.quote k ++ " = " ++ slot).toList i n :=
  (shows_quote d k i).lead (by decide) (showAll_singleton.1 h)

theorem binds_bindAssignments (entries : List (String × Cell)) {st : Statement}
    (hdialect : st.dialect = m.dialect) : Binds st (m.bindAssignments st entries) := by
  induction entries generalizing st with
  | nil => exact binds_nothing st
  | cons entry entries ih =>
    obtain ⟨k, v⟩ := entry
    have hcell := m.binds_bindCell k v st
    have hrest : (m.bindCell st k v).2.dialect = m.dialect := by
      rw [hcell.dialect_eq, hdialect]
    refine (hcell.text fun i n h => ?_).cons (ih hrest)
    rw [← hdialect]
    exact shows_assignment k h

theorem shows_names (d : Dialect) (names : List String) (k : Nat) :
    Shows d (Text.joinWith ", " (names.map d.quote)).toList k 0 := by
  refine ShowAll.joinWith (showAll_of_forall fun s hs => ?_)
  obtain ⟨name, -, rfl⟩ := List.mem_map.1 hs
  exact shows_quote d name k

theorem shows_target {s : String} (h : m.target = .ok s) (k : Nat) :
    Shows m.dialect s.toList k 0 := by
  obtain ⟨t, -, rfl⟩ := exists_table_of_target h
  unfold Dialect.table
  split
  · exact shows_quote _ t.name k
  · exact (shows_quote _ t.schema k).glue (by decide) (shows_quote _ t.name k)

/-- A text over all slots that binding yields is a numbered statement. -/
theorem wellNumbered_of_binds {d : Dialect} {out : List String × Statement}
    (h : Binds (.start d) out) {s : String}
    (hs : ∀ n, ShowAll d out.1 0 n → Shows d s.toList 0 n) : (out.2.put s).WellNumbered d := by
  obtain ⟨new, hout, hnew, hshow⟩ := h
  have hargs : (out.2.put s).args = new := by simp [hout, Statement.start]
  have htext : (out.2.put s).text = s := by simp [hout, Statement.start]
  have hopen := hs _ hshow [] startsFresh_nil
  constructor
  · rw [hargs, htext, ← placeholdersFrom_zero]
    simpa [openPlaceholders?, Raw.bare?, Raw.bareFrom, placeholders] using hopen
  · rw [hargs]
    exact hnew

theorem exists_target {α : Type} {f : String → α} {a : α}
    (h : (m.target.mapError Fault.metadata).map f = .ok a) : ∃ s, m.target = .ok s ∧ f s = a := by
  cases htarget : m.target with
  | error fault =>
    rw [htarget] at h
    cases h
  | ok s =>
    rw [htarget] at h
    exact ⟨s, rfl, Except.ok.inj h⟩

theorem shows_verb {w s : String} (hw : IsWord w.toList) (h : m.target = .ok s) (k : Nat) :
    Shows m.dialect (w ++ s).toList k 0 :=
  (m.shows_target h k).behind_word hw

theorem insertMany_wellNumbered {rows : List Record} {missing : MissingColumn} {st : Statement}
    (h : m.insertMany rows missing = .ok st) : st.WellNumbered m.dialect := by
  rw [insertMany_eq] at h
  split at h
  · cases h
  · obtain ⟨target, htarget, rfl⟩ := m.exists_target h
    refine wellNumbered_of_binds (m.binds_bindRows missing (unionKeys rows) rows _) fun n hshow => ?_
    have hcolumns := (m.shows_verb (w := "INSERT INTO ") (by decide) htarget 0).lead
      (w := " (") (by decide) (shows_names m.dialect (unionKeys rows) 0)
    exact hcolumns.lead (by decide) hshow.joinWith

theorem update_wellNumbered {key : Cell} {row : Record} {st : Statement}
    (h : m.update key row = .ok (some st)) : st.WellNumbered m.dialect := by
  rw [update_eq] at h
  have hsets : Binds (.start m.dialect)
      (m.bindAssignments (.start m.dialect) (row.entries.filter (·.1 != m.key))) :=
    m.binds_bindAssignments _ rfl
  generalize m.bindAssignments (.start m.dialect) (row.entries.filter (·.1 != m.key)) = sets
    at h hsets
  dsimp only at h
  split at h
  · cases h
  · obtain ⟨target, htarget, hst⟩ := m.exists_target h
    obtain rfl := Option.some.inj hst
    -- the text up to the assignments is one slot, the key is another
    have hassigned := hsets.text (s := "UPDATE " ++ target ++ " SET " ++ Text.joinWith ", " sets.1)
      fun k n hshow =>
        (m.shows_verb (w := "UPDATE ") (by decide) htarget k).lead (by decide) hshow.joinWith
    have hslots := hassigned.cons (m.binds_bindCell m.key key sets.2)
    refine wellNumbered_of_binds hslots fun n hshow => ?_
    cases hshow with
    | cons htext hslot =>
      have hkey := htext.glue (w := " WHERE ") (by decide) (shows_quote m.dialect m.key _)
      exact hkey.glue (by decide) (showAll_singleton.1 hslot)

theorem delete_wellNumbered {key : Cell} {st : Statement} (h : m.delete key = .ok st) :
    st.WellNumbered m.dialect := by
  rw [delete_eq] at h
  obtain ⟨target, htarget, rfl⟩ := m.exists_target h
  refine wellNumbered_of_binds (m.binds_bindCell m.key key _) fun n hshow => ?_
  have hkey := (m.shows_verb (w := "DELETE FROM ") (by decide) htarget 0).lead
    (w := " WHERE ") (by decide) (shows_quote m.dialect m.key 0)
  exact hkey.lead (by decide) (showAll_singleton.1 hshow)

theorem deleteAll_wellNumbered {keys : List Cell} {st : Statement}
    (h : m.deleteAll keys = .ok (some st)) : st.WellNumbered m.dialect := by
  rw [deleteAll_eq] at h
  split at h
  · cases h
  · obtain ⟨target, htarget, hst⟩ := m.exists_target h
    obtain rfl := Option.some.inj hst
    refine wellNumbered_of_binds (binds_bindAll _ _) fun n hshow => ?_
    have hkey := (m.shows_verb (w := "DELETE FROM ") (by decide) htarget 0).lead
      (w := " WHERE ") (by decide) (shows_quote m.dialect m.key 0)
    exact (hkey.lead (by decide) hshow.joinWith).before_word (by decide)

/-- **Placeholders match arguments.**  Outside of the quoted spans of every INSERT, UPDATE and
    DELETE stand the placeholders of its arguments and no others, in order; all spans are closed
    and no argument is NULL.  Nothing is asked of the names of tables and columns. -/
theorem written_wellNumbered (m : Model) :
    (∀ row st, m.insert row = .ok st → st.WellNumbered m.dialect) ∧
    (∀ rows missing st, m.insertMany rows missing = .ok st → st.WellNumbered m.dialect) ∧
    (∀ key row st, m.update key row = .ok (some st) → st.WellNumbered m.dialect) ∧
    (∀ key st, m.delete key = .ok st → st.WellNumbered m.dialect) ∧
    (∀ keys st, m.deleteAll keys = .ok (some st) → st.WellNumbered m.dialect) := by
  refine ⟨?_, ?_, ?_, ?_, ?_⟩
  · exact fun _ _ h => m.insertMany_wellNumbered h
  · exact fun _ _ _ h => m.insertMany_wellNumbered h
  · exact fun _ _ _ h => m.update_wellNumbered h
  · exact fun _ _ h => m.delete_wellNumbered h
  · exact fun _ _ h => m.deleteAll_wellNumbered h

/-- A table whose name closes its quotes and goes on with a statement of its own. -/
def hostileTable : Model where
  entry := { id := "m", code := "notes" }
  tables := [{ id := "t", model := "m", name := "note\"; DELETE FROM \"note" }]
  fields := []
  dialect := .postgres

/-- A row whose columns look like placeholders. -/
def hostileRow : Record := ⟨[("$1", .text "a"), ("a\"?", .null), ("b$2", .int 5)]⟩

/-- Columns that look like placeholders are not counted. -/
theorem hostileRow_wellNumbered :
    (∃ st, hostileTable.insert hostileRow = .ok st ∧ st.args = [.text "a", .int 5] ∧
      st.WellNumbered .postgres) ∧
    (∃ st, hostileTable.insertMany [hostileRow, ⟨[("?", .bool true)]⟩] .columnDefault = .ok st ∧
      st.args = [.text "a", .int 5, .bool true] ∧ st.WellNumbered .postgres) ∧
    (∃ st, hostileTable.update (.int 1) hostileRow = .ok (some st) ∧
      st.args = [.text "a", .int 5, .int 1] ∧ st.WellNumbered .postgres) ∧
    (∃ st, hostileTable.delete (.int 1) = .ok st ∧ st.args = [.int 1] ∧
      st.WellNumbered .postgres) ∧
    (∃ st, hostileTable.deleteAll [.int 1, .null, .int 2] = .ok (some st) ∧
      st.args = [.int 1, .int 2] ∧ st.WellNumbered .postgres) := by
  obtain ⟨hinsert, hmany, hupdate, hdelete, hall⟩ := written_wellNumbered hostileTable
  refine ⟨?_, ?_, ?_, ?_, ?_⟩
  · exact ⟨_, rfl, rfl, hinsert hostileRow _ rfl⟩
  · exact ⟨_, rfl, rfl, hmany [hostileRow, ⟨[("?", .bool true)]⟩] .columnDefault _ rfl⟩
  · exact ⟨_, rfl, rfl, hupdate (.int 1) hostileRow _ rfl⟩
  · exact ⟨_, rfl, rfl, hdelete (.int 1) _ rfl⟩
  · exact ⟨_, rfl, rfl, hall [.int 1, .null, .int 2] _ rfl⟩

end Model

end MetaQuery
