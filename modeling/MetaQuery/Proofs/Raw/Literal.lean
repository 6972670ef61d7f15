/-
  MetaQuery/Proofs/Raw/Literal.lean
  =================================
  A parameter inside a literal is inserted into its text.

  The content of a literal is a row of stretches without a known name and of known names behind
  their colons, and is so in exactly one way (`splitting`).  Where there is a known name, the literal
  becomes a concatenation of these: each stretch is a literal of its own, with its quotes doubled
  again, and each name an argument.  So putting the values where the names stand is all that
  happens: the stretches and the names are the content, no character of it stands outside of
  quotes, and the parentheses around the concatenation close (`literal_inserted`).
-/
import Mathlib.Data.List.Infix
import MetaQuery.Proofs.Raw.Mark
import MetaQuery.Raw.Substitution

namespace MetaQuery.Raw

open Text

/-! ### Names -/

/-- A letter or an underscore, and then letters, underscores and digits. -/
def IsName : List Char → Prop
  | [] => False
  | c :: r => isNameStart c = true ∧ ∀ d ∈ r, isNameRest d = true

/-- A name in front of this text does not go on with it. -/
def EndsName (rest : List Char) : Prop := ∀ c ∈ rest.head?, isNameRest c = false

theorem IsName.ne_nil {n : List Char} (h : IsName n) : n ≠ [] := by
  rintro rfl
  exact h

theorem IsName.rest {n : List Char} (h : IsName n) : ∀ c ∈ n, isNameRest c = true := by
  cases n with
  | nil => exact h.elim
  | cons c r =>
    intro d hd
    rcases List.mem_cons.1 hd with rfl | hd
    · simp [isNameRest, h.1]
    · exact h.2 d hd

/-- The longest name is taken. -/
theorem takeName_append_eq {n rest : List Char} (hn : IsName n) (hrest : EndsName rest) :
    takeName (n ++ rest) = (n, rest) := by
  cases n with
  | nil => exact hn.elim
  | cons c r =>
    have hstop : rest.takeWhile isNameRest = [] ∧ rest.dropWhile isNameRest = rest := by
      cases rest with
      | nil => exact ⟨rfl, rfl⟩
      | cons d rest =>
        have hd : isNameRest d = false := hrest d rfl
        simp [hd]
    rw [List.cons_append, takeName, if_pos hn.1, List.takeWhile_append_of_pos hn.2,
      List.dropWhile_append_of_pos hn.2, hstop.1, hstop.2, List.append_nil]

theorem isName_takeName {cs : List Char} (h : (takeName cs).1 ≠ []) :
    IsName (takeName cs).1 ∧ EndsName (takeName cs).2 := by
  cases cs with
  | nil => exact absurd rfl h
  | cons c r =>
    cases hc : isNameStart c with
    | false => simp [takeName, hc] at h
    | true =>
      rw [takeName, if_pos hc]
      refine ⟨⟨hc, List.all_eq_true.1 List.all_takeWhile⟩, fun d hd => ?_⟩
      have hstop := List.head?_dropWhile_not isNameRest r
      rw [Option.mem_def] at hd
      rw [hd] at hstop
      simpa using hstop

section
variable (params : Params)

/-- The value of a parameter. -/
def valueOf (n : List Char) : Cell :=
  match Json.lookup (String.ofList n) params with
  | some v => Cell.ofJson v
  | none => .null

/-- The known name at the start of a text, behind its colon. -/
def knownNameAt : List Char → Option (List Char)
  | [] => none
  | c :: r =>
    if c = ':' ∧ (takeName r).1 ≠ [] ∧
        (Json.lookup (String.ofList (takeName r).1) params).isSome = true then
      some (takeName r).1
    else none

/-- The known names of a text, at whatever position they stand, from left to right. -/
def knownNames (cs : List Char) : List (List Char) := cs.tails.filterMap (knownNameAt params)

variable {params}

/-- A known name is a longest one behind a colon that has a value. -/
theorem knownNameAt_eq_some_iff {cs n : List Char} : knownNameAt params cs = some n ↔
    ∃ rest, cs = ':' :: (n ++ rest) ∧ IsName n ∧ EndsName rest ∧
      (Json.lookup (String.ofList n) params).isSome = true := by
  constructor
  · intro h
    cases cs with
    | nil => cases h
    | cons c r =>
      rw [knownNameAt] at h
      split at h
      · next hknown =>
        obtain ⟨rfl, hname, hvalue⟩ := hknown
        obtain rfl := Option.some.inj h
        obtain ⟨hn, hrest⟩ := isName_takeName hname
        exact ⟨(takeName r).2, by rw [takeName_append], hn, hrest, hvalue⟩
      · cases h
  · rintro ⟨rest, rfl, hn, hrest, hvalue⟩
    rw [knownNameAt, takeName_append_eq hn hrest, if_pos ⟨rfl, hn.ne_nil, hvalue⟩]

theorem knownNameAt_cons_of_ne {c : Char} (hc : c ≠ ':') (r : List Char) :
    knownNameAt params (c :: r) = none := by
  rw [knownNameAt, if_neg fun h => hc h.1]

theorem lookup_takeName_of_none {r : List Char} (h : knownNameAt params (':' :: r) = none)
    (hname : (takeName r).1 ≠ []) : Json.lookup (String.ofList (takeName r).1) params = none := by
  rw [knownNameAt] at h
  split at h
  · cases h
  · next hunknown =>
    rw [← Option.not_isSome_iff_eq_none]
    exact fun hsome => hunknown ⟨rfl, hname, hsome⟩

theorem knownNames_cons_of_none {c : Char} {r : List Char}
    (h : knownNameAt params (c :: r) = none) : knownNames params (c :: r) = knownNames params r := by
  rw [knownNames, List.tails, List.filterMap_cons_none h, ← knownNames]

theorem knownNames_name_append {n rest : List Char} (hn : IsName n) (hrest : EndsName rest)
    (hvalue : (Json.lookup (String.ofList n) params).isSome = true) :
    knownNames params (':' :: (n ++ rest)) = n :: knownNames params rest := by
  -- no name begins inside the name: its characters are no colons
  have hskip : ∀ m : List Char, (∀ c ∈ m, isNameRest c = true) →
      knownNames params (m ++ rest) = knownNames params rest := by
    intro m hm
    induction m with
    | nil => rfl
    | cons c m ih =>
      have hc : c ≠ ':' := by
        rintro rfl
        exact absurd (hm ':' List.mem_cons_self) (by decide)
      rw [List.cons_append, knownNames_cons_of_none (knownNameAt_cons_of_ne hc _)]
      exact ih fun d hd => hm d (List.mem_cons_of_mem c hd)
  have hfirst : knownNameAt params (':' :: (n ++ rest)) = some n :=
    knownNameAt_eq_some_iff.2 ⟨rest, rfl, hn, hrest, hvalue⟩
  rw [knownNames, List.tails, List.filterMap_cons_some hfirst, ← knownNames, hskip n hn.rest]

end

/-! ### Stretches and names -/

/-- A stretch of a literal without a known name, or a known name. -/
inductive LiteralWord where
  | text (cs : List Char)
  | name (n : List Char)
deriving DecidableEq, Repr

namespace LiteralWord

/-- What the word is written as in the literal. -/
def written : LiteralWord → List Char
  | .text cs => cs
  | .name n => ':' :: n

/-- The name, if the word is one. -/
def name? : LiteralWord → Option (List Char)
  | .text _ => none
  | .name n => some n

variable (params : Params)

/-- Where the word may stand: a name is known, and a longest one; no known name starts inside of a
    stretch, and one starts behind it, or the literal ends there. -/
def Fits : LiteralWord → List Char → Prop
  | .text t, rest => t ≠ [] ∧
      (∀ u v, t = u ++ v → v ≠ [] → knownNameAt params (v ++ rest) = none) ∧
      (rest = [] ∨ (knownNameAt params rest).isSome = true)
  | .name n, rest => IsName n ∧ EndsName rest ∧
      (Json.lookup (String.ofList n) params).isSome = true

variable {params} {r s : List Char}

theorem Fits.written_ne_nil {w : LiteralWord} (h : w.Fits params r) : w.written ≠ [] := by
  cases w with
  | text t => exact h.1
  | name n => exact List.cons_ne_nil _ _

theorem Fits.knownNameAt_text {t : List Char} (h : (text t).Fits params r) :
    knownNameAt params (t ++ r) = none := h.2.1 [] t rfl h.1

theorem Fits.knownNameAt_name {n : List Char} (h : (name n).Fits params r) :
    knownNameAt params (':' :: (n ++ r)) = some n :=
  knownNameAt_eq_some_iff.2 ⟨r, rfl, h.1, h.2.1, h.2.2⟩

/-- What every character of a stretch keeps, the stretch keeps. -/
theorem Fits.text_induction {t : List Char} (h : (text t).Fits params r) {P : List Char → Prop}
    (hnil : P [])
    (hcons : ∀ x v, knownNameAt params (x :: (v ++ r)) = none → P v → P (x :: v)) : P t := by
  have hsuffix : ∀ v u, t = u ++ v → P v := by
    intro v
    induction v with
    | nil => exact fun _ _ => hnil
    | cons x v ih =>
      intro u hu
      refine hcons x v (h.2.1 u (x :: v) hu (List.cons_ne_nil x v)) (ih (u ++ [x]) ?_)
      rw [hu, List.append_assoc, List.singleton_append]
  exact hsuffix t [] rfl

/-- A stretch goes on to the next known name. -/
theorem Fits.le_of_text {t t' : List Char} (h : (text t).Fits params r)
    (h' : (text t').Fits params s) (heq : t ++ r = t' ++ s) : t'.length ≤ t.length := by
  by_contra hlt
  have hprefix : t <+: t' := by
    refine List.prefix_of_prefix_length_le (heq ▸ List.prefix_append t r)
      (List.prefix_append t' s) (by omega)
  obtain ⟨v, rfl⟩ := hprefix
  have hv : v ≠ [] := by
    rintro rfl
    simp at hlt
  have hr : r = v ++ s := by
    rw [List.append_assoc] at heq
    exact List.append_cancel_left heq
  -- were the other stretch longer, a name known to the params would begin inside it
  have hnone := h'.2.1 t v rfl hv
  rw [← hr] at hnone
  rcases h.2.2 with hempty | hsome
  · rw [hempty] at hr
    exact hv (List.append_eq_nil_iff.1 hr.symm).1
  · rw [hnone] at hsome
    cases hsome

theorem unique {x y : LiteralWord} (hx : x.Fits params r) (hy : y.Fits params s)
    (h : x.written ++ r = y.written ++ s) : x = y := by
  cases x with
  | text t =>
    cases y with
    | text t' =>
      -- both are the longest text in front of a name or the end
      have hlength := Nat.le_antisymm (hy.le_of_text hx h.symm) (hx.le_of_text hy h)
      obtain rfl : t = t' := (List.append_inj h hlength).1
      rfl
    | name n =>
      have hnone := hx.knownNameAt_text
      rw [show t ++ r = ':' :: (n ++ s) from h, hy.knownNameAt_name] at hnone
      cases hnone
  | name n =>
    cases y with
    | text t =>
      have hnone := hy.knownNameAt_text
      rw [show t ++ s = ':' :: (n ++ r) from h.symm, hx.knownNameAt_name] at hnone
      cases hnone
    | name n' =>
      have hname := congrArg (knownNameAt params) h
      rw [written, written, List.cons_append, List.cons_append, hx.knownNameAt_name,
        hy.knownNameAt_name] at hname
      rw [Option.some.inj hname]

theorem fits_text_singleton {x : Char} (hx : knownNameAt params (x :: r) = none)
    (hr : r = [] ∨ (knownNameAt params r).isSome = true) : (text [x]).Fits params r := by
  refine ⟨List.cons_ne_nil x [], fun u v huv hv => ?_, hr⟩
  cases u with
  | nil =>
    obtain rfl : [x] = v := huv
    exact hx
  | cons y u => exact absurd (List.append_eq_nil_iff.1 (List.cons.inj huv).2.symm).2 hv

theorem Fits.text_cons {x : Char} {t : List Char} (h : (text t).Fits params r)
    (hx : knownNameAt params (x :: (t ++ r)) = none) : (text (x :: t)).Fits params r := by
  refine ⟨List.cons_ne_nil x t, fun u v huv hv => ?_, h.2.2⟩
  cases u with
  | nil =>
    obtain rfl : x :: t = v := huv
    exact hx
  | cons y u => exact h.2.1 u v (List.cons.inj huv).2 hv

theorem exists_fits {cs : List Char} (h : cs ≠ []) :
    ∃ (w : LiteralWord) (rest : List Char), cs = w.written ++ rest ∧ w.Fits params rest := by
  induction cs with
  | nil => exact absurd rfl h
  | cons c r ih =>
    cases hname : knownNameAt params (c :: r) with
    | some n =>
      obtain ⟨rest, hcs, hn, hrest, hvalue⟩ := knownNameAt_eq_some_iff.1 hname
      exact ⟨.name n, rest, hcs, hn, hrest, hvalue⟩
    | none =>
      -- no name begins here: the character joins the stretch behind it, or is one itself
      by_cases hr : r = []
      · exact ⟨.text [c], r, rfl, fits_text_singleton hname (.inl hr)⟩
      · obtain ⟨w, rest, hcs, hw⟩ := ih hr
        cases w with
        | name n =>
          have hsome : (knownNameAt params r).isSome = true := by
            rw [hcs, written, List.cons_append, hw.knownNameAt_name]
            rfl
          exact ⟨.text [c], r, rfl, fits_text_singleton hname (.inr hsome)⟩
        | text t =>
          obtain rfl : r = t ++ rest := hcs
          exact ⟨.text (c :: t), rest, rfl, hw.text_cons hname⟩

end LiteralWord

/-- Contents of literals read by the known names in them. -/
def splitting (params : Params) : Grammar LiteralWord where
  text := LiteralWord.written
  fits := LiteralWord.Fits params
  text_ne_nil := LiteralWord.Fits.written_ne_nil
  unique := LiteralWord.unique
  total := LiteralWord.exists_fits

section
variable {params : Params} {c : List Char} {ws : List LiteralWord}

theorem reads_stretch_iff {t : List Char} : (splitting params).Reads c (.text t :: ws) ↔
    ∃ rest, c = t ++ rest ∧ (LiteralWord.text t).Fits params rest ∧
      (splitting params).Reads rest ws := Iff.rfl

theorem reads_name_iff {n : List Char} : (splitting params).Reads c (.name n :: ws) ↔
    ∃ rest, c = ':' :: (n ++ rest) ∧ (LiteralWord.name n).Fits params rest ∧
      (splitting params).Reads rest ws := Iff.rfl

/-- The names among the words are the known names of the content, from left to right. -/
theorem filterMap_name?_of_reads (h : (splitting params).Reads c ws) :
    ws.filterMap LiteralWord.name? = knownNames params c := by
  induction ws generalizing c with
  | nil =>
    obtain rfl : c = [] := h
    rfl
  | cons w ws ih =>
    cases w with
    | text t =>
      obtain ⟨rest, rfl, hw, hrest⟩ := reads_stretch_iff.1 h
      -- a stretch of text holds no known name, character by character
      have hskip : knownNames params (t ++ rest) = knownNames params rest :=
        hw.text_induction (P := fun v => knownNames params (v ++ rest) = knownNames params rest) rfl
          fun x v hnone ihv => (knownNames_cons_of_none hnone).trans ihv
      rw [List.filterMap_cons_none (by rfl), ih hrest]
      exact hskip.symm
    | name n =>
      obtain ⟨rest, rfl, hw, hrest⟩ := reads_name_iff.1 h
      rw [List.filterMap_cons_some (by rfl), ih hrest]
      exact (knownNames_name_append hw.1 hw.2.1 hw.2.2).symm

/-! ### The parts of a literal -/

/-- A word as a part of a concatenation. -/
def LiteralWord.part (params : Params) : LiteralWord → LiteralPart
  | .text t => .text t
  | .name n => .arg (valueOf params n)

theorem prepend_prepend (a b : List Char) (parts : List LiteralPart) :
    prepend a (prepend b parts) = prepend (a ++ b) parts := by
  cases parts with
  | nil => rfl
  | cons p r =>
    cases p with
    | text ds => simp [prepend]
    | arg v => rfl

/-- The characters of a name have no colon among them, so they are text. -/
theorem literalParts_append_of_rest (params : Params) {m : List Char}
    (hm : ∀ c ∈ m, isNameRest c = true) (hne : m ≠ []) (r : List Char) :
    literalParts params (pieces (m ++ r)) = prepend m (literalParts params (pieces r)) := by
  induction m with
  | nil => exact absurd rfl hne
  | cons y m ih =>
    have hy : y ≠ ':' := by
      rintro rfl
      exact absurd (hm ':' List.mem_cons_self) (by decide)
    rw [List.cons_append, pieces, if_neg fun h => hy h.1, literalParts]
    by_cases hone : m = []
    · rw [hone]
      rfl
    · rw [ih (fun d hd => hm d (List.mem_cons_of_mem y hd)) hone, prepend_prepend]
      rfl

/-- A character that starts no known name is text. -/
theorem literalParts_cons_of_none {x : Char} {r : List Char}
    (h : knownNameAt params (x :: r) = none) :
    literalParts params (pieces (x :: r)) = prepend [x] (literalParts params (pieces r)) := by
  by_cases hname : x = ':' ∧ (takeName r).1 ≠ []
  · obtain ⟨rfl, hne⟩ := hname
    -- the name is not known, so it is text as well, behind the colon
    have hvalue := lookup_takeName_of_none h hne
    have hname := (isName_takeName hne).1.rest
    have htext := literalParts_append_of_rest params hname hne (takeName r).2
    rw [takeName_append] at htext
    rw [pieces, if_pos ⟨rfl, by simpa using hne⟩, literalParts, hvalue, htext, prepend_prepend]
    rfl
  · rw [pieces, if_neg (fun hx => hname ⟨hx.1, by simpa using hx.2⟩), literalParts]

theorem literalParts_name_append {n rest : List Char} (hn : IsName n) (hrest : EndsName rest)
    (hvalue : (Json.lookup (String.ofList n) params).isSome = true) :
    literalParts params (pieces (':' :: (n ++ rest))) =
      .arg (valueOf params n) :: literalParts params (pieces rest) := by
  obtain ⟨v, hv⟩ := Option.isSome_iff_exists.1 hvalue
  rw [pieces, takeName_append_eq hn hrest, if_pos ⟨rfl, by simpa using hn.ne_nil⟩, literalParts, hv,
    valueOf, hv]

/-- A literal is cut into its words. -/
theorem literalParts_of_reads (h : (splitting params).Reads c ws) :
    literalParts params (pieces c) = ws.map (LiteralWord.part params) := by
  induction ws generalizing c with
  | nil =>
    obtain rfl : c = [] := h
    rw [pieces]
    rfl
  | cons w ws ih =>
    cases w with
    | text t =>
      obtain ⟨rest, rfl, hw, hrest⟩ := reads_stretch_iff.1 h
      have hstretch : t = [] ∨ literalParts params (pieces (t ++ rest)) =
          prepend t (literalParts params (pieces rest)) := by
        refine hw.text_induction (P := fun v => v = [] ∨ literalParts params (pieces (v ++ rest)) =
          prepend v (literalParts params (pieces rest))) (.inl rfl) fun x v hnone ihv => .inr ?_
        rw [List.cons_append, literalParts_cons_of_none hnone]
        rcases ihv with rfl | ihv
        · rfl
        · rw [ihv, prepend_prepend]
          rfl
      refine (hstretch.resolve_left hw.1).trans ?_
      rw [ih hrest, List.map_cons]
      -- no second stretch stands behind the first, so the two are not joined
      cases ws with
      | nil => rfl
      | cons w' ws =>
        cases w' with
        | name n => rfl
        | text t' =>
          obtain ⟨rest', rfl, hw', -⟩ := reads_stretch_iff.1 hrest
          rcases hw.2.2 with hempty | hsome
          · exact absurd (List.append_eq_nil_iff.1 hempty).1 hw'.1
          · rw [hw'.knownNameAt_text] at hsome
            cases hsome
    | name n =>
      obtain ⟨rest, rfl, hw, hrest⟩ := reads_name_iff.1 h
      rw [List.map_cons, ← ih hrest]
      exact literalParts_name_append hw.1 hw.2.1 hw.2.2

end

/-! ### Concatenations -/

/-- A word in a concatenation: a literal of its own, or an argument. -/
def LiteralWord.mark (params : Params) : LiteralWord → Mark
  | .text t => .lexeme (.span '\'' t)
  | .name n => .arg (valueOf params n)

/-- The words of a literal with separators between them. -/
def separated (params : Params) (d : Dialect) (ws : List LiteralWord) : List Mark :=
  List.intercalate (charMarks (concatSeparator d).toList) (ws.map fun w => [w.mark params])

/-- The words of a literal as a concatenation. -/
def concatenation (params : Params) (d : Dialect) (ws : List LiteralWord) : List Mark :=
  charMarks (concatOpening d).toList ++ (separated params d ws ++ charMarks ")".toList)

section
variable {params : Params} {c : List Char} {ws : List LiteralWord}

theorem separated_cons_cons (d : Dialect) (w w' : LiteralWord) (ws : List LiteralWord) :
    separated params d (w :: w' :: ws) =
      w.mark params :: (charMarks (concatSeparator d).toList ++ separated params d (w' :: ws)) := by
  rw [separated, List.map_cons, List.map_cons, List.intercalate_cons_cons]
  rfl

theorem separated_singleton (d : Dialect) (w : LiteralWord) :
    separated params d [w] = [w.mark params] := List.intercalate_singleton

theorem items_putLiteralPart (f : Fragment) (w : LiteralWord) :
    (putLiteralPart f (w.part params)).items = f.items ++ (w.mark params).items := by
  cases w with
  | text t =>
    rw [LiteralWord.part, putLiteralPart, Fragment.items_putText, String.toList_ofList]
    rfl
  | name n => exact Fragment.items_putArg f _

theorem items_putLiteralParts (d : Dialect) (f : Fragment) (ws : List LiteralWord) :
    (putLiteralParts d f (ws.map (LiteralWord.part params))).items =
      f.items ++ (separated params d ws).flatMap Mark.items := by
  induction ws generalizing f with
  | nil => exact (List.append_nil _).symm
  | cons w ws ih =>
    cases ws with
    | nil =>
      rw [separated_singleton, List.flatMap_singleton]
      exact items_putLiteralPart f w
    | cons w' ws =>
      have hstep := ih ((putLiteralPart f (w.part params)).putText (concatSeparator d))
      rw [Fragment.items_putText, items_putLiteralPart, List.append_assoc, List.append_assoc] at hstep
      rw [separated_cons_cons, List.flatMap_cons, List.flatMap_append, flatMap_items_charMarks]
      exact hstep

theorem any_isArg_iff (params : Params) (ws : List LiteralWord) :
    (ws.map (LiteralWord.part params)).any (·.isArg) = true ↔
      ws.filterMap LiteralWord.name? ≠ [] := by
  induction ws with
  | nil => simp
  | cons w ws ih =>
    cases w with
    | text t => exact ih
    | name n => simp [LiteralWord.part, LiteralPart.isArg, LiteralWord.name?]

/-- A literal behind a fragment, mark by mark. -/
theorem items_putLiteral (h : (splitting params).Reads c ws) (d : Dialect) (f : Fragment) :
    (knownNames params c = [] → putLiteral params d f c = f.putText (String.ofList (quoteLiteral c))) ∧
      (knownNames params c ≠ [] → (putLiteral params d f c).items =
        f.items ++ (concatenation params d ws).flatMap Mark.items) := by
  have hnames := filterMap_name?_of_reads h
  have hany := any_isArg_iff params ws
  rw [hnames] at hany
  rw [putLiteral, literalParts_of_reads h]
  constructor
  · intro hnone
    rw [if_neg fun hsome => hany.1 hsome hnone]
  · intro hsome
    rw [if_pos (hany.2 hsome), Fragment.items_putText, items_putLiteralParts,
      Fragment.items_putText, concatenation, List.flatMap_append, List.flatMap_append,
      flatMap_items_charMarks, flatMap_items_charMarks]
    simp only [List.append_assoc]

theorem items_putLiteral_eq_append (params : Params) (d : Dialect) (f : Fragment)
    (c : List Char) :
    (putLiteral params d f c).items = f.items ++ (putLiteral params d .empty c).items := by
  obtain ⟨ws, hws⟩ := (splitting params).exists_reads c
  have hput := items_putLiteral hws d
  by_cases hnone : knownNames params c = []
  · rw [(hput f).1 hnone, (hput .empty).1 hnone, Fragment.items_putText, Fragment.items_putText,
      Fragment.items_empty, List.nil_append]
  · rw [(hput f).2 hnone, (hput .empty).2 hnone, Fragment.items_empty, List.nil_append]

/-! ### What is written for a concatenation -/

theorem filterMap_arg?_concatenation (d : Dialect) (ws : List LiteralWord) :
    (concatenation params d ws).filterMap Mark.arg? =
      (ws.filterMap LiteralWord.name?).map (valueOf params) := by
  have hseparated : (separated params d ws).filterMap Mark.arg? =
      (ws.filterMap LiteralWord.name?).map (valueOf params) := by
    induction ws with
    | nil => rfl
    | cons w ws ih =>
      -- what separates two words is text, so it adds no argument
      have hcons : (separated params d (w :: ws)).filterMap Mark.arg? =
          [w.mark params].filterMap Mark.arg? ++ (separated params d ws).filterMap Mark.arg? := by
        cases ws with
        | nil => rw [separated_singleton]; exact (List.append_nil _).symm
        | cons w' ws =>
          rw [separated_cons_cons, ← List.singleton_append, List.filterMap_append,
            List.filterMap_append, filterMap_arg?_charMarks, List.nil_append]
      rw [hcons, ih]
      cases w with
      | text t => rfl
      | name n => rfl
  rw [concatenation, List.filterMap_append, List.filterMap_append, filterMap_arg?_charMarks,
    filterMap_arg?_charMarks, hseparated, List.nil_append, List.append_nil]

theorem mem_separated {d : Dialect} {ws : List LiteralWord} {m : Mark}
    (h : m ∈ separated params d ws) :
    m ∈ charMarks (concatSeparator d).toList ∨ ∃ w : LiteralWord, m = w.mark params := by
  induction ws with
  | nil => cases h
  | cons w ws ih =>
    cases ws with
    | nil =>
      rw [separated_singleton] at h
      exact .inr ⟨w, List.mem_singleton.1 h⟩
    | cons w' ws =>
      rw [separated_cons_cons] at h
      rcases List.mem_cons.1 h with rfl | h
      · exact .inr ⟨w, rfl⟩
      · exact (List.mem_append.1 h).elim .inl ih

theorem opened_notMem_concatenation (d : Dialect) (ws : List LiteralWord) (q : Char)
    (body : List Char) : .lexeme (.opened q body) ∉ concatenation params d ws := by
  -- brackets, commas and operators are characters; the words are closed literals or arguments
  have hchars : ∀ cs : List Char, .lexeme (.opened q body) ∉ charMarks cs := by
    intro cs h
    obtain ⟨c, -, hc⟩ := List.mem_map.1 h
    cases hc
  intro h
  rcases List.mem_append.1 h with h | h
  · exact hchars _ h
  rcases List.mem_append.1 h with h | h
  · rcases mem_separated h with h | ⟨w, hw⟩
    · exact hchars _ h
    · cases w with
      | text t => cases hw
      | name n => cases hw
  · exact hchars _ h

theorem unquoted_concatSeparator (d : Dialect) : Unquoted (concatSeparator d).toList := by
  cases d <;> decide

/-- A concatenation is read as its words, whatever follows it. -/
theorem readsBack_concatenation_append (params : Params) (d : Dialect) (ws : List LiteralWord)
    {tail : List Mark} (h : ReadsBack d tail) : ReadsBack d (concatenation params d ws ++ tail) := by
  have hclosing : ReadsBack d (charMarks ")".toList ++ tail) := h.chars_append (by decide)
  have hword : ∀ (w : LiteralWord) {ms : List Mark}, Mark.head? ms ≠ some '\'' →
      ReadsBack d ms → ReadsBack d (w.mark params :: ms) := by
    intro w ms hhead hms
    cases w with
    | text t => exact hms.span (by decide) t hhead
    | name n => exact hms.arg _
  -- each word is followed by a comma, a bar or the bracket, never by a quote that would prolong it
  have hwords : ReadsBack d (separated params d ws ++ (charMarks ")".toList ++ tail)) := by
    induction ws with
    | nil => exact hclosing
    | cons w ws ih =>
      cases ws with
      | nil =>
        rw [separated_singleton]
        exact hword w (show some ')' ≠ some '\'' by decide) hclosing
      | cons w' ws =>
        rw [separated_cons_cons, List.cons_append, List.append_assoc]
        refine hword w ?_ (ih.chars_append (unquoted_concatSeparator d))
        cases d with
        | mysql => exact show some ',' ≠ some '\'' by decide
        | postgres => exact show some ' ' ≠ some '\'' by decide
        | ansi => exact show some ' ' ≠ some '\'' by decide
  have hopening : Unquoted (concatOpening d).toList := by cases d <;> decide
  rw [concatenation, List.append_assoc, List.append_assoc]
  exact hwords.chars_append hopening

/-- The parentheses of a concatenation close. -/
theorem nested_concatenation (d : Dialect) (ws : List LiteralWord) (n : Nat) :
    Nested 0 (Mark.render d n (concatenation params d ws)) := by
  have hseparator : '(' ∉ (concatSeparator d).toList ∧ ')' ∉ (concatSeparator d).toList := by
    cases d <;> decide
  -- brackets inside a word are inside its quotes and not counted
  have hwords : ∀ c, .lexeme (.char c) ∈ separated params d ws → c ≠ '(' ∧ c ≠ ')' := by
    intro c h
    rcases mem_separated h with h | ⟨w, hw⟩
    · obtain ⟨c', hc', heq⟩ := List.mem_map.1 h
      cases heq
      exact ⟨ne_of_mem_of_not_mem hc' hseparator.1, ne_of_mem_of_not_mem hc' hseparator.2⟩
    · cases w with
      | text t => cases hw
      | name n => cases hw
  have hclosing : ∀ n, Nested 1 (Mark.render d n (charMarks ")".toList)) := by
    intro n
    exact ⟨Nat.one_pos, rfl⟩
  have hinside := nested_render_append hwords hclosing
  obtain ⟨word, hopening, hword⟩ :
      ∃ word, (concatOpening d).toList = word ++ ['('] ∧ '(' ∉ word ∧ ')' ∉ word := by
    cases d with
    | mysql => exact ⟨"CONCAT".toList, rfl, by decide⟩
    | postgres => exact ⟨[], rfl, by decide⟩
    | ansi => exact ⟨[], rfl, by decide⟩
  rw [concatenation, render_charMarks_append, hopening, List.map_append, List.append_assoc]
  exact (nested_chars_append hword 0 _).2 (hinside n)

end

/-! ### Literals in a text -/

/-- Behind its opening quote, a literal is a span. -/
theorem readLiteral_eq_readSpan (cs : List Char) : readLiteral cs = readSpan '\'' cs := by
  fun_induction readLiteral cs with
  | case1 => rfl
  | case2 r content rest heq ih =>
    simp [readSpan, ← ih, heq]
  -- a quote that no second one follows ends both readings
  | case3 r hr =>
    cases r with
    | nil => rfl
    | cons d r =>
      have hd : d ≠ '\'' := by
        rintro rfl
        exact hr r rfl rfl
      simp [readSpan, hd]
  | case4 c r _ hc content rest heq ih =>
    rw [readSpan_cons_of_ne hc, ← ih, heq]

theorem tokens_quote {r content : List Char} {rest : Option (List Char)}
    (h : readLiteral r = (content, rest)) : tokens ('\'' :: r) =
      .literal content rest.isSome :: (rest.map tokens).getD [] := by
  rw [tokens.eq_def]
  simp only [if_pos]
  split
  · next heq =>
    rw [h] at heq
    obtain ⟨rfl, rfl⟩ := Prod.mk.inj heq
    rfl
  · next heq =>
    rw [h] at heq
    obtain ⟨rfl, rfl⟩ := Prod.mk.inj heq
    rfl

/-- A literal is one token. -/
theorem tokens_quoteLiteral_append (c : List Char) {rest : List Char} (h : rest.head? ≠ some '\'') :
    tokens (quoteLiteral c ++ rest) = .literal c true :: tokens rest := by
  have hread := readSpan_double_append '\'' c h
  rw [← readLiteral_eq_readSpan] at hread
  rw [quoteLiteral, Lexeme.enclose_append, tokens_quote hread]
  rfl

/-- A literal that is not closed is one token with all that follows. -/
theorem tokens_open_literal (c : List Char) :
    tokens ('\'' :: double '\'' c) = [.literal c false] := by
  have hread := readSpan_double '\'' c
  rw [← readLiteral_eq_readSpan] at hread
  exact tokens_quote hread

theorem substitute_quoteLiteral (params : Params) (d : Dialect) (c : List Char) :
    substitute params d (quoteLiteral c) = putLiteral params d .empty c := by
  have hend : ([] : List Char).head? ≠ some '\'' := nofun
  have htokens := tokens_quoteLiteral_append c hend
  rw [List.append_nil, show tokens [] = [] by rw [tokens]] at htokens
  rw [substitute, htokens]
  rfl

/-- A literal with known names in it: its words put together, with the values in their places. -/
structure Inserts (params : Params) (d : Dialect) (c : List Char) (ws : List LiteralWord)
    (f : Fragment) : Prop where
  items : f.items = (concatenation params d ws).flatMap Mark.items
  args : f.args = (knownNames params c).map (valueOf params)
  /-- Outside of the literals of its stretches stand only the characters that put them together,
      and those of the placeholders. -/
  reads : ∀ n, quoting.Reads (Part.render d n f.parts).toList
    (Mark.render d n (concatenation params d ws))
  closed : ∀ n, AllClosed (Mark.render d n (concatenation params d ws))
  nested : ∀ n, Nested 0 (Mark.render d n (concatenation params d ws))

/-- **A parameter inside a literal is inserted into its text.**  The content is read in one way as
    stretches and known names, which written back are the content.  Without a known name, the
    literal stays as it is; else it becomes the concatenation of the stretches and the values of
    the names, in their order, and its quotes and parentheses are closed.  What is written for a
    literal is the same wherever it stands. -/
theorem literal_inserted (params : Params) (d : Dialect) (c : List Char) :
    ∃ ws, (splitting params).Reads c ws ∧ ws.flatMap LiteralWord.written = c ∧
      ws.filterMap LiteralWord.name? = knownNames params c ∧
      (knownNames params c = [] → substitute params d (quoteLiteral c) =
        .ofText (String.ofList (quoteLiteral c))) ∧
      (knownNames params c ≠ [] → Inserts params d c ws (substitute params d (quoteLiteral c))) ∧
      ∀ f, (putLiteral params d f c).items =
        f.items ++ (substitute params d (quoteLiteral c)).items := by
  obtain ⟨ws, hws⟩ := (splitting params).exists_reads c
  have hnames := filterMap_name?_of_reads hws
  have hput := items_putLiteral hws d
  rw [substitute_quoteLiteral]
  refine ⟨ws, hws, hws.flatMap_text, hnames, (hput .empty).1, fun hsome => ?_,
    fun f => items_putLiteral_eq_append params d f c⟩
  have hitems := (hput .empty).2 hsome
  rw [Fragment.items_empty, List.nil_append] at hitems
  have hreads := readsBack_concatenation_append params d ws .nil
  rw [List.append_nil] at hreads
  -- the arguments, the text as it reads back, no span left open
  refine ⟨hitems, ?_, fun n => ?_, fun n q body hmem => ?_, nested_concatenation d ws⟩
  · rw [args_of_marks hitems, filterMap_arg?_concatenation, hnames]
  · rw [toList_render_of_marks hitems]
    exact hreads n
  · exact opened_notMem_concatenation d ws q body (opened_mem_render_iff.1 hmem)

end MetaQuery.Raw
