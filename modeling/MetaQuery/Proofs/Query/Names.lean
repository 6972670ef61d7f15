/-
  MetaQuery/Proofs/Query/Names.lean
  =================================
  A query depends on the parameters that its model names, and on no others.

  A condition names at most one parameter, and a text written by hand names those behind its
  colons, inside its literals as well (`Raw.placeholders`).  Where two requests agree on the names
  of a model, they make the same predicates, the same derived table and hence queries that differ
  at most in the stretch of rows (`Model.compile_agree`).  The query for the number of rows has no
  such stretch, so it is the same query.
-/
import Mathlib.Data.List.Basic
import MetaQuery.Proofs.Service.Sending

namespace MetaQuery

/-! ### Names -/

namespace Raw

/-- The parameter that a piece of a literal names. -/
def Piece.param? : Piece → Option String
  | .plain _ => none
  | .name n => some (String.ofList n)

/-- The parameters that a token names. -/
def Token.params : Token → List String
  | .literal content _ => (pieces content).filterMap Piece.param?
  | .name n => [String.ofList n]
  | _ => []

/-- The parameters that a text names. -/
def placeholders (sql : List Char) : List String := (tokens sql).flatMap Token.params

@[simp] theorem placeholders_nil : placeholders [] = [] := by
  rw [placeholders, tokens, List.flatMap_nil]

end Raw

/-- The parameters that the conditions of a model name. -/
def Model.conditionParams (m : Model) : List String :=
  ((m.conditions ++ m.havings).map (·.param)).filter (· ≠ "")

/-- The parameters that a model names. -/
def Model.params (m : Model) : List String := m.conditionParams ++ Raw.placeholders m.rawText

/-- Two requests agree on some parameters. -/
def Params.AgreeOn (names : List String) (p p' : Params) : Prop :=
  ∀ k ∈ names, Json.lookup k p = Json.lookup k p'

theorem Params.AgreeOn.mono {names names' : List String} {p p' : Params}
    (h : AgreeOn names p p') (hsub : names' ⊆ names) : AgreeOn names' p p' :=
  fun k hk => h k (hsub hk)

/-! ### Texts written by hand -/

namespace Raw

variable {p p' : Params}

theorem literalParts_agree {ps : List Piece}
    (h : Params.AgreeOn (ps.filterMap Piece.param?) p p') :
    literalParts p ps = literalParts p' ps := by
  induction ps with
  | nil => rfl
  | cons piece r ih =>
    cases piece with
    | plain c =>
      rw [literalParts, literalParts, ih h]
    | name n =>
      have hn := h (String.ofList n) List.mem_cons_self
      have hr := ih (h.mono (List.subset_cons_self _ _))
      rw [literalParts, literalParts, hn, hr]

theorem putToken_agree {token : Token} (h : Params.AgreeOn token.params p p') (d : Dialect)
    (f : Fragment) : putToken p d f token = putToken p' d f token := by
  cases token with
  | plain c => rfl
  | literal content closed =>
    rw [putToken, putToken, putLiteral, putLiteral, literalParts_agree h]
  | quoted q rest => rfl
  | cast => rfl
  | name n =>
    have hn := h (String.ofList n) List.mem_cons_self
    rw [putToken, putToken, hn]

theorem substitute_agree {sql : List Char} (h : Params.AgreeOn (placeholders sql) p p')
    (d : Dialect) : substitute p d sql = substitute p' d sql := by
  -- over any fragment, since the fold carries what is written so far
  have hfold : ∀ (ts : List Token), Params.AgreeOn (ts.flatMap Token.params) p p' →
      ∀ f, ts.foldl (putToken p d) f = ts.foldl (putToken p' d) f := by
    intro ts
    induction ts with
    | nil => exact fun _ f => rfl
    | cons token r ih =>
      intro hts f
      rw [List.flatMap_cons] at hts
      rw [List.foldl_cons, List.foldl_cons,
        putToken_agree (hts.mono (List.subset_append_left _ _)),
        ih (hts.mono (List.subset_append_right _ _))]
  exact hfold (tokens sql) h .empty

end Raw

/-! ### Chains -/

section
variable {m : Model} {p p' : Params}

theorem Condition.bound?_agree {c : Condition} (hc : c ∈ m.conditions ++ m.havings)
    (h : Params.AgreeOn m.params p p') : c.bound? p = c.bound? p' := by
  rw [bound?, bound?]
  split
  · rfl
  · next hparam =>
    have hnamed : c.param ∈ m.conditionParams :=
      List.mem_filter.2 ⟨List.mem_map_of_mem hc, by simpa using hparam⟩
    exact h _ (List.mem_append_left _ hnamed)

theorem Model.predicate_congr {c : Condition} (h : c.bound? p = c.bound? p') :
    m.predicate p c = m.predicate p' c := by
  rw [predicate, predicate, h]

theorem Model.putPredicate_congr {c : Condition} (h : c.bound? p = c.bound? p') (f : Fragment) :
    m.putPredicate p f c = m.putPredicate p' f c := by
  rw [putPredicate, putPredicate, predicate_congr h]

theorem Model.chain_congr {cs : List Condition} (h : ∀ c ∈ cs, c.bound? p = c.bound? p') :
    m.chain p cs = m.chain p' cs := by
  cases cs with
  | nil => rfl
  | cons c r =>
    rw [chain, chain, putPredicate_congr (h c List.mem_cons_self)]
    refine List.foldl_ext _ _ _ fun f c hc => ?_
    exact putPredicate_congr (h c (List.mem_cons_of_mem _ hc)) _

/-! ### Compiled queries -/

/-- The query with another stretch of rows. -/
def Select.windowed (q : Select) (window : Option Window) : Select := { q with window := window }

/-- The number of all rows does not depend on the stretch. -/
theorem Select.countStatement_windowed (q : Select) (window : Option Window) :
    (q.windowed window).countStatement = q.countStatement := rfl

/-- **A query depends on the parameters that its model names.**  Two requests that agree on them
    and compile make one query, up to the stretch of rows. -/
theorem Model.compile_agree (h : Params.AgreeOn m.params p p') {q q' : Select}
    (hq : m.compile p = .ok q) (hq' : m.compile p' = .ok q') : q' = q.windowed q'.window := by
  cases hraw : m.isRaw with
  | true =>
    obtain ⟨window, -, rfl⟩ := eq_of_compile_raw hraw hq
    obtain ⟨window', -, rfl⟩ := eq_of_compile_raw hraw hq'
    -- substitution reads the names in the text only, which are among those compared
    have hsource : m.rawSource p = m.rawSource p' := by
      rw [rawSource, rawSource, Raw.substitute_agree (h.mono (List.subset_append_right _ _))]
    rw [hsource]
    rfl
  | false =>
    obtain ⟨source, window, htarget, -, rfl⟩ := eq_of_compile_entries hraw hq
    obtain ⟨source', window', htarget', -, rfl⟩ := eq_of_compile_entries hraw hq'
    obtain rfl : source = source' := Except.ok.inj (htarget.symm.trans htarget')
    have hfilter : m.chain p m.conditions = m.chain p' m.conditions :=
      chain_congr fun c hc => Condition.bound?_agree (List.mem_append_left _ hc) h
    have hhaving : m.chain p m.havings = m.chain p' m.havings :=
      chain_congr fun c hc => Condition.bound?_agree (List.mem_append_right _ hc) h
    rw [hfilter, hhaving]
    rfl

end

end MetaQuery
