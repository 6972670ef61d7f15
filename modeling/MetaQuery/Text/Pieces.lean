/-
  MetaQuery/Text/Pieces.lean
  ==========================
  Cutting texts apart and putting them together: lists with a separator, a character written
  twice, and templates with holes.  Everything is stated on lists of characters, which is where
  the proofs live; the versions on `String` only wrap them.
-/

namespace MetaQuery.Text

/-! ### Joining and splitting -/

/-- The texts one after the other with `sep` between neighbours. -/
def joinWith (sep : String) : List String → String
  | [] => ""
  | [s] => s
  | s :: t :: r => s ++ sep ++ joinWith sep (t :: r)

@[simp] theorem joinWith_nil (sep : String) : joinWith sep [] = "" := rfl

@[simp] theorem joinWith_singleton (sep s : String) : joinWith sep [s] = s := rfl

theorem joinWith_cons_cons (sep s t : String) (r : List String) :
    joinWith sep (s :: t :: r) = s ++ sep ++ joinWith sep (t :: r) := rfl

/-- The stretches between the characters that satisfy `p`; one more than there are of these. -/
def splitBy (p : Char → Bool) : List Char → List (List Char)
  | [] => [[]]
  | c :: r =>
    if p c then [] :: splitBy p r
    else match splitBy p r with
      | [] => [[c]]
      | piece :: rest => (c :: piece) :: rest

theorem splitBy_ne_nil (p : Char → Bool) (cs : List Char) : splitBy p cs ≠ [] := by
  cases cs with
  | nil => simp [splitBy]
  | cons c r =>
    unfold splitBy
    split
    · simp
    · split <;> simp

/-- A stretch in front of the first cut belongs to the first piece. -/
theorem splitBy_append_word {p : Char → Bool} {m : List Char} (hm : ∀ c ∈ m, p c = false)
    {a piece : List Char} {rest : List (List Char)} (ha : splitBy p a = piece :: rest) :
    splitBy p (m ++ a) = (m ++ piece) :: rest := by
  induction m with
  | nil => exact ha
  | cons c m ih =>
    have hrest := ih fun x hx => hm x (List.mem_cons_of_mem c hx)
    simp [splitBy, hm c List.mem_cons_self, hrest]

/-- Without a cut there is one piece. -/
theorem splitBy_of_forall_not {p : Char → Bool} {cs : List Char} (h : ∀ c ∈ cs, p c = false) :
    splitBy p cs = [cs] := by
  have hword := splitBy_append_word h (a := []) rfl
  rwa [List.append_nil] at hword

/-- A text is read up to the first `q` in it. -/
theorem append_cons_inj {q : Char} {x y r s : List Char} (hx : q ∉ x) (hy : q ∉ y)
    (h : x ++ q :: r = y ++ q :: s) : x = y ∧ r = s := by
  induction x generalizing y with
  | nil =>
    cases y with
    | nil => exact ⟨rfl, (List.cons.inj h).2⟩
    | cons c y => exact absurd ((List.cons.inj h).1 ▸ List.mem_cons_self) hy
  | cons c x ih =>
    cases y with
    | nil => exact absurd ((List.cons.inj h).1 ▸ List.mem_cons_self) hx
    | cons c' y =>
      obtain ⟨rfl, hrest⟩ := List.cons.inj h
      obtain ⟨rfl, rfl⟩ := ih (fun hmem => hx (List.mem_cons_of_mem _ hmem))
        (fun hmem => hy (List.mem_cons_of_mem _ hmem)) hrest
      exact ⟨rfl, rfl⟩

/-! ### Doubling a character -/

/-- Each `q` written twice, all else once. -/
def double (q : Char) : List Char → List Char
  | [] => []
  | c :: r => if c = q then q :: q :: double q r else c :: double q r

@[simp] theorem double_nil (q : Char) : double q [] = [] := rfl

theorem double_append (q : Char) (a b : List Char) :
    double q (a ++ b) = double q a ++ double q b := by
  induction a with
  | nil => rfl
  | cons c r ih => by_cases h : c = q <;> simp [double, h, ih]

theorem double_reverse (q : Char) (cs : List Char) :
    double q cs.reverse = (double q cs).reverse := by
  induction cs with
  | nil => rfl
  | cons c r ih =>
    rw [List.reverse_cons, double_append, ih]
    by_cases h : c = q
    · simp [double, h]
    · simp [double, h]

theorem double_cons_self (q : Char) (cs : List Char) :
    double q (q :: cs) = q :: q :: double q cs := if_pos rfl

theorem double_cons_of_ne {q c : Char} (h : c ≠ q) (cs : List Char) :
    double q (c :: cs) = c :: double q cs := if_neg h

/-- Where a doubled text ends, a quote stands alone. -/
theorem double_append_inj {q : Char} {a b r s : List Char} (hr : r.head? ≠ some q)
    (hs : s.head? ≠ some q) (h : double q a ++ q :: r = double q b ++ q :: s) : a = b ∧ r = s := by
  -- a quote that stands alone is neither the first of two nor another character
  have halone : ∀ {r s : List Char} {c : Char} {cs : List Char}, r.head? ≠ some q →
      q :: r ≠ double q (c :: cs) ++ q :: s := by
    intro r s c cs hr heq
    by_cases hc : c = q
    · rw [hc, double_cons_self] at heq
      exact hr (by rw [(List.cons.inj heq).2]; rfl)
    · rw [double_cons_of_ne hc] at heq
      exact hc (List.cons.inj heq).1.symm
  induction a generalizing b with
  | nil =>
    cases b with
    | nil => exact ⟨rfl, (List.cons.inj h).2⟩
    | cons c b => exact absurd h (halone hr)
  | cons c a ih =>
    cases b with
    | nil => exact absurd h.symm (halone hs)
    | cons c' b =>
      by_cases hc : c = q
      · by_cases hc' : c' = q
        · rw [hc, hc', double_cons_self, double_cons_self] at h
          obtain ⟨rfl, rfl⟩ := ih (List.cons.inj (List.cons.inj h).2).2
          exact ⟨by rw [hc, hc'], rfl⟩
        · rw [hc, double_cons_self, double_cons_of_ne hc'] at h
          exact absurd (List.cons.inj h).1.symm hc'
      · by_cases hc' : c' = q
        · rw [hc', double_cons_self, double_cons_of_ne hc] at h
          exact absurd (List.cons.inj h).1 hc
        · rw [double_cons_of_ne hc, double_cons_of_ne hc'] at h
          obtain ⟨rfl, hrest⟩ := List.cons.inj h
          obtain ⟨rfl, rfl⟩ := ih hrest
          exact ⟨rfl, rfl⟩

/-- The characters with each `q` in them doubled, between two `q`. -/
def enclose (q : Char) (cs : List Char) : List Char := q :: (double q cs ++ [q])

/-! ### Templates -/

/-- The text has a hole, written `%s`. -/
def hasHole : List Char → Bool
  | '%' :: 's' :: _ => true
  | _ :: r => hasHole r
  | [] => false

/-- Each hole replaced by `filling`, from left to right; the filling is not looked at again. -/
def fillHoles (filling : List Char) : List Char → List Char
  | '%' :: 's' :: r => filling ++ fillHoles filling r
  | c :: r => c :: fillHoles filling r
  | [] => []

end MetaQuery.Text
