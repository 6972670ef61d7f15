/-
  MetaQuery/Proofs/Raw/Bytes.lean
  ===============================
  Texts as bytes.

  A character of ASCII is one byte, that of its code.  All bytes of another character are above
  them, so a byte of ASCII is met in no other character, however many bytes that has
  (`eq_of_toUInt8_mem`), and where it is found in a text, the text has that character
  (`exists_of_ascii`).
-/
import Mathlib.Tactic.SplitIfs
import MetaQuery.Raw.Token

namespace MetaQuery.Raw

/-- The bytes of a text. -/
def utf8 (cs : List Char) : List UInt8 := cs.flatMap String.utf8EncodeChar

theorem utf8_append (a b : List Char) : utf8 (a ++ b) = utf8 a ++ utf8 b := List.flatMap_append

theorem utf8_cons (c : Char) (r : List Char) : utf8 (c :: r) = String.utf8EncodeChar c ++ utf8 r :=
  List.flatMap_cons

theorem length_utf8_append (a b : List Char) :
    (utf8 (a ++ b)).length = (utf8 a).length + (utf8 b).length := by
  rw [utf8_append, List.length_append]

theorem utf8_injective : Function.Injective utf8 := by
  intro a b h
  apply String.ofList_injective
  apply String.toByteArray_inj.1
  rw [String.toByteArray_ofList, String.toByteArray_ofList, List.utf8Encode, List.utf8Encode]
  exact congrArg List.toByteArray h

theorem length_utf8_pos {cs : List Char} (h : cs ≠ []) : 0 < (utf8 cs).length := by
  apply List.length_pos_iff.2
  intro hnil
  exact h (utf8_injective hnil)

/-! ### Characters of ASCII -/

theorem isAlphanum_ascii {c : Char} (h : c.isAlphanum = true) : c.toNat < 128 := by
  have hbound : ∀ last : Char, c.val ≤ last.val → last.toNat < 128 → c.toNat < 128 :=
    fun last hle hlast => Nat.lt_of_le_of_lt (UInt32.le_iff_toNat_le.1 hle) hlast
  have hkinds : ((c.isUpper || c.isLower) || c.isDigit) = true := h
  rw [Bool.or_eq_true, Bool.or_eq_true] at hkinds
  rcases hkinds with (hupper | hlower) | hdigit
  · exact hbound 'Z' (of_decide_eq_true hupper).2 (by decide)
  · have hrange := Bool.and_eq_true_iff.1 hlower
    exact hbound 'z' (of_decide_eq_true hrange.2) (by decide)
  · have hrange := Bool.and_eq_true_iff.1 hdigit
    exact hbound '9' (of_decide_eq_true hrange.2) (by decide)

theorem utf8EncodeChar_of_lt {c : Char} (h : c.toNat < 128) :
    String.utf8EncodeChar c = [c.toUInt8] :=
  String.utf8EncodeChar_eq_singleton (Char.utf8Size_eq_one_iff.2 (Nat.le_of_lt_succ h))

theorem utf8_cons_of_lt {c : Char} (h : c.toNat < 128) (r : List Char) :
    utf8 (c :: r) = c.toUInt8 :: utf8 r := by
  rw [utf8_cons, utf8EncodeChar_of_lt h, List.singleton_append]

theorem toNat_ofUInt8 (b : UInt8) : (Char.ofUInt8 b).toNat = b.toNat := UInt8.toNat_toUInt32 b

theorem ofUInt8_toUInt8 {c : Char} (h : c.toNat < 128) : Char.ofUInt8 c.toUInt8 = c := by
  have hval : c.val.toNat % 256 = c.val.toNat := Nat.mod_eq_of_lt (Nat.lt_trans h (by decide))
  have hbyte : c.toUInt8.toNat = c.toNat := by
    rw [Char.toUInt8, UInt32.toNat_toUInt8, hval]
    rfl
  exact Char.toNat_inj.1 ((toNat_ofUInt8 c.toUInt8).trans hbyte)

/-! ### Characters of several bytes -/

theorem le_of_mem_utf8EncodeChar {c : Char} (h : 128 ≤ c.toNat) {b : UInt8}
    (hb : b ∈ String.utf8EncodeChar c) : 128 ≤ b.toNat := by
  have hval : 128 ≤ c.val.toNat := h
  have hbyte : ∀ n, 128 ≤ n → n < 256 → b = UInt8.ofNat n → 128 ≤ b.toNat := by
    rintro n hn hlt rfl
    rwa [UInt8.toNat_ofNat_of_lt' hlt]
  simp only [String.utf8EncodeChar] at hb
  -- one byte is ruled out by `h`; the bytes of a longer encoding have their top bit set
  split_ifs at hb with h₁ h₂ h₃
  · omega
  · simp only [List.mem_cons, List.not_mem_nil, or_false] at hb
    rcases hb with hb | hb <;> exact hbyte _ (by omega) (by omega) hb
  · simp only [List.mem_cons, List.not_mem_nil, or_false] at hb
    rcases hb with hb | hb | hb <;> exact hbyte _ (by omega) (by omega) hb
  · simp only [List.mem_cons, List.not_mem_nil, or_false] at hb
    rcases hb with hb | hb | hb | hb <;> exact hbyte _ (by omega) (by omega) hb

/-- What is told of characters of ASCII only is told by their bytes. -/
theorem ofUInt8_eq_of_mem {p : Char → Bool} (hp : ∀ c, p c = true → c.toNat < 128) {c : Char}
    {b : UInt8} (hb : b ∈ String.utf8EncodeChar c) : p (Char.ofUInt8 b) = p c := by
  by_cases hc : c.toNat < 128
  · rw [utf8EncodeChar_of_lt hc, List.mem_singleton] at hb
    rw [hb, ofUInt8_toUInt8 hc]
  · have hlarge := le_of_mem_utf8EncodeChar (Nat.not_lt.1 hc) hb
    have hbyte : p (Char.ofUInt8 b) = false := by
      refine Bool.eq_false_iff.2 fun h => ?_
      have hsmall := hp _ h
      rw [toNat_ofUInt8] at hsmall
      omega
    rw [hbyte]
    exact (Bool.eq_false_iff.2 fun h => hc (hp c h)).symm

theorem eq_of_toUInt8_mem {q c : Char} (hq : q.toNat < 128)
    (h : q.toUInt8 ∈ String.utf8EncodeChar c) : c = q := by
  have hascii : ∀ d : Char, (d == q) = true → d.toNat < 128 := by
    intro d hd
    rwa [beq_iff_eq.1 hd]
  have hread := ofUInt8_eq_of_mem hascii h
  rw [ofUInt8_toUInt8 hq, beq_self_eq_true] at hread
  exact beq_iff_eq.1 hread.symm

theorem ne_toUInt8_of_mem {q c : Char} (hq : q.toNat < 128) (hc : c ≠ q) {b : UInt8}
    (hb : b ∈ String.utf8EncodeChar c) : b ≠ q.toUInt8 := by
  rintro rfl
  exact hc (eq_of_toUInt8_mem hq hb)

/-- Where a byte of ASCII is found, the text has its character. -/
theorem exists_of_ascii {q : Char} (hq : q.toNat < 128) {cs : List Char} {i : Nat}
    (h : (utf8 cs)[i]? = some q.toUInt8) :
    ∃ pre suf, cs = pre ++ q :: suf ∧ (utf8 pre).length = i := by
  induction cs generalizing i with
  | nil => cases h
  | cons c r ih =>
    rw [utf8_cons] at h
    by_cases hi : i < (String.utf8EncodeChar c).length
    · rw [List.getElem?_append_left hi] at h
      -- the byte is one of this character's, and an ASCII byte encodes nothing but itself
      obtain rfl := eq_of_toUInt8_mem hq (List.mem_of_getElem? h)
      rw [utf8EncodeChar_of_lt hq, List.length_singleton, Nat.lt_one_iff] at hi
      exact ⟨[], r, rfl, hi.symm⟩
    · rw [List.getElem?_append_right (Nat.not_lt.1 hi)] at h
      obtain ⟨pre, suf, rfl, hpre⟩ := ih h
      refine ⟨c :: pre, suf, rfl, ?_⟩
      rw [utf8_cons, List.length_append, hpre]
      omega

/-- A text starts with a character of ASCII just when its bytes do. -/
theorem head?_utf8_iff {q : Char} (hq : q.toNat < 128) {r : List Char} :
    (utf8 r).head? = some q.toUInt8 ↔ r.head? = some q := by
  constructor
  · intro h
    cases r with
    | nil => cases h
    | cons c r =>
      obtain ⟨b, w, hc⟩ := List.exists_cons_of_ne_nil (String.utf8EncodeChar_ne_nil (c := c))
      rw [utf8_cons, hc] at h
      -- an ASCII byte is no part of the encoding of any other character
      have hmem : q.toUInt8 ∈ String.utf8EncodeChar c := by
        rw [hc, ← Option.some.inj h]
        exact List.mem_cons_self
      rw [List.head?_cons, eq_of_toUInt8_mem hq hmem]
  · intro h
    cases r with
    | nil => cases h
    | cons c r =>
      obtain rfl := Option.some.inj h
      rw [utf8_cons_of_lt hq, List.head?_cons]

/-! ### Positions -/

theorem getElem?_utf8_append (pre r : List Char) (k : Nat) :
    (utf8 (pre ++ r))[(utf8 pre).length + k]? = (utf8 r)[k]? := by
  rw [utf8_append, List.getElem?_append_right (Nat.le_add_right _ _), Nat.add_sub_cancel_left]

theorem getElem?_utf8_of_lt {q : Char} (hq : q.toNat < 128) (pre r : List Char) :
    (utf8 (pre ++ q :: r))[(utf8 pre).length]? = some q.toUInt8 := by
  have hbyte := getElem?_utf8_append pre (q :: r) 0
  rw [Nat.add_zero, utf8_cons_of_lt hq] at hbyte
  exact hbyte

theorem getElem?_utf8_succ_eq_iff {q q' : Char} (hq : q.toNat < 128) (hq' : q'.toNat < 128)
    (pre r : List Char) :
    (utf8 (pre ++ q :: r))[(utf8 pre).length + 1]? = some q'.toUInt8 ↔ r.head? = some q' := by
  rw [getElem?_utf8_append, utf8_cons_of_lt hq, List.getElem?_cons_succ, ← List.head?_eq_getElem?,
    head?_utf8_iff hq']

/-- At the position of a character is one of its bytes. -/
theorem exists_getElem?_utf8 (pre : List Char) (c : Char) (r : List Char) :
    ∃ b ∈ String.utf8EncodeChar c, (utf8 (pre ++ c :: r))[(utf8 pre).length]? = some b := by
  obtain ⟨b, w, hc⟩ := List.exists_cons_of_ne_nil (String.utf8EncodeChar_ne_nil (c := c))
  refine ⟨b, hc ▸ List.mem_cons_self, ?_⟩
  have hbyte := getElem?_utf8_append pre (c :: r) 0
  rw [Nat.add_zero, utf8_cons, hc] at hbyte
  exact hbyte

theorem length_utf8_append_singleton {q : Char} (hq : q.toNat < 128) (pre : List Char) :
    (utf8 (pre ++ [q])).length = (utf8 pre).length + 1 := by
  rw [length_utf8_append, utf8_cons_of_lt hq]
  rfl

/-- What is passed byte by byte is passed as a whole. -/
theorem eq_of_skip {α : Type} {g : Nat → α} (pre w r : List UInt8)
    (h : ∀ i b, (pre ++ w ++ r)[i]? = some b → b ∈ w → g i = g (i + 1)) :
    g pre.length = g (pre ++ w).length := by
  induction w generalizing pre with
  | nil => rw [List.append_nil]
  | cons b w ih =>
    have hbyte : (pre ++ b :: w ++ r)[pre.length]? = some b := by simp
    have hfront : pre ++ b :: w = pre ++ [b] ++ w := by simp
    have hrest := ih (pre ++ [b]) fun i b' hi hb' => by
      rw [← hfront] at hi
      exact h i b' hi (List.mem_cons_of_mem b hb')
    rw [h _ b hbyte List.mem_cons_self, hfront, ← hrest, List.length_append,
      List.length_singleton]

/-- A character is passed when each of its bytes is. -/
theorem eq_of_skip_char {α : Type} {g : Nat → α} (pre : List Char) (c : Char) (r : List Char)
    (h : ∀ i b, (utf8 (pre ++ c :: r))[i]? = some b → b ∈ String.utf8EncodeChar c →
      g i = g (i + 1)) : g (utf8 pre).length = g (utf8 (pre ++ [c])).length := by
  have hchar : utf8 [c] = String.utf8EncodeChar c := List.append_nil _
  have hskip := eq_of_skip (utf8 pre) (String.utf8EncodeChar c) (utf8 r) fun i b hi hb => by
    refine h i b ?_ hb
    rw [utf8_append, utf8_cons, ← List.append_assoc]
    exact hi
  rw [hskip, utf8_append, hchar]

end MetaQuery.Raw
