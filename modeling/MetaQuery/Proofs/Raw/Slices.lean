/-
  MetaQuery/Proofs/Raw/Slices.lean
  ================================
  Parts of a text between two positions of bytes.

  A text is cut only between its characters, so a part of it is given just when both positions are
  boundaries and the first is not behind the second (`isSome_slice?_iff`).  A byte of ASCII is a
  character by itself and is met in no other one, however many bytes that has
  (`boundaries_of_ascii`); so where a byte of ASCII is found, the text can be cut in front of it and
  behind it.
-/
import MetaQuery.Proofs.Raw.Bytes

namespace MetaQuery.Raw

/-! ### Boundaries -/

/-- A position in front of a character of a text, or at its end. -/
def IsBoundary (text : List Char) (i : Nat) : Prop :=
  String.Pos.Raw.IsValid (String.ofList text) ⟨i⟩

instance (text : List Char) (i : Nat) : Decidable (IsBoundary text i) :=
  inferInstanceAs (Decidable (String.Pos.Raw.IsValid _ _))

/-- The characters from one byte of a text to another; nothing unless it can be cut there. -/
def slice? (text : List Char) (start stop : Nat) : Option (List Char) :=
  if h : start ≤ stop ∧ IsBoundary text start ∧ IsBoundary text stop then
    some ((String.ofList text).extract ⟨⟨start⟩, h.2.1⟩ ⟨⟨stop⟩, h.2.2⟩).toList
  else none

theorem length_utf8 (cs : List Char) : (utf8 cs).length = cs.utf8Encode.size := by
  rw [List.utf8Encode, List.size_toByteArray]
  rfl

theorem isBoundary_iff {text : List Char} {i : Nat} :
    IsBoundary text i ↔ ∃ pre suf, text = pre ++ suf ∧ (utf8 pre).length = i := by
  -- the positions of the library count the bytes that `utf8` writes
  have hsize : ∀ s : String, (utf8 s.toList).length = s.utf8ByteSize := by
    intro s
    rw [length_utf8, String.utf8Encode_toList, String.size_toByteArray]
  rw [IsBoundary, String.Pos.Raw.isValid_iff_exists_append]
  constructor
  · rintro ⟨s, t, hst, hi⟩
    refine ⟨s.toList, t.toList, ?_, ?_⟩
    · rw [← String.toList_append, ← hst, String.toList_ofList]
    · rw [hsize]
      exact (congrArg String.Pos.Raw.byteIdx hi).symm
  · rintro ⟨pre, suf, rfl, rfl⟩
    refine ⟨String.ofList pre, String.ofList suf, String.ofList_append, ?_⟩
    have hpre := hsize (String.ofList pre)
    rw [String.toList_ofList] at hpre
    rw [hpre]
    rfl

theorem IsBoundary.le {text : List Char} {i : Nat} (h : IsBoundary text i) :
    i ≤ (utf8 text).length := by
  obtain ⟨pre, suf, rfl, rfl⟩ := isBoundary_iff.1 h
  rw [length_utf8_append]
  omega

theorem isBoundary_length (text : List Char) : IsBoundary text (utf8 text).length :=
  isBoundary_iff.2 ⟨text, [], (List.append_nil text).symm, rfl⟩

theorem isSome_slice?_iff {text : List Char} {start stop : Nat} :
    (slice? text start stop).isSome = true ↔
      start ≤ stop ∧ stop ≤ (utf8 text).length ∧ IsBoundary text start ∧ IsBoundary text stop := by
  rw [slice?]
  split
  · next h => exact iff_of_true rfl ⟨h.1, h.2.2.le, h.2.1, h.2.2⟩
  · next h => exact iff_of_false Bool.false_ne_true fun h' => h ⟨h'.1, h'.2.2.1, h'.2.2.2⟩

theorem extract_utf8Encode (pre part suf : List Char) :
    (pre ++ part ++ suf).utf8Encode.extract (utf8 pre).length (utf8 (pre ++ part)).length =
      part.utf8Encode := by
  have hfront : (utf8 pre).length = pre.utf8Encode.size + 0 := length_utf8 pre
  have hback : (utf8 (pre ++ part)).length = pre.utf8Encode.size + part.utf8Encode.size := by
    rw [length_utf8_append, length_utf8, length_utf8]
  rw [List.append_assoc, List.utf8Encode_append, List.utf8Encode_append, hfront, hback,
    ByteArray.extract_append_size_add, ByteArray.extract_append_eq_left rfl]

theorem slice?_append (pre part suf : List Char) :
    slice? (pre ++ part ++ suf) (utf8 pre).length (utf8 (pre ++ part)).length = some part := by
  have hstart : IsBoundary (pre ++ part ++ suf) (utf8 pre).length :=
    isBoundary_iff.2 ⟨pre, part ++ suf, List.append_assoc _ _ _, rfl⟩
  have hstop : IsBoundary (pre ++ part ++ suf) (utf8 (pre ++ part)).length :=
    isBoundary_iff.2 ⟨pre ++ part, suf, rfl, rfl⟩
  have hle : (utf8 pre).length ≤ (utf8 (pre ++ part)).length := by
    rw [length_utf8_append]
    omega
  have hbytes : ((String.ofList (pre ++ part ++ suf)).extract ⟨_, hstart⟩ ⟨_, hstop⟩).toByteArray =
      (String.ofList part).toByteArray := by
    rw [String.toByteArray_extract, String.toByteArray_ofList, String.toByteArray_ofList]
    exact extract_utf8Encode pre part suf
  rw [slice?, dif_pos ⟨hle, hstart, hstop⟩, String.toByteArray_inj.1 hbytes, String.toList_ofList]

/-- Between two boundaries stand some characters. -/
theorem exists_between {text : List Char} {start stop : Nat} (hstart : IsBoundary text start)
    (hstop : IsBoundary text stop) (hle : start ≤ stop) :
    ∃ pre part suf, text = pre ++ part ++ suf ∧ (utf8 pre).length = start ∧
      (utf8 (pre ++ part)).length = stop := by
  obtain ⟨pre, suf, rfl, rfl⟩ := isBoundary_iff.1 hstart
  obtain ⟨pre', suf', htext, rfl⟩ := isBoundary_iff.1 hstop
  rcases List.append_eq_append_iff.1 htext with ⟨part, rfl, rfl⟩ | ⟨part, rfl, rfl⟩
  · exact ⟨pre, part, suf', by rw [List.append_assoc], rfl, rfl⟩
  · rw [length_utf8_append] at hle
    refine ⟨pre', [], part ++ suf, by simp, ?_, by simp⟩
    rw [length_utf8_append]
    omega

/-- Between two boundaries the text is cut out with its bytes. -/
theorem exists_slice? {text : List Char} {start stop : Nat} (hstart : IsBoundary text start)
    (hstop : IsBoundary text stop) (hle : start ≤ stop) :
    ∃ part, slice? text start stop = some part ∧
      utf8 part = ((utf8 text).drop start).take (stop - start) := by
  obtain ⟨pre, part, suf, rfl, rfl, rfl⟩ := exists_between hstart hstop hle
  refine ⟨part, slice?_append pre part suf, ?_⟩
  rw [length_utf8_append, Nat.add_sub_cancel_left, utf8_append, utf8_append, List.append_assoc,
    List.drop_left, List.take_left]

/-- Where a character of ASCII is found among the bytes, the text can be cut on both sides of it. -/
theorem boundaries_of_ascii {q : Char} (hq : q.toNat < 128) {text : List Char} {i : Nat}
    (h : (utf8 text)[i]? = some q.toUInt8) : IsBoundary text i ∧ IsBoundary text (i + 1) := by
  obtain ⟨pre, suf, rfl, rfl⟩ := exists_of_ascii hq h
  constructor
  · exact isBoundary_iff.2 ⟨pre, q :: suf, rfl, rfl⟩
  · have htext : pre ++ q :: suf = pre ++ [q] ++ suf := by simp
    exact isBoundary_iff.2 ⟨pre ++ [q], suf, htext, length_utf8_append_singleton hq pre⟩

end MetaQuery.Raw
