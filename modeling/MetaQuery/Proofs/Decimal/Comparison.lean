/-
  MetaQuery/Proofs/Decimal/Comparison.lean
  ========================================
  Doubles are compared as a line with one point beside it, NaN.

  Every comparison with NaN is false, and of two other doubles one is below the other or they are
  level (`le_of_not_lt`).  So a range that is tested by what lies outside of it keeps NaN, and
  nothing else that it should not.  Of the numbers read from text only those that are spelled as
  NaN are NaN (`eq_nan_iff_of_float?`): digits make a double, or an infinite one when there are too
  many of them.
-/
import Mathlib
import MetaQuery.Decimal.Reader

namespace MetaQuery.Decimal

open Float.Model Float.Model.UnpackedFloat

/-! ### What NaN is -/

theorem packedInfinity_ne_packedNaN (s : Sign) :
    packedInfinity Format.binary64 s ≠ packedNaN Format.binary64 := by
  intro h
  have hmantissa := congrArg unpackMantissa h
  rw [packedInfinity, packedNaN, unpackMantissa_packComponents,
    unpackMantissa_packComponents] at hmantissa
  revert hmantissa
  decide

/-- Only the greatest exponent makes NaN. -/
theorem packComponents_ne_packedNaN (s : Sign) {exponent : BitVec 11} (h : exponent ≠ -1#11)
    (mantissa : BitVec 52) :
    packComponents Format.binary64 s exponent mantissa ≠ packedNaN Format.binary64 := by
  intro heq
  have hexponent := congrArg unpackExponent heq
  rw [packedNaN, unpackExponent_packComponents, unpackExponent_packComponents] at hexponent
  exact h hexponent

/-- The bits of a double are those of NaN only when it is NaN. -/
theorem pack_eq_packedNaN_iff {u : UnpackedFloat} :
    UnpackedFloat.pack Format.binary64 u = packedNaN Format.binary64 ↔ u = .notANumber := by
  constructor
  · intro h
    cases u with
    | notANumber => rfl
    | infinity s => exact absurd h (packedInfinity_ne_packedNaN s)
    | zero s => exact absurd h (packComponents_ne_packedNaN s (by decide) 0)
    | finite s m e hm =>
      rw [UnpackedFloat.pack] at h
      dsimp only at h
      split at h
      · exact absurd h (packedInfinity_ne_packedNaN s)
      · next hfits =>
        -- a normal number has an exponent below the greatest, a subnormal one has zero
        split at h
        · refine absurd h (packComponents_ne_packedNaN s ?_ _)
          intro hexponent
          have hnat := congrArg BitVec.toNat hexponent
          simp at hnat
          omega
        · exact absurd h (packComponents_ne_packedNaN s (by decide) _)
  · rintro rfl
    rfl

/-- A double that is made from an unpacked one is NaN only when that is. -/
theorem ofModel_pack_eq_nan_iff {u : UnpackedFloat} :
    Float.ofModel (Float.Model.pack u) = Float.nan ↔ u = .notANumber := by
  rw [← pack_eq_packedNaN_iff, ← Float.toBits_inj, ← UInt64.toBitVec_inj]
  exact Iff.rfl

theorem unpack_eq_notANumber_iff {x : Float} :
    x.toModel.unpack = .notANumber ↔ x = Float.nan := by
  rw [← isNaN_iff]
  have hnan : x.isNaN = true ↔ x = Float.nan := by
    rw [Float.isNaN_eq_decide_eq_nan, decide_eq_true_iff]
  exact hnan

/-! ### Order -/

theorem compare_swap (a b : UnpackedFloat) :
    b.compare a = (a.compare b).map Ordering.swap := by
  cases a with
  | notANumber => cases b <;> rfl
  | infinity s =>
    cases b with
    | infinity t => cases s <;> cases t <;> rfl
    | _ => cases s <;> rfl
  | zero s =>
    cases b with
    | infinity t => cases t <;> rfl
    | finite t m e hm => cases t <;> rfl
    | _ => rfl
  | finite s m e hm =>
    cases b with
    | infinity t => cases t <;> cases s <;> rfl
    | finite t n k hn =>
      -- magnitudes are compared by exponent first; a negative sign turns the order round
      have hsize : (compare k e).then (compare n m) =
          ((compare e k).then (compare m n)).swap := by
        have hexponent : compare k e = (compare e k).swap := Std.OrientedCmp.eq_swap
        have hmantissa : compare n m = (compare m n).swap := Std.OrientedCmp.eq_swap
        rw [Ordering.swap_then, hexponent, hmantissa]
      cases s <;> cases t
      · exact congrArg (fun o => some (Ordering.swap o)) hsize
      · rfl
      · rfl
      · exact congrArg some hsize
    | zero t => cases s <;> rfl
    | notANumber => rfl

/-- All but NaN compare. -/
theorem exists_compare {a b : UnpackedFloat} (ha : a ≠ .notANumber) (hb : b ≠ .notANumber) :
    ∃ o, a.compare b = some o := by
  -- NaN is the one value that compares with nothing
  cases a with
  | notANumber => exact absurd rfl ha
  | infinity s =>
    cases b with
    | notANumber => exact absurd rfl hb
    | infinity t => exact ⟨_, rfl⟩
    | _ => cases s <;> exact ⟨_, rfl⟩
  | zero s =>
    cases b with
    | notANumber => exact absurd rfl hb
    | zero t => exact ⟨_, rfl⟩
    | infinity t => cases t <;> exact ⟨_, rfl⟩
    | finite t n k hn => cases t <;> exact ⟨_, rfl⟩
  | finite s m e hm =>
    cases b with
    | notANumber => exact absurd rfl hb
    | zero t => cases s <;> exact ⟨_, rfl⟩
    | infinity t => cases s <;> cases t <;> exact ⟨_, rfl⟩
    | finite t n k hn => cases s <;> cases t <;> exact ⟨_, rfl⟩

theorem compare_eq_none_iff (a b : UnpackedFloat) :
    a.compare b = none ↔ a = .notANumber ∨ b = .notANumber := by
  constructor
  · intro hnone
    by_contra hnumbers
    obtain ⟨ha, hb⟩ := not_or.1 hnumbers
    obtain ⟨o, ho⟩ := exists_compare ha hb
    rw [hnone] at ho
    cases ho
  · rintro (rfl | rfl)
    · rfl
    · cases a <;> rfl

/-- How two doubles compare. -/
def order (x y : Float) : Option Ordering := x.toModel.unpack.compare y.toModel.unpack

theorem order_swap (x y : Float) : order y x = (order x y).map Ordering.swap := compare_swap _ _

theorem order_eq_none_iff (x y : Float) :
    order x y = none ↔ x = Float.nan ∨ y = Float.nan := by
  rw [order, compare_eq_none_iff, unpack_eq_notANumber_iff, unpack_eq_notANumber_iff]

theorem lt_iff_order {x y : Float} : x < y ↔ order x y = some .lt := by
  change decide _ = true ↔ _
  rw [decide_eq_true_iff, ← beq_iff_eq]
  exact Iff.rfl

theorem le_iff_order {x y : Float} : x ≤ y ↔ (order x y).any (·.isLE) = true := by
  change decide _ = true ↔ _
  rw [decide_eq_true_iff]
  exact Iff.rfl

theorem ne_nan_of_order {x y : Float} (h : order x y ≠ none) : x ≠ Float.nan ∧ y ≠ Float.nan := by
  rw [Ne, order_eq_none_iff] at h
  exact not_or.1 h

/-- Nothing is below NaN, and NaN is below nothing. -/
theorem ne_nan_of_lt {x y : Float} (h : x < y) : x ≠ Float.nan ∧ y ≠ Float.nan := by
  refine ne_nan_of_order ?_
  rw [lt_iff_order.1 h]
  exact Option.some_ne_none _

theorem ne_nan_of_le {x y : Float} (h : x ≤ y) : x ≠ Float.nan ∧ y ≠ Float.nan := by
  refine ne_nan_of_order fun hnone => ?_
  rw [le_iff_order, hnone] at h
  cases h

/-- Of two doubles that are not NaN, what is not above the other is below it or level. -/
theorem le_iff_not_lt {x y : Float} (hx : x ≠ Float.nan) (hy : y ≠ Float.nan) :
    y ≤ x ↔ ¬x < y := by
  rw [le_iff_order, lt_iff_order, order_swap]
  cases horder : order x y with
  | none =>
    rw [order_eq_none_iff] at horder
    exact absurd horder (not_or.2 ⟨hx, hy⟩)
  | some o => cases o <;> decide

/-! ### Arithmetic on numbers -/

theorem roundWithAccuracy_ne_notANumber (spec : Format) (s : Sign) (m : Nat) (e : Int)
    (accuracy : Accuracy) : roundWithAccuracy spec s m e accuracy ≠ .notANumber := by
  unfold roundWithAccuracy
  dsimp only
  split
  · exact nofun
  · exact nofun

theorem ofInt_ne_notANumber (spec : Format) (i : Int) :
    UnpackedFloat.ofInt spec i ≠ .notANumber := by
  unfold UnpackedFloat.ofInt UnpackedFloat.normalize
  split
  · exact roundWithAccuracy_ne_notANumber _ _ _ _ _
  · exact nofun
  · exact roundWithAccuracy_ne_notANumber _ _ _ _ _

/-- The number is neither zero nor infinite, and not NaN. -/
def isProper : UnpackedFloat → Bool
  | .finite .. => true
  | _ => false

/-- A number that is scaled up or down by a proper one is a number. -/
theorem scaled_ne_notANumber {a b : UnpackedFloat} (ha : a ≠ .notANumber)
    (hb : isProper b = true) (spec : Format) :
    UnpackedFloat.mul spec a b ≠ .notANumber ∧ UnpackedFloat.div spec a b ≠ .notANumber := by
  cases b with
  | finite s m e hm =>
    cases a with
    | notANumber => exact absurd rfl ha
    | infinity t => exact ⟨nofun, nofun⟩
    | zero t => exact ⟨nofun, nofun⟩
    | finite t n k hn =>
      exact ⟨roundWithAccuracy_ne_notANumber _ _ _ _ _, roundWithAccuracy_ne_notANumber _ _ _ _ _⟩
  | _ => cases hb

theorem ofScientific_ne_notANumber (spec : Format) (m : Nat) (e : Int) :
    UnpackedFloat.ofScientific spec m e ≠ .notANumber := by
  unfold UnpackedFloat.ofScientific
  split
  · exact nofun
  · split
    · exact nofun
    · split
      · exact nofun
      · split
        · exact (scaled_ne_notANumber (by simp) (by rfl) spec).1
        · exact (scaled_ne_notANumber (by simp) (by rfl) spec).2

theorem scaled_ne_nan {x y : Float} (hx : x ≠ Float.nan) (hy : isProper y.toModel.unpack = true) :
    x * y ≠ Float.nan ∧ x / y ≠ Float.nan := by
  rw [Ne, ← unpack_eq_notANumber_iff] at hx
  obtain ⟨hmul, hdiv⟩ := scaled_ne_notANumber hx hy .binary64
  exact ⟨fun h => hmul (ofModel_pack_eq_nan_iff.1 h), fun h => hdiv (ofModel_pack_eq_nan_iff.1 h)⟩

theorem neg_eq_nan_iff {x : Float} : -x = Float.nan ↔ x = Float.nan := by
  have hneg : x.toModel.unpack.neg = .notANumber ↔ x.toModel.unpack = .notANumber := by
    cases x.toModel.unpack <;> simp [UnpackedFloat.neg]
  rw [← unpack_eq_notANumber_iff (x := x), ← hneg, ← ofModel_pack_eq_nan_iff]
  exact Iff.rfl

theorem isProper_powerOfTen (e : Nat) (he : e < Float.exactlyRepresentablePowersOfTen.size) :
    isProper Float.exactlyRepresentablePowersOfTen[e].toModel.unpack = true := by
  have hall : ∀ x ∈ Float.exactlyRepresentablePowersOfTen.toList,
      isProper x.toModel.unpack = true := by decide
  exact hall _ (Array.getElem_mem_toList he)

/-! ### Numbers that are read -/

/-- Digits with an exponent are no NaN. -/
theorem ofScientific_ne_nan (m : Nat) (below : Bool) (e : Nat) :
    Float.ofScientific m below e ≠ Float.nan := by
  have hword : m.toUInt64.toFloat ≠ Float.nan :=
    fun h => ofInt_ne_notANumber _ _ (ofModel_pack_eq_nan_iff.1 h)
  unfold Float.ofScientific
  split
  · next hfast =>
    have hpower := isProper_powerOfTen e (Nat.lt_succ_of_le hfast.2)
    dsimp only
    split
    · exact (scaled_ne_nan hword hpower).2
    · exact (scaled_ne_nan hword hpower).1
  · exact fun h => ofScientific_ne_notANumber _ _ _ (ofModel_pack_eq_nan_iff.1 h)

theorem ofInt_ne_nan (i : Int) : Float.ofInt i ≠ Float.nan := by
  cases i with
  | ofNat n => exact ofScientific_ne_nan n false 0
  | negSucc n => exact fun h => ofScientific_ne_nan n.succ false 0 (neg_eq_nan_iff.1 h)

theorem infinity_ne_nan : (1.0 / 0.0 : Float) ≠ Float.nan := by decide

theorem nearest_ne_nan (m : Nat) (e : Int) : nearest m e ≠ Float.nan := by
  have hzero : (0.0 : Float) ≠ Float.nan := by decide
  unfold nearest
  dsimp only
  split
  · exact hzero
  · split
    · exact infinity_ne_nan
    · split
      · exact hzero
      · split
        · exact ofScientific_ne_nan _ _ _
        · exact ofScientific_ne_nan _ _ _

/-- The digits behind the point, and what follows them. -/
def takeFraction : List Char → List Char × List Char
  | '.' :: r => (r.takeWhile Char.isDigit, r.dropWhile Char.isDigit)
  | r => ([], r)

theorem magnitude?_eq (cs : List Char) :
    magnitude? cs =
      let whole := cs.takeWhile Char.isDigit
      let behind := takeFraction (cs.dropWhile Char.isDigit)
      if whole.isEmpty && behind.1.isEmpty then none
      else (exponent? behind.2).map fun e =>
        nearest (Nat.ofDigitChars 10 (whole ++ behind.1) 0) (e - Int.ofNat behind.1.length) := by
  rfl

theorem magnitude?_ne_nan {cs : List Char} {x : Float} (h : magnitude? cs = some x) :
    x ≠ Float.nan := by
  rw [magnitude?_eq] at h
  dsimp only at h
  split at h
  · cases h
  · obtain ⟨e, -, rfl⟩ := Option.map_eq_some_iff.1 h
    exact nearest_ne_nan _ _

/-- The text is an optional sign and the word `nan`, in any case. -/
def SpellsNan (cs : List Char) : Prop := (takeSign cs).2.map Char.toLower = "nan".toList

instance (cs : List Char) : Decidable (SpellsNan cs) :=
  inferInstanceAs (Decidable ((takeSign cs).2.map Char.toLower = "nan".toList))

theorem specialMagnitude?_eq_nan_iff {cs : List Char} {x : Float}
    (h : specialMagnitude? cs = some x) :
    x = Float.nan ↔ cs.map Char.toLower = "nan".toList := by
  unfold specialMagnitude? at h
  -- the words for infinity are tried first
  dsimp only at h
  split at h
  · next hword =>
    obtain rfl := Option.some.inj h
    refine iff_of_false infinity_ne_nan fun hnan => ?_
    rw [hnan] at hword
    revert hword
    decide
  · split at h
    · next hword =>
      obtain rfl := Option.some.inj h
      exact iff_of_true rfl (beq_iff_eq.1 hword)
    · cases h

/-- A word that starts with no digit and no point is no magnitude with digits. -/
theorem magnitude?_eq_none {c : Char} {r : List Char} (hdigit : c.isDigit = false)
    (hdot : c ≠ '.') : magnitude? (c :: r) = none := by
  have hnone : takeFraction (c :: r) = ([], c :: r) := by
    rw [takeFraction]
    intro r' heq
    exact hdot (List.cons.inj heq).1
  rw [magnitude?_eq, List.takeWhile_cons_of_neg (by simpa using hdigit),
    List.dropWhile_cons_of_neg (by simpa using hdigit), hnone]
  rfl

theorem toLower_of_isDigit {c : Char} (h : c.isDigit = true) : c.toLower = c := by
  have hdigit : c.val ≥ '0'.val ∧ c.val ≤ '9'.val := by simpa [Char.isDigit] using h
  have hlow : ¬(c.val ≥ 'A'.val ∧ c.val ≤ 'Z'.val) := by
    rintro ⟨hA, -⟩
    exact absurd (UInt32.le_trans hA hdigit.2) (by decide)
  rw [Char.toLower, dif_neg hlow]

/-- Digits and points are no letters. -/
theorem of_toLower_eq_n {c : Char} (h : c.toLower = 'n') : c.isDigit = false ∧ c ≠ '.' := by
  constructor
  · rw [← Bool.not_eq_true]
    intro hdigit
    rw [toLower_of_isDigit hdigit] at h
    subst h
    exact absurd hdigit (by decide)
  · rintro rfl
    exact absurd h (by decide)

theorem float?_eq (cs : List Char) :
    float? cs = ((magnitude? (takeSign cs).2).or (specialMagnitude? (takeSign cs).2)).map
      fun x => if (takeSign cs).1 then -x else x := rfl

/-- **Only a text that spells NaN is read as NaN.** -/
theorem eq_nan_iff_of_float? {cs : List Char} {x : Float} (h : float? cs = some x) :
    x = Float.nan ↔ SpellsNan cs := by
  rw [float?_eq] at h
  obtain ⟨y, hy, hsign⟩ := Option.map_eq_some_iff.1 h
  have hx : x = Float.nan ↔ y = Float.nan := by
    rw [← hsign]
    split
    · exact neg_eq_nan_iff
    · exact Iff.rfl
  rw [hx, SpellsNan]
  rcases Option.or_eq_some_iff.1 hy with hdigits | ⟨-, hword⟩
  -- digits never give a NaN, and no spelling of nan starts with a digit or a dot
  · refine iff_of_false (magnitude?_ne_nan hdigits) fun hspells => ?_
    have hnan : "nan".toList = ['n', 'a', 'n'] := rfl
    rw [hnan] at hspells
    obtain ⟨c, r, hr, hc, -⟩ := List.map_eq_cons_iff.1 hspells
    obtain ⟨hdigit, hdot⟩ := of_toLower_eq_n hc
    rw [hr, magnitude?_eq_none hdigit hdot] at hdigits
    cases hdigits
  · exact specialMagnitude?_eq_nan_iff hword

end MetaQuery.Decimal
