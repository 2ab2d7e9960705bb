import Contour.Proofs.Difference

/-!
# Signs of doubles

Of doubles that are numbers, one of two is less or they are equal; but a comparison with what is no
number is false whichever way it is written.  Rounding does not lose a sign, and loses a size only
below the least double; so a sum of squares is above zero as soon as one of them is large enough, and
is no number only if one of the terms is none.

* `Double.not_lt_iff`, `Double.not_le_iff` — a comparison and its denial.
* `Double.Above`, `Double.NotBelow` — signs of exact parts; `Double.pos_iff` — the sign of a double.
* `Double.roundWithAccuracy_signs`, `pack_above`, `pack_notBelow` — rounding and packing keep a sign.
* `Double.add_signs`, `sqrt_signs`, `above_mul_self` — sums, roots and squares.
* `Double.Nil` — what comes of subtracting a number from itself.
-/

namespace Contour.Double

open Float.Model Float.Model.UnpackedFloat

/-! ## Comparisons -/

section Comparisons

variable {x y : Float}

lemma compare_swap (u v : UnpackedFloat) : v.compare u = (u.compare v).map Ordering.swap := by
  rcases u with (_ | _) | _ | s | ⟨_ | _, m, e, hm⟩ <;>
    rcases v with (_ | _) | _ | t | ⟨_ | _, n, d, hn⟩
  -- numbers of one sign are compared by their exponents and then by their mantissas
  case finite.positive.finite.positive | finite.negative.finite.negative =>
    simp [UnpackedFloat.compare, Ordering.swap_then, Nat.compare_swap, Int.compare_swap]
  all_goals rfl

lemma compare_eq_none_iff (u v : UnpackedFloat) :
    u.compare v = none ↔ u.isNaN = true ∨ v.isNaN = true := by
  rcases u with (_ | _) | _ | s | ⟨_ | _, m, e, hm⟩ <;>
    rcases v with (_ | _) | _ | t | ⟨_ | _, n, d, hn⟩ <;>
    simp [UnpackedFloat.compare, UnpackedFloat.isNaN]

lemma lt_iff : x < y ↔ x.toModel.unpack.compare y.toModel.unpack = some .lt := by
  show decide (x.toModel.unpack.lt y.toModel.unpack = true) = true ↔ _
  rw [decide_eq_true_iff, UnpackedFloat.lt, beq_iff_eq]

lemma le_iff : x ≤ y ↔ ∃ o, x.toModel.unpack.compare y.toModel.unpack = some o ∧ o.isLE := by
  show decide (x.toModel.unpack.le y.toModel.unpack = true) = true ↔ _
  rw [decide_eq_true_iff, UnpackedFloat.le, Option.any_eq_true]

/-- Doubles cannot be compared iff one of them is no number. -/
lemma compare_none_iff :
    x.toModel.unpack.compare y.toModel.unpack = none ↔ x.isNaN = true ∨ y.isNaN = true :=
  compare_eq_none_iff _ _

/-- A comparison fails if the opposite one holds, or if one side is no number. -/
lemma not_lt_iff : ¬ x < y ↔ y ≤ x ∨ x.isNaN = true ∨ y.isNaN = true := by
  rw [lt_iff, le_iff, compare_swap x.toModel.unpack, ← compare_none_iff]
  rcases x.toModel.unpack.compare y.toModel.unpack with _ | _ | _ | _ <;> simp

lemma not_le_iff : ¬ x ≤ y ↔ y < x ∨ x.isNaN = true ∨ y.isNaN = true := by
  rw [lt_iff, le_iff, compare_swap x.toModel.unpack, ← compare_none_iff]
  rcases x.toModel.unpack.compare y.toModel.unpack with _ | _ | _ | _ <;> simp

/-- Numbers are ordered one way or the other. -/
lemma lt_of_not_le (hx : x.isNaN = false) (hy : y.isNaN = false) (h : ¬ x ≤ y) : y < x := by
  rcases not_le_iff.mp h with hlt | hnan | hnan
  · exact hlt
  · exact absurd (hx.symm.trans hnan) Bool.false_ne_true
  · exact absurd (hy.symm.trans hnan) Bool.false_ne_true

lemma le_of_not_lt (hx : x.isNaN = false) (hy : y.isNaN = false) (h : ¬ x < y) : y ≤ x := by
  rcases not_lt_iff.mp h with hle | hnan | hnan
  · exact hle
  · exact absurd (hx.symm.trans hnan) Bool.false_ne_true
  · exact absurd (hy.symm.trans hnan) Bool.false_ne_true

/-- Only numbers are less than others. -/
lemma not_nan_of_lt (h : x < y) : x.isNaN = false ∧ y.isNaN = false := by
  have hsome : ¬ (x.isNaN = true ∨ y.isNaN = true) := by
    rw [← compare_none_iff, lt_iff.mp h]
    simp
  simpa using hsome

lemma not_nan_of_le (h : x ≤ y) : x.isNaN = false ∧ y.isNaN = false := by
  obtain ⟨o, ho, -⟩ := le_iff.mp h
  have hsome : ¬ (x.isNaN = true ∨ y.isNaN = true) := by
    rw [← compare_none_iff, ho]
    simp
  simpa using hsome

end Comparisons

/-! ## Rounding -/

section Rounding

lemma mantissa_shiftRight (em : ExtendedMantissa) (k : ℕ) :
    (em >>> k).mantissa = em.mantissa / 2 ^ k := by
  induction k with
  | zero =>
      show em.mantissa = em.mantissa / 2 ^ 0
      rw [pow_zero, Nat.div_one]
  | succ k ih =>
      show (em >>> k).mantissa / 2 = em.mantissa / 2 ^ (k + 1)
      rw [ih, Nat.div_div_eq_div_mul, pow_succ]

lemma mantissa_ofMantissaAndAccuracy (m : ℕ) (accuracy : Accuracy) :
    (ExtendedMantissa.ofMantissaAndAccuracy m accuracy).mantissa = m := by
  rcases accuracy with _ | _ | _ | _ <;> rfl

/-- Rounding never makes a mantissa smaller. -/
lemma le_roundedMantissa (em : ExtendedMantissa) : em.mantissa ≤ em.roundedMantissa := by
  obtain ⟨m, _ | _, _ | _⟩ := em
  · exact le_rfl
  · exact le_rfl
  · exact Nat.le_add_right m (m % 2)
  · exact Nat.le_add_right m 1

/-- A mantissa and an exponent of a double, however it came about. -/
structure Fits (m : ℕ) (e : ℤ) : Prop where
  lt : m < 2 ^ 53
  le : -1074 ≤ e

variable {m : ℕ} {e : ℤ}

/-- Shifted to the exponent of a double, a mantissa has room; it is lost only below the least
double. -/
lemma shiftToTargetExponent_fits (m : ℕ) (e : ℤ) (accuracy : Accuracy) :
    Fits (shiftToTargetExponent .binary64 m e accuracy).1.mantissa
        (shiftToTargetExponent .binary64 m e accuracy).2 ∧
      (0 < m → -1074 ≤ e + m.log2 →
        0 < (shiftToTargetExponent .binary64 m e accuracy).1.mantissa) := by
  have htarget : Format.binary64.targetExponent (totalExponent m e)
      = max (m.log2 + 1 + e - 53) (-1074) := rfl
  set k := (Format.binary64.targetExponent (totalExponent m e) - e).toNat with hk
  have hmantissa : (shiftToTargetExponent .binary64 m e accuracy).1.mantissa = m / 2 ^ k := by
    show (ExtendedMantissa.ofMantissaAndAccuracy m accuracy >>> k).mantissa = _
    rw [mantissa_shiftRight, mantissa_ofMantissaAndAccuracy]
  have hexponent : (shiftToTargetExponent .binary64 m e accuracy).2 = e + k := rfl
  rw [hmantissa, hexponent]
  rw [htarget] at hk
  refine ⟨⟨?_, by omega⟩, fun hm he => ?_⟩
  · rw [Nat.div_lt_iff_lt_mul (by positivity), ← pow_add]
    exact Nat.lt_log2_self.trans_le (Nat.pow_le_pow_right two_pos (by omega))
  · refine Nat.div_pos ?_ (by positivity)
    exact (Nat.pow_le_pow_right two_pos (by omega)).trans (Nat.log2_self_le hm.ne')

end Rounding

/-! ## Signs -/

/-- Exact parts above zero, infinity included. -/
def Above : UnpackedFloat → Prop
  | .infinity .positive | .finite .positive _ _ _ => True
  | _ => False

/-- Exact parts that are not below zero, and a number. -/
def NotBelow : UnpackedFloat → Prop
  | .infinity .positive | .zero _ | .finite .positive _ _ _ => True
  | _ => False

/-- Exact parts of which nothing is lost in a double but by overflow. -/
def FitsParts : UnpackedFloat → Prop
  | .finite _ m e _ => Fits m e
  | _ => True

section Parts

variable {u v : UnpackedFloat} {m : ℕ} {e : ℤ}

lemma Above.notBelow (h : Above u) : NotBelow u := by
  rcases u with (_ | _) | _ | s | ⟨_ | _, m, e, hm⟩ <;> first | exact h | trivial

/-- Rounding keeps a sign, and a size that is not below the least double. -/
lemma roundWithAccuracy_signs (m : ℕ) (e : ℤ) (accuracy : Accuracy) :
    FitsParts (roundWithAccuracy .binary64 .positive m e accuracy) ∧
      NotBelow (roundWithAccuracy .binary64 .positive m e accuracy) ∧
      (0 < m → -1074 ≤ e + m.log2 →
        Above (roundWithAccuracy .binary64 .positive m e accuracy)) := by
  obtain ⟨hfits, hpos⟩ := shiftToTargetExponent_fits m e accuracy
  unfold roundWithAccuracy
  dsimp only
  set em := (shiftToTargetExponent .binary64 m e accuracy).1
  set e₁ := (shiftToTargetExponent .binary64 m e accuracy).2
  obtain ⟨hfits', hpos'⟩ := shiftToTargetExponent_fits em.roundedMantissa e₁ .exact
  split_ifs with hzero
  · refine ⟨trivial, trivial, fun hm he => ?_⟩
    have hrounded := (hpos hm he).trans_le (le_roundedMantissa em)
    have hshifted := hpos' hrounded (by have := hfits.le; omega)
    omega
  · exact ⟨hfits', trivial, fun _ _ => trivial⟩

/-- The fields of a positive number that is not infinite. -/
lemma unpack_packComponents_signs {exponent : BitVec 11} (mantissa : BitVec 52)
    (hexponent : exponent ≠ -1#11) :
    NotBelow (UnpackedFloat.unpack .binary64 (packComponents .binary64 .positive exponent mantissa)) ∧
      (exponent ≠ 0#11 ∨ mantissa ≠ 0#52 →
        Above (UnpackedFloat.unpack .binary64
          (packComponents .binary64 .positive exponent mantissa))) := by
  have hsign : Sign.ofBitVec Sign.positive.toBitVec = .positive := rfl
  unfold UnpackedFloat.unpack
  simp only [unpackExponent_packComponents, unpackMantissa_packComponents,
    unpackSign_packComponents, hsign, if_neg hexponent]
  split_ifs with hzero hnone
  · refine ⟨trivial, ?_⟩
    rintro (h | h)
    · exact absurd hzero h
    · exact absurd hnone h
  · exact ⟨trivial, fun _ => trivial⟩
  · exact ⟨trivial, fun _ => trivial⟩

lemma pack_finite_signs (hm : 0 < m) :
    NotBelow (Float.Model.pack (.finite .positive m e hm)).unpack ∧
      (Fits m e → Above (Float.Model.pack (.finite .positive m e hm)).unpack) := by
  show NotBelow (UnpackedFloat.unpack .binary64 (UnpackedFloat.pack .binary64 _)) ∧
    (Fits m e → Above (UnpackedFloat.unpack .binary64 (UnpackedFloat.pack .binary64 _)))
  set biased := (e + (Format.binary64.exponentBias : ℕ)
    + (Format.binary64.mantissaBitsWithoutImplicit : ℕ)).toNat with hbiased
  have hbias : biased = (e + 1075).toNat := by
    rw [hbiased]
    show (e + (1023 : ℕ) + (52 : ℕ)).toNat = _
    congr 1
    omega
  unfold UnpackedFloat.pack
  dsimp only
  rw [← hbiased]
  split_ifs with hover hnormal
  · exact ⟨trivial, fun _ => trivial⟩
  · have hroom : ¬ 2 ^ 11 ≤ biased + 1 := hover
    have htop : BitVec.ofNat 11 biased ≠ -1#11 := by
      intro h
      have hfield := congrArg BitVec.toNat h
      rw [BitVec.toNat_ofNat, Nat.mod_eq_of_lt (by omega)] at hfield
      change biased = 2047 at hfield
      omega
    obtain ⟨hnotBelow, habove⟩ := unpack_packComponents_signs (BitVec.ofNat 52 m) htop
    refine ⟨hnotBelow, fun hfits => habove (.inl ?_)⟩
    intro h
    have hfield := congrArg BitVec.toNat h
    rw [BitVec.toNat_ofNat, Nat.mod_eq_of_lt (by omega)] at hfield
    change biased = 0 at hfield
    have hle := hfits.le
    omega
  · obtain ⟨hnotBelow, habove⟩ :=
      unpack_packComponents_signs (BitVec.ofNat 52 m) (show 0#11 ≠ -1#11 by decide)
    refine ⟨hnotBelow, fun hfits => habove (.inr ?_)⟩
    have hplaces : ¬ m.log2 + 1 = 53 := hnormal
    have hlog : m.log2 < 53 := (Nat.log2_lt hm.ne').mpr hfits.lt
    have hsmall : m < 2 ^ 52 := (Nat.log2_lt hm.ne').mp (by omega)
    intro h
    have hfield := congrArg BitVec.toNat h
    rw [BitVec.toNat_ofNat, Nat.mod_eq_of_lt hsmall] at hfield
    exact hm.ne' hfield

/-- **Packing keeps a sign.** -/
lemma pack_notBelow (h : NotBelow u) : NotBelow (Float.Model.pack u).unpack := by
  rcases u with (_ | _) | _ | s | ⟨_ | _, m, e, hm⟩
  case infinity.positive => exact trivial
  case zero => cases s <;> exact trivial
  case finite.positive => exact (pack_finite_signs hm).1
  all_goals cases h

/-- What is above zero and fits a double is above zero as a double. -/
lemma pack_above (h : Above u) (hfits : FitsParts u) : Above (Float.Model.pack u).unpack := by
  rcases u with (_ | _) | _ | s | ⟨_ | _, m, e, hm⟩
  case infinity.positive => exact trivial
  case finite.positive => exact (pack_finite_signs hm).2 hfits
  all_goals cases h

lemma fitsParts_unpack_bits (b : BitVec Format.binary64.numBits) :
    FitsParts (UnpackedFloat.unpack .binary64 b) := by
  unfold UnpackedFloat.unpack
  dsimp only
  split_ifs with htop hzero hbottom hnone
  · trivial
  · trivial
  · trivial
  · -- a subnormal number has the least exponent
    have hlt : (unpackMantissa b).toNat < 2 ^ 52 := BitVec.isLt _
    refine ⟨by omega, ?_⟩
    rw [hbottom]
    decide
  · have hpos : (unpackExponent b).toNat ≠ 0 := fun h => hbottom (BitVec.eq_of_toNat_eq h)
    refine ⟨BitVec.isLt (1#1 ++ unpackMantissa b), ?_⟩
    show (-1074 : ℤ) ≤ (unpackExponent b).toNat - ((1023 : ℕ) + (52 : ℕ))
    omega

/-- The parts of a double fit a double. -/
lemma fitsParts_unpack (x : Float) : FitsParts x.toModel.unpack := fitsParts_unpack_bits _

/-! ## Sums, squares and roots of exact parts -/

/-- A positive mantissa at the exponent of a double is rounded to something above zero. -/
lemma round_signs (hm : 0 < m) (he : -1074 ≤ e) :
    Above (UnpackedFloat.round .binary64 .positive m e) ∧
      FitsParts (UnpackedFloat.round .binary64 .positive m e) := by
  unfold UnpackedFloat.round
  dsimp only [decreaseExponent]
  set k := (e - Format.binary64.targetExponent (totalExponent m e)).toNat
  obtain ⟨hfits, -, habove⟩ := roundWithAccuracy_signs (m <<< k) (e - k) .exact
  have hpos : 0 < m <<< k := by
    rw [Nat.shiftLeft_eq]
    positivity
  refine ⟨habove hpos ?_, hfits⟩
  -- what the exponent loses the mantissa gains
  have hlog : m.log2 + k ≤ (m <<< k).log2 := by
    rw [Nat.le_log2 hpos.ne', pow_add, Nat.shiftLeft_eq]
    exact Nat.mul_le_mul_right _ (Nat.log2_self_le hm.ne')
  omega

lemma add_finite {n : ℕ} {d : ℤ} (hm : 0 < m) (hn : 0 < n) :
    ∃ sum, 0 < sum ∧ (UnpackedFloat.finite .positive m e hm).add .binary64 (.finite .positive n d hn)
      = UnpackedFloat.round .binary64 .positive sum (min e d) := by
  set sum := m <<< (e - min e d).toNat + n <<< (d - min e d).toNat with hsum
  have hpos : 0 < sum := by
    rw [hsum, Nat.shiftLeft_eq, Nat.shiftLeft_eq]
    positivity
  refine ⟨sum, hpos, ?_⟩
  show UnpackedFloat.normalize .binary64 (((m <<< (e - min e d).toNat : ℕ) : ℤ)
    + ((n <<< (d - min e d).toNat : ℕ) : ℤ)) (min e d) .positive = _
  rw [← Nat.cast_add, ← hsum, UnpackedFloat.normalize,
    compare_gt_iff_gt.mpr (by exact_mod_cast hpos)]
  rfl

/-- **A sum of numbers that are not below zero** is another, and above zero if one of them is. -/
lemma add_signs (hu : NotBelow u) (hv : NotBelow v) (hfu : FitsParts u) (hfv : FitsParts v) :
    NotBelow (u.add .binary64 v) ∧ (Above u ∨ Above v → Above (u.add .binary64 v)) ∧
      FitsParts (u.add .binary64 v) := by
  rcases u with (_ | _) | _ | s | ⟨_ | _, m, e, hm⟩ <;>
    rcases v with (_ | _) | _ | t | ⟨_ | _, n, d, hn⟩
  case finite.positive.finite.positive =>
    obtain ⟨sum, hpos, hadd⟩ := add_finite (e := e) (d := d) hm hn
    obtain ⟨habove, hfits⟩ := round_signs hpos (le_min hfu.le hfv.le)
    rw [hadd]
    exact ⟨habove.notBelow, fun _ => habove, hfits⟩
  case zero.zero => cases s <;> cases t <;> exact ⟨trivial, fun h => h.elim id id, trivial⟩
  all_goals first
    | exact False.elim hu
    | exact False.elim hv
    | exact ⟨trivial, fun _ => trivial, trivial⟩
    | exact ⟨trivial, fun _ => trivial, hfu⟩
    | exact ⟨trivial, fun _ => trivial, hfv⟩

/-- **The root of a number that is not below zero** is another, and above zero if it was. -/
lemma sqrt_signs (hu : NotBelow u) (hfu : FitsParts u) :
    NotBelow (u.sqrt .binary64) ∧ (Above u → Above (u.sqrt .binary64)) ∧
      FitsParts (u.sqrt .binary64) := by
  rcases u with (_ | _) | _ | s | ⟨_ | _, m, e, hm⟩
  case finite.positive =>
    show NotBelow (roundWithAccuracy .binary64 .positive (sqrtCore .binary64 m e).1
        (sqrtCore .binary64 m e).2.1 (sqrtCore .binary64 m e).2.2) ∧ _
    obtain ⟨hfits, hnotBelow, habove⟩ := roundWithAccuracy_signs (sqrtCore .binary64 m e).1
        (sqrtCore .binary64 m e).2.1 (sqrtCore .binary64 m e).2.2
    refine ⟨hnotBelow, fun _ => habove ?_ ?_, hfits⟩
    · show 0 < Nat.sqrt _
      rw [Nat.sqrt_pos, Nat.shiftLeft_eq]
      positivity
    · have htarget : ∀ t, -1074 ≤ Format.binary64.targetExponent t := fun t => le_max_right _ _
      have hhalf : -1074 ≤ e / 2 := by
        have := hfu.le
        omega
      exact (le_min hhalf (htarget _)).trans (le_add_of_nonneg_right (Nat.cast_nonneg _))
  case zero => exact ⟨trivial, id, trivial⟩
  case infinity.positive => exact ⟨trivial, id, trivial⟩
  all_goals cases hu

/-- **A square is not below zero**, and above zero if it does not underflow. -/
lemma mul_self_signs (hu : u.isNaN = false) :
    NotBelow (u.mul .binary64 u) ∧ FitsParts (u.mul .binary64 u) := by
  rcases u with s | _ | s | ⟨s, m, e, hm⟩
  case infinity => cases s <;> exact ⟨trivial, trivial⟩
  case notANumber => cases hu
  case zero => exact ⟨trivial, trivial⟩
  case finite =>
    have hsign : s * s = .positive := by cases s <;> rfl
    show NotBelow (roundWithAccuracy .binary64 (s * s) _ _ _) ∧
      FitsParts (roundWithAccuracy .binary64 (s * s) _ _ _)
    rw [hsign]
    obtain ⟨hfits, hnotBelow, -⟩ := roundWithAccuracy_signs (m * m) (e + e) .exact
    exact ⟨hnotBelow, hfits⟩

lemma mul_self_above_of_le {e : ℤ} (hm : 0 < m) (he : -500 ≤ e) :
    Above ((UnpackedFloat.finite .positive m e hm).mul .binary64 (.finite .positive m e hm)) := by
  obtain ⟨-, -, habove⟩ := roundWithAccuracy_signs (m * m) (e + e) .exact
  exact habove (by positivity) (by omega)

end Parts

/-! ## Doubles -/

section Doubles

variable {x y : Float}

lemma pos_iff : 0 < x ↔ Above x.toModel.unpack := by
  have hzero : (0 : Float).toModel.unpack = .zero .positive := rfl
  rw [lt_iff, hzero]
  rcases x.toModel.unpack with (_ | _) | _ | s | ⟨_ | _, m, e, hm⟩ <;>
    simp [UnpackedFloat.compare, Above]

lemma unpack_coincidentTol :
    ∃ m hm, (coincidentTol : Float).toModel.unpack = .finite .positive m (-79) hm := ⟨_, _, rfl⟩

/-- What is above the tolerance is infinite, or its exponent is no less than that of the tolerance. -/
lemma parts_of_coincidentTol_lt (h : coincidentTol < x) :
    x.toModel.unpack = .infinity .positive ∨
      ∃ m e hm, x.toModel.unpack = .finite .positive m e hm ∧ -79 ≤ e := by
  obtain ⟨n, hn, htol⟩ := unpack_coincidentTol
  rw [lt_iff, htol] at h
  rcases hx : x.toModel.unpack with (_ | _) | _ | s | ⟨_ | _, m, e, hm⟩ <;> rw [hx] at h
  case infinity.positive => exact .inl rfl
  case finite.positive =>
    refine .inr ⟨m, e, hm, rfl, ?_⟩
    have horder : (compare (-79) e).then (compare n m) = .lt := Option.some.inj h
    rw [Ordering.then_eq_lt, compare_lt_iff_lt, compare_eq_iff_eq] at horder
    omega
  all_goals cases h

lemma pos_of_coincidentTol_lt (h : coincidentTol < x) : 0 < x := by
  rw [pos_iff]
  obtain hinf | ⟨m, e, hm, hparts, -⟩ := parts_of_coincidentTol_lt h
  · rw [hinf]
    trivial
  · rw [hparts]
    trivial

/-! ### Absolute values and squares -/

lemma abs_abs (u : UnpackedFloat) : u.abs.abs = u.abs := by
  rcases u with s | _ | s | ⟨s, m, e, hm⟩ <;> rfl

lemma abs_unpack_abs (x : Float) :
    (Elementary.abs x).toModel.unpack.abs = x.toModel.unpack.abs := by
  have hpack := pack_abs (abs_abs x.toModel.unpack)
  rw [pack_unpack] at hpack
  exact hpack

lemma isNaN_of_abs (u : UnpackedFloat) : u.abs.isNaN = u.isNaN := by
  rcases u with s | _ | s | ⟨s, m, e, hm⟩ <;> rfl

/-- A double is no number iff its absolute value is none. -/
lemma isNaN_abs (x : Float) : (Elementary.abs x : Float).isNaN = x.isNaN := by
  show (Elementary.abs x : Float).toModel.unpack.isNaN = x.toModel.unpack.isNaN
  rw [← isNaN_of_abs, abs_unpack_abs, isNaN_of_abs]

lemma notBelow_mul_self (h : x.isNaN = false) : NotBelow (x * x).toModel.unpack :=
  pack_notBelow (mul_self_signs h).1

/-- **The square of what is larger than the tolerance** is above zero: it does not underflow. -/
lemma above_mul_self (h : coincidentTol < Elementary.abs x) : Above (x * x).toModel.unpack := by
  have habs : (Elementary.abs x : Float) * Elementary.abs x = x * x :=
    sq_eq_of_unpack_abs (abs_unpack_abs x)
  rw [← habs]
  show Above (Float.Model.pack (UnpackedFloat.mul .binary64 _ _)).unpack
  refine pack_above ?_ (mul_self_signs (not_nan_of_lt h).2).2
  obtain hinf | ⟨m, e, hm, hparts, he⟩ := parts_of_coincidentTol_lt h
  · rw [hinf]
    trivial
  · rw [hparts]
    exact mul_self_above_of_le hm (by omega)

/-! ### Sums and roots -/

/-- A sum of doubles that are not below zero. -/
lemma sum_signs (hx : NotBelow x.toModel.unpack) (hy : NotBelow y.toModel.unpack) :
    NotBelow (x + y).toModel.unpack ∧
      (Above x.toModel.unpack ∨ Above y.toModel.unpack → Above (x + y).toModel.unpack) := by
  obtain ⟨hnotBelow, habove, hfits⟩ := add_signs hx hy (fitsParts_unpack x) (fitsParts_unpack y)
  exact ⟨pack_notBelow hnotBelow, fun h => pack_above (habove h) hfits⟩

lemma above_sqrt (hx : Above x.toModel.unpack) :
    Above (Elementary.sqrt x : Float).toModel.unpack := by
  obtain ⟨-, habove, hfits⟩ := sqrt_signs hx.notBelow (fitsParts_unpack x)
  exact pack_above (habove hx) hfits

/-! ### What is no number stays so -/

lemma eq_notANumber {u : UnpackedFloat} (h : u.isNaN = true) : u = .notANumber := by
  rcases u with s | _ | s | ⟨s, m, e, hm⟩ <;> first | rfl | cases h

lemma isNaN_mul_self (h : x.isNaN = true) : (x * x).isNaN = true := by
  have hx : x.toModel.unpack = .notANumber := eq_notANumber h
  show (Float.Model.pack (x.toModel.unpack.mul .binary64 x.toModel.unpack)).unpack.isNaN = true
  rw [hx]
  rfl

lemma isNaN_add (h : x.isNaN = true ∨ y.isNaN = true) : (x + y).isNaN = true := by
  have hadd : x.toModel.unpack.add .binary64 y.toModel.unpack = .notANumber := by
    rcases h with h | h
    · rw [show x.toModel.unpack = .notANumber from eq_notANumber h]
      rfl
    · rw [show y.toModel.unpack = .notANumber from eq_notANumber h]
      cases x.toModel.unpack <;> rfl
  show (Float.Model.pack (x.toModel.unpack.add .binary64 y.toModel.unpack)).unpack.isNaN = true
  rw [hadd]
  rfl

lemma isNaN_sqrt (h : x.isNaN = true) : (Elementary.sqrt x : Float).isNaN = true := by
  have hx : x.toModel.unpack = .notANumber := eq_notANumber h
  show (Float.Model.pack (x.toModel.unpack.sqrt .binary64)).unpack.isNaN = true
  rw [hx]
  rfl

end Doubles

/-! ## Nothing but zeros -/

/-- Exact parts of a zero, or of no number. -/
def Nil : UnpackedFloat → Prop
  | .zero _ | .notANumber => True
  | _ => False

section Nil

variable {u v : UnpackedFloat} {x : Float}

lemma nil_sub_self (u : UnpackedFloat) : Nil (u.sub .binary64 u) := by
  rcases u with (_ | _) | _ | s | ⟨s, m, e, hm⟩
  case zero => cases s <;> exact trivial
  case finite =>
    show Nil (UnpackedFloat.normalize .binary64 (_ - _) _ _)
    rw [sub_self]
    exact trivial
  all_goals exact trivial

lemma nil_mul (hu : Nil u) (v : UnpackedFloat) : Nil (u.mul .binary64 v) := by
  rcases u with s | _ | s | ⟨s, m, e, hm⟩ <;> rcases v with t | _ | t | ⟨t, n, d, hn⟩ <;>
    first | exact trivial | cases hu

lemma nil_add (hu : Nil u) (hv : Nil v) : Nil (u.add .binary64 v) := by
  rcases u with s | _ | s | ⟨s, m, e, hm⟩ <;> rcases v with t | _ | t | ⟨t, n, d, hn⟩
  case zero.zero => cases s <;> cases t <;> exact trivial
  all_goals first | exact trivial | exact False.elim hu | exact False.elim hv

lemma pack_nil (hu : Nil u) : Nil (Float.Model.pack u).unpack := by
  rcases u with s | _ | s | ⟨s, m, e, hm⟩
  case zero => cases s <;> exact trivial
  case notANumber => exact trivial
  all_goals cases hu

/-- A zero is within the tolerance. -/
lemma abs_le_of_nil (hx : Nil x.toModel.unpack) (hnan : x.isNaN = false) :
    Elementary.abs x ≤ coincidentTol := by
  obtain ⟨m, hm, htol⟩ := unpack_coincidentTol
  change x.toModel.unpack.isNaN = false at hnan
  rcases hparts : x.toModel.unpack with t | _ | t | ⟨t, n, d, hn⟩ <;> rw [hparts] at hx hnan
  case zero =>
    have habs : (Elementary.abs x : Float).toModel.unpack = .zero .positive := by
      show (Float.Model.pack x.toModel.unpack.abs).unpack = _
      rw [hparts]
      exact unpack_pack_zero .positive
    rw [le_iff, habs, htol]
    exact ⟨.lt, rfl, rfl⟩
  case notANumber => cases hnan
  all_goals cases hx

end Nil

end Contour.Double
