import Contour.Proofs.Signs

/-!
# Values of doubles

A double that is not infinite stands for a real number.  Its mantissa is full unless its exponent is
the least one, so of two such doubles the one with the greater exponent is larger, and doubles are
ordered by their values.

* `Double.scaled` — the number that a mantissa and an exponent stand for.
* `Double.Canonical` — mantissas and exponents of doubles; `Canonical.scaled_le_iff` compares them.
* `Double.Finite`, `Double.partsValue` — exact parts that have a value; `compare_isLE_iff`.
* `Double.sub_eq_add_opposite` — a difference of exact parts is a sum.
* `Double.unpack_pack_finite` — canonical parts are packed without loss unless they overflow.
* `Double.value`, `Double.le_iff_value` — the value of a double.
-/

namespace Contour.Double

open Float.Model Float.Model.UnpackedFloat

/-! ## Mantissas and exponents -/

/-- The number that a mantissa and an exponent stand for. -/
noncomputable def scaled (m e : ℤ) : ℝ := m * 2 ^ e

lemma scaled_le_iff {m n e : ℤ} : scaled m e ≤ scaled n e ↔ m ≤ n := by
  rw [scaled, scaled, mul_le_mul_iff_left₀ (by positivity), Int.cast_le]

lemma scaled_shift (m e : ℤ) (k : ℕ) : scaled (m * 2 ^ k) (e - k) = scaled m e := by
  rw [scaled, scaled, zpow_sub₀ two_ne_zero, zpow_natCast]
  push_cast
  field_simp

lemma scaled_neg (m e : ℤ) : scaled (-m) e = -scaled m e := by
  rw [scaled, scaled, Int.cast_neg, neg_mul]

lemma scaled_zero (e : ℤ) : scaled 0 e = 0 := by
  rw [scaled, Int.cast_zero, zero_mul]

/-- The greater exponent decides, if the mantissa with it is full. -/
lemma scaled_lt_of_lt {m n : ℕ} {e d : ℤ} (hm : m < 2 ^ 53) (hn : 2 ^ 52 ≤ n) (h : e < d) :
    scaled m e < scaled n d := by
  obtain ⟨k, hk⟩ : ∃ k : ℕ, d - (k + 1 : ℕ) = e := ⟨(d - e - 1).toNat, by omega⟩
  rw [← scaled_shift n d (k + 1), hk, ← not_le, scaled_le_iff, not_le]
  have hbits : m < n * 2 ^ (k + 1) := by
    calc m < 2 ^ 52 * 2 ^ (0 + 1) := hm
      _ ≤ n * 2 ^ (k + 1) := Nat.mul_le_mul hn (Nat.pow_le_pow_right two_pos (by omega))
  exact_mod_cast hbits

/-- A mantissa and an exponent as doubles have them: all bits are used unless the exponent is the
least. -/
structure Canonical (m : ℕ) (e : ℤ) : Prop extends Fits m e where
  full : 2 ^ 52 ≤ m ∨ e = -1074

/-- **Doubles of one sign are ordered by their exponents** and then by their mantissas. -/
lemma Canonical.scaled_le_iff {m n : ℕ} {e d : ℤ} (h : Canonical m e) (h' : Canonical n d) :
    scaled m e ≤ scaled n d ↔ e < d ∨ e = d ∧ m ≤ n := by
  -- an exponent above another is not the least one
  have hfull : ∀ {m : ℕ} {e d : ℤ}, Canonical m e → -1074 ≤ d → d < e → 2 ^ 52 ≤ m :=
    fun h hd hlt => h.full.resolve_right (by omega)
  rcases lt_trichotomy e d with hlt | rfl | hgt
  · exact iff_of_true (scaled_lt_of_lt h.lt (hfull h' h.le hlt) hlt).le (.inl hlt)
  · rw [Double.scaled_le_iff, Nat.cast_le]
    simp
  · refine iff_of_false (scaled_lt_of_lt h'.lt (hfull h h'.le hgt) hgt).not_ge ?_
    omega

/-! ## Exact parts -/

/-- Exact parts that are neither infinite nor without a number. -/
def Finite : UnpackedFloat → Prop
  | .zero _ | .finite _ _ _ _ => True
  | _ => False

/-- Exact parts of which the mantissa and the exponent are those of a double. -/
def CanonicalParts : UnpackedFloat → Prop
  | .finite _ m e _ => Canonical m e
  | _ => True

/-- The number that exact parts stand for. -/
noncomputable def partsValue : UnpackedFloat → ℝ
  | .finite s m e _ => scaled (s.apply m) e
  | _ => 0

section Parts

variable {u v : UnpackedFloat} {m : ℕ} {e : ℤ}

lemma partsValue_pos (hm : 0 < m) : 0 < partsValue (.finite .positive m e hm) := by
  show (0 : ℝ) < ((m : ℤ) : ℝ) * 2 ^ e
  positivity

lemma partsValue_neg (hm : 0 < m) : partsValue (.finite .negative m e hm) < 0 := by
  have hpos := partsValue_pos (e := e) hm
  rw [show partsValue (.finite .negative m e hm) = -partsValue (.finite .positive m e hm) from
    scaled_neg _ _]
  linarith

/-- **Exact parts are ordered by their values.** -/
lemma compare_isLE_iff (hu : Finite u) (hv : Finite v) (hcu : CanonicalParts u)
    (hcv : CanonicalParts v) :
    (∃ o, u.compare v = some o ∧ o.isLE) ↔ partsValue u ≤ partsValue v := by
  have hnone : ∀ s : Sign, partsValue (.zero s) = 0 := fun _ => rfl
  have horder : ∀ (m n : ℕ) (e d : ℤ),
      ((compare e d).then (compare m n)).isLE ↔ e < d ∨ e = d ∧ m ≤ n := fun m n e d => by
    rw [Ordering.isLE_then_iff_or, compare_lt_iff_lt, compare_eq_iff_eq, Nat.isLE_compare]
  rcases u with (_ | _) | _ | s | ⟨_ | _, m, e, hm⟩ <;>
    rcases v with (_ | _) | _ | t | ⟨_ | _, n, d, hn⟩
  case zero.zero => simp [UnpackedFloat.compare, hnone]
  case zero.finite.positive => simp [UnpackedFloat.compare, hnone, (partsValue_pos hn).le]
  case zero.finite.negative => simp [UnpackedFloat.compare, hnone, partsValue_neg hn]
  case finite.positive.zero => simp [UnpackedFloat.compare, hnone, partsValue_pos hm]
  case finite.negative.zero => simp [UnpackedFloat.compare, hnone, (partsValue_neg hm).le]
  case finite.positive.finite.negative =>
    simp [UnpackedFloat.compare, (partsValue_neg hn).trans (partsValue_pos hm)]
  case finite.negative.finite.positive =>
    simp [UnpackedFloat.compare, ((partsValue_neg hm).trans (partsValue_pos hn)).le]
  case finite.positive.finite.positive =>
    show (∃ o, some ((compare e d).then (compare m n)) = some o ∧ o.isLE) ↔ scaled m e ≤ scaled n d
    rw [Canonical.scaled_le_iff hcu hcv, ← horder]
    simp only [Option.some.injEq, exists_eq_left']
  case finite.negative.finite.negative =>
    show (∃ o, some ((compare e d).then (compare m n)).swap = some o ∧ o.isLE)
      ↔ scaled (-m) e ≤ scaled (-n) d
    rw [scaled_neg, scaled_neg, neg_le_neg_iff, Canonical.scaled_le_iff hcv hcu, ← horder,
      Ordering.swap_then, Int.compare_swap, Nat.compare_swap]
    simp only [Option.some.injEq, exists_eq_left']
  all_goals first | exact False.elim hu | exact False.elim hv

lemma apply_opposite (s : Sign) (m : ℤ) : (-s).apply m = -s.apply m := by
  cases s
  · exact (neg_neg m).symm
  · rfl

/-- **To subtract is to add with the other sign.** -/
lemma sub_eq_add_opposite (u v : UnpackedFloat) : u.sub .binary64 v = u.add .binary64 v.neg := by
  rcases u with s | _ | s | ⟨s, m, e, hm⟩ <;> rcases v with t | _ | t | ⟨t, n, d, hn⟩
  case finite.finite =>
    show UnpackedFloat.normalize _ (_ - t.apply _) _ _ = UnpackedFloat.normalize _ (_ + (-t).apply _) _ _
    rw [apply_opposite, ← sub_eq_add_neg]
  all_goals rfl

lemma finite_opposite (hu : Finite u) : Finite u.neg := by
  cases u <;> trivial

lemma canonicalParts_opposite (hcu : CanonicalParts u) : CanonicalParts u.neg := by
  cases u <;> exact hcu

lemma partsValue_opposite (u : UnpackedFloat) : partsValue u.neg = -partsValue u := by
  rcases u with s | _ | s | ⟨s, m, e, hm⟩
  case finite =>
    show scaled ((-s).apply m) e = -scaled (s.apply m) e
    rw [apply_opposite, scaled_neg]
  all_goals exact neg_zero.symm

end Parts

/-! ## Packing -/

section Packing

variable (s : Sign) {m : ℕ} {e : ℤ}

lemma finite_congr {n : ℕ} {d : ℤ} (hm : 0 < m) (hn : 0 < n) (hmn : m = n) (hed : e = d) :
    UnpackedFloat.finite s m e hm = .finite s n d hn := by
  subst hmn hed
  rfl

lemma ofBitVec_toBitVec : ∀ s : Sign, Sign.ofBitVec s.toBitVec = s := by
  rintro (_ | _) <;> rfl

/-- The fields of a normal number. -/
lemma unpack_normal {exponent : BitVec 11} (mantissa : BitVec 52) (htop : exponent ≠ -1#11)
    (hbottom : exponent ≠ 0#11) : ∃ hm,
    UnpackedFloat.unpack .binary64 (packComponents .binary64 s exponent mantissa)
      = .finite s (2 ^ 52 + mantissa.toNat) (exponent.toNat - 1075) hm := by
  refine ⟨by positivity, ?_⟩
  unfold UnpackedFloat.unpack
  simp only [unpackExponent_packComponents, unpackMantissa_packComponents,
    unpackSign_packComponents, ofBitVec_toBitVec, if_neg htop, if_neg hbottom]
  exact finite_congr s _ _ (one_append_toNat mantissa) rfl

/-- The fields of a subnormal number. -/
lemma unpack_subnormal {mantissa : BitVec 52} (hnone : mantissa ≠ 0#52) : ∃ hm,
    UnpackedFloat.unpack .binary64 (packComponents .binary64 s 0#11 mantissa)
      = .finite s mantissa.toNat (-1074) hm := by
  refine ⟨Nat.pos_of_ne_zero fun h => hnone (BitVec.eq_of_toNat_eq h), ?_⟩
  unfold UnpackedFloat.unpack
  simp only [unpackExponent_packComponents, unpackMantissa_packComponents,
    unpackSign_packComponents, ofBitVec_toBitVec]
  rw [if_neg (by decide), if_pos trivial, dif_neg hnone]
  exact finite_congr s _ _ rfl (by decide)

/-- **Canonical parts are packed without loss** if a double has room for their exponent. -/
lemma unpack_pack_finite (hm : 0 < m) (h : Canonical m e) (hroom : e ≤ 971) :
    (Float.Model.pack (.finite s m e hm)).unpack = .finite s m e hm := by
  have hlt := h.lt
  have hle := h.le
  show UnpackedFloat.unpack .binary64 (UnpackedFloat.pack .binary64 _) = _
  by_cases hnormal : 2 ^ 52 ≤ m
  · obtain ⟨mantissa, rfl⟩ : ∃ mantissa : BitVec 52, (1#1 ++ mantissa).toNat = m := by
      refine ⟨BitVec.ofNat 52 m, ?_⟩
      rw [one_append_toNat, BitVec.toNat_ofNat]
      omega
    obtain ⟨exponent, hexponent⟩ : ∃ exponent : BitVec 11, (exponent.toNat : ℤ) = e + 1075 := by
      refine ⟨BitVec.ofNat 11 (e + 1075).toNat, ?_⟩
      rw [BitVec.toNat_ofNat]
      omega
    have hne : ∀ b : BitVec 11, (b.toNat : ℤ) ≠ e + 1075 → exponent ≠ b :=
      fun b hb heq => hb (heq ▸ hexponent)
    have htop : exponent ≠ -1#11 := hne _ (by show (2047 : ℤ) ≠ _; omega)
    have hbottom : exponent ≠ 0#11 := hne _ (by show (0 : ℤ) ≠ _; omega)
    obtain rfl : e = exponent.toNat - ((Format.binary64.exponentBias : ℕ)
        + (Format.binary64.mantissaBitsWithoutImplicit : ℕ)) := by
      show e = exponent.toNat - ((1023 : ℕ) + (52 : ℕ))
      omega
    obtain ⟨hpos, hunpack⟩ := unpack_normal s mantissa htop hbottom
    rw [pack_normal s htop hm]
    exact hunpack.trans (finite_congr s _ _ (one_append_toNat mantissa).symm rfl)
  · obtain ⟨mantissa, rfl⟩ : ∃ mantissa : BitVec 52, mantissa.toNat = m :=
      ⟨BitVec.ofNat 52 m, by rw [BitVec.toNat_ofNat, Nat.mod_eq_of_lt (not_le.mp hnormal)]⟩
    obtain rfl : e = -1074 := h.full.resolve_left hnormal
    have hnone : mantissa ≠ 0#52 := fun heq => hm.ne' (heq ▸ rfl)
    obtain ⟨hpos, hunpack⟩ := unpack_subnormal s hnone
    rw [pack_subnormal s hm]
    exact hunpack

/-- What a double has no room for becomes infinite. -/
lemma unpack_pack_overflow (hm : 0 < m) (hroom : 971 < e) :
    (Float.Model.pack (.finite s m e hm)).unpack = .infinity s := by
  rw [← unpack_pack_infinity]
  show UnpackedFloat.unpack .binary64 (UnpackedFloat.pack .binary64 _) = UnpackedFloat.unpack .binary64 _
  unfold UnpackedFloat.pack
  dsimp only
  have hover : 2 ^ Format.binary64.exponentBits ≤ (e + (Format.binary64.exponentBias : ℕ)
      + (Format.binary64.mantissaBitsWithoutImplicit : ℕ)).toNat + 1 := by
    show 2 ^ 11 ≤ (e + (1023 : ℕ) + (52 : ℕ)).toNat + 1
    omega
  rw [if_pos hover]
  rfl

end Packing

/-! ## Doubles -/

section Doubles

variable {x y : Float}

/-- The parts of a double are canonical, and their exponent is not too large. -/
lemma canonical_of_unpack_bits {b : BitVec Format.binary64.numBits} {s : Sign} {m : ℕ} {e : ℤ}
    {hm : 0 < m} (h : UnpackedFloat.unpack .binary64 b = .finite s m e hm) :
    Canonical m e ∧ e ≤ 971 := by
  have hfits : Fits m e := by
    have hparts := fitsParts_unpack_bits b
    rwa [h] at hparts
  have hexponent : (unpackExponent b).toNat < 2 ^ 11 := BitVec.isLt _
  unfold UnpackedFloat.unpack at h
  dsimp only at h
  split_ifs at h with htop hzero hbottom hnone
  · obtain ⟨rfl, rfl, rfl⟩ := UnpackedFloat.finite.inj h
    rw [hbottom] at hfits ⊢
    exact ⟨⟨hfits, .inr rfl⟩, by decide⟩
  · obtain ⟨rfl, rfl, rfl⟩ := UnpackedFloat.finite.inj h
    have htop' : (unpackExponent b).toNat ≠ 2047 := fun heq => htop (BitVec.eq_of_toNat_eq heq)
    refine ⟨⟨hfits, .inl ?_⟩, ?_⟩
    · rw [one_append_toNat]
      exact Nat.le_add_right _ _
    · show ((unpackExponent b).toNat : ℤ) - ((1023 : ℕ) + (52 : ℕ)) ≤ 971
      omega

lemma canonical_of_unpack {s : Sign} {m : ℕ} {e : ℤ} {hm : 0 < m}
    (h : x.toModel.unpack = .finite s m e hm) : Canonical m e ∧ e ≤ 971 := canonical_of_unpack_bits h

lemma canonicalParts_unpack (x : Float) : CanonicalParts x.toModel.unpack := by
  rcases hx : x.toModel.unpack with s | _ | s | ⟨s, m, e, hm⟩
  case finite => exact (canonical_of_unpack hx).1
  all_goals trivial

/-- The number that a double stands for. -/
noncomputable def value (x : Float) : ℝ := partsValue x.toModel.unpack

/-- **Doubles are ordered by their values.** -/
lemma le_iff_value (hx : Finite x.toModel.unpack) (hy : Finite y.toModel.unpack) :
    x ≤ y ↔ value x ≤ value y :=
  le_iff.trans (compare_isLE_iff hx hy (canonicalParts_unpack x) (canonicalParts_unpack y))

end Doubles

end Contour.Double
