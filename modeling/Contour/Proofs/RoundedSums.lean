import Contour.Proofs.Values

/-!
# Rounding passes no double

A sum of doubles is computed exactly and then rounded to a double.  Which one is taken does not matter
here, but that no other double lies between: if the exact sum is at most a double, so is the rounded
one, and the same the other way.  So the computed sum of a number and one that is not below zero is
never less than the number.

* `Double.rounded_grid` — rounding a mantissa passes no whole number.
* `Double.RoundsTo` — exact parts that may come of rounding a number; `round_roundsTo`,
  `add_roundsTo`, `sub_roundsTo`.
* `Double.Rounds`, `Double.add_rounds`, `Double.sub_rounds` — the same of doubles, where a sum may
  overflow.
-/

namespace Contour.Double

open Float.Model Float.Model.UnpackedFloat

/-! ## Mantissas -/

section Mantissas

/-- Some bit is lost in a shift iff the mantissa is no multiple of a power of two. -/
lemma residue_shiftRight (m k : ℕ) :
    ((ExtendedMantissa.ofMantissaAndAccuracy m .exact >>> k).roundBit = false ∧
      (ExtendedMantissa.ofMantissaAndAccuracy m .exact >>> k).stickyBit = false) ↔ m % 2 ^ k = 0 := by
  induction k with
  | zero => exact iff_of_true ⟨rfl, rfl⟩ (by rw [pow_zero, Nat.mod_one])
  | succ k ih =>
      show (((ExtendedMantissa.ofMantissaAndAccuracy m .exact >>> k).mantissa % 2 != 0) = false ∧
        ((ExtendedMantissa.ofMantissaAndAccuracy m .exact >>> k).roundBit ||
          (ExtendedMantissa.ofMantissaAndAccuracy m .exact >>> k).stickyBit) = false) ↔ _
      rw [Bool.or_eq_false_iff, ih, mantissa_shiftRight, mantissa_ofMantissaAndAccuracy,
        Nat.mod_pow_succ]
      simp [and_comm]

lemma roundedMantissa_le (em : ExtendedMantissa) : em.roundedMantissa ≤ em.mantissa + 1 := by
  obtain ⟨m, _ | _, _ | _⟩ := em
  · exact Nat.le_succ m
  · exact Nat.le_succ m
  · show m + m % 2 ≤ m + 1
    omega
  · exact le_rfl

lemma roundedMantissa_exact {em : ExtendedMantissa} (hround : em.roundBit = false)
    (hsticky : em.stickyBit = false) : em.roundedMantissa = em.mantissa := by
  obtain ⟨m, round, sticky⟩ := em
  change round = false at hround
  change sticky = false at hsticky
  subst hround hsticky
  rfl

/-- **Rounding a mantissa passes no whole number.** -/
lemma rounded_grid (m k n : ℕ) :
    (n * 2 ^ k ≤ m → n ≤ (ExtendedMantissa.ofMantissaAndAccuracy m .exact >>> k).roundedMantissa) ∧
      (m ≤ n * 2 ^ k →
        (ExtendedMantissa.ofMantissaAndAccuracy m .exact >>> k).roundedMantissa ≤ n) := by
  set em := ExtendedMantissa.ofMantissaAndAccuracy m .exact >>> k with hem
  have hpow : 0 < 2 ^ k := by positivity
  have hmantissa : em.mantissa = m / 2 ^ k := by
    rw [hem, mantissa_shiftRight, mantissa_ofMantissaAndAccuracy]
  constructor
  · intro hle
    have hquotient := (Nat.le_div_iff_mul_le hpow).mpr hle
    exact (hquotient.trans_eq hmantissa.symm).trans (le_roundedMantissa em)
  · intro hle
    by_cases hexact : m % 2 ^ k = 0
    · obtain ⟨hround, hsticky⟩ := (residue_shiftRight m k).mpr hexact
      rw [roundedMantissa_exact hround hsticky, hmantissa]
      exact Nat.div_le_of_le_mul (by rwa [Nat.mul_comm])
    · -- what is rounded up was strictly below
      have hlt : m / 2 ^ k < n := by
        rw [Nat.div_lt_iff_lt_mul hpow]
        refine lt_of_le_of_ne hle fun heq => hexact ?_
        rw [heq, Nat.mul_mod_left]
      exact (roundedMantissa_le em).trans (hmantissa ▸ hlt)

end Mantissas

/-! ## Rounding -/

section Rounding

variable {m n : ℕ} {e d : ℤ}

/-- The exponent that a mantissa and an exponent have as a double. -/
def target (m : ℕ) (e : ℤ) : ℤ := max (m.log2 + 1 + e - 53) (-1074)

lemma target_shift (hm : 0 < m) (e : ℤ) (k : ℕ) : target (m <<< k) (e - k) = target m e := by
  have hlog : (m <<< k).log2 = m.log2 + k := by
    rw [Nat.shiftLeft_eq, Nat.log2_eq_iff (by positivity), pow_add, add_right_comm, pow_add]
    exact ⟨Nat.mul_le_mul_right _ (Nat.log2_self_le hm.ne'),
      Nat.mul_lt_mul_of_pos_right Nat.lt_log2_self (by positivity)⟩
  rw [target, target, hlog]
  push_cast
  congr 1
  omega

lemma scaled_two_pow (k : ℕ) (e : ℤ) : scaled (2 ^ k : ℕ) e = 2 ^ (k + e) := by
  rw [scaled, zpow_add₀ two_ne_zero, zpow_natCast]
  push_cast
  rfl

lemma scaled_mono {m n : ℕ} (h : m ≤ n) (e : ℤ) : scaled m e ≤ scaled n e :=
  scaled_le_iff.mpr (by exact_mod_cast h)

/-- A number has at most 53 bits before its exponent as a double. -/
lemma scaled_le_top (m : ℕ) (e : ℤ) : scaled m e ≤ scaled (2 ^ 53 : ℕ) (target m e) := by
  have htarget : m.log2 + 1 + e - 53 ≤ target m e := le_max_left _ _
  calc scaled m e ≤ scaled (2 ^ (m.log2 + 1) : ℕ) e := scaled_mono Nat.lt_log2_self.le e
    _ = 2 ^ (m.log2 + 1 + e) := by rw [scaled_two_pow, Nat.cast_succ]
    _ ≤ 2 ^ (53 + target m e) := zpow_le_zpow_right₀ one_le_two (by omega)
    _ = scaled (2 ^ 53 : ℕ) (target m e) := by rw [scaled_two_pow, Nat.cast_ofNat]

/-- Unless the exponent is the least, it has 53 of them. -/
lemma bottom_le_scaled (hm : 0 < m) (h : target m e ≠ -1074) :
    scaled (2 ^ 52 : ℕ) (target m e) ≤ scaled m e := by
  have htarget : target m e = m.log2 + 1 + e - 53 := by
    rw [target] at h ⊢
    omega
  calc scaled (2 ^ 52 : ℕ) (target m e) = 2 ^ (52 + target m e) := by
        rw [scaled_two_pow, Nat.cast_ofNat]
    _ = 2 ^ (m.log2 + e) := by
        congr 1
        omega
    _ = scaled (2 ^ m.log2 : ℕ) e := (scaled_two_pow _ _).symm
    _ ≤ scaled m e := scaled_mono (Nat.log2_self_le hm.ne') e

/-- What comes of rounding: a mantissa at the exponent of a double that passes no whole number. -/
structure Grid (m : ℕ) (e : ℤ) (r : ℕ) : Prop where
  le : ∀ n : ℕ, scaled n (target m e) ≤ scaled m e → n ≤ r
  ge : ∀ n : ℕ, scaled m e ≤ scaled n (target m e) → r ≤ n

namespace Grid

variable {r : ℕ}

lemma le_top (h : Grid m e r) : r ≤ 2 ^ 53 := h.ge _ (scaled_le_top m e)

lemma bottom_le (h : Grid m e r) (hm : 0 < m) (htarget : target m e ≠ -1074) : 2 ^ 52 ≤ r :=
  h.le _ (bottom_le_scaled hm htarget)

/-- **Rounding passes no double.** -/
lemma bounds (h : Grid m e r) (hm : 0 < m) (hn : Fits n d) :
    (scaled n d ≤ scaled m e → scaled n d ≤ scaled r (target m e)) ∧
      (scaled m e ≤ scaled n d → scaled r (target m e) ≤ scaled n d) := by
  rcases le_or_gt (target m e) d with hle | hlt
  · -- the double is a whole number of steps
    obtain ⟨k, hk⟩ : ∃ k : ℕ, d - k = target m e := ⟨(d - target m e).toNat, by omega⟩
    have hstep : scaled n d = scaled (n * 2 ^ k : ℕ) (target m e) := by
      rw [← hk, ← scaled_shift n d k]
      push_cast
      rfl
    rw [hstep]
    exact ⟨fun hbelow => scaled_mono (h.le _ hbelow) _, fun habove => scaled_mono (h.ge _ habove) _⟩
  · -- the double is smaller than what is rounded and than what it is rounded to
    have htarget : target m e ≠ -1074 := by
      have := hn.le
      omega
    have hsmall := scaled_lt_of_lt hn.lt le_rfl hlt
    exact ⟨fun _ => hsmall.le.trans (scaled_mono (h.bottom_le hm htarget) _),
      fun habove => absurd (hsmall.trans_le (bottom_le_scaled hm htarget)) habove.not_gt⟩

end Grid

/-- The parts of a mantissa that was rounded at an exponent: they are shifted once more if the mantissa
has become too long. -/
def settled (s : Sign) (r : ℕ) (t : ℤ) : UnpackedFloat :=
  if h : (shiftToTargetExponent .binary64 r t .exact).1.mantissa = 0 then .zero s
  else .finite s (shiftToTargetExponent .binary64 r t .exact).1.mantissa
    (shiftToTargetExponent .binary64 r t .exact).2 (Nat.pos_of_ne_zero h)

lemma exists_grid (s : Sign) (hm : 0 < m) (e : ℤ) :
    ∃ r, Grid m e r ∧ UnpackedFloat.round .binary64 s m e = settled s r (target m e) := by
  -- the mantissa is shifted left, if its exponent is too large, and then right
  set left := (e - target m e).toNat with hleft
  set right := (target m e - (e - left)).toNat with hright
  have hshifted : shiftToTargetExponent .binary64 (m <<< left) (e - left) .exact
      = (ExtendedMantissa.ofMantissaAndAccuracy (m <<< left) .exact >>> right, target m e) := by
    have htarget : Format.binary64.targetExponent (totalExponent (m <<< left) (e - left))
        = target m e := target_shift hm e left
    simp only [shiftToTargetExponent, shiftToExponent, htarget, ← hright]
    congr 1
    omega
  have hexponent : target m e - right = e - left := by omega
  have hscaled : scaled m e = scaled (m <<< left : ℕ) (e - left) := by
    rw [← scaled_shift m e left, Nat.shiftLeft_eq]
    push_cast
    rfl
  have hgrid : ∀ n : ℕ, scaled n (target m e) = scaled (n * 2 ^ right : ℕ) (e - left) := fun n => by
    rw [← hexponent, ← scaled_shift n (target m e) right]
    push_cast
    rfl
  refine ⟨(ExtendedMantissa.ofMantissaAndAccuracy (m <<< left) .exact >>> right).roundedMantissa,
    ⟨fun n hn => ?_, fun n hn => ?_⟩, ?_⟩
  · rw [hgrid, hscaled, scaled_le_iff, Nat.cast_le] at hn
    exact (rounded_grid _ _ n).1 hn
  · rw [hgrid, hscaled, scaled_le_iff, Nat.cast_le] at hn
    exact (rounded_grid _ _ n).2 hn
  · show roundWithAccuracy .binary64 s (m <<< left) (e - left) .exact = _
    rw [roundWithAccuracy, hshifted]
    rfl

lemma apply_mul (s : Sign) (m k : ℤ) : s.apply (m * k) = s.apply m * k := by
  cases s
  · exact (neg_mul m k).symm
  · rfl

lemma scaled_apply (s : Sign) (m e : ℤ) :
    scaled (s.apply m) e = scaled m e ∨ scaled (s.apply m) e = -scaled m e := by
  cases s
  · exact .inr (scaled_neg m e)
  · exact .inl rfl

/-- **The last shift loses nothing**: it is needed only for a mantissa with a single bit. -/
lemma settled_spec (s : Sign) {r : ℕ} {t : ℤ} (hr : r ≤ 2 ^ 53) (hfull : 2 ^ 52 ≤ r ∨ t = -1074)
    (ht : -1074 ≤ t) : Finite (settled s r t) ∧ CanonicalParts (settled s r t) ∧
      partsValue (settled s r t) = scaled (s.apply r) t := by
  obtain ⟨hfits, -⟩ := shiftToTargetExponent_fits r t .exact
  obtain ⟨k, hk, hmantissa, hexponent⟩ : ∃ k : ℕ, (k = 0 ∧ r < 2 ^ 53 ∨ k = 1 ∧ r = 2 ^ 53) ∧
      (shiftToTargetExponent .binary64 r t .exact).1.mantissa = r / 2 ^ k ∧
      (shiftToTargetExponent .binary64 r t .exact).2 = t + k := by
    refine ⟨(target r t - t).toNat, ?_, ?_, rfl⟩
    · rcases hr.lt_or_eq with hlt | rfl
      · have hlog : r.log2 < 53 := by
          rcases Nat.eq_zero_or_pos r with rfl | hpos
          · decide
          · exact (Nat.log2_lt hpos.ne').mpr hlt
        refine .inl ⟨?_, hlt⟩
        rw [target]
        omega
      · refine .inr ⟨?_, rfl⟩
        rw [target, Nat.log2_two_pow]
        omega
    · show (ExtendedMantissa.ofMantissaAndAccuracy r .exact >>> (target r t - t).toNat).mantissa = _
      rw [mantissa_shiftRight, mantissa_ofMantissaAndAccuracy]
  rw [hmantissa, hexponent] at hfits
  have hsplit : r = r / 2 ^ k * 2 ^ k := by
    rcases hk with ⟨rfl, -⟩ | ⟨rfl, rfl⟩ <;> norm_num
  have hvalue : scaled (s.apply (r / 2 ^ k : ℕ)) (t + k) = scaled (s.apply r) t := by
    conv_rhs => rw [hsplit, Nat.cast_mul, apply_mul, Nat.cast_pow, Nat.cast_ofNat]
    rw [← scaled_shift _ (t + k) k, add_sub_cancel_right]
  unfold settled
  simp only [hmantissa, hexponent]
  split_ifs with hzero
  · refine ⟨trivial, trivial, ?_⟩
    rw [← hvalue, hzero]
    cases s <;> exact (scaled_zero _).symm
  · refine ⟨trivial, ⟨hfits, ?_⟩, hvalue⟩
    rcases hk with ⟨rfl, -⟩ | ⟨rfl, rfl⟩
    · simpa using hfull
    · exact .inl (by norm_num)

/-- Exact parts come of rounding a number: they are those of a double but for overflow, and no double
lies between them and the number. -/
structure RoundsTo (v : ℝ) (u : UnpackedFloat) : Prop where
  finite : Finite u
  canonical : CanonicalParts u
  le : ∀ c, Finite c → FitsParts c → v ≤ partsValue c → partsValue u ≤ partsValue c
  ge : ∀ c, Finite c → FitsParts c → partsValue c ≤ v → partsValue c ≤ partsValue u

lemma roundsTo_self {u : UnpackedFloat} (hu : Finite u) (hcu : CanonicalParts u) :
    RoundsTo (partsValue u) u := ⟨hu, hcu, fun _ _ _ h => h, fun _ _ _ h => h⟩

/-- The value of a double by its size and its sign. -/
lemma exists_scaled {c : UnpackedFloat} (hc : Finite c) (hfits : FitsParts c) :
    ∃ (n : ℕ) (d : ℤ), Fits n d ∧ (partsValue c = scaled n d ∨ partsValue c = -scaled n d) := by
  rcases c with t | _ | t | ⟨t, n, d, hn⟩
  case zero => exact ⟨0, -1074, ⟨by norm_num, le_rfl⟩, .inl (scaled_zero _).symm⟩
  case finite => exact ⟨n, d, hfits, scaled_apply t n d⟩
  all_goals cases hc

lemma scaled_nonneg (m : ℕ) (e : ℤ) : 0 ≤ scaled m e := by
  show (0 : ℝ) ≤ ((m : ℤ) : ℝ) * 2 ^ e
  positivity

/-- **Rounding passes no double**, whatever the signs. -/
lemma round_roundsTo (s : Sign) (hm : 0 < m) (e : ℤ) :
    RoundsTo (scaled (s.apply m) e) (UnpackedFloat.round .binary64 s m e) := by
  obtain ⟨r, hgrid, hround⟩ := exists_grid s hm e
  have hfull : 2 ^ 52 ≤ r ∨ target m e = -1074 := by
    by_cases htarget : target m e = -1074
    · exact .inr htarget
    · exact .inl (hgrid.bottom_le hm htarget)
  obtain ⟨hfinite, hcanonical, hvalue⟩ := settled_spec s hgrid.le_top hfull (le_max_right _ _)
  have hm' : 0 < scaled m e := partsValue_pos hm
  have hr := scaled_nonneg r (target m e)
  rw [hround]
  have hbounds : ∀ c, Finite c → FitsParts c →
      (scaled (s.apply m) e ≤ partsValue c → scaled (s.apply r) (target m e) ≤ partsValue c) ∧
      (partsValue c ≤ scaled (s.apply m) e → partsValue c ≤ scaled (s.apply r) (target m e)) := by
    intro c hc hfits
    obtain ⟨n, d, hn, hsize⟩ := exists_scaled hc hfits
    obtain ⟨hbelow, habove⟩ := hgrid.bounds hm hn
    have hn' := scaled_nonneg n d
    cases s with
    | positive =>
        show (scaled m e ≤ _ → scaled r (target m e) ≤ _) ∧ (_ ≤ scaled m e → _ ≤ scaled r (target m e))
        rcases hsize with hsize | hsize <;> rw [hsize]
        · exact ⟨habove, hbelow⟩
        · exact ⟨fun h => by linarith, fun _ => by linarith⟩
    | negative =>
        show (scaled (-m) e ≤ _ → scaled (-r) (target m e) ≤ _) ∧
          (_ ≤ scaled (-m) e → _ ≤ scaled (-r) (target m e))
        rw [scaled_neg, scaled_neg]
        rcases hsize with hsize | hsize <;> rw [hsize]
        · exact ⟨fun _ => by linarith, fun h => by linarith⟩
        · simp only [neg_le_neg_iff]
          exact ⟨hbelow, habove⟩
  exact ⟨hfinite, hcanonical, fun c hc hfits h => hvalue ▸ (hbounds c hc hfits).1 h,
    fun c hc hfits h => hvalue ▸ (hbounds c hc hfits).2 h⟩

lemma normalize_roundsTo (m e : ℤ) (s : Sign) :
    RoundsTo (scaled m e) (UnpackedFloat.normalize .binary64 m e s) := by
  unfold UnpackedFloat.normalize
  rcases lt_trichotomy m 0 with hm | rfl | hm
  · rw [compare_lt_iff_lt.mpr hm]
    have hround := round_roundsTo .negative (show 0 < (-m).toNat by omega) e
    rwa [show Sign.negative.apply (-m).toNat = m by show -((-m).toNat : ℤ) = m; omega] at hround
  · rw [scaled_zero]
    exact roundsTo_self (u := .zero s) trivial trivial
  · rw [compare_gt_iff_gt.mpr hm]
    have hround := round_roundsTo .positive (show 0 < m.toNat by omega) e
    rwa [show Sign.positive.apply m.toNat = m by show (m.toNat : ℤ) = m; omega] at hround

end Rounding

/-! ## Sums and differences of exact parts -/

section Sums

variable {u v : UnpackedFloat}

/-- Two mantissas at the smaller of their exponents. -/
lemma scaled_aligned (s : Sign) (m : ℕ) {e d : ℤ} (h : d ≤ e) :
    scaled (s.apply (m <<< (e - d).toNat : ℕ)) d = scaled (s.apply m) e := by
  have hexponent : e - (e - d).toNat = d := by omega
  conv_lhs => rw [Nat.shiftLeft_eq, Nat.cast_mul, apply_mul, Nat.cast_pow, Nat.cast_ofNat, ← hexponent]
  rw [hexponent, ← scaled_shift _ e (e - d).toNat, hexponent]

lemma scaled_add (m n e : ℤ) : scaled (m + n) e = scaled m e + scaled n e := by
  rw [scaled, scaled, scaled, Int.cast_add, add_mul]

/-- **A sum is rounded once.** -/
lemma add_roundsTo (hu : Finite u) (hv : Finite v) (hcu : CanonicalParts u) (hcv : CanonicalParts v) :
    RoundsTo (partsValue u + partsValue v) (u.add .binary64 v) := by
  have hnone : ∀ s : Sign, partsValue (.zero s) = 0 := fun _ => rfl
  rcases u with s | _ | s | ⟨s, m, e, hm⟩ <;> rcases v with t | _ | t | ⟨t, n, d, hn⟩
  case zero.zero =>
    obtain ⟨w, hw⟩ : ∃ w, (UnpackedFloat.zero s).add .binary64 (.zero t) = .zero w := by
      cases s <;> cases t <;> exact ⟨_, rfl⟩
    rw [hw, hnone, hnone, add_zero]
    exact roundsTo_self (u := .zero w) trivial trivial
  case zero.finite =>
    rw [hnone, zero_add]
    exact roundsTo_self hv hcv
  case finite.zero =>
    rw [hnone, add_zero]
    exact roundsTo_self hu hcu
  case finite.finite =>
    show RoundsTo (scaled (s.apply m) e + scaled (t.apply n) d) (UnpackedFloat.normalize _ _ _ _)
    rw [← scaled_aligned s m (min_le_left e d), ← scaled_aligned t n (min_le_right e d), ← scaled_add]
    exact normalize_roundsTo _ _ _
  all_goals first | exact False.elim hu | exact False.elim hv

/-- **A difference is rounded once.** -/
lemma sub_roundsTo (hu : Finite u) (hv : Finite v) (hcu : CanonicalParts u) (hcv : CanonicalParts v) :
    RoundsTo (partsValue u - partsValue v) (u.sub .binary64 v) := by
  rw [sub_eq_add_opposite, sub_eq_add_neg, ← partsValue_opposite]
  exact add_roundsTo hu (finite_opposite hv) hcu (canonicalParts_opposite hcv)

end Sums

/-! ## Sums and differences of doubles -/

section Doubles

variable {x y : Float} {v : ℝ}

/-- A double comes of rounding a number: no other double lies between them. -/
structure Rounds (v : ℝ) (x : Float) : Prop where
  le : ∀ c : Float, Finite c.toModel.unpack → v ≤ value c → x ≤ c
  ge : ∀ c : Float, Finite c.toModel.unpack → value c ≤ v → c ≤ x

/-- What overflows is larger than every double. -/
lemma abs_value_lt {c : Float} (hc : Finite c.toModel.unpack) {m : ℕ} {e : ℤ} (h : Canonical m e)
    (hroom : 971 < e) : |value c| < scaled m e := by
  have hfull : 2 ^ 52 ≤ m := h.full.resolve_right (by omega)
  rcases hparts : c.toModel.unpack with t | _ | t | ⟨t, n, d, hn⟩ <;> rw [value, hparts]
  case zero =>
    rw [show partsValue (.zero t) = 0 from rfl, abs_zero]
    exact partsValue_pos (by omega)
  case finite =>
    obtain ⟨hcanonical, hd⟩ := canonical_of_unpack hparts
    have hsize : |scaled (t.apply n) d| = scaled n d := by
      rcases scaled_apply t n d with heq | heq <;> rw [heq]
      · exact abs_of_nonneg (scaled_nonneg n d)
      · rw [abs_neg, abs_of_nonneg (scaled_nonneg n d)]
    exact hsize.trans_lt (scaled_lt_of_lt hcanonical.lt hfull (by omega))
  all_goals
    rw [hparts] at hc
    cases hc

/-- Everything that is a number is at most infinite. -/
lemma le_infinity (hx : x.toModel.unpack = .infinity .positive) (hy : y.isNaN = false) : y ≤ x := by
  change y.toModel.unpack.isNaN = false at hy
  rw [le_iff, hx]
  rcases hparts : y.toModel.unpack with (_ | _) | _ | t | ⟨_ | _, n, d, hn⟩ <;> rw [hparts] at hy <;>
    first | exact ⟨_, rfl, rfl⟩ | cases hy

lemma infinity_le (hx : x.toModel.unpack = .infinity .negative) (hy : y.isNaN = false) : x ≤ y := by
  change y.toModel.unpack.isNaN = false at hy
  rw [le_iff, hx]
  rcases hparts : y.toModel.unpack with (_ | _) | _ | t | ⟨_ | _, n, d, hn⟩ <;> rw [hparts] at hy <;>
    first | exact ⟨_, rfl, rfl⟩ | cases hy

lemma not_nan_of_finite (hx : Finite x.toModel.unpack) : x.isNaN = false := by
  show x.toModel.unpack.isNaN = false
  rcases hparts : x.toModel.unpack with t | _ | t | ⟨t, n, d, hn⟩ <;> rw [hparts] at hx <;>
    first | rfl | cases hx

/-- **Packing passes no double**, also where it overflows. -/
lemma rounds_of_pack {u : UnpackedFloat} (h : RoundsTo v u)
    (hx : x.toModel.unpack = (Float.Model.pack u).unpack) : Rounds v x := by
  have hkept : x.toModel.unpack = u → Rounds v x := fun hsame => by
    have hfinite : Finite x.toModel.unpack := hsame ▸ h.finite
    have hvalue : value x = partsValue u := congrArg partsValue hsame
    refine ⟨fun c hc hle => ?_, fun c hc hge => ?_⟩
    · rw [le_iff_value hfinite hc, hvalue]
      exact h.le _ hc (fitsParts_unpack c) hle
    · rw [le_iff_value hc hfinite, hvalue]
      exact h.ge _ hc (fitsParts_unpack c) hge
  rcases u with s | _ | s | ⟨s, m, e, hm⟩
  case zero => exact hkept (hx.trans (unpack_pack_zero s))
  case finite =>
    rcases le_or_gt e 971 with hroom | hover
    · exact hkept (hx.trans (unpack_pack_finite s hm h.canonical hroom))
    · have hx := hx.trans (unpack_pack_overflow s hm hover)
      refine ⟨fun c hc hle => ?_, fun c hc hge => ?_⟩
      all_goals
        have hsize := abs_lt.mp (abs_value_lt hc h.canonical hover)
      · cases s with
        | negative => exact infinity_le hx (not_nan_of_finite hc)
        | positive => exact absurd (h.le _ hc (fitsParts_unpack c) hle) (not_le.mpr hsize.2)
      · cases s with
        | negative =>
            have hbelow := h.ge _ hc (fitsParts_unpack c) hge
            rw [show partsValue (.finite .negative m e hm) = -scaled m e from scaled_neg _ _] at hbelow
            exact absurd hbelow (not_le.mpr hsize.1)
        | positive => exact le_infinity hx (not_nan_of_finite hc)
  all_goals exact False.elim h.finite

lemma add_rounds (hx : Finite x.toModel.unpack) (hy : Finite y.toModel.unpack) :
    Rounds (value x + value y) (x + y) :=
  rounds_of_pack (add_roundsTo hx hy (canonicalParts_unpack x) (canonicalParts_unpack y)) rfl

lemma sub_rounds (hx : Finite x.toModel.unpack) (hy : Finite y.toModel.unpack) :
    Rounds (value x - value y) (x - y) :=
  rounds_of_pack (sub_roundsTo hx hy (canonicalParts_unpack x) (canonicalParts_unpack y)) rfl

end Doubles

end Contour.Double
