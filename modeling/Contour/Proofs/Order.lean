import Contour.Proofs.RoundedSums

/-!
# The order of an arithmetic

What is said of boxes rests on comparisons and on sums, and rounding could spoil both.  This file says
which of their laws hold of the real numbers and of doubles alike.  Comparisons of numbers are those of
a linear order, with infinities at its ends; a sum is on the right side of the number that is added to.

* `LawfulOrder` — an arithmetic with these laws; `smaller_spec` and `larger_spec` say what they mean for
  the extreme of two numbers.
* `Double.extended`, `Double.le_iff_extended` — doubles among the extended real numbers.
* `Double.sub_le`, `Double.le_add`, `Double.sub_not_neg` — the side on which a sum is.
* `Double.near_left`, `Double.near_right` — numbers within the tolerance of each other.
-/

namespace Contour

open Elementary (abs isNaN sqrt)

/-- An arithmetic whose numbers are ordered, and whose sums are on the side where they belong.  What is
no number is comparable to nothing. -/
class LawfulOrder (α : Type) [Add α] [Sub α] [LT α] [LE α] [OfNat α 0] [OfScientific α]
    [Elementary α] : Prop where
  numeric_of_le : ∀ {x y : α}, x ≤ y → isNaN x = false ∧ isNaN y = false
  le_trans : ∀ {x y z : α}, x ≤ y → y ≤ z → x ≤ z
  le_of_lt : ∀ {x y : α}, x < y → x ≤ y
  not_lt_of_le : ∀ {x y : α}, x ≤ y → ¬ y < x
  le_of_not_lt : ∀ {x y : α}, isNaN x = false → isNaN y = false → ¬ x < y → y ≤ x
  tol_pos : (0 : α) < coincidentTol
  sqrt_nonneg : ∀ {x : α}, isNaN (sqrt x) = false → 0 ≤ sqrt x
  numeric_of_sub : ∀ {x r : α}, isNaN (x - r) = false → isNaN x = false ∧ isNaN r = false
  sub_le : ∀ {x r : α}, 0 ≤ r → isNaN (x - r) = false → x - r ≤ x
  le_add : ∀ {x r : α}, 0 ≤ r → isNaN (x + r) = false → x ≤ x + r
  sub_not_neg : ∀ {x y : α}, x ≤ y → ¬ y - x < 0
  sub_zero_le_iff : ∀ {x y : α}, x - 0 ≤ y ↔ x ≤ y
  le_add_zero_iff : ∀ {x y : α}, x ≤ y + 0 ↔ x ≤ y
  sub_tol_le : ∀ {x : α}, isNaN x = false → x - coincidentTol ≤ x
  le_add_tol : ∀ {x : α}, isNaN x = false → x ≤ x + coincidentTol
  near_left : ∀ {x y c : α}, abs (x - y) < coincidentTol → c ≤ x → c - coincidentTol ≤ y
  near_right : ∀ {x y c : α}, abs (y - x) < coincidentTol → x ≤ c → y ≤ c + coincidentTol

namespace LawfulOrder

variable {α : Type} [Add α] [Sub α] [LT α] [LE α] [OfNat α 0] [OfScientific α] [Elementary α]
  [LawfulOrder α] {x y : α}

lemma le_refl (hx : isNaN x = false) : x ≤ x := by
  by_cases h : x < x
  · exact le_of_lt h
  · exact le_of_not_lt hx hx h

lemma sub_tol_le_of_le (h : x ≤ y) : x - coincidentTol ≤ y :=
  le_trans (sub_tol_le (numeric_of_le h).1) h

lemma le_add_tol_of_le (h : x ≤ y) : x ≤ y + coincidentTol :=
  le_trans h (le_add_tol (numeric_of_le h).2)

variable [DecidableLT α]

lemma smaller_spec (hx : isNaN x = false) (y : α) : isNaN (Scalar.smaller x y) = false ∧
    Scalar.smaller x y ≤ x ∧ (isNaN y = false → Scalar.smaller x y ≤ y) := by
  unfold Scalar.smaller
  split_ifs with h
  · have hle : y ≤ x := le_of_lt h
    exact ⟨(numeric_of_le hle).1, hle, le_refl⟩
  · exact ⟨hx, le_refl hx, fun hy => le_of_not_lt hy hx h⟩

lemma larger_spec (hx : isNaN x = false) (y : α) : isNaN (Scalar.larger x y) = false ∧
    x ≤ Scalar.larger x y ∧ (isNaN y = false → y ≤ Scalar.larger x y) := by
  unfold Scalar.larger
  split_ifs with h
  · have hle : x ≤ y := le_of_lt h
    exact ⟨(numeric_of_le hle).2, hle, le_refl⟩
  · exact ⟨hx, le_refl hx, fun hy => le_of_not_lt hx hy h⟩

end LawfulOrder

instance : LawfulOrder ℝ where
  numeric_of_le _ := ⟨rfl, rfl⟩
  le_trans h h' := h.trans h'
  le_of_lt h := h.le
  not_lt_of_le h := not_lt.mpr h
  le_of_not_lt _ _ h := not_lt.mp h
  tol_pos := coincidentTol_pos
  sqrt_nonneg {x} _ := Real.sqrt_nonneg x
  numeric_of_sub _ := ⟨rfl, rfl⟩
  sub_le h _ := sub_le_self _ h
  le_add h _ := le_add_of_nonneg_right h
  sub_not_neg h := not_lt.mpr (sub_nonneg.mpr h)
  sub_zero_le_iff := by simp
  le_add_zero_iff := by simp
  sub_tol_le _ := sub_le_self _ coincidentTol_pos.le
  le_add_tol _ := le_add_of_nonneg_right coincidentTol_pos.le
  near_left h hle := by linarith [(abs_lt.mp h).2]
  near_right h hle := by linarith [(abs_lt.mp h).2]

/-! ## Doubles -/

namespace Double

open Float.Model Float.Model.UnpackedFloat

variable {x y z c r : Float}

/-- A double among the extended real numbers; what is no number is put to zero. -/
noncomputable def extended (x : Float) : EReal :=
  match x.toModel.unpack with
  | .infinity .positive => ⊤
  | .infinity .negative => ⊥
  | _ => value x

/-- The three kinds of numbers among doubles. -/
inductive Kind (x : Float) : Prop
  | finite (h : Finite x.toModel.unpack)
  | top (h : x.toModel.unpack = .infinity .positive)
  | bottom (h : x.toModel.unpack = .infinity .negative)

lemma kind (hx : x.isNaN = false) : Kind x := by
  change x.toModel.unpack.isNaN = false at hx
  rcases hparts : x.toModel.unpack with (_ | _) | _ | s | ⟨s, m, e, hm⟩
  case infinity.negative => exact .bottom hparts
  case infinity.positive => exact .top hparts
  case notANumber =>
    rw [hparts] at hx
    cases hx
  all_goals exact .finite (hparts ▸ trivial)

lemma extended_finite (hx : Finite x.toModel.unpack) : extended x = value x := by
  rcases hparts : x.toModel.unpack with (_ | _) | _ | s | ⟨s, m, e, hm⟩ <;>
    simp only [extended, hparts] <;> rw [hparts] at hx <;> cases hx

lemma extended_top (hx : x.toModel.unpack = .infinity .positive) : extended x = ⊤ := by
  simp only [extended, hx]

lemma extended_bottom (hx : x.toModel.unpack = .infinity .negative) : extended x = ⊥ := by
  simp only [extended, hx]

lemma top_of_le (hx : x.toModel.unpack = .infinity .positive) (h : x ≤ y) :
    y.toModel.unpack = .infinity .positive := by
  obtain ⟨o, ho, hle⟩ := le_iff.mp h
  rw [hx] at ho
  rcases hparts : y.toModel.unpack with (_ | _) | _ | s | ⟨_ | _, m, e, hm⟩ <;> rw [hparts] at ho <;>
    first | rfl | (cases ho <;> cases hle)

lemma bottom_of_le (hy : y.toModel.unpack = .infinity .negative) (h : x ≤ y) :
    x.toModel.unpack = .infinity .negative := by
  obtain ⟨o, ho, hle⟩ := le_iff.mp h
  rw [hy] at ho
  rcases hparts : x.toModel.unpack with (_ | _) | _ | s | ⟨_ | _, m, e, hm⟩ <;> rw [hparts] at ho <;>
    first | rfl | (cases ho <;> cases hle)

/-- **Doubles that are numbers are ordered as extended real numbers.** -/
lemma le_iff_extended (hx : x.isNaN = false) (hy : y.isNaN = false) :
    x ≤ y ↔ extended x ≤ extended y := by
  cases kind hx with
  | bottom h =>
      rw [extended_bottom h]
      exact iff_of_true (infinity_le h hy) bot_le
  | top h =>
      rw [extended_top h, top_le_iff]
      refine ⟨fun hle => extended_top (top_of_le h hle), fun htop => le_infinity ?_ hx⟩
      cases kind hy with
      | finite hfinite => exact absurd ((extended_finite hfinite).symm.trans htop) (EReal.coe_ne_top _)
      | top h' => exact h'
      | bottom h' => exact absurd ((extended_bottom h').symm.trans htop) bot_ne_top
  | finite h =>
      cases kind hy with
      | finite h' => rw [le_iff_value h h', extended_finite h, extended_finite h', EReal.coe_le_coe_iff]
      | top h' =>
          rw [extended_top h']
          exact iff_of_true (le_infinity h' hx) le_top
      | bottom h' =>
          rw [extended_finite h, extended_bottom h', le_bot_iff]
          refine iff_of_false (fun hle => ?_) (EReal.coe_ne_bot _)
          rw [bottom_of_le h' hle] at h
          cases h

lemma le_trans (h : x ≤ y) (h' : y ≤ z) : x ≤ z := by
  obtain ⟨hx, hy⟩ := not_nan_of_le h
  obtain ⟨-, hz⟩ := not_nan_of_le h'
  rw [le_iff_extended hx hy] at h
  rw [le_iff_extended hy hz] at h'
  exact (le_iff_extended hx hz).mpr (h.trans h')

lemma le_of_lt (h : x < y) : x ≤ y := le_iff.mpr ⟨_, lt_iff.mp h, rfl⟩

lemma not_lt_of_le (h : x ≤ y) : ¬ y < x := not_lt_iff.mpr (.inl h)

lemma finite_zero : Finite (0 : Float).toModel.unpack := trivial

lemma finite_tol : Finite (coincidentTol : Float).toModel.unpack := by
  obtain ⟨m, hm, htol⟩ := unpack_coincidentTol
  rw [htol]
  trivial

lemma tol_pos : (0 : Float) < coincidentTol := by
  obtain ⟨m, hm, htol⟩ := unpack_coincidentTol
  rw [pos_iff, htol]
  trivial

lemma zero_le_iff : 0 ≤ x ↔ NotBelow x.toModel.unpack := by
  have hzero : (0 : Float).toModel.unpack = .zero .positive := rfl
  rw [le_iff, hzero]
  rcases x.toModel.unpack with (_ | _) | _ | s | ⟨_ | _, m, e, hm⟩ <;>
    simp [UnpackedFloat.compare, NotBelow]

/-- A root that is a number is not below zero. -/
lemma sqrt_nonneg (h : (Elementary.sqrt x : Float).isNaN = false) : (0 : Float) ≤ Elementary.sqrt x := by
  change (Float.Model.pack (x.toModel.unpack.sqrt .binary64)).unpack.isNaN = false at h
  rw [zero_le_iff]
  by_cases hx : NotBelow x.toModel.unpack
  · exact pack_notBelow (sqrt_signs hx (fitsParts_unpack x)).1
  · -- a number below zero has no root
    have hroot : x.toModel.unpack.sqrt .binary64 = .notANumber := by
      rcases hparts : x.toModel.unpack with (_ | _) | _ | s | ⟨_ | _, m, e, hm⟩ <;> rw [hparts] at hx <;>
        first | rfl | exact absurd trivial hx
    rw [hroot, unpack_pack_notANumber] at h
    cases h

/-! ### Sums -/

section Infinite

variable (s : Sign) (u : UnpackedFloat)

/-- A sum with an infinity is infinite, or no number. -/
lemma add_infinity_cases : ((UnpackedFloat.infinity s).add .binary64 u = .infinity s ∨
      (UnpackedFloat.infinity s).add .binary64 u = .notANumber) ∧
    (u.add .binary64 (.infinity s) = .infinity s ∨ u.add .binary64 (.infinity s) = .notANumber) := by
  rcases u with t | _ | t | ⟨t, m, e, hm⟩
  case infinity => cases s <;> cases t <;> first | exact ⟨.inl rfl, .inl rfl⟩ | exact ⟨.inr rfl, .inr rfl⟩
  case notANumber => exact ⟨.inr rfl, .inr rfl⟩
  all_goals exact ⟨.inl rfl, .inl rfl⟩

lemma sub_infinity_cases : ((UnpackedFloat.infinity s).sub .binary64 u = .infinity s ∨
      (UnpackedFloat.infinity s).sub .binary64 u = .notANumber) ∧
    (u.sub .binary64 (.infinity s) = .infinity (-s) ∨ u.sub .binary64 (.infinity s) = .notANumber) := by
  rw [sub_eq_add_opposite, sub_eq_add_opposite]
  exact ⟨(add_infinity_cases s u.neg).1, (add_infinity_cases (-s) u).2⟩

/-- What is packed from an infinity or from no number is infinite, if it is a number. -/
lemma unpack_of_infinity_cases {w : UnpackedFloat} (h : w = .infinity s ∨ w = .notANumber)
    (hx : x.toModel.unpack = (Float.Model.pack w).unpack) (hnum : x.isNaN = false) :
    x.toModel.unpack = .infinity s := by
  rcases h with rfl | rfl
  · exact hx.trans (unpack_pack_infinity s)
  · change x.toModel.unpack.isNaN = false at hnum
    rw [hx, unpack_pack_notANumber] at hnum
    cases hnum

end Infinite

variable {s : Sign}

lemma sub_of_infinite (hx : x.toModel.unpack = .infinity s) (h : (x - r).isNaN = false) :
    (x - r).toModel.unpack = .infinity s :=
  unpack_of_infinity_cases s (sub_infinity_cases s r.toModel.unpack).1 (by rw [← hx]; rfl) h

lemma sub_infinite (hr : r.toModel.unpack = .infinity s) (h : (x - r).isNaN = false) :
    (x - r).toModel.unpack = .infinity (-s) :=
  unpack_of_infinity_cases (-s) (sub_infinity_cases s x.toModel.unpack).2 (by rw [← hr]; rfl) h

lemma add_of_infinite (hx : x.toModel.unpack = .infinity s) (h : (x + r).isNaN = false) :
    (x + r).toModel.unpack = .infinity s :=
  unpack_of_infinity_cases s (add_infinity_cases s r.toModel.unpack).1 (by rw [← hx]; rfl) h

lemma add_infinite (hr : r.toModel.unpack = .infinity s) (h : (x + r).isNaN = false) :
    (x + r).toModel.unpack = .infinity s :=
  unpack_of_infinity_cases s (add_infinity_cases s x.toModel.unpack).2 (by rw [← hr]; rfl) h

lemma isNaN_sub (h : x.isNaN = true ∨ r.isNaN = true) : (x - r).isNaN = true := by
  have hsub : x.toModel.unpack.sub .binary64 r.toModel.unpack = .notANumber := by
    rcases h with h | h
    · rw [show x.toModel.unpack = .notANumber from eq_notANumber h]
      rfl
    · rw [show r.toModel.unpack = .notANumber from eq_notANumber h]
      cases x.toModel.unpack <;> rfl
  show (Float.Model.pack (x.toModel.unpack.sub .binary64 r.toModel.unpack)).unpack.isNaN = true
  rw [hsub]
  rfl

/-- The terms of a difference that is a number are numbers. -/
lemma not_nan_of_sub (h : (x - r).isNaN = false) : x.isNaN = false ∧ r.isNaN = false := by
  constructor <;> refine Bool.eq_false_iff.mpr fun hnan => ?_
  · exact absurd (isNaN_sub (.inl hnan)) (Bool.eq_false_iff.mp h)
  · exact absurd (isNaN_sub (.inr hnan)) (Bool.eq_false_iff.mp h)

lemma not_nan_of_add (h : (x + r).isNaN = false) : x.isNaN = false ∧ r.isNaN = false := by
  constructor <;> refine Bool.eq_false_iff.mpr fun hnan => ?_
  · exact absurd (isNaN_add (.inl hnan)) (Bool.eq_false_iff.mp h)
  · exact absurd (isNaN_add (.inr hnan)) (Bool.eq_false_iff.mp h)

lemma value_nonneg (hfinite : Finite r.toModel.unpack) (hr : 0 ≤ r) : 0 ≤ value r :=
  (le_iff_value finite_zero hfinite).mp hr

/-- **Taking away what is not below zero makes a number no larger.** -/
lemma sub_le (hr : 0 ≤ r) (h : (x - r).isNaN = false) : x - r ≤ x := by
  obtain ⟨hx, hrnum⟩ := not_nan_of_sub h
  cases kind hx with
  | top hx' => exact le_infinity hx' h
  | bottom hx' => exact infinity_le (sub_of_infinite hx' h) hx
  | finite hx' =>
      cases kind hrnum with
      | top hr' => exact infinity_le (sub_infinite hr' h) hx
      | bottom hr' => exact nomatch (bottom_of_le hr' hr : (0 : Float).toModel.unpack = _)
      | finite hr' => exact (sub_rounds hx' hr').le x hx' (sub_le_self _ (value_nonneg hr' hr))

/-- **Adding what is not below zero makes a number no smaller.** -/
lemma le_add (hr : 0 ≤ r) (h : (x + r).isNaN = false) : x ≤ x + r := by
  obtain ⟨hx, hrnum⟩ := not_nan_of_add h
  cases kind hx with
  | top hx' => exact le_infinity (add_of_infinite hx' h) hx
  | bottom hx' => exact infinity_le hx' h
  | finite hx' =>
      cases kind hrnum with
      | top hr' => exact le_infinity (add_infinite hr' h) hx
      | bottom hr' => exact nomatch (bottom_of_le hr' hr : (0 : Float).toModel.unpack = _)
      | finite hr' =>
          exact (add_rounds hx' hr').ge x hx' (le_add_of_nonneg_right (value_nonneg hr' hr))

/-- **A difference is not below zero** if nothing larger is taken away. -/
lemma sub_not_neg (h : x ≤ y) : ¬ y - x < 0 := by
  intro hneg
  have hnum := (not_nan_of_lt hneg).1
  obtain ⟨hy, hx⟩ := not_nan_of_sub hnum
  refine not_lt_of_le ?_ hneg
  cases kind hx with
  | bottom hx' => exact le_infinity (sub_infinite hx' hnum) rfl
  | top hx' => exact le_infinity (sub_of_infinite (top_of_le hx' h) hnum) rfl
  | finite hx' =>
      cases kind hy with
      | top hy' => exact le_infinity (sub_of_infinite hy' hnum) rfl
      | bottom hy' =>
          rw [bottom_of_le hy' h] at hx'
          cases hx'
      | finite hy' =>
          exact (sub_rounds hy' hx').ge 0 finite_zero (sub_nonneg.mpr ((le_iff_value hx' hy').mp h))

/-! ### Zero -/

/-- Adding a zero leaves a number as it is, up to the sign of a zero. -/
lemma unpack_add_zeros (x : Float) (r : Sign) :
    (Float.Model.pack (x.toModel.unpack.add .binary64 (.zero r))).unpack = x.toModel.unpack ∨
      ∃ s t, x.toModel.unpack = .zero s ∧
        (Float.Model.pack (x.toModel.unpack.add .binary64 (.zero r))).unpack = .zero t := by
  have hsame : x.toModel.unpack.add .binary64 (.zero r) = x.toModel.unpack →
      (Float.Model.pack (x.toModel.unpack.add .binary64 (.zero r))).unpack = x.toModel.unpack :=
    fun h => by rw [h, pack_unpack]
  rcases hx : x.toModel.unpack with s | _ | s | ⟨s, m, e, hm⟩
  case zero =>
    obtain ⟨t, ht⟩ : ∃ t, (UnpackedFloat.zero s).add .binary64 (.zero r) = .zero t := by
      cases s <;> cases r <;> exact ⟨_, rfl⟩
    exact .inr ⟨s, t, rfl, by rw [ht, unpack_pack_zero]⟩
  all_goals
    rw [hx] at hsame
    exact .inl (hsame rfl)

/-- The sign of a zero does not matter in comparisons. -/
lemma compare_zero (s t : Sign) (u : UnpackedFloat) :
    (UnpackedFloat.zero s).compare u = (UnpackedFloat.zero t).compare u := by
  rcases u with (_ | _) | _ | r | ⟨_ | _, m, e, hm⟩ <;> rfl

lemma sub_zero_le_iff : x - 0 ≤ y ↔ x ≤ y := by
  have hsub : (x - 0).toModel.unpack
      = (Float.Model.pack (x.toModel.unpack.add .binary64 (.zero .negative))).unpack := by
    rw [show UnpackedFloat.zero .negative = (UnpackedFloat.zero .positive).neg from rfl,
      ← sub_eq_add_opposite]
    rfl
  rw [le_iff, le_iff, hsub]
  rcases unpack_add_zeros x .negative with h | ⟨s, t, hx, h⟩
  · rw [h]
  · rw [h, hx, compare_zero t s]

lemma le_add_zero_iff : x ≤ y + 0 ↔ x ≤ y := by
  have hadd : (y + 0).toModel.unpack
      = (Float.Model.pack (y.toModel.unpack.add .binary64 (.zero .positive))).unpack := rfl
  rw [le_iff, le_iff, compare_swap _ x.toModel.unpack, compare_swap _ x.toModel.unpack, hadd]
  rcases unpack_add_zeros y .positive with h | ⟨s, t, hy, h⟩
  · rw [h]
  · rw [h, hy, compare_zero t s]

/-! ### The tolerance -/

lemma numeric_of_rounds {v : ℝ} (h : Rounds v x) : x.isNaN = false := by
  rcases le_total v 0 with hle | hle
  · exact (not_nan_of_le (h.le 0 finite_zero hle)).1
  · exact (not_nan_of_le (h.ge 0 finite_zero hle)).2

lemma infinity_add_finite (s : Sign) {u : UnpackedFloat} (hu : Finite u) :
    (UnpackedFloat.infinity s).add .binary64 u = .infinity s := by
  cases u <;> first | rfl | exact False.elim hu

/-- A number stays one if what is not infinite is taken away or added. -/
lemma numeric_sum (hx : x.isNaN = false) (hr : Finite r.toModel.unpack) :
    (x - r).isNaN = false ∧ (x + r).isNaN = false := by
  -- an infinity is kept
  have hinfinite : ∀ s, x.toModel.unpack = .infinity s → (x - r).isNaN = false ∧ (x + r).isNaN = false := by
    intro s hinf
    show (Float.Model.pack (x.toModel.unpack.sub .binary64 _)).unpack.isNaN = false ∧
      (Float.Model.pack (x.toModel.unpack.add .binary64 _)).unpack.isNaN = false
    rw [hinf, sub_eq_add_opposite, infinity_add_finite s hr, infinity_add_finite s (finite_opposite hr),
      unpack_pack_infinity]
    exact ⟨rfl, rfl⟩
  cases kind hx with
  | finite h => exact ⟨numeric_of_rounds (sub_rounds h hr), numeric_of_rounds (add_rounds h hr)⟩
  | top h => exact hinfinite _ h
  | bottom h => exact hinfinite _ h

lemma sub_tol_le (hx : x.isNaN = false) : x - coincidentTol ≤ x :=
  sub_le (le_of_lt tol_pos) (numeric_sum hx finite_tol).1

lemma le_add_tol (hx : x.isNaN = false) : x ≤ x + coincidentTol :=
  le_add (le_of_lt tol_pos) (numeric_sum hx finite_tol).2

lemma unpack_elementary_abs (x : Float) : (Elementary.abs x : Float).toModel.unpack = x.toModel.unpack.abs := by
  show (Float.Model.pack x.toModel.unpack.abs).unpack = _
  rcases hx : x.toModel.unpack with s | _ | s | ⟨s, m, e, hm⟩
  case infinity => exact unpack_pack_infinity .positive
  case notANumber => rfl
  case zero => exact unpack_pack_zero .positive
  case finite =>
    obtain ⟨hcanonical, hroom⟩ := canonical_of_unpack hx
    exact unpack_pack_finite .positive hm hcanonical hroom

lemma finite_of_abs_lt_tol (hx : Elementary.abs x < (coincidentTol : Float)) :
    Finite x.toModel.unpack := by
  have habs := unpack_elementary_abs x
  rcases hparts : x.toModel.unpack with s | _ | s | ⟨s, m, e, hm⟩
  case infinity =>
    rw [hparts] at habs
    exact absurd hx (not_lt_of_le (le_infinity habs (not_nan_of_finite finite_tol)))
  case notANumber =>
    rw [hparts] at habs
    have hnum := (not_nan_of_lt hx).1
    change (Elementary.abs x : Float).toModel.unpack.isNaN = false at hnum
    rw [habs] at hnum
    cases hnum
  all_goals trivial

lemma le_elementary_abs (hx : Finite x.toModel.unpack) : x ≤ Elementary.abs x := by
  have habs := unpack_elementary_abs x
  have hfinite : Finite (Elementary.abs x : Float).toModel.unpack := by
    rw [habs]
    cases hparts : x.toModel.unpack <;> rw [hparts] at hx <;> trivial
  rw [le_iff_value hx hfinite, value, value, habs]
  rcases x.toModel.unpack with s | _ | s | ⟨s, m, e, hm⟩
  case finite =>
    show scaled (s.apply m) e ≤ scaled m e
    have hnonneg := scaled_nonneg m e
    rcases scaled_apply s m e with heq | heq <;> rw [heq]
    linarith
  all_goals exact le_rfl

/-- Numbers within the tolerance of each other are not infinite, and their values are that near. -/
lemma near_values (h : Elementary.abs (x - y) < (coincidentTol : Float)) :
    Finite x.toModel.unpack ∧ Finite y.toModel.unpack ∧ value x - value y < value coincidentTol := by
  have hfinite := finite_of_abs_lt_tol h
  have hnum := not_nan_of_finite hfinite
  obtain ⟨hx, hy⟩ := not_nan_of_sub hnum
  have hinfinite : ∀ {s}, (x - y).toModel.unpack ≠ .infinity s := fun hinf => by
    rw [hinf] at hfinite
    exact hfinite
  have hx' : Finite x.toModel.unpack := by
    cases kind hx with
    | finite h => exact h
    | top h => exact absurd (sub_of_infinite h hnum) hinfinite
    | bottom h => exact absurd (sub_of_infinite h hnum) hinfinite
  have hy' : Finite y.toModel.unpack := by
    cases kind hy with
    | finite h => exact h
    | top h => exact absurd (sub_infinite h hnum) hinfinite
    | bottom h => exact absurd (sub_infinite h hnum) hinfinite
  refine ⟨hx', hy', ?_⟩
  by_contra hfar
  have hle := (sub_rounds hx' hy').ge coincidentTol finite_tol (not_lt.mp hfar)
  exact not_lt_of_le (le_trans hle (le_elementary_abs hfinite)) h

lemma near_left (h : Elementary.abs (x - y) < (coincidentTol : Float)) (hc : c ≤ x) :
    c - coincidentTol ≤ y := by
  obtain ⟨hx, hy, hnear⟩ := near_values h
  cases kind (not_nan_of_le hc).1 with
  | finite hc' =>
      have hle := (le_iff_value hc' hx).mp hc
      exact (sub_rounds hc' finite_tol).le y hy (by linarith)
  | bottom hc' =>
      have hnum := (numeric_sum (not_nan_of_le hc).1 finite_tol).1
      exact infinity_le (sub_of_infinite hc' hnum) (not_nan_of_finite hy)
  | top hc' =>
      rw [top_of_le hc' hc] at hx
      cases hx

lemma near_right (h : Elementary.abs (y - x) < (coincidentTol : Float)) (hc : x ≤ c) :
    y ≤ c + coincidentTol := by
  obtain ⟨hy, hx, hnear⟩ := near_values h
  cases kind (not_nan_of_le hc).2 with
  | finite hc' =>
      have hle := (le_iff_value hx hc').mp hc
      exact (add_rounds hc' finite_tol).ge y hy (by linarith)
  | top hc' =>
      have hnum := (numeric_sum (not_nan_of_le hc).2 finite_tol).2
      exact le_infinity (add_of_infinite hc' hnum) (not_nan_of_finite hy)
  | bottom hc' =>
      rw [bottom_of_le hc' hc] at hx
      cases hx

end Double

instance : LawfulOrder Float where
  numeric_of_le := Double.not_nan_of_le
  le_trans := Double.le_trans
  le_of_lt := Double.le_of_lt
  not_lt_of_le := Double.not_lt_of_le
  le_of_not_lt := Double.le_of_not_lt
  tol_pos := Double.tol_pos
  sqrt_nonneg := Double.sqrt_nonneg
  numeric_of_sub := Double.not_nan_of_sub
  sub_le := Double.sub_le
  le_add := Double.le_add
  sub_not_neg := Double.sub_not_neg
  sub_zero_le_iff := Double.sub_zero_le_iff
  le_add_zero_iff := Double.le_add_zero_iff
  sub_tol_le := Double.sub_tol_le
  le_add_tol := Double.le_add_tol
  near_left := Double.near_left
  near_right := Double.near_right

end Contour
