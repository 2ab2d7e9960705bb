import Contour.Proofs.Zero

/-!
# The size of a difference

Rounding knows no direction: the difference of two numbers has the same size whichever is taken from
the other.  Two procedures that measure the same points in opposite orders then agree exactly, in
every arithmetic of this kind, and not only up to rounding.

* `LawfulDifference` — a difference has the same size both ways, and zeros are all alike.
* `Double.sub_abs`, `Double.pack_abs` — subtraction and packing of doubles up to their signs.
* `Double.mul_self_eq` — the square of a double does not depend on its sign.
* `Point.dist_comm`, `Point.agrees_comm` — distance and nearness of points are symmetric.
-/

namespace Contour

/-- An arithmetic in which a difference has the same size both ways.  The size is seen by its
absolute value and by its square. -/
class LawfulDifference (α : Type) [Sub α] [Mul α] [BEq α] [OfNat α 0] [Elementary α] : Prop where
  abs_comm : ∀ x y : α, Elementary.abs (x - y) = Elementary.abs (y - x)
  sq_comm : ∀ x y : α, (x - y) * (x - y) = (y - x) * (y - x)
  abs_zeros : ∀ {x y : α}, (x == 0) = true → (y == 0) = true →
    Elementary.abs (x - y) = Elementary.abs (0 - 0)
  sq_zeros : ∀ {x y : α}, (x == 0) = true → (y == 0) = true →
    (x - y) * (x - y) = (0 - 0) * (0 - 0)

instance : LawfulDifference ℝ where
  abs_comm := abs_sub_comm
  sq_comm x y := by ring
  abs_zeros hx hy := by rw [eq_of_beq hx, eq_of_beq hy]
  sq_zeros hx hy := by rw [eq_of_beq hx, eq_of_beq hy]

namespace Double

open Float.Model Float.Model.UnpackedFloat

/-! ## Exact parts up to their signs -/

section Signs

variable (format : Format) {u v : UnpackedFloat}

/-- Rounding passes the sign on and does not look at it. -/
lemma round_abs (s t : Sign) (m : ℕ) (e : ℤ) :
    (UnpackedFloat.round format s m e).abs = (UnpackedFloat.round format t m e).abs := by
  unfold UnpackedFloat.round roundWithAccuracy
  dsimp only
  split_ifs <;> rfl

lemma normalize_neg_abs (m e : ℤ) (s : Sign) :
    (UnpackedFloat.normalize format (-m) e s).abs = (UnpackedFloat.normalize format m e s).abs := by
  unfold UnpackedFloat.normalize
  rcases lt_trichotomy m 0 with hm | rfl | hm
  · rw [compare_gt_iff_gt.mpr (neg_pos.mpr hm), compare_lt_iff_lt.mpr hm]
    exact round_abs _ _ _ _ _
  · rfl
  · rw [compare_lt_iff_lt.mpr (neg_neg_iff_pos.mpr hm), compare_gt_iff_gt.mpr hm, neg_neg]
    exact round_abs _ _ _ _ _

lemma sub_zeros_abs (s t : Sign) :
    ((UnpackedFloat.zero s).sub format (.zero t)).abs = .zero .positive := by
  cases s <;> cases t <;> rfl

/-- **A difference has the same size both ways**, whatever is subtracted. -/
lemma sub_abs (u v : UnpackedFloat) : (u.sub format v).abs = (v.sub format u).abs := by
  rcases u with s | _ | s | ⟨s, m, e, hm⟩ <;> rcases v with t | _ | t | ⟨t, n, d, hn⟩
  case infinity.infinity => cases s <;> cases t <;> rfl
  case zero.zero => rw [sub_zeros_abs, sub_zeros_abs]
  case finite.finite =>
    dsimp only [UnpackedFloat.sub]
    rw [min_comm d e, ← neg_sub, normalize_neg_abs]
  all_goals rfl

/-- The two signs of a square cancel. -/
lemma mul_self_eq (h : u.abs = v.abs) : u.mul format u = v.mul format v := by
  have hsign : ∀ s t : Sign, s * s = t * t := by
    rintro (_ | _) (_ | _) <;> rfl
  rcases u with s | _ | s | ⟨s, m, e, hm⟩ <;> rcases v with t | _ | t | ⟨t, n, d, hn⟩ <;> cases h
  case infinity.infinity => exact congrArg UnpackedFloat.infinity (hsign s t)
  case notANumber.notANumber => rfl
  case zero.zero => exact congrArg UnpackedFloat.zero (hsign s t)
  case finite.finite => exact congrArg (roundWithAccuracy format · _ _ _) (hsign s t)

/-- The sign of a pattern of bits is read from its first bit alone. -/
lemma unpack_abs {b c : BitVec format.numBits} (hexponent : unpackExponent b = unpackExponent c)
    (hmantissa : unpackMantissa b = unpackMantissa c) :
    (UnpackedFloat.unpack format b).abs = (UnpackedFloat.unpack format c).abs := by
  unfold UnpackedFloat.unpack
  simp only [hexponent, hmantissa]
  split_ifs <;> rfl

/-- **Packing keeps a size**, also where it overflows. -/
lemma pack_abs (h : u.abs = v.abs) :
    (Float.Model.pack u).unpack.abs = (Float.Model.pack v).unpack.abs := by
  have hparts : unpackExponent (UnpackedFloat.pack .binary64 u)
        = unpackExponent (UnpackedFloat.pack .binary64 v) ∧
      unpackMantissa (UnpackedFloat.pack .binary64 u)
        = unpackMantissa (UnpackedFloat.pack .binary64 v) := by
    rcases u with s | _ | s | ⟨s, m, e, hm⟩ <;> rcases v with t | _ | t | ⟨t, n, d, hn⟩ <;> cases h
    case finite.finite =>
      unfold UnpackedFloat.pack packedInfinity
      dsimp only
      split_ifs <;> simp
    all_goals simp [UnpackedFloat.pack, packedInfinity, packedZero]
  exact unpack_abs _ hparts.1 hparts.2

end Signs

/-! ## Differences of doubles -/

variable {x y d d' : Float}

lemma sub_unpack_abs (x y : Float) :
    (x - y).toModel.unpack.abs = (y - x).toModel.unpack.abs :=
  pack_abs (sub_abs _ _ _)

lemma sub_zeros_unpack_abs (hx : (x == 0) = true) (hy : (y == 0) = true) :
    (x - y).toModel.unpack.abs = (0 - 0 : Float).toModel.unpack.abs := by
  obtain ⟨s, hs⟩ := unpack_of_eq_zero hx
  obtain ⟨t, ht⟩ := unpack_of_eq_zero hy
  refine pack_abs ?_
  rw [hs, ht, sub_zeros_abs]
  exact (sub_zeros_abs _ .positive .positive).symm

lemma abs_eq_of_unpack_abs (h : d.toModel.unpack.abs = d'.toModel.unpack.abs) :
    Elementary.abs d = Elementary.abs d' :=
  congrArg (fun u => Float.ofModel (Float.Model.pack u)) h

lemma sq_eq_of_unpack_abs (h : d.toModel.unpack.abs = d'.toModel.unpack.abs) : d * d = d' * d' :=
  congrArg (fun u => Float.ofModel (Float.Model.pack u)) (mul_self_eq .binary64 h)

end Double

instance : LawfulDifference Float where
  abs_comm x y := Double.abs_eq_of_unpack_abs (Double.sub_unpack_abs x y)
  sq_comm x y := Double.sq_eq_of_unpack_abs (Double.sub_unpack_abs x y)
  abs_zeros hx hy := Double.abs_eq_of_unpack_abs (Double.sub_zeros_unpack_abs hx hy)
  sq_zeros hx hy := Double.sq_eq_of_unpack_abs (Double.sub_zeros_unpack_abs hx hy)

/-! ## Differences of points -/

namespace Point

variable {α : Type} [Sub α] [Mul α] [BEq α] [OfNat α 0] [Elementary α] [LawfulDifference α]

protected lemma dist_comm [Add α] (p q : Point α) : p.dist q = q.dist p := by
  simp only [dist, mag, dot, sub, LawfulDifference.sq_comm p.x q.x,
    LawfulDifference.sq_comm p.y q.y, LawfulDifference.sq_comm p.z q.z]

lemma agrees_comm [LE α] [DecidableLE α] (p q : Point α) (tol : α) :
    p.agrees q tol = q.agrees p tol := by
  simp only [agrees, LawfulDifference.abs_comm p.x q.x, LawfulDifference.abs_comm p.y q.y,
    LawfulDifference.abs_comm p.z q.z]

variable {p q : Point α}

/-- Points of the plane are as far apart as points at the very height zero. -/
lemma dist_withZ [Add α] (hp : p.isPlanar = true) (hq : q.isPlanar = true) :
    (p.withZ 0).dist (q.withZ 0) = p.dist q := by
  simp only [dist, mag, dot, sub, withZ, LawfulDifference.sq_zeros hp hq]

lemma agrees_withZ [LE α] [DecidableLE α] (hp : p.isPlanar = true) (hq : q.isPlanar = true)
    (tol : α) : (p.withZ 0).agrees (q.withZ 0) tol = p.agrees q tol := by
  rw [agrees, agrees, LawfulDifference.abs_zeros hp hq]
  rfl

end Point

end Contour
