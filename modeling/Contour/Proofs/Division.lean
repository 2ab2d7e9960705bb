import Contour.Patch.Mesh
import Contour.Proofs.Zero

/-!
# Dividing a range

How a type of numbers divides a range is its own affair: of real numbers the steps are equal, doubles
round them.  A grid needs no more than that there are as many numbers as asked for and that they lead
from one end of the range to the other.  Doubles may miss the first end, if their step is no number.

* `LawfulDividing` — numbers that lead from one end of a range to the other.
* `Dividing ℝ` — equal steps; `Grid.node` is one of their ends, `Grid.samples_getElem?` says which.
* `Double.mul_share` — no share of the length of a range is a zero.
-/

namespace Contour

/-- Divisions of a range that begin and end with it. -/
class LawfulDividing (α : Type) [Sub α] [Div α] [BEq α] [Elementary α] [Dividing α] : Prop where
  length_divide : ∀ (a b : α) {n : ℕ}, 0 < n → (Dividing.divide a b n).length = n + 1
  /-- The first number is the beginning of the range, up to the sign of a zero, unless the length of a
  step is infinite or no number. -/
  divide_zero : ∀ (a b : α) {n : ℕ}, 0 < n →
    Elementary.isInfinite ((b - a) / Elementary.ofInt n) = false →
    Elementary.isNaN ((b - a) / Elementary.ofInt n) = false →
    ∃ x, (Dividing.divide a b n)[0]? = some x ∧ (x = a ∨ (x == a) = true)
  divide_last : ∀ (a b : α) {n : ℕ}, 0 < n → (Dividing.divide a b n)[n]? = some b

/-! ## Real numbers -/

namespace Grid

/-- The numbers that divide a range into `n` equal steps, from its beginning to its end. -/
noncomputable def node (range : ℝ × ℝ) (n i : ℕ) : ℝ := range.1 + i * ((range.2 - range.1) / n)

variable {range : ℝ × ℝ} {n i : ℕ}

lemma node_zero (range : ℝ × ℝ) (n : ℕ) : node range n 0 = range.1 := by simp [node]

lemma node_last (range : ℝ × ℝ) (hn : 0 < n) : node range n n = range.2 := by
  have hne : (n : ℝ) ≠ 0 := Nat.cast_ne_zero.mpr hn.ne'
  rw [node, mul_div_cancel₀ _ hne, add_sub_cancel]

lemma node_succ_sub (range : ℝ × ℝ) (n i : ℕ) :
    node range n (i + 1) - node range n i = (range.2 - range.1) / n := by
  simp only [node]
  push_cast
  ring

lemma node_mem (h : range.1 ≤ range.2) (hi : i ≤ n) :
    node range n i ∈ Set.Icc range.1 range.2 := by
  have hlength : 0 ≤ range.2 - range.1 := sub_nonneg.mpr h
  have hshare : (i : ℝ) / n ≤ 1 := div_le_one_of_le₀ (Nat.cast_le.mpr hi) (Nat.cast_nonneg n)
  have hnode : node range n i = range.1 + i / n * (range.2 - range.1) := by
    rw [node, mul_div_assoc', div_mul_eq_mul_div]
  rw [hnode]
  constructor
  · linarith [mul_nonneg (div_nonneg i.cast_nonneg n.cast_nonneg : (0 : ℝ) ≤ i / n) hlength]
  · linarith [mul_le_of_le_one_left hlength hshare]

end Grid

noncomputable instance : Dividing ℝ where
  divide a b n := (List.range (n + 1)).map (Grid.node (a, b) n)

lemma Grid.samples_getElem? (range : ℝ × ℝ) {n i : ℕ} (hi : i ≤ n) :
    (samples range n)[i]? = some (node range n i) := by
  show ((List.range (n + 1)).map (node range n))[i]? = _
  rw [List.getElem?_map, List.getElem?_range (Nat.lt_succ_of_le hi)]
  rfl

instance : LawfulDividing ℝ where
  length_divide a b n _ := by simp [Dividing.divide]
  divide_zero a b n _ _ _ :=
    ⟨a, (Grid.samples_getElem? (a, b) n.zero_le).trans (congrArg some (Grid.node_zero _ n)), .inl rfl⟩
  divide_last a b n hn :=
    (Grid.samples_getElem? (a, b) le_rfl).trans (congrArg some (Grid.node_last _ hn))

/-! ## Doubles -/

namespace Double

open Float.Model Float.Model.UnpackedFloat

/-- If a quotient is neither infinite nor without a number, no share of the dividend is a zero. -/
lemma mul_unpacked_share {u v : UnpackedFloat}
    (hinf : (Float.Model.pack (u.div .binary64 v)).unpack.isInf = false)
    (hnan : (Float.Model.pack (u.div .binary64 v)).unpack.isNaN = false) :
    ∃ s, (Float.Model.pack ((Float.Model.pack ((UnpackedFloat.zero .positive).div .binary64
      v)).unpack.mul .binary64 u)).unpack = .zero s := by
  rcases u with s | _ | s | ⟨s, m, e, hm⟩ <;> rcases v with t | _ | t | ⟨t, k, d, hk⟩ <;>
    simp only [UnpackedFloat.div, UnpackedFloat.mul, unpack_pack_infinity, unpack_pack_notANumber,
      unpack_pack_zero, UnpackedFloat.isInf, UnpackedFloat.isNaN, Bool.true_eq_false,
      UnpackedFloat.zero.injEq, exists_eq'] at hinf hnan ⊢

lemma mul_share {length parts : Float} (hinf : (length / parts).isInf = false)
    (hnan : (length / parts).isNaN = false) :
    ∃ s, (ofInt 0 / parts * length).toModel.unpack = .zero s :=
  mul_unpacked_share hinf hnan

end Double

instance : LawfulDividing Float where
  length_divide a b n _ := by
    show (Double.divide a b n).length = n + 1
    simp [Double.divide]
  divide_zero a b n hn hinf hnan := by
    have hfirst : (Double.divide a b n)[0]? = some
        ((if (b - a) / Double.ofInt n == 0 then Double.ofInt 0 / Double.ofInt n * (b - a)
          else Double.ofInt 0 * ((b - a) / Double.ofInt n)) + a) := by
      rw [Double.divide, List.getElem?_append_left (by simpa using hn), List.getElem?_map,
        List.getElem?_range hn]
      rfl
    refine ⟨_, hfirst, ?_⟩
    split_ifs
    · obtain ⟨s, hs⟩ := Double.mul_share hinf hnan
      exact Double.add_eq hs
    · exact LawfulZero.mul_add a hinf hnan
  divide_last a b n _ := by
    show (Double.divide a b n)[n]? = some b
    rw [Double.divide, List.getElem?_append_right (by simp)]
    simp

end Contour
