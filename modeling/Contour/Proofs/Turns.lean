import Contour.Proofs.Exact

/-!
# Whole turns

Two angles name one direction if they differ by whole turns.  `Angle.unwrapAfter` and
`Angle.normalize` pick one angle of a direction each, and this file says which.

* `Angle.unwrapAfter_isLeast` — unwrapping adds the least number of turns that reaches the start.
* `Angle.unwrapAfter_of_le`, `unwrapAfter_of_lt` — the two cases that occur for the angles of
  directions.
* `Angle.rewind_spec` — rewinding takes turns off a range until it starts within half a turn of zero.
* `Angle.normalize_eq_iff` — two angles are normalized alike iff they differ by whole turns.
-/

namespace Contour.Angle

open Real (pi)

/-! ## Unwrapping -/

/-- Raising an angle adds the least number of turns that reaches the start, as long as the limit
allows that many. -/
lemma raise_isLeast (start : ℝ) (limit : ℕ) (angle : ℝ) (h : start ≤ angle + limit * (2 * pi)) :
    ∃ k : ℕ, IsLeast {m : ℕ | start ≤ angle + m * (2 * pi)} k ∧
      raise start limit angle = angle + k * (2 * pi) := by
  induction limit generalizing angle with
  | zero =>
      refine ⟨0, ⟨by simpa using h, fun m _ => Nat.zero_le m⟩, ?_⟩
      simp [raise]
  | succ limit ih =>
      rw [raise]
      split_ifs with hlt
      · have hnext : start ≤ angle + turn + limit * (2 * pi) := by
          rw [turn_eq]; push_cast at h; linarith
        obtain ⟨k, ⟨hk, hmin⟩, heq⟩ := ih (angle + turn) hnext
        rw [turn_eq] at hk hmin heq
        refine ⟨k + 1, ⟨?_, ?_⟩, ?_⟩
        · show start ≤ angle + ((k + 1 : ℕ) : ℝ) * (2 * pi)
          have hk' : start ≤ angle + 2 * pi + k * (2 * pi) := hk
          push_cast; linarith
        · intro m hm
          -- no turn at all does not reach the start, so one turn may be taken off `m`
          cases m with
          | zero => exact absurd hlt (not_lt.mpr (by simpa using hm))
          | succ m =>
              have hm' : start ≤ angle + ((m + 1 : ℕ) : ℝ) * (2 * pi) := hm
              refine Nat.succ_le_succ (hmin ?_)
              show start ≤ angle + 2 * pi + m * (2 * pi)
              push_cast at hm'; linarith
        · rw [turn_eq, heq]; push_cast; ring
      · refine ⟨0, ⟨by simpa using not_lt.mp hlt, fun m _ => Nat.zero_le m⟩, by simp⟩

/-- The turns between two angles are enough to raise the lower one to the higher. -/
lemma le_add_turnsBetween (low high : ℝ) :
    high ≤ low + (turnsBetween low high : ℕ) * (2 * pi) := by
  have hceil : (high - low) / (2 * pi) ≤ (turnsBetween low high : ℕ) := by
    have hnat : (⌈(high - low) / (2 * pi)⌉ : ℝ) ≤ (⌈(high - low) / (2 * pi)⌉.toNat : ℝ) := by
      exact_mod_cast Int.self_le_toNat _
    calc (high - low) / (2 * pi) ≤ (⌈(high - low) / (2 * pi)⌉ : ℝ) := Int.le_ceil _
      _ ≤ (⌈(high - low) / (2 * pi)⌉.toNat : ℝ) := hnat
      _ ≤ ((2 * ⌈(high - low) / (2 * pi)⌉.toNat + 2 : ℕ) : ℝ) := by exact_mod_cast by omega
  rw [div_le_iff₀ turn_pos] at hceil
  linarith

/-- **Unwrapping is canonical.**  It adds the least number of turns that reaches the start. -/
theorem unwrapAfter_isLeast (angle start : ℝ) :
    ∃ k : ℕ, IsLeast {m : ℕ | start ≤ angle + m * (2 * pi)} k ∧
      unwrapAfter angle start = angle + k * (2 * pi) :=
  raise_isLeast start _ angle (le_add_turnsBetween angle start)

lemma le_unwrapAfter (angle start : ℝ) : start ≤ unwrapAfter angle start := by
  obtain ⟨k, ⟨hk, -⟩, heq⟩ := unwrapAfter_isLeast angle start
  rw [heq]
  exact hk

lemma unwrapAfter_of_le {angle start : ℝ} (h : start ≤ angle) :
    unwrapAfter angle start = angle := by
  obtain ⟨k, ⟨-, hmin⟩, heq⟩ := unwrapAfter_isLeast angle start
  have hzero : k ≤ 0 := hmin (show start ≤ angle + ((0 : ℕ) : ℝ) * (2 * pi) by simpa using h)
  rw [heq, Nat.le_zero.mp hzero]
  simp

lemma unwrapAfter_of_lt {angle start : ℝ} (h : angle < start) (hturn : start ≤ angle + 2 * pi) :
    unwrapAfter angle start = angle + 2 * pi := by
  obtain ⟨k, ⟨hk, hmin⟩, heq⟩ := unwrapAfter_isLeast angle start
  have hone : k ≤ 1 := hmin (show start ≤ angle + ((1 : ℕ) : ℝ) * (2 * pi) by simpa using hturn)
  have hpos : k ≠ 0 := by
    rintro rfl
    exact absurd h (not_lt.mpr (by simpa using hk))
  rw [heq, show k = 1 by omega]
  simp

/-- An angle that starts less than a turn above the start stays there. -/
lemma unwrapAfter_lt {angle start : ℝ} (h : angle < start + 2 * pi) :
    unwrapAfter angle start < start + 2 * pi := by
  obtain ⟨k, ⟨hk, hmin⟩, heq⟩ := unwrapAfter_isLeast angle start
  rw [heq]
  cases k with
  | zero => simpa using h
  | succ k =>
      by_contra hge
      have hprev : k + 1 ≤ k := by
        refine hmin (show start ≤ angle + (k : ℝ) * (2 * pi) from ?_)
        push_cast at hge
        linarith
      omega

lemma unwrapAfter_le {angle start : ℝ} (h : angle ≤ start + 2 * pi) :
    unwrapAfter angle start ≤ start + 2 * pi := by
  rcases h.lt_or_eq with hlt | heq
  · exact (unwrapAfter_lt hlt).le
  · rw [unwrapAfter_of_le (by linarith [turn_pos]), heq]

/-! ## Rewinding -/

/-- Lowering a range takes whole turns off both angles until the first is no more than half a turn,
as long as the limit allows that many. -/
lemma lower_spec (limit : ℕ) (range : ℝ × ℝ) (hlow : -pi ≤ range.1)
    (h : range.1 ≤ pi + limit * (2 * pi)) :
    ∃ k : ℕ, lower limit range = (range.1 - k * (2 * pi), range.2 - k * (2 * pi)) ∧
      -pi ≤ range.1 - k * (2 * pi) ∧ range.1 - k * (2 * pi) ≤ pi := by
  induction limit generalizing range with
  | zero => exact ⟨0, by simp [lower], by simpa using hlow, by simpa using h⟩
  | succ limit ih =>
      rw [lower]
      split_ifs with hlt
      · have hpi : pi < range.1 := hlt
        push_cast at h
        obtain ⟨k, heq, hlow', hhigh'⟩ := ih (range.1 - turn, range.2 - turn)
          (by rw [turn_eq]; linarith) (by rw [turn_eq]; linarith)
        rw [turn_eq] at heq hlow' hhigh'
        refine ⟨k + 1, ?_, ?_, ?_⟩
        · rw [turn_eq, heq]
          push_cast
          congr 1 <;> ring
        · push_cast
          linarith
        · push_cast
          linarith
      · have hpi : range.1 ≤ pi := not_lt.mp hlt
        exact ⟨0, by simp, by simpa using hlow, by simpa using hpi⟩

/-- **Rewinding is by whole turns**, and ends with a start within half a turn of angle zero. -/
lemma rewind_spec (stop : ℝ) {start : ℝ} (hstart : -pi ≤ start) :
    ∃ k : ℕ, rewind start stop = (start - k * (2 * pi), stop - k * (2 * pi)) ∧
      -pi ≤ start - k * (2 * pi) ∧ start - k * (2 * pi) ≤ pi :=
  lower_spec _ (start, stop) hstart (le_add_turnsBetween pi start)

/-! ## Normalizing -/

lemma normalize_eq (angle : ℝ) : normalize angle = angle - 2 * pi * ⌊angle / (2 * pi)⌋ := by
  have hlt : angle - 2 * pi * ⌊angle / (2 * pi)⌋ < 2 * pi := by
    have := Int.lt_floor_add_one (angle / (2 * pi))
    rw [div_lt_iff₀ turn_pos] at this
    linarith
  show (if turn ≤ angle - turn * ⌊angle / turn⌋ then 0 else angle - turn * ⌊angle / turn⌋) = _
  rw [turn_eq, if_neg (not_le.mpr hlt)]

/-- Two angles are normalized alike iff they differ by whole turns. -/
lemma normalize_eq_iff (θ φ : ℝ) :
    normalize θ = normalize φ ↔ ∃ n : ℤ, θ = φ + n * (2 * pi) := by
  rw [normalize_eq, normalize_eq]
  constructor
  · intro h
    refine ⟨⌊θ / (2 * pi)⌋ - ⌊φ / (2 * pi)⌋, ?_⟩
    push_cast
    linarith
  · rintro ⟨n, rfl⟩
    have hdiv : (φ + n * (2 * pi)) / (2 * pi) = φ / (2 * pi) + n := by
      field_simp
    rw [hdiv, Int.floor_add_intCast]
    push_cast
    ring

lemma normalize_ne_of_lt {θ φ : ℝ} (hlt : θ < φ) (hturn : φ < θ + 2 * pi) :
    normalize θ ≠ normalize φ := by
  intro heq
  obtain ⟨n, hn⟩ := (normalize_eq_iff θ φ).mp heq
  have hneg : (n : ℝ) < 0 := by
    by_contra hge
    have := mul_nonneg (not_lt.mp hge) turn_pos.le
    linarith
  have hone : n ≤ -1 := by
    have : n < 0 := by exact_mod_cast hneg
    omega
  have hle : (n : ℝ) * (2 * pi) ≤ (-1 : ℤ) * (2 * pi) :=
    mul_le_mul_of_nonneg_right (by exact_mod_cast hone) turn_pos.le
  push_cast at hle
  linarith

end Contour.Angle
