import Mathlib
import Contour.Intersection.Pairs
import Contour.Segment.Construct

/-!
# The kernel over the real numbers

Every definition of the kernel names its operations one by one, so that over `ℝ` addition, order
and decimals are the usual ones.  This file adds what is left: roots and angles are the ideal ones,
and the wide type of `ℝ` is `ℝ` itself.

* `Elementary ℝ`, `Widening ℝ` — the instances.
* `larger_eq_max`, `smaller_eq_min`, `quotient_of_ne` — what the small checked
  operations are over `ℝ`.
* `ordered_perm` — putting at most two items in order changes nothing but their order.
* `exists_of_bind_eq_ok` — two steps that succeed together succeed each.
* `mapM_ok`, `filterM_ok` — a traversal in which every step succeeds.
* `mapM_getElem?`, `mapM_error` — what a traversal returns that may fail.
-/

namespace Contour

/-! Literals of `ℝ` carry a proof that they are at least two. Named proofs keep it the same one in
every definition that follows. -/

instance atLeastTwo_two : Nat.AtLeastTwo 2 := ⟨le_rfl⟩

instance atLeastTwo_four : Nat.AtLeastTwo 4 := ⟨by norm_num⟩

noncomputable instance : Elementary ℝ where
  pi := Real.pi
  abs x := |x|
  sqrt := Real.sqrt
  sin := Real.sin
  cos := Real.cos
  atan2 y x := Complex.arg ⟨x, y⟩
  modulo a b := a - b * ⌊a / b⌋
  ceil x := ⌈x⌉
  ofInt n := n
  isInfinite _ := false
  isNaN _ := false

noncomputable instance : Widening ℝ where
  Wide := ℝ
  widen := id
  narrow := id
  sqrt := Real.sqrt

section Operations

@[simp] lemma elementary_abs (x : ℝ) : Elementary.abs x = |x| := rfl

@[simp] lemma elementary_sqrt (x : ℝ) : Elementary.sqrt x = √x := rfl

@[simp] lemma turn_eq : (Angle.turn : ℝ) = 2 * Real.pi := rfl

lemma turn_pos : 0 < 2 * Real.pi := by positivity

lemma coincidentTol_eq : (coincidentTol : ℝ) = 1e-8 := rfl

lemma radiusTol_eq : (radiusTol : ℝ) = 1e-3 := rfl

lemma coincidentTol_pos : 0 < (coincidentTol : ℝ) := by rw [coincidentTol_eq]; norm_num

lemma radiusTol_pos : 0 < (radiusTol : ℝ) := by rw [radiusTol_eq]; norm_num

/-- A few coincidences are lost in the tolerance for circles. -/
lemma coincidentTol_small : 4 * (coincidentTol : ℝ) ≤ radiusTol / 10 := by
  rw [coincidentTol_eq, radiusTol_eq]
  norm_num

@[simp] lemma larger_eq_max (a b : ℝ) : Scalar.larger a b = max a b := by
  unfold Scalar.larger
  split_ifs with h
  · exact (max_eq_right h.le).symm
  · exact (max_eq_left (not_lt.mp h)).symm

@[simp] lemma smaller_eq_min (a b : ℝ) : Scalar.smaller a b = min a b := by
  unfold Scalar.smaller
  split_ifs with h
  · exact (min_eq_right h.le).symm
  · exact (min_eq_left (not_lt.mp h)).symm

lemma quotient_of_ne {β : Type} (a : ℝ) {b : ℝ} (h : b ≠ 0) :
    (quotient a b : Except (Fault β) ℝ) = .ok (a / b) := by
  simp [quotient, h]

lemma ordered_perm {α β : Type} [LT α] [DecidableLT α] (key : β → α) (items : List β) :
    (Scalar.ordered key items).Perm items := by
  unfold Scalar.ordered
  split
  · split_ifs
    · exact List.Perm.swap _ _ _
    · exact List.Perm.refl _
  · exact List.Perm.refl _

lemma isPlanar_iff (p : Point ℝ) : p.isPlanar = true ↔ p.z = 0 := by simp [Point.isPlanar]

end Operations

/-! ## Traversals -/

lemma exists_of_bind_eq_ok {ε β γ : Type} {first : Except ε β} {next : β → Except ε γ} {c : γ}
    (h : first >>= next = .ok c) : ∃ b, first = .ok b ∧ next b = .ok c := by
  cases first with
  | error fault => cases h
  | ok b => exact ⟨b, rfl, h⟩

/-- A traversal in which every step succeeds succeeds, item by item. -/
lemma mapM_ok {ε β γ : Type} {f : β → Except ε γ} {P : γ → β → Prop} {items : List β}
    (h : ∀ x ∈ items, ∃ y, f x = .ok y ∧ P y x) :
    ∃ ys, items.mapM f = .ok ys ∧ List.Forall₂ P ys items := by
  induction items with
  | nil => exact ⟨[], rfl, .nil⟩
  | cons x rest ih =>
      obtain ⟨y, hy, hP⟩ := h x List.mem_cons_self
      obtain ⟨ys, hys, hrest⟩ := ih fun z hz => h z (List.mem_cons_of_mem _ hz)
      refine ⟨y :: ys, ?_, .cons hP hrest⟩
      rw [List.mapM_cons, hy, hys]
      rfl

/-- A traversal that succeeds has one result for each item. -/
lemma mapM_getElem? {ε β γ : Type} {f : β → Except ε γ} {items : List β} {ys : List γ}
    (h : items.mapM f = .ok ys) :
    ys.length = items.length ∧ ∀ (k : ℕ) x, items[k]? = some x → ∃ y, f x = .ok y ∧ ys[k]? = some y := by
  induction items generalizing ys with
  | nil =>
      obtain rfl : [] = ys := Except.ok.inj h
      exact ⟨rfl, by simp⟩
  | cons x rest ih =>
      rw [List.mapM_cons] at h
      cases hx : f x with
      | error e =>
          rw [hx] at h
          cases h
      | ok y =>
          cases hrest : rest.mapM f with
          | error e =>
              rw [hx, hrest] at h
              cases h
          | ok ys' =>
              rw [hx, hrest] at h
              obtain rfl : y :: ys' = ys := Except.ok.inj h
              obtain ⟨hlength, hat⟩ := ih hrest
              refine ⟨congrArg (· + 1) hlength, fun k z hz => ?_⟩
              cases k with
              | zero =>
                  obtain rfl : x = z := Option.some.inj hz
                  exact ⟨y, hx, rfl⟩
              | succ k => exact hat k z hz

/-- A traversal whose steps have only one way to fail fails in that way. -/
lemma mapM_error {ε β γ : Type} {f : β → Except ε γ} {items : List β} {e : ε}
    (hstep : ∀ x ∈ items, (∃ y, f x = .ok y) ∨ f x = .error e)
    (hfails : ∃ x ∈ items, f x = .error e) : items.mapM f = .error e := by
  induction items with
  | nil =>
      obtain ⟨x, hx, -⟩ := hfails
      cases hx
  | cons x rest ih =>
      rw [List.mapM_cons]
      rcases hstep x List.mem_cons_self with ⟨y, hy⟩ | herror
      · have hrest : ∃ z ∈ rest, f z = .error e := by
          obtain ⟨z, hz, hfz⟩ := hfails
          rcases List.mem_cons.mp hz with rfl | hz
          · rw [hy] at hfz
            cases hfz
          · exact ⟨z, hz, hfz⟩
        rw [hy, ih (fun z hz => hstep z (List.mem_cons_of_mem _ hz)) hrest]
        rfl
      · rw [herror]
        rfl

lemma exists_of_forall₂ {β γ : Type} {R : β → γ → Prop} {xs : List β} {ys : List γ}
    (h : List.Forall₂ R xs ys) {x : β} (hx : x ∈ xs) : ∃ y ∈ ys, R x y := by
  induction h with
  | nil => cases hx
  | cons hR _ ih =>
      rcases List.mem_cons.mp hx with rfl | hrest
      · exact ⟨_, List.mem_cons_self, hR⟩
      · obtain ⟨y, hy, hxy⟩ := ih hrest
        exact ⟨y, List.mem_cons_of_mem _ hy, hxy⟩

/-- A selection in which every test succeeds is the pure selection. -/
lemma filterM_ok {ε β : Type} {f : β → Except ε Bool} {keep : β → Bool}
    (h : ∀ x, f x = .ok (keep x)) (items : List β) : items.filterM f = .ok (items.filter keep) := by
  have haux : ∀ kept, items.filterAuxM f kept = .ok ((items.filter keep).reverse ++ kept) := by
    induction items with
    | nil => exact fun kept => rfl
    | cons x rest ih =>
        intro kept
        rw [List.filterAuxM, h x]
        change rest.filterAuxM f (cond (keep x) (x :: kept) kept) = _
        rw [ih, List.filter_cons]
        cases keep x <;> simp
  rw [List.filterM, haux]
  show Except.ok _ = _
  simp

end Contour
