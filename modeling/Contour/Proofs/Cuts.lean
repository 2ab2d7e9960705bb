import Contour.Proofs.Exact
import Contour.Segment.Split

/-!
# Cuts in a row

A segment is cut at a row of places: those that are kept, between its start and its stop.  This file
is about such rows, whatever the places are.

* `consecutive` — its pairs hang together, and differences over them add up to the whole.
* `keepApart` — it drops places only, what it keeps leaves gaps throughout, and places that were in
  order stay in order.
* `ordered_pairwise` — two places in order.
-/

namespace Contour

variable {β γ : Type}

/-! ## Pairs of neighbours -/

@[simp] lemma consecutive_cons_cons (x y : β) (rest : List β) :
    consecutive (x :: y :: rest) = (x, y) :: consecutive (y :: rest) := rfl

@[simp] lemma consecutive_singleton (x : β) : consecutive [x] = [] := rfl

lemma consecutive_map (f : β → γ) (items : List β) :
    consecutive (items.map f) = (consecutive items).map fun p => (f p.1, f p.2) := by
  rw [consecutive, consecutive, ← List.map_tail, List.zip_map]
  rfl

/-- A row has one pair of neighbours more than it has places inside. -/
lemma length_consecutive (first last : β) (inner : List β) :
    (consecutive (first :: inner ++ [last])).length = inner.length + 1 := by
  simp [consecutive]

/-- Each pair ends where the next one starts. -/
lemma isChain_consecutive (items : List β) : (consecutive items).IsChain fun p q => p.2 = q.1 := by
  induction items with
  | nil => exact List.IsChain.nil
  | cons x rest ih =>
      cases rest with
      | nil => exact List.IsChain.nil
      | cons y rest =>
          rw [consecutive_cons_cons]
          cases rest with
          | nil => exact List.IsChain.singleton _
          | cons z rest => exact List.isChain_cons_cons.mpr ⟨rfl, ih⟩

lemma head?_consecutive (first last : β) (inner : List β) :
    (consecutive (first :: inner ++ [last])).head?.map Prod.fst = some first := by
  cases inner <;> rfl

lemma getLast?_consecutive (first last : β) (inner : List β) :
    (consecutive (first :: inner ++ [last])).getLast?.map Prod.snd = some last := by
  induction inner generalizing first with
  | nil => rfl
  | cons x rest ih =>
      cases rest with
      | nil => rfl
      | cons y rest => exact ih x

lemma rel_of_mem_consecutive {R : β → β → Prop} {items : List β} (h : items.IsChain R) {p : β × β}
    (hp : p ∈ consecutive items) : R p.1 p.2 := by
  induction items with
  | nil => cases hp
  | cons x rest ih =>
      cases rest with
      | nil => cases hp
      | cons y rest =>
          obtain ⟨hxy, hrest⟩ := List.isChain_cons_cons.mp h
          rcases List.mem_cons.mp hp with rfl | hp
          · exact hxy
          · exact ih hrest hp

lemma mem_of_mem_consecutive {items : List β} {p : β × β} (hp : p ∈ consecutive items) :
    p.1 ∈ items ∧ p.2 ∈ items := by
  obtain ⟨hfirst, hsecond⟩ := List.of_mem_zip hp
  exact ⟨hfirst, List.mem_of_mem_tail hsecond⟩

/-- No pair starts at the last place of a row. -/
lemma fst_mem_of_mem_consecutive {first last : β} {inner : List β} {p : β × β}
    (hp : p ∈ consecutive (first :: inner ++ [last])) : p.1 ∈ first :: inner := by
  induction inner generalizing first with
  | nil =>
      rw [List.mem_singleton.mp hp]
      exact List.mem_singleton_self first
  | cons x rest ih =>
      rcases List.mem_cons.mp hp with rfl | hp
      · exact List.mem_cons_self
      · exact List.mem_cons_of_mem first (ih hp)

/-- Rows that correspond place by place have pairs that do. -/
lemma forall₂_consecutive {R : β → γ → Prop} {xs : List β} {ys : List γ} (h : List.Forall₂ R xs ys) :
    List.Forall₂ (fun p q => R p.1 q.1 ∧ R p.2 q.2) (consecutive xs) (consecutive ys) := by
  induction h with
  | nil => exact .nil
  | cons hfirst hrest ih =>
      cases hrest with
      | nil => exact .nil
      | cons hsecond hrest => exact .cons ⟨hfirst, hsecond⟩ ih

/-- In a row in order every place lies between the first and the last. -/
lemma mem_row_of_isChain {first last x : ℝ} {inner : List ℝ}
    (h : (first :: inner ++ [last]).IsChain (· ≤ ·)) (hx : x ∈ first :: inner ++ [last]) :
    first ≤ x ∧ x ≤ last := by
  have hpairs := List.isChain_iff_pairwise.mp h
  constructor
  · rcases List.mem_cons.mp hx with rfl | hx
    · exact le_rfl
    · exact (List.pairwise_cons.mp hpairs).1 x hx
  · rcases List.mem_append.mp hx with hx | hx
    · exact (List.pairwise_append.mp hpairs).2.2 x hx last (List.mem_singleton_self _)
    · exact (List.mem_singleton.mp hx).le

/-- In a row in order no pair starts before an earlier one has ended. -/
lemma pairwise_consecutive {row : List ℝ} (h : row.IsChain (· ≤ ·)) :
    (consecutive row).Pairwise fun p q => p.2 ≤ q.1 := by
  induction row with
  | nil => exact List.Pairwise.nil
  | cons x rest ih =>
      cases rest with
      | nil => exact List.Pairwise.nil
      | cons y rest =>
          have hrest : (y :: rest).IsChain (· ≤ ·) := (List.isChain_cons_cons.mp h).2
          rw [consecutive_cons_cons]
          refine List.pairwise_cons.mpr ⟨fun q hq => ?_, ih hrest⟩
          rcases List.mem_cons.mp (mem_of_mem_consecutive hq).1 with heq | hmem
          · exact heq.ge
          · exact (List.pairwise_cons.mp (List.isChain_iff_pairwise.mp hrest)).1 _ hmem

/-- **Differences over the pairs of a row add up to the whole.** -/
lemma sum_consecutive (first last : ℝ) (inner : List ℝ) :
    ((consecutive (first :: inner ++ [last])).map fun p => p.2 - p.1).sum = last - first := by
  induction inner generalizing first with
  | nil => simp
  | cons x rest ih =>
      have hrest := ih x
      rw [List.cons_append] at hrest
      rw [List.cons_append, List.cons_append, consecutive_cons_cons, List.map_cons, List.sum_cons,
        hrest]
      ring

/-! ## Rows side by side -/

lemma zipWith_fst (f : β → γ) {δ : Type} {xs : List β} {ys : List δ} (h : xs.length ≤ ys.length) :
    List.zipWith (fun x _ => f x) xs ys = xs.map f := by
  rw [← List.map_uncurry_zip_eq_zipWith]
  conv_rhs => rw [← List.map_fst_zip h, List.map_map]
  rfl

lemma zipWith_snd (f : β → γ) {δ : Type} {xs : List δ} {ys : List β} (h : ys.length ≤ xs.length) :
    List.zipWith (fun _ y => f y) xs ys = ys.map f := by
  rw [← List.map_uncurry_zip_eq_zipWith]
  conv_rhs => rw [← List.map_snd_zip h, List.map_map]
  rfl

lemma exists_of_mem_zipWith {δ : Type} {R : β → γ → Prop} {f : β → γ → δ} {xs : List β} {ys : List γ}
    (h : List.Forall₂ R xs ys) {z : δ} (hz : z ∈ List.zipWith f xs ys) :
    ∃ x ∈ xs, ∃ y, R x y ∧ f x y = z := by
  induction h with
  | nil => cases hz
  | cons hxy _ ih =>
      rcases List.mem_cons.mp hz with rfl | hz
      · exact ⟨_, List.mem_cons_self, _, hxy, rfl⟩
      · obtain ⟨x, hx, y, hrel, heq⟩ := ih hz
        exact ⟨x, List.mem_cons_of_mem _ hx, y, hrel, heq⟩

/-! ## Keeping gaps -/

lemma keepApart_sublist (gap : β → β → Bool) (stop last : β) (items : List β) :
    (keepApart gap stop last items).Sublist items := by
  induction items generalizing last with
  | nil => exact List.Sublist.refl _
  | cons item rest ih =>
      rw [keepApart]
      split
      · exact (ih item).cons_cons item
      · exact (ih last).cons item

lemma keepApart_map (gap : γ → γ → Bool) (f : β → γ) (stop last : β) (items : List β) :
    keepApart gap (f stop) (f last) (items.map f)
      = (keepApart (fun x y => gap (f x) (f y)) stop last items).map f := by
  induction items generalizing last with
  | nil => rfl
  | cons item rest ih =>
      rw [List.map_cons, keepApart, keepApart]
      split
      · rw [ih, List.map_cons]
      · exact ih last

lemma isChain_keepApart_of_gap {gap : β → β → Bool} {stop last : β} (h : gap last stop = true)
    (items : List β) :
    (last :: keepApart gap stop last items ++ [stop]).IsChain (gap · · = true) := by
  induction items generalizing last with
  | nil => exact List.isChain_pair.mpr h
  | cons item rest ih =>
      rw [keepApart]
      split
      · next hkept =>
          obtain ⟨hlast, hstop⟩ := Bool.and_eq_true_iff.mp hkept
          exact List.isChain_cons_cons.mpr ⟨hlast, ih hstop⟩
      · exact ih h

/-- **What is kept leaves gaps throughout**, from the start to the stop, once anything is kept. -/
lemma isChain_keepApart {gap : β → β → Bool} {stop last : β} {items : List β}
    (h : keepApart gap stop last items ≠ []) :
    (last :: keepApart gap stop last items ++ [stop]).IsChain (gap · · = true) := by
  induction items with
  | nil => exact absurd rfl h
  | cons item rest ih =>
      rw [keepApart] at h ⊢
      split at h
      · next hkept =>
          obtain ⟨hlast, hstop⟩ := Bool.and_eq_true_iff.mp hkept
          rw [if_pos hkept]
          exact List.isChain_cons_cons.mpr ⟨hlast, isChain_keepApart_of_gap hstop rest⟩
      · next hdropped =>
          rw [if_neg hdropped]
          exact ih h

/-- Items in order stay in order between the start and the stop, if those outside leave no gap to
the end they have passed. -/
lemma isChain_le_keepApart {gap : ℝ → ℝ → Bool} {stop last : ℝ} {items : List ℝ}
    (hsorted : items.Pairwise (· ≤ ·)) (hle : last ≤ stop)
    (hbefore : ∀ x ∈ items, x < last → gap last x = false)
    (hafter : ∀ x ∈ items, stop < x → gap x stop = false) :
    (last :: keepApart gap stop last items ++ [stop]).IsChain (· ≤ ·) := by
  induction items generalizing last with
  | nil => exact List.isChain_pair.mpr hle
  | cons item rest ih =>
      obtain ⟨hitem, hrest⟩ := List.pairwise_cons.mp hsorted
      have hafter' : ∀ x ∈ rest, stop < x → gap x stop = false := fun x hx =>
        hafter x (List.mem_cons_of_mem _ hx)
      rw [keepApart]
      split
      · next hkept =>
          obtain ⟨hlast, hstop⟩ := Bool.and_eq_true_iff.mp hkept
          have hlow : last ≤ item := by
            by_contra hlt
            rw [hbefore item List.mem_cons_self (not_le.mp hlt)] at hlast
            cases hlast
          have hhigh : item ≤ stop := by
            by_contra hlt
            rw [hafter item List.mem_cons_self (not_le.mp hlt)] at hstop
            cases hstop
          exact List.isChain_cons_cons.mpr ⟨hlow, ih hrest hhigh
            (fun x hx hlt => absurd (hitem x hx) (not_le.mpr hlt)) hafter'⟩
      · exact ih hrest hle (fun x hx => hbefore x (List.mem_cons_of_mem _ hx)) hafter'

/-! ## Two places in order -/

lemma ordered_pairwise (key : β → ℝ) {items : List β} (h : items.length ≤ 2) :
    (Scalar.ordered key items).Pairwise fun x y => key x ≤ key y := by
  rcases items with _ | ⟨x, _ | ⟨y, _ | ⟨z, rest⟩⟩⟩
  · exact List.Pairwise.nil
  · exact List.pairwise_singleton _ _
  · show List.Pairwise _ (if key y < key x then [y, x] else [x, y])
    split_ifs with hlt
    · simpa using hlt.le
    · simpa using not_lt.mp hlt
  · simp at h

end Contour
