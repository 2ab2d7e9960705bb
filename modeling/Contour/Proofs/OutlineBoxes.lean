import Contour.Operand
import Contour.Proofs.ExactBoxes
import Contour.Proofs.Order

/-!
# Boxes of segments and outlines

A box is spanned by its lower left and its upper right corner, but nothing in the type keeps the two in
this order.  From below to above they always are.  From left to right they are unless a line leans: the
corners of a line that is upright within the tolerance are its own ends, and the lower end may be a
little to the right of the upper one.  All this holds in every arithmetic in which numbers are ordered.

* `Box.foldl_union_spans`, `Box.between_ofPoints` — unions, and boxes of points.
* `Segment.Constructed`, `Segment.Numeric` — segments that pass the checks, with numbers for coordinates.
* `Line.Leans` — lines of which the box is turned around.
* `Segment.Framed` — how the ends of a segment lie in its box; `Segment.Framed.holds_iff` says which
  boxes around that box hold them.
* `Segment.Enclosed`, `Box.Encloses`, `boxes_enclose` — what is said of the boxes of segments and outlines.
-/

namespace Contour

open Elementary (abs isNaN)
open LawfulOrder

/-! ## Extremes of numbers -/

section Extremes

variable {α : Type} [Add α] [Sub α] [LT α] [DecidableLT α] [LE α] [OfNat α 0] [OfScientific α]
  [Elementary α] [LawfulOrder α] {x : α}

/-- **The smallest of some numbers is at most each of them**, whatever else follows the first one. -/
lemma foldl_smaller_le (hx : isNaN x = false) (xs : List α) :
    ∀ y ∈ x :: xs, isNaN y = false → xs.foldl Scalar.smaller x ≤ y :=
  have : IsTrans α (· ≤ ·) := ⟨fun _ _ _ => LawfulOrder.le_trans⟩
  Box.rel_foldl (fun _ => LawfulOrder.le_refl) (fun _ y h => (smaller_spec h y).1)
    (fun _ y h => (smaller_spec h y).2.1) (fun _ y h => (smaller_spec h y).2.2) hx xs

lemma le_foldl_larger (hx : isNaN x = false) (xs : List α) :
    ∀ y ∈ x :: xs, isNaN y = false → y ≤ xs.foldl Scalar.larger x :=
  have : IsTrans α (· ≥ ·) := ⟨fun _ _ _ h h' => LawfulOrder.le_trans h' h⟩
  Box.rel_foldl (R := (· ≥ ·)) (fun _ => LawfulOrder.le_refl) (fun _ y h => (larger_spec h y).1)
    (fun _ y h => (larger_spec h y).2.1) (fun _ y h => (larger_spec h y).2.2) hx xs

end Extremes

/-! ## Boxes of points and of boxes -/

/-- A point of the plane has numbers for coordinates. -/
structure Point.NumericXY {α : Type} [Elementary α] (p : Point α) : Prop where
  x : isNaN p.x = false
  y : isNaN p.y = false

namespace Box

variable {α : Type} [LT α] [DecidableLT α] [LE α] [OfNat α 0]

/-- A box reaches as far as another in each direction. -/
structure Spans (b c : Box α) : Prop where
  left : b.least.x ≤ c.least.x
  right : c.greatest.x ≤ b.greatest.x
  below : b.least.y ≤ c.least.y
  above : c.greatest.y ≤ b.greatest.y

/-- The sides of a box are at numbers. -/
structure Numeric [Elementary α] (b : Box α) : Prop where
  left : isNaN b.least.x = false
  right : isNaN b.greatest.x = false
  below : isNaN b.least.y = false
  above : isNaN b.greatest.y = false

omit [LE α] in
/-- The corners of a union are extremes of corners. -/
lemma foldl_union (b : Box α) (rest : List (Box α)) :
    (rest.foldl union b).least.x = (rest.map (·.least.x)).foldl Scalar.smaller b.least.x ∧
    (rest.foldl union b).greatest.x = (rest.map (·.greatest.x)).foldl Scalar.larger b.greatest.x ∧
    (rest.foldl union b).least.y = (rest.map (·.least.y)).foldl Scalar.smaller b.least.y ∧
    (rest.foldl union b).greatest.y = (rest.map (·.greatest.y)).foldl Scalar.larger b.greatest.y := by
  induction rest generalizing b with
  | nil => exact ⟨rfl, rfl, rfl, rfl⟩
  | cons c rest ih => exact ih (b.union c)

section Sides

variable [Add α] [Sub α] [OfScientific α] [Elementary α]

omit [LT α] [DecidableLT α] [OfNat α 0] [OfScientific α] [Elementary α] in
lemma contains_iff_le [DecidableLE α] {b : Box α} {p : Point α} {tol : α} : b.contains p tol = true ↔
    (b.least.x - tol ≤ p.x ∧ p.x ≤ b.greatest.x + tol) ∧
      b.least.y - tol ≤ p.y ∧ p.y ≤ b.greatest.y + tol := by
  simp only [contains, Bool.and_eq_true, decide_eq_true_eq]

variable [LawfulOrder α] {b : Box α}

omit [DecidableLT α] in
lemma Numeric.spans (h : b.Numeric) : b.Spans b :=
  ⟨LawfulOrder.le_refl h.left, LawfulOrder.le_refl h.right, LawfulOrder.le_refl h.below,
    LawfulOrder.le_refl h.above⟩

/-- **A union reaches as far as each of its boxes**, and to either side no further than they do. -/
lemma foldl_union_spans {ι : Type} {f : ι → Box α} {first : ι} {rest : List ι}
    (hnum : ∀ i ∈ first :: rest, (f i).Numeric) (hb : (rest.map f).foldl union (f first) = b) :
    (∀ i ∈ first :: rest, b.Spans (f i)) ∧
      (∀ x, b.least.x ≤ x ↔ ∃ i ∈ first :: rest, (f i).least.x ≤ x) ∧
      ∀ x, x ≤ b.greatest.x ↔ ∃ i ∈ first :: rest, x ≤ (f i).greatest.x := by
  obtain ⟨hleft, hright, hbelow, habove⟩ := foldl_union (f first) (rest.map f)
  rw [hb, List.map_map] at hleft hright hbelow habove
  have hfirst := hnum first List.mem_cons_self
  have hspans : ∀ i ∈ first :: rest, b.Spans (f i) := fun i hi => by
    have hmem (side : ι → α) : side i ∈ side first :: rest.map side := List.mem_map_of_mem (f := side) hi
    constructor
    · rw [hleft]
      exact foldl_smaller_le hfirst.left _ _ (hmem fun i => (f i).least.x) (hnum i hi).left
    · rw [hright]
      exact le_foldl_larger hfirst.right _ _ (hmem fun i => (f i).greatest.x) (hnum i hi).right
    · rw [hbelow]
      exact foldl_smaller_le hfirst.below _ _ (hmem fun i => (f i).least.y) (hnum i hi).below
    · rw [habove]
      exact le_foldl_larger hfirst.above _ _ (hmem fun i => (f i).greatest.y) (hnum i hi).above
  refine ⟨hspans, fun x => ⟨fun hx => ?_, fun ⟨i, hi, hx⟩ => LawfulOrder.le_trans (hspans i hi).left hx⟩,
    fun x => ⟨fun hx => ?_, fun ⟨i, hi, hx⟩ => LawfulOrder.le_trans hx (hspans i hi).right⟩⟩
  · obtain ⟨i, hi, heq⟩ : ∃ i ∈ first :: rest, (f i).least.x = b.least.x := by
      rw [hleft]
      exact List.mem_map.mp (mem_foldl smaller_eq_or (f first).least.x (rest.map fun i => (f i).least.x))
    exact ⟨i, hi, heq ▸ hx⟩
  · obtain ⟨i, hi, heq⟩ : ∃ i ∈ first :: rest, (f i).greatest.x = b.greatest.x := by
      rw [hright]
      exact List.mem_map.mp
        (mem_foldl larger_eq_or (f first).greatest.x (rest.map fun i => (f i).greatest.x))
    exact ⟨i, hi, heq ▸ hx⟩

/-- Of points that follow one made of numbers, those made of numbers lie between the corners of their
box. -/
lemma between_ofPoints {p : Point α} (hp : p.NumericXY) (rest : List (Point α)) :
    ∀ q ∈ p :: rest, q.NumericXY →
      ((ofPoints p rest).least.x ≤ q.x ∧ q.x ≤ (ofPoints p rest).greatest.x) ∧
      (ofPoints p rest).least.y ≤ q.y ∧ q.y ≤ (ofPoints p rest).greatest.y := by
  intro q hq hnum
  have hmem (coordinate : Point α → α) : coordinate q ∈ coordinate p :: rest.map coordinate :=
    List.mem_map_of_mem (f := coordinate) hq
  exact ⟨⟨foldl_smaller_le hp.x _ _ (hmem Point.x) hnum.x, le_foldl_larger hp.x _ _ (hmem Point.x) hnum.x⟩,
    foldl_smaller_le hp.y _ _ (hmem Point.y) hnum.y, le_foldl_larger hp.y _ _ (hmem Point.y) hnum.y⟩

end Sides

end Box

/-! ## Segments -/

section Segments

variable {α : Type}

section Lines

variable [LT α] [DecidableLT α]

/-- The lower end of a line, the first one if neither is lower. -/
def Line.lower (l : Line α) : Point α := if l.stop.y < l.start.y then l.stop else l.start

/-- The upper end of a line, the last one if neither is upper. -/
def Line.upper (l : Line α) : Point α := if l.stop.y < l.start.y then l.start else l.stop

/-- A line is upright within the tolerance, and its upper end is to the left of its lower one. -/
def Line.Leans [Sub α] [OfScientific α] [Elementary α] (l : Line α) : Prop :=
  abs (l.start.x - l.stop.x) < coincidentTol ∧ l.upper.x < l.lower.x

/-- What holds of both ends of a line holds of its lower and of its upper end. -/
lemma Line.forall_ends_iff {l : Line α} {P : Point α → Prop} :
    (∀ p ∈ [l.start, l.stop], P p) ↔ P l.lower ∧ P l.upper := by
  rw [List.forall_mem_cons, List.forall_mem_singleton]
  unfold lower upper
  split_ifs
  · exact and_comm
  · exact Iff.rfl

lemma Line.box_of_upright [Sub α] [OfNat α 0] [Elementary α] {l : Line α} {tol : α}
    (h : abs (l.start.x - l.stop.x) < tol) : l.box tol = ⟨l.lower, l.upper⟩ := by
  unfold box lower upper
  rw [if_pos h]
  split_ifs <;> rfl

end Lines

namespace Segment

def ends [Add α] : Segment α → List (Point α)
  | line l => [l.start, l.stop]
  | curve c => [c.start, c.stop]

lemma exists_mem_ends [Add α] (s : Segment α) : ∃ p, p ∈ s.ends := by
  cases s <;> exact ⟨_, List.mem_cons_self⟩

variable [Add α] [Sub α] [Elementary α]

/-- The ends of a line or an arc have numbers for coordinates, and the sides of a circle are at
numbers. -/
def Numeric [OfNat α 0] : Segment α → Prop
  | line l => l.start.NumericXY ∧ l.stop.NumericXY
  | curve (.arc a) => a.start.NumericXY ∧ a.stop.NumericXY
  | curve (.circle k) => k.box.Numeric

variable [LT α] [DecidableLT α] [OfScientific α]

/-- A segment is a line that leans. -/
def Leans : Segment α → Prop
  | line l => l.Leans
  | curve _ => False

variable [LE α]

/-- How the ends of a segment lie between the sides of its box. -/
inductive Across (s : Segment α) (b : Box α) : Prop
  | straight (h : ¬ s.Leans) (hends : ∀ p ∈ s.ends, b.least.x ≤ p.x ∧ p.x ≤ b.greatest.x)
  | leaning (h : s.Leans) (hlt : b.greatest.x < b.least.x)
      (hnear : abs (b.least.x - b.greatest.x) < coincidentTol)
      (hends : ∀ P : α → Prop, (∀ p ∈ s.ends, P p.x) ↔ P b.least.x ∧ P b.greatest.x)

/-- How the ends of a segment lie in its box. -/
structure Framed (s : Segment α) (b : Box α) : Prop where
  upward : ∀ p ∈ s.ends, b.least.y ≤ p.y ∧ p.y ≤ b.greatest.y
  across : s.Across b

end Segment

end Segments

section Frames

variable {α : Type} [Add α] [Sub α] [LT α] [DecidableLT α] [LE α] [OfNat α 0] [OfScientific α]
  [Elementary α] [LawfulOrder α]

namespace Segment.Framed

variable {s : Segment α} {b c : Box α}

lemma least_le_greatest (h : s.Framed b) : b.least.y ≤ b.greatest.y := by
  obtain ⟨p, hp⟩ := exists_mem_ends s
  exact LawfulOrder.le_trans (h.upward p hp).1 (h.upward p hp).2

/-- The box of a segment is turned around iff the segment leans. -/
lemma rightward_iff (h : s.Framed b) : b.least.x ≤ b.greatest.x ↔ ¬ s.Leans := by
  cases h.across with
  | straight hstraight hends =>
      obtain ⟨p, hp⟩ := exists_mem_ends s
      exact iff_of_true (LawfulOrder.le_trans (hends p hp).1 (hends p hp).2) hstraight
  | leaning hleans hlt => exact iff_of_false (fun hle => not_lt_of_le hle hlt) (not_not_intro hleans)

lemma numeric (h : s.Framed b) : b.Numeric := by
  obtain ⟨hbelow, habove⟩ := numeric_of_le h.least_le_greatest
  suffices hx : isNaN b.least.x = false ∧ isNaN b.greatest.x = false from ⟨hx.1, hx.2, hbelow, habove⟩
  cases h.across with
  | straight hstraight => exact numeric_of_le (h.rightward_iff.mpr hstraight)
  | leaning _ hlt => exact (numeric_of_le (le_of_lt hlt)).symm

/-- A box around that of a segment starts before the latter ends and ends after it starts, if the
segment does not lean. -/
lemma le_of_straight (h : s.Framed b) (hc : c.Spans b) (hstraight : ¬ s.Leans) :
    c.least.x ≤ b.greatest.x ∧ b.least.x ≤ c.greatest.x :=
  have hle := h.rightward_iff.mpr hstraight
  ⟨LawfulOrder.le_trans hc.left hle, LawfulOrder.le_trans hle hc.right⟩

variable [DecidableLE α]

/-- **A box around that of a segment holds its ends up to the tolerance.** -/
lemma near (h : s.Framed b) (hc : c.Spans b) : ∀ p ∈ s.ends, c.contains p coincidentTol = true := by
  intro p hp
  obtain ⟨hbelow, habove⟩ := h.upward p hp
  refine Box.contains_iff_le.mpr ⟨?_, sub_tol_le_of_le (LawfulOrder.le_trans hc.below hbelow),
    le_add_tol_of_le (LawfulOrder.le_trans habove hc.above)⟩
  cases h.across with
  | straight _ hends =>
      obtain ⟨hleft, hright⟩ := hends p hp
      exact ⟨sub_tol_le_of_le (LawfulOrder.le_trans hc.left hleft),
        le_add_tol_of_le (LawfulOrder.le_trans hright hc.right)⟩
  | leaning _ hlt hnear hends =>
      refine (hends fun x => c.least.x - coincidentTol ≤ x ∧ x ≤ c.greatest.x + coincidentTol).mpr ?_ p hp
      exact ⟨⟨sub_tol_le_of_le hc.left, near_right hnear hc.right⟩,
        near_left hnear hc.left, le_add_tol_of_le hc.right⟩

/-- **A box around that of a segment holds its ends** iff it starts before the latter ends and ends after
it starts, which matters for a line that leans. -/
lemma holds_iff (h : s.Framed b) (hc : c.Spans b) : (∀ p ∈ s.ends, c.contains p 0 = true) ↔
    c.least.x ≤ b.greatest.x ∧ b.least.x ≤ c.greatest.x := by
  have hy : ∀ p ∈ s.ends, c.least.y - 0 ≤ p.y ∧ p.y ≤ c.greatest.y + 0 := fun p hp =>
    ⟨sub_zero_le_iff.mpr (LawfulOrder.le_trans hc.below (h.upward p hp).1),
      le_add_zero_iff.mpr (LawfulOrder.le_trans (h.upward p hp).2 hc.above)⟩
  have hx : (∀ p ∈ s.ends, c.contains p 0 = true) ↔ ∀ p ∈ s.ends, c.least.x ≤ p.x ∧ p.x ≤ c.greatest.x := by
    refine forall₂_congr fun p hp => ?_
    rw [Box.contains_iff_le, and_iff_left (hy p hp), sub_zero_le_iff, le_add_zero_iff]
  rw [hx]
  cases h.across with
  | straight hstraight hends =>
      refine iff_of_true (fun p hp => ?_) (h.le_of_straight hc hstraight)
      exact ⟨LawfulOrder.le_trans hc.left (hends p hp).1, LawfulOrder.le_trans (hends p hp).2 hc.right⟩
  | leaning _ _ _ hends =>
      rw [hends fun x => c.least.x ≤ x ∧ x ≤ c.greatest.x]
      exact ⟨fun ⟨⟨_, hright⟩, hleft, _⟩ => ⟨hleft, hright⟩,
        fun ⟨hleft, hright⟩ => ⟨⟨hc.left, hright⟩, hleft, hc.right⟩⟩

end Segment.Framed

/-! ## The boxes of segments -/

/-- The box around the ends of a segment and further points. -/
lemma Segment.framed_ofPoints {s : Segment α} (hleans : ¬ s.Leans) {p q : Point α}
    (hends : s.ends = [p, q]) (hp : p.NumericXY) (hq : q.NumericXY) (rest : List (Point α)) :
    s.Framed (.ofPoints p (q :: rest)) := by
  have hfirst := Box.between_ofPoints hp (q :: rest) p List.mem_cons_self hp
  have hlast := Box.between_ofPoints hp (q :: rest) q (.tail _ List.mem_cons_self) hq
  constructor
  · rw [hends]
    exact List.forall_mem_cons.mpr ⟨hfirst.2, List.forall_mem_singleton.mpr hlast.2⟩
  · refine .straight hleans ?_
    rw [hends]
    exact List.forall_mem_cons.mpr ⟨hfirst.1, List.forall_mem_singleton.mpr hlast.1⟩

/-- **The box of a line**: its ends lie between the corners, or they are the corners. -/
lemma Line.framed_box [Mul α] [BEq α] [LawfulDifference α] {l : Line α}
    (hnum : (Segment.line l).Numeric) : (Segment.line l).Framed (l.box coincidentTol) := by
  obtain ⟨hstart, hstop⟩ := hnum
  by_cases hupright : abs (l.start.x - l.stop.x) < coincidentTol
  · obtain ⟨hlower, hupper⟩ := forall_ends_iff.mp
      (List.forall_mem_cons.mpr ⟨hstart, List.forall_mem_singleton.mpr hstop⟩)
    have hle : l.lower.y ≤ l.upper.y := by
      unfold lower upper
      split_ifs with h
      · exact le_of_lt h
      · exact le_of_not_lt hstop.y hstart.y h
    rw [box_of_upright hupright]
    refine ⟨forall_ends_iff.mpr ⟨⟨LawfulOrder.le_refl hlower.y, hle⟩, hle, LawfulOrder.le_refl hupper.y⟩,
      ?_⟩
    by_cases hlt : l.upper.x < l.lower.x
    · have hnear : abs (l.lower.x - l.upper.x) < coincidentTol := by
        unfold lower upper
        split_ifs
        · rwa [LawfulDifference.abs_comm]
        · exact hupright
      exact .leaning ⟨hupright, hlt⟩ hlt hnear fun P => forall_ends_iff
    · have hright := le_of_not_lt hupper.x hlower.x hlt
      exact .straight (fun h : l.Leans => hlt h.2) (forall_ends_iff.mpr
        ⟨⟨LawfulOrder.le_refl hlower.x, hright⟩, hright, LawfulOrder.le_refl hupper.x⟩)
  · have hbox : l.box coincidentTol = .ofPoints l.start [l.stop] := if_neg hupright
    have hstraight : ¬ (Segment.line l).Leans := fun h : l.Leans => hupright h.1
    rw [hbox]
    exact Segment.framed_ofPoints hstraight rfl hstart hstop []

/-- **The box of a circle**: its end is to the right of its center. -/
lemma Circle.framed_box {k : Circle α} (hnum : k.box.Numeric) (hradius : 0 ≤ k.radius) :
    (Segment.curve (.circle k)).Framed k.box := by
  have hends : (Segment.curve (.circle k)).ends = [k.start, k.start] := rfl
  have hx := LawfulOrder.le_trans (sub_le hradius hnum.left) (le_add hradius hnum.right)
  constructor
  · rw [hends, List.forall_mem_cons, List.forall_mem_singleton, and_self]
    exact ⟨sub_le hradius hnum.below, le_add hradius hnum.above⟩
  · refine .straight id ?_
    rw [hends, List.forall_mem_cons, List.forall_mem_singleton, and_self]
    exact ⟨hx, LawfulOrder.le_refl hnum.right⟩

end Frames

/-! ## What is said of boxes -/

section Boxes

variable {α : Type} [Add α] [Sub α] [Mul α] [LT α] [LE α] [DecidableLT α] [DecidableLE α] [BEq α]
  [OfNat α 0] [OfScientific α] [Elementary α]

namespace Segment

/-- How a segment lies in its box.  From left to right the corners are in order, and hold the ends, iff
the segment does not lean. -/
structure Enclosed (s : Segment α) (b : Box α) : Prop where
  upward : b.least.y ≤ b.greatest.y
  height_not_neg : ¬ b.height < 0
  near : ∀ p ∈ s.ends, b.contains p coincidentTol = true
  rightward_iff : b.least.x ≤ b.greatest.x ↔ ¬ s.Leans
  width_not_neg : ¬ s.Leans → ¬ b.width < 0
  narrow : s.Leans → abs b.width < coincidentTol
  holds_iff : (∀ p ∈ s.ends, b.contains p 0 = true) ↔ ¬ s.Leans

/-- **The box of a segment** is turned around iff the segment leans, and then only from left to right. -/
lemma Framed.enclosed [LawfulOrder α] [LawfulDifference α] {s : Segment α} {b : Box α}
    (h : s.Framed b) : s.Enclosed b where
  upward := h.least_le_greatest
  height_not_neg := sub_not_neg h.least_le_greatest
  near := h.near h.numeric.spans
  rightward_iff := h.rightward_iff
  width_not_neg hstraight := sub_not_neg (h.rightward_iff.mpr hstraight)
  narrow hleans := by
    cases h.across with
    | straight hstraight => exact absurd hleans hstraight
    | leaning _ _ hnear => rwa [Box.width, LawfulDifference.abs_comm]
  holds_iff := by rw [h.holds_iff h.numeric.spans, and_self, h.rightward_iff]

variable [Div α] [OfNat α 2]

/-- The segments that the constructors return under the default tolerances, in any arithmetic. -/
inductive Constructed : Segment α → Prop
  | line {start stop : Point α} {l : Line α} (h : Line.ofEnds start stop coincidentTol = .ok l) :
      Constructed (.line l)
  | curve {center start stop : Point α} {clockwise : Bool} {c : Curve α}
      (h : Curve.ofEnds center start stop clockwise coincidentTol radiusTol = .ok c) :
      Constructed (.curve c)
  | circle {center : Point α} {radius : α} {k : Circle α}
      (h : Circle.ofRadius center radius coincidentTol = .ok k) : Constructed (.curve (.circle k))

/-- The radius of a circle that passed the checks is not below zero, if it is a number. -/
lemma Constructed.radius_nonneg [LawfulOrder α] {k : Circle α} (h : (Segment.curve (.circle k)).Constructed)
    (hnum : isNaN k.radius = false) : 0 ≤ k.radius := by
  cases h with
  | curve h =>
      have hradius : k.radius = _ := (Curve.radius_of_ofEnds h).1
      rw [hradius] at hnum ⊢
      exact sqrt_nonneg hnum
  | @circle center radius _ h =>
      unfold Circle.ofRadius at h
      split_ifs at h with hplanar hrefused
      · cases h
      · cases h
      · cases h
        have htol : (0 : α) ≤ coincidentTol := le_of_lt tol_pos
        -- a number that is not at most the tolerance is at least the tolerance
        refine LawfulOrder.le_trans htol (le_of_not_lt hnum (numeric_of_le htol).2 fun hlt => ?_)
        exact hrefused (le_of_lt hlt)

variable [Neg α] [OfNat α 1]

lemma Constructed.framed_box [LawfulOrder α] [LawfulDifference α] {s : Segment α} (h : s.Constructed)
    (hnum : s.Numeric) : s.Framed (s.box coincidentTol) := by
  rcases s with l | a | k
  · exact Line.framed_box hnum
  · exact framed_ofPoints id rfl hnum.1 hnum.2 a.extrema
  · exact Circle.framed_box hnum (h.radius_nonneg (numeric_of_sub hnum.left).2)

end Segment

variable [Div α] [OfNat α 2] [Neg α] [OfNat α 1]

/-- How the segments of an outline lie in its box.  From left to right the corners are in order iff one
segment's box starts no further to the right than one ends; and they hold the ends of a segment iff
some boxes start and end on the right sides of its own. -/
structure Box.Encloses (b : Box α) (segments : List (Segment α)) : Prop where
  upward : b.least.y ≤ b.greatest.y
  height_not_neg : ¬ b.height < 0
  near : ∀ s ∈ segments, ∀ p ∈ s.ends, b.contains p coincidentTol = true
  rightward_iff : b.least.x ≤ b.greatest.x ↔ ∃ s ∈ segments, ∃ t ∈ segments,
    (t.box coincidentTol).least.x ≤ (s.box coincidentTol).greatest.x
  rightward : (∃ s ∈ segments, ¬ s.Leans) → b.least.x ≤ b.greatest.x
  width_not_neg : b.least.x ≤ b.greatest.x → ¬ b.width < 0
  holds_iff : ∀ s ∈ segments, (∀ p ∈ s.ends, b.contains p 0 = true) ↔
    (∃ t ∈ segments, (t.box coincidentTol).least.x ≤ (s.box coincidentTol).greatest.x) ∧
      ∃ t ∈ segments, (s.box coincidentTol).least.x ≤ (t.box coincidentTol).greatest.x
  holds : ∀ s ∈ segments, ¬ s.Leans → ∀ p ∈ s.ends, b.contains p 0 = true

omit [Div α] [BEq α] in
lemma Operand.outlineBox_segments (first : Segment α) (rest : List (Segment α)) :
    outlineBox ((first :: rest).map segment)
      = .ok ((rest.map (·.box coincidentTol)).foldl Box.union (first.box coincidentTol)) := by
  have hsegments : ((first :: rest).map segment).mapM (require (α := α) "segment")
      = .ok (first :: rest) := by
    rw [List.mapM_map]
    exact List.mapM_pure.trans (congrArg _ (List.map_id _))
  rw [outlineBox, hsegments]
  rfl

variable [LawfulOrder α]

omit [Div α] [BEq α] in
/-- **The box of an outline** has each of its sides from the box of a segment. -/
lemma Box.encloses_foldl {first : Segment α} {rest : List (Segment α)}
    (h : ∀ s ∈ first :: rest, s.Framed (s.box coincidentTol)) :
    ((rest.map (·.box coincidentTol)).foldl union (first.box coincidentTol)).Encloses (first :: rest) := by
  generalize hb : (rest.map (·.box coincidentTol)).foldl union (first.box coincidentTol) = b
  obtain ⟨hspans, hfrom, hto⟩ := foldl_union_spans (fun s hs => (h s hs).numeric) hb
  have hfirst := hspans first List.mem_cons_self
  have hupward : b.least.y ≤ b.greatest.y := LawfulOrder.le_trans hfirst.below
    (LawfulOrder.le_trans (h first List.mem_cons_self).least_le_greatest hfirst.above)
  have hholds : ∀ s ∈ first :: rest, (∀ p ∈ s.ends, b.contains p 0 = true) ↔
      b.least.x ≤ (s.box coincidentTol).greatest.x ∧ (s.box coincidentTol).least.x ≤ b.greatest.x :=
    fun s hs => (h s hs).holds_iff (hspans s hs)
  constructor
  case upward => exact hupward
  case height_not_neg => exact sub_not_neg hupward
  case near => exact fun s hs => (h s hs).near (hspans s hs)
  case rightward_iff =>
    rw [hto]
    exact exists_congr fun s => and_congr_right fun _ => hfrom _
  case rightward =>
    rintro ⟨s, hs, hstraight⟩
    exact LawfulOrder.le_trans ((h s hs).le_of_straight (hspans s hs) hstraight).1 (hspans s hs).right
  case width_not_neg => exact sub_not_neg
  case holds_iff =>
    intro s hs
    rw [hholds s hs, hfrom, hto]
  case holds =>
    intro s hs hstraight
    exact (hholds s hs).mpr ((h s hs).le_of_straight (hspans s hs) hstraight)

/-- **Boxes have their corners in order**, from below to above without exception, and from left to right
unless all segments lean. -/
theorem boxes_enclose [LawfulDifference α] :
    (∀ s : Segment α, s.Constructed → s.Numeric → ∀ log,
      (Operand.segment s).box coincidentTol log = (.ok (s.box coincidentTol), log) ∧
        s.Enclosed (s.box coincidentTol)) ∧
    ∀ segments : List (Segment α), segments ≠ [] → (∀ s ∈ segments, s.Constructed ∧ s.Numeric) →
      ∃ b, Operand.outlineBox (segments.map .segment) = .ok b ∧ b.Encloses segments := by
  refine ⟨fun s hs hnum log => ⟨rfl, (hs.framed_box hnum).enclosed⟩, fun segments hne hall => ?_⟩
  cases segments with
  | nil => exact absurd rfl hne
  | cons first rest =>
      exact ⟨_, Operand.outlineBox_segments first rest,
        Box.encloses_foldl fun s hs => (hall s hs).1.framed_box (hall s hs).2⟩

end Boxes

/-- A line of which the lower end is to the right of the upper one, by half the tolerance. -/
def Line.leaning : Line Float := ⟨⟨5e-9, 0, 0⟩, ⟨0, 1, 0⟩⟩

/-- A circle about the origin. -/
def Circle.unit : Circle Float := ⟨⟨0, 0, 0⟩, 1⟩

/-- A line that leans is held by the box of an outline with a circle around it. -/
theorem boxes_enclose_leaning :
    (Segment.line Line.leaning).Leans ∧
      (Segment.line Line.leaning).Enclosed ((Segment.line Line.leaning).box coincidentTol) ∧
      ∃ b, Operand.outlineBox [.segment (.line Line.leaning), .segment (.curve (.circle Circle.unit))]
          = .ok b ∧ ¬ b.width < 0 ∧ ∀ p ∈ (Segment.line Line.leaning).ends, b.contains p 0 = true := by
  have hline : (Segment.line Line.leaning).Constructed ∧ (Segment.line Line.leaning).Numeric :=
    ⟨.line (show Line.ofEnds Line.leaning.start Line.leaning.stop coincidentTol = .ok Line.leaning from rfl),
      ⟨rfl, rfl⟩, ⟨rfl, rfl⟩⟩
  have hcircle : (Segment.curve (.circle Circle.unit)).Constructed ∧
      (Segment.curve (.circle Circle.unit)).Numeric :=
    ⟨.circle (show Circle.ofRadius Circle.unit.center 1 coincidentTol = .ok Circle.unit from rfl),
      ⟨rfl, rfl, rfl, rfl⟩⟩
  obtain ⟨hsegment, houtline⟩ := boxes_enclose (α := Float)
  obtain ⟨b, hb, hencloses⟩ := houtline [.line Line.leaning, .curve (.circle Circle.unit)]
    (List.cons_ne_nil _ _) (List.forall_mem_cons.mpr ⟨hline, List.forall_mem_singleton.mpr hcircle⟩)
  refine ⟨⟨by decide +kernel, by decide +kernel⟩, (hsegment _ hline.1 hline.2 .empty).2, b, hb, ?_, ?_⟩
  · exact hencloses.width_not_neg (hencloses.rightward ⟨_, .tail _ (.head _), id⟩)
  · exact (hencloses.holds_iff _ (.head _)).mpr
      ⟨⟨_, .tail _ (.head _), by decide +kernel⟩, _, .tail _ (.head _), by decide +kernel⟩

/-- **A line that leans has a box of which the corners are out of order**, and neither of its ends is in
the box. -/
theorem box_turned_around :
    Line.ofEnds (⟨5e-9, 0, 0⟩ : Point Float) ⟨0, 1, 0⟩ coincidentTol = .ok Line.leaning ∧
      ¬ ((Segment.line Line.leaning).box coincidentTol).least.x
        ≤ ((Segment.line Line.leaning).box coincidentTol).greatest.x ∧
      ((Segment.line Line.leaning).box coincidentTol).width < 0 ∧
      ∀ p ∈ (Segment.line Line.leaning).ends,
        ((Segment.line Line.leaning).box coincidentTol).contains p 0 = false := by
  refine ⟨rfl, by decide +kernel, by decide +kernel, ?_⟩
  exact List.forall_mem_cons.mpr
    ⟨by decide +kernel, List.forall_mem_singleton.mpr (by decide +kernel)⟩

end Contour
