import Contour.Proofs.OutlineBoxes
import Contour.Proofs.Precedence

/-!
# The algebra of boxes

Over the real numbers boxes whose corners are in order are the rectangles that they hold, their unions
are the least boxes around both, and two boxes overlap iff they have a point in common once each of them
is larger by half of the tolerance.  Unions may be formed in any order, and so may the box of an outline.

* `exists_mem_both_iff`, `Box.overlaps_iff`, `Box.overlaps_iff_exists` — overlapping boxes.
* `Box.union_comm`, `Box.union_assoc`, `Box.union_self` — unions as such; `Box.spans_union_iff` says
  which boxes span them.
* `Box.spans_iff_contains` — a box spans another iff it holds all its points.
* `Box.Hull`, `Box.Hull.of_union`, `Box.hull_foldl` — the least box around boxes, one union after the
  other.
* `Box.ofBoxes_perm` — the order of the boxes does not matter.
* `Operand.outlineBox_of_other`, `Operand.outlineBox_of_segments` — which outlines have a box.
* `box_algebra` puts all together.
-/

namespace Contour

/-! ## Overlapping -/

/-- Two ranges of numbers that are larger by half a tolerance have a number in common iff neither lies
beyond the other by more than the tolerance. -/
lemma exists_mem_both_iff {low high low' high' tol : ℝ} (h : low ≤ high) (h' : low' ≤ high')
    (htol : 0 ≤ tol) :
    (∃ x, (low - tol / 2 ≤ x ∧ x ≤ high + tol / 2) ∧ low' - tol / 2 ≤ x ∧ x ≤ high' + tol / 2) ↔
      ¬ high + tol < low' ∧ ¬ high' < low - tol := by
  constructor
  · rintro ⟨x, ⟨hlow, hhigh⟩, hlow', hhigh'⟩
    exact ⟨by linarith, by linarith⟩
  · rintro ⟨hright, hleft⟩
    rw [not_lt] at hright hleft
    refine ⟨max (low - tol / 2) (low' - tol / 2), ⟨le_max_left _ _, max_le ?_ ?_⟩, le_max_right _ _,
      max_le ?_ ?_⟩ <;> linarith

namespace Box

variable {b c d : Box ℝ} {tol : ℝ}

/-- The corners of a box are in order. -/
structure Ordered (b : Box ℝ) : Prop where
  x : b.least.x ≤ b.greatest.x
  y : b.least.y ≤ b.greatest.y

/-- The corners of a box lie in the plane of the segments. -/
structure Planar (b : Box ℝ) : Prop where
  least : b.least.z = 0
  greatest : b.greatest.z = 0

lemma overlaps_iff : b.overlaps c tol = true ↔
    (¬ b.greatest.x + tol < c.least.x ∧ ¬ c.greatest.x < b.least.x - tol) ∧
      ¬ b.greatest.y + tol < c.least.y ∧ ¬ c.greatest.y < b.least.y - tol := by
  simp only [overlaps, Bool.not_eq_true', Bool.or_eq_false_iff, decide_eq_false_iff_not, and_assoc]

/-- The tolerance may be added on either side. -/
lemma overlaps_comm (b c : Box ℝ) (tol : ℝ) : b.overlaps c tol = c.overlaps b tol := by
  rw [Bool.eq_iff_iff, overlaps_iff, overlaps_iff]
  simp only [not_lt, sub_le_iff_le_add]
  exact ⟨fun ⟨⟨hr, hl⟩, ha, hb⟩ => ⟨⟨hl, hr⟩, hb, ha⟩, fun ⟨⟨hl, hr⟩, hb, ha⟩ => ⟨⟨hr, hl⟩, ha, hb⟩⟩

/-- **Boxes overlap iff they have a point in common** within half of the tolerance each. -/
lemma overlaps_iff_exists (hb : b.Ordered) (hc : c.Ordered) (htol : 0 ≤ tol) :
    b.overlaps c tol = true ↔
      ∃ p, b.contains p (tol / 2) = true ∧ c.contains p (tol / 2) = true := by
  rw [overlaps_iff, ← exists_mem_both_iff hb.x hc.x htol, ← exists_mem_both_iff hb.y hc.y htol]
  simp only [contains_iff_le]
  constructor
  · rintro ⟨⟨x, hx, hx'⟩, y, hy, hy'⟩
    exact ⟨.planar x y, ⟨hx, hy⟩, hx', hy'⟩
  · rintro ⟨p, ⟨hx, hy⟩, hx', hy'⟩
    exact ⟨⟨p.x, hx, hx'⟩, p.y, hy, hy'⟩

/-! ## Unions -/

lemma union_comm (b c : Box ℝ) : b.union c = c.union b := by
  simp only [union, smaller_eq_min, larger_eq_max, min_comm, max_comm]

lemma union_assoc (b c d : Box ℝ) : (b.union c).union d = b.union (c.union d) := by
  simp only [union, Point.planar, smaller_eq_min, larger_eq_max, min_assoc, max_assoc]

lemma union_self (h : b.Planar) : b.union b = b := by
  obtain ⟨⟨x, y, z⟩, ⟨x', y', z'⟩⟩ := b
  obtain ⟨hleast, hgreatest⟩ := h
  dsimp only at hleast hgreatest
  simp only [union, Point.planar, smaller_eq_min, larger_eq_max, min_self, max_self, hleast, hgreatest]

/-- **A union is the least box** that reaches as far as both. -/
lemma spans_union_iff : d.Spans (b.union c) ↔ d.Spans b ∧ d.Spans c := by
  constructor
  · rintro ⟨hleft, hright, hbelow, habove⟩
    simp only [union, Point.planar, smaller_eq_min, larger_eq_max, le_min_iff, max_le_iff]
      at hleft hright hbelow habove
    exact ⟨⟨hleft.1, hright.1, hbelow.1, habove.1⟩, hleft.2, hright.2, hbelow.2, habove.2⟩
  · rintro ⟨hb, hc⟩
    constructor <;> simp only [union, Point.planar, smaller_eq_min, larger_eq_max, le_min_iff, max_le_iff]
    · exact ⟨hb.left, hc.left⟩
    · exact ⟨hb.right, hc.right⟩
    · exact ⟨hb.below, hc.below⟩
    · exact ⟨hb.above, hc.above⟩

lemma spans_self (b : Box ℝ) : b.Spans b := ⟨le_rfl, le_rfl, le_rfl, le_rfl⟩

lemma Spans.contains {p : Point ℝ} (h : d.Spans b) (hp : b.contains p tol = true) :
    d.contains p tol = true := by
  rw [contains_iff] at hp ⊢
  constructor <;> linarith [h.left, h.right, h.below, h.above, hp.left, hp.right, hp.below, hp.above]

/-- A box reaches as far as one with ordered corners iff it holds all its points: its own corners are
among them. -/
lemma spans_iff_contains (hb : b.Ordered) (htol : 0 ≤ tol) :
    d.Spans b ↔ ∀ p, b.contains p tol = true → d.contains p tol = true := by
  constructor
  · exact fun h p hp => h.contains hp
  · intro h
    have hleast : d.contains ⟨b.least.x - tol, b.least.y - tol, 0⟩ tol = true :=
      h _ (contains_iff.mpr (by constructor <;> linarith [hb.x, hb.y]))
    have hgreatest : d.contains ⟨b.greatest.x + tol, b.greatest.y + tol, 0⟩ tol = true :=
      h _ (contains_iff.mpr (by constructor <;> linarith [hb.x, hb.y]))
    obtain ⟨hleft, -, hbelow, -⟩ := contains_iff.mp hleast
    obtain ⟨-, hright, -, habove⟩ := contains_iff.mp hgreatest
    constructor <;> linarith

lemma Ordered.union (hb : b.Ordered) : (b.union c).Ordered := by
  have hspans := (spans_union_iff.mp (spans_self (b.union c))).1
  exact ⟨hspans.left.trans (hb.x.trans hspans.right), hspans.below.trans (hb.y.trans hspans.above)⟩

/-! ## Unions of many boxes -/

/-- **The least box around some boxes**: it reaches as far as each, and each of its sides is that of
one. -/
structure Hull (b : Box ℝ) (boxes : List (Box ℝ)) : Prop where
  spans : ∀ c ∈ boxes, b.Spans c
  left : ∃ c ∈ boxes, c.least.x = b.least.x
  right : ∃ c ∈ boxes, c.greatest.x = b.greatest.x
  below : ∃ c ∈ boxes, c.least.y = b.least.y
  above : ∃ c ∈ boxes, c.greatest.y = b.greatest.y

/-- Each side of a union is that of one of the two boxes. -/
lemma exists_side_union (side : Box ℝ → ℝ) {rest : List (Box ℝ)} {x : ℝ}
    (hside : side (b.union c) = side b ∨ side (b.union c) = side c)
    (h : ∃ e ∈ b.union c :: rest, side e = x) : ∃ e ∈ b :: c :: rest, side e = x := by
  obtain ⟨e, he, rfl⟩ := h
  rcases List.mem_cons.mp he with rfl | he
  · rcases hside with heq | heq
    · exact ⟨b, List.mem_cons_self, heq.symm⟩
    · exact ⟨c, .tail _ List.mem_cons_self, heq.symm⟩
  · exact ⟨e, .tail _ (.tail _ he), rfl⟩

/-- A step of a union: what bounds the union of the first two boxes bounds both. -/
lemma Hull.of_union {rest : List (Box ℝ)} (h : d.Hull (b.union c :: rest)) :
    d.Hull (b :: c :: rest) where
  spans := by
    obtain ⟨hunion, hrest⟩ := List.forall_mem_cons.mp h.spans
    obtain ⟨hb, hc⟩ := spans_union_iff.mp hunion
    exact List.forall_mem_cons.mpr ⟨hb, List.forall_mem_cons.mpr ⟨hc, hrest⟩⟩
  left := exists_side_union (·.least.x) (smaller_eq_or _ _) h.left
  right := exists_side_union (·.greatest.x) (larger_eq_or _ _) h.right
  below := exists_side_union (·.least.y) (smaller_eq_or _ _) h.below
  above := exists_side_union (·.greatest.y) (larger_eq_or _ _) h.above

lemma hull_foldl (b : Box ℝ) (rest : List (Box ℝ)) : (rest.foldl union b).Hull (b :: rest) := by
  induction rest generalizing b with
  | nil =>
      have hmem : b ∈ [b] := List.mem_cons_self
      exact ⟨List.forall_mem_singleton.mpr (spans_self b), ⟨b, hmem, rfl⟩, ⟨b, hmem, rfl⟩,
        ⟨b, hmem, rfl⟩, ⟨b, hmem, rfl⟩⟩
  | cons c rest ih => exact (ih (b.union c)).of_union

instance : RightCommutative (union (α := ℝ)) where
  right_comm b c d := by rw [union_assoc, union_comm c d, union_assoc]

/-- **The order of the boxes does not matter.** -/
lemma ofBoxes_perm {boxes boxes' : List (Box ℝ)} (h : boxes.Perm boxes') :
    ofBoxes boxes = ofBoxes boxes' := by
  induction h with
  | nil => rfl
  | cons b hrest _ => exact congrArg Except.ok (hrest.foldl_eq b)
  | swap b c rest =>
      show Except.ok (rest.foldl union (c.union b)) = Except.ok (rest.foldl union (b.union c))
      rw [union_comm]
  | trans _ _ ih ih' => exact ih.trans ih'

end Box

/-! ## Boxes of outlines -/

namespace Operand

variable {outline : List (Operand ℝ)}

/-- The box of an outline of segments is that around their boxes. -/
lemma outlineBox_map_segment (segments : List (Segment ℝ)) :
    outlineBox (segments.map segment) = Box.ofBoxes (segments.map (·.box coincidentTol)) := by
  cases segments with
  | nil => rfl
  | cons first rest => exact outlineBox_segments first rest

lemma outlineBox_of_other (h : ∃ o ∈ outline, o.isSegment = false) :
    outlineBox outline = refuse (.emptySegment "segment") := by
  have hrequire : outline.mapM (require "segment") = refuse (.emptySegment "segment") := by
    refine mapM_error (fun o _ => ?_) ?_
    · cases o with
      | other => exact .inr rfl
      | segment s => exact .inl ⟨s, rfl⟩
    · obtain ⟨o, ho, hother⟩ := h
      cases o with
      | other => exact ⟨_, ho, rfl⟩
      | segment s => cases hother
  rw [outlineBox, hrequire]
  rfl

lemma outlineBox_of_segments (h : ∀ o ∈ outline, o.isSegment = true) (hne : outline ≠ []) :
    ∃ b, outlineBox outline = .ok b := by
  have hrequire : ∀ o ∈ outline, ∃ s, o.require "segment" = .ok s ∧ True := fun o ho => by
    cases o with
    | other => cases h _ ho
    | segment s => exact ⟨s, rfl, trivial⟩
  obtain ⟨segments, hsegments, hall⟩ := mapM_ok (P := fun _ _ => True) hrequire
  rw [outlineBox, hsegments]
  cases hall with
  | nil => exact absurd rfl hne
  | cons _ _ => exact ⟨_, rfl⟩

/-- **Which outlines have no box**: the empty one is a bad value, and what is no segment is refused,
wherever it stands. -/
lemma outlineBox_faults (outline : List (Operand ℝ)) :
    (∀ cause, outlineBox outline = .error (.badValue cause) ↔ cause = .emptyOutline ∧ outline = []) ∧
      (Refuses (outlineBox outline) .emptySegment ↔ ∃ o ∈ outline, o.isSegment = false) := by
  by_cases hother : ∃ o ∈ outline, o.isSegment = false
  · rw [outlineBox_of_other hother]
    refine ⟨fun cause => iff_of_false nofun ?_, iff_of_true ⟨_, rfl, rfl⟩ hother⟩
    rintro ⟨-, rfl⟩
    obtain ⟨o, ho, -⟩ := hother
    cases ho
  · have hsegments : ∀ o ∈ outline, o.isSegment = true := by simpa using hother
    by_cases hempty : outline = []
    · subst hempty
      have hfault : outlineBox ([] : List (Operand ℝ)) = .error (.badValue .emptyOutline) := rfl
      rw [hfault]
      refine ⟨fun cause => ⟨fun h => ⟨?_, rfl⟩, fun h => h.1 ▸ rfl⟩, iff_of_false ?_ hother⟩
      · cases h
        rfl
      · rintro ⟨d, hd, -⟩
        cases hd
    · obtain ⟨b, hb⟩ := outlineBox_of_segments hsegments hempty
      rw [hb]
      exact ⟨fun cause => iff_of_false nofun fun h => hempty h.2, iff_of_false not_refuses_ok hother⟩

end Operand

/-- **The algebra of boxes.**  Boxes with ordered corners overlap, on either side, iff they have a point in
common within half of the tolerance each.  Unions commute, associate and are idempotent in the plane, and
are the least boxes around both.  So the box of an outline is the least one around the boxes of its
segments, whatever their order; and the empty outline and those with what is no segment are the only
ones without a box. -/
theorem box_algebra :
    (∀ b c : Box ℝ, b.Ordered → c.Ordered → ∀ tol : ℝ, 0 ≤ tol →
      b.overlaps c tol = c.overlaps b tol ∧
      (b.overlaps c tol = true ↔
        ∃ p, b.contains p (tol / 2) = true ∧ c.contains p (tol / 2) = true)) ∧
    ((∀ b c : Box ℝ, b.union c = c.union b) ∧
      (∀ b c d : Box ℝ, (b.union c).union d = b.union (c.union d)) ∧
      ∀ b : Box ℝ, b.Planar → b.union b = b) ∧
    (∀ b c : Box ℝ, b.Ordered → c.Ordered → (b.union c).Ordered ∧ ∀ tol : ℝ, 0 ≤ tol →
      (∀ p, b.contains p tol = true ∨ c.contains p tol = true → (b.union c).contains p tol = true) ∧
      ∀ d : Box ℝ, (∀ p, b.contains p tol = true → d.contains p tol = true) →
        (∀ p, c.contains p tol = true → d.contains p tol = true) →
        ∀ p, (b.union c).contains p tol = true → d.contains p tol = true) ∧
    (∀ segments : List (Segment ℝ), segments ≠ [] → ∃ b,
      Operand.outlineBox (segments.map .segment) = .ok b ∧
      b.Hull (segments.map (·.box coincidentTol)) ∧
      (∀ s ∈ segments, ∀ p tol, (s.box coincidentTol).contains p tol = true → b.contains p tol = true) ∧
      ∀ segments' : List (Segment ℝ), segments.Perm segments' →
        Operand.outlineBox (segments'.map .segment) = .ok b) ∧
    ∀ outline : List (Operand ℝ),
      (∀ cause, Operand.outlineBox outline = .error (.badValue cause) ↔
        cause = .emptyOutline ∧ outline = []) ∧
      (Refuses (Operand.outlineBox outline) .emptySegment ↔ ∃ o ∈ outline, o.isSegment = false) := by
  refine ⟨fun b c hb hc tol htol => ⟨b.overlaps_comm c tol, Box.overlaps_iff_exists hb hc htol⟩,
    ⟨Box.union_comm, Box.union_assoc, fun b hb => Box.union_self hb⟩,
    fun b c hb hc => ⟨hb.union, fun tol htol => ⟨?_, fun d hbd hcd => ?_⟩⟩,
    fun segments hne => ?_, Operand.outlineBox_faults⟩
  · obtain ⟨hleft, hright⟩ := Box.spans_union_iff.mp (Box.spans_self (b.union c))
    rintro p (hp | hp)
    · exact hleft.contains hp
    · exact hright.contains hp
  · rw [← Box.spans_iff_contains hb htol] at hbd
    rw [← Box.spans_iff_contains hc htol] at hcd
    exact fun p hp => (Box.spans_union_iff.mpr ⟨hbd, hcd⟩).contains hp
  · obtain ⟨first, rest, rfl⟩ := List.exists_cons_of_ne_nil hne
    have hhull := Box.hull_foldl (first.box coincidentTol) (rest.map (·.box coincidentTol))
    refine ⟨_, Operand.outlineBox_segments first rest, hhull, fun s hs p tol hp => ?_,
      fun segments' hperm => ?_⟩
    · have hmem := List.mem_map_of_mem (f := fun s : Segment ℝ => s.box coincidentTol) hs
      exact (hhull.spans _ hmem).contains hp
    · rw [Operand.outlineBox_map_segment, ← Box.ofBoxes_perm (hperm.map _)]
      rfl

/-- Two squares that are one apart. -/
def Box.leftSquare : Box ℝ := ⟨⟨0, 0, 0⟩, ⟨1, 1, 0⟩⟩

def Box.rightSquare : Box ℝ := ⟨⟨2, 0, 0⟩, ⟨4, 2, 0⟩⟩

/-- The squares overlap within one, in the middle between them; an outline of two circles has one box in
either order, and none with what is no segment. -/
theorem box_algebra_squares :
    (Box.leftSquare.overlaps Box.rightSquare 1 = true ∧
      Box.rightSquare.overlaps Box.leftSquare 1 = true) ∧
    Box.leftSquare.union Box.leftSquare = Box.leftSquare ∧
    (Box.leftSquare.union Box.rightSquare).contains ⟨4, 2, 0⟩ 0 = true ∧
    (∃ b, Operand.outlineBox [.segment (.curve (.circle (⟨⟨0, 0, 0⟩, 1⟩ : Circle ℝ))),
        .segment (.curve (.circle ⟨⟨5, 0, 0⟩, 2⟩))] = .ok b ∧
      Operand.outlineBox [.segment (.curve (.circle (⟨⟨5, 0, 0⟩, 2⟩ : Circle ℝ))),
        .segment (.curve (.circle ⟨⟨0, 0, 0⟩, 1⟩))] = .ok b) ∧
    Refuses (Operand.outlineBox [.segment (.curve (.circle (⟨⟨0, 0, 0⟩, 1⟩ : Circle ℝ))), .other])
      .emptySegment := by
  obtain ⟨hoverlap, ⟨-, -, hself⟩, hunion, houtline, hfaults⟩ := box_algebra
  have hleft : Box.leftSquare.Ordered := by constructor <;> norm_num [Box.leftSquare]
  have hright : Box.rightSquare.Ordered := by constructor <;> norm_num [Box.rightSquare]
  have hmiddle : ∃ p, Box.leftSquare.contains p (1 / 2) = true ∧
      Box.rightSquare.contains p (1 / 2) = true := by
    refine ⟨⟨3 / 2, 0, 0⟩, Box.contains_iff_le.mpr ?_, Box.contains_iff_le.mpr ?_⟩
    · norm_num [Box.leftSquare]
    · norm_num [Box.rightSquare]
  obtain ⟨hsame, hiff⟩ := hoverlap _ _ hleft hright 1 zero_le_one
  have htrue := hiff.mpr hmiddle
  obtain ⟨-, hmem⟩ := hunion _ _ hleft hright
  have hcorner : Box.rightSquare.contains ⟨4, 2, 0⟩ 0 = true := by
    refine Box.contains_iff_le.mpr ?_
    norm_num [Box.rightSquare]
  obtain ⟨b, hb, -, -, hperm⟩ := houtline [.curve (.circle ⟨⟨0, 0, 0⟩, 1⟩), .curve (.circle ⟨⟨5, 0, 0⟩, 2⟩)]
    (List.cons_ne_nil _ _)
  refine ⟨⟨htrue, hsame ▸ htrue⟩, hself _ ⟨rfl, rfl⟩, (hmem 0 le_rfl).1 _ (.inr hcorner),
    ⟨b, hb, hperm _ (List.Perm.swap _ _ _)⟩, (hfaults _).2.mpr ⟨.other, by simp, rfl⟩⟩

end Contour
