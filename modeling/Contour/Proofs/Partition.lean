import Contour.Proofs.Cuts
import Contour.Proofs.Lines

/-!
# Splitting a line or an arc

Points are accepted for a cut up to a tolerance, so they may lie before the start of a segment, past
its stop, or next to each other.  The cuts that remain make a partition all the same.

* `Segment.Partition` — the pieces run from the start of a segment to its stop without a break, have
  its kind, add up to its length, and are longer than the tolerance once there are two.
* `Segment.Partition.of_row` — it is enough that the lengths of the pieces are the differences along
  a row of places.
* `Line.cut_eq`, `Line.partition_cut` — a line is cut at the shadows of the points.
* `Arc.cut_eq`, `Arc.partition_cut` — an arc is cut at the angles of the points; `Arc.cut_reverse`
  carries this over to arcs that are drawn clockwise.
* `Segment.split_partition` — splitting at one or two accepted points is a partition.
-/

namespace Contour

/-! ## Partitions -/

namespace Segment

/-- The end where drawing starts. -/
noncomputable def traceStart : Segment ℝ → Point ℝ
  | line l => l.start
  | curve (.arc a) => a.traceStart
  | curve (.circle c) => c.start

/-- The end where drawing stops. -/
noncomputable def traceStop : Segment ℝ → Point ℝ
  | line l => l.stop
  | curve (.arc a) => a.traceStop
  | curve (.circle c) => c.start

/-- Two segments that differ in their extent only. -/
def SameKind : Segment ℝ → Segment ℝ → Prop
  | line _, line _ => True
  | curve (.arc a), curve (.arc b) =>
      b.center = a.center ∧ b.radius = a.radius ∧ b.clockwise = a.clockwise
  | curve (.circle c), curve (.circle d) => d = c
  | _, _ => False

/-- **A partition of a segment.**  Its pieces are in the order of drawing. -/
structure Partition (s : Segment ℝ) (pieces : List (Segment ℝ)) (tol : ℝ) : Prop where
  start_eq : pieces.head?.map traceStart = some s.traceStart
  stop_eq : pieces.getLast?.map traceStop = some s.traceStop
  joined : pieces.IsChain fun p q => p.traceStop = q.traceStart
  sameKind : ∀ p ∈ pieces, s.SameKind p
  length_sum : (pieces.map length).sum = s.length
  lt_length : 2 ≤ pieces.length → ∀ p ∈ pieces, tol < p.length

@[simp] lemma traceStart_reverse (s : Segment ℝ) : s.reverse.traceStart = s.traceStop := by
  rcases s with l | a | c <;> rfl

@[simp] lemma traceStop_reverse (s : Segment ℝ) : s.reverse.traceStop = s.traceStart := by
  rcases s with l | a | c <;> rfl

@[simp] lemma length_reverse (s : Segment ℝ) : s.reverse.length = s.length := by
  rcases s with l | a | c
  · exact Point.dist_comm _ _
  · rfl
  · rfl

@[refl] lemma SameKind.refl (s : Segment ℝ) : s.SameKind s := by
  rcases s with l | a | c
  · trivial
  · exact ⟨rfl, rfl, rfl⟩
  · rfl

lemma SameKind.reverse {s p : Segment ℝ} (h : s.SameKind p) : s.reverse.SameKind p.reverse := by
  rcases s with l | a | c <;> rcases p with m | b | d <;> try exact h.elim
  · trivial
  · obtain ⟨hcenter, hradius, hclockwise⟩ := h
    exact ⟨hcenter, hradius, congrArg not hclockwise⟩
  · exact h

namespace Partition

variable {s : Segment ℝ} {pieces : List (Segment ℝ)} {tol : ℝ}

lemma whole (s : Segment ℝ) (tol : ℝ) : s.Partition [s] tol where
  start_eq := rfl
  stop_eq := rfl
  joined := List.isChain_singleton s
  sameKind p hp := by
    rw [List.mem_singleton.mp hp]
  length_sum := List.sum_singleton
  lt_length htwo := absurd htwo (by simp)

/-- The pieces drawn the other way, last one first, are a partition of the segment drawn the other
way. -/
lemma reverse (h : s.Partition pieces tol) :
    s.reverse.Partition (pieces.reverse.map Segment.reverse) tol := by
  have hmem : ∀ {p}, p ∈ pieces.reverse.map Segment.reverse → ∃ q ∈ pieces, q.reverse = p := by
    simp
  refine ⟨?_, ?_, ?_, ?_, ?_, ?_⟩
  · rw [List.head?_map, List.head?_reverse, Option.map_map, traceStart_reverse, ← h.stop_eq]
    congr 1
    exact funext traceStart_reverse
  · rw [List.getLast?_map, List.getLast?_reverse, Option.map_map, traceStop_reverse, ← h.start_eq]
    congr 1
    exact funext traceStop_reverse
  · rw [List.isChain_map, List.isChain_reverse]
    refine h.joined.imp fun p q hpq => ?_
    rw [traceStop_reverse, traceStart_reverse, hpq]
  · intro p hp
    obtain ⟨q, hq, rfl⟩ := hmem hp
    exact (h.sameKind q hq).reverse
  · rw [length_reverse, ← h.length_sum, List.map_map, List.map_reverse, List.sum_reverse]
    congr 2
    exact funext length_reverse
  · intro htwo p hp
    obtain ⟨q, hq, rfl⟩ := hmem hp
    rw [length_reverse]
    exact h.lt_length (by simpa using htwo) q hq

/-- **Pieces along a row.**  Their ends are a row of points from start to stop, and their lengths the
differences along a row of numbers. -/
lemma of_row (scale low high : ℝ) (inner : List ℝ) (cuts : List (Point ℝ))
    (hends : (pieces.map fun p => (p.traceStart, p.traceStop))
      = consecutive (s.traceStart :: cuts ++ [s.traceStop]))
    (hlengths : pieces.map length
      = (consecutive (low :: inner ++ [high])).map fun p => scale * (p.2 - p.1))
    (hlength : s.length = scale * (high - low))
    (hgap : inner ≠ [] → ∀ p ∈ consecutive (low :: inner ++ [high]), tol < scale * (p.2 - p.1))
    (hkind : ∀ p ∈ pieces, s.SameKind p) : s.Partition pieces tol := by
  refine ⟨?_, ?_, ?_, hkind, ?_, ?_⟩
  · have hhead := head?_consecutive s.traceStart s.traceStop cuts
    rwa [← hends, List.head?_map, Option.map_map] at hhead
  · have hlast := getLast?_consecutive s.traceStart s.traceStop cuts
    rwa [← hends, List.getLast?_map, Option.map_map] at hlast
  · have hchain := isChain_consecutive (s.traceStart :: cuts ++ [s.traceStop])
    rwa [← hends, List.isChain_map] at hchain
  · rw [hlengths, List.sum_map_mul_left, sum_consecutive, hlength]
  · intro htwo p hp
    have hcount : pieces.length = inner.length + 1 := by
      rw [← List.length_map (f := length), hlengths, List.length_map, length_consecutive]
    have hinner : inner ≠ [] := by
      rintro rfl
      simp only [List.length_nil] at hcount
      omega
    have hplength : p.length ∈ pieces.map length := List.mem_map_of_mem hp
    rw [hlengths] at hplength
    obtain ⟨ends, hends, heq⟩ := List.mem_map.mp hplength
    rw [← heq]
    exact hgap hinner ends hends

end Partition

end Segment

/-! ## Lines -/

namespace Line

variable {l : Line ℝ} {tol : ℝ}

@[simp] lemma point_zero (l : Line ℝ) : l.point 0 = l.start := by simp [point, Point.lerp]

@[simp] lemma point_one (l : Line ℝ) : l.point 1 = l.stop := by simp [point, Point.lerp]

/-- The part of a line between two parameters. -/
noncomputable def part (l : Line ℝ) (params : ℝ × ℝ) : Line ℝ := ⟨l.point params.1, l.point params.2⟩

/-- The parameters at which a line is cut. -/
noncomputable def cutParams (l : Line ℝ) (points : List (Point ℝ)) (tol : ℝ) : List ℝ :=
  keepApart (fun s t => tol < |s - t| * l.along.mag) 1 0 (Scalar.ordered id (points.map l.shadow))

/-- The shadows of two points are no further apart than the points. -/
lemma dist_shadow_le (hmag : 0 < l.along.mag) (p q : Point ℝ) :
    |l.shadow p - l.shadow q| * l.along.mag ≤ p.dist q := by
  have hdiff : (l.shadow p - l.shadow q) * l.along.mag = (p.sub q).dot l.along / l.along.mag := by
    have hne := hmag.ne'
    simp only [shadow]
    field_simp
    simp only [Point.dot, Point.sub]
    ring
  calc |l.shadow p - l.shadow q| * l.along.mag
      = |(p.sub q).dot l.along| / l.along.mag := by
        rw [← abs_of_pos hmag, ← abs_mul, abs_of_pos hmag, hdiff, abs_div, abs_of_pos hmag]
    _ ≤ (p.sub q).mag := (div_le_iff₀ hmag).mpr (Point.abs_dot_le _ _)

/-- The parameter of a point is formed with the square of the length, which is not zero. -/
lemma quotient_shadow (hmag : l.along.mag ≠ 0) (p : Point ℝ) :
    (quotient ((p.sub l.start).dot l.along) (l.along.dot l.along) : Except (Fault ℝ) ℝ)
      = .ok (l.shadow p) := by
  rw [← Point.mag_mul_self]
  exact quotient_of_ne _ (mul_ne_zero hmag hmag)

lemma contains_iff (hmag : l.along.mag ≠ 0) {p : Point ℝ} :
    l.contains p tol = .ok true ↔
      if l.shadow p < 0 ∨ 1 < l.shadow p then p.dist l.start ≤ tol ∨ p.dist l.stop ≤ tol
      else p.dist (l.point (l.shadow p)) ≤ tol := by
  have hcontains : l.contains p tol
      = .ok (if (decide (l.shadow p < 0) || decide (1 < l.shadow p)) = true then
          decide (p.dist l.start ≤ tol) || decide (p.dist l.stop ≤ tol)
        else decide (p.dist (l.point (l.shadow p)) ≤ tol)) := by
    change (quotient ((p.sub l.start).dot l.along) (l.along.dot l.along) >>= _) = _
    rw [quotient_shadow hmag]
    exact (apply_ite Except.ok _ _ _).symm
  rw [hcontains, Except.ok.injEq]
  simp only [Bool.or_eq_true, decide_eq_true_eq]
  split_ifs <;> simp

/-- The shadow of an accepted point is no further beyond an end than the tolerance. -/
lemma shadow_of_contains (hmag : 0 < l.along.mag) {p : Point ℝ} (h : l.contains p tol = .ok true) :
    (l.shadow p < 0 → |0 - l.shadow p| * l.along.mag ≤ tol) ∧
      (1 < l.shadow p → |l.shadow p - 1| * l.along.mag ≤ tol) := by
  have hstart := dist_shadow_le hmag p l.start
  have hstop := dist_shadow_le hmag p l.stop
  rw [shadow_start] at hstart
  rw [shadow_stop hmag.ne'] at hstop
  rw [contains_iff hmag.ne'] at h
  constructor
  · intro hlow
    rw [if_pos (.inl hlow)] at h
    rw [abs_sub_comm]
    rcases h with hnear | hnear
    · exact hstart.trans hnear
    · -- the start is nearer than the stop
      refine (mul_le_mul_of_nonneg_right ?_ hmag.le).trans (hstop.trans hnear)
      rw [abs_of_neg (by linarith), abs_of_neg (by linarith)]
      linarith
  · intro hhigh
    rw [if_pos (.inr hhigh)] at h
    rcases h with hnear | hnear
    · refine (mul_le_mul_of_nonneg_right ?_ hmag.le).trans (hstart.trans hnear)
      rw [abs_of_pos (by linarith), abs_of_pos (by linarith)]
      linarith
    · exact hstop.trans hnear

/-- **A line is cut at the shadows of the points.** -/
lemma cut_eq (hmag : l.along.mag ≠ 0) (points : List (Point ℝ)) (tol : ℝ) :
    l.cut points tol
      = .ok ((consecutive (0 :: l.cutParams points tol ++ [1])).map l.part) := by
  have hparam : (fun p : Point ℝ => (quotient ((p.sub l.start).dot l.along)
      (l.along.dot l.along) : Except (Fault ℝ) ℝ)) = fun p => pure (l.shadow p) :=
    funext (quotient_shadow hmag)
  have hinner : keepApart (fun p q : Point ℝ => decide (tol < p.dist q)) l.stop l.start
      ((Scalar.ordered id (points.map l.shadow)).map l.point)
        = (l.cutParams points tol).map l.point := by
    conv_lhs => rw [← l.point_zero, ← l.point_one]
    rw [keepApart_map]
    simp only [dist_point]
    rfl
  have hrow : l.start :: (l.cutParams points tol).map l.point ++ [l.stop]
      = (0 :: l.cutParams points tol ++ [1]).map l.point := by simp
  have hpieces : ((consecutive ((0 :: l.cutParams points tol ++ [1]).map l.point)).map
      fun ends => (⟨ends.1, ends.2⟩ : Line ℝ))
        = (consecutive (0 :: l.cutParams points tol ++ [1])).map l.part := by
    rw [consecutive_map, List.map_map]
    rfl
  change (points.mapM (fun p : Point ℝ => (quotient ((p.sub l.start).dot l.along)
    (l.along.dot l.along) : Except (Fault ℝ) ℝ)) >>= fun params => _) = _
  rw [hparam, List.mapM_pure]
  change Except.ok ((consecutive (l.start :: keepApart _ _ _ _ ++ [l.stop])).map _) = _
  rw [← hpieces, ← hrow, ← hinner]
  rfl

lemma length_cutParams_le (l : Line ℝ) (points : List (Point ℝ)) (tol : ℝ) :
    (l.cutParams points tol).length ≤ points.length := by
  have hle := (keepApart_sublist (fun s t => decide (tol < |s - t| * l.along.mag)) 1 0
    (Scalar.ordered id (points.map l.shadow))).length_le
  rwa [(ordered_perm id _).length_eq, List.length_map] at hle

/-- Cuts at accepted points follow each other from the start to the stop. -/
lemma isChain_cutParams (hmag : 0 < l.along.mag) {points : List (Point ℝ)}
    (hcount : points.length ≤ 2) (hon : ∀ p ∈ points, l.contains p tol = .ok true) :
    (0 :: l.cutParams points tol ++ [1]).IsChain (· ≤ ·) := by
  have hshadow : ∀ t ∈ Scalar.ordered id (points.map l.shadow), ∃ p ∈ points, l.shadow p = t := by
    intro t ht
    rw [(ordered_perm id _).mem_iff] at ht
    exact List.mem_map.mp ht
  refine isChain_le_keepApart (ordered_pairwise id (by simpa using hcount)) zero_le_one ?_ ?_
  · intro t ht hlt
    obtain ⟨p, hp, rfl⟩ := hshadow t ht
    simpa using (shadow_of_contains hmag (hon p hp)).1 hlt
  · intro t ht hlt
    obtain ⟨p, hp, rfl⟩ := hshadow t ht
    simpa using (shadow_of_contains hmag (hon p hp)).2 hlt

lemma length_part (l : Line ℝ) {params : ℝ × ℝ} (h : params.1 ≤ params.2) :
    (Segment.line (l.part params)).length = l.along.mag * (params.2 - params.1) := by
  show (l.point params.1).dist (l.point params.2) = _
  rw [dist_point, abs_sub_comm, abs_of_nonneg (sub_nonneg.mpr h), mul_comm]

/-- **Cutting a line at accepted points is a partition.** -/
lemma partition_cut (hmag : 0 < l.along.mag) {points : List (Point ℝ)} (hcount : points.length ≤ 2)
    (hon : ∀ p ∈ points, l.contains p tol = .ok true) :
    ∃ pieces, l.cut points tol = .ok pieces ∧ 1 ≤ pieces.length ∧
      pieces.length ≤ points.length + 1 ∧
      (Segment.line l).Partition (pieces.map Segment.line) tol := by
  set inner := l.cutParams points tol with hinner
  have horder : ∀ p ∈ consecutive (0 :: inner ++ [1]), p.1 ≤ p.2 := fun p hp =>
    rel_of_mem_consecutive (isChain_cutParams hmag hcount hon) hp
  refine ⟨_, cut_eq hmag.ne' points tol, ?_, ?_,
    .of_row l.along.mag 0 1 inner (inner.map l.point) ?_ ?_ ?_ ?_ ?_⟩
  · rw [List.length_map, length_consecutive]
    exact Nat.le_add_left 1 _
  · rw [List.length_map, length_consecutive]
    exact Nat.succ_le_succ (length_cutParams_le l points tol)
  · have hrow : l.start :: inner.map l.point ++ [l.stop] = (0 :: inner ++ [1]).map l.point := by simp
    show _ = consecutive (l.start :: inner.map l.point ++ [l.stop])
    rw [hrow, consecutive_map, List.map_map, List.map_map]
    rfl
  · rw [List.map_map, List.map_map]
    exact List.map_congr_left fun p hp => length_part l (horder p hp)
  · rw [sub_zero, mul_one, mag_along]
    rfl
  · intro hne p hp
    have hgap := rel_of_mem_consecutive (isChain_keepApart hne) hp
    rw [decide_eq_true_eq, abs_sub_comm, abs_of_nonneg (sub_nonneg.mpr (horder p hp)), mul_comm]
      at hgap
    exact hgap
  · intro p hp
    obtain ⟨m, -, rfl⟩ := List.mem_map.mp hp
    trivial

end Line

/-! ## Arcs -/

/-- Rewinding takes the same turns off both angles. -/
lemma Angle.rewind_sub (start stop : ℝ) :
    (Angle.rewind start stop).2 - (Angle.rewind start stop).1 = stop - start := by
  suffices h : ∀ (limit : ℕ) (range : ℝ × ℝ),
      (Angle.lower limit range).2 - (Angle.lower limit range).1 = range.2 - range.1 from h _ _
  intro limit
  induction limit with
  | zero => exact fun _ => rfl
  | succ limit ih =>
      intro range
      rw [Angle.lower]
      split_ifs with hlt
      · rw [ih]
        ring
      · rfl

namespace Arc

section Direction

variable {α : Type}

@[simp] lemma reverse_reverse (a : Arc α) : a.reverse.reverse = a := by
  cases a
  simp [reverse]

@[simp] lemma start_reverse (a : Arc α) : a.reverse.start = a.start := by
  cases h : a.clockwise <;> simp [start, reverse, h]

@[simp] lemma stop_reverse (a : Arc α) : a.reverse.stop = a.stop := by
  cases h : a.clockwise <;> simp [stop, reverse, h]

variable [Add α] [Sub α] [Mul α] [Div α] [LT α] [DecidableLT α] [OfNat α 2] [Elementary α]

/-- **The pieces of an arc drawn the other way** are its pieces drawn the other way, last one
first. -/
lemma cut_reverse (a : Arc α) (points : List (Point α)) (tol : α) :
    a.reverse.cut points tol = (a.cut points tol).map fun pieces => pieces.reverse.map reverse := by
  have htwice : ∀ pieces : List (Arc α),
      (pieces.reverse.map reverse).reverse.map reverse = pieces := fun pieces => by
    rw [← List.map_reverse, List.reverse_reverse, List.map_map]
    exact (List.map_congr_left fun a _ => reverse_reverse a).trans (List.map_id _)
  have hcenter : a.reverse.center = a.center := rfl
  have hradius : a.reverse.radius = a.radius := rfl
  have hstartAngle : a.reverse.startAngle = a.startAngle := rfl
  have hendAngle : a.reverse.endAngle = a.endAngle := rfl
  have hclockwise : a.reverse.clockwise = !a.clockwise := rfl
  simp only [cut, start_reverse, stop_reverse, hcenter, hradius, hstartAngle, hendAngle, hclockwise]
  generalize keepApart _ _ _ _ = inner
  split
  · rfl
  · generalize List.mapM (fun angle => a.center.polar a.radius angle) inner = cuts
    cases cuts with
    | error fault => rfl
    | ok cuts =>
        cases a.clockwise with
        | false => rfl
        | true => exact congrArg Except.ok (htwice _).symm

end Direction

variable {a : Arc ℝ} {tol : ℝ}

/-- The angles at which an arc is cut. -/
noncomputable def cutAngles (a : Arc ℝ) (points : List (Point ℝ)) (tol : ℝ) : List ℝ :=
  keepApart (fun low high => tol < a.radius * (high - low)) a.endAngle a.startAngle
    (Scalar.ordered id
      (points.map fun p => Angle.unwrapAfter (p.angleXY a.center) a.startAngle))

/-- The parts of an arc between angles, counter-clockwise. -/
noncomputable def parts (a : Arc ℝ) (inner : List ℝ) : List (Arc ℝ) :=
  List.zipWith (piece a.center a.radius) (consecutive (a.startAngle :: inner ++ [a.endAngle]))
    (consecutive (a.start :: inner.map (a.center.around a.radius) ++ [a.stop]))

/-- **An arc is cut at the angles of the points**, and stays as it is if none of them is kept. -/
lemma cut_eq (hclockwise : a.clockwise = false) (points : List (Point ℝ)) (tol : ℝ) :
    a.cut points tol
      = .ok (if (a.cutAngles points tol).isEmpty then [a]
        else a.parts (a.cutAngles points tol)) := by
  have hcuts : ((a.cutAngles points tol).mapM fun angle => a.center.polar a.radius angle)
      = .ok ((a.cutAngles points tol).map (a.center.around a.radius)) := by
    simp only [Point.polar_eq]
    exact List.mapM_pure
  change (if (a.cutAngles points tol).isEmpty then Except.ok [a] else
    ((a.cutAngles points tol).mapM fun angle => a.center.polar a.radius angle) >>= _) = _
  rw [hcuts]
  split
  · rfl
  · show Except.ok (if a.clockwise then _ else _) = _
    rw [hclockwise]
    rfl

lemma length_cutAngles_le (a : Arc ℝ) (points : List (Point ℝ)) (tol : ℝ) :
    (a.cutAngles points tol).length ≤ points.length := by
  refine (keepApart_sublist _ _ _ _).length_le.trans_eq ?_
  rw [(ordered_perm id _).length_eq, List.length_map]

/-- Cuts that leave gaps along a circle follow each other from the first angle to the last. -/
lemma isChain_cutAngles (hradius : 0 < a.radius) (htol : 0 ≤ tol) {points : List (Point ℝ)}
    (hne : a.cutAngles points tol ≠ []) :
    (a.startAngle :: a.cutAngles points tol ++ [a.endAngle]).IsChain (· ≤ ·) := by
  refine (isChain_keepApart hne).imp fun low high hgap => ?_
  have hpos : 0 < a.radius * (high - low) := htol.trans_lt (of_decide_eq_true hgap)
  linarith [pos_of_mul_pos_right hpos hradius.le]

lemma length_parts (a : Arc ℝ) (inner : List ℝ) : (a.parts inner).length = inner.length + 1 := by
  rw [parts, List.length_zipWith, length_consecutive, length_consecutive, List.length_map, min_self]

lemma length_piece (center : Point ℝ) (radius : ℝ) (angles : ℝ × ℝ) (ends : Point ℝ × Point ℝ) :
    (Segment.curve (.arc (piece center radius angles ends))).length
      = radius * (angles.2 - angles.1) :=
  congrArg (radius * ·) (Angle.rewind_sub angles.1 angles.2)

/-- The parts of a counter-clockwise arc between angles that leave gaps are a partition. -/
lemma partition_parts (hclockwise : a.clockwise = false) {inner : List ℝ}
    (hgap : (a.startAngle :: inner ++ [a.endAngle]).IsChain
      fun low high => tol < a.radius * (high - low)) :
    (Segment.curve (.arc a)).Partition ((a.parts inner).map (Segment.curve ∘ .arc)) tol := by
  have hcount : (consecutive (a.startAngle :: inner ++ [a.endAngle])).length
      = (consecutive (a.start :: inner.map (a.center.around a.radius) ++ [a.stop])).length := by
    rw [length_consecutive, length_consecutive, List.length_map]
  refine .of_row a.radius a.startAngle a.endAngle inner (inner.map (a.center.around a.radius))
    ?_ ?_ rfl ?_ ?_
  · have hstart : a.start = a.traceStart := by simp [start, hclockwise]
    have hstop : a.stop = a.traceStop := by simp [stop, hclockwise]
    show _ = consecutive (a.traceStart :: inner.map (a.center.around a.radius) ++ [a.traceStop])
    rw [← hstart, ← hstop, parts, List.map_map, List.map_zipWith]
    exact (zipWith_snd id hcount.ge).trans (List.map_id _)
  · rw [parts, List.map_map, List.map_zipWith]
    rw [← zipWith_fst _ hcount.le]
    congr 1
    funext angles ends
    exact length_piece a.center a.radius angles ends
  · exact fun _ p hp => rel_of_mem_consecutive hgap hp
  · intro p hp
    obtain ⟨b, hb, rfl⟩ := List.mem_map.mp hp
    rw [parts, ← List.map_uncurry_zip_eq_zipWith] at hb
    obtain ⟨ends, -, rfl⟩ := List.mem_map.mp hb
    exact ⟨rfl, rfl, hclockwise.symm⟩

/-- **Cutting an arc is a partition**, wherever the points are. -/
lemma partition_cut (a : Arc ℝ) (points : List (Point ℝ)) (tol : ℝ) :
    ∃ pieces, a.cut points tol = .ok pieces ∧ 1 ≤ pieces.length ∧
      pieces.length ≤ points.length + 1 ∧
      (Segment.curve (.arc a)).Partition (pieces.map (Segment.curve ∘ .arc)) tol := by
  have hforward : ∀ b : Arc ℝ, b.clockwise = false →
      ∃ pieces, b.cut points tol = .ok pieces ∧ 1 ≤ pieces.length ∧
        pieces.length ≤ points.length + 1 ∧
        (Segment.curve (.arc b)).Partition (pieces.map (Segment.curve ∘ .arc)) tol := by
    intro b hclockwise
    refine ⟨_, cut_eq hclockwise points tol, ?_⟩
    split
    · exact ⟨le_rfl, Nat.le_add_left 1 _, .whole _ tol⟩
    · next hkept =>
        have hne : b.cutAngles points tol ≠ [] := by simpa using hkept
        have hgap := (isChain_keepApart hne).imp fun low high h => of_decide_eq_true h
        rw [length_parts]
        exact ⟨Nat.le_add_left 1 _, Nat.succ_le_succ (length_cutAngles_le b points tol),
          partition_parts hclockwise hgap⟩
  cases hclockwise : a.clockwise with
  | false => exact hforward a hclockwise
  | true =>
      -- the other way round the arc is counter-clockwise
      obtain ⟨pieces, hcut, hone, hcount, hpartition⟩ :=
        hforward a.reverse (by rw [reverse, hclockwise]; rfl)
      refine ⟨pieces.reverse.map reverse, ?_, ?_, ?_, ?_⟩
      · rw [← reverse_reverse a, cut_reverse, hcut]
        rfl
      · rwa [List.length_map, List.length_reverse]
      · rwa [List.length_map, List.length_reverse]
      · have hback := hpartition.reverse
        rw [← List.map_reverse, List.map_map] at hback
        rw [List.map_map]
        rwa [← reverse_reverse a]

end Arc

/-! ## Splitting -/

namespace Segment

variable {s : Segment ℝ} {points : List (Point ℝ)} {tol : ℝ}

/-- One or two points on a segment pass the checks. -/
lemma checkCuts_ok (hcount : points.length = 1 ∨ points.length = 2)
    (hon : ∀ p ∈ points, s.contains p tol = .ok true) : s.checkCuts points tol = .ok () := by
  have hpoints : (points.forM fun p => do
      if ← s.contains p tol then return () else refuse (.cutOffSegment p.x p.y))
        = (.ok () : Except (Fault ℝ) Unit) := by
    clear hcount
    induction points with
    | nil => rfl
    | cons p rest ih =>
        rw [List.forM_eq_forM, List.forM_cons, hon p List.mem_cons_self]
        exact ih fun q hq => hon q (List.mem_cons_of_mem _ hq)
  have hallowed : (decide (points.length < 1) || decide (2 < points.length)) = false := by
    rcases hcount with h | h <;> simp [h]
  rw [checkCuts, hallowed]
  exact hpoints

/-- A split checks the points, and then cuts there. -/
lemma split_eq_ok_iff {pieces : List (Segment ℝ)} : s.split points tol = .ok pieces ↔
    s.checkCuts points tol = .ok () ∧ s.cut points tol = .ok pieces := by
  rw [split]
  cases s.checkCuts points tol with
  | error fault => exact iff_of_false nofun fun h => nomatch h.1
  | ok _ => exact (and_iff_right rfl).symm

/-- **Splitting a line or an arc is a partition.**  Points that a segment accepts up to a tolerance
cut it into one piece more than the cuts that remain. -/
theorem split_partition (hs : s.Made) (hcircle : s.isCircle = false)
    (hcount : points.length = 1 ∨ points.length = 2)
    (hon : ∀ p ∈ points, s.contains p tol = .ok true) :
    ∃ pieces, s.split points tol = .ok pieces ∧ 1 ≤ pieces.length ∧
      pieces.length ≤ points.length + 1 ∧ s.Partition pieces tol := by
  have hchecked := checkCuts_ok hcount hon
  rcases s with l | a | c
  · have hmag := hs.line.mag_pos le_rfl
    obtain ⟨pieces, hcut, hone, hle, hpartition⟩ :=
      Line.partition_cut hmag (by omega) hon
    refine ⟨pieces.map line, ?_, by rwa [List.length_map], by rwa [List.length_map], hpartition⟩
    rw [split, hchecked]
    show (l.cut points tol >>= fun pieces => pure (pieces.map line)) = _
    rw [hcut]
    rfl
  · obtain ⟨pieces, hcut, hone, hle, hpartition⟩ := a.partition_cut points tol
    refine ⟨pieces.map (curve ∘ .arc), ?_, by rwa [List.length_map], by rwa [List.length_map],
      hpartition⟩
    rw [split, hchecked]
    show (a.cut points tol >>= fun pieces => pure (pieces.map (curve ∘ .arc))) = _
    rw [hcut]
    rfl
  · cases hcircle

/-- A line of length four that is split at a point three quarters of the way and at a point that lies
before its start by less than the tolerance. -/
theorem split_partition_early_point :
    Made (.line ⟨⟨0, 0, 0⟩, ⟨4, 0, 0⟩⟩) ∧
      isCircle (.line (⟨⟨0, 0, 0⟩, ⟨4, 0, 0⟩⟩ : Line ℝ)) = false ∧
      (∀ p ∈ [(⟨3, 0, 0⟩ : Point ℝ), ⟨-1 / 4, 0, 0⟩],
        contains (.line ⟨⟨0, 0, 0⟩, ⟨4, 0, 0⟩⟩) p (1 / 2) = .ok true) ∧
      ∃ pieces, split (.line ⟨⟨0, 0, 0⟩, ⟨4, 0, 0⟩⟩) [(⟨3, 0, 0⟩ : Point ℝ), ⟨-1 / 4, 0, 0⟩] (1 / 2)
          = .ok pieces ∧ 1 ≤ pieces.length ∧ pieces.length ≤ 3 ∧
        Partition (.line ⟨⟨0, 0, 0⟩, ⟨4, 0, 0⟩⟩) pieces (1 / 2) := by
  have hmade : Made (.line ⟨⟨0, 0, 0⟩, ⟨4, 0, 0⟩⟩) :=
    .ofLine coincidentTol_pos.le (Line.ofEnds_of_lt rfl rfl (.inl (by
      rw [coincidentTol_eq]; norm_num)))
  have hmag := (hmade.line.mag_pos le_rfl).ne'
  have hshadow : ∀ x : ℝ, Line.shadow ⟨⟨0, 0, 0⟩, ⟨4, 0, 0⟩⟩ ⟨x, 0, 0⟩ = x / 4 := by
    intro x
    rw [Line.shadow, Point.mag_mul_self]
    simp only [Line.along, Point.sub, Point.dot]
    ring
  have hon : ∀ p ∈ [(⟨3, 0, 0⟩ : Point ℝ), ⟨-1 / 4, 0, 0⟩],
      contains (.line ⟨⟨0, 0, 0⟩, ⟨4, 0, 0⟩⟩) p (1 / 2) = .ok true := by
    intro p hp
    refine (Line.contains_iff hmag).mpr ?_
    rcases List.mem_pair.mp hp with rfl | rfl
    · rw [hshadow, if_neg (by norm_num)]
      simp only [Line.point, Point.lerp, Point.dist_eq_sqrt]
      norm_num
    · rw [hshadow, if_pos (.inl (by norm_num))]
      left
      rw [Point.dist_eq_sqrt, Real.sqrt_le_left (by norm_num)]
      norm_num
  exact ⟨hmade, rfl, hon, split_partition hmade rfl (.inr rfl) hon⟩

end Segment

end Contour
