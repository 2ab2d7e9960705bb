import Contour.Builder
import Contour.Intersection.Curves
import Contour.Proofs.Partition

/-!
# Passes of the loops

Two loops move angles by whole turns: one raises an angle until it reaches a start, the other takes
turns off a range until it starts within half a turn of zero.  A loop may be limited to a number of
passes, and gives up if it needs more.  This file says how many passes the two need in general, and
that one is enough wherever the kernel uses them: with every loop limited to one pass, the functions
that have such a loop in them still return what they return.

* `Loop.within` — a loop that is limited; `Angle.unwrapWithin`, `Angle.rewindWithin` are the two.
* `Limited`, `Limited.Keeps` — computations with limited loops, and those in which no loop gives up.
* `Curve.ofEndsWithin`, `Curve.orderAlongWithin`, `Arc.overlapWithin`, `Circle.cutWithin`,
  `Arc.cutWithin`, `Boundary.anglesWithin` — the functions of the kernel with their loops limited.
* `Angle.unwrapWithin_eq`, `Angle.eq_normalize_iff` — where unwrapping and normalizing end.
* `Segment.Derived` — segments that come from constructed ones by drawing them the other way and by
  splitting them, under any tolerances; `Derived.startsNear` is what their arcs keep.
* `Arc.OnePass`, `Angle.unwraps_canonically` — one pass is enough.
-/

namespace Contour

open Real (pi)

/-! ## Loops that give up -/

/-- The state in which a loop ends that runs its body as long as it must go on.  It gives up if it
still must after `limit` passes. -/
def Loop.within {σ : Type} (again : σ → Bool) (body : σ → σ) : ℕ → σ → Option σ
  | 0, x => if again x then none else some x
  | limit + 1, x => if again x then within again body limit (body x) else some x

/-- Computations with limited loops.  If no loop gives up, they may still fail as others do. -/
abbrev Limited (α β : Type) := ExceptT (Fault α) Option β

namespace Limited

variable {α β γ : Type}

/-- A step with a limited loop. -/
def loop (result : Option β) : Limited α β := ExceptT.lift result

/-- A step without a loop. -/
def plain (result : Except (Fault α) β) : Limited α β := ExceptT.mk (some result)

/-- No loop gives up, and the result is the given one. -/
def Keeps (action : Limited α β) (result : Except (Fault α) β) : Prop := action.run = some result

lemma keeps_pure (b : β) : Keeps (pure b : Limited α β) (.ok b) := rfl

lemma keeps_plain (result : Except (Fault α) β) : Keeps (plain result) result := rfl

lemma keeps_loop {result : Option β} {b : β} (h : result = some b) :
    Keeps (loop result : Limited α β) (.ok b) := by
  rw [h]
  rfl

lemma Keeps.bind {action : Limited α β} {result : Except (Fault α) β} {next : β → Limited α γ}
    {next' : β → Except (Fault α) γ} (h : Keeps action result)
    (hnext : ∀ b, result = .ok b → Keeps (next b) (next' b)) :
    Keeps (action >>= next) (result >>= next') := by
  have hrun : action = some result := h
  subst hrun
  cases result with
  | error fault => rfl
  | ok b => exact hnext b rfl

lemma Keeps.bind_ok {action : Limited α β} {b : β} {next : β → Limited α γ}
    {result : Except (Fault α) γ} (h : Keeps action (.ok b)) (hnext : Keeps (next b) result) :
    Keeps (action >>= next) result := by
  have hrun : action = some (.ok b) := h
  subst hrun
  exact hnext

lemma Keeps.mapM {f : β → Limited α γ} {g : β → γ} {items : List β}
    (h : ∀ x ∈ items, Keeps (f x) (.ok (g x))) : Keeps (items.mapM f) (.ok (items.map g)) := by
  induction items with
  | nil => rfl
  | cons x rest ih =>
      rw [List.mapM_cons]
      exact (h x List.mem_cons_self).bind_ok
        ((ih fun y hy => h y (List.mem_cons_of_mem x hy)).bind_ok (keeps_pure _))

end Limited

/-! ## The functions of the kernel with their loops limited -/

section Kernel

variable {α : Type} [Add α] [Sub α] [Mul α] [Div α] [Neg α] [LT α] [LE α] [DecidableLT α]
  [DecidableLE α] [BEq α] [OfNat α 0] [OfNat α 1] [OfNat α 2] [OfScientific α] [Elementary α]

open Limited

namespace Angle

/-- Unwraps an angle in at most `limit` passes. -/
def unwrapWithin (limit : ℕ) (angle start : α) : Option α :=
  Loop.within (fun a => decide (a < start)) (· + turn) limit angle

/-- Rewinds a range in at most `limit` passes. -/
def rewindWithin (limit : ℕ) (start stop : α) : Option (α × α) :=
  Loop.within (fun range => decide (Elementary.pi < range.1))
    (fun range => (range.1 - turn, range.2 - turn)) limit (start, stop)

end Angle

def Arc.anglesWithin (limit : ℕ) (start stop : α) (clockwise : Bool) : Limited α (α × α) := do
  if clockwise then return (stop, ← loop (Angle.unwrapWithin limit start stop))
  else return (start, ← loop (Angle.unwrapWithin limit stop start))

def Curve.ofEndsWithin (limit : ℕ) (center start stop : Point α) (clockwise : Bool)
    (tol radiusTol : α) : Limited α (Curve α) := do
  if !(center.isPlanar && start.isPlanar && stop.isPlanar) then plain (refuse (.nonPlanar "arc"))
  else if center.agrees start tol || center.agrees stop tol then plain (refuse (.degenerate "arc"))
  else
    let radius := start.dist center
    if start.agrees stop tol then return .circle ⟨center, radius⟩
    else
      let other := stop.dist center
      if radiusTol < Elementary.abs (other - radius) then
        plain (refuse (.radiusMismatch radius other radiusTol))
      else
        let (first, last) ←
          Arc.anglesWithin limit (start.angleXY center) (stop.angleXY center) clockwise
        return .arc ⟨center, radius, start, stop, first, last, clockwise⟩

def Curve.orderAlongWithin (limit : ℕ) (c : Curve α) (points : List (Point α)) :
    Limited α (List (Point α)) := do
  let keyed ← points.mapM fun p => do
    return (← loop (Angle.unwrapWithin limit (p.angleXY c.center) c.startAngle), p)
  return (Scalar.ordered Prod.fst keyed).map Prod.snd

namespace Arc

def runsWithin (limit : ℕ) (a b : Arc α) (tol : α) : Limited α (List (Run α)) := do
  let next := (← loop (Angle.unwrapWithin limit b.startAngle a.startAngle)) - b.startAngle
  return [next - Angle.turn, next].filterMap fun shift =>
    let run : Run α :=
      ⟨Scalar.larger a.startAngle (b.startAngle + shift), Scalar.smaller a.endAngle (b.endAngle + shift), shift⟩
    if -tol ≤ run.size * a.radius then some run else none

def overlapWithin (limit : ℕ) (a b : Arc α) (tol : α) : Limited α (Intersection α) := do
  let runs ← a.runsWithin limit b tol
  match Run.greatest? (runs.filter fun run => tol < run.size * a.radius) with
  | some run =>
    return .run (← plain (a.pointAt b run.shift run.low tol)) (← plain (a.pointAt b run.shift run.high tol))
  | none =>
    return .crossing (← (Curve.arc a).orderAlongWithin limit (← plain (a.touching b runs tol)))

def pieceWithin (limit : ℕ) (center : Point α) (radius : α) (angles : α × α)
    (ends : Point α × Point α) : Limited α (Arc α) := do
  let (first, last) ← loop (Angle.rewindWithin limit angles.1 angles.2)
  return ⟨center, radius, ends.1, ends.2, first, last, false⟩

def cutWithin (limit : ℕ) (a : Arc α) (points : List (Point α)) (tol : α) :
    Limited α (List (Arc α)) := do
  let angles ← points.mapM fun p => loop (Angle.unwrapWithin limit (p.angleXY a.center) a.startAngle)
  let gap (low high : α) : Bool := tol < a.radius * (high - low)
  let inner := keepApart gap a.endAngle a.startAngle (Scalar.ordered id angles)
  if inner.isEmpty then return [a]
  else
    let cuts ← plain (inner.mapM fun angle => a.center.polar a.radius angle)
    let spans := consecutive (a.startAngle :: inner ++ [a.endAngle])
    let ends := consecutive (a.start :: cuts ++ [a.stop])
    let pieces ← (spans.zip ends).mapM fun e => pieceWithin limit a.center a.radius e.1 e.2
    return if a.clockwise then pieces.reverse.map Arc.reverse else pieces

end Arc

def Circle.cutWithin (limit : ℕ) (c : Circle α) (points : List (Point α)) (tol : α) :
    Limited α (List (Curve α)) := do
  let angles ← points.mapM fun p => loop (Angle.unwrapWithin limit (p.angleXY c.center) 0)
  match Scalar.ordered id angles with
  | [low, high] =>
    if c.radius * (high - low) ≤ tol then return [.circle c]
    else
      let p ← plain (c.center.polar c.radius low)
      let q ← plain (c.center.polar c.radius high)
      let first ← Curve.ofEndsWithin limit c.center p q false coincidentTol radiusTol
      let second ← Curve.ofEndsWithin limit c.center q p false coincidentTol radiusTol
      return [first, second]
  | _ => return [.circle c]

def Boundary.anglesWithin (limit : ℕ) (b : Boundary α) : Limited α (α × α) := do
  let first := b.start.angleXY b.center
  if b.start.agrees b.stop coincidentTol then return (first, first + Angle.turn)
  else return (first, ← loop (Angle.unwrapWithin limit (b.stop.angleXY b.center) first))

end Kernel

/-! ## Where the loops end -/

namespace Angle

variable {angle start : ℝ}

/-- **Unwrapping takes as many passes as it adds turns**, and gives up under any lower limit. -/
lemma unwrapWithin_eq {k : ℕ} (hk : IsLeast {m : ℕ | start ≤ angle + m * (2 * pi)} k) (limit : ℕ) :
    unwrapWithin limit angle start = if k ≤ limit then some (angle + k * (2 * pi)) else none := by
  unfold unwrapWithin
  induction k generalizing angle limit with
  | zero =>
      have hle : ¬ angle < start := not_lt.mpr (by simpa using hk.1)
      rw [if_pos (Nat.zero_le limit), Nat.cast_zero, zero_mul, add_zero]
      cases limit <;> exact if_neg (Bool.eq_false_iff.mp (decide_eq_false hle))
  | succ k ih =>
      have hlt : angle < start := by
        by_contra hge
        have hzero := hk.2 (show start ≤ angle + ((0 : ℕ) : ℝ) * (2 * pi) by simpa using hge)
        omega
      cases limit with
      | zero =>
          rw [if_neg (Nat.not_succ_le_zero k)]
          exact if_pos (decide_eq_true hlt)
      | succ limit =>
          -- one pass is one turn, after which one turn less is missing
          have hnext : IsLeast {m : ℕ | start ≤ angle + 2 * pi + m * (2 * pi)} k := by
            constructor
            · have hreached : start ≤ angle + ((k + 1 : ℕ) : ℝ) * (2 * pi) := hk.1
              show start ≤ angle + 2 * pi + k * (2 * pi)
              push_cast at hreached
              linarith
            · intro m hm
              have hm' : start ≤ angle + 2 * pi + m * (2 * pi) := hm
              refine Nat.le_of_succ_le_succ (hk.2 ?_)
              show start ≤ angle + ((m + 1 : ℕ) : ℝ) * (2 * pi)
              push_cast
              linarith
          have hrest := ih hnext limit
          simp only [Nat.succ_le_succ_iff]
          refine (if_pos (decide_eq_true hlt)).trans (hrest.trans ?_)
          push_cast
          congr 2
          ring

/-- An angle that is no more than a turn below the start is unwrapped in one pass. -/
lemma unwrapWithin_one (h : start ≤ angle + 2 * pi) :
    unwrapWithin 1 angle start = some (unwrapAfter angle start) := by
  obtain ⟨k, hk, heq⟩ := unwrapAfter_isLeast angle start
  have hone : k ≤ 1 := hk.2 (show start ≤ angle + ((1 : ℕ) : ℝ) * (2 * pi) by simpa using h)
  rw [unwrapWithin_eq hk, if_pos hone, heq]

/-- A range that starts no more than a turn and a half above zero is rewound in one pass. -/
lemma rewindWithin_one (stop : ℝ) (h : start ≤ 3 * pi) :
    rewindWithin 1 start stop = some (rewind start stop) := by
  by_cases hlt : pi < start
  · have hback : ¬ pi < start - 2 * pi := by linarith
    have hwithin : rewindWithin 1 start stop = some (start - 2 * pi, stop - 2 * pi) :=
      (if_pos (decide_eq_true hlt)).trans (if_neg (Bool.eq_false_iff.mp (decide_eq_false hback)))
    have hrewind : rewind start stop = (start - 2 * pi, stop - 2 * pi) :=
      (if_pos hlt).trans (if_neg hback)
    rw [hwithin, hrewind]
  · have hwithin : rewindWithin 1 start stop = some (start, stop) :=
      if_neg (Bool.eq_false_iff.mp (decide_eq_false hlt))
    have hrewind : rewind start stop = (start, stop) := if_neg hlt
    rw [hwithin, hrewind]

lemma normalize_mem (angle : ℝ) : 0 ≤ normalize angle ∧ normalize angle < 2 * pi := by
  have hlow := Int.floor_le (angle / (2 * pi))
  have hhigh := Int.lt_floor_add_one (angle / (2 * pi))
  rw [le_div_iff₀ turn_pos] at hlow
  rw [div_lt_iff₀ turn_pos] at hhigh
  rw [normalize_eq]
  constructor <;> linarith

/-- **Normalizing picks the one angle of a direction from zero up to a turn.** -/
lemma eq_normalize_iff (angle r : ℝ) :
    r = normalize angle ↔ (0 ≤ r ∧ r < 2 * pi) ∧ ∃ n : ℤ, angle = r + n * (2 * pi) := by
  constructor
  · rintro rfl
    refine ⟨normalize_mem angle, ⌊angle / (2 * pi)⌋, ?_⟩
    rw [normalize_eq]
    ring
  · rintro ⟨⟨hlow, hhigh⟩, hturns⟩
    have hfloor : ⌊r / (2 * pi)⌋ = 0 := by
      rw [Int.floor_eq_zero_iff, Set.mem_Ico, div_lt_one turn_pos]
      exact ⟨div_nonneg hlow turn_pos.le, hhigh⟩
    rw [(normalize_eq_iff angle r).mpr hturns, normalize_eq, hfloor, Int.cast_zero, mul_zero,
      sub_zero]

end Angle

/-! ## One pass is enough -/

open Limited

section OnePass

/-- An arc starts within half a turn of angle zero. -/
def Arc.StartsNear (a : Arc ℝ) : Prop := a.startAngle ∈ Set.Icc (-pi) pi

/-- The direction of a point is unwrapped in one pass, whichever start near zero it is to reach. -/
lemma Point.unwrapWithin_one (p center : Point ℝ) {start : ℝ} (h : start ≤ pi) :
    Angle.unwrapWithin 1 (p.angleXY center) start
      = some (Angle.unwrapAfter (p.angleXY center) start) := by
  have hlow : -pi < p.angleXY center := Complex.neg_pi_lt_arg _
  exact Angle.unwrapWithin_one (by linarith)

lemma Arc.keeps_angles (p q center : Point ℝ) (clockwise : Bool) :
    Keeps (Arc.anglesWithin 1 (p.angleXY center) (q.angleXY center) clockwise)
      (.ok (Arc.angles (p.angleXY center) (q.angleXY center) clockwise)) := by
  cases clockwise with
  | false => exact (keeps_loop (q.unwrapWithin_one center (Complex.arg_le_pi _))).bind_ok (keeps_pure _)
  | true => exact (keeps_loop (p.unwrapWithin_one center (Complex.arg_le_pi _))).bind_ok (keeps_pure _)

lemma Curve.keeps_ofEnds (center start stop : Point ℝ) (clockwise : Bool) (tol radiusTol : ℝ) :
    Keeps (Curve.ofEndsWithin 1 center start stop clockwise tol radiusTol)
      (Curve.ofEnds center start stop clockwise tol radiusTol) := by
  unfold ofEndsWithin ofEnds
  split_ifs
  · exact keeps_plain _
  · exact keeps_plain _
  · exact keeps_pure _
  · dsimp only
    split_ifs
    · exact keeps_plain _
    · exact (Arc.keeps_angles start stop center clockwise).bind_ok (keeps_pure _)

/-- Two items that carry their keys are put in the order of their keys. -/
lemma ordered_keyed {α β : Type} [LT α] [DecidableLT α] (key : β → α) (items : List β) :
    (Scalar.ordered Prod.fst (items.map fun x => (key x, x))).map Prod.snd
      = Scalar.ordered key items := by
  rcases items with _ | ⟨x, _ | ⟨y, _ | ⟨z, rest⟩⟩⟩
  · rfl
  · rfl
  · simp only [List.map_cons, List.map_nil, Scalar.ordered]
    split <;> rfl
  · simp [Scalar.ordered, Function.comp_def]

namespace Arc

variable {a b : Arc ℝ}

lemma keeps_orderAlong (ha : a.StartsNear) (points : List (Point ℝ)) :
    Keeps ((Curve.arc a).orderAlongWithin 1 points) (.ok ((Curve.arc a).orderAlong points)) := by
  refine Keeps.bind_ok (Keeps.mapM fun p _ =>
    (keeps_loop (p.unwrapWithin_one a.center ha.2)).bind_ok (keeps_pure (_, p))) ?_
  rw [ordered_keyed fun p : Point ℝ => Angle.unwrapAfter (p.angleXY a.center) a.startAngle]
  exact keeps_pure _

lemma keeps_runs (ha : a.StartsNear) (hb : b.StartsNear) (tol : ℝ) :
    Keeps (a.runsWithin 1 b tol) (.ok (a.runs b tol)) :=
  (keeps_loop (Angle.unwrapWithin_one (by linarith [ha.2, hb.1]))).bind_ok (keeps_pure _)

lemma keeps_overlap (ha : a.StartsNear) (hb : b.StartsNear) (tol : ℝ) :
    Keeps (a.overlapWithin 1 b tol) (a.overlap b tol) := by
  refine (keeps_runs ha hb tol).bind_ok ?_
  unfold overlap
  dsimp only
  cases Run.greatest? ((a.runs b tol).filter fun run => tol < run.size * a.radius) with
  | some run => exact (keeps_plain _).bind fun _ _ => (keeps_plain _).bind fun _ _ => keeps_pure _
  | none => exact (keeps_plain _).bind fun _ _ => (keeps_orderAlong ha _).bind_ok (keeps_pure _)

/-- The angles where the parts of an arc may start are less than two turns above half a turn back. -/
lemma mem_row_le (ha : a.StartsNear) (points : List (Point ℝ)) (tol : ℝ) {θ : ℝ}
    (hθ : θ ∈ a.startAngle :: a.cutAngles points tol) : -pi ≤ θ ∧ θ ≤ 3 * pi := by
  obtain ⟨hlow, hhigh⟩ := ha
  rcases List.mem_cons.mp hθ with rfl | hθ
  · exact ⟨hlow, by linarith⟩
  · have hmem := (ordered_perm id _).mem_iff.mp ((keepApart_sublist _ _ _ _).subset hθ)
    obtain ⟨p, -, rfl⟩ := List.mem_map.mp hmem
    have hangle : p.angleXY a.center ≤ pi := Complex.arg_le_pi _
    have hstart := Angle.le_unwrapAfter (p.angleXY a.center) a.startAngle
    have hturn : Angle.unwrapAfter (p.angleXY a.center) a.startAngle ≤ a.startAngle + 2 * pi :=
      Angle.unwrapAfter_le (by linarith)
    exact ⟨by linarith, by linarith⟩

lemma keeps_piece (center : Point ℝ) (radius : ℝ) {angles : ℝ × ℝ} (ends : Point ℝ × Point ℝ)
    (h : angles.1 ≤ 3 * pi) :
    Keeps (pieceWithin 1 center radius angles ends) (.ok (piece center radius angles ends)) :=
  (keeps_loop (Angle.rewindWithin_one angles.2 h)).bind_ok (keeps_pure _)

lemma keeps_cut (ha : a.StartsNear) (points : List (Point ℝ)) (tol : ℝ) :
    Keeps (a.cutWithin 1 points tol) (a.cut points tol) := by
  refine Keeps.bind_ok (Keeps.mapM fun p _ => keeps_loop (p.unwrapWithin_one a.center ha.2)) ?_
  have hrow := fun θ => mem_row_le ha points tol (θ := θ)
  simp only [cut, cutAngles] at hrow ⊢
  generalize keepApart _ _ _ _ = inner at hrow ⊢
  by_cases hnone : inner.isEmpty = true
  · rw [if_pos hnone, if_pos hnone]
    exact keeps_pure _
  · rw [if_neg hnone, if_neg hnone]
    refine (keeps_plain _).bind fun cuts _ => ?_
    rw [← List.map_uncurry_zip_eq_zipWith]
    refine (Keeps.mapM fun e he => keeps_piece a.center a.radius e.2 ?_).bind_ok (keeps_pure _)
    exact (hrow _ (fst_mem_of_mem_consecutive (List.of_mem_zip he).1)).2

end Arc

lemma Circle.keeps_cut (c : Circle ℝ) (points : List (Point ℝ)) (tol : ℝ) :
    Keeps (c.cutWithin 1 points tol) (c.cut points tol) := by
  refine Keeps.bind_ok
    (Keeps.mapM fun p _ => keeps_loop (p.unwrapWithin_one c.center Real.pi_pos.le)) ?_
  unfold cut
  dsimp only
  generalize Scalar.ordered id (points.map fun p => Angle.unwrapAfter (p.angleXY c.center) 0) = angles
  rcases angles with _ | ⟨low, _ | ⟨high, _ | ⟨next, rest⟩⟩⟩
  · exact keeps_pure _
  · exact keeps_pure _
  · dsimp only
    split_ifs
    · exact keeps_pure _
    · refine (keeps_plain _).bind fun p _ => (keeps_plain _).bind fun q _ => ?_
      exact (Curve.keeps_ofEnds _ _ _ _ _ _).bind fun first _ =>
        (Curve.keeps_ofEnds _ _ _ _ _ _).bind fun second _ => keeps_pure _
  · exact keeps_pure _

lemma Boundary.keeps_angles (b : Boundary ℝ) : Keeps (b.anglesWithin 1) (.ok b.angles) := by
  unfold anglesWithin angles
  dsimp only
  split_ifs
  · exact keeps_pure _
  · exact (keeps_loop (b.stop.unwrapWithin_one b.center (Complex.arg_le_pi _))).bind_ok (keeps_pure _)

end OnePass

/-! ## Segments under any tolerances -/

namespace Segment

/-- The segments that come from the constructors by drawing them the other way and by splitting them,
any number of times and under any tolerances. -/
inductive Derived : Segment ℝ → Prop
  | ofLine {start stop : Point ℝ} {tol : ℝ} {l : Line ℝ} (h : Line.ofEnds start stop tol = .ok l) :
      Derived (line l)
  | ofCurve {center start stop : Point ℝ} {clockwise : Bool} {tol radiusTol : ℝ} {c : Curve ℝ}
      (h : Curve.ofEnds center start stop clockwise tol radiusTol = .ok c) : Derived (curve c)
  | ofCircle {center : Point ℝ} {radius tol : ℝ} {c : Circle ℝ}
      (h : Circle.ofRadius center radius tol = .ok c) : Derived (curve (.circle c))
  | reverse {s : Segment ℝ} (h : Derived s) : Derived s.reverse
  | piece {s p : Segment ℝ} {points : List (Point ℝ)} {tol : ℝ} {pieces : List (Segment ℝ)}
      (h : Derived s) (hsplit : s.split points tol = .ok pieces) (hp : p ∈ pieces) : Derived p

lemma Built.derived {s : Segment ℝ} (h : s.Built) : s.Derived := by
  cases h with
  | ofLine h => exact .ofLine h
  | ofCurve h => exact .ofCurve h
  | ofCircle h => exact .ofCircle h

/-- A segment that is an arc starts within half a turn of angle zero. -/
def StartsNear (s : Segment ℝ) : Prop := ∀ a, s = curve (.arc a) → a.StartsNear

end Segment

/-- A computation of two steps that succeeds is two that succeed. -/
lemma Curve.startsNear_of_ofEnds {center start stop : Point ℝ} {clockwise : Bool} {tol radiusTol : ℝ}
    {c : Curve ℝ} (h : Curve.ofEnds center start stop clockwise tol radiusTol = .ok c) :
    (Segment.curve c).StartsNear := by
  rintro a ⟨⟩
  rw [Arc.StartsNear, (stored_of_ofEnds h).startAngle_eq]
  exact ⟨(Complex.neg_pi_lt_arg _).le, Complex.arg_le_pi _⟩

namespace Arc

variable {a : Arc ℝ}

/-- The part of a circle between two angles starts near zero, however many turns the first angle is
above. -/
lemma startsNear_piece (center : Point ℝ) (radius : ℝ) {angles : ℝ × ℝ} (ends : Point ℝ × Point ℝ)
    (h : -pi ≤ angles.1) : (piece center radius angles ends).StartsNear := by
  obtain ⟨k, hrewind, hlow, hhigh⟩ := Angle.rewind_spec angles.2 h
  have hstart : (piece center radius angles ends).startAngle = angles.1 - k * (2 * pi) :=
    congrArg Prod.fst hrewind
  rw [StartsNear, hstart]
  exact ⟨hlow, hhigh⟩

lemma startsNear_parts (ha : a.StartsNear) (points : List (Point ℝ)) (tol : ℝ) :
    ∀ b ∈ a.parts (a.cutAngles points tol), b.StartsNear := by
  intro b hb
  rw [parts, ← List.map_uncurry_zip_eq_zipWith] at hb
  obtain ⟨e, he, rfl⟩ := List.mem_map.mp hb
  refine startsNear_piece a.center a.radius e.2 ?_
  exact (mem_row_le ha points tol (fst_mem_of_mem_consecutive (List.of_mem_zip he).1)).1

/-- **Every piece of an arc that starts near zero does so too.** -/
lemma startsNear_cut (ha : a.StartsNear) {points : List (Point ℝ)} {tol : ℝ} {pieces : List (Arc ℝ)}
    (h : a.cut points tol = .ok pieces) : ∀ b ∈ pieces, b.StartsNear := by
  have hforward : ∀ {b : Arc ℝ} {parts : List (Arc ℝ)}, b.StartsNear → b.clockwise = false →
      b.cut points tol = .ok parts → ∀ d ∈ parts, d.StartsNear := by
    intro b parts hb hclockwise hcut
    rw [cut_eq hclockwise] at hcut
    cases hcut
    split_ifs
    · exact fun d hd => (List.mem_singleton.mp hd) ▸ hb
    · exact startsNear_parts hb points tol
  cases hclockwise : a.clockwise with
  | false => exact hforward ha hclockwise h
  | true =>
      have hback := cut_reverse a points tol
      rw [h] at hback
      have hparts := hforward (b := a.reverse) ha (by rw [reverse, hclockwise]; rfl) hback
      intro b hb
      exact hparts b.reverse (List.mem_map_of_mem (List.mem_reverse.mpr hb))

end Arc

/-- The halves of a circle start near zero, as they are built anew. -/
lemma Circle.startsNear_cut {c : Circle ℝ} {points : List (Point ℝ)} {tol : ℝ}
    {pieces : List (Curve ℝ)} (h : c.cut points tol = .ok pieces) :
    ∀ d ∈ pieces, (Segment.curve d).StartsNear := by
  have hwhole : ∀ d ∈ [Curve.circle c], (Segment.curve d).StartsNear := by
    intro d hd
    rw [List.mem_singleton.mp hd]
    exact nofun
  unfold cut at h
  dsimp only at h
  generalize Scalar.ordered id (points.map fun p => Angle.unwrapAfter (p.angleXY c.center) 0) = angles
    at h
  rcases angles with _ | ⟨low, _ | ⟨high, _ | ⟨next, rest⟩⟩⟩
  case cons.cons.nil =>
    dsimp only at h
    split_ifs at h
    · cases h
      exact hwhole
    · obtain ⟨p, -, h⟩ := exists_of_bind_eq_ok h
      obtain ⟨q, -, h⟩ := exists_of_bind_eq_ok h
      obtain ⟨first, hfirst, h⟩ := exists_of_bind_eq_ok h
      obtain ⟨second, hsecond, h⟩ := exists_of_bind_eq_ok h
      cases h
      intro d hd
      rcases List.mem_pair.mp hd with rfl | rfl
      · exact Curve.startsNear_of_ofEnds hfirst
      · exact Curve.startsNear_of_ofEnds hsecond
  all_goals
    cases h
    exact hwhole

namespace Segment

lemma startsNear_cut {s : Segment ℝ} (hs : s.StartsNear) {points : List (Point ℝ)} {tol : ℝ}
    {pieces : List (Segment ℝ)} (h : s.cut points tol = .ok pieces) : ∀ p ∈ pieces, p.StartsNear := by
  rcases s with l | a | c
  · obtain ⟨lines, -, h⟩ := exists_of_bind_eq_ok h
    cases h
    exact List.forall_mem_map.mpr fun m _ => nofun
  · obtain ⟨arcs, hcut, h⟩ := exists_of_bind_eq_ok h
    cases h
    refine List.forall_mem_map.mpr fun b hb => ?_
    rintro _ ⟨⟩
    exact Arc.startsNear_cut (hs a rfl) hcut b hb
  · obtain ⟨curves, hcut, h⟩ := exists_of_bind_eq_ok h
    cases h
    exact List.forall_mem_map.mpr (Circle.startsNear_cut hcut)

/-- **Every arc that is derived starts within half a turn of angle zero.** -/
lemma Derived.startsNear {s : Segment ℝ} (h : s.Derived) : s.StartsNear := by
  induction h with
  | ofLine _ => exact nofun
  | ofCurve h => exact Curve.startsNear_of_ofEnds h
  | ofCircle _ => exact nofun
  | @reverse s _ ih =>
      rcases s with l | b | c
      · exact nofun
      · rintro a ⟨⟩
        exact ih b rfl
      · exact nofun
  | piece _ hsplit hp ih => exact startsNear_cut ih (split_eq_ok_iff.mp hsplit).2 _ hp

end Segment

/-! ## The kernel in one pass -/

/-- **One pass is enough**, for two arcs, in every function that has a loop in it: the construction of
an arc, the order along an arc, the overlap of the two arcs, the cuts of a circle and of an arc, and
the angles of a boundary. -/
structure Arc.OnePass (a b : Arc ℝ) : Prop where
  ofEnds (center start stop : Point ℝ) (clockwise : Bool) (tol radiusTol : ℝ) :
    Keeps (Curve.ofEndsWithin 1 center start stop clockwise tol radiusTol)
      (Curve.ofEnds center start stop clockwise tol radiusTol)
  orderAlong (points : List (Point ℝ)) :
    Keeps ((Curve.arc a).orderAlongWithin 1 points) (.ok ((Curve.arc a).orderAlong points))
  overlap (tol : ℝ) : Keeps (a.overlapWithin 1 b tol) (a.overlap b tol)
  circleCut (c : Circle ℝ) (points : List (Point ℝ)) (tol : ℝ) :
    Keeps (c.cutWithin 1 points tol) (c.cut points tol)
  cut (points : List (Point ℝ)) (tol : ℝ) : Keeps (a.cutWithin 1 points tol) (a.cut points tol)
  angles (boundary : Boundary ℝ) : Keeps (boundary.anglesWithin 1) (.ok boundary.angles)

lemma Arc.StartsNear.onePass {a b : Arc ℝ} (ha : a.StartsNear) (hb : b.StartsNear) :
    a.OnePass b where
  ofEnds := Curve.keeps_ofEnds
  orderAlong := keeps_orderAlong ha
  overlap := keeps_overlap ha hb
  circleCut := Circle.keeps_cut
  cut := keeps_cut ha
  angles := Boundary.keeps_angles

namespace Angle

/-- **Loops of whole turns end, and where.**  Unwrapping adds the least number of turns that reaches
the start, in as many passes; normalizing gives the one angle of a direction from zero up to a turn;
and the functions of the kernel never need a second pass, on whatever arcs come from the
constructors by drawing them the other way and by splitting them. -/
theorem unwraps_canonically {a b : Arc ℝ} (ha : (Segment.curve (.arc a)).Derived)
    (hb : (Segment.curve (.arc b)).Derived) :
    (∀ angle start : ℝ, ∃ k : ℕ,
      IsLeast {m : ℕ | start ≤ angle + m * (2 * pi)} k ∧
      unwrapAfter angle start = angle + k * (2 * pi) ∧
      (angle < start + 2 * pi → unwrapAfter angle start < start + 2 * pi) ∧
      ∀ limit, unwrapWithin limit angle start
        = if k ≤ limit then some (unwrapAfter angle start) else none) ∧
    (∀ angle r : ℝ, r = normalize angle ↔
      (0 ≤ r ∧ r < 2 * pi) ∧ ∃ n : ℤ, angle = r + n * (2 * pi)) ∧
    a.OnePass b := by
  refine ⟨fun angle start => ?_, eq_normalize_iff, (ha.startsNear a rfl).onePass (hb.startsNear b rfl)⟩
  obtain ⟨k, hk, heq⟩ := unwrapAfter_isLeast angle start
  exact ⟨k, hk, heq, unwrapAfter_lt, fun limit => heq ▸ unwrapWithin_eq hk limit⟩

/-- An arc of half a turn that starts at the greatest angle an arc can start at, and the same arc
drawn the other way. -/
theorem unwraps_canonically_halves :
    (Segment.curve (.arc (.aboutOrigin ⟨-4, 0, 0⟩ ⟨4, 0, 0⟩))).Derived ∧
    (Segment.curve (.arc (Arc.aboutOrigin ⟨-4, 0, 0⟩ ⟨4, 0, 0⟩).reverse)).Derived ∧
    (Arc.aboutOrigin ⟨-4, 0, 0⟩ ⟨4, 0, 0⟩).startAngle = pi ∧
    (Arc.aboutOrigin ⟨-4, 0, 0⟩ ⟨4, 0, 0⟩).OnePass (Arc.aboutOrigin ⟨-4, 0, 0⟩ ⟨4, 0, 0⟩).reverse := by
  have hbuilt : (Segment.curve (.arc (.aboutOrigin ⟨-4, 0, 0⟩ ⟨4, 0, 0⟩))).Built := by
    refine Arc.built_aboutOrigin 4 ?_ (by norm_num) (by norm_num) (.inl ?_)
    · rw [coincidentTol_eq]
      norm_num
    · rw [coincidentTol_eq]
      norm_num
  have hhalf := hbuilt.derived
  have hback := hhalf.reverse
  exact ⟨hhalf, hback, Point.angleXY_left (by norm_num), (unwraps_canonically hhalf hback).2.2⟩

end Angle

end Contour
