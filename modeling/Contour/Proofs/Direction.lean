import Contour.Drawing
import Contour.Proofs.Partition
import Contour.Proofs.Sweep

/-!
# The direction of drawing

An arc keeps the direction in which it was drawn, in the order of its trace points and in a flag.
Its angles are counter-clockwise all the same, and its ends are read through `Arc.start` and
`Arc.stop`, which do not depend on the direction.  So an arc and the same arc drawn the other way
cannot be told apart, whatever the arithmetic and whatever the fields hold.

* `Arc.pointAt_reverse`, `Arc.overlap_reverse`, `Curve.intersect_reverse` — intersections in either
  position, from the ends up.
* `Segment.cut_reverse`, `Operand.split_reverse` — the pieces of the reverse are the reverses of the
  pieces, last one first.
* `Operand.Alike` — two operands that no operation tells apart, by its result, its error, its reports
  or what it does to a model or a drawing.
* `Arc.direction_hidden` — an arc and its reverse are alike.
-/

namespace Contour

variable {α : Type}

/-! ## Ends and boxes -/

namespace Arc

section Ends

variable [Add α] [Sub α] [Mul α] [LE α] [DecidableLE α] [Elementary α]

lemma pointAt_reverse (a b : Arc α) : a.reverse.pointAt b = a.pointAt b := by
  funext shift angle tol
  simp only [pointAt, start_reverse, stop_reverse]
  rfl

lemma pointAt_reverse_right (a b : Arc α) : a.pointAt b.reverse = a.pointAt b := by
  funext shift angle tol
  simp only [pointAt, start_reverse, stop_reverse]
  rfl

variable [Neg α] [LT α] [DecidableLT α] [OfNat α 0] [OfNat α 1] [OfNat α 2] [OfScientific α]

lemma box_reverse (a : Arc α) : a.reverse.box = a.box := by
  rw [box, start_reverse, stop_reverse]
  rfl

end Ends

section Overlap

variable [Add α] [Sub α] [Mul α] [Div α] [Neg α] [LT α] [LE α] [DecidableLT α] [DecidableLE α]
  [BEq α] [OfNat α 0] [OfNat α 2] [OfScientific α] [Elementary α]

/-- The runs of two arcs are runs of angles; only their ends could show a direction. -/
lemma overlap_reverse (a b : Arc α) : a.reverse.overlap b = a.overlap b := by
  funext tol
  simp only [overlap, touching, pointAt_reverse]
  rfl

lemma overlap_reverse_right (a b : Arc α) : a.overlap b.reverse = a.overlap b := by
  funext tol
  simp only [overlap, touching, pointAt_reverse_right]
  rfl

end Overlap

end Arc

/-! ## Intersections -/

section Intersections

variable [Add α] [Sub α] [Mul α] [Div α] [Neg α] [LT α] [LE α] [DecidableLT α] [DecidableLE α]
  [BEq α] [OfNat α 0] [OfNat α 2] [OfScientific α] [Elementary α]

namespace Curve

lemma intersectSame_reverse (a : Arc α) (c : Curve α) :
    (arc a.reverse).intersectSame c = (arc a).intersectSame c := by
  funext tol
  cases c with
  | arc b => exact congrFun (Arc.overlap_reverse a b) tol
  | circle k =>
      show Except.ok (Intersection.run a.reverse.start a.reverse.stop) = _
      rw [Arc.start_reverse, Arc.stop_reverse]
      rfl

lemma intersectSame_reverse_right (c : Curve α) (a : Arc α) :
    c.intersectSame (arc a.reverse) = c.intersectSame (arc a) := by
  funext tol
  cases c with
  | arc b => exact congrFun (Arc.overlap_reverse_right b a) tol
  | circle k =>
      show Except.ok (Intersection.run a.reverse.start a.reverse.stop) = _
      rw [Arc.start_reverse, Arc.stop_reverse]
      rfl

lemma intersect_reverse (a : Arc α) (c : Curve α) :
    (arc a.reverse).intersect c = (arc a).intersect c := by
  funext tol radiusTol
  show intersectArcs (arc a.reverse) c tol radiusTol = intersectArcs (arc a) c tol radiusTol
  rw [intersectArcs, intersectSame_reverse]
  rfl

lemma intersect_reverse_right (c : Curve α) (a : Arc α) :
    c.intersect (arc a.reverse) = c.intersect (arc a) := by
  funext tol radiusTol
  cases c with
  | arc b =>
      show (arc b).intersectArcs (arc a.reverse) tol radiusTol = _
      rw [intersectArcs, intersectSame_reverse_right]
      rfl
  | circle k =>
      show (circle k).intersectArcs (arc a.reverse) tol radiusTol = _
      rw [intersectArcs, intersectSame_reverse_right]
      rfl

end Curve

namespace Segment

variable [OfNat α 1] [Widening α]

lemma intersect_reverse (a : Arc α) (s : Segment α) :
    (curve (.arc a.reverse)).intersect s = (curve (.arc a)).intersect s := by
  cases s with
  | line l => rfl
  | curve c => exact Curve.intersect_reverse a c

lemma intersect_reverse_right (s : Segment α) (a : Arc α) :
    s.intersect (curve (.arc a.reverse)) = s.intersect (curve (.arc a)) := by
  cases s with
  | line l => rfl
  | curve c => exact Curve.intersect_reverse_right c a

end Segment

end Intersections

/-! ## Pieces -/

/-- The same pieces drawn the other way, in the order in which they are then drawn. -/
def Segment.reverseAll (pieces : List (Segment α)) : List (Segment α) := pieces.reverse.map reverse

lemma unlogged_map {β γ : Type} (f : β → γ) (result : Except (Fault α) β) :
    unlogged (result.map f) = f <$> unlogged result := by
  cases result <;> rfl

section Pieces

variable [Add α] [Sub α] [Mul α] [Div α] [LT α] [LE α] [DecidableLT α] [DecidableLE α] [BEq α]
  [OfNat α 0] [OfNat α 2] [OfScientific α] [Elementary α]

lemma Segment.cut_reverse (a : Arc α) (points : List (Point α)) (tol : α) :
    (curve (.arc a.reverse)).cut points tol = ((curve (.arc a)).cut points tol).map reverseAll := by
  have hpieces : ∀ pieces : List (Arc α), (pieces.reverse.map Arc.reverse).map (curve ∘ .arc)
      = reverseAll (pieces.map (curve ∘ .arc)) := fun pieces => by
    rw [reverseAll, ← List.map_reverse, List.map_map, List.map_map]
    rfl
  show (a.reverse.cut points tol >>= fun pieces => pure (pieces.map (curve ∘ .arc)))
    = Except.map reverseAll (a.cut points tol >>= fun pieces => pure (pieces.map (curve ∘ .arc)))
  rw [Arc.cut_reverse]
  cases a.cut points tol with
  | error fault => rfl
  | ok pieces => exact congrArg Except.ok (hpieces pieces)

/-- **The pieces of the reverse** are the reverses of the pieces, and the same points are refused. -/
lemma Operand.split_reverse [OfNat α 1] [Textual α] (a : Arc α) (points : List (Datum α)) (tol : α) :
    split (.segment (.curve (.arc a.reverse))) points tol
      = Segment.reverseAll <$> split (.segment (.curve (.arc a))) points tol := by
  have hsplit : ∀ s : Segment α, split (.segment s) points tol
      = unlogged (points.mapM Datum.toPoint) >>= fun cuts =>
          logged (s.checkCuts cuts tol) >>= fun _ => unlogged (s.cut cuts tol) := fun _ => rfl
  rw [hsplit, hsplit]
  simp only [map_bind, ← unlogged_map, ← Segment.cut_reverse]
  rfl

end Pieces

/-! ## Patches -/

section Patches

variable [Add α] [Sub α] [Mul α] [Div α] [LT α] [LE α] [DecidableLT α] [DecidableLE α] [BEq α]
  [OfNat α 0] [OfNat α 1] [OfNat α 2] [OfScientific α] [Elementary α]

lemma Segment.extrude_reverse (a : Arc α) :
    (curve (.arc a.reverse)).extrude = (curve (.arc a)).extrude := by
  funext model zTop zBottom
  simp only [extrude, Curve.start, Curve.stop, Arc.start_reverse, Arc.stop_reverse]
  rfl

lemma Segment.swept_reverse (a : Arc α) :
    (curve (.arc a.reverse)).swept = (curve (.arc a)).swept := by
  funext zTop zBottom
  simp only [swept, Curve.start, Curve.stop, Arc.start_reverse, Arc.stop_reverse]
  rfl

lemma Heights.ask_reverse (h : Heights α) (a : Arc α) :
    h.ask (.curve (.arc a.reverse)) = h.ask (.curve (.arc a)) := by
  funext model
  simp only [ask, Segment.extrude_reverse, Curve.start, Curve.stop, Arc.start_reverse,
    Arc.stop_reverse]
  rfl

lemma Heights.extrude_reverse (h : Heights α) (model : Option (Model α)) (a : Arc α) :
    h.extrude model (.segment (.curve (.arc a.reverse)))
      = h.extrude model (.segment (.curve (.arc a))) := by
  have hread : ∀ s : Segment α,
      (Building.onLog (logged (.ok s)) : Building α (Segment α)) = pure s := fun _ => rfl
  simp only [extrude, place, Operand.require, hread, pure_bind, ask_reverse]
  rfl

end Patches

/-! ## Operands -/

section Operands

variable [Add α] [Sub α] [Mul α] [Div α] [Neg α] [LT α] [LE α] [DecidableLT α] [DecidableLE α]
  [BEq α] [OfNat α 0] [OfNat α 1] [OfNat α 2] [OfScientific α] [Elementary α] [Widening α]
  [Textual α]

/-- **Two operands that no operation tells apart.**  Operations that report or that change a model or
a drawing do so alike, and the patches over both have one shape in any two models of their own. -/
structure Operand.Alike (o o' : Operand α) : Prop where
  length : o.length = o'.length
  sample : ∀ u, o.sample u = o'.sample u
  contains : ∀ p tol, o.contains p tol = o'.contains p tol
  box : ∀ tol, o.box tol = o'.box tol
  intersect_left : ∀ b tol radiusTol, o.intersect b tol radiusTol = o'.intersect b tol radiusTol
  intersect_right : ∀ b tol radiusTol,
    Operand.intersect b o tol radiusTol = Operand.intersect b o' tol radiusTol
  extrude : ∀ model zTop zBottom tol,
    Operand.extrude model o zTop zBottom tol = Operand.extrude model o' zTop zBottom tol
  shape : ∀ zTop zBottom tol w w' p p',
    (Operand.extrude (some .keeping) o zTop zBottom tol w).1 = .ok p →
    (Operand.extrude (some .keeping) o' zTop zBottom tol w').1 = .ok p' → p.shape = p'.shape
  addSegment : ∀ layer, Drawing.addSegment layer o = Drawing.addSegment layer o'

/-- **The direction of drawing is hidden.**  Drawing an arc the other way twice is to leave it as it
is; an arc and its reverse are alike; and the pieces of the reverse are the pieces drawn the other
way, last one first. -/
theorem Arc.direction_hidden (a : Arc α) :
    a.reverse.reverse = a ∧
      Operand.Alike (.segment (.curve (.arc a))) (.segment (.curve (.arc a.reverse))) ∧
      ∀ points tol, Operand.split (.segment (.curve (.arc a.reverse))) points tol
        = Segment.reverseAll <$> Operand.split (.segment (.curve (.arc a))) points tol := by
  refine ⟨reverse_reverse a, ?_, Operand.split_reverse a⟩
  constructor
  case length => rfl
  case sample => exact fun u => rfl
  case contains => exact fun p tol => rfl
  case box =>
    intro tol
    show logged (.ok a.box) = logged (.ok a.reverse.box)
    rw [box_reverse]
  case intersect_left =>
    intro b tol radiusTol
    have hread : ∀ s : Segment α, Operand.intersect (.segment s) b tol radiusTol
        = logged (b.require "second segment" >>= fun t => s.intersect t tol radiusTol) :=
      fun _ => rfl
    rw [hread, hread]
    simp only [Segment.intersect_reverse]
  case intersect_right =>
    intro b tol radiusTol
    have hread : ∀ t : Segment α, Operand.intersect b (.segment t) tol radiusTol
        = logged (b.require "first segment" >>= fun s => s.intersect t tol radiusTol) :=
      fun _ => rfl
    rw [hread, hread]
    simp only [Segment.intersect_reverse_right]
  case extrude =>
    intro model zTop zBottom tol
    exact (Heights.extrude_reverse _ model a).symm
  case shape =>
    intro zTop zBottom tol w w' p p' hp hp'
    have hswept := Operand.swept_of_extrude hp'
    rw [Segment.swept_reverse, Operand.swept_of_extrude hp] at hswept
    exact Except.ok.inj hswept
  case addSegment => exact fun layer => rfl

end Operands

end Contour
