import Contour.Drawing
import Contour.Proofs.Distance
import Contour.Proofs.Registry

/-!
# What a drawing shows

An outline is drawn segment by segment, and an operand that stands for no segment ends the drawing with
what was drawn before it.  The angles of an arc are turned into degrees; a reader of the drawing turns
them back, and walks counter-clockwise from the first to the last.

* `Operand.Stand` — operands that stand for segments; `Operand.stand_or_stops` says how an outline may
  fail to.
* `Figure.Draws`, `Entity.Draws` — what is written of a segment.
* `Figure.sample` — the points that a reader of a drawing finds; `Figure.Draws.sample_eq` says that they
  are those of the segment.
* `Drawing.addSegments_of_stand`, `Drawing.addSegments_of_stops` — the run over an outline.
* `Drawing.distinct_withLayer` — a layer is added at most once.
* `Drawing.Written`, `Drawing.outline_written` — what becomes of an outline.
-/

namespace Contour

variable {α : Type}

/-! ## Operands that stand for segments -/

namespace Operand

section Segments

variable {o : Operand α} {outline : List (Operand α)}

/-- Operands that stand for segments, one for one. -/
def Stand (outline : List (Operand α)) (segments : List (Segment α)) : Prop :=
  List.Forall₂ (fun o s => o.require "segment" = .ok s) outline segments

/-- An outline stops at an operand that stands for no segment, the first of its kind. -/
structure Stops (outline : List (Operand α)) (segments : List (Segment α)) (o : Operand α)
    (fault : Fault α) : Prop where
  split : ∃ before rest, outline = before ++ o :: rest ∧ Stand before segments
  fault_eq : o.require "segment" = .error fault

/-- Every outline stands for segments, or stops. -/
lemma stand_or_stops (outline : List (Operand α)) :
    (∃ segments, Stand outline segments) ∨ ∃ segments o fault, Stops outline segments o fault := by
  induction outline with
  | nil => exact .inl ⟨[], .nil⟩
  | cons o rest ih =>
      cases ho : o.require "segment" with
      | error fault => exact .inr ⟨[], o, fault, ⟨[], rest, rfl, .nil⟩, ho⟩
      | ok s =>
          rcases ih with ⟨segments, hrest⟩ | ⟨segments, p, fault, ⟨before, after, heq, hbefore⟩, hfault⟩
          · exact .inl ⟨s :: segments, .cons ho hrest⟩
          · exact .inr ⟨s :: segments, p, fault,
              ⟨o :: before, after, congrArg (o :: ·) heq, .cons ho hbefore⟩, hfault⟩

/-- What is no segment is refused as such. -/
lemma fault_of_not_segment {which : String} {fault : Fault α} (ho : o.isSegment = false)
    (h : o.require which = .error fault) :
    fault = .diagnosed (.ofComplaint (.emptySegment which)) := by
  cases o with
  | segment s => cases ho
  | other =>
      cases h
      rfl

end Segments

end Operand

/-! ## Entities -/

section Figures

variable [Mul α] [Div α] [OfNat α 0] [OfScientific α] [Elementary α]

/-- A figure is that of a segment: of its kind, with its points in the plane, its radius and its angles
in degrees. -/
inductive Figure.Draws : Segment α → Figure α → Prop
  | line (l : Line α) : Draws (.line l) (.line (l.start.withZ 0) (l.stop.withZ 0))
  | circle (c : Circle α) : Draws (.curve (.circle c)) (.circle (c.center.withZ 0) c.radius)
  | arc (a : Arc α) : Draws (.curve (.arc a))
      (.arc (a.center.withZ 0) a.radius (degrees a.startAngle) (degrees a.endAngle))

structure Entity.Draws (layer : String) (s : Segment α) (e : Entity α) : Prop where
  layer_eq : e.layer = layer
  figure : Figure.Draws s e.figure

lemma Figure.draws_ofSegment (s : Segment α) : Draws s (ofSegment s) := by
  cases s with
  | line l => exact .line l
  | curve c =>
      cases c with
      | arc a => exact .arc a
      | circle k => exact .circle k

/-- An arc and its reverse are drawn alike. -/
lemma Figure.draws_reverse (a : Arc α) (f : Figure α) :
    Draws (.curve (.arc a.reverse)) f ↔ Draws (.curve (.arc a)) f := by
  constructor <;> rintro ⟨⟩ <;> exact .arc _

/-- The entities of some segments. -/
def Entity.ofSegments (layer : String) (segments : List (Segment α)) : List (Entity α) :=
  segments.map fun s => ⟨layer, .ofSegment s⟩

lemma Entity.draws_ofSegments (layer : String) (segments : List (Segment α)) :
    List.Forall₂ (Draws layer) segments (ofSegments layer segments) := by
  rw [ofSegments, List.forall₂_map_right_iff, List.forall₂_same]
  exact fun s _ => ⟨rfl, Figure.draws_ofSegment s⟩

end Figures

/-! ## Points of a figure -/

namespace Figure

open Real (pi)

/-- The point of a figure at a parameter, as a reader of the drawing finds it: circles and arcs run
counter-clockwise, and the angles of arcs are in degrees. -/
noncomputable def sample : Figure ℝ → ℝ → Point ℝ
  | line start stop, u => start.lerp stop u
  | circle center radius, u => center.around radius (u * (2 * pi))
  | arc center radius first last, u => center.around radius ((first + u * (last - first)) * (pi / 180))

lemma degrees_eq (θ : ℝ) : degrees θ = θ * (180 / pi) := by
  show θ * ((180.0 : ℝ) / pi) = _
  norm_num

/-- **A drawing shows the points of a segment**, in its plane and in its order. -/
lemma Draws.sample_eq {s : Segment ℝ} {f : Figure ℝ} (h : Draws s f) (u : ℝ) :
    ∃ p, s.sample u = .ok p ∧ f.sample u = p.withZ 0 := by
  cases h with
  | line l => exact ⟨_, rfl, by simp [sample, Point.lerp, Point.withZ]⟩
  | circle k =>
      refine ⟨_, rfl, ?_⟩
      show Point.around _ _ _ = (k.center.around k.radius (0 + u * (2 * pi - 0))).withZ 0
      rw [zero_add, sub_zero]
      rfl
  | arc a =>
      have hangle : (degrees a.startAngle + u * (degrees a.endAngle - degrees a.startAngle)) * (pi / 180)
          = a.startAngle + u * (a.endAngle - a.startAngle) := by
        rw [degrees_eq, degrees_eq]
        field_simp
      refine ⟨_, rfl, ?_⟩
      show Point.around _ _ _ = Point.withZ (a.center.around a.radius _) 0
      rw [hangle]
      rfl

end Figure

namespace Drawing

/-! ## Layers -/

/-- No two layers of a drawing have one name, small and capital letters being the same. -/
def Distinct (d : Drawing α) : Prop := d.layers.Pairwise fun a b => a.toLower ≠ b.toLower

lemma hasLayer_iff {d : Drawing α} {layer : String} :
    d.hasLayer layer = true ↔ ∃ name ∈ d.layers, name.toLower = layer.toLower := by
  simp [hasLayer]

/-- **A layer is added at most once.** -/
lemma distinct_withLayer {d : Drawing α} (h : d.Distinct) (layer : String) :
    (d.withLayer layer).Distinct := by
  unfold withLayer
  split_ifs with hhas
  · exact h
  · rw [hasLayer_iff, not_exists] at hhas
    refine List.pairwise_append.mpr ⟨h, List.pairwise_singleton _ _, fun name hname other hother => ?_⟩
    rw [List.mem_singleton.mp hother]
    exact fun heq => hhas name ⟨hname, heq⟩

/-- A new drawing with a layer is otherwise empty. -/
lemma withLayer_new (layer : String) :
    (new : Drawing α).withLayer layer
      = ⟨metric, ((new : Drawing α).withLayer layer).layers, [], false⟩ := by
  unfold withLayer
  split_ifs <;> rfl

lemma distinct_new : (new : Drawing α).Distinct := by
  have hnames : ["0", "Defpoints", outlineLayer].Pairwise fun a b => a.toLower ≠ b.toLower := by
    decide +kernel
  exact hnames

/-! ## The run over an outline -/

variable [Mul α] [Div α] [OfNat α 0] [OfScientific α] [Elementary α]
  {outline : List (Operand α)} {segments : List (Segment α)}

/-- The drawing with entities added. -/
def extended (d : Drawing α) (entities : List (Entity α)) : Drawing α :=
  { d with entities := d.entities ++ entities }

lemma addSegments_cons_of_ok {o : Operand α} {s : Segment α} (h : o.require "segment" = .ok s)
    (layer : String) (rest : List (Operand α)) (d : Drawing α) :
    addSegments layer (o :: rest) d = addSegments layer rest (d.extended [⟨layer, .ofSegment s⟩]) := by
  have hfirst : addSegment layer o d = (.ok (), d.extended [⟨layer, .ofSegment s⟩]) := by
    simp only [addSegment, h, extended]
  show (addSegment layer o >>= fun _ => addSegments layer rest) d = _
  rw [bind_of_ok (congrArg Prod.fst hfirst), hfirst]

lemma addSegments_cons_of_error {o : Operand α} {fault : Fault α}
    (h : o.require "segment" = .error fault) (layer : String) (rest : List (Operand α))
    (d : Drawing α) :
    addSegments layer (o :: rest) d = (.error fault, d) := by
  have hfirst : addSegment layer o d = (.error fault, d) := by
    simp only [addSegment, h]
  show (addSegment layer o >>= fun _ => addSegments layer rest) d = _
  rw [bind_of_error (congrArg Prod.fst hfirst), hfirst]

/-- **Drawing goes on over operands that stand for segments**, and leaves their entities. -/
lemma addSegments_append {before : List (Operand α)} (h : Operand.Stand before segments)
    (layer : String) (rest : List (Operand α)) (d : Drawing α) :
    addSegments layer (before ++ rest) d
      = addSegments layer rest (d.extended (Entity.ofSegments layer segments)) := by
  induction h generalizing d with
  | nil => simp [Entity.ofSegments, extended]
  | cons ho _ ih =>
      rw [List.cons_append, addSegments_cons_of_ok ho, ih]
      simp [Entity.ofSegments, extended]

lemma addSegments_of_stand (h : Operand.Stand outline segments) (layer : String) (d : Drawing α) :
    addSegments layer outline d = (.ok (), d.extended (Entity.ofSegments layer segments)) := by
  have hrun := addSegments_append h layer [] d
  rwa [List.append_nil] at hrun

lemma addSegments_of_stops {o : Operand α} {fault : Fault α}
    (h : Operand.Stops outline segments o fault) (layer : String) (d : Drawing α) :
    addSegments layer outline d = (.error fault, d.extended (Entity.ofSegments layer segments)) := by
  obtain ⟨⟨before, rest, rfl, hbefore⟩, hfault⟩ := h
  rw [addSegments_append hbefore, addSegments_cons_of_error hfault]

/-- A drawing is written out after its outline was drawn, if all of it was. -/
lemma write_eq (layer : String) (outline : List (Operand α)) (d : Drawing α) :
    write layer outline d = match addSegments layer outline (d.withLayer layer) with
      | (.ok (), d') => (.ok (), { d' with saved := true })
      | (.error fault, d') => (.error fault, d') := by
  show (modify (·.withLayer layer) >>= fun _ => addSegments layer outline >>= fun _ =>
    modify fun d => { d with saved := true } : Drafting α Unit) d = _
  rw [bind_of_ok rfl]
  show (addSegments layer outline >>= _) (d.withLayer layer) = _
  rcases hrun : addSegments layer outline (d.withLayer layer) with ⟨_ | _, d'⟩
  · rw [bind_of_error (congrArg Prod.fst hrun), hrun]
  · rw [bind_of_ok (congrArg Prod.fst hrun), hrun]
    rfl

/-- What becomes of an outline that is drawn on a layer, of a drawing or of a new one that is then
written out. -/
structure Written (layer : String) (outline : List (Operand α)) (d : Drawing α) : Prop where
  /-- An outline of segments is drawn with one entity for each, in their order, and written out. -/
  of_stand : ∀ segments, Operand.Stand outline segments →
    ∃ entities, List.Forall₂ (Entity.Draws layer) segments entities ∧
      addSegments layer outline d = (.ok (), d.extended entities) ∧
      write layer outline new
        = (.ok (), ⟨metric, ((new : Drawing α).withLayer layer).layers, entities, true⟩)
  /-- An operand without a segment ends the drawing with the entities of those before it, and nothing is
  written out. -/
  of_stops : ∀ segments o fault, Operand.Stops outline segments o fault →
    (o.isSegment = false → fault = .diagnosed (.ofComplaint (.emptySegment "segment"))) ∧
    ∃ entities, List.Forall₂ (Entity.Draws layer) segments entities ∧
      addSegments layer outline d = (.error fault, d.extended entities) ∧
      write layer outline new
        = (.error fault, ⟨metric, ((new : Drawing α).withLayer layer).layers, entities, false⟩)
  /-- There is no third case. -/
  stand_or_stops : (∃ segments, Operand.Stand outline segments) ∨
    ∃ segments o fault, Operand.Stops outline segments o fault
  layers_of_same : (∃ name ∈ (new : Drawing α).layers, name.toLower = layer.toLower) →
    (write layer outline new).2.layers = (new : Drawing α).layers
  layers_of_other : (¬ ∃ name ∈ (new : Drawing α).layers, name.toLower = layer.toLower) →
    (write layer outline new).2.layers = (new : Drawing α).layers ++ [layer]
  distinct : (write layer outline new).2.Distinct

lemma layers_write (layer : String) (outline : List (Operand α)) :
    (write layer outline new).2.layers = ((new : Drawing α).withLayer layer).layers := by
  rw [write_eq]
  rcases Operand.stand_or_stops outline with ⟨segments, h⟩ | ⟨segments, o, fault, h⟩
  · rw [addSegments_of_stand h]
    rfl
  · rw [addSegments_of_stops h]
    rfl

lemma written (layer : String) (outline : List (Operand α)) (d : Drawing α) :
    Written layer outline d where
  of_stand segments h := by
    refine ⟨_, Entity.draws_ofSegments layer segments, addSegments_of_stand h layer d, ?_⟩
    rw [write_eq, addSegments_of_stand h, withLayer_new]
    rfl
  of_stops segments o fault h := by
    refine ⟨fun ho => Operand.fault_of_not_segment ho h.fault_eq, _,
      Entity.draws_ofSegments layer segments, addSegments_of_stops h layer d, ?_⟩
    rw [write_eq, addSegments_of_stops h, withLayer_new]
    rfl
  stand_or_stops := Operand.stand_or_stops outline
  layers_of_same h := by
    rw [layers_write, withLayer, if_pos (hasLayer_iff.mpr h)]
  layers_of_other h := by
    rw [layers_write, withLayer, if_neg (mt hasLayer_iff.mp h)]
  distinct := by
    rw [Distinct, layers_write]
    exact distinct_withLayer distinct_new layer

/-- **An outline is drawn as it is.**  Whatever the layer and whatever was drawn before, the operands are
drawn one by one up to the first that stands for no segment, and a new drawing is written out if there
is none such.  Over `ℝ` every figure has the points of its segment and the degrees of an arc span its
sweep.  An arc is drawn the same whichever way it runs. -/
theorem outline_written (layer : String) (outline : List (Operand α)) (d : Drawing α) :
    Written layer outline d ∧
      (∀ (s : Segment ℝ) (f : Figure ℝ), Figure.Draws s f →
        ∀ u, ∃ p, s.sample u = .ok p ∧ f.sample u = p.withZ 0) ∧
      (∀ a : Arc ℝ, Figure.degrees a.endAngle - Figure.degrees a.startAngle
        = a.sweep * (180 / Real.pi)) ∧
      ∀ (a : Arc α) (f : Figure α),
        Figure.Draws (.curve (.arc a.reverse)) f ↔ Figure.Draws (.curve (.arc a)) f := by
  refine ⟨written layer outline d, fun _ _ h => h.sample_eq, fun a => ?_, Figure.draws_reverse⟩
  rw [Figure.degrees_eq, Figure.degrees_eq, Arc.sweep, sub_mul]

/-- A line is drawn on a layer of its own; what follows it is no segment, and nothing is written out. -/
theorem outline_written_until_other :
    Operand.Stops (α := ℝ) [.segment (.line ⟨⟨0, 0, 0⟩, ⟨10, 0, 0⟩⟩), .other,
        .segment (.curve (.circle ⟨⟨5, 5, 0⟩, 2⟩))] [.line ⟨⟨0, 0, 0⟩, ⟨10, 0, 0⟩⟩] .other
        (.diagnosed (.ofComplaint (.emptySegment "segment"))) ∧
      write (α := ℝ) "Cut" [.segment (.line ⟨⟨0, 0, 0⟩, ⟨10, 0, 0⟩⟩), .other,
          .segment (.curve (.circle ⟨⟨5, 5, 0⟩, 2⟩))] new
        = (.error (.diagnosed (.ofComplaint (.emptySegment "segment"))),
            ⟨metric, ["0", "Defpoints", "OUTLINE", "Cut"], [⟨"Cut", .line ⟨0, 0, 0⟩ ⟨10, 0, 0⟩⟩],
              false⟩) := by
  have hstops : Operand.Stops (α := ℝ) [.segment (.line ⟨⟨0, 0, 0⟩, ⟨10, 0, 0⟩⟩), .other,
      .segment (.curve (.circle ⟨⟨5, 5, 0⟩, 2⟩))] [.line ⟨⟨0, 0, 0⟩, ⟨10, 0, 0⟩⟩] .other
      (.diagnosed (.ofComplaint (.emptySegment "segment"))) :=
    ⟨⟨[.segment (.line ⟨⟨0, 0, 0⟩, ⟨10, 0, 0⟩⟩)], [.segment (.curve (.circle ⟨⟨5, 5, 0⟩, 2⟩))], rfl,
      .cons rfl .nil⟩, rfl⟩
  have hother : (new : Drawing ℝ).hasLayer "Cut" = false := by decide +kernel
  obtain ⟨-, entities, hdraws, -, hwrite⟩ := (outline_written "Cut" _ new).1.of_stops _ _ _ hstops
  obtain ⟨e, rest, ⟨hlayer, hfigure⟩, hnone, rfl⟩ := List.forall₂_cons_left_iff.mp hdraws
  rw [List.forall₂_nil_left_iff.mp hnone, withLayer, hother] at hwrite
  refine ⟨hstops, hwrite.trans ?_⟩
  rcases e with ⟨layer, figure⟩
  cases hlayer
  cases hfigure
  rfl

end Drawing

end Contour
