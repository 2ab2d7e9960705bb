import Mathlib
import Contour.Model.Basic

/-!
# A registry and its index

A registry keeps its patches twice: in a list, in the order of registration, and in an index by id.
Patches come and go by single calls, rejected ones among them, and by cutting the list back to a
mark.  This file says that list and index stay in step through every run of calls.

* `bind_of_ok`, `bind_of_error` — runs of two steps with a state.
* `Registry.Consistent` — the invariant: the index lists the same patches, no id occurs twice, and
  every registered id was handed out.
* `Request`, `Request.run` — the calls that a model with a registry answers.
* `Change`, `Request.run_change` — what one call can do to a registry; `Consistent.of_change`.
* `Registry.Reaches` — runs of calls that never leave the registry shorter than a mark.
* `Consistent.rollback_of_reaches` — cutting back to a mark undoes everything since.
* `Registry.Kept`, `Registry.kept_of_reaches` — what holds of a registry after every run.
-/

namespace Contour

/-! ## Runs of two steps -/

section Runs

variable {ε σ β γ : Type} {first : ExceptT ε (StateM σ) β} {next : β → ExceptT ε (StateM σ) γ} {s : σ}

/-- A run whose first step succeeds goes on with what that step leaves. -/
lemma bind_of_ok {b : β} (h : (first s).1 = .ok b) : (first >>= next) s = next b (first s).2 := by
  show (match first s with | (b, s') => ExceptT.bindCont next b s' : Except ε γ × σ) = _
  rcases hfirst : first s with ⟨result, s'⟩
  rw [hfirst] at h
  cases h
  rfl

/-- A run whose first step fails is over. -/
lemma bind_of_error {fault : ε} (h : (first s).1 = .error fault) :
    (first >>= next) s = (.error fault, (first s).2) := by
  show (match first s with | (b, s') => ExceptT.bindCont next b s' : Except ε γ × σ) = _
  rcases hfirst : first s with ⟨result, s'⟩
  rw [hfirst] at h
  cases h
  rfl

/-- A run whose result is only worded anew ends where it ended before. -/
lemma bind_pure_eq (first : ExceptT ε (StateM σ) β) (f : β → γ) (s : σ) :
    (first >>= fun b => pure (f b)) s = ((first s).1.map f, (first s).2) := by
  cases h : (first s).1 with
  | error fault => exact bind_of_error h
  | ok b => exact bind_of_ok h

/-- A run of two steps that succeeds is two that succeed. -/
lemma exists_of_bind_ok {c : γ} (h : ((first >>= next) s).1 = .ok c) :
    ∃ b, (first s).1 = .ok b ∧ (next b (first s).2).1 = .ok c := by
  cases hfirst : (first s).1 with
  | error fault =>
      rw [bind_of_error hfirst] at h
      cases h
  | ok b =>
      rw [bind_of_ok hfirst] at h
      exact ⟨b, rfl, h⟩

end Runs

variable {α : Type}

namespace Registry

/-! ## The invariant -/

/-- The list and the index of a registry agree, no id is registered twice, and every registered
patch was handed out. -/
structure Consistent (r : Registry α) : Prop where
  distinct : (r.surfaces.map Patch.id).Nodup
  index_eq : r.index = r.surfaces.map fun p => (p.id, p)
  lt_issued : ∀ p ∈ r.surfaces, p.id < r.issued

/-- Two registries that hold the same patches, in the list and in the index. -/
structure Unchanged (r r' : Registry α) : Prop where
  surfaces : r'.surfaces = r.surfaces
  index : r'.index = r.index

/-- The registry with one more patch at the end. -/
def push (r : Registry α) (p : Patch α) : Registry α :=
  { r with surfaces := r.surfaces ++ [p], index := r.index ++ [(p.id, p)] }

/-- The registry with one more shape at the end, under the next id. -/
def grow (r : Registry α) (shape : Shape α) : Registry α :=
  { r.push ⟨r.issued, shape⟩ with issued := r.issued + 1 }

/-- The registry with its first `k` patches only. -/
def shorten (r : Registry α) (k : ℕ) : Registry α :=
  { r with surfaces := r.surfaces.take k, index := r.index.take k }

@[simp] lemma surfaces_shorten (r : Registry α) (k : ℕ) :
    (r.shorten k).surfaces = r.surfaces.take k := rfl

@[simp] lemma index_shorten (r : Registry α) (k : ℕ) : (r.shorten k).index = r.index.take k := rfl

lemma Unchanged.refl (r : Registry α) : r.Unchanged r := ⟨rfl, rfl⟩

lemma consistent_empty : (empty : Registry α).Consistent := by
  constructor
  · simp [empty]
  · simp [empty]
  · simp [empty]

namespace Consistent

variable {r : Registry α} {p : Patch α} {id k : ℕ}

/-- A look-up in the index finds what a search of the list finds. -/
lemma get?_eq (h : r.Consistent) (id : ℕ) : r.get? id = r.surfaces.find? fun p => p.id == id := by
  rw [Registry.get?, h.index_eq, List.find?_map, Option.map_map]
  exact Option.map_id_apply

lemma get?_eq_some_iff (h : r.Consistent) : r.get? id = some p ↔ p ∈ r.surfaces ∧ p.id = id := by
  rw [h.get?_eq]
  constructor
  · intro hfind
    exact ⟨List.mem_of_find?_eq_some hfind, by simpa using List.find?_some hfind⟩
  · rintro ⟨hmem, hid⟩
    cases hfind : r.surfaces.find? fun q => q.id == id with
    | none =>
        have hnone := List.find?_eq_none.mp hfind p hmem
        simp [hid] at hnone
    | some q =>
        have hq : q.id = id := by simpa using List.find?_some hfind
        have hsame : q = p := List.inj_on_of_nodup_map h.distinct (List.mem_of_find?_eq_some hfind)
          hmem (hq.trans hid.symm)
        rw [hsame]

lemma get?_eq_none_iff (h : r.Consistent) : r.get? id = none ↔ ∀ p ∈ r.surfaces, p.id ≠ id := by
  rw [h.get?_eq, List.find?_eq_none]
  simp

/-- An id that was not handed out yet is not registered. -/
lemma get?_of_issued_le (h : r.Consistent) (hid : r.issued ≤ id) : r.get? id = none := by
  rw [h.get?_eq_none_iff]
  intro p hp
  have hlt := h.lt_issued p hp
  omega

/-- The entries that a rollback takes out of the index are those of the patches beyond the mark. -/
lemma filter_index (h : r.Consistent) (k : ℕ) :
    r.index.filter (fun entry => !((r.surfaces.drop k).map Patch.id).contains entry.1)
      = r.index.take k := by
  set removed := (r.surfaces.drop k).map Patch.id with hremoved
  have hdistinct := h.distinct
  rw [← List.take_append_drop k r.surfaces, List.map_append, List.nodup_append] at hdistinct
  have hkept : (r.surfaces.take k).filter (fun p => !removed.contains p.id) = r.surfaces.take k := by
    rw [List.filter_eq_self]
    intro p hp
    have hid : p.id ∉ removed := fun hmem => hdistinct.2.2 _ (List.mem_map_of_mem hp) _ hmem rfl
    simpa using hid
  have hgone : (r.surfaces.drop k).filter (fun p => !removed.contains p.id) = [] := by
    rw [List.filter_eq_nil_iff]
    intro p hp
    have hid : p.id ∈ removed := List.mem_map_of_mem hp
    simpa using hid
  have hsurfaces : r.surfaces.filter (fun p => !removed.contains p.id) = r.surfaces.take k := by
    calc r.surfaces.filter (fun p => !removed.contains p.id)
        = (r.surfaces.take k ++ r.surfaces.drop k).filter (fun p => !removed.contains p.id) := by
          rw [List.take_append_drop]
      _ = r.surfaces.take k := by rw [List.filter_append, hkept, hgone, List.append_nil]
  rw [h.index_eq, List.filter_map, ← List.map_take]
  exact congrArg _ hsurfaces

/-- Cutting back to a mark within the list shortens list and index alike. -/
lemma rollback_eq (h : r.Consistent) (hk : k ≤ r.size) : r.rollback k = .ok (r.shorten k) := by
  have hmark : ¬ ((k : ℤ) < 0 || decide ((r.size : ℤ) < k)) = true := by simpa using hk
  rw [rollback, if_neg hmark, Int.toNat_natCast]
  simp only [h.filter_index]
  rfl

end Consistent

end Registry

/-! ## Calls -/

/-- The calls that a model which keeps its patches answers, and the making of a patch that is not
registered yet. -/
inductive Request (α : Type) where
  | issue (shape : Shape α)
  | makeCylinder (description : Except (Fault α) (Cylinder α))
  | makePlane (description : Except (Fault α) (Plane α))
  | add (value : Option (Patch α))
  | look (id : ℕ)
  | checkpoint
  | rollback (mark : ℤ)

/-- What a call answers. -/
inductive Answer (α : Type) where
  | patch (answer : Option (Patch α))
  | mark (m : ℕ)
  | done

/-- A result of no use: a failure, or no patch for one that was asked for. -/
def Vain : Except (Fault α) (Answer α) → Prop
  | .error _ | .ok (.patch none) => True
  | _ => False

namespace Registering

variable {r : Registry α} {p : Patch α}

lemma add_of_fresh (hfresh : r.get? p.id = none) : add p r = (.ok (), r.push p) := by
  simp only [add, change, Registry.add, hfresh]
  rfl

lemma add_of_taken {q : Patch α} (htaken : r.get? p.id = some q) :
    add p r = (.error (.badValue (.alreadyRegistered p.id)), r) := by
  simp only [add, change, Registry.add, htaken]
  rfl

lemma register_error (fault : Fault α) :
    register (.error fault) r = (if fault.isBadValue then .ok none else .error fault, r) := by
  cases hbad : fault.isBadValue with
  | false => simp only [register, hbad]; rfl
  | true => simp only [register, hbad]; rfl

/-- A registry whose next id is free registers a shape under it. -/
lemma register_ok (hfresh : r.get? r.issued = none) (shape : Shape α) :
    register (.ok shape) r = (.ok (some ⟨r.issued, shape⟩), r.grow shape) := by
  have hissue : (issue shape r).1 = .ok ⟨r.issued, shape⟩ := rfl
  have hadd : add ⟨r.issued, shape⟩ (r.issue shape).2
      = (.ok (), (r.issue shape).2.push ⟨r.issued, shape⟩) := add_of_fresh hfresh
  show (issue shape >>= fun p => add p >>= fun _ => pure (some p)) r = _
  rw [bind_of_ok hissue]
  refine (bind_of_ok (congrArg Prod.fst hadd)).trans ?_
  rw [hadd]
  rfl

/-- A shape is registered the same by a caller that takes no patch for an answer. -/
lemma orNone_register_ok (hfresh : r.get? r.issued = none) (shape : Shape α) :
    orNone (register (.ok shape)) r = (.ok (some ⟨r.issued, shape⟩), r.grow shape) := by
  rw [orNone, register_ok hfresh]

lemma orNone_register_error {fault : Fault α} (hfault : fault.isBadValue = true) (r : Registry α) :
    orNone (register (.error fault)) r = (.ok none, r) := by
  rw [orNone, register_error, if_pos hfault]

end Registering

namespace Request

def run : Request α → Registering α (Answer α)
  | issue shape => do return .patch (some (← Registering.issue shape))
  | makeCylinder description => do return .patch (← Model.keeping.makeCylinder description)
  | makePlane description => do return .patch (← Model.keeping.makePlane description)
  | add value => do
    Model.keeping.add value
    return .done
  | look id => do return .patch (← Model.keeping.get? id)
  | checkpoint => do return .mark (← Model.keeping.checkpoint)
  | rollback mark => do
    Model.keeping.rollback mark
    return .done

/-- A patch that is to be registered was handed out before. -/
def Admissible (r : Registry α) : Request α → Prop
  | add (some p) => p.id < r.issued
  | _ => True

end Request

/-! ## What one call can do -/

open Registry

/-- What one call can do to a registry: hand out an id, register a patch that was handed out, or cut
the list back. -/
inductive Change (r : Registry α) : Registry α → Prop
  | issue {n : ℕ} (h : r.issued ≤ n) : Change r { r with issued := n }
  | push {p : Patch α} {n : ℕ} (h : r.issued ≤ n) (hfresh : r.get? p.id = none) (hid : p.id < n) :
      Change r { r.push p with issued := n }
  | shorten {k : ℕ} (h : k ≤ r.size) : Change r (r.shorten k)

lemma Change.refl (r : Registry α) : Change r r := Change.issue le_rfl

lemma Registry.Consistent.of_change {r r' : Registry α} (h : r.Consistent) (hchange : Change r r') :
    r'.Consistent := by
  obtain ⟨hdistinct, hindex, hissued⟩ := h
  cases hchange with
  | issue hle => exact ⟨hdistinct, hindex, fun p hp => (hissued p hp).trans_le hle⟩
  | @push p n hle hfresh hid =>
      have hnew := (Consistent.get?_eq_none_iff ⟨hdistinct, hindex, hissued⟩).mp hfresh
      constructor
      · show ((r.surfaces ++ [p]).map Patch.id).Nodup
        rw [List.map_append, List.nodup_append]
        refine ⟨hdistinct, List.nodup_singleton _, ?_⟩
        rintro _ hmem _ hlast rfl
        obtain ⟨q, hq, hqid⟩ := List.mem_map.mp hmem
        exact hnew q hq (hqid.trans (List.mem_singleton.mp hlast))
      · show r.index ++ [(p.id, p)] = (r.surfaces ++ [p]).map fun p => (p.id, p)
        rw [hindex, List.map_append]
        rfl
      · intro q hq
        rcases List.mem_append.mp hq with hold | hlast
        · exact (hissued q hold).trans_le hle
        · rw [List.mem_singleton.mp hlast]
          exact hid
  | @shorten k hle =>
      constructor
      · exact ((List.take_sublist k r.surfaces).map Patch.id).nodup hdistinct
      · show r.index.take k = (r.surfaces.take k).map fun p => (p.id, p)
        rw [hindex, List.map_take]
      · exact fun q hq => hissued q (List.mem_of_mem_take hq)

/-- The next id is always free, so that every shape can be registered. -/
lemma Registry.Consistent.change_grow {r : Registry α} (h : r.Consistent) (shape : Shape α) :
    Change r (r.grow shape) :=
  Change.push (Nat.le_succ _) (h.get?_of_issued_le le_rfl) (Nat.lt_succ_self _)

namespace Registering

variable {r : Registry α}

/-- What a call that describes a patch does: it registers the shape, or changes nothing. -/
lemma register_change (h : r.Consistent) (description : Except (Fault α) (Shape α)) :
    Change r (register description r).2 := by
  cases description with
  | error fault =>
      rw [register_error]
      exact Change.refl r
  | ok shape =>
      rw [register_ok (h.get?_of_issued_le le_rfl)]
      exact h.change_grow shape

/-- A description that yields no patch changes nothing. -/
lemma register_unchanged (h : r.Consistent) {description : Except (Fault α) (Shape α)}
    (hnone : ∀ p, (register description r).1 ≠ .ok (some p)) :
    r.Unchanged (register description r).2 := by
  cases description with
  | error fault =>
      rw [register_error]
      exact Unchanged.refl r
  | ok shape =>
      refine absurd ?_ (hnone ⟨r.issued, shape⟩)
      rw [register_ok (h.get?_of_issued_le le_rfl)]

/-- A change that is refused leaves the registry as it was. -/
lemma change_eq_of_error {f : Registry α → Except (Fault α) (Registry α)} {fault : Fault α}
    (h : (change f r).1 = .error fault) : (change f r).2 = r := by
  unfold change at h ⊢
  cases hf : f r with
  | error fault' => rfl
  | ok r' =>
      rw [hf] at h
      cases h

lemma add_change {p : Patch α} (hp : p.id < r.issued) : Change r (add p r).2 := by
  cases hget : r.get? p.id with
  | some q =>
      rw [add_of_taken hget]
      exact Change.refl r
  | none =>
      rw [add_of_fresh hget]
      exact Change.push le_rfl hget hp

lemma rollback_change (h : r.Consistent) (mark : ℤ) : Change r (change (·.rollback mark) r).2 := by
  by_cases hmark : (mark < 0 || decide ((r.size : ℤ) < mark)) = true
  · have hrefused : r.rollback mark = .error (.badValue (.invalidMark mark)) := if_pos hmark
    simp only [change, hrefused]
    exact Change.refl r
  · rw [Bool.or_eq_true, not_or, decide_eq_true_iff, decide_eq_true_iff] at hmark
    obtain ⟨k, rfl⟩ := Int.eq_ofNat_of_zero_le (not_lt.mp hmark.1)
    have hk : k ≤ r.size := by omega
    simp only [change, h.rollback_eq hk]
    exact Change.shorten hk

end Registering

namespace Request

variable {r : Registry α} {q : Request α}

lemma run_makeCylinder (description : Except (Fault α) (Cylinder α)) (r : Registry α) :
    (makeCylinder description).run r
      = ((Registering.register (description.map .cylinder) r).1.map Answer.patch,
          (Registering.register (description.map .cylinder) r).2) :=
  bind_pure_eq _ _ _

lemma run_makePlane (description : Except (Fault α) (Plane α)) (r : Registry α) :
    (makePlane description).run r
      = ((Registering.register (description.map .plane) r).1.map Answer.patch,
          (Registering.register (description.map .plane) r).2) :=
  bind_pure_eq _ _ _

lemma run_add (value : Option (Patch α)) (r : Registry α) :
    (add value).run r
      = ((Registering.change (·.addValue value) r).1.map fun _ => Answer.done,
          (Registering.change (·.addValue value) r).2) :=
  bind_pure_eq (Registering.change (·.addValue value)) _ _

lemma run_add_of_fresh {p : Patch α} (hfresh : r.get? p.id = none) :
    (add (some p)).run r = (.ok .done, r.push p) := by
  have hadd : Registering.change (·.addValue (some p)) r = (.ok (), r.push p) :=
    Registering.add_of_fresh hfresh
  rw [run_add, hadd]
  rfl

lemma run_add_of_taken {p q : Patch α} (htaken : r.get? p.id = some q) :
    (add (some p)).run r = (.error (.badValue (.alreadyRegistered p.id)), r) := by
  have hadd : Registering.change (·.addValue (some p)) r
      = (.error (.badValue (.alreadyRegistered p.id)), r) := Registering.add_of_taken htaken
  rw [run_add, hadd]
  rfl

lemma run_rollback (mark : ℤ) (r : Registry α) :
    (rollback mark).run r
      = ((Registering.change (·.rollback mark) r).1.map fun _ => Answer.done,
          (Registering.change (·.rollback mark) r).2) :=
  bind_pure_eq _ _ _

/-- **What one call can do to a registry.** -/
lemma run_change (h : r.Consistent) (hq : q.Admissible r) : Change r (q.run r).2 := by
  cases q with
  | issue shape => exact Change.issue (Nat.le_succ _)
  | makeCylinder description =>
      rw [run_makeCylinder]
      exact Registering.register_change h _
  | makePlane description =>
      rw [run_makePlane]
      exact Registering.register_change h _
  | add value =>
      rw [run_add]
      cases value with
      | none => exact Change.refl r
      | some p => exact Registering.add_change hq
  | look id => exact Change.refl r
  | checkpoint => exact Change.refl r
  | rollback mark =>
      rw [run_rollback]
      exact Registering.rollback_change h mark

/-- **A call in vain changes nothing** of what is registered. -/
lemma unchanged_of_vain (h : r.Consistent) (hvain : Vain (q.run r).1) : r.Unchanged (q.run r).2 := by
  have hregister : ∀ description, Vain ((Registering.register description r).1.map Answer.patch) →
      r.Unchanged (Registering.register description r).2 := by
    intro description hnone
    refine Registering.register_unchanged h fun p hp => ?_
    rw [hp] at hnone
    exact hnone
  have hchange : ∀ f, Vain ((Registering.change f r).1.map fun _ => (.done : Answer α)) →
      r.Unchanged (Registering.change f r).2 := by
    intro f hnone
    cases hf : (Registering.change f r).1 with
    | error fault =>
        rw [Registering.change_eq_of_error hf]
        exact Unchanged.refl r
    | ok u =>
        rw [hf] at hnone
        exact hnone.elim
  cases q with
  | issue shape => exact ⟨rfl, rfl⟩
  | makeCylinder description =>
      rw [run_makeCylinder] at hvain ⊢
      exact hregister _ hvain
  | makePlane description =>
      rw [run_makePlane] at hvain ⊢
      exact hregister _ hvain
  | add value =>
      rw [run_add] at hvain ⊢
      exact hchange _ hvain
  | look id => exact Unchanged.refl r
  | checkpoint => exact Unchanged.refl r
  | rollback mark =>
      rw [run_rollback] at hvain ⊢
      exact hchange _ hvain

end Request

/-! ## Runs of calls -/

namespace Registry

variable {r r' : Registry α} {mark : ℕ}

/-- Runs of calls that never leave the registry shorter than a mark. -/
def Reaches (mark : ℕ) : Registry α → Registry α → Prop :=
  Relation.ReflTransGen fun r r' =>
    (∃ q : Request α, q.Admissible r ∧ (q.run r).2 = r') ∧ mark ≤ r'.size

lemma Consistent.of_reaches (h : r.Consistent) (hrun : Reaches mark r r') : r'.Consistent := by
  induction hrun with
  | refl => exact h
  | tail _ hstep ih =>
      obtain ⟨⟨q, hq, rfl⟩, -⟩ := hstep
      exact ih.of_change (q.run_change ih hq)

/-- What was registered at a mark is still there, as long as no call cuts below the mark. -/
lemma Consistent.prefix_of_reaches (h : r.Consistent) (hrun : Reaches r.size r r') :
    r.surfaces <+: r'.surfaces := by
  induction hrun with
  | refl => exact List.prefix_rfl
  | @tail r₁ r₂ hrun hstep ih =>
      obtain ⟨⟨q, hq, hanswer⟩, hsize⟩ := hstep
      have hchange : Change r₁ r₂ := hanswer ▸ q.run_change (h.of_reaches hrun) hq
      cases hchange with
      | issue _ => exact ih
      | push _ _ _ => exact ih.trans (List.prefix_append _ _)
      | shorten _ => exact List.prefix_of_prefix_length_le ih (List.take_prefix _ _) hsize

/-- A registry that still begins as it did at a mark is cut back to what it was. -/
lemma Consistent.rollback_of_begins (h : r.Consistent) (h' : r'.Consistent)
    (hbegins : r.surfaces <+: r'.surfaces) : ∃ r'', r'.rollback r.size = .ok r'' ∧ r.Unchanged r'' := by
  have hsurfaces : (r'.shorten r.size).surfaces = r.surfaces :=
    (List.prefix_iff_eq_take.mp hbegins).symm
  refine ⟨r'.shorten r.size, h'.rollback_eq hbegins.length_le, hsurfaces, ?_⟩
  rw [h.index_eq, ← hsurfaces, index_shorten, h'.index_eq, surfaces_shorten, List.map_take]

/-- **Cutting back to a mark undoes everything since.** -/
lemma Consistent.rollback_of_reaches (h : r.Consistent) (hrun : Reaches r.size r r') :
    ∃ r'', r'.rollback r.size = .ok r'' ∧ r.Unchanged r'' :=
  h.rollback_of_begins (h.of_reaches hrun) (h.prefix_of_reaches hrun)

/-- **What holds of a registry after every run of calls.** -/
structure Kept (r : Registry α) : Prop where
  distinct : (r.surfaces.map Patch.id).Nodup
  look_some : ∀ id p, (Model.keeping.get? id r).1 = .ok (some p) ↔ p ∈ r.surfaces ∧ p.id = id
  look_none : ∀ id, (Model.keeping.get? id r).1 = .ok none ↔ ∀ p ∈ r.surfaces, p.id ≠ id
  /-- The cylinders and the planes keep the order of registration. -/
  ordered : r.cylinders.Sublist r.surfaces ∧ r.planes.Sublist r.surfaces
  /-- Every registered patch is in exactly one of the two. -/
  parted : ∀ p ∈ r.surfaces, Xor (p ∈ r.cylinders) (p ∈ r.planes)
  /-- A shape is registered under the next id. -/
  made : (∀ c, (Request.makeCylinder (.ok c)).run r
      = (.ok (.patch (some ⟨r.issued, .cylinder c⟩)), r.grow (.cylinder c)))
    ∧ ∀ p, (Request.makePlane (.ok p)).run r
      = (.ok (.patch (some ⟨r.issued, .plane p⟩)), r.grow (.plane p))
  /-- A patch is added at the end, unless one with its id is registered. -/
  added : ∀ p, (∀ q ∈ r.surfaces, q.id ≠ p.id) →
    (Request.add (some p)).run r = (.ok .done, r.push p)
  doubled : ∀ p, ∀ q ∈ r.surfaces, q.id = p.id →
    (Request.add (some p)).run r = (.error (.badValue (.alreadyRegistered p.id)), r)
  /-- A call that fails, or has no patch to answer with, changes nothing. -/
  vain : ∀ q : Request α, q.Admissible r → Vain (q.run r).1 → r.Unchanged (q.run r).2
  /-- A rollback to a mark restores what was registered when the mark was given, unless a call since
  then left the registry shorter. -/
  restored : ∀ m r₀ r', (Request.run .checkpoint r) = (.ok (.mark m), r₀) → Reaches m r₀ r' →
    ∃ r'', (Request.rollback m).run r' = (.ok .done, r'') ∧ r.Unchanged r''

lemma cylinder_xor_plane {p : Patch α} (hp : p ∈ r.surfaces) :
    Xor (p ∈ r.cylinders) (p ∈ r.planes) := by
  rw [cylinders, planes, List.mem_filter, List.mem_filter]
  cases p.shape with
  | cylinder c => simp [hp, Shape.isCylinder, Shape.isPlane, Xor]
  | plane q => simp [hp, Shape.isCylinder, Shape.isPlane, Xor]

/-- **A registry is kept through every run of calls.** -/
theorem kept_of_reaches (hrun : Reaches 0 empty r) : r.Kept := by
  have h : r.Consistent := consistent_empty.of_reaches hrun
  have hlook : ∀ id, (Model.keeping.get? id r).1 = .ok (r.get? id) := fun id => rfl
  constructor
  case distinct => exact h.distinct
  case look_some =>
    intro id p
    rw [hlook, Except.ok.injEq, h.get?_eq_some_iff]
  case look_none =>
    intro id
    rw [hlook, Except.ok.injEq, h.get?_eq_none_iff]
  case ordered => exact ⟨List.filter_sublist, List.filter_sublist⟩
  case parted => exact fun p => cylinder_xor_plane
  case made =>
    have hfresh := h.get?_of_issued_le le_rfl
    constructor
    · intro c
      rw [Request.run_makeCylinder, Except.map, Registering.register_ok hfresh]
      rfl
    · intro p
      rw [Request.run_makePlane, Except.map, Registering.register_ok hfresh]
      rfl
  case added => exact fun p hfree => Request.run_add_of_fresh (h.get?_eq_none_iff.mpr hfree)
  case doubled =>
    exact fun p q hq hid => Request.run_add_of_taken (h.get?_eq_some_iff.mpr ⟨hq, hid⟩)
  case vain => exact fun q _ => q.unchanged_of_vain h
  case restored =>
    intro m r₀ r' hmark hsince
    cases hmark
    obtain ⟨r'', hrollback, hsame⟩ := h.rollback_of_reaches hsince
    refine ⟨r'', ?_, hsame⟩
    rw [Request.run_rollback]
    simp only [Registering.change, Registry.checkpoint, hrollback]
    rfl

/-- A wall two high, and a pillar beside it. -/
def wall : Plane ℤ := ⟨⟨⟨0, 0, 2⟩, ⟨1, 0, 2⟩, ⟨1, 0, 0⟩, ⟨0, 0, 0⟩⟩, ⟨0, 1, 0⟩, 2⟩

def pillar : Cylinder ℤ := ⟨⟨3, 0, 0⟩, 1, 0, 6, 0, 2⟩

def walled : Registry ℤ := ⟨[⟨0, .plane wall⟩], [(0, ⟨0, .plane wall⟩)], 1⟩

/-- The registry in which the pillar stands after the wall. -/
def furnished : Registry ℤ :=
  ⟨[⟨0, .plane wall⟩, ⟨1, .cylinder pillar⟩],
    [(0, ⟨0, .plane wall⟩), (1, ⟨1, .cylinder pillar⟩)], 2⟩

/-- The pillar is made, taken back, registered again, and refused when it is registered once more. -/
theorem kept_of_reaches_furnished : Reaches 0 empty furnished ∧ furnished.Kept := by
  have hwall : Reaches 0 empty walled :=
    .single ⟨⟨.makePlane (.ok wall), trivial, rfl⟩, Nat.zero_le _⟩
  have hpillar : Reaches 0 empty furnished :=
    hwall.tail ⟨⟨.makeCylinder (.ok pillar), trivial, rfl⟩, Nat.zero_le _⟩
  have hback : Reaches 0 empty { walled with issued := 2 } :=
    hpillar.tail ⟨⟨.rollback 1, trivial, rfl⟩, Nat.zero_le _⟩
  have hagain : Reaches 0 empty furnished :=
    hback.tail ⟨⟨.add (some ⟨1, .cylinder pillar⟩), Nat.one_lt_two, rfl⟩, Nat.zero_le _⟩
  have hrefused : Reaches 0 empty furnished :=
    hagain.tail ⟨⟨.add (some ⟨1, .cylinder pillar⟩), Nat.one_lt_two, rfl⟩, Nat.zero_le _⟩
  exact ⟨hrefused, kept_of_reaches hrefused⟩

end Registry

end Contour
