import Contour.Proofs.MeetingCuts
import Contour.Proofs.Reports

/-!
# The table of all intersections

All pairs of an outline are met row by row, and what is found is listed with its two positions.  The
file says what the list holds and in which order, and what happens if a pair has no result: nothing is
looked at before its turn, so that the first such pair in the order of the table decides.  In particular
a value that is no segment is refused when the first row reaches it, unless a pair before it failed
otherwise.

* `mem_pairs_iff`, `pairwise_pairs` — the pairs of a list, and their order.
* `forall₂_of_mapM`, `mapM_eq_error_iff` — what a traversal returns, and where it fails.
* `Operand.Entry`, `Operand.Total` — the table, and tables without a gap.
* `Operand.IsTable`, `Operand.FirstFault` — what is returned, and what is refused.
* `Operand.intersectAll_tabulates` — that is all that happens; over the real numbers, tables of
  constructed segments have no gap.
* `Operand.intersectAll_divides` — two circles so large that they fail before what is no segment.
-/

namespace Contour

/-! ## Pairs -/

section Pairs

variable {β : Type} {items : List (β × ℕ)}

lemma pairwise_zipIdx (items : List β) : items.zipIdx.Pairwise fun a b => a.2 < b.2 := by
  rw [← List.pairwise_map (f := Prod.snd), List.zipIdx_map_snd]
  exact List.pairwise_lt_range'

/-- Numbered items are paired in the order of their numbers. -/
lemma mem_pairs_iff (h : items.Pairwise fun a b => a.2 < b.2) (a b : β × ℕ) :
    (a, b) ∈ pairs items ↔ a ∈ items ∧ b ∈ items ∧ a.2 < b.2 := by
  induction items with
  | nil => simp [pairs]
  | cons first rest ih =>
      obtain ⟨hfirst, hrest⟩ := List.pairwise_cons.mp h
      rw [pairs, List.mem_append, List.mem_map, ih hrest]
      constructor
      · rintro (⟨c, hc, hpair⟩ | ⟨ha, hb, hlt⟩)
        · cases hpair
          exact ⟨List.mem_cons_self, List.mem_cons_of_mem _ hc, hfirst _ hc⟩
        · exact ⟨List.mem_cons_of_mem _ ha, List.mem_cons_of_mem _ hb, hlt⟩
      · rintro ⟨ha, hb, hlt⟩
        rcases List.mem_cons.mp ha with rfl | hleft
        · rcases List.mem_cons.mp hb with rfl | hright
          · exact absurd hlt (lt_irrefl _)
          · exact .inl ⟨b, hright, rfl⟩
        · rcases List.mem_cons.mp hb with rfl | hright
          · exact absurd (hfirst a hleft) hlt.asymm
          · exact .inr ⟨hleft, hright, hlt⟩

/-- The positions of a pair. -/
def positions (p : (β × ℕ) × (β × ℕ)) : ℕ × ℕ := (p.1.2, p.2.2)

/-- Row by row, and from left to right in each row. -/
abbrev Precedes (p q : ℕ × ℕ) : Prop := toLex p < toLex q

/-- The pairs of numbered items stand row by row. -/
lemma pairwise_pairs (h : items.Pairwise fun a b => a.2 < b.2) :
    (pairs items).Pairwise fun p q => Precedes (positions p) (positions q) := by
  induction items with
  | nil => exact .nil
  | cons first rest ih =>
      obtain ⟨hfirst, hrest⟩ := List.pairwise_cons.mp h
      refine List.pairwise_append.mpr ⟨?_, ih hrest, fun p hp q hq => ?_⟩
      · refine List.pairwise_map.mpr (hrest.imp fun {a b} hlt => ?_)
        exact Prod.Lex.toLex_lt_toLex.mpr (.inr ⟨rfl, hlt⟩)
      · obtain ⟨c, -, rfl⟩ := List.mem_map.mp hp
        have hrow := hfirst _ ((mem_pairs_iff hrest q.1 q.2).mp hq).1
        exact Prod.Lex.toLex_lt_toLex.mpr (.inl hrow)

/-- Whatever precedes a position of the first row stands in that row. -/
lemma of_precedes_first {p : ℕ × ℕ} {k : ℕ} (h : Precedes p (0, k)) : p.1 = 0 ∧ p.2 < k := by
  rcases Prod.Lex.toLex_lt_toLex.mp h with hrow | ⟨hrow, hcolumn⟩
  · exact absurd hrow (Nat.not_lt_zero _)
  · exact ⟨hrow, hcolumn⟩

/-- What stands before a pair is what precedes it. -/
lemma mem_before_iff {before after : List ((β × ℕ) × (β × ℕ))} {p q : (β × ℕ) × (β × ℕ)}
    (h : items.Pairwise fun a b => a.2 < b.2) (hsplit : pairs items = before ++ p :: after) :
    q ∈ before ↔ q ∈ pairs items ∧ Precedes (positions q) (positions p) := by
  have horder := pairwise_pairs h
  rw [hsplit, List.pairwise_append, List.pairwise_cons] at horder
  obtain ⟨-, ⟨hafter, -⟩, hbefore⟩ := horder
  rw [hsplit]
  refine ⟨fun hq => ⟨List.mem_append_left _ hq, hbefore q hq p List.mem_cons_self⟩, ?_⟩
  rintro ⟨hq, hprecedes⟩
  rcases List.mem_append.mp hq with hq | hq
  · exact hq
  rcases List.mem_cons.mp hq with rfl | hq
  · exact absurd hprecedes (lt_irrefl _)
  · exact absurd hprecedes (hafter q hq).asymm

end Pairs

/-! ## Traversals that fail -/

section Traversals

variable {ε β γ : Type} {f : β → Except ε γ} {items : List β}

lemma forall₂_of_mapM {ys : List γ} (h : items.mapM f = .ok ys) :
    List.Forall₂ (fun y x => f x = .ok y) ys items := by
  obtain ⟨hlength, hat⟩ := mapM_getElem? h
  refine List.forall₂_iff_get.mpr ⟨hlength, fun k hk hk' => ?_⟩
  obtain ⟨y, hy, hget⟩ := hat k _ (List.getElem?_eq_getElem hk')
  rw [List.getElem?_eq_getElem hk, Option.some.injEq] at hget
  simpa [hget] using hy

/-- A traversal fails with the first step that does. -/
lemma mapM_eq_error_iff {e : ε} : items.mapM f = .error e ↔ ∃ before x after,
    items = before ++ x :: after ∧ (∀ y ∈ before, ∃ r, f y = .ok r) ∧ f x = .error e := by
  constructor
  · intro h
    induction items with
    | nil => cases h
    | cons first rest ih =>
        rw [List.mapM_cons] at h
        cases hfirst : f first with
        | error e' =>
            rw [hfirst] at h
            cases h
            exact ⟨[], first, rest, rfl, nofun, hfirst⟩
        | ok r =>
            cases hrest : rest.mapM f with
            | ok rs =>
                rw [hfirst, hrest] at h
                cases h
            | error e' =>
                rw [hfirst, hrest] at h
                cases h
                obtain ⟨before, x, after, rfl, hbefore, hx⟩ := ih hrest
                exact ⟨first :: before, x, after, rfl, List.forall_mem_cons.mpr ⟨⟨r, hfirst⟩, hbefore⟩,
                  hx⟩
  · rintro ⟨before, x, after, rfl, hbefore, hx⟩
    induction before with
    | nil =>
        rw [List.nil_append, List.mapM_cons, hx]
        rfl
    | cons first before ih =>
        obtain ⟨⟨r, hr⟩, hrest⟩ := List.forall_mem_cons.mp hbefore
        rw [List.cons_append, List.mapM_cons, hr, ih hrest]
        rfl

end Traversals

/-! ## The table -/

lemma Intersection.isFinding_iff {α : Type} (r : Intersection α) :
    r.isFinding = true ↔ r.points ≠ [] ∨ r.flag ≠ .plain := by
  simp [isFinding, isHit, size, List.length_pos_iff]

namespace Operand

variable {α : Type}

/-- The refusal of an operand that is no segment: it is the second of its pair, unless the table starts
with it. -/
def refusal (outline : List (Operand α)) : Refusal α :=
  .ofComplaint (.emptySegment (if outline[0]?.any isSegment then "second segment" else "first segment"))

/-- The first operand that is no segment. -/
structure FirstOther (outline : List (Operand α)) (k : ℕ) : Prop where
  other : outline[k]? = some .other
  segments : ∀ j < k, ∀ o, outline[j]? = some o → o.isSegment = true

lemma exists_firstOther {outline : List (Operand α)} (h : ∃ o ∈ outline, o.isSegment = false) :
    ∃ k, FirstOther outline k := by
  have hsome : ∃ k : ℕ, outline[k]? = some Operand.other := by
    obtain ⟨o, ho, hother⟩ := h
    obtain ⟨k, hk⟩ := List.mem_iff_getElem?.mp ho
    cases o with
    | other => exact ⟨k, hk⟩
    | segment s => cases hother
  classical
  refine ⟨Nat.find hsome, Nat.find_spec hsome, fun j hj o ho => ?_⟩
  cases o with
  | other => exact absurd ho (Nat.find_min hsome hj)
  | segment s => rfl

section Tables

variable [Add α] [Sub α] [Mul α] [Div α] [Neg α] [LT α] [LE α] [DecidableLT α]
  [DecidableLE α] [BEq α] [OfNat α 0] [OfNat α 1] [OfNat α 2] [OfScientific α] [Elementary α]
  [Widening α]

/-- What two operands of an outline have in common, the first of which stands before the second. -/
def Entry (outline : List (Operand α)) (tol radiusTol : α) (position : ℕ × ℕ)
    (result : Except (Fault α) (Intersection α)) : Prop :=
  position.1 < position.2 ∧ ∃ a b, outline[position.1]? = some a ∧ outline[position.2]? = some b ∧
    a.intersection b tol radiusTol = result

/-- A table in which every pair has a result. -/
def Total (outline : List (Operand α)) (tol radiusTol : α) : Prop :=
  ∀ position result, Entry outline tol radiusTol position result → ∃ r, result = .ok r

/-- **The list of all findings**: row by row, each pair that has points or a flag, once. -/
structure IsTable (outline : List (Operand α)) (tol radiusTol : α)
    (found : List (ℕ × ℕ × Intersection α)) : Prop where
  sorted : found.Pairwise fun x y => Precedes (x.1, x.2.1) (y.1, y.2.1)
  mem_iff : ∀ i j r, (i, j, r) ∈ found ↔
    Entry outline tol radiusTol (i, j) (.ok r) ∧ (r.points ≠ [] ∨ r.flag ≠ .plain)

/-- The first pair that fails, and how. -/
structure FirstFault (outline : List (Operand α)) (tol radiusTol : α) (position : ℕ × ℕ)
    (fault : Fault α) : Prop where
  entry : Entry outline tol radiusTol position (.error fault)
  returned : ∀ earlier result, Precedes earlier position → Entry outline tol radiusTol earlier result →
    ∃ r, result = .ok r

variable {outline : List (Operand α)} {tol radiusTol : α}

/-- The intersection of two numbered operands, with the numbers. -/
def numbered (tol radiusTol : α) (p : (Operand α × ℕ) × (Operand α × ℕ)) :
    Except (Fault α) (ℕ × ℕ × Intersection α) := do
  return (p.1.2, p.2.2, ← p.1.1.intersection p.2.1 tol radiusTol)

/-- The findings, before anything is reported. -/
def findings (outline : List (Operand α)) (tol radiusTol : α) :
    Except (Fault α) (List (ℕ × ℕ × Intersection α)) :=
  ((pairs outline.zipIdx).mapM (numbered tol radiusTol)).map (·.filter fun r => r.2.2.isFinding)

lemma intersectAll_eq (outline : List (Operand α)) (tol radiusTol : α) (log : Log α) :
    intersectAll outline tol radiusTol log
      = (findings outline tol radiusTol, log.after (findings outline tol radiusTol)) := by
  have hread : intersectAll outline tol radiusTol
      = logged ((pairs outline.zipIdx).mapM (numbered tol radiusTol) >>= fun results =>
          pure (results.filter fun r => r.2.2.isFinding)) := rfl
  have hmap : ((pairs outline.zipIdx).mapM (numbered tol radiusTol) >>= fun results =>
      pure (results.filter fun r => r.2.2.isFinding)) = findings outline tol radiusTol := by
    rw [findings]
    cases (pairs outline.zipIdx).mapM (numbered tol radiusTol) <;> rfl
  rw [hread, hmap, logged_eq]

lemma numbered_eq_ok_iff {p : (Operand α × ℕ) × (Operand α × ℕ)} {x : ℕ × ℕ × Intersection α} :
    numbered tol radiusTol p = .ok x ↔
      p.1.1.intersection p.2.1 tol radiusTol = .ok x.2.2 ∧ positions p = (x.1, x.2.1) := by
  obtain ⟨i, j, r⟩ := x
  rw [numbered]
  cases p.1.1.intersection p.2.1 tol radiusTol with
  | error fault => simp [bind, Except.bind]
  | ok r' => simp [bind, Except.bind, pure, Except.pure, positions, and_comm, and_assoc]

lemma numbered_eq_error_iff {p : (Operand α × ℕ) × (Operand α × ℕ)} {fault : Fault α} :
    numbered tol radiusTol p = .error fault ↔
      p.1.1.intersection p.2.1 tol radiusTol = .error fault := by
  rw [numbered]
  cases p.1.1.intersection p.2.1 tol radiusTol <;> simp [bind, Except.bind, pure, Except.pure]

/-- The entries of a table are the pairs that are looked at. -/
lemma entry_iff {position : ℕ × ℕ} {result : Except (Fault α) (Intersection α)} :
    Entry outline tol radiusTol position result ↔ ∃ p ∈ pairs outline.zipIdx,
      positions p = position ∧ p.1.1.intersection p.2.1 tol radiusTol = result := by
  obtain ⟨i, j⟩ := position
  constructor
  · rintro ⟨hlt, a, b, ha, hb, hresult⟩
    refine ⟨((a, i), (b, j)), (mem_pairs_iff (pairwise_zipIdx outline) _ _).mpr ⟨?_, ?_, hlt⟩, rfl,
      hresult⟩
    · exact List.mk_mem_zipIdx_iff_getElem?.mpr ha
    · exact List.mk_mem_zipIdx_iff_getElem?.mpr hb
  · rintro ⟨⟨⟨a, i'⟩, b, j'⟩, hmem, hpositions, hresult⟩
    cases hpositions
    obtain ⟨ha, hb, hlt⟩ := (mem_pairs_iff (pairwise_zipIdx outline) _ _).mp hmem
    exact ⟨hlt, a, b, List.mk_mem_zipIdx_iff_getElem?.mp ha, List.mk_mem_zipIdx_iff_getElem?.mp hb,
      hresult⟩

/-! ## What is returned -/

/-- Findings are a table. -/
lemma isTable_of_findings {found : List (ℕ × ℕ × Intersection α)}
    (h : findings outline tol radiusTol = .ok found) : IsTable outline tol radiusTol found := by
  unfold findings at h
  cases hresults : (pairs outline.zipIdx).mapM (numbered tol radiusTol) with
  | error fault =>
      rw [hresults] at h
      cases h
  | ok results =>
      rw [hresults] at h
      cases h
      have hall := forall₂_of_mapM hresults
      constructor
      · have hpositions : results.map (fun x => (x.1, x.2.1)) = (pairs outline.zipIdx).map positions := by
          rw [← List.forall₂_eq_eq_eq, List.forall₂_map_left_iff, List.forall₂_map_right_iff]
          exact hall.imp fun x p hx => (numbered_eq_ok_iff.mp hx).2.symm
        have hsorted := List.pairwise_map.mpr (pairwise_pairs (pairwise_zipIdx outline))
        rw [← hpositions] at hsorted
        exact (List.pairwise_map.mp hsorted).filter _
      · intro i j r
        rw [List.mem_filter, Intersection.isFinding_iff, entry_iff]
        refine and_congr_left fun _ => ⟨fun hmem => ?_, ?_⟩
        · obtain ⟨p, hp, hx⟩ := exists_of_forall₂ hall hmem
          obtain ⟨hresult, hposition⟩ := numbered_eq_ok_iff.mp hx
          exact ⟨p, hp, hposition, hresult⟩
        · rintro ⟨p, hp, hposition, hresult⟩
          obtain ⟨x, hx, hnumbered⟩ := exists_of_forall₂ hall.flip hp
          have hsame : numbered tol radiusTol p = .ok (i, j, r) :=
            numbered_eq_ok_iff.mpr ⟨hresult, hposition⟩
          rwa [Except.ok.inj (hnumbered.symm.trans hsame)] at hx

lemma findings_of_total (h : Total outline tol radiusTol) :
    ∃ found, findings outline tol radiusTol = .ok found := by
  have hstep : ∀ p ∈ pairs outline.zipIdx, ∃ x, numbered tol radiusTol p = .ok x ∧ True := by
    intro p hp
    obtain ⟨r, hr⟩ := h _ _ (entry_iff.mpr ⟨p, hp, rfl, rfl⟩)
    exact ⟨(p.1.2, p.2.2, r), numbered_eq_ok_iff.mpr ⟨hr, rfl⟩, trivial⟩
  obtain ⟨results, hresults, -⟩ := mapM_ok (P := fun _ _ => True) hstep
  rw [findings, hresults]
  exact ⟨_, rfl⟩

/-! ## What is refused -/

lemma findings_eq_error_iff {fault : Fault α} : findings outline tol radiusTol = .error fault ↔
    ∃ position, FirstFault outline tol radiusTol position fault := by
  have hmap : findings outline tol radiusTol = .error fault ↔
      (pairs outline.zipIdx).mapM (numbered tol radiusTol) = .error fault := by
    rw [findings]
    cases (pairs outline.zipIdx).mapM (numbered tol radiusTol) <;> simp [Except.map]
  have horder := pairwise_zipIdx outline
  rw [hmap, mapM_eq_error_iff]
  constructor
  · rintro ⟨before, p, after, hsplit, hbefore, hp⟩
    have hmem : p ∈ pairs outline.zipIdx := by simp [hsplit]
    refine ⟨positions p, entry_iff.mpr ⟨p, hmem, rfl, numbered_eq_error_iff.mp hp⟩,
      fun earlier result hearlier hentry => ?_⟩
    obtain ⟨q, hq, rfl, hresult⟩ := entry_iff.mp hentry
    obtain ⟨x, hx⟩ := hbefore q ((mem_before_iff horder hsplit).mpr ⟨hq, hearlier⟩)
    exact ⟨x.2.2, hresult.symm.trans (numbered_eq_ok_iff.mp hx).1⟩
  · rintro ⟨position, hentry, hreturned⟩
    obtain ⟨p, hp, rfl, hresult⟩ := entry_iff.mp hentry
    obtain ⟨before, after, hsplit⟩ := List.append_of_mem hp
    refine ⟨before, p, after, hsplit, fun q hq => ?_, numbered_eq_error_iff.mpr hresult⟩
    obtain ⟨hmem, hprecedes⟩ := (mem_before_iff horder hsplit).mp hq
    obtain ⟨r, hr⟩ := hreturned _ _ hprecedes (entry_iff.mpr ⟨q, hmem, rfl, rfl⟩)
    exact ⟨(q.1.2, q.2.2, r), numbered_eq_ok_iff.mpr ⟨hr, rfl⟩⟩

/-- **The first row reaches what is no segment**, in the pair of the first operand with it, unless the
row fails before. -/
lemma firstFault_of_other (hlength : 2 ≤ outline.length) {k : ℕ} (hk : FirstOther outline k)
    (hrow : ∀ j < k, ∀ result, Entry outline tol radiusTol (0, j) result → ∃ r, result = .ok r) :
    FirstFault outline tol radiusTol (0, max 1 k) (.diagnosed (refusal outline)) := by
  obtain ⟨hother, hsegments⟩ := hk
  cases k with
  | zero =>
      have hrefusal : refusal outline = .ofComplaint (.emptySegment "first segment") := by
        rw [refusal, hother]
        rfl
      obtain ⟨b, hb⟩ : ∃ b, outline[1]? = some b := ⟨_, List.getElem?_eq_getElem hlength⟩
      rw [hrefusal]
      refine ⟨⟨Nat.zero_lt_one, .other, b, hother, hb, rfl⟩, fun earlier result hprecedes hentry => ?_⟩
      obtain ⟨hzero, hcolumn⟩ := of_precedes_first hprecedes
      have hlt := hentry.1
      omega
  | succ k =>
      obtain ⟨a, ha⟩ : ∃ a, outline[0]? = some a :=
        ⟨_, List.getElem?_eq_getElem (Nat.zero_lt_of_lt hlength)⟩
      have hfirst : a.isSegment = true := hsegments 0 k.succ_pos a ha
      have hrefusal : refusal outline = .ofComplaint (.emptySegment "second segment") := by
        rw [refusal, ha, Option.any_some, hfirst, if_pos rfl]
      have hrefused : a.intersection .other tol radiusTol
          = .error (.diagnosed (.ofComplaint (.emptySegment "second segment"))) := by
        cases a with
        | other => cases hfirst
        | _ => rfl
      rw [hrefusal, Nat.max_eq_right (Nat.le_add_left 1 k)]
      refine ⟨⟨k.succ_pos, a, .other, ha, hother, hrefused⟩, fun earlier result hprecedes hentry => ?_⟩
      obtain ⟨hzero, hcolumn⟩ := of_precedes_first hprecedes
      rw [← Prod.mk.eta (p := earlier), hzero] at hentry
      exact hrow earlier.2 hcolumn result hentry

lemma intersectAll_of_firstFault {position : ℕ × ℕ} {d : Refusal α}
    (h : FirstFault outline tol radiusTol position (.diagnosed d)) (log : Log α) :
    intersectAll outline tol radiusTol log = (.error (.diagnosed d), log.report d.diagnostic) := by
  rw [intersectAll_eq, findings_eq_error_iff.mpr ⟨position, h⟩]
  rfl

lemma intersectAll_of_total (h : Total outline tol radiusTol) (log : Log α) : ∃ found,
    intersectAll outline tol radiusTol log = (.ok found, log) ∧ IsTable outline tol radiusTol found := by
  obtain ⟨found, hfound⟩ := findings_of_total h
  refine ⟨found, ?_, isTable_of_findings hfound⟩
  rw [intersectAll_eq, hfound]
  rfl

lemma intersectAll_of_short (h : outline.length < 2) (log : Log α) :
    intersectAll outline tol radiusTol log = (.ok [], log) := by
  match outline with
  | [] | [_] => rfl

/-! ## Tables of segments that meet -/

/-- **What is expected of a table.**  Segments have a table of what their pairs have in common; whatever
else is listed is refused, and reported once. -/
structure Tabulates (outline : List (Operand α)) (tol radiusTol : α) (log : Log α) : Prop where
  table : (∀ o ∈ outline, o.isSegment = true) → ∃ found,
    intersectAll outline tol radiusTol log = (.ok found, log) ∧ IsTable outline tol radiusTol found
  refused : 2 ≤ outline.length → (∃ o ∈ outline, o.isSegment = false) →
    intersectAll outline tol radiusTol log
      = (.error (.diagnosed (refusal outline)), log.report (refusal outline).diagnostic)
  short : outline.length < 2 → intersectAll outline tol radiusTol log = (.ok [], log)

/-- Segments of which any two have a result. -/
def AllMeet (outline : List (Operand α)) (tol radiusTol : α) : Prop :=
  ∀ a ∈ outline, ∀ b ∈ outline, a.isSegment = true → b.isSegment = true →
    ∃ r, a.intersection b tol radiusTol = .ok r

lemma AllMeet.tabulates (h : AllMeet outline tol radiusTol) (log : Log α) :
    Tabulates outline tol radiusTol log where
  table hsegments := by
    refine intersectAll_of_total (fun position result => ?_) log
    rintro ⟨-, a, b, ha, hb, rfl⟩
    have hleft := List.mem_of_getElem? ha
    have hright := List.mem_of_getElem? hb
    exact h a hleft b hright (hsegments a hleft) (hsegments b hright)
  refused hlength hother := by
    obtain ⟨k, hk⟩ := exists_firstOther hother
    refine intersectAll_of_firstFault (firstFault_of_other hlength hk fun j hj result => ?_) log
    rintro ⟨hlt, a, b, ha, hb, rfl⟩
    exact h a (List.mem_of_getElem? ha) b (List.mem_of_getElem? hb)
      (hk.segments 0 (hlt.trans hj) a ha) (hk.segments j hj b hb)
  short hshort := intersectAll_of_short hshort log

end Tables

/-- Over the real numbers, constructed segments always have a result. -/
lemma allMeet_of_built {outline : List (Operand ℝ)}
    (h : ∀ o ∈ outline, o.isSegment = true → ∃ s, o = .segment s ∧ s.Built) :
    AllMeet outline coincidentTol radiusTol := by
  intro a ha b hb hleft hright
  obtain ⟨s, rfl, hs⟩ := h a ha hleft
  obtain ⟨t, rfl, ht⟩ := h b hb hright
  obtain ⟨r, hr, -⟩ := Segment.intersect_meets hs ht
  exact ⟨r, hr⟩

/-- **The table of all intersections.**  If every pair has a result, the table lists what is found;
otherwise the first pair without a result decides how it fails.  What is no segment is refused in the
first row, unless that row failed before.  Over the real numbers it never does, so that every outline of
constructed segments has its table. -/
theorem intersectAll_tabulates {α : Type} [Add α] [Sub α] [Mul α] [Div α] [Neg α] [LT α] [LE α]
    [DecidableLT α] [DecidableLE α] [BEq α] [OfNat α 0] [OfNat α 1] [OfNat α 2] [OfScientific α]
    [Elementary α] [Widening α] (outline : List (Operand α)) (tol radiusTol : α) (log : Log α) :
    (Total outline tol radiusTol → ∃ found,
      intersectAll outline tol radiusTol log = (.ok found, log) ∧
        IsTable outline tol radiusTol found) ∧
    (∀ fault, (intersectAll outline tol radiusTol log).1 = .error fault ↔
      ∃ position, FirstFault outline tol radiusTol position fault) ∧
    (2 ≤ outline.length → ∀ k, FirstOther outline k →
      (∀ j < k, ∀ result, Entry outline tol radiusTol (0, j) result → ∃ r, result = .ok r) →
      intersectAll outline tol radiusTol log
        = (.error (.diagnosed (refusal outline)), log.report (refusal outline).diagnostic)) ∧
    (outline.length < 2 → intersectAll outline tol radiusTol log = (.ok [], log)) ∧
    ∀ (built : List (Operand ℝ)) (log : Log ℝ),
      (∀ o ∈ built, o.isSegment = true → ∃ s, o = .segment s ∧ s.Built) →
      Tabulates built coincidentTol Contour.radiusTol log := by
  refine ⟨fun htotal => intersectAll_of_total htotal log, fun fault => ?_, fun hlength k hk hrow => ?_,
    fun hshort => intersectAll_of_short hshort log, fun built log hbuilt => ?_⟩
  · rw [intersectAll_eq]
    exact findings_eq_error_iff
  · exact intersectAll_of_firstFault (firstFault_of_other hlength hk hrow) log
  · exact (allMeet_of_built hbuilt).tabulates log

/-- A circle of radius one. -/
def ring : Operand Float := .segment (.curve (.circle ⟨⟨0, 0, 0⟩, 1⟩))

lemma intersection_ring : ring.intersection ring coincidentTol radiusTol = .ok (.flagged .identical) := by
  have hposition : (⟨⟨0, 0, 0⟩, 1⟩ : Circle Float).position ⟨⟨0, 0, 0⟩, 1⟩ radiusTol
      = .related .identical := by
    decide +kernel
  show Circle.intersect ⟨⟨0, 0, 0⟩, 1⟩ ⟨⟨0, 0, 0⟩, 1⟩ radiusTol = _
  rw [Circle.intersect, hposition]

/-- Two circles that are the same have an entry without points; a third value that is no segment is
refused as the second of its pair.  A line and what is no segment are refused over the real numbers. -/
theorem intersectAll_tabulates_rings :
    (∃ found, intersectAll [ring, ring] coincidentTol radiusTol .empty = (.ok found, .empty) ∧
      (0, 1, .flagged .identical) ∈ found) ∧
    intersectAll [ring, ring, .other] coincidentTol radiusTol .empty
      = (.error (.diagnosed (.ofComplaint (.emptySegment "second segment"))),
        ⟨[.ofComplaint (.emptySegment "second segment")]⟩) ∧
    intersectAll [.other] (coincidentTol : Float) radiusTol .empty = (.ok [], .empty) ∧
    Tabulates [.segment (.line (⟨⟨0, 0, 0⟩, ⟨4, 0, 0⟩⟩ : Line ℝ)), .other] coincidentTol radiusTol
      .empty := by
  obtain ⟨htable, -⟩ := intersectAll_tabulates [ring, ring] coincidentTol radiusTol .empty
  obtain ⟨-, -, hrefused, -⟩ :=
    intersectAll_tabulates [ring, ring, .other] coincidentTol radiusTol .empty
  obtain ⟨-, -, -, hshort, hbuilt⟩ :=
    intersectAll_tabulates [.other] (coincidentTol : Float) radiusTol .empty
  have htotal : Total [ring, ring] coincidentTol radiusTol := by
    rintro position result ⟨-, a, b, ha, hb, rfl⟩
    obtain rfl : a = ring := by simpa using List.mem_of_getElem? ha
    obtain rfl : b = ring := by simpa using List.mem_of_getElem? hb
    exact ⟨_, intersection_ring⟩
  have hother : FirstOther [ring, ring, .other] 2 := by
    refine ⟨rfl, fun j hj o ho => ?_⟩
    obtain rfl | rfl : j = 0 ∨ j = 1 := by omega
    all_goals
      cases ho
      rfl
  obtain ⟨found, hfound, hfindings⟩ := htable htotal
  refine ⟨⟨found, hfound, (hfindings.mem_iff _ _ _).mpr ⟨?_, .inr nofun⟩⟩, ?_, hshort (Nat.lt_succ_self 1),
    hbuilt _ _ fun o ho hsegment => ?_⟩
  · exact ⟨Nat.zero_lt_one, _, _, rfl, rfl, intersection_ring⟩
  · refine hrefused (Nat.le_succ 2) 2 hother ?_
    rintro j hj result ⟨hlt, a, b, ha, hb, rfl⟩
    obtain rfl : j = 1 := by
      change 0 < j at hlt
      omega
    cases ha
    cases hb
    exact ⟨_, intersection_ring⟩
  · rcases List.mem_pair.mp ho with rfl | rfl
    · refine ⟨_, rfl, .ofLine (Line.ofEnds_of_lt rfl rfl (.inl ?_))⟩
      rw [coincidentTol_eq]
      norm_num
    · cases hsegment

/-! ## Circles that are too large -/

/-- A circle through a point so far away that the square of its distance is infinite. -/
def vast : Circle Float := ⟨⟨0, 0, 0⟩, Float.inf⟩

lemma ofEnds_vast : Curve.ofEnds ⟨0, 0, 0⟩ ⟨1e200, 0, 0⟩ ⟨1e200, 0, 0⟩ false coincidentTol radiusTol
    = .ok (.circle vast) := by
  have hradius : (⟨1e200, 0, 0⟩ : Point Float).dist ⟨0, 0, 0⟩ = Float.inf := by decide +kernel
  unfold Curve.ofEnds
  rw [if_neg (by decide +kernel), if_neg (by decide +kernel)]
  dsimp only
  rw [if_pos (by decide +kernel), hradius]
  rfl

/-- Infinite radii have no difference, so that the circles pass for two that cross. -/
lemma intersect_vast : vast.intersect vast radiusTol = .error .divisionByZero := by
  have hposition : vast.position vast radiusTol = .crossing := by decide +kernel
  have hquotient : ∀ x : Float, (quotient x (2 * vast.center.dist vast.center) :
      Except (Fault Float) Float) = .error .divisionByZero := fun x => if_pos (by decide +kernel)
  rw [Circle.intersect, hposition]
  dsimp only
  rw [Circle.crossings, hquotient]
  rfl

/-- **A pair that fails before what is no segment is reached**: the radius of the circles is infinite,
and their centers are no distance apart. -/
theorem intersectAll_divides :
    Curve.ofEnds ⟨0, 0, 0⟩ ⟨1e200, 0, 0⟩ ⟨1e200, 0, 0⟩ false coincidentTol radiusTol
      = .ok (.circle vast) ∧
    intersectAll [.segment (.curve (.circle vast)), .segment (.curve (.circle vast)), .other]
      coincidentTol radiusTol .empty = (.error .divisionByZero, .empty) ∧
    ¬ Tabulates [.segment (.curve (.circle vast)), .segment (.curve (.circle vast)), .other]
      coincidentTol radiusTol .empty := by
  have hfirst : FirstFault [.segment (.curve (.circle vast)), .segment (.curve (.circle vast)), .other]
      coincidentTol radiusTol (0, 1) .divisionByZero := by
    refine ⟨⟨Nat.zero_lt_one, _, _, rfl, rfl, intersect_vast⟩, fun earlier result hprecedes hentry => ?_⟩
    obtain ⟨hzero, hcolumn⟩ := of_precedes_first hprecedes
    have hlt := hentry.1
    omega
  have hfails : intersectAll
      [.segment (.curve (.circle vast)), .segment (.curve (.circle vast)), .other]
      coincidentTol radiusTol .empty = (.error .divisionByZero, .empty) := by
    rw [intersectAll_eq, findings_eq_error_iff.mpr ⟨_, hfirst⟩]
    rfl
  refine ⟨ofEnds_vast, hfails, fun h => ?_⟩
  have hrefused := h.refused (Nat.le_succ 2) ⟨.other, by simp, rfl⟩
  rw [hfails] at hrefused
  cases hrefused

end Operand

end Contour
