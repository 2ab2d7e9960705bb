import Contour.Diagnostic.Log
import Contour.Reading

/-!
# Making errors

An error is made from what it is to say. Its message shows numbers with six digits, which are handed in as
they are; what is no number cannot be shown so, and then nothing is reported.

* `Datum.written` — the number that a message shows with six digits.
* `Draft` — what an error is to say, with `Draft.diagnostic`.
* `Draft.file` — the error for a draft, which is reported and handed back.
* `Draft.refuse` — fails with the error for a draft.
-/

namespace Contour

/-- The number that a message shows with six digits; a text is a bad value there. -/
def Datum.written {α : Type} [OfNat α 0] [OfNat α 1] [Elementary α] : Datum α → Except (Fault α) α
  | .text _ => .error (.badValue .notWritten)
  | d => d.operand

/-- What an error is to say. -/
inductive Draft (α : Type) where
  | nonPlanar (what : String)
  | degenerate (what : String)
  | radiusMismatch (first second tol : Datum α)
  | emptySegment (which : String)
  | degenerateExtrusion (top bottom : Datum α)
  | nullModel
  | surfaceConstruction (what : String)
  /-- An error in words of the caller. -/
  | remark (code : Code) (words : String) (hints : List String)

namespace Draft

variable {α β : Type} [OfNat α 0] [OfNat α 1] [Elementary α]

/-- What is wrong, as a draft says. The tolerance of radii is written before them. -/
def complaint : Draft α → Except (Fault α) (Complaint α)
  | nonPlanar what => return .nonPlanar what
  | degenerate what => return .degenerate what
  | radiusMismatch first second tol => do
    let tol ← tol.written
    return .radiusMismatch (← first.written) (← second.written) tol
  | emptySegment which => return .emptySegment which
  | degenerateExtrusion top bottom => return .degenerateExtrusion (← top.written) (← bottom.written)
  | nullModel => return .nullModel
  | surfaceConstruction what => return .surfaceConstruction what
  | remark code words _ => return .remark code words

/-- The hints that a draft brings along instead of those of its complaint. -/
def hints? : Draft α → Option (List String)
  | remark _ _ hints => some hints
  | _ => none

/-- The diagnostic of a draft. -/
def diagnostic (d : Draft α) : Except (Fault α) (Diagnostic α) := do
  let c ← d.complaint
  return ⟨c, .error, d.hints?.getD c.hints⟩

/-- The error for a draft. Its diagnostic is made first and then reported. -/
def file (d : Draft α) : Reporting α (Refusal α) := do
  let diagnostic ← unlogged d.diagnostic
  modify (·.report diagnostic)
  return diagnostic.refusal

/-- Fails with the error for a draft. -/
def refuse (d : Draft α) : Except (Fault α) β := do
  throw (.diagnosed (← d.diagnostic).refusal)

end Draft

end Contour
