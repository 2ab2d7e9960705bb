import Contour.Fault

/-!
# The log of diagnostics

A log collects diagnostics in the order in which they are reported. An operation that is given a log
reports the diagnostic of its refusal before it fails.

* `Log` — the diagnostics so far, with `report`, `clear` and views of the one list.
* `Reporting` — computations with a log.
* `logged` — a computation whose refusal is reported; `unlogged` — one whose refusal is not.
* `silently` — a computation whose reports nobody asks for.
-/

namespace Contour

/-- The diagnostics reported so far, the oldest first. -/
structure Log (α : Type) where
  entries : List (Diagnostic α)
  deriving Repr, DecidableEq

namespace Log

variable {α : Type}

def empty : Log α := ⟨[]⟩

def report (log : Log α) (d : Diagnostic α) : Log α := ⟨log.entries ++ [d]⟩

def clear (_ : Log α) : Log α := empty

def size (log : Log α) : Nat := log.entries.length

def codes (log : Log α) : List Code := log.entries.map Diagnostic.code

def ofSeverity (log : Log α) (s : Severity) : List (Diagnostic α) :=
  log.entries.filter fun d => d.severity = s

def errors (log : Log α) : List (Diagnostic α) := log.ofSeverity .error

def warnings (log : Log α) : List (Diagnostic α) := log.ofSeverity .warning

/-- The text of all entries, each on lines of its own. -/
def format [Textual α] (log : Log α) : String :=
  "\n".intercalate (log.entries.map Diagnostic.format)

end Log

/-- Computations that may report to a log and may fail; what was reported stays. -/
abbrev Reporting (α β : Type) := ExceptT (Fault α) (StateM (Log α)) β

section Reporting

variable {α β : Type}

/-- Reports the diagnostic of a refusal, and fails all the same. -/
def logged (result : Except (Fault α) β) : Reporting α β := fun log =>
  match result with
  | .error (.diagnosed r) => (.error (.diagnosed r), log.report r.diagnostic)
  | other => (other, log)

/-- Fails without a report. -/
def unlogged (result : Except (Fault α) β) : Reporting α β := fun log => (result, log)

/-- Runs a computation with a log of its own, which is dropped. -/
def silently (action : Reporting α β) : Except (Fault α) β := (action Log.empty).1

end Reporting

end Contour
