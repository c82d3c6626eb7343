/-!
Where the texts of diagnostics go. A lenient build delivers them as warnings and any other build as
errors; no text is changed or lost.
-/
namespace RootedBuild

inductive Severity where
  | strict
  | lenient
  deriving DecidableEq, Repr

def Severity.ofLenient (lenient : Bool) : Severity := if lenient then .lenient else .strict

structure Routed where
  errors : List String
  warnings : List String
  deriving DecidableEq, Repr

def Routed.isEmpty (r : Routed) : Bool := r.errors.isEmpty && r.warnings.isEmpty

def Severity.route (s : Severity) (texts : List String) : Routed :=
  match s with
  | .strict => ⟨texts, []⟩
  | .lenient => ⟨[], texts⟩

end RootedBuild
