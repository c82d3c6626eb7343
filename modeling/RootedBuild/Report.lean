import RootedBuild.Diagnostic.Severity
import RootedBuild.Failure

/-!
The results of a build, file by file in the order of the request. The texts of all files are
gathered with every diagnostic once, and each failed file adds one text after all diagnostics.
-/
namespace RootedBuild

/-- How a file that compiled came out. Diagnostics alone are no failure. -/
inductive Verdict where
  | succeeded
  | succeededWithDiagnostics
  deriving DecidableEq, Repr

namespace Verdict

def name : Verdict → String
  | .succeeded => "Succeeded"
  | .succeededWithDiagnostics => "SucceededWithDiagnostics"

def stage : Verdict → Stage
  | .succeeded => .succeeded
  | .succeededWithDiagnostics => .succeededWithDiagnostics

def ofTexts (texts : List String) : Verdict :=
  if texts.isEmpty then .succeeded else .succeededWithDiagnostics

end Verdict

structure FileOutput where
  code : String
  errors : List String
  warnings : List String
  verdict : Verdict
  deriving DecidableEq, Repr

/-- A requested file, by its absolute path, and what came of it. -/
structure FileReport where
  file : Path
  output : Except Failure FileOutput

namespace FileReport

def output? (r : FileReport) : Option FileOutput := r.output.toOption

def failure? (r : FileReport) : Option Failure :=
  match r.output with
  | .ok _ => none
  | .error f => some f

end FileReport

structure Report where
  files : List FileReport

namespace Report

def outputs (r : Report) : List FileOutput := r.files.filterMap FileReport.output?

def failures (r : Report) : List Failure := r.files.filterMap FileReport.failure?

def errors (r : Report) : List String :=
  r.outputs.flatMap FileOutput.errors ++ r.failures.map Failure.message

def warnings (r : Report) : List String := r.outputs.flatMap FileOutput.warnings

def failed (r : Report) : List FileReport := r.files.filter fun f => f.failure?.isSome

/-- Decided without putting the texts together. -/
def hasErrors (r : Report) : Bool :=
  !r.failed.isEmpty || r.outputs.any fun o => !o.errors.isEmpty

end Report

end RootedBuild
