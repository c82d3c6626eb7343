import RootedBuild.Descriptor.Chain

/-!
What stops a file or a whole build. A type error is no failure: it is part of a successful result. A
descriptor that cannot be understood stops the build, and every other failure only its file. A crash
of an analyzer is apart from all of them: it has no text and passes through every layer.
-/
namespace RootedBuild

/-- An analyzer could not do its work. -/
structure AnalysisFault where
  file : Path
  reason : String
  deriving DecidableEq, Repr

def AnalysisFault.message (f : AnalysisFault) : String :=
  "Analysis of " ++ f.file.text ++ " failed: " ++ f.reason

inductive Failure where
  | descriptor (f : DescriptorFault)
  | analysis (f : AnalysisFault)
  | unreadable (file : Path) (f : FileFault)
  deriving DecidableEq, Repr

namespace Failure

def message : Failure → String
  | .descriptor f => f.message
  | .analysis f => f.message
  | .unreadable file f => "Could not read " ++ file.text ++ ": " ++ f.message

/-- Whether the failure stops the whole build. -/
def isFatal : Failure → Bool
  | .descriptor _ => true
  | _ => false

end Failure

/-- How an operation ends that may run an analyzer. -/
inductive Outcome (ε α : Type) where
  | ok (value : α)
  | failed (failure : ε)
  | crashed
  deriving DecidableEq, Repr

namespace Outcome

def map (f : α → β) : Outcome ε α → Outcome ε β
  | .ok a => .ok (f a)
  | .failed e => .failed e
  | .crashed => .crashed

def mapFailure (f : ε → δ) : Outcome ε α → Outcome δ α
  | .ok a => .ok a
  | .failed e => .failed (f e)
  | .crashed => .crashed

end Outcome

end RootedBuild
