import RootedBuild.Diagnostic.Basic
import RootedBuild.Failure

/-!
The seam to whatever checks and transpiles files. An engine makes one analyzer for each
configuration root and runs it on one file at a time; what the engine remembers between calls is its
own affair and is passed along unread. Nothing is assumed of an engine: it may fail or crash at any
call.
-/
namespace RootedBuild

/-- What an analyzer is told about its root. -/
structure RootFacts where
  directory : Path
  descriptor : Option Path
  deriving DecidableEq, Repr

def Root.facts (r : Root) : RootFacts := ⟨r.directory, r.descriptor?⟩

/-- The result of analyzing a file. -/
structure Analysis where
  code : String
  diagnostics : List Diagnostic
  deriving DecidableEq, Repr

structure Engine (σ α : Type) where
  create : FileTree → RootFacts → Options → σ → σ × Outcome AnalysisFault α
  analyze : FileTree → α → Path → String → σ → σ × Outcome AnalysisFault Analysis

/-- A configuration root at work: its options, and its analyzer. -/
structure Node (α : Type) where
  id : Nat
  root : Root
  options : Options
  analyzer : α

/-- The engine's memory, and the nodes whose analyzer has crashed. Such an analyzer goes on being
used, but every use of it is told. -/
structure Bench (σ : Type) where
  memory : σ
  crashed : List Nat := []

namespace Bench

def recovery (b : Bench σ) (id : Nat) : List Event :=
  if b.crashed.contains id then [.recovered .analyzer] else []

def create (E : Engine σ α) (t : FileTree) (root : Root) (options : Options) (b : Bench σ) :
    Bench σ × Outcome AnalysisFault α :=
  let (memory, outcome) := E.create t root.facts options b.memory
  ({ b with memory }, outcome)

/-- Runs the analyzer of a node on a file. -/
def analyze (E : Engine σ α) (t : FileTree) (node : Node α) (file : Path) (source : String)
    (b : Bench σ) : Turn (Bench σ) (Outcome AnalysisFault Analysis) :=
  let (memory, outcome) := E.analyze t node.analyzer file source b.memory
  let crashed := match outcome with
    | .crashed => node.id :: b.crashed
    | _ => b.crashed
  ⟨⟨memory, crashed⟩, b.recovery node.id, outcome⟩

end Bench

end RootedBuild
