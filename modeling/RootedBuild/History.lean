import RootedBuild.Batch

/-!
A build over time. Requests come one after the other, and between them the tree may turn into any
other one: a request sees the tree as it is when it comes. The directory that relative paths are
meant from stays the same.
-/
namespace RootedBuild

inductive Step where
  | change (entries : List (Place × Entry))
  | resolve (file : Path)
  | compile (file : Path)
  | compileSource (file : Path) (source : String)
  | compileAll (files : List Path)
  | finish (live : List Path)

inductive Answer (α : Type) where
  | nothing
  | node (found : Outcome Failure (Node α))
  | output (result : Outcome Failure FileOutput)
  | report (result : Outcome Failure Report)
  | counts (stats : CacheCounts)

/-- A build, and the tree under it. -/
structure Session (σ α : Type) where
  tree : FileTree
  build : Build σ α

namespace Session

def start (t : FileTree) (context : Path) (options : BuildOptions) (memory : σ) : Session σ α :=
  ⟨t, (Build.start t context options memory).answer⟩

/-- What a step leaves, and its answer. -/
def step (E : Engine σ α) (S : Session σ α) : Step → Session σ α × Answer α
  | .change entries => (⟨{ S.tree with entries }, S.build⟩, .nothing)
  | .resolve file =>
    let turn := S.build.resolve E S.tree file
    (⟨S.tree, turn.state⟩, .node turn.answer)
  | .compile file =>
    let turn := S.build.compile E S.tree file
    (⟨S.tree, turn.state⟩, .output turn.answer)
  | .compileSource file source =>
    let turn := S.build.compileSource E S.tree file source
    (⟨S.tree, turn.state⟩, .output turn.answer)
  | .compileAll files =>
    let turn := S.build.compileAll E S.tree files
    (⟨S.tree, turn.state⟩, .report turn.answer)
  | .finish live =>
    let turn := S.build.finish S.tree live
    (⟨S.tree, turn.state⟩, .counts turn.answer)

/-- What a history leaves, and the answers to its steps. -/
def run (E : Engine σ α) (S : Session σ α) : List Step → Session σ α × List (Answer α)
  | [] => (S, [])
  | step :: steps =>
    let first := S.step E step
    let rest := first.1.run E steps
    (rest.1, first.2 :: rest.2)

end Session

end RootedBuild
