import RootedBuild.Locator
import RootedBuild.NodeTable

/-!
From a file to the node that works on it: the locator names the root, and the table has its node
or makes one from the root's options and an analyzer of its own.
-/
namespace RootedBuild

structure Ownership (σ α : Type) where
  locator : Locator
  nodes : NodeTable α
  bench : Bench σ

namespace Ownership

def new (t : FileTree) (context : Path) (settings : Settings) (memory : σ) : Ownership σ α :=
  ⟨.new t context settings, .empty, ⟨memory, []⟩⟩

/-- Makes what the node of a root consists of. -/
def makeContents (E : Engine σ α) (t : FileTree) (settings : Settings) (root : Root)
    (b : Bench σ) : Turn (Bench σ) (Outcome Failure (NodeContents α)) :=
  let told := Locator.optionsOf t settings root
  match told.answer with
  | .error f => ⟨b, told.events, .failed (.descriptor f)⟩
  | .ok options =>
    let (b, analyzer) := b.create E t root options
    ⟨b, told.events, (analyzer.map (NodeContents.mk options)).mapFailure .analysis⟩

/-- The node that owns a file, made on first use. -/
def resolve (E : Engine σ α) (t : FileTree) (R : Ownership σ α) (file : Path) :
    Turn (Ownership σ α) (Outcome Failure (Node α)) :=
  let located := R.locator.rootOf t file
  let root := located.answer
  let got := R.nodes.fetch root (makeContents E t R.locator.settings root) R.bench
  ⟨⟨located.state, got.state.1, got.state.2⟩, located.events ++ got.events, got.answer⟩

end Ownership

end RootedBuild
