import RootedBuild.History
import RootedBuild.Proofs.Build.Alone
import RootedBuild.Proofs.Build.Handling

/-!
What a build keeps. Compiling a file is resolving it and analyzing it with the node that was found,
so all that these two keep is kept by compiling, by a batch, and, if the end of a build keeps it as
well, over a history. An analysis rests on nothing but the node being one for its file.
-/
namespace RootedBuild

namespace Build

/-- Each part of a request keeps `P`. The node that a file resolves to `owns` the file, and only
such a node analyzes it. -/
structure Keeps (E : Engine σ α) (t : FileTree) (P : Build σ α → Prop)
    (owns : Build σ α → Path → Node α → Prop) : Prop where
  resolve : ∀ B file, P B → P (B.resolve E t file).state ∧
    ∀ node, (B.resolve E t file).answer = .ok node → owns (B.resolve E t file).state file node
  analyze : ∀ B file node source, P B → owns B (t.absolute file) node →
    P (B.analyze E t node (t.absolute file) source).state
  finish : ∀ B live, P B → P (B.finish t live).state

variable {E : Engine σ α} {t : FileTree} {P : Build σ α → Prop}
  {owns : Build σ α → Path → Node α → Prop} {B : Build σ α}

theorem Keeps.compileSource (keeps : Keeps E t P owns) (holds : P B) (file : Path)
    (source : String) : P (B.compileSource E t file source).state := by
  obtain ⟨after, owner⟩ := keeps.resolve B (t.absolute file) holds
  rw [(compileSource_answer file source).2]
  generalize B.resolve E t (t.absolute file) = found at after owner
  cases answer : found.answer with
  | failed f => exact after
  | crashed => exact after
  | ok node => exact keeps.analyze found.state file node source after (owner node answer)

theorem Keeps.compile (keeps : Keeps E t P owns) (holds : P B) (file : Path) :
    P (B.compile E t file).state := by
  cases read : t.readText (t.absolute file) with
  | error f => rwa [compile_of_unreadable read]
  | ok source =>
      rw [compile_of_readable read]
      exact keeps.compileSource holds (t.absolute file) source

theorem Keeps.compileAll (keeps : Keeps E t P owns) (holds : P B) (files : List Path) :
    P (B.compileAll E t files).state := by
  rw [compileAll_state]
  apply Handler.all_keeps (P := P)
  · exact fun _ file before => keeps.compile before file
  · exact holds

end Build

namespace Session

variable {E : Engine σ α} {here : Path} {P : Build σ α → Prop}
  {owns : Build σ α → Path → Node α → Prop} {S : Session σ α}

theorem step_here (S : Session σ α) (step : Step) :
    (S.step E step).1.tree.here = S.tree.here := by
  cases step <;> rfl

theorem run_here (S : Session σ α) (steps : List Step) :
    (S.run E steps).1.tree.here = S.tree.here := by
  induction steps generalizing S with
  | nil => rfl
  | cons step steps ih => exact (ih _).trans (step_here S step)

theorem step_keeps (keeps : ∀ t, t.here = here → Build.Keeps E t P owns)
    (same : S.tree.here = here) (holds : P S.build) (step : Step) :
    P (S.step E step).1.build := by
  have keep := keeps S.tree same
  cases step with
  | change entries => exact holds
  | resolve file => exact (keep.resolve S.build file holds).1
  | compile file => exact keep.compile holds file
  | compileSource file source => exact keep.compileSource holds file source
  | compileAll files => exact keep.compileAll holds files
  | finish live => exact keep.finish S.build live holds

theorem run_keeps (keeps : ∀ t, t.here = here → Build.Keeps E t P owns)
    (same : S.tree.here = here) (holds : P S.build) (steps : List Step) :
    P (S.run E steps).1.build := by
  induction steps generalizing S with
  | nil => exact holds
  | cons step steps ih =>
      exact ih ((step_here S step).trans same) (step_keeps keeps same holds step)

end Session

end RootedBuild
