import RootedBuild.Proofs.Build.Watched

/-!
A history taken apart. A batch compiles its files one after the other, so it leaves what these leave
when each is a step of its own; with all batches taken apart like this a history consists of single
requests. A moment of it is one step together with what it comes to.
-/
namespace RootedBuild

/-- No step is a batch. -/
def Unbatched (steps : List Step) : Prop := ∀ files, .compileAll files ∉ steps

theorem Unbatched.head {step : Step} {steps : List Step} (h : Unbatched (step :: steps))
    (files : List Path) : step ≠ .compileAll files :=
  fun same => h files (same ▸ List.mem_cons_self ..)

theorem Unbatched.tail {step : Step} {steps : List Step} (h : Unbatched (step :: steps)) :
    Unbatched steps :=
  fun files member => h files (List.mem_cons_of_mem _ member)

namespace Session

variable {E : Engine σ α} {S : Session σ α}

theorem run_append (S : Session σ α) (steps more : List Step) :
    (S.run E (steps ++ more)).1 = ((S.run E steps).1.run E more).1 := by
  induction steps generalizing S with
  | nil => rfl
  | cons step steps ih => exact ih _

/-- A step without its batch: each file that the batch handles is compiled by a step of its own. -/
def singles (E : Engine σ α) (S : Session σ α) : Step → List Step
  | .compileAll files =>
    (Handler.handled S.tree (Build.compile E S.tree) S.build files).map .compile
  | step => [step]

/-- A history without batches. -/
def singly (E : Engine σ α) (S : Session σ α) : List Step → List Step
  | [] => []
  | step :: steps => S.singles E step ++ (S.step E step).1.singly E steps

theorem run_map_compile (t : FileTree) (B : Build σ α) (files : List Path) :
    (run E ⟨t, B⟩ (files.map .compile)).1 =
      ⟨t, files.foldl (fun B file => (B.compile E t file).state) B⟩ := by
  induction files generalizing B with
  | nil => rfl
  | cons file files ih =>
      rw [List.foldl_cons, ← ih, List.map_cons, run, step]

theorem run_singles (S : Session σ α) (step : Step) :
    (S.run E (S.singles E step)).1 = (S.step E step).1 := by
  cases step with
  | compileAll files =>
      rw [singles, run_map_compile S.tree S.build, Handler.foldl_handled]
      dsimp only [Session.step]
      rw [Build.compileAll_state]
  | _ => rfl

/-- Without its batches a history leaves the same. -/
theorem run_singly (S : Session σ α) (steps : List Step) :
    (S.run E (S.singly E steps)).1 = (S.run E steps).1 := by
  induction steps generalizing S with
  | nil => rfl
  | cons step steps ih =>
      rw [singly, run_append, run_singles, ih]
      rfl

theorem unbatched_singly (S : Session σ α) (steps : List Step) :
    Unbatched (S.singly E steps) := by
  intro files
  induction steps generalizing S with
  | nil => simp [singly]
  | cons step steps ih =>
      rw [singly, List.mem_append, not_or]
      refine ⟨?_, ih _⟩
      cases step <;> simp [singles]

end Session

/-- One step of a history, and what it comes to. -/
structure Moment (σ α : Type) where
  session : Session σ α
  step : Step

namespace Moment

variable (E : Engine σ α) (m : Moment σ α)

def next : Session σ α := (m.session.step E m.step).1

def answer : Answer α := (m.session.step E m.step).2

/-- The file and the text of a request that has got past reading. -/
def request? : Option (Path × String) :=
  match m.step with
  | .compile file =>
    match m.session.tree.readText (m.session.tree.absolute file) with
    | .ok source => some (m.session.tree.absolute file, source)
    | .error _ => none
  | .compileSource file source => some (m.session.tree.absolute file, source)
  | _ => none

/-- A request gets past resolving when its file is given a node. -/
def reaches : Bool :=
  match m.request? with
  | some (file, _) => (m.session.build.resolve E m.session.tree file).answer.isOk
  | none => false

/-- Whether there is an output. -/
def gives : Bool :=
  match m.answer E with
  | .output (.ok _) => true
  | _ => false

end Moment

namespace Session

/-- The moments of a history, in order. -/
def moments (E : Engine σ α) (S : Session σ α) : List Step → List (Moment σ α)
  | [] => []
  | step :: steps => ⟨S, step⟩ :: (S.step E step).1.moments E steps

/-- Every moment comes behind the first steps of the history. -/
theorem exists_run_of_mem_moments {E : Engine σ α} {S : Session σ α} {steps : List Step}
    {m : Moment σ α} (member : m ∈ S.moments E steps) :
    ∃ before, m.session = (S.run E before).1 := by
  induction steps generalizing S with
  | nil => simp [moments] at member
  | cons step steps ih =>
      rcases List.mem_cons.mp member with rfl | later
      · exact ⟨[], rfl⟩
      · obtain ⟨before, same⟩ := ih later
        exact ⟨step :: before, same⟩

end Session

end RootedBuild
