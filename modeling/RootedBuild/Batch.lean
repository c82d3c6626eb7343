import RootedBuild.Build

/-!
A list of files handled by one worker. The list is cut into halves, and these again; what is left
after the last cut is a run, whose files are handled one after the other. Without crashes the cuts
cannot be seen: the files are handled in their order, up to a failure that is fatal.

A crash of an analyzer ends only the run it happens in. All other runs are still handled, where the
half beside the crash is cut more often than it would have been, and the crash is the answer in the
end.
-/
namespace RootedBuild

/-- What came of some files that stand together in a batch: the reports, the fatal failure that
ended it, and whether an analyzer crashed. -/
structure Stretch where
  reports : List FileReport := []
  fatal : Option Failure := none
  crashed : Bool := false

namespace Stretch

def ofFile (file : Path) : Outcome Failure FileOutput → Stretch
  | .ok output => { reports := [⟨file, .ok output⟩] }
  | .failed f => if f.isFatal then { fatal := some f } else { reports := [⟨file, .error f⟩] }
  | .crashed => { crashed := true }

/-- Whether the run goes on behind it. -/
def goesOn (s : Stretch) : Bool := s.fatal.isNone && !s.crashed

def append (s r : Stretch) : Stretch :=
  ⟨s.reports ++ r.reports, s.fatal.or r.fatal, s.crashed || r.crashed⟩

/-- A crash outweighs a fatal failure, and either outweighs the reports. -/
def outcome (s : Stretch) : Outcome Failure Report :=
  if s.crashed then .crashed
  else
    match s.fatal with
    | some f => .failed f
    | none => .ok ⟨s.reports⟩

end Stretch

namespace Build

/-- Compiles files one after the other, up to a crash or a fatal failure. -/
def compileRun (E : Engine σ α) (t : FileTree) (B : Build σ α) :
    List Path → Turn (Build σ α) Stretch
  | [] => ⟨B, [], {}⟩
  | file :: files =>
    let turn := B.compile E t file
    let first := Stretch.ofFile (t.absolute file) turn.answer
    if first.goesOn then
      let rest := turn.state.compileRun E t files
      ⟨rest.state, turn.events ++ rest.events, first.append rest.answer⟩
    else ⟨turn.state, turn.events, first⟩

/-- How often a batch is cut. -/
def batchCuts : Nat := 3

/-- How often the half beside a crash is cut. -/
def salvageCuts : Nat := 2

/-- Compiles a stretch of a batch. Every cut leaves shorter halves, so `fuel` may be the number of
files. -/
def compileStretch (E : Engine σ α) (t : FileTree) (B : Build σ α) (cuts : Nat)
    (files : List Path) : Nat → Turn (Build σ α) Stretch
  | 0 => B.compileRun E t files
  | fuel + 1 =>
    if cuts = 0 || files.length < 2 then B.compileRun E t files
    else
      let middle := files.length / 2
      let left := B.compileStretch E t (cuts - 1) (files.take middle) fuel
      if left.answer.fatal.isSome then left
      else
        let cuts := if left.answer.crashed then salvageCuts else cuts - 1
        let right := left.state.compileStretch E t cuts (files.drop middle) fuel
        ⟨right.state, left.events ++ right.events, left.answer.append right.answer⟩

def compiledEvent (B : Build σ α) (r : Report) : Event :=
  .buildCompiled r.files.length B.ownership.nodes.size r.errors.length r.warnings.length

/-- Compiles all files of a list. -/
def compileAll (E : Engine σ α) (t : FileTree) (B : Build σ α) (files : List Path) :
    Turn (Build σ α) (Outcome Failure Report) :=
  let turn := B.compileStretch E t batchCuts files files.length
  match turn.answer.outcome with
  | .ok report => ⟨turn.state, turn.events ++ [turn.state.compiledEvent report], .ok report⟩
  | .failed f => ⟨turn.state, turn.events, .failed f⟩
  | .crashed => ⟨turn.state, turn.events, .crashed⟩

end Build

end RootedBuild
