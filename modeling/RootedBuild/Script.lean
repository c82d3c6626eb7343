import RootedBuild.Engine

/-!
Answers written down in advance. Every file has a list of its own or shares the common one; each
request for a list takes its next answer, and the last answer is given again and again.
-/
namespace RootedBuild

structure Script (ρ : Type) where
  lists : List (String × List ρ)
  used : List (String × Nat) := []

namespace Script

def commonKey : String := "*"

/-- What a file is called in a script: its path below `root` as it is spelled, or its whole path. -/
def nameOf (root file : Path) : String := ((file.after? root).getD file).text

def listFor (s : Script ρ) (name : String) : String × List ρ :=
  let list? (key : String) := (s.lists.find? fun l => l.1 == key).map Prod.snd
  match list? name with
  | some answers => (name, answers)
  | none => (commonKey, (list? commonKey).getD [])

def usedOf (s : Script ρ) (key : String) : Nat :=
  ((s.used.find? fun u => u.1 == key).map Prod.snd).getD 0

/-- The next answer for a file, if its list has any. -/
def next (s : Script ρ) (name : String) : Option ρ × Script ρ :=
  let (key, answers) := s.listFor name
  let n := s.usedOf key
  let used := (key, n + 1) :: s.used.filter fun u => u.1 ≠ key
  (answers[min n (answers.length - 1)]?, { s with used })

end Script

/-- A scripted answer of an analyzer; without code of its own it hands the source back. -/
inductive ScriptedAnswer where
  | analysis (code : Option String) (diagnostics : List Diagnostic)
  | failed (reason : String)
  | crashed

namespace ScriptedAnswer

def outcome (file : Path) (source : String) : ScriptedAnswer → Outcome AnalysisFault Analysis
  | .analysis code diagnostics => .ok ⟨code.getD source, diagnostics⟩
  | .failed reason => .failed ⟨file, reason⟩
  | .crashed => .crashed

/-- An engine that answers from a script, whatever the root, and may refuse to make analyzers. -/
def engine (root : Path) (refusal : Option String) : Engine (Script ScriptedAnswer) Unit where
  create _ facts _ s :=
    match refusal with
    | some reason => (s, .failed ⟨facts.directory, reason⟩)
    | none => (s, .ok ())
  analyze _ _ file source s :=
    let (answer, s) := s.next (Script.nameOf root file)
    (s, (answer.getD (.analysis none [])).outcome file source)

end ScriptedAnswer

end RootedBuild
