import RootedBuild.CommandLine.Basic
import RootedBuild.Json.Printer
import RootedBuild.Batch

/-!
What the program shows for its arguments: the texts on its two outputs, and its exit status. Events
that are important enough are told on the first output, each as soon as it happens; diagnostics and
failures go to the second.
-/
namespace RootedBuild.CommandLine
open Json

structure Shown where
  exit : Nat
  out : String := ""
  err : String := ""
  deriving DecidableEq, Repr

def versionText : String := "tsloader 0.1.0"

def usageText : String :=
  "Usage: tsloader [-v|-q]... build --service <SERVICE> [OPTIONS] <FILES>...\n" ++
    "       tsloader [-v|-q]... config [OPTIONS] <FILE>\n"

/-- What is shown in place of a command that is not run. To ask for help is no fault. -/
def UsageFault.shown : UsageFault → Shown
  | .version => { exit := 0, out := versionText ++ "\n" }
  | .help => { exit := 0, out := usageText }
  | f => { exit := 2, err := "error: " ++ f.name ++ "\n\n" ++ usageText }

def isTold (level : Option Level) (e : Event) : Bool :=
  level.any fun l => e.level.rank ≤ l.rank

def tell (level : Option Level) (events : List Event) : String :=
  String.join ((events.filter (isTold level)).map fun e => e.level.name ++ ":\n" ++ e.text ++ "\n")

def failureText (f : Failure) : String := "Error: " ++ f.message ++ "\n"

def textLines (texts : List String) : String := String.join (texts.map (· ++ "\n"))

/-! ### The two commands -/

def describe (root : Root) (options : Options) : Value :=
  .record
    [("compilerOptions", .record options.members),
      ("descriptor", (root.descriptor?.map fun p => Value.text p.text).getD .null),
      ("root", .text root.directory.text)]

def showConfig (t : FileTree) (level : Option Level) (c : ConfigCommand) : Shown :=
  let settings : Settings := { configName := c.configName }
  let located := (Locator.new t ⟨c.context⟩ settings).rootOf t ⟨c.file⟩
  let read := Locator.optionsOf t settings located.answer
  let told := tell level (located.events ++ read.events)
  match read.answer with
  | .error f => ⟨1, told, failureText (.descriptor f)⟩
  | .ok options => ⟨0, told ++ (describe located.answer options).printLines 0 ++ "\n", ""⟩

def BuildCommand.options (c : BuildCommand) : BuildOptions :=
  { warnOnly := c.warnOnly, configName := c.configName, lookUp := !c.noLookUp }

/-- The code of each file that compiled, under a line with the file's path. -/
def emitted (context : Path) (r : Report) : String :=
  String.join (r.files.filterMap fun f =>
    f.output?.map fun o => "// " ++ context.relativeTo f.file ++ "\n" ++ o.code ++ "\n")

/-- What a finished build shows besides events. -/
def showReport (c : BuildCommand) (context : Path) (r : Report) : Shown :=
  ⟨if r.hasErrors then 1 else 0, if c.emit then emitted context r else "",
    textLines r.warnings ++ textLines r.errors⟩

def showBuild (E : Engine σ α) (memory : σ) (t : FileTree) (level : Option Level)
    (c : BuildCommand) : Shown :=
  let files := c.files.map Path.mk
  let started : Told (Build σ α) := Build.start t ⟨c.context⟩ c.options memory
  let built := started.answer.compileAll E t files
  let told := tell level (started.events ++ built.events)
  match built.answer with
  | .failed f => ⟨1, told, failureText f⟩
  | .crashed => ⟨101, told, ""⟩
  | .ok report =>
    let finished := built.state.finish t files
    let shown := showReport c built.state.context report
    { shown with out := told ++ shown.out ++ tell level finished.events }

/-- Runs the program, where `engineOf` gives the engine for a service program and its arguments. -/
def run (engineOf : String → List String → Engine σ α) (memory : σ) (t : FileTree)
    (args : List String) : Except UsageFault Shown :=
  match read args with
  | .error .version => .ok UsageFault.version.shown
  | .error f => .error f
  | .ok i =>
    match i.command with
    | .config c => .ok (showConfig t i.level c)
    | .build c => .ok (showBuild (engineOf c.service c.serviceArgs) memory t i.level c)

end RootedBuild.CommandLine
