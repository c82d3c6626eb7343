import RootedBuild.ResultCache
import RootedBuild.Report
import RootedBuild.Ownership

/-!
A build from its start to its end. A build finds the node that owns each requested file, has the
file analyzed unless the cache holds the answer, and routes the rendered diagnostics. The tree may
change between requests; a request sees the tree that it is given.
-/
namespace RootedBuild
open Json

/-- Options of a build as the caller writes them. -/
structure BuildOptions where
  warnOnly : Bool := false
  configName : String := Descriptor.defaultName
  lookUp : Bool := true
  overrides : Members := []

namespace BuildOptions

def settings (o : BuildOptions) : Settings := ⟨o.configName, o.lookUp, o.overrides⟩

def ofWritten? (w : Written) : Option BuildOptions := do
  let f ← Fields.ofWritten? ["warnOnly", "configFileName", "configLookup", "compilerOptions"] w
  let warnOnly ← f.withDefault 0 false Written.bool?
  let configName ← f.withDefault 1 Descriptor.defaultName Written.text?
  let lookUp ← f.withDefault 2 true Written.bool?
  let overrides ← f.withDefault 3 [] Written.record?
  return ⟨warnOnly, configName, lookUp, overrides⟩

end BuildOptions

structure Build (σ α : Type) where
  context : Path
  severity : Severity
  ownership : Ownership σ α
  cache : ResultCache

namespace Build

def start (t : FileTree) (context : Path) (options : BuildOptions) (memory : σ) :
    Told (Build σ α) :=
  let context := t.absolute context
  ⟨[.buildStarted context options.warnOnly],
    ⟨context, .ofLenient options.warnOnly, .new t context options.settings memory, .empty⟩⟩

/-- The node that owns a file. -/
def resolve (E : Engine σ α) (t : FileTree) (B : Build σ α) (file : Path) :
    Turn (Build σ α) (Outcome Failure (Node α)) :=
  let turn := B.ownership.resolve E t (t.absolute file)
  ⟨{ B with ownership := turn.state }, turn.events, turn.answer⟩

/-- The result of a file under its node, from the cache if it is there. -/
def analyze (E : Engine σ α) (t : FileTree) (B : Build σ α) (node : Node α) (file : Path)
    (source : String) : Turn (Build σ α) (Outcome AnalysisFault Stored) :=
  let turn := B.cache.fetch (.of file node.id source) (Bench.analyze E t node file source)
    B.ownership.bench
  ⟨{ B with cache := turn.state.1, ownership.bench := turn.state.2 }, turn.events, turn.answer⟩

def deliver (B : Build σ α) (a : Analysis) : FileOutput :=
  let texts := a.diagnostics.map (Diagnostic.render B.context)
  let routed := B.severity.route texts
  ⟨a.code, routed.errors, routed.warnings, .ofTexts texts⟩

/-- A failed stage is told; a crash is not. -/
def failedAt (file : Path) (origin : Stage) : Outcome Failure α → List Event
  | .failed _ => [.moved file origin .failed]
  | _ => []

/-- Compiles a text as the contents of a file. -/
def compileSource (E : Engine σ α) (t : FileTree) (B : Build σ α) (file : Path)
    (source : String) : Turn (Build σ α) (Outcome Failure FileOutput) :=
  let file := t.absolute file
  let found := B.resolve E t file
  let events := .moved file .unresolved .resolving :: found.events
  match found.answer with
  | .failed f => ⟨found.state, events ++ [.moved file .resolving .failed], .failed f⟩
  | .crashed => ⟨found.state, events, .crashed⟩
  | .ok node =>
    let events := events ++ [.moved file .resolving .resolved, .moved file .resolved .compiling]
    let run := found.state.analyze E t node file source
    let events := events ++ run.events
    match run.answer with
    | .failed f => ⟨run.state, events ++ [.moved file .compiling .failed], .failed (.analysis f)⟩
    | .crashed => ⟨run.state, events, .crashed⟩
    | .ok stored =>
      let output := B.deliver stored.result
      ⟨run.state, events ++ [.moved file .compiling output.verdict.stage], .ok output⟩

/-- Reads a file and compiles it. -/
def compile (E : Engine σ α) (t : FileTree) (B : Build σ α) (file : Path) :
    Turn (Build σ α) (Outcome Failure FileOutput) :=
  let file := t.absolute file
  match t.readText file with
  | .error f => ⟨B, [], .failed (.unreadable file f)⟩
  | .ok source => B.compileSource E t file source

/-- Ends a build: the cache keeps only files that are still live. -/
def finish (t : FileTree) (B : Build σ α) (live : List Path) : Turn (Build σ α) CacheCounts :=
  let (cache, evicted) := B.cache.keepOnly (live.map t.absolute)
  ⟨{ B with cache }, [.buildFinished cache.stats evicted], cache.stats⟩

end Build

end RootedBuild
