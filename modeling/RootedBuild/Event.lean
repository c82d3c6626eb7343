import RootedBuild.Decimal.Shortest
import RootedBuild.Root

/-!
What a build tells about its work while it goes on. Events have no influence on any answer; each has
a level, and a text for those who read along.
-/
namespace RootedBuild

inductive Level where
  | error
  | warn
  | info
  | debug
  | trace
  deriving DecidableEq, Repr

namespace Level

def name : Level → String
  | .error => "ERROR"
  | .warn => "WARN"
  | .info => "INFO"
  | .debug => "DEBUG"
  | .trace => "TRACE"

def rank : Level → Nat
  | .error => 1
  | .warn => 2
  | .info => 3
  | .debug => 4
  | .trace => 5

end Level

/-- The stages a file passes through on its way to a result. -/
inductive Stage where
  | unresolved
  | resolving
  | resolved
  | compiling
  | succeeded
  | succeededWithDiagnostics
  | failed
  deriving DecidableEq, Repr

def Stage.name : Stage → String
  | .unresolved => "unresolved"
  | .resolving => "resolving"
  | .resolved => "resolved"
  | .compiling => "compiling"
  | .succeeded => "succeeded"
  | .succeededWithDiagnostics => "succeeded with diagnostics"
  | .failed => "failed"

/-- What is held under a lock of its own, and so can be left behind by a crash inside. -/
inductive Guarded where
  | analyzer
  | nodeSlot
  | cacheSlot
  deriving DecidableEq, Repr

def Guarded.name : Guarded → String
  | .analyzer => "analyzer"
  | .nodeSlot => "registry slot"
  | .cacheSlot => "compilation cache slot"

/-- How often the cache had the answer, how often it had not, and how many entries it gave up. -/
structure CacheCounts where
  hits : Nat := 0
  misses : Nat := 0
  invalidations : Nat := 0
  deriving DecidableEq, Repr

namespace CacheCounts

/-- Counts are kept in 64 bits. -/
def total (s : CacheCounts) : Nat := (s.hits + s.misses) % 0x10000000000000000

def rate (s : CacheCounts) : Float :=
  if s.total = 0 then 0 else s.hits.toUInt64.toFloat / s.total.toUInt64.toFloat

/-- The share of hits among all requests, and zero when there were none. -/
def hitRate (s : CacheCounts) : Binary64 := .ofFloat s.rate

def percent (s : CacheCounts) : String := (Binary64.ofFloat (s.rate * 100)).tenths

end CacheCounts

inductive Event where
  | buildStarted (context : Path) (lenient : Bool)
  | moved (file : Path) (origin target : Stage)
  | descriptorSought (name : String) (dir : Path) (found : Option Path)
  | descriptorExtends (descriptor base : Path)
  | nodeCreated (id : Nat) (root : Root)
  | recovered (what : Guarded)
  | cacheHit (file : Path)
  | changed (file : Path)
  | buildCompiled (files roots errors warnings : Nat)
  | buildFinished (stats : CacheCounts) (evicted : Nat)
  deriving DecidableEq, Repr

namespace Event

def level : Event → Level
  | .buildStarted .. => .debug
  | .moved .. => .trace
  | .descriptorSought .. => .debug
  | .descriptorExtends .. => .debug
  | .nodeCreated .. => .debug
  | .recovered .. => .warn
  | .cacheHit .. => .trace
  | .changed .. => .debug
  | .buildCompiled .. => .info
  | .buildFinished .. => .info

def foundText : Option Path → String
  | some p => p.text
  | none => "none"

def text : Event → String
  | .buildStarted context lenient =>
    "Starting build in " ++ context.text ++ " (warnOnly: " ++ toString lenient ++ ")"
  | .moved file origin target => file.text ++ ": " ++ origin.name ++ " -> " ++ target.name
  | .descriptorSought name dir found =>
    "Nearest " ++ name ++ " for " ++ dir.text ++ ": " ++ foundText found
  | .descriptorExtends descriptor base => descriptor.text ++ " extends " ++ base.text
  | .nodeCreated id root =>
    "Created configuration node NodeId(" ++ toString id ++ ") for " ++ root.label
  | .recovered what => what.name ++ " lock poisoned; recovering"
  | .cacheHit file => "Cache hit for " ++ file.text
  | .changed file => "Source or owner of " ++ file.text ++ " changed; recompiling"
  | .buildCompiled files roots errors warnings =>
    "Compiled " ++ toString files ++ " file(s) across " ++ toString roots ++
      " configuration root(s): " ++ toString errors ++ " error(s), " ++ toString warnings ++
      " warning(s)"
  | .buildFinished stats evicted =>
    "Cache: " ++ toString stats.hits ++ " hit(s), " ++ toString stats.misses ++ " miss(es), " ++
      toString stats.invalidations ++ " invalidation(s), " ++ toString evicted ++
      " evicted, hit rate " ++ stats.percent ++ "%"

/-- The line a log shows. -/
def line (e : Event) : String := e.level.name ++ " " ++ e.text

end Event

/-- An answer with the events on the way to it. -/
structure Told (α : Type) where
  events : List Event
  answer : α

/-- One turn of something with a state: the state it leaves, the events on the way, the answer. -/
structure Turn (σ α : Type) where
  state : σ
  events : List Event
  answer : α

end RootedBuild
