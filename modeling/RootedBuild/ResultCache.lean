import RootedBuild.Digest.Blake3
import RootedBuild.Engine

/-!
Results of a build by file. An entry remembers which node made it and the fingerprint of the text it
was made from, and is served only to a request that agrees in both. A request that finds no such
entry runs the analyzer; if that succeeds its result takes the place of the old entry, and otherwise
the old entry stays. A file keeps its slot once it was asked for, whether or not it ever had a
result, until it is evicted.
-/
namespace RootedBuild

/-- A result, with a number that no other result of the cache has. -/
structure Stored where
  serial : Nat
  result : Analysis
  deriving DecidableEq, Repr

/-- What a result is asked for by. -/
structure CacheKey where
  file : Path
  node : Nat
  fingerprint : Fingerprint
  deriving DecidableEq, Repr

def CacheKey.of (file : Path) (node : Nat) (source : String) : CacheKey :=
  ⟨file, node, .ofText source⟩

structure CacheRecord where
  node : Nat
  fingerprint : Fingerprint
  stored : Stored
  deriving DecidableEq, Repr

def CacheRecord.fits (e : CacheRecord) (key : CacheKey) : Bool :=
  e.node == key.node && e.fingerprint == key.fingerprint

/-- A file's place in the cache. A crash while its result was being made leaves a mark for good. -/
structure CacheSlot where
  entry : Option CacheRecord := none
  marked : Bool := false
  deriving DecidableEq, Repr

structure ResultCache where
  slots : List (Path × CacheSlot) := []
  stats : CacheCounts := {}
  made : Nat := 0
  deriving DecidableEq, Repr

namespace ResultCache

def empty : ResultCache := {}

def slot? (C : ResultCache) (file : Path) : Option CacheSlot :=
  (C.slots.find? fun s => s.1.same file).map Prod.snd

def setSlot (file : Path) (slot : CacheSlot) : List (Path × CacheSlot) → List (Path × CacheSlot)
  | [] => [(file, slot)]
  | (f, old) :: rest =>
    if f.same file then (f, slot) :: rest else (f, old) :: setSlot file slot rest

def withSlot (C : ResultCache) (file : Path) (slot : CacheSlot) : ResultCache :=
  { C with slots := setSlot file slot C.slots }

/-- A slot that has been set is found under every spelling of its file, and no other slot changes.
-/
theorem slot?_withSlot (C : ResultCache) (file f : Path) (slot : CacheSlot) :
    (C.withSlot file slot).slot? f = if file.same f then some slot else C.slot? f := by
  have found (slots : List (Path × CacheSlot)) :
      ((setSlot file slot slots).find? fun s => s.1.same f).map Prod.snd =
        if file.same f then some slot else (slots.find? fun s => s.1.same f).map Prod.snd := by
    induction slots with
    | nil => cases h : file.same f <;> simp [setSlot, h]
    | cons s rest ih =>
      obtain ⟨g, old⟩ := s
      cases hg : g.same file
      · cases hf : g.same f
        · simpa [setSlot, hg, hf] using ih
        · have apart : file.same f = false := by
            rw [Path.same_comm, ← Path.same_congr hf file, hg]
          simp [setSlot, hg, hf, apart]
      · cases hf : file.same f <;> simp [setSlot, hg, Path.same_congr hg f, hf]
  exact found C.slots

def recovery (slot : CacheSlot) : List Event :=
  if slot.marked then [.recovered .cacheSlot] else []

/-- The stored result for a key. Asking changes nothing. -/
def get (C : ResultCache) (key : CacheKey) : Told (Option Stored) :=
  match C.slot? key.file with
  | none => ⟨[], none⟩
  | some slot =>
    ⟨recovery slot, (slot.entry.filter fun e => e.fits key).map CacheRecord.stored⟩

def countHit (C : ResultCache) : ResultCache := { C with stats.hits := C.stats.hits + 1 }

/-- A request that runs the analyzer is a miss, and an invalidation as well if there is an entry for
another text or node, whatever comes of the analysis. -/
def countMiss (C : ResultCache) (slot : CacheSlot) : ResultCache :=
  let replaced := if slot.entry.isSome then 1 else 0
  { C with stats := { C.stats with
      misses := C.stats.misses + 1
      invalidations := C.stats.invalidations + replaced } }

def missEvents (file : Path) (slot : CacheSlot) : List Event :=
  if slot.entry.isSome then [.changed file] else []

def store (C : ResultCache) (key : CacheKey) (slot : CacheSlot) (result : Analysis) :
    ResultCache × Stored :=
  let stored : Stored := ⟨C.made, result⟩
  let slot := { slot with entry := some ⟨key.node, key.fingerprint, stored⟩ }
  ({ C.withSlot key.file slot with made := C.made + 1 }, stored)

/-- The result for a key, from the cache or from `analyze`. -/
def fetch (C : ResultCache) (key : CacheKey)
    (analyze : τ → Turn τ (Outcome AnalysisFault Analysis)) (s : τ) :
    Turn (ResultCache × τ) (Outcome AnalysisFault Stored) :=
  let slot := (C.slot? key.file).getD {}
  match slot.entry.filter fun e => e.fits key with
  | some e => ⟨(C.countHit, s), recovery slot ++ [.cacheHit key.file], .ok e.stored⟩
  | none =>
    let run := analyze s
    let events := recovery slot ++ missEvents key.file slot ++ run.events
    let C := C.countMiss slot
    match run.answer with
    | .ok result =>
      let (C, stored) := C.store key slot result
      ⟨(C, run.state), events, .ok stored⟩
    | .failed e => ⟨(C.withSlot key.file slot, run.state), events, .failed e⟩
    | .crashed =>
      ⟨(C.withSlot key.file { slot with marked := true }, run.state), events, .crashed⟩

/-- Drops every slot whose file is not among the live ones, and gives how many went. -/
def keepOnly (C : ResultCache) (live : List Path) : ResultCache × Nat :=
  let kept := C.slots.filter fun s => live.any (·.same s.1)
  let evicted := C.slots.length - kept.length
  ({ C with slots := kept, stats.invalidations := C.stats.invalidations + evicted }, evicted)

def clear (C : ResultCache) : ResultCache := { C with slots := [] }

def size (C : ResultCache) : Nat := C.slots.length

def isEmpty (C : ResultCache) : Bool := C.slots.isEmpty

end ResultCache

end RootedBuild
