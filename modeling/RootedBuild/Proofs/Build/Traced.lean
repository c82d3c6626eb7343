import RootedBuild.Proofs.Build.Spelling
import RootedBuild.Proofs.Build.Uncached

/-!
Where the results in a cache come from. With every result written down that an analyzer gives, each
record of the cache is what the analyzer of the file's own node said last of the file, and its
fingerprint is that of the text it was said of. An engine whose results are written down cannot be
told from the engine itself. Analyses that fail or crash give no result and leave no trace here.
-/
namespace RootedBuild

/-! ### Results written down -/

/-- A result that an analyzer gave for a text of a file. -/
structure Finding where
  file : Path
  source : String
  result : Analysis
  deriving DecidableEq

namespace Finding

/-- The latest one for a file. -/
def last? (findings : List Finding) (file : Path) : Option Finding :=
  (findings.filter fun f => f.file == file).getLast?

variable {findings : List Finding} {file : Path}

theorem last?_concat_self (finding : Finding) :
    last? (findings ++ [finding]) finding.file = some finding := by
  simp [last?]

theorem last?_concat_of_ne {finding : Finding} (other : finding.file ≠ file) :
    last? (findings ++ [finding]) file = last? findings file := by
  simp [last?, other]

theorem mem_of_last? {finding : Finding} (h : last? findings file = some finding) :
    finding ∈ findings ∧ finding.file = file := by
  obtain ⟨inside, same⟩ := List.mem_filter.mp (List.mem_of_getLast? h)
  exact ⟨inside, eq_of_beq same⟩

/-- What an outcome adds to the findings. -/
def of (file : Path) (source : String) : Outcome AnalysisFault Analysis → List Finding
  | .ok result => [⟨file, source, result⟩]
  | .failed _ => []
  | .crashed => []

end Finding

/-- The engine with its findings written down. -/
def Engine.heard (E : Engine σ α) : Engine (σ × List Finding) α where
  create t facts options m :=
    let (memory, outcome) := E.create t facts options m.1
    ((memory, m.2), outcome)
  analyze t a file source m :=
    let (memory, outcome) := E.analyze t a file source m.1
    ((memory, m.2 ++ Finding.of file source outcome), outcome)

/-- Findings and calls written down together are not seen by the engine. -/
theorem Engine.covers_heard_watched (E : Engine σ α) :
    E.heard.watched.Covers (fun m => m.1.1) Prod.fst E where
  create := by
    intro t facts options m
    simp only [watched, heard]
    cases outcome : (E.create t facts options m.1.1).2 <;>
      simp [Prod.ext_iff, Outcome.map, outcome]
  analyze := by
    intro t a file source m
    rfl

/-! ### What the engine remembers after a question for an owner -/

variable {E : Engine σ α} {t : FileTree}

/-- What the factory keeps of the engine's memory, looking for an owner keeps. -/
theorem Build.resolve_keeps {P : σ → Prop} {B : Build σ α}
    (keeps : ∀ facts options m, P m → P (E.create t facts options m).1)
    (holds : P B.ownership.bench.memory) (file : Path) :
    P (B.resolve E t file).state.ownership.bench.memory := by
  let root := (B.ownership.locator.rootOf t (t.absolute file)).answer
  let make := Ownership.makeContents E t B.ownership.locator.settings root
  have made : P (make B.ownership.bench).state.memory := by
    change P (Ownership.makeContents E t B.ownership.locator.settings root
      B.ownership.bench).state.memory
    unfold Ownership.makeContents
    dsimp only
    cases (Locator.optionsOf t B.ownership.locator.settings root).answer with
    | error f => exact holds
    | ok options => exact keeps root.facts options _ holds
  change P (B.ownership.nodes.fetch root make B.ownership.bench).state.2.memory
  cases NodeTable.fetched_fetch B.ownership.nodes root make B.ownership.bench with
  | found slot node has holds table rest => rwa [rest]
  | made slot parts said bare table rest => rwa [rest]
  | failed slot e said bare unmade table rest => rwa [rest]
  | crashed slot said bare unmade table rest => rwa [rest]

/-! ### The invariant -/

namespace Build

/-- The findings so far, in order. -/
def heard (B : Build ((σ × List Finding) × List Call) (α × Nat)) : List Finding :=
  B.ownership.bench.memory.1.2

/-- The record is the latest finding for the file, and it was the file's own node that found it. -/
structure Recorded (E : Engine σ α) (here file : Path)
    (B : Build ((σ × List Finding) × List Call) (α × Nat)) (e : CacheRecord) (node : Node (α × Nat))
    (source : String) : Prop where
  member : node ∈ B.ownership.nodes.arena
  id : node.id = e.node
  settled : B.ownership.locator.Settled here file node.root
  found : Finding.last? B.heard file = some ⟨file, source, e.stored.result⟩
  print : e.fingerprint = .ofText source
  said : ∀ out, E.Functional out → out node.analyzer.1 file source = .ok e.stored.result

/-- Roots are kept apart, and every record is the latest finding for its file. -/
structure Traced (E : Engine σ α) (here : Path)
    (B : Build ((σ × List Finding) × List Call) (α × Nat)) : Prop where
  apart : B.RootsApart here
  records : ∀ file e, file.Canonical → B.cache.record? file = some e →
    ∃ node source, Recorded E here file B e node source

/-- What stays over all requests. -/
structure Continues (B C : Build ((σ × List Finding) × List Call) (α × Nat)) : Prop where
  context : C.context = B.context
  severity : C.severity = B.severity
  heard : B.heard <+: C.heard

variable {B C D : Build ((σ × List Finding) × List Call) (α × Nat)} {here file : Path}
  {e : CacheRecord} {node : Node (α × Nat)} {source : String}

theorem Continues.refl (B : Build ((σ × List Finding) × List Call) (α × Nat)) : Continues B B :=
  ⟨rfl, rfl, List.prefix_rfl⟩

theorem Continues.trans (h : Continues B C) (k : Continues C D) : Continues B D :=
  ⟨k.context.trans h.context, k.severity.trans h.severity, h.heard.trans k.heard⟩

theorem Recorded.mono (h : Recorded E here file B e node source) (grows : Grows here B C)
    (found : Finding.last? C.heard file = Finding.last? B.heard file) :
    Recorded E here file C e node source where
  member := grows.nodes node h.member
  id := h.id
  settled := grows.settled file node.root h.settled
  found := found.trans h.found
  print := h.print
  said := h.said

theorem heard_resolve (file : Path) : (B.resolve E.heard.watched t file).state.heard = B.heard :=
  resolve_keeps (E := E.heard.watched) (P := fun m => m.1.2 = B.heard)
    (fun _ _ _ same => same) rfl file

theorem Traced.resolve (h : B.Traced E t.here) (rooted : t.here.isAbsolute = true) (file : Path) :
    let turn := B.resolve E.heard.watched t file
    turn.state.Traced E t.here ∧ Continues B turn.state ∧
      ∀ node, turn.answer = .ok node → node ∈ turn.state.ownership.nodes.arena ∧
        turn.state.ownership.locator.Settled t.here file node.root := by
  obtain ⟨apart, grows, owner⟩ := h.apart.resolve (E := E.heard) rooted file
  have heard := heard_resolve (E := E) (t := t) (B := B) file
  refine ⟨⟨apart, ?_⟩, ⟨rfl, rfl, heard ▸ List.prefix_rfl⟩, owner⟩
  intro f e canonical holds
  obtain ⟨node, source, recorded⟩ := h.records f e canonical holds
  exact ⟨node, source, recorded.mono grows (by rw [heard])⟩

/-- An analysis is not run, or its result is written down and takes the place of the record. -/
theorem Traced.analyze (h : B.Traced E here) (member : node ∈ B.ownership.nodes.arena)
    (canonical : file.Canonical) (settled : B.ownership.locator.Settled here file node.root)
    (source : String) :
    (B.analyze E.heard.watched t node file source).state.Traced E here ∧
      Continues B (B.analyze E.heard.watched t node file source).state := by
  obtain ⟨apart, grows⟩ := h.apart.analyze (E := E.heard) (t := t) member settled source
  let key : CacheKey := .of file node.id source
  let run := Bench.analyze E.heard.watched t node file source
  let said := E.analyze t node.analyzer.1 file source B.ownership.bench.memory.1.1
  cases has : (B.cache.get key).answer with
  | some stored =>
      have state := (ResultCache.fetch_of_get has run B.ownership.bench).1
      have cache : (B.analyze E.heard.watched t node file source).state.cache = B.cache.countHit :=
        congrArg Prod.fst state
      have heard : (B.analyze E.heard.watched t node file source).state.heard = B.heard :=
        congrArg (fun s => s.2.memory.1.2) state
      refine ⟨⟨apart, ?_⟩, ⟨rfl, rfl, heard ▸ List.prefix_rfl⟩⟩
      intro f e whole holds
      rw [cache] at holds
      obtain ⟨node, source, recorded⟩ := h.records f e whole holds
      exact ⟨node, source, recorded.mono grows (by rw [heard])⟩
  | none =>
      have state := (ResultCache.fetch_of_get_eq_none has run B.ownership.bench).1
      have cache : (B.analyze E.heard.watched t node file source).state.cache =
          B.cache.afterAnalysis key said.2 := congrArg Prod.fst state
      have heard : (B.analyze E.heard.watched t node file source).state.heard =
          B.heard ++ Finding.of file source said.2 := congrArg (fun s => s.2.memory.1.2) state
      refine ⟨⟨apart, ?_⟩, ⟨rfl, rfl, heard ▸ List.prefix_append _ _⟩⟩
      intro f e whole holds
      rw [cache] at holds
      have old (unstored : B.cache.record? f = some e) (same : Finding.last? (B.analyze
          E.heard.watched t node file source).state.heard f = Finding.last? B.heard f) :
          ∃ owner text, Recorded E here f
            (B.analyze E.heard.watched t node file source).state e owner text := by
        obtain ⟨owner, text, recorded⟩ := h.records f e whole unstored
        exact ⟨owner, text, recorded.mono grows same⟩
      cases outcome : said.2 with
      | ok result =>
          rw [outcome] at holds heard
          rw [ResultCache.record?_afterAnalysis_ok] at holds
          split at holds
          · rename_i same
            cases canonical.eq_of_same whole same
            cases holds
            refine ⟨node, source, grows.nodes node member, rfl,
              grows.settled file node.root settled, ?_, rfl, fun out functional => ?_⟩
            · rw [heard]
              exact Finding.last?_concat_self ⟨file, source, result⟩
            · exact (functional t node.analyzer.1 file source _).symm.trans outcome
          · rename_i other
            refine old holds ?_
            rw [heard]
            apply Finding.last?_concat_of_ne
            rintro rfl
            exact other (Path.same_self _)
      | failed f =>
          rw [outcome] at holds heard
          rw [ResultCache.record?_afterAnalysis (by simp)] at holds
          exact old holds (by rw [heard, Finding.of, List.append_nil])
      | crashed =>
          rw [outcome] at holds heard
          rw [ResultCache.record?_afterAnalysis (by simp)] at holds
          exact old holds (by rw [heard, Finding.of, List.append_nil])

theorem Traced.finish (h : B.Traced E here) (live : List Path) :
    (B.finish t live).state.Traced E here ∧ Continues B (B.finish t live).state := by
  refine ⟨⟨h.apart, ?_⟩, rfl, rfl, List.prefix_rfl⟩
  intro f e canonical holds
  change (B.cache.keepOnly (live.map t.absolute)).1.record? f = some e at holds
  rw [ResultCache.record?_keepOnly] at holds
  split at holds
  · cases holds
  · obtain ⟨node, source, recorded⟩ := h.records f e canonical holds
    exact ⟨node, source, recorded.mono ⟨rfl, fun _ m => m, fun _ _ s => s⟩ rfl⟩

/-- A build stays traced, and goes on from `B₀`. -/
theorem keeps_traced (rooted : t.here.isAbsolute = true)
    (B₀ : Build ((σ × List Finding) × List Call) (α × Nat)) :
    Keeps E.heard.watched t (fun B => B.Traced E t.here ∧ Continues B₀ B) (Owns t.here) where
  resolve := by
    rintro B file ⟨traced, stays⟩
    obtain ⟨after, more, owner⟩ := traced.resolve rooted file
    exact ⟨⟨after, stays.trans more⟩, owner⟩
  analyze := by
    rintro B file node source ⟨traced, stays⟩ ⟨member, settled⟩
    obtain ⟨after, more⟩ := traced.analyze (t := t) member
      (FileTree.canonical_absolute rooted file) settled source
    exact ⟨after, stays.trans more⟩
  finish := by
    rintro B live ⟨traced, stays⟩
    obtain ⟨after, more⟩ := traced.finish (t := t) live
    exact ⟨after, stays.trans more⟩

theorem Traced.compile (h : B.Traced E t.here) (rooted : t.here.isAbsolute = true)
    (file : Path) : (B.compile E.heard.watched t file).state.Traced E t.here ∧
      Continues B (B.compile E.heard.watched t file).state :=
  (keeps_traced rooted B).compile ⟨h, .refl B⟩ file

/-! ### Results that are known -/

/-- A known result is the latest finding for its file, of a text with the same fingerprint. -/
theorem Traced.of_knows (h : B.Traced E here) (canonical : file.Canonical) {stored : Stored}
    (knows : B.Knows here file source stored) :
    ∃ text, Finding.last? B.heard file = some ⟨file, text, stored.result⟩ ∧
      Fingerprint.ofText text = Fingerprint.ofText source := by
  obtain ⟨node, member, settled, has⟩ := knows
  have holds := ResultCache.get_eq_some_iff.mp has
  dsimp only [CacheKey.of] at holds
  obtain ⟨owner, text, recorded⟩ := h.records file _ canonical holds
  exact ⟨text, recorded.found, recorded.print.symm⟩

end Build

/-! ### Histories -/

namespace Session

variable {S : Session ((σ × List Finding) × List Call) (α × Nat)} {here : Path}

theorem start_traced (rooted : t.here.isAbsolute = true) (context : Path) (options : BuildOptions)
    (memory : σ) : (start t context options ((memory, []), []) :
      Session ((σ × List Finding) × List Call) (α × Nat)).build.Traced E t.here where
  apart := Isolated.start rooted (t.absolute context) options.settings
  records := by
    intro file e _ holds
    cases holds

theorem run_traced (same : S.tree.here = here) (rooted : here.isAbsolute = true)
    (h : S.build.Traced E here) (steps : List Step) :
    (S.run E.heard.watched steps).1.build.Traced E here ∧
      Build.Continues S.build (S.run E.heard.watched steps).1.build :=
  run_keeps (fun _ there => there ▸ Build.keeps_traced (E := E) (there ▸ rooted) S.build) same
    ⟨h, .refl S.build⟩ steps

end Session

end RootedBuild
