import RootedBuild.Proofs.Build.Results
import RootedBuild.Proofs.Ownership.Memory

/-!
What a file comes to on its own. When the tree stays as it is and the engine answers without regard
to what it remembers, the answer for a file is a function of the file: `analysisAlone`, computed
with no locator memory, no nodes and no cache. A build whose memories are truthful gives that answer
and stays truthful, whatever it did before. Crashes are answers like all others here.
-/
namespace RootedBuild

/-- On the tree `t`, the engine's answers do not hang on what it remembers. -/
structure Engine.Steady (E : Engine σ α) (t : FileTree) : Prop where
  create : ∀ facts options m m', (E.create t facts options m).2 = (E.create t facts options m').2
  analyze : ∀ a file source m m',
    (E.analyze t a file source m).2 = (E.analyze t a file source m').2

/-! ### Results in the cache -/

namespace ResultCache

/-- Every result found for a file in its canonical spelling is a `good` one for that file. -/
def Truthful (good : Path → Analysis → Prop) (C : ResultCache) : Prop :=
  ∀ file slot e, file.Canonical → C.slot? file = some slot → slot.entry = some e →
    good file e.stored.result

theorem truthful_empty (good : Path → Analysis → Prop) : empty.Truthful good := by
  intro file slot e _ found
  simp [slot?, empty] at found

variable {good : Path → Analysis → Prop} {C : ResultCache}

theorem Truthful.withSlot (h : C.Truthful good) {file : Path} (canonical : file.Canonical)
    (slot : CacheSlot) (new : ∀ e, slot.entry = some e → good file e.stored.result) :
    (C.withSlot file slot).Truthful good := by
  intro f s e canonicalF found has
  rw [slot?_withSlot] at found
  cases same : file.same f with
  | true =>
      rw [same, if_pos rfl, Option.some.injEq] at found
      rw [← canonical.eq_of_same canonicalF same]
      exact new e (found ▸ has)
  | false =>
      rw [same, if_neg Bool.false_ne_true] at found
      exact h f s e canonicalF found has

theorem Truthful.of_slots (h : C.Truthful good) {C' : ResultCache} (same : C'.slots = C.slots) :
    C'.Truthful good := by
  intro file slot e canonical found
  exact h file slot e canonical (by rwa [slot?, same] at found)

/-- Fetching from a truthful cache gives a good result or what the analyzer says now, and leaves a
truthful cache if what it says is good. -/
theorem fetch_of_truthful (h : C.Truthful good) (key : CacheKey) (canonical : key.file.Canonical)
    (analyze : τ → Turn τ (Outcome AnalysisFault Analysis)) (s : τ)
    (fresh : ∀ a, (analyze s).answer = .ok a → good key.file a) :
    ((∃ stored, (C.fetch key analyze s).answer = .ok stored ∧ good key.file stored.result) ∨
      (C.fetch key analyze s).answer.map Stored.result = (analyze s).answer) ∧
      (C.fetch key analyze s).state.1.Truthful good := by
  cases fetched_fetch C key analyze s with
  | served slot e has holds fits slots rest answer =>
      exact ⟨.inl ⟨e.stored, answer, h key.file slot e canonical has holds⟩, h.of_slots slots⟩
  | stored slot new said holds slots rest answer =>
      have written : (C.withSlot key.file slot).Truthful good := by
        apply h.withSlot canonical slot
        intro e entry
        cases holds.symm.trans entry
        exact fresh new.result said
      exact ⟨.inr (by rw [answer, said]; rfl), written.of_slots slots⟩
  | kept slot said holds slots rest answer =>
      have written : (C.withSlot key.file slot).Truthful good := by
        apply h.withSlot canonical slot
        intro e entry
        obtain ⟨old, found, has⟩ := getD_slot?_entry (holds.symm.trans entry)
        exact h key.file old e canonical found has
      exact ⟨.inr answer, written.of_slots slots⟩

end ResultCache

/-! ### A file on its own -/

namespace Build

variable (E : Engine σ α) (t : FileTree) (B₀ : Build σ α)

/-- The root of a file, located afresh. -/
def rootAlone (file : Path) : Root := (B₀.ownership.locator.unasked.rootOf t file).answer

/-- What the node of a root consists of when it is made afresh. -/
def contentsAlone (root : Root) : Outcome Failure (NodeContents α) :=
  (Ownership.makeContents E t B₀.ownership.locator.settings root B₀.ownership.bench).answer

/-- What a file in its canonical spelling comes to, read, located and analyzed afresh. -/
def analysisAlone (file : Path) : Outcome Failure Analysis :=
  match t.readText file with
  | .error f => .failed (.unreadable file f)
  | .ok source =>
    match contentsAlone E t B₀ (rootAlone t B₀ file) with
    | .failed f => .failed f
    | .crashed => .crashed
    | .ok contents =>
      (E.analyze t contents.analyzer file source B₀.ownership.bench.memory).2.mapFailure .analysis

/-- A build that was set up as `B₀` was, and whose memories are truthful. -/
structure Consistent (B : Build σ α) : Prop where
  context : B.context = B₀.context
  severity : B.severity = B₀.severity
  locator : B.ownership.locator.unasked = B₀.ownership.locator.unasked
  canonical : B.ownership.locator.context.Canonical
  roots : B.ownership.locator.Truthful t
  nodes : B.ownership.nodes.Truthful (Root.Located B₀.ownership.locator.settings.configName)
    (contentsAlone E t B₀)
  results : B.cache.Truthful fun file a => analysisAlone E t B₀ file = .ok a

variable {E t B₀} {B : Build σ α}

theorem consistent_start (rooted : t.here.isAbsolute = true) (context : Path)
    (options : BuildOptions) (memory memory' : σ) :
    Consistent E t (start t context options memory : Told (Build σ α)).answer
      (start t context options memory' : Told (Build σ α)).answer where
  context := rfl
  severity := rfl
  locator := rfl
  canonical := by
    simp only [start, Ownership.new, Locator.new]
    exact FileTree.canonical_absolute rooted _
  roots := Locator.truthful_of_found rfl
  nodes := NodeTable.truthful_empty _ _
  results := ResultCache.truthful_empty _

theorem Consistent.settings (h : Consistent E t B₀ B) :
    B.ownership.locator.settings = B₀.ownership.locator.settings :=
  Locator.settings_eq_of_unasked h.locator

/-- What a node is made from does not hang on the state of the bench. -/
theorem makeContents_answer (steady : E.Steady t) (settings : Settings) (root : Root)
    (b b' : Bench σ) :
    (Ownership.makeContents E t settings root b).answer =
      (Ownership.makeContents E t settings root b').answer := by
  simp only [Ownership.makeContents, Bench.create]
  cases (Locator.optionsOf t settings root).answer with
  | error f => rfl
  | ok options => simp only [steady.create root.facts options b.memory b'.memory]

/-- Resolving a file gives a node as it is made afresh for the file's root. -/
theorem resolve_of_consistent (rooted : t.here.isAbsolute = true) (steady : E.Steady t)
    (h : Consistent E t B₀ B) {file : Path} (canonical : file.Canonical) :
    (B.resolve E t file).answer.map Node.contents = contentsAlone E t B₀ (rootAlone t B₀ file) ∧
      Consistent E t B₀ (B.resolve E t file).state := by
  have located := Locator.rootOf_of_truthful rooted h.roots file
  have settled := Locator.located_rootOf rooted h.roots h.canonical file
  have root : (B.ownership.locator.rootOf t file).answer = rootAlone t B₀ file := by
    rw [located.1, h.locator, rootAlone]
  rw [h.settings, root] at settled
  have same := makeContents_answer steady B.ownership.locator.settings (rootAlone t B₀ file)
    B.ownership.bench B₀.ownership.bench
  rw [h.settings] at same
  have fetched := NodeTable.fetch_of_truthful h.nodes settled
    (fun r inside => fun eq => (settled.eq_of_same inside eq).symm)
    (Ownership.makeContents E t B₀.ownership.locator.settings (rootAlone t B₀ file))
    B.ownership.bench same
  simp only [resolve, Ownership.resolve, FileTree.absolute_of_canonical canonical, root, h.settings]
  exact ⟨fetched.1,
    { context := h.context
      severity := h.severity
      locator := located.2.2.trans h.locator
      canonical := by
        rw [← Locator.unasked_context, located.2.2, Locator.unasked_context]
        exact h.canonical
      roots := located.2.1
      nodes := fetched.2
      results := h.results }⟩

/-- Analyzing a file with a node as it is made afresh gives what the file comes to on its own. -/
theorem analyze_of_consistent (steady : E.Steady t) (h : Consistent E t B₀ B) {file : Path}
    (canonical : file.Canonical) {source : String} (read : t.readText file = .ok source)
    {node : Node α} (made : contentsAlone E t B₀ (rootAlone t B₀ file) = .ok node.contents) :
    ((B.analyze E t node file source).answer.map Stored.result).mapFailure .analysis =
        analysisAlone E t B₀ file ∧
      Consistent E t B₀ (B.analyze E t node file source).state := by
  have said (b : Bench σ) : (Bench.analyze E t node file source b).answer.mapFailure .analysis =
      analysisAlone E t B₀ file := by
    simp only [analysisAlone, read, made]
    exact congrArg _ (steady.analyze node.analyzer file source b.memory _)
  have fetched := ResultCache.fetch_of_truthful h.results (.of file node.id source) canonical
    (Bench.analyze E t node file source) B.ownership.bench
    fun a answer => by
      change analysisAlone E t B₀ file = _
      rw [← said B.ownership.bench, answer]
      rfl
  refine ⟨?_, ?_⟩
  · change ((B.cache.fetch _ _ _).answer.map Stored.result).mapFailure _ = _
    rcases fetched.1 with ⟨stored, answer, good⟩ | fresh
    · rw [answer]
      exact good.symm
    · rw [fresh, said]
  · exact
      { context := h.context
        severity := h.severity
        locator := h.locator
        canonical := h.canonical
        roots := h.roots
        nodes := h.nodes
        results := fetched.2 }

theorem Consistent.deliver (h : Consistent E t B₀ B) (a : Analysis) :
    B.deliver a = B₀.deliver a := by
  rw [Build.deliver, Build.deliver, h.context, h.severity]

/-! ### Compiling -/

theorem compile_of_unreadable {file : Path} {f : FileFault}
    (read : t.readText (t.absolute file) = .error f) :
    B.compile E t file = ⟨B, [], .failed (.unreadable (t.absolute file) f)⟩ := by
  unfold compile
  dsimp only
  rw [read]

theorem compile_of_readable {file : Path} {source : String}
    (read : t.readText (t.absolute file) = .ok source) :
    B.compile E t file = B.compileSource E t (t.absolute file) source := by
  unfold compile
  dsimp only
  rw [read]

/-- Compiling a text is resolving its file, analyzing it with the node found, and delivering. -/
theorem compileSource_answer (file : Path) (source : String) :
    (B.compileSource E t file source).answer =
        (match (B.resolve E t (t.absolute file)).answer with
        | .failed f => .failed f
        | .crashed => .crashed
        | .ok node =>
          let run :=
            (B.resolve E t (t.absolute file)).state.analyze E t node (t.absolute file) source
          ((run.answer.map Stored.result).mapFailure .analysis).map B.deliver) ∧
      (B.compileSource E t file source).state =
        (match (B.resolve E t (t.absolute file)).answer with
        | .ok node =>
          ((B.resolve E t (t.absolute file)).state.analyze E t node (t.absolute file) source).state
        | _ => (B.resolve E t (t.absolute file)).state) := by
  unfold compileSource
  dsimp only
  generalize B.resolve E t (t.absolute file) = found
  cases answer : found.answer with
  | failed f => exact ⟨rfl, rfl⟩
  | crashed => exact ⟨rfl, rfl⟩
  | ok node =>
      dsimp only
      generalize found.state.analyze E t node (t.absolute file) source = run
      cases result : run.answer <;> exact ⟨rfl, rfl⟩

/-- A consistent build gives each file what it comes to on its own, and stays consistent. -/
theorem compile_of_consistent (rooted : t.here.isAbsolute = true) (steady : E.Steady t)
    (h : Consistent E t B₀ B) (file : Path) :
    (B.compile E t file).answer = (analysisAlone E t B₀ (t.absolute file)).map B₀.deliver ∧
      Consistent E t B₀ (B.compile E t file).state := by
  have canonical := FileTree.canonical_absolute rooted file
  cases read : t.readText (t.absolute file) with
  | error f =>
      rw [compile_of_unreadable read, analysisAlone, read]
      exact ⟨rfl, h⟩
  | ok source =>
      have resolved := resolve_of_consistent rooted steady h canonical
      have compiled := compileSource_answer (E := E) (t := t) (B := B) (t.absolute file) source
      rw [FileTree.absolute_absolute rooted] at compiled
      rw [compile_of_readable read, compiled.1, compiled.2, analysisAlone, read]
      generalize B.resolve E t (t.absolute file) = found at resolved
      cases answer : found.answer with
      | failed f =>
          rw [answer] at resolved
          rw [← resolved.1]
          exact ⟨rfl, resolved.2⟩
      | crashed =>
          rw [answer] at resolved
          rw [← resolved.1]
          exact ⟨rfl, resolved.2⟩
      | ok node =>
          rw [answer] at resolved
          have analyzed := analyze_of_consistent steady resolved.2 canonical read resolved.1.symm
          rw [analysisAlone, read] at analyzed
          refine ⟨?_, analyzed.2⟩
          dsimp only at analyzed ⊢
          rw [← analyzed.1, funext h.deliver]

end Build

end RootedBuild
