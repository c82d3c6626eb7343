import RootedBuild.History
import RootedBuild.Proofs.Build.Batch
import RootedBuild.Proofs.Build.Handling
import RootedBuild.Proofs.Ownership.Lasting

/-!
A build with its cache and one without. As long as analyzers are functions of the file and its text,
and no two texts share a fingerprint, an answer never shows whether it came from the cache: it is
what the owning node's analyzer says of the text as it is now. How often an analyzer is run is
another matter, and so are the counts of the cache.
-/
namespace RootedBuild

/-- The analyzers are functions of the file and its text. -/
def Engine.Functional (E : Engine σ α)
    (out : α → Path → String → Outcome AnalysisFault Analysis) : Prop :=
  ∀ t a file source m, (E.analyze t a file source m).2 = out a file source

/-- What the factory goes by in the engine's memory is its own: no analysis changes it. -/
structure Engine.Apart (E : Engine σ α) (part : σ → φ) : Prop where
  create : ∀ t facts options m m', part m = part m' →
    (E.create t facts options m).2 = (E.create t facts options m').2 ∧
      part (E.create t facts options m).1 = part (E.create t facts options m').1
  analyze : ∀ t a file source m, part (E.analyze t a file source m).1 = part m

/-- Different texts have different fingerprints. -/
def Distinct (texts : List String) : Prop :=
  ∀ s ∈ texts, ∀ s' ∈ texts, Fingerprint.ofText s = Fingerprint.ofText s' → s = s'

/-! ### The texts of a history -/

namespace Step

/-- The texts of some files, as far as they can be read. -/
def textsIn (t : FileTree) (files : List Path) : List String :=
  files.filterMap fun file => (t.readText (t.absolute file)).toOption

theorem mem_textsIn {t : FileTree} {files : List Path} {file : Path} (member : file ∈ files)
    {source : String} (read : t.readText (t.absolute file) = .ok source) :
    source ∈ textsIn t files :=
  List.mem_filterMap.mpr ⟨file, member, by rw [read]; rfl⟩

/-- The tree that a step leaves. -/
def treeAfter (t : FileTree) : Step → FileTree
  | .change entries => { t with entries }
  | _ => t

/-- The texts that a step brings to a build, given with it or read from the tree. -/
def texts (t : FileTree) : Step → List String
  | .compile file => textsIn t [file]
  | .compileSource _ source => [source]
  | .compileAll files => textsIn t files
  | _ => []

def textsOf (t : FileTree) : List Step → List String
  | [] => []
  | step :: steps => step.texts t ++ textsOf (step.treeAfter t) steps

end Step

variable {E : Engine σ α} {out : α → Path → String → Outcome AnalysisFault Analysis}
  {t : FileTree} {texts : List String}

/-! ### Answers without a cache -/

namespace Build

/-- A text compiled by its owner's analyzer, with no cache in between. -/
def direct (E : Engine σ α) (out : α → Path → String → Outcome AnalysisFault Analysis)
    (t : FileTree) (B : Build σ α) (file : Path) (source : String) : Outcome Failure FileOutput :=
  match (B.resolve E t (t.absolute file)).answer with
  | .failed f => .failed f
  | .crashed => .crashed
  | .ok node => ((out node.analyzer (t.absolute file) source).mapFailure .analysis).map B.deliver

/-- The same for the contents of a file, as they are now. -/
def directOf (E : Engine σ α) (out : α → Path → String → Outcome AnalysisFault Analysis)
    (t : FileTree) (B : Build σ α) (file : Path) : Outcome Failure FileOutput :=
  match t.readText (t.absolute file) with
  | .error f => .failed (.unreadable (t.absolute file) f)
  | .ok source => B.direct E out t (t.absolute file) source

/-- A build that has lost its cache. -/
def forget (B : Build σ α) : Build σ α := { B with cache := .empty }

/-- What an entry of the cache must be to be served: made by a node of the build, from one of the
texts, and just what the node's analyzer says of it. -/
def Genuine (out : α → Path → String → Outcome AnalysisFault Analysis) (texts : List String)
    (nodes : NodeTable α) (file : Path) (e : CacheRecord) : Prop :=
  ∃ node, node ∈ nodes.arena ∧ node.id = e.node ∧ ∃ source ∈ texts,
    e.fingerprint = .ofText source ∧ out node.analyzer file source = .ok e.stored.result

structure Current (out : α → Path → String → Outcome AnalysisFault Analysis) (texts : List String)
    (B : Build σ α) : Prop where
  sound : B.ownership.nodes.Sound
  results : B.cache.Holds (Genuine out texts B.ownership.nodes)

variable {B : Build σ α}

theorem Current.resolve (h : B.Current out texts) (file : Path) :
    (B.resolve E t file).state.Current out texts ∧
      ∀ node, (B.resolve E t file).answer = .ok node →
        node ∈ (B.resolve E t file).state.ownership.nodes.arena := by
  have fetched := h.sound.fetch (B.ownership.locator.rootOf t (t.absolute file)).answer
    (Ownership.makeContents E t B.ownership.locator.settings
      (B.ownership.locator.rootOf t (t.absolute file)).answer) B.ownership.bench
  refine ⟨⟨fetched.1, h.results.mono ?_⟩, fun node answer => (fetched.2.2 node answer).1⟩
  rintro f e ⟨node, member, rest⟩
  exact ⟨node, fetched.2.1 node member, rest⟩

/-- The cache is not seen in an analysis. -/
theorem Current.analyze (h : B.Current out texts) (functional : E.Functional out)
    (distinct : Distinct texts) {node : Node α} (member : node ∈ B.ownership.nodes.arena)
    {file : Path} (canonical : file.Canonical) {source : String} (inside : source ∈ texts) :
    (B.analyze E t node file source).answer.map Stored.result = out node.analyzer file source ∧
      (B.analyze E t node file source).state.Current out texts := by
  have said : (Bench.analyze E t node file source B.ownership.bench).answer =
      out node.analyzer file source := functional t node.analyzer file source _
  refine ⟨?_, h.sound, ?_⟩
  · change (B.cache.fetch (.of file node.id source) (Bench.analyze E t node file source)
      B.ownership.bench).answer.map Stored.result = _
    cases ResultCache.fetched_fetch B.cache (.of file node.id source)
      (Bench.analyze E t node file source) B.ownership.bench with
    | served slot e has holds fits slots rest answer =>
        obtain ⟨owner, ownerMember, id, text, known, print, result⟩ :=
          h.results.entry canonical has holds
        simp only [CacheRecord.fits, CacheKey.of, Bool.and_eq_true, beq_iff_eq] at fits
        -- the node and the text of the entry are those that are asked for
        have same : owner = node := h.sound.eq_of_id_eq ownerMember member (id.trans fits.1)
        have current : text = source := distinct text known source inside (print.symm.trans fits.2)
        rw [answer, ← same, ← current, result]
        rfl
    | stored slot new ran holds slots rest answer =>
        rw [answer, ← said, ran]
        rfl
    | kept slot ran holds slots rest answer => rw [answer, said]
  · apply h.results.fetch canonical
    intro new ran
    exact ⟨node, member, rfl, source, inside, rfl, said.symm.trans ran⟩

theorem Current.compileSource (h : B.Current out texts) (functional : E.Functional out)
    (distinct : Distinct texts) (rooted : t.here.isAbsolute = true) (file : Path) {source : String}
    (inside : source ∈ texts) :
    (B.compileSource E t file source).answer = B.direct E out t file source ∧
      (B.compileSource E t file source).state.Current out texts := by
  have canonical := FileTree.canonical_absolute rooted file
  obtain ⟨after, owner⟩ := h.resolve (E := E) (t := t) (t.absolute file)
  rw [(compileSource_answer file source).1, (compileSource_answer file source).2, direct]
  cases answer : (B.resolve E t (t.absolute file)).answer with
  | failed f => exact ⟨rfl, after⟩
  | crashed => exact ⟨rfl, after⟩
  | ok node =>
      obtain ⟨same, last⟩ :=
        after.analyze (t := t) functional distinct (owner node answer) canonical inside
      exact ⟨by dsimp only; rw [same], last⟩

theorem Current.compile (h : B.Current out texts) (functional : E.Functional out)
    (distinct : Distinct texts) (rooted : t.here.isAbsolute = true) (file : Path)
    (inside : ∀ source, t.readText (t.absolute file) = .ok source → source ∈ texts) :
    (B.compile E t file).answer = B.directOf E out t file ∧
      (B.compile E t file).state.Current out texts := by
  unfold directOf
  cases read : t.readText (t.absolute file) with
  | error f =>
      rw [compile_of_unreadable read]
      exact ⟨rfl, h⟩
  | ok source =>
      rw [compile_of_readable read]
      exact h.compileSource functional distinct rooted (t.absolute file) (inside source read)

/-- Files compiled as the build goes on, each answered with no cache in between. -/
def directly (E : Engine σ α) (out : α → Path → String → Outcome AnalysisFault Analysis)
    (t : FileTree) : Handler (Build σ α) :=
  fun B file => ⟨(B.compile E t file).state, [], B.directOf E out t file⟩

theorem Current.compileAll (h : B.Current out texts) (functional : E.Functional out)
    (distinct : Distinct texts) (rooted : t.here.isAbsolute = true) {files : List Path}
    (inside : ∀ source ∈ Step.textsIn t files, source ∈ texts) :
    (B.compileAll E t files).answer = (Handler.all t (directly E out t) B files).2 ∧
      (B.compileAll E t files).state.Current out texts := by
  have alike : Handler.Alike (· ∈ files) (fun B C => B = C ∧ B.Current out texts)
      (Build.compile E t) (directly E out t) := by
    rintro B _ file member ⟨rfl, current⟩
    obtain ⟨answer, after⟩ := current.compile functional distinct rooted file
      fun source read => inside source (Step.mem_textsIn member read)
    dsimp only [directly]
    exact ⟨answer, rfl, after⟩
  obtain ⟨same, _, after⟩ := alike.all (t := t) ⟨rfl, h⟩ fun _ member => member
  rw [compileAll_answer, compileAll_state]
  exact ⟨same, after⟩

theorem Current.finish (h : B.Current out texts) (live : List Path) :
    (B.finish t live).state.Current out texts :=
  ⟨h.sound, h.results.keepOnly _⟩

end Build

namespace Session

/-- The answer to a step, with no cache in between. -/
def directly (E : Engine σ α) (out : α → Path → String → Outcome AnalysisFault Analysis)
    (S : Session σ α) : Step → Answer α
  | .compile file => .output (S.build.directOf E out S.tree file)
  | .compileSource file source => .output (S.build.direct E out S.tree file source)
  | .compileAll files => .report (Handler.all S.tree (Build.directly E out S.tree) S.build files).2
  | step => (S.step E step).2

def runDirectly (E : Engine σ α) (out : α → Path → String → Outcome AnalysisFault Analysis)
    (S : Session σ α) : List Step → List (Answer α)
  | [] => []
  | step :: steps => S.directly E out step :: (S.step E step).1.runDirectly E out steps

theorem step_tree (S : Session σ α) (step : Step) :
    (S.step E step).1.tree = step.treeAfter S.tree := by
  cases step <;> simp only [step, Step.treeAfter]

theorem step_of_current {S : Session σ α} (h : S.build.Current out texts)
    (functional : E.Functional out) (distinct : Distinct texts)
    (rooted : S.tree.here.isAbsolute = true) (step : Step)
    (inside : ∀ source ∈ step.texts S.tree, source ∈ texts) :
    (S.step E step).2 = S.directly E out step ∧ (S.step E step).1.build.Current out texts := by
  cases step with
  | change entries => exact ⟨rfl, h⟩
  | resolve file => exact ⟨rfl, (h.resolve file).1⟩
  | compile file =>
      obtain ⟨answer, after⟩ := h.compile functional distinct rooted file
        fun source read => inside source (Step.mem_textsIn (by simp) read)
      dsimp only [step, directly]
      exact ⟨congrArg Answer.output answer, after⟩
  | compileSource file source =>
      obtain ⟨answer, after⟩ := h.compileSource functional distinct rooted file
        (inside source (by simp [Step.texts]))
      dsimp only [step, directly]
      exact ⟨congrArg Answer.output answer, after⟩
  | compileAll files =>
      obtain ⟨answer, after⟩ := h.compileAll functional distinct rooted inside
      dsimp only [step, directly]
      exact ⟨congrArg Answer.report answer, after⟩
  | finish live => exact ⟨rfl, h.finish live⟩

theorem run_of_current {S : Session σ α} (h : S.build.Current out texts)
    (functional : E.Functional out) (distinct : Distinct texts)
    (rooted : S.tree.here.isAbsolute = true) {steps : List Step}
    (inside : ∀ source ∈ Step.textsOf S.tree steps, source ∈ texts) :
    (S.run E steps).2 = S.runDirectly E out steps := by
  induction steps generalizing S with
  | nil => rfl
  | cons step steps ih =>
      obtain ⟨answer, after⟩ := step_of_current h functional distinct rooted step
        fun source member => inside source (List.mem_append_left _ member)
      have rest := ih after (by rw [step_tree]; cases step <;> exact rooted) (by
        rw [step_tree]
        exact fun source member => inside source (List.mem_append_right _ member))
      simp only [run, runDirectly, answer, rest]

end Session

/-! ### A build that goes on without a cache -/

theorem NodeTable.fetch_congr {make : τ → Turn τ (Outcome ε (NodeContents α))} {P : τ → τ → Prop}
    {s s' : τ} (before : P s s') (answer : (make s).answer = (make s').answer)
    (after : P (make s).state (make s').state) (R : NodeTable α) (root : Root) :
    (R.fetch root make s).answer = (R.fetch root make s').answer ∧
      (R.fetch root make s).state.1 = (R.fetch root make s').state.1 ∧
      P (R.fetch root make s).state.2 (R.fetch root make s').state.2 := by
  unfold fetch
  dsimp only
  cases ((R.slot? root).getD {}).node with
  | some node => exact ⟨rfl, rfl, before⟩
  | none =>
      dsimp only
      rw [answer]
      cases (make s').answer <;> exact ⟨rfl, rfl, after⟩

namespace Build

/-- Two builds that differ only in their caches and in what analyses left in the engine. -/
structure Alongside (part : σ → φ) (B C : Build σ α) : Prop where
  context : B.context = C.context
  severity : B.severity = C.severity
  locator : B.ownership.locator = C.ownership.locator
  nodes : B.ownership.nodes = C.ownership.nodes
  memory : part B.ownership.bench.memory = part C.ownership.bench.memory

variable {part : σ → φ} {B C : Build σ α}

theorem Alongside.forget (h : Alongside part B C) : Alongside part B C.forget :=
  ⟨h.context, h.severity, h.locator, h.nodes, h.memory⟩

theorem makeContents_of_part (free : E.Apart part) (settings : Settings) (root : Root)
    {b c : Bench σ} (same : part b.memory = part c.memory) :
    (Ownership.makeContents E t settings root b).answer =
        (Ownership.makeContents E t settings root c).answer ∧
      part (Ownership.makeContents E t settings root b).state.memory =
        part (Ownership.makeContents E t settings root c).state.memory := by
  unfold Ownership.makeContents
  dsimp only
  cases (Locator.optionsOf t settings root).answer with
  | error f => exact ⟨rfl, same⟩
  | ok options =>
      obtain ⟨answer, after⟩ := free.create t root.facts options b.memory c.memory same
      refine ⟨?_, after⟩
      dsimp only [Bench.create]
      rw [answer]

theorem Alongside.resolve (h : Alongside part B C) (free : E.Apart part) (file : Path) :
    (B.resolve E t file).answer = (C.resolve E t file).answer ∧
      Alongside part (B.resolve E t file).state (C.resolve E t file).state := by
  have made := makeContents_of_part (t := t) free B.ownership.locator.settings
    (B.ownership.locator.rootOf t (t.absolute file)).answer h.memory
  have fetched := NodeTable.fetch_congr (P := fun b c => part b.memory = part c.memory) h.memory
    made.1 made.2 B.ownership.nodes (B.ownership.locator.rootOf t (t.absolute file)).answer
  unfold Build.resolve Ownership.resolve
  dsimp only
  rw [← h.locator, ← h.nodes]
  exact ⟨fetched.1, h.context, h.severity, rfl, fetched.2.1, fetched.2.2⟩

/-- An analysis changes nothing that is compared. -/
theorem Alongside.analyze (h : Alongside part B C) (free : E.Apart part) (node : Node α)
    (file : Path) (source : String) :
    Alongside part (B.analyze E t node file source).state
      (C.analyze E t node file source).state := by
  have unchanged (D : Build σ α) :
      part (D.analyze E t node file source).state.ownership.bench.memory =
        part D.ownership.bench.memory := by
    change part (D.cache.fetch (.of file node.id source) (Bench.analyze E t node file source)
      D.ownership.bench).state.2.memory = _
    rcases ResultCache.fetch_state D.cache (.of file node.id source)
      (Bench.analyze E t node file source) D.ownership.bench with stays | runs
    · rw [stays]
    · rw [runs]
      exact free.analyze t node.analyzer file source D.ownership.bench.memory
  exact ⟨h.context, h.severity, h.locator, h.nodes,
    (unchanged B).trans (h.memory.trans (unchanged C).symm)⟩

theorem Alongside.deliver (h : Alongside part B C) (a : Analysis) : B.deliver a = C.deliver a := by
  rw [Build.deliver, Build.deliver, h.context, h.severity]

theorem Alongside.direct (h : Alongside part B C) (free : E.Apart part) (file : Path)
    (source : String) : B.direct E out t file source = C.direct E out t file source := by
  rw [Build.direct, Build.direct, (h.resolve free (t.absolute file)).1, funext h.deliver]

theorem Alongside.compileSource (h : Alongside part B C) (free : E.Apart part) (file : Path)
    (source : String) : Alongside part (B.compileSource E t file source).state
      (C.compileSource E t file source).state := by
  obtain ⟨answer, after⟩ := h.resolve (t := t) free (t.absolute file)
  rw [(compileSource_answer file source).2, (compileSource_answer file source).2, answer]
  cases (C.resolve E t (t.absolute file)).answer with
  | failed f => exact after
  | crashed => exact after
  | ok node => exact after.analyze free node (t.absolute file) source

theorem Alongside.compile (h : Alongside part B C) (free : E.Apart part) (file : Path) :
    Alongside part (B.compile E t file).state (C.compile E t file).state := by
  cases read : t.readText (t.absolute file) with
  | error f =>
      rw [compile_of_unreadable read, compile_of_unreadable read]
      exact h
  | ok source =>
      rw [compile_of_readable read, compile_of_readable read]
      exact h.compileSource free (t.absolute file) source

theorem Alongside.directOf (h : Alongside part B C) (free : E.Apart part) (file : Path) :
    B.directOf E out t file = C.directOf E out t file := by
  unfold Build.directOf
  split
  · rfl
  · exact h.direct free _ _

theorem Alongside.current (h : Alongside part B C) (current : B.Current out texts) :
    C.forget.Current out texts :=
  ⟨h.nodes ▸ current.sound, ResultCache.holds_empty _⟩

/-- Compiles a file without a look into the cache. -/
def compileUncached (E : Engine σ α) (t : FileTree) : Handler (Build σ α) :=
  fun B file => B.forget.compile E t file

theorem alike_compileUncached (functional : E.Functional out) (free : E.Apart part)
    (distinct : Distinct texts) (rooted : t.here.isAbsolute = true) {files : List Path}
    (inside : ∀ source ∈ Step.textsIn t files, source ∈ texts) :
    Handler.Alike (· ∈ files) (fun B C => B.Current out texts ∧ Alongside part B C)
      (Build.compile E t) (compileUncached E t) := by
  rintro B C file member ⟨current, along⟩
  have known (source : String) (read : t.readText (t.absolute file) = .ok source) :
      source ∈ texts := inside source (Step.mem_textsIn member read)
  obtain ⟨answer, after⟩ := current.compile functional distinct rooted file known
  obtain ⟨uncached, _⟩ :=
    (along.current current).compile functional distinct rooted file known
  dsimp only [compileUncached]
  rw [answer, uncached]
  exact ⟨along.forget.directOf free file, after, along.forget.compile free file⟩

end Build

/-- An answer, apart from the counts of a cache. -/
def Answer.uncounted : Answer α → Answer α
  | .counts _ => .nothing
  | answer => answer

namespace Session

/-- A step of a session that forgets all results before every file. -/
def stepUncached (E : Engine σ α) (S : Session σ α) : Step → Session σ α × Answer α
  | .compile file => { S with build := S.build.forget }.step E (.compile file)
  | .compileSource file source =>
    { S with build := S.build.forget }.step E (.compileSource file source)
  | .compileAll files =>
    let done := Handler.all S.tree (Build.compileUncached E S.tree) S.build files
    (⟨S.tree, done.1⟩, .report done.2)
  | step => S.step E step

def runUncached (E : Engine σ α) (S : Session σ α) : List Step → Session σ α × List (Answer α)
  | [] => (S, [])
  | step :: steps =>
    let first := S.stepUncached E step
    let rest := first.1.runUncached E steps
    (rest.1, first.2 :: rest.2)

/-- Sessions over one tree, the first of which has a cache. -/
structure Alongside (out : α → Path → String → Outcome AnalysisFault Analysis) (texts : List String)
    (part : σ → φ) (S U : Session σ α) : Prop where
  tree : S.tree = U.tree
  current : S.build.Current out texts
  along : S.build.Alongside part U.build

variable {part : σ → φ} {S U : Session σ α}

theorem Alongside.of_builds {B C : Build σ α} (current : B.Current out texts)
    (along : B.Alongside part C) : Alongside out texts part ⟨t, B⟩ ⟨t, C⟩ :=
  ⟨rfl, current, along⟩

theorem Alongside.step (h : Alongside out texts part S U) (functional : E.Functional out)
    (free : E.Apart part) (distinct : Distinct texts) (rooted : S.tree.here.isAbsolute = true)
    (step : Step) (inside : ∀ source ∈ step.texts S.tree, source ∈ texts) :
    (S.step E step).2.uncounted = (U.stepUncached E step).2.uncounted ∧
      Alongside out texts part (S.step E step).1 (U.stepUncached E step).1 := by
  obtain ⟨tree, build⟩ := U
  obtain ⟨rfl, current, along⟩ := h
  dsimp only at current along
  cases step with
  | change entries => exact ⟨rfl, rfl, current, along⟩
  | resolve file =>
      obtain ⟨answer, after⟩ := along.resolve (t := S.tree) free file
      dsimp only [Session.step, stepUncached]
      exact ⟨congrArg (Answer.uncounted ∘ Answer.node) answer,
        .of_builds (current.resolve file).1 after⟩
  | compile file =>
      obtain ⟨answer, after, last⟩ := Build.alike_compileUncached functional free distinct rooted
        inside S.build build file (by simp) ⟨current, along⟩
      dsimp only [Build.compileUncached] at answer last
      dsimp only [Session.step, stepUncached]
      exact ⟨congrArg (Answer.uncounted ∘ Answer.output) answer, .of_builds after last⟩
  | compileSource file source =>
      have known : source ∈ texts := inside source (by simp [Step.texts])
      obtain ⟨answer, after⟩ := current.compileSource functional distinct rooted file known
      obtain ⟨uncached, _⟩ :=
        (along.current current).compileSource functional distinct rooted file known
      have same := answer.trans ((along.forget.direct free file source).trans uncached.symm)
      dsimp only [Session.step, stepUncached]
      exact ⟨congrArg (Answer.uncounted ∘ Answer.output) same,
        .of_builds after (along.forget.compileSource free file source)⟩
  | compileAll files =>
      have alike := Build.alike_compileUncached functional free distinct rooted inside
      obtain ⟨answer, after, last⟩ :=
        alike.all (t := S.tree) ⟨current, along⟩ fun _ member => member
      rw [← Build.compileAll_answer] at answer
      rw [← Build.compileAll_state] at after last
      dsimp only [Session.step, stepUncached]
      exact ⟨congrArg (Answer.uncounted ∘ Answer.report) answer, .of_builds after last⟩
  | finish live =>
      exact ⟨rfl, rfl, current.finish live,
        ⟨along.context, along.severity, along.locator, along.nodes, along.memory⟩⟩

theorem Alongside.run (h : Alongside out texts part S U) (functional : E.Functional out)
    (free : E.Apart part) (distinct : Distinct texts) (rooted : S.tree.here.isAbsolute = true)
    {steps : List Step} (inside : ∀ source ∈ Step.textsOf S.tree steps, source ∈ texts) :
    (S.run E steps).2.map Answer.uncounted = (U.runUncached E steps).2.map Answer.uncounted := by
  induction steps generalizing S U with
  | nil => rfl
  | cons step steps ih =>
      obtain ⟨answer, after⟩ := h.step functional free distinct rooted step
        fun source member => inside source (List.mem_append_left _ member)
      have rest := ih after (by rw [step_tree]; cases step <;> exact rooted) (by
        rw [step_tree]
        exact fun source member => inside source (List.mem_append_right _ member))
      simp only [Session.run, runUncached, List.map_cons, answer, rest]

/-- The cache is never seen. If analyzers are functions and different texts have different
fingerprints, every answer is that of the owner's analyzer for the text as it is at that step, and a
history that forgets all results has the same answers but for counts. -/
theorem run_answers_directly (E : Engine σ α)
    (out : α → Path → String → Outcome AnalysisFault Analysis) (functional : E.Functional out)
    (t : FileTree) (rooted : t.here.isAbsolute = true) (context : Path) (options : BuildOptions)
    (memory : σ) (steps : List Step) (distinct : Distinct (Step.textsOf t steps)) :
    let fresh : Session σ α := start t context options memory
    (fresh.run E steps).2 = fresh.runDirectly E out steps ∧
      ∀ {φ : Type} (part : σ → φ), E.Apart part →
        (fresh.run E steps).2.map Answer.uncounted =
          (fresh.runUncached E steps).2.map Answer.uncounted := by
  intro fresh
  have current : fresh.build.Current out (Step.textsOf t steps) :=
    ⟨NodeTable.sound_empty, ResultCache.holds_empty _⟩
  refine ⟨run_of_current current functional distinct rooted fun _ member => member, ?_⟩
  intro φ part free
  have along : Alongside out (Step.textsOf t steps) part fresh fresh :=
    ⟨rfl, current, rfl, rfl, rfl, rfl, rfl⟩
  exact along.run functional free distinct rooted fun _ member => member

/-- A text that goes away and comes back, a descriptor that cannot be read, and an eviction. -/
theorem run_answers_directly_twoSources :
    let steps : List Step := [.compile ⟨"a.ts"⟩, .compileSource ⟨"a.ts"⟩ "2", .compile ⟨"p/b.ts"⟩,
      .compileAll [⟨"a.ts"⟩, ⟨"/p/../a.ts"⟩], .finish [], .compile ⟨"a.ts"⟩]
    let out := fun (_ : Unit) (_ : Path) (source : String) =>
      (.ok ⟨source, []⟩ : Outcome AnalysisFault Analysis)
    let fresh : Session Unit Unit := start Build.twoSources ⟨"/"⟩ {} ()
    Build.copying.Functional out ∧ Build.twoSources.here.isAbsolute = true ∧
      Step.textsOf Build.twoSources steps = ["1", "2", "", "1", "1", "1"] ∧
      Distinct (Step.textsOf Build.twoSources steps) ∧ Build.copying.Apart id ∧
      (fresh.run Build.copying steps).2 = fresh.runDirectly Build.copying out steps ∧
      (fresh.run Build.copying steps).2.map Answer.uncounted =
        (fresh.runUncached Build.copying steps).2.map Answer.uncounted := by
  intro steps out fresh
  have functional : Build.copying.Functional out := by
    intro t a file source m
    rfl
  have rooted : Build.twoSources.here.isAbsolute = true := by decide
  have texts : Step.textsOf Build.twoSources steps = ["1", "2", "", "1", "1", "1"] := by
    decide +kernel
  have distinct : Distinct (Step.textsOf Build.twoSources steps) := by
    rw [texts]
    unfold Distinct
    decide +kernel
  have free : Build.copying.Apart id := ⟨fun _ _ _ _ _ _ => ⟨rfl, rfl⟩, fun _ _ _ _ _ => rfl⟩
  have both := run_answers_directly Build.copying out functional Build.twoSources rooted ⟨"/"⟩ {} ()
    steps distinct
  exact ⟨functional, rooted, texts, distinct, free, both.1, both.2 id free⟩

end Session

end RootedBuild
