import RootedBuild.Proofs.Build.Isolation
import RootedBuild.Proofs.Build.Uncached
import RootedBuild.Proofs.Cache.Requests
import RootedBuild.Proofs.Ownership.Requests

/-!
How a path is spelled. Every request starts by bringing its paths into their absolute, clean
spelling, so two histories that differ only in how they spell their paths are one: in what they
leave, in what they answer, in what they tell and in what they have analyzed. A result is kept under
that spelling too, so a file that stays as it is is analyzed once, under however many spellings.
-/
namespace RootedBuild

/-! ### Histories spelled in two ways -/

/-- The same step with its paths, seen from the directory `here`, in other spellings. -/
inductive Step.Respelled (here : Path) : Step → Step → Prop where
  | change (entries : List (Place × Entry)) : Respelled here (.change entries) (.change entries)
  | resolve {f g : Path} (same : here.within f = here.within g) :
      Respelled here (.resolve f) (.resolve g)
  | compile {f g : Path} (same : here.within f = here.within g) :
      Respelled here (.compile f) (.compile g)
  | compileSource {f g : Path} (same : here.within f = here.within g) (source : String) :
      Respelled here (.compileSource f source) (.compileSource g source)
  | compileAll {fs gs : List Path} (same : fs.map here.within = gs.map here.within) :
      Respelled here (.compileAll fs) (.compileAll gs)
  | finish {fs gs : List Path} (same : fs.map here.within = gs.map here.within) :
      Respelled here (.finish fs) (.finish gs)

namespace Build

variable {E : Engine σ α} {t : FileTree} {B : Build σ α} {f g : Path}

theorem start_congr {context context' : Path} (same : t.absolute context = t.absolute context')
    (options : BuildOptions) (memory : σ) :
    (start t context options memory : Told (Build σ α)) = start t context' options memory := by
  unfold start
  rw [same]

theorem resolve_congr (same : t.absolute f = t.absolute g) :
    B.resolve E t f = B.resolve E t g := by
  unfold resolve
  rw [same]

theorem compileSource_congr (same : t.absolute f = t.absolute g) (source : String) :
    B.compileSource E t f source = B.compileSource E t g source := by
  unfold compileSource
  rw [same]

theorem compile_congr (same : t.absolute f = t.absolute g) :
    B.compile E t f = B.compile E t g := by
  unfold compile
  rw [same]

theorem compileRun_congr {fs gs : List Path} (same : fs.map t.absolute = gs.map t.absolute) :
    B.compileRun E t fs = B.compileRun E t gs := by
  induction fs generalizing B gs with
  | nil =>
      rw [List.map_nil, eq_comm, List.map_eq_nil_iff] at same
      rw [same]
  | cons f fs ih =>
      cases gs with
      | nil => cases same
      | cons g gs =>
          obtain ⟨first, rest⟩ := List.cons_eq_cons.mp same
          unfold compileRun
          dsimp only
          rw [compile_congr first, first, ih rest]

/-- Where a batch is cut hangs on how many files it has, not on how they are spelled. -/
theorem compileStretch_congr {fs gs : List Path} (same : fs.map t.absolute = gs.map t.absolute)
    (cuts fuel : Nat) :
    B.compileStretch E t cuts fs fuel = B.compileStretch E t cuts gs fuel := by
  induction fuel generalizing B cuts fs gs with
  | zero => exact compileRun_congr same
  | succ fuel ih =>
      have length : fs.length = gs.length := by simpa using congrArg List.length same
      have left : (fs.take (gs.length / 2)).map t.absolute =
          (gs.take (gs.length / 2)).map t.absolute := by
        rw [List.map_take, List.map_take, same]
      have right : (fs.drop (gs.length / 2)).map t.absolute =
          (gs.drop (gs.length / 2)).map t.absolute := by
        rw [List.map_drop, List.map_drop, same]
      unfold compileStretch
      dsimp only
      rw [length, compileRun_congr same, ih left]
      simp only [ih right]

theorem compileAll_congr {fs gs : List Path} (same : fs.map t.absolute = gs.map t.absolute) :
    B.compileAll E t fs = B.compileAll E t gs := by
  have length : fs.length = gs.length := by simpa using congrArg List.length same
  unfold compileAll
  rw [length, compileStretch_congr same]

theorem finish_congr {fs gs : List Path} (same : fs.map t.absolute = gs.map t.absolute) :
    B.finish t fs = B.finish t gs := by
  unfold finish
  rw [same]

end Build

namespace Session

/-- What a step tells on the way to its answer. -/
def told (E : Engine σ α) (S : Session σ α) : Step → List Event
  | .change _ => []
  | .resolve file => (S.build.resolve E S.tree file).events
  | .compile file => (S.build.compile E S.tree file).events
  | .compileSource file source => (S.build.compileSource E S.tree file source).events
  | .compileAll files => (S.build.compileAll E S.tree files).events
  | .finish live => (S.build.finish S.tree live).events

/-- What the steps of a history tell, step by step. -/
def tale (E : Engine σ α) (S : Session σ α) : List Step → List (List Event)
  | [] => []
  | step :: steps => S.told E step :: (S.step E step).1.tale E steps

variable {E : Engine σ α} {S : Session σ α} {here : Path}

theorem step_respelled (home : S.tree.here = here) {a b : Step} (h : a.Respelled here b) :
    S.step E a = S.step E b ∧ S.told E a = S.told E b := by
  subst home
  cases h with
  | change entries => exact ⟨rfl, rfl⟩
  | resolve same =>
      simp only [step, told]
      rw [Build.resolve_congr same]
      exact ⟨rfl, rfl⟩
  | compile same =>
      simp only [step, told]
      rw [Build.compile_congr same]
      exact ⟨rfl, rfl⟩
  | compileSource same source =>
      simp only [step, told]
      rw [Build.compileSource_congr same]
      exact ⟨rfl, rfl⟩
  | compileAll same =>
      simp only [step, told]
      rw [Build.compileAll_congr same]
      exact ⟨rfl, rfl⟩
  | finish same =>
      simp only [step, told]
      rw [Build.finish_congr same]
      exact ⟨rfl, rfl⟩

theorem run_congr (home : S.tree.here = here) {steps steps' : List Step}
    (spelled : List.Forall₂ (Step.Respelled here) steps steps') :
    S.run E steps = S.run E steps' ∧ S.tale E steps = S.tale E steps' := by
  induction spelled generalizing S with
  | nil => exact ⟨rfl, rfl⟩
  | cons first _ ih =>
      obtain ⟨same, alike⟩ := step_respelled (E := E) home first
      obtain ⟨rest, telling⟩ := ih ((step_here S _).trans home)
      simp only [run, tale]
      rw [← same, ← alike, rest, telling]
      exact ⟨rfl, rfl⟩

end Session

/-! ### Results that are found again -/

namespace Call

/-- Whether an analyzer is called for the file. -/
def isFor (file : Path) : Call → Bool
  | .create .. => false
  | .analyze _ f _ => f == file

end Call

namespace Build

/-- The calls of analyzers for a file. -/
def analysesOf (B : Build (σ × List Call) (α × Nat)) (file : Path) : List Call :=
  B.calls.filter (Call.isFor file)

/-- The cache holds this result for the text of a file, made by the file's own node. -/
def Knows (here file : Path) (source : String) (stored : Stored) (B : Build σ α) : Prop :=
  ∃ node ∈ B.ownership.nodes.arena, B.ownership.locator.Settled here file node.root ∧
    (B.cache.get (.of file node.id source)).answer = some stored

/-- Since `B₀` the result has been known, and no analyzer was called for the file. -/
structure Retains (here file : Path) (source : String) (stored : Stored)
    (B₀ B : Build (σ × List Call) (α × Nat)) : Prop where
  apart : B.RootsApart here
  context : B.context = B₀.context
  severity : B.severity = B₀.severity
  analyses : B.analysesOf file = B₀.analysesOf file
  knows : B.Knows here file source stored

variable {E : Engine σ α} {t : FileTree} {B B₀ : Build (σ × List Call) (α × Nat)}
  {file : Path} {source : String} {stored : Stored}

/-- Resolving calls no analyzer. -/
theorem calls_resolve (E : Engine σ α) (t : FileTree) (B : Build (σ × List Call) (α × Nat))
    (f : Path) : ∃ more, (B.resolve E.watched t f).state.calls = B.calls ++ more ∧
      ∀ call ∈ more, call.analysis? = none := by
  let root := (B.ownership.locator.rootOf t (t.absolute f)).answer
  let make := Ownership.makeContents E.watched t B.ownership.locator.settings root
  have made : ∃ more, (make B.ownership.bench).state.memory.2 = B.calls ++ more ∧
      ∀ call ∈ more, call.analysis? = none := by
    rcases Ownership.makeContents_watched E t B.ownership.locator.settings root B.ownership.bench
      with ⟨calls, _⟩ | ⟨options, _, ⟨calls, _⟩ | ⟨calls, _⟩⟩
    · exact ⟨[], calls.trans (List.append_nil _).symm, by simp⟩
    · exact ⟨_, calls, by simp [Call.analysis?]⟩
    · exact ⟨_, calls, by simp [Call.analysis?]⟩
  change ∃ more, (B.ownership.nodes.fetch root make B.ownership.bench).state.2.memory.2 =
    B.calls ++ more ∧ _
  cases NodeTable.fetched_fetch B.ownership.nodes root make B.ownership.bench with
  | found slot node has holds table rest =>
      rw [rest]
      exact ⟨[], (List.append_nil _).symm, by simp⟩
  | made slot parts said bare table rest => rwa [rest]
  | failed slot e said bare unmade table rest => rwa [rest]
  | crashed slot said bare unmade table rest => rwa [rest]

theorem analysesOf_resolve (f : Path) :
    (B.resolve E.watched t f).state.analysesOf file = B.analysesOf file := by
  obtain ⟨more, calls, quiet⟩ := calls_resolve E t B f
  have none : more.filter (Call.isFor file) = [] := by
    rw [List.filter_eq_nil_iff]
    intro call member
    cases call with
    | create tree facts options made => simp [Call.isFor]
    | analyze a g text => cases quiet _ member
  rw [analysesOf, calls, List.filter_append, none, List.append_nil]
  rfl

/-- Analyzing calls no analyzer for any other file. -/
theorem analysesOf_analyze {f : Path} (apart : f ≠ file) (node : Node (α × Nat)) (text : String) :
    (B.analyze E.watched t node f text).state.analysesOf file = B.analysesOf file := by
  change (B.cache.fetch (.of f node.id text) (Bench.analyze E.watched t node f text)
    B.ownership.bench).state.2.memory.2.filter _ = _
  rcases ResultCache.fetch_state B.cache (.of f node.id text)
    (Bench.analyze E.watched t node f text) B.ownership.bench with stays | runs
  · rw [stays]
    rfl
  · rw [runs]
    simp [Bench.analyze, Engine.watched, analysesOf, Build.calls, Call.isFor, apart]

/-- An analysis that gave a result left it in the cache. -/
theorem get_analyze {f : Path} {node : Node (α × Nat)}
    (given : (B.analyze E.watched t node f source).answer = .ok stored) :
    ((B.analyze E.watched t node f source).state.cache.get (.of f node.id source)).answer =
      some stored := by
  unfold Build.analyze at given ⊢
  dsimp only at given ⊢
  exact ResultCache.get_fetch_of_ok given

/-- The node of a settled root is found again, and nothing is made. -/
theorem RootsApart.resolve_of_settled (h : B.RootsApart t.here) {node : Node (α × Nat)}
    (member : node ∈ B.ownership.nodes.arena)
    (settled : B.ownership.locator.Settled t.here file node.root) {f : Path}
    (same : t.absolute f = file) :
    (B.resolve E.watched t f).answer = .ok node ∧
      (B.resolve E.watched t f).state.ownership.bench = B.ownership.bench := by
  have root : (B.ownership.locator.rootOf t (t.absolute f)).answer = node.root := by
    rw [same]
    exact settled t rfl
  have found : (B.ownership.nodes.get
      (B.ownership.locator.rootOf t (t.absolute f)).answer).answer = some node := by
    rw [root, h.sound.get_eq_some_iff]
    exact ⟨member, Root.same_self _⟩
  obtain ⟨state, answer⟩ := NodeTable.fetch_of_get found (Ownership.makeContents E.watched t
    B.ownership.locator.settings (B.ownership.locator.rootOf t (t.absolute f)).answer)
    B.ownership.bench
  exact ⟨answer, congrArg Prod.snd state⟩

namespace Retains

theorem refl {here : Path} (apart : B.RootsApart here) (knows : B.Knows here file source stored) :
    Retains here file source stored B B :=
  ⟨apart, rfl, rfl, rfl, knows⟩

theorem deliver {here : Path} (h : Retains here file source stored B₀ B) (a : Analysis) :
    B.deliver a = B₀.deliver a := by
  rw [Build.deliver, Build.deliver, h.context, h.severity]

theorem resolve (h : Retains t.here file source stored B₀ B) (rooted : t.here.isAbsolute = true)
    (f : Path) : Retains t.here file source stored B₀ (B.resolve E.watched t f).state := by
  obtain ⟨apart, grows, _⟩ := h.apart.resolve (E := E) rooted f
  obtain ⟨node, member, settled, has⟩ := h.knows
  exact ⟨apart, h.context, h.severity, (analysesOf_resolve f).trans h.analyses,
    node, grows.nodes node member, grows.settled file node.root settled, has⟩

/-- The node of the file is there, and so is its result. -/
theorem owner (h : Retains t.here file source stored B₀ B) {f : Path}
    (same : t.absolute f = file) :
    ∃ node, (B.resolve E.watched t f).answer = .ok node ∧
      (B.resolve E.watched t f).state.ownership.bench = B.ownership.bench ∧
      (B.cache.get (.of file node.id source)).answer = some stored := by
  obtain ⟨node, member, settled, has⟩ := h.knows
  obtain ⟨answer, bench⟩ := h.apart.resolve_of_settled (E := E) member settled same
  exact ⟨node, answer, bench, has⟩

/-- The text of a file whose result is known is not analyzed: the result is served, and counted. -/
theorem compileSource_known (h : Retains t.here file source stored B₀ B)
    (rooted : t.here.isAbsolute = true) {f : Path} (same : t.absolute f = file) :
    (B.compileSource E.watched t f source).answer = .ok (B₀.deliver stored.result) ∧
      (B.compileSource E.watched t f source).state.calls = B.calls ∧
      (B.compileSource E.watched t f source).state.cache = B.cache.countHit ∧
      Retains t.here file source stored B₀ (B.compileSource E.watched t f source).state := by
  subst same
  have after := h.resolve (E := E) rooted (t.absolute f)
  obtain ⟨node, owner, bench, has⟩ := h.owner (E := E) (FileTree.absolute_absolute rooted f)
  have cache : (B.resolve E.watched t (t.absolute f)).state.cache = B.cache := rfl
  rw [(compileSource_answer f source).1, (compileSource_answer f source).2, owner]
  generalize B.resolve E.watched t (t.absolute f) = found at after bench cache
  rw [← cache] at has
  obtain ⟨state, answer⟩ := ResultCache.fetch_of_get has
    (Bench.analyze E.watched t node (t.absolute f) source) found.state.ownership.bench
  obtain ⟨owner', member, settled, has'⟩ := after.knows
  have run : (found.state.analyze E.watched t node (t.absolute f) source).state =
      { found.state with cache := found.state.cache.countHit } := by
    unfold Build.analyze
    dsimp only
    rw [state]
  dsimp only
  rw [run]
  refine ⟨?_, congrArg (fun b : Bench _ => b.memory.2) bench, by rw [cache], ?_⟩
  · rw [funext h.deliver]
    change ((((found.state.cache.fetch (.of (t.absolute f) node.id source)
      (Bench.analyze E.watched t node (t.absolute f) source)
      found.state.ownership.bench).answer).map Stored.result).mapFailure _).map _ = _
    rw [answer]
    rfl
  · exact ⟨after.apart, after.context, after.severity, after.analyses, owner', member, settled,
      has'⟩

/-- Compiling the file itself finds the result, as long as its text is the one that was analyzed. -/
theorem compile_known (h : Retains t.here file source stored B₀ B)
    (rooted : t.here.isAbsolute = true) {f : Path} (same : t.absolute f = file)
    (read : t.readText file = .ok source) :
    (B.compile E.watched t f).answer = .ok (B₀.deliver stored.result) ∧
      (B.compile E.watched t f).state.calls = B.calls ∧
      (B.compile E.watched t f).state.cache = B.cache.countHit := by
  subst same
  obtain ⟨answer, calls, cache, _⟩ :=
    h.compileSource_known (E := E) rooted (FileTree.absolute_absolute rooted f)
  rw [compile_of_readable read]
  exact ⟨answer, calls, cache⟩

theorem compileSource_other (h : Retains t.here file source stored B₀ B)
    (rooted : t.here.isAbsolute = true) (canonical : file.Canonical) {f : Path}
    (other : t.absolute f ≠ file) (text : String) :
    Retains t.here file source stored B₀ (B.compileSource E.watched t f text).state := by
  have after := h.resolve (E := E) rooted (t.absolute f)
  have kept := (h.apart.compileSource (E := E) rooted f text).1
  rw [(compileSource_answer f text).2] at kept ⊢
  generalize B.resolve E.watched t (t.absolute f) = found at after kept
  cases answer : found.answer with
  | failed e => exact after
  | crashed => exact after
  | ok node =>
      rw [answer] at kept
      obtain ⟨owner, member, settled, has⟩ := after.knows
      have apart : (t.absolute f).same file = false := by
        cases same : (t.absolute f).same file with
        | false => rfl
        | true =>
            exact absurd ((FileTree.canonical_absolute rooted f).eq_of_same canonical same) other
      have stays : ((found.state.analyze E.watched t node (t.absolute f) text).state.cache.get
          (.of file owner.id source)).answer = some stored := by
        rw [← has]
        exact ResultCache.get_fetch_of_apart apart
      exact ⟨kept, after.context, after.severity,
        (analysesOf_analyze other node text).trans after.analyses, owner, member, settled, stays⟩

theorem compile (h : Retains t.here file source stored B₀ B) (rooted : t.here.isAbsolute = true)
    (canonical : file.Canonical) (f : Path)
    (reads : t.absolute f = file → ∀ text, t.readText file = .ok text → text = source) :
    Retains t.here file source stored B₀ (B.compile E.watched t f).state := by
  cases read : t.readText (t.absolute f) with
  | error e =>
      rw [compile_of_unreadable read]
      exact h
  | ok text =>
      rw [compile_of_readable read, compileSource_congr (FileTree.absolute_absolute rooted f)]
      by_cases same : t.absolute f = file
      · cases reads same text (same ▸ read)
        exact (h.compileSource_known rooted same).2.2.2
      · exact h.compileSource_other rooted canonical same text

theorem compileAll (h : Retains t.here file source stored B₀ B) (rooted : t.here.isAbsolute = true)
    (canonical : file.Canonical) {files : List Path}
    (reads : file ∈ files.map t.absolute → ∀ text, t.readText file = .ok text → text = source) :
    Retains t.here file source stored B₀ (B.compileAll E.watched t files).state := by
  rw [compileAll_state]
  refine Handler.all_keeps_of_mem (P := fun C => Retains t.here file source stored B₀ C) ?_ h
  intro C f inside before
  refine before.compile rooted canonical f fun same => reads ?_
  exact List.mem_map.mpr ⟨f, inside, same⟩

theorem finish (h : Retains t.here file source stored B₀ B) {live : List Path}
    (inside : file ∈ live.map t.absolute) :
    Retains t.here file source stored B₀ (B.finish t live).state := by
  obtain ⟨owner, member, settled, has⟩ := h.knows
  refine ⟨h.apart, h.context, h.severity, h.analyses, owner, member, settled, ?_⟩
  exact (ResultCache.get_keepOnly (k := .of file owner.id source) inside).trans has

end Retains

/-- A text that was compiled is known from then on. -/
theorem knows_compileSource {output : FileOutput} (apart : B.RootsApart t.here)
    (rooted : t.here.isAbsolute = true) (f : Path)
    (answer : (B.compileSource E.watched t f source).answer = .ok output) :
    ∃ stored, output = (B.compileSource E.watched t f source).state.deliver stored.result ∧
      (B.compileSource E.watched t f source).state.Knows t.here (t.absolute f) source stored := by
  obtain ⟨_, _, owner⟩ := apart.resolve (E := E) rooted (t.absolute f)
  rw [(compileSource_answer f source).1] at answer
  rw [(compileSource_answer f source).2]
  have delivers : (B.resolve E.watched t (t.absolute f)).state.deliver = B.deliver := rfl
  generalize B.resolve E.watched t (t.absolute f) = found at answer owner delivers
  cases resolved : found.answer with
  | failed e => rw [resolved] at answer; cases answer
  | crashed => rw [resolved] at answer; cases answer
  | ok node =>
      obtain ⟨member, settled⟩ := owner node resolved
      rw [resolved] at answer
      dsimp only at answer ⊢
      cases given : (found.state.analyze E.watched t node (t.absolute f) source).answer with
      | failed e => rw [given] at answer; cases answer
      | crashed => rw [given] at answer; cases answer
      | ok stored =>
          rw [given, ← delivers] at answer
          exact ⟨stored, (Outcome.ok.inj answer).symm, node, member, settled, get_analyze given⟩

/-- A file that was compiled is known from then on. -/
theorem knows_compile {output : FileOutput} (apart : B.RootsApart t.here)
    (rooted : t.here.isAbsolute = true) (f : Path)
    (read : t.readText (t.absolute f) = .ok source)
    (answer : (B.compile E.watched t f).answer = .ok output) :
    ∃ stored, output = (B.compile E.watched t f).state.deliver stored.result ∧
      (B.compile E.watched t f).state.Knows t.here (t.absolute f) source stored := by
  rw [compile_of_readable read, compileSource_congr (FileTree.absolute_absolute rooted f)]
    at answer ⊢
  exact knows_compileSource apart rooted f answer

end Build

/-! ### A file that stays as it is -/

namespace Step

/-- The step has no other text compiled for the file than this one, and keeps the file live. -/
def Leaves (file : Path) (source : String) (t : FileTree) : Step → Prop
  | .change _ => True
  | .resolve _ => True
  | .compile f => t.absolute f = file → ∀ text, t.readText file = .ok text → text = source
  | .compileSource f text => t.absolute f = file → text = source
  | .compileAll files =>
    file ∈ files.map t.absolute → ∀ text, t.readText file = .ok text → text = source
  | .finish live => file ∈ live.map t.absolute

def AllLeave (file : Path) (source : String) (t : FileTree) : List Step → Prop
  | [] => True
  | step :: steps => step.Leaves file source t ∧ AllLeave file source (step.treeAfter t) steps

end Step

namespace Session

variable {E : Engine σ α} {S : Session (σ × List Call) (α × Nat)} {here file : Path}
  {source : String} {stored : Stored} {B₀ : Build (σ × List Call) (α × Nat)}

theorem retains_step (rooted : here.isAbsolute = true) (home : S.tree.here = here)
    (canonical : file.Canonical) (h : Build.Retains here file source stored B₀ S.build)
    {step : Step} (leaves : step.Leaves file source S.tree) :
    Build.Retains here file source stored B₀ (S.step E.watched step).1.build := by
  subst home
  cases step with
  | change entries => exact h
  | resolve f => exact h.resolve rooted f
  | compile f =>
      dsimp only [Session.step]
      exact h.compile rooted canonical f leaves
  | compileSource f text =>
      dsimp only [Session.step]
      by_cases same : S.tree.absolute f = file
      · cases leaves same
        exact (h.compileSource_known rooted same).2.2.2
      · exact h.compileSource_other rooted canonical same text
  | compileAll files =>
      dsimp only [Session.step]
      exact h.compileAll rooted canonical leaves
  | finish live => exact h.finish leaves

theorem retains_run (rooted : here.isAbsolute = true) (home : S.tree.here = here)
    (canonical : file.Canonical) (h : Build.Retains here file source stored B₀ S.build)
    {steps : List Step} (leave : Step.AllLeave file source S.tree steps) :
    Build.Retains here file source stored B₀ (S.run E.watched steps).1.build := by
  induction steps generalizing S with
  | nil => exact h
  | cons step steps ih =>
      have after := retains_step (E := E) rooted home canonical h leave.1
      refine ih ((step_here S step).trans home) after ?_
      rw [step_tree]
      exact leave.2

theorem step_compile (E : Engine σ α) (S : Session σ α) (file : Path) :
    S.step E (.compile file) = (⟨S.tree, (S.build.compile E S.tree file).state⟩,
      .output (S.build.compile E S.tree file).answer) := rfl

theorem retains_compile (rooted : S.tree.here.isAbsolute = true)
    (apart : S.build.RootsApart S.tree.here) {file : Path} {output : FileOutput}
    (read : S.tree.readText (S.tree.absolute file) = .ok source)
    {first : Session (σ × List Call) (α × Nat) × Answer (α × Nat)}
    (compiled : S.step E.watched (.compile file) = first)
    (answer : first.2 = .output (.ok output)) :
    ∃ stored, output = first.1.build.deliver stored.result ∧
      Build.Retains S.tree.here (S.tree.absolute file) source stored first.1.build
        first.1.build := by
  obtain ⟨stays, _⟩ := apart.compile (E := E) rooted file
  have known (given : (S.build.compile E.watched S.tree file).answer = .ok output) :=
    Build.knows_compile apart rooted file read given
  rw [step_compile] at compiled
  generalize S.build.compile E.watched S.tree file = turn at compiled stays known
  subst compiled
  obtain ⟨stored, delivers, knows⟩ := known (Answer.output.inj answer)
  exact ⟨stored, delivers, .refl stays knows⟩

/-- A file that was compiled is not analyzed again while it stays as it is, and compiling it again
under another spelling finds its result. -/
theorem analyzed_once (rooted : S.tree.here.isAbsolute = true)
    (apart : S.build.RootsApart S.tree.here) {file : Path} {output : FileOutput}
    (read : S.tree.readText (S.tree.absolute file) = .ok source)
    {first : Session (σ × List Call) (α × Nat) × Answer (α × Nat)}
    (compiled : S.step E.watched (.compile file) = first) (answer : first.2 = .output (.ok output))
    {after : List Step} (leave : Step.AllLeave (S.tree.absolute file) source first.1.tree after)
    {last : Session (σ × List Call) (α × Nat)} (ran : (first.1.run E.watched after).1 = last) :
    last.build.analysesOf (S.tree.absolute file) =
        first.1.build.analysesOf (S.tree.absolute file) ∧
      ∀ again, S.tree.absolute again = S.tree.absolute file →
        last.tree.readText (S.tree.absolute file) = .ok source →
          (last.step E.watched (.compile again)).2 = .output (.ok output) ∧
          (last.step E.watched (.compile again)).1.build.calls = last.build.calls ∧
          (last.step E.watched (.compile again)).1.build.cache = last.build.cache.countHit := by
  obtain ⟨stored, delivers, known⟩ := retains_compile rooted apart read compiled answer
  have tree : first.1.tree.here = S.tree.here := by rw [← compiled, step_here]
  have canonical := FileTree.canonical_absolute rooted file
  have kept := retains_run (E := E) rooted tree canonical known leave
  have home := (run_here (E := E.watched) first.1 after).trans tree
  rw [ran] at kept home
  refine ⟨kept.analyses, ?_⟩
  intro again same reread
  have whole : last.tree.absolute again = S.tree.absolute file := by
    rw [← same, FileTree.absolute, home, FileTree.absolute]
  rw [← home] at rooted kept
  obtain ⟨said, calls, cache⟩ := kept.compile_known (E := E) rooted whole reread
  rw [step_compile, said, delivers]
  dsimp only
  exact ⟨rfl, calls, cache⟩

/-- The spelling of paths does not matter. Asked the same in other spellings, a build gives the same
answers, tells the same events and makes the same calls; and what was compiled under one spelling is
a hit under all. -/
theorem run_respelled (E : Engine σ α) (t : FileTree) (rooted : t.here.isAbsolute = true)
    {context context' : Path} (contexts : t.absolute context = t.absolute context')
    (options : BuildOptions) (memory : σ) {steps steps' : List Step}
    (spelled : List.Forall₂ (Step.Respelled t.here) steps steps') :
    let fresh : Session σ α := start t context options memory
    let fresh' : Session σ α := start t context' options memory
    let watched : Session (σ × List Call) (α × Nat) := start t context options (memory, [])
    let watched' : Session (σ × List Call) (α × Nat) := start t context' options (memory, [])
    (Build.start t context options memory : Told (Build σ α)) =
      Build.start t context' options memory ∧
    fresh.run E steps = fresh'.run E steps' ∧ fresh.tale E steps = fresh'.tale E steps' ∧
    (watched.run E.watched steps).1.build.calls = (watched'.run E.watched steps').1.build.calls ∧
    ∀ before file source output after,
      let S := (watched.run E.watched before).1
      let first := S.step E.watched (.compile file)
      let last := (first.1.run E.watched after).1
      S.tree.readText (t.absolute file) = .ok source → first.2 = .output (.ok output) →
      Step.AllLeave (t.absolute file) source first.1.tree after →
        last.build.analysesOf (t.absolute file) = first.1.build.analysesOf (t.absolute file) ∧
        ∀ again, t.absolute again = t.absolute file →
          last.tree.readText (t.absolute file) = .ok source →
            let second := last.step E.watched (.compile again)
            second.2 = .output (.ok output) ∧ second.1.build.calls = last.build.calls ∧
              second.1.build.cache = last.build.cache.countHit := by
  intro fresh fresh' watched watched'
  have starts : fresh = fresh' :=
    congrArg (fun told : Told (Build σ α) => (⟨t, told.answer⟩ : Session σ α))
      (Build.start_congr contexts options memory)
  have watchedStarts : watched = watched' :=
    congrArg (fun told : Told (Build (σ × List Call) (α × Nat)) => Session.mk t told.answer)
      (Build.start_congr contexts options (memory, []))
  have alike := run_congr (E := E) (S := fresh) rfl spelled
  have watchedAlike := run_congr (E := E.watched) (S := watched) rfl spelled
  refine ⟨Build.start_congr contexts options memory, ?_, ?_, ?_, ?_⟩
  · rw [← starts, alike.1]
  · rw [← starts, alike.2]
  · rw [← watchedStarts, watchedAlike.1]
  · intro before file source output after S first last read answer leave
    have clean : watched.build.RootsApart t.here :=
      Isolated.start rooted (t.absolute context) options.settings
    have apart : S.build.RootsApart t.here := (run_rootsApart (E := E) rooted rfl clean before).1
    have home : S.tree.here = t.here := run_here watched before
    have whole : t.absolute = S.tree.absolute := by
      funext p
      rw [FileTree.absolute, FileTree.absolute, home]
    rw [← home] at rooted apart
    rw [whole] at read leave ⊢
    exact analyzed_once rooted apart read rfl answer leave rfl

/-- A file under six spellings, in a context under two. -/
theorem run_respelled_twoSources :
    let steps : List Step := [.compile ⟨"a.ts"⟩, .compileAll [⟨"p/b.ts"⟩, ⟨"a.ts"⟩], .finish []]
    let steps' : List Step := [.compile ⟨"/p/.././a.ts/"⟩,
      .compileAll [⟨"//p//b.ts"⟩, ⟨"/a.ts"⟩], .finish []]
    let fresh : Session Unit Unit := start Build.twoSources ⟨"/"⟩ {} ()
    let fresh' : Session Unit Unit := start Build.twoSources ⟨"p/.."⟩ {} ()
    let watched : Session (Unit × List Call) (Unit × Nat) :=
      start Build.twoSources ⟨"/"⟩ {} ((), [])
    let resolved := (watched.run Build.copying.watched [.resolve ⟨"/./a.ts"⟩]).1
    let first := resolved.step Build.copying.watched (.compile ⟨"p/../a.ts"⟩)
    let last := (first.1.run Build.copying.watched
      [.compileAll [⟨"./a.ts"⟩, ⟨"a.ts"⟩], .finish [⟨"a.ts/"⟩]]).1
    let second := last.step Build.copying.watched (.compile ⟨"//a.ts"⟩)
    Build.twoSources.here.isAbsolute = true ∧
      Build.twoSources.absolute ⟨"/"⟩ = Build.twoSources.absolute ⟨"p/.."⟩ ∧
      List.Forall₂ (Step.Respelled Build.twoSources.here) steps steps' ∧
      fresh.run Build.copying steps = fresh'.run Build.copying steps' ∧
      first.2 = .output (.ok ⟨"1", [], [], .succeeded⟩) ∧
      second.2 = .output (.ok ⟨"1", [], [], .succeeded⟩) ∧
      second.1.build.calls = last.build.calls := by
  intro steps steps' fresh fresh' watched resolved first last second
  have rooted : Build.twoSources.here.isAbsolute = true := by decide
  have contexts : Build.twoSources.absolute ⟨"/"⟩ = Build.twoSources.absolute ⟨"p/.."⟩ := by
    decide +kernel
  have spelled : List.Forall₂ (Step.Respelled Build.twoSources.here) steps steps' :=
    .cons (.compile (by decide +kernel)) (.cons (.compileAll (by decide +kernel))
      (.cons (.finish rfl) .nil))
  have whole := run_respelled Build.copying Build.twoSources rooted contexts {} () spelled
  have read : Build.twoSources.readText (Build.twoSources.absolute ⟨"p/../a.ts"⟩) = .ok "1" := by
    decide +kernel
  have compiled : (resolved.build.compile Build.copying.watched Build.twoSources
      ⟨"p/../a.ts"⟩).answer = .ok ⟨"1", [], [], .succeeded⟩ := by
    decide +kernel
  have answer : first.2 = .output (.ok ⟨"1", [], [], .succeeded⟩) := congrArg Answer.output compiled
  have live : Build.twoSources.absolute ⟨"p/../a.ts"⟩ ∈
      [(⟨"a.ts/"⟩ : Path)].map Build.twoSources.absolute := by
    decide +kernel
  have leave : Step.AllLeave (Build.twoSources.absolute ⟨"p/../a.ts"⟩) "1" Build.twoSources
      [.compileAll [⟨"./a.ts"⟩, ⟨"a.ts"⟩], .finish [⟨"a.ts/"⟩]] :=
    ⟨fun _ text given => (Except.ok.inj (read.symm.trans given)).symm, live, trivial⟩
  obtain ⟨_, again⟩ := whole.2.2.2.2 [.resolve ⟨"/./a.ts"⟩] ⟨"p/../a.ts"⟩ "1"
    ⟨"1", [], [], .succeeded⟩ _ read answer leave
  obtain ⟨same, calls, _⟩ := again ⟨"//a.ts"⟩ (by decide +kernel) read
  exact ⟨rooted, contexts, spelled, whole.2.1, answer, same, calls⟩

end Session

end RootedBuild
