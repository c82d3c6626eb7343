import RootedBuild.Proofs.Build.Uncached
import RootedBuild.Proofs.Cache.Slots

/-!
Crashes beside failures. One history is taken on an engine some of whose analyses crash, and on one
where the same analyses fail. A crash leaves nothing behind but a mark on what it was working with,
which is told the next time and has no influence on anything. So the two builds stay the same but for
their marks, and every later answer is the same in both.
-/
namespace RootedBuild

/-! ### Analyses that are cut short -/

inductive Mishap where
  | crash
  | failure

/-- How an analysis ends that is cut short. -/
def Mishap.outcome (fault : AnalysisFault) : Mishap → Outcome AnalysisFault Analysis
  | .crash => .crashed
  | .failure => .failed fault

/-- The engine with its analyses numbered from zero, of which those whose number has a fault here are
cut short before they have done anything. -/
def Engine.interrupted (E : Engine σ α) (cut : Nat → Option AnalysisFault) (how : Mishap) :
    Engine (σ × Nat) α where
  create t facts options m :=
    let (memory, outcome) := E.create t facts options m.1
    ((memory, m.2), outcome)
  analyze t a file source m :=
    match cut m.2 with
    | some fault => ((m.1, m.2 + 1), how.outcome fault)
    | none =>
      let (memory, outcome) := E.analyze t a file source m.1
      ((memory, m.2 + 1), outcome)

/-- What comes of one and the same operation, begun after `n` analyses, where an analysis that is cut
short crashes, and where it fails; and after how many analyses it ends. Unless the operation ran such
an analysis both are the same. -/
inductive Parting (cut : Nat → Option AnalysisFault) (n : Nat) (crash : β)
    (failure : AnalysisFault → β) : Nat → β → β → Prop where
  | untouched (answer : β) : Parting cut n crash failure n answer answer
  | whole (uncut : cut n = none) (answer : β) : Parting cut n crash failure (n + 1) answer answer
  | short {fault : AnalysisFault} (found : cut n = some fault) :
      Parting cut n crash failure (n + 1) crash (failure fault)

namespace Parting

variable {cut : Nat → Option AnalysisFault} {n m : Nat} {crash a b : β}
  {failure : AnalysisFault → β}

theorem map (h : Parting cut n crash failure m a b) (f : β → γ) :
    Parting cut n (f crash) (fun fault => f (failure fault)) m (f a) (f b) := by
  cases h with
  | untouched => exact .untouched _
  | whole uncut => exact .whole uncut _
  | short found => exact .short found

theorem eq_of_uncut (h : Parting cut n crash failure m a b) (uncut : cut n = none) : b = a := by
  cases h with
  | untouched => rfl
  | whole => rfl
  | short found => cases uncut.symm.trans found

theorem eq_of_cut (h : Parting cut n crash failure m a b) {fault : AnalysisFault}
    (found : cut n = some fault) (ran : m ≠ n) : a = crash ∧ b = failure fault := by
  cases h with
  | untouched => exact absurd rfl ran
  | whole uncut => cases uncut.symm.trans found
  | short other =>
      cases other.symm.trans found
      exact ⟨rfl, rfl⟩

theorem le (h : Parting cut n crash failure m a b) : n ≤ m := by
  cases h with
  | untouched => exact Nat.le_refl n
  | whole => exact Nat.le_succ n
  | short => exact Nat.le_succ n

end Parting

/-! ### Caches that differ in marks -/

def Outcome.given? : Outcome ε α → Option α
  | .ok a => some a
  | _ => none

theorem Outcome.given?_eq_some_iff {o : Outcome ε α} {a : α} : o.given? = some a ↔ o = .ok a := by
  cases o <;> simp [given?]

theorem Outcome.given?_eq_none_iff {o : Outcome ε α} : o.given? = none ↔ ∀ a, o ≠ .ok a := by
  cases o <;> simp [given?]

namespace ResultCache

/-- The same slots in the same order, with the same results, and the same counts. -/
structure Agrees (C D : ResultCache) : Prop where
  files : D.files = C.files
  record : ∀ f, D.record? f = C.record? f
  stats : D.stats = C.stats
  made : D.made = C.made

variable {C D : ResultCache} {key : CacheKey}

theorem Agrees.get (h : C.Agrees D) (key : CacheKey) :
    (D.get key).answer = (C.get key).answer := by
  rw [get_answer, get_answer, h.record]

theorem Agrees.countHit (h : C.Agrees D) : C.countHit.Agrees D.countHit where
  files := h.files
  record := h.record
  stats := by
    unfold ResultCache.countHit
    rw [h.stats]
  made := h.made

theorem made_afterAnalysis (C : ResultCache) (key : CacheKey)
    (said : Outcome AnalysisFault Analysis) :
    (C.afterAnalysis key said).made = C.made + if said.given?.isSome then 1 else 0 := by
  cases said <;> rfl

theorem Agrees.afterAnalysis (h : C.Agrees D) {said said' : Outcome AnalysisFault Analysis}
    (alike : said'.given? = said.given?) :
    (C.afterAnalysis key said).Agrees (D.afterAnalysis key said') where
  files := by
    have slot : (D.slot? key.file).isSome = (C.slot? key.file).isSome := by
      rw [Bool.eq_iff_iff, isSome_slot?_iff, isSome_slot?_iff, h.files]
    rw [files_afterAnalysis, files_afterAnalysis, slot, h.files]
  record := by
    intro f
    cases given : said.given? with
    | some result =>
        rw [given] at alike
        rw [Outcome.given?_eq_some_iff.mp given, Outcome.given?_eq_some_iff.mp alike,
          record?_afterAnalysis_ok, record?_afterAnalysis_ok, h.record, h.made]
    | none =>
        rw [given] at alike
        rw [record?_afterAnalysis (Outcome.given?_eq_none_iff.mp given),
          record?_afterAnalysis (Outcome.given?_eq_none_iff.mp alike), h.record]
  stats := by rw [stats_afterAnalysis, stats_afterAnalysis, h.stats, h.record]
  made := by rw [made_afterAnalysis, made_afterAnalysis, alike, h.made]

theorem Agrees.keepOnly (h : C.Agrees D) (live : List Path) :
    (C.keepOnly live).1.Agrees (D.keepOnly live).1 where
  files := by rw [files_keepOnly, files_keepOnly, h.files]
  record := by
    intro f
    rw [record?_keepOnly, record?_keepOnly, h.record]
  stats := by
    have counted (B : ResultCache) : (B.keepOnly live).1.stats =
        { B.stats with invalidations := B.stats.invalidations + (B.keepOnly live).2 } := rfl
    rw [counted, counted, keepOnly_count, keepOnly_count, h.files, h.stats]
  made := h.made

end ResultCache

/-! ### Builds that differ in marks -/

namespace Build

/-- How many analyses have been run. -/
def analyses (B : Build (σ × Nat) α) : Nat := B.ownership.bench.memory.2

/-- The same build but for marks: of slots of the cache, and of analyzers. -/
structure Recovers (B C : Build (σ × Nat) α) : Prop where
  context : C.context = B.context
  severity : C.severity = B.severity
  locator : C.ownership.locator = B.ownership.locator
  nodes : C.ownership.nodes = B.ownership.nodes
  memory : C.ownership.bench.memory = B.ownership.bench.memory
  cache : B.cache.Agrees C.cache

variable (E : Engine σ α) (cut : Nat → Option AnalysisFault) {t : FileTree}
  {B C : Build (σ × Nat) α}

/-- Making a node reads nothing of the bench but the engine's memory, and runs no analysis. -/
theorem makeContents_interrupted (how : Mishap) (settings : Settings) (root : Root)
    {b c : Bench (σ × Nat)} (same : c.memory = b.memory) :
    let make := Ownership.makeContents (E.interrupted cut how) t settings root
    (make c).answer = (make b).answer ∧
      (make c).state.memory = (make b).state.memory ∧ (make b).state.memory.2 = b.memory.2 := by
  unfold Ownership.makeContents
  dsimp only
  cases (Locator.optionsOf t settings root).answer with
  | error f => exact ⟨rfl, same, rfl⟩
  | ok options =>
      dsimp only [Bench.create]
      rw [same]
      exact ⟨rfl, rfl, rfl⟩

theorem Recovers.resolve (h : Recovers B C) (file : Path) :
    let left := B.resolve (E.interrupted cut .crash) t file
    let right := C.resolve (E.interrupted cut .failure) t file
    right.answer = left.answer ∧ left.state.analyses = B.analyses ∧
      Recovers left.state right.state := by
  -- Both engines make nodes in the same way, so one `make` stands for both.
  have made := makeContents_interrupted E cut (t := t) .crash
    B.ownership.locator.settings (B.ownership.locator.rootOf t (t.absolute file)).answer h.memory
  have fetched := NodeTable.fetch_congr
    (P := fun b c => c.memory = b.memory ∧ b.memory.2 = B.analyses) ⟨h.memory, rfl⟩ made.1.symm made.2
    B.ownership.nodes (B.ownership.locator.rootOf t (t.absolute file)).answer
  unfold Build.resolve Ownership.resolve analyses
  dsimp only
  rw [h.locator, h.nodes]
  exact ⟨fetched.1.symm, fetched.2.2.2, h.context, h.severity, rfl, fetched.2.1.symm, fetched.2.2.1,
    h.cache⟩

/-- An analysis that is run goes on in one of two ways. -/
theorem analyze_interrupted (node : Node α) (file : Path) (source : String)
    {b c : Bench (σ × Nat)} (same : c.memory = b.memory) :
    let left := Bench.analyze (E.interrupted cut .crash) t node file source b
    let right := Bench.analyze (E.interrupted cut .failure) t node file source c
    right.state.memory = left.state.memory ∧ left.state.memory.2 = b.memory.2 + 1 ∧
      (cut b.memory.2 = none ∧ right.answer = left.answer ∨
        ∃ fault, cut b.memory.2 = some fault ∧ left.answer = .crashed ∧
          right.answer = .failed fault) := by
  unfold Bench.analyze Engine.interrupted
  dsimp only
  rw [same]
  cases found : cut b.memory.2 with
  | none => exact ⟨rfl, rfl, .inl ⟨rfl, rfl⟩⟩
  | some fault => exact ⟨rfl, rfl, .inr ⟨fault, rfl, rfl, rfl⟩⟩

theorem Recovers.analyze (h : Recovers B C) (node : Node α) (file : Path) (source : String) :
    let left := B.analyze (E.interrupted cut .crash) t node file source
    let right := C.analyze (E.interrupted cut .failure) t node file source
    Parting cut B.analyses .crashed .failed left.state.analyses left.answer right.answer ∧
      Recovers left.state right.state := by
  have fetched := h.cache.get (.of file node.id source)
  unfold Build.analyze analyses
  dsimp only
  cases has : (B.cache.get (.of file node.id source)).answer with
  | some stored =>
      rw [has] at fetched
      obtain ⟨left, leftAnswer⟩ := ResultCache.fetch_of_get has
        (Bench.analyze (E.interrupted cut .crash) t node file source) B.ownership.bench
      obtain ⟨right, rightAnswer⟩ := ResultCache.fetch_of_get fetched
        (Bench.analyze (E.interrupted cut .failure) t node file source) C.ownership.bench
      rw [left, leftAnswer, right, rightAnswer]
      exact ⟨.untouched _, h.context, h.severity, h.locator, h.nodes, h.memory, h.cache.countHit⟩
  | none =>
      rw [has] at fetched
      obtain ⟨left, leftAnswer⟩ := ResultCache.fetch_of_get_eq_none has
        (Bench.analyze (E.interrupted cut .crash) t node file source) B.ownership.bench
      obtain ⟨right, rightAnswer⟩ := ResultCache.fetch_of_get_eq_none fetched
        (Bench.analyze (E.interrupted cut .failure) t node file source) C.ownership.bench
      rw [left, leftAnswer, right, rightAnswer]
      -- Neither end of an analysis that is cut short gives a result, so the caches go on agreeing.
      obtain ⟨memory, count, said⟩ := analyze_interrupted E cut node file source h.memory (t := t)
      dsimp only
      rw [count]
      rcases said with ⟨uncut, same⟩ | ⟨fault, found, crashed, failed⟩
      · rw [same, h.cache.made]
        exact ⟨.whole uncut _, h.context, h.severity, h.locator, h.nodes, memory,
          h.cache.afterAnalysis rfl⟩
      · rw [crashed, failed]
        exact ⟨.short found, h.context, h.severity, h.locator, h.nodes, memory,
          h.cache.afterAnalysis rfl⟩

theorem Recovers.deliver (h : Recovers B C) (a : Analysis) : C.deliver a = B.deliver a := by
  rw [Build.deliver, Build.deliver, h.context, h.severity]

theorem Recovers.compileSource (h : Recovers B C) (file : Path) (source : String) :
    let left := B.compileSource (E.interrupted cut .crash) t file source
    let right := C.compileSource (E.interrupted cut .failure) t file source
    Parting cut B.analyses .crashed (fun fault => .failed (.analysis fault)) left.state.analyses
        left.answer right.answer ∧
      Recovers left.state right.state := by
  obtain ⟨sameNode, none, resolved⟩ := h.resolve E cut (t := t) (t.absolute file)
  intro left right
  dsimp only [left, right]
  rw [(compileSource_answer file source).1, (compileSource_answer file source).2,
    (compileSource_answer (B := C) file source).1, (compileSource_answer (B := C) file source).2,
    sameNode, ← none]
  cases (B.resolve (E.interrupted cut .crash) t (t.absolute file)).answer with
  | failed f => exact ⟨.untouched _, resolved⟩
  | crashed => exact ⟨.untouched _, resolved⟩
  | ok node =>
      obtain ⟨parting, analyzed⟩ := resolved.analyze E cut (t := t) node
        (t.absolute file) source
      dsimp only
      rw [funext h.deliver]
      exact ⟨parting.map fun answer =>
        ((answer.map Stored.result).mapFailure Failure.analysis).map B.deliver, analyzed⟩

theorem Recovers.compile (h : Recovers B C) (file : Path) :
    let left := B.compile (E.interrupted cut .crash) t file
    let right := C.compile (E.interrupted cut .failure) t file
    Parting cut B.analyses .crashed (fun fault => .failed (.analysis fault)) left.state.analyses
        left.answer right.answer ∧
      Recovers left.state right.state := by
  cases read : t.readText (t.absolute file) with
  | error f =>
      rw [compile_of_unreadable read, compile_of_unreadable read]
      exact ⟨.untouched _, h⟩
  | ok source =>
      rw [compile_of_readable read, compile_of_readable read]
      exact h.compileSource E cut _ source

/-! ### What is there stays there -/

variable {F : Engine τ β} {S : Build τ β} {file : Path} {source : String}

theorem get_analyze_of_refused {node : Node β}
    (refused : ∀ stored, (S.analyze F t node file source).answer ≠ .ok stored) (key : CacheKey) :
    ((S.analyze F t node file source).state.cache.get key).answer = (S.cache.get key).answer := by
  unfold Build.analyze at refused ⊢
  dsimp only at refused ⊢
  refine ResultCache.get_fetch_of_refused (fun result said => ?_) key
  cases has : (S.cache.get (.of file node.id source)).answer with
  | some stored => exact refused stored (ResultCache.fetch_of_get has _ _).2
  | none =>
      refine refused ⟨S.cache.made, result⟩ ?_
      rw [(ResultCache.fetch_of_get_eq_none has _ _).2, said]
      rfl

/-- A text that gets no result takes none away. -/
theorem get_compileSource_of_refused
    (refused : ∀ output, (S.compileSource F t file source).answer ≠ .ok output) (key : CacheKey) :
    ((S.compileSource F t file source).state.cache.get key).answer =
      (S.cache.get key).answer := by
  rw [(compileSource_answer file source).1] at refused
  rw [(compileSource_answer file source).2]
  cases found : (S.resolve F t (t.absolute file)).answer with
  | failed f => rfl
  | crashed => rfl
  | ok node =>
      rw [found] at refused
      dsimp only at refused ⊢
      refine get_analyze_of_refused (fun stored answer => ?_) key
      rw [answer] at refused
      exact refused _ rfl

theorem get_compile_of_refused (refused : ∀ output, (S.compile F t file).answer ≠ .ok output)
    (key : CacheKey) :
    ((S.compile F t file).state.cache.get key).answer = (S.cache.get key).answer := by
  cases read : t.readText (t.absolute file) with
  | error f => rw [compile_of_unreadable read]
  | ok source =>
      rw [compile_of_readable read] at refused ⊢
      exact get_compileSource_of_refused refused key

end Build

/-! ### Histories -/

namespace Session

variable (E : Engine σ α) (cut : Nat → Option AnalysisFault) {S T : Session (σ × Nat) α}

/-- The same session but for marks. -/
structure Recovers (S T : Session (σ × Nat) α) : Prop where
  tree : T.tree = S.tree
  build : S.build.Recovers T.build

theorem recovers_mk {B C : Build (σ × Nat) α} (t : FileTree) (h : B.Recovers C) :
    Recovers ⟨t, B⟩ ⟨t, C⟩ := ⟨rfl, h⟩

theorem Recovers.step (h : Recovers S T) {step : Step} (single : ∀ files, step ≠ .compileAll files) :
    let left := S.step (E.interrupted cut .crash) step
    let right := T.step (E.interrupted cut .failure) step
    Parting cut S.build.analyses (.output .crashed)
        (fun fault => .output (.failed (.analysis fault))) left.1.build.analyses left.2 right.2 ∧
      Recovers left.1 right.1 := by
  obtain ⟨t, B⟩ := S
  obtain ⟨t', C⟩ := T
  obtain ⟨same, recovers⟩ := h
  obtain rfl : t' = t := same
  dsimp only at recovers
  cases step with
  | change entries => exact ⟨.untouched _, rfl, recovers⟩
  | resolve file =>
      obtain ⟨same, none, after⟩ := recovers.resolve E cut (t := t') file
      dsimp only [Session.step]
      rw [same, none]
      exact ⟨.untouched _, recovers_mk t' after⟩
  | compile file =>
      obtain ⟨parting, after⟩ := recovers.compile E cut (t := t') file
      dsimp only [Session.step] at parting after ⊢
      exact ⟨parting.map Answer.output, recovers_mk t' after⟩
  | compileSource file source =>
      obtain ⟨parting, after⟩ := recovers.compileSource E cut (t := t') file source
      dsimp only [Session.step] at parting after ⊢
      exact ⟨parting.map Answer.output, recovers_mk t' after⟩
  | compileAll files => exact absurd rfl (single files)
  | finish live =>
      have kept := recovers.cache.keepOnly (live.map t'.absolute)
      dsimp only [Session.step, Build.finish]
      rw [kept.stats]
      exact ⟨.untouched _, rfl, recovers.context, recovers.severity, recovers.locator,
        recovers.nodes, recovers.memory, kept⟩

theorem Recovers.run (h : Recovers S T) {steps : List Step}
    (single : ∀ files, .compileAll files ∉ steps) :
    Recovers (S.run (E.interrupted cut .crash) steps).1
      (T.run (E.interrupted cut .failure) steps).1 := by
  induction steps generalizing S T with
  | nil => exact h
  | cons step steps ih =>
      have now : ∀ files, step ≠ .compileAll files := by
        rintro files rfl
        exact single files List.mem_cons_self
      exact ih (h.step E cut now).2 fun files inside => single files (List.mem_cons_of_mem _ inside)

/-- With nothing cut short any more all answers are the same. -/
theorem Recovers.answers (h : Recovers S T) {steps : List Step}
    (single : ∀ files, .compileAll files ∉ steps)
    (uncut : ∀ n, S.build.analyses ≤ n → cut n = none) :
    (T.run (E.interrupted cut .failure) steps).2 = (S.run (E.interrupted cut .crash) steps).2 := by
  induction steps generalizing S T with
  | nil => rfl
  | cons step steps ih =>
      have now : ∀ files, step ≠ .compileAll files := by
        rintro files rfl
        exact single files List.mem_cons_self
      obtain ⟨parting, after⟩ := h.step E cut now
      have rest := ih after (fun files inside => single files (List.mem_cons_of_mem _ inside))
        fun n later => uncut n (Nat.le_trans parting.le later)
      exact congrArg₂ List.cons (parting.eq_of_uncut (uncut _ (Nat.le_refl _))) rest

/-- A step that compiles one file, and gets no result, leaves every result where it is. -/
theorem get_step_of_refused {F : Engine τ β} {S : Session τ β} {step : Step}
    {outcome : Outcome Failure FileOutput} (answer : (S.step F step).2 = .output outcome)
    (refused : ∀ output, outcome ≠ .ok output) (key : CacheKey) :
    ((S.step F step).1.build.cache.get key).answer = (S.build.cache.get key).answer := by
  cases step with
  | compile file =>
      dsimp only [Session.step] at answer ⊢
      rw [← Answer.output.inj answer] at refused
      exact Build.get_compile_of_refused refused key
  | compileSource file source =>
      dsimp only [Session.step] at answer ⊢
      rw [← Answer.output.inj answer] at refused
      exact Build.get_compileSource_of_refused refused key
  | change entries => cases answer
  | resolve file => cases answer
  | compileAll files => cases answer
  | finish live => cases answer

/-- A crash does not wedge a build. Whether some analyses crash or fail instead, the state after
them is the same, and so is every answer but theirs. -/
theorem run_survives_crashes (E : Engine σ α) (cut : Nat → Option AnalysisFault) (t : FileTree)
    (context : Path) (options : BuildOptions) (memory : σ) {steps : List Step}
    (single : ∀ files, .compileAll files ∉ steps) :
    let start : Session (σ × Nat) α := Session.start t context options (memory, 0)
    let crashing := E.interrupted cut .crash
    let failing := E.interrupted cut .failure
    let S := (start.run crashing steps).1
    let T := (start.run failing steps).1
    T.tree = S.tree ∧ T.build.ownership.nodes = S.build.ownership.nodes ∧
      T.build.cache.stats = S.build.cache.stats ∧ T.build.analyses = S.build.analyses ∧
      (∀ key, (T.build.cache.get key).answer = (S.build.cache.get key).answer) ∧
      (∀ step, (∀ files, step ≠ .compileAll files) →
        let left := S.step crashing step
        let right := T.step failing step
        Parting cut S.build.analyses (.output .crashed)
            (fun fault => .output (.failed (.analysis fault))) left.1.build.analyses left.2 right.2 ∧
          ∀ outcome, left.2 = .output outcome → (∀ output, outcome ≠ .ok output) →
            ∀ key, (left.1.build.cache.get key).answer = (S.build.cache.get key).answer) ∧
      ∀ more, (∀ files, .compileAll files ∉ more) →
        (∀ n, S.build.analyses ≤ n → cut n = none) →
        (T.run failing more).2 = (S.run crashing more).2 := by
  intro start crashing failing S T
  have begun : Recovers start start := ⟨rfl, rfl, rfl, rfl, rfl, rfl, ⟨rfl, fun _ => rfl, rfl, rfl⟩⟩
  have recovers : Recovers S T := begun.run E cut single
  have same := recovers.build
  refine ⟨recovers.tree, same.nodes, same.cache.stats, congrArg Prod.snd same.memory, same.cache.get,
    fun step next => ⟨(recovers.step E cut next).1, ?_⟩,
    fun more single uncut => recovers.answers E cut single uncut⟩
  intro outcome answer refused
  exact get_step_of_refused answer refused

/-- The second of two analyses of a file crashes. The result of the first is still found, and the
rest of the history comes to the same as if it had failed. -/
theorem run_survives_crashes_copying :
    let fault : AnalysisFault := ⟨⟨"/a.ts"⟩, "no"⟩
    let cut (n : Nat) : Option AnalysisFault := if n = 1 then some fault else none
    let crashing := Build.copying.interrupted cut .crash
    let failing := Build.copying.interrupted cut .failure
    let start : Session (Unit × Nat) Unit := Session.start Build.twoSources ⟨"/"⟩ {} ((), 0)
    let first : List Step := [.compileSource ⟨"a.ts"⟩ "1"]
    let second : Step := .compileSource ⟨"a.ts"⟩ "2"
    let more : List Step := [.compileSource ⟨"a.ts"⟩ "1", .compile ⟨"a.ts"⟩, .finish []]
    let S := (start.run crashing first).1
    let T := (start.run failing first).1
    let S' := (start.run crashing (first ++ [second])).1
    let T' := (start.run failing (first ++ [second])).1
    let known : CacheKey := .of ⟨"/a.ts"⟩ 0 "1"
    (S.step crashing second).2 = .output .crashed ∧
      (T.step failing second).2 = .output (.failed (.analysis fault)) ∧
      (S.build.cache.get known).answer = some ⟨0, ⟨"1", []⟩⟩ ∧
      ((S.step crashing second).1.build.cache.get known).answer = some ⟨0, ⟨"1", []⟩⟩ ∧
      (∀ n, S'.build.analyses ≤ n → cut n = none) ∧
      (T'.run failing more).2 = (S'.run crashing more).2 := by
  intro fault cut crashing failing start first second more S T S' T' known
  obtain ⟨before, after, all, found⟩ : S.build.analyses = 1 ∧
      (S.step crashing second).1.build.analyses = 2 ∧ S'.build.analyses = 2 ∧
      (S.build.cache.get known).answer = some ⟨0, ⟨"1", []⟩⟩ := by
    decide +kernel
  have noBatch (files : List Path) : .compileAll files ∉ first := by simp [first]
  have noBatch' (files : List Path) : .compileAll files ∉ first ++ [second] := by
    simp [first, second]
  have noBatchMore (files : List Path) : .compileAll files ∉ more := by simp [more]
  have uncut : ∀ n, S'.build.analyses ≤ n → cut n = none := by
    intro n late
    rw [all] at late
    exact if_neg (by omega)
  obtain ⟨_, _, _, _, _, next, _⟩ :=
    run_survives_crashes Build.copying cut Build.twoSources ⟨"/"⟩ {} () noBatch
  obtain ⟨_, _, _, _, _, _, later⟩ :=
    run_survives_crashes Build.copying cut Build.twoSources ⟨"/"⟩ {} () noBatch'
  obtain ⟨parting, kept⟩ := next second nofun
  have ran : (S.step crashing second).1.build.analyses ≠ S.build.analyses := by
    rw [before, after]
    decide
  obtain ⟨crash, failure⟩ := parting.eq_of_cut (congrArg cut before) ran
  have stays := kept .crashed crash nofun known
  have same := later more noBatchMore uncut
  dsimp only [S, T, S', T', start, crashing, failing] at found uncut ⊢
  refine ⟨crash, failure, found, ?_, uncut, same⟩
  rw [stays, found]

end Session

end RootedBuild
