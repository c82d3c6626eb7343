import RootedBuild.Proofs.Build.Isolation

/-!
A strict build and a lenient one beside each other. They differ in nothing but where the texts of
diagnostics go: nodes, results and counts do not hang on it, the engine gets the same calls, and
every failure comes at the same step. So each can be told from the other, also for a batch, in which
the texts of all files are gathered before the messages of the files that failed.
-/
namespace RootedBuild

/-- One result as a strict and as a lenient build deliver it. -/
structure FileOutput.Rerouted (strict lenient : FileOutput) : Prop where
  code : strict.code = lenient.code
  verdict : strict.verdict = lenient.verdict
  texts : strict.errors = lenient.warnings
  noWarnings : strict.warnings = []
  noErrors : lenient.errors = []

/-- One batch as a strict and as a lenient build report it. -/
structure Report.Rerouted (strict lenient : Report) : Prop where
  files : strict.Like FileOutput.Rerouted lenient
  errors : strict.errors = lenient.warnings ++ lenient.errors
  noWarnings : strict.warnings = []
  messages : lenient.errors = lenient.failures.map Failure.message

inductive Answer.Rerouted : Answer α → Answer α → Prop where
  | nothing : Rerouted .nothing .nothing
  | node (found : Outcome Failure (Node α)) : Rerouted (.node found) (.node found)
  | output {strict lenient : Outcome Failure FileOutput}
      (each : strict.Like FileOutput.Rerouted lenient) : Rerouted (.output strict) (.output lenient)
  | report {strict lenient : Outcome Failure Report}
      (each : strict.Like Report.Rerouted lenient) : Rerouted (.report strict) (.report lenient)
  | counts (stats : CacheCounts) : Rerouted (.counts stats) (.counts stats)

/-! ### Reports -/

namespace Report

variable {Q : FileOutput → FileOutput → Prop} {strict lenient : Report}

/-- Reports that are alike have outputs that are related and the same failures, in one order. -/
theorem Like.parts (h : strict.Like Q lenient) :
    List.Forall₂ Q strict.outputs lenient.outputs ∧ strict.failures = lenient.failures := by
  obtain ⟨files⟩ := strict
  obtain ⟨files'⟩ := lenient
  change List.Forall₂ (FileReport.Like Q) files files' at h
  induction h with
  | nil => exact ⟨.nil, rfl⟩
  | cons head _ ih =>
      obtain ⟨outputs, failures⟩ := ih
      cases head with
      | ok file related => exact ⟨.cons related outputs, failures⟩
      | error file f => exact ⟨outputs, congrArg (f :: ·) failures⟩

theorem Like.rerouted (h : strict.Like FileOutput.Rerouted lenient) : strict.Rerouted lenient := by
  obtain ⟨outputs, failures⟩ := h.parts
  have gathered : strict.outputs.flatMap FileOutput.errors =
        lenient.outputs.flatMap FileOutput.warnings ∧
      strict.outputs.flatMap FileOutput.warnings = [] ∧
      lenient.outputs.flatMap FileOutput.errors = [] := by
    generalize strict.outputs = os, lenient.outputs = ps at outputs
    induction outputs with
    | nil => exact ⟨rfl, rfl, rfl⟩
    | cons head _ ih =>
        simp only [List.flatMap_cons, head.texts, head.noWarnings, head.noErrors, ih]
        exact ⟨trivial, rfl, rfl⟩
  obtain ⟨texts, noWarnings, noErrors⟩ := gathered
  have messages : lenient.errors = lenient.failures.map Failure.message := by
    rw [errors, noErrors, List.nil_append]
  refine ⟨h, ?_, noWarnings, messages⟩
  rw [messages, ← failures, errors, texts, warnings]

end Report

/-! ### The same build with another severity -/

namespace Build

variable {E : Engine σ α} {t : FileTree} {B C : Build σ α}

def withSeverity (B : Build σ α) (severity : Severity) : Build σ α := { B with severity }

/-- The second build is the first one, made lenient. -/
structure Softened (B C : Build σ α) : Prop where
  strict : B.severity = .strict
  lenient : C = B.withSeverity .lenient

theorem Softened.start (t : FileTree) (context : Path) (options : BuildOptions) (memory : σ) :
    Softened (Build.start t context { options with warnOnly := false } memory).answer
      (Build.start t context { options with warnOnly := true } memory :
        Told (Build σ α)).answer :=
  ⟨rfl, rfl⟩

theorem Softened.deliver (h : Softened B C) (a : Analysis) :
    (B.deliver a).Rerouted (C.deliver a) := by
  obtain ⟨strict, rfl⟩ := h
  unfold Build.deliver
  rw [strict]
  exact ⟨rfl, rfl, rfl, rfl, rfl⟩

theorem Softened.resolve (h : Softened B C) (file : Path) :
    (C.resolve E t file).answer = (B.resolve E t file).answer ∧
      Softened (B.resolve E t file).state (C.resolve E t file).state := by
  obtain ⟨strict, rfl⟩ := h
  exact ⟨rfl, strict, rfl⟩

theorem Softened.analyze (h : Softened B C) (node : Node α) (file : Path) (source : String) :
    (C.analyze E t node file source).answer = (B.analyze E t node file source).answer ∧
      Softened (B.analyze E t node file source).state (C.analyze E t node file source).state := by
  obtain ⟨strict, rfl⟩ := h
  exact ⟨rfl, strict, rfl⟩

theorem Softened.compileSource (h : Softened B C) (file : Path) (source : String) :
    (B.compileSource E t file source).answer.Like FileOutput.Rerouted
        (C.compileSource E t file source).answer ∧
      Softened (B.compileSource E t file source).state (C.compileSource E t file source).state := by
  obtain ⟨sameNode, resolved⟩ := h.resolve (E := E) (t := t) (t.absolute file)
  rw [(compileSource_answer file source).1, (compileSource_answer file source).2,
    (compileSource_answer (B := C) file source).1, (compileSource_answer (B := C) file source).2,
    sameNode]
  cases (B.resolve E t (t.absolute file)).answer with
  | failed f => exact ⟨.failed f, resolved⟩
  | crashed => exact ⟨.crashed, resolved⟩
  | ok node =>
      obtain ⟨sameResult, analyzed⟩ :=
        resolved.analyze (E := E) (t := t) node (t.absolute file) source
      dsimp only
      rw [sameResult]
      refine ⟨?_, analyzed⟩
      cases (Build.analyze E t _ node (t.absolute file) source).answer with
      | failed f => exact .failed _
      | crashed => exact .crashed
      | ok stored => exact .ok (h.deliver stored.result)

theorem Softened.compile (h : Softened B C) (file : Path) :
    (B.compile E t file).answer.Like FileOutput.Rerouted (C.compile E t file).answer ∧
      Softened (B.compile E t file).state (C.compile E t file).state := by
  cases read : t.readText (t.absolute file) with
  | error f =>
      rw [compile_of_unreadable read, compile_of_unreadable read]
      exact ⟨.failed _, h⟩
  | ok source =>
      rw [compile_of_readable read, compile_of_readable read]
      exact h.compileSource _ source

theorem Softened.compileAll (h : Softened B C) (files : List Path) :
    (B.compileAll E t files).answer.Like Report.Rerouted (C.compileAll E t files).answer ∧
      Softened (B.compileAll E t files).state (C.compileAll E t files).state := by
  have matched : Handler.Matched (fun _ => True) Softened FileOutput.Rerouted (Build.compile E t)
      (Build.compile E t) := fun _ _ file _ softened => softened.compile file
  obtain ⟨answers, after⟩ := matched.all (t := t) h fun file (_ : file ∈ files) => trivial
  rw [compileAll_answer, compileAll_answer, compileAll_state, compileAll_state]
  exact ⟨answers.imp fun _ _ => Report.Like.rerouted, after⟩

end Build

/-! ### Histories -/

namespace Session

variable {E : Engine σ α}

/-- The second session is the first one, with the build made lenient. -/
structure Softened (S T : Session σ α) : Prop where
  tree : T.tree = S.tree
  build : S.build.Softened T.build

theorem softened_mk {B C : Build σ α} (t : FileTree) (h : B.Softened C) :
    Softened ⟨t, B⟩ ⟨t, C⟩ := ⟨rfl, h⟩

theorem Softened.step {S T : Session σ α} (h : Softened S T) (step : Step) :
    (S.step E step).2.Rerouted (T.step E step).2 ∧
      Softened (S.step E step).1 (T.step E step).1 := by
  obtain ⟨t, B⟩ := S
  obtain ⟨t', C⟩ := T
  obtain ⟨same, soft⟩ := h
  obtain rfl : t' = t := same
  cases step with
  | change entries => exact ⟨.nothing, rfl, soft⟩
  | resolve file =>
      obtain ⟨same, after⟩ := soft.resolve (E := E) (t := t') file
      dsimp only [Session.step] at same ⊢
      rw [same]
      exact ⟨.node _, softened_mk t' after⟩
  | compile file =>
      obtain ⟨outputs, after⟩ := soft.compile (E := E) (t := t') file
      dsimp only [Session.step]
      exact ⟨.output outputs, softened_mk t' after⟩
  | compileSource file source =>
      obtain ⟨outputs, after⟩ := soft.compileSource (E := E) (t := t') file source
      dsimp only [Session.step]
      exact ⟨.output outputs, softened_mk t' after⟩
  | compileAll files =>
      obtain ⟨reports, after⟩ := soft.compileAll (E := E) (t := t') files
      dsimp only [Session.step]
      exact ⟨.report reports, softened_mk t' after⟩
  | finish live =>
      obtain ⟨strict, rfl⟩ := soft
      exact ⟨.counts _, rfl, strict, rfl⟩

theorem Softened.run {S T : Session σ α} (h : Softened S T) (steps : List Step) :
    List.Forall₂ Answer.Rerouted (S.run E steps).2 (T.run E steps).2 ∧
      Softened (S.run E steps).1 (T.run E steps).1 := by
  induction steps generalizing S T with
  | nil => exact ⟨.nil, h⟩
  | cons step steps ih =>
      obtain ⟨first, next⟩ := h.step (E := E) step
      obtain ⟨rest, last⟩ := ih next
      exact ⟨.cons first rest, last⟩

/-- A strict and a lenient build carry the same information. Their answers differ by the place of
the texts alone, and calls, nodes, results and counts are the same. -/
theorem run_strict_rerouted (E : Engine σ α) (t : FileTree) (context : Path)
    (options : BuildOptions) (memory : σ) (steps : List Step) :
    let start (warnOnly : Bool) := start t context { options with warnOnly } (memory, [])
    let strict := (start false).run E.watched steps
    let lenient := (start true).run E.watched steps
    (∀ warnOnly, (Session.start t context { options with warnOnly } memory).run E steps =
      (((start warnOnly).run E.watched steps).1.map Prod.fst Prod.fst,
        ((start warnOnly).run E.watched steps).2.map (Answer.map Prod.fst))) ∧
    List.Forall₂ Answer.Rerouted strict.2 lenient.2 ∧
    strict.1.build.calls = lenient.1.build.calls ∧
    strict.1.build.cache.stats = lenient.1.build.cache.stats ∧
    strict.1.build.ownership = lenient.1.build.ownership ∧
    strict.1.build.cache = lenient.1.build.cache := by
  intro start strict lenient
  have soft : Softened (start false) (start true) := ⟨rfl, .start t context options (memory, [])⟩
  obtain ⟨answers, last⟩ := soft.run (E := E.watched) steps
  have same : lenient.1.build = strict.1.build.withSeverity .lenient := last.build.lenient
  refine ⟨fun warnOnly => run_map E.covers_watched (start warnOnly) steps, answers, ?_⟩
  rw [same]
  exact ⟨rfl, rfl, rfl, rfl⟩

end Session

end RootedBuild
