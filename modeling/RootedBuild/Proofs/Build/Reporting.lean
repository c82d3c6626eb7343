import RootedBuild.Proofs.Build.Moments
import RootedBuild.Proofs.Build.Traced
import RootedBuild.Proofs.CommandLine.Agreement

/-!
Everything an analyzer says comes out of a batch, and nothing else does. Behind each entry of a
report stands either the failure it shows or a result that an analyzer gave for the text of the file,
in this batch or before it. The texts of all these results, each as often as its file was asked for,
and a message for each failure are what the report gathers. A batch without a report is a matter of
the command line only.
-/
namespace RootedBuild

/-! ### What stands behind a report -/

def Analysis.texts (context : Path) (a : Analysis) : List String :=
  a.diagnostics.map (Diagnostic.render context)

/-- An entry of a report, as it is made from a result or from a failure. -/
inductive FileReport.Shows (context : Path) (warnOnly : Bool) :
    FileReport → Except Failure Analysis → Prop where
  | ok (file : Path) {o : FileOutput} {a : Analysis} (code : o.code = a.code)
      (errors : o.errors = if warnOnly then [] else a.texts context)
      (warnings : o.warnings = if warnOnly then a.texts context else [])
      (verdict : o.verdict = .succeededWithDiagnostics ↔ a.diagnostics ≠ []) :
      Shows context warnOnly ⟨file, .ok o⟩ (.ok a)
  | error (file : Path) (f : Failure) : Shows context warnOnly ⟨file, .error f⟩ (.error f)

namespace Report

/-- The texts of all results, in order. -/
def textsOf (context : Path) (behind : List (Except Failure Analysis)) : List String :=
  behind.flatMap fun
    | .ok a => a.texts context
    | .error _ => []

/-- The messages of all failures, in order. -/
def messagesOf (behind : List (Except Failure Analysis)) : List String :=
  behind.filterMap fun
    | .ok _ => none
    | .error f => some f.message

variable {context : Path} {warnOnly : Bool}

/-- What a report gathers. -/
theorem errors_warnings_of_shows {r : Report} {behind : List (Except Failure Analysis)}
    (h : List.Forall₂ (FileReport.Shows context warnOnly) r.files behind) :
    r.errors = (if warnOnly then [] else textsOf context behind) ++ messagesOf behind ∧
      r.warnings = if warnOnly then textsOf context behind else [] := by
  obtain ⟨files⟩ := r
  have gathered : (⟨files⟩ : Report).outputs.flatMap FileOutput.errors =
        (if warnOnly then [] else textsOf context behind) ∧
      (⟨files⟩ : Report).outputs.flatMap FileOutput.warnings =
        (if warnOnly then textsOf context behind else []) ∧
      (⟨files⟩ : Report).failures.map Failure.message = messagesOf behind := by
    change List.Forall₂ _ files behind at h
    induction h with
    | nil => cases warnOnly <;> exact ⟨rfl, rfl, rfl⟩
    | @cons entry result files behind head _ ih =>
        obtain ⟨errors, warnings, messages⟩ := ih
        cases head with
        | @ok file o a code errs warns verdict =>
            have first : (⟨⟨file, .ok o⟩ :: files⟩ : Report).outputs =
                o :: (⟨files⟩ : Report).outputs := rfl
            have texts : textsOf context (.ok a :: behind) =
                a.texts context ++ textsOf context behind := List.flatMap_cons
            rw [first, List.flatMap_cons, List.flatMap_cons, errors, warnings, errs, warns, texts]
            refine ⟨?_, ?_, messages⟩ <;> cases warnOnly <;> rfl
        | error file f => exact ⟨errors, warnings, congrArg (f.message :: ·) messages⟩
  obtain ⟨errors, warnings, messages⟩ := gathered
  exact ⟨by rw [Report.errors, errors, messages], warnings⟩

/-- Whether there are errors is told without putting them together. -/
theorem hasErrors_iff (r : Report) : r.hasErrors = true ↔ r.errors ≠ [] := by
  have failed : r.failed = [] ↔ r.failures = [] := by
    simp [Report.failed, failures, List.filter_eq_nil_iff, List.filterMap_eq_nil_iff]
  have clean : (∀ o ∈ r.outputs, o.errors = []) ↔ r.outputs.flatMap FileOutput.errors = [] :=
    List.flatMap_eq_nil_iff.symm
  rw [hasErrors, errors, Bool.or_eq_true, Bool.not_eq_true', List.isEmpty_eq_false_iff,
    List.any_eq_true, ne_eq, ne_eq, List.append_eq_nil_iff, List.map_eq_nil_iff, ← failed, ← clean]
  simp only [Bool.not_eq_true', List.isEmpty_eq_false_iff]
  grind

theorem hasErrors_eq_false_iff (r : Report) : r.hasErrors = false ↔ r.errors = [] := by
  rw [← Bool.not_eq_true, r.hasErrors_iff, ne_eq, not_not]

end Report

/-! ### One file of a batch -/

namespace Build

/-- Behind an entry for a file stands a failure, or a result that has been given for a text of the
file with the fingerprint of what the file holds now. -/
def StandsBehind (t : FileTree) (B : Build ((σ × List Finding) × List Call) (α × Nat))
    (file : Path) : Except Failure Analysis → Prop
  | .error _ => True
  | .ok a => ∃ source finding, t.readText (t.absolute file) = .ok source ∧ finding ∈ B.heard ∧
      finding.file = t.absolute file ∧ finding.result = a ∧
      Fingerprint.ofText finding.source = Fingerprint.ofText source

variable {E : Engine σ α} {t : FileTree} {B C : Build ((σ × List Finding) × List Call) (α × Nat)}
  {file : Path}

theorem StandsBehind.mono {result : Except Failure Analysis} (h : B.StandsBehind t file result)
    (more : B.heard <+: C.heard) : C.StandsBehind t file result := by
  cases result with
  | error f => trivial
  | ok a =>
      obtain ⟨source, finding, read, inside, rest⟩ := h
      exact ⟨source, finding, read, more.subset inside, rest⟩

/-- What a file has come to in a batch. -/
def Entered (t : FileTree) (context : Path) (warnOnly : Bool)
    (B : Build ((σ × List Finding) × List Call) (α × Nat)) (file : Path) (entry : FileReport) :
    Prop :=
  entry.file = t.absolute file ∧
    ∃ result, entry.Shows context warnOnly result ∧ B.StandsBehind t file result

variable {context : Path} {warnOnly : Bool}

theorem shows_deliver (file : Path) (hc : B.context = context)
    (hs : B.severity = .ofLenient warnOnly) (a : Analysis) :
    (FileReport.mk file (.ok (B.deliver a))).Shows context warnOnly (.ok a) := by
  subst hc
  refine .ok file rfl ?_ ?_ ?_
  · cases warnOnly <;> simp [Build.deliver, hs, Severity.ofLenient, Severity.route, Analysis.texts]
  · cases warnOnly <;> simp [Build.deliver, hs, Severity.ofLenient, Severity.route, Analysis.texts]
  · cases none : a.diagnostics <;> simp [Build.deliver, Verdict.ofTexts, none]

/-- The builds of a batch: traced, with one context and one severity. -/
structure Reporting (E : Engine σ α) (t : FileTree) (context : Path) (warnOnly : Bool)
    (B : Build ((σ × List Finding) × List Call) (α × Nat)) : Prop where
  traced : B.Traced E t.here
  context : B.context = context
  severity : B.severity = .ofLenient warnOnly

theorem Reporting.enters (rooted : t.here.isAbsolute = true) :
    Handler.Enters t (Reporting E t context warnOnly) (Entered t context warnOnly)
      (Build.compile E.heard.watched t) where
  keeps := by
    intro B file h
    obtain ⟨traced, stays⟩ := h.traced.compile rooted file
    exact ⟨traced, stays.context.trans h.context, stays.severity.trans h.severity⟩
  stays := by
    rintro B file f entry h ⟨same, result, showing, behind⟩
    obtain ⟨_, stays⟩ := h.traced.compile rooted file
    exact ⟨same, result, showing, behind.mono stays.heard⟩
  enters := by
    intro B file h entry member
    obtain ⟨traced, stays⟩ := h.traced.compile rooted file
    cases answer : (B.compile E.heard.watched t file).answer with
    | ok output =>
        rw [answer] at member
        cases List.mem_singleton.mp member
        cases read : t.readText (t.absolute file) with
        | error f =>
            rw [compile_of_unreadable read] at answer
            cases answer
        | ok source =>
            obtain ⟨stored, delivered, knows⟩ := knows_compile h.traced.apart rooted file read answer
            obtain ⟨text, found, print⟩ :=
              traced.of_knows (FileTree.canonical_absolute rooted file) knows
            obtain ⟨inside, _⟩ := Finding.mem_of_last? found
            refine ⟨rfl, .ok stored.result, ?_, source, _, read, inside, rfl, rfl, print⟩
            rw [delivered]
            exact shows_deliver _ (stays.context.trans h.context) (stays.severity.trans h.severity) _
    | failed f =>
        rw [answer, Stretch.ofFile] at member
        split at member
        · cases member
        · cases List.mem_singleton.mp member
          exact ⟨rfl, .error f, .error _ f, trivial⟩
    | crashed =>
        rw [answer] at member
        cases member

theorem exists_behind {files : List Path} {entries : List FileReport}
    (h : List.Forall₂ (B.Entered t context warnOnly) files entries) :
    ∃ behind : List (Except Failure Analysis),
      List.Forall₂ (fun file entry => entry.file = t.absolute file) files entries ∧
      List.Forall₂ (FileReport.Shows context warnOnly) entries behind ∧
      List.Forall₂ (B.StandsBehind t) files behind := by
  induction h with
  | nil => exact ⟨[], .nil, .nil, .nil⟩
  | cons head _ ih =>
      obtain ⟨same, result, showing, stands⟩ := head
      obtain ⟨behind, paths, shown, all⟩ := ih
      exact ⟨result :: behind, .cons same paths, .cons showing shown, .cons stands all⟩

/-- What stands behind a report, entry by entry. -/
theorem Reporting.compileAll (h : B.Reporting E t context warnOnly)
    (rooted : t.here.isAbsolute = true) {files : List Path} {report : Report}
    (answer : (B.compileAll E.heard.watched t files).answer = .ok report) :
    ∃ behind : List (Except Failure Analysis),
      List.Forall₂ (fun file entry => entry.file = t.absolute file) files report.files ∧
      List.Forall₂ (FileReport.Shows context warnOnly) report.files behind ∧
      List.Forall₂ ((B.compileAll E.heard.watched t files).state.StandsBehind t) files behind := by
  rw [compileAll_answer] at answer
  rw [compileAll_state]
  exact exists_behind ((Reporting.enters rooted).all h answer)

end Build

/-! ### Histories -/

namespace Session
open CommandLine (BuildCommand showBuild)

/-- Before each step of a history the build is traced, and it is the one the history started with. -/
theorem traced_of_mem_moments {E : Engine σ α} {here : Path}
    {S : Session ((σ × List Finding) × List Call) (α × Nat)} (same : S.tree.here = here)
    (rooted : here.isAbsolute = true) (h : S.build.Traced E here) {steps : List Step}
    {m : Moment ((σ × List Finding) × List Call) (α × Nat)}
    (member : m ∈ S.moments E.heard.watched steps) :
    m.session.tree.here = here ∧ m.session.build.Traced E here ∧
      Build.Continues S.build m.session.build := by
  obtain ⟨before, reached⟩ := exists_run_of_mem_moments member
  rw [reached]
  exact ⟨(run_here S before).trans same, run_traced same rooted h before⟩

/-- Reports are complete and say nothing twice: behind each entry, in order, stands a failure or a
result given for the file, and the texts of the results and the messages of the failures come out
once each. The program prints these lines alone, and exits with 1 exactly if one is an error. -/
theorem run_reports_everything (E : Engine σ α) (t : FileTree) (rooted : t.here.isAbsolute = true)
    (context : Path) (options : BuildOptions) (memory : σ) (steps : List Step) :
    let fresh : Session ((σ × List Finding) × List Call) (α × Nat) :=
      start t context options ((memory, []), [])
    let last := fresh.run E.heard.watched steps
    (start t context options memory).run E steps =
        (last.1.map (fun m => m.1.1) Prod.fst, last.2.map (Answer.map Prod.fst)) ∧
      (∀ m ∈ fresh.moments E.heard.watched steps, ∀ files report,
        m.step = .compileAll files → m.answer E.heard.watched = .report (.ok report) →
        ∃ behind : List (Except Failure Analysis),
          let texts := Report.textsOf (t.absolute context) behind
          let messages := Report.messagesOf behind
          List.Forall₂ (fun file entry => entry.file = t.absolute file) files report.files ∧
          List.Forall₂ (FileReport.Shows (t.absolute context) options.warnOnly) report.files
            behind ∧
          List.Forall₂ ((m.next E.heard.watched).build.StandsBehind m.session.tree) files behind ∧
          report.errors = (if options.warnOnly then [] else texts) ++ messages ∧
          report.warnings = (if options.warnOnly then texts else []) ∧
          (report.errors ++ report.warnings).Perm (texts ++ messages) ∧
          (report.hasErrors = true ↔ report.errors ≠ [])) ∧
      ∀ (c : BuildCommand) level,
        let built := (run E (start t ⟨c.context⟩ c.options memory)
          [.compileAll (c.files.map Path.mk)]).2
        let shown := showBuild E memory t level c
        (∀ report, built = [.report (.ok report)] →
          shown.err = String.join ((report.warnings ++ report.errors).map (· ++ "\n")) ∧
            (shown.exit = 1 ↔ ∃ line, line ∈ report.errors) ∧
            (shown.exit = 0 ↔ report.errors = [])) ∧
        (∀ f, built = [.report (.failed f)] →
          shown.err = "Error: " ++ f.message ++ "\n" ∧ shown.exit = 1) ∧
        (built = [.report .crashed] → shown.err = "" ∧ shown.exit = 101) := by
  intro fresh last
  refine ⟨run_map E.covers_heard_watched fresh steps, ?_, ?_⟩
  · intro m member files report batch answer
    have clean : fresh.build.Traced E t.here := start_traced rooted context options memory
    obtain ⟨home, traced, stays⟩ := traced_of_mem_moments rfl rooted clean member
    rw [← home] at traced
    have reporting : m.session.build.Reporting E m.session.tree (t.absolute context)
        options.warnOnly := ⟨traced, stays.context, stays.severity⟩
    obtain ⟨session, step⟩ := m
    subst batch
    obtain ⟨behind, paths, shown, stands⟩ :=
      reporting.compileAll (home ▸ rooted) (Answer.report.inj answer)
    obtain ⟨errors, warnings⟩ := Report.errors_warnings_of_shows shown
    rw [FileTree.absolute_congr home] at paths
    refine ⟨behind, paths, shown, stands, errors, warnings, ?_, report.hasErrors_iff⟩
    rw [errors, warnings]
    cases options.warnOnly with
    | false => simp
    | true => simpa using List.perm_append_comm
  · intro c level built shown
    obtain ⟨events, later, told⟩ := CommandLine.showBuild_eq E memory t c
    have told : shown = _ := told level
    have answered {o : Outcome Failure Report} (same : built = [.report o]) :
        ((Build.start t ⟨c.context⟩ c.options memory : Told (Build σ α)).answer.compileAll E t
          (c.files.map Path.mk)).answer = o :=
      Answer.report.inj (List.singleton_inj.mp same)
    refine ⟨fun report same => ?_, fun f same => ?_, fun same => ?_⟩
    · rw [answered same] at told
      have lines := CommandLine.textLines_append report.warnings report.errors
      have printed : (∃ line, line ∈ report.errors) ↔ report.errors ≠ [] :=
        ⟨fun ⟨_, member⟩ => List.ne_nil_of_mem member, List.exists_mem_of_ne_nil _⟩
      rw [told, printed, ← report.hasErrors_iff, ← report.hasErrors_eq_false_iff]
      refine ⟨lines, ?_⟩
      dsimp only [CommandLine.showReport]
      cases report.hasErrors <;> simp
    · rw [answered same] at told
      rw [told]
      exact ⟨rfl, rfl⟩
    · rw [answered same] at told
      rw [told]
      exact ⟨rfl, rfl⟩

/-- An engine that has one complaint about every file. -/
def complaining : Engine Unit Unit where
  create _ _ _ _ := ((), .ok ())
  analyze _ _ file source _ := ((), .ok ⟨source, [⟨some ⟨file, 1, 1⟩, 7, source, .semantic⟩]⟩)

/-- A file that stands in a lenient batch twice, the second time from the cache, and one that is
missing. The program prints three lines, and exits with 1 because the last of them is an error. -/
theorem run_reports_everything_twice :
    let files : List Path := [⟨"a.ts"⟩, ⟨"missing.ts"⟩, ⟨"/p/../a.ts"⟩]
    let fresh : Session ((Unit × List Finding) × List Call) (Unit × Nat) :=
      start Build.twoSources ⟨"/"⟩ { warnOnly := true } (((), []), [])
    let c : BuildCommand := ⟨["a.ts", "missing.ts", "/p/../a.ts"], "/", true, "tsconfig.json",
      false, none, "service", [], false⟩
    let shown := showBuild complaining () Build.twoSources none c
    Build.twoSources.here.isAbsolute = true ∧
      (∃ report behind,
        (fresh.step complaining.heard.watched (.compileAll files)).2 = .report (.ok report) ∧
        report.errors = ["Could not read /missing.ts: No such file or directory (os error 2)"] ∧
        report.warnings = ["a.ts(1,1): error TS7: 1", "a.ts(1,1): error TS7: 1"] ∧
        report.errors = Report.messagesOf behind ∧
        report.warnings = Report.textsOf (Build.twoSources.absolute ⟨"/"⟩) behind) ∧
      ∃ report,
        (run complaining (start Build.twoSources ⟨c.context⟩ c.options ())
          [.compileAll (c.files.map Path.mk)]).2 = [.report (.ok report)] ∧
        shown.err = String.join ((report.warnings ++ report.errors).map (· ++ "\n")) ∧
        shown.err = "a.ts(1,1): error TS7: 1\na.ts(1,1): error TS7: 1\n" ++
          "Could not read /missing.ts: No such file or directory (os error 2)\n" ∧
        shown.exit = 1 ∧ ∃ line, line ∈ report.errors := by
  intro files fresh c shown
  have rooted : Build.twoSources.here.isAbsolute = true := by decide
  obtain ⟨_, batches, commands⟩ := run_reports_everything complaining Build.twoSources rooted
    ⟨"/"⟩ { warnOnly := true } () [.compileAll files]
  refine ⟨rooted, ?_, ?_⟩
  · have said : ((fresh.build.compileAll complaining.heard.watched fresh.tree files).answer.map
        fun r => (r.errors, r.warnings)) =
          .ok (["Could not read /missing.ts: No such file or directory (os error 2)"],
            ["a.ts(1,1): error TS7: 1", "a.ts(1,1): error TS7: 1"]) := by
      decide +kernel
    cases answer : (fresh.build.compileAll complaining.heard.watched fresh.tree files).answer with
    | failed f => rw [answer] at said; cases said
    | crashed => rw [answer] at said; cases said
    | ok report =>
        rw [answer] at said
        obtain ⟨errors, warnings⟩ := Prod.ext_iff.mp (Outcome.ok.inj said)
        obtain ⟨behind, _, _, _, gathered, gathered', _⟩ :=
          batches ⟨fresh, .compileAll files⟩ (List.mem_singleton.mpr rfl) files report rfl
            (congrArg Answer.report answer)
        exact ⟨report, behind, congrArg Answer.report answer, errors, warnings, gathered, gathered'⟩
  · have printed : shown.err = "a.ts(1,1): error TS7: 1\na.ts(1,1): error TS7: 1\n" ++
          "Could not read /missing.ts: No such file or directory (os error 2)\n" ∧
        shown.exit = 1 := by
      decide +kernel
    let alone : Session Unit Unit := start Build.twoSources ⟨c.context⟩ c.options ()
    let batch := alone.build.compileAll complaining Build.twoSources (c.files.map Path.mk)
    have ends : batch.answer.map (fun _ => ()) = .ok () := by decide +kernel
    cases answer : batch.answer with
    | failed f => rw [answer] at ends; cases ends
    | crashed => rw [answer] at ends; cases ends
    | ok report =>
        have built := congrArg (fun o => [Answer.report (α := Unit) o]) answer
        obtain ⟨lines, failing, _⟩ := (commands c none).1 report built
        exact ⟨report, built, lines, printed.1, printed.2, failing.mp printed.2⟩

end Session

end RootedBuild
