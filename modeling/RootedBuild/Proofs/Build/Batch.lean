import Mathlib.Data.List.Forall2
import RootedBuild.Batch
import RootedBuild.Proofs.Build.Alone

/-!
A batch and its files taken alone. However a list is cut, and whatever its files leave behind in the
build, the batch comes to what its files come to on their own, up to the first that is fatal or
crashes. Which later files are still handled after a crash is not told by the answer, and nothing is
claimed about it.
-/
namespace RootedBuild

/-! ### Outcomes of a list -/

namespace Outcome

def bind (o : Outcome ε α) (next : α → Outcome ε β) : Outcome ε β :=
  match o with
  | .ok a => next a
  | .failed e => .failed e
  | .crashed => .crashed

/-- The values for all elements of a list, or the first outcome that is none. -/
def each (f : β → Outcome ε α) : List β → Outcome ε (List α)
  | [] => .ok []
  | b :: bs => (f b).bind fun a => (each f bs).map (a :: ·)

def ofExcept : Except ε α → Outcome ε α
  | .ok a => .ok a
  | .error e => .failed e

/-- Whether a batch ends with this outcome of one of its files. -/
def stops : Outcome Failure α → Bool
  | .ok _ => false
  | .failed f => f.isFatal
  | .crashed => true

theorem each_append (f : β → Outcome ε α) (bs cs : List β) :
    each f (bs ++ cs) = (each f bs).bind fun as => (each f cs).map (as ++ ·) := by
  induction bs with
  | nil =>
      change each f cs = (each f cs).map fun as => as
      cases each f cs <;> rfl
  | cons b bs ih =>
      rw [List.cons_append, each, each, ih]
      cases f b with
      | ok a => cases each f bs <;> cases each f cs <;> rfl
      | failed e => rfl
      | crashed => rfl

theorem each_eq_ok_iff (f : β → Outcome ε α) (bs : List β) (as : List α) :
    each f bs = .ok as ↔ List.Forall₂ (fun a b => f b = .ok a) as bs := by
  induction bs generalizing as with
  | nil => simp [each, eq_comm]
  | cons b bs ih =>
      rw [List.forall₂_cons_right_iff]
      constructor
      · intro whole
        cases first : f b with
        | ok a =>
            cases rest : each f bs with
            | ok later =>
                simp only [each, first, rest, bind, map, ok.injEq] at whole
                exact ⟨a, later, rfl, (ih later).mp rest, whole.symm⟩
            | failed e => simp [each, first, rest, bind, map] at whole
            | crashed => simp [each, first, rest, bind, map] at whole
        | failed e => simp [each, first, bind] at whole
        | crashed => simp [each, first, bind] at whole
      · rintro ⟨a, later, first, rest, rfl⟩
        simp [each, first, (ih later).mpr rest, bind, map]

/-- The first element without a value has the outcome `o`. -/
def FirstStop (f : β → Outcome ε α) (bs : List β) (o : Outcome ε α) : Prop :=
  ∃ before b after, bs = before ++ b :: after ∧ (∀ g ∈ before, ∃ a, f g = .ok a) ∧ f b = o

theorem firstStop_nil (f : β → Outcome ε α) (o : Outcome ε α) : ¬FirstStop f [] o := by
  rintro ⟨before, b, after, split, _⟩
  simp at split

/-- Either the head decides, or it has a value and the tail decides. -/
theorem firstStop_cons (f : β → Outcome ε α) (b : β) (bs : List β) (o : Outcome ε α) :
    FirstStop f (b :: bs) o ↔ f b = o ∨ (∃ a, f b = .ok a) ∧ FirstStop f bs o := by
  constructor
  · rintro ⟨before, stop, after, split, values, same⟩
    cases before with
    | nil =>
        rw [List.nil_append, List.cons.injEq] at split
        exact .inl (by rw [split.1, same])
    | cons head before =>
        rw [List.cons_append, List.cons.injEq] at split
        rw [split.1]
        exact .inr ⟨values head (by simp), before, stop, after, split.2,
          fun g member => values g (by simp [member]), same⟩
  · rintro (same | ⟨value, before, stop, after, rfl, values, same⟩)
    · exact ⟨[], b, bs, rfl, by simp, same⟩
    · refine ⟨b :: before, stop, after, rfl, ?_, same⟩
      intro g member
      rcases List.mem_cons.mp member with rfl | later
      · exact value
      · exact values g later

/-- A list without values ends as the first element without one does. -/
theorem each_eq_stop_iff (f : β → Outcome ε α) (bs : List β) (o : Outcome ε Empty) :
    each f bs = o.map Empty.elim ↔ FirstStop f bs (o.map Empty.elim) := by
  induction bs with
  | nil => rcases o with ⟨⟨⟩⟩ | e | _ <;> simp [each, map, firstStop_nil]
  | cons b bs ih =>
      rw [firstStop_cons, ← ih, each]
      cases first : f b with
      | ok a => rcases o with ⟨⟨⟩⟩ | e | _ <;> cases each f bs <;> simp [bind, map]
      | failed e' => rcases o with ⟨⟨⟩⟩ | e | _ <;> simp [bind, map]
      | crashed => rcases o with ⟨⟨⟩⟩ | e | _ <;> simp [bind, map]

theorem each_eq_failed_iff (f : β → Outcome ε α) (bs : List β) (e : ε) :
    each f bs = .failed e ↔ FirstStop f bs (.failed e) :=
  each_eq_stop_iff f bs (.failed e)

theorem each_eq_crashed_iff (f : β → Outcome ε α) (bs : List β) :
    each f bs = .crashed ↔ FirstStop f bs .crashed :=
  each_eq_stop_iff f bs .crashed

end Outcome

/-! ### Reports of files -/

namespace FileReport

/-- The report of a file by its answer, unless that stops the batch. -/
def ofAnswer (file : Path) : Outcome Failure FileOutput → Outcome Failure FileReport
  | .ok output => .ok ⟨file, .ok output⟩
  | .failed f => if f.isFatal then .failed f else .ok ⟨file, .error f⟩
  | .crashed => .crashed

theorem ofAnswer_eq_ok_iff (file : Path) (o : Outcome Failure FileOutput) (r : FileReport) :
    ofAnswer file o = .ok r ↔
      o.stops = false ∧ r.file = file ∧ Outcome.ofExcept r.output = o := by
  obtain ⟨name, output⟩ := r
  cases o with
  | ok value => cases output <;> simp [ofAnswer, Outcome.stops, Outcome.ofExcept, eq_comm]
  | failed f =>
      cases h : f.isFatal <;> cases output <;>
        simp [ofAnswer, Outcome.stops, Outcome.ofExcept, h, eq_comm]
  | crashed => simp [ofAnswer, Outcome.stops]

theorem ofAnswer_eq_failed_iff (file : Path) (o : Outcome Failure FileOutput) (f : Failure) :
    ofAnswer file o = .failed f ↔ o = .failed f ∧ f.isFatal = true := by
  cases o with
  | ok value => simp [ofAnswer]
  | failed g =>
      constructor
      · intro h
        cases fatal : g.isFatal with
        | true =>
            rw [ofAnswer, if_pos fatal] at h
            cases h
            exact ⟨rfl, fatal⟩
        | false => simp [ofAnswer, fatal] at h
      · rintro ⟨same, fatal⟩
        cases same
        rw [ofAnswer, if_pos fatal]
  | crashed => simp [ofAnswer]

theorem ofAnswer_eq_crashed_iff (file : Path) (o : Outcome Failure FileOutput) :
    ofAnswer file o = .crashed ↔ o = .crashed := by
  cases o with
  | ok value => simp [ofAnswer]
  | failed f => cases h : f.isFatal <;> simp [ofAnswer, h]
  | crashed => simp [ofAnswer]

theorem exists_ofAnswer_iff (file : Path) (o : Outcome Failure FileOutput) :
    (∃ r, ofAnswer file o = .ok r) ↔ o.stops = false := by
  cases o with
  | ok value => simp [ofAnswer, Outcome.stops]
  | failed f => cases h : f.isFatal <;> simp [ofAnswer, Outcome.stops, h]
  | crashed => simp [ofAnswer, Outcome.stops]

end FileReport

/-! ### Stretches -/

namespace Stretch

theorem outcome_of_goesOn {s : Stretch} (h : s.goesOn = true) : s.outcome = .ok ⟨s.reports⟩ := by
  simp only [goesOn, Bool.and_eq_true, Option.isNone_iff_eq_none, Bool.not_eq_true'] at h
  simp [outcome, h.1, h.2]

/-- A stretch that does not go on has no report. -/
theorem outcome_bind_of_not_goesOn {s : Stretch} (h : s.goesOn = false)
    (next : Report → Outcome Failure Report) : s.outcome.bind next = s.outcome := by
  cases crash : s.crashed with
  | true => simp [outcome, crash, Outcome.bind]
  | false =>
      cases fatal : s.fatal with
      | none => simp [goesOn, crash, fatal] at h
      | some f => simp [outcome, crash, fatal, Outcome.bind]

theorem outcome_append {s : Stretch} (h : s.goesOn = true) (r : Stretch) :
    (s.append r).outcome =
      s.outcome.bind fun report => r.outcome.map fun later => ⟨report.files ++ later.files⟩ := by
  rw [outcome_of_goesOn h]
  simp only [goesOn, Bool.and_eq_true, Option.isNone_iff_eq_none, Bool.not_eq_true'] at h
  cases crash : r.crashed with
  | true => simp [outcome, append, crash, Outcome.map, Outcome.bind]
  | false =>
      cases fatal : r.fatal <;>
        simp [outcome, append, h.1, h.2, crash, fatal, Outcome.map, Outcome.bind]

theorem outcome_append_of_crashed {s : Stretch} (h : s.crashed = true) (r : Stretch) :
    (s.append r).outcome = s.outcome := by
  simp [outcome, append, h]

theorem outcome_ofFile (file : Path) (o : Outcome Failure FileOutput) :
    (ofFile file o).outcome = (FileReport.ofAnswer file o).map fun r => ⟨[r]⟩ := by
  cases o with
  | ok output => rfl
  | failed f =>
      cases h : f.isFatal <;> simp [ofFile, FileReport.ofAnswer, outcome, h, Outcome.map]
  | crashed => rfl

end Stretch

/-! ### Batches -/

namespace Build

variable {E : Engine σ α} {t : FileTree} {B₀ B : Build σ α}

/-- The report of all files of a list, each answered as on its own. -/
def reportAlone (E : Engine σ α) (t : FileTree) (B₀ : Build σ α) (files : List Path) :
    Outcome Failure Report :=
  (Outcome.each (fun file => FileReport.ofAnswer (t.absolute file)
    ((analysisAlone E t B₀ (t.absolute file)).map B₀.deliver)) files).map Report.mk

theorem reportAlone_append (E : Engine σ α) (t : FileTree) (B₀ : Build σ α)
    (files rest : List Path) :
    reportAlone E t B₀ (files ++ rest) = (reportAlone E t B₀ files).bind fun report =>
      (reportAlone E t B₀ rest).map fun later => ⟨report.files ++ later.files⟩ := by
  unfold reportAlone
  rw [Outcome.each_append]
  generalize Outcome.each _ files = first
  generalize Outcome.each _ rest = second
  cases first <;> cases second <;> rfl

theorem reportAlone_cons (file : Path) (files : List Path) :
    reportAlone E t B₀ (file :: files) = ((FileReport.ofAnswer (t.absolute file)
        ((analysisAlone E t B₀ (t.absolute file)).map B₀.deliver)).map fun r => Report.mk [r]).bind
      fun report => (reportAlone E t B₀ files).map fun later => ⟨report.files ++ later.files⟩ := by
  have whole := reportAlone_append E t B₀ [file] files
  have head : reportAlone E t B₀ [file] = (FileReport.ofAnswer (t.absolute file)
      ((analysisAlone E t B₀ (t.absolute file)).map B₀.deliver)).map fun r => Report.mk [r] := by
    rw [reportAlone, Outcome.each, Outcome.each]
    generalize FileReport.ofAnswer (t.absolute file)
      ((analysisAlone E t B₀ (t.absolute file)).map B₀.deliver) = first
    cases first <;> rfl
  rw [← head]
  exact whole

/-- A run reports its files as they come to on their own. -/
theorem compileRun_of_consistent (rooted : t.here.isAbsolute = true) (steady : E.Steady t)
    (h : Consistent E t B₀ B) (files : List Path) :
    (B.compileRun E t files).answer.outcome = reportAlone E t B₀ files ∧
      Consistent E t B₀ (B.compileRun E t files).state := by
  induction files generalizing B with
  | nil => exact ⟨rfl, h⟩
  | cons file files ih =>
      have compiled := compile_of_consistent rooted steady h file
      have rest := ih compiled.2
      have first := Stretch.outcome_ofFile (t.absolute file) (B.compile E t file).answer
      rw [reportAlone_cons, ← compiled.1, ← first]
      unfold compileRun
      dsimp only
      cases on : (Stretch.ofFile (t.absolute file) (B.compile E t file).answer).goesOn with
      | true =>
          rw [if_pos rfl]
          refine ⟨?_, rest.2⟩
          dsimp only
          rw [Stretch.outcome_append on, rest.1]
      | false =>
          rw [if_neg Bool.false_ne_true]
          dsimp only
          refine ⟨?_, compiled.2⟩
          rw [Stretch.outcome_bind_of_not_goesOn on]

/-- Cutting a list does not change the report. -/
theorem compileStretch_of_consistent (rooted : t.here.isAbsolute = true) (steady : E.Steady t)
    (h : Consistent E t B₀ B) (cuts : Nat) (files : List Path) (fuel : Nat) :
    (B.compileStretch E t cuts files fuel).answer.outcome = reportAlone E t B₀ files ∧
      Consistent E t B₀ (B.compileStretch E t cuts files fuel).state := by
  induction fuel generalizing B cuts files with
  | zero => exact compileRun_of_consistent rooted steady h files
  | succ fuel ih =>
      unfold compileStretch
      dsimp only
      split
      · exact compileRun_of_consistent rooted steady h files
      · have left := ih h (cuts - 1) (files.take (files.length / 2))
        have whole := reportAlone_append E t B₀ (files.take (files.length / 2))
          (files.drop (files.length / 2))
        rw [List.take_append_drop, ← left.1] at whole
        generalize B.compileStretch E t (cuts - 1) (files.take (files.length / 2)) fuel = half
          at left whole
        split
        · rename_i fatal
          have ends : half.answer.goesOn = false := by
            simp only [Stretch.goesOn, ← Option.not_isSome, fatal, Bool.not_true, Bool.false_and]
          rw [whole, Stretch.outcome_bind_of_not_goesOn ends]
          exact ⟨rfl, left.2⟩
        · rename_i calm
          have right := ih left.2 (if half.answer.crashed then salvageCuts else cuts - 1)
            (files.drop (files.length / 2))
          refine ⟨?_, right.2⟩
          dsimp only
          cases crash : half.answer.crashed with
          | true =>
              -- the right half is still compiled, but it does not show in the outcome
              have ends : half.answer.goesOn = false := by simp [Stretch.goesOn, crash]
              rw [Stretch.outcome_append_of_crashed crash, whole,
                Stretch.outcome_bind_of_not_goesOn ends]
          | false =>
              have on : half.answer.goesOn = true := by
                simpa [Stretch.goesOn, crash] using calm
              rw [crash] at right
              rw [Stretch.outcome_append on, whole, ← right.1]

theorem compileAll_of_consistent (rooted : t.here.isAbsolute = true) (steady : E.Steady t)
    (h : Consistent E t B₀ B) (files : List Path) :
    (B.compileAll E t files).answer = reportAlone E t B₀ files := by
  have whole := (compileStretch_of_consistent rooted steady h batchCuts files files.length).1
  unfold compileAll
  dsimp only
  rw [← whole]
  cases (B.compileStretch E t batchCuts files files.length).answer.outcome <;> rfl

/-- What a file comes to in a build that has done nothing before. -/
def alone (E : Engine σ α) (t : FileTree) (context : Path) (options : BuildOptions) (memory : σ)
    (file : Path) : Outcome Failure FileOutput :=
  ((start t context options memory).answer.compile E t file).answer

/-- Batch equals solo. A batch in a new build answers with the first fatal failure or crash among
the answers of its files, each in a new build of its own, or else with a report of all of them in
order. -/
theorem compileAll_eq_alone (E : Engine σ α) (t : FileTree) (rooted : t.here.isAbsolute = true)
    (steady : E.Steady t) (context : Path) (options : BuildOptions) (memory memory' : σ)
    (files : List Path) :
    let batch := ((start t context options memory).answer.compileAll E t files).answer
    let solo := alone E t context options memory'
    (∀ f, batch = .failed f ↔ ∃ before file after, files = before ++ file :: after ∧
        (∀ g ∈ before, (solo g).stops = false) ∧ solo file = .failed f ∧ f.isFatal = true) ∧
      (batch = .crashed ↔ ∃ before file after, files = before ++ file :: after ∧
        (∀ g ∈ before, (solo g).stops = false) ∧ solo file = .crashed) ∧
      (∀ report, batch = .ok report ↔ List.Forall₂ (fun (r : FileReport) file =>
        (solo file).stops = false ∧ r.file = t.absolute file ∧
          Outcome.ofExcept r.output = solo file) report.files files) ∧
      ((∀ file ∈ files, solo file ≠ .crashed) →
        ((∃ f, batch = .failed f) ↔
          ∃ file ∈ files, ∃ f, solo file = .failed f ∧ f.isFatal = true)) := by
  intro batch solo
  have fresh := consistent_start (E := E) (α := α) rooted context options memory memory'
  have each (file : Path) : ((analysisAlone E t (start t context options memory).answer
      (t.absolute file)).map (start t context options memory).answer.deliver) = solo file :=
    (compile_of_consistent rooted steady fresh file).1.symm
  have whole : batch = (Outcome.each
      (fun file => FileReport.ofAnswer (t.absolute file) (solo file)) files).map Report.mk := by
    have all := compileAll_of_consistent rooted steady
      (consistent_start (E := E) (α := α) rooted context options memory memory) files
    simp only [reportAlone, each] at all
    exact all
  have failed (f : Failure) : batch = .failed f ↔ ∃ before file after,
      files = before ++ file :: after ∧ (∀ g ∈ before, (solo g).stops = false) ∧
        solo file = .failed f ∧ f.isFatal = true := by
    have first := Outcome.each_eq_failed_iff
      (fun file => FileReport.ofAnswer (t.absolute file) (solo file)) files f
    simp only [Outcome.FirstStop, FileReport.exists_ofAnswer_iff,
      FileReport.ofAnswer_eq_failed_iff] at first
    rw [whole, ← first]
    cases Outcome.each _ files <;> simp [Outcome.map]
  have crashed : batch = .crashed ↔ ∃ before file after, files = before ++ file :: after ∧
      (∀ g ∈ before, (solo g).stops = false) ∧ solo file = .crashed := by
    have first := Outcome.each_eq_crashed_iff
      (fun file => FileReport.ofAnswer (t.absolute file) (solo file)) files
    simp only [Outcome.FirstStop, FileReport.exists_ofAnswer_iff,
      FileReport.ofAnswer_eq_crashed_iff] at first
    rw [whole, ← first]
    cases Outcome.each _ files <;> simp [Outcome.map]
  have reported (report : Report) : batch = .ok report ↔
      List.Forall₂ (fun (r : FileReport) file => (solo file).stops = false ∧
        r.file = t.absolute file ∧ Outcome.ofExcept r.output = solo file) report.files files := by
    have values := Outcome.each_eq_ok_iff
      (fun file => FileReport.ofAnswer (t.absolute file) (solo file)) files report.files
    simp only [FileReport.ofAnswer_eq_ok_iff] at values
    rw [whole, ← values]
    obtain ⟨reports⟩ := report
    cases Outcome.each _ files <;> simp [Outcome.map]
  refine ⟨failed, crashed, reported, fun calm => ⟨?_, ?_⟩⟩
  · rintro ⟨f, fails⟩
    obtain ⟨before, file, after, rfl, _, same, fatal⟩ := (failed f).mp fails
    exact ⟨file, by simp, f, same, fatal⟩
  · rintro ⟨file, member, f, same, fatal⟩
    cases answer : batch with
    | failed g => exact ⟨g, rfl⟩
    | crashed =>
        obtain ⟨before, other, after, rfl, _, crash⟩ := crashed.mp answer
        exact absurd crash (calm other (by simp))
    | ok report =>
        have entries := List.forall₂_and_left (p := fun g => (solo g).stops = false)
          (R := fun _ _ => True) files report.files
        have passes := (entries.mp (((reported report).mp answer).flip.imp
          fun _ _ entry => ⟨entry.1, trivial⟩)).1 file member
        rw [same, Outcome.stops, fatal] at passes
        exact absurd passes Bool.noConfusion

def copying : Engine Unit Unit where
  create _ _ _ _ := ((), .ok ())
  analyze _ _ _ source _ := ((), .ok ⟨source, []⟩)

/-- A source, and another one under a descriptor that is no JSON. -/
def twoSources : FileTree where
  entries := [(["a.ts"], .file "1".toUTF8.toList), (["p"], .directory),
    (["p", "b.ts"], .file []), (["p", "tsconfig.json"], .file [0x7b])]
  here := ⟨"/"⟩

/-- A file that stands in the list twice and one that is missing do not end the batch; the broken
descriptor does. -/
theorem compileAll_copying_twoSources :
    twoSources.here.isAbsolute = true ∧ copying.Steady twoSources ∧
      ((start twoSources ⟨"/"⟩ {} ()).answer.compileAll copying twoSources
        [⟨"a.ts"⟩, ⟨"missing.ts"⟩, ⟨"/p/../a.ts"⟩, ⟨"p/b.ts"⟩, ⟨"a.ts"⟩]).answer =
        .failed (.descriptor
          ⟨⟨"/p/tsconfig.json"⟩, .malformed (.malformed ⟨.endsInRecord, ⟨1, 1⟩⟩)⟩) := by
  have rooted : twoSources.here.isAbsolute = true := by decide
  have steady : copying.Steady twoSources := ⟨fun _ _ _ _ => rfl, fun _ _ _ _ _ => rfl⟩
  refine ⟨rooted, steady, ?_⟩
  apply ((compileAll_eq_alone copying twoSources rooted steady ⟨"/"⟩ {} () () _).1 _).mpr
  exact ⟨[⟨"a.ts"⟩, ⟨"missing.ts"⟩, ⟨"/p/../a.ts"⟩], ⟨"p/b.ts"⟩, [⟨"a.ts"⟩], rfl,
    by decide +kernel, by decide +kernel, rfl⟩

end Build

end RootedBuild
