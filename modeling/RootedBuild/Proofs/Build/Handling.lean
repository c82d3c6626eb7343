import Mathlib.Data.List.Forall2
import RootedBuild.Batch

/-!
Batches of whatever handles one file. How a list is cut, and where a batch stops, hangs only on how
the answers end that the files get. So two ways to handle a file that give related outputs, end in
the same way otherwise, and stay related in their states give related batches; and a batch keeps
what each of its files keeps. Events are left out, as they have no influence on any answer.
-/
namespace RootedBuild

/-! ### Answers in pairs -/

/-- Both end in the same way, and their values are related. -/
inductive Outcome.Like (Q : α → β → Prop) : Outcome ε α → Outcome ε β → Prop where
  | ok {a : α} {b : β} (values : Q a b) : Like Q (.ok a) (.ok b)
  | failed (e : ε) : Like Q (.failed e) (.failed e)
  | crashed : Like Q .crashed .crashed

theorem Outcome.like_refl {Q : α → α → Prop} (all : ∀ a, Q a a) (o : Outcome ε α) : o.Like Q o := by
  cases o with
  | ok a => exact .ok (all a)
  | failed e => exact .failed e
  | crashed => exact .crashed

theorem Outcome.Like.imp {Q R : α → β → Prop} {o : Outcome ε α} {p : Outcome ε β} (h : o.Like Q p)
    (weaken : ∀ a b, Q a b → R a b) : o.Like R p := by
  cases h with
  | ok values => exact .ok (weaken _ _ values)
  | failed e => exact .failed e
  | crashed => exact .crashed

theorem Outcome.Like.eq {Q : α → α → Prop} {o p : Outcome ε α} (h : o.Like Q p)
    (same : ∀ {a b}, Q a b → a = b) : o = p := by
  cases h with
  | ok values => rw [same values]
  | failed e => rfl
  | crashed => rfl

variable {Q : FileOutput → FileOutput → Prop}

/-- One file, with the same failure or with outputs that are related. -/
inductive FileReport.Like (Q : FileOutput → FileOutput → Prop) : FileReport → FileReport → Prop where
  | ok (file : Path) {o p : FileOutput} (outputs : Q o p) : Like Q ⟨file, .ok o⟩ ⟨file, .ok p⟩
  | error (file : Path) (f : Failure) : Like Q ⟨file, .error f⟩ ⟨file, .error f⟩

def Report.Like (Q : FileOutput → FileOutput → Prop) (r s : Report) : Prop :=
  List.Forall₂ (FileReport.Like Q) r.files s.files

theorem Report.Like.eq {r s : Report} (h : r.Like Eq s) : r = s := by
  have files : List.Forall₂ Eq r.files s.files := by
    refine List.Forall₂.imp ?_ h
    rintro _ _ (⟨file, rfl⟩ | ⟨file, f⟩) <;> rfl
  obtain ⟨list⟩ := r
  rw [List.forall₂_eq_eq_eq] at files
  exact congrArg Report.mk files

namespace Stretch

structure Like (Q : FileOutput → FileOutput → Prop) (s r : Stretch) : Prop where
  reports : List.Forall₂ (FileReport.Like Q) s.reports r.reports
  fatal : s.fatal = r.fatal
  crashed : s.crashed = r.crashed

theorem like_ofFile (file : Path) {o p : Outcome Failure FileOutput} (h : o.Like Q p) :
    (ofFile file o).Like Q (ofFile file p) := by
  cases h with
  | ok outputs => exact ⟨.cons (.ok file outputs) .nil, rfl, rfl⟩
  | failed f =>
      simp only [ofFile]
      split
      · exact ⟨.nil, rfl, rfl⟩
      · exact ⟨.cons (.error file f) .nil, rfl, rfl⟩
  | crashed => exact ⟨.nil, rfl, rfl⟩

variable {s r s' r' : Stretch}

theorem Like.goesOn (h : s.Like Q r) : s.goesOn = r.goesOn := by
  rw [Stretch.goesOn, Stretch.goesOn, h.fatal, h.crashed]

theorem Like.append (h : s.Like Q r) (h' : s'.Like Q r') : (s.append s').Like Q (r.append r') where
  reports := List.rel_append h.reports h'.reports
  fatal := by simp only [Stretch.append, h.fatal, h'.fatal]
  crashed := by simp only [Stretch.append, h.crashed, h'.crashed]

theorem Like.outcome (h : s.Like Q r) : s.outcome.Like (Report.Like Q) r.outcome := by
  unfold Stretch.outcome
  rw [h.fatal, h.crashed]
  split
  · exact .crashed
  · split
    · exact .failed _
    · exact .ok h.reports

theorem goesOn_append : (s.append r).goesOn = true ↔ s.goesOn = true ∧ r.goesOn = true := by
  cases fatal : s.fatal <;> cases crashed : s.crashed <;> simp [goesOn, append, fatal, crashed]

theorem outcome_eq_ok_iff {report : Report} :
    s.outcome = .ok report ↔ s.goesOn = true ∧ report.files = s.reports := by
  obtain ⟨files⟩ := report
  unfold outcome goesOn
  cases s.fatal <;> cases s.crashed <;> simp [eq_comm]

/-- A file behind which the run goes on has one entry. -/
theorem exists_reports_ofFile {file : Path} {o : Outcome Failure FileOutput}
    (h : (ofFile file o).goesOn = true) : ∃ entry, (ofFile file o).reports = [entry] := by
  cases o with
  | ok output => exact ⟨_, rfl⟩
  | failed f =>
      cases fatal : f.isFatal with
      | true => simp [ofFile, fatal, goesOn] at h
      | false => exact ⟨⟨file, .error f⟩, by simp [ofFile, fatal]⟩
  | crashed => cases h

end Stretch

/-! ### Handlers -/

/-- A way to handle one file, with a state of its own. -/
abbrev Handler (β : Type) := β → Path → Turn β (Outcome Failure FileOutput)

namespace Handler

variable {t : FileTree} {H : Handler β} {K : Handler γ} {R : β → γ → Prop}

def run (t : FileTree) (H : Handler β) (b : β) : List Path → β × Stretch
  | [] => (b, {})
  | file :: files =>
    let first := Stretch.ofFile (t.absolute file) (H b file).answer
    if first.goesOn then
      let rest := run t H (H b file).state files
      (rest.1, first.append rest.2)
    else ((H b file).state, first)

def stretch (t : FileTree) (H : Handler β) (b : β) (cuts : Nat) (files : List Path) :
    Nat → β × Stretch
  | 0 => run t H b files
  | fuel + 1 =>
    if cuts = 0 || files.length < 2 then run t H b files
    else
      let middle := files.length / 2
      let left := stretch t H b (cuts - 1) (files.take middle) fuel
      if left.2.fatal.isSome then left
      else
        let cuts := if left.2.crashed then Build.salvageCuts else cuts - 1
        let right := stretch t H left.1 cuts (files.drop middle) fuel
        (right.1, left.2.append right.2)

/-- Handles all files of a list. -/
def all (t : FileTree) (H : Handler β) (b : β) (files : List Path) :
    β × Outcome Failure Report :=
  let done := stretch t H b Build.batchCuts files files.length
  (done.1, done.2.outcome)

/-- On related states both give the same answers for the files `inside`, and leave related
states. -/
def Alike (inside : Path → Prop) (R : β → γ → Prop) (H : Handler β) (K : Handler γ) : Prop :=
  ∀ b c file, inside file → R b c →
    (H b file).answer = (K c file).answer ∧ R (H b file).state (K c file).state

/-- As `Alike`, but the outputs need only be related. -/
def Matched (inside : Path → Prop) (R : β → γ → Prop) (Q : FileOutput → FileOutput → Prop)
    (H : Handler β) (K : Handler γ) : Prop :=
  ∀ b c file, inside file → R b c →
    (H b file).answer.Like Q (K c file).answer ∧ R (H b file).state (K c file).state

variable {inside : Path → Prop} {Q : FileOutput → FileOutput → Prop}

theorem Matched.run (matched : Matched inside R Q H K) {b : β} {c : γ} (related : R b c)
    {files : List Path} (member : ∀ file ∈ files, inside file) :
    (Handler.run t H b files).2.Like Q (Handler.run t K c files).2 ∧
      R (Handler.run t H b files).1 (Handler.run t K c files).1 := by
  induction files generalizing b c with
  | nil => exact ⟨⟨.nil, rfl, rfl⟩, related⟩
  | cons file files ih =>
      obtain ⟨answers, after⟩ := matched b c file (member file (by simp)) related
      obtain ⟨rest, last⟩ := ih after fun f later => member f (List.mem_cons_of_mem file later)
      have first := Stretch.like_ofFile (t.absolute file) answers
      simp only [Handler.run, first.goesOn]
      split
      · exact ⟨first.append rest, last⟩
      · exact ⟨first, after⟩

theorem Matched.stretch (matched : Matched inside R Q H K) {b : β} {c : γ} (related : R b c)
    (cuts : Nat) {files : List Path} (member : ∀ file ∈ files, inside file) (fuel : Nat) :
    (Handler.stretch t H b cuts files fuel).2.Like Q (Handler.stretch t K c cuts files fuel).2 ∧
      R (Handler.stretch t H b cuts files fuel).1 (Handler.stretch t K c cuts files fuel).1 := by
  induction fuel generalizing b c cuts files with
  | zero => exact matched.run related member
  | succ fuel ih =>
      obtain ⟨left, after⟩ := ih related (cuts - 1)
        fun file (part : file ∈ files.take (files.length / 2)) =>
          member file (List.mem_of_mem_take part)
      simp only [Handler.stretch, left.fatal, left.crashed]
      split
      · exact matched.run related member
      · split
        · exact ⟨left, after⟩
        · obtain ⟨rest, last⟩ := ih after _
            fun file (part : file ∈ files.drop (files.length / 2)) =>
              member file (List.mem_of_mem_drop part)
          exact ⟨left.append rest, last⟩

theorem Matched.all (matched : Matched inside R Q H K) {b : β} {c : γ} (related : R b c)
    {files : List Path} (member : ∀ file ∈ files, inside file) :
    (Handler.all t H b files).2.Like (Report.Like Q) (Handler.all t K c files).2 ∧
      R (Handler.all t H b files).1 (Handler.all t K c files).1 := by
  obtain ⟨whole, after⟩ := matched.stretch (t := t) related Build.batchCuts member files.length
  exact ⟨whole.outcome, after⟩

theorem Alike.all (alike : Alike inside R H K) {b : β} {c : γ} (related : R b c)
    {files : List Path} (member : ∀ file ∈ files, inside file) :
    (Handler.all t H b files).2 = (Handler.all t K c files).2 ∧
      R (Handler.all t H b files).1 (Handler.all t K c files).1 := by
  have matched : Matched inside R Eq H K := by
    intro b c file here related
    obtain ⟨same, after⟩ := alike b c file here related
    exact ⟨same ▸ Outcome.like_refl (fun _ => rfl) _, after⟩
  obtain ⟨answers, after⟩ := matched.all (t := t) related member
  exact ⟨answers.eq fun same => same.eq, after⟩

/-- What each of its files keeps, a batch keeps. -/
theorem all_keeps_of_mem {P : β → Prop} {files : List Path}
    (keeps : ∀ b, ∀ file ∈ files, P b → P (H b file).state) {b : β} (holds : P b) :
    P (all t H b files).1 := by
  have alike : Alike (· ∈ files) (fun b c => b = c ∧ P b) H H := by
    rintro b _ file member ⟨rfl, holds⟩
    exact ⟨rfl, rfl, keeps b file member holds⟩
  exact (alike.all ⟨rfl, holds⟩ fun _ member => member).2.2

theorem all_keeps {P : β → Prop} (keeps : ∀ b file, P b → P (H b file).state) {b : β} (holds : P b)
    (files : List Path) : P (all t H b files).1 :=
  all_keeps_of_mem (fun b file _ => keeps b file) holds

/-! ### Entry by entry -/

/-- How entries come about: every file gives one with the property, and no later file changes
that. -/
structure Enters (t : FileTree) (P : β → Prop) (entered : β → Path → FileReport → Prop)
    (H : Handler β) : Prop where
  keeps : ∀ b file, P b → P (H b file).state
  stays : ∀ b file f entry, P b → entered b f entry → entered (H b file).state f entry
  enters : ∀ b file, P b → ∀ entry ∈ (Stretch.ofFile (t.absolute file) (H b file).answer).reports,
    entered (H b file).state file entry

variable {P : β → Prop} {entered : β → Path → FileReport → Prop}

/-- A run that goes on to its end has entered its files in order, behind those before it. -/
theorem Enters.run (each : Enters t P entered H) {b : β} (holds : P b) {before : List Path}
    {entries : List FileReport} (done : List.Forall₂ (entered b) before entries)
    (files : List Path) :
    P (Handler.run t H b files).1 ∧ ((Handler.run t H b files).2.goesOn = true →
      List.Forall₂ (entered (Handler.run t H b files).1) (before ++ files)
        (entries ++ (Handler.run t H b files).2.reports)) := by
  induction files generalizing b before entries with
  | nil => exact ⟨holds, fun _ => by simpa [Handler.run] using done⟩
  | cons file files ih =>
      have still := done.imp fun f entry => each.stays b file f entry holds
      rw [Handler.run]
      dsimp only
      split
      · rename_i on
        obtain ⟨entry, one⟩ := Stretch.exists_reports_ofFile on
        have new := each.enters b file holds entry (one ▸ List.mem_singleton.mpr rfl)
        obtain ⟨after, rest⟩ := ih (each.keeps b file holds) (List.rel_append still (.cons new .nil))
        refine ⟨after, fun whole => ?_⟩
        have rest := rest (Stretch.goesOn_append.mp whole).2
        simpa [Stretch.append, one] using rest
      · rename_i off
        exact ⟨each.keeps b file holds, fun on => absurd on off⟩

theorem Enters.stretch (each : Enters t P entered H) {b : β} (holds : P b) {before : List Path}
    {entries : List FileReport} (done : List.Forall₂ (entered b) before entries) (cuts : Nat)
    (files : List Path) (fuel : Nat) :
    P (Handler.stretch t H b cuts files fuel).1 ∧
      ((Handler.stretch t H b cuts files fuel).2.goesOn = true →
        List.Forall₂ (entered (Handler.stretch t H b cuts files fuel).1) (before ++ files)
          (entries ++ (Handler.stretch t H b cuts files fuel).2.reports)) := by
  induction fuel generalizing b before entries cuts files with
  | zero => exact each.run holds done files
  | succ fuel ih =>
      rw [Handler.stretch]
      split
      · exact each.run holds done files
      · let middle := files.length / 2
        obtain ⟨after, first⟩ := ih holds done (cuts - 1) (files.take middle)
        dsimp only
        split
        · rename_i fatal
          refine ⟨after, fun on => ?_⟩
          simp [Stretch.goesOn, Option.isNone_eq_false_iff.mpr fatal] at on
        · refine ⟨(ih after .nil _ (files.drop middle)).1, fun on => ?_⟩
          obtain ⟨left, right⟩ := Stretch.goesOn_append.mp on
          have whole := (ih after (first left) _ (files.drop middle)).2 right
          simpa [Stretch.append] using whole

theorem Enters.all (each : Enters t P entered H) {b : β} (holds : P b) {files : List Path}
    {report : Report} (answer : (Handler.all t H b files).2 = .ok report) :
    List.Forall₂ (entered (Handler.all t H b files).1) files report.files := by
  obtain ⟨on, same⟩ := Stretch.outcome_eq_ok_iff.mp answer
  have whole := (each.stretch holds .nil Build.batchCuts files files.length).2 on
  rw [same]
  exact whole

/-! ### One after the other -/

/-- Handles a file and writes it down behind those before it. -/
def noting (H : Handler β) : Handler (β × List Path) := fun s file =>
  let turn := H s.1 file
  ⟨(turn.state, s.2 ++ [file]), turn.events, turn.answer⟩

/-- The files of a list that are handled, in order. -/
def handled (t : FileTree) (H : Handler β) (b : β) (files : List Path) : List Path :=
  (all t (noting H) (b, []) files).1.2

/-- What a batch leaves is what its files leave when they are handled one after the other. -/
theorem foldl_handled (b : β) (files : List Path) :
    (handled t H b files).foldl (fun b file => (H b file).state) b = (all t H b files).1 := by
  have alike : Alike (fun _ => True) (fun s c => s.1 = c) (noting H) H := by
    rintro s _ file _ rfl
    exact ⟨rfl, rfl⟩
  have both := alike.all (t := t) (b := (b, [])) rfl fun file (_ : file ∈ files) => trivial
  rw [← both.2]
  refine all_keeps (P := fun (s : β × List Path) =>
    s.2.foldl (fun b file => (H b file).state) b = s.1) ?_ rfl files
  intro s file before
  change (s.2 ++ [file]).foldl _ b = (H s.1 file).state
  rw [List.foldl_concat, before]

end Handler

namespace Build

variable (E : Engine σ α) (t : FileTree) (B : Build σ α)

theorem compileRun_eq_run (files : List Path) :
    let turn := B.compileRun E t files
    (turn.state, turn.answer) = Handler.run t (compile E t) B files := by
  induction files generalizing B with
  | nil => rfl
  | cons file files ih =>
      have rest := ih (B.compile E t file).state
      dsimp only at rest ⊢
      rw [compileRun, Handler.run]
      dsimp only
      split
      · rw [← rest]
      · dsimp only

theorem compileStretch_eq_stretch (cuts : Nat) (files : List Path) (fuel : Nat) :
    let turn := B.compileStretch E t cuts files fuel
    (turn.state, turn.answer) = Handler.stretch t (compile E t) B cuts files fuel := by
  induction fuel generalizing B cuts files with
  | zero => exact compileRun_eq_run E t B files
  | succ fuel ih =>
      have left := ih B (cuts - 1) (files.take (files.length / 2))
      dsimp only at left ⊢
      rw [compileStretch, Handler.stretch]
      dsimp only
      split
      · exact compileRun_eq_run E t B files
      · rw [← left]
        dsimp only
        split
        · rfl
        · rw [← ih]

/-- A batch hangs on what compiling one file does, and on nothing else of the build. -/
theorem compileAll_eq_all (files : List Path) :
    let turn := B.compileAll E t files
    (turn.state, turn.answer) = Handler.all t (compile E t) B files := by
  have whole := compileStretch_eq_stretch E t B batchCuts files files.length
  dsimp only at whole ⊢
  rw [Handler.all, ← whole, compileAll]
  dsimp only
  cases (B.compileStretch E t batchCuts files files.length).answer.outcome <;> rfl

theorem compileAll_state (files : List Path) :
    (B.compileAll E t files).state = (Handler.all t (compile E t) B files).1 :=
  congrArg Prod.fst (compileAll_eq_all E t B files)

theorem compileAll_answer (files : List Path) :
    (B.compileAll E t files).answer = (Handler.all t (compile E t) B files).2 :=
  congrArg Prod.snd (compileAll_eq_all E t B files)

end Build

end RootedBuild
