import RootedBuild.Proofs.Build.Alone
import RootedBuild.Proofs.Build.Handling
import RootedBuild.Proofs.Ownership.Resolving

/-!
Batches that end early. Without crashes only a fatal failure ends a batch, and it does so wherever
the list is cut: if one file of the list always fails that way, so does the batch. Which of several
such files is reported is not told.
-/
namespace RootedBuild

theorem Failure.isFatal_iff (f : Failure) : f.isFatal = true ↔ ∃ g, f = .descriptor g := by
  cases f <;> simp [isFatal]

/-! ### Engines that never crash -/

structure Engine.Calm (E : Engine σ α) : Prop where
  create : ∀ t facts options m, (E.create t facts options m).2 ≠ .crashed
  analyze : ∀ t a file source m, (E.analyze t a file source m).2 ≠ .crashed

namespace Build

variable {E : Engine σ α} {t : FileTree} {B : Build σ α}

theorem makeContents_ne_crashed (calm : E.Calm) (settings : Settings) (root : Root) (b : Bench σ) :
    (Ownership.makeContents E t settings root b).answer ≠ .crashed := by
  unfold Ownership.makeContents
  dsimp only
  cases (Locator.optionsOf t settings root).answer with
  | error f => simp
  | ok options =>
      have create := calm.create t root.facts options b.memory
      simp only [Bench.create]
      cases created : (E.create t root.facts options b.memory).2 with
      | ok a => simp [Outcome.map, Outcome.mapFailure]
      | failed f => simp [Outcome.map, Outcome.mapFailure]
      | crashed => exact absurd created create

theorem resolve_ne_crashed (calm : E.Calm) (file : Path) :
    (B.resolve E t file).answer ≠ .crashed := by
  intro crash
  change (B.ownership.nodes.fetch _ _ _).answer = .crashed at crash
  cases NodeTable.fetched_fetch B.ownership.nodes
    (B.ownership.locator.rootOf t (t.absolute file)).answer
    (Ownership.makeContents E t B.ownership.locator.settings
      (B.ownership.locator.rootOf t (t.absolute file)).answer) B.ownership.bench with
  | found slot node has holds table rest answer => cases answer.symm.trans crash
  | made slot parts said bare table rest answer => cases answer.symm.trans crash
  | failed slot e said bare unmade table rest answer => cases answer.symm.trans crash
  | crashed slot said => exact makeContents_ne_crashed calm _ _ _ said

theorem analyze_ne_crashed (calm : E.Calm) (node : Node α) (file : Path) (source : String) :
    (B.analyze E t node file source).answer ≠ .crashed := by
  intro crash
  change (B.cache.fetch _ _ _).answer = .crashed at crash
  cases ResultCache.fetched_fetch B.cache (.of file node.id source)
    (Bench.analyze E t node file source) B.ownership.bench with
  | served slot e has holds fits slots rest answer => cases answer.symm.trans crash
  | stored slot new said holds slots rest answer => cases answer.symm.trans crash
  | kept slot said holds slots rest answer =>
      rw [crash] at answer
      exact calm.analyze t node.analyzer file source B.ownership.bench.memory answer.symm

theorem compile_ne_crashed (calm : E.Calm) (file : Path) : (B.compile E t file).answer ≠ .crashed := by
  cases read : t.readText (t.absolute file) with
  | error f =>
      rw [compile_of_unreadable read]
      simp
  | ok source =>
      have resolved := resolve_ne_crashed (t := t) (B := B) calm (t.absolute (t.absolute file))
      rw [compile_of_readable read, (compileSource_answer _ source).1]
      cases found : (B.resolve E t (t.absolute (t.absolute file))).answer with
      | failed f => simp
      | crashed => exact absurd found resolved
      | ok node =>
          have analyzed := analyze_ne_crashed (t := t) calm node (t.absolute (t.absolute file)) source
            (B := (B.resolve E t (t.absolute (t.absolute file))).state)
          dsimp only
          cases result : (Build.analyze E t _ node (t.absolute (t.absolute file)) source).answer with
          | ok stored => simp [Outcome.map, Outcome.mapFailure]
          | failed f => simp [Outcome.map, Outcome.mapFailure]
          | crashed => exact absurd result analyzed

/-- A file that can be read fails for good if the options of its root cannot be read. -/
theorem compile_of_error (h : B.ownership.Faithful t) (rooted : t.here.isAbsolute = true)
    {file : Path} {source : String} (text : t.readText (t.absolute file) = .ok source)
    {f : DescriptorFault} (read : (Locator.optionsOf t B.ownership.locator.settings
      (B.ownership.locator.rootOf t file).answer).answer = .error f) :
    (B.compile E t file).answer = .failed (.descriptor f) := by
  have resolved : (B.resolve E t (t.absolute (t.absolute file))).answer =
      .failed (.descriptor f) := by
    apply h.resolve_of_error rooted
    simpa only [Locator.rootOf_absolute rooted] using read
  rw [compile_of_readable text, (compileSource_answer _ source).1, resolved]

end Build

/-! ### A file that ends every batch -/

/-- Nothing has crashed, what ended the stretch is fatal, and it has ended if `must` holds. -/
structure Stretch.EndedBy (must : Prop) (s : Stretch) : Prop where
  calm : s.crashed = false
  fatal : ∀ f, s.fatal = some f → f.isFatal = true
  ended : must → s.fatal.isSome = true

namespace Stretch

variable {must must' : Prop} {s r : Stretch}

theorem EndedBy.imp (h : s.EndedBy must) (weaken : must' → must) : s.EndedBy must' :=
  ⟨h.calm, h.fatal, fun holds => h.ended (weaken holds)⟩

theorem EndedBy.append (h : s.EndedBy must) (k : r.EndedBy must') :
    (s.append r).EndedBy (must ∨ must') where
  calm := by simp [Stretch.append, h.calm, k.calm]
  fatal := by
    intro f
    rw [Stretch.append, Option.or_eq_some_iff]
    rintro (first | ⟨_, second⟩)
    · exact h.fatal f first
    · exact k.fatal f second
  ended := by
    rw [Stretch.append, Option.isSome_or, Bool.or_eq_true]
    exact Or.imp h.ended k.ended

theorem endedBy_ofFile (file : Path) {o : Outcome Failure FileOutput} (calm : o ≠ .crashed)
    (stops : must → ∃ f, o = .failed f ∧ f.isFatal = true) : (ofFile file o).EndedBy must := by
  cases o with
  | crashed => exact absurd rfl calm
  | ok output =>
      refine ⟨rfl, by simp [ofFile], fun holds => ?_⟩
      obtain ⟨f, other, _⟩ := stops holds
      cases other
  | failed f =>
      simp only [ofFile]
      split
      · rename_i fatal
        refine ⟨rfl, ?_, fun _ => rfl⟩
        rintro _ ⟨⟩
        exact fatal
      · rename_i harmless
        refine ⟨rfl, by simp, fun holds => ?_⟩
        obtain ⟨_, ⟨⟩, fatal⟩ := stops holds
        exact absurd fatal harmless

end Stretch

namespace Handler

variable {t : FileTree} {H : Handler β} {P : β → Prop} {bad : Path → Prop}

/-- While `P` holds nothing crashes, `bad` files fail fatally, and `P` goes on to hold. -/
structure Stops (P : β → Prop) (bad : Path → Prop) (H : Handler β) : Prop where
  keeps : ∀ b file, P b → P (H b file).state
  calm : ∀ b file, P b → (H b file).answer ≠ .crashed
  fails : ∀ b file, P b → bad file → ∃ f, (H b file).answer = .failed f ∧ f.isFatal = true

theorem Stops.run (stops : Stops P bad H) {b : β} (holds : P b) (files : List Path) :
    (Handler.run t H b files).2.EndedBy (∃ file ∈ files, bad file) ∧
      P (Handler.run t H b files).1 := by
  induction files generalizing b with
  | nil => exact ⟨⟨rfl, by simp [Handler.run], by simp⟩, holds⟩
  | cons file files ih =>
      have after := stops.keeps b file holds
      have first : (Stretch.ofFile (t.absolute file) (H b file).answer).EndedBy (bad file) :=
        Stretch.endedBy_ofFile _ (stops.calm b file holds) (stops.fails b file holds)
      obtain ⟨rest, last⟩ := ih after
      simp only [Handler.run]
      split
      · refine ⟨(first.append rest).imp ?_, last⟩
        simp
      · rename_i ends
        refine ⟨⟨first.calm, first.fatal, fun _ => ?_⟩, after⟩
        simpa [Stretch.goesOn, first.calm, Option.isSome_iff_ne_none] using ends

theorem Stops.stretch (stops : Stops P bad H) {b : β} (holds : P b) (cuts : Nat)
    (files : List Path) (fuel : Nat) :
    (Handler.stretch t H b cuts files fuel).2.EndedBy (∃ file ∈ files, bad file) ∧
      P (Handler.stretch t H b cuts files fuel).1 := by
  induction fuel generalizing b cuts files with
  | zero => exact stops.run holds files
  | succ fuel ih =>
      obtain ⟨left, after⟩ := ih holds (cuts - 1) (files.take (files.length / 2))
      simp only [Handler.stretch]
      split
      · exact stops.run holds files
      · split
        · rename_i ended
          exact ⟨⟨left.calm, left.fatal, fun _ => ended⟩, after⟩
        · obtain ⟨right, last⟩ := ih after _ (files.drop (files.length / 2))
          refine ⟨(left.append right).imp ?_, last⟩
          rintro ⟨file, member, fails⟩
          rw [← List.take_append_drop (files.length / 2) files, List.mem_append] at member
          exact member.imp (⟨file, ·, fails⟩) (⟨file, ·, fails⟩)

/-- A batch with a bad file ends with a fatal failure. -/
theorem Stops.all (stops : Stops P bad H) {b : β} (holds : P b) {files : List Path} {file : Path}
    (member : file ∈ files) (fails : bad file) :
    ∃ f, (Handler.all t H b files).2 = .failed f ∧ f.isFatal = true := by
  have whole := (stops.stretch (t := t) holds Build.batchCuts files files.length).1
  obtain ⟨f, first⟩ := Option.isSome_iff_exists.mp (whole.ended ⟨file, member, fails⟩)
  refine ⟨f, ?_, whole.fatal f first⟩
  simp only [Handler.all, Stretch.outcome, whole.calm, first]
  rfl

end Handler

end RootedBuild
