import RootedBuild.Proofs.Build.Crashes
import RootedBuild.Proofs.Build.Moments
import RootedBuild.Proofs.Build.Spelling

/-!
What the counts of a build count. Taken one by one, a request that does not get past reading and
resolving changes no count, and every other one is either a hit, for which no analyzer is called, or
a miss, for which one is called once, whatever comes of the call. A result that was given is found
again by every later request with the same text, so that of all successful requests for a file that
keeps its text and stays live only the first can call an analyzer.
-/
namespace RootedBuild

/-! ### What a request costs -/

namespace Build

/-- The calls of analyzers, in order. -/
def analyzed (B : Build (σ × List Call) (α × Nat)) : List (Nat × Path × String) :=
  B.calls.filterMap Call.analysis?

/-- What the counts and the calls of analyzers come to in a step that ends no build, by whether it is
a request that gets past resolving. -/
inductive Costs (reached : Bool) (B C : Build (σ × List Call) (α × Nat)) : Prop where
  | nothing (idle : reached = false) (stats : C.cache.stats = B.cache.stats)
    (calls : C.analyzed = B.analyzed)
  | hit (past : reached = true) (hits : C.cache.stats.hits = B.cache.stats.hits + 1)
    (misses : C.cache.stats.misses = B.cache.stats.misses) (calls : C.analyzed = B.analyzed)
  | miss (past : reached = true) (hits : C.cache.stats.hits = B.cache.stats.hits)
    (misses : C.cache.stats.misses = B.cache.stats.misses + 1)
    (calls : C.analyzed.length = B.analyzed.length + 1)

/-- By how much the counts and the calls go up together, for so many requests that get past resolving
and so many of them without a call. -/
structure Advances (served reached : Nat) (B C : Build (σ × List Call) (α × Nat)) : Prop where
  hits : C.cache.stats.hits = B.cache.stats.hits + served
  requests : C.cache.stats.hits + C.cache.stats.misses =
    B.cache.stats.hits + B.cache.stats.misses + reached
  calls : C.cache.stats.misses + B.analyzed.length = B.cache.stats.misses + C.analyzed.length

variable {E : Engine σ α} {t : FileTree} {B C D : Build (σ × List Call) (α × Nat)}

theorem Advances.trans {m n m' n' : Nat} (h : Advances m n B C) (k : Advances m' n' C D) :
    Advances (m + m') (n + n') B D where
  hits := by rw [k.hits, h.hits, Nat.add_assoc]
  requests := by rw [k.requests, h.requests, Nat.add_assoc]
  calls := by
    have first := h.calls
    have second := k.calls
    omega

theorem analyzed_resolve (f : Path) : (B.resolve E.watched t f).state.analyzed = B.analyzed := by
  obtain ⟨more, calls, quiet⟩ := calls_resolve E t B f
  rw [analyzed, calls, List.filterMap_append, List.filterMap_eq_nil_iff.mpr quiet, List.append_nil]
  rfl

/-- A result that is not there is asked of an analyzer, and however that ends, it counts. -/
theorem costs_analyze (node : Node (α × Nat)) (file : Path) (source : String) :
    Costs true B (B.analyze E.watched t node file source).state := by
  let key : CacheKey := .of file node.id source
  let run := Bench.analyze E.watched t node file source
  cases has : (B.cache.get key).answer with
  | some stored =>
      have state := (ResultCache.fetch_of_get has run B.ownership.bench).1
      refine .hit rfl ?_ ?_ ?_
      · exact congrArg (fun s => s.1.stats.hits) state
      · exact congrArg (fun s => s.1.stats.misses) state
      · exact congrArg (fun s => s.2.memory.2.filterMap Call.analysis?) state
  | none =>
      have state := (ResultCache.fetch_of_get_eq_none has run B.ownership.bench).1
      refine .miss rfl ?_ ?_ ?_
      · exact congrArg (fun s => s.1.stats.hits) state
      · exact congrArg (fun s => s.1.stats.misses) state
      · have calls := congrArg (fun s => (s.2.memory.2.filterMap Call.analysis?).length) state
        refine calls.trans ?_
        change ((B.calls ++ [Call.analyze node.analyzer.2 file source]).filterMap _).length = _
        simp [analyzed, Call.analysis?]

theorem costs_compileSource (file : Path) (source : String) :
    Costs (B.resolve E.watched t (t.absolute file)).answer.isOk B
      (B.compileSource E.watched t file source).state := by
  have calls := analyzed_resolve (E := E) (t := t) (B := B) (t.absolute file)
  have stats : (B.resolve E.watched t (t.absolute file)).state.cache.stats = B.cache.stats := rfl
  rw [(compileSource_answer file source).2]
  generalize B.resolve E.watched t (t.absolute file) = found at calls stats
  cases answer : found.answer with
  | failed f => exact .nothing rfl stats calls
  | crashed => exact .nothing rfl stats calls
  | ok node =>
      have cost := costs_analyze (E := E) (t := t) (B := found.state) node (t.absolute file) source
      dsimp only
      cases cost with
      | nothing idle => cases idle
      | hit _ hits misses more =>
          rw [stats] at hits misses
          exact .hit rfl hits misses (more.trans calls)
      | miss _ hits misses more =>
          rw [stats] at hits misses
          exact .miss rfl hits misses (calls ▸ more)

end Build

/-! ### One moment -/

namespace Moment

/-- What a step other than a batch does. -/
inductive Does (E : Engine σ α) (m : Moment σ α) : Prop where
  | request (file : Path) (source : String) (asked : m.request? = some (file, source))
    (whole : m.session.tree.absolute file = file)
    (build : (m.next E).build =
      (m.session.build.compileSource E m.session.tree file source).state)
    (answer : m.answer E =
      .output (m.session.build.compileSource E m.session.tree file source).answer)
  | unread (asked : m.request? = none) (build : (m.next E).build = m.session.build)
  | resolve (file : Path) (asked : m.request? = none)
    (build : (m.next E).build = (m.session.build.resolve E m.session.tree file).state)
  | finish (live : List Path) (ends : m.step = .finish live) (asked : m.request? = none)
    (build : (m.next E).build = (m.session.build.finish m.session.tree live).state)

theorem does (E : Engine σ α) (m : Moment σ α) (rooted : m.session.tree.here.isAbsolute = true)
    (single : ∀ files, m.step ≠ .compileAll files) : m.Does E := by
  obtain ⟨S, step⟩ := m
  have twice := FileTree.absolute_absolute rooted
  cases step with
  | change entries => exact .unread rfl rfl
  | resolve file => exact .resolve file rfl rfl
  | compile file =>
      cases read : S.tree.readText (S.tree.absolute file) with
      | error f =>
          refine .unread (by simp [request?, read]) ?_
          simp only [next, Session.step, Build.compile_of_unreadable read]
      | ok source =>
          refine .request (S.tree.absolute file) source (by simp [request?, read]) (twice file) ?_ ?_
          · simp only [next, Session.step, Build.compile_of_readable read]
          · simp only [answer, Session.step, Build.compile_of_readable read]
  | compileSource file source =>
      refine .request (S.tree.absolute file) source rfl (twice file) ?_ ?_
      · simp only [next, Session.step, Build.compileSource_congr (twice file)]
      · simp only [answer, Session.step, Build.compileSource_congr (twice file)]
  | compileAll files => exact absurd rfl (single files)
  | finish live => exact .finish live rfl rfl rfl

variable {E : Engine σ α} {m : Moment (σ × List Call) (α × Nat)}

theorem costs (rooted : m.session.tree.here.isAbsolute = true)
    (single : ∀ files, m.step ≠ .compileAll files) (going : ∀ live, m.step ≠ .finish live) :
    Build.Costs (m.reaches E.watched) m.session.build (m.next E.watched).build := by
  cases m.does E.watched rooted single with
  | request file source asked whole build answer =>
      have cost := Build.costs_compileSource (E := E) (t := m.session.tree) (B := m.session.build)
        file source
      rw [build, reaches, asked]
      rwa [whole] at cost
  | unread asked build =>
      rw [build, reaches, asked]
      exact .nothing rfl rfl rfl
  | resolve file asked build =>
      rw [build, reaches, asked]
      exact .nothing rfl rfl (Build.analyzed_resolve file)
  | finish live ends => exact absurd ends (going live)

/-- The end of a build, where results may go, and no hit, miss or call comes. -/
theorem ended {live : List Path} (ends : m.step = .finish live) :
    m.reaches E.watched = false ∧
      (m.next E.watched).build.cache.stats.hits = m.session.build.cache.stats.hits ∧
      (m.next E.watched).build.cache.stats.misses = m.session.build.cache.stats.misses ∧
      (m.next E.watched).build.analyzed = m.session.build.analyzed := by
  obtain ⟨S, step⟩ := m
  cases ends
  exact ⟨rfl, rfl, rfl, rfl⟩

/-- A request that gets past resolving can only fail in its analysis. -/
theorem exists_analysis_of_failed (rooted : m.session.tree.here.isAbsolute = true)
    (single : ∀ files, m.step ≠ .compileAll files) {f : Failure}
    (failed : m.answer E.watched = .output (.failed f)) (past : m.reaches E.watched = true) :
    ∃ e, f = .analysis e := by
  cases m.does E.watched rooted single with
  | request file source asked whole build answer =>
      rw [reaches, asked] at past
      have said := Answer.output.inj (answer.symm.trans failed)
      rw [(Build.compileSource_answer file source).1, whole] at said
      dsimp only at past
      cases found : (m.session.build.resolve E.watched m.session.tree file).answer with
      | failed e => rw [found] at past; cases past
      | crashed => rw [found] at past; cases past
      | ok node =>
          rw [found] at said
          dsimp only at said
          cases run : ((m.session.build.resolve E.watched m.session.tree file).state.analyze
              E.watched m.session.tree node file source).answer with
          | ok stored => rw [run] at said; cases said
          | crashed => rw [run] at said; cases said
          | failed e =>
              rw [run] at said
              cases said
              exact ⟨e, rfl⟩
  | unread asked => rw [reaches, asked] at past; cases past
  | resolve _ asked => rw [reaches, asked] at past; cases past
  | finish _ _ asked => rw [reaches, asked] at past; cases past

/-- How often an analyzer is called in a step. -/
def analyses (E : Engine σ α) (m : Moment (σ × List Call) (α × Nat)) : Nat :=
  (m.next E.watched).build.analyzed.length - m.session.build.analyzed.length

/-- A request that gets past resolving and calls no analyzer. -/
def isServed (E : Engine σ α) (m : Moment (σ × List Call) (α × Nat)) : Bool :=
  m.reaches E.watched && m.analyses E == 0

/-- A request for the file that gets an output. -/
def succeeds (E : Engine σ α) (file : Path) (m : Moment σ α) : Bool :=
  m.gives E && (m.request?.any fun asked => asked.1 == file)

/-- The file is given no output for any other text than this one, and stays live. -/
def keeps (E : Engine σ α) (file : Path) (source : String) (m : Moment σ α) : Bool :=
  (!m.succeeds E file || m.request?.all fun asked => asked.2 == source) &&
    match m.step with
    | .finish live => live.any fun f => m.session.tree.absolute f == file
    | _ => true

theorem advances (rooted : m.session.tree.here.isAbsolute = true)
    (single : ∀ files, m.step ≠ .compileAll files) :
    Build.Advances (m.isServed E).toNat (m.reaches E.watched).toNat m.session.build
      (m.next E.watched).build := by
  unfold isServed analyses
  by_cases ends : ∃ live, m.step = .finish live
  · obtain ⟨live, ends⟩ := ends
    obtain ⟨idle, hits, misses, calls⟩ := ended (E := E) ends
    rw [idle]
    exact ⟨hits, by simp [hits, misses], by rw [misses, calls]⟩
  · rw [not_exists] at ends
    cases m.costs (E := E) rooted single ends with
    | nothing idle stats calls =>
        rw [idle]
        exact ⟨by simp [stats], by simp [stats], by rw [stats, calls]⟩
    | hit past hits misses calls =>
        rw [past, calls]
        exact ⟨by simp [hits], by simp [hits, misses]; omega, by rw [misses, calls]⟩
    | miss past hits misses calls =>
        rw [past, calls]
        exact ⟨by simp [hits], by simp [hits, misses]; omega, by rw [misses, calls]; omega⟩

theorem analyses_le_one (rooted : m.session.tree.here.isAbsolute = true)
    (single : ∀ files, m.step ≠ .compileAll files) : m.analyses E ≤ 1 := by
  have advances := m.advances (E := E) rooted single
  have hits := advances.hits
  have requests := advances.requests
  have calls := advances.calls
  have past := (m.reaches E.watched).toNat_le
  unfold analyses
  omega

/-! ### A text that stays as it is -/

theorem gives_iff {F : Engine τ β} {m : Moment τ β} :
    m.gives F = true ↔ ∃ output, m.answer F = .output (.ok output) := by
  unfold gives
  split
  · rename_i output answer
    simp [answer]
  · rename_i other
    simpa using other

theorem of_succeeds {F : Engine τ β} {m : Moment τ β} {file : Path}
    (h : m.succeeds F file = true) :
    ∃ text, m.request? = some (file, text) ∧ m.gives F = true := by
  rw [succeeds, Bool.and_eq_true, Option.any_eq_true] at h
  obtain ⟨gives, ⟨f, text⟩, asked, same⟩ := h
  exact ⟨text, eq_of_beq same ▸ asked, gives⟩

variable {file : Path} {source : String}

theorem eq_of_keeps {F : Engine τ β} {m : Moment τ β} (h : m.keeps F file source = true)
    {text : String} (asked : m.request? = some (file, text)) (gives : m.gives F = true) :
    text = source := by
  simpa [keeps, succeeds, asked, gives] using (Bool.and_eq_true_iff.mp h).1

theorem live_of_keeps {F : Engine τ β} {m : Moment τ β} (h : m.keeps F file source = true)
    {live : List Path} (ends : m.step = .finish live) :
    file ∈ live.map m.session.tree.absolute := by
  have stays := (Bool.and_eq_true_iff.mp h).2
  rw [ends] at stays
  simpa using stays

/-- A request that gets an output leaves its result to be found. -/
theorem knows_of_succeeds (rooted : m.session.tree.here.isAbsolute = true)
    (apart : m.session.build.RootsApart m.session.tree.here)
    (single : ∀ files, m.step ≠ .compileAll files) (keeps : m.keeps E.watched file source = true)
    (h : m.succeeds E.watched file = true) :
    ∃ stored, (m.next E.watched).build.Knows m.session.tree.here file source stored := by
  obtain ⟨text, wanted, gives⟩ := of_succeeds h
  cases eq_of_keeps keeps wanted gives
  obtain ⟨output, said⟩ := gives_iff.mp gives
  cases m.does E.watched rooted single with
  | request f text asked whole build answer =>
      cases asked.symm.trans wanted
      rw [answer] at said
      obtain ⟨stored, _, knows⟩ :=
        Build.knows_compileSource apart rooted file (Answer.output.inj said)
      rw [whole, ← build] at knows
      exact ⟨stored, knows⟩
  | unread asked => cases asked.symm.trans wanted
  | resolve _ asked => cases asked.symm.trans wanted
  | finish _ _ asked => cases asked.symm.trans wanted

/-- A result that can be found stays so, and no output for the file takes a call. -/
theorem knows_next (rooted : m.session.tree.here.isAbsolute = true)
    (apart : m.session.build.RootsApart m.session.tree.here) (canonical : file.Canonical)
    (single : ∀ files, m.step ≠ .compileAll files) (keeps : m.keeps E.watched file source = true)
    {stored : Stored} (knows : m.session.build.Knows m.session.tree.here file source stored) :
    (m.next E.watched).build.Knows m.session.tree.here file source stored ∧
      (m.succeeds E.watched file = true → m.analyses E = 0) := by
  have known := Build.Retains.refl apart knows
  have unasked (asked : m.request? = none) (h : m.succeeds E.watched file = true) :
      m.analyses E = 0 := by
    obtain ⟨text, wanted, _⟩ := of_succeeds h
    cases asked.symm.trans wanted
  cases m.does E.watched rooted single with
  | unread asked build =>
      rw [build]
      exact ⟨knows, unasked asked⟩
  | resolve f asked build =>
      rw [build]
      exact ⟨(known.resolve rooted f).knows, unasked asked⟩
  | finish live ends asked build =>
      rw [build]
      exact ⟨(known.finish (live_of_keeps keeps ends)).knows, unasked asked⟩
  | request f text asked whole build answer =>
      rw [build]
      by_cases same : f = file
      · subst same
        by_cases refused : ∀ output,
            (m.session.build.compileSource E.watched m.session.tree f text).answer ≠ .ok output
        · -- what gets no output takes no result away, whatever its text
          obtain ⟨node, member, settled, has⟩ := knows
          have grows := (apart.compileSource (E := E) rooted f text).2
          refine ⟨⟨node, grows.nodes node member, grows.settled f node.root settled,
            (Build.get_compileSource_of_refused refused _).trans has⟩, ?_⟩
          intro h
          obtain ⟨_, _, gives⟩ := of_succeeds h
          obtain ⟨output, said⟩ := gives_iff.mp gives
          rw [answer] at said
          exact absurd (Answer.output.inj said) (refused output)
        · simp only [not_forall, not_not] at refused
          obtain ⟨output, given⟩ := refused
          cases eq_of_keeps keeps asked (gives_iff.mpr ⟨output, by rw [answer, given]⟩)
          obtain ⟨_, calls, _, after⟩ := known.compileSource_known (E := E) rooted whole
          refine ⟨after.knows, fun _ => ?_⟩
          rw [analyses, build, Build.analyzed, calls]
          exact Nat.sub_self _
      · refine ⟨(known.compileSource_other rooted canonical (whole.symm ▸ same) text).knows, ?_⟩
        intro h
        obtain ⟨_, wanted, _⟩ := of_succeeds h
        cases asked.symm.trans wanted
        exact absurd rfl same

end Moment

/-! ### Histories -/

namespace Session

variable {E : Engine σ α} {S : Session (σ × List Call) (α × Nat)}

/-- Every moment of a history is a step of it, in a tree with the same directory to start from. -/
theorem of_mem_moments {F : Engine τ β} {S : Session τ β} {steps : List Step} {m : Moment τ β}
    (member : m ∈ S.moments F steps) : m.session.tree.here = S.tree.here ∧ m.step ∈ steps := by
  induction steps generalizing S with
  | nil => simp [moments] at member
  | cons step steps ih =>
      rcases List.mem_cons.mp member with rfl | later
      · exact ⟨rfl, List.mem_cons_self ..⟩
      · obtain ⟨home, inside⟩ := ih later
        exact ⟨home.trans (step_here S step), List.mem_cons_of_mem _ inside⟩

theorem run_advances (rooted : S.tree.here.isAbsolute = true) {steps : List Step}
    (single : Unbatched steps) :
    Build.Advances ((S.moments E.watched steps).countP (Moment.isServed E))
      ((S.moments E.watched steps).countP (Moment.reaches E.watched)) S.build
      (S.run E.watched steps).1.build := by
  induction steps generalizing S with
  | nil => exact ⟨rfl, rfl, rfl⟩
  | cons step steps ih =>
      have first := Moment.advances (E := E) (m := ⟨S, step⟩) rooted single.head
      have home := step_here (E := E.watched) S step
      have rest := ih (home ▸ rooted) single.tail
      have one (test : Moment (σ × List Call) (α × Nat) → Bool) (m : Moment _ _) (later) :
          (m :: later).countP test = (test m).toNat + later.countP test := by
        rw [List.countP_cons, Nat.add_comm]
        cases test m <;> rfl
      rw [moments, one, one]
      exact first.trans rest

/-- How often analyzers are called for the requests for a file that get an output. -/
def analysesFor (E : Engine σ α) (file : Path) : List (Moment (σ × List Call) (α × Nat)) → Nat
  | [] => 0
  | m :: later =>
    (if m.succeeds E.watched file then m.analyses E else 0) + analysesFor E file later

variable {file : Path} {source : String}

theorem analysesFor_of_knows (rooted : S.tree.here.isAbsolute = true)
    (apart : S.build.RootsApart S.tree.here) (canonical : file.Canonical) {steps : List Step}
    (single : Unbatched steps)
    (keep : ∀ m ∈ S.moments E.watched steps, m.keeps E.watched file source = true) {stored : Stored}
    (knows : S.build.Knows S.tree.here file source stored) :
    analysesFor E file (S.moments E.watched steps) = 0 := by
  induction steps generalizing S with
  | nil => rfl
  | cons step steps ih =>
      have home := step_here (E := E.watched) S step
      obtain ⟨known, quiet⟩ := Moment.knows_next (m := ⟨S, step⟩) rooted apart canonical single.head
        (keep _ (List.mem_cons_self ..)) knows
      have after := (step_rootsApart (E := E) rooted rfl apart step).2.1
      rw [moments, analysesFor, ih (home ▸ rooted) (home ▸ after) single.tail
        (fun m member => keep m (List.mem_cons_of_mem _ member)) (home ▸ known), Nat.add_zero]
      split
      · exact quiet ‹_›
      · rfl

/-- The first of them that gets an output leaves its result to all later ones. -/
theorem analysesFor_le_one (rooted : S.tree.here.isAbsolute = true)
    (apart : S.build.RootsApart S.tree.here) (canonical : file.Canonical) {steps : List Step}
    (single : Unbatched steps)
    (keep : ∀ m ∈ S.moments E.watched steps, m.keeps E.watched file source = true) :
    analysesFor E file (S.moments E.watched steps) ≤ 1 := by
  induction steps generalizing S with
  | nil => exact Nat.zero_le 1
  | cons step steps ih =>
      have home := step_here (E := E.watched) S step
      have keepLater := fun m member => keep m (List.mem_cons_of_mem _ member)
      have after := (step_rootsApart (E := E) rooted rfl apart step).2.1
      rw [moments, analysesFor]
      split
      · rename_i succeeds
        obtain ⟨stored, knows⟩ := Moment.knows_of_succeeds (m := ⟨S, step⟩) rooted apart single.head
          (keep _ (List.mem_cons_self ..)) succeeds
        rw [analysesFor_of_knows (home ▸ rooted) (home ▸ after) canonical single.tail keepLater
          (home ▸ knows)]
        exact Moment.analyses_le_one (m := ⟨S, step⟩) rooted single.head
      · rw [Nat.zero_add]
        exact ih (home ▸ rooted) (home ▸ after) single.tail keepLater

/-- Hits and misses together are the requests that get past reading and resolving, and misses are
the calls of analyzers. As long as a file stays live and has one text, at most one of its requests
that succeed calls an analyzer. -/
theorem run_counts_requests (E : Engine σ α) (t : FileTree) (rooted : t.here.isAbsolute = true)
    (context : Path) (options : BuildOptions) (memory : σ) (steps : List Step) :
    let watched : Session (σ × List Call) (α × Nat) := start t context options (memory, [])
    let last := (watched.run E.watched steps).1
    let stats := last.build.cache.stats
    let singles := watched.singly E.watched steps
    let moments := watched.moments E.watched singles
    (start t context options memory).run E steps = (last.map Prod.fst Prod.fst,
        (watched.run E.watched steps).2.map (Answer.map Prod.fst)) ∧
      (watched.run E.watched singles).1 = last ∧ Unbatched singles ∧
      stats.hits + stats.misses = moments.countP (Moment.reaches E.watched) ∧
      stats.misses = last.build.analyzed.length ∧
      stats.hits = moments.countP (Moment.isServed E) ∧
      (∀ m ∈ moments, (∀ live, m.step ≠ .finish live) → (m.reaches E.watched = false ∨
        ∃ f, m.answer E.watched = .output (.failed f) ∧ ∀ e, f ≠ .analysis e) →
          (m.next E.watched).build.cache.stats = m.session.build.cache.stats) ∧
      (∀ m ∈ moments, ∀ live, m.step = .finish live →
        (m.next E.watched).build.cache.stats.hits = m.session.build.cache.stats.hits ∧
          (m.next E.watched).build.cache.stats.misses = m.session.build.cache.stats.misses) ∧
      ∀ before middle after file source, singles = before ++ middle ++ after →
        let part := (watched.run E.watched before).1.moments E.watched middle
        (∀ m ∈ part, m.keeps E.watched (t.absolute file) source = true) →
          analysesFor E (t.absolute file) part ≤ 1 := by
  intro watched last stats singles moments
  have single : Unbatched singles := unbatched_singly watched steps
  have whole : (watched.run E.watched singles).1 = last := run_singly watched steps
  have advances := run_advances (E := E) (S := watched) rooted single
  rw [whole] at advances
  have start : watched.build.cache.stats = {} ∧ watched.build.analyzed = [] := ⟨rfl, rfl⟩
  refine ⟨run_map E.covers_watched watched steps, whole, single, ?_, ?_, ?_, ?_, ?_, ?_⟩
  · have requests := advances.requests
    rw [start.1] at requests
    simpa using requests
  · have calls := advances.calls
    rw [start.1, start.2] at calls
    simpa using calls
  · have hits := advances.hits
    rw [start.1] at hits
    simpa using hits
  · intro m member going fails
    obtain ⟨home, inside⟩ := of_mem_moments member
    have here : m.session.tree.here.isAbsolute = true := home ▸ rooted
    have alone : ∀ files, m.step ≠ .compileAll files :=
      fun files same => single files (same ▸ inside)
    have idle : m.reaches E.watched = false := by
      rcases fails with idle | ⟨f, failed, other⟩
      · exact idle
      · by_contra past
        obtain ⟨e, same⟩ :=
          Moment.exists_analysis_of_failed here alone failed ((Bool.not_eq_false _).mp past)
        exact other e same
    cases m.costs (E := E) here alone going with
    | nothing _ stats => exact stats
    | hit past => cases idle.symm.trans past
    | miss past => cases idle.symm.trans past
  · intro m member live ends
    have ended := Moment.ended (E := E) ends
    exact ⟨ended.2.1, ended.2.2.1⟩
  · intro before middle after file source split part keep
    have clean : watched.build.RootsApart t.here :=
      Isolated.start rooted (t.absolute context) options.settings
    have apart := (run_rootsApart (E := E) rooted rfl clean before).1
    have home : (watched.run E.watched before).1.tree.here = t.here := run_here watched before
    have inner : Unbatched middle := by
      intro files member
      exact single files (split ▸ by simp [member])
    rw [← home] at apart
    exact analysesFor_le_one (home.symm ▸ rooted) apart (FileTree.canonical_absolute rooted file)
      inner keep

/-- A file that is compiled, compiled again in a batch with one that is not there, kept at the end
of a build, and compiled once more. -/
theorem run_counts_requests_twoSources :
    let steps : List Step := [.compile ⟨"a.ts"⟩, .compileAll [⟨"a.ts"⟩, ⟨"c.ts"⟩],
      .finish [⟨"/a.ts"⟩], .compileSource ⟨"p/../a.ts"⟩ "1"]
    let watched : Session (Unit × List Call) (Unit × Nat) :=
      start Build.twoSources ⟨"/"⟩ {} ((), [])
    let last := (watched.run Build.copying.watched steps).1
    let moments := watched.moments Build.copying.watched
      (watched.singly Build.copying.watched steps)
    Build.twoSources.here.isAbsolute = true ∧
      moments.countP (Moment.reaches Build.copying.watched) = 3 ∧
      last.build.cache.stats.hits = 2 ∧ last.build.analyzed.length = 1 ∧
      analysesFor Build.copying ⟨"/a.ts"⟩ moments ≤ 1 := by
  have rooted : Build.twoSources.here.isAbsolute = true := by decide
  have whole : Build.twoSources.absolute ⟨"a.ts"⟩ = ⟨"/a.ts"⟩ := by decide +kernel
  have counts := run_counts_requests Build.copying Build.twoSources rooted ⟨"/"⟩ {} ()
    [.compile ⟨"a.ts"⟩, .compileAll [⟨"a.ts"⟩, ⟨"c.ts"⟩], .finish [⟨"/a.ts"⟩],
      .compileSource ⟨"p/../a.ts"⟩ "1"]
  -- with the abbreviations written out the two agree as texts, and nothing is evaluated to see it
  dsimp only at counts ⊢
  obtain ⟨_, _, _, _, misses, hits, _, _, once⟩ := counts
  have part := once [] _ [] ⟨"a.ts"⟩ "1" (List.append_nil _).symm
  rw [whole] at part
  exact ⟨rooted, by decide +kernel, hits.trans (by decide +kernel),
    misses.symm.trans (by decide +kernel), part (by decide +kernel)⟩

end Session

end RootedBuild
