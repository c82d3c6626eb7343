import RootedBuild.Proofs.Build.Batch
import RootedBuild.Proofs.Build.Handling
import RootedBuild.Proofs.Build.Watched
import RootedBuild.Proofs.Ownership.Resolving

/-!
Who owns a file, over the life of a build. Every question for an owner is written down with the tree
and the build as they are when it is asked, also those inside a batch. From the first question on a
file keeps its root, from the first success on a root keeps its node, and before that every question
starts from the tree as it is by then. An engine may do what it likes.
-/
namespace RootedBuild

/-- A question for the owner of a file, with the tree and the build at that moment. -/
structure LookUp (σ α : Type) where
  tree : FileTree
  build : Build σ α
  file : Path

namespace LookUp

def root (l : LookUp σ α) : Root := (l.build.ownership.locator.rootOf l.tree l.file).answer

def answer (E : Engine σ α) (l : LookUp σ α) : Outcome Failure (Node α) :=
  (l.build.resolve E l.tree l.file).answer

def arena (l : LookUp σ α) : List (Node α) := l.build.ownership.nodes.arena

/-- The node of the file's root as it is made on the tree of the moment, or why there is none. -/
def madeAfresh (E : Engine σ α) (settings : Settings) (l : LookUp σ α) : Outcome Failure (Node α) :=
  (Ownership.makeContents E l.tree settings l.root l.build.ownership.bench).answer.map
    (l.root.nodeOf l.arena.length)

end LookUp

namespace Build

/-- The look-up made when a file is compiled; a file that cannot be read is not looked up. -/
def asked (t : FileTree) (B : Build σ α) (file : Path) : List (LookUp σ α) :=
  match t.readText (t.absolute file) with
  | .error _ => []
  | .ok _ => [⟨t, B, file⟩]

/-- Compiles a file and writes its look-up down, behind those of the files before it. -/
def compileNoting (E : Engine σ α) (t : FileTree) : Handler (Build σ α × List (LookUp σ α)) :=
  fun s file =>
    let turn := s.1.compile E t file
    ⟨(turn.state, s.2 ++ s.1.asked t file), turn.events, turn.answer⟩

end Build

namespace Session

/-- The look-ups made in a step, in order. -/
def lookUps (E : Engine σ α) (S : Session σ α) : Step → List (LookUp σ α)
  | .change _ | .finish _ => []
  | .resolve file => [⟨S.tree, S.build, file⟩]
  | .compile file => S.build.asked S.tree file
  | .compileSource file _ => [⟨S.tree, S.build, file⟩]
  | .compileAll files =>
    (Handler.all S.tree (Build.compileNoting E S.tree) (S.build, []) files).1.2

def lookUpsOf (E : Engine σ α) (S : Session σ α) : List Step → List (LookUp σ α)
  | [] => []
  | step :: steps => S.lookUps E step ++ (S.step E step).1.lookUpsOf E steps

end Session

/-! ### The invariant -/

/-- What earlier look-ups have left in a build. -/
structure Lasting (E : Engine σ α) (settings : Settings) (here : Path) (log : List (LookUp σ α))
    (B : Build σ α) : Prop where
  orderly : B.ownership.Orderly
  settings : B.ownership.locator.settings = settings
  settled : ∀ l ∈ log, B.ownership.locator.Settled here l.file l.root
  grown : ∀ l ∈ log, l.arena <+: B.ownership.nodes.arena
  held : ∀ l ∈ log, ∀ node, l.answer E = .ok node →
    node ∈ B.ownership.nodes.arena ∧ node.root = l.root
  made : ∀ node ∈ B.ownership.nodes.arena, ∃ l ∈ log, l.answer E = .ok node

/-- Look-ups in the order they were made, each in a build with all that the earlier ones left. -/
structure Chronicle (E : Engine σ α) (settings : Settings) (here : Path) (log : List (LookUp σ α))
    (B : Build σ α) : Prop where
  last : Lasting E settings here log B
  each : ∀ before l after, log = before ++ l :: after →
    l.tree.here = here ∧ Lasting E settings here before l.build

variable {E : Engine σ α} {settings : Settings} {here : Path} {t : FileTree}
  {log : List (LookUp σ α)} {B C : Build σ α}

theorem Build.resolve_absolute (rooted : t.here.isAbsolute = true) (file : Path) :
    B.resolve E t (t.absolute file) = B.resolve E t file := by
  unfold Build.resolve
  rw [FileTree.absolute_absolute rooted]

theorem Build.compileSource_absolute (rooted : t.here.isAbsolute = true) (file : Path)
    (source : String) : B.compileSource E t (t.absolute file) source =
      B.compileSource E t file source := by
  unfold Build.compileSource
  rw [FileTree.absolute_absolute rooted]

namespace Lasting

theorem start (rooted : t.here.isAbsolute = true) (context : Path) (options : BuildOptions)
    (memory : σ) : Lasting E options.settings t.here []
      (Build.start t context options memory : Told (Build σ α)).answer where
  orderly := Ownership.orderly_new rooted (t.absolute context) options.settings memory
  settings := rfl
  settled := by simp
  grown := by simp
  held := by simp
  made := by simp [Build.start, Ownership.new, NodeTable.empty]

/-- Nothing else of a build than its locator and its nodes is looked at. -/
theorem congr (h : Lasting E settings here log B)
    (locator : C.ownership.locator = B.ownership.locator)
    (nodes : C.ownership.nodes = B.ownership.nodes) : Lasting E settings here log C where
  orderly := h.orderly.congr locator nodes
  settings := locator ▸ h.settings
  settled := locator ▸ h.settled
  grown := nodes ▸ h.grown
  held := nodes ▸ h.held
  made := nodes ▸ h.made

/-- What can come of a look-up in the build. -/
theorem resolved (h : Lasting E settings t.here log B) (rooted : t.here.isAbsolute = true)
    (file : Path) : Ownership.Resolved E t B.ownership (t.absolute file)
      (B.ownership.resolve E t (t.absolute file)) :=
  h.orderly.resolved rooted (t.absolute file)

/-- One more look-up. -/
theorem resolve (h : Lasting E settings t.here log B) (rooted : t.here.isAbsolute = true)
    (file : Path) :
    Lasting E settings t.here (log ++ [⟨t, B, file⟩]) (B.resolve E t file).state := by
  have resolved := h.resolved rooted file
  have root := Locator.rootOf_absolute (L := B.ownership.locator) rooted file
  have grows : B.ownership.nodes.arena <+: (B.resolve E t file).state.ownership.nodes.arena :=
    resolved.grows
  refine ⟨h.orderly.resolve rooted (t.absolute file), ?_, ?_, ?_, ?_, ?_⟩
  · exact (Locator.settings_rootOf (t.absolute file)).trans h.settings
  · intro l member
    change ((B.ownership.locator.rootOf t (t.absolute file)).state).Settled t.here l.file l.root
    rcases List.mem_append.mp member with old | new
    · exact (h.settled l old).rootOf rooted (t.absolute file)
    · cases List.mem_singleton.mp new
      rw [root]
      exact Locator.settled_rootOf rooted file
  · intro l member
    rcases List.mem_append.mp member with old | new
    · exact (h.grown l old).trans grows
    · cases List.mem_singleton.mp new
      exact grows
  · intro l member node given
    rcases List.mem_append.mp member with old | new
    · obtain ⟨inside, owns⟩ := h.held l old node given
      exact ⟨grows.subset inside, owns⟩
    · cases List.mem_singleton.mp new
      have owner := resolved.owner given
      rw [root] at owner
      exact owner
  · intro node inside
    have before (old : node ∈ B.ownership.nodes.arena) :
        ∃ l ∈ log ++ [⟨t, B, file⟩], l.answer E = .ok node := by
      obtain ⟨l, member, given⟩ := h.made node old
      exact ⟨l, List.mem_append_left _ member, given⟩
    cases resolved with
    | known other member owns answer arena => exact before (arena ▸ inside)
    | unmade bare refused answer arena => exact before (arena ▸ inside)
    | made parts bare said answer arena =>
        rcases List.mem_append.mp (arena ▸ inside) with old | new
        · exact before old
        · cases List.mem_singleton.mp new
          exact ⟨_, List.mem_append_right _ (List.mem_singleton.mpr rfl), answer⟩

/-- A look-up gives the node that an earlier one of the same root gave, or else, if none has given
one, what making it gives now. -/
theorem answer_cases {l : LookUp σ α} (h : Lasting E settings l.tree.here log l.build)
    (rooted : l.tree.here.isAbsolute = true) :
    (∃ e ∈ log, ∃ node, e.root = l.root ∧ e.answer E = .ok node ∧ l.answer E = .ok node) ∨
      (∀ e ∈ log, e.root = l.root → ∀ node, e.answer E ≠ .ok node) ∧
        l.answer E = l.madeAfresh E settings := by
  have resolved := h.resolved rooted l.file
  have root := Locator.rootOf_absolute (L := l.build.ownership.locator) rooted l.file
  by_cases bare : ∀ node ∈ l.arena, node.root ≠ l.root
  · refine .inr ⟨?_, ?_⟩
    · intro e member same node given
      obtain ⟨inside, owns⟩ := h.held e member node given
      exact bare node inside (owns.trans same)
    · have answer := resolved.answer_of_bare (root.symm ▸ bare)
      rw [Ownership.contentsNow, root, h.settings] at answer
      exact answer
  · refine .inl ?_
    simp only [not_forall, not_not] at bare
    obtain ⟨node, inside, owns⟩ := bare
    obtain ⟨e, member, given⟩ := h.made node inside
    refine ⟨e, member, node, (h.held e member node given).2.symm.trans owns, given, ?_⟩
    cases resolved with
    | known other inside' owns' answer =>
        have same : other.root.same node.root = true := by
          rw [owns', owns, root]
          exact Root.same_self _
        rw [← h.orderly.sound.eq_of_same inside' inside same]
        exact answer
    | made parts bare =>
        rw [root] at bare
        exact absurd owns (bare node inside)
    | unmade bare =>
        rw [root] at bare
        exact absurd owns (bare node inside)

end Lasting

/-! ### A step -/

namespace Chronicle

theorem congr (h : Chronicle E settings here log B)
    (locator : C.ownership.locator = B.ownership.locator)
    (nodes : C.ownership.nodes = B.ownership.nodes) : Chronicle E settings here log C :=
  ⟨h.last.congr locator nodes, h.each⟩

theorem resolve (h : Chronicle E settings t.here log B) (rooted : t.here.isAbsolute = true)
    (file : Path) :
    Chronicle E settings t.here (log ++ [⟨t, B, file⟩]) (B.resolve E t file).state := by
  refine ⟨h.last.resolve rooted file, ?_⟩
  intro before l after split
  rcases List.eq_nil_or_concat' after with rfl | ⟨middle, x, rfl⟩
  · obtain ⟨rfl, last⟩ := List.append_inj' split rfl
    cases last
    exact ⟨rfl, h.last⟩
  · rw [← List.cons_append, ← List.append_assoc] at split
    exact h.each before l middle (List.append_inj' split rfl).1

theorem compileSource (h : Chronicle E settings t.here log B) (rooted : t.here.isAbsolute = true)
    (file : Path) (source : String) :
    Chronicle E settings t.here (log ++ [⟨t, B, file⟩])
      (B.compileSource E t file source).state := by
  have after := h.resolve rooted file
  rw [(Build.compileSource_answer file source).2, Build.resolve_absolute rooted]
  cases (B.resolve E t file).answer with
  | failed f => exact after
  | crashed => exact after
  | ok node => exact after.congr rfl rfl

theorem compile (h : Chronicle E settings t.here log B) (rooted : t.here.isAbsolute = true)
    (file : Path) :
    Chronicle E settings t.here (log ++ B.asked t file) (B.compile E t file).state := by
  unfold Build.asked
  cases read : t.readText (t.absolute file) with
  | error f =>
      rw [Build.compile_of_unreadable read, List.append_nil]
      exact h
  | ok source =>
      rw [Build.compile_of_readable read, Build.compileSource_absolute rooted]
      exact h.compileSource rooted file source

/-- Writing the look-ups of a batch down does not change the batch. -/
theorem state_compileNoting (t : FileTree) (B : Build σ α) (files : List Path) :
    (Handler.all t (Build.compileNoting E t) (B, []) files).1.1 =
      (B.compileAll E t files).state := by
  have alike : Handler.Alike (fun _ => True) (fun s C => s.1 = C) (Build.compileNoting E t)
      (Build.compile E t) := by
    rintro s _ file _ rfl
    dsimp only [Build.compileNoting]
    exact ⟨rfl, rfl⟩
  have both := alike.all (t := t) (b := (B, [])) rfl fun file (_ : file ∈ files) => trivial
  rw [Build.compileAll_state]
  exact both.2

theorem compileAll (h : Chronicle E settings t.here log B) (rooted : t.here.isAbsolute = true)
    (files : List Path) :
    Chronicle E settings t.here
      (log ++ (Handler.all t (Build.compileNoting E t) (B, []) files).1.2)
      (B.compileAll E t files).state := by
  rw [← state_compileNoting]
  have keeps (s : Build σ α × List (LookUp σ α)) (file : Path)
      (before : Chronicle E settings t.here (log ++ s.2) s.1) :
      Chronicle E settings t.here (log ++ (Build.compileNoting E t s file).state.2)
        (Build.compileNoting E t s file).state.1 := by
    dsimp only [Build.compileNoting]
    rw [← List.append_assoc]
    exact before.compile rooted file
  have empty : Chronicle E settings t.here (log ++ []) B := by rwa [List.append_nil]
  exact Handler.all_keeps (P := fun s => Chronicle E settings t.here (log ++ s.2) s.1) keeps
    (b := (B, [])) empty files

end Chronicle

/-! ### A history -/

namespace Session

variable {S : Session σ α}

theorem chronicle_step (rooted : here.isAbsolute = true) (same : S.tree.here = here)
    (h : Chronicle E settings here log S.build) (step : Step) :
    (S.step E step).1.tree.here = here ∧
      Chronicle E settings here (log ++ S.lookUps E step) (S.step E step).1.build := by
  subst same
  dsimp only [Session.step, lookUps]
  cases step with
  | change entries => exact ⟨rfl, (List.append_nil log).symm ▸ h⟩
  | resolve file => exact ⟨rfl, h.resolve rooted file⟩
  | compile file => exact ⟨rfl, h.compile rooted file⟩
  | compileSource file source => exact ⟨rfl, h.compileSource rooted file source⟩
  | compileAll files => exact ⟨rfl, h.compileAll rooted files⟩
  | finish live => exact ⟨rfl, (List.append_nil log).symm ▸ h.congr rfl rfl⟩

theorem chronicle_run (rooted : here.isAbsolute = true) (same : S.tree.here = here)
    (h : Chronicle E settings here log S.build) (steps : List Step) :
    Chronicle E settings here (log ++ S.lookUpsOf E steps) (S.run E steps).1.build := by
  induction steps generalizing S log with
  | nil =>
      rw [lookUpsOf, List.append_nil]
      exact h
  | cons step steps ih =>
      obtain ⟨stays, after⟩ := chronicle_step rooted same h step
      rw [lookUpsOf, ← List.append_assoc]
      exact ih stays after

theorem chronicle_start (rooted : t.here.isAbsolute = true) (context : Path)
    (options : BuildOptions) (memory : σ) (steps : List Step) :
    Chronicle E options.settings t.here ((start t context options memory).lookUpsOf E steps)
      ((start t context options memory).run E steps).1.build := by
  have fresh : Chronicle E options.settings t.here []
      (start t context options memory : Session σ α).build :=
    ⟨Lasting.start rooted context options memory, by simp⟩
  exact chronicle_run rooted rfl fresh steps

/-- The answer to a step that resolves a file is that of a look-up. -/
theorem lookUpsOf_resolve {steps : List Step} {i : Nat} {file : Path}
    {found : Outcome Failure (Node α)} (asked : steps[i]? = some (.resolve file))
    (answered : (S.run E steps).2[i]? = some (.node found)) :
    ∃ l ∈ S.lookUpsOf E steps, l.file = file ∧ l.answer E = found := by
  induction steps generalizing S i with
  | nil => cases asked
  | cons step steps ih =>
      cases i with
      | zero =>
          cases Option.some.inj asked
          cases Option.some.inj answered
          exact ⟨⟨S.tree, S.build, file⟩, List.mem_append_left _ (List.mem_singleton.mpr rfl),
            rfl, rfl⟩
      | succ i =>
          obtain ⟨l, member, rest⟩ := ih asked answered
          exact ⟨l, List.mem_append_right _ member, rest⟩

/-- Ownership is fixed. However the tree changes, a file keeps its root and, from the first look-up
that succeeds, its node; until then each makes the node anew, from the tree as it is by then. -/
theorem run_fixes_ownership (E : Engine σ α) (t : FileTree) (rooted : t.here.isAbsolute = true)
    (context : Path) (options : BuildOptions) (memory : σ) (steps : List Step) :
    let fresh : Session σ α := start t context options memory
    let last := (fresh.run E steps).1.build.ownership
    let log := fresh.lookUpsOf E steps
    (∀ l ∈ log, ∀ t' : FileTree, t'.here = t.here →
      (last.locator.rootOf t' l.file).answer = l.root) ∧
    (∀ l ∈ log, ∀ node, l.answer E = .ok node →
      node.root = l.root ∧ last.nodes.node? node.id = some node) ∧
    (∀ l ∈ log, ∀ m ∈ log, ∀ node other, t.absolute l.file = t.absolute m.file →
      l.answer E = .ok node → m.answer E = .ok other → node = other) ∧
    (∀ before l after, log = before ++ l :: after →
      (∀ e ∈ before, e.arena <+: l.arena ∧
        (t.absolute e.file = t.absolute l.file → e.root = l.root)) ∧
      l.arena <+: last.nodes.arena ∧
      ((∃ e ∈ before, ∃ node,
          e.root = l.root ∧ e.answer E = .ok node ∧ l.answer E = .ok node) ∨
        (∀ e ∈ before, e.root = l.root → ∀ node, e.answer E ≠ .ok node) ∧
          l.answer E = l.madeAfresh E options.settings)) ∧
    ∀ (i : Nat) file found, steps[i]? = some (.resolve file) →
      (fresh.run E steps).2[i]? = some (.node found) →
        ∃ l ∈ log, l.file = file ∧ l.answer E = found := by
  intro fresh last log
  have chronicle := chronicle_start (E := E) rooted context options memory steps
  -- files with one absolute path have one root, whenever they were looked up
  have rootOf_congr (L : Locator) {t' : FileTree} (same : t'.here = t.here) {f g : Path}
      (whole : t.absolute f = t.absolute g) : L.rootOf t' f = L.rootOf t' g := by
    unfold Locator.rootOf FileTree.absolute
    rw [same]
    unfold FileTree.absolute at whole
    rw [whole]
  have settled : ∀ l ∈ log, ∀ t' : FileTree, t'.here = t.here →
      (last.locator.rootOf t' l.file).answer = l.root := chronicle.last.settled
  refine ⟨settled, ?_, ?_, ?_, fun i file found => lookUpsOf_resolve⟩
  · intro l member node given
    obtain ⟨inside, owns⟩ := chronicle.last.held l member node given
    exact ⟨owns, chronicle.last.orderly.sound.getElem?_id inside⟩
  · intro l inL m inM node other whole given givenOther
    obtain ⟨inside, owns⟩ := chronicle.last.held l inL node given
    obtain ⟨insideOther, ownsOther⟩ := chronicle.last.held m inM other givenOther
    have roots : l.root = m.root := by
      rw [← settled l inL t rfl, ← settled m inM t rfl, rootOf_congr last.locator rfl whole]
    apply chronicle.last.orderly.sound.eq_of_same inside insideOther
    rw [owns, ownsOther, roots]
    exact Root.same_self _
  · intro before l after split
    obtain ⟨here, lasting⟩ := chronicle.each before l after split
    have member : l ∈ log := split ▸ List.mem_append_right _ (List.mem_cons_self ..)
    refine ⟨?_, chronicle.last.grown l member, ?_⟩
    · intro e early
      refine ⟨lasting.grown e early, fun whole => ?_⟩
      rw [← lasting.settled e early l.tree here, rootOf_congr _ here whole]
      rfl
    · rw [← here] at lasting rooted
      exact lasting.answer_cases rooted

/-- The descriptor of a file is no JSON, then it is mended, and then it is gone. The first request
fails, the second makes the node on the mended tree, and the third still gets that node. -/
theorem run_fixes_ownership_mended :
    let mended : List (Place × Entry) := [(["p"], .directory), (["p", "b.ts"], .file []),
      (["p", "tsconfig.json"], .file "{}".toUTF8.toList)]
    let steps : List Step := [.resolve ⟨"p/b.ts"⟩, .change mended, .resolve ⟨"/p/../p/b.ts"⟩,
      .change [], .resolve ⟨"/p/b.ts"⟩]
    let fresh : Session Unit Unit := start Build.twoSources ⟨"/"⟩ {} ()
    Build.twoSources.here.isAbsolute = true ∧
      ∃ refused made kept, fresh.lookUpsOf Build.copying steps = [refused, made, kept] ∧
        kept.tree.entries = [] ∧ kept.root = .descriptor ⟨"/p/tsconfig.json"⟩ ∧
        (refused.answer Build.copying).isOk = false ∧ (made.answer Build.copying).isOk = true ∧
        made.answer Build.copying = made.madeAfresh Build.copying (BuildOptions.settings {}) ∧
        kept.answer Build.copying = made.answer Build.copying := by
  intro mended steps fresh
  have rooted : Build.twoSources.here.isAbsolute = true := by decide
  have each :=
    (run_fixes_ownership Build.copying Build.twoSources rooted ⟨"/"⟩ {} () steps).2.2.2.1
  let refused : LookUp Unit Unit := ⟨fresh.tree, fresh.build, ⟨"p/b.ts"⟩⟩
  let made : LookUp Unit Unit := ⟨{ fresh.tree with entries := mended },
    (refused.build.resolve Build.copying refused.tree refused.file).state, ⟨"/p/../p/b.ts"⟩⟩
  let kept : LookUp Unit Unit := ⟨{ fresh.tree with entries := [] },
    (made.build.resolve Build.copying made.tree made.file).state, ⟨"/p/b.ts"⟩⟩
  have log : fresh.lookUpsOf Build.copying steps = [refused, made, kept] := rfl
  have fails : (refused.answer Build.copying).isOk = false := by decide +kernel
  have succeeds : (made.answer Build.copying).isOk = true := by decide +kernel
  have roots : made.root = kept.root := by decide +kernel
  refine ⟨rooted, refused, made, kept, log, rfl, by decide +kernel, fails, succeeds, ?_, ?_⟩
  · obtain ⟨_, _, ⟨e, member, node, _, given, _⟩ | ⟨_, afresh⟩⟩ := each [refused] made [kept] log
    · rw [List.mem_singleton.mp member] at given
      rw [given] at fails
      cases fails
    · exact afresh
  · obtain ⟨_, _, ⟨e, member, node, _, given, same⟩ | ⟨unmade, _⟩⟩ :=
      each [refused, made] kept [] log
    · rcases List.mem_pair.mp member with rfl | rfl
      · rw [given] at fails
        cases fails
      · rw [given, same]
    · cases answer : made.answer Build.copying with
      | ok node => exact absurd answer (unmade made (by simp) roots node)
      | failed f => rw [answer] at succeeds; cases succeeds
      | crashed => rw [answer] at succeeds; cases succeeds

end Session

end RootedBuild
