import RootedBuild.Proofs.Build.Moments
import RootedBuild.Proofs.Build.Traced

/-!
The end of a build. The results of live files stay, with all that they are found by, and those of
all other files go; which files are live is told by their absolute paths, however they are written.
Beyond that nothing changes. A live file is compiled again without its analyzer, and any other file
with one call of it, and the same text then comes to the same output if analyzers are functions. What
an analyzer does that goes by more than the file and its text is left open.
-/
namespace RootedBuild

namespace ResultCache

/-- What has been dropped need not be dropped again. -/
theorem keepOnly_keepOnly (C : ResultCache) (live : List Path) :
    (C.keepOnly live).1.keepOnly live = ((C.keepOnly live).1, 0) := by
  have again : (C.keepOnly live).1.slots.filter (fun s => live.any (·.same s.1)) =
      (C.keepOnly live).1.slots := by
    rw [List.filter_eq_self]
    intro place member
    exact (List.mem_filter.mp member).2
  have none : (C.keepOnly live).1.slots.length - (C.keepOnly live).1.slots.length = 0 :=
    Nat.sub_self _
  generalize C.keepOnly live = kept at again none
  simp only [keepOnly, again, none, Nat.add_zero]

/-- Among canonical paths a file is gone exactly if it is none of them. -/
theorem isGone_iff_notMem {live : List Path} {file : Path} (canonical : file.Canonical)
    (all : ∀ f ∈ live, f.Canonical) : isGone live file = true ↔ file ∉ live := by
  constructor
  · intro gone inside
    rw [isGone_eq_false_of_mem inside] at gone
    cases gone
  · intro outside
    rw [isGone, Bool.not_eq_true', List.any_eq_false]
    intro f inside same
    exact outside ((all f inside).eq_of_same canonical same ▸ inside)

end ResultCache

/-! ### One file, compiled again -/

namespace Build

variable {E : Engine σ α} {t : FileTree} {file : Path} {source : String}

/-- Where nothing is found the analyzer is run, and what it says is the answer. -/
theorem analyze_of_get_eq_none {B : Build σ α} {node : Node α}
    (bare : (B.cache.get (.of file node.id source)).answer = none) :
    (B.analyze E t node file source).state.ownership.bench =
        (Bench.analyze E t node file source B.ownership.bench).state ∧
      (B.analyze E t node file source).answer.map Stored.result =
        (Bench.analyze E t node file source B.ownership.bench).answer := by
  obtain ⟨state, answer⟩ := ResultCache.fetch_of_get_eq_none bare
    (Bench.analyze E t node file source) B.ownership.bench
  refine ⟨congrArg Prod.snd state, ?_⟩
  refine (congrArg (Outcome.map Stored.result) answer).trans ?_
  cases (Bench.analyze E t node file source B.ownership.bench).answer <;> rfl

/-- A text for which nothing is found is analyzed once. -/
theorem RootsApart.compileSource_unknown {B : Build (σ × List Call) (α × Nat)}
    (h : B.RootsApart t.here) {node : Node (α × Nat)} (member : node ∈ B.ownership.nodes.arena)
    (settled : B.ownership.locator.Settled t.here file node.root)
    (bare : (B.cache.get (.of file node.id source)).answer = none) {f : Path}
    (rooted : t.here.isAbsolute = true) (same : t.absolute f = file) :
    (B.compileSource E.watched t f source).state.calls =
        B.calls ++ [.analyze node.analyzer.2 file source] ∧
      ∃ m, (B.compileSource E.watched t f source).answer =
        ((E.analyze t node.analyzer.1 file source m).2.mapFailure .analysis).map B.deliver := by
  subst same
  obtain ⟨owner, bench⟩ := h.resolve_of_settled (E := E) member settled
    (FileTree.absolute_absolute rooted f)
  have cache : (B.resolve E.watched t (t.absolute f)).state.cache = B.cache := rfl
  rw [(compileSource_answer f source).1, (compileSource_answer f source).2, owner]
  generalize B.resolve E.watched t (t.absolute f) = found at bench cache
  rw [← cache] at bare
  obtain ⟨run, answer⟩ := analyze_of_get_eq_none (E := E.watched) (t := t) bare
  dsimp only
  rw [calls, run, answer, bench]
  exact ⟨rfl, B.ownership.bench.memory.1, rfl⟩

variable {B : Build ((σ × List Finding) × List Call) (α × Nat)}

/-- What is found of a file is known of it, for the text it was said of. -/
theorem Recorded.knows {here : Path} {e : CacheRecord} {node : Node (α × Nat)}
    (h : Recorded E here file B e node source) (holds : B.cache.record? file = some e) :
    B.Knows here file source e.stored := by
  refine ⟨node, h.member, h.settled, ?_⟩
  rw [ResultCache.get_eq_some_iff, CacheKey.of, holds, h.id, ← h.print]

theorem record?_finish (rooted : t.here.isAbsolute = true)
    (live : List Path) (file : Path) :
    (B.finish t live).state.cache.record? (t.absolute file) =
      if t.absolute file ∈ live.map t.absolute then B.cache.record? (t.absolute file) else none := by
  have all : ∀ f ∈ live.map t.absolute, f.Canonical := by
    intro f inside
    obtain ⟨g, _, rfl⟩ := List.mem_map.mp inside
    exact FileTree.canonical_absolute rooted g
  have gone := ResultCache.isGone_iff_notMem (FileTree.canonical_absolute rooted file) all
  change (B.cache.keepOnly (live.map t.absolute)).1.record? (t.absolute file) = _
  rw [ResultCache.record?_keepOnly]
  by_cases inside : t.absolute file ∈ live.map t.absolute
  · rw [if_pos inside, if_neg (fun is => gone.mp is inside)]
  · rw [if_neg inside, if_pos (gone.mpr inside)]

theorem get_finish (rooted : t.here.isAbsolute = true) (live : List Path) (file : Path)
    (node : Nat) (print : Fingerprint) :
    ((B.finish t live).state.cache.get ⟨t.absolute file, node, print⟩).answer =
      if t.absolute file ∈ live.map t.absolute then
        (B.cache.get ⟨t.absolute file, node, print⟩).answer
      else none := by
  rw [ResultCache.get_answer, ResultCache.get_answer, record?_finish rooted]
  split <;> rfl

/-- A second end with the same live files finds nothing to drop. -/
theorem finish_finish (live : List Path) :
    ((B.finish t live).state.finish t live).state = (B.finish t live).state ∧
      ((B.finish t live).state.finish t live).events =
        [.buildFinished (B.finish t live).state.cache.stats 0] := by
  have again := B.cache.keepOnly_keepOnly (live.map t.absolute)
  exact ⟨congrArg (fun kept => { (B.finish t live).state with cache := kept.1 }) again,
    congrArg (fun kept : ResultCache × Nat => [Event.buildFinished kept.1.stats kept.2]) again⟩

/-- A finding that is in the cache is found, without a call. -/
theorem Recorded.compileSource_known (apart : B.RootsApart t.here) {e : CacheRecord}
    {node : Node (α × Nat)} (h : Recorded E t.here file B e node source)
    (holds : B.cache.record? file = some e) {f : Path} (rooted : t.here.isAbsolute = true)
    (same : t.absolute f = file) :
    (B.compileSource E.heard.watched t f source).answer = .ok (B.deliver e.stored.result) ∧
      (B.compileSource E.heard.watched t f source).state.calls = B.calls := by
  have retains := Retains.refl apart (h.knows holds)
  obtain ⟨answer, calls, _⟩ := retains.compileSource_known (E := E.heard) rooted same
  exact ⟨answer, calls⟩

/-- A finding that is no longer in the cache is made again, by one call of the same analyzer. -/
theorem Recorded.compileSource_unknown (apart : B.RootsApart t.here) {e : CacheRecord}
    {node : Node (α × Nat)} (h : Recorded E t.here file B e node source)
    (gone : B.cache.record? file = none) {f : Path} (rooted : t.here.isAbsolute = true)
    (same : t.absolute f = file) :
    (B.compileSource E.heard.watched t f source).state.calls =
        B.calls ++ [.analyze node.analyzer.2 file source] ∧
      ∀ out, E.Functional out →
        (B.compileSource E.heard.watched t f source).answer = .ok (B.deliver e.stored.result) := by
  have bare : (B.cache.get (.of file node.id source)).answer = none := by
    rw [ResultCache.get_answer, CacheKey.of, gone]
    rfl
  obtain ⟨calls, m, answer⟩ :=
    apart.compileSource_unknown (E := E.heard) h.member h.settled bare rooted same
  refine ⟨calls, fun out functional => ?_⟩
  have said : (E.heard.analyze t node.analyzer.1 file source m).2 = .ok e.stored.result :=
    (functional t node.analyzer.1 file source m.1).trans (h.said out functional)
  rw [answer, said]
  rfl

end Build

/-! ### Histories -/

namespace Session

/-- The end of a build keeps the results of exactly the live files. Compiled again with the text of
its latest result, a file comes to the same output: with no call if live, and with one if not. -/
theorem run_finish_keeps_live (E : Engine σ α) (t : FileTree) (rooted : t.here.isAbsolute = true)
    (context : Path) (options : BuildOptions) (memory : σ) (steps : List Step)
    (live : List Path) :
    let fresh : Session ((σ × List Finding) × List Call) (α × Nat) :=
      start t context options ((memory, []), [])
    let last := (fresh.run E.heard.watched steps).1
    let ended := (last.step E.heard.watched (.finish live)).1
    let before := last.build
    let after := ended.build
    ((start t context options memory).run E (steps ++ [.finish live])).1 =
        ended.map (fun m => m.1.1) Prod.fst ∧
      (∀ file node print,
        (after.cache.get ⟨t.absolute file, node, print⟩).answer =
          if t.absolute file ∈ live.map t.absolute then
            (before.cache.get ⟨t.absolute file, node, print⟩).answer
          else none) ∧
      (∀ file node print stored,
        (before.cache.get ⟨t.absolute file, node, print⟩).answer = some stored →
        ∃ analyzer text,
          Finding.last? before.heard (t.absolute file) =
            some ⟨t.absolute file, text, stored.result⟩ ∧
          print = .ofText text ∧
          ∀ tree : FileTree, tree.here = t.here → ∀ f, tree.absolute f = t.absolute file →
            let first := before.compileSource E.heard.watched tree f text
            let again := after.compileSource E.heard.watched tree f text
            first.answer = .ok (before.deliver stored.result) ∧
            (t.absolute file ∈ live.map t.absolute →
              again.answer = first.answer ∧ again.state.calls = after.calls) ∧
            (t.absolute file ∉ live.map t.absolute →
              again.state.calls = after.calls ++ [.analyze analyzer (t.absolute file) text] ∧
              ∀ out, E.Functional out → again.answer = first.answer)) ∧
      (∀ tree : FileTree, tree.here = t.here → ∀ f text,
        tree.readText (tree.absolute f) = .ok text →
          after.compile E.heard.watched tree f = after.compileSource E.heard.watched tree f text) ∧
      after.ownership = before.ownership ∧ after.context = before.context ∧
      after.severity = before.severity ∧
      after.cache.stats.hits = before.cache.stats.hits ∧
      after.cache.stats.misses = before.cache.stats.misses ∧
      (after.finish ended.tree live).state = after ∧
      (after.finish ended.tree live).events = [.buildFinished after.cache.stats 0] := by
  intro fresh last ended before after
  have clean : fresh.build.Traced E t.here := start_traced rooted context options memory
  have there : fresh.tree.here = t.here := rfl
  obtain ⟨traced, _⟩ := run_traced there rooted clean steps
  have home : last.tree.here = t.here := run_here fresh steps
  have whole : t.absolute = last.tree.absolute := (FileTree.absolute_congr home).symm
  have homeRooted : last.tree.here.isAbsolute = true := home ▸ rooted
  have twice := Build.finish_finish (t := last.tree) (B := before) live
  refine ⟨?_, ?_, ?_, ?_, rfl, rfl, rfl, rfl, rfl, twice.1, twice.2⟩
  · have both := run_map E.covers_heard_watched fresh (steps ++ [.finish live])
    have state := run_append (E := E.heard.watched) fresh steps [.finish live]
    exact (congrArg Prod.fst both).trans (congrArg (map (fun m => m.1.1) Prod.fst) state)
  · rw [whole]
    exact Build.get_finish homeRooted live
  · intro file node print stored has
    have holds := ResultCache.get_eq_some_iff.mp has
    have kept (file : Path) : after.cache.record? (t.absolute file) =
        if t.absolute file ∈ live.map t.absolute then before.cache.record? (t.absolute file)
        else none := by
      rw [whole]
      exact Build.record?_finish homeRooted live file
    obtain ⟨owner, text, recorded⟩ :=
      traced.records _ _ (FileTree.canonical_absolute rooted file) holds
    have recordedAfter : Build.Recorded E t.here (t.absolute file) after _ owner text :=
      recorded.mono ⟨rfl, fun _ m => m, fun _ _ s => s⟩ rfl
    refine ⟨owner.analyzer.2, text, recorded.found, recorded.print, ?_⟩
    intro tree same f spelled first again
    rw [← same] at traced recorded recordedAfter rooted
    have apart : after.RootsApart tree.here := traced.apart
    obtain ⟨known, _⟩ := recorded.compileSource_known traced.apart holds rooted spelled
    refine ⟨known, fun alive => ?_, fun dead => ?_⟩
    · have stays := (kept file).trans (if_pos alive)
      obtain ⟨answer, calls⟩ :=
        recordedAfter.compileSource_known apart (stays.trans holds) rooted spelled
      exact ⟨answer.trans known.symm, calls⟩
    · have gone := (kept file).trans (if_neg dead)
      obtain ⟨calls, answer⟩ :=
        recordedAfter.compileSource_unknown apart gone rooted spelled
      exact ⟨calls, fun out functional => (answer out functional).trans known.symm⟩
  · intro tree same f text read
    have rooted : tree.here.isAbsolute = true := same ▸ rooted
    rw [Build.compile_of_readable read,
      Build.compileSource_congr (FileTree.absolute_absolute rooted f)]

/-- Of two files one stays, by another spelling. The other one is gone, and found again by a call,
also when there is nothing left of the tree. -/
theorem run_finish_keeps_live_nested :
    let steps : List Step := [.compile ⟨"a.ts"⟩, .compile ⟨"p/b.ts"⟩]
    let live : List Path := [⟨"p/.././a.ts"⟩]
    let fresh : Session ((Unit × List Finding) × List Call) (Unit × Nat) :=
      start nested ⟨"/"⟩ {} (((), []), [])
    let last := (fresh.run Build.copying.heard.watched steps).1
    let ended := (last.step Build.copying.heard.watched (.finish live)).1
    let again := ended.build.compileSource Build.copying.heard.watched ⟨[], nested.here⟩
      ⟨"/p/b.ts"⟩ "2"
    nested.here.isAbsolute = true ∧
      nested.absolute ⟨"p/b.ts"⟩ ∉ live.map nested.absolute ∧
      (last.build.cache.get ⟨nested.absolute ⟨"p/b.ts"⟩, 1, .ofText "2"⟩).answer =
        some ⟨1, ⟨"2", []⟩⟩ ∧
      (ended.build.cache.get ⟨nested.absolute ⟨"a.ts"⟩, 0, .ofText "1"⟩).answer =
        some ⟨0, ⟨"1", []⟩⟩ ∧
      ended.build.cache.size = 1 ∧
      (∃ analyzer, again.state.calls = ended.build.calls ++ [.analyze analyzer ⟨"/p/b.ts"⟩ "2"]) ∧
      again.answer = .ok ⟨"2", [], [], .succeeded⟩ := by
  intro steps live fresh last ended again
  have rooted : nested.here.isAbsolute = true := by decide
  have whole : nested.absolute ⟨"p/b.ts"⟩ = ⟨"/p/b.ts"⟩ := by decide +kernel
  have dead : nested.absolute ⟨"p/b.ts"⟩ ∉ live.map nested.absolute := by decide +kernel
  have has : (last.build.cache.get ⟨nested.absolute ⟨"p/b.ts"⟩, 1, .ofText "2"⟩).answer =
      some ⟨1, ⟨"2", []⟩⟩ := by decide +kernel
  have stays : (ended.build.cache.get ⟨nested.absolute ⟨"a.ts"⟩, 0, .ofText "1"⟩).answer =
      some ⟨0, ⟨"1", []⟩⟩ := by decide +kernel
  have heard : Finding.last? last.build.heard (nested.absolute ⟨"p/b.ts"⟩) =
      some ⟨⟨"/p/b.ts"⟩, "2", ⟨"2", []⟩⟩ := by decide +kernel
  have delivered : last.build.deliver ⟨"2", []⟩ = ⟨"2", [], [], .succeeded⟩ := by decide +kernel
  have functional : Build.copying.Functional fun _ _ source => .ok ⟨source, []⟩ :=
    fun _ _ _ _ _ => rfl
  have results := run_finish_keeps_live Build.copying nested rooted ⟨"/"⟩ {} () steps live
  -- with the abbreviations written out the two agree as texts, and nothing is evaluated to see it
  dsimp only [again, ended, last, fresh, steps, live] at results dead has stays heard delivered ⊢
  obtain ⟨analyzer, text, found, _, compiled⟩ :=
    results.2.2.1 ⟨"p/b.ts"⟩ 1 (.ofText "2") ⟨1, ⟨"2", []⟩⟩ has
  obtain ⟨_, rfl, _⟩ := Finding.mk.inj (Option.some.inj (heard.symm.trans found))
  obtain ⟨known, _, gone⟩ := compiled ⟨[], nested.here⟩ rfl ⟨"/p/b.ts"⟩ (by decide +kernel)
  obtain ⟨calls, equal⟩ := gone dead
  rw [whole] at calls
  exact ⟨rooted, dead, has, stays, by decide +kernel, ⟨analyzer, calls⟩,
    ((equal _ functional).trans known).trans (congrArg Outcome.ok delivered)⟩

end Session

end RootedBuild
