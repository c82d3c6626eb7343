import RootedBuild.Proofs.Build.Lifetime
import RootedBuild.Proofs.Path.Climb

/-!
When files under one descriptor share a node. A node belongs to the text its descriptor was found
under, which is the descriptor's name behind one of the directories above the file. That text shows
the directory, but the file that it means shows only the directory as far up as the name climbs. So
there is one node for each descriptor file as long as the name does not climb, and otherwise one for
each directory that the name climbs out of.
-/
namespace RootedBuild

/-- No two nodes have descriptors that are one file. -/
def OneForEachDescriptor (nodes : List (Node α)) : Prop :=
  ∀ n ∈ nodes, ∀ m ∈ nodes, ∀ p q, n.root = .descriptor p → m.root = .descriptor q →
    p.clean = q.clean → n = m

namespace Ownership

variable {R : Ownership σ α}

theorem Orderly.eq_iff (h : R.Orderly) {n m : Node α} (hn : n ∈ R.nodes.arena)
    (hm : m ∈ R.nodes.arena) : n = m ↔ n.root = m.root := by
  constructor
  · rintro rfl
    rfl
  · intro roots
    exact h.sound.eq_of_same hn hm (roots ▸ Root.same_self n.root)

/-- The directories that the descriptors of two nodes were found in tell if they are one node, and
if they are one file. -/
theorem Orderly.descriptors (h : R.Orderly) {n m : Node α} (hn : n ∈ R.nodes.arena)
    (hm : m ∈ R.nodes.arena) {p q : Path} (rootN : n.root = .descriptor p)
    (rootM : m.root = .descriptor q) :
    let name : Path := ⟨R.locator.settings.configName⟩
    ∃ d e : Path, d.Canonical ∧ e.Canonical ∧ p = d.join name ∧ q = e.join name ∧
      (n = m ↔ name.isAbsolute = true ∨ d = e) ∧
      (p.clean = q.clean ↔
        name.isAbsolute = true ∨ d.levelsUp name.climbs = e.levelsUp name.climbs) := by
  have locatedN := h.located n hn
  have locatedM := h.located m hm
  rw [rootN] at locatedN
  rw [rootM] at locatedM
  obtain ⟨d, hd, rfl⟩ := locatedN
  obtain ⟨e, he, rfl⟩ := locatedM
  refine ⟨d, e, hd, he, rfl, rfl, ?_, hd.clean_child_eq_iff he⟩
  rw [h.eq_iff hn hm, rootN, rootM, Root.descriptor.injEq]
  exact hd.child_eq_iff he

theorem Orderly.oneForEachDescriptor (h : R.Orderly)
    (flat : (⟨R.locator.settings.configName⟩ : Path).isAbsolute = true ∨
      (⟨R.locator.settings.configName⟩ : Path).climbs = 0) :
    OneForEachDescriptor R.nodes.arena := by
  intro n hn m hm p q rootN rootM oneFile
  obtain ⟨d, e, hd, he, rfl, rfl, _⟩ := h.descriptors hn hm rootN rootM
  have texts := (Path.forall_clean_child_iff R.locator.settings.configName).mpr flat d e hd he
  rw [h.eq_iff hn hm, rootN, rootM, Root.descriptor.injEq]
  exact texts oneFile

end Ownership

namespace Session

variable {E : Engine σ α}

/-- Two files have one node exactly if their descriptors were found in one directory, and one
descriptor file exactly if the directories are one as far up as the name climbs. So a name that does
not climb gives every descriptor file one node. -/
theorem run_shares_descriptors (E : Engine σ α) (t : FileTree) (rooted : t.here.isAbsolute = true)
    (context : Path) (options : BuildOptions) (memory : σ) (steps : List Step) :
    let fresh : Session σ α := start t context options memory
    let nodes := (fresh.run E steps).1.build.ownership.nodes.arena
    let name : Path := ⟨options.configName⟩
    (∀ (i : Nat) file node, steps[i]? = some (.resolve file) →
      (fresh.run E steps).2[i]? = some (.node (.ok node)) → node ∈ nodes) ∧
    (∀ n ∈ nodes, ∀ m ∈ nodes, ∀ p q, n.root = .descriptor p → m.root = .descriptor q →
      ∃ d e : Path, d.Canonical ∧ e.Canonical ∧ p = d.join name ∧ q = e.join name ∧
        (n = m ↔ name.isAbsolute = true ∨ d = e) ∧
        (p.clean = q.clean ↔
          name.isAbsolute = true ∨ d.levelsUp name.climbs = e.levelsUp name.climbs)) ∧
    (name.isAbsolute = true ∨ name.climbs = 0 → OneForEachDescriptor nodes) := by
  intro fresh nodes name
  have chronicle := chronicle_start (E := E) rooted context options memory steps
  have orderly := chronicle.last.orderly
  have called : (fresh.run E steps).1.build.ownership.locator.settings.configName =
      options.configName := congrArg Settings.configName chronicle.last.settings
  refine ⟨?_, ?_, ?_⟩
  · intro i file node asked answered
    obtain ⟨l, member, _, given⟩ := lookUpsOf_resolve asked answered
    exact (chronicle.last.held l member node given).1
  · intro n hn m hm p q rootN rootM
    have apart := orderly.descriptors hn hm rootN rootM
    rw [called] at apart
    exact apart
  · intro flat
    apply orderly.oneForEachDescriptor
    rw [called]
    exact flat

/-- A directory with a descriptor, and two directories in it with a source each. -/
def twoDirectories : FileTree where
  entries := [(["tsconfig.json"], .file "{}".toUTF8.toList), (["conf"], .directory),
    (["a"], .directory), (["a", "x.ts"], .file []), (["b"], .directory), (["b", "y.ts"], .file [])]
  here := ⟨"/"⟩

/-- The sources share the node of the descriptor above them, though its name takes a step up. -/
theorem run_shares_descriptors_flat :
    let name : Path := ⟨"conf/../tsconfig.json"⟩
    let last := ((start twoDirectories ⟨"/"⟩ { configName := name.text } () :
      Session Unit Unit).run Build.copying [.resolve ⟨"a/x.ts"⟩, .resolve ⟨"b/y.ts"⟩]).1
    twoDirectories.here.isAbsolute = true ∧ name.climbs = 0 ∧
      OneForEachDescriptor last.build.ownership.nodes.arena ∧
      last.build.ownership.nodes.arena.map Node.root =
        [.descriptor ⟨"/conf/../tsconfig.json"⟩] := by
  intro name last
  have rooted : twoDirectories.here.isAbsolute = true := by decide
  have flat : name.climbs = 0 := by decide +kernel
  have shared := run_shares_descriptors Build.copying twoDirectories rooted ⟨"/"⟩
    { configName := name.text } () [.resolve ⟨"a/x.ts"⟩, .resolve ⟨"b/y.ts"⟩]
  exact ⟨rooted, flat, shared.2.2 (.inr flat), by decide +kernel⟩

/-- Under a name that climbs, the two sources have a node each for their one descriptor. -/
theorem not_oneForEachDescriptor_climbing :
    ¬OneForEachDescriptor ((start twoDirectories ⟨"/"⟩ { configName := "../tsconfig.json" } () :
      Session Unit Unit).run Build.copying
        [.resolve ⟨"a/x.ts"⟩, .resolve ⟨"b/y.ts"⟩]).1.build.ownership.nodes.arena := by
  intro one
  let nodes := ((start twoDirectories ⟨"/"⟩ { configName := "../tsconfig.json" } () :
    Session Unit Unit).run Build.copying
      [.resolve ⟨"a/x.ts"⟩, .resolve ⟨"b/y.ts"⟩]).1.build.ownership.nodes.arena
  have roots : nodes.map Node.root =
      [.descriptor ⟨"/a/../tsconfig.json"⟩, .descriptor ⟨"/b/../tsconfig.json"⟩] := by
    decide +kernel
  obtain ⟨n, m, two⟩ : ∃ n m, nodes = [n, m] := List.length_eq_two.mp <| by
    rw [← List.length_map Node.root, roots]
    rfl
  rw [two, List.map_cons, List.map_singleton, List.cons.injEq, List.singleton_inj] at roots
  have memberN : n ∈ nodes := two ▸ List.mem_cons_self ..
  have memberM : m ∈ nodes := two ▸ List.mem_cons_of_mem n (List.mem_singleton.mpr rfl)
  have same := one n memberN m memberM _ _ roots.1 roots.2 (by decide +kernel)
  rw [same, roots.2] at roots
  exact absurd roots.1 (by decide +kernel)

end Session

end RootedBuild
