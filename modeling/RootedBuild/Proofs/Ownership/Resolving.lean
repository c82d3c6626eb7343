import RootedBuild.Proofs.Ownership.Lasting

/-!
All that resolving a file can do. Either the root of the file has a node, which is the answer, and
nothing is made; or it has none, and then the answer is what making one gives on the tree as it is
now. A making that failed before has left no node, so it is no different from one that never was. As
long as the tree does not change, all nodes have the options that their roots have in it.
-/
namespace RootedBuild

/-- The node of a root, made from its contents when `id` nodes stand before it. -/
def Root.nodeOf (root : Root) (id : Nat) (c : NodeContents α) : Node α :=
  ⟨id, root, c.options, c.analyzer⟩

namespace Ownership

variable {E : Engine σ α} {t : FileTree} {R : Ownership σ α}

/-- Descriptors are found in canonical directories, and no two nodes share a root or an id. -/
structure Orderly (R : Ownership σ α) : Prop where
  placed : R.locator.Placed
  sound : R.nodes.Sound
  located : ∀ node ∈ R.nodes.arena, node.root.Located R.locator.settings.configName

theorem orderly_new (rooted : t.here.isAbsolute = true) (context : Path) (settings : Settings)
    (memory : σ) : (new t context settings memory : Ownership σ α).Orderly where
  placed := Locator.placed_new rooted context settings
  sound := NodeTable.sound_empty
  located := by simp [new, NodeTable.empty]

/-- Nothing else than the locator and the nodes is looked at. -/
theorem Orderly.congr {Q : Ownership σ α} (h : R.Orderly) (locator : Q.locator = R.locator)
    (nodes : Q.nodes = R.nodes) : Q.Orderly :=
  ⟨locator ▸ h.placed, nodes ▸ h.sound, locator ▸ nodes ▸ h.located⟩

/-- The contents of a node for the file's root, made from the tree as it is. -/
def contentsNow (E : Engine σ α) (t : FileTree) (R : Ownership σ α) (file : Path) :
    Turn (Bench σ) (Outcome Failure (NodeContents α)) :=
  makeContents E t R.locator.settings (R.locator.rootOf t file).answer R.bench

/-- All that resolving a file can do. -/
inductive Resolved (E : Engine σ α) (t : FileTree) (R : Ownership σ α) (file : Path)
    (turn : Turn (Ownership σ α) (Outcome Failure (Node α))) : Prop where
  | known (node : Node α) (member : node ∈ R.nodes.arena)
      (owns : node.root = (R.locator.rootOf t file).answer) (answer : turn.answer = .ok node)
      (arena : turn.state.nodes.arena = R.nodes.arena) (bench : turn.state.bench = R.bench)
  | made (parts : NodeContents α)
      (bare : ∀ node ∈ R.nodes.arena, node.root ≠ (R.locator.rootOf t file).answer)
      (said : (contentsNow E t R file).answer = .ok parts)
      (answer : turn.answer =
        .ok ((R.locator.rootOf t file).answer.nodeOf R.nodes.arena.length parts))
      (arena : turn.state.nodes.arena = R.nodes.arena ++
        [(R.locator.rootOf t file).answer.nodeOf R.nodes.arena.length parts])
      (bench : turn.state.bench = (contentsNow E t R file).state)
  | unmade (bare : ∀ node ∈ R.nodes.arena, node.root ≠ (R.locator.rootOf t file).answer)
      (refused : ∀ parts, (contentsNow E t R file).answer ≠ .ok parts)
      (answer : turn.answer = (contentsNow E t R file).answer.map
        ((R.locator.rootOf t file).answer.nodeOf R.nodes.arena.length))
      (arena : turn.state.nodes.arena = R.nodes.arena)
      (bench : turn.state.bench = (contentsNow E t R file).state)

theorem Orderly.resolved (h : R.Orderly) (rooted : t.here.isAbsolute = true) (file : Path) :
    Resolved E t R file (R.resolve E t file) := by
  have located := (h.placed.rootOf rooted file).2
  have fetched := NodeTable.fetched_fetch R.nodes (R.locator.rootOf t file).answer
    (makeContents E t R.locator.settings (R.locator.rootOf t file).answer) R.bench
  -- a root without a node in its slot has none in the arena
  have bareArena (bare : ((R.nodes.slot? (R.locator.rootOf t file).answer).getD {}).node = none) :
      ∀ node ∈ R.nodes.arena, node.root ≠ (R.locator.rootOf t file).answer := by
    intro node member owns
    have apart := h.sound.apart bare member
    rw [owns, Root.same_self] at apart
    cases apart
  cases fetched with
  | found slot node has holds table rest answer =>
      obtain ⟨member, same⟩ := h.sound.stands _ slot node has holds
      exact .known node member ((h.located node member).eq_of_same located same) answer
        (congrArg NodeTable.arena table) rest
  | made slot parts said bare table rest answer =>
      exact .made parts (bareArena bare) said answer (congrArg NodeTable.arena table) rest
  | failed slot e said bare unmade table rest answer =>
      have arena := congrArg NodeTable.arena table
      refine .unmade (bareArena bare) ?_ ?_ arena rest
      · intro parts made
        cases said.symm.trans made
      · rw [contentsNow, said]
        exact answer
  | crashed slot said bare unmade table rest answer =>
      have arena := congrArg NodeTable.arena table
      refine .unmade (bareArena bare) ?_ ?_ arena rest
      · intro parts made
        cases said.symm.trans made
      · rw [contentsNow, said]
        exact answer

theorem Orderly.resolve (h : R.Orderly) (rooted : t.here.isAbsolute = true) (file : Path) :
    (R.resolve E t file).state.Orderly := by
  have placed := h.placed.rootOf rooted file
  have settings : (R.resolve E t file).state.locator.settings = R.locator.settings :=
    Locator.settings_rootOf file
  refine ⟨placed.1, (h.sound.fetch _ _ _).1, ?_⟩
  rw [settings]
  cases h.resolved (E := E) rooted file with
  | known node member owns answer arena => rw [arena]; exact h.located
  | unmade bare refused answer arena => rw [arena]; exact h.located
  | made parts bare said answer arena =>
      intro node member
      rw [arena] at member
      rcases List.mem_append.mp member with old | new
      · exact h.located node old
      · cases List.mem_singleton.mp new
        exact placed.2

/-- Nodes are only added, and only at the end. -/
theorem Resolved.grows {file : Path} {turn : Turn (Ownership σ α) (Outcome Failure (Node α))}
    (h : Resolved E t R file turn) : R.nodes.arena <+: turn.state.nodes.arena := by
  cases h with
  | known node member owns answer arena => exact arena ▸ List.prefix_rfl
  | made parts bare said answer arena => exact arena ▸ List.prefix_append _ _
  | unmade bare refused answer arena => exact arena ▸ List.prefix_rfl

/-- A node that is given stands in the table, and its root is that of the file. -/
theorem Resolved.owner {file : Path} {turn : Turn (Ownership σ α) (Outcome Failure (Node α))}
    (h : Resolved E t R file turn) {node : Node α} (given : turn.answer = .ok node) :
    node ∈ turn.state.nodes.arena ∧ node.root = (R.locator.rootOf t file).answer := by
  cases h with
  | known other member owns answer arena =>
      cases answer.symm.trans given
      exact ⟨arena ▸ member, owns⟩
  | made parts bare said answer arena =>
      cases answer.symm.trans given
      rw [arena]
      exact ⟨List.mem_append_right _ (List.mem_singleton.mpr rfl), rfl⟩
  | unmade bare refused answer arena =>
      rw [answer] at given
      cases result : (contentsNow E t R file).answer with
      | ok parts => exact absurd result (refused parts)
      | failed e => rw [result] at given; cases given
      | crashed => rw [result] at given; cases given

/-- Without a node for the root, the answer is what making one gives now. -/
theorem Resolved.answer_of_bare {file : Path}
    {turn : Turn (Ownership σ α) (Outcome Failure (Node α))} (h : Resolved E t R file turn)
    (bare : ∀ node ∈ R.nodes.arena, node.root ≠ (R.locator.rootOf t file).answer) :
    turn.answer = (contentsNow E t R file).answer.map
      ((R.locator.rootOf t file).answer.nodeOf R.nodes.arena.length) := by
  cases h with
  | known node member owns => exact absurd owns (bare node member)
  | made parts bare said answer => rw [answer, said]; rfl
  | unmade bare refused answer => exact answer

/-! ### On a tree that stays as it is -/

theorem makeContents_of_error {settings : Settings} {root : Root} {f : DescriptorFault}
    (read : (Locator.optionsOf t settings root).answer = .error f) (b : Bench σ) :
    (makeContents E t settings root b).answer = .failed (.descriptor f) := by
  simp only [makeContents, read]

theorem optionsOf_of_makeContents {settings : Settings} {root : Root} {b : Bench σ}
    {parts : NodeContents α} (made : (makeContents E t settings root b).answer = .ok parts) :
    (Locator.optionsOf t settings root).answer = .ok parts.options := by
  cases read : (Locator.optionsOf t settings root).answer with
  | error f =>
      rw [makeContents_of_error read] at made
      cases made
  | ok options =>
      simp only [makeContents, read] at made
      cases created : (b.create E t root options).2 with
      | ok a =>
          rw [created] at made
          cases made
          rfl
      | failed f => rw [created] at made; cases made
      | crashed => rw [created] at made; cases made

/-- What is remembered is what the tree holds: descriptors are where the locator found them, and
each node has the options of its root. -/
structure Faithful (t : FileTree) (R : Ownership σ α) : Prop where
  orderly : R.Orderly
  truthful : R.locator.Truthful t
  made : ∀ node ∈ R.nodes.arena,
    (Locator.optionsOf t R.locator.settings node.root).answer = .ok node.options

theorem faithful_new (rooted : t.here.isAbsolute = true) (context : Path) (settings : Settings)
    (memory : σ) : (new t context settings memory : Ownership σ α).Faithful t where
  orderly := orderly_new rooted context settings memory
  truthful := Locator.truthful_of_found rfl
  made := by simp [new, NodeTable.empty]

theorem Faithful.congr {Q : Ownership σ α} (h : R.Faithful t) (locator : Q.locator = R.locator)
    (nodes : Q.nodes = R.nodes) : Q.Faithful t :=
  ⟨h.orderly.congr locator nodes, locator ▸ h.truthful, locator ▸ nodes ▸ h.made⟩

theorem Faithful.resolve (h : R.Faithful t) (rooted : t.here.isAbsolute = true) (file : Path) :
    (R.resolve E t file).state.Faithful t := by
  have settings : (R.resolve E t file).state.locator.settings = R.locator.settings :=
    Locator.settings_rootOf file
  refine ⟨h.orderly.resolve rooted file,
    (Locator.rootOf_of_truthful rooted h.truthful file).2.1, ?_⟩
  rw [settings]
  cases h.orderly.resolved (E := E) rooted file with
  | known node member owns answer arena => rw [arena]; exact h.made
  | unmade bare refused answer arena => rw [arena]; exact h.made
  | made parts bare said answer arena =>
      intro node member
      rw [arena] at member
      rcases List.mem_append.mp member with old | new
      · exact h.made node old
      · cases List.mem_singleton.mp new
        exact optionsOf_of_makeContents said

/-- A file is not given a node while the options of its root cannot be read. -/
theorem Faithful.resolve_of_error (h : R.Faithful t) (rooted : t.here.isAbsolute = true)
    {file : Path} {f : DescriptorFault}
    (read : (Locator.optionsOf t R.locator.settings (R.locator.rootOf t file).answer).answer =
      .error f) : (R.resolve E t file).answer = .failed (.descriptor f) := by
  cases h.orderly.resolved (E := E) rooted file with
  | known node member owns =>
      rw [← owns, h.made node member] at read
      cases read
  | made parts bare said =>
      rw [optionsOf_of_makeContents said] at read
      cases read
  | unmade bare refused answer =>
      rw [answer, contentsNow, makeContents_of_error read]
      rfl

end Ownership

end RootedBuild
