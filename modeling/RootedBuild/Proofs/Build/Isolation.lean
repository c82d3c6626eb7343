import RootedBuild.Proofs.Build.Batch
import RootedBuild.Proofs.Build.Keeping
import RootedBuild.Proofs.Build.Watched
import RootedBuild.Proofs.Ownership.Lasting

/-!
Roots kept apart. In every history, under every engine, an analyzer only gets files of the root it
was made for, and a root has at most one analyzer, made with the options that the tree gave for it
at the time. The calls are those of the engine under watch. What an analyzer does with a file is not
looked at, and it may fail or crash.
-/
namespace RootedBuild

theorem Root.facts_injective {r q : Root} (h : r.facts = q.facts) : r = q := by
  have descriptors := congrArg RootFacts.descriptor h
  have directories := congrArg RootFacts.directory h
  cases r <;> cases q <;> simp_all [Root.facts, Root.descriptor?, Root.directory]

/-- An entry of a list with one more at its end. -/
theorem getElem?_concat_eq_some_iff {xs : List β} {x y : β} {k : Nat} :
    (xs ++ [x])[k]? = some y ↔ xs[k]? = some y ∨ k = xs.length ∧ x = y := by
  rw [List.getElem?_append, List.getElem?_singleton]
  split
  · rename_i inside
    simp [Nat.ne_of_lt inside]
  · rename_i outside
    have past : xs[k]? = none := by simpa using outside
    have place : k - xs.length = 0 ↔ k = xs.length := by omega
    simp [past, place]

/-! ### The invariant -/

/-- How the settled roots, the nodes and the calls made so far hang together. -/
structure Isolated (here : Path) (L : Locator) (R : NodeTable (α × Nat)) (calls : List Call) :
    Prop where
  placed : L.Placed
  sound : R.Sound
  located : ∀ node ∈ R.arena, node.root.Located L.settings.configName
  made : ∀ node ∈ R.arena, ∃ tree,
    calls[node.analyzer.2]? = some (.create tree node.root.facts node.options true)
  creations : ∀ (k : Nat) tree facts options made,
    calls[k]? = some (.create tree facts options made) → ∃ root : Root, facts = root.facts ∧
      (Locator.optionsOf tree L.settings root).answer = .ok options ∧
        (made = true → ∃ node ∈ R.arena, node.root = root ∧ node.analyzer.2 = k)
  analyses : ∀ (k a : Nat) file source, calls[k]? = some (.analyze a file source) →
    a < k ∧ ∃ node ∈ R.arena, node.analyzer.2 = a ∧ L.Settled here file node.root

namespace Isolated

variable {t : FileTree} {L : Locator} {R : NodeTable (α × Nat)} {calls : List Call}

theorem start (rooted : t.here.isAbsolute = true) (context : Path) (settings : Settings) :
    Isolated t.here (.new t context settings) (NodeTable.empty (α := α × Nat)) [] where
  placed := Locator.placed_new rooted context settings
  sound := NodeTable.sound_empty
  located := by simp [NodeTable.empty]
  made := by simp [NodeTable.empty]
  creations := by simp
  analyses := by simp

theorem asked (h : Isolated t.here L R calls) (rooted : t.here.isAbsolute = true) (file : Path) :
    Isolated t.here (L.rootOf t file).state R calls where
  placed := (h.placed.rootOf rooted file).1
  sound := h.sound
  located := by rw [Locator.settings_rootOf]; exact h.located
  made := h.made
  creations := by rw [Locator.settings_rootOf]; exact h.creations
  analyses := by
    intro k a f source call
    obtain ⟨before, node, member, number, settled⟩ := h.analyses k a f source call
    exact ⟨before, node, member, number, settled.rootOf rooted file⟩

variable {here : Path}

theorem unmade (h : Isolated here L R calls) {root : Root} {slot : RootSlot (α × Nat)}
    (bare : ((R.slot? root).getD {}).node = none) (empty : slot.node = none) :
    Isolated here L (R.withSlot root slot) calls where
  placed := h.placed
  sound := h.sound.withSlot bare empty
  located := h.located
  made := h.made
  creations := h.creations
  analyses := h.analyses

/-- A call of the factory that gave nothing. -/
theorem refused (h : Isolated here L R calls) {root : Root} {options : Options}
    (computed : (Locator.optionsOf t L.settings root).answer = .ok options) :
    Isolated here L R (calls ++ [.create t root.facts options false]) where
  placed := h.placed
  sound := h.sound
  located := h.located
  made := by
    intro node member
    obtain ⟨tree, call⟩ := h.made node member
    exact ⟨tree, getElem?_concat_eq_some_iff.mpr (.inl call)⟩
  creations := by
    intro k tree facts given made call
    rcases getElem?_concat_eq_some_iff.mp call with old | ⟨_, new⟩
    · exact h.creations k tree facts given made old
    · cases new
      exact ⟨root, rfl, computed, fun same => absurd same Bool.false_ne_true⟩
  analyses := by
    intro k a file source call
    rcases getElem?_concat_eq_some_iff.mp call with old | ⟨_, new⟩
    · exact h.analyses k a file source old
    · cases new

/-- A call of the factory that gave the analyzer of a new node. -/
theorem added (h : Isolated here L R calls) {root : Root} {options : Options}
    (bare : ((R.slot? root).getD {}).node = none)
    (located : root.Located L.settings.configName)
    (computed : (Locator.optionsOf t L.settings root).answer = .ok options)
    (slot : RootSlot (α × Nat)) (a : α) :
    Isolated here L (R.push root slot ⟨options, (a, calls.length)⟩).1
      (calls ++ [.create t root.facts options true]) where
  placed := h.placed
  sound := h.sound.push bare slot _
  located := by
    intro node member
    rcases List.mem_append.mp member with old | new
    · exact h.located node old
    · cases List.mem_singleton.mp new
      exact located
  made := by
    intro node member
    rcases List.mem_append.mp member with old | new
    · obtain ⟨tree, call⟩ := h.made node old
      exact ⟨tree, getElem?_concat_eq_some_iff.mpr (.inl call)⟩
    · cases List.mem_singleton.mp new
      exact ⟨t, getElem?_concat_eq_some_iff.mpr (.inr ⟨rfl, rfl⟩)⟩
  creations := by
    intro k tree facts given made call
    rcases getElem?_concat_eq_some_iff.mp call with old | ⟨last, new⟩
    · obtain ⟨r, same, computed, holder⟩ := h.creations k tree facts given made old
      refine ⟨r, same, computed, fun success => ?_⟩
      obtain ⟨node, member, found⟩ := holder success
      exact ⟨node, List.mem_append_left _ member, found⟩
    · cases new
      exact ⟨root, rfl, computed, fun _ =>
        ⟨_, List.mem_append_right _ (List.mem_singleton.mpr rfl), rfl, last.symm⟩⟩
  analyses := by
    intro k n file source call
    rcases getElem?_concat_eq_some_iff.mp call with old | ⟨_, new⟩
    · obtain ⟨before, node, member, found⟩ := h.analyses k n file source old
      exact ⟨before, node, List.mem_append_left _ member, found⟩
    · cases new

/-- A call of a node's analyzer for a file of the node's root. -/
theorem analyzed (h : Isolated here L R calls) {node : Node (α × Nat)} (member : node ∈ R.arena)
    {file : Path} (settled : L.Settled here file node.root) (source : String) :
    Isolated here L R (calls ++ [.analyze node.analyzer.2 file source]) where
  placed := h.placed
  sound := h.sound
  located := h.located
  made := by
    intro node member
    obtain ⟨tree, call⟩ := h.made node member
    exact ⟨tree, getElem?_concat_eq_some_iff.mpr (.inl call)⟩
  creations := by
    intro k tree facts given made call
    rcases getElem?_concat_eq_some_iff.mp call with old | ⟨_, new⟩
    · exact h.creations k tree facts given made old
    · cases new
  analyses := by
    intro k a f text call
    rcases getElem?_concat_eq_some_iff.mp call with old | ⟨last, new⟩
    · exact h.analyses k a f text old
    · cases new
      obtain ⟨tree, made⟩ := h.made node member
      have inside := (List.getElem?_eq_some_iff.mp made).1
      exact ⟨last ▸ inside, node, member, rfl, settled⟩

/-- Nodes with one analyzer are one node. -/
theorem eq_of_analyzer_eq (h : Isolated here L R calls) {n m : Node (α × Nat)}
    (hn : n ∈ R.arena) (hm : m ∈ R.arena) (same : n.analyzer.2 = m.analyzer.2) : n = m := by
  obtain ⟨tree, made⟩ := h.made n hn
  obtain ⟨other, madeOther⟩ := h.made m hm
  rw [same, madeOther, Option.some.injEq, Call.create.injEq] at made
  have roots := Root.facts_injective made.2.1
  exact h.sound.eq_of_same hn hm (roots ▸ Root.same_self _)

/-- At most one call of the factory gives an analyzer for a root, in whatever spelling. -/
theorem eq_of_created (h : Isolated here L R calls) {j k : Nat} {tree other : FileTree}
    {r q : Root} {options given : Options}
    (first : calls[j]? = some (.create tree r.facts options true))
    (second : calls[k]? = some (.create other q.facts given true)) (same : r.same q = true) :
    j = k := by
  obtain ⟨s, facts, _, holder⟩ := h.creations j tree _ options true first
  obtain ⟨s', facts', _, holder'⟩ := h.creations k other _ given true second
  obtain ⟨n, hn, root, rfl⟩ := holder rfl
  obtain ⟨m, hm, root', rfl⟩ := holder' rfl
  rw [← root] at facts
  rw [← root'] at facts'
  rw [Root.facts_injective facts, Root.facts_injective facts'] at same
  rw [h.sound.eq_of_same hn hm same]

end Isolated

/-! ### One request -/

/-- Making the contents of a node calls the factory once, if there are options to call it with. -/
theorem Ownership.makeContents_watched (E : Engine σ α) (t : FileTree) (settings : Settings)
    (root : Root) (b : Bench (σ × List Call)) :
    let turn := makeContents E.watched t settings root b
    (turn.state.memory.2 = b.memory.2 ∧ ∃ f, turn.answer = .failed f) ∨
      ∃ options, (Locator.optionsOf t settings root).answer = .ok options ∧
        ((turn.state.memory.2 = b.memory.2 ++ [.create t root.facts options false] ∧
            ∀ parts, turn.answer ≠ .ok parts) ∨
          turn.state.memory.2 = b.memory.2 ++ [.create t root.facts options true] ∧
            ∃ a, turn.answer = .ok ⟨options, (a, b.memory.2.length)⟩) := by
  unfold makeContents
  dsimp only
  cases computed : (Locator.optionsOf t settings root).answer with
  | error f => exact .inl ⟨rfl, .descriptor f, rfl⟩
  | ok options =>
      refine .inr ⟨options, rfl, ?_⟩
      simp only [Bench.create, Engine.watched]
      cases outcome : (E.create t root.facts options b.memory.1).2 with
      | ok a => exact .inr ⟨rfl, a, rfl⟩
      | failed f =>
          refine .inl ⟨rfl, ?_⟩
          rintro parts ⟨⟩
      | crashed =>
          refine .inl ⟨rfl, ?_⟩
          rintro parts ⟨⟩

theorem Isolated.fetch {here : Path} {L : Locator} {R : NodeTable (α × Nat)}
    {b : Bench (σ × List Call)} (h : Isolated here L R b.memory.2) (E : Engine σ α) (t : FileTree)
    {root : Root} (located : root.Located L.settings.configName) :
    let turn := R.fetch root (Ownership.makeContents E.watched t L.settings root) b
    Isolated here L turn.state.1 turn.state.2.memory.2 := by
  have told := Ownership.makeContents_watched E t L.settings root b
  dsimp only at told ⊢
  generalize Ownership.makeContents E.watched t L.settings root = make at told
  -- what came of the table, and then what calls there were
  cases NodeTable.fetched_fetch R root make b with
  | found slot node has holds table rest answer => rwa [table, rest]
  | made slot parts said bare table rest answer =>
      rw [table, rest]
      rcases told with ⟨_, f, failed⟩ | ⟨options, computed, ⟨_, refused⟩ | ⟨calls, a, given⟩⟩
      · cases said.symm.trans failed
      · exact absurd said (refused parts)
      · cases said.symm.trans given
        rw [calls]
        exact h.added bare located computed slot a
  | failed slot e said bare empty table rest answer =>
      rw [table, rest]
      rcases told with ⟨calls, _⟩ | ⟨options, computed, ⟨calls, _⟩ | ⟨_, a, given⟩⟩
      · rw [calls]
        exact h.unmade bare empty
      · rw [calls]
        exact (h.refused computed).unmade bare empty
      · cases said.symm.trans given
  | crashed slot said bare empty table rest answer =>
      rw [table, rest]
      rcases told with ⟨_, f, failed⟩ | ⟨options, computed, ⟨calls, _⟩ | ⟨_, a, given⟩⟩
      · cases said.symm.trans failed
      · rw [calls]
        exact (h.refused computed).unmade bare empty
      · cases said.symm.trans given

/-- The settled root of a file does not hang on its spelling. -/
theorem Locator.Settled.of_absolute {t : FileTree} {L : Locator} {file : Path} {root : Root}
    (h : L.Settled t.here (t.absolute file) root) (rooted : t.here.isAbsolute = true) :
    L.Settled t.here file root := by
  intro t' same
  rw [← h t' same, ← FileTree.absolute_congr same, Locator.rootOf_absolute (same ▸ rooted)]

namespace Build

def calls (B : Build (σ × List Call) (α × Nat)) : List Call := B.ownership.bench.memory.2

abbrev RootsApart (here : Path) (B : Build (σ × List Call) (α × Nat)) : Prop :=
  Isolated here B.ownership.locator B.ownership.nodes B.calls

/-- Nodes and settled roots are never lost, and the settings stay. -/
structure Grows (here : Path) (B C : Build σ α) : Prop where
  settings : C.ownership.locator.settings = B.ownership.locator.settings
  nodes : ∀ node ∈ B.ownership.nodes.arena, node ∈ C.ownership.nodes.arena
  settled : ∀ file root, B.ownership.locator.Settled here file root →
    C.ownership.locator.Settled here file root

theorem Grows.refl (here : Path) (B : Build σ α) : Grows here B B :=
  ⟨rfl, fun _ member => member, fun _ _ settled => settled⟩

theorem Grows.trans {here : Path} {B C D : Build σ α} (h : Grows here B C) (k : Grows here C D) :
    Grows here B D where
  settings := k.settings.trans h.settings
  nodes node member := k.nodes node (h.nodes node member)
  settled file root settled := k.settled file root (h.settled file root settled)

variable {E : Engine σ α} {t : FileTree} {B : Build (σ × List Call) (α × Nat)}

/-- Resolving keeps roots apart, and the node it gives is that of the file's root. -/
theorem RootsApart.resolve (h : B.RootsApart t.here) (rooted : t.here.isAbsolute = true)
    (file : Path) :
    let turn := B.resolve E.watched t file
    turn.state.RootsApart t.here ∧ Grows t.here B turn.state ∧
      ∀ node, turn.answer = .ok node → node ∈ turn.state.ownership.nodes.arena ∧
        turn.state.ownership.locator.Settled t.here file node.root := by
  let asked := B.ownership.locator.rootOf t (t.absolute file)
  have kept : Isolated t.here asked.state B.ownership.nodes B.ownership.bench.memory.2 :=
    h.asked rooted (t.absolute file)
  have settings : asked.state.settings = B.ownership.locator.settings :=
    Locator.settings_rootOf (t.absolute file)
  have located : asked.answer.Located asked.state.settings.configName := by
    rw [settings]
    exact (h.placed.rootOf rooted (t.absolute file)).2
  have after := kept.fetch E t located
  have fetched := h.sound.fetch asked.answer
    (Ownership.makeContents E.watched t asked.state.settings asked.answer) B.ownership.bench
  rw [settings] at after fetched
  refine ⟨after, ⟨settings, fetched.2.1, fun f root settled => settled.rootOf rooted _⟩, ?_⟩
  intro node answer
  obtain ⟨member, same⟩ := fetched.2.2 node answer
  have root : node.root = asked.answer := (after.located node member).eq_of_same located same
  refine ⟨member, Locator.Settled.of_absolute ?_ rooted⟩
  rw [root]
  exact Locator.settled_rootOf rooted (t.absolute file)

/-- Analyzing a file with the node of its root keeps roots apart. -/
theorem RootsApart.analyze {here : Path} (h : B.RootsApart here) {node : Node (α × Nat)}
    (member : node ∈ B.ownership.nodes.arena) {file : Path}
    (settled : B.ownership.locator.Settled here file node.root) (source : String) :
    (B.analyze E.watched t node file source).state.RootsApart here ∧
      Grows here B (B.analyze E.watched t node file source).state := by
  refine ⟨?_, rfl, fun _ inside => inside, fun _ _ same => same⟩
  have ran := ResultCache.fetch_state B.cache (.of file node.id source)
    (Bench.analyze E.watched t node file source) B.ownership.bench
  change Isolated here B.ownership.locator B.ownership.nodes
    (B.cache.fetch (.of file node.id source) (Bench.analyze E.watched t node file source)
      B.ownership.bench).state.2.memory.2
  rcases ran with stays | runs
  · rw [stays]
    exact h
  · rw [runs]
    exact Isolated.analyzed h member settled source

/-- A node of a build, for a file that is settled on the node's root. -/
def Owns (here : Path) (B : Build σ α) (file : Path) (node : Node α) : Prop :=
  node ∈ B.ownership.nodes.arena ∧ B.ownership.locator.Settled here file node.root

/-- Roots stay apart, and nothing is lost that `B₀` has. -/
theorem keeps_rootsApart (rooted : t.here.isAbsolute = true)
    (B₀ : Build (σ × List Call) (α × Nat)) :
    Keeps E.watched t (fun B => B.RootsApart t.here ∧ Grows t.here B₀ B) (Owns t.here) where
  resolve := by
    rintro B file ⟨apart, grows⟩
    obtain ⟨after, more, owner⟩ := apart.resolve (E := E) rooted file
    exact ⟨⟨after, grows.trans more⟩, owner⟩
  analyze := by
    rintro B file node source ⟨apart, grows⟩ ⟨member, settled⟩
    obtain ⟨after, more⟩ := apart.analyze (E := E) (t := t) member settled source
    exact ⟨after, grows.trans more⟩
  finish := by
    rintro B live ⟨apart, grows⟩
    exact ⟨apart, grows.trans ⟨rfl, fun _ member => member, fun _ _ settled => settled⟩⟩

theorem RootsApart.compileSource (h : B.RootsApart t.here) (rooted : t.here.isAbsolute = true)
    (file : Path) (source : String) :
    (B.compileSource E.watched t file source).state.RootsApart t.here ∧
      Grows t.here B (B.compileSource E.watched t file source).state :=
  (keeps_rootsApart rooted B).compileSource ⟨h, .refl t.here B⟩ file source

theorem RootsApart.compile (h : B.RootsApart t.here) (rooted : t.here.isAbsolute = true)
    (file : Path) : (B.compile E.watched t file).state.RootsApart t.here ∧
      Grows t.here B (B.compile E.watched t file).state :=
  (keeps_rootsApart rooted B).compile ⟨h, .refl t.here B⟩ file

end Build

/-! ### A history -/

namespace Session

variable {E : Engine σ α} {here : Path} {S : Session (σ × List Call) (α × Nat)}

/-- One step keeps roots apart, and a node that it gives is that of its file's root. -/
theorem step_rootsApart (rooted : here.isAbsolute = true) (same : S.tree.here = here)
    (h : S.build.RootsApart here) (step : Step) :
    let next := S.step E.watched step
    next.1.tree.here = here ∧ next.1.build.RootsApart here ∧
      Build.Grows here S.build next.1.build ∧
      ∀ file node, step = .resolve file → next.2 = .node (.ok node) →
        node ∈ next.1.build.ownership.nodes.arena ∧
          next.1.build.ownership.locator.Settled here file node.root := by
  subst same
  obtain ⟨apart, grows⟩ := step_keeps (S := S)
    (fun t there => there ▸ Build.keeps_rootsApart (E := E) (there ▸ rooted) S.build) rfl
    ⟨h, Build.Grows.refl _ _⟩ step
  refine ⟨step_here S step, apart, grows, ?_⟩
  rintro file node rfl answer
  exact (h.resolve rooted file).2.2 node (Answer.node.inj answer)

theorem run_rootsApart (rooted : here.isAbsolute = true) (same : S.tree.here = here)
    (h : S.build.RootsApart here) (steps : List Step) :
    let last := S.run E.watched steps
    last.1.build.RootsApart here ∧ Build.Grows here S.build last.1.build ∧
      ∀ (i : Nat) file node, steps[i]? = some (.resolve file) →
        last.2[i]? = some (.node (.ok node)) →
          node ∈ last.1.build.ownership.nodes.arena ∧
            last.1.build.ownership.locator.Settled here file node.root := by
  induction steps generalizing S with
  | nil => exact ⟨h, Build.Grows.refl _ _, by simp⟩
  | cons step steps ih =>
      obtain ⟨stays, apart, grows, owner⟩ := step_rootsApart (E := E) rooted same h step
      obtain ⟨last, more, owners⟩ := ih stays apart
      refine ⟨last, grows.trans more, ?_⟩
      intro i file node asked answered
      cases i with
      | zero =>
          obtain ⟨member, settled⟩ :=
            owner file node (Option.some.inj asked) (Option.some.inj answered)
          exact ⟨more.nodes node member, more.settled file node.root settled⟩
      | succ i => exact owners i file node asked answered

/-- Roots are isolated. An analyzer is made once, for one root and with the root's options, and gets
only files of this root; and different nodes have different ids, analyzers and roots. -/
theorem run_isolates_roots (E : Engine σ α) (t : FileTree) (rooted : t.here.isAbsolute = true)
    (context : Path) (options : BuildOptions) (memory : σ) (steps : List Step) :
    let watched := (start t context options (memory, [])).run E.watched steps
    let calls := watched.1.build.calls
    let locator := watched.1.build.ownership.locator
    let nodes := watched.1.build.ownership.nodes.arena
    (start t context options memory).run E steps =
        (watched.1.map Prod.fst Prod.fst, watched.2.map (Answer.map Prod.fst)) ∧
      (∀ (k a : Nat) file source, calls[k]? = some (.analyze a file source) →
        ∃ (root : Root) (tree : FileTree) (given : Options),
          a < k ∧ calls[a]? = some (.create tree root.facts given true) ∧
            locator.Settled t.here file root) ∧
      (∀ (k : Nat) tree facts given made, calls[k]? = some (.create tree facts given made) →
        ∃ root : Root, facts = root.facts ∧
          (Locator.optionsOf tree options.settings root).answer = .ok given) ∧
      (∀ (j k : Nat) tree other (r q : Root) given given',
        calls[j]? = some (.create tree r.facts given true) →
          calls[k]? = some (.create other q.facts given' true) → r.same q = true → j = k) ∧
      (∀ (i : Nat) file node, steps[i]? = some (.resolve file) →
        watched.2[i]? = some (.node (.ok node)) →
          node ∈ nodes ∧ locator.Settled t.here file node.root) ∧
      (∀ n ∈ nodes, ∃ tree,
        calls[n.analyzer.2]? = some (.create tree n.root.facts n.options true)) ∧
      ∀ n ∈ nodes, ∀ m ∈ nodes,
        n.id = m.id ∨ n.analyzer.2 = m.analyzer.2 ∨ n.root.same m.root = true → n = m := by
  intro watched calls locator nodes
  have fresh : Build.RootsApart t.here
      (start t context options (memory, []) : Session (σ × List Call) (α × Nat)).build :=
    Isolated.start rooted (t.absolute context) options.settings
  obtain ⟨apart, grows, owners⟩ := run_rootsApart (E := E) rooted rfl fresh steps
  have settings : locator.settings = options.settings := grows.settings
  refine ⟨?_, ?_, ?_, ?_, owners, apart.made, ?_⟩
  · exact run_map E.covers_watched (start t context options (memory, [])) steps
  · intro k a file source call
    obtain ⟨before, node, member, number, settled⟩ := apart.analyses k a file source call
    obtain ⟨tree, made⟩ := apart.made node member
    exact ⟨node.root, tree, node.options, before, number ▸ made, settled⟩
  · intro k tree facts given made call
    obtain ⟨root, same, computed, _⟩ := apart.creations k tree facts given made call
    exact ⟨root, same, settings ▸ computed⟩
  · intro j k tree other r q given given' first second same
    exact apart.eq_of_created first second same
  · rintro n hn m hm (ids | analyzers | roots)
    · exact apart.sound.eq_of_id_eq hn hm ids
    · exact apart.eq_of_analyzer_eq hn hm analyzers
    · exact apart.sound.eq_of_same hn hm roots

/-- A source, and another one below it under a descriptor of its own. -/
def nested : FileTree where
  entries := [(["tsconfig.json"], .file "{}".toUTF8.toList), (["a.ts"], .file "1".toUTF8.toList),
    (["p"], .directory), (["p", "tsconfig.json"], .file "{}".toUTF8.toList),
    (["p", "b.ts"], .file "2".toUTF8.toList)]
  here := ⟨"/"⟩

/-- The inner file stays with the inner analyzer, also when all descriptors are gone. -/
theorem run_isolates_roots_nested :
    let steps : List Step := [.compile ⟨"a.ts"⟩, .compile ⟨"p/b.ts"⟩, .change [],
      .compileSource ⟨"p/b.ts"⟩ "3"]
    let last := (start nested ⟨"/"⟩ {} ((), [])).run Build.copying.watched steps
    nested.here.isAbsolute = true ∧
      last.1.build.calls[4]? = some (.analyze 2 ⟨"/p/b.ts"⟩ "3") ∧
      ∃ (root : Root) (tree : FileTree) (given : Options),
        2 < 4 ∧ last.1.build.calls[2]? = some (.create tree root.facts given true) ∧
          last.1.build.ownership.locator.Settled nested.here ⟨"/p/b.ts"⟩ root := by
  intro steps last
  have rooted : nested.here.isAbsolute = true := by decide
  have call : last.1.build.calls[4]? = some (.analyze 2 ⟨"/p/b.ts"⟩ "3") :=
    Call.getElem?_of_analysis? (by decide +kernel)
  exact ⟨rooted, call,
    (run_isolates_roots Build.copying nested rooted ⟨"/"⟩ {} () steps).2.1 4 2 _ _ call⟩

end Session

end RootedBuild
