import RootedBuild.Proofs.Ownership.Memory

/-!
What lasts on a tree that changes. Once a file was asked for its root is settled, whatever becomes
of the descriptors, and a node keeps its root, its id and its place for good. Nothing is claimed
here of what a node consists of: it is made from the tree as it is at the time.
-/
namespace RootedBuild

/-! ### Settled roots -/

namespace Locator

variable {t : FileTree} {L : Locator} {here : Path}

/-- No tree seen from the directory `here` gives the file another root. -/
def Settled (here : Path) (L : Locator) (file : Path) (root : Root) : Prop :=
  ∀ t : FileTree, t.here = here → (L.rootOf t file).answer = root

/-- A directory is governed by what was found when it was first asked for. -/
theorem governing_rootOf (t' : FileTree) (rooted : t.here.isAbsolute = true) (file : Path)
    {dir : Path} (canonical : dir.Canonical) : (L.rootOf t file).state.governing t' dir =
      if startOf t file = dir then L.governing t dir else L.governing t' dir := by
  have settings := settings_rootOf (t := t) (L := L) file
  have remembered := remembered?_nearest (t := t) (L := L) (canonical_startOf rooted file) canonical
  unfold governing
  rw [settings]
  cases lookUp : L.settings.lookUp with
  | false => simp
  | true =>
      simp only [if_true, nearest_answer, settings]
      rw [rootOf_state, if_pos lookUp, remembered]
      split_ifs with equal
      · rw [Option.getD_some, nearest_answer, equal]
      · rfl

/-- What a later question gives for a file. -/
theorem rootOf_rootOf {t' : FileTree} (rooted : t.here.isAbsolute = true) (same : t'.here = t.here)
    (asked file : Path) : ((L.rootOf t asked).state.rootOf t' file).answer =
      if startOf t asked = startOf t file then (L.rootOf t file).answer
      else (L.rootOf t' file).answer := by
  have context := congrArg Locator.context (rootOf_unasked (t := t) (L := L) asked)
  rw [unasked_context, unasked_context] at context
  have whole : t'.absolute file = t.absolute file := by rw [FileTree.absolute_congr same]
  have start : startOf t' file = startOf t file := by rw [startOf, startOf, whole]
  have chosen : (L.rootOf t asked).state.rootFrom = L.rootFrom := by
    funext file dir found
    unfold rootFrom
    rw [context]
  rw [rootOf_answer, chosen, whole, start,
    governing_rootOf t' rooted asked (canonical_startOf rooted file)]
  split_ifs
  · rw [rootOf_answer]
  · rw [rootOf_answer, whole, start]

theorem settled_rootOf (rooted : t.here.isAbsolute = true) (file : Path) :
    Settled t.here (L.rootOf t file).state file (L.rootOf t file).answer := by
  intro t' same
  rw [rootOf_rootOf rooted same, if_pos rfl]

/-- A settled root stays, whatever is asked and however the tree looks by then. -/
theorem Settled.rootOf {file : Path} {root : Root} (h : L.Settled t.here file root)
    (rooted : t.here.isAbsolute = true) (asked : Path) :
    Settled t.here (L.rootOf t asked).state file root := by
  intro t' same
  rw [rootOf_rootOf rooted same, h t rfl, h t' same, ite_self]

/-- Every descriptor that is remembered was found in a directory with a canonical spelling. -/
structure Placed (L : Locator) : Prop where
  context : L.context.Canonical
  found : ∀ e ∈ L.found, ∀ p, e.2 = some p →
    ∃ above : Path, above.Canonical ∧ p = above.child L.settings.configName

theorem placed_new (rooted : t.here.isAbsolute = true) (context : Path) (settings : Settings) :
    (new t context settings).Placed where
  context := FileTree.canonical_absolute rooted context
  found := by simp [new]

theorem Placed.nearest (h : L.Placed) {dir : Path} (canonical : dir.Canonical) :
    (L.nearest t dir).state.Placed ∧ ∀ p, (L.nearest t dir).answer = some p →
      ∃ above : Path, above.Canonical ∧ p = above.child L.settings.configName := by
  cases known : L.remembered? dir with
  | some found =>
      obtain ⟨e, member, same⟩ := Option.map_eq_some_iff.mp known
      simp only [Locator.nearest, known]
      exact ⟨h, fun p answer => h.found e (List.mem_of_find?_eq_some member) p (same.trans answer)⟩
  | none =>
      simp only [Locator.nearest, known]
      refine ⟨⟨h.context, ?_⟩, fun p found => exists_child_of_nearest? canonical found⟩
      intro e member p found
      rcases List.mem_cons.mp member with rfl | old
      · exact exists_child_of_nearest? canonical found
      · exact h.found e old p found

theorem Placed.rootOf (h : L.Placed) (rooted : t.here.isAbsolute = true) (file : Path) :
    (L.rootOf t file).state.Placed ∧
      (L.rootOf t file).answer.Located L.settings.configName := by
  have canonical := canonical_startOf rooted file
  have near := h.nearest (t := t) canonical
  constructor
  · rw [rootOf_state]
    split
    · exact near.1
    · exact h
  · rw [rootOf_answer]
    apply located_rootFrom h.context canonical
    intro p found
    unfold governing at found
    split at found
    · exact near.2 p found
    · cases found

end Locator

/-! ### Nodes in their places -/

namespace NodeTable

variable {R : NodeTable α} {make : τ → Turn τ (Outcome ε (NodeContents α))} {s : τ}

/-- Nodes are numbered by their places in the arena, and the slot of a node's root holds that node
and no other. -/
structure Sound (R : NodeTable α) : Prop where
  id : ∀ (i : Nat) (node : Node α), R.arena[i]? = some node → node.id = i
  held : ∀ node ∈ R.arena, ∃ slot, R.slot? node.root = some slot ∧ slot.node = some node
  stands : ∀ root slot node, R.slot? root = some slot → slot.node = some node →
    node ∈ R.arena ∧ node.root.same root = true

theorem sound_empty : (empty : NodeTable α).Sound where
  id := by simp [empty]
  held := by simp [empty]
  stands := by simp [empty, slot?]

theorem Sound.getElem?_id (h : R.Sound) {node : Node α} (member : node ∈ R.arena) :
    R.arena[node.id]? = some node := by
  obtain ⟨i, found⟩ := List.mem_iff_getElem?.mp member
  rw [h.id i node found, found]

/-- A node is told from all others by its id, and by its root. -/
theorem Sound.eq_of_id_eq (h : R.Sound) {n m : Node α} (hn : n ∈ R.arena) (hm : m ∈ R.arena)
    (same : n.id = m.id) : n = m := by
  have found := h.getElem?_id hn
  rw [same, h.getElem?_id hm] at found
  exact (Option.some.inj found).symm

theorem slot?_congr {r q : Root} (same : r.same q = true) : R.slot? r = R.slot? q := by
  unfold slot?
  congr 2
  funext entry
  rw [Root.same_comm entry.1, Root.same_comm entry.1, Root.same_congr same]

theorem Sound.eq_of_same (h : R.Sound) {n m : Node α} (hn : n ∈ R.arena) (hm : m ∈ R.arena)
    (same : n.root.same m.root = true) : n = m := by
  obtain ⟨slot, found, holds⟩ := h.held n hn
  obtain ⟨other, foundOther, holdsOther⟩ := h.held m hm
  rw [slot?_congr same, foundOther] at found
  cases found
  exact Option.some.inj (holds.symm.trans holdsOther)

/-- All that fetching the node of a root can do. -/
inductive Fetched (R : NodeTable α) (root : Root) (make : τ → Turn τ (Outcome ε (NodeContents α)))
    (s : τ) (turn : Turn (NodeTable α × τ) (Outcome ε (Node α))) : Prop where
  | found (slot : RootSlot α) (node : Node α) (has : R.slot? root = some slot)
      (holds : slot.node = some node) (table : turn.state.1 = R) (rest : turn.state.2 = s)
      (answer : turn.answer = .ok node)
  | made (slot : RootSlot α) (parts : NodeContents α) (said : (make s).answer = .ok parts)
      (bare : ((R.slot? root).getD {}).node = none)
      (table : turn.state.1 = (R.push root slot parts).1) (rest : turn.state.2 = (make s).state)
      (answer : turn.answer = .ok (R.push root slot parts).2)
  | failed (slot : RootSlot α) (e : ε) (said : (make s).answer = .failed e)
      (bare : ((R.slot? root).getD {}).node = none) (unmade : slot.node = none)
      (table : turn.state.1 = R.withSlot root slot) (rest : turn.state.2 = (make s).state)
      (answer : turn.answer = .failed e)
  | crashed (slot : RootSlot α) (said : (make s).answer = .crashed)
      (bare : ((R.slot? root).getD {}).node = none) (unmade : slot.node = none)
      (table : turn.state.1 = R.withSlot root slot) (rest : turn.state.2 = (make s).state)
      (answer : turn.answer = .crashed)

theorem fetched_fetch (R : NodeTable α) (root : Root)
    (make : τ → Turn τ (Outcome ε (NodeContents α))) (s : τ) :
    Fetched R root make s (R.fetch root make s) := by
  unfold fetch
  dsimp only
  cases has : ((R.slot? root).getD {}).node with
  | some node =>
      obtain ⟨slot, found, holds⟩ := getD_slot?_node has
      exact .found slot node found holds rfl rfl rfl
  | none =>
      dsimp only
      cases said : (make s).answer with
      | ok parts => exact .made _ parts said has rfl rfl rfl
      | failed e => exact .failed _ e said has has rfl rfl rfl
      | crashed => exact .crashed { marked := true } said has rfl rfl rfl rfl

/-- A root without a node differs from the roots of all nodes. -/
theorem Sound.apart (h : R.Sound) {root : Root} (bare : ((R.slot? root).getD {}).node = none)
    {node : Node α} (member : node ∈ R.arena) : root.same node.root = false := by
  obtain ⟨slot, found, holds⟩ := h.held node member
  rw [Bool.eq_false_iff]
  intro same
  simp [slot?_congr same, found, holds] at bare

theorem Sound.withSlot (h : R.Sound) {root : Root} {slot : RootSlot α}
    (bare : ((R.slot? root).getD {}).node = none) (unmade : slot.node = none) :
    (R.withSlot root slot).Sound where
  id := h.id
  held := by
    intro node member
    rw [slot?_withSlot, h.apart bare member, if_neg Bool.false_ne_true]
    exact h.held node member
  stands := by
    intro r s node found holds
    rw [slot?_withSlot] at found
    split at found
    · rw [← Option.some.inj found, unmade] at holds
      cases holds
    · exact h.stands r s node found holds

theorem Sound.push (h : R.Sound) {root : Root} (bare : ((R.slot? root).getD {}).node = none)
    (slot : RootSlot α) (parts : NodeContents α) : (R.push root slot parts).1.Sound where
  id := by
    intro i node found
    change (R.arena ++ [_])[i]? = some node at found
    rw [List.getElem?_append] at found
    split at found
    · exact h.id i node found
    · rw [List.getElem?_singleton] at found
      split at found
      · cases found
        change R.arena.length = i
        omega
      · cases found
  held := by
    intro node member
    have found := slot?_withSlot R root node.root
      { slot with node := some (R.push root slot parts).2 }
    rcases List.mem_append.mp member with old | new
    · rw [h.apart bare old, if_neg Bool.false_ne_true] at found
      obtain ⟨other, has, holds⟩ := h.held node old
      exact ⟨other, found.trans has, holds⟩
    · cases List.mem_singleton.mp new
      rw [if_pos (Root.same_self root)] at found
      exact ⟨_, found, rfl⟩
  stands := by
    intro r s node found holds
    have set := found.symm.trans
      (slot?_withSlot R root r { slot with node := some (R.push root slot parts).2 })
    split at set
    · rename_i same
      cases Option.some.inj set
      cases holds
      exact ⟨List.mem_append_right _ (List.mem_singleton.mpr rfl), same⟩
    · obtain ⟨member, same⟩ := h.stands r s node set.symm holds
      exact ⟨List.mem_append_left _ member, same⟩

/-- Fetching keeps a table sound and every node in its place, and gives a node of the root. -/
theorem Sound.fetch (h : R.Sound) (root : Root) (make : τ → Turn τ (Outcome ε (NodeContents α)))
    (s : τ) :
    (R.fetch root make s).state.1.Sound ∧
      (∀ node ∈ R.arena, node ∈ (R.fetch root make s).state.1.arena) ∧
      ∀ node, (R.fetch root make s).answer = .ok node →
        node ∈ (R.fetch root make s).state.1.arena ∧ node.root.same root = true := by
  cases fetched_fetch R root make s with
  | found slot node has holds table rest answer =>
      rw [table, answer]
      refine ⟨h, fun _ old => old, ?_⟩
      rintro _ ⟨⟩
      exact h.stands root slot node has holds
  | made slot parts said bare table rest answer =>
      rw [table, answer]
      refine ⟨h.push bare slot parts, fun _ => List.mem_append_left _, ?_⟩
      rintro _ ⟨⟩
      exact ⟨List.mem_append_right _ (List.mem_singleton.mpr rfl), Root.same_self root⟩
  | failed slot e said bare unmade table rest answer =>
      rw [table, answer]
      refine ⟨h.withSlot bare unmade, fun _ old => old, ?_⟩
      rintro node ⟨⟩
  | crashed slot said bare unmade table rest answer =>
      rw [table, answer]
      refine ⟨h.withSlot bare unmade, fun _ old => old, ?_⟩
      rintro node ⟨⟩

end NodeTable

end RootedBuild
