import RootedBuild.Ownership
import RootedBuild.Proofs.Path.Join

/-!
What a locator and a node table remember, on a tree that stays as it is. A memory is truthful when
it only holds what asking afresh would give; asking keeps it so, and a truthful memory is not seen
in any answer. Roots are compared by their parts, but a located root has one spelling, so that one
slot is never shared by two of them.
-/
namespace RootedBuild

/-! ### The descriptor above a directory -/

namespace Locator

/-- The locator before its first question. -/
def unasked (L : Locator) : Locator := { L with found := [] }

/-- What is remembered of a directory is what the tree holds above it. -/
def Truthful (t : FileTree) (L : Locator) : Prop :=
  ∀ dir found, dir.Canonical → L.remembered? dir = some found →
    found = t.nearest? dir L.settings.configName

/-- The directory in which the search for a file's root starts. -/
def startOf (t : FileTree) (file : Path) : Path :=
  (t.absolute file).parent?.getD (t.absolute file)

/-- The descriptor that governs a directory, if any. -/
def governing (t : FileTree) (L : Locator) (dir : Path) : Option Path :=
  if L.settings.lookUp then (L.nearest t dir).answer else none

variable {t : FileTree} {L : Locator}

theorem truthful_of_found (h : L.found = []) : L.Truthful t := by
  intro dir found _ remembered
  simp [remembered?, h] at remembered

theorem unasked_context (L : Locator) : L.unasked.context = L.context := rfl

theorem unasked_settings (L : Locator) : L.unasked.settings = L.settings := rfl

theorem settings_eq_of_unasked {L M : Locator} (same : L.unasked = M.unasked) :
    L.settings = M.settings := by
  rw [← unasked_settings, same, unasked_settings]

theorem new_absolute (rooted : t.here.isAbsolute = true) (context : Path) (settings : Settings) :
    new t (t.absolute context) settings = new t context settings := by
  rw [new, new, FileTree.absolute_absolute rooted]

theorem canonical_startOf (rooted : t.here.isAbsolute = true) (file : Path) :
    (startOf t file).Canonical := by
  have whole := FileTree.canonical_absolute rooted file
  unfold startOf
  cases parent : (t.absolute file).parent? with
  | none => exact whole
  | some dir => exact whole.of_parent? parent

theorem nearest_answer (dir : Path) : (L.nearest t dir).answer =
    (L.remembered? dir).getD (t.nearest? dir L.settings.configName) := by
  unfold nearest
  cases L.remembered? dir <;> rfl

theorem nearest_unasked (dir : Path) : (L.nearest t dir).state.unasked = L.unasked := by
  unfold nearest
  split <;> rfl

/-- Asking for one directory makes it remembered, and changes nothing about the others. -/
theorem remembered?_nearest {dir other : Path} (canonical : dir.Canonical)
    (canonicalOther : other.Canonical) : (L.nearest t dir).state.remembered? other =
      if dir = other then some (L.nearest t dir).answer else L.remembered? other := by
  cases known : L.remembered? dir with
  | some found =>
      rw [nearest, known]
      split_ifs with equal
      · exact equal ▸ known
      · rfl
  | none =>
      rw [nearest, known]
      split_ifs with equal
      · simp [remembered?, equal, Path.same_self]
      · have apart : dir.same other = false := by
          simpa using fun same => equal (canonical.eq_of_same canonicalOther same)
        simp [remembered?, apart]

theorem rootOf_answer (file : Path) : (L.rootOf t file).answer =
    L.rootFrom (t.absolute file) (startOf t file) (L.governing t (startOf t file)) := by
  unfold rootOf governing
  dsimp only
  split <;> rfl

theorem rootOf_state (file : Path) : (L.rootOf t file).state =
    if L.settings.lookUp then (L.nearest t (startOf t file)).state else L := by
  unfold rootOf
  dsimp only
  split <;> rfl

theorem rootOf_unasked (file : Path) : (L.rootOf t file).state.unasked = L.unasked := by
  rw [rootOf_state]
  split
  · exact nearest_unasked _
  · rfl

theorem settings_nearest (dir : Path) : (L.nearest t dir).state.settings = L.settings :=
  settings_eq_of_unasked (nearest_unasked dir)

theorem settings_rootOf (file : Path) : (L.rootOf t file).state.settings = L.settings :=
  settings_eq_of_unasked (rootOf_unasked file)

/-- A file has the same root under its absolute path. -/
theorem rootOf_absolute (rooted : t.here.isAbsolute = true) (file : Path) :
    L.rootOf t (t.absolute file) = L.rootOf t file := by
  unfold rootOf
  rw [FileTree.absolute_absolute rooted]

theorem nearest_of_truthful (truthful : L.Truthful t) {dir : Path} (canonical : dir.Canonical) :
    (L.nearest t dir).answer = t.nearest? dir L.settings.configName ∧
      (L.nearest t dir).state.Truthful t := by
  have answer : (L.nearest t dir).answer = t.nearest? dir L.settings.configName := by
    rw [nearest_answer]
    cases known : L.remembered? dir with
    | none => rfl
    | some found => exact truthful dir found canonical known
  refine ⟨answer, ?_⟩
  intro other found canonicalOther remembered
  rw [remembered?_nearest canonical canonicalOther] at remembered
  rw [settings_nearest]
  split_ifs at remembered with equal
  · rw [← equal, ← answer, ← Option.some.inj remembered]
  · exact truthful other found canonicalOther remembered

theorem governing_of_truthful (truthful : L.Truthful t) {dir : Path} (canonical : dir.Canonical) :
    L.governing t dir =
      if L.settings.lookUp then t.nearest? dir L.settings.configName else none := by
  rw [governing, (nearest_of_truthful truthful canonical).1]

/-- A truthful memory is not seen in the root of any file. -/
theorem rootOf_of_truthful (rooted : t.here.isAbsolute = true) (truthful : L.Truthful t)
    (file : Path) :
    (L.rootOf t file).answer = (L.unasked.rootOf t file).answer ∧
      (L.rootOf t file).state.Truthful t ∧ (L.rootOf t file).state.unasked = L.unasked := by
  have canonical := canonical_startOf rooted file
  refine ⟨?_, ?_, rootOf_unasked file⟩
  · rw [rootOf_answer, rootOf_answer, governing_of_truthful truthful canonical,
      governing_of_truthful (truthful_of_found rfl) canonical]
    rfl
  · rw [rootOf_state]
    split
    · exact (nearest_of_truthful truthful canonical).2
    · exact truthful

end Locator

/-! ### Roots with one spelling -/

namespace Root

/-- A root as a locator with the given descriptor name gives it. -/
def Located (name : String) : Root → Prop
  | .descriptor p => ∃ dir : Path, dir.Canonical ∧ p = dir.child name
  | .fallback dir => dir.Canonical

theorem Located.eq_of_same {name : String} {r s : Root} (hr : r.Located name)
    (hs : s.Located name) (h : r.same s = true) : r = s := by
  cases r with
  | descriptor p =>
      cases s with
      | descriptor q =>
          obtain ⟨dir, canonical, rfl⟩ := hr
          obtain ⟨other, canonicalOther, rfl⟩ := hs
          rw [canonical.child_eq_of_same canonicalOther h]
      | fallback q => simp [same] at h
  | fallback p =>
      cases s with
      | descriptor q => simp [same] at h
      | fallback q => rw [Path.Canonical.eq_of_same hr hs h]

end Root

namespace Locator

variable {t : FileTree} {L : Locator}

theorem exists_child_of_nearest? {dir p : Path} {name : String} (canonical : dir.Canonical)
    (found : t.nearest? dir name = some p) :
    ∃ above : Path, above.Canonical ∧ p = above.child name := by
  obtain ⟨above, member, rfl⟩ := List.mem_map.mp (List.mem_of_find?_eq_some found)
  exact ⟨above, canonical.of_mem_ancestors member, rfl⟩

theorem located_rootFrom (context : L.context.Canonical) {dir : Path} (canonical : dir.Canonical)
    (file : Path) {found : Option Path} {name : String}
    (child : ∀ p, found = some p → ∃ above : Path, above.Canonical ∧ p = above.child name) :
    (L.rootFrom file dir found).Located name := by
  cases found with
  | none =>
      rw [rootFrom]
      split
      · exact context
      · exact canonical
  | some p => exact child p rfl

theorem located_rootOf (rooted : t.here.isAbsolute = true) (truthful : L.Truthful t)
    (context : L.context.Canonical) (file : Path) :
    (L.rootOf t file).answer.Located L.settings.configName := by
  have canonical := canonical_startOf rooted file
  rw [rootOf_answer, governing_of_truthful truthful canonical]
  apply located_rootFrom context canonical
  intro p found
  split at found
  · exact exists_child_of_nearest? canonical found
  · cases found

end Locator

/-! ### The nodes of roots -/

def Node.contents (node : Node α) : NodeContents α := ⟨node.options, node.analyzer⟩

namespace NodeTable

/-- Every node found for a root in `roots` consists of what `made` gives for that root. -/
def Truthful (roots : Root → Prop) (made : Root → Outcome ε (NodeContents α)) (R : NodeTable α) :
    Prop :=
  ∀ root slot node, roots root → R.slot? root = some slot → slot.node = some node →
    made root = .ok node.contents

theorem truthful_empty (roots : Root → Prop) (made : Root → Outcome ε (NodeContents α)) :
    (empty : NodeTable α).Truthful roots made := by
  intro root slot node _ found
  simp [slot?, empty] at found

variable {roots : Root → Prop} {made : Root → Outcome ε (NodeContents α)} {R : NodeTable α}

theorem Truthful.withSlot (h : R.Truthful roots made) {root : Root} {slot : RootSlot α}
    (apart : ∀ r, roots r → root.same r = true → r = root)
    (good : ∀ node, slot.node = some node → made root = .ok node.contents) :
    (R.withSlot root slot).Truthful roots made := by
  intro r s node inside found has
  rw [slot?_withSlot] at found
  cases same : root.same r with
  | true =>
      rw [same, if_pos rfl, Option.some.injEq] at found
      rw [apart r inside same]
      exact good node (found ▸ has)
  | false =>
      rw [same, if_neg Bool.false_ne_true] at found
      exact h r s node inside found has

theorem getD_slot?_node {R : NodeTable α} {root : Root} {node : Node α}
    (h : ((R.slot? root).getD {}).node = some node) :
    ∃ slot, R.slot? root = some slot ∧ slot.node = some node := by
  cases found : R.slot? root with
  | none => simp [found] at h
  | some slot => exact ⟨slot, rfl, by simpa [found] using h⟩

/-- On a truthful table fetching gives what making afresh gives, and leaves a truthful table. -/
theorem fetch_of_truthful (h : R.Truthful roots made) {root : Root} (inside : roots root)
    (apart : ∀ r, roots r → root.same r = true → r = root)
    (make : τ → Turn τ (Outcome ε (NodeContents α))) (s : τ) (same : (make s).answer = made root) :
    (R.fetch root make s).answer.map Node.contents = made root ∧
      (R.fetch root make s).state.1.Truthful roots made := by
  cases has : ((R.slot? root).getD {}).node with
  | some node =>
      obtain ⟨slot, found, there⟩ := getD_slot?_node has
      simp only [fetch, has]
      exact ⟨(h root slot node inside found there).symm, h⟩
  | none =>
      have unmade (slot : RootSlot α) (bare : slot.node = none) :
          (R.withSlot root slot).Truthful roots made :=
        h.withSlot apart fun node some => by simp [bare] at some
      cases result : (make s).answer with
      | ok parts =>
          simp only [fetch, has, result]
          refine ⟨by rw [← same, result]; rfl, h.withSlot apart fun node new => ?_⟩
          rw [← same, result, ← Option.some.inj new]
          rfl
      | failed e =>
          simp only [fetch, has, result]
          exact ⟨by rw [← same, result]; rfl, unmade _ has⟩
      | crashed =>
          simp only [fetch, has, result]
          exact ⟨by rw [← same, result]; rfl, unmade _ rfl⟩

end NodeTable

end RootedBuild
