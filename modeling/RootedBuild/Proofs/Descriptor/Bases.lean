import RootedBuild.Descriptor.Chain
import RootedBuild.Proofs.Path.Tidy

/-!
The spelling of paths that names to extend stand for. A name that is a path gives a path without any
step upwards, since it is cleaned. A package name is put behind a directory as it is written, so its
own steps upwards, and nothing else, bring one in.
-/
namespace RootedBuild.Descriptor
open RootedBuild.Path

/-- A package name with a step upwards in it. -/
def StepsUp (name : String) : Prop :=
  isPathName name = false ∧ .up ∈ partsOf false (splitSlash name.toList)

theorem isAbsolute_of_packageName {name : String} (package : isPathName name = false) :
    (⟨name⟩ : Path).isAbsolute = false := by
  simp only [isPathName, Bool.or_eq_false_iff] at package
  exact package.2

theorem isAbsolute_base? {t : FileTree} {dir base : Path} {name : String}
    (found : base? t dir name = some base) (h : dir.isAbsolute = true) :
    base.isAbsolute = true := by
  have member := List.mem_of_find?_eq_some found
  have spelled {p : Path} (absolute : p.isAbsolute = true) {q : Path} (inside : q ∈ spellings p) :
      q.isAbsolute = true := by
    simp only [spellings, List.mem_cons, List.not_mem_nil, or_false] at inside
    rcases inside with rfl | rfl
    · exact absolute
    · exact isAbsolute_append absolute _
  unfold candidates at member
  split at member
  · exact spelled (canonical_within h).isAbsolute member
  · obtain ⟨above, inside, package⟩ := List.mem_flatMap.mp member
    have behind : ((above.child "node_modules").child name).isAbsolute = true :=
      isAbsolute_join (isAbsolute_join (of_mem_ancestors h inside).1)
    rcases List.mem_append.mp package with direct | last
    · exact spelled behind direct
    · rw [List.mem_singleton.mp last]
      exact isAbsolute_join behind

/-- Only a package name that steps upwards leads to a path that does. -/
theorem tidy_base? {t : FileTree} {dir base : Path} {name : String}
    (found : base? t dir name = some base) (h : dir.Tidy) (plain : ¬StepsUp name) : base.Tidy := by
  have member := List.mem_of_find?_eq_some found
  have spelled {p : Path} (tidy : p.Tidy) {q : Path} (inside : q ∈ spellings p) : q.Tidy := by
    simp only [spellings, List.mem_cons, List.not_mem_nil, or_false] at inside
    rcases inside with rfl | rfl
    · exact tidy
    · exact tidy.append_json
  unfold candidates at member
  split at member
  · exact spelled (canonical_within h.absolute).tidy member
  · rename_i package
    have package := Bool.eq_false_iff.mpr package
    obtain ⟨above, inside, options⟩ := List.mem_flatMap.mp member
    have modules : (above.child "node_modules").Tidy :=
      (h.of_mem_ancestors inside).child (by decide) (by decide)
    have behind : ((above.child "node_modules").child name).Tidy :=
      modules.child (isAbsolute_of_packageName package) fun step => plain ⟨package, step⟩
    rcases List.mem_append.mp options with direct | last
    · exact spelled behind direct
    · rw [List.mem_singleton.mp last]
      exact behind.child (by decide) (by decide)

theorem home_of_parent (p : Path) : home p ∈ p.ancestors ∨ home p = ⟨"/"⟩ := by
  unfold home
  cases parent : p.parent? with
  | none => exact .inr rfl
  | some dir => exact .inl (List.mem_cons_of_mem p (List.mem_of_mem_head? parent))

theorem isAbsolute_home {p : Path} (h : p.isAbsolute = true) : (home p).isAbsolute = true := by
  rcases home_of_parent p with above | root
  · exact (of_mem_ancestors h above).1
  · rw [root]
    rfl

theorem tidy_home {p : Path} (h : p.Tidy) : (home p).Tidy := by
  rcases home_of_parent p with above | root
  · exact h.of_mem_ancestors above
  · rw [root]
    exact ⟨by decide, by decide⟩

end RootedBuild.Descriptor
