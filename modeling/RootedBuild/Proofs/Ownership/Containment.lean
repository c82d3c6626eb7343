import RootedBuild.Proofs.Ownership.Nearest
import RootedBuild.Proofs.Path.Inside

/-!
Containment as it is decided and as it is shown. Whether a path lies inside a directory and how it
is shown from there are found in two ways, and the two agree for every pair of absolute paths. So a
file without a descriptor belongs to the default root of the build context exactly if the paths of
its diagnostics do not lead upwards. The path of the directory right above the context is `..` alone,
with no slash behind it; it counts as one that leads upwards.
-/
namespace RootedBuild

open RootedBuild.Path

namespace Path

variable {dir p q : Path}

/-- Only what cleaning leaves of a path counts. -/
theorem isInside_congr (same : p.clean = q.clean) : dir.isInside p = dir.isInside q := by
  rw [isInside, isInside, same]

end Path

namespace Locator

variable {t : FileTree} {L : Locator} {context file : Path}

/-- A file without a descriptor belongs to the default root of the context or of its directory. -/
theorem rootOf_answer_of_fallback (free : (L.rootOf t file).answer.descriptor? = none) :
    (L.rootOf t file).answer =
      if L.context.isInside (t.absolute file) then .fallback L.context
      else .fallback (startOf t file) := by
  rw [rootOf_answer] at free ⊢
  cases found : L.governing t (startOf t file) with
  | none => rfl
  | some p =>
      rw [found] at free
      cases free

/-- Its own directory is not the context when it lies outside. -/
theorem rootOf_eq_fallback_iff (rooted : t.here.isAbsolute = true)
    (placed : L.context = t.absolute context)
    (free : (L.rootOf t file).answer.descriptor? = none) :
    (L.rootOf t file).answer = .fallback L.context ↔
      L.context.isInside (t.absolute file) = true := by
  rw [rootOf_answer_of_fallback free]
  split
  · rename_i inside
    exact iff_of_true rfl inside
  · rename_i outside
    refine iff_of_false ?_ outside
    intro same
    have start := startsWith_startOf rooted file
    rw [Root.fallback.inj same] at start
    apply outside
    rw [isInside, placed, (FileTree.canonical_absolute rooted context).clean,
      (FileTree.canonical_absolute rooted file).clean, ← placed]
    exact start

/-- Containment and display agree. A path lies inside a directory exactly if the path shown for it
does not start upwards, so a file without a descriptor is of the context's default root exactly if
no path of its diagnostics does. -/
theorem isInside_agrees_with_shown :
    (∀ dir p : Path, dir.isAbsolute = true → p.isAbsolute = true →
      (dir.isInside p = true ↔ (⟨dir.relativeTo p⟩ : Path).parts.head? ≠ some .up)) ∧
    ∀ (t : FileTree) (L : Locator) (context file : Path), t.here.isAbsolute = true →
      L.context = t.absolute context → (L.rootOf t file).answer.descriptor? = none →
        ∀ (d : Diagnostic) (l : Location), d.location = some l → l.file.isAbsolute = true →
          l.file.clean = t.absolute file →
            ((L.rootOf t file).answer = .fallback L.context ↔
              ¬StartsUpwards (d.shownPath L.context)) ∧
            (¬l.file.Below L.context →
              ((L.rootOf t file).answer = .fallback L.context ↔
                ¬∃ rest, d.shownPath L.context = "../" ++ rest)) := by
  constructor
  · intro dir p hd hp
    rw [isInside_iff_not_startsUpwards hd hp, startsUpwards_iff]
  · intro t L context file rooted placed free d l located absolute here
    have whole : L.context.isAbsolute = true :=
      placed ▸ (FileTree.canonical_absolute rooted context).isAbsolute
    have cleaned : (t.absolute file).clean = l.file.clean := by
      rw [here, (FileTree.canonical_absolute rooted file).clean]
    have shown : d.shownPath L.context = L.context.relativeTo l.file := by
      rw [Diagnostic.shownPath, located]
    have agree : (L.rootOf t file).answer = .fallback L.context ↔
        ¬StartsUpwards (L.context.relativeTo l.file) := by
      rw [rootOf_eq_fallback_iff rooted placed free, isInside_congr cleaned,
        isInside_iff_not_startsUpwards whole absolute]
    rw [shown]
    refine ⟨agree, fun beside => ?_⟩
    have longer : L.context.relativeTo l.file ≠ ".." := fun up =>
      beside (below_of_relativeTo_eq_up whole absolute up)
    rw [agree, StartsUpwards, or_iff_right longer]

/-- A place in a file, for a diagnostic that says nothing else. -/
def noted (file : String) : Diagnostic := ⟨some ⟨⟨file⟩, 1, 1⟩, 0, "", .semantic⟩

/-- The context itself in another spelling; a file next to it, in a directory whose name starts like
that of the context; and one inside whose own name starts with two dots. -/
theorem isInside_agrees_with_shown_neighbours :
    ((⟨"/apple"⟩ : Path).isInside ⟨"/applet/../apple/"⟩ = true ∧
      (⟨(⟨"/apple"⟩ : Path).relativeTo ⟨"/applet/../apple/"⟩⟩ : Path).parts.head? ≠ some .up) ∧
    (((new neighbours ⟨"apple"⟩ {}).rootOf neighbours ⟨"applet/c.ts"⟩).answer =
        .fallback ⟨"/applet"⟩ ∧
      ∃ rest, (noted "/applet/./c.ts").shownPath ⟨"/apple"⟩ = "../" ++ rest) ∧
    ((new neighbours ⟨"apple"⟩ {}).rootOf neighbours ⟨"apple/..d"⟩).answer = .fallback ⟨"/apple"⟩ ∧
      ¬StartsUpwards ((noted "/apple/..d").shownPath ⟨"/apple"⟩) := by
  obtain ⟨contains, owns⟩ := isInside_agrees_with_shown
  have itself : (⟨"/apple"⟩ : Path).isInside ⟨"/applet/../apple/"⟩ = true := by decide +kernel
  have context : (new neighbours ⟨"apple"⟩ {}).context = ⟨"/apple"⟩ := by decide +kernel
  have outside : ((new neighbours ⟨"apple"⟩ {}).rootOf neighbours ⟨"applet/c.ts"⟩).answer =
      .fallback ⟨"/applet"⟩ := by decide +kernel
  have inside : ((new neighbours ⟨"apple"⟩ {}).rootOf neighbours ⟨"apple/..d"⟩).answer =
      .fallback ⟨"/apple"⟩ := by decide +kernel
  have shows := owns neighbours (new neighbours ⟨"apple"⟩ {}) ⟨"apple"⟩ ⟨"applet/c.ts"⟩
    (by decide) rfl (by rw [outside]; rfl) (noted "/applet/./c.ts") _ rfl (by decide)
    (by decide +kernel)
  have shows' := owns neighbours (new neighbours ⟨"apple"⟩ {}) ⟨"apple"⟩ ⟨"apple/..d"⟩
    (by decide) rfl (by rw [inside]; rfl) (noted "/apple/..d") _ rfl (by decide)
    (by decide +kernel)
  rw [outside, context] at shows
  rw [inside, context] at shows'
  have beside : ¬(⟨"/applet/./c.ts"⟩ : Path).Below ⟨"/apple"⟩ := fun below =>
    absurd below.inside (by decide +kernel)
  have upwards : ∃ rest, (noted "/applet/./c.ts").shownPath ⟨"/apple"⟩ = "../" ++ rest := by
    by_contra level
    exact absurd ((shows.2 beside).mpr level) (by decide)
  exact ⟨⟨itself, (contains _ _ (by decide) (by decide)).mp itself⟩, ⟨outside, upwards⟩, inside,
    shows'.1.mp rfl⟩

end Locator

end RootedBuild
