import RootedBuild.Path.Relative

/-!
Configuration roots. A root is marked by a descriptor file, or it is the default root of a directory
that no descriptor governs. Roots are compared as paths are, by their parts; a default root never
equals a root with a descriptor, even in one directory.
-/
namespace RootedBuild

inductive Root where
  | descriptor (path : Path)
  | fallback (directory : Path)
  deriving DecidableEq, Repr

namespace Root

def same : Root → Root → Bool
  | .descriptor p, .descriptor q => p.same q
  | .fallback p, .fallback q => p.same q
  | _, _ => false

def directory : Root → Path
  | .descriptor p => p.parent?.getD p
  | .fallback dir => dir

def descriptor? : Root → Option Path
  | .descriptor p => some p
  | .fallback _ => none

def isFallback : Root → Bool
  | .descriptor _ => false
  | .fallback _ => true

def label : Root → String
  | .descriptor p => p.text
  | .fallback dir => "default root at " ++ dir.text

theorem same_comm (r s : Root) : r.same s = s.same r := by
  cases r <;> cases s <;> simp [same, Path.same_comm]

theorem same_congr {r s : Root} (h : r.same s = true) (q : Root) : r.same q = s.same q := by
  cases r <;> cases s <;> cases q <;> simp_all [same] <;> exact Path.same_congr h _

theorem same_self (r : Root) : r.same r = true := by cases r <;> exact Path.same_self _

end Root

end RootedBuild
