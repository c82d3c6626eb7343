import RootedBuild.Path.Clean

/-!
How to name one path from another, and whether one lies inside another. Both first clean the paths,
and neither looks anything up.
-/
namespace RootedBuild.Path

/-- One step up for every part of a path. -/
def climb (parts : List Part) : List Part := parts.map fun _ => .up

/-- The parts that lead from `origin` to `target`. There is no way out of a path that starts with
`..`, for nobody knows the name it came from. -/
def difference : List Part → List Part → Option (List Part)
  | [], [] => some []
  | [], target => some target
  | _ :: origin, [] => some (.up :: climb origin)
  | o :: origin, t :: target =>
    if o = t then difference origin target
    else if o = .here then some (t :: target)
    else if o = .up then none
    else some (.up :: climb origin ++ t :: target)

/-- From a relative path no absolute one can be reached step by step, so it is given whole, and from
an absolute path no relative one. -/
def differenceOf (origin target : Path) : Option (List Part) :=
  if origin.isAbsolute == target.isAbsolute then difference origin.parts target.parts
  else if target.isAbsolute then some target.parts
  else none

/-- `target` as seen from the directory `origin`, with a slash between parts. -/
def relativeTo (origin target : Path) : String :=
  match differenceOf origin.clean target.clean with
  | some parts => "/".intercalate ((parts.filter (· ≠ .here)).map Part.text)
  | none => target.clean.text

def isInside (dir p : Path) : Bool := p.clean.startsWith dir.clean

end RootedBuild.Path
