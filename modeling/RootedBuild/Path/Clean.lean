import RootedBuild.Path.Basic

/-!
The shortest spelling of a path with the same meaning, found without looking anything up: `.` goes,
`..` takes the name before it away, is lost at the root, and stays at the start of a relative path.
What remains of a relative path that loses all its parts is a dot.
-/
namespace RootedBuild.Path

/-- Puts one more part on a cleaned path, which is given in reverse. -/
def cleanStep (cleaned : List Part) (part : Part) : List Part :=
  match part with
  | .here => cleaned
  | .up =>
    match cleaned with
    | .root :: _ => cleaned
    | .name _ :: rest => rest
    | _ => .up :: cleaned
  | part => part :: cleaned

def cleanParts (parts : List Part) : List Part := (parts.foldl cleanStep []).reverse

/-- The text of cleaned parts. -/
def ofParts (parts : List Part) : Path :=
  match parts with
  | [] => ⟨"."⟩
  | .root :: rest => ofPieces true (rest.map fun part => part.text.toList)
  | parts => ofPieces false (parts.map fun part => part.text.toList)

def clean (p : Path) : Path := ofParts (cleanParts p.parts)

/-- The absolute, clean spelling of a path that is meant relative to `dir`. -/
def within (dir p : Path) : Path := (dir.join p).clean

end RootedBuild.Path
