import RootedBuild.FileTree
import RootedBuild.Options

/-!
What a descriptor says about other files: which file a name to extend stands for, and what the paths
among its options mean. Both are meant from the directory of the descriptor that says so. A name
that starts with a dot and a slash, or is absolute, is a path; any other name is a package, looked
for in the `node_modules` of every directory above, by the path as it is spelled.
-/
namespace RootedBuild.Descriptor
open Json

/-- The name of a descriptor that is looked for when nothing else is said. -/
def defaultName : String := "tsconfig.json"

def isPathName (name : String) : Bool :=
  "./".isPrefixOf name || "../".isPrefixOf name || Path.isAbsolute ⟨name⟩

/-- A file, or that file with its extension left out. -/
def spellings (p : Path) : List Path := [p, p.append ".json"]

/-- What a package name may stand for below one directory. -/
def packageSpellings (name : String) (dir : Path) : List Path :=
  let p := (dir.child "node_modules").child name
  spellings p ++ [p.child defaultName]

/-- The files that `name` may stand for in a descriptor of the directory `dir`, the first choice
first. -/
def candidates (dir : Path) (name : String) : List Path :=
  if isPathName name then spellings (dir.within ⟨name⟩)
  else dir.ancestors.flatMap (packageSpellings name)

/-- The descriptor that `name` stands for in a descriptor of the directory `dir`. -/
def base? (t : FileTree) (dir : Path) (name : String) : Option Path :=
  (candidates dir name).find? t.isFile

def pathKeys : List String := ["baseUrl", "rootDir", "declarationDir", "outDir", "tsBuildInfoFile"]

def pathListKeys : List String := ["rootDirs", "typeRoots"]

def anchorText (dir : Path) : Value → Value
  | .text s => .text (dir.within ⟨s⟩).text
  | v => v

def anchorItems (dir : Path) : Value → Value
  | .list items => .list (items.map (anchorText dir))
  | v => v

/-- Applies `f` to the value of a key, if it has one. -/
def changeAt (f : Value → Value) (ms : Members) (key : String) : Members :=
  match ms.get? key with
  | some v => ms.put key (f v)
  | none => ms

/-- Declared options with their paths made absolute, and with the directory that `paths` starts
from. -/
def anchored (dir : Path) (declared : Members) : Members :=
  let single := pathKeys.foldl (changeAt (anchorText dir)) declared
  let lists := pathListKeys.foldl (changeAt (anchorItems dir)) single
  if lists.has "paths" then lists.put Options.pathsBaseKey (.text dir.text) else lists

end RootedBuild.Descriptor
