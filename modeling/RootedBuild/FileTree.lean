import RootedBuild.Path.Relative
import RootedBuild.Text.Utf8

/-!
A tree of files, and the looking up of paths in it. Paths are walked piece by piece, so `a/../b`
needs a directory `a`; there are no links. Names, and the text of a path, may only be so long.
Nothing here is remembered between look-ups: what changes is the tree itself.
-/
namespace RootedBuild

/-- Why a file could not be read. -/
inductive FileFault where
  | missing
  | forbidden
  | throughFile
  | isDirectory
  | nameTooLong
  | nulInPath
  | notText (f : Text.Utf8Fault)
  deriving DecidableEq, Repr

def FileFault.message : FileFault → String
  | .missing => "No such file or directory (os error 2)"
  | .forbidden => "Permission denied (os error 13)"
  | .throughFile => "Not a directory (os error 20)"
  | .isDirectory => "Is a directory (os error 21)"
  | .nameTooLong => "File name too long (os error 36)"
  | .nulInPath => "file name contained an unexpected NUL byte"
  | .notText f => f.message

inductive Entry where
  | file (bytes : List UInt8)
  | directory
  deriving DecidableEq

/-- The names that lead from the root to a place in the tree. -/
abbrev Place := List String

/-- Entries by place; the first entry of a place counts. The root is a directory without an entry.
Relative paths are meant relative to `here`. -/
structure FileTree where
  entries : List (Place × Entry)
  here : Path

namespace FileTree

def entry? (t : FileTree) (place : Place) : Option Entry :=
  match place with
  | [] => some .directory
  | place => (t.entries.find? fun e => e.1 == place).map Prod.snd

/-! ### Walking -/

def longestName : Nat := 255

def longestPath : Nat := 4095

/-- The entry of one more name under a directory, where `last` says that the path ends there. -/
def enter (t : FileTree) (place : Place) (name : String) (last : Bool) :
    Except FileFault (Place × Entry) :=
  if longestName < name.utf8ByteSize then .error .nameTooLong
  else
    match t.entry? (place ++ [name]) with
    | none => .error .missing
    | some .directory => .ok (place ++ [name], .directory)
    | some (.file bytes) =>
      if last then .ok (place ++ [name], .file bytes) else .error .throughFile

/-- Walks the pieces of a path from a directory. -/
def walk (t : FileTree) (place : Place) : List (List Char) → Except FileFault Entry
  | [] => .ok .directory
  | piece :: rest =>
    if piece == [] || piece == ['.'] then t.walk place rest
    else if piece == ['.', '.'] then t.walk place.dropLast rest
    else
      match t.enter place (String.ofList piece) rest.isEmpty with
      | .error f => .error f
      | .ok (_, .file bytes) => .ok (.file bytes)
      | .ok (place, .directory) => t.walk place rest

/-- The names of a clean absolute path. -/
def placeOf (p : Path) : Place :=
  p.parts.filterMap fun
    | .name s => some s
    | _ => none

def lookUp (t : FileTree) (p : Path) : Except FileFault Entry :=
  if p.text.toList.contains '\x00' then .error .nulInPath
  else if p.text.isEmpty then .error .missing
  else if longestPath < p.text.utf8ByteSize then .error .nameTooLong
  else t.walk (if p.isAbsolute then [] else placeOf t.here.clean) p.pieces

/-! ### Asking -/

/-- The absolute, clean spelling of a path. -/
def absolute (t : FileTree) (p : Path) : Path := t.here.within p

def isFile (t : FileTree) (p : Path) : Bool :=
  match t.lookUp p with
  | .ok (.file _) => true
  | _ => false

def read (t : FileTree) (p : Path) : Except FileFault (List UInt8) :=
  match t.lookUp p with
  | .ok (.file bytes) => .ok bytes
  | .ok .directory => .error .isDirectory
  | .error f => .error f

/-- The text of a file, less a byte order mark at its start. -/
def readText (t : FileTree) (p : Path) : Except FileFault String :=
  match t.read p with
  | .error f => .error f
  | .ok bytes => (Text.decodeUtf8 (Text.dropByteOrderMark bytes)).mapError .notText

/-- The first file of the given name in `start` or above it. -/
def nearest? (t : FileTree) (start : Path) (name : String) : Option Path :=
  (start.ancestors.map (·.child name)).find? t.isFile

/-! ### Changing -/

/-- Adds directories for all places above one. -/
def withParents (t : FileTree) (place : Place) : FileTree :=
  let above := (List.range place.length).filterMap fun n =>
    let upper := place.take n
    if (t.entry? upper).isSome then none else some (upper, Entry.directory)
  { t with entries := above ++ t.entries }

def put (t : FileTree) (place : Place) (e : Entry) : FileTree :=
  let t := t.withParents place
  { t with entries := (place, e) :: t.entries.filter fun old => old.1 ≠ place }

/-- Takes away a file, or a directory with all it holds. -/
def drop (t : FileTree) (place : Place) : FileTree :=
  { t with entries := t.entries.filter fun old => !place.isPrefixOf old.1 }

def write (t : FileTree) (p : Path) (bytes : List UInt8) : FileTree :=
  t.put (placeOf (t.absolute p)) (.file bytes)

def makeDirectory (t : FileTree) (p : Path) : FileTree :=
  let place := placeOf (t.absolute p)
  match t.entry? place with
  | some .directory => t
  | _ => t.put place .directory

def remove (t : FileTree) (p : Path) : FileTree := t.drop (placeOf (t.absolute p))

end FileTree

end RootedBuild
