import RootedBuild.CommandLine.Reach
import RootedBuild.Service.Conversation

/-!
The program. It finds the files that its command may look up, and shows what the command shows on
them. It starts no other program, so to it no language service is installed: a build reads its files
and descriptors, and then reports of each file that its service could not be started.
-/
namespace RootedBuild.CommandLine

/-- A service that is never started. -/
def idleHost : Service.Host Unit := ⟨(), fun s _ _ => (s, {})⟩

def idleEngine (program : String) (_ : List String) :
    Engine (List (Service.Conversation Unit)) Nat :=
  Service.engine ⟨program, false⟩ idleHost

/-- How the system says that something is a directory. -/
def isDirectoryCode : UInt32 := 21

/-- Adds what stands at a path to a tree. -/
def look (t : FileTree) (p : Path) : IO FileTree := do
  match ← (IO.FS.readBinFile p.text).toBaseIO with
  | .ok bytes => return t.write p bytes.toList
  | .error (.inappropriateType _ code _) =>
    return if code = isDirectoryCode then t.makeDirectory p else t
  | .error _ => return t

/-- Looks at all that a command may reach, in rounds, until no round finds a path that is new. -/
partial def explore (c : Command) (known : List Path) (t : FileTree) : IO FileTree := do
  let fresh := (c.reach t known).filter fun p => !known.contains p
  if fresh.isEmpty then return t
  explore c (known ++ fresh) (← fresh.foldlM look t)

def exploreFor (args : List String) (t : FileTree) : IO FileTree :=
  match read args with
  | .ok i => explore i.command [] t
  | .error _ => return t

/-- Runs the program in the directory it was started from. -/
def program (args : List String) : IO UInt32 := do
  let here ← IO.currentDir
  let t ← exploreFor args ⟨[], ⟨here.toString⟩⟩
  let shown := match run idleEngine [] t args with
    | .ok shown => shown
    | .error f => f.shown
  IO.print shown.out
  IO.eprint shown.err
  return shown.exit.toUInt32

end RootedBuild.CommandLine

def main (args : List String) : IO UInt32 := RootedBuild.CommandLine.program args
