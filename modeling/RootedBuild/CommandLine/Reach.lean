import RootedBuild.CommandLine.Run

/-!
Which paths a command may look up. What it looks up next depends on what it has found, so the paths
are those that follow from a tree of the files known so far; when all of them are known as well, the
rest of the file system has no say in what the command shows. A path that leads nowhere is reached
like any other, since its absence counts too.
-/
namespace RootedBuild.CommandLine

namespace Command

def files : Command → List Path
  | .build c => c.files.map Path.mk
  | .config c => [⟨c.file⟩]

def context : Command → Path
  | .build c => ⟨c.context⟩
  | .config c => ⟨c.context⟩

def configName : Command → String
  | .build c => c.configName
  | .config c => c.configName

/-- The files of a command, its context, and every descriptor that might govern one of the files. -/
def starts (c : Command) (t : FileTree) : List Path :=
  let files := c.files.map t.absolute
  t.absolute c.context :: files ++
    files.flatMap fun file => file.parents.map (·.child c.configName)

/-- What a file may extend, if it can be read as a descriptor. -/
def basesAt (t : FileTree) (p : Path) : List Path :=
  match Descriptor.load t p with
  | .ok d => d.bases.flatMap (Descriptor.candidates (Descriptor.home p))
  | .error _ => []

/-- The paths that follow from the ones already known, each with the directories above it. -/
def reach (c : Command) (t : FileTree) (known : List Path) : List Path :=
  ((c.starts t ++ known.flatMap (basesAt t)).flatMap Path.ancestors).eraseDups

end Command

end RootedBuild.CommandLine
