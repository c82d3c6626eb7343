import RootedBuild.Failure

/-!
Which configuration root owns a file. The owner is the nearest descriptor at or above the file's
directory. A file that no descriptor governs belongs to the default root of the build context when
it lies inside, and to that of its own directory otherwise. What was found for a directory is kept,
so the owner of a file stays the same even when descriptors come and go.
-/
namespace RootedBuild
open Json

structure Settings where
  configName : String := Descriptor.defaultName
  /-- Without it every file belongs to a default root. -/
  lookUp : Bool := true
  overrides : Members := []

structure Locator where
  context : Path
  settings : Settings
  found : List (Path × Option Path) := []

namespace Locator

def new (t : FileTree) (context : Path) (settings : Settings) : Locator :=
  ⟨t.absolute context, settings, []⟩

def remembered? (L : Locator) (dir : Path) : Option (Option Path) :=
  (L.found.find? fun e => e.1.same dir).map Prod.snd

/-- The nearest descriptor at or above a directory, as it was when the directory was first asked
for. -/
def nearest (t : FileTree) (L : Locator) (dir : Path) : Turn Locator (Option Path) :=
  match L.remembered? dir with
  | some found => ⟨L, [], found⟩
  | none =>
    let found := t.nearest? dir L.settings.configName
    ⟨{ L with found := (dir, found) :: L.found },
      [.descriptorSought L.settings.configName dir found], found⟩

/-- The root of a file, given what was found for its directory. -/
def rootFrom (L : Locator) (file dir : Path) (found : Option Path) : Root :=
  match found with
  | some descriptor => .descriptor descriptor
  | none => if L.context.isInside file then .fallback L.context else .fallback dir

def rootOf (t : FileTree) (L : Locator) (file : Path) : Turn Locator Root :=
  let file := t.absolute file
  let dir := file.parent?.getD file
  if L.settings.lookUp then
    let near := L.nearest t dir
    ⟨near.state, near.events, L.rootFrom file dir near.answer⟩
  else ⟨L, [], L.rootFrom file dir none⟩

/-- The options a root starts from: those of its descriptor, or lenient ones. -/
def baseOptions (t : FileTree) (root : Root) : Descriptor.Reading :=
  match root.descriptor? with
  | some p => Descriptor.readOptionsAt t p
  | none => ⟨[], .ok .lenient⟩

/-- The options of a root's node: its own, the configured ones over them, the forced ones last. -/
def optionsOf (t : FileTree) (settings : Settings) (root : Root) : Descriptor.Reading :=
  let base := baseOptions t root
  ⟨base.events, base.answer.map fun o => (o.merge settings.overrides).inMemory⟩

end Locator

end RootedBuild
