import RootedBuild.Json.Value
import RootedBuild.Path.Basic

/-!
Compiler options: a bag of JSON values by key that is handed on to the analyzer. A few keys have a
meaning here. Options are laid over one another key by key, and some are forced so that the
transpiled code comes back in memory.
-/
namespace RootedBuild
open Json

structure Options where
  members : Members

namespace Options

def empty : Options := ⟨[]⟩

/-- Lenient options, under which any file transpiles. -/
def lenient : Options :=
  ⟨Members.ofPairs
    [("target", .text "ES2017"), ("module", .text "ESNext"), ("moduleResolution", .text "node"),
      ("jsx", .text "react"), ("esModuleInterop", .bool true), ("resolveJsonModule", .bool true)]⟩

def get? (o : Options) (key : String) : Option Value := o.members.get? key

def bool? (o : Options) (key : String) : Option Bool := (o.get? key).bind Value.bool?

def text? (o : Options) (key : String) : Option String := (o.get? key).bind Value.text?

def baseUrl? (o : Options) : Option Path := (o.text? "baseUrl").map Path.mk

/-- The key that remembers which directory `paths` was declared in. -/
def pathsBaseKey : String := "pathsBasePath"

/-- The directory that `paths` mappings start from. -/
def pathsBase? (o : Options) : Option Path :=
  o.baseUrl?.or ((o.text? pathsBaseKey).map Path.mk)

def paths? (o : Options) : Option Members := (o.get? "paths").bind Value.record?

/-- The packages whose global types are seen; elements that are no text do not count. -/
def types? (o : Options) : Option (List String) :=
  ((o.get? "types").bind Value.list?).map (·.filterMap Value.text?)

def merge (o : Options) (upper : Members) : Options := ⟨o.members.overlay upper⟩

def forcedOff : List String :=
  ["noEmit", "declaration", "declarationMap", "emitDeclarationOnly", "composite", "incremental"]

def removed : List String := ["outDir", "outFile", "out", "declarationDir", "tsBuildInfoFile"]

/-- The options under which code is handed back in memory and nothing else is written. -/
def inMemory (o : Options) : Options :=
  let off := forcedOff.foldl (fun ms key => Members.put ms key (.bool false)) o.members
  ⟨removed.foldl Members.erase off⟩

def same (o p : Options) : Bool := sameMembers o.members p.members

end Options

end RootedBuild
