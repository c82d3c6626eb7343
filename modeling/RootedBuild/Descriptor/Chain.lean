import RootedBuild.Descriptor.Bases
import RootedBuild.Descriptor.Basic
import RootedBuild.Event

/-!
The options that a descriptor stands for, together with all it extends. Bases are read first and
from left to right, each laid over what came before, and the descriptor's own options come last.
Along the way the descriptors being read form a chain, on which no path may stand twice; a base that
two others share is read for each of them. The first problem met ends the reading.
-/
namespace RootedBuild
open Json

/-- Why a descriptor could not be understood, and which one. -/
inductive DescriptorReason where
  | unreadable (f : FileFault)
  | malformed (f : Descriptor.TextFault)
  | baseMissing (name : String)
  | circular (chain : List Path)
  deriving DecidableEq, Repr

structure DescriptorFault where
  path : Path
  reason : DescriptorReason
  deriving DecidableEq, Repr

def DescriptorReason.message : DescriptorReason → String
  | .unreadable f => f.message
  | .malformed f => f.message
  | .baseMissing name => "File '" ++ name ++ "' not found."
  | .circular chain =>
    "Circularity detected while resolving configuration: " ++
      " -> ".intercalate (chain.map Path.text)

def DescriptorFault.message (f : DescriptorFault) : String :=
  "Could not parse compiler configuration at " ++ f.path.text ++ ": " ++ f.reason.message

namespace Descriptor

abbrev Reading := Told (Except DescriptorFault Options)

def load (t : FileTree) (p : Path) : Except DescriptorFault Descriptor :=
  match t.readText p with
  | .error f => .error ⟨p, .unreadable f⟩
  | .ok text => (ofText text).mapError fun f => ⟨p, .malformed f⟩

/-- The directory that a descriptor speaks from. -/
def home (p : Path) : Path := p.parent?.getD ⟨"/"⟩

/-- Lays the options of bases over `options`, one after the other. -/
def layBases (t : FileTree) (read : Path → Reading) (p : Path) :
    List String → Options → Reading
  | [], options => ⟨[], .ok options⟩
  | name :: names, options =>
    match base? t (home p) name with
    | none => ⟨[], .error ⟨p, .baseMissing name⟩⟩
    | some base =>
      let first := read base
      let events := .descriptorExtends p base :: first.events
      match first.answer with
      | .error f => ⟨events, .error f⟩
      | .ok inherited =>
        let rest := layBases t read p names (options.merge inherited.members)
        ⟨events ++ rest.events, rest.answer⟩

def layOwn (p : Path) (d : Descriptor) (options : Options) : Options :=
  match d.options with
  | some declared => options.merge (anchored (home p) declared)
  | none => options

/-- Reads a descriptor under the chain of those that led to it. -/
def readChain (t : FileTree) : Nat → List Path → Path → Reading
  | 0, chain, p => ⟨[], .error ⟨p, .circular (chain ++ [p])⟩⟩
  | fuel + 1, chain, p =>
    if chain.any (·.same p) then ⟨[], .error ⟨p, .circular (chain ++ [p])⟩⟩
    else
      match load t p with
      | .error f => ⟨[], .error f⟩
      | .ok d =>
        let bases := layBases t (readChain t fuel (chain ++ [p])) p d.bases .empty
        ⟨bases.events, bases.answer.map (layOwn p d)⟩

/-- More than there are paths short enough to be read: a chain as long as this holds one twice. -/
def chainBound : Nat := Nat.pow 256 (FileTree.longestPath + 1)

/-- The options that the descriptor at `p` stands for. -/
def readOptionsAt (t : FileTree) (p : Path) : Reading := readChain t chainBound [] (t.absolute p)

end Descriptor

end RootedBuild
