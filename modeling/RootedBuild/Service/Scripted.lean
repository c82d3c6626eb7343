import RootedBuild.Script
import RootedBuild.Service.Conversation

/-!
A language service that answers from a script. Every started service follows the script from its
beginning.
-/
namespace RootedBuild.Service

/-- A line of text as a service writes it. -/
def Emission.ofLine (line : String) : Emission := { bytes := Text.encodeUtf8 (line ++ "\n") }

def scriptedHost (root : Path) (lists : List (String × List Emission)) :
    Host (Script Emission) where
  start := ⟨lists, []⟩
  respond s file _ :=
    let (emission, s) := s.next (Script.nameOf root file)
    (s, emission.getD {})

end RootedBuild.Service
