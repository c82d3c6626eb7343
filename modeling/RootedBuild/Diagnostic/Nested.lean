import RootedBuild.Json.Fields

/-!
Messages with details below them, to any depth. Flattened, each message stands on a line of its own,
two spaces further in than the message it belongs to, and before its own details.
-/
namespace RootedBuild

inductive NestedMessage where
  | node (message : String) (details : List NestedMessage)

namespace NestedMessage

def indent (depth : Nat) : String := String.ofList (List.replicate (2 * depth) ' ')

mutual

/-- The lines of a message that stands at the given depth. -/
def lines (depth : Nat) : NestedMessage → List String
  | .node message details => (indent depth ++ message) :: linesOfAll (depth + 1) details

def linesOfAll (depth : Nat) : List NestedMessage → List String
  | [] => []
  | m :: ms => m.lines depth ++ linesOfAll depth ms

end

def flatten (m : NestedMessage) : String := "\n".intercalate (m.lines 0)

/-! ### Reading -/

open Json

/-- What has been read of a message; a field may be written only once. -/
structure Partial where
  message : Option String := none
  details : Option (List NestedMessage) := none

def Partial.finish? (p : Partial) : Option NestedMessage :=
  p.message.map fun message => .node message (p.details.getD [])

mutual

/-- A message is written as an object, or as a list of its text and perhaps its details. -/
def ofWritten? : Written → Option NestedMessage
  | .record members => ofMembers? {} members
  | .list [.text (.ok message)] => some (.node message [])
  | .list [.text (.ok message), .list details] => (allOf? details).map (.node message)
  | _ => none

def allOf? : List Written → Option (List NestedMessage)
  | [] => some []
  | w :: ws =>
    match ofWritten? w, allOf? ws with
    | some m, some ms => some (m :: ms)
    | _, _ => none

def detailsOf? : Written → Option (List NestedMessage)
  | .list items => allOf? items
  | _ => none

def ofMembers? (p : Partial) : List (Except Fault String × Written) → Option NestedMessage
  | [] => p.finish?
  | (.error _, _) :: _ => none
  | (.ok key, w) :: rest =>
    if key = "messageText" then
      match p.message, w.text? with
      | none, some message => ofMembers? { p with message := some message } rest
      | _, _ => none
    else if key = "next" then
      match p.details, detailsOf? w with
      | none, some details => ofMembers? { p with details := some details } rest
      | _, _ => none
    else ofMembers? p rest

end

end NestedMessage

end RootedBuild
