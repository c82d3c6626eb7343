/-!
Looking for one text in another, both as lists of characters. Occurrences are taken from the left
and never overlap.
-/
namespace RootedBuild.Text

/-- The text before and after the first occurrence. -/
def splitOnce (needle : List Char) : List Char → Option (List Char × List Char)
  | [] => if needle.isEmpty then some ([], []) else none
  | c :: cs =>
    if needle.isPrefixOf (c :: cs) then some ([], (c :: cs).drop needle.length)
    else (splitOnce needle cs).map fun (before, after) => (c :: before, after)

/-- Counts occurrences; `skip` characters still belong to the last one. -/
def countFrom (needle : List Char) (skip : Nat) : List Char → Nat
  | [] => 0
  | c :: cs =>
    match skip with
    | skip + 1 => countFrom needle skip cs
    | 0 =>
      if needle.isPrefixOf (c :: cs) then countFrom needle (needle.length - 1) cs + 1
      else countFrom needle 0 cs

/-- How often a text that is not empty occurs. -/
def count (needle cs : List Char) : Nat := countFrom needle 0 cs

def removeFrom (needle : List Char) (skip : Nat) : List Char → List Char
  | [] => []
  | c :: cs =>
    match skip with
    | skip + 1 => removeFrom needle skip cs
    | 0 =>
      if needle.isPrefixOf (c :: cs) then removeFrom needle (needle.length - 1) cs
      else c :: removeFrom needle 0 cs

/-- Takes all occurrences of a text that is not empty away. -/
def remove (needle cs : List Char) : List Char := removeFrom needle 0 cs

def dropPrefix? (needle cs : List Char) : Option (List Char) :=
  if needle.isPrefixOf cs then some (cs.drop needle.length) else none

/-- The pieces between line breaks, one more than there are breaks. -/
def splitBreaks : List Char → List (List Char)
  | [] => [[]]
  | c :: cs =>
    if c = '\n' then [] :: splitBreaks cs
    else
      match splitBreaks cs with
      | [] => [[c]]
      | piece :: rest => (c :: piece) :: rest

/-- A carriage return before a line break belongs to the break. -/
def dropReturn (line : List Char) : List Char :=
  if line.getLast? == some '\r' then line.dropLast else line

def endedLines : List (List Char) → List (List Char)
  | [] => []
  | [last] => if last.isEmpty then [] else [last]
  | line :: rest => dropReturn line :: endedLines rest

/-- The lines of a text; a break at the end starts no line. -/
def lines (cs : List Char) : List (List Char) := endedLines (splitBreaks cs)

end RootedBuild.Text
