import RootedBuild.Decimal.Shortest
import RootedBuild.Json.Value

/-!
Text of JSON values: on one line without blanks, or over several lines with two spaces a level,
where an empty container stays on its line. Quotes, backslashes and control characters are escaped;
all else stands for itself.
-/
namespace RootedBuild.Json

def Number.print : Number → String
  | .int n => toString n
  | .real x => x.text

def escapeControl (c : Char) : List Char :=
  let digit (n : Nat) := (Nat.toDigits 16 n).headD '0'
  ['\\', 'u', '0', '0', digit (c.toNat / 16), digit (c.toNat % 16)]

def escapeChar (c : Char) : List Char :=
  if c == '"' then ['\\', '"']
  else if c == '\\' then ['\\', '\\']
  else if c == '\n' then ['\\', 'n']
  else if c == '\r' then ['\\', 'r']
  else if c == '\t' then ['\\', 't']
  else if c == '\x08' then ['\\', 'b']
  else if c == '\x0c' then ['\\', 'f']
  else if c.toNat < 0x20 then escapeControl c
  else [c]

def literal (s : String) : String := String.ofList ('"' :: s.toList.flatMap escapeChar ++ ['"'])

def listBraces : String × String := ("[", "]")

def recordBraces : String × String := ("\x7b", "\x7d")

mutual

/-- One line, no blanks. -/
def Value.print : Value → String
  | .null => "null"
  | .bool true => "true"
  | .bool false => "false"
  | .number n => n.print
  | .text s => literal s
  | .list items => listBraces.1 ++ ",".intercalate (printItems items) ++ listBraces.2
  | .record members => recordBraces.1 ++ ",".intercalate (printMembers members) ++ recordBraces.2

def printItems : List Value → List String
  | [] => []
  | v :: vs => v.print :: printItems vs

def printMembers : List (String × Value) → List String
  | [] => []
  | (key, v) :: rest => (literal key ++ ":" ++ v.print) :: printMembers rest

end

def lineAt (depth : Nat) : String := String.ofList ('\n' :: List.replicate (2 * depth) ' ')

/-- A container whose parts stand on lines of their own, one level deeper than its braces. -/
def spread (braces : String × String) (depth : Nat) (parts : List String) : String :=
  if parts.isEmpty then braces.1 ++ braces.2
  else
    let line := lineAt (depth + 1)
    braces.1 ++ line ++ ("," ++ line).intercalate parts ++ lineAt depth ++ braces.2

mutual

/-- Several lines, with the braces of the outermost container at the given depth. -/
def Value.printLines (depth : Nat) : Value → String
  | .list items => spread listBraces depth (linesOfItems (depth + 1) items)
  | .record members => spread recordBraces depth (linesOfMembers (depth + 1) members)
  | .null => "null"
  | .bool true => "true"
  | .bool false => "false"
  | .number n => n.print
  | .text s => literal s

def linesOfItems (depth : Nat) : List Value → List String
  | [] => []
  | v :: vs => v.printLines depth :: linesOfItems depth vs

def linesOfMembers (depth : Nat) : List (String × Value) → List String
  | [] => []
  | (key, v) :: rest => (literal key ++ ": " ++ v.printLines depth) :: linesOfMembers depth rest

end

end RootedBuild.Json
