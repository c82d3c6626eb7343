import RootedBuild.Text.Blank

/-!
Descriptor text is JSON that may also hold comments and commas before a closing bracket. Two passes
make plain JSON of it: the first takes comments out and keeps their line breaks, so that what is
left stands on the line where it was written; the second drops a comma when the next character that
is not blank closes a list or an object. Neither pass looks inside texts, and neither judges what it
reads.
-/
namespace RootedBuild.Descriptor

/-- Where the comment pass stands. -/
inductive CommentState where
  | plain
  | text
  | line
  | block
  deriving DecidableEq, Repr

/-- Takes comments out. A line comment leaves nothing, and a block comment its line breaks and one
space; a block comment that is never closed reaches to the end. -/
def stripComments : CommentState → List Char → List Char
  | .block, [] => [' ']
  | _, [] => []
  | .plain, c :: cs =>
    if c = '"' then c :: stripComments .text cs
    else if c = '/' then
      match cs with
      | [] => [c]
      | d :: ds =>
        if d = '/' then stripComments .line ds
        else if d = '*' then stripComments .block ds
        else c :: stripComments .plain (d :: ds)
    else c :: stripComments .plain cs
  | .text, c :: cs =>
    if c = '\\' then
      match cs with
      | [] => [c]
      | d :: ds => c :: d :: stripComments .text ds
    else if c = '"' then c :: stripComments .plain cs
    else c :: stripComments .text cs
  | .line, c :: cs => if c = '\n' then c :: stripComments .plain cs else stripComments .line cs
  | .block, c :: cs =>
    if c = '\n' then c :: stripComments .block cs
    else if c = '*' then
      match cs with
      | [] => [' ']
      | d :: ds =>
        if d = '/' then ' ' :: stripComments .plain ds else stripComments .block (d :: ds)
    else stripComments .block cs

/-- Whether the comma pass is inside a text. -/
inductive CommaState where
  | plain
  | text
  deriving DecidableEq, Repr

/-- Whether the next character that is not blank closes a list or an object. -/
def closesNext (cs : List Char) : Bool :=
  match Text.trimStart cs with
  | c :: _ => c == '}' || c == ']'
  | [] => false

def stripCommas : CommaState → List Char → List Char
  | _, [] => []
  | .plain, c :: cs =>
    if c = '"' then c :: stripCommas .text cs
    else if c = ',' && closesNext cs then stripCommas .plain cs
    else c :: stripCommas .plain cs
  | .text, c :: cs =>
    if c = '\\' then
      match cs with
      | [] => [c]
      | d :: ds => c :: d :: stripCommas .text ds
    else if c = '"' then c :: stripCommas .plain cs
    else c :: stripCommas .text cs

/-- Plain JSON in place of descriptor text. -/
def plainJson (text : String) : String :=
  String.ofList (stripCommas .plain (stripComments .plain text.toList))

end RootedBuild.Descriptor
