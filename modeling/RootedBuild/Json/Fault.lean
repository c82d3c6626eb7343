/-!
Positions in a JSON text and the faults found there. A position counts lines from one and, within a
line, bytes from zero; a fault is shown with the position at which reading stopped.
-/
namespace RootedBuild.Json

structure Position where
  line : Nat := 1
  column : Nat := 0
  deriving DecidableEq, Repr

namespace Position

/-- The position after one more character. -/
def after (p : Position) (c : Char) : Position :=
  if c == '\n' then ⟨p.line + 1, 0⟩ else ⟨p.line, p.column + c.utf8Size⟩

/-- The position after the first byte of a character. -/
def peek (p : Position) (c : Char) : Position :=
  if c == '\n' then ⟨p.line + 1, 0⟩ else ⟨p.line, p.column + 1⟩

/-- The position after `n` more bytes, none of which ends a line. -/
def right (p : Position) (n : Nat) : Position := ⟨p.line, p.column + n⟩

def afterAll (p : Position) (cs : List Char) : Position := cs.foldl after p

/-- The position after `n` more bytes of `cs`, perhaps inside a character. -/
def afterBytes (p : Position) : Nat → List Char → Position
  | _, [] => p
  | n, c :: cs =>
    if n == 0 then p
    else if n < c.utf8Size then p.right n
    else (p.after c).afterBytes (n - c.utf8Size) cs

theorem afterAll_append (p : Position) (cs ds : List Char) :
    p.afterAll (cs ++ ds) = (p.afterAll cs).afterAll ds := List.foldl_append

end Position

/-- What is wrong with a JSON text. -/
inductive Complaint where
  | endsInValue
  | endsInList
  | endsInRecord
  | endsInText
  | noValue
  | noWord
  | noColon
  | noListEnd
  | noRecordEnd
  | trailingComma
  | keyNotText
  | trailingCharacters
  | invalidNumber
  | numberOutOfRange
  | invalidEscape
  | loneSurrogate
  | unfinishedPair
  | controlCharacter
  | tooDeep
  | wrongKind (found expected : String)
  | repeatedField (name : String)
  | noVariant (name : String)
  deriving DecidableEq, Repr

def Complaint.text : Complaint → String
  | .endsInValue => "EOF while parsing a value"
  | .endsInList => "EOF while parsing a list"
  | .endsInRecord => "EOF while parsing an object"
  | .endsInText => "EOF while parsing a string"
  | .noValue => "expected value"
  | .noWord => "expected ident"
  | .noColon => "expected `:`"
  | .noListEnd => "expected `,` or `]`"
  | .noRecordEnd => "expected `,` or `\x7d`"
  | .trailingComma => "trailing comma"
  | .keyNotText => "key must be a string"
  | .trailingCharacters => "trailing characters"
  | .invalidNumber => "invalid number"
  | .numberOutOfRange => "number out of range"
  | .invalidEscape => "invalid escape"
  | .loneSurrogate => "lone leading surrogate in hex escape"
  | .unfinishedPair => "unexpected end of hex escape"
  | .controlCharacter => "control character (\\u0000-\\u001F) found while parsing a string"
  | .tooDeep => "recursion limit exceeded"
  | .wrongKind found expected => "invalid type: " ++ found ++ ", expected " ++ expected
  | .repeatedField name => "duplicate field `" ++ name ++ "`"
  | .noVariant name => "data did not match any variant of untagged enum " ++ name

structure Fault where
  complaint : Complaint
  position : Position
  deriving DecidableEq, Repr

def Fault.message (f : Fault) : String :=
  f.complaint.text ++ " at line " ++ toString f.position.line ++ " column " ++
    toString f.position.column

end RootedBuild.Json
