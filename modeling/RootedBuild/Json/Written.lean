import RootedBuild.Json.Token
import RootedBuild.Json.Value

/-!
A JSON value as it is written: members in their order, a repeated key as often as it stands there,
and each number and text with its strict reading. A machine with a stack of open containers builds
it from tokens, one token a step. In the strict way every fault stops it and containers may be
nested only so deep; in the lenient way it stops only where the text cannot be passed over.
-/
namespace RootedBuild.Json

inductive Written where
  | null
  | bool (b : Bool)
  | number (n : Except Fault Number)
  | text (s : Except Fault String)
  | list (items : List Written)
  | record (members : List (Except Fault String × Written))

abbrev WrittenMember := Except Fault String × Written

def Word.written : Word → Written
  | .null => .null
  | .true => .bool Bool.true
  | .false => .bool Bool.false

inductive Way where
  | strict
  | lenient
  deriving DecidableEq, Repr

/-- The way to read a text, and how many containers may be open at once when it is strict. -/
structure Manner where
  way : Way
  room : Nat

namespace Manner

def strict (room : Nat) : Manner := ⟨.strict, room⟩

def lenient : Manner := ⟨.lenient, 0⟩

def pick (m : Manner) (strict lenient : α) : α :=
  match m.way with
  | .strict => strict
  | .lenient => lenient

/-- A strict reading that failed counts only in the strict way. -/
def fault? (m : Manner) (reading : Except Fault α) : Option Fault :=
  match m.way, reading with
  | .strict, .error f => some f
  | _, _ => none

end Manner

/-- A container left open while a value inside it is read; what it holds so far is in reverse. -/
inductive Frame where
  | list (items : List Written)
  | record (members : List WrittenMember) (key : Except Fault String)

/-- What may come next in the container at hand. -/
inductive Phase where
  | value
  | firstItem
  | nextItem (items : List Written)
  | afterItem (items : List Written)
  | firstKey
  | nextKey (members : List WrittenMember)
  | colon (members : List WrittenMember) (key : Except Fault String)
  | afterMember (members : List WrittenMember)

inductive Progress where
  | done (w : Written)
  | more (stack : List Frame) (phase : Phase)

/-- Hands a finished value to the container around it. -/
def complete (stack : List Frame) (w : Written) : Progress :=
  match stack with
  | [] => .done w
  | .list items :: stack => .more stack (.afterItem (w :: items))
  | .record members key :: stack => .more stack (.afterMember ((key, w) :: members))

def stop (complaint : Complaint) (t : Token) : Except Fault Progress := .error ⟨complaint, t.peek⟩

def openContainer (m : Manner) (stack : List Frame) (phase : Phase) (t : Token) :
    Except Fault Progress :=
  match m.way with
  | .strict => if m.room ≤ stack.length then stop .tooDeep t else .ok (.more stack phase)
  | .lenient => .ok (.more stack phase)

def startValue (m : Manner) (stack : List Frame) (t : Token) : Except Fault Progress :=
  match t.lexeme with
  | .word w => .ok (complete stack w.written)
  | .number n =>
    match m.fault? n with
    | some f => .error f
    | none => .ok (complete stack (.number n))
  | .text s =>
    match m.fault? s with
    | some f => .error f
    | none => .ok (complete stack (.text s))
  | .openList => openContainer m stack .firstItem t
  | .openRecord => openContainer m stack .firstKey t
  | .cutText cut => .error (m.pick cut.strict cut.lenient)
  | .cutScalar cut => .error (m.pick cut.strict cut.lenient)
  | _ => stop .noValue t

def startKey (m : Manner) (stack : List Frame) (members : List WrittenMember) (t : Token) :
    Except Fault Progress :=
  match t.lexeme with
  | .text key =>
    match m.fault? key with
    | some f => .error f
    | none => .ok (.more stack (.colon members key))
  | .cutText cut => .error (m.pick cut.strict cut.lenient)
  | _ => stop .keyNotText t

/-- What one more token does. -/
def advance (m : Manner) (stack : List Frame) (phase : Phase) (t : Token) : Except Fault Progress :=
  match phase with
  | .value => startValue m stack t
  | .firstItem =>
    match t.lexeme with
    | .closeList => .ok (complete stack (.list []))
    | _ => startValue m (.list [] :: stack) t
  | .nextItem items =>
    match t.lexeme with
    | .closeList => stop (m.pick .trailingComma .noValue) t
    | _ => startValue m (.list items :: stack) t
  | .afterItem items =>
    match t.lexeme with
    | .comma => .ok (.more stack (.nextItem items))
    | .closeList => .ok (complete stack (.list items.reverse))
    | _ => stop .noListEnd t
  | .firstKey =>
    match t.lexeme with
    | .closeRecord => .ok (complete stack (.record []))
    | _ => startKey m stack [] t
  | .nextKey members =>
    match t.lexeme with
    | .closeRecord => stop (m.pick .trailingComma .keyNotText) t
    | _ => startKey m stack members t
  | .colon members key =>
    match t.lexeme with
    | .colon => .ok (.more (.record members key :: stack) .value)
    | _ => stop .noColon t
  | .afterMember members =>
    match t.lexeme with
    | .comma => .ok (.more stack (.nextKey members))
    | .closeRecord => .ok (complete stack (.record members.reverse))
    | _ => stop .noRecordEnd t

/-- The complaint about a text that ends in the given phase. -/
def Phase.ending (m : Manner) : Phase → Complaint
  | .value => .endsInValue
  | .firstItem => .endsInList
  | .nextItem _ => .endsInValue
  | .afterItem _ => .endsInList
  | .firstKey => .endsInRecord
  | .nextKey _ => m.pick .endsInValue .endsInRecord
  | .colon _ _ => .endsInRecord
  | .afterMember _ => .endsInRecord

/-- Runs the machine until a value is finished, and gives what follows it. -/
def build (m : Manner) : List Frame → Phase → Tokens → Except Fault (Written × Tokens)
  | _, phase, .finish p => .error ⟨phase.ending m, p⟩
  | stack, phase, .next t rest =>
    match advance m stack phase t with
    | .error f => .error f
    | .ok (.done w) => .ok (w, rest)
    | .ok (.more stack phase) => build m stack phase rest

/-- Reads one value at the start of a stream. -/
def readValue (m : Manner) (ts : Tokens) : Except Fault (Written × Tokens) := build m [] .value ts

/-- Containers may be nested 127 deep. -/
def deepest : Nat := 127

/-- Nothing may follow the value of a text. -/
def expectEnd (ts : Tokens) : Except Fault Unit :=
  match ts with
  | .finish _ => .ok ()
  | .next t _ => .error ⟨.trailingCharacters, t.peek⟩

def readWhole (m : Manner) (text : String) : Except Fault Written := do
  let (w, rest) ← readValue m (scan text)
  expectEnd rest
  return w

/-! ### Between written and plain values -/

mutual

/-- The value of a written one, if every number and text in it can be read strictly. -/
def Written.value? : Written → Option Value
  | .null => some .null
  | .bool b => some (.bool b)
  | .number (.ok n) => some (.number n)
  | .number (.error _) => none
  | .text (.ok s) => some (.text s)
  | .text (.error _) => none
  | .list items => (valuesOf items).map .list
  | .record members => (pairsOf members).map fun ps => .record (Members.ofPairs ps)

def valuesOf : List Written → Option (List Value)
  | [] => some []
  | w :: ws =>
    match w.value?, valuesOf ws with
    | some v, some vs => some (v :: vs)
    | _, _ => none

def pairsOf : List (Except Fault String × Written) → Option (List (String × Value))
  | [] => some []
  | (.ok key, w) :: rest =>
    match w.value?, pairsOf rest with
    | some v, some ps => some ((key, v) :: ps)
    | _, _ => none
  | (.error _, _) :: _ => none

end

mutual

def Value.written : Value → Written
  | .null => .null
  | .bool b => .bool b
  | .number n => .number (.ok n)
  | .text s => .text (.ok s)
  | .list items => .list (writtenItems items)
  | .record members => .record (writtenMembers members)

def writtenItems : List Value → List Written
  | [] => []
  | v :: vs => v.written :: writtenItems vs

def writtenMembers : List (String × Value) → List (Except Fault String × Written)
  | [] => []
  | (key, v) :: rest => (.ok key, v.written) :: writtenMembers rest

end

/-- The value of a text read strictly. -/
def parse? (text : String) : Option Value :=
  match readWhole (.strict deepest) text with
  | .ok w => w.value?
  | .error _ => none

end RootedBuild.Json
