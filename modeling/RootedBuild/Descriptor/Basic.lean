import RootedBuild.Decimal.Shortest
import RootedBuild.Descriptor.Layout
import RootedBuild.Json.Fields
import RootedBuild.Text.Quoted

/-!
A descriptor: the descriptors it extends, and the compiler options it declares. It is written as an
object, or as a list of those two, and other keys of the object are passed over without being read.
Faults are those of the first problem met from the left. The exception is a fault of meaning at the
top, a key written twice or something else than names to extend: it is placed only after reading has
tried to close the descriptor.
-/
namespace RootedBuild
open Json

structure Descriptor where
  bases : List String
  options : Option Members

namespace Descriptor

/-- What has been read so far; the outer level says whether the key has been written. -/
structure Partial where
  bases : Option (List String) := none
  options : Option (Option Members) := none

def Partial.finish (p : Partial) : Descriptor := ⟨p.bases.getD [], p.options.join⟩

/-! ### Kinds of values in messages -/

def quoteBack (s : String) : String := "`" ++ s ++ "`"

def numberKind : Number → String
  | .int n => "integer " ++ quoteBack (toString n)
  | .real x => "floating point " ++ quoteBack x.text

def wordKind : Word → String
  | .null => "null"
  | .true => "boolean `true`"
  | .false => "boolean `false`"

/-- The fault of a value of the wrong kind. A number, text or word is read before it is refused, and
so may have a fault of its own; a container is refused at its opening bracket. -/
def wrongKind (expected : String) (t : Token) : Fault :=
  let refuse (found : String) (p : Position) : Fault := ⟨.wrongKind found expected, p⟩
  match t.lexeme with
  | .word w => refuse (wordKind w) t.stop
  | .number (.ok n) => refuse (numberKind n) t.stop
  | .number (.error f) => f
  | .text (.ok s) => refuse ("string " ++ Text.quoted s) t.stop
  | .text (.error f) => f
  | .openList => refuse "sequence" t.start
  | .openRecord => refuse "map" t.start
  | .cutText cut => cut.strict
  | .cutScalar cut => cut.strict
  | _ => ⟨.noValue, t.peek⟩

/-! ### The two fields -/

/-- Containers in the descriptor may be nested only so deep, and the descriptor is one itself. -/
def inside : Manner := .strict (deepest - 1)

/-- Where reading stands after it has tried to close an object. -/
def closedObject : Tokens → Position
  | .finish p => p
  | .next t _ =>
    match t.lexeme with
    | .closeRecord => t.stop
    | _ => t.start

/-- Where reading stands after it has tried to close a list. -/
def closedList : Tokens → Position
  | .finish p => p
  | .next t rest =>
    match t.lexeme with
    | .closeList => t.stop
    | .comma => rest.start
    | _ => t.start

/-- One name or a list of names. -/
def basesOf? : Written → Option (List String)
  | .null => some []
  | .text (.ok s) => some [s]
  | w => w.texts?

/-- Reads what is extended; `closed` places the fault of a value that is no name. -/
def readBases (closed : Tokens → Position) (ts : Tokens) : Except Fault (List String × Tokens) := do
  let (w, rest) ← readValue inside ts
  match basesOf? w with
  | some bases => return (bases, rest)
  | none => throw ⟨.noVariant "Extends", closed rest⟩

/-- Reads the options: an object or null. -/
def readOptions (ts : Tokens) : Except Fault (Option Members × Tokens) :=
  match ts with
  | .finish p => .error ⟨.endsInValue, p⟩
  | .next t rest =>
    match t.lexeme with
    | .word .null => .ok (none, rest)
    | .openRecord => do
      let (w, rest) ← readValue inside ts
      return (w.value?.bind Value.record?, rest)
    | _ => .error (wrongKind "a map" t)

/-! ### The object form -/

def expectColon : Tokens → Except Fault Tokens
  | .finish p => .error ⟨.endsInRecord, p⟩
  | .next t rest =>
    match t.lexeme with
    | .colon => .ok rest
    | _ => .error ⟨.noColon, t.peek⟩

def repeated (name : String) (rest : Tokens) : Fault := ⟨.repeatedField name, closedObject rest⟩

/-- Reads what follows a key. -/
def readMember (p : Partial) (key : String) (rest : Tokens) : Except Fault (Partial × Tokens) :=
  if key = "extends" then
    if p.bases.isSome then .error (repeated key rest)
    else do
      let ts ← expectColon rest
      let (bases, rest) ← readBases closedObject ts
      return ({ p with bases := some bases }, rest)
  else if key = "compilerOptions" then
    if p.options.isSome then .error (repeated key rest)
    else do
      let ts ← expectColon rest
      let (options, rest) ← readOptions ts
      return ({ p with options := some options }, rest)
  else do
    let ts ← expectColon rest
    let (_, rest) ← readValue .lenient ts
    return (p, rest)

def keyOf (t : Token) : Except Fault String :=
  match t.lexeme with
  | .text key => key
  | .cutText cut => .error cut.strict
  | _ => .error ⟨.keyNotText, t.peek⟩

/-- The start of the next member, or the end of the object. -/
inductive Ahead where
  | member (key : String) (rest : Tokens)
  | closed (rest : Tokens)

def keyAhead (t : Token) (rest : Tokens) : Except Fault Ahead := do
  let key ← keyOf t
  return .member key rest

def afterComma : Tokens → Except Fault Ahead
  | .finish p => .error ⟨.endsInValue, p⟩
  | .next t rest =>
    match t.lexeme with
    | .closeRecord => .error ⟨.trailingComma, t.peek⟩
    | _ => keyAhead t rest

def ahead (first : Bool) : Tokens → Except Fault Ahead
  | .finish p => .error ⟨.endsInRecord, p⟩
  | .next t rest =>
    match t.lexeme with
    | .closeRecord => .ok (.closed rest)
    | .comma => if first then .error ⟨.keyNotText, t.peek⟩ else afterComma rest
    | _ => if first then keyAhead t rest else .error ⟨.noRecordEnd, t.peek⟩

/-- Reads the members of an object. Every member takes a token, so the number of tokens bounds the
members. -/
def readMembers : Nat → Bool → Partial → Tokens → Except Fault (Descriptor × Tokens)
  | 0, _, _, ts => .error ⟨.endsInRecord, ts.start⟩
  | fuel + 1, first, p, ts => do
    match ← ahead first ts with
    | .closed rest => return (p.finish, rest)
    | .member key rest =>
      let (p, rest) ← readMember p key rest
      readMembers fuel false p rest

/-! ### The list form -/

/-- Whether another element follows, and from where to read it. -/
def elementAhead (first : Bool) : Tokens → Except Fault (Option Tokens)
  | .finish p => .error ⟨.endsInList, p⟩
  | .next t rest =>
    match t.lexeme with
    | .closeList => .ok none
    | .comma =>
      if first then .ok (some (.next t rest))
      else
        match rest with
        | .finish p => .error ⟨.endsInValue, p⟩
        | .next t rest =>
          match t.lexeme with
          | .closeList => .error ⟨.trailingComma, t.peek⟩
          | _ => .ok (some (.next t rest))
    | _ => if first then .ok (some (.next t rest)) else .error ⟨.noListEnd, t.peek⟩

/-- After its last field a list may only be closed. -/
def closeList : Tokens → Except Fault Tokens
  | .finish p => .error ⟨.endsInList, p⟩
  | .next t rest =>
    match t.lexeme with
    | .closeList => .ok rest
    | .comma =>
      match rest with
      | .finish p => .error ⟨.trailingCharacters, p⟩
      | .next t _ =>
        match t.lexeme with
        | .closeList => .error ⟨.trailingComma, t.peek⟩
        | _ => .error ⟨.trailingCharacters, t.peek⟩
    | _ => .error ⟨.trailingCharacters, t.peek⟩

def readElements (ts : Tokens) : Except Fault (Descriptor × Tokens) := do
  match ← elementAhead true ts with
  | none => return ({ bases := [], options := none }, ← closeList ts)
  | some at₁ =>
    let (bases, rest) ← readBases closedList at₁
    match ← elementAhead false rest with
    | none => return ({ bases, options := none }, ← closeList rest)
    | some at₂ =>
      let (options, rest) ← readOptions at₂
      return ({ bases, options }, ← closeList rest)

/-! ### Whole texts -/

def readTokens (ts : Tokens) : Except Fault Descriptor :=
  match ts with
  | .finish p => .error ⟨.endsInValue, p⟩
  | .next t rest => do
    let (d, rest) ← match t.lexeme with
      | .openRecord => readMembers (rest.size + 1) true {} rest
      | .openList => readElements rest
      | _ => .error (wrongKind "struct RawConfig" t)
    expectEnd rest
    return d

inductive TextFault where
  | empty
  | malformed (f : Fault)
  deriving DecidableEq, Repr

def TextFault.message : TextFault → String
  | .empty => "The configuration file is empty"
  | .malformed f => f.message

/-- Reads descriptor text. -/
def ofText (text : String) : Except TextFault Descriptor :=
  let json := plainJson text
  if Text.allBlank json.toList then .error .empty
  else (readTokens (scan json)).mapError .malformed

end Descriptor

end RootedBuild
