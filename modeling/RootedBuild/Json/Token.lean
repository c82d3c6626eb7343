import RootedBuild.Json.Number
import RootedBuild.Text.Utf8

/-!
The tokens of a JSON text. A text is read in one of two ways: strictly, for its value, or only to be
passed over. The two differ on numbers out of range, on surrogates without a partner and on where a
fault is placed, so a number or text token carries its strict reading, and a token that cannot be
passed over ends the stream with the faults of both ways.

Tokens are found without regard to what may follow what; that is the reader's work.
-/
namespace RootedBuild.Json

inductive Word where
  | null
  | true
  | false
  deriving DecidableEq, Repr

def Word.letters : Word → List Char
  | .null => ['n', 'u', 'l', 'l']
  | .true => ['t', 'r', 'u', 'e']
  | .false => ['f', 'a', 'l', 's', 'e']

/-- The faults of a token that cannot be passed over. -/
structure Cut where
  strict : Fault
  lenient : Fault
  deriving DecidableEq, Repr

def Cut.both (f : Fault) : Cut := ⟨f, f⟩

inductive Lexeme where
  | openList
  | closeList
  | openRecord
  | closeRecord
  | comma
  | colon
  | word (w : Word)
  | number (strict : Except Fault Number)
  | text (strict : Except Fault String)
  | cutText (cut : Cut)
  | cutScalar (cut : Cut)
  | stray

structure Token where
  lexeme : Lexeme
  start : Position
  stop : Position

/-- The position after the first byte of a token, where a token out of place is reported. -/
def Token.peek (t : Token) : Position := t.start.right 1

/-- A stream of tokens ends at the position where the text ends. -/
inductive Tokens where
  | finish (position : Position)
  | next (token : Token) (rest : Tokens)

namespace Tokens

def size : Tokens → Nat
  | .finish _ => 0
  | .next _ rest => rest.size + 1

/-- Where the next token starts, or where the text ends. -/
def start : Tokens → Position
  | .finish p => p
  | .next t _ => t.start

end Tokens

/-- What is left of a text after a token, and where that starts. -/
structure Rest where
  chars : List Char
  position : Position

def isLayout (c : Char) : Bool := c == ' ' || c == '\n' || c == '\t' || c == '\r'

def skipLayout (p : Position) : List Char → Rest
  | [] => ⟨[], p⟩
  | c :: cs => if isLayout c then skipLayout (p.after c) cs else ⟨c :: cs, p⟩

/-- Matches the remaining letters of a word. -/
def passWord (p : Position) : List Char → List Char → Except Fault Rest
  | [], cs => .ok ⟨cs, p⟩
  | _ :: _, [] => .error ⟨.endsInValue, p⟩
  | e :: expected, c :: cs =>
    if c == e then passWord (p.right 1) expected cs else .error ⟨.noWord, p.peek c⟩

/-! ### Numerals -/

def isDigit (c : Char) : Bool := '0' ≤ c && c ≤ '9'

def digitsAt (r : Rest) : List Char × Rest :=
  let ds := r.chars.takeWhile isDigit
  (ds, ⟨r.chars.drop ds.length, r.position.right ds.length⟩)

/-- A missing digit, where the character in its place is reported before it is taken or after. -/
def missingDigit (r : Rest) : Cut :=
  match r.chars with
  | [] => ⟨⟨.endsInValue, r.position⟩, ⟨.invalidNumber, r.position⟩⟩
  | c :: _ => .both ⟨.invalidNumber, r.position.peek c⟩

/-- The whole part: a zero alone, or digits that start with another one. -/
def wholePart (r : Rest) : Except Cut (List Char × Rest) :=
  let (ds, r') := digitsAt r
  match ds with
  | [] => .error (missingDigit r)
  | '0' :: _ :: _ => .error (.both ⟨.invalidNumber, r.position.right 2⟩)
  | ds => .ok (ds, r')

def fractionPart (r : Rest) : Except Cut (List Char × Rest) :=
  match r.chars with
  | '.' :: cs =>
    let afterPoint : Rest := ⟨cs, r.position.right 1⟩
    match digitsAt afterPoint with
    | ([], _) => .error (missingDigit afterPoint)
    | found => .ok found
  | _ => .ok ([], r)

/-- The sign of an exponent, and what follows it. -/
def exponentSign (r : Rest) : Bool × Rest :=
  match r.chars with
  | '-' :: cs => (true, ⟨cs, r.position.right 1⟩)
  | '+' :: cs => (false, ⟨cs, r.position.right 1⟩)
  | _ => (false, r)

structure ExponentFound where
  exponent : Option (Bool × List Char)
  digits : Position
  rest : Rest

def exponentPart (r : Rest) : Except Cut ExponentFound :=
  match r.chars with
  | c :: cs =>
    if c == 'e' || c == 'E' then
      let (down, r') := exponentSign ⟨cs, r.position.right 1⟩
      match digitsAt r' with
      | ([], _) => .error (missingDigit r')
      | (ds, r'') => .ok ⟨some (down, ds), r'.position, r''⟩
    else .ok ⟨none, r.position, r⟩
  | [] => .ok ⟨none, r.position, r⟩

/-- Reads a numeral that starts with a minus or a digit. -/
def numeralAt (r : Rest) : Except Cut (Except Fault Number × Rest) := do
  let (negative, r) := match r.chars with
    | '-' :: cs => (true, (⟨cs, r.position.right 1⟩ : Rest))
    | _ => (false, r)
  let (whole, r) ← wholePart r
  let (fraction, r) ← fractionPart r
  let found ← exponentPart r
  let numeral : Numeral := ⟨negative, whole, fraction, found.exponent⟩
  return (numeral.value found.digits found.rest.position, found.rest)

/-! ### Text literals -/

def hexValue? (c : Char) : Option Nat :=
  if isDigit c then some (c.toNat - '0'.toNat)
  else if 'a' ≤ c && c ≤ 'f' then some (c.toNat - 'a'.toNat + 10)
  else if 'A' ≤ c && c ≤ 'F' then some (c.toNat - 'A'.toNat + 10)
  else none

def codeUnit? (a b c d : Char) : Option Nat := do
  let a ← hexValue? a
  let b ← hexValue? b
  let c ← hexValue? c
  let d ← hexValue? d
  return ((a * 16 + b) * 16 + c) * 16 + d

/-- The four bytes after `\u` are taken before they are looked at. -/
def badUnit (p : Position) (cs : List Char) : Fault :=
  if Text.byteLength cs < 4 then ⟨.endsInText, p.afterAll cs⟩
  else ⟨.invalidEscape, p.afterBytes 4 cs⟩

/-- The character that a short escape stands for. -/
def shortEscape? : Char → Option Char
  | '"' => some '"'
  | '\\' => some '\\'
  | '/' => some '/'
  | 'b' => some '\x08'
  | 'f' => some '\x0c'
  | 'n' => some '\n'
  | 'r' => some '\r'
  | 't' => some '\t'
  | _ => none

def isControl (c : Char) : Bool := c.toNat < 0x20

/-- Passes over a text literal whose opening quote is read already. -/
def passText (p : Position) : List Char → Except Fault Rest
  | [] => .error ⟨.endsInText, p⟩
  | c :: cs =>
    if c == '"' then .ok ⟨cs, p.right 1⟩
    else if c == '\\' then
      match cs with
      | [] => .error ⟨.endsInText, p.right 1⟩
      | e :: cs =>
        if e == 'u' then
          match cs with
          | h₁ :: h₂ :: h₃ :: h₄ :: rest =>
            match codeUnit? h₁ h₂ h₃ h₄ with
            | some _ => passText (p.right 6) rest
            | none => .error (badUnit (p.right 2) (h₁ :: h₂ :: h₃ :: h₄ :: rest))
          | cs => .error (badUnit (p.right 2) cs)
        else
          match shortEscape? e with
          | some _ => passText (p.right 2) cs
          | none => .error ⟨.invalidEscape, (p.right 1).peek e⟩
    else if isControl c then .error ⟨.controlCharacter, p⟩
    else passText (p.after c) cs

def isHighSurrogate (n : Nat) : Bool := 0xD800 ≤ n && n ≤ 0xDBFF

def isLowSurrogate (n : Nat) : Bool := 0xDC00 ≤ n && n ≤ 0xDFFF

def joinSurrogates (high low : Nat) : Char :=
  Char.ofNat ((high - 0xD800) * 0x400 + (low - 0xDC00) + 0x10000)

/-- What a code unit does to the text read so far, in reverse, when `high` is the high surrogate
before it, if any. -/
def takeUnit (high : Option Nat) (seen : List Char) (n : Nat) : Option (Option Nat × List Char) :=
  match high with
  | some h => if isLowSurrogate n then some (none, joinSurrogates h n :: seen) else none
  | none =>
    if isLowSurrogate n then none
    else if isHighSurrogate n then some (some n, seen)
    else some (none, Char.ofNat n :: seen)

/-- Reads a text literal whose opening quote is read already. After a high surrogate only another
escaped unit may follow, and its first byte that differs is taken. -/
def readText (high : Option Nat) (seen : List Char) (p : Position) :
    List Char → Except Fault String
  | [] => .error ⟨.endsInText, p⟩
  | c :: cs =>
    if c == '\\' then
      match cs with
      | [] => .error ⟨.endsInText, p.right 1⟩
      | e :: cs =>
        if e == 'u' then
          match cs with
          | h₁ :: h₂ :: h₃ :: h₄ :: rest =>
            match codeUnit? h₁ h₂ h₃ h₄ with
            | none => .error (badUnit (p.right 2) (h₁ :: h₂ :: h₃ :: h₄ :: rest))
            | some n =>
              match takeUnit high seen n with
              | some (high, seen) => readText high seen (p.right 6) rest
              | none => .error ⟨.loneSurrogate, p.right 6⟩
          | cs => .error (badUnit (p.right 2) cs)
        else if high.isSome then .error ⟨.unfinishedPair, (p.right 1).peek e⟩
        else
          match shortEscape? e with
          | some e => readText none (e :: seen) (p.right 2) cs
          | none => .error ⟨.invalidEscape, (p.right 1).peek e⟩
    else if high.isSome then .error ⟨.unfinishedPair, p.peek c⟩
    else if c == '"' then .ok (String.ofList seen.reverse)
    else if isControl c then .error ⟨.controlCharacter, p.peek c⟩
    else readText none (c :: seen) (p.after c) cs

/-! ### The stream -/

/-- A token and what is left after it; nothing is left to read after a cut token. -/
structure Scanned where
  lexeme : Lexeme
  rest : Rest

def scanWord (w : Word) (p : Position) (cs : List Char) : Scanned :=
  match passWord p w.letters cs with
  | .ok rest => ⟨.word w, rest⟩
  | .error f => ⟨.cutScalar (.both f), ⟨[], f.position⟩⟩

def scanNumber (p : Position) (cs : List Char) : Scanned :=
  match numeralAt ⟨cs, p⟩ with
  | .ok (strict, rest) => ⟨.number strict, rest⟩
  | .error cut => ⟨.cutScalar cut, ⟨[], cut.lenient.position⟩⟩

/-- A literal that cannot be passed over cannot be read strictly either. -/
def scanText (p : Position) (cs : List Char) : Scanned :=
  let strict := readText none [] p cs
  match passText p cs with
  | .ok rest => ⟨.text strict, rest⟩
  | .error lenient =>
    let cut := match strict with
      | .error strict => ⟨strict, lenient⟩
      | .ok _ => Cut.both lenient
    ⟨.cutText cut, ⟨[], lenient.position⟩⟩

/-- The token that starts with `c`. -/
def scanOne (p : Position) (c : Char) (cs : List Char) : Scanned :=
  let mark (lexeme : Lexeme) : Scanned := ⟨lexeme, ⟨cs, p.right 1⟩⟩
  match c with
  | '[' => mark .openList
  | ']' => mark .closeList
  | '{' => mark .openRecord
  | '}' => mark .closeRecord
  | ',' => mark .comma
  | ':' => mark .colon
  | 'n' => scanWord .null p (c :: cs)
  | 't' => scanWord .true p (c :: cs)
  | 'f' => scanWord .false p (c :: cs)
  | '"' => scanText (p.right 1) cs
  | _ =>
    if c == '-' || isDigit c then scanNumber p (c :: cs)
    else ⟨.stray, ⟨[], p⟩⟩

/-- Every token takes a character, so the number of characters bounds the tokens. -/
def scanUpTo : Nat → Position → List Char → Tokens
  | 0, p, _ => .finish p
  | fuel + 1, p, cs =>
    let r := skipLayout p cs
    match r.chars with
    | [] => .finish r.position
    | c :: cs =>
      let s := scanOne r.position c cs
      .next ⟨s.lexeme, r.position, s.rest.position⟩ (scanUpTo fuel s.rest.position s.rest.chars)

def scan (text : String) : Tokens := scanUpTo (text.length + 1) {} text.toList

end RootedBuild.Json
