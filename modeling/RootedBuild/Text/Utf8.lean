/-!
Strict reading of UTF-8. A fault says where the first ill-formed sequence starts and how long its
longest well-formed beginning is; a sequence that the end of the input cuts short is told apart.
-/
namespace RootedBuild.Text

/-- `length` is `none` when the input ends inside a sequence that is well formed so far. -/
structure Utf8Fault where
  index : Nat
  length : Option Nat
  deriving DecidableEq, Repr

def Utf8Fault.message (f : Utf8Fault) : String :=
  match f.length with
  | some k => s!"invalid utf-8 sequence of {k} bytes from index {f.index}"
  | none => s!"incomplete utf-8 byte sequence from index {f.index}"

def isContinuation (b : UInt8) : Bool := 0x80 ≤ b && b ≤ 0xBF

/-- The range of second bytes after the lead byte `a`: the lead bytes at the ends of their classes
leave out overlong forms, surrogates and code points above `10FFFF`. -/
def secondByteFits (a b : UInt8) : Bool :=
  if a == 0xE0 then 0xA0 ≤ b && b ≤ 0xBF
  else if a == 0xED then 0x80 ≤ b && b ≤ 0x9F
  else if a == 0xF0 then 0x90 ≤ b && b ≤ 0xBF
  else if a == 0xF4 then 0x80 ≤ b && b ≤ 0x8F
  else isContinuation b

def lowBits (b : UInt8) : Nat := b.toNat % 64

/-- Reads `bytes`, which start `index` bytes into the input, onto the characters of `seen`, which
are in reverse. -/
def decodeFrom (index : Nat) (seen : List Char) : List UInt8 → Except Utf8Fault (List Char)
  | [] => .ok seen.reverse
  | a :: rest =>
    if a < 0x80 then decodeFrom (index + 1) (Char.ofNat a.toNat :: seen) rest
    else if a < 0xC2 then .error ⟨index, some 1⟩
    else if a < 0xE0 then
      match rest with
      | [] => .error ⟨index, none⟩
      | b :: rest =>
        if isContinuation b then
          decodeFrom (index + 2) (Char.ofNat (a.toNat % 32 * 64 + lowBits b) :: seen) rest
        else .error ⟨index, some 1⟩
    else if a < 0xF0 then
      match rest with
      | [] => .error ⟨index, none⟩
      | [b] => .error ⟨index, if secondByteFits a b then none else some 1⟩
      | b :: c :: rest =>
        if !secondByteFits a b then .error ⟨index, some 1⟩
        else if !isContinuation c then .error ⟨index, some 2⟩
        else
          let code := (a.toNat % 16 * 64 + lowBits b) * 64 + lowBits c
          decodeFrom (index + 3) (Char.ofNat code :: seen) rest
    else if a < 0xF5 then
      match rest with
      | [] => .error ⟨index, none⟩
      | [b] => .error ⟨index, if secondByteFits a b then none else some 1⟩
      | [b, c] =>
        .error ⟨index,
          if !secondByteFits a b then some 1 else if isContinuation c then none else some 2⟩
      | b :: c :: d :: rest =>
        if !secondByteFits a b then .error ⟨index, some 1⟩
        else if !isContinuation c then .error ⟨index, some 2⟩
        else if !isContinuation d then .error ⟨index, some 3⟩
        else
          let code := ((a.toNat % 8 * 64 + lowBits b) * 64 + lowBits c) * 64 + lowBits d
          decodeFrom (index + 4) (Char.ofNat code :: seen) rest
    else .error ⟨index, some 1⟩

/-- The text whose encoding is `bytes`, or the first fault. -/
def decodeUtf8 (bytes : List UInt8) : Except Utf8Fault String :=
  (decodeFrom 0 [] bytes).map String.ofList

/-- How many bytes characters take up. -/
def byteLength : List Char → Nat
  | [] => 0
  | c :: cs => c.utf8Size + byteLength cs

def encodeUtf8 (text : String) : List UInt8 := text.toUTF8.toList

/-- A byte order mark at the start is no part of a text. -/
def dropByteOrderMark : List UInt8 → List UInt8
  | 0xEF :: 0xBB :: 0xBF :: rest => rest
  | bytes => bytes

end RootedBuild.Text
