/-!
The BLAKE3 hash of a byte list, 32 bytes long. The input is cut into chunks of 1024 bytes, each
chunk into blocks of 64; chunk results are paired up in a binary tree whose left subtrees are full.
Nothing here says that the hash is hard to invert or free of collisions.
-/
namespace RootedBuild.Digest

/-- Sixteen 32-bit words. Reading past the end gives zero, which is also the padding of a block. -/
abbrev Words := Array UInt32

def startWords : Words :=
  #[0x6A09E667, 0xBB67AE85, 0x3C6EF372, 0xA54FF53A, 0x510E527F, 0x9B05688C, 0x1F83D9AB, 0x5BE0CD19]

/-- How the message words move between rounds. -/
def messageOrder : List Nat := [2, 6, 3, 10, 7, 0, 4, 13, 1, 11, 12, 5, 9, 14, 15, 8]

def word (ws : Words) (i : Nat) : UInt32 := ws.getD i 0

def rotateRight (w : UInt32) (count : UInt32) : UInt32 := (w >>> count) ||| (w <<< (32 - count))

/-- Mixes two message words into one column or diagonal of the state. -/
def mix (s : Words) (a b c d : Nat) (x y : UInt32) : Words :=
  let va := word s a + word s b + x
  let vd := rotateRight (word s d ^^^ va) 16
  let vc := word s c + vd
  let vb := rotateRight (word s b ^^^ vc) 12
  let va := va + vb + y
  let vd := rotateRight (vd ^^^ va) 8
  let vc := vc + vd
  let vb := rotateRight (vb ^^^ vc) 7
  (((s.setIfInBounds a va).setIfInBounds b vb).setIfInBounds c vc).setIfInBounds d vd

def roundStep (s m : Words) : Words :=
  let s := mix s 0 4 8 12 (word m 0) (word m 1)
  let s := mix s 1 5 9 13 (word m 2) (word m 3)
  let s := mix s 2 6 10 14 (word m 4) (word m 5)
  let s := mix s 3 7 11 15 (word m 6) (word m 7)
  let s := mix s 0 5 10 15 (word m 8) (word m 9)
  let s := mix s 1 6 11 12 (word m 10) (word m 11)
  let s := mix s 2 7 8 13 (word m 12) (word m 13)
  mix s 3 4 9 14 (word m 14) (word m 15)

def permute (m : Words) : Words := (messageOrder.map (word m)).toArray

/-- Runs the given number of rounds, moving the message words between them. -/
def rounds : Nat → Words → Words → Words
  | 0, s, _ => s
  | n + 1, s, m => rounds n (roundStep s m) (permute m)

/-- Marks of a block's place in the tree. -/
def chunkStart : UInt32 := 1
def chunkEnd : UInt32 := 2
def parentMark : UInt32 := 4
def rootMark : UInt32 := 8

/-- One block with all that its compression depends on. -/
structure Block where
  chain : Words
  message : Words
  counter : Nat
  size : Nat
  marks : UInt32

/-- The first eight words of a compressed block. -/
def Block.compress (b : Block) : Words :=
  let s := #[word b.chain 0, word b.chain 1, word b.chain 2, word b.chain 3,
    word b.chain 4, word b.chain 5, word b.chain 6, word b.chain 7,
    word startWords 0, word startWords 1, word startWords 2, word startWords 3,
    UInt32.ofNat b.counter, UInt32.ofNat (b.counter / 4294967296), UInt32.ofNat b.size, b.marks]
  let s := rounds 7 s b.message
  ((List.range 8).map fun i => word s i ^^^ word s (i + 8)).toArray

/-- Little-endian words of a block's bytes. -/
def wordsOf : List UInt8 → List UInt32
  | a :: b :: c :: d :: rest =>
    (a.toUInt32 ||| b.toUInt32 <<< 8 ||| c.toUInt32 <<< 16 ||| d.toUInt32 <<< 24) :: wordsOf rest
  | [a, b, c] => [a.toUInt32 ||| b.toUInt32 <<< 8 ||| c.toUInt32 <<< 16]
  | [a, b] => [a.toUInt32 ||| b.toUInt32 <<< 8]
  | [a] => [a.toUInt32]
  | [] => []

/-- Cuts a list into pieces of `size` elements; the last piece may be shorter, and the empty list
has one empty piece. Every step takes at least one element, so `fuel` may be the length of the
list. -/
def piecesUpTo (size : Nat) : Nat → List UInt8 → List (List UInt8)
  | 0, bytes => [bytes]
  | fuel + 1, bytes =>
    let rest := bytes.drop size
    if rest.isEmpty then [bytes] else bytes.take size :: piecesUpTo size fuel rest

def pieces (size : Nat) (bytes : List UInt8) : List (List UInt8) :=
  piecesUpTo size bytes.length bytes

/-- The last block of a chunk, with the blocks before it already compressed into its chain. -/
def lastBlock (counter : Nat) (chain : Words) (marks : UInt32) : List (List UInt8) → Block
  | [] => ⟨chain, #[], counter, 0, marks ||| chunkEnd⟩
  | [bytes] => ⟨chain, (wordsOf bytes).toArray, counter, bytes.length, marks ||| chunkEnd⟩
  | bytes :: rest =>
    let block : Block := ⟨chain, (wordsOf bytes).toArray, counter, bytes.length, marks⟩
    lastBlock counter block.compress 0 rest

def chunkBlock (counter : Nat) (bytes : List UInt8) : Block :=
  lastBlock counter startWords chunkStart (pieces 64 bytes)

def parentBlock (left right : Words) : Block := ⟨startWords, left ++ right, 0, 64, parentMark⟩

/-- Joins finished subtrees of equal size: after chunk number `count` as many are joined as `count`
has factors of two. -/
def joinFull : Nat → Nat → List Words → Words → List Words
  | 0, _, stack, top => top :: stack
  | fuel + 1, count, stack, top =>
    match stack with
    | left :: rest =>
      if count % 2 == 0 then joinFull fuel (count / 2) rest (parentBlock left top).compress
      else top :: stack
    | [] => [top]

/-- The root block: full subtrees are joined on the way, what is left is joined from the right. -/
def rootBlock (counter : Nat) (stack : List Words) : List (List UInt8) → Block
  | [] => chunkBlock counter []
  | [bytes] =>
    stack.foldl (fun right left => parentBlock left right.compress) (chunkBlock counter bytes)
  | bytes :: rest =>
    rootBlock (counter + 1)
      (joinFull stack.length (counter + 1) stack (chunkBlock counter bytes).compress) rest

end RootedBuild.Digest

namespace RootedBuild

/-- What stands for a source text when texts are compared by their hash. -/
structure Fingerprint where
  bytes : List UInt8
  deriving DecidableEq, Repr

namespace Fingerprint
open Digest

def bytesOfWord (w : UInt32) : List UInt8 :=
  [w.toUInt8, (w >>> 8).toUInt8, (w >>> 16).toUInt8, (w >>> 24).toUInt8]

def ofBytes (bytes : List UInt8) : Fingerprint :=
  let root := rootBlock 0 [] (pieces 1024 bytes)
  ⟨({ root with marks := root.marks ||| rootMark } : Block).compress.toList.flatMap bytesOfWord⟩

def ofText (text : String) : Fingerprint := ofBytes text.toUTF8.toList

def hexDigits (b : UInt8) : List Char :=
  let digit (n : Nat) := (Nat.toDigits 16 n).headD '0'
  [digit (b.toNat / 16), digit (b.toNat % 16)]

def toHex (f : Fingerprint) : String := String.ofList (f.bytes.flatMap hexDigits)

end Fingerprint

end RootedBuild
