/-!
Double-precision numbers by their bits, and their value as an integer times a power of two. Two
numbers are one value here only if their bits agree, so the two zeros are apart; arithmetic is done
by the hardware type and nothing is said about its laws.
-/
namespace RootedBuild

structure Binary64 where
  bits : UInt64
  deriving DecidableEq, Repr

namespace Binary64

def ofFloat (x : Float) : Binary64 := ⟨x.toBits⟩

def toFloat (x : Binary64) : Float := Float.ofBits x.bits

/-- The weight of the topmost bit. -/
def signUnit : Nat := 0x8000000000000000

/-- The weight of the bit that a normal number leaves unwritten. -/
def hiddenUnit : Nat := 0x10000000000000

def isNegative (x : Binary64) : Bool := x.bits.toNat / signUnit == 1

def exponentField (x : Binary64) : Nat := x.bits.toNat / hiddenUnit % 2048

def fractionField (x : Binary64) : Nat := x.bits.toNat % hiddenUnit

/-- The magnitude of a finite number is `significand x * 2 ^ scale x`. -/
def significand (x : Binary64) : Nat :=
  if x.exponentField == 0 then x.fractionField else x.fractionField + hiddenUnit

def scale (x : Binary64) : Int :=
  if x.exponentField == 0 then -1074 else (x.exponentField : Int) - 1075

/-- Equality of the numbers themselves, for which the two zeros are equal. -/
def sameNumber (x y : Binary64) : Bool :=
  x == y || (x.bits.toNat % signUnit == 0 && y.bits.toNat % signUnit == 0)

end Binary64

end RootedBuild
