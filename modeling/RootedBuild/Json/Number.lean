import RootedBuild.Decimal.Binary64
import RootedBuild.Json.Fault

/-!
Numbers of a JSON text. A numeral without fraction and exponent that fits 64 bits is an integer;
every other one is a binary number, computed from its first digits that fit 64 bits and one scaling
by a power of ten. That is not always the nearest binary number, and nothing here says it is.
-/
namespace RootedBuild.Json

inductive Number where
  | int (n : Int)
  | real (x : Binary64)
  deriving DecidableEq, Repr

/-- A numeral by its parts; `fraction` is empty when there is no point. -/
structure Numeral where
  negative : Bool
  whole : List Char
  fraction : List Char
  exponent : Option (Bool × List Char)
  deriving DecidableEq, Repr

namespace Numeral

def digitValue (c : Char) : Nat := c.toNat - '0'.toNat

def wordLimit : Nat := 0xFFFFFFFFFFFFFFFF

/-- A significand of 64 bits and the power of ten that it still has to be scaled by. -/
structure Scaled where
  significand : Nat
  power : Int
  full : Bool := false
  deriving DecidableEq, Repr

/-- Once a digit does not fit, it and the rest of the whole part only scale. -/
def Scaled.addWhole (s : Scaled) (c : Char) : Scaled :=
  let grown := s.significand * 10 + digitValue c
  if s.full || wordLimit < grown then ⟨s.significand, s.power + 1, true⟩
  else ⟨grown, s.power, false⟩

/-- Once a digit of the fraction does not fit, the rest of it is dropped. -/
def Scaled.addFraction (s : Scaled) (c : Char) : Scaled :=
  let grown := s.significand * 10 + digitValue c
  if s.full || wordLimit < grown then { s with full := true }
  else ⟨grown, s.power - 1, false⟩

def scaled (n : Numeral) : Scaled :=
  let whole := n.whole.foldl Scaled.addWhole ⟨0, 0, false⟩
  n.fraction.foldl Scaled.addFraction { whole with full := false }

def powerLimit : Nat := 0x7FFFFFFF

/-- Reads the digits of an exponent; when they exceed 31 bits, gives how many had been read. -/
def readPower (seen value : Nat) : List Char → Except Nat Nat
  | [] => .ok value
  | c :: cs =>
    let grown := value * 10 + digitValue c
    if powerLimit < grown then .error (seen + 1) else readPower (seen + 1) grown cs

def clampPower (p : Int) : Int := max (-powerLimit - 1) (min p powerLimit)

def tenTo (n : Nat) : Float := Float.ofScientific 1 false n

/-- Scales by a power of ten in one step, or in steps of 308 downwards until nothing is left: three
such steps bring any 64-bit number to zero. -/
def scaleBy : Nat → Float → Int → Option Float
  | 0, x, _ => some x
  | fuel + 1, x, p =>
    if p.natAbs ≤ 308 then
      if 0 ≤ p then
        let y := x * tenTo p.toNat
        if y.isInf then none else some y
      else some (x / tenTo p.natAbs)
    else if x == 0 then some x
    else if 0 ≤ p then none
    else scaleBy fuel (x / tenTo 308) (p + 308)

def signed (negative : Bool) (x : Float) : Number := .real (.ofFloat (if negative then -x else x))

def realValue (negative : Bool) (s : Scaled) (power : Int) : Option Number :=
  (scaleBy 5 s.significand.toUInt64.toFloat power).map (signed negative)

/-- A negative integer that does not fit 64 bits, and minus zero, are binary numbers. -/
def intValue (negative : Bool) (significand : Nat) : Number :=
  if !negative then .int significand
  else if 0 < significand && significand ≤ 0x8000000000000000 then .int (-significand)
  else signed true significand.toUInt64.toFloat

/-- The value of a numeral whose exponent digits, if any, start at `digits` and which ends at
`stop`. -/
def value (n : Numeral) (digits stop : Position) : Except Fault Number :=
  let s := n.scaled
  let inRange (r : Option Number) : Except Fault Number :=
    match r with
    | some v => .ok v
    | none => .error ⟨.numberOutOfRange, stop⟩
  match n.exponent with
  | none =>
    if n.fraction.isEmpty && s.power == 0 then .ok (intValue n.negative s.significand)
    else inRange (realValue n.negative s s.power)
  | some (down, power) =>
    match readPower 0 0 power with
    | .ok p =>
      inRange (realValue n.negative s (clampPower (if down then s.power - p else s.power + p)))
    | .error seen =>
      if s.significand ≠ 0 && !down then .error ⟨.numberOutOfRange, digits.right seen⟩
      else .ok (signed n.negative 0)

end Numeral

end RootedBuild.Json
