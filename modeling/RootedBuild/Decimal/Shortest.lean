import RootedBuild.Decimal.Binary64

/-!
The fewest decimal digits that still read back as a given binary number. A binary number `m * 2 ^ q`
owns the reals that round to it; of the decimal grids `10 ^ k` the coarsest that has a point there
gives the fewest digits, and of two points the nearer is taken, a tie going to the even one.
-/
namespace RootedBuild

/-- The number `digits * 10 ^ exponent`. -/
structure Decimal where
  digits : Nat
  exponent : Int
  deriving DecidableEq, Repr

namespace Decimal

def pow10 (k : Int) : Nat := Nat.pow 10 k.toNat

def pow2 (k : Int) : Nat := Nat.pow 2 k.toNat

/-- The interval of reals that round to a binary number, its centre between its ends, all three as
numerators over one denominator. The ends belong to it only when the significand is even. -/
structure Owned where
  low : Nat
  centre : Nat
  high : Nat
  denominator : Nat
  closed : Bool

/-- The gap below a power of two is half as wide, the least normal number apart. -/
def owned (m : Nat) (q : Int) : Owned :=
  let below := if m == Binary64.hiddenUnit && q > -1074 then 1 else 2
  let up := pow2 (q - 2)
  ⟨(4 * m - below) * up, 4 * m * up, (4 * m + 2) * up, pow2 (2 - q), m % 2 == 0⟩

def Owned.holds (o : Owned) (numerator : Nat) : Bool :=
  if o.closed then o.low ≤ numerator && numerator ≤ o.high
  else o.low < numerator && numerator < o.high

/-- The interval measured in units of `10 ^ k`. -/
def Owned.inUnits (o : Owned) (k : Int) : Owned :=
  let down := pow10 (-k)
  ⟨o.low * down, o.centre * down, o.high * down, o.denominator * pow10 k, o.closed⟩

/-- The grid point that stands for the number, where the grid of unit `10 ^ k` has one. -/
def Owned.point? (o : Owned) (k : Int) : Option Nat :=
  let u := o.inUnits k
  let d := u.centre / u.denominator
  let lower := d ≠ 0 && u.holds (d * u.denominator)
  let upper := u.holds ((d + 1) * u.denominator)
  if lower && upper then
    let past := 2 * (u.centre % u.denominator)
    if past < u.denominator then some d
    else if u.denominator < past then some (d + 1)
    else if d % 2 == 0 then some d else some (d + 1)
  else if lower then some d
  else if upper then some (d + 1)
  else none

/-- Tries the grids from `10 ^ k` downwards. -/
def Owned.coarsest (o : Owned) : Nat → Int → Decimal
  | 0, k => ⟨0, k⟩
  | fuel + 1, k =>
    match o.point? k with
    | some d => ⟨d, k⟩
    | none => o.coarsest fuel (k - 1)

/-- No finite number exceeds `10 ^ 309`, and the grid of unit `10 ^ -324` has a point for each. -/
def shortest (m : Nat) (q : Int) : Decimal := (owned m q).coarsest 640 310

/-- How far from the point digits are still written in place. -/
structure Layout where
  widest : Int
  leastPoint : Int

/-- In place up to sixteen digits before the point and four zeros after it. -/
def Layout.plain : Layout := ⟨16, -5⟩

def zeros (n : Int) : List Char := List.replicate n.toNat '0'

def digitsOf (d : Nat) : List Char := Nat.toDigits 10 d

/-- An exponent always shows its sign. -/
def exponentText (e : Int) : List Char :=
  'e' :: (if e < 0 then '-' else '+') :: digitsOf e.natAbs

/-- A positive decimal always shows a point or an exponent. -/
def render (l : Layout) (d : Decimal) : List Char :=
  let s := digitsOf d.digits
  let point : Int := s.length + d.exponent
  if 0 ≤ d.exponent && point ≤ l.widest then s ++ zeros d.exponent ++ ['.', '0']
  else if 0 < point && point ≤ l.widest then s.take point.toNat ++ ['.'] ++ s.drop point.toNat
  else if l.leastPoint < point && point ≤ 0 then ['0', '.'] ++ zeros (-point) ++ s
  else
    let mantissa := match s with
      | [] => []
      | [c] => [c]
      | c :: rest => c :: '.' :: rest
    mantissa ++ exponentText (point - 1)

end Decimal

namespace Binary64

/-- The shortest text of a finite number. -/
def text (x : Binary64) : String :=
  let magnitude :=
    if x.significand == 0 then ['0', '.', '0']
    else (Decimal.shortest x.significand x.scale).render .plain
  String.ofList (if x.isNegative then '-' :: magnitude else magnitude)

/-- A non-negative finite number rounded to one decimal place, exact ties to the even digit. -/
def tenths (x : Binary64) : String :=
  let numerator := 10 * x.significand * Decimal.pow2 x.scale
  let denominator := Decimal.pow2 (-x.scale)
  let floor := numerator / denominator
  let past := 2 * (numerator % denominator)
  let rounded :=
    if past < denominator then floor
    else if denominator < past then floor + 1
    else floor + floor % 2
  s!"{rounded / 10}.{rounded % 10}"

end Binary64

end RootedBuild
