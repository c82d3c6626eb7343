/-!
Sets of characters given by their bounds: an increasing list of code points, at each of which
membership changes. A table of a character property is such a list.
-/
namespace RootedBuild.Text

/-- Membership of `n`, where `inside` says whether the code points before the first bound belong. -/
def withinFrom (inside : Bool) (n : Nat) : List Nat → Bool
  | [] => inside
  | bound :: rest => if n < bound then inside else withinFrom (!inside) n rest

def within (bounds : List Nat) (c : Char) : Bool := withinFrom false c.toNat bounds

end RootedBuild.Text
