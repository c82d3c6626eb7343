import RootedBuild.Text.Printable

/-!
Quoted text as messages show it: between double quotes, with a backslash before a quote or a
backslash, short escapes for the common controls, and the code point in braces for every other
character that is not printable.
-/
namespace RootedBuild.Text

def hexDigit (n : Nat) : Char := (Nat.toDigits 16 (n % 16)).headD '0'

/-- The escaped form of one character. -/
def escapeShown (c : Char) : List Char :=
  match c with
  | '\t' => ['\\', 't']
  | '\r' => ['\\', 'r']
  | '\n' => ['\\', 'n']
  | '"' => ['\\', '"']
  | '\\' => ['\\', '\\']
  | c =>
    if c.toNat == 0 then ['\\', '0']
    else if isPrintable c then [c]
    else ['\\', 'u', '{'] ++ Nat.toDigits 16 c.toNat ++ ['}']

def quoted (text : String) : String :=
  String.ofList (['"'] ++ text.toList.flatMap escapeShown ++ ['"'])

end RootedBuild.Text
