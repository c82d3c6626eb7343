/-!
Blank characters, as the Unicode property `White_Space` lists them. Layout inside JSON is a smaller
class and is not this one: a descriptor may hold a no-break space that counts as blank here and is
still no layout for the JSON reader.
-/
namespace RootedBuild.Text

/-- The 25 code points of `White_Space`. -/
def isBlank (c : Char) : Bool :=
  let n := c.toNat
  (9 ≤ n && n ≤ 13) || n == 32 || n == 0x85 || n == 0xA0 || n == 0x1680 ||
    (0x2000 ≤ n && n ≤ 0x200A) || n == 0x2028 || n == 0x2029 || n == 0x202F || n == 0x205F ||
    n == 0x3000

def trimStart (cs : List Char) : List Char := cs.dropWhile isBlank

def trimEnd (cs : List Char) : List Char := (cs.reverse.dropWhile isBlank).reverse

def trim (cs : List Char) : List Char := trimEnd (trimStart cs)

/-- A text is blank when nothing but blank characters stands in it. -/
def allBlank (cs : List Char) : Bool := cs.all isBlank

end RootedBuild.Text
