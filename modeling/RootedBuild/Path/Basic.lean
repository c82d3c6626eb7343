/-!
Paths as text with `/` between names. Two spellings of one path, such as `a/b` and `a//./b`, keep
their own text and are told to be the same by their parts. No path is looked up here: `..` is a part
like any other.
-/
namespace RootedBuild

structure Path where
  text : String
  deriving DecidableEq, Repr

instance : Inhabited Path := ⟨⟨""⟩⟩

/-- A part of a path: the root, a `.` at the start of a relative path, `..`, or a name. -/
inductive Part where
  | root
  | here
  | up
  | name (s : String)
  deriving DecidableEq, Repr

namespace Part

def text : Part → String
  | .root => "/"
  | .here => "."
  | .up => ".."
  | .name s => s

end Part

namespace Path

/-- The pieces between slashes, of which there is one more than there are slashes. -/
def splitSlash : List Char → List (List Char)
  | [] => [[]]
  | c :: cs =>
    if c = '/' then [] :: splitSlash cs
    else
      match splitSlash cs with
      | [] => [[c]]
      | piece :: rest => (c :: piece) :: rest

def joinSlash : List (List Char) → List Char
  | [] => []
  | [piece] => piece
  | piece :: rest => piece ++ '/' :: joinSlash rest

def isAbsolute (p : Path) : Bool := p.text.toList.head? == some '/'

/-- The pieces of the path, without the slash of the root. -/
def pieces (p : Path) : List (List Char) :=
  match p.text.toList with
  | '/' :: cs => splitSlash cs
  | cs => splitSlash cs

/-- A piece that is no part: an empty one, or a dot other than at the start of a relative path. -/
def isIdle (first : Bool) (piece : List Char) : Bool := piece.isEmpty || (piece == ['.'] && !first)

def partOf (piece : List Char) : Part :=
  if piece == ['.'] then .here
  else if piece == ['.', '.'] then .up
  else .name (String.ofList piece)

/-- The parts of a path after its root, where `first` marks the start of a relative path. -/
def partsOf (first : Bool) : List (List Char) → List Part
  | [] => []
  | piece :: rest =>
    if isIdle first piece then partsOf false rest else partOf piece :: partsOf false rest

def parts (p : Path) : List Part :=
  if p.isAbsolute then .root :: partsOf false p.pieces else partsOf true p.pieces

/-- Two spellings of one path. -/
def same (p q : Path) : Bool := p.parts == q.parts

/-- Every part of `dir`, in order, starts `p`. -/
def startsWith (p dir : Path) : Bool := dir.parts.isPrefixOf p.parts

/-- The pieces behind those that make up the given parts, if the parts come first. -/
def piecesAfter (first : Bool) : List Part → List (List Char) → Option (List (List Char))
  | [], pieces => some pieces
  | _ :: _, [] => none
  | part :: parts, piece :: rest =>
    if isIdle first piece then piecesAfter false (part :: parts) rest
    else if partOf piece = part then piecesAfter false parts rest
    else none

def ofPieces (absolute : Bool) (pieces : List (List Char)) : Path :=
  ⟨String.ofList (if absolute then '/' :: joinSlash pieces else joinSlash pieces)⟩

/-- `p` followed by `q`; an absolute `q` stands alone, and an empty one leaves a slash at the
end. -/
def join (p q : Path) : Path :=
  if q.isAbsolute then q
  else if p.text.isEmpty || p.text.toList.getLast? == some '/' then ⟨p.text ++ q.text⟩
  else ⟨p.text ++ "/" ++ q.text⟩

def child (p : Path) (name : String) : Path := p.join ⟨name⟩

/-- The path with more text at its end, such as a file name's extension. -/
def append (p : Path) (suffix : String) : Path := ⟨p.text ++ suffix⟩

/-- Drops the pieces at both ends that are no parts. -/
def trimIdle (pieces : List (List Char)) : List (List Char) :=
  ((pieces.dropWhile (isIdle false)).reverse.dropWhile (isIdle false)).reverse

/-- What stands behind `dir` in the spelling of `p`, if every part of `dir`, in order, starts `p`.
Only at its ends the spelling is tidied; an empty `dir` leaves `p` as it is. -/
def after? (p dir : Path) : Option Path :=
  let behind (first : Bool) (parts : List Part) : Option Path :=
    (piecesAfter first parts p.pieces).map fun pieces => ofPieces false (trimIdle pieces)
  match dir.parts with
  | [] => some p
  | .root :: parts => if p.isAbsolute then behind false parts else none
  | parts => if p.isAbsolute then none else behind true parts

/-- The pieces of the paths above, nearest first, from the pieces in reverse: each part dropped
gives one, less the idle pieces that then stand at its end. -/
def above (absolute : Bool) : List (List Char) → List (List (List Char))
  | [] => []
  | piece :: rest =>
    if isIdle (!absolute && rest.isEmpty) piece then above absolute rest
    else trimEnd absolute rest :: above absolute rest
where
  /-- Drops idle pieces at the end of a path given in reverse. -/
  trimEnd (absolute : Bool) : List (List Char) → List (List Char)
    | [] => []
    | piece :: rest =>
      if isIdle (!absolute && rest.isEmpty) piece then trimEnd absolute rest else piece :: rest

/-- The directories above a path, nearest first: up to the root, or to the empty path. -/
def parents (p : Path) : List Path :=
  (above p.isAbsolute p.pieces.reverse).map fun pieces => ofPieces p.isAbsolute pieces.reverse

def parent? (p : Path) : Option Path := p.parents.head?

def ancestors (p : Path) : List Path := p :: p.parents

/-- The last part, if it is a name. -/
def fileName? (p : Path) : Option String :=
  match p.parts.getLast? with
  | some (.name s) => some s
  | _ => none

theorem splitSlash_ne_nil (cs : List Char) : splitSlash cs ≠ [] := by
  cases cs with
  | nil => simp [splitSlash]
  | cons c cs =>
    simp only [splitSlash]
    split
    · simp
    · split <;> simp

/-- Nothing of a text is lost in its pieces. -/
theorem joinSlash_splitSlash (cs : List Char) : joinSlash (splitSlash cs) = cs := by
  induction cs with
  | nil => rfl
  | cons c cs ih =>
    obtain ⟨piece, rest, h⟩ := List.exists_cons_of_ne_nil (splitSlash_ne_nil cs)
    rw [h] at ih
    by_cases hc : c = '/'
    · simp [splitSlash, hc, h, joinSlash, ih]
    · cases rest <;> simp_all [splitSlash, joinSlash]

theorem same_self (p : Path) : p.same p = true := by simp [same]

theorem same_iff (p q : Path) : p.same q = true ↔ p.parts = q.parts := by simp [same]

theorem same_comm (p q : Path) : p.same q = q.same p := by simp [same, Bool.beq_comm]

/-- Spellings of one path stand in the same relation to every other path. -/
theorem same_congr {p q : Path} (h : p.same q = true) (r : Path) : p.same r = q.same r := by
  simp [same, (same_iff p q).1 h]

end Path

end RootedBuild
