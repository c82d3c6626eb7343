import Mathlib.Data.List.Chain
import RootedBuild.Json.Token

/-!
JSON documents as they are spelled. A `Symbol` is a token of the grammar with its characters, and a
`Document` is a syntax tree, whose symbols are given in two ways: strictly, or with a comma after
the last element of the containers that are marked for it. What is spelled here cannot be ill
formed; whether the reader accepts it is not said.
-/
namespace RootedBuild.Json

/-! ### Symbols -/

abbrev Digits := { ds : List Char // ds ≠ [] ∧ ∀ c ∈ ds, isDigit c = true }

inductive PowerSign where
  | absent
  | plus
  | minus

def PowerSign.chars : PowerSign → List Char
  | .absent => []
  | .plus => ['+']
  | .minus => ['-']

structure Power where
  capital : Bool
  sign : PowerSign
  digits : Digits

def Power.chars (p : Power) : List Char :=
  (if p.capital then 'E' else 'e') :: (p.sign.chars ++ p.digits.val)

/-- A numeral as it is spelled. A zero at the start of its whole part stands alone there. -/
structure NumeralForm where
  negative : Bool
  whole : Digits
  fraction : Option Digits
  power : Option Power
  zeroAlone : ∀ c rest, whole.val ≠ '0' :: c :: rest

namespace NumeralForm

def fractionChars : Option Digits → List Char
  | none => []
  | some ds => '.' :: ds.val

def powerChars : Option Power → List Char
  | none => []
  | some p => p.chars

def chars (n : NumeralForm) : List Char :=
  (if n.negative then ['-'] else []) ++
    (n.whole.val ++ (fractionChars n.fraction ++ powerChars n.power))

end NumeralForm

def shortEscapes : List Char := ['"', '\\', '/', 'b', 'f', 'n', 'r', 't']

def hexDigits : List Char := "0123456789abcdefABCDEF".toList

/-- A character of a text literal, or an escape in its place. Anything but quotes, backslashes and
control characters may stand for itself. -/
inductive TextPiece where
  | plain (c : Char) (quote : c ≠ '"') (backslash : c ≠ '\\') (control : isControl c = false)
  | short (e : Char) (known : e ∈ shortEscapes)
  | unit (h₁ h₂ h₃ h₄ : Char) (hex : ∀ h ∈ [h₁, h₂, h₃, h₄], h ∈ hexDigits)

def TextPiece.chars : TextPiece → List Char
  | .plain c _ _ _ => [c]
  | .short e _ => ['\\', e]
  | .unit h₁ h₂ h₃ h₄ _ => ['\\', 'u', h₁, h₂, h₃, h₄]

abbrev TextForm := List TextPiece

def TextForm.chars (s : TextForm) : List Char := s.flatMap TextPiece.chars

inductive Symbol where
  | openList
  | closeList
  | openRecord
  | closeRecord
  | comma
  | colon
  | word (w : Word)
  | numeral (n : NumeralForm)
  | text (s : TextForm)

namespace Symbol

def chars : Symbol → List Char
  | .openList => ['[']
  | .closeList => [']']
  | .openRecord => ['{']
  | .closeRecord => ['}']
  | .comma => [',']
  | .colon => [':']
  | .word w => w.letters
  | .numeral n => n.chars
  | .text s => '"' :: (s.chars ++ ['"'])

def isMark : Symbol → Bool
  | .word _ | .numeral _ | .text _ => false
  | _ => true

def isComma : Symbol → Bool
  | .comma => true
  | _ => false

def closes : Symbol → Bool
  | .closeList | .closeRecord => true
  | _ => false

end Symbol

/-! ### Documents -/

/-- A syntax tree. A container says whether a comma stands after its last element when such commas
are written; in an empty one there is none. -/
inductive Document where
  | word (w : Word)
  | numeral (n : NumeralForm)
  | text (s : TextForm)
  | list (items : List Document) (extra : Bool)
  | record (members : List (TextForm × Document)) (extra : Bool)

def extraComma (loose extra : Bool) : List Symbol := if loose && extra then [.comma] else []

mutual

/-- The symbols of a document, with or without its extra commas. -/
def Document.symbols (loose : Bool) : Document → List Symbol
  | .word w => [.word w]
  | .numeral n => [.numeral n]
  | .text s => [.text s]
  | .list [] _ => [.openList, .closeList]
  | .list (d :: ds) extra =>
    .openList :: (d.symbols loose ++
      (laterItems loose ds ++ (extraComma loose extra ++ [.closeList])))
  | .record [] _ => [.openRecord, .closeRecord]
  | .record ((key, d) :: members) extra =>
    .openRecord :: .text key :: .colon :: (d.symbols loose ++
      (laterMembers loose members ++ (extraComma loose extra ++ [.closeRecord])))

def laterItems (loose : Bool) : List Document → List Symbol
  | [] => []
  | d :: ds => .comma :: (d.symbols loose ++ laterItems loose ds)

def laterMembers (loose : Bool) : List (TextForm × Document) → List Symbol
  | [] => []
  | (key, d) :: members =>
    .comma :: .text key :: .colon :: (d.symbols loose ++ laterMembers loose members)

end

theorem symbols_ne_nil (loose : Bool) (d : Document) : d.symbols loose ≠ [] := by
  cases d with
  | list items extra => cases items <;> simp [Document.symbols]
  | record members extra => cases members <;> simp [Document.symbols]
  | _ => simp [Document.symbols]

/-! ### Neighbours -/

/-- No two scalars stand side by side. -/
def Apart (ss : List Symbol) : Prop :=
  List.IsChain (fun s next => s.isMark = true ∨ next.isMark = true) ss

theorem Apart.cons_mark {s : Symbol} {ss : List Symbol} (h : Apart ss) (mark : s.isMark = true) :
    Apart (s :: ss) :=
  List.isChain_cons.mpr ⟨fun _ _ => .inl mark, h⟩

/-- Symbols apart from each other, the first of which is a mark. Anything may stand before them. -/
def MarkFirst (ss : List Symbol) : Prop :=
  Apart ss ∧ ∃ mark rest, ss = mark :: rest ∧ mark.isMark = true

theorem Apart.markFirst {s : Symbol} {ss : List Symbol} (h : Apart ss) (mark : s.isMark = true) :
    MarkFirst (s :: ss) :=
  ⟨h.cons_mark mark, s, ss, rfl, mark⟩

theorem MarkFirst.cons {ss : List Symbol} (h : MarkFirst ss) (s : Symbol) : Apart (s :: ss) := by
  obtain ⟨apart, mark, rest, rfl, isMark⟩ := h
  exact List.isChain_cons_cons.mpr ⟨.inr isMark, apart⟩

theorem MarkFirst.extraComma {ss : List Symbol} (h : MarkFirst ss) (loose extra : Bool) :
    MarkFirst (extraComma loose extra ++ ss) := by
  unfold Json.extraComma
  split
  · exact h.1.markFirst rfl
  · exact h

mutual

theorem Document.apart_append (loose : Bool) {ss : List Symbol} (h : MarkFirst ss) :
    (d : Document) → Apart (d.symbols loose ++ ss)
  | .word w => h.cons (.word w)
  | .numeral n => h.cons (.numeral n)
  | .text s => h.cons (.text s)
  | .list [] _ => (h.cons .closeList).cons_mark rfl
  | .list (d :: ds) extra => by
      have closing : MarkFirst (.closeList :: ss) := h.1.markFirst rfl
      have items := laterItems_markFirst loose (closing.extraComma loose extra) ds
      simpa [Document.symbols] using (d.apart_append loose items).cons_mark (s := .openList) rfl
  | .record [] _ => (h.cons .closeRecord).cons_mark rfl
  | .record ((key, d) :: members) extra => by
      have closing : MarkFirst (.closeRecord :: ss) := h.1.markFirst rfl
      have others := laterMembers_markFirst loose (closing.extraComma loose extra) members
      have named := ((d.apart_append loose others).markFirst (s := .colon) rfl).cons (.text key)
      simpa [Document.symbols] using named.cons_mark (s := .openRecord) rfl

theorem laterItems_markFirst (loose : Bool) {ss : List Symbol} (h : MarkFirst ss) :
    (ds : List Document) → MarkFirst (laterItems loose ds ++ ss)
  | [] => h
  | d :: ds => by
      have item := d.apart_append loose (laterItems_markFirst loose h ds)
      simpa [laterItems] using item.markFirst (s := .comma) rfl

theorem laterMembers_markFirst (loose : Bool) {ss : List Symbol} (h : MarkFirst ss) :
    (members : List (TextForm × Document)) → MarkFirst (laterMembers loose members ++ ss)
  | [] => h
  | (key, d) :: members => by
      have value := d.apart_append loose (laterMembers_markFirst loose h members)
      have named := (value.markFirst (s := .colon) rfl).cons (.text key)
      simpa [laterMembers] using named.markFirst (s := .comma) rfl

end

theorem Document.apart (loose : Bool) (d : Document) : Apart (d.symbols loose) :=
  (d.apart_append loose (Apart.markFirst (s := .comma) List.isChain_nil rfl)).left_of_append

/-! ### Commas before a closing symbol -/

def closesFirst : List Symbol → Bool
  | [] => false
  | s :: _ => s.closes

/-- Drops every comma whose next symbol closes a container. -/
def dropCommas : List Symbol → List Symbol
  | [] => []
  | s :: ss => if s.isComma && closesFirst ss then dropCommas ss else s :: dropCommas ss

theorem dropCommas_cons {s : Symbol} (kept : s.isComma = false) (ss : List Symbol) :
    dropCommas (s :: ss) = s :: dropCommas ss := by
  simp [dropCommas, kept]

theorem dropCommas_comma {ss : List Symbol} (opens : closesFirst ss = false) :
    dropCommas (.comma :: ss) = .comma :: dropCommas ss := by
  simp [dropCommas, opens]

theorem dropCommas_extraComma (loose extra : Bool) {close : Symbol} (closes : close.closes = true)
    (ss : List Symbol) :
    dropCommas (extraComma loose extra ++ close :: ss) = close :: dropCommas ss := by
  have kept : close.isComma = false := by
    cases close <;> first | rfl | simp [Symbol.closes] at closes
  unfold extraComma
  split
  · change dropCommas (.comma :: close :: ss) = _
    rw [dropCommas, if_pos (by simp [Symbol.isComma, closesFirst, closes]), dropCommas_cons kept]
  · exact dropCommas_cons kept ss

theorem Document.closesFirst_append (loose : Bool) (d : Document) (ss : List Symbol) :
    closesFirst (d.symbols loose ++ ss) = false := by
  cases d with
  | word w => rfl
  | numeral n => rfl
  | text s => rfl
  | list items extra => cases items <;> rfl
  | record members extra => cases members <;> rfl

mutual

/-- In a document these are its extra commas, and what stands behind it does not matter. -/
theorem Document.dropCommas_append (loose : Bool) (ss : List Symbol) :
    (d : Document) → dropCommas (d.symbols loose ++ ss) = d.symbols false ++ dropCommas ss
  | .word w => rfl
  | .numeral n => rfl
  | .text s => rfl
  | .list [] _ => rfl
  | .list (d :: ds) extra => by
      have items := laterItems_dropCommas loose (extraComma loose extra ++ .closeList :: ss) ds
      rw [dropCommas_extraComma loose extra rfl] at items
      have all := d.dropCommas_append loose
        (laterItems loose ds ++ (extraComma loose extra ++ .closeList :: ss))
      simp only [Document.symbols, List.cons_append, List.append_assoc, List.nil_append]
      rw [dropCommas_cons (s := .openList) rfl, all, items]
      rfl
  | .record [] _ => rfl
  | .record ((key, d) :: members) extra => by
      have others :=
        laterMembers_dropCommas loose (extraComma loose extra ++ .closeRecord :: ss) members
      rw [dropCommas_extraComma loose extra rfl] at others
      have all := d.dropCommas_append loose
        (laterMembers loose members ++ (extraComma loose extra ++ .closeRecord :: ss))
      simp only [Document.symbols, List.cons_append, List.append_assoc, List.nil_append]
      rw [dropCommas_cons (s := .openRecord) rfl, dropCommas_cons (s := .text key) rfl,
        dropCommas_cons (s := .colon) rfl, all, others]
      rfl

theorem laterItems_dropCommas (loose : Bool) (ss : List Symbol) :
    (ds : List Document) →
      dropCommas (laterItems loose ds ++ ss) = laterItems false ds ++ dropCommas ss
  | [] => rfl
  | d :: ds => by
      have item := d.dropCommas_append loose (laterItems loose ds ++ ss)
      simp only [laterItems, List.cons_append, List.append_assoc]
      rw [dropCommas_comma (d.closesFirst_append loose _), item, laterItems_dropCommas loose ss ds]

theorem laterMembers_dropCommas (loose : Bool) (ss : List Symbol) :
    (members : List (TextForm × Document)) →
      dropCommas (laterMembers loose members ++ ss) = laterMembers false members ++ dropCommas ss
  | [] => rfl
  | (key, d) :: members => by
      have value := d.dropCommas_append loose (laterMembers loose members ++ ss)
      simp only [laterMembers, List.cons_append, List.append_assoc]
      rw [dropCommas_comma rfl, dropCommas_cons (s := .text key) rfl,
        dropCommas_cons (s := .colon) rfl, value, laterMembers_dropCommas loose ss members]

end

/-- Without its extra commas a document is as it is spelled strictly. -/
theorem Document.dropCommas_symbols (loose : Bool) (d : Document) :
    dropCommas (d.symbols loose) = d.symbols false := by
  have all := d.dropCommas_append loose []
  simpa [dropCommas] using all

end RootedBuild.Json
