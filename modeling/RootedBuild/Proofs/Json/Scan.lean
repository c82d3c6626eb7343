import RootedBuild.Proofs.Json.Grammar
import RootedBuild.Proofs.Json.Unplaced
import RootedBuild.Text.Blank

/-!
Spelled symbols are scanned as the tokens they spell. When the symbols of a document are written
with layout between them, or with none, the scanner finds one token for each, and what the tokens
carry hangs on the symbols only: `stream` gives them without positions. Strict readings that fail
are scanned like all others.
-/
namespace RootedBuild.Json

/-! ### Numerals -/

/-- Characters that can follow a numeral without going on with it. -/
def Stops (cs : List Char) : Prop :=
  ∀ c rest, cs = c :: rest → isDigit c = false ∧ c ≠ '.' ∧ c ≠ 'e' ∧ c ≠ 'E'

def NoDigit (cs : List Char) : Prop := ∀ c rest, cs = c :: rest → isDigit c = false

theorem Stops.noDigit {cs : List Char} (h : Stops cs) : NoDigit cs :=
  fun c rest split => (h c rest split).1

theorem digitsAt_append {ds rest : List Char} (digits : ∀ c ∈ ds, isDigit c = true)
    (stop : NoDigit rest) (p : Position) :
    digitsAt ⟨ds ++ rest, p⟩ = (ds, ⟨rest, p.right ds.length⟩) := by
  have taken : (ds ++ rest).takeWhile isDigit = ds := by
    rw [List.takeWhile_append_of_pos digits]
    cases rest with
    | nil => rw [List.takeWhile_nil, List.append_nil]
    | cons c rest => simp [stop c rest rfl]
  simp only [digitsAt, taken, List.drop_left]

namespace NumeralForm

def fractionDigits : Option Digits → List Char
  | none => []
  | some ds => ds.val

def downwards : PowerSign → Bool
  | .minus => true
  | _ => false

def powerDigits : Option Power → Option (Bool × List Char)
  | none => none
  | some p => some (downwards p.sign, p.digits.val)

def numeral (n : NumeralForm) : Numeral :=
  ⟨n.negative, n.whole.val, fractionDigits n.fraction, powerDigits n.power⟩

end NumeralForm

open NumeralForm

theorem wholePart_append (n : NumeralForm) {rest : List Char} (stop : NoDigit rest)
    (p : Position) : ∃ q, wholePart ⟨n.whole.val ++ rest, p⟩ = .ok (n.whole.val, ⟨rest, q⟩) := by
  have found := digitsAt_append n.whole.property.2 stop p
  refine ⟨p.right n.whole.val.length, ?_⟩
  unfold wholePart
  dsimp only
  rw [found]
  dsimp only
  split
  · rename_i empty
    exact absurd empty n.whole.property.1
  · rename_i c cs zero
    exact absurd zero (n.zeroAlone c cs)
  · rfl

theorem fractionPart_append (fraction : Option Digits) {rest : List Char} (stop : NoDigit rest)
    (noPoint : ∀ cs, rest ≠ '.' :: cs) (p : Position) :
    ∃ q, fractionPart ⟨fractionChars fraction ++ rest, p⟩ =
      .ok (fractionDigits fraction, ⟨rest, q⟩) := by
  cases fraction with
  | none =>
      refine ⟨p, ?_⟩
      unfold fractionPart
      split
      · rename_i cs same
        exact absurd same (noPoint cs)
      · rfl
  | some ds =>
      have found := digitsAt_append ds.property.2 stop (p.right 1)
      have nonempty := ds.property.1
      refine ⟨(p.right 1).right ds.val.length, ?_⟩
      simp only [fractionPart, fractionChars, fractionDigits, List.cons_append, found]
      generalize ds.val = digits at nonempty
      cases digits with
      | nil => exact absurd rfl nonempty
      | cons d digits => rfl

theorem exponentSign_append (sign : PowerSign) (ds : Digits) (rest : List Char) (p : Position) :
    ∃ q, exponentSign ⟨sign.chars ++ (ds.val ++ rest), p⟩ =
      (downwards sign, ⟨ds.val ++ rest, q⟩) := by
  obtain ⟨digits, nonempty, all⟩ := ds
  cases sign with
  | plus => exact ⟨_, rfl⟩
  | minus => exact ⟨_, rfl⟩
  | absent =>
      refine ⟨p, ?_⟩
      cases digits with
      | nil => exact absurd rfl nonempty
      | cons d digits =>
          have digit := all d (by simp)
          unfold exponentSign
          split
          · rename_i cs same
            simp only [PowerSign.chars, List.nil_append, List.cons_append, List.cons.injEq] at same
            rw [same.1] at digit
            exact absurd digit (by decide)
          · rename_i cs same
            simp only [PowerSign.chars, List.nil_append, List.cons_append, List.cons.injEq] at same
            rw [same.1] at digit
            exact absurd digit (by decide)
          · rfl

theorem exponentPart_append (power : Option Power) {rest : List Char} (stop : Stops rest)
    (p : Position) :
    ∃ d q, exponentPart ⟨powerChars power ++ rest, p⟩ = .ok ⟨powerDigits power, d, ⟨rest, q⟩⟩ := by
  cases power with
  | none =>
      refine ⟨p, p, ?_⟩
      cases rest with
      | nil => rfl
      | cons c rest =>
          obtain ⟨_, _, small, capital⟩ := stop c rest rfl
          simp [exponentPart, powerChars, powerDigits, small, capital]
  | some power =>
      obtain ⟨capital, sign, ds⟩ := power
      obtain ⟨q, signed⟩ := exponentSign_append sign ds rest (p.right 1)
      have found := digitsAt_append ds.property.2 stop.noDigit q
      have letter : ((if capital = true then 'E' else 'e') == 'e' ||
          (if capital = true then 'E' else 'e') == 'E') = true := by
        cases capital <;> rfl
      have nonempty := ds.property.1
      refine ⟨q, q.right ds.val.length, ?_⟩
      simp only [exponentPart, powerChars, Power.chars, List.cons_append, List.append_assoc, letter,
        if_true, signed, found]
      cases split : ds.val with
      | nil => exact absurd split nonempty
      | cons d digits => simp [powerDigits, split]

theorem noDigit_powerChars (power : Option Power) {rest : List Char} (stop : Stops rest) :
    NoDigit (powerChars power ++ rest) ∧ ∀ cs, powerChars power ++ rest ≠ '.' :: cs := by
  cases power with
  | none => exact ⟨stop.noDigit, fun cs same => (stop '.' cs same).2.1 rfl⟩
  | some power =>
      constructor
      · intro c cs split
        simp only [powerChars, Power.chars, List.cons_append, List.cons.injEq] at split
        rw [← split.1]
        cases power.capital <;> rfl
      · intro cs same
        simp only [powerChars, Power.chars, List.cons_append, List.cons.injEq] at same
        cases h : power.capital <;> simp [h] at same

theorem noDigit_fractionChars (fraction : Option Digits) {rest : List Char} (stop : NoDigit rest) :
    NoDigit (fractionChars fraction ++ rest) := by
  cases fraction with
  | none => exact stop
  | some ds =>
      intro c cs split
      simp only [fractionChars, List.cons_append, List.cons.injEq] at split
      rw [← split.1]
      rfl

/-- A numeral without a sign starts with a digit. -/
theorem NumeralForm.whole_head (n : NumeralForm) (rest : List Char) :
    ∃ c cs, n.whole.val ++ rest = c :: cs ∧ isDigit c = true := by
  obtain ⟨nonempty, digits⟩ := n.whole.property
  cases split : n.whole.val with
  | nil => exact absurd split nonempty
  | cons c cs => exact ⟨c, cs ++ rest, rfl, digits c (by simp [split])⟩

theorem numeralAt_signed (negative : Bool) {c : Char} (digit : isDigit c = true) (cs : List Char)
    (p : Position) :
    numeralAt ⟨(if negative then ['-'] else []) ++ c :: cs, p⟩ = (do
      let (whole, r) ← wholePart ⟨c :: cs, if negative then p.right 1 else p⟩
      let (fraction, r) ← fractionPart r
      let found ← exponentPart r
      return ((⟨negative, whole, fraction, found.exponent⟩ : Numeral).value found.digits
        found.rest.position, found.rest)) := by
  cases negative with
  | true => rfl
  | false =>
      have other : c ≠ '-' := by
        rintro rfl
        exact absurd digit (by decide)
      simp [numeralAt, other]

/-- A numeral is read up to where it stops, by its parts. -/
theorem numeralAt_append (n : NumeralForm) {rest : List Char} (stop : Stops rest) (p : Position) :
    ∃ d s q, numeralAt ⟨n.chars ++ rest, p⟩ = .ok (n.numeral.value d s, ⟨rest, q⟩) := by
  have afterFraction := noDigit_powerChars n.power stop
  have afterWhole := noDigit_fractionChars n.fraction afterFraction.1
  obtain ⟨q₁, whole⟩ := wholePart_append n afterWhole (if n.negative then p.right 1 else p)
  obtain ⟨q₂, fraction⟩ := fractionPart_append n.fraction afterFraction.1 afterFraction.2 q₁
  obtain ⟨d, q₃, power⟩ := exponentPart_append n.power stop q₂
  obtain ⟨c, cs, split, digit⟩ :=
    n.whole_head (fractionChars n.fraction ++ (powerChars n.power ++ rest))
  refine ⟨d, q₃, q₃, ?_⟩
  rw [NumeralForm.chars, List.append_assoc, List.append_assoc, List.append_assoc, split,
    numeralAt_signed n.negative digit, ← split, whole]
  dsimp only [bind, Except.bind]
  rw [fraction]
  dsimp only
  rw [power]
  rfl

/-- The places that are told in a numeral's fault are all that hangs on where it stands. -/
theorem Numeral.value_unplaced (n : Numeral) (d s d' s' : Position) :
    unplacedReading (n.value d s) = unplacedReading (n.value d' s') := by
  unfold Numeral.value
  dsimp only
  cases n.exponent with
  | none =>
      dsimp only
      split
      · rfl
      · cases realValue n.negative n.scaled n.scaled.power <;> rfl
  | some exponent =>
      obtain ⟨down, power⟩ := exponent
      dsimp only
      cases readPower 0 0 power with
      | ok p =>
          dsimp only
          generalize clampPower _ = scale
          cases realValue n.negative n.scaled scale <;> rfl
      | error seen =>
          dsimp only
          split <;> rfl

/-! ### Text literals -/

theorem hexValue?_of_mem {c : Char} (h : c ∈ hexDigits) : ∃ n, hexValue? c = some n := by
  have all : hexDigits.all (fun c => (hexValue? c).isSome) = true := by decide
  exact Option.isSome_iff_exists.mp (List.all_eq_true.mp all c h)

theorem codeUnit?_of_mem {h₁ h₂ h₃ h₄ : Char} (hex : ∀ h ∈ [h₁, h₂, h₃, h₄], h ∈ hexDigits) :
    ∃ n, codeUnit? h₁ h₂ h₃ h₄ = some n := by
  obtain ⟨a, ha⟩ := hexValue?_of_mem (hex h₁ (by simp))
  obtain ⟨b, hb⟩ := hexValue?_of_mem (hex h₂ (by simp))
  obtain ⟨c, hc⟩ := hexValue?_of_mem (hex h₃ (by simp))
  obtain ⟨d, hd⟩ := hexValue?_of_mem (hex h₄ (by simp))
  exact ⟨_, by simp [codeUnit?, ha, hb, hc, hd]; rfl⟩

theorem shortEscape?_of_mem {e : Char} (h : e ∈ shortEscapes) :
    e ≠ 'u' ∧ ∃ c, shortEscape? e = some c := by
  have all : shortEscapes.all (fun e => e != 'u' && (shortEscape? e).isSome) = true := by decide
  have one := List.all_eq_true.mp all e h
  rw [Bool.and_eq_true, bne_iff_ne] at one
  exact ⟨one.1, Option.isSome_iff_exists.mp one.2⟩

theorem passText_quote (p : Position) (cs : List Char) :
    passText p ('"' :: cs) = .ok ⟨cs, p.right 1⟩ := by
  rw [passText.eq_def]
  simp

/-- Each piece of a text literal is passed over, whatever follows it. -/
theorem passText_piece (piece : TextPiece) (p : Position) :
    ∃ q, ∀ rest, passText p (piece.chars ++ rest) = passText q rest := by
  cases piece with
  | plain c quote backslash control =>
      refine ⟨p.after c, ?_⟩
      intro rest
      rw [TextPiece.chars, List.singleton_append, passText.eq_def]
      simp [quote, backslash, control]
  | short e known =>
      obtain ⟨other, c, escape⟩ := shortEscape?_of_mem known
      refine ⟨p.right 2, ?_⟩
      intro rest
      change passText p ('\\' :: e :: rest) = _
      rw [passText.eq_def]
      simp [other, escape]
  | unit h₁ h₂ h₃ h₄ hex =>
      obtain ⟨n, unit⟩ := codeUnit?_of_mem hex
      refine ⟨p.right 6, ?_⟩
      intro rest
      change passText p ('\\' :: 'u' :: h₁ :: h₂ :: h₃ :: h₄ :: rest) = _
      rw [passText.eq_def]
      simp [unit]

theorem passText_append (s : TextForm) (rest : List Char) (p : Position) :
    ∃ q, passText p (s.chars ++ '"' :: rest) = .ok ⟨rest, q⟩ := by
  induction s generalizing p with
  | nil => exact ⟨p.right 1, passText_quote p rest⟩
  | cons piece s ih =>
      obtain ⟨next, step⟩ := passText_piece piece p
      obtain ⟨q, passed⟩ := ih next
      refine ⟨q, ?_⟩
      rw [TextForm.chars, List.flatMap_cons, List.append_assoc, step]
      exact passed

/-- What comes of the strict reading of a piece: the high surrogate that then waits for its partner,
and the text read so far. -/
def TextPiece.read (high : Option Nat) (seen : List Char) :
    TextPiece → Except Complaint (Option Nat × List Char)
  | .plain c _ _ _ => if high.isSome then .error .unfinishedPair else .ok (none, c :: seen)
  | .short e _ =>
    if high.isSome then .error .unfinishedPair else .ok (none, (shortEscape? e).getD e :: seen)
  | .unit h₁ h₂ h₃ h₄ _ =>
    match (codeUnit? h₁ h₂ h₃ h₄).bind (takeUnit high seen) with
    | some next => .ok next
    | none => .error .loneSurrogate

theorem readText_quote (high : Option Nat) (seen : List Char) (p : Position) (cs : List Char) :
    unplacedReading (readText high seen p ('"' :: cs)) =
      if high.isSome then .error ⟨.unfinishedPair, {}⟩
      else .ok (String.ofList seen.reverse) := by
  rw [readText.eq_def]
  cases high <;> simp <;> rfl

/-- Reading a piece strictly does not hang on what follows it. -/
theorem readText_piece (piece : TextPiece) (high : Option Nat) (seen : List Char) (p : Position) :
    ∃ q, ∀ rest, unplacedReading (readText high seen p (piece.chars ++ rest)) =
      ((piece.read high seen).mapError fun c => Fault.mk c {}).bind fun next =>
        unplacedReading (readText next.1 next.2 q rest) := by
  cases piece with
  | plain c quote backslash control =>
      refine ⟨p.after c, ?_⟩
      intro rest
      rw [TextPiece.chars, List.singleton_append, readText.eq_def, TextPiece.read]
      cases high <;> simp [quote, backslash, control] <;> rfl
  | short e known =>
      obtain ⟨other, c, escape⟩ := shortEscape?_of_mem known
      refine ⟨p.right 2, ?_⟩
      intro rest
      change unplacedReading (readText high seen p ('\\' :: e :: rest)) = _
      rw [readText.eq_def, TextPiece.read]
      cases high <;> simp [other, escape] <;> rfl
  | unit h₁ h₂ h₃ h₄ hex =>
      obtain ⟨n, unit⟩ := codeUnit?_of_mem hex
      refine ⟨p.right 6, ?_⟩
      intro rest
      change unplacedReading
        (readText high seen p ('\\' :: 'u' :: h₁ :: h₂ :: h₃ :: h₄ :: rest)) = _
      rw [readText.eq_def, TextPiece.read]
      cases taken : takeUnit high seen n <;> simp [unit, taken] <;> rfl

/-- The strict reading of a text literal does not hang on what follows it. -/
theorem readText_append (s : TextForm) (rest rest' : List Char) (high : Option Nat)
    (seen : List Char) (p p' : Position) :
    unplacedReading (readText high seen p (s.chars ++ '"' :: rest)) =
      unplacedReading (readText high seen p' (s.chars ++ '"' :: rest')) := by
  induction s generalizing high seen p p' with
  | nil => exact (readText_quote high seen p rest).trans (readText_quote high seen p' rest').symm
  | cons piece s ih =>
      obtain ⟨q, step⟩ := readText_piece piece high seen p
      obtain ⟨q', step'⟩ := readText_piece piece high seen p'
      rw [TextForm.chars, List.flatMap_cons, List.append_assoc, List.append_assoc, step, step']
      congr 1
      funext next
      exact ih next.1 next.2 q q'

/-! ### Symbols -/

theorem passWord_append (letters rest : List Char) (p : Position) :
    ∃ q, passWord p letters (letters ++ rest) = .ok ⟨rest, q⟩ := by
  induction letters generalizing p with
  | nil => exact ⟨p, rfl⟩
  | cons c letters ih =>
      obtain ⟨q, passed⟩ := ih (p.right 1)
      exact ⟨q, by simp [passWord, passed]⟩

/-- What the token of a symbol carries, without positions. -/
def Symbol.lexeme : Symbol → Lexeme
  | .openList => .openList
  | .closeList => .closeList
  | .openRecord => .openRecord
  | .closeRecord => .closeRecord
  | .comma => .comma
  | .colon => .colon
  | .word w => .word w
  | .numeral n => .number (unplacedReading (n.numeral.value {} {}))
  | .text s => .text (unplacedReading (readText none [] {} (s.chars ++ ['"'])))

def stream : List Symbol → Tokens
  | [] => .finish {}
  | s :: ss => .next ⟨s.lexeme, {}, {}⟩ (stream ss)

theorem toNat_of_isDigit {c : Char} (h : isDigit c = true) : 48 ≤ c.toNat ∧ c.toNat ≤ 57 := by
  simp only [isDigit, Bool.and_eq_true, decide_eq_true_eq] at h
  exact h

theorem isBlank_of_isLayout {c : Char} (h : isLayout c = true) : Text.isBlank c = true := by
  simp only [isLayout, Bool.or_eq_true, beq_iff_eq] at h
  obtain ((rfl | rfl) | rfl) | rfl := h <;> rfl

theorem NumeralForm.chars_head (n : NumeralForm) :
    ∃ c cs, n.chars = c :: cs ∧ (c = '-' ∨ isDigit c = true) := by
  cases sign : n.negative with
  | true => exact ⟨'-', _, by simp [NumeralForm.chars, sign]; rfl, .inl rfl⟩
  | false =>
      obtain ⟨c, cs, split, digit⟩ := n.whole_head (fractionChars n.fraction ++ powerChars n.power)
      exact ⟨c, cs, by simp [NumeralForm.chars, sign, split], .inr digit⟩

/-- No symbol starts with a blank character. -/
theorem Symbol.chars_head (s : Symbol) :
    ∃ c cs, s.chars = c :: cs ∧ Text.isBlank c = false := by
  cases s with
  | word w => cases w <;> exact ⟨_, _, rfl, rfl⟩
  | numeral n =>
      obtain ⟨c, cs, split, first⟩ := n.chars_head
      refine ⟨c, cs, split, ?_⟩
      rcases first with rfl | digit
      · rfl
      · have range := toNat_of_isDigit digit
        simp only [Text.isBlank, Bool.or_eq_false_iff, Bool.and_eq_false_iff,
          decide_eq_false_iff_not, beq_eq_false_iff_ne]
        omega
  | _ => exact ⟨_, _, rfl, rfl⟩

theorem scanOne_numeral {c : Char} (first : c = '-' ∨ isDigit c = true) (p : Position)
    (cs : List Char) : scanOne p c cs = scanNumber p (c :: cs) := by
  have numeric : (c == '-' || isDigit c) = true := by
    rcases first with rfl | digit
    · rfl
    · simp [digit]
  unfold scanOne
  dsimp only
  split <;> first | exact absurd numeric (by decide) | rw [if_pos numeric]

theorem scanWord_append (w : Word) (rest : List Char) (p : Position) :
    ∃ q, scanWord w p (w.letters ++ rest) = ⟨.word w, ⟨rest, q⟩⟩ := by
  obtain ⟨q, passed⟩ := passWord_append w.letters rest p
  exact ⟨q, by rw [scanWord, passed]⟩

/-- The token of a symbol takes up the symbol and nothing else. -/
theorem scanOne_symbol (s : Symbol) {c : Char} {cs : List Char} (split : s.chars = c :: cs)
    {rest : List Char} (stop : s.isMark = false → Stops rest) (p : Position) :
    ∃ lexeme q, scanOne p c (cs ++ rest) = ⟨lexeme, ⟨rest, q⟩⟩ ∧ lexeme.unplaced = s.lexeme := by
  cases s with
  | word w =>
      obtain ⟨q, scanned⟩ := scanWord_append w rest p
      refine ⟨.word w, q, ?_, rfl⟩
      rw [← scanned]
      cases w <;> cases split <;> rfl
  | numeral n =>
      obtain ⟨d, last, q, read⟩ := numeralAt_append n (stop rfl) p
      obtain ⟨c', cs', split', first⟩ := n.chars_head
      have same := split.symm.trans split'
      rw [List.cons.injEq] at same
      obtain ⟨rfl, rfl⟩ := same
      have strict := n.numeral.value_unplaced d last {} {}
      refine ⟨.number (n.numeral.value d last), q, ?_, congrArg Lexeme.number strict⟩
      rw [scanOne_numeral first, ← List.cons_append, ← split', scanNumber, read]
  | text s =>
      cases split
      obtain ⟨q, passed⟩ := passText_append s rest (p.right 1)
      have strict := readText_append s rest [] none [] (p.right 1) {}
      refine ⟨.text (readText none [] (p.right 1) (s.chars ++ '"' :: rest)), q, ?_,
        congrArg Lexeme.text strict⟩
      change scanText (p.right 1) (s.chars ++ ['"'] ++ rest) = _
      rw [List.append_assoc, List.singleton_append, scanText, passed]
  | _ =>
      cases split
      exact ⟨_, _, rfl, rfl⟩

/-! ### Interleaved symbols -/

/-- Symbols with characters before each of them and at the end. -/
def interleave (gap : Nat → List Char) : List Symbol → List Char
  | [] => gap 0
  | s :: ss => gap 0 ++ (s.chars ++ interleave (fun i => gap (i + 1)) ss)

theorem interleave_nothing (ss : List Symbol) :
    interleave (fun _ => []) ss = ss.flatMap Symbol.chars := by
  induction ss with
  | nil => rfl
  | cons s ss ih => rw [interleave, ih, List.flatMap_cons, List.nil_append]

def Layout (gap : Nat → List Char) : Prop := ∀ i, ∀ c ∈ gap i, isLayout c = true

theorem Layout.later {gap : Nat → List Char} (h : Layout gap) : Layout fun i => gap (i + 1) :=
  fun i => h (i + 1)

/-- A gap before the first of some gaps. -/
def before (cs : List Char) (gap : Nat → List Char) : Nat → List Char
  | 0 => cs
  | i + 1 => gap i

/-- Two gaps that become one when the symbol between them goes. -/
def merged (cs : List Char) (gap : Nat → List Char) : Nat → List Char
  | 0 => cs ++ gap 0
  | i + 1 => gap (i + 1)

theorem Layout.before {cs : List Char} (allowed : ∀ c ∈ cs, isLayout c = true)
    {gap : Nat → List Char} (layout : Layout gap) : Layout (before cs gap) := by
  intro i
  cases i with
  | zero => exact allowed
  | succ i => exact layout i

theorem Layout.merged {cs : List Char} (allowed : ∀ c ∈ cs, isLayout c = true)
    {gap : Nat → List Char} (layout : Layout gap) : Layout (merged cs gap) := by
  intro i
  cases i with
  | zero =>
      intro c member
      exact (List.mem_append.mp member).elim (allowed c) (layout 0 c)
  | succ i => exact layout (i + 1)

theorem interleave_merged (cs : List Char) (gap : Nat → List Char) (ss : List Symbol) :
    interleave (merged cs gap) ss = cs ++ interleave gap ss := by
  cases ss with
  | nil => rfl
  | cons s ss => exact List.append_assoc _ _ _

theorem skipLayout_append {cs : List Char} (layout : ∀ c ∈ cs, isLayout c = true)
    (rest : List Char) (p : Position) :
    skipLayout p (cs ++ rest) = skipLayout (p.afterAll cs) rest := by
  induction cs generalizing p with
  | nil => rfl
  | cons c cs ih =>
      rw [List.cons_append, skipLayout, if_pos (layout c (by simp))]
      exact ih (fun d member => layout d (by simp [member])) (p.after c)

theorem stops_mark {s : Symbol} (mark : s.isMark = true) (rest : List Char) :
    Stops (s.chars ++ rest) := by
  intro c cs split
  cases s with
  | word w => exact absurd mark (by simp [Symbol.isMark])
  | numeral n => exact absurd mark (by simp [Symbol.isMark])
  | text s => exact absurd mark (by simp [Symbol.isMark])
  | _ =>
      cases split
      decide

theorem stops_layout {cs : List Char} (layout : ∀ c ∈ cs, isLayout c = true) {rest : List Char}
    (stop : Stops rest) : Stops (cs ++ rest) := by
  intro c tail split
  cases cs with
  | nil => exact stop c tail split
  | cons d cs =>
      rw [List.cons_append, List.cons.injEq] at split
      have blank := layout d (by simp)
      rw [split.1] at blank
      simp only [isLayout, Bool.or_eq_true, beq_iff_eq] at blank
      obtain ((rfl | rfl) | rfl) | rfl := blank <;> decide

theorem stops_interleave {gap : Nat → List Char} (layout : Layout gap) {s : Symbol}
    {ss : List Symbol} (apart : Apart (s :: ss)) (scalar : s.isMark = false) :
    Stops (interleave gap ss) := by
  cases ss with
  | nil =>
      have nothing : Stops [] := by
        intro c cs split
        cases split
      have stop := stops_layout (layout 0) nothing
      rwa [List.append_nil] at stop
  | cons next ss =>
      have mark := (List.isChain_cons_cons.mp apart).1
      rw [scalar] at mark
      exact stops_layout (layout 0) (stops_mark (mark.resolve_left Bool.false_ne_true) _)

/-- The scanner finds one token for each symbol. -/
theorem scanUpTo_interleave {gap : Nat → List Char} (layout : Layout gap) {ss : List Symbol}
    (apart : Apart ss) {fuel : Nat} (enough : ss.length < fuel) (p : Position) :
    (scanUpTo fuel p (interleave gap ss)).unplaced = stream ss := by
  induction ss generalizing gap fuel p with
  | nil =>
      obtain ⟨fuel, rfl⟩ := Nat.exists_eq_succ_of_ne_zero (Nat.ne_of_gt enough)
      have skipped := skipLayout_append (layout 0) [] p
      rw [List.append_nil] at skipped
      simp only [interleave, scanUpTo, skipped, skipLayout]
      rfl
  | cons s ss ih =>
      obtain ⟨fuel, rfl⟩ := Nat.exists_eq_succ_of_ne_zero (Nat.ne_of_gt (Nat.zero_lt_of_lt enough))
      obtain ⟨c, cs, split, notBlank⟩ := s.chars_head
      have notLayout : isLayout c = false := by
        cases h : isLayout c with
        | false => rfl
        | true => rw [isBlank_of_isLayout h] at notBlank; exact notBlank
      obtain ⟨lexeme, q, scanned, same⟩ := scanOne_symbol s split
        (fun scalar => stops_interleave layout.later apart scalar) (p.afterAll (gap 0))
      have later := ih layout.later (List.isChain_cons.mp apart).2
        (Nat.lt_of_succ_lt_succ enough) q
      have skipped : skipLayout p (interleave gap (s :: ss)) =
          ⟨c :: (cs ++ interleave (fun i => gap (i + 1)) ss), p.afterAll (gap 0)⟩ := by
        rw [interleave, skipLayout_append (layout 0), split, List.cons_append, skipLayout,
          if_neg (by simp [notLayout])]
      simp only [scanUpTo, skipped, scanned, Tokens.unplaced, Token.unplaced, later, same, stream]

theorem length_le_interleave (gap : Nat → List Char) (ss : List Symbol) :
    ss.length ≤ (interleave gap ss).length := by
  induction ss generalizing gap with
  | nil => exact Nat.zero_le _
  | cons s ss ih =>
      obtain ⟨c, cs, split, _⟩ := s.chars_head
      have later := ih fun i => gap (i + 1)
      simp only [interleave, split, List.length_append, List.length_cons]
      omega

/-- A text that spells symbols is scanned as their stream. -/
theorem scan_interleave {gap : Nat → List Char} (layout : Layout gap) {ss : List Symbol}
    (apart : Apart ss) : (scan (String.ofList (interleave gap ss))).unplaced = stream ss := by
  unfold scan
  rw [String.toList_ofList]
  apply scanUpTo_interleave layout apart
  rw [String.length_ofList]
  exact Nat.lt_succ_of_le (length_le_interleave gap ss)

theorem allBlank_interleave (gap : Nat → List Char) {ss : List Symbol} (nonempty : ss ≠ []) :
    Text.allBlank (interleave gap ss) = false := by
  cases ss with
  | nil => exact absurd rfl nonempty
  | cons s ss =>
      obtain ⟨c, cs, split, notBlank⟩ := s.chars_head
      rw [Text.allBlank, List.all_eq_false]
      exact ⟨c, by simp [interleave, split], by simp [notBlank]⟩

end RootedBuild.Json
