import RootedBuild.Json.Printer
import RootedBuild.Proofs.Json.Scan

/-!
Printed scalars. Integers are printed as numerals and texts as literals in which every character
stands for itself or for its escape, so each is one symbol; and the strict reading of that symbol is
the integer or the text that was printed.
-/
namespace RootedBuild.Json

/-! ### Integers -/

theorem isDigit_of_mem_toDigits {n : Nat} {c : Char} (member : c ∈ Nat.toDigits 10 n) :
    isDigit c = true := by
  have digit : c.isDigit = true := Nat.isDigit_of_mem_toDigits (by decide) (by decide) member
  simp only [Char.isDigit, Bool.and_eq_true, decide_eq_true_eq] at digit
  simp only [isDigit, Bool.and_eq_true, decide_eq_true_eq]
  exact digit

/-- The digits of a number, without a zero before them. -/
def decimalDigits (n : Nat) : Digits :=
  ⟨Nat.toDigits 10 n, Nat.toDigits_ne_nil, fun _ member => isDigit_of_mem_toDigits member⟩

theorem eq_zero_of_toDigits {n : Nat} {rest : List Char} (h : Nat.toDigits 10 n = '0' :: rest) :
    n = 0 := by
  induction n using Nat.strongRecOn generalizing rest with
  | ind n ih =>
      by_cases small : n < 10
      · rw [Nat.toDigits_of_lt_base small, List.cons.injEq] at h
        exact Nat.digitChar_eq_zero.mp h.1
      · have large : 10 ≤ n := Nat.le_of_not_lt small
        rw [Nat.toDigits_of_base_le (by decide) large] at h
        obtain ⟨c, cs, split⟩ := List.exists_cons_of_ne_nil
          (Nat.toDigits_ne_nil (n := n / 10) (b := 10))
        rw [split, List.cons_append, List.cons.injEq] at h
        rw [h.1] at split
        have zero := ih (n / 10) (by omega) split
        omega

theorem decimalDigits_zeroAlone (n : Nat) (c : Char) (rest : List Char) :
    (decimalDigits n).val ≠ '0' :: c :: rest := by
  intro same
  have zero : n = 0 := eq_zero_of_toDigits same
  rw [zero] at same
  have single : ['0'] = '0' :: c :: rest := same
  cases single

/-- An integer as it is printed. -/
def integerForm (n : Int) : NumeralForm :=
  ⟨decide (n < 0), decimalDigits n.natAbs, none, none, decimalDigits_zeroAlone n.natAbs⟩

theorem integerForm_chars (n : Int) : (integerForm n).chars = (Number.int n).print.toList := by
  change _ = (toString n).toList
  rw [Int.toString_eq_repr, Int.repr_eq_if]
  by_cases negative : n < 0
  · have other : ¬0 ≤ n := Int.not_le.mpr negative
    have size : (-n).toNat = n.natAbs := by omega
    rw [if_neg other, String.toList_append, Nat.toList_repr, size]
    simp [integerForm, NumeralForm.chars, NumeralForm.fractionChars, NumeralForm.powerChars,
      decimalDigits, negative]
  · have other : 0 ≤ n := Int.not_lt.mp negative
    have size : n.toNat = n.natAbs := by omega
    rw [if_pos other, Nat.toList_repr, size]
    simp [integerForm, NumeralForm.chars, NumeralForm.fractionChars, NumeralForm.powerChars,
      decimalDigits, negative]

open Numeral in
/-- As long as the digits fit, they are the significand. -/
theorem scaled_toDigits {n : Nat} (fits : n ≤ wordLimit) :
    (Nat.toDigits 10 n).foldl Scaled.addWhole ⟨0, 0, false⟩ = ⟨n, 0, false⟩ := by
  induction n using Nat.strongRecOn with
  | ind n ih =>
      have one (k d : Nat) (digit : d < 10) (fits : k * 10 + d ≤ wordLimit) :
          Scaled.addWhole ⟨k, 0, false⟩ d.digitChar = ⟨k * 10 + d, 0, false⟩ := by
        have value : digitValue d.digitChar = d := Nat.toNat_digitChar_sub_48_of_lt_ten digit
        simp [Scaled.addWhole, value, Nat.not_lt.mpr fits]
      by_cases small : n < 10
      · rw [Nat.toDigits_of_lt_base small, List.foldl_cons, List.foldl_nil,
          one 0 n small (by simpa using fits)]
        simp
      · have whole : n / 10 * 10 + n % 10 = n := Nat.div_add_mod' n 10
        rw [Nat.toDigits_of_base_le (by decide) (Nat.le_of_not_lt small), List.foldl_append,
          ih (n / 10) (by omega) (by omega), List.foldl_cons, List.foldl_nil,
          one (n / 10) (n % 10) (by omega) (by omega), whole]

/-- What a 64-bit integer can hold, with a sign or without. -/
def IsWord (n : Int) : Prop := -0x8000000000000000 ≤ n ∧ n ≤ 0xFFFFFFFFFFFFFFFF

theorem value_integerForm {n : Int} (word : IsWord n) (digits stop : Position) :
    (integerForm n).numeral.value digits stop = .ok (.int n) := by
  obtain ⟨low, high⟩ := word
  have fits : n.natAbs ≤ Numeral.wordLimit := by unfold Numeral.wordLimit; omega
  have scaled : (integerForm n).numeral.scaled = ⟨n.natAbs, 0, false⟩ := by
    have whole : (integerForm n).numeral.whole.foldl Numeral.Scaled.addWhole ⟨0, 0, false⟩ =
        ⟨n.natAbs, 0, false⟩ := scaled_toDigits fits
    rw [Numeral.scaled, whole]
    rfl
  have read : (integerForm n).numeral.value digits stop =
      .ok (Numeral.intValue (decide (n < 0)) n.natAbs) := by
    unfold Numeral.value
    dsimp only
    rw [scaled]
    rfl
  rw [read, Numeral.intValue]
  by_cases negative : n < 0
  · have bound : 0 < n.natAbs ∧ n.natAbs ≤ 0x8000000000000000 := by omega
    have size : -(n.natAbs : Int) = n := by omega
    simp only [negative, bound, size, decide_true, Bool.not_true, Bool.false_eq_true, if_false,
      Bool.and_self, if_true]
  · have size : (n.natAbs : Int) = n := by omega
    simp only [negative, size, decide_false, Bool.not_false, if_true]

/-! ### Texts -/

theorem mem_hexDigits_headD {n : Nat} (small : n < 16) :
    (Nat.toDigits 16 n).headD '0' ∈ hexDigits := by
  have all : ∀ n < 16, (Nat.toDigits 16 n).headD '0' ∈ hexDigits := by decide
  exact all n small

/-- An escaped control character. -/
def TextPiece.control (c : Char) (isControl : isControl c = true) : TextPiece :=
  .unit '0' '0' ((Nat.toDigits 16 (c.toNat / 16)).headD '0')
    ((Nat.toDigits 16 (c.toNat % 16)).headD '0') (by
      have small : c.toNat < 32 := of_decide_eq_true isControl
      simp only [List.forall_mem_cons]
      exact ⟨by decide, by decide, mem_hexDigits_headD (by omega), mem_hexDigits_headD (by omega),
        by simp⟩)

/-- A character as it is printed. -/
def TextPiece.ofChar (c : Char) : TextPiece :=
  if quote : c = '"' then .short '"' (by decide)
  else if backslash : c = '\\' then .short '\\' (by decide)
  else if c = '\n' then .short 'n' (by decide)
  else if c = '\r' then .short 'r' (by decide)
  else if c = '\t' then .short 't' (by decide)
  else if c = '\x08' then .short 'b' (by decide)
  else if c = '\x0c' then .short 'f' (by decide)
  else if control : isControl c = true then .control c control
  else .plain c quote backslash (Bool.eq_false_iff.mpr control)

/-- An escaped control character is read as it was. -/
theorem codeUnit?_control {c : Char} (control : isControl c = true) :
    codeUnit? '0' '0' ((Nat.toDigits 16 (c.toNat / 16)).headD '0')
      ((Nat.toDigits 16 (c.toNat % 16)).headD '0') = some c.toNat := by
  have small : c.toNat < 32 := of_decide_eq_true control
  have all : ∀ n < 32, codeUnit? '0' '0' ((Nat.toDigits 16 (n / 16)).headD '0')
      ((Nat.toDigits 16 (n % 16)).headD '0') = some n := by decide
  exact all c.toNat small

theorem takeUnit_control {c : Char} (control : isControl c = true) (seen : List Char) :
    takeUnit none seen c.toNat = some (none, c :: seen) := by
  have small : c.toNat < 32 := of_decide_eq_true control
  have low : isLowSurrogate c.toNat = false := by
    simp only [isLowSurrogate, Bool.and_eq_false_iff, decide_eq_false_iff_not]
    omega
  have high : isHighSurrogate c.toNat = false := by
    simp only [isHighSurrogate, Bool.and_eq_false_iff, decide_eq_false_iff_not]
    omega
  rw [takeUnit, if_neg (by simp [low]), if_neg (by simp [high]), Char.ofNat_toNat]

/-- The piece of a character is what is printed for it, and is read as the character. -/
theorem TextPiece.ofChar_printed (c : Char) :
    (TextPiece.ofChar c).chars = escapeChar c ∧
      ∀ seen, (TextPiece.ofChar c).read none seen = .ok (none, c :: seen) := by
  by_cases quote : c = '"'
  · subst c; exact ⟨rfl, fun _ => rfl⟩
  by_cases backslash : c = '\\'
  · subst c; exact ⟨rfl, fun _ => rfl⟩
  by_cases newline : c = '\n'
  · subst c; exact ⟨rfl, fun _ => rfl⟩
  by_cases back : c = '\r'
  · subst c; exact ⟨rfl, fun _ => rfl⟩
  by_cases tab : c = '\t'
  · subst c; exact ⟨rfl, fun _ => rfl⟩
  by_cases backspace : c = '\x08'
  · subst c; exact ⟨rfl, fun _ => rfl⟩
  by_cases feed : c = '\x0c'
  · subst c; exact ⟨rfl, fun _ => rfl⟩
  cases known : isControl c with
  | true =>
      have small : c.toNat < 32 := of_decide_eq_true known
      have piece : TextPiece.ofChar c = .control c known := by
        simp [TextPiece.ofChar, quote, backslash, newline, back, tab, backspace, feed, known]
      have escape : escapeChar c = escapeControl c := by
        simp [escapeChar, quote, backslash, newline, back, tab, backspace, feed, small]
      rw [piece, escape]
      refine ⟨rfl, fun seen => ?_⟩
      rw [TextPiece.control, TextPiece.read, codeUnit?_control known, Option.bind_some,
        takeUnit_control known]
  | false =>
      have large : ¬c.toNat < 32 := of_decide_eq_false known
      have piece : TextPiece.ofChar c = .plain c quote backslash known := by
        simp [TextPiece.ofChar, quote, backslash, newline, back, tab, backspace, feed, known]
      have escape : escapeChar c = [c] := by
        simp [escapeChar, quote, backslash, newline, back, tab, backspace, feed, large]
      rw [piece, escape]
      exact ⟨rfl, fun _ => rfl⟩

/-- A text as it is printed. -/
def TextForm.ofString (s : String) : TextForm := s.toList.map TextPiece.ofChar

theorem chars_ofString (s : String) :
    (Symbol.text (.ofString s)).chars = (literal s).toList := by
  have pieces : (TextForm.ofString s).chars = s.toList.flatMap escapeChar := by
    rw [TextForm.chars, TextForm.ofString, List.flatMap_map]
    exact congrArg (List.flatMap · s.toList) (funext fun c => (TextPiece.ofChar_printed c).1)
  rw [Symbol.chars, pieces, literal, String.toList_ofList, List.cons_append]

theorem readText_map_ofChar (cs seen : List Char) (p : Position) :
    unplacedReading (readText none seen p (TextForm.chars (cs.map TextPiece.ofChar) ++ ['"'])) =
      .ok (String.ofList (seen.reverse ++ cs)) := by
  induction cs generalizing seen p with
  | nil =>
      rw [List.append_nil]
      exact readText_quote none seen p []
  | cons c cs ih =>
      obtain ⟨q, step⟩ := readText_piece (.ofChar c) none seen p
      rw [List.map_cons, TextForm.chars, List.flatMap_cons, List.append_assoc, step,
        (TextPiece.ofChar_printed c).2]
      have later := ih (c :: seen) q
      rw [List.reverse_cons, List.append_assoc, List.singleton_append] at later
      exact later

theorem lexeme_text_ofString (s : String) :
    (Symbol.text (.ofString s)).lexeme = .text (.ok s) := by
  have read := readText_map_ofChar s.toList [] {}
  rw [List.reverse_nil, List.nil_append, String.ofList_toList] at read
  rw [Symbol.lexeme, TextForm.ofString, read]

theorem lexeme_integerForm {n : Int} (word : IsWord n) :
    (Symbol.numeral (integerForm n)).lexeme = .number (.ok (.int n)) := by
  rw [Symbol.lexeme, value_integerForm word]
  rfl

/-! ### No line breaks -/

theorem break_notMem_numeral (n : NumeralForm) : '\n' ∉ n.chars := by
  have digits (ds : Digits) : '\n' ∉ ds.val := by
    intro member
    exact absurd (ds.property.2 '\n' member) (by decide)
  have fraction : '\n' ∉ NumeralForm.fractionChars n.fraction := by
    cases n.fraction with
    | none => simp [NumeralForm.fractionChars]
    | some ds => simpa [NumeralForm.fractionChars] using digits ds
  have power : '\n' ∉ NumeralForm.powerChars n.power := by
    cases n.power with
    | none => simp [NumeralForm.powerChars]
    | some p =>
        obtain ⟨capital, sign, ds⟩ := p
        cases capital <;> cases sign <;>
          simpa [NumeralForm.powerChars, Power.chars, PowerSign.chars] using digits ds
  simp only [NumeralForm.chars, List.mem_append, not_or]
  refine ⟨?_, digits n.whole, fraction, power⟩
  split <;> simp

theorem break_notMem_piece (piece : TextPiece) : '\n' ∉ piece.chars := by
  cases piece with
  | plain c quote backslash control =>
      intro member
      rw [← List.mem_singleton.mp member] at control
      cases control
  | short e known =>
      intro member
      have same : '\n' = e := by simpa [TextPiece.chars] using member
      rw [← same] at known
      exact absurd known (by decide)
  | unit h₁ h₂ h₃ h₄ hex =>
      intro member
      have inside : '\n' ∈ [h₁, h₂, h₃, h₄] := by simpa [TextPiece.chars] using member
      exact absurd (hex '\n' inside) (by decide)

/-- No symbol has a line break in it. -/
theorem Symbol.break_notMem (s : Symbol) : '\n' ∉ s.chars := by
  cases s with
  | numeral n => exact break_notMem_numeral n
  | text s =>
      intro member
      have inside : '\n' ∈ s.chars := by simpa [Symbol.chars] using member
      obtain ⟨piece, _, broken⟩ := List.mem_flatMap.mp inside
      exact break_notMem_piece piece broken
  | word w => cases w <;> decide
  | _ => decide

end RootedBuild.Json
