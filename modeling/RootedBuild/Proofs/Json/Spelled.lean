import Mathlib.Data.List.TakeWhile
import RootedBuild.Proofs.Json.Scan

/-!
What is scanned was spelled. Every token that can be passed over takes up the characters of a
symbol of its kind, so a text whose tokens can all be passed over lays out symbols. Scanning stops
at the first token that cannot; of the characters from there on nothing is said.
-/
namespace RootedBuild.Json

/-! ### Numerals -/

theorem digitsAt_sound (r : Rest) :
    r.chars = (digitsAt r).1 ++ (digitsAt r).2.chars ∧ ∀ c ∈ (digitsAt r).1, isDigit c = true := by
  have whole := List.prefix_iff_eq_append.mp (List.takeWhile_prefix (l := r.chars) isDigit)
  exact ⟨whole.symm, fun c member => List.mem_takeWhile_imp member⟩

theorem wholePart_sound {r r' : Rest} {ds : List Char} (h : wholePart r = .ok (ds, r')) :
    r.chars = ds ++ r'.chars ∧ (ds ≠ [] ∧ ∀ c ∈ ds, isDigit c = true) ∧
      ∀ c rest, ds ≠ '0' :: c :: rest := by
  obtain ⟨whole, digits⟩ := digitsAt_sound r
  unfold wholePart at h
  dsimp only at h
  split at h
  · cases h
  · cases h
  · rename_i nonempty notPadded
    cases h
    exact ⟨whole, ⟨nonempty, digits⟩, fun c rest same => notPadded c rest same⟩

theorem fractionPart_sound {r r' : Rest} {ds : List Char} (h : fractionPart r = .ok (ds, r')) :
    ∃ fraction : Option Digits, r.chars = NumeralForm.fractionChars fraction ++ r'.chars := by
  unfold fractionPart at h
  split at h
  · rename_i cs point
    have taken := digitsAt_sound ⟨cs, r.position.right 1⟩
    dsimp only at h taken
    generalize digitsAt ⟨cs, r.position.right 1⟩ = found at h taken
    obtain ⟨digits, rest⟩ := found
    cases digits with
    | nil => cases h
    | cons d digits =>
        cases h
        refine ⟨some ⟨d :: digits, by simp, taken.2⟩, ?_⟩
        rw [point, NumeralForm.fractionChars, List.cons_append]
        exact congrArg _ taken.1
  · cases h
    exact ⟨none, rfl⟩

theorem exponentSign_sound (r : Rest) :
    ∃ sign : PowerSign, r.chars = sign.chars ++ (exponentSign r).2.chars := by
  unfold exponentSign
  split
  · rename_i cs minus
    exact ⟨.minus, minus⟩
  · rename_i cs plus
    exact ⟨.plus, plus⟩
  · exact ⟨.absent, rfl⟩

theorem exponentPart_sound {r : Rest} {found : ExponentFound} (h : exponentPart r = .ok found) :
    ∃ power : Option Power, r.chars = NumeralForm.powerChars power ++ found.rest.chars := by
  unfold exponentPart at h
  split at h
  · rename_i c cs letter
    split at h
    · rename_i known
      obtain ⟨sign, signed⟩ := exponentSign_sound ⟨cs, r.position.right 1⟩
      have taken := digitsAt_sound (exponentSign ⟨cs, r.position.right 1⟩).2
      have capital : (if (c == 'E') = true then 'E' else 'e') = c := by
        rcases Bool.or_eq_true_iff.mp known with small | large
        · rw [eq_of_beq small]
          rfl
        · rw [eq_of_beq large]
          rfl
      dsimp only at h signed
      generalize digitsAt (exponentSign ⟨cs, r.position.right 1⟩).2 = ended at h taken
      obtain ⟨digits, rest⟩ := ended
      cases digits with
      | nil => cases h
      | cons d digits =>
          cases h
          have spelled : cs = sign.chars ++ (d :: digits ++ rest.chars) :=
            signed.trans (congrArg _ taken.1)
          refine ⟨some ⟨c == 'E', sign, d :: digits, by simp, taken.2⟩, ?_⟩
          change r.chars = (if c == 'E' then 'E' else 'e') ::
            (sign.chars ++ d :: digits) ++ rest.chars
          rw [letter, capital, List.cons_append, List.append_assoc]
          exact congrArg _ spelled
    · cases h
      exact ⟨none, by simp [NumeralForm.powerChars]⟩
  · cases h
    exact ⟨none, by simp [NumeralForm.powerChars]⟩

theorem numeralAt_sound {r r' : Rest} {strict : Except Fault Number}
    (h : numeralAt r = .ok (strict, r')) :
    ∃ n : NumeralForm, r.chars = n.chars ++ r'.chars := by
  obtain ⟨negative, r₀, signed, read⟩ : ∃ (negative : Bool) (r₀ : Rest),
      r.chars = (if negative then ['-'] else []) ++ r₀.chars ∧ (do
        let whole ← wholePart r₀
        let fraction ← fractionPart whole.2
        let found ← exponentPart fraction.2
        return ((⟨negative, whole.1, fraction.1, found.exponent⟩ : Numeral).value found.digits
          found.rest.position, found.rest)) = Except.ok (strict, r') := by
    unfold numeralAt at h
    dsimp only at h
    split at h
    · rename_i cs minus
      exact ⟨true, ⟨cs, r.position.right 1⟩, minus, h⟩
    · exact ⟨false, r, rfl, h⟩
  cases whole : wholePart r₀ with
  | error e => simp [whole, bind, Except.bind] at read
  | ok first =>
      obtain ⟨ds, r₁⟩ := first
      simp only [whole, bind, Except.bind] at read
      cases fraction : fractionPart r₁ with
      | error e => simp [fraction] at read
      | ok second =>
          obtain ⟨fs, r₂⟩ := second
          simp only [fraction] at read
          cases power : exponentPart r₂ with
          | error e => simp [power] at read
          | ok found =>
              simp only [power] at read
              cases read
              obtain ⟨split₁, digits, zeroAlone⟩ := wholePart_sound whole
              obtain ⟨fractionForm, split₂⟩ := fractionPart_sound fraction
              obtain ⟨powerForm, split₃⟩ := exponentPart_sound power
              refine ⟨⟨negative, ⟨ds, digits⟩, fractionForm, powerForm, zeroAlone⟩, ?_⟩
              rw [signed, split₁, split₂, split₃, NumeralForm.chars]
              simp

/-! ### Words and text literals -/

theorem passWord_sound {p : Position} {letters cs : List Char} {rest : Rest}
    (h : passWord p letters cs = .ok rest) : cs = letters ++ rest.chars := by
  induction letters generalizing p cs with
  | nil =>
      cases h
      rfl
  | cons e letters ih =>
      cases cs with
      | nil => cases h
      | cons c cs =>
          rw [passWord] at h
          split at h
          · rename_i same
            rw [List.cons_append, ← ih h, eq_of_beq same]
          · cases h

/-- A property of all characters below a bound, checked one by one. -/
theorem char_below {P : Char → Prop} {bound : Nat} (all : ∀ n < bound, P (Char.ofNat n)) {c : Char}
    (below : c.toNat < bound) : P c := by
  have one := all c.toNat below
  rwa [Char.ofNat_toNat] at one

theorem lt_of_hexValue? {c : Char} (h : (hexValue? c).isSome = true) : c.toNat < 103 := by
  unfold hexValue? at h
  split at h
  · have range := toNat_of_isDigit ‹_›
    omega
  · split at h
    · rename_i range
      simp only [Bool.and_eq_true, decide_eq_true_eq] at range
      exact Nat.lt_succ_of_le range.2
    · split at h
      · rename_i range
        simp only [Bool.and_eq_true, decide_eq_true_eq] at range
        exact Nat.lt_of_le_of_lt range.2 (by decide)
      · cases h

theorem mem_hexDigits_of_hexValue? {c : Char} (h : (hexValue? c).isSome = true) :
    c ∈ hexDigits :=
  char_below (P := fun c => (hexValue? c).isSome = true → c ∈ hexDigits) (by decide)
    (lt_of_hexValue? h) h

theorem mem_hexDigits_of_codeUnit? {h₁ h₂ h₃ h₄ : Char} {n : Nat}
    (unit : codeUnit? h₁ h₂ h₃ h₄ = some n) : ∀ h ∈ [h₁, h₂, h₃, h₄], h ∈ hexDigits := by
  simp only [codeUnit?, Option.bind_eq_bind, Option.bind_eq_some_iff] at unit
  obtain ⟨a, first, b, second, c, third, d, fourth, _⟩ := unit
  simp only [List.forall_mem_cons]
  exact ⟨mem_hexDigits_of_hexValue? (by simp [first]),
    mem_hexDigits_of_hexValue? (by simp [second]), mem_hexDigits_of_hexValue? (by simp [third]),
    mem_hexDigits_of_hexValue? (by simp [fourth]), by simp⟩

theorem mem_shortEscapes {e c : Char} (h : shortEscape? e = some c) : e ∈ shortEscapes := by
  unfold shortEscape? at h
  split at h <;> first | decide | cases h

theorem passText_sound {p : Position} {cs : List Char} {rest : Rest}
    (h : passText p cs = .ok rest) : ∃ s : TextForm, cs = s.chars ++ '"' :: rest.chars := by
  fun_induction passText p cs with
  | case2 p c cs quote =>
      cases h
      exact ⟨[], by rw [eq_of_beq quote]; rfl⟩
  | case4 p c quote backslash e escape h₁ h₂ h₃ h₄ cs n unit ih =>
      obtain ⟨s, later⟩ := ih h
      refine ⟨.unit h₁ h₂ h₃ h₄ (mem_hexDigits_of_codeUnit? unit) :: s, ?_⟩
      rw [later, eq_of_beq backslash, eq_of_beq escape]
      rfl
  | case7 p c quote backslash e cs other d escape ih =>
      obtain ⟨s, later⟩ := ih h
      refine ⟨.short e (mem_shortEscapes escape) :: s, ?_⟩
      rw [later, eq_of_beq backslash]
      rfl
  | case10 p c cs quote backslash control ih =>
      obtain ⟨s, later⟩ := ih h
      refine ⟨.plain c (by simpa using quote) (by simpa using backslash) (by simpa using control) ::
        s, ?_⟩
      rw [later]
      rfl
  | _ => cases h

/-! ### Tokens -/

/-- A symbol and the lexeme of its kind. -/
inductive Spells : Symbol → Lexeme → Prop
  | openList : Spells .openList .openList
  | closeList : Spells .closeList .closeList
  | openRecord : Spells .openRecord .openRecord
  | closeRecord : Spells .closeRecord .closeRecord
  | comma : Spells .comma .comma
  | colon : Spells .colon .colon
  | word (w : Word) : Spells (.word w) (.word w)
  | numeral (n : NumeralForm) (strict : Except Fault Number) : Spells (.numeral n) (.number strict)
  | text (s : TextForm) (strict : Except Fault String) : Spells (.text s) (.text strict)

/-- A lexeme that cannot be passed over. -/
def Lexeme.isCut : Lexeme → Bool
  | .cutText _ | .cutScalar _ | .stray => true
  | _ => false

theorem scanWord_sound (w : Word) (p : Position) (cs : List Char) :
    (Spells (.word w) (scanWord w p cs).lexeme ∧
        cs = (Symbol.word w).chars ++ (scanWord w p cs).rest.chars) ∨
      (scanWord w p cs).lexeme.isCut = true := by
  unfold scanWord
  cases passed : passWord p w.letters cs with
  | ok rest => exact .inl ⟨.word w, passWord_sound passed⟩
  | error f => exact .inr rfl

/-- Every token is that of a symbol at the start of the text, or cannot be passed over. -/
theorem scanOne_sound (p : Position) (c : Char) (cs : List Char) :
    (∃ s, Spells s (scanOne p c cs).lexeme ∧ c :: cs = s.chars ++ (scanOne p c cs).rest.chars) ∨
      (scanOne p c cs).lexeme.isCut = true := by
  have word (w : Word) := scanWord_sound w p (c :: cs)
  unfold scanOne
  dsimp only
  split
  · exact .inl ⟨.openList, .openList, rfl⟩
  · exact .inl ⟨.closeList, .closeList, rfl⟩
  · exact .inl ⟨.openRecord, .openRecord, rfl⟩
  · exact .inl ⟨.closeRecord, .closeRecord, rfl⟩
  · exact .inl ⟨.comma, .comma, rfl⟩
  · exact .inl ⟨.colon, .colon, rfl⟩
  · exact (word .null).imp_left fun found => ⟨_, found⟩
  · exact (word .true).imp_left fun found => ⟨_, found⟩
  · exact (word .false).imp_left fun found => ⟨_, found⟩
  · unfold scanText
    dsimp only
    cases passed : passText (p.right 1) cs with
    | ok rest =>
        obtain ⟨s, spelled⟩ := passText_sound passed
        refine .inl ⟨.text s, .text s _, ?_⟩
        rw [spelled]
        simp [Symbol.chars]
    | error f => exact .inr rfl
  · split
    · unfold scanNumber
      cases read : numeralAt ⟨c :: cs, p⟩ with
      | ok found =>
          obtain ⟨n, spelled⟩ := numeralAt_sound read
          exact .inl ⟨.numeral n, .numeral n _, spelled⟩
      | error cut => exact .inr rfl
    · exact .inr rfl

/-- The tokens of some symbols, and what stands behind them. -/
inductive Reads : Tokens → List Symbol → Tokens → Prop
  | nil (ts : Tokens) : Reads ts [] ts
  | cons {t : Token} {s : Symbol} (spells : Spells s t.lexeme) {rest tail : Tokens}
      {ss : List Symbol} (later : Reads rest ss tail) : Reads (.next t rest) (s :: ss) tail

/-- The text ends here, or what follows cannot be passed over. -/
def Tokens.isLast : Tokens → Bool
  | .finish _ => true
  | .next t _ => t.lexeme.isCut

def Tokens.isFinish : Tokens → Bool
  | .finish _ => true
  | .next _ _ => false

theorem skipLayout_sound (p : Position) (cs : List Char) :
    ∃ blank, (∀ c ∈ blank, isLayout c = true) ∧ cs = blank ++ (skipLayout p cs).chars := by
  induction cs generalizing p with
  | nil => exact ⟨[], by simp, rfl⟩
  | cons c cs ih =>
      rw [skipLayout]
      split
      · rename_i layout
        obtain ⟨blank, all, split⟩ := ih (p.after c)
        exact ⟨c :: blank, by simpa [layout] using all, congrArg (c :: ·) split⟩
      · exact ⟨[], by simp, rfl⟩

/-- The tokens of a text are those of symbols, up to where it ends or cannot be passed over. If it
ends, it lays out these symbols. -/
theorem scanUpTo_sound {fuel : Nat} {cs : List Char} (enough : cs.length < fuel) (p : Position) :
    ∃ ss tail, Reads (scanUpTo fuel p cs) ss tail ∧ tail.isLast = true ∧
      (tail.isFinish = true → ∃ gap, Layout gap ∧ cs = interleave gap ss) := by
  induction fuel generalizing cs p with
  | zero => exact absurd enough (Nat.not_lt_zero _)
  | succ fuel ih =>
      obtain ⟨blank, layout, split⟩ := skipLayout_sound p cs
      unfold scanUpTo
      dsimp only
      generalize skipLayout p cs = r at split
      obtain ⟨chars, q⟩ := r
      dsimp only at split ⊢
      cases chars with
      | nil =>
          refine ⟨[], _, .nil _, rfl, fun _ => ⟨fun _ => blank, fun _ => layout, ?_⟩⟩
          rw [split, List.append_nil]
          rfl
      | cons c chars =>
          dsimp only
          rcases scanOne_sound q c chars with ⟨s, spells, spelled⟩ | cut
          · generalize scanOne q c chars = one at spells spelled
            obtain ⟨d, ds, head, _⟩ := s.chars_head
            have shorter : one.rest.chars.length < fuel := by
              have lengths := congrArg List.length split
              rw [spelled, head] at lengths
              simp only [List.length_append, List.length_cons] at lengths
              omega
            obtain ⟨ss, tail, reads, last, laid⟩ := ih shorter one.rest.position
            refine ⟨s :: ss, tail, .cons spells reads, last, fun finish => ?_⟩
            obtain ⟨gap, layoutGap, later⟩ := laid finish
            refine ⟨before blank gap, layoutGap.before layout, ?_⟩
            rw [split, spelled, later]
            rfl
          · exact ⟨[], _, .nil _, cut, fun finish => absurd finish Bool.false_ne_true⟩

theorem scan_sound (text : String) :
    ∃ ss tail, Reads (scan text) ss tail ∧ tail.isLast = true ∧
      (tail.isFinish = true → ∃ gap, Layout gap ∧ text.toList = interleave gap ss) :=
  scanUpTo_sound (by rw [String.length_toList]; omega) {}

end RootedBuild.Json
