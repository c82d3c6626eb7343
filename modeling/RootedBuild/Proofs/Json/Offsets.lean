import RootedBuild.Proofs.Json.Spelled

/-!
Offsets of a text and their positions. A position counts the lines and bytes up to a place between
two characters or inside one, and its line is one more than the line breaks before that place. The
scanner keeps the position at which it stands by adding up, and not always for one character at a
time; it is that of an offset all the same, and so is that of every fault it finds.
-/
namespace RootedBuild.Json

/-! ### Positions of a text -/

/-- The position of `n` bytes behind the first `k` characters. -/
def positionAt (text : List Char) (k n : Nat) : Position :=
  (Position.afterAll {} (text.take k)).right n

/-- Behind `k` characters and `n` bytes of the next one the text is not over. -/
structure IsOffset (text : List Char) (k n : Nat) : Prop where
  within : k ≤ text.length
  inside : n = 0 ∨ ∃ c, text[k]? = some c ∧ n < c.utf8Size

/-- The position of an offset of the text. -/
def Places (text : List Char) (p : Position) : Prop :=
  ∃ k n, IsOffset text k n ∧ p = positionAt text k n

/-- A character of one byte that does not end a line. -/
def isNarrow (c : Char) : Bool := c.utf8Size == 1 && c != '\n'

namespace Position

theorem line_afterAll (p : Position) (cs : List Char) :
    (p.afterAll cs).line = p.line + cs.count '\n' := by
  induction cs generalizing p with
  | nil => rfl
  | cons c cs ih =>
      have next : p.afterAll (c :: cs) = (p.after c).afterAll cs := rfl
      rw [next, ih, List.count_cons, after]
      by_cases newline : c = '\n'
      · simp only [newline, beq_self_eq_true, if_true]
        omega
      · simp [newline]

theorem after_narrow (p : Position) {c : Char} (narrow : isNarrow c = true) :
    p.after c = p.right 1 := by
  simp only [isNarrow, Bool.and_eq_true, beq_iff_eq, bne_iff_ne] at narrow
  simp [after, right, narrow]

theorem afterAll_narrow (p : Position) {cs : List Char} (narrow : cs.all isNarrow = true) :
    p.afterAll cs = p.right cs.length := by
  induction cs generalizing p with
  | nil => rfl
  | cons c cs ih =>
      rw [List.all_cons, Bool.and_eq_true] at narrow
      have next : p.afterAll (c :: cs) = (p.after c).afterAll cs := rfl
      rw [next, p.after_narrow narrow.1, ih (p.right 1) narrow.2, List.length_cons, Nat.add_comm]
      simp only [right, Nat.add_assoc]

end Position

theorem line_positionAt (text : List Char) (k n : Nat) :
    (positionAt text k n).line = (text.take k).count '\n' + 1 := by
  have line := Position.line_afterAll {} (text.take k)
  rw [Nat.add_comm] at line
  exact line

/-- Reading stands at `cs`, the rest of the text, and knows where that is. -/
def Stands (text : List Char) (p : Position) (cs : List Char) : Prop :=
  ∃ front, text = front ++ cs ∧ p = Position.afterAll {} front

namespace Stands

variable {text rest : List Char} {p : Position} {c : Char}

theorem start (text : List Char) : Stands text {} text := ⟨[], rfl, rfl⟩

theorem afterAll (cs : List Char) (stands : Stands text p (cs ++ rest)) :
    Stands text (p.afterAll cs) rest := by
  obtain ⟨front, rfl, rfl⟩ := stands
  exact ⟨front ++ cs, by rw [List.append_assoc], by rw [Position.afterAll_append]⟩

theorem after (stands : Stands text p (c :: rest)) : Stands text (p.after c) rest :=
  stands.afterAll [c]

theorem right (cs : List Char) (stands : Stands text p (cs ++ rest))
    (narrow : cs.all isNarrow = true) : Stands text (p.right cs.length) rest := by
  rw [← p.afterAll_narrow narrow]
  exact stands.afterAll cs

theorem places (stands : Stands text p rest) : Places text p := by
  obtain ⟨front, rfl, rfl⟩ := stands
  exact ⟨front.length, 0, ⟨by simp, .inl rfl⟩, by rw [positionAt, List.take_left]; rfl⟩

theorem inside (stands : Stands text p (c :: rest)) {n : Nat} (less : n < c.utf8Size) :
    Places text (p.right n) := by
  obtain ⟨front, rfl, rfl⟩ := stands
  exact ⟨front.length, n, ⟨by simp, .inr ⟨c, by simp, less⟩⟩, by rw [positionAt, List.take_left]⟩

theorem peek (stands : Stands text p (c :: rest)) : Places text (p.peek c) := by
  by_cases newline : c = '\n'
  · have next : p.peek c = p.after c := by
      rw [newline]
      rfl
    rw [next]
    exact stands.after.places
  · have next : p.peek c = p.right 1 := by simp [Position.peek, Position.right, newline]
    have size := c.utf8Size_pos
    by_cases one : c.utf8Size = 1
    · have narrow : isNarrow c = true := by simp [isNarrow, one, newline]
      rw [next, ← p.after_narrow narrow]
      exact stands.after.places
    · rw [next]
      exact stands.inside (by omega)

theorem afterBytes (stands : Stands text p rest) (n : Nat) :
    Places text (p.afterBytes n rest) := by
  induction rest generalizing p n with
  | nil =>
      rw [Position.afterBytes]
      exact stands.places
  | cons c cs ih =>
      rw [Position.afterBytes]
      split
      · exact stands.places
      · split
        · exact stands.inside ‹_›
        · exact ih stands.after _

end Stands

/-! ### Readings with faults -/

/-- What a reading gives is `good`, and what it fails with is `bad`. -/
inductive Yields (bad : ε → Prop) (good : α → Prop) : Except ε α → Prop where
  | ok {a : α} (holds : good a) : Yields bad good (.ok a)
  | error {e : ε} (holds : bad e) : Yields bad good (.error e)

namespace Yields

variable {bad : ε → Prop} {good : α → Prop} {better : β → Prop}

theorem bind {x : Except ε α} {next : α → Except ε β} (first : Yields bad good x)
    (later : ∀ a, good a → Yields bad better (next a)) : Yields bad better (x >>= next) := by
  cases first with
  | ok holds => exact later _ holds
  | error holds => exact .error holds

end Yields

def Fault.Within (places : Position → Prop) (f : Fault) : Prop := places f.position

structure Cut.Within (places : Position → Prop) (cut : Cut) : Prop where
  strict : cut.strict.Within places
  lenient : cut.lenient.Within places

theorem Cut.Within.both {places : Position → Prop} {f : Fault} (within : f.Within places) :
    (Cut.both f).Within places :=
  ⟨within, within⟩

def Rest.Stands (text : List Char) (r : Rest) : Prop := Json.Stands text r.position r.chars

/-! ### Words and numerals -/

theorem narrow_of_isDigit {c : Char} (digit : isDigit c = true) : isNarrow c = true := by
  have range := toNat_of_isDigit digit
  exact char_below (P := fun c => isDigit c = true → isNarrow c = true) (by decide)
    (Nat.lt_succ_of_le range.2) digit

section Scanner

variable {text : List Char}

theorem passWord_places {p : Position} {letters cs : List Char}
    (narrow : letters.all isNarrow = true) (stands : Stands text p cs) :
    Yields (Fault.Within (Places text)) (Rest.Stands text) (passWord p letters cs) := by
  induction letters generalizing p cs with
  | nil => exact .ok stands
  | cons e letters ih =>
      cases cs with
      | nil => exact .error stands.places
      | cons c cs =>
          rw [passWord]
          split
          · rename_i same
            rw [List.all_cons, Bool.and_eq_true] at narrow
            rw [eq_of_beq same] at stands
            exact ih narrow.2 (stands.right [e] (by simpa using narrow.1))
          · exact .error stands.peek

theorem digitsAt_stands {r : Rest} (stands : r.Stands text) :
    (digitsAt r).2.Stands text ∧
      ∀ seen ≤ (digitsAt r).1.length, Places text (r.position.right seen) := by
  obtain ⟨whole, digits⟩ := digitsAt_sound r
  have narrow : (digitsAt r).1.all isNarrow = true :=
    List.all_eq_true.mpr fun c member => narrow_of_isDigit (digits c member)
  rw [Rest.Stands, whole] at stands
  refine ⟨stands.right _ narrow, fun seen below => ?_⟩
  rw [← List.take_append_drop seen (digitsAt r).1, List.append_assoc] at stands
  have start : ((digitsAt r).1.take seen).all isNarrow = true :=
    List.all_eq_true.mpr fun c member =>
      List.all_eq_true.mp narrow c (List.mem_of_mem_take member)
  have reached := stands.right _ start
  rw [List.length_take, Nat.min_eq_left below] at reached
  exact reached.places

theorem missingDigit_within {r : Rest} (stands : r.Stands text) :
    (missingDigit r).Within (Places text) := by
  obtain ⟨chars, position⟩ := r
  cases chars with
  | nil => exact ⟨stands.places, stands.places⟩
  | cons c cs => exact .both stands.peek

theorem wholePart_places {r : Rest} (stands : r.Stands text) :
    Yields (Cut.Within (Places text)) (fun found => found.2.Stands text) (wholePart r) := by
  obtain ⟨after, between⟩ := digitsAt_stands stands
  unfold wholePart
  dsimp only
  split
  · exact .error (missingDigit_within stands)
  · rename_i padded
    exact .error (.both (between 2 (by rw [padded]; simp)))
  · exact .ok after

theorem fractionPart_places {r : Rest} (stands : r.Stands text) :
    Yields (Cut.Within (Places text)) (fun found => found.2.Stands text) (fractionPart r) := by
  unfold fractionPart
  split
  · rename_i cs point
    rw [Rest.Stands, point] at stands
    have behind : Rest.Stands text ⟨cs, r.position.right 1⟩ := stands.right ['.'] rfl
    dsimp only
    split
    · exact .error (missingDigit_within behind)
    · exact .ok (digitsAt_stands behind).1
  · exact .ok stands

theorem exponentSign_stands {r : Rest} (stands : r.Stands text) :
    (exponentSign r).2.Stands text := by
  unfold exponentSign
  split
  · rename_i cs minus
    rw [Rest.Stands, minus] at stands
    exact stands.right ['-'] rfl
  · rename_i cs plus
    rw [Rest.Stands, plus] at stands
    exact stands.right ['+'] rfl
  · exact stands

/-- An exponent that starts where it says, as far as its digits go. -/
structure ExponentFound.Stands (text : List Char) (found : ExponentFound) : Prop where
  rest : found.rest.Stands text
  digits : ∀ down ds, found.exponent = some (down, ds) →
    ∀ seen ≤ ds.length, Places text (found.digits.right seen)

theorem exponentPart_places {r : Rest} (stands : r.Stands text) :
    Yields (Cut.Within (Places text)) (ExponentFound.Stands text) (exponentPart r) := by
  unfold exponentPart
  split
  · rename_i c cs letter
    split
    · rename_i known
      have narrow : isNarrow c = true := by
        rcases Bool.or_eq_true_iff.mp known with small | capital
        · rw [eq_of_beq small]
          rfl
        · rw [eq_of_beq capital]
          rfl
      have behind : Rest.Stands text ⟨cs, r.position.right 1⟩ := by
        rw [Rest.Stands, letter] at stands
        exact stands.right [c] (by simpa using narrow)
      have signed := exponentSign_stands behind
      obtain ⟨after, between⟩ := digitsAt_stands signed
      dsimp only
      split
      · exact .error (missingDigit_within signed)
      · rename_i ds r' _ found
        rw [found] at after between
        refine .ok ⟨after, ?_⟩
        rintro down ds ⟨rfl⟩
        exact between
    · exact .ok ⟨stands, nofun⟩
  · exact .ok ⟨stands, nofun⟩

theorem readPower_le {seen value n : Nat} {ds : List Char}
    (h : Numeral.readPower seen value ds = .error n) : n ≤ seen + ds.length := by
  induction ds generalizing seen value with
  | nil => cases h
  | cons c ds ih =>
      rw [Numeral.readPower] at h
      split at h
      · cases h
        simp
      · have bound := ih h
        rw [List.length_cons]
        omega

theorem value_places (n : Numeral) {digits stop : Position} (ends : Places text stop)
    (between : ∀ down ds, n.exponent = some (down, ds) →
      ∀ seen ≤ ds.length, Places text (digits.right seen)) :
    Yields (Fault.Within (Places text)) (fun _ => True) (n.value digits stop) := by
  unfold Numeral.value
  dsimp only
  split
  · split
    · exact .ok trivial
    · split
      · exact .ok trivial
      · exact .error ends
  · rename_i down power found
    split
    · split
      · exact .ok trivial
      · exact .error ends
    · rename_i seen failed
      split
      · have bound := readPower_le failed
        rw [Nat.zero_add] at bound
        exact .error (between down power found seen bound)
      · exact .ok trivial

/-- A strict reading with what follows it. -/
def ReadingStands (text : List Char) (found : Except Fault α × Rest) : Prop :=
  Yields (Fault.Within (Places text)) (fun _ => True) found.1 ∧ found.2.Stands text

theorem numeralAt_places {r : Rest} (stands : r.Stands text) :
    Yields (Cut.Within (Places text)) (ReadingStands text) (numeralAt r) := by
  have parts (negative : Bool) {r : Rest} (stands : r.Stands text) :
      Yields (Cut.Within (Places text)) (ReadingStands text) (do
        let whole ← wholePart r
        let fraction ← fractionPart whole.2
        let found ← exponentPart fraction.2
        return ((⟨negative, whole.1, fraction.1, found.exponent⟩ : Numeral).value found.digits
          found.rest.position, found.rest)) := by
    refine (wholePart_places stands).bind fun whole afterWhole => ?_
    refine (fractionPart_places afterWhole).bind fun fraction afterFraction => ?_
    refine (exponentPart_places afterFraction).bind fun found afterPower => ?_
    exact .ok ⟨value_places _ afterPower.rest.places afterPower.digits, afterPower.rest⟩
  unfold numeralAt
  dsimp only
  split
  · rename_i cs minus
    rw [Rest.Stands, minus] at stands
    exact parts true (stands.right ['-'] rfl)
  · exact parts false stands

/-! ### Text literals -/

theorem badUnit_within {p : Position} {cs : List Char} (stands : Stands text p cs) :
    (badUnit p cs).Within (Places text) := by
  unfold badUnit
  split
  · rw [← List.append_nil cs] at stands
    exact (stands.afterAll cs).places
  · exact stands.afterBytes 4

theorem narrow_of_codeUnit? {h₁ h₂ h₃ h₄ : Char} {n : Nat} (unit : codeUnit? h₁ h₂ h₃ h₄ = some n) :
    ['\\', 'u', h₁, h₂, h₃, h₄].all isNarrow = true := by
  have digits : hexDigits.all isNarrow = true := rfl
  have hex : [h₁, h₂, h₃, h₄].all isNarrow = true := List.all_eq_true.mpr fun h member =>
    List.all_eq_true.mp digits h (mem_hexDigits_of_codeUnit? unit h member)
  rw [List.all_cons, List.all_cons, hex]
  rfl

theorem narrow_of_shortEscape? {e c : Char} (escape : shortEscape? e = some c) :
    ['\\', e].all isNarrow = true := by
  have known : shortEscapes.all isNarrow = true := rfl
  rw [List.all_cons, List.all_cons, List.all_eq_true.mp known e (mem_shortEscapes escape)]
  rfl

theorem passText_places {p : Position} {cs : List Char} (stands : Stands text p cs) :
    Yields (Fault.Within (Places text)) (Rest.Stands text) (passText p cs) := by
  fun_induction passText p cs with
  | case1 p => exact .error stands.places
  | case2 p c cs quote =>
      rw [eq_of_beq quote] at stands
      exact .ok (stands.right ['"'] rfl)
  | case3 p c quote backslash =>
      rw [eq_of_beq backslash] at stands
      exact .error (stands.right ['\\'] rfl).places
  | case4 p c quote backslash e escape h₁ h₂ h₃ h₄ cs n unit ih =>
      rw [eq_of_beq backslash, eq_of_beq escape] at stands
      exact ih (stands.right ['\\', 'u', h₁, h₂, h₃, h₄] (narrow_of_codeUnit? unit))
  | case5 p c quote backslash e escape h₁ h₂ h₃ h₄ cs unit =>
      rw [eq_of_beq backslash, eq_of_beq escape] at stands
      exact .error (badUnit_within (stands.right ['\\', 'u'] rfl))
  | case6 p c quote backslash e escape cs short =>
      rw [eq_of_beq backslash, eq_of_beq escape] at stands
      exact .error (badUnit_within (stands.right ['\\', 'u'] rfl))
  | case7 p c quote backslash e cs other d escape ih =>
      rw [eq_of_beq backslash] at stands
      exact ih (stands.right ['\\', e] (narrow_of_shortEscape? escape))
  | case8 p c quote backslash e cs other escape =>
      rw [eq_of_beq backslash] at stands
      exact .error (stands.right ['\\'] rfl).peek
  | case9 p c cs quote backslash control => exact .error stands.places
  | case10 p c cs quote backslash control ih => exact ih stands.after

theorem readText_places (high : Option Nat) (seen : List Char) {p : Position} {cs : List Char}
    (stands : Stands text p cs) :
    Yields (Fault.Within (Places text)) (fun _ => True) (readText high seen p cs) := by
  fun_induction readText high seen p cs with
  | case1 high seen p => exact .error stands.places
  | case2 high seen p c backslash =>
      rw [eq_of_beq backslash] at stands
      exact .error (stands.right ['\\'] rfl).places
  | case3 high seen p c backslash e escape h₁ h₂ h₃ h₄ cs unit =>
      rw [eq_of_beq backslash, eq_of_beq escape] at stands
      exact .error (badUnit_within (stands.right ['\\', 'u'] rfl))
  | case4 high seen p c backslash e escape h₁ h₂ h₃ h₄ cs n unit high' seen' taken ih =>
      rw [eq_of_beq backslash, eq_of_beq escape] at stands
      exact ih (stands.right ['\\', 'u', h₁, h₂, h₃, h₄] (narrow_of_codeUnit? unit))
  | case5 high seen p c backslash e escape h₁ h₂ h₃ h₄ cs n unit lone =>
      rw [eq_of_beq backslash, eq_of_beq escape] at stands
      exact .error
        (stands.right ['\\', 'u', h₁, h₂, h₃, h₄] (narrow_of_codeUnit? unit)).places
  | case6 high seen p c backslash e escape cs short =>
      rw [eq_of_beq backslash, eq_of_beq escape] at stands
      exact .error (badUnit_within (stands.right ['\\', 'u'] rfl))
  | case7 high seen p c backslash e cs other waiting =>
      rw [eq_of_beq backslash] at stands
      exact .error (stands.right ['\\'] rfl).peek
  | case8 high seen p c backslash e cs other noneWaits d escape ih =>
      rw [eq_of_beq backslash] at stands
      exact ih (stands.right ['\\', e] (narrow_of_shortEscape? escape))
  | case9 high seen p c backslash e cs other noneWaits escape =>
      rw [eq_of_beq backslash] at stands
      exact .error (stands.right ['\\'] rfl).peek
  | case10 high seen p c cs backslash waiting => exact .error stands.peek
  | case11 high seen p c cs backslash noneWaits quote => exact .ok trivial
  | case12 high seen p c cs backslash noneWaits quote control => exact .error stands.peek
  | case13 high seen p c cs backslash noneWaits quote control ih => exact ih stands.after

end Scanner

end RootedBuild.Json
