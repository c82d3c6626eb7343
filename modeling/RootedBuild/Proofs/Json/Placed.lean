import RootedBuild.Proofs.Json.Offsets

/-!
Where faults are placed. Every position that the scanner puts into tokens is that of an offset of
the text, and reading tokens reports no other: `Tokens.Within` says so of a stream, and is all that
the readers ask of it.
-/
namespace RootedBuild.Json

/-! ### Tokens -/

/-- All positions that reading a token may report are such. -/
def Lexeme.Within (places : Position → Prop) : Lexeme → Prop
  | .number strict => Yields (Fault.Within places) (fun _ => True) strict
  | .text strict => Yields (Fault.Within places) (fun _ => True) strict
  | .cutText cut => cut.Within places
  | .cutScalar cut => cut.Within places
  | _ => True

structure Token.Within (places : Position → Prop) (t : Token) : Prop where
  lexeme : t.lexeme.Within places
  start : places t.start
  peek : places t.peek
  stop : places t.stop

def Tokens.Within (places : Position → Prop) : Tokens → Prop
  | .finish p => places p
  | .next t rest => t.Within places ∧ rest.Within places

theorem Tokens.Within.start {places : Position → Prop} {ts : Tokens} (within : ts.Within places) :
    places ts.start := by
  cases ts with
  | finish p => exact within
  | next t rest => exact within.1.start

section Scanner

variable {text : List Char}

/-- Reading stands at the rest of the text, or has been given up at some position of it. -/
def Rest.Reaches (text : List Char) (r : Rest) : Prop :=
  r.Stands text ∨ r.chars = [] ∧ Places text r.position

theorem Rest.Reaches.places {r : Rest} (reaches : r.Reaches text) : Places text r.position := by
  rcases reaches with stands | ⟨_, places⟩
  · exact stands.places
  · exact places

structure Scanned.Within (text : List Char) (s : Scanned) : Prop where
  lexeme : s.lexeme.Within (Places text)
  rest : s.rest.Reaches text

theorem scanWord_within (w : Word) {p : Position} {cs : List Char} (stands : Stands text p cs) :
    (scanWord w p cs).Within text := by
  have narrow : w.letters.all isNarrow = true := by cases w <;> rfl
  have passed := passWord_places narrow stands
  unfold scanWord
  generalize passWord p w.letters cs = result at passed
  cases passed with
  | ok stands => exact ⟨trivial, .inl stands⟩
  | error within => exact ⟨.both within, .inr ⟨rfl, within⟩⟩

theorem scanNumber_within {p : Position} {cs : List Char} (stands : Stands text p cs) :
    (scanNumber p cs).Within text := by
  have read := numeralAt_places (r := ⟨cs, p⟩) stands
  unfold scanNumber
  generalize numeralAt ⟨cs, p⟩ = result at read
  cases read with
  | ok found => exact ⟨found.1, .inl found.2⟩
  | error within => exact ⟨within, .inr ⟨rfl, within.lenient⟩⟩

theorem scanText_within {p : Position} {cs : List Char} (stands : Stands text p cs) :
    (scanText p cs).Within text := by
  have strict := readText_places none [] stands
  have passed := passText_places stands
  unfold scanText
  dsimp only
  generalize readText none [] p cs = reading at strict
  generalize passText p cs = result at passed
  cases passed with
  | ok stands => exact ⟨strict, .inl stands⟩
  | error within =>
      refine ⟨?_, .inr ⟨rfl, within⟩⟩
      cases strict with
      | ok _ => exact Cut.Within.both within
      | error place => exact ⟨place, within⟩

theorem scanOne_within {p : Position} {c : Char} {cs : List Char}
    (stands : Stands text p (c :: cs)) : (scanOne p c cs).Within text := by
  have mark (narrow : isNarrow c = true) : Rest.Reaches text ⟨cs, p.right 1⟩ :=
    .inl (stands.right [c] (by simpa using narrow))
  have places := stands.places
  unfold scanOne
  dsimp only
  split
  · exact ⟨trivial, mark rfl⟩
  · exact ⟨trivial, mark rfl⟩
  · exact ⟨trivial, mark rfl⟩
  · exact ⟨trivial, mark rfl⟩
  · exact ⟨trivial, mark rfl⟩
  · exact ⟨trivial, mark rfl⟩
  · exact scanWord_within .null stands
  · exact scanWord_within .true stands
  · exact scanWord_within .false stands
  · exact scanText_within (stands.right ['"'] rfl)
  · split
    · exact scanNumber_within stands
    · exact ⟨trivial, .inr ⟨rfl, places⟩⟩

theorem skipLayout_reaches {p : Position} {cs : List Char} (reaches : Rest.Reaches text ⟨cs, p⟩) :
    (skipLayout p cs).Reaches text := by
  induction cs generalizing p with
  | nil => exact reaches
  | cons c cs ih =>
      rw [skipLayout]
      split
      · rcases reaches with stands | ⟨nothing, _⟩
        · exact ih (.inl stands.after)
        · cases nothing
      · exact reaches

theorem skipLayout_head {p : Position} {cs rest : List Char} {c : Char}
    (skipped : (skipLayout p cs).chars = c :: rest) : isLayout c = false := by
  induction cs generalizing p with
  | nil => cases skipped
  | cons d cs ih =>
      rw [skipLayout] at skipped
      split at skipped
      · exact ih skipped
      · cases skipped
        simpa using ‹¬isLayout c = true›

/-- Each token takes on from where the one before it ends. -/
theorem scanUpTo_within {fuel : Nat} {p : Position} {cs : List Char}
    (reaches : Rest.Reaches text ⟨cs, p⟩) : (scanUpTo fuel p cs).Within (Places text) := by
  induction fuel generalizing p cs with
  | zero => exact reaches.places
  | succ fuel ih =>
      have skipped := skipLayout_reaches reaches
      have head := @skipLayout_head p cs
      unfold scanUpTo
      dsimp only
      generalize skipLayout p cs = r at skipped head
      obtain ⟨chars, q⟩ := r
      cases chars with
      | nil => exact skipped.places
      | cons c rest =>
          rcases skipped with stands | ⟨nothing, _⟩
          · have one := scanOne_within stands
            have newline : c ≠ '\n' := by
              rintro rfl
              exact absurd (head rfl) (by decide)
            have peek := stands.peek
            have next : q.peek c = q.right 1 := by simp [Position.peek, Position.right, newline]
            rw [next] at peek
            exact ⟨⟨one.lexeme, stands.places, peek, one.rest.places⟩, ih one.rest⟩
          · cases nothing

theorem scan_within (text : String) : (scan text).Within (Places text.toList) :=
  scanUpTo_within (.inl (.start text.toList))

end Scanner

/-! ### The machine -/

section Machine

variable {places : Position → Prop}

theorem stop_yields (complaint : Complaint) {t : Token} (within : t.Within places) :
    Yields (Fault.Within places) (fun _ => True) (stop complaint t) :=
  .error within.peek

theorem openContainer_yields (m : Manner) (stack : List Frame) (phase : Phase) {t : Token}
    (within : t.Within places) :
    Yields (Fault.Within places) (fun _ => True) (openContainer m stack phase t) := by
  unfold openContainer
  split
  · split
    · exact stop_yields _ within
    · exact .ok trivial
  · exact .ok trivial

theorem pick_within (m : Manner) {cut : Cut} (within : cut.Within places) :
    (m.pick cut.strict cut.lenient).Within places := by
  obtain ⟨way, room⟩ := m
  cases way with
  | strict => exact within.strict
  | lenient => exact within.lenient

/-- A strict reading that failed fails where it did. -/
theorem scalar_yields (m : Manner) {r : Except Fault α}
    (within : Yields (Fault.Within places) (fun _ => True) r) (progress : Progress) :
    Yields (Fault.Within places) (fun _ => True)
      (match m.fault? r with
        | some f => .error f
        | none => .ok progress) := by
  obtain ⟨way, room⟩ := m
  cases within with
  | ok _ => cases way <;> exact .ok trivial
  | error within =>
      cases way with
      | strict => exact .error within
      | lenient => exact .ok trivial

theorem startValue_yields (m : Manner) (stack : List Frame) {t : Token} (within : t.Within places) :
    Yields (Fault.Within places) (fun _ => True) (startValue m stack t) := by
  have lexeme := within.lexeme
  obtain ⟨kind, start, finish⟩ := t
  cases kind with
  | word w => exact .ok trivial
  | number n => exact scalar_yields m lexeme _
  | text s => exact scalar_yields m lexeme _
  | openList => exact openContainer_yields m stack _ within
  | openRecord => exact openContainer_yields m stack _ within
  | cutText cut => exact .error (pick_within m lexeme)
  | cutScalar cut => exact .error (pick_within m lexeme)
  | _ => exact stop_yields _ within

theorem startKey_yields (m : Manner) (stack : List Frame) (members : List WrittenMember) {t : Token}
    (within : t.Within places) :
    Yields (Fault.Within places) (fun _ => True) (startKey m stack members t) := by
  have lexeme := within.lexeme
  obtain ⟨kind, start, finish⟩ := t
  cases kind with
  | text key => exact scalar_yields m lexeme _
  | cutText cut => exact .error (pick_within m lexeme)
  | _ => exact stop_yields _ within

/-- One step places its fault, whatever phase it is made in. -/
theorem advance_yields (m : Manner) (stack : List Frame) (phase : Phase) {t : Token}
    (within : t.Within places) :
    Yields (Fault.Within places) (fun _ => True) (advance m stack phase t) := by
  have value (stack : List Frame) := startValue_yields m stack within
  have key (members : List WrittenMember) := startKey_yields m stack members within
  have stopped (complaint : Complaint) := stop_yields complaint within
  unfold advance
  split
  · exact value _
  · split
    · exact .ok trivial
    · exact value _
  · split
    · exact stopped _
    · exact value _
  · split
    · exact .ok trivial
    · exact .ok trivial
    · exact stopped _
  · split
    · exact .ok trivial
    · exact key _
  · split
    · exact stopped _
    · exact key _
  · split
    · exact .ok trivial
    · exact stopped _
  · split
    · exact .ok trivial
    · exact .ok trivial
    · exact stopped _

/-- A run of the machine places its fault, and leaves a stream with positions of the text. -/
theorem build_yields (m : Manner) (stack : List Frame) (phase : Phase) {ts : Tokens}
    (within : ts.Within places) :
    Yields (Fault.Within places) (fun found => found.2.Within places) (build m stack phase ts) := by
  induction ts generalizing stack phase with
  | finish p => exact .error within
  | next t rest ih =>
      have step := advance_yields m stack phase within.1
      rw [build]
      generalize advance m stack phase t = result at step
      cases step with
      | error place => exact .error place
      | @ok progress _ =>
          cases progress with
          | done w => exact .ok within.2
          | more stack phase => exact ih stack phase within.2

theorem readValue_yields (m : Manner) {ts : Tokens} (within : ts.Within places) :
    Yields (Fault.Within places) (fun found => found.2.Within places) (readValue m ts) :=
  build_yields m [] .value within

theorem expectEnd_yields {ts : Tokens} (within : ts.Within places) :
    Yields (Fault.Within places) (fun _ => True) (expectEnd ts) := by
  cases ts with
  | finish p => exact .ok trivial
  | next t rest => exact .error within.1.peek

end Machine

end RootedBuild.Json
