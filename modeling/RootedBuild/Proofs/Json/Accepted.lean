import RootedBuild.Json.Written
import RootedBuild.Proofs.Json.Spelled

/-!
What the machine finishes was a document. A stack of open containers says what must still follow
for all of them to be closed, and every step of the machine keeps to it. Thus the tokens of a value
that is read in whole are those of the strict symbols of a document; nothing is said of a value at
which reading stops.
-/
namespace RootedBuild.Json

/-! ### Streams of symbols -/

theorem Reads.finish {p : Position} {ss : List Symbol} {tail : Tokens}
    (reads : Reads (.finish p) ss tail) : ss = [] ∧ tail = .finish p := by
  cases reads
  exact ⟨rfl, rfl⟩

/-- The next token is that of the next symbol, if it can be passed over. -/
theorem Reads.next {t : Token} {lexeme : Lexeme} {rest tail : Tokens} {ss : List Symbol}
    (reads : Reads (.next t rest) ss tail) (last : tail.isLast = true) (is : t.lexeme = lexeme)
    (whole : lexeme.isCut = false) :
    ∃ s left, ss = s :: left ∧ Spells s lexeme ∧ Reads rest left tail := by
  subst is
  cases reads with
  | nil => exact absurd (last.symm.trans whole) (by decide)
  | cons spells later => exact ⟨_, _, rfl, spells, later⟩

/-! ### What must follow -/

section
variable (after : List Symbol → Prop)

def MarkThen (mark : Symbol) (ss : List Symbol) : Prop := ∃ rest, ss = mark :: rest ∧ after rest

def KeyThen (ss : List Symbol) : Prop := ∃ key rest, ss = .text key :: rest ∧ after rest

/-- A document, and behind it what `after` says. -/
def ValueThen (ss : List Symbol) : Prop :=
  ∃ (d : Document) (rest : List Symbol), ss = d.symbols false ++ rest ∧ after rest

/-- What stands behind a key. -/
def NamedThen : List Symbol → Prop := MarkThen (ValueThen after) .colon

def MemberThen : List Symbol → Prop := KeyThen (NamedThen after)

/-- The rest of a list behind one of its elements. -/
def ItemsThen (ss : List Symbol) : Prop :=
  ∃ ds rest, ss = laterItems false ds ++ .closeList :: rest ∧ after rest

/-- The rest of an object behind one of its members. -/
def MembersThen (ss : List Symbol) : Prop :=
  ∃ ms rest, ss = laterMembers false ms ++ .closeRecord :: rest ∧ after rest

end

section
variable {after : List Symbol → Prop} {ss : List Symbol}

theorem ItemsThen.close (h : after ss) : ItemsThen after (.closeList :: ss) := ⟨[], ss, rfl, h⟩

theorem MembersThen.close (h : after ss) : MembersThen after (.closeRecord :: ss) :=
  ⟨[], ss, rfl, h⟩

theorem ItemsThen.comma (h : ValueThen (ItemsThen after) ss) : ItemsThen after (.comma :: ss) := by
  obtain ⟨d, _, rfl, ds, rest, rfl, h⟩ := h
  exact ⟨d :: ds, rest, by simp [laterItems], h⟩

theorem MembersThen.comma (h : MemberThen (MembersThen after) ss) :
    MembersThen after (.comma :: ss) := by
  obtain ⟨key, _, rfl, _, rfl, d, _, rfl, ms, rest, rfl, h⟩ := h
  exact ⟨(key, d) :: ms, rest, by simp [laterMembers], h⟩

theorem ValueThen.list (h : MarkThen after .closeList ss ∨ ValueThen (ItemsThen after) ss) :
    ValueThen after (.openList :: ss) := by
  rcases h with ⟨rest, rfl, h⟩ | ⟨d, _, rfl, ds, rest, rfl, h⟩
  · exact ⟨.list [] false, rest, rfl, h⟩
  · exact ⟨.list (d :: ds) false, rest, by simp [Document.symbols, extraComma], h⟩

theorem ValueThen.record (h : MarkThen after .closeRecord ss ∨ MemberThen (MembersThen after) ss) :
    ValueThen after (.openRecord :: ss) := by
  rcases h with ⟨rest, rfl, h⟩ | ⟨key, _, rfl, _, rfl, d, _, rfl, ms, rest, rfl, h⟩
  · exact ⟨.record [] false, rest, rfl, h⟩
  · exact ⟨.record ((key, d) :: ms) false, rest, by simp [Document.symbols, extraComma], h⟩

end

/-! ### The machine -/

/-- What must follow a finished value for the containers around it to be closed. -/
def Owed (after : List Symbol → Prop) : List Frame → List Symbol → Prop
  | [] => after
  | .list _ :: stack => ItemsThen (Owed after stack)
  | .record _ _ :: stack => MembersThen (Owed after stack)

def Phase.owed (after : List Symbol → Prop) : Phase → List Symbol → Prop
  | .value => ValueThen after
  | .firstItem => fun ss => MarkThen after .closeList ss ∨ ValueThen (ItemsThen after) ss
  | .nextItem _ => ValueThen (ItemsThen after)
  | .afterItem _ => ItemsThen after
  | .firstKey => fun ss => MarkThen after .closeRecord ss ∨ MemberThen (MembersThen after) ss
  | .nextKey _ => MemberThen (MembersThen after)
  | .colon _ _ => NamedThen (MembersThen after)
  | .afterMember _ => MembersThen after

def Progress.owed (after : List Symbol → Prop) : Progress → List Symbol → Prop
  | .done _ => after
  | .more stack phase => phase.owed (Owed after stack)

theorem complete_owed (after : List Symbol → Prop) (stack : List Frame) (w : Written) :
    (complete stack w).owed after = Owed after stack := by
  cases stack with
  | nil => rfl
  | cons frame stack => cases frame <;> rfl

theorem openContainer_ok {m : Manner} {stack : List Frame} {phase : Phase} {t : Token}
    {p : Progress} (h : openContainer m stack phase t = .ok p) : p = .more stack phase := by
  unfold openContainer at h
  split at h
  · split at h
    · cases h
    · exact (Except.ok.inj h).symm
  · exact (Except.ok.inj h).symm

variable {after : List Symbol → Prop} {ss : List Symbol} {m : Manner} {stack : List Frame}
  {t : Token} {p : Progress} {s : Symbol}

/-- A scalar whose strict reading is not refused stands for itself. -/
theorem kept_owed {reading : Except Fault α} {w : Written}
    (h : (match m.fault? reading with
      | some f => .error f
      | none => .ok (complete stack w)) = Except.ok p)
    (owed : p.owed after ss) : Owed after stack ss := by
  split at h
  · cases h
  · cases h
    rwa [complete_owed] at owed

theorem startValue_owed (h : startValue m stack t = .ok p) (spells : Spells s t.lexeme)
    (owed : p.owed after ss) : ValueThen (Owed after stack) (s :: ss) := by
  obtain ⟨lexeme, start, stop⟩ := t
  cases spells with
  | word w =>
      cases h
      rw [complete_owed] at owed
      exact ⟨.word w, ss, rfl, owed⟩
  | numeral n strict => exact ⟨.numeral n, ss, rfl, kept_owed h owed⟩
  | text s strict => exact ⟨.text s, ss, rfl, kept_owed h owed⟩
  | openList =>
      rw [openContainer_ok h] at owed
      exact .list owed
  | openRecord =>
      rw [openContainer_ok h] at owed
      exact .record owed
  | _ => cases h

theorem startKey_owed {members : List WrittenMember} (h : startKey m stack members t = .ok p)
    (spells : Spells s t.lexeme) (owed : p.owed after ss) :
    MemberThen (MembersThen (Owed after stack)) (s :: ss) := by
  obtain ⟨lexeme, start, stop⟩ := t
  cases spells with
  | text key strict =>
      change (match m.fault? strict with
        | some f => .error f
        | none => .ok (.more stack (.colon members strict))) = Except.ok p at h
      split at h
      · cases h
      · cases h
        exact ⟨key, ss, rfl, owed⟩
  | _ => cases h

/-- What must follow before a step is its token and what must follow after it. -/
theorem advance_owed {phase : Phase} (h : advance m stack phase t = .ok p)
    (spells : Spells s t.lexeme) (owed : p.owed after ss) :
    phase.owed (Owed after stack) (s :: ss) := by
  have item (items : List Written) (h : startValue m (.list items :: stack) t = .ok p) :
      ValueThen (ItemsThen (Owed after stack)) (s :: ss) := startValue_owed h spells owed
  have key (members : List WrittenMember) (h : startKey m stack members t = .ok p) :
      MemberThen (MembersThen (Owed after stack)) (s :: ss) := startKey_owed h spells owed
  have completed {w : Written} (h : Except.ok (ε := Fault) (complete stack w) = .ok p) :
      Owed after stack ss := by
    rwa [← Except.ok.inj h, complete_owed] at owed
  have moved {stack' : List Frame} {phase' : Phase}
      (h : Except.ok (ε := Fault) (.more stack' phase') = .ok p) :
      phase'.owed (Owed after stack') ss := by
    rwa [← Except.ok.inj h] at owed
  cases phase with
  | value => exact startValue_owed h spells owed
  | firstItem =>
      obtain ⟨lexeme, start, stop⟩ := t
      cases spells with
      | closeList => exact .inl ⟨ss, rfl, completed h⟩
      | _ => exact .inr (item [] h)
  | nextItem items =>
      obtain ⟨lexeme, start, stop⟩ := t
      cases spells with
      | closeList => cases h
      | _ => exact item items h
  | afterItem items =>
      obtain ⟨lexeme, start, stop⟩ := t
      cases spells with
      | comma => exact .comma (moved h)
      | closeList => exact .close (completed h)
      | _ => cases h
  | firstKey =>
      obtain ⟨lexeme, start, stop⟩ := t
      cases spells with
      | closeRecord => exact .inl ⟨ss, rfl, completed h⟩
      | _ => exact .inr (key [] h)
  | nextKey members =>
      obtain ⟨lexeme, start, stop⟩ := t
      cases spells with
      | closeRecord => cases h
      | _ => exact key members h
  | colon members key =>
      obtain ⟨lexeme, start, stop⟩ := t
      cases spells with
      | colon => exact ⟨ss, rfl, moved h⟩
      | _ => cases h
  | afterMember members =>
      obtain ⟨lexeme, start, stop⟩ := t
      cases spells with
      | comma => exact .comma (moved h)
      | closeRecord => exact .close (completed h)
      | _ => cases h

theorem advance_cut (cut : t.lexeme.isCut = true) (m : Manner) (stack : List Frame)
    (phase : Phase) : ∃ f, advance m stack phase t = .error f := by
  obtain ⟨lexeme, start, stop⟩ := t
  cases lexeme with
  | cutText => cases phase <;> exact ⟨_, rfl⟩
  | cutScalar => cases phase <;> exact ⟨_, rfl⟩
  | stray => cases phase <;> exact ⟨_, rfl⟩
  | _ => cases cut

/-- By induction on the symbols: the machine takes the tokens that must follow, and leaves what is
behind them. -/
theorem build_owed {ts tail rest : Tokens} {phase : Phase} {w : Written} (reads : Reads ts ss tail)
    (last : tail.isLast = true) (h : build m stack phase ts = .ok (w, rest)) :
    phase.owed (Owed (Reads rest · tail) stack) ss := by
  induction reads generalizing stack phase with
  | nil ts =>
      cases ts with
      | finish p => cases h
      | next t ts =>
          obtain ⟨f, refused⟩ := advance_cut last m stack phase
          rw [build, refused] at h
          cases h
  | @cons t s spells ts tail ss later ih =>
      rw [build] at h
      cases step : advance m stack phase t with
      | error f =>
          rw [step] at h
          cases h
      | ok p =>
          rw [step] at h
          apply advance_owed step spells
          cases p with
          | done w =>
              cases h
              exact later
          | more stack phase => exact ih last h

/-- A value that is read was a document. -/
theorem readValue_sound {ts tail rest : Tokens} {w : Written} (reads : Reads ts ss tail)
    (last : tail.isLast = true) (h : readValue m ts = .ok (w, rest)) :
    ValueThen (Reads rest · tail) ss :=
  build_owed reads last h

/-! ### Whole texts -/

/-- A text that spells a document, with layout between its symbols. -/
def IsDocument (text : String) : Prop :=
  ∃ (gap : Nat → List Char) (d : Document),
    Layout gap ∧ text.toList = interleave gap (d.symbols false)

theorem readWhole_eq_ok_iff {text : String} {w : Written} :
    readWhole m text = .ok w ↔ ∃ p, readValue m (scan text) = .ok (w, .finish p) := by
  unfold readWhole
  cases readValue m (scan text) with
  | error f => simp [bind, Except.bind]
  | ok found =>
      obtain ⟨v, rest⟩ := found
      cases rest <;> simp [bind, Except.bind, expectEnd, pure, Except.pure]

/-- Nothing but documents is read. -/
theorem isDocument_of_readWhole {text : String} {w : Written} (h : readWhole m text = .ok w) :
    IsDocument text := by
  obtain ⟨p, read⟩ := readWhole_eq_ok_iff.mp h
  obtain ⟨ss, tail, reads, last, laid⟩ := scan_sound text
  obtain ⟨d, left, rfl, ended⟩ := readValue_sound reads last read
  obtain ⟨rfl, rfl⟩ := ended.finish
  obtain ⟨gap, layout, spelled⟩ := laid rfl
  rw [List.append_nil] at spelled
  exact ⟨gap, d, layout, spelled⟩

/-- A text of layout alone is no document. -/
theorem not_isDocument_of_layout {text : String} (layout : ∀ c ∈ text.toList, isLayout c = true) :
    ¬IsDocument text := by
  rintro ⟨gap, d, _, spelled⟩
  have solid := allBlank_interleave gap (symbols_ne_nil false d)
  rw [← spelled, Text.allBlank, List.all_eq_false] at solid
  obtain ⟨c, inside, other⟩ := solid
  exact other (isBlank_of_isLayout (layout c inside))

end RootedBuild.Json
