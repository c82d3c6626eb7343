import Mathlib.Data.List.Basic
import RootedBuild.Json.Fields

/-!
Reading without regard to where tokens stand. `unplaced` forgets every position in tokens and in
what is read from them. A reader that is given tokens without positions does what it would have done
with them, up to the places of its faults: `Elsewhere` says so of two readings, and holds for one
token, for a run of the machine and for everything that is put together from such readings.
-/
namespace RootedBuild.Json

/-! ### Forgetting positions -/

def Fault.unplaced (f : Fault) : Fault := ⟨f.complaint, {}⟩

/-- A strict reading of a token whose fault has no place. -/
def unplacedReading (r : Except Fault α) : Except Fault α := r.mapError Fault.unplaced

def Cut.unplaced (c : Cut) : Cut := ⟨c.strict.unplaced, c.lenient.unplaced⟩

def Lexeme.unplaced : Lexeme → Lexeme
  | .number strict => .number (unplacedReading strict)
  | .text strict => .text (unplacedReading strict)
  | .cutText cut => .cutText cut.unplaced
  | .cutScalar cut => .cutScalar cut.unplaced
  | lexeme => lexeme

def Token.unplaced (t : Token) : Token := ⟨t.lexeme.unplaced, {}, {}⟩

def Tokens.unplaced : Tokens → Tokens
  | .finish _ => .finish {}
  | .next t rest => .next t.unplaced rest.unplaced

theorem Tokens.size_unplaced (ts : Tokens) : ts.unplaced.size = ts.size := by
  induction ts with
  | finish p => rfl
  | next t rest ih => simp only [unplaced, size, ih]

mutual

def Written.unplaced : Written → Written
  | .null => .null
  | .bool b => .bool b
  | .number n => .number (unplacedReading n)
  | .text s => .text (unplacedReading s)
  | .list items => .list (unplacedItems items)
  | .record members => .record (unplacedMembers members)

def unplacedItems : List Written → List Written
  | [] => []
  | w :: ws => w.unplaced :: unplacedItems ws

def unplacedMembers : List (Except Fault String × Written) → List (Except Fault String × Written)
  | [] => []
  | (key, w) :: rest => (unplacedReading key, w.unplaced) :: unplacedMembers rest

end

def unplacedMember (m : WrittenMember) : WrittenMember := (unplacedReading m.1, m.2.unplaced)

theorem unplacedItems_eq_map (ws : List Written) : unplacedItems ws = ws.map Written.unplaced := by
  induction ws with
  | nil => rfl
  | cons w ws ih => rw [unplacedItems, ih, List.map_cons]

theorem unplacedMembers_eq_map (ms : List WrittenMember) :
    unplacedMembers ms = ms.map unplacedMember := by
  induction ms with
  | nil => rfl
  | cons m ms ih => rw [unplacedMembers, ih, List.map_cons, unplacedMember]

def Frame.unplaced : Frame → Frame
  | .list items => .list (items.map Written.unplaced)
  | .record members key => .record (members.map unplacedMember) (unplacedReading key)

def Phase.unplaced : Phase → Phase
  | .value => .value
  | .firstItem => .firstItem
  | .nextItem items => .nextItem (items.map Written.unplaced)
  | .afterItem items => .afterItem (items.map Written.unplaced)
  | .firstKey => .firstKey
  | .nextKey members => .nextKey (members.map unplacedMember)
  | .colon members key => .colon (members.map unplacedMember) (unplacedReading key)
  | .afterMember members => .afterMember (members.map unplacedMember)

def Progress.unplaced : Progress → Progress
  | .done w => .done w.unplaced
  | .more stack phase => .more (stack.map Frame.unplaced) phase.unplaced

/-! ### What is read is the same -/

mutual

theorem Written.value?_unplaced : (w : Written) → w.unplaced.value? = w.value?
  | .null => rfl
  | .bool b => rfl
  | .number (.ok n) => rfl
  | .number (.error f) => rfl
  | .text (.ok s) => rfl
  | .text (.error f) => rfl
  | .list items => by
      rw [Written.unplaced, Written.value?, Written.value?, valuesOf_unplaced items]
  | .record members => by
      rw [Written.unplaced, Written.value?, Written.value?, pairsOf_unplaced members]

theorem valuesOf_unplaced : (ws : List Written) → valuesOf (unplacedItems ws) = valuesOf ws
  | [] => rfl
  | w :: ws => by
      rw [unplacedItems, valuesOf, valuesOf, w.value?_unplaced, valuesOf_unplaced ws]

theorem pairsOf_unplaced :
    (ms : List (Except Fault String × Written)) → pairsOf (unplacedMembers ms) = pairsOf ms
  | [] => rfl
  | (.ok key, w) :: rest => by
      rw [unplacedMembers, unplacedReading, Except.mapError, pairsOf, pairsOf, w.value?_unplaced,
        pairsOf_unplaced rest]
  | (.error f, w) :: rest => rfl

end

theorem Written.text?_unplaced (w : Written) : w.unplaced.text? = w.text? := by
  cases w with
  | text s => cases s <;> rfl
  | _ => rfl

theorem Written.texts?_unplaced (w : Written) : w.unplaced.texts? = w.texts? := by
  cases w with
  | list items =>
      simp only [unplaced, texts?, list?, Option.bind_some, unplacedItems_eq_map]
      induction items with
      | nil => rfl
      | cons item items ih =>
          rw [List.map_cons, List.mapM_cons, List.mapM_cons, ih, item.text?_unplaced]
  | _ => rfl

/-! ### Readings that differ in the places of faults -/

/-- The second reading gives what the first gives, turned by `g`, or they complain of the same. -/
inductive Elsewhere (g : α → β) : Except Fault α → Except Fault β → Prop where
  | ok (a : α) : Elsewhere g (.ok a) (.ok (g a))
  | error {f f' : Fault} (same : f.complaint = f'.complaint) : Elsewhere g (.error f) (.error f')

namespace Elsewhere

variable {g : α → β} {k : γ → δ}

theorem bind {x : Except Fault α} {x' : Except Fault β} {next : α → Except Fault γ}
    {next' : β → Except Fault δ} (h : Elsewhere g x x')
    (later : ∀ a, Elsewhere k (next a) (next' (g a))) :
    Elsewhere k (x >>= next) (x' >>= next') := by
  cases h with
  | ok a => exact later a
  | error same => exact .error same

theorem ok_iff {x x' : Except Fault α} (h : Elsewhere id x x') (a : α) :
    x = .ok a ↔ x' = .ok a := by
  cases h with
  | ok b => rfl
  | error same => simp

theorem of_ok {x : Except Fault α} {x' : Except Fault β} (h : Elsewhere g x x') {b : β}
    (read : x' = .ok b) : ∃ a, x = .ok a ∧ g a = b := by
  cases h with
  | ok a =>
      cases read
      exact ⟨a, rfl, rfl⟩
  | error same => cases read

theorem reading (r : Except Fault α) : Elsewhere id r (unplacedReading r) := by
  cases r with
  | ok a => exact .ok a
  | error f => exact .error rfl

end Elsewhere

/-! ### The machine -/

theorem complete_elsewhere (stack : List Frame) {w w' : Written} (same : w.unplaced = w') :
    Elsewhere Progress.unplaced (.ok (complete stack w))
      (.ok (complete (stack.map Frame.unplaced) w')) := by
  have done : complete (stack.map Frame.unplaced) w' = (complete stack w).unplaced := by
    subst same
    cases stack with
    | nil => rfl
    | cons frame stack => cases frame <;> rfl
  rw [done]
  exact .ok _

theorem Manner.fault?_unplaced (m : Manner) (r : Except Fault α) :
    m.fault? (unplacedReading r) = (m.fault? r).map Fault.unplaced := by
  obtain ⟨way, room⟩ := m
  cases way <;> cases r <;> rfl

theorem stop_elsewhere (complaint : Complaint) (t : Token) :
    Elsewhere Progress.unplaced (stop complaint t) (stop complaint t.unplaced) :=
  .error rfl

theorem pick_elsewhere (m : Manner) (cut : Cut) :
    Elsewhere Progress.unplaced (.error (m.pick cut.strict cut.lenient))
      (.error (m.pick cut.unplaced.strict cut.unplaced.lenient)) := by
  obtain ⟨way, room⟩ := m
  cases way <;> exact .error rfl

theorem openContainer_elsewhere (m : Manner) (stack : List Frame) (phase : Phase) (t : Token) :
    Elsewhere Progress.unplaced (openContainer m stack phase t)
      (openContainer m (stack.map Frame.unplaced) phase.unplaced t.unplaced) := by
  obtain ⟨way, room⟩ := m
  cases way with
  | lenient => exact .ok (Progress.more stack phase)
  | strict =>
      simp only [openContainer, List.length_map]
      split
      · exact stop_elsewhere _ _
      · exact .ok (Progress.more stack phase)

/-- A finished scalar, unless its strict reading failed and counts. -/
theorem scalar_elsewhere (m : Manner) (stack : List Frame) (r : Except Fault α)
    (make : Except Fault α → Written) (h : (make r).unplaced = make (unplacedReading r)) :
    Elsewhere Progress.unplaced
      (match m.fault? r with
        | some f => .error f
        | none => .ok (complete stack (make r)))
      (match m.fault? (unplacedReading r) with
        | some f => .error f
        | none => .ok (complete (stack.map Frame.unplaced) (make (unplacedReading r)))) := by
  rw [m.fault?_unplaced]
  cases m.fault? r with
  | some f => exact .error rfl
  | none => exact complete_elsewhere stack h

theorem startValue_elsewhere (m : Manner) (stack : List Frame) (t : Token) :
    Elsewhere Progress.unplaced (startValue m stack t)
      (startValue m (stack.map Frame.unplaced) t.unplaced) := by
  obtain ⟨lexeme, start, finish⟩ := t
  cases lexeme with
  | word w =>
      have same : w.written.unplaced = w.written := by cases w <;> rfl
      exact complete_elsewhere stack same
  | number n => exact scalar_elsewhere m stack n .number rfl
  | text s => exact scalar_elsewhere m stack s .text rfl
  | openList => exact openContainer_elsewhere m stack .firstItem _
  | openRecord => exact openContainer_elsewhere m stack .firstKey _
  | cutText cut => exact pick_elsewhere m cut
  | cutScalar cut => exact pick_elsewhere m cut
  | _ => exact stop_elsewhere _ _

theorem startKey_elsewhere (m : Manner) (stack : List Frame) (members : List WrittenMember)
    (t : Token) :
    Elsewhere Progress.unplaced (startKey m stack members t)
      (startKey m (stack.map Frame.unplaced) (members.map unplacedMember) t.unplaced) := by
  obtain ⟨lexeme, start, finish⟩ := t
  cases lexeme with
  | text key =>
      simp only [startKey, Token.unplaced, Lexeme.unplaced, m.fault?_unplaced]
      cases m.fault? key with
      | some f => exact .error rfl
      | none => exact .ok (Progress.more stack (.colon members key))
  | cutText cut => exact pick_elsewhere m cut
  | _ => exact stop_elsewhere _ _

theorem advance_elsewhere (m : Manner) (stack : List Frame) (phase : Phase) (t : Token) :
    Elsewhere Progress.unplaced (advance m stack phase t)
      (advance m (stack.map Frame.unplaced) phase.unplaced t.unplaced) := by
  obtain ⟨lexeme, start, finish⟩ := t
  cases phase with
  | value => exact startValue_elsewhere m stack _
  | firstItem =>
      have next := startValue_elsewhere m (.list [] :: stack) ⟨lexeme, start, finish⟩
      cases lexeme with
      | closeList =>
          exact complete_elsewhere stack (w := .list []) rfl
      | _ => exact next
  | nextItem items =>
      have next := startValue_elsewhere m (.list items :: stack) ⟨lexeme, start, finish⟩
      cases lexeme with
      | closeList => exact stop_elsewhere _ _
      | _ => exact next
  | afterItem items =>
      cases lexeme with
      | comma => exact .ok (Progress.more stack (.nextItem items))
      | closeList =>
          have same := unplacedItems_eq_map items.reverse
          rw [List.map_reverse] at same
          exact complete_elsewhere stack (congrArg Written.list same)
      | _ => exact stop_elsewhere _ _
  | firstKey =>
      have next := startKey_elsewhere m stack [] ⟨lexeme, start, finish⟩
      cases lexeme with
      | closeRecord =>
          exact complete_elsewhere stack (w := .record []) rfl
      | _ => exact next
  | nextKey members =>
      have next := startKey_elsewhere m stack members ⟨lexeme, start, finish⟩
      cases lexeme with
      | closeRecord => exact stop_elsewhere _ _
      | _ => exact next
  | colon members key =>
      cases lexeme with
      | colon => exact .ok (Progress.more (.record members key :: stack) .value)
      | _ => exact stop_elsewhere _ _
  | afterMember members =>
      cases lexeme with
      | comma => exact .ok (Progress.more stack (.nextKey members))
      | closeRecord =>
          have same := unplacedMembers_eq_map members.reverse
          rw [List.map_reverse] at same
          exact complete_elsewhere stack (congrArg Written.record same)
      | _ => exact stop_elsewhere _ _

theorem Phase.ending_unplaced (m : Manner) (phase : Phase) :
    phase.unplaced.ending m = phase.ending m := by
  cases phase <;> rfl

theorem build_elsewhere (m : Manner) (stack : List Frame) (phase : Phase) (ts : Tokens) :
    Elsewhere (Prod.map Written.unplaced Tokens.unplaced) (build m stack phase ts)
      (build m (stack.map Frame.unplaced) phase.unplaced ts.unplaced) := by
  induction ts generalizing stack phase with
  | finish p =>
      rw [Tokens.unplaced, build, build, Phase.ending_unplaced]
      exact .error rfl
  | next t rest ih =>
      have step := advance_elsewhere m stack phase t
      rw [Tokens.unplaced, build, build]
      generalize advance m stack phase t = result at step
      generalize advance m (stack.map Frame.unplaced) phase.unplaced t.unplaced = result' at step
      cases step with
      | error same => exact .error same
      | ok progress =>
          cases progress with
          | done w => exact .ok (w, rest)
          | more stack phase => exact ih stack phase

theorem readValue_elsewhere (m : Manner) (ts : Tokens) :
    Elsewhere (Prod.map Written.unplaced Tokens.unplaced) (readValue m ts)
      (readValue m ts.unplaced) :=
  build_elsewhere m [] .value ts

theorem expectEnd_elsewhere (ts : Tokens) :
    Elsewhere id (expectEnd ts) (expectEnd ts.unplaced) := by
  cases ts with
  | finish p => exact .ok ()
  | next t rest => exact .error rfl

end RootedBuild.Json
