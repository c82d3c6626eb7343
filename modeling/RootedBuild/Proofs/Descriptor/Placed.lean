import RootedBuild.Descriptor.Basic
import RootedBuild.Proofs.Json.Placed

/-!
A malformed descriptor is reported at a place of it. Whatever its readers complain of, at one token
or at what they find behind it, they take the position from the stream.
-/
namespace RootedBuild.Descriptor
open Json

variable {places : Position → Prop}

/-! ### Single tokens -/

theorem wrongKind_within (expected : String) {t : Token} (within : t.Within places) :
    (wrongKind expected t).Within places := by
  have lexeme := within.lexeme
  obtain ⟨kind, start, finish⟩ := t
  cases kind with
  | word w => exact within.stop
  | number n =>
      cases lexeme with
      | ok _ => exact within.stop
      | error place => exact place
  | text s =>
      cases lexeme with
      | ok _ => exact within.stop
      | error place => exact place
  | openList => exact within.start
  | openRecord => exact within.start
  | cutText cut => exact lexeme.strict
  | cutScalar cut => exact lexeme.strict
  | _ => exact within.peek

theorem keyOf_yields {t : Token} (within : t.Within places) :
    Yields (Fault.Within places) (fun _ => True) (keyOf t) := by
  have lexeme := within.lexeme
  obtain ⟨kind, start, finish⟩ := t
  cases kind with
  | text key => exact lexeme
  | cutText cut => exact .error lexeme.strict
  | _ => exact .error within.peek

theorem expectColon_yields {ts : Tokens} (within : ts.Within places) :
    Yields (Fault.Within places) (Tokens.Within places) (expectColon ts) := by
  cases ts with
  | finish p => exact .error within
  | next t rest =>
      unfold expectColon
      dsimp only
      split
      · exact .ok within.2
      · exact .error within.1.peek

theorem places_closedObject {ts : Tokens} (within : ts.Within places) :
    places (closedObject ts) := by
  cases ts with
  | finish p => exact within
  | next t rest =>
      unfold closedObject
      dsimp only
      split
      · exact within.1.stop
      · exact within.1.start

theorem places_closedList {ts : Tokens} (within : ts.Within places) : places (closedList ts) := by
  cases ts with
  | finish p => exact within
  | next t rest =>
      unfold closedList
      dsimp only
      split
      · exact within.1.stop
      · exact within.2.start
      · exact within.1.start

/-! ### Fields -/

theorem readBases_yields {closed : Tokens → Position}
    (placed : ∀ {ts : Tokens}, ts.Within places → places (closed ts)) {ts : Tokens}
    (within : ts.Within places) :
    Yields (Fault.Within places) (fun found => found.2.Within places) (readBases closed ts) := by
  refine (readValue_yields inside within).bind ?_
  rintro ⟨w, rest⟩ later
  dsimp only
  split
  · exact .ok later
  · exact .error (placed later)

theorem readOptions_yields {ts : Tokens} (within : ts.Within places) :
    Yields (Fault.Within places) (fun found => found.2.Within places) (readOptions ts) := by
  cases ts with
  | finish p => exact .error within
  | next t rest =>
      have wrong := wrongKind_within "a map" within.1
      unfold readOptions
      dsimp only
      split
      · exact .ok within.2
      · refine (readValue_yields inside within).bind ?_
        rintro ⟨w, rest⟩ later
        exact .ok later
      · exact .error wrong

/-! ### The object form -/

theorem readMember_yields (p : Partial) (key : String) {rest : Tokens}
    (within : rest.Within places) :
    Yields (Fault.Within places) (fun found => found.2.Within places) (readMember p key rest) := by
  have colon := expectColon_yields within
  have repeatedly : (repeated key rest).Within places := places_closedObject within
  unfold readMember
  split
  · split
    · exact .error repeatedly
    · refine colon.bind fun ts behind => ?_
      refine (readBases_yields places_closedObject behind).bind ?_
      rintro ⟨bases, rest⟩ later
      exact .ok later
  · split
    · split
      · exact .error repeatedly
      · refine colon.bind fun ts behind => ?_
        refine (readOptions_yields behind).bind ?_
        rintro ⟨options, rest⟩ later
        exact .ok later
    · refine colon.bind fun ts behind => ?_
      refine (readValue_yields .lenient behind).bind ?_
      rintro ⟨w, rest⟩ later
      exact .ok later

def Ahead.Within (places : Position → Prop) : Ahead → Prop
  | .member _ rest => rest.Within places
  | .closed rest => rest.Within places

theorem keyAhead_yields {t : Token} {rest : Tokens} (within : t.Within places)
    (later : rest.Within places) :
    Yields (Fault.Within places) (Ahead.Within places) (keyAhead t rest) :=
  (keyOf_yields within).bind fun _ _ => .ok later

theorem afterComma_yields {ts : Tokens} (within : ts.Within places) :
    Yields (Fault.Within places) (Ahead.Within places) (afterComma ts) := by
  cases ts with
  | finish p => exact .error within
  | next t rest =>
      unfold afterComma
      dsimp only
      split
      · exact .error within.1.peek
      · exact keyAhead_yields within.1 within.2

theorem ahead_yields (first : Bool) {ts : Tokens} (within : ts.Within places) :
    Yields (Fault.Within places) (Ahead.Within places) (ahead first ts) := by
  cases ts with
  | finish p => exact .error within
  | next t rest =>
      unfold ahead
      dsimp only
      split
      · exact .ok within.2
      · split
        · exact .error within.1.peek
        · exact afterComma_yields within.2
      · split
        · exact keyAhead_yields within.1 within.2
        · exact .error within.1.peek

theorem readMembers_yields (fuel : Nat) (first : Bool) (p : Partial) {ts : Tokens}
    (within : ts.Within places) :
    Yields (Fault.Within places) (fun found => found.2.Within places)
      (readMembers fuel first p ts) := by
  induction fuel generalizing first p ts with
  | zero => exact .error within.start
  | succ fuel ih =>
      refine (ahead_yields first within).bind ?_
      rintro (⟨key, rest⟩ | ⟨rest⟩) later
      · refine (readMember_yields p key later).bind ?_
        rintro ⟨p, rest⟩ behind
        exact ih false p behind
      · exact .ok later

/-! ### The list form -/

theorem elementAhead_yields (first : Bool) {ts : Tokens} (within : ts.Within places) :
    Yields (Fault.Within places) (fun found => ∀ ts ∈ found, ts.Within places)
      (elementAhead first ts) := by
  have here : ∀ ts' ∈ some ts, ts'.Within places := by
    rintro _ ⟨⟩
    exact within
  cases ts with
  | finish p => exact .error within
  | next t rest =>
      unfold elementAhead
      dsimp only
      split
      · exact .ok nofun
      · split
        · exact .ok here
        · cases rest with
          | finish p => exact .error within.2
          | next t rest =>
              dsimp only
              split
              · exact .error within.2.1.peek
              · refine .ok ?_
                rintro _ ⟨⟩
                exact within.2
      · split
        · exact .ok here
        · exact .error within.1.peek

theorem closeList_yields {ts : Tokens} (within : ts.Within places) :
    Yields (Fault.Within places) (Tokens.Within places) (closeList ts) := by
  cases ts with
  | finish p => exact .error within
  | next t rest =>
      unfold closeList
      dsimp only
      split
      · exact .ok within.2
      · cases rest with
        | finish p => exact .error within.2
        | next t rest =>
            dsimp only
            split
            · exact .error within.2.1.peek
            · exact .error within.2.1.peek
      · exact .error within.1.peek

theorem readElements_yields {ts : Tokens} (within : ts.Within places) :
    Yields (Fault.Within places) (fun found => found.2.Within places) (readElements ts) := by
  have close (d : Descriptor) {ts : Tokens} (within : ts.Within places) :
      Yields (Fault.Within places) (fun found => found.2.Within places)
        (do return (d, ← closeList ts)) :=
    (closeList_yields within).bind fun _ later => .ok later
  refine (elementAhead_yields true within).bind ?_
  rintro (_ | first) found
  · exact close _ within
  · refine (readBases_yields places_closedList (found first rfl)).bind ?_
    rintro ⟨bases, rest⟩ later
    refine (elementAhead_yields false later).bind ?_
    rintro (_ | second) found
    · exact close _ later
    · refine (readOptions_yields (found second rfl)).bind ?_
      rintro ⟨options, rest⟩ behind
      exact close _ behind

/-! ### Whole streams -/

theorem readTokens_yields {ts : Tokens} (within : ts.Within places) :
    Yields (Fault.Within places) (fun _ => True) (readTokens ts) := by
  cases ts with
  | finish p => exact .error within
  | next t rest =>
      have finish {x : Except Fault (Descriptor × Tokens)}
          (yields : Yields (Fault.Within places) (fun found => found.2.Within places) x) :
          Yields (Fault.Within places) (fun _ => True)
            (do let found ← x; expectEnd found.2; return found.1) := by
        refine yields.bind ?_
        rintro ⟨d, rest⟩ later
        exact (expectEnd_yields later).bind fun _ _ => .ok trivial
      have wrong := wrongKind_within "struct RawConfig" within.1
      have members := finish (readMembers_yields (rest.size + 1) true {} within.2)
      have elements := finish (readElements_yields within.2)
      obtain ⟨kind, start, stop⟩ := t
      cases kind with
      | openRecord => exact members
      | openList => exact elements
      | _ => exact .error wrong

/-- A malformed text is reported at the position of an offset of the plain JSON made of it. -/
theorem places_of_malformed {text : String} {f : Fault}
    (malformed : ofText text = .error (.malformed f)) :
    Places (plainJson text).toList f.position := by
  unfold ofText at malformed
  dsimp only at malformed
  split at malformed
  · cases malformed
  · have read := readTokens_yields (scan_within (plainJson text))
    generalize readTokens (scan (plainJson text)) = result at read malformed
    cases read with
    | ok _ => cases malformed
    | error place =>
        cases malformed
        exact place

end RootedBuild.Descriptor
