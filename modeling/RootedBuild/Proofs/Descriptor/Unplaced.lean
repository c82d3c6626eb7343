import RootedBuild.Descriptor.Basic
import RootedBuild.Proofs.Json.Unplaced

/-!
A descriptor is read without regard to where its tokens stand. Only the place of a fault tells one
layout from another; which fault it is does not.
-/
namespace RootedBuild.Descriptor
open Json

/-! ### Single tokens -/

theorem wrongKind_unplaced (expected : String) (t : Token) :
    (wrongKind expected t).complaint = (wrongKind expected t.unplaced).complaint := by
  obtain ⟨lexeme, start, finish⟩ := t
  cases lexeme with
  | number n => cases n <;> rfl
  | text s => cases s <;> rfl
  | _ => rfl

theorem keyOf_elsewhere (t : Token) : Elsewhere id (keyOf t) (keyOf t.unplaced) := by
  obtain ⟨lexeme, start, finish⟩ := t
  cases lexeme with
  | text key => exact Elsewhere.reading key
  | _ => exact .error rfl

theorem expectColon_elsewhere (ts : Tokens) :
    Elsewhere Tokens.unplaced (expectColon ts) (expectColon ts.unplaced) := by
  cases ts with
  | finish p => exact .error rfl
  | next t rest =>
      obtain ⟨lexeme, start, finish⟩ := t
      cases lexeme with
      | colon => exact .ok rest
      | _ => exact .error rfl

/-! ### Fields -/

theorem basesOf?_unplaced (w : Written) : basesOf? w.unplaced = basesOf? w := by
  cases w with
  | text s => cases s <;> rfl
  | list items => exact Written.texts?_unplaced (.list items)
  | _ => rfl

theorem readBases_elsewhere (closed : Tokens → Position) (ts : Tokens) :
    Elsewhere (Prod.map id Tokens.unplaced) (readBases closed ts)
      (readBases closed ts.unplaced) := by
  apply (readValue_elsewhere inside ts).bind
  rintro ⟨w, rest⟩
  dsimp only [Prod.map]
  rw [basesOf?_unplaced]
  cases basesOf? w with
  | some bases => exact .ok (bases, rest)
  | none => exact .error rfl

theorem readOptions_elsewhere (ts : Tokens) :
    Elsewhere (Prod.map id Tokens.unplaced) (readOptions ts) (readOptions ts.unplaced) := by
  cases ts with
  | finish p => exact .error rfl
  | next t rest =>
      have wrong := wrongKind_unplaced "a map" t
      have whole := readValue_elsewhere inside (.next t rest)
      obtain ⟨lexeme, start, finish⟩ := t
      cases lexeme with
      | word w =>
          cases w with
          | null => exact .ok (none, rest)
          | _ => exact .error wrong
      | openRecord =>
          apply whole.bind
          rintro ⟨w, rest⟩
          dsimp only [Prod.map]
          rw [w.value?_unplaced]
          exact .ok (w.value?.bind Value.record?, rest)
      | _ => exact .error wrong

/-! ### The object form -/

theorem readMember_elsewhere (p : Partial) (key : String) (rest : Tokens) :
    Elsewhere (Prod.map id Tokens.unplaced) (readMember p key rest)
      (readMember p key rest.unplaced) := by
  unfold readMember
  split
  · split
    · exact .error rfl
    · apply (expectColon_elsewhere rest).bind
      intro ts
      apply (readBases_elsewhere closedObject ts).bind
      rintro ⟨bases, rest⟩
      exact .ok ({ p with bases := some bases }, rest)
  · split
    · split
      · exact .error rfl
      · apply (expectColon_elsewhere rest).bind
        intro ts
        apply (readOptions_elsewhere ts).bind
        rintro ⟨options, rest⟩
        exact .ok ({ p with options := some options }, rest)
    · apply (expectColon_elsewhere rest).bind
      intro ts
      apply (readValue_elsewhere .lenient ts).bind
      rintro ⟨w, rest⟩
      exact .ok (p, rest)

def Ahead.unplaced : Ahead → Ahead
  | .member key rest => .member key rest.unplaced
  | .closed rest => .closed rest.unplaced

theorem keyAhead_elsewhere (t : Token) (rest : Tokens) :
    Elsewhere Ahead.unplaced (keyAhead t rest) (keyAhead t.unplaced rest.unplaced) := by
  apply (keyOf_elsewhere t).bind
  intro key
  exact .ok (Ahead.member key rest)

theorem afterComma_elsewhere (ts : Tokens) :
    Elsewhere Ahead.unplaced (afterComma ts) (afterComma ts.unplaced) := by
  cases ts with
  | finish p => exact .error rfl
  | next t rest =>
      have key := keyAhead_elsewhere t rest
      obtain ⟨lexeme, start, finish⟩ := t
      cases lexeme with
      | closeRecord => exact .error rfl
      | _ => exact key

theorem ahead_elsewhere (first : Bool) (ts : Tokens) :
    Elsewhere Ahead.unplaced (ahead first ts) (ahead first ts.unplaced) := by
  cases ts with
  | finish p => exact .error rfl
  | next t rest =>
      have key := keyAhead_elsewhere t rest
      have comma := afterComma_elsewhere rest
      obtain ⟨lexeme, start, finish⟩ := t
      cases lexeme with
      | closeRecord => exact .ok (Ahead.closed rest)
      | comma =>
          cases first with
          | true => exact .error rfl
          | false => exact comma
      | _ =>
          cases first with
          | true => exact key
          | false => exact .error rfl

theorem readMembers_elsewhere (fuel : Nat) (first : Bool) (p : Partial) (ts : Tokens) :
    Elsewhere (Prod.map id Tokens.unplaced) (readMembers fuel first p ts)
      (readMembers fuel first p ts.unplaced) := by
  induction fuel generalizing first p ts with
  | zero => exact .error rfl
  | succ fuel ih =>
      apply (ahead_elsewhere first ts).bind
      rintro (⟨key, rest⟩ | ⟨rest⟩)
      · apply (readMember_elsewhere p key rest).bind
        rintro ⟨p, rest⟩
        exact ih false p rest
      · exact .ok (p.finish, rest)

/-! ### The list form -/

theorem elementAhead_elsewhere (first : Bool) (ts : Tokens) :
    Elsewhere (Option.map Tokens.unplaced) (elementAhead first ts)
      (elementAhead first ts.unplaced) := by
  cases ts with
  | finish p => exact .error rfl
  | next t rest =>
      obtain ⟨lexeme, start, finish⟩ := t
      cases lexeme with
      | closeList => exact .ok none
      | comma =>
          cases first with
          | true => exact .ok (some (Tokens.next ⟨.comma, start, finish⟩ rest))
          | false =>
              cases rest with
              | finish p => exact .error rfl
              | next t rest =>
                  have ahead : Elsewhere (Option.map Tokens.unplaced)
                    (.ok (some (Tokens.next t rest)))
                    (.ok (some (Tokens.next t.unplaced rest.unplaced))) := .ok _
                  obtain ⟨lexeme, start, finish⟩ := t
                  cases lexeme with
                  | closeList => exact .error rfl
                  | _ => exact ahead
      | _ =>
          cases first with
          | true => exact .ok (some (Tokens.next _ rest))
          | false => exact .error rfl

theorem closeList_elsewhere (ts : Tokens) :
    Elsewhere Tokens.unplaced (closeList ts) (closeList ts.unplaced) := by
  cases ts with
  | finish p => exact .error rfl
  | next t rest =>
      obtain ⟨lexeme, start, finish⟩ := t
      cases lexeme with
      | closeList => exact .ok rest
      | comma =>
          cases rest with
          | finish p => exact .error rfl
          | next t rest =>
              obtain ⟨lexeme, start, finish⟩ := t
              cases lexeme <;> exact .error rfl
      | _ => exact .error rfl

theorem readElements_elsewhere (ts : Tokens) :
    Elsewhere (Prod.map id Tokens.unplaced) (readElements ts) (readElements ts.unplaced) := by
  have close (d : Descriptor) (ts : Tokens) :
      Elsewhere (Prod.map id Tokens.unplaced)
        (do return (d, ← closeList ts)) (do return (d, ← closeList ts.unplaced)) := by
    apply (closeList_elsewhere ts).bind
    intro rest
    exact .ok (d, rest)
  apply (elementAhead_elsewhere true ts).bind
  rintro (_ | first)
  · exact close _ ts
  · apply (readBases_elsewhere closedList first).bind
    rintro ⟨bases, rest⟩
    apply (elementAhead_elsewhere false rest).bind
    rintro (_ | second)
    · exact close _ rest
    · apply (readOptions_elsewhere second).bind
      rintro ⟨options, rest⟩
      exact close _ rest

/-! ### Whole streams -/

theorem readTokens_elsewhere (ts : Tokens) :
    Elsewhere id (readTokens ts) (readTokens ts.unplaced) := by
  cases ts with
  | finish p => exact .error rfl
  | next t rest =>
      have finish {x x' : Except Fault (Descriptor × Tokens)}
          (h : Elsewhere (Prod.map id Tokens.unplaced) x x') :
          Elsewhere id (do let found ← x; expectEnd found.2; return found.1)
            (do let found ← x'; expectEnd found.2; return found.1) := by
        apply h.bind
        rintro ⟨d, rest⟩
        apply (expectEnd_elsewhere rest).bind
        intro u
        exact .ok d
      have wrong := wrongKind_unplaced "struct RawConfig" t
      have members := readMembers_elsewhere (rest.size + 1) true {} rest
      -- the number of tokens bounds the members, and it is the same without positions
      have bounded : Elsewhere (Prod.map id Tokens.unplaced)
          (readMembers (rest.size + 1) true {} rest)
          (readMembers (rest.unplaced.size + 1) true {} rest.unplaced) := by
        rwa [rest.size_unplaced]
      obtain ⟨lexeme, start, stop⟩ := t
      cases lexeme with
      | openRecord => exact finish bounded
      | openList => exact finish (readElements_elsewhere rest)
      | _ => exact .error wrong

end RootedBuild.Descriptor
