import RootedBuild.Descriptor.Basic
import RootedBuild.Proofs.Descriptor.Declared
import RootedBuild.Proofs.Json.Accepted

/-!
A descriptor that is read was a document. Every reader takes the tokens of what it reads off the
front of a stream and no others, in the object form and in the list form, also where it only passes
over a value; so a stream that is read in whole is that of the strict symbols of a document.
-/
namespace RootedBuild.Descriptor
open Json

variable {ts rest tail : Tokens} {t : Token} {ss : List Symbol}

/-! ### Fields -/

theorem readValue_gives (m : Manner) (reads : Reads ts ss tail) (last : tail.isLast = true) :
    Gives (fun found => ValueThen (Reads found.2 · tail) ss) (readValue m ts) := by
  rintro ⟨w, rest⟩ read
  exact readValue_sound reads last read

theorem readBases_gives (closed : Tokens → Position) (reads : Reads ts ss tail)
    (last : tail.isLast = true) :
    Gives (fun found => ValueThen (Reads found.2 · tail) ss) (readBases closed ts) := by
  refine (readValue_gives inside reads last).bind ?_
  rintro ⟨w, rest⟩ value
  dsimp only
  cases basesOf? w with
  | some bases => exact .ok value
  | none => exact .error _

theorem readOptions_gives (reads : Reads ts ss tail) (last : tail.isLast = true) :
    Gives (fun found => ValueThen (Reads found.2 · tail) ss) (readOptions ts) := by
  cases ts with
  | finish p => exact .error _
  | next t rest =>
      have value := readValue_gives inside reads last
      unfold readOptions
      dsimp only
      split
      · rename_i null
        obtain ⟨_, left, rfl, ⟨⟩, later⟩ := reads.next last null rfl
        exact .ok ⟨.word .null, left, rfl, later⟩
      · refine value.bind ?_
        rintro ⟨w, rest⟩ found
        exact .ok found
      · exact .error _

/-! ### The object form -/

theorem expectColon_gives (reads : Reads ts ss tail) (last : tail.isLast = true) :
    Gives (fun rest => MarkThen (Reads rest · tail) .colon ss) (expectColon ts) := by
  cases ts with
  | finish p => exact .error _
  | next t rest =>
      unfold expectColon
      dsimp only
      split
      · rename_i colon
        obtain ⟨_, left, rfl, ⟨⟩, later⟩ := reads.next last colon rfl
        exact .ok ⟨left, rfl, later⟩
      · exact .error _

/-- Behind a key stands a colon, and then what is read by `next`. -/
theorem expectColon_bind {next : Tokens → Except Fault (α × Tokens)} (reads : Reads rest ss tail)
    (last : tail.isLast = true)
    (value : ∀ {ts ss}, Reads ts ss tail →
      Gives (fun found => ValueThen (Reads found.2 · tail) ss) (next ts)) :
    Gives (fun found => NamedThen (Reads found.2 · tail) ss) (expectColon rest >>= next) := by
  refine (expectColon_gives reads last).bind ?_
  rintro ts ⟨left, rfl, later⟩
  exact (value later).imp fun found h => ⟨left, rfl, h⟩

theorem readMember_gives (p : Partial) (key : String) (reads : Reads rest ss tail)
    (last : tail.isLast = true) :
    Gives (fun found => NamedThen (Reads found.2 · tail) ss) (readMember p key rest) := by
  unfold readMember
  split
  · split
    · exact .error _
    · apply expectColon_bind reads last
      intro ts ss reads
      refine (readBases_gives closedObject reads last).bind ?_
      rintro ⟨bases, rest⟩ value
      exact .ok value
  · split
    · split
      · exact .error _
      · apply expectColon_bind reads last
        intro ts ss reads
        refine (readOptions_gives reads last).bind ?_
        rintro ⟨options, rest⟩ value
        exact .ok value
    · apply expectColon_bind reads last
      intro ts ss reads
      refine (readValue_gives .lenient reads last).bind ?_
      rintro ⟨w, rest⟩ value
      exact .ok value

theorem keyAhead_gives (reads : Reads (.next t rest) ss tail) (last : tail.isLast = true) :
    Gives (fun found => ∃ key, found = .member key rest ∧ KeyThen (Reads rest · tail) ss)
      (keyAhead t rest) := by
  unfold keyAhead keyOf
  split
  · rename_i strict text
    obtain ⟨_, left, rfl, ⟨⟩, later⟩ := reads.next last text rfl
    refine Gives.bind_any ?_
    intro key
    exact .ok ⟨key, rfl, _, left, rfl, later⟩
  · exact .error _
  · exact .error _

/-- What stands where the next member starts or the object ends. -/
def Ahead.follows (tail : Tokens) (first : Bool) : Ahead → List Symbol → Prop
  | .closed rest => MarkThen (Reads rest · tail) .closeRecord
  | .member _ rest =>
    if first then KeyThen (Reads rest · tail) else MarkThen (KeyThen (Reads rest · tail)) .comma

theorem ahead_gives (first : Bool) (reads : Reads ts ss tail) (last : tail.isLast = true) :
    Gives (fun found => found.follows tail first ss) (ahead first ts) := by
  cases ts with
  | finish p => exact .error _
  | next t rest =>
      unfold ahead
      dsimp only
      split
      · rename_i close
        obtain ⟨_, left, rfl, ⟨⟩, later⟩ := reads.next last close rfl
        exact .ok ⟨left, rfl, later⟩
      · rename_i comma
        obtain ⟨_, left, rfl, ⟨⟩, later⟩ := reads.next last comma rfl
        cases first with
        | true => exact .error _
        | false =>
            rw [if_neg Bool.false_ne_true]
            cases rest with
            | finish p => exact .error _
            | next t rest =>
                unfold afterComma
                dsimp only
                split
                · exact .error _
                · refine (keyAhead_gives later last).imp ?_
                  rintro _ ⟨key, rfl, named⟩
                  exact ⟨left, rfl, named⟩
      · cases first with
        | true =>
            refine (keyAhead_gives reads last).imp ?_
            rintro _ ⟨key, rfl, named⟩
            exact named
        | false => exact .error _

/-- Where the machine stands in an object before or behind a member. -/
def memberPhase (first : Bool) : Phase := if first then .firstKey else .afterMember []

theorem memberPhase_closed {first : Bool} {after : List Symbol → Prop}
    (h : MarkThen after .closeRecord ss) : (memberPhase first).owed after ss := by
  cases first with
  | true => exact .inl h
  | false =>
      obtain ⟨rest, rfl, h⟩ := h
      exact .close h

theorem readMembers_gives (fuel : Nat) (first : Bool) (p : Partial) (reads : Reads ts ss tail)
    (last : tail.isLast = true) :
    Gives (fun found => (memberPhase first).owed (Reads found.2 · tail) ss)
      (readMembers fuel first p ts) := by
  induction fuel generalizing first p ts ss with
  | zero => exact .error _
  | succ fuel ih =>
      refine (ahead_gives first reads last).bind ?_
      rintro (⟨key, rest⟩ | ⟨rest⟩) found
      · -- the member's own tokens, whatever stands before its key
        have member {ss : List Symbol} (named : KeyThen (Reads rest · tail) ss) :
            Gives (fun found => MemberThen (MembersThen (Reads found.2 · tail)) ss)
              (readMember p key rest >>= fun found => readMembers fuel false found.1 found.2) := by
          obtain ⟨key', left, rfl, behindKey⟩ := named
          refine (readMember_gives p key behindKey last).bind ?_
          rintro ⟨p, rest⟩ ⟨_, rfl, d, left, rfl, later⟩
          refine (ih false p later).imp ?_
          intro found others
          exact ⟨key', _, rfl, _, rfl, d, left, rfl, others⟩
        cases first with
        | true => exact (member found).imp fun _ => .inr
        | false =>
            obtain ⟨left, rfl, named⟩ := found
            exact (member named).imp fun _ => .comma
      · exact .ok (memberPhase_closed found)

/-! ### The list form -/

theorem firstElement_gives (ts : Tokens) :
    Gives (fun found => ∀ ts', found = some ts' → ts' = ts) (elementAhead true ts) := by
  have here (t : Token) (rest : Tokens) :
      Gives (fun found => ∀ ts', found = some ts' → ts' = .next t rest)
        (.ok (some (.next t rest)) : Except Fault (Option Tokens)) := by
    refine .ok ?_
    rintro _ ⟨⟩
    rfl
  cases ts with
  | finish p => exact .error _
  | next t rest =>
      unfold elementAhead
      dsimp only
      split
      · refine .ok ?_
        rintro _ ⟨⟩
      · exact here t rest
      · exact here t rest

theorem nextElement_gives (reads : Reads ts ss tail) (last : tail.isLast = true) :
    Gives (fun found => ∀ ts', found = some ts' → MarkThen (Reads ts' · tail) .comma ss)
      (elementAhead false ts) := by
  cases ts with
  | finish p => exact .error _
  | next t rest =>
      unfold elementAhead
      dsimp only
      split
      · refine .ok ?_
        rintro _ ⟨⟩
      · rename_i comma
        obtain ⟨_, left, rfl, ⟨⟩, later⟩ := reads.next last comma rfl
        rw [if_neg Bool.false_ne_true]
        cases rest with
        | finish p => exact .error _
        | next t rest =>
            dsimp only
            split
            · exact .error _
            · refine .ok ?_
              rintro _ ⟨⟩
              exact ⟨left, rfl, later⟩
      · exact .error _

theorem closeList_gives (reads : Reads ts ss tail) (last : tail.isLast = true) :
    Gives (fun rest => MarkThen (Reads rest · tail) .closeList ss) (closeList ts) := by
  cases ts with
  | finish p => exact .error _
  | next t rest =>
      unfold closeList
      dsimp only
      split
      · rename_i close
        obtain ⟨_, left, rfl, ⟨⟩, later⟩ := reads.next last close rfl
        exact .ok ⟨left, rfl, later⟩
      · cases rest with
        | finish p => exact .error _
        | next t rest =>
            dsimp only
            split <;> exact .error _
      · exact .error _

theorem readElements_gives (reads : Reads ts ss tail) (last : tail.isLast = true) :
    Gives (fun found => Phase.firstItem.owed (Reads found.2 · tail) ss) (readElements ts) := by
  have close (d : Descriptor) {ts : Tokens} {ss : List Symbol} (reads : Reads ts ss tail) :
      Gives (fun found => MarkThen (Reads found.2 · tail) .closeList ss)
        (do return (d, ← closeList ts)) := by
    refine (closeList_gives reads last).bind ?_
    intro rest h
    exact .ok h
  have closed {after : List Symbol → Prop} {ss : List Symbol}
      (h : MarkThen after .closeList ss) : ItemsThen after ss := by
    obtain ⟨left, rfl, h⟩ := h
    exact .close h
  refine (firstElement_gives ts).bind ?_
  rintro (_ | first) found
  · exact (close _ reads).imp fun _ => .inl
  · obtain rfl : first = ts := found first rfl
    refine (readBases_gives closedList reads last).bind ?_
    rintro ⟨bases, rest⟩ ⟨d, left, rfl, behindBases⟩
    refine (?_ : Gives (fun found => ItemsThen (Reads found.2 · tail) left) _).imp
      fun found items => .inr ⟨d, left, rfl, items⟩
    dsimp only
    refine (nextElement_gives behindBases last).bind ?_
    rintro (_ | second) found
    · exact (close _ behindBases).imp fun _ => closed
    · obtain ⟨left, rfl, behindComma⟩ := found second rfl
      refine (readOptions_gives behindComma last).bind ?_
      rintro ⟨options, rest⟩ ⟨d, left, rfl, later⟩
      exact (close _ later).imp fun found h => .comma ⟨d, left, rfl, closed h⟩

/-! ### Whole streams -/

/-- If a stream is read, it does not stop before its end, and its symbols are those of a
document. -/
theorem readTokens_gives (reads : Reads ts ss tail) (last : tail.isLast = true) :
    Gives (fun _ => tail.isFinish = true ∧ ∃ d : Document, ss = d.symbols false)
      (readTokens ts) := by
  cases ts with
  | finish p => exact .error _
  | next t rest =>
      have whole {x : Except Fault (Descriptor × Tokens)}
          (h : Gives (fun found => ValueThen (Reads found.2 · tail) ss) x) :
          Gives (fun _ => tail.isFinish = true ∧ ∃ d : Document, ss = d.symbols false)
            (do let found ← x; expectEnd found.2; return found.1) := by
        refine h.bind ?_
        rintro ⟨r, rest⟩ ⟨d, left, rfl, reads⟩
        cases rest with
        | next t rest => exact .error _
        | finish p =>
            obtain ⟨rfl, rfl⟩ := reads.finish
            exact .ok ⟨rfl, d, List.append_nil _⟩
      unfold readTokens
      dsimp only
      split
      · rename_i opens
        obtain ⟨_, left, rfl, ⟨⟩, later⟩ := reads.next last opens rfl
        exact whole ((readMembers_gives _ true {} later last).imp fun _ => .record)
      · rename_i opens
        obtain ⟨_, left, rfl, ⟨⟩, later⟩ := reads.next last opens rfl
        exact whole ((readElements_gives later last).imp fun _ => .list)
      · exact .error _

end RootedBuild.Descriptor
