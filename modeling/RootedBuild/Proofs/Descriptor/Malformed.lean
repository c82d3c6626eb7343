import RootedBuild.Proofs.Descriptor.Documents
import RootedBuild.Proofs.Descriptor.Undone
import RootedBuild.Proofs.Json.Commas

/-!
What descriptor text is accepted. A text that is read is a draft of a document: its symbols with
gaps of layout and comments between them, which are those of a document once the commas before
closing symbols are dropped. So nothing ill formed passes but by two slips: a comma alone in a
container is taken for an extra one, and a block comment that is never closed reaches to the end.
What the document says is not told here.
-/
namespace RootedBuild.Descriptor
open Json

/-! ### Drafts -/

/-- A text that lays out symbols and ends in the given way. -/
def layOutTo (gap : Nat → Gap) (ending : Ending) (ss : List Symbol) : String :=
  String.ofList (interleave (fun i => (gap i).flatMap GapPiece.chars) ss ++ ending.chars)

/-- A document with layout, closed comments and commas after last elements. -/
def Decorated (text : String) : Prop :=
  ∃ (d : Document) (gap : Nat → Gap) (last : LastComment), text = layOut gap last (d.symbols true)

/-- A text as the passes take it: symbols, which without their commas before closing symbols are the
strict ones of a document. -/
structure Draft (text : String) where
  document : Document
  symbols : List Symbol
  gap : Nat → Gap
  ending : Ending
  spelled : text = layOutTo gap ending symbols
  strict : dropCommas symbols = document.symbols false

def Ending.isClosed : Ending → Bool
  | .closed _ => true
  | .unclosed _ _ => false

/-! ### From a draft to its descriptor -/

theorem stripComments_ending (ending : Ending) :
    stripComments .plain ending.chars = ending.residue := by
  cases ending with
  | closed last => exact stripComments_last last
  | unclosed body inside => exact stripComments_unclosed inside

/-- Layout behind symbols is part of their last gap. -/
theorem interleave_append {gap : Nat → List Char} (layout : Layout gap) {blank : List Char}
    (allowed : ∀ c ∈ blank, isLayout c = true) (ss : List Symbol) :
    ∃ gap', Layout gap' ∧ interleave gap ss ++ blank = interleave gap' ss := by
  induction ss generalizing gap with
  | nil =>
      refine ⟨fun _ => gap 0 ++ blank, fun _ c member => ?_, rfl⟩
      exact (List.mem_append.mp member).elim (layout 0 c) (allowed c)
  | cons s ss ih =>
      obtain ⟨gap', layout', same⟩ := ih layout.later
      refine ⟨before (gap 0) gap', layout'.before (layout 0), ?_⟩
      rw [interleave, List.append_assoc, List.append_assoc, same]
      rfl

theorem stripComments_layOutTo (gap : Nat → Gap) (ending : Ending) (ss : List Symbol) :
    ∃ gap', Layout gap' ∧
      stripComments .plain (layOutTo gap ending ss).toList = interleave gap' ss := by
  obtain ⟨gap', layout, same⟩ := interleave_append (layout_residue gap) ending.layout_residue ss
  refine ⟨gap', layout, ?_⟩
  rw [layOutTo, String.toList_ofList, stripComments_interleave, stripComments_ending, same]

namespace Draft

variable {text : String}

theorem plainJson (t : Draft text) :
    ∃ gap, Layout gap ∧
      Descriptor.plainJson text = String.ofList (interleave gap (t.document.symbols false)) := by
  obtain ⟨gap₁, layout₁, comments⟩ := stripComments_layOutTo t.gap t.ending t.symbols
  obtain ⟨gap, layout, commas⟩ := stripCommas_interleave layout₁ t.symbols
  refine ⟨gap, layout, (congrArg Descriptor.plainJson t.spelled).trans ?_⟩
  rw [Descriptor.plainJson, comments, commas, t.strict]

/-- A draft is read as its document is when it is spelled strictly. -/
theorem ofText_iff (t : Draft text) (r : Descriptor) :
    ofText text = .ok r ↔ ofText (spellOut (t.document.symbols false)) = .ok r := by
  have nonempty := symbols_ne_nil false t.document
  have apart := t.document.apart false
  obtain ⟨gap₁, layout₁, draft⟩ := t.plainJson
  obtain ⟨gap₂, layout₂, strict⟩ := plainJson_layOut t.document false (fun _ => []) none
  rw [layOut_nothing] at strict
  rw [ofText_ok_iff layout₁ nonempty apart draft, ofText_ok_iff layout₂ nonempty apart strict]

end Draft

/-! ### From a descriptor to its draft -/

theorem readTokens_of_ofText {text : String} {r : Descriptor} (h : ofText text = .ok r) :
    readTokens (scan (plainJson text)) = .ok r := by
  unfold ofText at h
  dsimp only at h
  split at h
  · cases h
  · cases read : readTokens (scan (plainJson text)) with
    | error f =>
        rw [read] at h
        cases h
    | ok d =>
        rw [read] at h
        exact congrArg Except.ok (Except.ok.inj h)

/-- A text that is read is a draft. -/
theorem exists_draft {text : String} {r : Descriptor} (h : ofText text = .ok r) :
    Nonempty (Draft text) := by
  obtain ⟨ss, tail, reads, last, laid⟩ := scan_sound (plainJson text)
  obtain ⟨finish, d, rfl⟩ := readTokens_gives reads last r (readTokens_of_ofText h)
  obtain ⟨gap₁, layout₁, json⟩ := laid finish
  rw [plainJson, String.toList_ofList] at json
  obtain ⟨gap₂, ss, layout₂, commented, strict⟩ := stripCommas_undone layout₁ json
  obtain ⟨gap, ending, spelled⟩ := stripComments_undone layout₂ commented
  refine ⟨⟨d, ss, gap, ending, ?_, strict⟩⟩
  rw [layOutTo, ← spelled, String.ofList_toList]

/-! ### The two slips -/

theorem unclosed_append {body more : List Char} (inside : ¬['*', '/'] <:+: body)
    (noSlash : '/' ∉ more) : ¬['*', '/'] <:+: body ++ more := by
  induction body with
  | nil => exact fun found => noSlash (found.subset (by simp))
  | cons c body ih =>
      intro found
      rcases List.infix_cons_iff.mp found with ⟨rest, here⟩ | later
      · obtain ⟨rfl, behind⟩ := List.cons.inj here
        cases body with
        | nil =>
            have first : more = '/' :: rest := behind.symm
            exact noSlash (by simp [first])
        | cons d body =>
            obtain ⟨rfl, _⟩ := List.cons.inj behind
            exact inside ⟨[], body, rfl⟩
      · exact ih (fun deeper => inside (List.infix_cons deeper)) later

/-- What follows a text on a new line is read if the text's last comment is closed, and is part of
the comment if it is not. -/
theorem stripComments_newline (ending : Ending) :
    (stripComments .plain (ending.chars ++ ['\n', ']'])).getLast? =
      some (if ending.isClosed then ']' else ' ') := by
  cases ending with
  | closed last =>
      cases last with
      | none => rfl
      | some body =>
          change (stripComments .line (body.val ++ ['\n', ']'])).getLast? = _
          rw [(stripComments_line body.property [']']).1]
          rfl
  | unclosed body inside =>
      change (stripComments .block (body ++ ['\n', ']'])).getLast? = _
      rw [stripComments_unclosed (unclosed_append inside (by decide)), List.getLast?_append]
      rfl

/-- In which way a text ends does not hang on how it is taken apart. -/
theorem isClosed_unique {gap gap' : Nat → Gap} {ending ending' : Ending} {ss ss' : List Symbol}
    (h : layOutTo gap ending ss = layOutTo gap' ending' ss') :
    ending.isClosed = ending'.isClosed := by
  have lastOf (gap : Nat → Gap) (ending : Ending) (ss : List Symbol) :
      (stripComments .plain ((layOutTo gap ending ss).toList ++ ['\n', ']'])).getLast? =
        some (if ending.isClosed then ']' else ' ') := by
    rw [layOutTo, String.toList_ofList, List.append_assoc, stripComments_interleave,
      List.getLast?_append, stripComments_newline]
    rfl
  have same := (lastOf gap ending ss).symm.trans (h ▸ lastOf gap' ending' ss')
  cases one : ending.isClosed <;> cases other : ending'.isClosed <;> simp [one, other] at same ⊢

namespace Draft

variable {text : String}

theorem apart (t : Draft text) : Apart t.symbols := by
  apply Apart.of_dropCommas
  rw [t.strict]
  exact t.document.apart false

theorem no_twoCommas (t : Draft text) : ¬[.comma, .comma] <:+: t.symbols := by
  apply Placed.no_twoCommas
  rw [t.strict]
  exact t.document.placed false

/-- A draft is a decorated document unless it has one of the two slips. -/
theorem decorated_iff (t : Draft text) :
    Decorated text ↔ ¬LoneComma t.symbols ∧ t.ending.isClosed = true := by
  constructor
  · rintro ⟨d, gap, last, spelled⟩
    have same : layOutTo t.gap t.ending t.symbols = layOutTo gap (.closed last) (d.symbols true) :=
      t.spelled.symm.trans spelled
    refine ⟨fun lone => ?_, isClosed_unique same⟩
    obtain ⟨gap₁, layout₁, here⟩ := stripComments_layOutTo t.gap t.ending t.symbols
    obtain ⟨gap₂, layout₂, there⟩ := stripComments_layOutTo gap (.closed last) (d.symbols true)
    rw [same, there] at here
    have streams := scan_interleave layout₂ (d.apart true)
    rw [here, scan_interleave layout₁ t.apart] at streams
    exact (d.placed true).no_loneComma (lone.of_stream streams)
  · rintro ⟨lone, closed⟩
    obtain ⟨d, symbols⟩ := Document.symbols_of_dropCommas lone t.strict
    cases ends : t.ending with
    | closed last =>
        refine ⟨d, t.gap, last, ?_⟩
        rw [← symbols]
        exact t.spelled.trans (by rw [ends]; rfl)
    | unclosed body inside =>
        rw [ends] at closed
        cases closed

end Draft

/-- What is accepted is a draft of a document whose strict spelling is accepted. It has layout,
comments and extra commas alone exactly if no comma is alone in a container and no block comment is
open at its end. -/
theorem ofText_ok_iff_draft (text : String) (r : Descriptor) :
    (ofText text = .ok r ↔
      ∃ t : Draft text, ofText (spellOut (t.document.symbols false)) = .ok r) ∧
    ∀ t : Draft text, ¬[.comma, .comma] <:+: t.symbols ∧
      (Decorated text ↔ ¬LoneComma t.symbols ∧ t.ending.isClosed = true) := by
  refine ⟨⟨?_, ?_⟩, fun t => ⟨t.no_twoCommas, t.decorated_iff⟩⟩
  · intro read
    obtain ⟨t⟩ := exists_draft read
    exact ⟨t, (t.ofText_iff r).mp read⟩
  · rintro ⟨t, strict⟩
    exact (t.ofText_iff r).mpr strict

/-! ### Accepted all the same -/

def loneComma : Draft "\x7b,\x7d" where
  document := .record [] false
  symbols := [.openRecord, .comma, .closeRecord]
  gap _ := []
  ending := .closed none
  spelled := by decide +kernel
  strict := rfl

def cutOff : Draft "\x7b\x7d /*" where
  document := .record [] false
  symbols := [.openRecord, .closeRecord]
  gap i := if i = 2 then [.layout ' ' rfl] else []
  ending := .unclosed [] (by decide)
  spelled := by decide +kernel
  strict := rfl

/-- Both texts are read as the empty object. -/
theorem not_decorated_of_ok :
    (ofText "\x7b,\x7d" = .ok ⟨[], none⟩ ∧ ¬Decorated "\x7b,\x7d") ∧
      ofText "\x7b\x7d /*" = .ok ⟨[], none⟩ ∧ ¬Decorated "\x7b\x7d /*" := by
  refine ⟨⟨rfl, fun decorated => ?_⟩, rfl, fun decorated => ?_⟩
  · have lone : LoneComma loneComma.symbols := ⟨.openRecord, .closeRecord, rfl, rfl, [], [], rfl⟩
    exact (loneComma.decorated_iff.mp decorated).1 lone
  · exact absurd (cutOff.decorated_iff.mp decorated).2 (by decide)

end RootedBuild.Descriptor
