import Mathlib.Data.List.TakeWhile
import RootedBuild.Proofs.Descriptor.Unplaced
import RootedBuild.Proofs.Json.Scan

/-!
Comments, layout and commas before a closing bracket do not change what a descriptor says. A text
lays out the symbols of a document: before each of them and at the end stands a gap of layout and
comments, and the last line may end in a comment. Both passes take such a text to one that lays out
the strict symbols with layout alone, which is then scanned and read without regard to the gaps.

A document may be no descriptor, or hold a number out of range: then no layout of it is accepted.
-/
namespace RootedBuild.Descriptor
open Json

/-! ### Gaps -/

/-- A character of layout, a comment with the line break that ends it, or a closed comment. -/
inductive GapPiece where
  | layout (c : Char) (allowed : isLayout c = true)
  | line (body : List Char) (within : '\n' ∉ body)
  | block (body : List Char) (unclosed : ¬['*', '/'] <:+: body)

namespace GapPiece

def chars : GapPiece → List Char
  | .layout c _ => [c]
  | .line body _ => '/' :: '/' :: (body ++ ['\n'])
  | .block body _ => '/' :: '*' :: (body ++ ['*', '/'])

/-- What the comment pass leaves of it. -/
def residue : GapPiece → List Char
  | .layout c _ => [c]
  | .line _ _ => ['\n']
  | .block body _ => body.filter (· == '\n') ++ [' ']

end GapPiece

abbrev Gap := List GapPiece

/-- A line comment that the end of the text ends, if there is one. -/
abbrev LastComment := Option { body : List Char // '\n' ∉ body }

def LastComment.chars : LastComment → List Char
  | none => []
  | some body => '/' :: '/' :: body.val

/-- A text that lays out symbols. -/
def layOut (gap : Nat → Gap) (last : LastComment) (ss : List Symbol) : String :=
  String.ofList (interleave (fun i => (gap i).flatMap GapPiece.chars) ss ++ last.chars)

/-- Symbols one after the other with nothing between them. -/
def spellOut (ss : List Symbol) : String := String.ofList (ss.flatMap Symbol.chars)

/-! ### What a pass copies -/

/-- How a pass goes through what it does not change: outside of text literals all but `special`, and
inside of them everything. -/
structure Copies (special : Char) (plain text : List Char → List Char) : Prop where
  ends : plain [] = []
  other : ∀ c cs, c ≠ '"' → c ≠ special → plain (c :: cs) = c :: plain cs
  opens : ∀ cs, plain ('"' :: cs) = '"' :: text cs
  inside : ∀ c cs, c ≠ '\\' → c ≠ '"' → text (c :: cs) = c :: text cs
  escape : ∀ d cs, text ('\\' :: d :: cs) = '\\' :: d :: text cs
  closes : ∀ cs, text ('"' :: cs) = '"' :: plain cs

theorem hexDigit_ne {h : Char} (hex : h ∈ hexDigits) : h ≠ '\\' ∧ h ≠ '"' := by
  have all : hexDigits.all (fun h => h != '\\' && h != '"') = true := by decide
  simpa using List.all_eq_true.mp all h hex

/-- Neither a text nor a comma. -/
def isBare : Symbol → Bool
  | .text _ | .comma => false
  | _ => true

/-- Characters that neither pass looks at. -/
def areInert (cs : List Char) : Bool := cs.all fun c => c != '"' && c != '/' && c != ','

theorem ne_of_areInert {cs : List Char} (inert : areInert cs = true) :
    ∀ c ∈ cs, c ≠ '"' ∧ c ≠ '/' ∧ c ≠ ',' := by
  simpa [areInert, and_assoc] using inert

theorem digit_ne {c : Char} (digit : isDigit c = true) : c ≠ '"' ∧ c ≠ '/' ∧ c ≠ ',' := by
  refine ⟨?_, ?_, ?_⟩ <;>
    · rintro rfl
      exact absurd digit (by decide)

/-- Nothing else than digits and a few marks stands in a numeral. -/
theorem numeral_mem (n : NumeralForm) :
    ∀ c ∈ n.chars, isDigit c = true ∨ c ∈ ['-', '+', '.', 'e', 'E'] := by
  intro c member
  simp only [NumeralForm.chars, List.mem_append] at member
  rcases member with sign | whole | fraction | power
  · cases negative : n.negative <;> simp [negative] at sign
    simp [sign]
  · exact .inl (n.whole.property.2 c whole)
  · cases form : n.fraction with
    | none => simp [form, NumeralForm.fractionChars] at fraction
    | some ds =>
        rw [form, NumeralForm.fractionChars, List.mem_cons] at fraction
        rcases fraction with rfl | digit
        · simp
        · exact .inl (ds.property.2 c digit)
  · cases form : n.power with
    | none => simp [form, NumeralForm.powerChars] at power
    | some p =>
        rw [form, NumeralForm.powerChars, Power.chars, List.mem_cons, List.mem_append] at power
        rcases power with letter | sign | digit
        · cases capital : p.capital <;> simp [letter, capital]
        · cases direction : p.sign <;> simp [direction, PowerSign.chars] at sign <;> simp [sign]
        · exact .inl (p.digits.property.2 c digit)

theorem numeral_chars (n : NumeralForm) : ∀ c ∈ n.chars, c ≠ '"' ∧ c ≠ '/' ∧ c ≠ ',' := by
  have marks : ∀ c ∈ ['-', '+', '.', 'e', 'E'], c ≠ '"' ∧ c ≠ '/' ∧ c ≠ ',' := ne_of_areInert rfl
  intro c member
  exact (numeral_mem n c member).elim digit_ne (marks c)

theorem bare_chars {s : Symbol} (bare : isBare s = true) :
    ∀ c ∈ s.chars, c ≠ '"' ∧ c ≠ '/' ∧ c ≠ ',' := by
  cases s with
  | text s => exact absurd bare (by simp [isBare])
  | comma => exact absurd bare (by simp [isBare])
  | numeral n => exact numeral_chars n
  | word w => cases w <;> exact ne_of_areInert rfl
  | _ => exact ne_of_areInert rfl

namespace Copies

variable {special : Char} {plain text : List Char → List Char}

theorem run (copies : Copies special plain text) {cs : List Char}
    (safe : ∀ c ∈ cs, c ≠ '"' ∧ c ≠ special) (rest : List Char) :
    plain (cs ++ rest) = cs ++ plain rest := by
  induction cs with
  | nil => rfl
  | cons c cs ih =>
      have first := safe c (by simp)
      rw [List.cons_append, copies.other c _ first.1 first.2,
        ih fun d member => safe d (by simp [member]), List.cons_append]

/-- A text literal is copied from its first character inside to its closing quote. -/
theorem literal (copies : Copies special plain text) (s : TextForm) (rest : List Char) :
    text (s.chars ++ '"' :: rest) = s.chars ++ '"' :: plain rest := by
  induction s with
  | nil => exact copies.closes rest
  | cons piece s ih =>
      cases piece with
      | plain c quote backslash control =>
          change text (c :: (TextForm.chars s ++ '"' :: rest)) = c :: (TextForm.chars s ++ _)
          rw [copies.inside c _ backslash quote, ih]
      | short e known =>
          change text ('\\' :: e :: (TextForm.chars s ++ '"' :: rest)) =
            '\\' :: e :: (TextForm.chars s ++ _)
          rw [copies.escape, ih]
      | unit h₁ h₂ h₃ h₄ hex =>
          have digit (h : Char) (member : h ∈ [h₁, h₂, h₃, h₄]) (cs : List Char) :
              text (h :: cs) = h :: text cs :=
            copies.inside h cs (hexDigit_ne (hex h member)).1 (hexDigit_ne (hex h member)).2
          change text ('\\' :: 'u' :: h₁ :: h₂ :: h₃ :: h₄ :: (TextForm.chars s ++ '"' :: rest)) =
            '\\' :: 'u' :: h₁ :: h₂ :: h₃ :: h₄ :: (TextForm.chars s ++ _)
          rw [copies.escape, digit h₁ (by simp), digit h₂ (by simp), digit h₃ (by simp),
            digit h₄ (by simp), ih]

/-- A pass copies every symbol, except perhaps commas. -/
theorem symbol (copies : Copies special plain text) (known : special = '/' ∨ special = ',')
    {s : Symbol} (kept : special = ',' → s.isComma = false) (rest : List Char) :
    plain (s.chars ++ rest) = s.chars ++ plain rest := by
  have bare (inert : isBare s = true) : ∀ c ∈ s.chars, c ≠ '"' ∧ c ≠ special := by
    intro c member
    have others := bare_chars inert c member
    rcases known with rfl | rfl
    · exact ⟨others.1, others.2.1⟩
    · exact ⟨others.1, others.2.2⟩
  cases s with
  | text s =>
      change plain ('"' :: (s.chars ++ ['"'] ++ rest)) = '"' :: (s.chars ++ ['"'] ++ _)
      rw [List.append_assoc, copies.opens, List.singleton_append, copies.literal,
        List.append_assoc, List.singleton_append]
  | comma =>
      apply copies.run
      intro c member
      rw [List.mem_singleton.mp member]
      exact ⟨by decide, fun same => absurd (kept same.symm) (by decide)⟩
  | _ => exact copies.run (bare rfl) rest

end Copies

/-! ### The comment pass -/

theorem copies_stripComments : Copies '/' (stripComments .plain) (stripComments .text) where
  ends := rfl
  other c cs quote slash := by cases cs <;> exact (if_neg quote).trans (if_neg slash)
  opens cs := by cases cs <;> rfl
  inside c cs backslash quote := by cases cs <;> exact (if_neg backslash).trans (if_neg quote)
  escape d cs := rfl
  closes cs := by cases cs <;> rfl

theorem stripComments_slash (cs : List Char) :
    stripComments .plain ('/' :: '/' :: cs) = stripComments .line cs ∧
      stripComments .plain ('/' :: '*' :: cs) = stripComments .block cs :=
  ⟨rfl, rfl⟩

theorem stripComments_line {body : List Char} (within : '\n' ∉ body) (rest : List Char) :
    stripComments .line (body ++ '\n' :: rest) = '\n' :: stripComments .plain rest ∧
      stripComments .line body = [] := by
  induction body with
  | nil => exact ⟨rfl, rfl⟩
  | cons c body ih =>
      have other : c ≠ '\n' := fun same => within (by simp [same])
      have later := ih fun member => within (List.mem_cons_of_mem c member)
      constructor
      · exact (if_neg other).trans later.1
      · exact (if_neg other).trans later.2

/-- A character in a block comment that does not begin its closing mark. -/
theorem stripComments_inBlock {c d : Char} (inside : c = '*' → d ≠ '/') (cs : List Char) :
    stripComments .block (c :: d :: cs) =
      [c].filter (· == '\n') ++ stripComments .block (d :: cs) := by
  by_cases newline : c = '\n'
  · rw [newline]
    rfl
  · have kept : [c].filter (· == '\n') = [] := by simp [newline]
    rw [kept, List.nil_append]
    refine (if_neg newline).trans ?_
    by_cases star : c = '*'
    · exact (if_pos star).trans (if_neg (inside star))
    · exact if_neg star

/-- A block comment ends at its first closing mark. -/
theorem stripComments_block {body : List Char} (unclosed : ¬['*', '/'] <:+: body)
    (rest : List Char) :
    stripComments .block (body ++ '*' :: '/' :: rest) =
      body.filter (· == '\n') ++ ' ' :: stripComments .plain rest := by
  induction body with
  | nil => rfl
  | cons c body ih =>
      -- a mark that closes the rest would close the whole
      have later := ih fun inside => unclosed (List.infix_cons inside)
      have split : (c :: body).filter (· == '\n') =
          [c].filter (· == '\n') ++ body.filter (· == '\n') := by
        rw [← List.filter_append, List.singleton_append]
      rw [split, List.append_assoc, ← later]
      cases body with
      | nil => exact stripComments_inBlock (fun _ => by decide) _
      | cons d body =>
          apply stripComments_inBlock
          rintro rfl rfl
          exact unclosed ⟨[], body, rfl⟩

theorem stripComments_gap (gap : Gap) (rest : List Char) :
    stripComments .plain (gap.flatMap GapPiece.chars ++ rest) =
      gap.flatMap GapPiece.residue ++ stripComments .plain rest := by
  induction gap with
  | nil => rfl
  | cons piece gap ih =>
      simp only [List.flatMap_cons, List.append_assoc]
      rw [← ih]
      generalize gap.flatMap GapPiece.chars ++ rest = after
      cases piece with
      | layout c allowed =>
          apply copies_stripComments.other
          · rintro rfl
            exact absurd allowed (by decide)
          · rintro rfl
            exact absurd allowed (by decide)
      | line body within =>
          rw [GapPiece.chars, List.cons_append, List.cons_append, List.append_assoc,
            (stripComments_slash _).1]
          exact (stripComments_line within after).1
      | block body unclosed =>
          rw [GapPiece.chars, List.cons_append, List.cons_append, List.append_assoc,
            (stripComments_slash _).2, GapPiece.residue, List.append_assoc]
          exact stripComments_block unclosed after

/-- The comment pass leaves the symbols, with layout in place of the gaps, and goes on behind
them. -/
theorem stripComments_interleave (gap : Nat → Gap) (ss : List Symbol) (rest : List Char) :
    stripComments .plain (interleave (fun i => (gap i).flatMap GapPiece.chars) ss ++ rest) =
      interleave (fun i => (gap i).flatMap GapPiece.residue) ss ++ stripComments .plain rest := by
  induction ss generalizing gap with
  | nil => rw [interleave, interleave, stripComments_gap]
  | cons s ss ih =>
      have copied := copies_stripComments.symbol (s := s) (.inl rfl) fun same =>
        absurd same (by decide)
      simp only [interleave, List.append_assoc]
      rw [stripComments_gap, copied, ih]

theorem stripComments_last (last : LastComment) : stripComments .plain last.chars = [] := by
  cases last with
  | none => exact copies_stripComments.ends
  | some body => exact (stripComments_line body.property []).2

/-- Line breaks and one space are what a block comment leaves. -/
theorem layout_breaks (body : List Char) :
    ∀ c ∈ body.filter (· == '\n') ++ [' '], isLayout c = true := by
  intro c member
  rw [List.mem_append, List.mem_filter, List.mem_singleton] at member
  rcases member with ⟨_, newline⟩ | space
  · rw [eq_of_beq newline]
    rfl
  · rw [space]
    rfl

theorem GapPiece.layout_residue (piece : GapPiece) : ∀ c ∈ piece.residue, isLayout c = true := by
  cases piece with
  | layout d allowed =>
      intro c member
      rw [List.mem_singleton.mp member]
      exact allowed
  | line body within =>
      intro c member
      rw [List.mem_singleton.mp member]
      rfl
  | block body unclosed => exact layout_breaks body

theorem layout_residue (gap : Nat → Gap) : Layout fun i => (gap i).flatMap GapPiece.residue := by
  intro i c member
  obtain ⟨piece, _, member⟩ := List.mem_flatMap.mp member
  exact piece.layout_residue c member

/-! ### The comma pass -/

theorem copies_stripCommas : Copies ',' (stripCommas .plain) (stripCommas .text) where
  ends := rfl
  other c cs quote comma := (if_neg quote).trans (if_neg (by simp [comma]))
  opens cs := rfl
  inside c cs backslash quote := by cases cs <;> exact (if_neg backslash).trans (if_neg quote)
  escape d cs := rfl
  closes cs := by cases cs <;> rfl

theorem stripCommas_comma (cs : List Char) :
    stripCommas .plain (',' :: cs) =
      if closesNext cs then stripCommas .plain cs else ',' :: stripCommas .plain cs := rfl

theorem stripCommas_layout {cs : List Char} (layout : ∀ c ∈ cs, isLayout c = true)
    (rest : List Char) : stripCommas .plain (cs ++ rest) = cs ++ stripCommas .plain rest := by
  apply copies_stripCommas.run
  intro c member
  have allowed := layout c member
  constructor <;>
    · rintro rfl
      exact absurd allowed (by decide)

/-- Behind a gap the next symbol decides. -/
theorem closesNext_interleave {gap : Nat → List Char} (layout : Layout gap) (ss : List Symbol) :
    closesNext (interleave gap ss) = closesFirst ss := by
  have blank : ∀ c ∈ gap 0, Text.isBlank c = true :=
    fun c member => isBlank_of_isLayout (layout 0 c member)
  cases ss with
  | nil =>
      have all := List.dropWhile_eq_nil_iff.mpr blank
      simp only [interleave, closesNext, Text.trimStart, all, closesFirst]
  | cons s ss =>
      obtain ⟨c, cs, split, notBlank⟩ := s.chars_head
      have trimmed : Text.trimStart (interleave gap (s :: ss)) =
          c :: (cs ++ interleave (fun i => gap (i + 1)) ss) := by
        rw [interleave, Text.trimStart, List.dropWhile_append_of_pos blank, split, List.cons_append,
          List.dropWhile_cons_of_neg (by simp [notBlank])]
      have closes : (c == '}' || c == ']') = s.closes := by
        cases s with
        | word w => cases w <;> cases split <;> rfl
        | numeral n =>
            obtain ⟨d, ds, split', first⟩ := n.chars_head
            have same := split.symm.trans split'
            rw [List.cons.injEq] at same
            rw [same.1]
            rcases first with rfl | digit
            · rfl
            · have other : d ≠ '}' ∧ d ≠ ']' := by
                constructor <;>
                  · rintro rfl
                    exact absurd digit (by decide)
              simp [other, Symbol.closes]
        | _ =>
            cases split
            rfl
      simp only [closesNext, trimmed, closes, closesFirst]

/-- The comma pass drops the commas before closing symbols, and the gaps behind them join those in
front. -/
theorem stripCommas_interleave {gap : Nat → List Char} (layout : Layout gap) (ss : List Symbol) :
    ∃ gap', Layout gap' ∧
      stripCommas .plain (interleave gap ss) = interleave gap' (dropCommas ss) := by
  induction ss generalizing gap with
  | nil =>
      have all := stripCommas_layout (layout 0) []
      rw [List.append_nil] at all
      refine ⟨gap, layout, ?_⟩
      rw [interleave, all, dropCommas, interleave, copies_stripCommas.ends, List.append_nil]
  | cons s ss ih =>
      obtain ⟨gap', layout', rest⟩ := ih layout.later
      have kept : stripCommas .plain (s.chars ++ interleave (fun i => gap (i + 1)) ss) =
          s.chars ++ interleave gap' (dropCommas ss) → dropCommas (s :: ss) = s :: dropCommas ss →
          ∃ gap', Layout gap' ∧ stripCommas .plain (interleave gap (s :: ss)) =
            interleave gap' (dropCommas (s :: ss)) := by
        intro step stays
        refine ⟨before (gap 0) gap', layout'.before (layout 0), ?_⟩
        rw [interleave, stripCommas_layout (layout 0), step, stays]
        rfl
      cases comma : s.isComma with
      | false =>
          apply kept _ (dropCommas_cons comma ss)
          rw [copies_stripCommas.symbol (.inr rfl) fun _ => comma, rest]
      | true =>
          obtain rfl : s = .comma := by
            cases s <;> first | rfl | exact absurd comma Bool.false_ne_true
          have step := stripCommas_comma (interleave (fun i => gap (i + 1)) ss)
          rw [closesNext_interleave layout.later ss] at step
          cases closes : closesFirst ss with
          | false =>
              rw [closes, if_neg Bool.false_ne_true, rest] at step
              exact kept step (dropCommas_comma closes)
          | true =>
              rw [closes, if_pos rfl, rest] at step
              refine ⟨merged (gap 0) gap', layout'.merged (layout 0), ?_⟩
              rw [interleave, stripCommas_layout (layout 0)]
              change gap 0 ++ stripCommas .plain (',' :: interleave (fun i => gap (i + 1)) ss) = _
              rw [step, interleave_merged, dropCommas, closes]
              rfl

/-! ### Reading -/

/-- What is read from a text that spells symbols is read from their stream. -/
theorem ofText_ok_iff {text : String} {gap : Nat → List Char} (layout : Layout gap)
    {ss : List Symbol} (nonempty : ss ≠ []) (apart : Apart ss)
    (json : plainJson text = String.ofList (interleave gap ss)) (r : Descriptor) :
    ofText text = .ok r ↔ readTokens (stream ss) = .ok r := by
  have notBlank := allBlank_interleave gap nonempty
  have tokens := (readTokens_elsewhere (scan (String.ofList (interleave gap ss)))).ok_iff r
  rw [scan_interleave layout apart] at tokens
  rw [← tokens]
  unfold ofText
  dsimp only
  rw [json, String.toList_ofList, notBlank, if_neg Bool.false_ne_true]
  cases readTokens (scan (String.ofList (interleave gap ss))) <;> simp [Except.mapError]

theorem plainJson_layOut (d : Document) (loose : Bool) (gap : Nat → Gap) (last : LastComment) :
    ∃ gap', Layout gap' ∧
      plainJson (layOut gap last (d.symbols loose)) =
        String.ofList (interleave gap' (d.symbols false)) := by
  obtain ⟨gap', layout, commas⟩ := stripCommas_interleave (layout_residue gap) (d.symbols loose)
  refine ⟨gap', layout, ?_⟩
  rw [plainJson, layOut, String.toList_ofList, stripComments_interleave, stripComments_last,
    List.append_nil, commas, d.dropCommas_symbols loose]

theorem layOut_nothing (ss : List Symbol) : layOut (fun _ => []) none ss = spellOut ss := by
  rw [layOut, spellOut, ← interleave_nothing]
  exact congrArg String.ofList (List.append_nil _)

/-- Layout, comments and extra commas are invisible. Whatever stands between the symbols of a
document, and whichever of its containers have a comma after their last element, the text is read as
the same descriptor as the bare symbols without extra commas, or neither is read at all. -/
theorem ofText_layOut_iff_spellOut (d : Document) (gap : Nat → Gap) (last : LastComment)
    (r : Descriptor) :
    ofText (layOut gap last (d.symbols true)) = .ok r ↔
      ofText (spellOut (d.symbols false)) = .ok r := by
  obtain ⟨gap₁, layout₁, loose⟩ := plainJson_layOut d true gap last
  obtain ⟨gap₂, layout₂, strict⟩ := plainJson_layOut d false (fun _ => []) none
  rw [layOut_nothing] at strict
  have nonempty := symbols_ne_nil false d
  rw [ofText_ok_iff layout₁ nonempty (d.apart false) loose,
    ofText_ok_iff layout₂ nonempty (d.apart false) strict]

example : layOut (fun i => if i = 1 then [.block ['*', ','] (by decide), .layout ' ' rfl] else [])
    (some ⟨[']'], by decide⟩) ((Document.list [.word .null] true).symbols true) =
      "[/**,*/ null,]//]" := by
  decide +kernel

end RootedBuild.Descriptor
