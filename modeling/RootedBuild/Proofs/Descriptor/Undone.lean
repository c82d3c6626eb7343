import RootedBuild.Proofs.Descriptor.Layout
import RootedBuild.Proofs.Json.Spelled

/-!
The two passes, read backwards. A text of which a pass leaves symbols with layout between them laid
out these symbols itself: the comma pass has dropped commas that stood before closing symbols, and
the comment pass has dropped comments from the gaps. Neither pass can put a symbol together from
parts, because whatever it drops leaves a character behind that no symbol can go on with.
-/
namespace RootedBuild.Descriptor
open Json

/-! ### Interleaved symbols -/

theorem interleave_eq_nil {gap : Nat → List Char} {ss : List Symbol} (h : interleave gap ss = []) :
    ss = [] := by
  cases ss with
  | nil => rfl
  | cons s ss =>
      obtain ⟨c, cs, split, _⟩ := s.chars_head
      simp [interleave, split] at h

/-- The first character is layout, or the first of a symbol. -/
theorem interleave_eq_cons {gap : Nat → List Char} (layout : Layout gap) {ss : List Symbol}
    {c : Char} {rest : List Char} (h : interleave gap ss = c :: rest) :
    (isLayout c = true ∧ ∃ gap', Layout gap' ∧ rest = interleave gap' ss) ∨
      ∃ s ss' more gap', ss = s :: ss' ∧ s.chars = c :: more ∧ Layout gap' ∧
        rest = more ++ interleave gap' ss' := by
  cases first : gap 0 with
  | cons d blank =>
      have allowed (e : Char) (member : e ∈ d :: blank) : isLayout e = true :=
        layout 0 e (first ▸ member)
      have shifted : interleave gap ss =
          d :: interleave (before blank fun i => gap (i + 1)) ss := by
        cases ss <;> simp [interleave, first, before]
      obtain ⟨rfl, rfl⟩ := List.cons.inj (shifted.symm.trans h)
      exact .inl ⟨allowed d (by simp), _,
        layout.later.before fun e member => allowed e (by simp [member]), rfl⟩
  | nil =>
      cases ss with
      | nil => simp [interleave, first] at h
      | cons s ss =>
          obtain ⟨d, more, split, _⟩ := s.chars_head
          rw [interleave, first, split, List.nil_append, List.cons_append] at h
          obtain ⟨rfl, rfl⟩ := List.cons.inj h
          exact .inr ⟨s, ss, more, _, rfl, split, layout.later, rfl⟩

theorem length_lt_symbol (s : Symbol) (rest : List Char) :
    rest.length < (s.chars ++ rest).length := by
  obtain ⟨c, cs, split, _⟩ := s.chars_head
  rw [split, List.length_append, List.length_cons]
  omega

/-! ### What a pass restores -/

/-- A character that a symbol can go on with. -/
def isSolid (c : Char) : Bool :=
  c != '"' && c != '/' && c != ',' && c != '}' && c != ']' && !Text.isBlank c

theorem solid_digit {c : Char} (digit : isDigit c = true) : isSolid c = true := by
  have range := toNat_of_isDigit digit
  exact char_below (P := fun c => isDigit c = true → isSolid c = true) (by decide)
    (Nat.lt_succ_of_le range.2) digit

theorem solid_numeral (n : NumeralForm) : ∀ c ∈ n.chars, isSolid c = true := by
  have marks : ['-', '+', '.', 'e', 'E'].all isSolid = true := by decide
  intro c member
  exact (numeral_mem n c member).elim solid_digit (List.all_eq_true.mp marks c)

theorem solid_more {s : Symbol} {c : Char} {more : List Char} (split : s.chars = c :: more)
    (quote : c ≠ '"') : ∀ d ∈ more, isSolid d = true := by
  cases s with
  | text s =>
      cases split
      exact absurd rfl quote
  | numeral n =>
      intro d member
      apply solid_numeral n
      rw [← Symbol.chars, split]
      exact List.mem_cons_of_mem c member
  | word w => cases w <;> cases split <;> exact List.all_eq_true.mp rfl
  | _ =>
      cases split
      intro d member
      cases member

theorem text_of_quote {s : Symbol} {more : List Char} (split : s.chars = '"' :: more) :
    ∃ form : TextForm, s = .text form ∧ more = form.chars ++ ['"'] := by
  cases s with
  | text form => exact ⟨form, rfl, (List.cons.inj split).2.symm⟩
  | numeral n => exact absurd rfl (numeral_chars n '"' (by rw [← Symbol.chars, split]; simp)).1
  | word w => cases w <;> cases split
  | _ => cases split

theorem comma_of_comma {s : Symbol} {more : List Char} (split : s.chars = ',' :: more) :
    s = .comma ∧ more = [] := by
  cases s with
  | comma => exact ⟨rfl, (List.cons.inj split).2.symm⟩
  | numeral n => exact absurd rfl (numeral_chars n ',' (by rw [← Symbol.chars, split]; simp)).2.2
  | word w => cases w <;> cases split
  | _ => cases split

theorem no_slash {s : Symbol} {more : List Char} : s.chars ≠ '/' :: more := by
  intro split
  cases s with
  | numeral n => exact absurd rfl (numeral_chars n '/' (by rw [← Symbol.chars, split]; simp)).2.1
  | word w => cases w <;> cases split
  | _ => cases split

/-- A pass that copies all it knows of, at the end of a text as well, and leaves nothing that a
symbol could go on with where it finds `special`. -/
structure Restores (special : Char) (plain text : List Char → List Char) : Prop
    extends Copies special plain text where
  endsInText : text [] = []
  endsInEscape : text ['\\'] = ['\\']
  hides : ∀ cs c rest, plain (special :: cs) = c :: rest → isSolid c = false

namespace Restores

variable {special : Char} {plain text : List Char → List Char}

theorem run (restores : Restores special plain text) {cs more rest : List Char}
    (solid : ∀ c ∈ more, isSolid c = true) (h : plain cs = more ++ rest) :
    ∃ cs', cs = more ++ cs' ∧ plain cs' = rest := by
  induction more generalizing cs with
  | nil => exact ⟨cs, rfl, h⟩
  | cons c more ih =>
      have first := solid c (by simp)
      cases cs with
      | nil => cases restores.ends.symm.trans h
      | cons d cs =>
          have other : d ≠ special := by
            rintro rfl
            exact absurd (restores.hides cs c _ h) (by simp [first])
          have noQuote : d ≠ '"' := by
            rintro rfl
            rw [restores.opens] at h
            rw [← (List.cons.inj h).1] at first
            exact absurd first (by decide)
          rw [restores.other d cs noQuote other] at h
          obtain ⟨rfl, later⟩ := List.cons.inj h
          obtain ⟨cs', rfl, same⟩ := ih (fun e member => solid e (by simp [member])) later
          exact ⟨cs', rfl, same⟩

/-- What starts a text literal's piece, or closes it, was there before the pass. -/
theorem text_cons (restores : Restores special plain text) {cs rest : List Char} {c : Char}
    (h : text cs = c :: rest) :
    (c = '"' ∧ ∃ cs', cs = '"' :: cs' ∧ plain cs' = rest) ∨
      (c = '\\' ∧ (rest = [] ∨ ∃ d cs', cs = '\\' :: d :: cs' ∧ d :: text cs' = rest)) ∨
      (c ≠ '"' ∧ c ≠ '\\' ∧ ∃ cs', cs = c :: cs' ∧ text cs' = rest) := by
  cases cs with
  | nil => cases restores.endsInText.symm.trans h
  | cons d cs =>
      by_cases quote : d = '"'
      · subst quote
        rw [restores.closes] at h
        obtain ⟨rfl, same⟩ := List.cons.inj h
        exact .inl ⟨rfl, cs, rfl, same⟩
      · by_cases backslash : d = '\\'
        · subst backslash
          cases cs with
          | nil =>
              rw [restores.endsInEscape] at h
              obtain ⟨rfl, same⟩ := List.cons.inj h
              exact .inr (.inl ⟨rfl, .inl same.symm⟩)
          | cons e cs =>
              rw [restores.escape] at h
              obtain ⟨rfl, same⟩ := List.cons.inj h
              exact .inr (.inl ⟨rfl, .inr ⟨e, cs, rfl, same⟩⟩)
        · rw [restores.inside d cs backslash quote] at h
          obtain ⟨rfl, same⟩ := List.cons.inj h
          exact .inr (.inr ⟨quote, backslash, cs, rfl, same⟩)

/-- Inside of a text literal a pass puts nothing and takes nothing away. -/
theorem literal_undone (restores : Restores special plain text) (s : TextForm) {cs rest : List Char}
    (h : text cs = s.chars ++ '"' :: rest) :
    ∃ cs', cs = s.chars ++ '"' :: cs' ∧ plain cs' = rest := by
  have inside {cs rest : List Char} {c : Char} (h : text cs = c :: rest) (quote : c ≠ '"')
      (backslash : c ≠ '\\') : ∃ cs', cs = c :: cs' ∧ text cs' = rest := by
    rcases restores.text_cons h with ⟨same, _⟩ | ⟨same, _⟩ | ⟨_, _, found⟩
    · exact absurd same quote
    · exact absurd same backslash
    · exact found
  have escape {cs rest : List Char} {e : Char} (h : text cs = '\\' :: e :: rest) :
      ∃ cs', cs = '\\' :: e :: cs' ∧ text cs' = rest := by
    rcases restores.text_cons h with ⟨same, _⟩ | ⟨_, last | ⟨d, cs', rfl, pair⟩⟩ | ⟨_, other, _⟩
    · cases same
    · cases last
    · obtain ⟨rfl, same⟩ := List.cons.inj pair
      exact ⟨cs', rfl, same⟩
    · exact absurd rfl other
  induction s generalizing cs with
  | nil =>
      rcases restores.text_cons h with ⟨_, found⟩ | ⟨same, _⟩ | ⟨other, _⟩
      · exact found
      · cases same
      · exact absurd rfl other
  | cons piece s ih =>
      rw [TextForm.chars, List.flatMap_cons, List.append_assoc] at h
      cases piece with
      | plain c quote backslash control =>
          obtain ⟨cs', rfl, later⟩ := inside h quote backslash
          obtain ⟨cs'', rfl, same⟩ := ih later
          exact ⟨cs'', rfl, same⟩
      | short e known =>
          obtain ⟨cs', rfl, later⟩ := escape h
          obtain ⟨cs'', rfl, same⟩ := ih later
          exact ⟨cs'', rfl, same⟩
      | unit h₁ h₂ h₃ h₄ hex =>
          have digit (h : Char) (member : h ∈ [h₁, h₂, h₃, h₄]) := hexDigit_ne (hex h member)
          obtain ⟨cs₀, rfl, later₀⟩ := escape h
          obtain ⟨cs₁, rfl, later₁⟩ := inside later₀ (digit h₁ (by simp)).2 (digit h₁ (by simp)).1
          obtain ⟨cs₂, rfl, later₂⟩ := inside later₁ (digit h₂ (by simp)).2 (digit h₂ (by simp)).1
          obtain ⟨cs₃, rfl, later₃⟩ := inside later₂ (digit h₃ (by simp)).2 (digit h₃ (by simp)).1
          obtain ⟨cs₄, rfl, later₄⟩ := inside later₃ (digit h₄ (by simp)).2 (digit h₄ (by simp)).1
          obtain ⟨cs', rfl, same⟩ := ih later₄
          exact ⟨cs', rfl, same⟩

/-- A character that is not special is layout, or starts a symbol that the pass has copied. -/
theorem cons_undone (restores : Restores special plain text) {gap : Nat → List Char}
    (layout : Layout gap) {ss : List Symbol} {c : Char} {cs : List Char} (other : c ≠ special)
    (h : plain (c :: cs) = interleave gap ss) :
    (isLayout c = true ∧ ∃ gap', Layout gap' ∧ plain cs = interleave gap' ss) ∨
      ∃ s ss' cs' gap', ss = s :: ss' ∧ c :: cs = s.chars ++ cs' ∧ Layout gap' ∧
        plain cs' = interleave gap' ss' := by
  by_cases quote : c = '"'
  · subst quote
    rw [restores.opens] at h
    rcases interleave_eq_cons layout h.symm with
      ⟨blank, _⟩ | ⟨s, ss', more, gap', rfl, split, layout', later⟩
    · exact absurd blank (by decide)
    · obtain ⟨form, rfl, rfl⟩ := text_of_quote split
      rw [List.append_assoc, List.singleton_append] at later
      obtain ⟨cs', rfl, same⟩ := restores.literal_undone form later
      exact .inr ⟨_, ss', cs', gap', rfl, by simp [Symbol.chars], layout', same⟩
  · rw [restores.other c cs quote other] at h
    rcases interleave_eq_cons layout h.symm with
      ⟨blank, gap', layout', later⟩ | ⟨s, ss', more, gap', rfl, split, layout', later⟩
    · exact .inl ⟨blank, gap', layout', later⟩
    · obtain ⟨cs', rfl, same⟩ := restores.run (solid_more split quote) later
      exact .inr ⟨s, ss', cs', gap', rfl, by rw [split, List.cons_append], layout', same⟩

end Restores

/-! ### The comma pass -/

theorem stripCommas_closesNext {cs rest : List Char} {c : Char} (closes : closesNext cs = true)
    (h : stripCommas .plain cs = c :: rest) : isSolid c = false := by
  cases cs with
  | nil => cases closes
  | cons d cs =>
      have visible : d ≠ '"' ∧ d ≠ ',' ∧ isSolid d = false := by
        cases blank : Text.isBlank d with
        | true => 
            refine ⟨?_, ?_, by simp [isSolid, blank]⟩ <;>
              · rintro rfl
                exact absurd blank (by decide)
        | false =>
            simp [closesNext, Text.trimStart, blank] at closes
            rcases closes with rfl | rfl <;> decide
      rw [copies_stripCommas.other d cs visible.1 visible.2.1] at h
      rw [← (List.cons.inj h).1]
      exact visible.2.2

theorem restores_stripCommas : Restores ',' (stripCommas .plain) (stripCommas .text) where
  toCopies := copies_stripCommas
  endsInText := rfl
  endsInEscape := rfl
  hides cs c rest h := by
    rw [stripCommas_comma] at h
    split at h
    · rename_i closes
      exact stripCommas_closesNext closes h
    · rw [← (List.cons.inj h).1]
      rfl

/-- By induction on the length of the text: what the comma pass leaves symbols of laid out these
symbols, and commas before closing ones. -/
theorem stripCommas_undone {cs : List Char} {gap : Nat → List Char} (layout : Layout gap)
    {ss : List Symbol} (h : stripCommas .plain cs = interleave gap ss) :
    ∃ gap' ss', Layout gap' ∧ cs = interleave gap' ss' ∧ dropCommas ss' = ss := by
  induction size : cs.length using Nat.strong_induction_on generalizing cs gap ss with
  | _ n ih =>
    subst size
    cases cs with
    | nil =>
        obtain rfl := interleave_eq_nil h.symm
        exact ⟨fun _ => [], [], fun _ => by simp, rfl, rfl⟩
    | cons c cs =>
        have nothing : ∀ c ∈ ([] : List Char), isLayout c = true := by simp
        by_cases comma : c = ','
        · subst comma
          rw [stripCommas_comma] at h
          cases closes : closesNext cs with
          | true =>
              -- the comma has gone, and what is left is that of the text behind it
              rw [closes, if_pos rfl] at h
              obtain ⟨gap', ss', layout', rfl, dropped⟩ := ih cs.length (by simp) layout h rfl
              rw [closesNext_interleave layout'] at closes
              refine ⟨before [] gap', .comma :: ss', layout'.before nothing, rfl, ?_⟩
              rw [dropCommas, closes]
              exact dropped
          | false =>
              rw [closes, if_neg Bool.false_ne_true] at h
              rcases interleave_eq_cons layout h.symm with
                ⟨blank, _⟩ | ⟨s, ss₁, more, gap₁, rfl, split, layout₁, later⟩
              · exact absurd blank (by decide)
              · obtain ⟨rfl, rfl⟩ := comma_of_comma split
                obtain ⟨gap', ss', layout', rfl, dropped⟩ :=
                  ih cs.length (by simp) layout₁ later rfl
                rw [closesNext_interleave layout'] at closes
                refine ⟨before [] gap', .comma :: ss', layout'.before nothing, rfl, ?_⟩
                rw [dropCommas_comma closes, dropped]
        · rcases restores_stripCommas.cons_undone layout comma h with
            ⟨blank, gap₁, layout₁, later⟩ | ⟨s, ss₁, cs₁, gap₁, rfl, split, layout₁, later⟩
          · obtain ⟨gap', ss', layout', rfl, dropped⟩ := ih cs.length (by simp) layout₁ later rfl
            refine ⟨merged [c] gap', ss', layout'.merged (by simpa using blank), ?_, dropped⟩
            exact (interleave_merged [c] gap' ss').symm
          · have shorter := length_lt_symbol s cs₁
            rw [← split] at shorter
            obtain ⟨gap', ss', layout', rfl, dropped⟩ := ih cs₁.length shorter layout₁ later rfl
            refine ⟨before [] gap', s :: ss', layout'.before nothing, split, ?_⟩
            rw [dropCommas_cons ?_, dropped]
            cases s with
            | comma => exact absurd (List.cons.inj split).1 comma
            | _ => rfl

/-! ### The comment pass -/

/-- How a text ends behind its last gap: with a line comment or nothing, or inside a comment that
is never closed. -/
inductive Ending where
  | closed (last : LastComment)
  | unclosed (body : List Char) (inside : ¬['*', '/'] <:+: body)

namespace Ending

def chars : Ending → List Char
  | .closed last => last.chars
  | .unclosed body _ => '/' :: '*' :: body

/-- What the comment pass leaves of it. -/
def residue : Ending → List Char
  | .closed _ => []
  | .unclosed body _ => body.filter (· == '\n') ++ [' ']

end Ending

theorem stripComments_unclosed {body : List Char} (inside : ¬['*', '/'] <:+: body) :
    stripComments .block body = body.filter (· == '\n') ++ [' '] := by
  induction body with
  | nil => rfl
  | cons c body ih =>
      have later := ih fun deeper => inside (List.infix_cons deeper)
      cases body with
      | nil =>
          by_cases newline : c = '\n'
          · subst newline
            rfl
          · by_cases star : c = '*'
            · subst star
              rfl
            · rw [stripComments.eq_def]
              simp [newline, star, stripComments]
      | cons d body =>
          rw [stripComments_inBlock, later, ← List.append_assoc, ← List.filter_append,
            List.singleton_append]
          rintro rfl rfl
          exact inside ⟨[], body, rfl⟩

/-- A block comment is never closed, or it ends at the first closing mark. -/
theorem block_split (cs : List Char) :
    ¬['*', '/'] <:+: cs ∨
      ∃ body rest, ¬['*', '/'] <:+: body ∧ cs = body ++ '*' :: '/' :: rest := by
  induction cs with
  | nil => exact .inl (by simp)
  | cons c cs ih =>
      by_cases mark : ∃ rest, c :: cs = '*' :: '/' :: rest
      · obtain ⟨rest, same⟩ := mark
        exact .inr ⟨[], rest, by simp, same⟩
      · rcases ih with never | ⟨body, rest, inside, rfl⟩
        · refine .inl fun found => ?_
          rcases List.infix_cons_iff.mp found with ⟨rest, here⟩ | later
          · exact mark ⟨rest, here.symm⟩
          · exact never later
        · refine .inr ⟨c :: body, rest, fun found => ?_, rfl⟩
          rcases List.infix_cons_iff.mp found with ⟨more, here⟩ | later
          · obtain ⟨rfl, later⟩ := List.cons.inj here
            exact mark ⟨more ++ '*' :: '/' :: rest, by rw [← later]; rfl⟩
          · exact inside later

/-- A slash that neither a slash nor a star follows is copied. -/
theorem stripComments_slash_alone {cs : List Char}
    (other : cs.head? ≠ some '/' ∧ cs.head? ≠ some '*') :
    stripComments .plain ('/' :: cs) = '/' :: stripComments .plain cs := by
  cases cs with
  | nil => rfl
  | cons d cs =>
      have slash : d ≠ '/' := fun same => other.1 (congrArg some same)
      have star : d ≠ '*' := fun same => other.2 (congrArg some same)
      rw [stripComments.eq_def]
      simp [slash, star]

/-- What starts with a slash is no comment, or one that the end of the text ends, or a piece of a
gap. -/
theorem stripComments_slash_cons (cs : List Char) :
    (cs.head? ≠ some '/' ∧ cs.head? ≠ some '*') ∨
      (∃ ending : Ending, '/' :: cs = ending.chars ∧
        stripComments .plain ('/' :: cs) = ending.residue) ∨
      ∃ (piece : GapPiece) (rest : List Char), '/' :: cs = piece.chars ++ rest ∧
        stripComments .plain ('/' :: cs) = piece.residue ++ stripComments .plain rest := by
  cases cs with
  | nil => exact .inl ⟨nofun, nofun⟩
  | cons d cs =>
      by_cases slash : d = '/'
      · subst slash
        rw [(stripComments_slash cs).1]
        by_cases ends : '\n' ∈ cs
        · obtain ⟨body, rest, rfl, within⟩ := List.eq_append_cons_of_mem ends
          refine .inr (.inr ⟨.line body within, rest, by simp [GapPiece.chars], ?_⟩)
          exact (stripComments_line within rest).1
        · exact .inr (.inl ⟨.closed (some ⟨cs, ends⟩), rfl, (stripComments_line ends []).2⟩)
      · by_cases star : d = '*'
        · subst star
          rw [(stripComments_slash cs).2]
          rcases block_split cs with never | ⟨body, rest, inside, rfl⟩
          · exact .inr (.inl ⟨.unclosed cs never, rfl, stripComments_unclosed never⟩)
          · refine .inr (.inr ⟨.block body inside, rest, by simp [GapPiece.chars], ?_⟩)
            rw [stripComments_block inside, GapPiece.residue, List.append_assoc]
            rfl
        · exact .inl ⟨fun same => slash (Option.some.inj same), fun same =>
            star (Option.some.inj same)⟩

theorem GapPiece.residue_ne_nil (piece : GapPiece) : piece.residue ≠ [] := by
  cases piece <;> simp [GapPiece.residue]

theorem GapPiece.length_lt (piece : GapPiece) (rest : List Char) :
    rest.length < (piece.chars ++ rest).length := by
  cases piece <;> simp [GapPiece.chars] <;> omega

theorem Ending.layout_residue (ending : Ending) : ∀ c ∈ ending.residue, isLayout c = true := by
  cases ending with
  | closed last =>
      intro c member
      cases member
  | unclosed body inside => exact layout_breaks body

theorem restores_stripComments : Restores '/' (stripComments .plain) (stripComments .text) where
  toCopies := copies_stripComments
  endsInText := rfl
  endsInEscape := rfl
  hides cs c rest h := by
    have hidden (allowed : isLayout c = true) : isSolid c = false := by
      simp [isSolid, isBlank_of_isLayout allowed]
    rcases stripComments_slash_cons cs with
      other | ⟨ending, _, left⟩ | ⟨piece, more, _, left⟩
    · rw [← (List.cons.inj ((stripComments_slash_alone other).symm.trans h)).1]
      rfl
    · exact hidden (ending.layout_residue c (by rw [← left, h]; simp))
    · cases split : piece.residue with
      | nil => exact absurd split piece.residue_ne_nil
      | cons d blank =>
          rw [left, split] at h
          obtain ⟨rfl, _⟩ := List.cons.inj h
          exact hidden (piece.layout_residue d (by simp [split]))

/-- Layout in front of symbols is part of their first gap. -/
theorem interleave_eq_append {gap : Nat → List Char} (layout : Layout gap) {ss : List Symbol}
    {blank rest : List Char} (allowed : ∀ c ∈ blank, isLayout c = true)
    (h : interleave gap ss = blank ++ rest) : ∃ gap', Layout gap' ∧ interleave gap' ss = rest := by
  induction blank generalizing gap with
  | nil => exact ⟨gap, layout, h⟩
  | cons c blank ih =>
      rcases interleave_eq_cons layout h with
        ⟨_, gap', layout', later⟩ | ⟨s, ss', more, gap', rfl, split, _, _⟩
      · exact ih layout' (fun d member => allowed d (by simp [member])) later.symm
      · obtain ⟨d, cs, head, visible⟩ := s.chars_head
        obtain ⟨rfl, _⟩ := List.cons.inj (head.symm.trans split)
        rw [isBlank_of_isLayout (allowed d (by simp))] at visible
        cases visible

def pieceBefore (piece : GapPiece) (gap : Nat → Gap) : Nat → Gap
  | 0 => piece :: gap 0
  | i + 1 => gap (i + 1)

theorem interleave_pieceBefore (piece : GapPiece) (gap : Nat → Gap) (ss : List Symbol) :
    interleave (fun i => (pieceBefore piece gap i).flatMap GapPiece.chars) ss =
      piece.chars ++ interleave (fun i => (gap i).flatMap GapPiece.chars) ss := by
  cases ss <;> simp [interleave, pieceBefore]

def emptyBefore (gap : Nat → Gap) : Nat → Gap
  | 0 => []
  | i + 1 => gap i

/-- By induction on the length of the text: what the comment pass leaves symbols of laid out these
symbols, and comments. -/
theorem stripComments_undone {cs : List Char} {gap : Nat → List Char} (layout : Layout gap)
    {ss : List Symbol} (h : stripComments .plain cs = interleave gap ss) :
    ∃ (gap' : Nat → Gap) (ending : Ending),
      cs = interleave (fun i => (gap' i).flatMap GapPiece.chars) ss ++ ending.chars := by
  induction size : cs.length using Nat.strong_induction_on generalizing cs gap ss with
  | _ n ih =>
    subst size
    cases cs with
    | nil =>
        obtain rfl := interleave_eq_nil h.symm
        exact ⟨fun _ => [], .closed none, rfl⟩
    | cons c cs =>
        -- a piece in front of what the pass goes on with
        have piece {p : GapPiece} {rest : List Char} (split : c :: cs = p.chars ++ rest)
            {gap : Nat → List Char} (layout : Layout gap)
            (later : stripComments .plain rest = interleave gap ss) :
            ∃ (gap' : Nat → Gap) (ending : Ending),
              c :: cs = interleave (fun i => (gap' i).flatMap GapPiece.chars) ss ++
                ending.chars := by
          have shorter := p.length_lt rest
          rw [← split] at shorter
          obtain ⟨gap', ending, rfl⟩ := ih rest.length shorter layout later rfl
          refine ⟨pieceBefore p gap', ending, ?_⟩
          rw [split, interleave_pieceBefore, List.append_assoc]
        by_cases slash : c = '/'
        · subst slash
          rcases stripComments_slash_cons cs with
            other | ⟨ending, spelled, left⟩ | ⟨p, rest, split, left⟩
          · rcases interleave_eq_cons layout (h.symm.trans (stripComments_slash_alone other)) with
              ⟨blank, _⟩ | ⟨s, _, _, _, _, split, _, _⟩
            · exact absurd blank (by decide)
            · exact absurd split no_slash
          · -- a comment up to the end leaves layout only, so there are no symbols
            rw [h] at left
            obtain ⟨gap₁, _, nothing⟩ := interleave_eq_append layout ending.layout_residue
              (left.trans (List.append_nil _).symm)
            obtain rfl := interleave_eq_nil nothing
            exact ⟨fun _ => [], ending, spelled⟩
          · rw [h] at left
            obtain ⟨gap₁, layout₁, later⟩ := interleave_eq_append layout p.layout_residue left
            exact piece split layout₁ later.symm
        · rcases restores_stripComments.cons_undone layout slash h with
            ⟨blank, gap₁, layout₁, later⟩ | ⟨s, ss₁, cs₁, gap₁, rfl, split, layout₁, later⟩
          · exact piece (p := .layout c blank) rfl layout₁ later
          · have shorter := length_lt_symbol s cs₁
            rw [← split] at shorter
            obtain ⟨gap', ending, rfl⟩ := ih cs₁.length shorter layout₁ later rfl
            refine ⟨emptyBefore gap', ending, split.trans ?_⟩
            rw [← List.append_assoc]
            rfl

end RootedBuild.Descriptor
