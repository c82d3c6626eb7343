import Mathlib.Data.List.Count
import RootedBuild.Proofs.Descriptor.Placed
import RootedBuild.Proofs.Descriptor.Undone

/-!
Plain JSON keeps the lines of descriptor text. Every character that the two passes leave comes from
the text, in the order in which it stands there; the only others are the spaces for block comments,
and each of those stands for the place right behind its comment. Nothing that ends a line is
dropped. So as many lines end before a character of the plain JSON as before the place it comes
from, whatever text it is.
-/
namespace RootedBuild.Descriptor
open Json

/-! ### Where the comment pass stands -/

/-- Behind `before` the comment pass is in state `s`, if it goes on with the character that `rest`
starts with. -/
def ReadTo (s : CommentState) (before rest : List Char) : Prop :=
  ∃ left, ∀ more : List Char, more.head? = rest.head? →
    stripComments .plain (before ++ more) = left ++ stripComments s more

theorem ReadTo.start (rest : List Char) : ReadTo .plain [] rest := ⟨[], fun _ _ => rfl⟩

theorem ReadTo.on {s s' : CommentState} {before rest : List Char} (cs left : List Char)
    (reads : ReadTo s before (cs ++ rest))
    (goesOn : ∀ more : List Char, more.head? = rest.head? →
      stripComments s (cs ++ more) = left ++ stripComments s' more) :
    ReadTo s' (before ++ cs) rest := by
  obtain ⟨start, reads⟩ := reads
  refine ⟨start ++ left, fun more same => ?_⟩
  have sameHead : (cs ++ more).head? = (cs ++ rest).head? := by
    rw [List.head?_append, List.head?_append, same]
  rw [List.append_assoc, reads _ sameHead, goesOn more same, List.append_assoc]

/-- Behind `front` the comment pass takes a slash and a star for the start of a block comment. -/
def OpensBlock (front : List Char) : Prop :=
  ∃ left, ∀ rest, stripComments .plain (front ++ '/' :: '*' :: rest) =
    left ++ stripComments .block rest

theorem ReadTo.opensBlock {before rest : List Char}
    (reads : ReadTo .plain before ('/' :: '*' :: rest)) : OpensBlock before := by
  obtain ⟨left, reads⟩ := reads
  exact ⟨left, fun more => reads _ rfl⟩

/-- Between `before` and `rest` a block comment has just ended: at its first closing mark, or with
the text. -/
inductive BehindBlock (before rest : List Char) : Prop where
  | closed (front body : List Char) (opens : OpensBlock front) (inside : ¬['*', '/'] <:+: body)
      (split : before = front ++ '/' :: '*' :: (body ++ ['*', '/']))
  | unclosed (front body : List Char) (opens : OpensBlock front) (inside : ¬['*', '/'] <:+: body)
      (split : before = front ++ '/' :: '*' :: body) (ends : rest = [])

/-! ### What comes from where -/

/-- `out` is what becomes of `rest` behind `before`: characters of it in their order, without some
that end no line, and a space behind block comments. -/
inductive Follows : List Char → List Char → List Char → Prop where
  | done (before : List Char) : Follows before [] []
  | copied (c : Char) {before rest out : List Char} (later : Follows (before ++ [c]) rest out) :
      Follows before (c :: rest) (c :: out)
  | dropped (c : Char) (breaksNot : c ≠ '\n') {before rest out : List Char}
      (later : Follows (before ++ [c]) rest out) : Follows before (c :: rest) out
  | spaced {before rest out : List Char} (behind : BehindBlock before rest)
      (later : Follows before rest out) : Follows before rest (' ' :: out)

namespace Follows

/-- Of what is dropped the line breaks are kept. -/
theorem breaks {before cs rest out : List Char} (later : Follows (before ++ cs) rest out) :
    Follows before (cs ++ rest) (cs.filter (· == '\n') ++ out) := by
  induction cs generalizing before with
  | nil => rwa [List.append_nil] at later
  | cons c cs ih =>
      have next : Follows (before ++ [c]) (cs ++ rest) (cs.filter (· == '\n') ++ out) := by
        apply ih
        rwa [List.append_assoc, List.singleton_append]
      by_cases newline : c = '\n'
      · rw [List.filter_cons_of_pos (by simpa using newline)]
        exact .copied c next
      · rw [List.filter_cons_of_neg (by simpa using newline)]
        exact .dropped c newline next

theorem piece {before rest out : List Char} (piece : GapPiece)
    (reads : ReadTo .plain before (piece.chars ++ rest))
    (later : Follows (before ++ piece.chars) rest out) :
    Follows before (piece.chars ++ rest) (piece.residue ++ out) := by
  cases piece with
  | layout c allowed => exact .copied c later
  | line body within =>
      have kept : (GapPiece.line body within).chars.filter (· == '\n') = ['\n'] := by
        have none : body.filter (· == '\n') = [] := by
          rw [List.filter_eq_nil_iff]
          intro c member newline
          exact within (eq_of_beq newline ▸ member)
        simp [GapPiece.chars, none]
      have followed := breaks later
      rwa [kept] at followed
  | block body inside =>
      have kept : (GapPiece.block body inside).chars.filter (· == '\n') =
          body.filter (· == '\n') := by
        simp [GapPiece.chars]
      have behind : BehindBlock (before ++ (GapPiece.block body inside).chars) rest :=
        .closed before body reads.opensBlock inside rfl
      have followed := breaks (.spaced behind later)
      rw [kept] at followed
      rwa [GapPiece.residue, List.append_assoc]

/-- A text that ends in a comment. -/
theorem ending {before : List Char} (ending : Ending) (reads : ReadTo .plain before ending.chars) :
    Follows before ending.chars ending.residue := by
  cases ending with
  | closed last =>
      have none : last.chars.filter (· == '\n') = [] := by
        cases last with
        | none => rfl
        | some body =>
            rw [List.filter_eq_nil_iff]
            intro c member newline
            rw [eq_of_beq newline] at member
            simp [LastComment.chars, body.property] at member
      have followed := breaks (.done (before ++ last.chars))
      rwa [none, List.append_nil] at followed
  | unclosed body inside =>
      have kept : ('/' :: '*' :: body).filter (· == '\n') = body.filter (· == '\n') := by simp
      have behind : BehindBlock (before ++ '/' :: '*' :: body) [] :=
        .unclosed before body reads.opensBlock inside rfl rfl
      have followed := breaks (.spaced behind (.done _))
      rwa [kept, List.append_nil] at followed

end Follows

/-! ### The two passes -/

/-- A character that the comment pass copies, whatever comes of the rest. -/
theorem Follows.step {s s' : CommentState} {before cs : List Char} {c : Char}
    (reads : ReadTo s before (c :: cs))
    (copies : ∀ more : List Char, more.head? = cs.head? →
      stripComments s (c :: more) = c :: stripComments s' more)
    (later : ReadTo s' (before ++ [c]) cs → Follows (before ++ [c]) cs (stripComments s' cs)) :
    Follows before (c :: cs) (stripComments s (c :: cs)) := by
  rw [copies cs rfl]
  exact .copied c (later (reads.on [c] [c] copies))

/-- By induction on the length of the text, for both states in which characters are copied: from
either of them the pass gets to the other one, or over a comment. -/
theorem follows_stripComments_from (before rest : List Char) :
    (ReadTo .plain before rest → Follows before rest (stripComments .plain rest)) ∧
      (ReadTo .text before rest → Follows before rest (stripComments .text rest)) := by
  induction size : rest.length using Nat.strong_induction_on generalizing before rest with
  | _ n ih =>
    subst size
    cases rest with
    | nil => exact ⟨fun _ => .done before, fun _ => .done before⟩
    | cons c cs =>
        obtain ⟨plain, text⟩ := ih cs.length (Nat.lt_succ_self _) (before ++ [c]) cs rfl
        constructor
        · intro reads
          by_cases quote : c = '"'
          · subst quote
            exact .step reads (fun more _ => copies_stripComments.opens more) text
          by_cases slash : c = '/'
          · subst slash
            rcases stripComments_slash_cons cs with
              other | ⟨ending, spelled, left⟩ | ⟨piece, rest, split, left⟩
            · refine .step reads (fun more same => ?_) plain
              rw [← same] at other
              exact stripComments_slash_alone other
            · rw [left, spelled]
              rw [spelled] at reads
              exact .ending ending reads
            · have shorter := piece.length_lt rest
              rw [← split] at shorter
              rw [left, split]
              rw [split] at reads
              have goesOn (more : List Char) : stripComments .plain (piece.chars ++ more) =
                  piece.residue ++ stripComments .plain more := by
                simpa using stripComments_gap [piece] more
              have later := (ih rest.length shorter (before ++ piece.chars) rest rfl).1
                (reads.on _ _ fun more _ => goesOn more)
              exact .piece piece reads later
          · exact .step reads (fun more _ => copies_stripComments.other c more quote slash) plain
        · intro reads
          by_cases quote : c = '"'
          · subst quote
            exact .step reads (fun more _ => copies_stripComments.closes more) plain
          by_cases backslash : c = '\\'
          · subst backslash
            -- an escaped character is copied as well, so that no quote among them ends the text
            cases cs with
            | nil => exact .copied _ (.done _)
            | cons d cs =>
                have shorter : cs.length < ('\\' :: d :: cs).length := by
                  rw [List.length_cons, List.length_cons]
                  omega
                have behind : ReadTo .text (before ++ ['\\', d]) cs :=
                  reads.on ['\\', d] ['\\', d] fun more _ => copies_stripComments.escape d more
                have later := (ih cs.length shorter _ cs rfl).2 behind
                rw [List.append_cons] at later
                rw [copies_stripComments.escape]
                exact .copied _ (.copied d later)
          · exact .step reads
              (fun more _ => copies_stripComments.inside c more backslash quote) text

theorem follows_stripComments (text : List Char) : Follows [] text (stripComments .plain text) :=
  (follows_stripComments_from [] text).1 (.start text)

/-- `out` is `cs` without some of its commas. -/
inductive Thins : List Char → List Char → Prop where
  | done : Thins [] []
  | keep (c : Char) {cs out : List Char} (later : Thins cs out) : Thins (c :: cs) (c :: out)
  | drop {cs out : List Char} (later : Thins cs out) : Thins (',' :: cs) out

theorem thins_stripCommas (s : CommaState) (cs : List Char) : Thins cs (stripCommas s cs) := by
  fun_induction stripCommas s cs with
  | case1 => exact .done
  | case2 cs ih => exact .keep _ ih
  | case3 c cs quote closes ih =>
      have comma : c = ',' := of_decide_eq_true (Bool.and_eq_true_iff.mp closes).1
      rw [comma]
      exact .drop ih
  | case4 c cs quote other ih => exact .keep c ih
  | case5 => exact .keep _ .done
  | case6 d ds ih => exact .keep _ (.keep d ih)
  | case7 cs backslash ih => exact .keep _ ih
  | case8 c cs backslash quote ih => exact .keep c ih

theorem Follows.thin {before rest cs out : List Char} (follows : Follows before rest cs)
    (thins : Thins cs out) : Follows before rest out := by
  induction follows generalizing out with
  | done before =>
      cases thins
      exact .done before
  | copied c _ ih =>
      cases thins with
      | keep _ thins => exact .copied c (ih thins)
      | drop thins => exact .dropped ',' (by decide) (ih thins)
  | dropped c breaksNot _ ih => exact .dropped c breaksNot (ih thins)
  | spaced behind _ ih =>
      cases thins with
      | keep _ thins => exact .spaced behind (ih thins)

/-- Plain JSON comes from the text it is made of. -/
theorem follows_plainJson (text : String) : Follows [] text.toList (plainJson text).toList := by
  rw [plainJson, String.toList_ofList]
  exact (follows_stripComments text.toList).thin (thins_stripCommas .plain _)

/-! ### Places of the text -/

/-- How many lines have ended before place `k`. -/
def breaksBefore (text : List Char) (k : Nat) : Nat := (text.take k).count '\n'

/-- The `k`-th character of `plain` is the one at `place` in the text, and the next one comes from
behind it; or it is the space for a block comment that ends at `place`. -/
inductive ComesFrom (text plain : List Char) (k place next : Nat) : Prop where
  | char (same : text[place]? = plain[k]?) (behind : place < next)
  | space (blank : plain[k]? = some ' ') (behind : place ≤ next)
      (comment : BehindBlock (text.take place) (text.drop place))

theorem ComesFrom.cons {text plain : List Char} {k place next : Nat} (c : Char)
    (comes : ComesFrom text plain k place next) :
    ComesFrom text (c :: plain) (k + 1) place next := by
  cases comes with
  | char same behind => exact .char (by rw [same, List.getElem?_cons_succ]) behind
  | space blank behind comment =>
      exact .space (by rw [List.getElem?_cons_succ, blank]) behind comment

/-- `source` gives for each character of `plain` its place in the text, in their order, and for the
end of `plain` the end of the text. -/
structure Embeds (text plain : List Char) (source : Nat → Nat) : Prop where
  chars : ∀ k < plain.length, ComesFrom text plain k (source k) (source (k + 1))
  ends : source plain.length = text.length

/-- The places of characters with one more in front of them. -/
def sourceCons (place : Nat) (source : Nat → Nat) : Nat → Nat
  | 0 => place
  | k + 1 => source k

theorem Embeds.cons {text plain : List Char} {source : Nat → Nat} {c : Char} {place : Nat}
    (first : ComesFrom text (c :: plain) 0 place (source 0)) (embeds : Embeds text plain source) :
    Embeds text (c :: plain) (sourceCons place source) where
  chars k below := by
    cases k with
    | zero => exact first
    | succ k => exact (embeds.chars k (Nat.lt_of_succ_lt_succ below)).cons c
  ends := embeds.ends

/-- `plain` comes from the text from `start` on, and so do its line breaks. -/
structure EmbedsFrom (start : Nat) (text plain : List Char) (source : Nat → Nat) : Prop
    extends Embeds text plain source where
  starts : start ≤ source 0
  lines : ∀ k ≤ plain.length,
    breaksBefore text start + breaksBefore plain k = breaksBefore text (source k)

theorem breaksBefore_cons (c : Char) (cs : List Char) (k : Nat) :
    breaksBefore (c :: cs) (k + 1) = [c].count '\n' + breaksBefore cs k := by
  rw [breaksBefore, List.take_succ_cons, ← List.singleton_append, List.count_append]
  rfl

/-- How many lines have ended behind one more character. -/
theorem breaksBefore_behind (before : List Char) (c : Char) (rest : List Char) :
    breaksBefore (before ++ c :: rest) (before.length + 1) =
      breaksBefore (before ++ c :: rest) before.length + [c].count '\n' := by
  have behind : (before ++ c :: rest).take (before.length + 1) = before ++ [c] := by
    rw [List.append_cons]
    exact List.take_left' List.length_append
  rw [breaksBefore, breaksBefore, behind, List.take_left, List.count_append]

/-- One more character in front comes from where the others start, up to as many line breaks as it
is itself. -/
theorem EmbedsFrom.cons {start start' : Nat} {text plain : List Char} {source : Nat → Nat}
    {c : Char} (first : ComesFrom text (c :: plain) 0 start (source 0))
    (counted : breaksBefore text start' = breaksBefore text start + [c].count '\n')
    (embeds : EmbedsFrom start' text plain source) :
    EmbedsFrom start text (c :: plain) (sourceCons start source) where
  toEmbeds := embeds.toEmbeds.cons first
  starts := le_refl _
  lines k within := by
    cases k with
    | zero => rfl
    | succ k =>
        have line := embeds.lines k (Nat.le_of_succ_le_succ within)
        rw [counted] at line
        rw [breaksBefore_cons, sourceCons, ← line, Nat.add_assoc]

/-- By induction over what becomes of the text: one more character of it that is left takes its line
break along, one that is dropped had none, and a space is none. -/
theorem Follows.exists_source {before rest out : List Char} (follows : Follows before rest out) :
    ∃ source, EmbedsFrom before.length (before ++ rest) out source := by
  induction follows with
  | done before =>
      exact ⟨fun _ => (before ++ []).length, ⟨nofun, rfl⟩, by simp, by simp [breaksBefore]⟩
  | @copied c before rest out _ ih =>
      obtain ⟨source, embeds⟩ := ih
      rw [List.append_assoc, List.singleton_append, List.length_append] at embeds
      exact ⟨_, embeds.cons (.char (by simp) embeds.starts) (breaksBefore_behind before c rest)⟩
  | @dropped c breaksNot before rest out _ ih =>
      obtain ⟨source, embeds⟩ := ih
      rw [List.append_assoc, List.singleton_append, List.length_append] at embeds
      have none : [c].count '\n' = 0 := by simp [breaksNot]
      have counted : breaksBefore (before ++ c :: rest) (before.length + 1) =
          breaksBefore (before ++ c :: rest) before.length := by
        rw [breaksBefore_behind, none, Nat.add_zero]
      refine ⟨source, embeds.toEmbeds, Nat.le_of_succ_le embeds.starts, fun k within => ?_⟩
      rw [← counted]
      exact embeds.lines k within
  | @spaced before rest out behind _ ih =>
      obtain ⟨source, embeds⟩ := ih
      have here : BehindBlock ((before ++ rest).take before.length)
          ((before ++ rest).drop before.length) := by
        rwa [List.take_left, List.drop_left]
      exact ⟨_, embeds.cons (.space rfl embeds.starts here) rfl⟩

/-! ### Lines of faults -/

/-- Plain JSON has the line breaks of the text it is made of, and each of its characters as many
before it as where it comes from. So every complaint is about the line that it names. -/
theorem plainJson_keeps_lines (text : String) :
    (plainJson text).toList.count '\n' = text.toList.count '\n' ∧
      ∃ source : Nat → Nat,
        Embeds text.toList (plainJson text).toList source ∧
        (∀ k ≤ (plainJson text).toList.length,
          breaksBefore (plainJson text).toList k = breaksBefore text.toList (source k)) ∧
        (∀ k n, IsOffset (plainJson text).toList k n →
          (positionAt (plainJson text).toList k n).line =
            breaksBefore text.toList (source k) + 1) ∧
        ∀ f, ofText text = .error (.malformed f) →
          ∃ k n, IsOffset (plainJson text).toList k n ∧
            f.position = positionAt (plainJson text).toList k n ∧
            f.position.line = breaksBefore text.toList (source k) + 1 := by
  obtain ⟨source, embeds⟩ := (follows_plainJson text).exists_source
  rw [List.nil_append, List.length_nil] at embeds
  have lines (k : Nat) (within : k ≤ (plainJson text).toList.length) :
      breaksBefore (plainJson text).toList k = breaksBefore text.toList (source k) := by
    have line := embeds.lines k within
    rwa [breaksBefore, List.take_zero, List.count_nil, Nat.zero_add] at line
  have counted (k n : Nat) (offset : IsOffset (plainJson text).toList k n) :
      (positionAt (plainJson text).toList k n).line = breaksBefore text.toList (source k) + 1 := by
    rw [line_positionAt, ← lines k offset.within]
    rfl
  refine ⟨?_, source, embeds.toEmbeds, lines, counted, fun f malformed => ?_⟩
  · have all := lines (plainJson text).toList.length (le_refl _)
    rwa [embeds.ends, breaksBefore, breaksBefore, List.take_length, List.take_length] at all
  · obtain ⟨k, n, offset, same⟩ := places_of_malformed malformed
    exact ⟨k, n, offset, same, same ▸ counted k n offset⟩

/-- Two comments, one of them over two lines, before a key without its colon. -/
def colonMissing : String := "\x7b // none\n/* and\nnone */ \"extends\" 1, \x7d"

theorem plainJson_keeps_lines_colonMissing :
    plainJson colonMissing = "\x7b \n\n  \"extends\" 1 \x7d" ∧
      ofText colonMissing = .error (.malformed ⟨.noColon, ⟨3, 13⟩⟩) ∧
      ∃ place, breaksBefore colonMissing.toList place = 2 := by
  have malformed : ofText colonMissing = .error (.malformed ⟨.noColon, ⟨3, 13⟩⟩) := by
    have checked : (match ofText colonMissing with
        | .error f => f == .malformed ⟨.noColon, ⟨3, 13⟩⟩
        | .ok _ => false) = true := by decide +kernel
    split at checked
    · rename_i found
      rw [found, eq_of_beq checked]
    · cases checked
  obtain ⟨_, source, _, _, _, reported⟩ := plainJson_keeps_lines colonMissing
  obtain ⟨k, n, _, _, line⟩ := reported _ malformed
  exact ⟨by decide +kernel, malformed, source k, (Nat.succ.inj line).symm⟩

end RootedBuild.Descriptor
