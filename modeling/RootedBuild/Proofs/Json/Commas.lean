import Mathlib.Data.List.Infix
import RootedBuild.Proofs.Json.Scan

/-!
Which commas can be dropped without a trace. When dropping the commas before closing symbols leaves
the strict symbols of a document, there were no two commas in a row, and the symbols are those of a
document with extra commas, unless a comma stands alone in a container. The stream of symbols tells
whether one does.
-/
namespace RootedBuild.Json

def Symbol.opens : Symbol → Bool
  | .openList | .openRecord => true
  | _ => false

/-- A comma with nothing else in its container. -/
def LoneComma (ss : List Symbol) : Prop :=
  ∃ opening closing, opening.opens = true ∧ closing.closes = true ∧
    [opening, .comma, closing] <:+: ss

theorem LoneComma.cons {ss : List Symbol} (h : LoneComma ss) (s : Symbol) :
    LoneComma (s :: ss) := by
  obtain ⟨opening, closing, opens, closes, found⟩ := h
  exact ⟨opening, closing, opens, closes, List.infix_cons found⟩

/-! ### Neighbours of commas -/

/-- What may stand behind what: no comma behind an opening symbol or another comma, and a closing
symbol behind a comma only if extra commas are written. -/
structure MayFollow (loose : Bool) (s next : Symbol) : Prop where
  opened : s.opens = true → next.isComma = false
  comma : s.isComma = true → next.isComma = false
  extra : s.isComma = true → loose = false → next.closes = false

abbrev Placed (loose : Bool) (ss : List Symbol) : Prop := List.IsChain (MayFollow loose) ss

variable {loose : Bool} {ss rest : List Symbol}

theorem MayFollow.of_start {s next : Symbol} (comma : next.isComma = false)
    (closes : next.closes = false) : MayFollow loose s next :=
  ⟨fun _ => comma, fun _ => comma, fun _ _ => closes⟩

theorem MayFollow.of_close {s next : Symbol} (other : s.isComma = false)
    (comma : next.isComma = false) : MayFollow loose s next :=
  ⟨fun _ => comma, fun _ => comma, fun same => absurd same (by simp [other])⟩

theorem Document.head_append (loose : Bool) (d : Document) (ss : List Symbol) :
    ∃ s rest, d.symbols loose ++ ss = s :: rest ∧ s.isComma = false ∧ s.closes = false := by
  cases d with
  | list items extra => cases items <;> exact ⟨_, _, rfl, rfl, rfl⟩
  | record members extra => cases members <;> exact ⟨_, _, rfl, rfl, rfl⟩
  | _ => exact ⟨_, _, rfl, rfl, rfl⟩

theorem Placed.cons {s : Symbol} (h : Placed loose ss) (opens : s.opens = false)
    (comma : s.isComma = false) : Placed loose (s :: ss) := by
  refine List.isChain_cons.mpr ⟨fun next _ => ⟨?_, ?_, ?_⟩, h⟩ <;> simp [opens, comma]

/-- Anything may stand before a document. -/
theorem Placed.before {d : Document} (h : Placed loose (d.symbols loose ++ ss)) (s : Symbol) :
    Placed loose (s :: (d.symbols loose ++ ss)) := by
  obtain ⟨first, rest, split, comma, closes⟩ := d.head_append loose ss
  rw [split] at h ⊢
  exact List.isChain_cons_cons.mpr ⟨.of_start comma closes, h⟩

theorem Placed.beforeKey (h : Placed loose ss) (key : TextForm) (s : Symbol) :
    Placed loose (s :: .text key :: ss) :=
  List.isChain_cons_cons.mpr ⟨.of_start rfl rfl, h.cons (s := .text key) rfl rfl⟩

theorem Placed.extraComma {close : Symbol} (closes : close.closes = true)
    (h : Placed loose (close :: ss)) (extra : Bool) :
    Placed loose (extraComma loose extra ++ close :: ss) := by
  have noComma : close.isComma = false := by
    cases close <;> first | rfl | cases closes
  unfold Json.extraComma
  split
  · rename_i written
    have isLoose := (Bool.and_eq_true_iff.mp written).1
    refine List.isChain_cons_cons.mpr ⟨⟨fun _ => noComma, fun _ => noComma, ?_⟩, h⟩
    intro _ strict
    rw [isLoose] at strict
    cases strict
  · exact h

mutual

theorem Document.placed_append {ss : List Symbol} (h : Placed loose ss) :
    (d : Document) → Placed loose (d.symbols loose ++ ss)
  | .word w => h.cons (s := .word w) rfl rfl
  | .numeral n => h.cons (s := .numeral n) rfl rfl
  | .text s => h.cons (s := .text s) rfl rfl
  | .list [] _ => by
      have close : Placed loose (.closeList :: ss) := h.cons rfl rfl
      exact List.isChain_cons_cons.mpr ⟨.of_close rfl rfl, close⟩
  | .list (d :: ds) extra => by
      have close : Placed loose (.closeList :: ss) := h.cons rfl rfl
      have items := laterItems_placed (close.extraComma rfl extra) ds
      simpa [Document.symbols] using (d.placed_append items).before .openList
  | .record [] _ => by
      have close : Placed loose (.closeRecord :: ss) := h.cons rfl rfl
      exact List.isChain_cons_cons.mpr ⟨.of_close rfl rfl, close⟩
  | .record ((key, d) :: members) extra => by
      have close : Placed loose (.closeRecord :: ss) := h.cons rfl rfl
      have others := laterMembers_placed (close.extraComma rfl extra) members
      have value := (d.placed_append others).before .colon
      simpa [Document.symbols] using value.beforeKey key .openRecord

theorem laterItems_placed {ss : List Symbol} (h : Placed loose ss) :
    (ds : List Document) → Placed loose (laterItems loose ds ++ ss)
  | [] => h
  | d :: ds => by
      have item := d.placed_append (laterItems_placed h ds)
      simpa [laterItems] using item.before .comma

theorem laterMembers_placed {ss : List Symbol} (h : Placed loose ss) :
    (members : List (TextForm × Document)) → Placed loose (laterMembers loose members ++ ss)
  | [] => h
  | (key, d) :: members => by
      have value := (d.placed_append (laterMembers_placed h members)).before .colon
      simpa [laterMembers] using value.beforeKey key .comma

end

theorem Document.placed (loose : Bool) (d : Document) : Placed loose (d.symbols loose) := by
  have all : Placed loose (d.symbols loose ++ []) := d.placed_append List.isChain_nil
  rwa [List.append_nil] at all

theorem Placed.no_loneComma (h : Placed loose ss) : ¬LoneComma ss := by
  rintro ⟨opening, closing, opens, _, found⟩
  have inside : Placed loose [opening, .comma, closing] := List.IsChain.infix h found
  have pair := (List.isChain_cons_cons.mp inside).1
  exact absurd (pair.opened opens) (by decide)

/-! ### Dropped commas -/

theorem isComma_of_closes {s : Symbol} (closes : s.closes = true) : s.isComma = false := by
  cases s <;> first | rfl | cases closes

theorem eq_comma {s : Symbol} (comma : s.isComma = true) : s = .comma := by
  cases s <;> first | rfl | cases comma

/-- What is dropped stands before a closing symbol, and this one stays. -/
theorem dropCommas_closes (closes : closesFirst ss = true) :
    ∃ s rest, ss = s :: rest ∧ s.closes = true ∧ dropCommas ss = s :: dropCommas rest := by
  cases ss with
  | nil => cases closes
  | cons s rest => exact ⟨s, rest, rfl, closes, dropCommas_cons (isComma_of_closes closes) rest⟩

theorem dropCommas_eq_nil (h : dropCommas ss = []) : ss = [] := by
  induction ss with
  | nil => rfl
  | cons s ss ih =>
      rw [dropCommas] at h
      split at h
      · rename_i dropped
        rw [ih h] at dropped
        simp [closesFirst] at dropped
      · cases h

/-- A symbol that is left was there before, or a comma that stood before it went. -/
theorem dropCommas_eq_cons {s : Symbol} (h : dropCommas ss = s :: rest) :
    (∃ ss', ss = s :: ss' ∧ dropCommas ss' = rest) ∨
      s.closes = true ∧ ∃ ss', ss = .comma :: s :: ss' ∧ dropCommas ss' = rest := by
  cases ss with
  | nil => cases h
  | cons first ss =>
      rw [dropCommas] at h
      split at h
      · rename_i dropped
        obtain ⟨comma, closes⟩ := Bool.and_eq_true_iff.mp dropped
        obtain ⟨close, ss', rfl, closes, left⟩ := dropCommas_closes closes
        obtain ⟨rfl, same⟩ := List.cons.inj (left.symm.trans h)
        exact .inr ⟨closes, ss', by rw [eq_comma comma], same⟩
      · obtain ⟨rfl, same⟩ := List.cons.inj h
        exact .inl ⟨ss, rfl, same⟩

theorem dropCommas_eq_cons_of_open {s : Symbol} (stays : s.closes = false)
    (h : dropCommas ss = s :: rest) : ∃ ss', ss = s :: ss' ∧ dropCommas ss' = rest := by
  rcases dropCommas_eq_cons h with found | ⟨closes, _⟩
  · exact found
  · rw [stays] at closes
    cases closes

/-- Commas keep scalars apart. -/
theorem Apart.of_dropCommas (h : Apart (dropCommas ss)) : Apart ss := by
  induction ss with
  | nil => exact List.isChain_nil
  | cons s ss ih =>
      rw [dropCommas] at h
      split at h
      · rename_i dropped
        rw [eq_comma (Bool.and_eq_true_iff.mp dropped).1]
        exact (ih h).cons_mark rfl
      · have later := ih (List.isChain_cons.mp h).2
        cases ss with
        | nil => exact List.isChain_singleton s
        | cons next ss =>
            refine List.isChain_cons_cons.mpr ⟨?_, later⟩
            rw [dropCommas] at h
            split at h
            · rename_i dropped
              rw [eq_comma (Bool.and_eq_true_iff.mp dropped).1]
              exact .inr rfl
            · exact (List.isChain_cons_cons.mp h).1

theorem Placed.dropCommas_tail {s : Symbol} (h : Placed loose (dropCommas (s :: ss))) :
    Placed loose (dropCommas ss) := by
  rw [dropCommas] at h
  split at h
  · exact h
  · exact (List.isChain_cons.mp h).2

/-- Of two commas in a row the second would go at most, and the first would stand where none may. -/
theorem Placed.no_twoCommas (h : Placed false (dropCommas ss)) : ¬[.comma, .comma] <:+: ss := by
  induction ss with
  | nil => simp
  | cons s ss ih =>
      rintro found
      rcases List.infix_cons_iff.mp found with ⟨rest, here⟩ | later
      · obtain ⟨rfl, rfl⟩ := List.cons.inj here
        rw [dropCommas_comma rfl] at h
        cases closes : closesFirst rest with
        | true =>
            obtain ⟨close, _, _, closing, left⟩ := dropCommas_closes closes
            change Placed false (.comma :: dropCommas (.comma :: rest)) at h
            rw [dropCommas, closes] at h
            change Placed false (.comma :: dropCommas rest) at h
            rw [left] at h
            have pair := (List.isChain_cons_cons.mp h).1
            exact absurd (pair.extra rfl rfl) (by simp [closing])
        | false =>
            change Placed false (.comma :: dropCommas (.comma :: rest)) at h
            rw [dropCommas_comma closes] at h
            have pair := (List.isChain_cons_cons.mp h).1
            exact absurd (pair.comma rfl) (by decide)
      · exact ih h.dropCommas_tail later

/-! ### Commas that are extra -/

theorem not_loneComma_tail {s : Symbol} (h : ¬LoneComma (s :: ss)) : ¬LoneComma ss :=
  fun lone => h (lone.cons s)

theorem not_loneComma_right {ss' : List Symbol} (h : ¬LoneComma (ss ++ ss')) : ¬LoneComma ss' := by
  rintro ⟨opening, closing, opens, closes, found⟩
  exact h ⟨opening, closing, opens, closes, found.trans (List.suffix_append ss ss').isInfix⟩

/-- In front of the symbol that closes an empty container no comma has gone. -/
theorem close_of_open {opening close : Symbol} (opens : opening.opens = true)
    (closes : close.closes = true) (lone : ¬LoneComma (opening :: ss))
    (h : dropCommas ss = close :: rest) : ∃ ss', ss = close :: ss' ∧ dropCommas ss' = rest := by
  rcases dropCommas_eq_cons h with found | ⟨_, ss', rfl, _⟩
  · exact found
  · exact absurd ⟨opening, close, opens, closes, [], ss', rfl⟩ lone

/-- In front of one that closes another container at most one comma has gone. -/
theorem extraComma_of_close {close : Symbol} (h : dropCommas ss = close :: rest) :
    ∃ extra ss', ss = extraComma true extra ++ close :: ss' ∧ dropCommas ss' = rest := by
  rcases dropCommas_eq_cons h with ⟨ss', rfl, same⟩ | ⟨_, ss', rfl, same⟩
  · exact ⟨false, ss', rfl, same⟩
  · exact ⟨true, ss', rfl, same⟩

mutual

theorem Document.undropped {ss rest : List Symbol} (lone : ¬LoneComma ss) :
    (d : Document) → (h : dropCommas ss = d.symbols false ++ rest) →
      ∃ (d' : Document) (ss' : List Symbol), ss = d'.symbols true ++ ss' ∧ dropCommas ss' = rest
  | .word w, h => by
      obtain ⟨ss', rfl, same⟩ := dropCommas_eq_cons_of_open (s := .word w) rfl h
      exact ⟨.word w, ss', rfl, same⟩
  | .numeral n, h => by
      obtain ⟨ss', rfl, same⟩ := dropCommas_eq_cons_of_open (s := .numeral n) rfl h
      exact ⟨.numeral n, ss', rfl, same⟩
  | .text s, h => by
      obtain ⟨ss', rfl, same⟩ := dropCommas_eq_cons_of_open (s := .text s) rfl h
      exact ⟨.text s, ss', rfl, same⟩
  | .list [] extra, h => by
      obtain ⟨_, rfl, opened⟩ := dropCommas_eq_cons_of_open (s := .openList) rfl h
      obtain ⟨ss', rfl, same⟩ := close_of_open rfl rfl lone opened
      exact ⟨.list [] extra, ss', rfl, same⟩
  | .list (d :: ds) _, h => by
      obtain ⟨_, rfl, opened⟩ := dropCommas_eq_cons_of_open (s := .openList) rfl h
      have inside := not_loneComma_tail lone
      obtain ⟨d', _, rfl, behind⟩ := d.undropped inside (by simpa using opened)
      obtain ⟨ds', _, rfl, close⟩ := laterItems_undropped (not_loneComma_right inside) ds
        (by simpa [extraComma] using behind)
      obtain ⟨extra, ss', rfl, same⟩ := extraComma_of_close close
      exact ⟨.list (d' :: ds') extra, ss', by simp [Document.symbols], same⟩
  | .record [] extra, h => by
      obtain ⟨_, rfl, opened⟩ := dropCommas_eq_cons_of_open (s := .openRecord) rfl h
      obtain ⟨ss', rfl, same⟩ := close_of_open rfl rfl lone opened
      exact ⟨.record [] extra, ss', rfl, same⟩
  | .record ((key, d) :: members) _, h => by
      obtain ⟨_, rfl, opened⟩ := dropCommas_eq_cons_of_open (s := .openRecord) rfl h
      obtain ⟨_, rfl, named⟩ := dropCommas_eq_cons_of_open (s := .text key) rfl opened
      obtain ⟨_, rfl, value⟩ := dropCommas_eq_cons_of_open (s := .colon) rfl named
      have inside := not_loneComma_tail (not_loneComma_tail (not_loneComma_tail lone))
      obtain ⟨d', _, rfl, behind⟩ := d.undropped inside (by simpa using value)
      obtain ⟨members', _, rfl, close⟩ :=
        laterMembers_undropped (not_loneComma_right inside) members
          (by simpa [extraComma] using behind)
      obtain ⟨extra, ss', rfl, same⟩ := extraComma_of_close close
      exact ⟨.record ((key, d') :: members') extra, ss', by simp [Document.symbols], same⟩

theorem laterItems_undropped {ss rest : List Symbol} (lone : ¬LoneComma ss) :
    (ds : List Document) → (h : dropCommas ss = laterItems false ds ++ rest) →
      ∃ ds' ss', ss = laterItems true ds' ++ ss' ∧ dropCommas ss' = rest
  | [], h => ⟨[], ss, rfl, h⟩
  | d :: ds, h => by
      obtain ⟨_, rfl, item⟩ := dropCommas_eq_cons_of_open (s := .comma) rfl h
      have inside := not_loneComma_tail lone
      obtain ⟨d', _, rfl, behind⟩ := d.undropped inside (by simpa using item)
      obtain ⟨ds', ss', rfl, same⟩ := laterItems_undropped (not_loneComma_right inside) ds behind
      exact ⟨d' :: ds', ss', by simp [laterItems], same⟩

theorem laterMembers_undropped {ss rest : List Symbol} (lone : ¬LoneComma ss) :
    (members : List (TextForm × Document)) →
      (h : dropCommas ss = laterMembers false members ++ rest) →
      ∃ members' ss', ss = laterMembers true members' ++ ss' ∧ dropCommas ss' = rest
  | [], h => ⟨[], ss, rfl, h⟩
  | (key, d) :: members, h => by
      obtain ⟨_, rfl, member⟩ := dropCommas_eq_cons_of_open (s := .comma) rfl h
      obtain ⟨_, rfl, named⟩ := dropCommas_eq_cons_of_open (s := .text key) rfl member
      obtain ⟨_, rfl, value⟩ := dropCommas_eq_cons_of_open (s := .colon) rfl named
      have inside := not_loneComma_tail (not_loneComma_tail (not_loneComma_tail lone))
      obtain ⟨d', _, rfl, behind⟩ := d.undropped inside (by simpa using value)
      obtain ⟨members', ss', rfl, same⟩ :=
        laterMembers_undropped (not_loneComma_right inside) members behind
      exact ⟨(key, d') :: members', ss', by simp [laterMembers], same⟩

end

/-- Symbols that come to a document's when commas are dropped are a document's with its extra
commas, if no comma stands alone. -/
theorem Document.symbols_of_dropCommas {d : Document} (lone : ¬LoneComma ss)
    (h : dropCommas ss = d.symbols false) : ∃ d' : Document, ss = d'.symbols true := by
  obtain ⟨d', ss', rfl, nothing⟩ :=
    d.undropped lone (h.trans (List.append_nil _).symm)
  obtain rfl := dropCommas_eq_nil nothing
  exact ⟨d', List.append_nil _⟩

/-! ### Streams -/

theorem map_lexeme_of_stream {ss' : List Symbol} (h : stream ss = stream ss') :
    ss.map Symbol.lexeme = ss'.map Symbol.lexeme := by
  induction ss generalizing ss' with
  | nil =>
      cases ss' with
      | nil => rfl
      | cons s' ss' => cases h
  | cons s ss ih =>
      cases ss' with
      | nil => cases h
      | cons s' ss' =>
          obtain ⟨token, later⟩ := Tokens.next.inj h
          rw [List.map_cons, List.map_cons, ih later, (Token.mk.inj token).1]

theorem Symbol.same_kind {s s' : Symbol} (h : s.lexeme = s'.lexeme) :
    s.opens = s'.opens ∧ s.isComma = s'.isComma ∧ s.closes = s'.closes := by
  cases s <;> cases s' <;> first | exact ⟨rfl, rfl, rfl⟩ | cases h

/-- Which symbols are commas and brackets can be told from their stream. -/
theorem LoneComma.of_stream {ss' : List Symbol} (h : LoneComma ss) (same : stream ss = stream ss') :
    LoneComma ss' := by
  obtain ⟨opening, closing, opens, closes, found⟩ := h
  have mapped := found.map Symbol.lexeme
  rw [map_lexeme_of_stream same] at mapped
  obtain ⟨part, inside, kinds⟩ := List.infix_map_iff.mp mapped
  obtain _ | ⟨opening', _ | ⟨comma', _ | ⟨closing', _ | ⟨more, part⟩⟩⟩⟩ := part <;>
    simp only [List.map_cons, List.map_nil, List.cons.injEq, reduceCtorEq, and_false,
      and_true] at kinds
  obtain ⟨first, second, third⟩ := kinds
  obtain rfl := eq_comma ((Symbol.same_kind second).2.1.symm.trans rfl)
  exact ⟨opening', closing', (Symbol.same_kind first).1.symm.trans opens,
    (Symbol.same_kind third).2.2.symm.trans closes, inside⟩

end RootedBuild.Json
