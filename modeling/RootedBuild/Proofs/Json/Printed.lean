import RootedBuild.Proofs.Json.Accepted
import RootedBuild.Proofs.Json.Members
import RootedBuild.Proofs.Json.Scalars

/-!
What is printed on one line is read again. The printed text of a value spells a document without
layout, the machine finishes that document as the value is written, and from what is written comes
the value, provided its numbers are integers and its objects are in the order of their keys. How
deep containers may be nested is up to the reader, who has to have room for all of them.
-/
namespace RootedBuild.Json

/-! ### Values and their documents -/

mutual

/-- Every number of the value is an integer of 64 bits. -/
def Value.Integral : Value → Prop
  | .number (.int n) => IsWord n
  | .number (.real _) => False
  | .list items => IntegralItems items
  | .record members => IntegralMembers members
  | _ => True

def IntegralItems : List Value → Prop
  | [] => True
  | v :: vs => v.Integral ∧ IntegralItems vs

def IntegralMembers : List (String × Value) → Prop
  | [] => True
  | (_, v) :: rest => v.Integral ∧ IntegralMembers rest

end

mutual

/-- Every object of the value has its members in the order of their keys, as the operations on
members keep them. -/
def Value.Ordered : Value → Prop
  | .list items => OrderedItems items
  | .record members => Members.Sorted members ∧ OrderedMembers members
  | _ => True

def OrderedItems : List Value → Prop
  | [] => True
  | v :: vs => v.Ordered ∧ OrderedItems vs

def OrderedMembers : List (String × Value) → Prop
  | [] => True
  | (_, v) :: rest => v.Ordered ∧ OrderedMembers rest

end

mutual

/-- The document that is printed. Binary numbers are not spelled here. -/
def Value.document : Value → Document
  | .null => .word .null
  | .bool true => .word .true
  | .bool false => .word .false
  | .number (.int n) => .numeral (integerForm n)
  | .number (.real _) => .word .null
  | .text s => .text (.ofString s)
  | .list items => .list (documentsOf items) false
  | .record members => .record (namedDocumentsOf members) false

def documentsOf : List Value → List Document
  | [] => []
  | v :: vs => v.document :: documentsOf vs

def namedDocumentsOf : List (String × Value) → List (TextForm × Document)
  | [] => []
  | (key, v) :: rest => (.ofString key, v.document) :: namedDocumentsOf rest

end

/-! ### The printed text -/

def spelling (ss : List Symbol) : List Char := ss.flatMap Symbol.chars

theorem spelling_cons (s : Symbol) (ss : List Symbol) :
    spelling (s :: ss) = s.chars ++ spelling ss := List.flatMap_cons

theorem spelling_append (ss tt : List Symbol) :
    spelling (ss ++ tt) = spelling ss ++ spelling tt := List.flatMap_append

theorem toList_intercalate_cons (separator s : String) (ss : List String) :
    (separator.intercalate (s :: ss)).toList =
      s.toList ++ ss.flatMap fun t => separator.toList ++ t.toList := by
  induction ss generalizing s with
  | nil => rw [String.intercalate_singleton, List.flatMap_nil, List.append_nil]
  | cons t ss ih =>
      rw [String.intercalate_cons_cons, String.toList_append, String.toList_append, ih,
        List.flatMap_cons, List.append_assoc, List.append_assoc]

mutual

theorem Value.spelling_document :
    (v : Value) → v.Integral → spelling (v.document.symbols false) = v.print.toList
  | .null, _ => by decide
  | .bool true, _ => by decide
  | .bool false, _ => by decide
  | .number (.int n), _ => by
      rw [Value.document, Document.symbols, spelling_cons]
      exact (List.append_nil _).trans (integerForm_chars n)
  | .text s, _ => by
      rw [Value.document, Document.symbols, spelling_cons]
      exact (List.append_nil _).trans (chars_ofString s)
  | .list [], _ => by decide
  | .list (v :: vs), h => by
      have first := v.spelling_document h.1
      have later := spelling_laterItems vs h.2
      rw [Value.document, documentsOf, Document.symbols, spelling_cons, spelling_append,
        spelling_append, first, later, Value.print, printItems, String.toList_append,
        String.toList_append, toList_intercalate_cons]
      simp [extraComma, spelling, Symbol.chars, listBraces]
  | .record [], _ => by decide
  | .record ((key, v) :: ms), h => by
      have first := v.spelling_document h.1
      have later := spelling_laterMembers ms h.2
      rw [Value.document, namedDocumentsOf, Document.symbols, spelling_cons, spelling_cons,
        spelling_cons, spelling_append, spelling_append, chars_ofString, first, later, Value.print,
        printMembers, String.toList_append, String.toList_append, toList_intercalate_cons,
        String.toList_append, String.toList_append]
      simp [extraComma, spelling, Symbol.chars, recordBraces]

theorem spelling_laterItems :
    (vs : List Value) → IntegralItems vs → spelling (laterItems false (documentsOf vs)) =
      (printItems vs).flatMap fun t => ',' :: t.toList
  | [], _ => rfl
  | v :: vs, h => by
      rw [documentsOf, laterItems, spelling_cons, spelling_append, v.spelling_document h.1,
        spelling_laterItems vs h.2, printItems, List.flatMap_cons]
      rfl

theorem spelling_laterMembers :
    (ms : List (String × Value)) → IntegralMembers ms →
      spelling (laterMembers false (namedDocumentsOf ms)) =
        (printMembers ms).flatMap fun t => ',' :: t.toList
  | [], _ => rfl
  | (key, v) :: ms, h => by
      rw [namedDocumentsOf, laterMembers, spelling_cons, spelling_cons, spelling_cons,
        spelling_append, chars_ofString, v.spelling_document h.1, spelling_laterMembers ms h.2,
        printMembers, List.flatMap_cons, String.toList_append, String.toList_append]
      simp [Symbol.chars]

end

/-- A printed value stands on one line. -/
theorem Value.break_notMem_print {v : Value} (h : v.Integral) : '\n' ∉ v.print.toList := by
  rw [← v.spelling_document h]
  intro member
  obtain ⟨s, _, broken⟩ := List.mem_flatMap.mp member
  exact s.break_notMem broken

/-! ### The machine -/

/-- Goes on from what a token has led to. -/
def proceed (m : Manner) (ts : Tokens) : Progress → Except Fault (Written × Tokens)
  | .done w => .ok (w, ts)
  | .more stack phase => build m stack phase ts

section
variable {m : Manner} {stack : List Frame} {phase : Phase} {limit : Nat}

theorem build_next {t : Token} {p : Progress} (step : advance m stack phase t = .ok p)
    (rest : Tokens) : build m stack phase (.next t rest) = proceed m rest p := by
  rw [build, step]
  cases p <;> rfl

theorem build_firstItem (d : Document) (rest : List Symbol) :
    build m stack .firstItem (stream (d.symbols false ++ rest)) =
      build m (.list [] :: stack) .value (stream (d.symbols false ++ rest)) := by
  cases d with
  | list items extra => cases items <;> rfl
  | record members extra => cases members <;> rfl
  | _ => rfl

theorem build_nextItem (items : List Written) (d : Document) (rest : List Symbol) :
    build m stack (.nextItem items) (stream (d.symbols false ++ rest)) =
      build m (.list items :: stack) .value (stream (d.symbols false ++ rest)) := by
  cases d with
  | list items extra => cases items <;> rfl
  | record members extra => cases members <;> rfl
  | _ => rfl

theorem build_firstKey (key : String) (rest : List Symbol) :
    build (.strict limit) stack .firstKey (stream (.text (.ofString key) :: .colon :: rest)) =
      build (.strict limit) (.record [] (.ok key) :: stack) .value (stream rest) := by
  rw [stream, lexeme_text_ofString]
  rfl

theorem build_nextKey (members : List WrittenMember) (key : String) (rest : List Symbol) :
    build (.strict limit) stack (.nextKey members)
        (stream (.text (.ofString key) :: .colon :: rest)) =
      build (.strict limit) (.record members (.ok key) :: stack) .value (stream rest) := by
  rw [stream, lexeme_text_ofString]
  rfl

theorem openContainer_strict (room : stack.length < limit) (t : Token) :
    openContainer (.strict limit) stack phase t = .ok (.more stack phase) :=
  if_neg (Nat.not_le.mpr room)

end

mutual

/-- The machine finishes a value, hands it on and goes on behind it. -/
theorem build_document (limit : Nat) (stack : List Frame) (rest : List Symbol) :
    (v : Value) → v.Integral → stack.length + v.written.depth ≤ limit →
      build (.strict limit) stack .value (stream (v.document.symbols false ++ rest)) =
        proceed (.strict limit) (stream rest) (complete stack v.written)
  | .null, _, _ => build_next rfl _
  | .bool true, _, _ => build_next rfl _
  | .bool false, _, _ => build_next rfl _
  | .number (.int n), h, _ => by
      have token := lexeme_integerForm h
      rw [Value.document, Document.symbols, List.singleton_append, stream, token]
      exact build_next rfl _
  | .text s, _, _ => by
      rw [Value.document, Document.symbols, List.singleton_append, stream, lexeme_text_ofString]
      exact build_next rfl _
  | .list [], _, room => by
      have opened : advance (.strict limit) stack .value ⟨.openList, {}, {}⟩ =
          .ok (.more stack .firstItem) := openContainer_strict room _
      exact (build_next opened _).trans (build_next rfl _)
  | .list (v :: vs), h, room => by
      simp only [Value.written, writtenItems, Written.depth, depthOfItems] at room
      have opened : advance (.strict limit) stack .value ⟨.openList, {}, {}⟩ =
          .ok (.more stack .firstItem) := openContainer_strict (by omega) _
      have first := build_document limit (.list [] :: stack)
        (laterItems false (documentsOf vs) ++ .closeList :: rest) v h.1
        (by rw [List.length_cons]; omega)
      have later := build_laterItems limit stack rest vs [v.written] h.2 (by omega)
      simp only [Value.document, documentsOf, Document.symbols, extraComma, Bool.false_and,
        Bool.false_eq_true, if_false, List.cons_append, List.append_assoc, List.nil_append]
      refine (build_next opened _).trans ?_
      rw [proceed, build_firstItem, first]
      exact later
  | .record [], _, room => by
      have opened : advance (.strict limit) stack .value ⟨.openRecord, {}, {}⟩ =
          .ok (.more stack .firstKey) := openContainer_strict room _
      exact (build_next opened _).trans (build_next rfl _)
  | .record ((key, v) :: ms), h, room => by
      simp only [Value.written, writtenMembers, Written.depth, depthOfMembers] at room
      have opened : advance (.strict limit) stack .value ⟨.openRecord, {}, {}⟩ =
          .ok (.more stack .firstKey) := openContainer_strict (by omega) _
      have first := build_document limit (.record [] (.ok key) :: stack)
        (laterMembers false (namedDocumentsOf ms) ++ .closeRecord :: rest) v h.1
        (by rw [List.length_cons]; omega)
      have later := build_laterMembers limit stack rest ms [(.ok key, v.written)] h.2
        (by omega)
      simp only [Value.document, namedDocumentsOf, Document.symbols, extraComma, Bool.false_and,
        Bool.false_eq_true, if_false, List.cons_append, List.append_assoc, List.nil_append]
      refine (build_next opened _).trans ?_
      rw [proceed, build_firstKey, first]
      exact later

theorem build_laterItems (limit : Nat) (stack : List Frame) (rest : List Symbol) :
    (vs : List Value) → (seen : List Written) → IntegralItems vs →
      stack.length + (depthOfItems (writtenItems vs) + 1) ≤ limit →
      build (.strict limit) stack (.afterItem seen)
          (stream (laterItems false (documentsOf vs) ++ .closeList :: rest)) =
        proceed (.strict limit) (stream rest)
          (complete stack (.list (seen.reverse ++ writtenItems vs)))
  | [], seen, _, _ => by
      rw [writtenItems, List.append_nil]
      exact build_next rfl _
  | v :: vs, seen, h, room => by
      simp only [writtenItems, depthOfItems] at room
      have first := build_document limit (.list seen :: stack)
        (laterItems false (documentsOf vs) ++ .closeList :: rest) v h.1
        (by rw [List.length_cons]; omega)
      have later := build_laterItems limit stack rest vs (v.written :: seen) h.2 (by omega)
      rw [documentsOf, laterItems, List.cons_append, List.append_assoc]
      refine (build_next rfl _).trans ?_
      rw [proceed, build_nextItem, first, writtenItems]
      rw [List.reverse_cons, List.append_assoc] at later
      exact later

theorem build_laterMembers (limit : Nat) (stack : List Frame) (rest : List Symbol) :
    (ms : List (String × Value)) → (seen : List WrittenMember) → IntegralMembers ms →
      stack.length + (depthOfMembers (writtenMembers ms) + 1) ≤ limit →
      build (.strict limit) stack (.afterMember seen)
          (stream (laterMembers false (namedDocumentsOf ms) ++ .closeRecord :: rest)) =
        proceed (.strict limit) (stream rest)
          (complete stack (.record (seen.reverse ++ writtenMembers ms)))
  | [], seen, _, _ => by
      rw [writtenMembers, List.append_nil]
      exact build_next rfl _
  | (key, v) :: ms, seen, h, room => by
      simp only [writtenMembers, depthOfMembers] at room
      have first := build_document limit (.record seen (.ok key) :: stack)
        (laterMembers false (namedDocumentsOf ms) ++ .closeRecord :: rest) v h.1
        (by rw [List.length_cons]; omega)
      have later := build_laterMembers limit stack rest ms ((.ok key, v.written) :: seen) h.2
        (by omega)
      rw [namedDocumentsOf, laterMembers, List.cons_append, List.cons_append, List.cons_append,
        List.append_assoc]
      refine (build_next rfl _).trans ?_
      rw [proceed, build_nextKey, first, writtenMembers]
      rw [List.reverse_cons, List.append_assoc] at later
      exact later

end

/-! ### Room -/

mutual

theorem Value.depth_written :
    (v : Value) → v.written.depth ≤ (v.document.symbols false).length
  | .null => Nat.zero_le _
  | .bool _ => Nat.zero_le _
  | .number _ => Nat.zero_le _
  | .text _ => Nat.zero_le _
  | .list [] => by decide
  | .list (v :: vs) => by
      have first := v.depth_written
      have later := depthOfItems_written vs
      simp only [Value.written, writtenItems, Written.depth, depthOfItems, Value.document,
        documentsOf, Document.symbols, List.length_cons, List.length_append]
      omega
  | .record [] => by decide
  | .record ((key, v) :: ms) => by
      have first := v.depth_written
      have later := depthOfMembers_written ms
      simp only [Value.written, writtenMembers, Written.depth, depthOfMembers, Value.document,
        namedDocumentsOf, Document.symbols, List.length_cons, List.length_append]
      omega

theorem depthOfItems_written :
    (vs : List Value) →
      depthOfItems (writtenItems vs) ≤ (laterItems false (documentsOf vs)).length
  | [] => Nat.zero_le _
  | v :: vs => by
      have first := v.depth_written
      have later := depthOfItems_written vs
      simp only [writtenItems, depthOfItems, documentsOf, laterItems, List.length_cons,
        List.length_append]
      omega

theorem depthOfMembers_written :
    (ms : List (String × Value)) →
      depthOfMembers (writtenMembers ms) ≤ (laterMembers false (namedDocumentsOf ms)).length
  | [] => Nat.zero_le _
  | (key, v) :: ms => by
      have first := v.depth_written
      have later := depthOfMembers_written ms
      simp only [writtenMembers, depthOfMembers, namedDocumentsOf, laterMembers, List.length_cons,
        List.length_append]
      omega

end

/-! ### From what is written to the value -/

theorem pairsOf_cons {w : Written} {v : Value} {rest : List WrittenMember} {ps : Members}
    (key : String) (value : w.value? = some v) (later : pairsOf rest = some ps) :
    pairsOf ((.ok key, w) :: rest) = some ((key, v) :: ps) := by
  rw [pairsOf, value, later]

mutual

theorem Value.value?_written : (v : Value) → v.Ordered → v.written.value? = some v
  | .null, _ => rfl
  | .bool _, _ => rfl
  | .number _, _ => rfl
  | .text _, _ => rfl
  | .list items, h => by
      rw [Value.written, Written.value?, valuesOf_written items h]
      rfl
  | .record members, h => by
      rw [Value.written, Written.value?, pairsOf_written members h.2, Option.map_some,
        h.1.ofPairs]

theorem valuesOf_written :
    (vs : List Value) → OrderedItems vs → valuesOf (writtenItems vs) = some vs
  | [], _ => rfl
  | v :: vs, h => by
      rw [writtenItems, valuesOf, v.value?_written h.1, valuesOf_written vs h.2]

theorem pairsOf_written :
    (ms : List (String × Value)) → OrderedMembers ms → pairsOf (writtenMembers ms) = some ms
  | [], _ => rfl
  | (key, v) :: ms, h => pairsOf_cons key (v.value?_written h.1) (pairsOf_written ms h.2)

end

/-! ### Whole texts -/

/-- A text that lays out the document of a value is at least as long as the value is deep. -/
theorem Value.depth_le_length {v : Value} {gap : Nat → List Char} {text : String}
    (spelled : interleave gap (v.document.symbols false) = text.toList) :
    v.written.depth ≤ text.length := calc
  v.written.depth ≤ (v.document.symbols false).length := v.depth_written
  _ ≤ text.toList.length := spelled ▸ length_le_interleave _ _
  _ = text.length := String.length_toList

theorem Value.depth_le_length_print {v : Value} (h : v.Integral) :
    v.written.depth ≤ v.print.length :=
  depth_le_length ((interleave_nothing _).trans (v.spelling_document h))

/-- A text that lays out the document of a value is read as the value is written. -/
theorem readWhole_interleave {v : Value} (h : v.Integral) {gap : Nat → List Char}
    (layout : Layout gap) {text : String}
    (spelled : interleave gap (v.document.symbols false) = text.toList) {limit : Nat}
    (room : v.written.depth ≤ limit) :
    ∃ w, readWhole (.strict limit) text = .ok w ∧ w.unplaced = v.written := by
  have scanned := scan_interleave layout (v.document.apart false)
  rw [spelled, String.ofList_toList] at scanned
  have finished := build_document limit [] [] v h (by simpa using room)
  rw [List.append_nil, ← scanned] at finished
  obtain ⟨⟨w, rest⟩, read, same⟩ :=
    (readValue_elsewhere (.strict limit) (scan text)).of_ok finished
  obtain ⟨written, ended⟩ := Prod.mk.inj same
  cases rest with
  | finish p => exact ⟨w, readWhole_eq_ok_iff.mpr ⟨p, read⟩, written⟩
  | next t rest => cases ended

/-- A printed value is read as it is written. -/
theorem readWhole_print {v : Value} (h : v.Integral) {limit : Nat}
    (room : v.written.depth ≤ limit) :
    ∃ w, readWhole (.strict limit) v.print = .ok w ∧ w.unplaced = v.written := by
  have layout : Layout fun _ => [] := by
    rintro i c ⟨⟩
  exact readWhole_interleave h layout ((interleave_nothing _).trans (v.spelling_document h)) room

end RootedBuild.Json
