import RootedBuild.Proofs.Json.Printed

/-!
What is printed over several lines is read again. The lines hold the symbols of the document that is
printed on one line, with breaks and blanks around them, which a reader passes over.
-/
namespace RootedBuild.Json

/-! ### Symbols with layout -/

/-- Characters that spell symbols, with layout anywhere between them. -/
inductive LaidOut : List Symbol → List Char → Prop where
  | nothing : LaidOut [] []
  | layout {c ss cs} (passed : isLayout c = true) (rest : LaidOut ss cs) : LaidOut ss (c :: cs)
  | symbol (s) {ss cs} (rest : LaidOut ss cs) : LaidOut (s :: ss) (s.chars ++ cs)

namespace LaidOut

variable {ss tt : List Symbol} {cs ds : List Char}

theorem append (h : LaidOut ss cs) (h' : LaidOut tt ds) : LaidOut (ss ++ tt) (cs ++ ds) := by
  induction h with
  | nothing => exact h'
  | layout passed _ ih => exact .layout passed ih
  | symbol s _ ih =>
      rw [List.cons_append, List.append_assoc]
      exact .symbol s ih

theorem single (s : Symbol) : LaidOut [s] s.chars := by
  rw [← List.append_nil s.chars]
  exact .symbol s .nothing

theorem of_spelling (h : spelling ss = cs) : LaidOut ss cs := by
  subst h
  induction ss with
  | nil => exact .nothing
  | cons s ss ih =>
      rw [spelling_cons]
      exact .symbol s ih

theorem blank (passed : ∀ c ∈ cs, isLayout c = true) : LaidOut [] cs := by
  induction cs with
  | nil => exact .nothing
  | cons c cs ih =>
      obtain ⟨first, later⟩ := List.forall_mem_cons.mp passed
      exact .layout first (ih later)

theorem exists_gap (h : LaidOut ss cs) : ∃ gap, Layout gap ∧ interleave gap ss = cs := by
  induction h with
  | nothing => exact ⟨fun _ => [], by rintro i c ⟨⟩, rfl⟩
  | layout passed _ ih =>
      obtain ⟨gap, layout, rfl⟩ := ih
      refine ⟨merged [_] gap, layout.merged (List.forall_mem_singleton.mpr passed), ?_⟩
      exact interleave_merged ..
  | symbol s _ ih =>
      obtain ⟨gap, layout, rfl⟩ := ih
      exact ⟨before [] gap, layout.before (by rintro c ⟨⟩), rfl⟩

end LaidOut

/-! ### Printed lines -/

theorem laidOut_lineAt (depth : Nat) : LaidOut [] (lineAt depth).toList := by
  apply LaidOut.blank
  intro c member
  rw [lineAt, String.toList_ofList, List.mem_cons] at member
  rcases member with rfl | blank
  · rfl
  · rw [List.eq_of_mem_replicate blank]
    rfl

/-- What separates the parts of a container. -/
theorem laidOut_separator (depth : Nat) : LaidOut [.comma] ("," ++ lineAt depth).toList := by
  rw [String.toList_append]
  exact (LaidOut.single .comma).append (laidOut_lineAt depth)

theorem laidOut_member {ss : List Symbol} (key : String) {text : String}
    (h : LaidOut ss text.toList) :
    LaidOut (.text (.ofString key) :: .colon :: ss) (literal key ++ ": " ++ text).toList := by
  have colon : LaidOut [.colon] ": ".toList := .symbol .colon (.layout rfl .nothing)
  have named := (LaidOut.single (.text (.ofString key))).append (colon.append h)
  rw [Symbol.chars] at named
  rw [String.toList_append, String.toList_append, List.append_assoc, ← chars_ofString]
  exact named

/-- A container that is not empty, from the symbols of its first part and of those that follow. -/
theorem laidOut_spread {braces : String × String} {first last : Symbol} {part : String}
    {parts : List String} {ss tt : List Symbol} (depth : Nat)
    (opens : LaidOut [first] braces.1.toList) (closes : LaidOut [last] braces.2.toList)
    (head : LaidOut ss part.toList)
    (later : LaidOut tt (parts.flatMap fun t => ("," ++ lineAt (depth + 1)).toList ++ t.toList)) :
    LaidOut (first :: (ss ++ (tt ++ [last]))) (spread braces depth (part :: parts)).toList := by
  have inside := (laidOut_lineAt (depth + 1)).append (head.append
    (later.append ((laidOut_lineAt depth).append closes)))
  have whole : LaidOut (first :: (ss ++ (tt ++ [last]))) _ := opens.append inside
  rw [spread, if_neg (by simp)]
  simpa only [String.toList_append, toList_intercalate_cons, List.append_assoc] using whole

mutual

/-- Over several lines stands the document that is printed on one. -/
theorem Value.laidOut_printLines :
    (v : Value) → v.Integral → (depth : Nat) →
      LaidOut (v.document.symbols false) (v.printLines depth).toList
  -- what has no parts is printed as on one line
  | .null, h, _ => .of_spelling (Value.null.spelling_document h)
  | .bool true, h, _ => .of_spelling ((Value.bool true).spelling_document h)
  | .bool false, h, _ => .of_spelling ((Value.bool false).spelling_document h)
  | .number (.int n), h, _ => .of_spelling ((Value.number (.int n)).spelling_document h)
  | .text s, h, _ => .of_spelling ((Value.text s).spelling_document h)
  | .list [], _, _ => by
      rw [Value.printLines, linesOfItems, spread, List.isEmpty_nil, if_pos rfl]
      exact .of_spelling (by decide)
  | .list (v :: vs), h, depth =>
      laidOut_spread depth (.single .openList) (.single .closeList)
        (v.laidOut_printLines h.1 (depth + 1)) (laidOut_laterItems vs h.2 (depth + 1))
  | .record [], _, _ => by
      rw [Value.printLines, linesOfMembers, spread, List.isEmpty_nil, if_pos rfl]
      exact .of_spelling (by decide)
  | .record ((key, v) :: ms), h, depth =>
      laidOut_spread depth (.single .openRecord) (.single .closeRecord)
        (laidOut_member key (v.laidOut_printLines h.1 (depth + 1)))
        (laidOut_laterMembers ms h.2 (depth + 1))

theorem laidOut_laterItems :
    (vs : List Value) → IntegralItems vs → (depth : Nat) →
      LaidOut (laterItems false (documentsOf vs))
        ((linesOfItems depth vs).flatMap fun t => ("," ++ lineAt depth).toList ++ t.toList)
  | [], _, _ => .nothing
  | v :: vs, h, depth => by
      rw [linesOfItems, List.flatMap_cons, List.append_assoc]
      exact (laidOut_separator depth).append
        ((v.laidOut_printLines h.1 depth).append (laidOut_laterItems vs h.2 depth))

theorem laidOut_laterMembers :
    (ms : List (String × Value)) → IntegralMembers ms → (depth : Nat) →
      LaidOut (laterMembers false (namedDocumentsOf ms))
        ((linesOfMembers depth ms).flatMap fun t => ("," ++ lineAt depth).toList ++ t.toList)
  | [], _, _ => .nothing
  | (key, v) :: ms, h, depth => by
      rw [linesOfMembers, List.flatMap_cons, List.append_assoc]
      exact (laidOut_separator depth).append
        ((laidOut_member key (v.laidOut_printLines h.1 depth)).append
          (laidOut_laterMembers ms h.2 depth))

end

/-! ### Whole texts -/

/-- The value that a whole text tells of, with containers as deep as a text can have them. -/
def valueOf? (text : String) : Option Value :=
  match readWhole (.strict text.length) text with
  | .error _ => none
  | .ok w => w.value?

/-- A value that is printed over several lines, with a break behind it, is read again. -/
theorem valueOf?_printLines {v : Value} (integral : v.Integral) (ordered : v.Ordered) :
    valueOf? (v.printLines 0 ++ "\n") = some v := by
  have laid : LaidOut (v.document.symbols false) (v.printLines 0 ++ "\n").toList := by
    have last : LaidOut [] "\n".toList := .layout rfl .nothing
    have printed := (v.laidOut_printLines integral 0).append last
    rwa [List.append_nil, ← String.toList_append] at printed
  obtain ⟨gap, layout, spelled⟩ := laid.exists_gap
  obtain ⟨w, read, same⟩ :=
    readWhole_interleave integral layout spelled (Value.depth_le_length spelled)
  rw [valueOf?, read]
  change w.value? = some v
  rw [← Written.value?_unplaced, same, v.value?_written ordered]

end RootedBuild.Json
