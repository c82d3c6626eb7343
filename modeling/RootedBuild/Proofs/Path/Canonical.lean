import Mathlib.Data.List.Basic
import Mathlib.Data.List.Induction
import RootedBuild.FileTree

/-!
Absolute paths in their shortest spelling: the root and names, and nothing else. Every absolute path
has one such spelling, cleaning finds it, and two of them that are the same path are equal as texts.
The paths above one are again of this kind. Nothing is said here of relative paths.
-/
namespace RootedBuild.Path

/-! ### Pieces -/

theorem splitSlash_of_slash_notMem {cs : List Char} (h : '/' ∉ cs) : splitSlash cs = [cs] := by
  induction cs with
  | nil => rfl
  | cons c cs ih =>
      rw [List.mem_cons, not_or] at h
      simp only [splitSlash, if_neg (Ne.symm h.1), ih h.2]

theorem splitSlash_append_cons (cs ds : List Char) :
    splitSlash (cs ++ '/' :: ds) = splitSlash cs ++ splitSlash ds := by
  induction cs with
  | nil => simp [splitSlash]
  | cons c cs ih =>
      obtain ⟨piece, rest, found⟩ := List.exists_cons_of_ne_nil (splitSlash_ne_nil cs)
      by_cases slash : c = '/'
      · simp only [List.cons_append, splitSlash, if_pos slash, ih]
      · simp only [List.cons_append, splitSlash, if_neg slash, ih, found]

theorem slash_notMem_of_mem_splitSlash {cs piece : List Char} (h : piece ∈ splitSlash cs) :
    '/' ∉ piece := by
  induction cs generalizing piece with
  | nil =>
      rw [splitSlash, List.mem_singleton] at h
      simp [h]
  | cons c cs ih =>
      obtain ⟨first, rest, found⟩ := List.exists_cons_of_ne_nil (splitSlash_ne_nil cs)
      by_cases slash : c = '/'
      · simp only [splitSlash, if_pos slash, List.mem_cons] at h
        rcases h with rfl | later
        · simp
        · exact ih later
      · simp only [splitSlash, if_neg slash, found, List.mem_cons] at h
        rcases h with rfl | later
        · have clear : '/' ∉ first := ih (by simp [found])
          simp [clear, Ne.symm slash]
        · exact ih (by simp [found, later])

theorem splitSlash_joinSlash {pieces : List (List Char)} (nonempty : pieces ≠ [])
    (h : ∀ piece ∈ pieces, '/' ∉ piece) : splitSlash (joinSlash pieces) = pieces := by
  induction pieces with
  | nil => exact absurd rfl nonempty
  | cons piece rest ih =>
      have clear : '/' ∉ piece := h piece (by simp)
      cases rest with
      | nil => exact splitSlash_of_slash_notMem clear
      | cons next rest =>
          have later := ih (by simp) fun p member => h p (List.mem_cons_of_mem piece member)
          rw [joinSlash, splitSlash_append_cons, splitSlash_of_slash_notMem clear, later]
          · rfl
          · simp

/-! ### Names -/

/-- A text that can stand between two slashes for something other than a step along the path. -/
structure IsName (s : String) : Prop where
  nonempty : s.toList ≠ []
  whole : '/' ∉ s.toList
  not_here : s.toList ≠ ['.']
  not_up : s.toList ≠ ['.', '.']

theorem isIdle_false_iff (piece : List Char) :
    isIdle false piece = true ↔ piece = [] ∨ piece = ['.'] := by
  simp [isIdle]

theorem IsName.isIdle {s : String} (h : IsName s) : isIdle false s.toList = false := by
  rw [Bool.eq_false_iff, ne_eq, isIdle_false_iff, not_or]
  exact ⟨h.nonempty, h.not_here⟩

theorem IsName.partOf {s : String} (h : IsName s) : partOf s.toList = .name s := by
  simp [Path.partOf, h.not_here, h.not_up]

theorem partOf_of_not_isIdle {piece : List Char} (whole : '/' ∉ piece)
    (h : isIdle false piece = false) :
    partOf piece = .up ∨ ∃ s, IsName s ∧ partOf piece = .name s := by
  rw [Bool.eq_false_iff, ne_eq, isIdle_false_iff, not_or] at h
  by_cases up : piece = ['.', '.']
  · exact .inl (by simp [partOf, up])
  · have name : IsName (String.ofList piece) :=
      ⟨by simpa using h.1, by simpa using whole, by simpa using h.2, by simpa using up⟩
    exact .inr ⟨String.ofList piece, name, by simp [partOf, h.2, up]⟩

/-- Behind the root only `..` and names are parts. -/
theorem mem_partsOf_false {pieces : List (List Char)} (whole : ∀ piece ∈ pieces, '/' ∉ piece)
    {part : Part} (h : part ∈ partsOf false pieces) :
    part = .up ∨ ∃ s, IsName s ∧ part = .name s := by
  induction pieces with
  | nil => simp [partsOf] at h
  | cons piece rest ih =>
      have wholeRest : ∀ p ∈ rest, '/' ∉ p :=
        fun p member => whole p (List.mem_cons_of_mem _ member)
      cases idle : isIdle false piece with
      | true =>
          rw [partsOf, if_pos idle] at h
          exact ih wholeRest h
      | false =>
          simp only [partsOf, idle, Bool.false_eq_true, if_false, List.mem_cons] at h
          rcases h with rfl | later
          · exact partOf_of_not_isIdle (whole piece (by simp)) idle
          · exact ih wholeRest later

theorem partsOf_false_append (pieces rest : List (List Char)) :
    partsOf false (pieces ++ rest) = partsOf false pieces ++ partsOf false rest := by
  induction pieces with
  | nil => rfl
  | cons piece pieces ih => cases idle : isIdle false piece <;> simp [partsOf, idle, ih]

theorem partsOf_false_names {names : List String} (h : ∀ s ∈ names, IsName s) :
    partsOf false (names.map String.toList) = names.map .name := by
  induction names with
  | nil => rfl
  | cons s names ih =>
      have first : IsName s := h s (by simp)
      have later := ih fun q member => h q (List.mem_cons_of_mem s member)
      simp [partsOf, first.isIdle, first.partOf, later]

/-! ### The spelling by names -/

def ofNames (names : List String) : Path := ofPieces true (names.map String.toList)

@[simp] theorem toList_ofNames (names : List String) :
    (ofNames names).text.toList = '/' :: joinSlash (names.map String.toList) := by
  simp [ofNames, ofPieces]

@[simp] theorem isAbsolute_ofNames (names : List String) : (ofNames names).isAbsolute = true := by
  simp [isAbsolute]

theorem pieces_of_toList {p : Path} {cs : List Char} (h : p.text.toList = '/' :: cs) :
    p.pieces = splitSlash cs := by
  simp [pieces, h]

theorem pieces_ofNames {names : List String} (nonempty : names ≠ []) (h : ∀ s ∈ names, IsName s) :
    (ofNames names).pieces = names.map String.toList := by
  rw [pieces_of_toList (toList_ofNames names)]
  apply splitSlash_joinSlash
  · simpa using nonempty
  · intro piece member
    obtain ⟨s, inside, rfl⟩ := List.mem_map.mp member
    exact (h s inside).whole

@[simp] theorem pieces_root : (ofNames []).pieces = [[]] := by
  rw [pieces_of_toList (toList_ofNames [])]
  rfl

theorem parts_ofNames {names : List String} (h : ∀ s ∈ names, IsName s) :
    (ofNames names).parts = .root :: names.map .name := by
  rw [parts, if_pos (isAbsolute_ofNames names)]
  cases names with
  | nil => simp [partsOf, isIdle]
  | cons s names => rw [pieces_ofNames (by simp) h, partsOf_false_names h]

/-- What cleaning has gathered behind the root, nearest name first, is a list of names. -/
theorem foldl_cleanStep_names (parts : List Part)
    (h : ∀ part ∈ parts, part = .up ∨ ∃ s, IsName s ∧ part = .name s) (names : List String)
    (good : ∀ s ∈ names, IsName s) :
    ∃ result : List String, (∀ s ∈ result, IsName s) ∧
      parts.foldl cleanStep (names.map .name ++ [.root]) = result.map .name ++ [.root] := by
  induction parts generalizing names with
  | nil => exact ⟨names, good, rfl⟩
  | cons part parts ih =>
      have later := ih fun q member => h q (List.mem_cons_of_mem part member)
      rcases h part (by simp) with rfl | ⟨s, name, rfl⟩
      · cases names with
        | nil => exact later [] good
        | cons top names =>
            exact later names fun q member => good q (List.mem_cons_of_mem top member)
      · refine later (s :: names) fun q member => ?_
        rcases List.mem_cons.mp member with rfl | inside
        · exact name
        · exact good q inside

/-- Names are gathered behind the root, nearest first. -/
theorem foldl_cleanStep_map_name (names seen : List String) :
    (names.map Part.name).foldl cleanStep (seen.map .name ++ [.root]) =
      (names.reverse ++ seen).map .name ++ [.root] := by
  induction names generalizing seen with
  | nil => rfl
  | cons s names ih => simpa [cleanStep] using ih (s :: seen)

theorem cleanParts_names (names : List String) :
    cleanParts (.root :: names.map .name) = .root :: names.map .name := by
  have all := foldl_cleanStep_map_name names []
  simp only [List.map_nil, List.nil_append, List.append_nil] at all
  rw [cleanParts, List.foldl_cons, cleanStep, all]
  · simp
  · simp
  · simp

theorem parts_of_isAbsolute {p : Path} (h : p.isAbsolute = true) :
    p.parts = .root :: partsOf false p.pieces := by
  rw [parts, if_pos h]

theorem slash_notMem_pieces {p : Path} : ∀ piece ∈ p.pieces, '/' ∉ piece := by
  intro piece member
  unfold pieces at member
  split at member <;> exact slash_notMem_of_mem_splitSlash member

/-! ### Canonical paths -/

/-- An absolute path that is spelled by its names alone. -/
def Canonical (p : Path) : Prop :=
  ∃ names : List String, (∀ s ∈ names, IsName s) ∧ p = ofNames names

theorem clean_of_cleanParts {p : Path} {names : List String}
    (h : cleanParts p.parts = .root :: names.map .name) : p.clean = ofNames names := by
  rw [Path.clean, h, ofParts, ofNames, List.map_map]
  rfl

theorem clean_ofNames {names : List String} (h : ∀ s ∈ names, IsName s) :
    (ofNames names).clean = ofNames names :=
  clean_of_cleanParts (by rw [parts_ofNames h, cleanParts_names])

theorem Canonical.clean {p : Path} (h : p.Canonical) : p.clean = p := by
  obtain ⟨names, good, rfl⟩ := h
  exact clean_ofNames good

theorem Canonical.isAbsolute {p : Path} (h : p.Canonical) : p.isAbsolute = true := by
  obtain ⟨names, _, rfl⟩ := h
  exact isAbsolute_ofNames names

/-- Of an absolute path cleaning leaves the root and names. -/
theorem exists_cleanParts {p : Path} (h : p.isAbsolute = true) :
    ∃ names : List String, (∀ s ∈ names, IsName s) ∧
      cleanParts p.parts = .root :: names.map .name := by
  obtain ⟨names, good, gathered⟩ :=
    foldl_cleanStep_names (partsOf false p.pieces)
      (fun _ member => mem_partsOf_false slash_notMem_pieces member) [] (by simp)
  refine ⟨names.reverse, fun s member => good s (List.mem_reverse.mp member), ?_⟩
  rw [parts_of_isAbsolute h, cleanParts, List.foldl_cons]
  change ((partsOf false p.pieces).foldl cleanStep [.root]).reverse = _
  rw [show [Part.root] = ([] : List String).map .name ++ [.root] from rfl, gathered]
  simp

/-- Cleaning gives every absolute path its canonical spelling. -/
theorem canonical_clean {p : Path} (h : p.isAbsolute = true) : p.clean.Canonical := by
  obtain ⟨names, good, cleaned⟩ := exists_cleanParts h
  exact ⟨names, good, clean_of_cleanParts cleaned⟩

/-- A path has one canonical spelling. -/
theorem Canonical.eq_of_same {p q : Path} (hp : p.Canonical) (hq : q.Canonical)
    (h : p.same q = true) : p = q := by
  have parts := (same_iff p q).mp h
  rw [← hp.clean, ← hq.clean, Path.clean, Path.clean, parts]

/-! ### Above a canonical path -/

theorem above_names {names : List String} (h : ∀ s ∈ names, IsName s) (s : String)
    (name : IsName s) :
    above true ((names ++ [s]).map String.toList).reverse =
      (names.map String.toList).reverse :: above true (names.map String.toList).reverse := by
  have idle : ¬isIdle (!true && (names.map String.toList).reverse.isEmpty) s.toList = true := by
    simp [name.isIdle]
  have kept : above.trimEnd true (names.map String.toList).reverse =
      (names.map String.toList).reverse := by
    rcases List.eq_nil_or_concat' names with rfl | ⟨front, last, rfl⟩
    · rfl
    · have lastName : IsName last := h last (by simp)
      simp [above.trimEnd, lastName.isIdle]
  rw [List.map_append, List.reverse_append, List.map_singleton, List.reverse_singleton,
    List.singleton_append, above, if_neg idle, kept]

theorem parents_root : (ofNames []).parents = [] := by
  simp [parents, above, isIdle]

theorem parents_ofNames_append {names : List String} (h : ∀ s ∈ names, IsName s) {s : String}
    (name : IsName s) :
    (ofNames (names ++ [s])).parents = ofNames names :: (ofNames names).parents := by
  have all : ∀ q ∈ names ++ [s], IsName q := by
    intro q member
    rcases List.mem_append.mp member with inside | last
    · exact h q inside
    · exact List.mem_singleton.mp last ▸ name
  rw [parents, isAbsolute_ofNames, pieces_ofNames (by simp) all, above_names h s name,
    List.map_cons, List.reverse_reverse]
  congr 1
  rw [parents, isAbsolute_ofNames]
  cases names with
  | nil => simp [above, isIdle]
  | cons first names => rw [pieces_ofNames (by simp) h]

theorem canonical_of_mem_parents_ofNames {names : List String} (h : ∀ s ∈ names, IsName s)
    {q : Path} (member : q ∈ (ofNames names).parents) : q.Canonical := by
  induction names using List.reverseRecOn with
  | nil => simp [parents_root] at member
  | append_singleton names s ih =>
      have front : ∀ q ∈ names, IsName q := fun q inside => h q (List.mem_append_left _ inside)
      rw [parents_ofNames_append front (h s (by simp)), List.mem_cons] at member
      rcases member with rfl | above
      · exact ⟨names, front, rfl⟩
      · exact ih front above

theorem Canonical.of_mem_ancestors {p q : Path} (h : p.Canonical) (member : q ∈ p.ancestors) :
    q.Canonical := by
  rcases List.mem_cons.mp member with rfl | above
  · exact h
  · obtain ⟨names, good, rfl⟩ := h
    exact canonical_of_mem_parents_ofNames good above

theorem Canonical.of_parent? {p q : Path} (h : p.Canonical) (parent : p.parent? = some q) :
    q.Canonical :=
  h.of_mem_ancestors (List.mem_cons_of_mem p (List.mem_of_mem_head? parent))

end RootedBuild.Path
