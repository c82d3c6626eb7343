import RootedBuild.Proofs.Path.Join

/-!
Paths in which no step goes upwards. They may be spelled with empty pieces and dots, but their parts
are names only, so the paths above them, and plain names behind them, are again of this kind, and
two of them with the same clean spelling are the same path. With a step upwards that is not so:
`/a/../b` is cleaned to `/b` and is another path.
-/
namespace RootedBuild.Path

/-! ### Paths above and behind -/

theorem mem_partsOf_false_iff {pieces : List (List Char)} {part : Part} :
    part ∈ partsOf false pieces ↔
      ∃ piece ∈ pieces, isIdle false piece = false ∧ partOf piece = part := by
  induction pieces with
  | nil => simp [partsOf]
  | cons piece rest ih =>
      cases idle : isIdle false piece with
      | true => simp [partsOf, idle, ih]
      | false =>
          simp only [partsOf, idle, Bool.false_eq_true, if_false, List.mem_cons, ih]
          constructor
          · rintro (rfl | ⟨other, inside, found⟩)
            · exact ⟨piece, .inl rfl, idle, rfl⟩
            · exact ⟨other, .inr inside, found⟩
          · rintro ⟨other, rfl | inside, notIdle, rfl⟩
            · exact .inl rfl
            · exact .inr ⟨other, inside, notIdle, rfl⟩

/-- What stands in a path above another one stands in that. -/
theorem subset_of_mem_above {pieces upper : List (List Char)} (member : upper ∈ above true pieces) :
    upper ⊆ pieces := by
  have trimmed (pieces : List (List Char)) : above.trimEnd true pieces ⊆ pieces := by
    induction pieces with
    | nil => simp [above.trimEnd]
    | cons piece rest ih =>
        rw [above.trimEnd]
        split
        · exact fun q inside => List.mem_cons_of_mem piece (ih inside)
        · exact fun q inside => inside
  induction pieces with
  | nil => simp [above] at member
  | cons piece rest ih =>
      rw [above] at member
      split at member
      · exact fun q inside => List.mem_cons_of_mem piece (ih member inside)
      · rcases List.mem_cons.mp member with rfl | later
        · exact fun q inside => List.mem_cons_of_mem piece (trimmed rest inside)
        · exact fun q inside => List.mem_cons_of_mem piece (ih later inside)

theorem isAbsolute_ofPieces (pieces : List (List Char)) :
    (ofPieces true pieces).isAbsolute = true := by
  simp [ofPieces, isAbsolute]

theorem pieces_ofPieces {pieces : List (List Char)} (whole : ∀ piece ∈ pieces, '/' ∉ piece) :
    (ofPieces true pieces).pieces = if pieces = [] then [[]] else pieces := by
  have spelled : (ofPieces true pieces).text.toList = '/' :: joinSlash pieces := by simp [ofPieces]
  rw [pieces_of_toList spelled]
  split
  · rename_i empty
    rw [empty]
    rfl
  · rename_i nonempty
    exact splitSlash_joinSlash nonempty whole

theorem of_mem_ancestors {p q : Path} (h : p.isAbsolute = true) (member : q ∈ p.ancestors) :
    q.isAbsolute = true ∧ q.parts ⊆ p.parts := by
  rcases List.mem_cons.mp member with rfl | above
  · exact ⟨h, fun part inside => inside⟩
  · rw [parents, h, List.mem_map] at above
    obtain ⟨upper, inside, rfl⟩ := above
    have subset : upper.reverse ⊆ p.pieces := fun piece member =>
      List.mem_reverse.mp (subset_of_mem_above inside (List.mem_reverse.mp member))
    refine ⟨isAbsolute_ofPieces _, ?_⟩
    rw [parts_of_isAbsolute (isAbsolute_ofPieces _), parts_of_isAbsolute h,
      pieces_ofPieces fun piece member => slash_notMem_pieces piece (subset member)]
    intro part member
    rcases List.mem_cons.mp member with rfl | behind
    · exact List.mem_cons_self ..
    · apply List.mem_cons_of_mem
      obtain ⟨piece, found, notIdle, rfl⟩ := mem_partsOf_false_iff.mp behind
      split at found
      · rw [List.mem_singleton.mp found] at notIdle
        cases notIdle
      · exact mem_partsOf_false_iff.mpr ⟨piece, subset found, notIdle, rfl⟩

theorem splitSlash_append_of_slash_notMem (cs : List Char) {ds : List Char} (h : '/' ∉ ds) :
    ∃ front last, splitSlash cs = front ++ [last] ∧
      splitSlash (cs ++ ds) = front ++ [last ++ ds] := by
  induction cs with
  | nil => exact ⟨[], [], rfl, splitSlash_of_slash_notMem h⟩
  | cons c cs ih =>
      obtain ⟨front, last, split, joined⟩ := ih
      by_cases slash : c = '/'
      · exact ⟨[] :: front, last, by simp [splitSlash, slash, split],
          by simp [splitSlash, slash, joined]⟩
      · cases front with
        | nil =>
            exact ⟨[], c :: last, by simp_all [splitSlash], by simp_all [splitSlash]⟩
        | cons piece front =>
            exact ⟨(c :: piece) :: front, last, by simp_all [splitSlash], by simp_all [splitSlash]⟩

/-! ### Paths without a step upwards -/

/-- An absolute path in which no step goes upwards. -/
structure Tidy (p : Path) : Prop where
  absolute : p.isAbsolute = true
  noStep : .up ∉ p.parts

theorem Tidy.of_mem_ancestors {p q : Path} (h : p.Tidy) (member : q ∈ p.ancestors) : q.Tidy :=
  have above := Path.of_mem_ancestors h.absolute member
  ⟨above.1, fun inside => h.noStep (above.2 inside)⟩

theorem Canonical.tidy {p : Path} (h : p.Canonical) : p.Tidy := by
  refine ⟨h.isAbsolute, ?_⟩
  obtain ⟨names, good, rfl⟩ := h
  rw [parts_ofNames good]
  simp

theorem isAbsolute_append {p : Path} (h : p.isAbsolute = true) (suffix : String) :
    (p.append suffix).isAbsolute = true := by
  obtain ⟨cs, spelled⟩ := (isAbsolute_iff p).mp h
  exact (isAbsolute_iff _).mpr ⟨cs ++ suffix.toList, by simp [append, spelled]⟩

/-- An extension can only make a name of the last piece. -/
theorem up_notMem_append_json {p : Path} (h : p.isAbsolute = true) (noStep : .up ∉ p.parts) :
    .up ∉ (p.append ".json").parts := by
  obtain ⟨cs, spelled⟩ := (isAbsolute_iff p).mp h
  have longer : (p.append ".json").text.toList = '/' :: (cs ++ ".json".toList) := by
    simp [append, spelled]
  have noSlash : '/' ∉ ".json".toList := by decide
  obtain ⟨front, last, split, joined⟩ := splitSlash_append_of_slash_notMem cs noSlash
  rw [parts_of_isAbsolute h, pieces_of_toList spelled, split] at noStep
  rw [parts_of_isAbsolute (isAbsolute_append h _), pieces_of_toList longer, joined]
  intro member
  rcases List.mem_cons.mp member with root | behind
  · cases root
  · obtain ⟨piece, found, notIdle, up⟩ := mem_partsOf_false_iff.mp behind
    rcases List.mem_append.mp found with inside | ends
    · apply noStep
      apply List.mem_cons_of_mem
      exact mem_partsOf_false_iff.mpr ⟨piece, List.mem_append_left _ inside, notIdle, up⟩
    · rw [List.mem_singleton.mp ends] at up
      have other (short : List Char) (few : short.length < 5) :
          last ++ ".json".toList ≠ short := by
        rintro rfl
        rw [List.length_append] at few
        exact absurd few (Nat.not_lt.mpr (Nat.le_add_left 5 last.length))
      simp only [partOf, beq_iff_eq, other ['.', '.'] (by decide), other ['.'] (by decide),
        if_false] at up
      cases up

theorem Tidy.append_json {p : Path} (h : p.Tidy) : (p.append ".json").Tidy :=
  ⟨isAbsolute_append h.absolute _, up_notMem_append_json h.absolute h.noStep⟩

theorem Tidy.child {p : Path} (h : p.Tidy) {name : String}
    (relative : (⟨name⟩ : Path).isAbsolute = false)
    (noStep : .up ∉ partsOf false (splitSlash name.toList)) : (p.child name).Tidy := by
  refine ⟨isAbsolute_join h.absolute, ?_⟩
  rw [Path.child, parts_join h.absolute relative, List.mem_append, not_or]
  exact ⟨h.noStep, noStep⟩

/-- Without steps upwards a path consists of names. -/
theorem Tidy.names {p : Path} (h : p.Tidy) :
    ∃ names : List String, (∀ s ∈ names, IsName s) ∧ p.parts = .root :: names.map .name := by
  have named : ∀ part ∈ partsOf false p.pieces, ∃ s, IsName s ∧ part = .name s := by
    intro part member
    rcases mem_partsOf_false slash_notMem_pieces member with rfl | name
    · have inside : Part.up ∈ p.parts := by
        rw [parts_of_isAbsolute h.absolute]
        exact List.mem_cons_of_mem _ member
      exact absurd inside h.noStep
    · exact name
  have list (parts : List Part) (all : ∀ part ∈ parts, ∃ s, IsName s ∧ part = .name s) :
      ∃ names : List String, (∀ s ∈ names, IsName s) ∧ parts = names.map .name := by
    induction parts with
    | nil => exact ⟨[], by simp, rfl⟩
    | cons part parts ih =>
        obtain ⟨s, name, rfl⟩ := all part (by simp)
        obtain ⟨names, good, rfl⟩ := ih fun q member => all q (List.mem_cons_of_mem _ member)
        refine ⟨s :: names, ?_, rfl⟩
        intro q member
        rcases List.mem_cons.mp member with rfl | inside
        · exact name
        · exact good q inside
  obtain ⟨names, good, behind⟩ := list _ named
  exact ⟨names, good, by rw [parts_of_isAbsolute h.absolute, behind]⟩

theorem clean_eq_of_same {p q : Path} (h : p.same q = true) : p.clean = q.clean := by
  rw [clean, clean, (same_iff p q).mp h]

/-- Without steps upwards the clean spelling tells which path it is. -/
theorem Tidy.clean_eq_iff {p q : Path} (hp : p.Tidy) (hq : q.Tidy) :
    p.clean = q.clean ↔ p.same q = true := by
  have parts {r : Path} (hr : r.Tidy) : r.clean.parts = r.parts := by
    obtain ⟨names, good, parts⟩ := hr.names
    rw [parts, ← parts_ofNames good, clean, parts, ← parts_ofNames good]
    exact congrArg Path.parts (clean_ofNames good)
  constructor
  · intro same
    rw [same_iff, ← parts hp, ← parts hq, same]
  · exact clean_eq_of_same

end RootedBuild.Path
