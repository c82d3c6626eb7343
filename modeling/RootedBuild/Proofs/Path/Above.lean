import RootedBuild.Proofs.Path.Climb
import RootedBuild.Proofs.Path.Tidy

/-!
The directories above a path, told by parts. Those above a canonical path are the canonical paths
that it starts with, each once and the longest first, so a search through them finds the deepest.
The parent of any absolute path has all its parts but the last, however the two are spelled.
-/
namespace RootedBuild.Path

/-! ### One path at or above another -/

theorem startsWith_self (p : Path) : p.startsWith p = true := by
  rw [startsWith]
  exact List.isPrefixOf_iff_prefix.mpr List.prefix_rfl

theorem startsWith_trans {p q r : Path} (h : p.startsWith q = true) (h' : q.startsWith r = true) :
    p.startsWith r = true := by
  rw [startsWith, List.isPrefixOf_iff_prefix] at h h' ⊢
  exact h'.trans h

/-- Two canonical paths that start with one another are one. -/
theorem Canonical.eq_of_startsWith {p q : Path} (hp : p.Canonical) (hq : q.Canonical)
    (h : p.startsWith q = true) (h' : q.startsWith p = true) : p = q := by
  rw [startsWith, List.isPrefixOf_iff_prefix] at h h'
  exact hp.eq_of_same hq ((same_iff p q).mpr (h'.eq_of_length_le h.length_le))

theorem startsWith_ofNames {names others : List String} (h : ∀ s ∈ names, IsName s)
    (h' : ∀ s ∈ others, IsName s) :
    (ofNames names).startsWith (ofNames others) = true ↔ others <+: names := by
  have injective : Function.Injective Part.name := fun _ _ => Part.name.inj
  rw [startsWith, List.isPrefixOf_iff_prefix, parts_ofNames h, parts_ofNames h',
    List.prefix_cons_inj, List.prefix_map_iff_of_injective injective]

/-- The directories at or above a canonical path are the canonical paths that it starts with. -/
theorem Canonical.mem_ancestors_iff {p q : Path} (h : p.Canonical) :
    q ∈ p.ancestors ↔ q.Canonical ∧ p.startsWith q = true := by
  obtain ⟨names, good, rfl⟩ := h
  -- a directory above drops the last name
  induction names using List.reverseRecOn with
  | nil =>
      rw [ancestors, parents_root, List.mem_singleton]
      constructor
      · rintro rfl
        exact ⟨⟨[], good, rfl⟩, startsWith_self _⟩
      · rintro ⟨⟨others, good', rfl⟩, starts⟩
        rw [startsWith_ofNames good good', List.prefix_nil] at starts
        rw [starts]
  | append_singleton names s ih =>
      have front : ∀ q ∈ names, IsName q := fun q inside => good q (List.mem_append_left _ inside)
      rw [ancestors, parents_ofNames_append front (good s (by simp)), List.mem_cons]
      change _ ∨ q ∈ (ofNames names).ancestors ↔ _
      rw [ih front]
      constructor
      · rintro (rfl | ⟨canonical, starts⟩)
        · exact ⟨⟨_, good, rfl⟩, startsWith_self _⟩
        · refine ⟨canonical, startsWith_trans ?_ starts⟩
          exact (startsWith_ofNames good front).mpr (List.prefix_append _ _)
      · rintro ⟨⟨others, good', rfl⟩, starts⟩
        rw [startsWith_ofNames good good', List.prefix_concat_iff] at starts
        rcases starts with whole | shorter
        · exact .inl (congrArg ofNames whole)
        · exact .inr ⟨⟨others, good', rfl⟩, (startsWith_ofNames front good').mpr shorter⟩

/-- The deeper directory comes first. -/
theorem Canonical.pairwise_ancestors {p : Path} (h : p.Canonical) :
    p.ancestors.Pairwise fun q r => q.startsWith r = true := by
  obtain ⟨names, good, rfl⟩ := h
  induction names using List.reverseRecOn with
  | nil =>
      rw [ancestors, parents_root]
      exact List.pairwise_singleton _ _
  | append_singleton names s ih =>
      have front : ∀ q ∈ names, IsName q := fun q inside => good q (List.mem_append_left _ inside)
      have whole : (ofNames (names ++ [s])).Canonical := ⟨_, good, rfl⟩
      have above := parents_ofNames_append front (good s (by simp))
      refine List.pairwise_cons.mpr ⟨?_, ?_⟩
      · intro q member
        exact (whole.mem_ancestors_iff.mp (List.mem_cons_of_mem _ member)).2
      · rw [above]
        exact ih front

/-! ### The parent, whatever the spelling -/

theorem partsOf_trimEnd (pieces : List (List Char)) :
    partsOf false (above.trimEnd true pieces).reverse = partsOf false pieces.reverse := by
  induction pieces with
  | nil => rfl
  | cons piece rest ih =>
      rw [above.trimEnd]
      split
      · rename_i idle
        have idle : isIdle false piece = true := idle
        rw [ih, List.reverse_cons, partsOf_false_append]
        simp [partsOf, idle]
      · rfl

/-- The nearest path above has all parts but the last. -/
theorem above_drops_last (pieces : List (List Char)) {front : List Part} {last : Part}
    (h : partsOf false pieces.reverse = front ++ [last]) :
    ∃ upper uppers, above true pieces = upper :: uppers ∧ partsOf false upper.reverse = front := by
  induction pieces with
  | nil => simp [partsOf] at h
  | cons piece rest ih =>
      rw [List.reverse_cons, partsOf_false_append] at h
      rw [above]
      cases idle : isIdle false piece with
      | true =>
          rw [partsOf, if_pos idle, partsOf, List.append_nil] at h
          rw [if_pos (by simpa using idle)]
          exact ih h
      | false =>
          rw [partsOf, idle, if_neg Bool.false_ne_true, partsOf] at h
          rw [if_neg (by simp [idle])]
          refine ⟨_, _, rfl, ?_⟩
          rw [partsOf_trimEnd]
          exact (List.append_inj' h rfl).1

theorem exists_parent?_of_parts {p : Path} (absolute : p.isAbsolute = true) {front : List Part}
    {last : Part} (h : p.parts = .root :: (front ++ [last])) :
    ∃ q, p.parent? = some q ∧ q.parts = .root :: front := by
  rw [parts_of_isAbsolute absolute, List.cons_inj_right, ← p.pieces.reverse_reverse] at h
  obtain ⟨upper, uppers, nearest, parts⟩ := above_drops_last p.pieces.reverse h
  have member : upper ∈ above true p.pieces.reverse := nearest ▸ List.mem_cons_self ..
  have whole : ∀ piece ∈ upper.reverse, '/' ∉ piece := by
    intro piece inside
    have inside := subset_of_mem_above member (List.mem_reverse.mp inside)
    exact slash_notMem_pieces piece (List.mem_reverse.mp inside)
  refine ⟨ofPieces true upper.reverse, ?_, ?_⟩
  · rw [parent?, parents, absolute, nearest]
    rfl
  · rw [parts_of_isAbsolute (isAbsolute_ofPieces _), pieces_ofPieces whole, ← parts]
    split
    · rename_i empty
      rw [empty]
      rfl
    · rfl

/-- A single name stays one behind a directory, even when it is spelled with slashes at its end. -/
theorem parts_child_of_name {dir : Path} {name s : String} (absolute : dir.isAbsolute = true)
    (single : (⟨name⟩ : Path).parts = [.name s]) :
    (dir.child name).parts = dir.parts ++ [.name s] := by
  have relative : (⟨name⟩ : Path).isAbsolute = false := by
    by_contra rooted
    rw [parts_of_isAbsolute (by simpa using rooted)] at single
    cases (List.cons.inj single).1
  rw [parts_of_not_isAbsolute relative] at single
  rw [child, parts_join absolute relative, List.append_cancel_left_eq]
  cases pieces : splitSlash name.toList with
  | nil => exact absurd pieces (splitSlash_ne_nil _)
  | cons piece rest =>
      rw [pieces] at single
      by_cases dot : piece = ['.']
      · simp [partsOf, isIdle, dot, partOf] at single
      · simpa [partsOf, isIdle, dot] using single

/-- So the directory it was put behind is its parent. -/
theorem exists_parent?_child {dir : Path} {name s : String} (h : dir.Canonical)
    (single : (⟨name⟩ : Path).parts = [.name s]) :
    ∃ q, (dir.child name).parent? = some q ∧ q.parts = dir.parts := by
  have absolute := h.isAbsolute
  have parts := parts_child_of_name absolute single
  rw [parts_of_isAbsolute absolute, List.cons_append] at parts
  rw [parts_of_isAbsolute absolute]
  exact exists_parent?_of_parts (isAbsolute_join absolute) parts

end RootedBuild.Path
