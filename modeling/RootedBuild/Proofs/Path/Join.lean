import RootedBuild.Proofs.Path.Canonical

/-!
The parts of a path that is put behind another one, and what follows for names looked for below
canonical directories: which directory a name was put behind can be read off the parts of the result
unless the name is absolute. Making a path absolute gives its canonical spelling, once and for all.
-/
namespace RootedBuild

namespace Path

theorem isAbsolute_iff (p : Path) : p.isAbsolute = true ↔ ∃ cs, p.text.toList = '/' :: cs := by
  rw [isAbsolute, beq_iff_eq, List.head?_eq_some_iff]

theorem join_of_isAbsolute {p q : Path} (h : q.isAbsolute = true) : p.join q = q := by
  rw [join, if_pos h]

/-- Behind an absolute path stands either its text with the other text right behind it, when it ends
with a slash, or the two with a slash between them. -/
theorem toList_join {p q : Path} (absolute : p.isAbsolute = true) (h : q.isAbsolute = false) :
    (p.join q).text.toList =
      if p.text.toList.getLast? = some '/' then p.text.toList ++ q.text.toList
      else p.text.toList ++ '/' :: q.text.toList := by
  obtain ⟨cs, spelled⟩ := (isAbsolute_iff p).mp absolute
  have nonempty : p.text.isEmpty = false := by
    rw [Bool.eq_false_iff, ne_eq, String.isEmpty_iff]
    rintro empty
    simp [empty] at spelled
  rw [join, if_neg (by simp [h]), nonempty, Bool.false_or]
  by_cases slash : p.text.toList.getLast? = some '/'
  · simp [slash]
  · simp [slash]

theorem isAbsolute_join {p q : Path} (absolute : p.isAbsolute = true) :
    (p.join q).isAbsolute = true := by
  cases h : q.isAbsolute with
  | true => rw [join_of_isAbsolute h, h]
  | false =>
      obtain ⟨cs, spelled⟩ := (isAbsolute_iff p).mp absolute
      rw [isAbsolute_iff, toList_join absolute h, spelled]
      split
      · exact ⟨cs ++ q.text.toList, rfl⟩
      · exact ⟨cs ++ '/' :: q.text.toList, rfl⟩

theorem parts_join {p q : Path} (absolute : p.isAbsolute = true) (h : q.isAbsolute = false) :
    (p.join q).parts = p.parts ++ partsOf false (splitSlash q.text.toList) := by
  obtain ⟨cs, spelled⟩ := (isAbsolute_iff p).mp absolute
  have joined := toList_join absolute h
  rw [parts_of_isAbsolute absolute, parts_of_isAbsolute (isAbsolute_join absolute),
    pieces_of_toList spelled, List.cons_append, ← partsOf_false_append]
  rw [spelled, List.cons_append, List.cons_append] at joined
  congr 1
  split at joined
  · rename_i slash
    rw [pieces_of_toList joined]
    rcases List.eq_nil_or_concat' cs with rfl | ⟨front, last, rfl⟩
    · simp [splitSlash, partsOf, isIdle]
    · have ends : last = '/' := by
        rw [← List.cons_append, List.getLast?_concat] at slash
        exact Option.some.inj slash
      subst ends
      -- the empty piece behind the last slash is no part
      rw [List.append_assoc, List.singleton_append, splitSlash_append_cons, splitSlash_append_cons]
      simp [partsOf_false_append, splitSlash, partsOf, isIdle]
  · rw [pieces_of_toList joined, splitSlash_append_cons]

/-- A name below two canonical directories is one path only if the directories are one, unless the
name does not look at them. -/
theorem Canonical.same_child_iff {p q : Path} (hp : p.Canonical) (hq : q.Canonical)
    {name : String} : (p.child name).same (q.child name) = true ↔
      (⟨name⟩ : Path).isAbsolute = true ∨ p = q := by
  cases absolute : (⟨name⟩ : Path).isAbsolute with
  | true => simp [child, join_of_isAbsolute absolute, same_self]
  | false =>
      rw [same_iff, child, child, parts_join hp.isAbsolute absolute,
        parts_join hq.isAbsolute absolute, List.append_left_inj, ← same_iff]
      constructor
      · intro same
        exact .inr (hp.eq_of_same hq same)
      · rintro (⟨⟨⟩⟩ | rfl)
        exact same_self p

theorem Canonical.child_eq_of_same {p q : Path} (hp : p.Canonical) (hq : q.Canonical)
    {name : String} (h : (p.child name).same (q.child name) = true) :
    p.child name = q.child name := by
  rcases (hp.same_child_iff hq).mp h with absolute | rfl
  · rw [child, child, join_of_isAbsolute absolute, join_of_isAbsolute absolute]
  · rfl

theorem canonical_within {dir p : Path} (h : dir.isAbsolute = true) : (dir.within p).Canonical :=
  canonical_clean (isAbsolute_join h)

end Path

namespace FileTree

variable {t : FileTree}

theorem absolute_congr {t' : FileTree} (same : t'.here = t.here) : t'.absolute = t.absolute := by
  funext p
  rw [absolute, absolute, same]

theorem canonical_absolute (rooted : t.here.isAbsolute = true) (p : Path) :
    (t.absolute p).Canonical := Path.canonical_within rooted

theorem absolute_of_canonical {p : Path} (h : p.Canonical) : t.absolute p = p := by
  rw [absolute, Path.within, Path.join_of_isAbsolute h.isAbsolute, h.clean]

theorem absolute_absolute (rooted : t.here.isAbsolute = true) (p : Path) :
    t.absolute (t.absolute p) = t.absolute p :=
  absolute_of_canonical (canonical_absolute rooted p)

end FileTree

end RootedBuild
