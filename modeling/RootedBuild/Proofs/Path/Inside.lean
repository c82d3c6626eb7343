import RootedBuild.Proofs.Path.Above
import RootedBuild.Proofs.Path.Relative

/-!
Inside of a directory, and below it. Of two absolute paths in any spelling the second lies inside
the first exactly if the way to it starts with no step upwards; the way is then the names that the
second has behind the first. So a way down can be broken at every directory that it passes.
-/
namespace RootedBuild.Path

/-! ### The first step -/

/-- A text of a path that begins with a step upwards, or is nothing else. -/
def StartsUpwards (shown : String) : Prop := shown = ".." ∨ ∃ rest, shown = "../" ++ rest

theorem startsUpwards_iff_head? (shown : String) :
    StartsUpwards shown ↔ (splitSlash shown.toList).head? = some ['.', '.'] := by
  rw [StartsUpwards, ← String.toList_inj]
  constructor
  · rintro (whole | ⟨rest, rfl⟩)
    · rw [whole]
      rfl
    · rw [String.toList_append]
      change (splitSlash (['.', '.'] ++ '/' :: rest.toList)).head? = _
      rw [splitSlash_append_cons]
      rfl
  · intro first
    obtain ⟨rest, split⟩ := List.head?_eq_some_iff.mp first
    have joined := joinSlash_splitSlash shown.toList
    rw [split] at joined
    cases rest with
    | nil => exact .inl joined.symm
    | cons next rest =>
        refine .inr ⟨String.ofList (joinSlash (next :: rest)), String.toList_inj.mp ?_⟩
        rw [← joined]
        simp [joinSlash]

theorem partOf_eq_up_iff (piece : List Char) : partOf piece = .up ↔ piece = ['.', '.'] := by
  by_cases dot : piece = ['.']
  · simp [partOf, dot]
  · by_cases up : piece = ['.', '.'] <;> simp [partOf, dot, up]

/-- The first piece of a relative path is its first part, unless the path is empty. -/
theorem head?_partsOf_true {piece : List Char} (nonempty : piece ≠ []) (rest : List (List Char)) :
    (partsOf true (piece :: rest)).head? = some (partOf piece) := by
  simp [partsOf, isIdle, nonempty]

theorem startsUpwards_iff (shown : String) :
    StartsUpwards shown ↔ (⟨shown⟩ : Path).parts.head? = some .up := by
  rw [startsUpwards_iff_head?]
  obtain ⟨piece, rest, split⟩ := List.exists_cons_of_ne_nil (splitSlash_ne_nil shown.toList)
  have joined := joinSlash_splitSlash shown.toList
  rw [split] at joined ⊢
  by_cases absolute : (⟨shown⟩ : Path).isAbsolute = true
  · obtain ⟨cs, spelled⟩ := (isAbsolute_iff _).mp absolute
    have empty : piece = [] := by
      rw [show shown.toList = '/' :: cs from spelled, splitSlash, if_pos rfl] at split
      exact (List.cons.inj split).1.symm
    rw [parts_of_isAbsolute absolute, empty]
    simp
  · rw [Bool.not_eq_true] at absolute
    rw [parts_of_not_isAbsolute absolute, split]
    cases piece with
    | nil =>
        cases rest with
        | nil => simp [partsOf, isIdle]
        | cons next rest =>
            have rooted := (isAbsolute_iff ⟨shown⟩).mpr ⟨_, joined.symm⟩
            rw [absolute] at rooted
            cases rooted
    | cons c cs =>
        rw [head?_partsOf_true (List.cons_ne_nil c cs), List.head?_cons, Option.some_inj,
          Option.some_inj, partOf_eq_up_iff]

/-! ### Ways down -/

variable {levels : Nat} {names left right common left' right' : List String} {dir p q : Path}

/-- A way of steps and names starts upwards if it has any steps. -/
theorem startsUpwards_climbing (named : ∀ s ∈ names, IsName s) :
    StartsUpwards (climbing levels names) ↔ levels ≠ 0 := by
  rw [startsUpwards_iff_head?]
  rcases splitSlash_climbing levels named with ⟨rfl, rfl⟩ | pieces
  · simp [climbing, splitSlash]
  · rw [pieces]
    cases levels with
    | succ levels => simp [List.replicate_succ]
    | zero =>
        cases names with
        | nil => simp
        | cons s names => simpa using (named s (by simp)).not_up

theorem Fork.left_eq_nil_iff (h : Fork left right common left' right') :
    left' = [] ↔ left <+: right := by
  constructor
  · intro none
    exact ⟨right', by rw [h.left_eq, h.right_eq, none, List.append_nil]⟩
  · intro inside
    have short := h.length_le List.prefix_rfl inside
    rw [h.left_eq, List.length_append] at short
    exact List.length_eq_zero_iff.mp (by omega)

theorem Fork.named (h : Fork left right common left' right') (hr : ∀ s ∈ right, IsName s) :
    ∀ s ∈ right', IsName s :=
  fun s member => hr s (h.right_eq ▸ List.mem_append_right common member)

theorem isInside_iff_exists_append (hl : ∀ s ∈ left, IsName s) (hr : ∀ s ∈ right, IsName s)
    (hd : dir.clean = ofNames left) (hp : p.clean = ofNames right) :
    dir.isInside p = true ↔ left <+: right := by
  rw [isInside, hd, hp]
  exact startsWith_ofNames hr hl

/-- What lies inside a directory is reached without a step upwards, and nothing else is. -/
theorem isInside_iff_not_startsUpwards (hd : dir.isAbsolute = true) (hp : p.isAbsolute = true) :
    dir.isInside p = true ↔ ¬StartsUpwards (dir.relativeTo p) := by
  obtain ⟨left, hl, cleanLeft⟩ := canonical_clean hd
  obtain ⟨right, hr, cleanRight⟩ := canonical_clean hp
  obtain ⟨common, left', right', fork⟩ := exists_fork left right
  rw [isInside_iff_exists_append hl hr cleanLeft cleanRight, ← fork.left_eq_nil_iff,
    relativeTo_of_fork hl hr cleanLeft cleanRight fork, startsUpwards_climbing (fork.named hr),
    not_not, List.length_eq_zero_iff]

/-! ### Strictly below -/

/-- `p` lies inside `dir` and is another path. -/
structure Below (dir p : Path) : Prop where
  inside : dir.isInside p = true
  apart : p.clean ≠ dir.clean

/-- Of a path below a directory the names behind those of the directory are left. -/
theorem Below.exists_names (h : Below dir p) (hp : p.isAbsolute = true)
    (hl : ∀ s ∈ left, IsName s) (hd : dir.clean = ofNames left) :
    ∃ rest, rest ≠ [] ∧ (∀ s ∈ left ++ rest, IsName s) ∧ p.clean = ofNames (left ++ rest) := by
  obtain ⟨right, hr, clean⟩ := canonical_clean hp
  obtain ⟨rest, rfl⟩ := (isInside_iff_exists_append hl hr hd clean).mp h.inside
  refine ⟨rest, ?_, hr, clean⟩
  rintro rfl
  exact h.apart (by rw [clean, hd, List.append_nil])

/-- The way down is spelled by the names behind those of the directory. -/
theorem relativeTo_of_names (named : ∀ s ∈ left ++ right, IsName s)
    (hd : dir.clean = ofNames left) (hp : p.clean = ofNames (left ++ right)) :
    dir.relativeTo p = climbing 0 right := by
  have fork : Fork left (left ++ right) left [] right := ⟨by simp, rfl, by simp⟩
  exact relativeTo_of_fork (fun s member => named s (List.mem_append_left right member)) named hd hp
    fork

theorem climbing_zero_append (hl : left ≠ []) (hr : right ≠ []) :
    climbing 0 (left ++ right) = climbing 0 left ++ "/" ++ climbing 0 right := by
  simp only [climbing, List.replicate_zero, List.nil_append]
  exact String.intercalate_append_of_ne_nil hl hr

/-- The way to a path below a directory leads through every directory between the two. -/
theorem relativeTo_below (hd : dir.isAbsolute = true) (hp : p.isAbsolute = true)
    (hq : q.isAbsolute = true) (first : Below dir p) (second : Below p q) :
    dir.relativeTo q = dir.relativeTo p ++ "/" ++ p.relativeTo q := by
  obtain ⟨left, hl, cleanDir⟩ := canonical_clean hd
  obtain ⟨front, nonempty, named, cleanP⟩ := first.exists_names hp hl cleanDir
  obtain ⟨rest, nonempty', named', cleanQ⟩ := second.exists_names hq named cleanP
  have whole : q.clean = ofNames (left ++ (front ++ rest)) := by rw [cleanQ, List.append_assoc]
  rw [relativeTo_of_names named cleanDir cleanP, relativeTo_of_names named' cleanP cleanQ,
    relativeTo_of_names (List.append_assoc left front rest ▸ named') cleanDir whole,
    climbing_zero_append nonempty nonempty']

/-- A step upwards and nothing else leads to a path that the directory is below. -/
theorem below_of_relativeTo_eq_up (hd : dir.isAbsolute = true) (hp : p.isAbsolute = true)
    (shown : dir.relativeTo p = "..") : Below p dir := by
  obtain ⟨left, hl, cleanLeft⟩ := canonical_clean hd
  obtain ⟨right, hr, cleanRight⟩ := canonical_clean hp
  obtain ⟨common, left', right', fork⟩ := exists_fork left right
  have steps : left'.length ≠ 0 ∧ left'.length + right'.length = 1 := by
    rw [relativeTo_of_fork hl hr cleanLeft cleanRight fork] at shown
    have upwards := (startsUpwards_climbing (fork.named hr)).mp (.inl shown)
    rcases splitSlash_climbing left'.length (fork.named hr) with ⟨none, -⟩ | pieces
    · exact absurd none upwards
    · rw [shown] at pieces
      have count := congrArg List.length pieces
      rw [List.length_append, List.length_replicate, List.length_map] at count
      exact ⟨upwards, count.symm⟩
  have whole : right = common := by
    rw [fork.right_eq, List.length_eq_zero_iff.mp (show right'.length = 0 by omega),
      List.append_nil]
  refine ⟨(isInside_iff_exists_append hr hl cleanRight cleanLeft).mpr ?_, fun same => ?_⟩
  · exact ⟨left', by rw [whole, fork.left_eq]⟩
  · rw [cleanLeft, cleanRight] at same
    have names := ofNames_injective hl hr same
    rw [fork.left_eq, whole, List.append_right_eq_self] at names
    exact steps.1 (List.length_eq_zero_iff.mpr names)

end RootedBuild.Path
