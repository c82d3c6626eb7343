import RootedBuild.Proofs.Path.Join

/-!
Names that climb out of the directory they are looked up in. Cleaning takes away a name for every
step upwards, so what is left of the directory is the one some levels above, and that is all that a
file below it still shows of the directory. A name that never climbs shows it whole.
-/
namespace RootedBuild.Path

/-- The steps upwards that cleaning leaves at the start of a relative path. -/
def climbs (p : Path) : Nat := (cleanParts p.parts).count .up

/-- The directory so many levels above, or the root where there are not as many. -/
def levelsUp (dir : Path) (levels : Nat) : Path := (dir.ancestors[levels]?).getD (ofNames [])

@[simp] theorem levelsUp_zero (dir : Path) : dir.levelsUp 0 = dir := rfl

/-! ### Cleaning behind a directory -/

/-- Cleaned as a relative path, parts leave some steps upwards and names behind them. Behind a
directory the same parts leave the same names, and each step upwards has taken a name of the
directory away. Names are given nearest first. -/
theorem foldl_cleanStep_climb (parts : List Part)
    (h : ∀ part ∈ parts, part = .up ∨ ∃ s, IsName s ∧ part = .name s) (names : List String)
    (good : ∀ s ∈ names, IsName s) (levels : Nat) :
    ∃ (names' : List String) (levels' : Nat), (∀ s ∈ names', IsName s) ∧
      parts.foldl cleanStep (names.map .name ++ .replicate levels .up) =
        names'.map .name ++ .replicate levels' .up ∧
      ∀ dir : List String,
        parts.foldl cleanStep (names.map .name ++ ((dir.drop levels).map .name ++ [.root])) =
          names'.map .name ++ ((dir.drop levels').map .name ++ [.root]) := by
  induction parts generalizing names levels with
  | nil => exact ⟨names, levels, good, rfl, fun _ => rfl⟩
  | cons part parts ih =>
      have later := ih fun q member => h q (List.mem_cons_of_mem part member)
      rcases h part (by simp) with rfl | ⟨s, name, rfl⟩
      · cases names with
        | cons top names =>
            exact later names (fun q member => good q (List.mem_cons_of_mem top member)) levels
        | nil =>
            -- nothing is left to take away but what stands before
            obtain ⟨names', levels', good', relative, behind⟩ := later [] good (levels + 1)
            refine ⟨names', levels', good', ?_, fun dir => ?_⟩
            · rw [← relative]
              cases levels <;> rfl
            · rw [← behind dir, ← List.tail_drop]
              cases dir.drop levels <;> rfl
      · refine later (s :: names) (fun q member => ?_) levels
        rcases List.mem_cons.mp member with rfl | inside
        · exact name
        · exact good q inside

theorem foldl_cleanStep_partsOf (pieces : List (List Char)) (cleaned : List Part) :
    (partsOf true pieces).foldl cleanStep cleaned =
      (partsOf false pieces).foldl cleanStep cleaned := by
  cases pieces with
  | nil => rfl
  | cons piece rest =>
      by_cases dot : piece = ['.']
      · simp [partsOf, isIdle, dot, partOf, cleanStep]
      · simp [partsOf, isIdle, dot]

theorem parts_of_not_isAbsolute {p : Path} (h : p.isAbsolute = false) :
    p.parts = partsOf true (splitSlash p.text.toList) := by
  rw [parts, if_neg (by simp [h])]
  unfold pieces
  split
  · rename_i cs spelled
    simp [isAbsolute, spelled] at h
  · rfl

/-- What a relative name means below a directory: some names, behind what is left of the directory
when the name has climbed. -/
theorem exists_clean_child {name : String} (relative : (⟨name⟩ : Path).isAbsolute = false) :
    ∃ tail : List String, (∀ s ∈ tail, IsName s) ∧
      ∀ dir : List String, (∀ s ∈ dir, IsName s) → ((ofNames dir).child name).clean =
        ofNames (dir.take (dir.length - (⟨name⟩ : Path).climbs) ++ tail) := by
  obtain ⟨names, levels, good, alone, behind⟩ :=
    foldl_cleanStep_climb (partsOf false (splitSlash name.toList))
      (fun _ => mem_partsOf_false fun _ => slash_notMem_of_mem_splitSlash) [] (by simp) 0
  have steps : (⟨name⟩ : Path).climbs = levels := by
    rw [climbs, cleanParts, parts_of_not_isAbsolute relative, foldl_cleanStep_partsOf]
    simp only [List.map_nil, List.replicate_zero, List.append_nil] at alone
    rw [alone, List.count_reverse, List.count_append, List.count_replicate_self,
      List.count_eq_zero_of_not_mem (by simp), Nat.zero_add]
  refine ⟨names.reverse, fun s member => good s (List.mem_reverse.mp member), fun dir inside => ?_⟩
  have start : (ofNames dir).parts.foldl cleanStep [] = dir.reverse.map .name ++ [.root] := by
    have whole := congrArg List.reverse (cleanParts_names dir)
    rw [cleanParts, List.reverse_reverse, ← parts_ofNames inside] at whole
    rw [whole, parts_ofNames inside]
    simp
  have cleaned : cleanParts ((ofNames dir).child name).parts =
      .root :: (dir.take (dir.length - levels) ++ names.reverse).map .name := by
    have all := behind dir.reverse
    simp only [List.map_nil, List.nil_append, List.drop_zero] at all
    rw [cleanParts, child, parts_join (isAbsolute_ofNames dir) relative, List.foldl_append, start,
      all]
    simp [List.drop_reverse]
  rw [steps, clean_of_cleanParts cleaned]

/-! ### What a file below a directory shows of it -/

theorem ofNames_injective {names names' : List String} (h : ∀ s ∈ names, IsName s)
    (h' : ∀ s ∈ names', IsName s) (same : ofNames names = ofNames names') : names = names' := by
  have parts := congrArg Path.parts same
  rw [parts_ofNames h, parts_ofNames h', List.cons_inj_right] at parts
  exact List.map_injective_iff.mpr (fun _ _ => Part.name.inj) parts

theorem levelsUp_ofNames {names : List String} (h : ∀ s ∈ names, IsName s) (levels : Nat) :
    (ofNames names).levelsUp levels = ofNames (names.take (names.length - levels)) := by
  unfold levelsUp ancestors
  induction names using List.reverseRecOn generalizing levels with
  | nil => cases levels <;> simp [parents_root]
  | append_singleton names s ih =>
      have front : ∀ q ∈ names, IsName q := fun q inside => h q (List.mem_append_left _ inside)
      rw [parents_ofNames_append front (h s (by simp))]
      cases levels with
      | zero => rw [Nat.sub_zero, List.take_length]; rfl
      | succ levels =>
          rw [List.getElem?_cons_succ, ih front, List.length_append, List.length_singleton,
            Nat.add_sub_add_right, List.take_append_of_le_length (Nat.sub_le _ _)]

variable {d e : Path} {name : String}

/-- One text below two directories. -/
theorem Canonical.child_eq_iff (hd : d.Canonical) (he : e.Canonical) :
    d.child name = e.child name ↔ (⟨name⟩ : Path).isAbsolute = true ∨ d = e := by
  rw [← hd.same_child_iff he]
  constructor
  · intro equal
    rw [equal]
    exact same_self _
  · exact hd.child_eq_of_same he

/-- One file below two directories. -/
theorem Canonical.clean_child_eq_iff (hd : d.Canonical) (he : e.Canonical) :
    (d.child name).clean = (e.child name).clean ↔ (⟨name⟩ : Path).isAbsolute = true ∨
      d.levelsUp (⟨name⟩ : Path).climbs = e.levelsUp (⟨name⟩ : Path).climbs := by
  cases relative : (⟨name⟩ : Path).isAbsolute with
  | true => simp [child, join_of_isAbsolute relative]
  | false =>
      obtain ⟨tail, goodTail, below⟩ := exists_clean_child relative
      obtain ⟨names, good, rfl⟩ := hd
      obtain ⟨others, goodOthers, rfl⟩ := he
      rw [below names good, below others goodOthers, levelsUp_ofNames good,
        levelsUp_ofNames goodOthers]
      have left {names : List String} (h : ∀ s ∈ names, IsName s) (n : Nat) :
          ∀ s ∈ names.take n, IsName s := fun s member => h s (List.mem_of_mem_take member)
      have whole {names : List String} (h : ∀ s ∈ names, IsName s) :
          ∀ s ∈ names ++ tail, IsName s := fun s member =>
        (List.mem_append.mp member).elim (h s) (goodTail s)
      constructor
      · intro same
        have names := ofNames_injective (whole (left good _)) (whole (left goodOthers _)) same
        exact .inr (congrArg ofNames (List.append_cancel_right names))
      · rintro (⟨⟨⟩⟩ | same)
        rw [ofNames_injective (left good _) (left goodOthers _) same]

/-- Names that climb are the same file below some two directories; names that do not are not. -/
theorem forall_clean_child_iff (name : String) :
    (∀ d e : Path, d.Canonical → e.Canonical → (d.child name).clean = (e.child name).clean →
      d.child name = e.child name) ↔
      (⟨name⟩ : Path).isAbsolute = true ∨ (⟨name⟩ : Path).climbs = 0 := by
  constructor
  · intro shown
    by_contra neither
    rw [not_or] at neither
    obtain ⟨relative, climbing⟩ := neither
    obtain ⟨levels, climb⟩ := Nat.exists_eq_succ_of_ne_zero climbing
    have nameA : ∀ s ∈ ["a"], IsName s := by simpa using ⟨by decide, by decide, by decide, by decide⟩
    have nameB : ∀ s ∈ ["b"], IsName s := by simpa using ⟨by decide, by decide, by decide, by decide⟩
    have a : (ofNames ["a"]).Canonical := ⟨_, nameA, rfl⟩
    have b : (ofNames ["b"]).Canonical := ⟨_, nameB, rfl⟩
    have up : (ofNames ["a"]).levelsUp (⟨name⟩ : Path).climbs =
        (ofNames ["b"]).levelsUp (⟨name⟩ : Path).climbs := by
      rw [levelsUp_ofNames nameA, levelsUp_ofNames nameB, climb]
      simp
    have texts := shown _ _ a b ((a.clean_child_eq_iff b).mpr (.inr up))
    rcases (a.child_eq_iff b).mp texts with absolute | same
    · exact relative absolute
    · exact absurd (ofNames_injective nameA nameB same) (by decide)
  · rintro (absolute | flat) d e hd he same
    · exact (hd.child_eq_iff he).mpr (.inl absolute)
    · rw [hd.clean_child_eq_iff he, flat, levelsUp_zero, levelsUp_zero] at same
      exact (hd.child_eq_iff he).mpr same

end RootedBuild.Path
