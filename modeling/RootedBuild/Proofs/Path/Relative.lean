import RootedBuild.Diagnostic.Basic
import RootedBuild.Proofs.Path.Climb

/-!
One path seen from another. Of two absolute paths in canonical spelling the names that both start
with are left out; every further name of the first is a step upwards, and the further names of the
second follow. Whoever takes these steps from the first path arrives at the second, and nobody
arrives there with fewer steps upwards or fewer names behind them. Relative paths are not spoken of.
-/
namespace RootedBuild.Path

/-! ### Steps upwards with names behind them -/

/-- So many steps upwards and then the names, with a slash between any two of them. -/
def climbing (levels : Nat) (names : List String) : String :=
  "/".intercalate (List.replicate levels ".." ++ names)

theorem joinSlash_eq_intercalate (pieces : List (List Char)) :
    joinSlash pieces = ['/'].intercalate pieces := by
  induction pieces with
  | nil => rfl
  | cons piece rest ih =>
      cases rest with
      | nil => simp [joinSlash]
      | cons next rest =>
          rw [joinSlash, ih, List.intercalate_cons_cons, List.append_assoc, List.singleton_append]
          simp

theorem toList_climbing (levels : Nat) (names : List String) :
    (climbing levels names).toList =
      joinSlash (List.replicate levels ['.', '.'] ++ names.map String.toList) := by
  rw [climbing, String.toList_intercalate, joinSlash_eq_intercalate, List.map_append,
    List.map_replicate]
  rfl

variable {levels : Nat} {names : List String}

/-- Unless there are none, the pieces of such a text are its steps and its names. -/
theorem splitSlash_climbing (levels : Nat) (named : ∀ s ∈ names, IsName s) :
    (levels = 0 ∧ names = []) ∨ splitSlash (climbing levels names).toList =
      List.replicate levels ['.', '.'] ++ names.map String.toList := by
  by_cases none : List.replicate levels ['.', '.'] ++ names.map String.toList = []
  · left
    simpa using none
  · right
    rw [toList_climbing]
    apply splitSlash_joinSlash none
    intro piece member
    rcases List.mem_append.mp member with step | name
    · simp [List.eq_of_mem_replicate step]
    · obtain ⟨s, inside, rfl⟩ := List.mem_map.mp name
      exact (named s inside).whole

theorem partsOf_false_climbing (named : ∀ s ∈ names, IsName s) :
    partsOf false (splitSlash (climbing levels names).toList) =
      List.replicate levels .up ++ names.map .name := by
  have steps : partsOf false (List.replicate levels ['.', '.']) = List.replicate levels .up := by
    induction levels with
    | zero => rfl
    | succ levels ih => simp [List.replicate_succ, partsOf, isIdle, partOf, ih]
  rcases splitSlash_climbing levels named with ⟨rfl, rfl⟩ | pieces
  · rfl
  · rw [pieces, partsOf_false_append, steps, partsOf_false_names named]

theorem isAbsolute_climbing (named : ∀ s ∈ names, IsName s) :
    (⟨climbing levels names⟩ : Path).isAbsolute = false := by
  rcases splitSlash_climbing levels named with ⟨rfl, rfl⟩ | pieces
  · rfl
  · by_contra absolute
    obtain ⟨cs, spelled⟩ := (isAbsolute_iff _).mp (Bool.not_eq_false _ ▸ absolute)
    -- an absolute text would start with an empty piece
    have empty : [] ∈ List.replicate levels ['.', '.'] ++ names.map String.toList := by
      rw [← pieces, spelled]
      simp [splitSlash]
    rcases List.mem_append.mp empty with step | name
    · cases List.eq_of_mem_replicate step
    · obtain ⟨s, inside, none⟩ := List.mem_map.mp name
      exact (named s inside).nonempty none

/-! ### Where the steps lead -/

theorem foldl_cleanStep_replicate_up (levels : Nat) (gathered : List String) :
    (List.replicate levels Part.up).foldl cleanStep (gathered.map .name ++ [.root]) =
      (gathered.drop levels).map .name ++ [.root] := by
  induction levels generalizing gathered with
  | zero => rfl
  | succ levels ih =>
      cases gathered with
      | nil => exact (ih []).trans (by simp)
      | cons top gathered => exact ih gathered

/-- From an absolute path the steps upwards take away its last names, as long as there are any, and
the names stand behind what is left. -/
theorem clean_join_climbing {origin : Path} {dir : List String}
    (absolute : origin.isAbsolute = true) (spelled : cleanParts origin.parts = .root :: dir.map .name)
    (named : ∀ s ∈ names, IsName s) :
    (origin.join ⟨climbing levels names⟩).clean =
      ofNames (dir.take (dir.length - levels) ++ names) := by
  have start : origin.parts.foldl cleanStep [] = dir.reverse.map .name ++ [.root] := by
    rw [cleanParts, List.reverse_eq_iff] at spelled
    rw [spelled]
    simp
  have cleaned : cleanParts (origin.join ⟨climbing levels names⟩).parts =
      .root :: (dir.take (dir.length - levels) ++ names).map .name := by
    rw [parts_join absolute (isAbsolute_climbing named), partsOf_false_climbing named, cleanParts,
      List.foldl_append, List.foldl_append, start, foldl_cleanStep_replicate_up,
      foldl_cleanStep_map_name]
    simp [List.drop_reverse]
  exact clean_of_cleanParts cleaned

/-! ### Where two paths part -/

/-- Two lists of names with all that both start with written in front. -/
structure Fork (left right common left' right' : List String) : Prop where
  left_eq : left = common ++ left'
  right_eq : right = common ++ right'
  apart : ∀ s, left'.head? = some s → right'.head? ≠ some s

theorem exists_fork (left right : List String) :
    ∃ common left' right', Fork left right common left' right' := by
  induction left generalizing right with
  | nil => exact ⟨[], [], right, rfl, rfl, by simp⟩
  | cons l left ih =>
      cases right with
      | nil => exact ⟨[], l :: left, [], rfl, rfl, by simp⟩
      | cons r right =>
          by_cases shared : l = r
          · obtain ⟨common, left', right', rfl, rfl, apart⟩ := ih right
            exact ⟨l :: common, left', right', rfl, by rw [shared, List.cons_append], apart⟩
          · refine ⟨[], l :: left, r :: right, rfl, rfl, ?_⟩
            rintro s first second
            exact shared (Option.some.inj (first.trans second.symm))

variable {left right common left' right' : List String}

/-- No longer list of names starts both. -/
theorem Fork.length_le (h : Fork left right common left' right') {front : List String}
    (inLeft : front <+: left) (inRight : front <+: right) : front.length ≤ common.length := by
  by_contra longer
  rw [Nat.not_le] at longer
  obtain ⟨rfl, rfl, apart⟩ := h
  have starts : common <+: front :=
    List.prefix_of_prefix_length_le (List.prefix_append common left') inLeft (Nat.le_of_lt longer)
  obtain ⟨rest, rfl⟩ := starts
  cases rest with
  | nil => simp at longer
  | cons s rest =>
      obtain ⟨_, here⟩ := (List.prefix_append_right_inj common).mp inLeft
      obtain ⟨_, there⟩ := (List.prefix_append_right_inj common).mp inRight
      refine apart s ?_ ?_
      · simp [← here]
      · simp [← there]

theorem climb_eq (parts : List Part) : climb parts = List.replicate parts.length .up :=
  List.map_const' ..

theorem Fork.difference (h : Fork left right common left' right') :
    difference (left.map .name) (right.map .name) =
      some (List.replicate left'.length .up ++ right'.map .name) := by
  obtain ⟨rfl, rfl, apart⟩ := h
  induction common with
  | nil =>
      cases left' with
      | nil => cases right' <;> rfl
      | cons l left' =>
          cases right' with
          | nil => simp [Path.difference, climb_eq, List.replicate_succ]
          | cons r right' =>
              have other : l ≠ r := fun same => apart l rfl (by rw [same]; rfl)
              simp [Path.difference, climb_eq, other, List.replicate_succ]
  | cons s common ih => simpa [Path.difference] using ih

theorem relativeTo_of_fork {origin target : Path} (hl : ∀ s ∈ left, IsName s)
    (hr : ∀ s ∈ right, IsName s) (ho : origin.clean = ofNames left)
    (ht : target.clean = ofNames right) (h : Fork left right common left' right') :
    origin.relativeTo target = climbing left'.length right' := by
  have steps : differenceOf origin.clean target.clean =
      some (List.replicate left'.length .up ++ right'.map .name) := by
    rw [ho, ht, differenceOf, isAbsolute_ofNames, isAbsolute_ofNames, beq_self_eq_true,
      if_pos rfl, parts_ofNames hl, parts_ofNames hr, Path.difference, if_pos rfl, h.difference]
  have shown : ((List.replicate left'.length Part.up ++ right'.map Part.name).filter
      (· ≠ Part.here)).map Part.text = List.replicate left'.length ".." ++ right' := by
    rw [List.filter_eq_self.mpr]
    · simp [Part.text, Function.comp_def]
    · intro part member
      rcases List.mem_append.mp member with step | name
      · simp [List.eq_of_mem_replicate step]
      · obtain ⟨s, _, rfl⟩ := List.mem_map.mp name
        simp
  unfold relativeTo
  rw [steps]
  exact congrArg "/".intercalate shown

/-! ### The shortest way -/

/-- So many steps upwards from `origin` and the names behind them arrive at `target`. -/
structure Way (origin target : Path) (levels : Nat) (names : List String) : Prop where
  named : ∀ s ∈ names, IsName s
  arrives : (origin.join ⟨climbing levels names⟩).clean = target.clean

variable {origin target : Path}

theorem Fork.way (h : Fork left right common left' right') (absolute : origin.isAbsolute = true)
    (ho : cleanParts origin.parts = .root :: left.map .name) (hr : ∀ s ∈ right, IsName s)
    (ht : target.clean = ofNames right) : Way origin target left'.length right' := by
  obtain ⟨rfl, rfl, -⟩ := h
  have named : ∀ s ∈ right', IsName s := fun s inside => hr s (List.mem_append_right common inside)
  refine ⟨named, ?_⟩
  rw [clean_join_climbing absolute ho named, ht, List.length_append, Nat.add_sub_cancel,
    List.take_left]

/-- Every way out of one path into another climbs out of all that the two do not share, and ends
with the names of the other that they do not share. -/
theorem Fork.le_of_way (h : Fork left right common left' right')
    (absolute : origin.isAbsolute = true) (hl : ∀ s ∈ left, IsName s)
    (ho : cleanParts origin.parts = .root :: left.map .name) (hr : ∀ s ∈ right, IsName s)
    (ht : target.clean = ofNames right) (way : Way origin target levels names) :
    left'.length ≤ levels ∧ right' <:+ names := by
  obtain ⟨named, arrives⟩ := way
  rw [clean_join_climbing absolute ho named, ht] at arrives
  have kept : ∀ s ∈ left.take (left.length - levels) ++ names, IsName s := by
    intro s member
    rcases List.mem_append.mp member with front | later
    · exact hl s (List.mem_of_mem_take front)
    · exact named s later
  have whole : left.take (left.length - levels) ++ names = right :=
    ofNames_injective kept hr arrives
  have short : (left.take (left.length - levels)).length ≤ common.length :=
    h.length_le (List.take_prefix _ _) ⟨names, whole⟩
  have counted := congrArg List.length whole
  have leftCounted := congrArg List.length h.left_eq
  have rightCounted := congrArg List.length h.right_eq
  simp only [List.length_append, List.length_take] at short counted leftCounted rightCounted
  constructor
  · omega
  · have ends : right' <:+ right := ⟨common, h.right_eq.symm⟩
    have endsToo : names <:+ right := ⟨_, whole⟩
    exact List.suffix_of_suffix_length_le ends endsToo (by omega)

/-- Leaving out pieces makes no text longer. -/
theorem length_joinSlash_le {pieces more : List (List Char)} (h : pieces.Sublist more) :
    (joinSlash pieces).length ≤ (joinSlash more).length := by
  induction h with
  | slnil => exact Nat.le_refl _
  | @cons pieces more piece h ih =>
      refine Nat.le_trans ih ?_
      cases more with
      | nil => simp [joinSlash]
      | cons next more =>
          have behind : (joinSlash (piece :: next :: more)).length =
              piece.length + ((joinSlash (next :: more)).length + 1) := by simp [joinSlash]
          omega
  | @cons_cons pieces more piece h ih =>
      cases pieces with
      | nil => cases more <;> simp [joinSlash]
      | cons first pieces =>
          cases more with
          | nil => cases h
          | cons next more => simpa [joinSlash] using ih

theorem length_climbing_le {levels' : Nat} {names' : List String} (fewer : levels ≤ levels')
    (ending : names <:+ names') :
    (climbing levels names).length ≤ (climbing levels' names').length := by
  rw [← String.length_toList, ← String.length_toList, toList_climbing, toList_climbing]
  apply length_joinSlash_le
  exact ((List.replicate_sublist_replicate _).mpr fewer).append (ending.sublist.map _)

/-- The path shown for a target is steps upwards with names behind them. It arrives at the target,
no other way there is shorter, and only one file is shown by it. -/
theorem relativeTo_leads_back (origin : Path) (absolute : origin.isAbsolute = true) :
    (∀ target : Path, target.isAbsolute = true → ∃ (levels : Nat) (names : List String),
      (∀ s ∈ names, IsName s) ∧
      origin.relativeTo target = climbing levels names ∧
      (⟨origin.relativeTo target⟩ : Path).isAbsolute = false ∧
      (origin.relativeTo target = "" ∨ splitSlash (origin.relativeTo target).toList =
        (List.replicate levels ".." ++ names).map String.toList) ∧
      (origin.join ⟨origin.relativeTo target⟩).clean = target.clean ∧
      ∀ (levels' : Nat) (names' : List String), Way origin target levels' names' →
        levels ≤ levels' ∧ names <:+ names' ∧
          (origin.relativeTo target).length ≤ (climbing levels' names').length) ∧
    ∀ (d e : Diagnostic) (l m : Location), d.location = some l → e.location = some m →
      l.file.isAbsolute = true → m.file.isAbsolute = true →
        (d.shownPath origin = e.shownPath origin ↔ l.file.clean = m.file.clean) := by
  have leads (target : Path) (rooted : target.isAbsolute = true) :
      ∃ (levels : Nat) (names : List String), origin.relativeTo target = climbing levels names ∧
        Way origin target levels names ∧ ∀ (levels' : Nat) (names' : List String),
          Way origin target levels' names' → levels ≤ levels' ∧ names <:+ names' := by
    obtain ⟨left, hl, ho⟩ := exists_cleanParts absolute
    obtain ⟨right, hr, ht⟩ := exists_cleanParts rooted
    obtain ⟨common, left', right', fork⟩ := exists_fork left right
    refine ⟨left'.length, right', ?_, ?_, fun levels' names' way => ?_⟩
    · exact relativeTo_of_fork hl hr (clean_of_cleanParts ho) (clean_of_cleanParts ht) fork
    · exact fork.way absolute ho hr (clean_of_cleanParts ht)
    · exact fork.le_of_way absolute hl ho hr (clean_of_cleanParts ht) way
  constructor
  · intro target rooted
    obtain ⟨levels, names, shown, way, least⟩ := leads target rooted
    refine ⟨levels, names, way.named, shown, ?_, ?_, ?_, fun levels' names' other => ?_⟩
    · rw [shown]
      exact isAbsolute_climbing way.named
    · rcases splitSlash_climbing levels way.named with ⟨rfl, rfl⟩ | pieces
      · exact .inl shown
      · right
        rw [shown, pieces, List.map_append, List.map_replicate]
        rfl
    · rw [shown]
      exact way.arrives
    · obtain ⟨fewer, ending⟩ := least levels' names' other
      refine ⟨fewer, ending, ?_⟩
      rw [shown]
      exact length_climbing_le fewer ending
  · intro d e l m placed placed' rooted rooted'
    obtain ⟨_, _, shown, way, _⟩ := leads l.file rooted
    obtain ⟨_, _, shown', way', _⟩ := leads m.file rooted'
    simp only [Diagnostic.shownPath, placed, placed']
    constructor
    · intro same
      rw [← way.arrives, ← way'.arrives, ← shown, ← shown', same]
    · intro same
      unfold relativeTo
      rw [same]

/-- A neighbouring directory is left by one step and entered by name. -/
theorem relativeTo_leads_back_neighbours :
    ((⟨"/a//b/../c"⟩ : Path).join ⟨"../d/e"⟩).clean = (⟨"/a/./d/e"⟩ : Path).clean ∧
      ∀ line column code message kind,
        (Diagnostic.mk (some ⟨⟨"/a/./d/e"⟩, line, column⟩) code message kind).shownPath
            ⟨"/a//b/../c"⟩ ≠
          (Diagnostic.mk (some ⟨⟨"/a/d/../e"⟩, line, column⟩) code message kind).shownPath
            ⟨"/a//b/../c"⟩ := by
  obtain ⟨leads, shows⟩ := relativeTo_leads_back ⟨"/a//b/../c"⟩ (by decide)
  constructor
  · obtain ⟨_, _, _, _, _, _, arrives, _⟩ := leads ⟨"/a/./d/e"⟩ (by decide)
    rwa [show (⟨"/a//b/../c"⟩ : Path).relativeTo ⟨"/a/./d/e"⟩ = "../d/e" by decide] at arrives
  · intro line column code message kind same
    have rooted : (⟨"/a/./d/e"⟩ : Path).isAbsolute = true := by decide
    have rooted' : (⟨"/a/d/../e"⟩ : Path).isAbsolute = true := by decide
    have apart : (⟨"/a/./d/e"⟩ : Path).clean ≠ (⟨"/a/d/../e"⟩ : Path).clean := by decide
    have oneFile := (shows _ _ ⟨_, line, column⟩ ⟨_, line, column⟩ rfl rfl rooted rooted').mp same
    exact apart oneFile

end RootedBuild.Path
