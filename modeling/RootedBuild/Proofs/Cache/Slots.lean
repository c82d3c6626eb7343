import RootedBuild.Proofs.Cache.History

/-!
What a cache counts. Its size, its emptiness and the count of an eviction speak of slots, and a file
has a slot from the first analysis that is run for it, whatever came of that, until it is dropped. So
the counts are those of the stored results only as long as no slot is without one.
-/
namespace RootedBuild.ResultCache

variable {C : ResultCache} {file : Path} {past : List Deed}

/-- The files that have a slot, as they were named first. -/
def files (C : ResultCache) : List Path := C.slots.map Prod.fst

/-- The files with a result. -/
def filled (C : ResultCache) : List Path := C.files.filter fun f => (C.record? f).isSome

/-- The files with a slot and no result. -/
def vacant (C : ResultCache) : List Path := C.files.filter fun f => !(C.record? f).isSome

/-- Some key of the file is found. -/
def Stores (C : ResultCache) (file : Path) : Prop :=
  ∃ node fingerprint stored, (C.get ⟨file, node, fingerprint⟩).answer = some stored

theorem isSome_record?_iff : (C.record? file).isSome = true ↔ C.Stores file := by
  rw [Option.isSome_iff_exists]
  constructor
  · rintro ⟨e, found⟩
    exact ⟨e.node, e.fingerprint, e.stored, get_eq_some_iff.mpr found⟩
  · rintro ⟨node, fingerprint, stored, found⟩
    have held := get_eq_some_iff.mp found
    exact ⟨_, held⟩

theorem isSome_slot?_iff : (C.slot? file).isSome = true ↔ ∃ f ∈ C.files, f.same file = true := by
  simp [slot?, files]

theorem record?_eq_none (bare : C.slot? file = none) : C.record? file = none := by
  rw [record?, bare]
  rfl

/-- Of the files with a slot, one is the file and is like this. -/
theorem exists_mem_filter_iff {p : Path → Bool} (congr : ∀ f, f.same file = true → p f = p file) :
    (∃ f ∈ C.files.filter p, f.same file = true) ↔
      (C.slot? file).isSome = true ∧ p file = true := by
  rw [isSome_slot?_iff]
  constructor
  · rintro ⟨f, inside, same⟩
    obtain ⟨inside, holds⟩ := List.mem_filter.mp inside
    exact ⟨⟨f, inside, same⟩, congr f same ▸ holds⟩
  · rintro ⟨⟨f, inside, same⟩, holds⟩
    exact ⟨f, List.mem_filter.mpr ⟨inside, (congr f same).trans holds⟩, same⟩

theorem exists_mem_filled_iff : (∃ f ∈ C.filled, f.same file = true) ↔ C.Stores file := by
  rw [filled, exists_mem_filter_iff fun f same => by rw [record?_congr same], isSome_record?_iff,
    and_iff_right_iff_imp, ← isSome_record?_iff]
  intro stored
  cases slot : C.slot? file with
  | some slot => rfl
  | none => simp [record?_eq_none slot] at stored

theorem exists_mem_vacant_iff : (∃ f ∈ C.vacant, f.same file = true) ↔
    (C.slot? file).isSome = true ∧ ¬C.Stores file := by
  rw [vacant, exists_mem_filter_iff fun f same => by rw [record?_congr same], Bool.not_eq_true',
    ← isSome_record?_iff, Bool.not_eq_true]

theorem files_withSlot (C : ResultCache) (file : Path) (slot : CacheSlot) :
    (C.withSlot file slot).files =
      if (C.slot? file).isSome then C.files else C.files ++ [file] := by
  unfold files withSlot slot?
  dsimp only
  induction C.slots with
  | nil => rfl
  | cons place rest ih =>
      obtain ⟨f, old⟩ := place
      rw [setSlot, List.find?_cons]
      cases same : f.same file with
      | true => rfl
      | false =>
          simp only [Bool.false_eq_true, if_false, List.map_cons, ih]
          split <;> rfl

theorem files_afterAnalysis (C : ResultCache) (key : CacheKey)
    (said : Outcome AnalysisFault Analysis) : (C.afterAnalysis key said).files =
      if (C.slot? key.file).isSome then C.files else C.files ++ [key.file] :=
  files_withSlot (C.countMiss _) key.file _

theorem files_keepOnly (C : ResultCache) (live : List Path) :
    (C.keepOnly live).1.files = C.files.filter fun f => !isGone live f := by
  unfold files keepOnly isGone
  dsimp only
  rw [List.filter_map]
  congr 2
  funext place
  exact (Bool.not_not _).symm

/-- What an eviction gives is how many files with a slot are not live. -/
theorem keepOnly_count (C : ResultCache) (live : List Path) :
    (C.keepOnly live).2 = C.files.countP (isGone live) := by
  have before : C.files.length = C.slots.length := List.length_map _
  have after : (C.keepOnly live).1.files.length = (C.keepOnly live).1.slots.length :=
    List.length_map _
  have count : (C.keepOnly live).2 = C.slots.length - (C.keepOnly live).1.slots.length := rfl
  have parts := C.files.length_eq_countP_add_countP (isGone live)
  rw [files_keepOnly, ← List.countP_eq_length_filter] at after
  simp only [Bool.not_eq_true, Bool.decide_eq_false] at parts
  omega

theorem length_files (C : ResultCache) :
    C.files.length = C.filled.length + C.vacant.length :=
  C.files.length_eq_length_filter_add _

theorem countP_files (C : ResultCache) (p : Path → Bool) :
    C.files.countP p = C.filled.countP p + C.vacant.countP p := by
  unfold filled vacant
  rw [← List.countP_append]
  exact (List.filter_append_perm _ C.files).symm.countP_eq p

/-- An analysis that gives no result gives the file a slot, if it has none, and no more. -/
theorem afterAnalysis_refused (C : ResultCache) (key : CacheKey)
    {said : Outcome AnalysisFault Analysis} (refused : ∀ result, said ≠ .ok result) :
    (C.afterAnalysis key said).filled = C.filled ∧
      (C.afterAnalysis key said).vacant =
        if (C.slot? key.file).isSome then C.vacant else C.vacant ++ [key.file] := by
  unfold filled vacant
  simp only [files_afterAnalysis, record?_afterAnalysis refused]
  cases slot : C.slot? key.file with
  | some slot => exact ⟨rfl, rfl⟩
  | none => simp [List.filter_append, record?_eq_none slot]

/-! ### Which files have a slot -/

/-- Whether the file's slot is dropped. -/
def Deed.drops (file : Path) : Deed → Bool
  | .analyzed .. => false
  | .kept live => isGone live file
  | .cleared => true

/-- An analysis was run for the file, and since then it has not been dropped. -/
def Asked (past : List Deed) (file : Path) : Prop :=
  Since (fun _ deed => ∃ f node source outcome, deed = .analyzed f node source outcome ∧
    f.same file = true) (Deed.drops file) past

/-- Every file has one slot at most, and has one if it was asked for. -/
structure Tracks (C : ResultCache) (past : List Deed) : Prop where
  apart : C.files.Pairwise fun f g => f.same g = false
  slot : ∀ file, (C.slot? file).isSome = true ↔ Asked past file

theorem tracks_empty : empty.Tracks [] where
  apart := .nil
  slot := fun _ => iff_of_false Bool.false_ne_true not_since_nil

theorem Tracks.analyzed (h : C.Tracks past) (file : Path) (node : Nat) (source : String)
    (outcome : Outcome AnalysisFault Analysis) :
    (C.afterAnalysis (.of file node source) outcome).Tracks
      (past ++ [.analyzed file node source outcome]) where
  apart := by
    rw [files_afterAnalysis]
    split
    · exact h.apart
    · rename_i slot
      refine List.pairwise_append.mpr ⟨h.apart, List.pairwise_singleton _ _, ?_⟩
      intro f inside g last
      rw [List.mem_singleton.mp last]
      exact Bool.eq_false_iff.mpr fun same => slot (isSome_slot?_iff.mpr ⟨f, inside, same⟩)
  slot := by
    intro f
    rw [slot?_afterAnalysis, Asked, since_concat, ← Asked, ← h.slot]
    split
    · rename_i same
      exact iff_of_true rfl (.inl ⟨file, node, source, outcome, rfl, same⟩)
    · rename_i other
      constructor
      · exact fun slot => .inr ⟨rfl, slot⟩
      · rintro (⟨g, _, _, _, ⟨⟩, same⟩ | ⟨_, slot⟩)
        · exact absurd same other
        · exact slot

/-- What is dropped loses its slot, and what is not keeps it. -/
theorem Tracks.dropped (h : C.Tracks past) {D : ResultCache} {deed : Deed}
    (other : ∀ f node source outcome, deed ≠ .analyzed f node source outcome)
    (files : D.files.Sublist C.files)
    (slot : ∀ f, D.slot? f = if deed.drops f then none else C.slot? f) :
    D.Tracks (past ++ [deed]) where
  apart := h.apart.sublist files
  slot := by
    intro f
    rw [slot, Asked, since_concat, ← Asked, ← h.slot, or_iff_right]
    · cases deed.drops f <;> simp
    · rintro ⟨g, node, source, outcome, it, _⟩
      exact other g node source outcome it

theorem Tracks.does (h : C.Tracks past) {D : ResultCache} {deeds : List Deed}
    (does : C.Does deeds D) : D.Tracks (past ++ deeds) := by
  cases does with
  | nothing => rwa [List.append_nil]
  | served =>
      rw [List.append_nil]
      exact ⟨h.apart, h.slot⟩
  | analyzed file node source outcome bare => exact h.analyzed file node source outcome
  | kept live =>
      refine h.dropped (by simp) ?_ (slot?_keepOnly C live)
      rw [files_keepOnly]
      exact List.filter_sublist
  | cleared => exact h.dropped (by simp) (List.nil_sublist _) fun f => rfl

/-! ### Histories in which nothing failed -/

/-- Whether an analysis was run that gave no result. -/
def Deed.refuses : Deed → Bool
  | .analyzed _ _ _ (.ok _) => false
  | .analyzed .. => true
  | _ => false

theorem vacant_eq_nil_iff : C.vacant = [] ↔ ∀ f ∈ C.files, (C.record? f).isSome = true := by
  simp [vacant, List.filter_eq_nil_iff, Option.isSome_iff_ne_none]

/-- Every file keeps having a result, unless an analysis gives none. -/
theorem Does.full {D : ResultCache} {deeds : List Deed} (does : C.Does deeds D)
    (succeeds : ∀ deed ∈ deeds, deed.refuses = false) (full : C.vacant = []) : D.vacant = [] := by
  rw [vacant_eq_nil_iff] at full ⊢
  cases does with
  | nothing => exact full
  | served => exact full
  | analyzed file node source outcome bare =>
      cases outcome with
      | ok result =>
          intro f inside
          rw [record?_afterAnalysis_ok]
          split
          · rfl
          · rename_i other
            -- A file that is new in the list is the one the result was made for.
            rw [files_afterAnalysis] at inside
            refine full f ?_
            split at inside
            · exact inside
            · refine (List.mem_append.mp inside).resolve_right fun last => other ?_
              rw [List.mem_singleton.mp last]
              exact Path.same_self _
      | failed e => cases succeeds _ (List.mem_singleton.mpr rfl)
      | crashed => cases succeeds _ (List.mem_singleton.mpr rfl)
  | kept live =>
      intro f inside
      rw [files_keepOnly] at inside
      obtain ⟨inside, alive⟩ := List.mem_filter.mp inside
      rw [record?_keepOnly, if_neg (by simpa using alive)]
      exact full f inside
  | cleared => exact fun f inside => absurd inside List.not_mem_nil

theorem vacant_run (full : C.vacant = []) (s : τ) (us : List (Use τ))
    (succeeds : ∀ deed ∈ C.journal s us, deed.refuses = false) : (C.run s us).1.vacant = [] := by
  induction us generalizing C s with
  | nil => exact full
  | cons u us ih =>
      obtain ⟨now, later⟩ := List.forall_mem_append.mp succeeds
      exact ih ((C.does_use s u).full now full) _ later

/-! ### What the counts say -/

/-- The counts are those of the stored results: of the files that have one, and of those among them
that an eviction drops. -/
def CountsResults (C : ResultCache) : Prop :=
  C.size = C.filled.length ∧ (C.isEmpty = true ↔ C.filled = []) ∧
    ∀ live, (C.keepOnly live).2 = C.filled.countP (isGone live)

theorem size_eq (C : ResultCache) : C.size = C.filled.length + C.vacant.length := by
  rw [← length_files]
  exact (List.length_map _).symm

theorem isEmpty_iff (C : ResultCache) : C.isEmpty = true ↔ C.filled = [] ∧ C.vacant = [] := by
  rw [← List.length_eq_zero_iff, ← List.length_eq_zero_iff, ← Nat.add_eq_zero_iff, ← size_eq, size,
    isEmpty, List.length_eq_zero_iff, List.isEmpty_iff]

theorem countsResults_iff : C.CountsResults ↔ C.vacant = [] := by
  constructor
  · rintro ⟨size, _, _⟩
    rw [← List.length_eq_zero_iff]
    have all := C.size_eq
    omega
  · intro none
    refine ⟨by simp [size_eq, none], by simp [isEmpty_iff, none], fun live => ?_⟩
    simp [keepOnly_count, countP_files, none]

theorem Tracks.pairwise (h : C.Tracks past) :
    (C.filled ++ C.vacant).Pairwise fun f g => f.same g = false :=
  ((List.filter_append_perm _ C.files).pairwise_iff fun {f g} apart => by
    rwa [Path.same_comm]).mpr h.apart

/-- What a cache counts: the files with a stored result and those that were asked for and have none.
So it counts the results alone exactly if there are none of the latter. -/
theorem run_counts_slots (us : List (Use τ)) (s : τ) :
    let C := (empty.run s us).1
    (C.filled ++ C.vacant).Pairwise (fun f g => f.same g = false) ∧
      (∀ file, (∃ f ∈ C.filled, f.same file = true) ↔ C.Stores file) ∧
      (∀ file, (∃ f ∈ C.vacant, f.same file = true) ↔
        Asked (empty.journal s us) file ∧ ¬C.Stores file) ∧
      C.size = C.filled.length + C.vacant.length ∧
      (C.isEmpty = true ↔ C.filled = [] ∧ C.vacant = []) ∧
      (∀ live, (C.keepOnly live).2 =
        C.filled.countP (isGone live) + C.vacant.countP (isGone live)) ∧
      (C.CountsResults ↔ C.vacant = []) ∧
      ((∀ deed ∈ empty.journal s us, deed.refuses = false) → C.CountsResults) ∧
      ∀ (key : CacheKey) {τ : Type} (analyze : τ → Turn τ (Outcome AnalysisFault Analysis)) (m : τ),
        (C.get key).answer = none → (∀ result, (analyze m).answer ≠ .ok result) →
        let D := (C.fetch key analyze m).state.1
        D.filled = C.filled ∧
          (Asked (empty.journal s us) key.file → D.vacant = C.vacant) ∧
          (¬Asked (empty.journal s us) key.file → D.vacant = C.vacant ++ [key.file]) := by
  intro C
  have tracks : C.Tracks (empty.journal s us) :=
    run_keeps (fun h does => h.does does) tracks_empty s us
  refine ⟨tracks.pairwise, fun file => exists_mem_filled_iff, fun file => ?_, C.size_eq,
    C.isEmpty_iff, fun live => ?_, countsResults_iff,
    fun succeeds => countsResults_iff.mpr (vacant_run rfl s us succeeds), ?_⟩
  · rw [exists_mem_vacant_iff, tracks.slot]
  · rw [keepOnly_count, countP_files]
  · intro key τ analyze m bare refused D
    obtain ⟨filled, vacant⟩ := C.afterAnalysis_refused key refused
    dsimp only [D]
    rw [(fetch_of_get_eq_none bare analyze m).1, ← tracks.slot]
    refine ⟨filled, fun asked => ?_, fun unasked => ?_⟩
    · rw [vacant, if_pos asked]
    · rw [vacant, if_neg unasked]

/-- A file with a result, one without, and one more that is asked for in vain. -/
theorem run_counts_slots_mixed :
    let succeed := always (.ok ⟨"1", []⟩)
    let crash := always .crashed
    let us : List (Use Unit) := [.fetch ⟨"/a.ts"⟩ 0 "1" succeed, .fetch ⟨"/b.ts"⟩ 0 "1" crash]
    let C := (empty.run () us).1
    let again : CacheKey := .of ⟨"//b.ts"⟩ 1 "2"
    let other : CacheKey := .of ⟨"/c.ts"⟩ 0 "1"
    C.filled = [⟨"/a.ts"⟩] ∧ C.vacant = [⟨"/b.ts"⟩] ∧ C.size = 2 ∧
      Asked (empty.journal () us) again.file ∧ ¬Asked (empty.journal () us) other.file ∧
      (C.get again).answer = none ∧ (C.get other).answer = none ∧
      (∀ result, (crash ()).answer ≠ .ok result) ∧
      (C.fetch again crash ()).state.1.vacant = [⟨"/b.ts"⟩] ∧
      (C.fetch other crash ()).state.1.vacant = [⟨"/b.ts"⟩, ⟨"/c.ts"⟩] := by
  intro succeed crash us C again other
  obtain ⟨filled, vacant, bareAgain, bareOther⟩ : C.filled = [⟨"/a.ts"⟩] ∧
      C.vacant = [⟨"/b.ts"⟩] ∧ (C.get again).answer = none ∧ (C.get other).answer = none := by
    decide +kernel
  have refused : ∀ result, (crash ()).answer ≠ .ok result := by
    rintro result ⟨⟩
  obtain ⟨_, stored, without, size, _, _, _, _, inVain⟩ := run_counts_slots us ()
  dsimp only [C] at *
  rw [filled] at stored
  rw [vacant] at without
  have asked : Asked (empty.journal () us) again.file :=
    ((without again.file).mp ⟨⟨"/b.ts"⟩, by simp, by decide⟩).1
  have unasked : ¬Asked (empty.journal () us) other.file := by
    intro asked
    have missing := (stored other.file).not.mp (by decide)
    exact (without other.file).not.mp (by decide) ⟨asked, missing⟩
  refine ⟨filled, vacant, ?_, asked, unasked, bareAgain, bareOther, refused, ?_, ?_⟩
  · rw [size, filled, vacant]
    rfl
  · rw [(inVain again crash () bareAgain refused).2.1 asked, vacant]
  · rw [(inVain other crash () bareOther refused).2.2 unasked, vacant]
    rfl

/-- After one request whose analysis failed nothing is stored, and the size is one. -/
theorem not_countsResults_failed :
    let fail := always (.failed ⟨⟨"/app/a.ts"⟩, "no"⟩)
    let us : List (Use Unit) := [.fetch ⟨"/app/a.ts"⟩ 0 "1" fail]
    ¬(empty.run () us).1.CountsResults := by
  rintro fail us ⟨size, _, _⟩
  revert size
  decide +kernel

end RootedBuild.ResultCache
