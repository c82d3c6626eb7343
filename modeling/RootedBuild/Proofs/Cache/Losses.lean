import RootedBuild.Proofs.Cache.Slots

/-!
Where invalidations come from. A stored result can be lost in two ways, to a result of another text
or node and to an eviction, and both are counted. But the count goes up before the analysis is run,
also if that gives nothing and the old result stays, and an eviction counts slots, also those without
a result. Neither happens as long as no analysis fails or crashes.
-/
namespace RootedBuild.ResultCache

variable {C D : ResultCache} {past deeds : List Deed} {key : CacheKey}

/-- The file has a result before and after, and its text or node is another. -/
def swaps (C D : ResultCache) (file : Path) : Bool :=
  match C.record? file, D.record? file with
  | some old, some new => old.node != new.node || old.fingerprint != new.fingerprint
  | _, _ => false

/-! ### Four kinds of losses -/

/-- Stored results that were replaced because the text or the node had changed. -/
def replaced (C : ResultCache) (_ : List Deed) (D : ResultCache) : Nat := C.filled.countP (C.swaps D)

/-- Stored results that an eviction dropped. -/
def evicted (C : ResultCache) : List Deed → ResultCache → Nat
  | [.kept _], D => C.filled.countP fun f => (D.record? f).isNone
  | _, _ => 0

/-- Stored results that stayed, after an analysis for their file that gave none. -/
def spared (C : ResultCache) : List Deed → ResultCache → Nat
  | [.analyzed _ _ _ (.ok _)], _ => 0
  | [.analyzed file ..], _ => if (C.record? file).isSome then 1 else 0
  | _, _ => 0

/-- Slots without a result that an eviction dropped. -/
def vacated (C : ResultCache) : List Deed → ResultCache → Nat
  | [.kept live], _ => C.vacant.countP (isGone live)
  | _, _ => 0

/-- How many of a kind there are in all uses. -/
def total (kind : ResultCache → List Deed → ResultCache → Nat) (C : ResultCache) (s : τ) :
    List (Use τ) → Nat
  | [] => 0
  | u :: us =>
    kind C (C.deeds s u) (C.use s u).1 + total kind (C.use s u).1 (C.use s u).2 us

/-! ### What one use counts -/

/-- Nothing is replaced where a result goes away or stays as it is. -/
theorem replaced_eq_zero (unchanged : ∀ f, D.record? f = none ∨ D.record? f = C.record? f) :
    C.replaced deeds D = 0 := by
  rw [replaced, List.countP_eq_zero]
  intro f _
  rw [swaps]
  rcases unchanged f with gone | same
  · rw [gone]
    cases C.record? f <;> simp
  · rw [same]
    cases C.record? f <;> simp

/-- Of files that are all different one at most is this one. -/
theorem countP_same {files : List Path} (apart : files.Pairwise fun f g => f.same g = false)
    (file : Path) : files.countP file.same = if ∃ f ∈ files, f.same file = true then 1 else 0 := by
  induction files with
  | nil => simp
  | cons f files ih =>
      obtain ⟨others, apart⟩ := List.pairwise_cons.mp apart
      cases same : file.same f with
      | false => simp [same, ih apart, Path.same_comm f]
      | true =>
          have none : files.countP file.same = 0 := by
            rw [List.countP_eq_zero]
            intro g inside
            rw [Path.same_congr same, others g inside]
            exact Bool.false_ne_true
          simp [same, none, Path.same_comm f]

/-- A new result takes the place of one of the file, if there was any: what was not found for the
key is of another text or node. -/
theorem replaced_ok (apart : C.files.Pairwise fun f g => f.same g = false)
    (bare : (C.get key).answer = none) (result : Analysis) :
    C.replaced deeds (C.afterAnalysis key (.ok result)) =
      if (C.record? key.file).isSome then 1 else 0 := by
  have swapped : ∀ f ∈ C.filled, C.swaps (C.afterAnalysis key (.ok result)) f = key.file.same f := by
    intro f inside
    obtain ⟨old, holds⟩ := Option.isSome_iff_exists.mp (List.mem_filter.mp inside).2
    rw [swaps, record?_afterAnalysis_ok, holds]
    cases same : key.file.same f with
    | true =>
        -- The look-up found nothing, so the old record does not fit the key, which the new one has.
        have unfit : old.fits key = false := by
          rw [get_answer, record?_congr same, holds, Option.map_eq_none_iff] at bare
          simpa [Option.filter] using bare
        rw [if_pos rfl]
        exact (Bool.not_and _ _).symm.trans (congrArg (!·) unfit)
    | false => simp
  -- Of the files with a result only the one that is asked for is swapped, and it stands there once.
  have different : C.filled.Pairwise fun f g => f.same g = false :=
    apart.sublist List.filter_sublist
  rw [replaced, List.countP_congr fun f inside => by rw [swapped f inside], countP_same different]
  simp only [exists_mem_filled_iff.trans isSome_record?_iff.symm]

theorem replaced_refused {said : Outcome AnalysisFault Analysis}
    (refused : ∀ result, said ≠ .ok result) : C.replaced deeds (C.afterAnalysis key said) = 0 :=
  replaced_eq_zero fun f => .inr (record?_afterAnalysis refused f)

/-- What an eviction counts are the results and the empty slots that go. -/
theorem keepOnly_count_eq (C : ResultCache) (live : List Path) : (C.keepOnly live).2 =
    C.evicted [.kept live] (C.keepOnly live).1 + C.vacated [.kept live] (C.keepOnly live).1 := by
  rw [keepOnly_count, countP_files, evicted, vacated]
  congr 1
  refine List.countP_congr fun f inside => ?_
  have stored := (List.mem_filter.mp inside).2
  rw [record?_keepOnly]
  cases isGone live f with
  | true => simp
  | false => simpa [Option.isSome_iff_ne_none] using stored

theorem invalidations_does (apart : C.files.Pairwise fun f g => f.same g = false)
    (does : C.Does deeds D) : D.stats.invalidations = C.stats.invalidations +
      (C.replaced deeds D + C.evicted deeds D + (C.spared deeds D + C.vacated deeds D)) := by
  cases does with
  | nothing =>
      rw [replaced_eq_zero fun f => .inr rfl]
      rfl
  | served =>
      have same (f : Path) : C.countHit.record? f = C.record? f := rfl
      rw [replaced_eq_zero fun f => .inr (same f)]
      rfl
  | analyzed file node source outcome bare =>
      rw [stats_afterAnalysis]
      cases outcome with
      | ok result =>
          rw [replaced_ok apart bare]
          rfl
      | failed e =>
          rw [replaced_refused (by simp)]
          exact congrArg _ (Nat.zero_add _).symm
      | crashed =>
          rw [replaced_refused (by simp)]
          exact congrArg _ (Nat.zero_add _).symm
  | kept live =>
      have gone (f : Path) : (C.keepOnly live).1.record? f = none ∨
          (C.keepOnly live).1.record? f = C.record? f := by
        rw [record?_keepOnly]
        exact ite_eq_or_eq _ _ _
      have counted : (C.keepOnly live).1.stats.invalidations =
          C.stats.invalidations + (C.keepOnly live).2 := rfl
      rw [counted, keepOnly_count_eq, replaced_eq_zero gone, Nat.zero_add]
      exact congrArg _ (congrArg _ (Nat.zero_add _).symm)
  | cleared =>
      rw [replaced_eq_zero fun f => .inl rfl]
      rfl

theorem invalidations_run (tracks : C.Tracks past) (s : τ) (us : List (Use τ)) :
    (C.run s us).1.stats.invalidations = C.stats.invalidations +
      (total replaced C s us + total evicted C s us +
        (total spared C s us + total vacated C s us)) := by
  induction us generalizing C s past with
  | nil => rfl
  | cons u us ih =>
      have does := C.does_use s u
      rw [run, ih (tracks.does does), invalidations_does tracks.apart does, total, total, total, total]
      omega

/-! ### Histories in which nothing failed -/

theorem spared_vacated_does (does : C.Does deeds D) (full : C.vacant = [])
    (succeeds : ∀ deed ∈ deeds, deed.refuses = false) :
    C.spared deeds D = 0 ∧ C.vacated deeds D = 0 := by
  cases does with
  | nothing => exact ⟨rfl, rfl⟩
  | served => exact ⟨rfl, rfl⟩
  | analyzed file node source outcome bare =>
      cases outcome with
      | ok result => exact ⟨rfl, rfl⟩
      | failed e => cases succeeds _ (List.mem_singleton.mpr rfl)
      | crashed => cases succeeds _ (List.mem_singleton.mpr rfl)
  | kept live => exact ⟨rfl, by rw [vacated, full, List.countP_nil]⟩
  | cleared => exact ⟨rfl, rfl⟩

theorem spared_vacated_run (full : C.vacant = []) (s : τ) (us : List (Use τ))
    (succeeds : ∀ deed ∈ C.journal s us, deed.refuses = false) :
    total spared C s us = 0 ∧ total vacated C s us = 0 := by
  induction us generalizing C s with
  | nil => exact ⟨rfl, rfl⟩
  | cons u us ih =>
      obtain ⟨now, later⟩ := List.forall_mem_append.mp succeeds
      have does := C.does_use s u
      obtain ⟨spared, vacated⟩ := spared_vacated_does does full now
      obtain ⟨sparedLater, vacatedLater⟩ := ih (does.full now full) _ later
      rw [total, total, spared, vacated, sparedLater, vacatedLater]
      exact ⟨rfl, rfl⟩

/-- What is counted as an invalidation: a stored result that was replaced or dropped, but also an
analysis that gave nothing while one was stored, and a dropped slot without one. -/
theorem run_invalidations (us : List (Use τ)) (s : τ) :
    let C := (empty.run s us).1
    C.stats.invalidations = total replaced empty s us + total evicted empty s us +
        (total spared empty s us + total vacated empty s us) ∧
      (C.stats.invalidations = total replaced empty s us + total evicted empty s us ↔
        total spared empty s us = 0 ∧ total vacated empty s us = 0) ∧
      ((∀ deed ∈ empty.journal s us, deed.refuses = false) →
        C.stats.invalidations = total replaced empty s us + total evicted empty s us) ∧
      ∀ (key : CacheKey) {τ : Type} (analyze : τ → Turn τ (Outcome AnalysisFault Analysis)) (m : τ),
        (C.get key).answer = none → (∀ result, (analyze m).answer ≠ .ok result) →
        let D := (C.fetch key analyze m).state.1
        (∀ k, (D.get k).answer = (C.get k).answer) ∧
          (C.Stores key.file → D.stats.invalidations = C.stats.invalidations + 1) ∧
          (¬C.Stores key.file → D.stats.invalidations = C.stats.invalidations) := by
  intro C
  have all : C.stats.invalidations = total replaced empty s us + total evicted empty s us +
      (total spared empty s us + total vacated empty s us) := by
    simpa [C, empty] using invalidations_run tracks_empty s us
  refine ⟨all, by omega, fun succeeds => ?_, ?_⟩
  · obtain ⟨spared, vacated⟩ := spared_vacated_run rfl s us succeeds
    omega
  · intro key τ analyze m bare refused D
    refine ⟨get_fetch_of_refused refused, ?_⟩
    dsimp only [D]
    rw [(fetch_of_get_eq_none bare analyze m).1, stats_afterAnalysis, ← isSome_record?_iff]
    dsimp only
    refine ⟨fun stored => ?_, fun unstored => ?_⟩
    · rw [if_pos stored]
    · rw [if_neg unstored, Nat.add_zero]

/-- One result replaced and one evicted, then one more analysis for a stored file and one for a file
that is not stored, both crashing. -/
theorem run_invalidations_crashed :
    let succeed := always (.ok ⟨"1", []⟩)
    let crash := always .crashed
    let us : List (Use Unit) := [.fetch ⟨"/a.ts"⟩ 0 "1" succeed, .fetch ⟨"/a.ts"⟩ 0 "2" succeed,
      .fetch ⟨"/b.ts"⟩ 0 "1" succeed, .keepOnly [⟨"/a.ts"⟩]]
    let C := (empty.run () us).1
    let stale : CacheKey := .of ⟨"/a.ts"⟩ 1 "2"
    let other : CacheKey := .of ⟨"/b.ts"⟩ 0 "1"
    (∀ deed ∈ empty.journal () us, deed.refuses = false) ∧ C.stats.invalidations = 2 ∧
      (C.get stale).answer = none ∧ (C.get other).answer = none ∧
      (∀ result, (crash ()).answer ≠ .ok result) ∧ C.Stores stale.file ∧ ¬C.Stores other.file ∧
      (C.fetch stale crash ()).state.1.stats.invalidations = 3 ∧
      (C.fetch other crash ()).state.1.stats.invalidations = 2 := by
  intro succeed crash us C stale other
  obtain ⟨succeeds, bareStale, bareOther, present, missing, kinds⟩ :
      (∀ deed ∈ empty.journal () us, deed.refuses = false) ∧ (C.get stale).answer = none ∧
        (C.get other).answer = none ∧ (C.record? stale.file).isSome = true ∧
        (C.record? other.file).isSome = false ∧
        total replaced empty () us = 1 ∧ total evicted empty () us = 1 := by
    decide +kernel
  have refused : ∀ result, (crash ()).answer ≠ .ok result := by
    rintro result ⟨⟩
  have stored : C.Stores stale.file := isSome_record?_iff.mp present
  have unstored : ¬C.Stores other.file := isSome_record?_iff.not.mp (Bool.eq_false_iff.mp missing)
  obtain ⟨_, _, law, inVain⟩ := run_invalidations us ()
  dsimp only [C] at *
  have count := law succeeds
  rw [kinds.1, kinds.2] at count
  refine ⟨succeeds, count, bareStale, bareOther, refused, stored, unstored, ?_, ?_⟩
  · rw [(inVain stale crash () bareStale refused).2.1 stored, count]
  · rw [(inVain other crash () bareOther refused).2.2 unstored, count]

/-- An analysis that failed is counted though the result of the file stays, and so is the eviction of
a file that never had one. -/
theorem not_accounted_failed :
    let succeed := always (.ok ⟨"1", []⟩)
    let fail := always (.failed ⟨⟨"/app/a.ts"⟩, "no"⟩)
    let accounted (us : List (Use Unit)) : Prop := (empty.run () us).1.stats.invalidations =
      total replaced empty () us + total evicted empty () us
    ¬accounted [.fetch ⟨"/app/a.ts"⟩ 0 "1" succeed, .fetch ⟨"/app/a.ts"⟩ 0 "2" fail] ∧
      ¬accounted [.fetch ⟨"/app/a.ts"⟩ 0 "1" fail, .keepOnly []] := by
  intro succeed fail accounted
  constructor <;> decide +kernel

end RootedBuild.ResultCache
