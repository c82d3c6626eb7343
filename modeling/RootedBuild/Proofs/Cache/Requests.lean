import RootedBuild.Proofs.Build.Results

/-!
One request to a cache. Either the result that is asked for is stored, and then it is served and
counted and nothing else happens; or the analysis is run, and how it ends tells what the file's slot
holds from then on. No slot of another file is touched. Which of the two it is can be asked
beforehand.
-/
namespace RootedBuild.ResultCache

variable {C : ResultCache} {key k : CacheKey} {said : Outcome AnalysisFault Analysis}
  {analyze : τ → Turn τ (Outcome AnalysisFault Analysis)} {s : τ} {stored : Stored}

/-! ### What is stored for a file -/

/-- The record of a file, under any spelling, if a result is stored for it. -/
def record? (C : ResultCache) (file : Path) : Option CacheRecord := ((C.slot? file).getD {}).entry

theorem slot?_congr {f g : Path} (same : f.same g = true) : C.slot? f = C.slot? g := by
  unfold slot?
  congr 2
  funext place
  rw [Path.same_comm place.1, Path.same_comm place.1, Path.same_congr same]

theorem record?_congr {f g : Path} (same : f.same g = true) : C.record? f = C.record? g := by
  rw [record?, record?, slot?_congr same]

theorem get_answer (C : ResultCache) (key : CacheKey) : (C.get key).answer =
    ((C.record? key.file).filter fun e => e.fits key).map CacheRecord.stored := by
  unfold get record?
  cases C.slot? key.file <;> rfl

theorem get_eq_some_iff : (C.get key).answer = some stored ↔
    C.record? key.file = some ⟨key.node, key.fingerprint, stored⟩ := by
  rw [get_answer, Option.map_eq_some_iff]
  constructor
  · rintro ⟨e, found, rfl⟩
    obtain ⟨holds, fits⟩ := Option.filter_eq_some_iff.mp found
    simp only [CacheRecord.fits, Bool.and_eq_true, beq_iff_eq] at fits
    rw [holds, ← fits.1, ← fits.2]
  · intro holds
    exact ⟨_, Option.filter_eq_some_iff.mpr ⟨holds, by simp [CacheRecord.fits]⟩, rfl⟩

/-! ### The two ways of a request -/

/-- A result that is there is served, and only counted. -/
theorem fetch_of_get (has : (C.get key).answer = some stored)
    (analyze : τ → Turn τ (Outcome AnalysisFault Analysis)) (s : τ) :
    (C.fetch key analyze s).state = (C.countHit, s) ∧
      (C.fetch key analyze s).answer = .ok stored := by
  rw [get_answer] at has
  obtain ⟨e, fits, rfl⟩ := Option.map_eq_some_iff.mp has
  unfold record? at fits
  unfold fetch
  dsimp only
  rw [fits]
  exact ⟨rfl, rfl⟩

/-- What an analysis that ended like this leaves in the slot of its file. -/
def slotAfter (C : ResultCache) (key : CacheKey) : Outcome AnalysisFault Analysis → CacheSlot
  | .ok result =>
    { (C.slot? key.file).getD {} with
      entry := some ⟨key.node, key.fingerprint, ⟨C.made, result⟩⟩ }
  | .failed _ => (C.slot? key.file).getD {}
  | .crashed => { (C.slot? key.file).getD {} with marked := true }

/-- What a request leaves whose analysis is run and ends like this. -/
def afterAnalysis (C : ResultCache) (key : CacheKey) (said : Outcome AnalysisFault Analysis) :
    ResultCache :=
  { (C.countMiss ((C.slot? key.file).getD {})).withSlot key.file (C.slotAfter key said) with
    made := match said with
      | .ok _ => C.made + 1
      | _ => C.made }

/-- A result that is not there is made, if the analysis makes one. -/
theorem fetch_of_get_eq_none (bare : (C.get key).answer = none)
    (analyze : τ → Turn τ (Outcome AnalysisFault Analysis)) (s : τ) :
    (C.fetch key analyze s).state = (C.afterAnalysis key (analyze s).answer, (analyze s).state) ∧
      (C.fetch key analyze s).answer = (analyze s).answer.map (Stored.mk C.made) := by
  rw [get_answer, Option.map_eq_none_iff] at bare
  unfold record? at bare
  unfold fetch afterAnalysis
  dsimp only
  rw [bare]
  dsimp only
  cases (analyze s).answer <;> exact ⟨rfl, rfl⟩

/-- Once an analysis is run its outcome does not matter any more for the counts. -/
theorem stats_afterAnalysis (C : ResultCache) (key : CacheKey)
    (said : Outcome AnalysisFault Analysis) : (C.afterAnalysis key said).stats = { C.stats with
      misses := C.stats.misses + 1
      invalidations :=
        C.stats.invalidations + if (C.record? key.file).isSome then 1 else 0 } := rfl

theorem slot?_afterAnalysis (C : ResultCache) (key : CacheKey)
    (said : Outcome AnalysisFault Analysis) (f : Path) : (C.afterAnalysis key said).slot? f =
      if key.file.same f then some (C.slotAfter key said) else C.slot? f :=
  slot?_withSlot (C.countMiss ((C.slot? key.file).getD {})) key.file f (C.slotAfter key said)

theorem record?_afterAnalysis_ok (result : Analysis) (f : Path) :
    (C.afterAnalysis key (.ok result)).record? f =
      if key.file.same f then some ⟨key.node, key.fingerprint, ⟨C.made, result⟩⟩
      else C.record? f := by
  rw [record?, slot?_afterAnalysis]
  split <;> rfl

/-- An analysis that gives no result changes nothing of what is stored. -/
theorem record?_afterAnalysis (refused : ∀ result, said ≠ .ok result) (f : Path) :
    (C.afterAnalysis key said).record? f = C.record? f := by
  rw [record?, slot?_afterAnalysis]
  split
  · rename_i same
    rw [← record?_congr same]
    cases said with
    | ok result => exact absurd rfl (refused result)
    | failed e => rfl
    | crashed => rfl
  · rfl

theorem get_fetch_of_refused (refused : ∀ result, (analyze s).answer ≠ .ok result)
    (k : CacheKey) : ((C.fetch key analyze s).state.1.get k).answer = (C.get k).answer := by
  cases has : (C.get key).answer with
  | some stored =>
      rw [(fetch_of_get has analyze s).1]
      rfl
  | none =>
      rw [(fetch_of_get_eq_none has analyze s).1, get_answer, get_answer,
        record?_afterAnalysis refused]

/-- What was given is there from then on. -/
theorem get_fetch_of_ok (given : (C.fetch key analyze s).answer = .ok stored) :
    ((C.fetch key analyze s).state.1.get key).answer = some stored := by
  cases has : (C.get key).answer with
  | some old =>
      obtain ⟨state, answer⟩ := fetch_of_get has analyze s
      cases answer.symm.trans given
      rw [state]
      exact has
  | none =>
      obtain ⟨state, answer⟩ := fetch_of_get_eq_none has analyze s
      rw [given] at answer
      rw [state, get_eq_some_iff]
      cases said : (analyze s).answer with
      | ok result =>
          rw [said] at answer
          rw [record?_afterAnalysis_ok, Path.same_self, if_pos rfl, Outcome.ok.inj answer]
      | failed e => rw [said] at answer; cases answer
      | crashed => rw [said] at answer; cases answer

theorem get_fetch_of_apart (apart : key.file.same k.file = false) :
    ((C.fetch key analyze s).state.1.get k).answer = (C.get k).answer := by
  cases has : (C.get key).answer with
  | some stored =>
      rw [(fetch_of_get has analyze s).1]
      rfl
  | none =>
      rw [(fetch_of_get_eq_none has analyze s).1, get_answer, get_answer, record?, record?,
        slot?_afterAnalysis, apart]
      rfl

/-! ### Slots that are dropped -/

/-- The file is none of these, in any spelling. -/
def isGone (live : List Path) (file : Path) : Bool := !live.any (·.same file)

theorem isGone_congr {f g : Path} (same : f.same g = true) (live : List Path) :
    isGone live f = isGone live g := by
  unfold isGone
  congr 2
  funext h
  rw [Path.same_comm h, Path.same_comm h, Path.same_congr same]

theorem isGone_eq_false_of_mem {live : List Path} {file : Path} (inside : file ∈ live) :
    isGone live file = false := by
  rw [isGone, Bool.not_eq_false', List.any_eq_true]
  exact ⟨file, inside, Path.same_self file⟩

theorem slot?_keepOnly (C : ResultCache) (live : List Path) (f : Path) :
    (C.keepOnly live).1.slot? f = if isGone live f then none else C.slot? f := by
  have kept (place : Path × CacheSlot) (same : place.1.same f = true) :
      (live.any fun g => g.same place.1) = !isGone live f := by
    rw [← isGone_congr same, isGone, Bool.not_not]
  unfold slot? keepOnly
  dsimp only
  rw [List.find?_filter]
  cases gone : isGone live f with
  | true =>
      rw [if_pos rfl, Option.map_eq_none_iff, List.find?_eq_none]
      intro place _ both
      obtain ⟨alive, same⟩ := of_decide_eq_true both
      rw [kept place same, gone] at alive
      cases alive
  | false =>
      rw [if_neg Bool.false_ne_true]
      congr 2
      funext place
      cases same : place.1.same f with
      | false => simp
      | true => simp [kept place same, gone]

theorem record?_keepOnly (C : ResultCache) (live : List Path) (f : Path) :
    (C.keepOnly live).1.record? f = if isGone live f then none else C.record? f := by
  rw [record?, slot?_keepOnly]
  split <;> rfl

/-- A live file keeps its slot. -/
theorem get_keepOnly {live : List Path} (inside : k.file ∈ live) :
    ((C.keepOnly live).1.get k).answer = (C.get k).answer := by
  rw [get_answer, get_answer, record?_keepOnly, isGone_eq_false_of_mem inside]
  rfl

end RootedBuild.ResultCache
