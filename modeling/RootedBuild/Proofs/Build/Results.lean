import RootedBuild.Build
import RootedBuild.Proofs.Path.Canonical

/-!
Results in a cache. Whatever holds of every entry goes on to hold as long as it holds of the new
ones; which entries are served, replaced or dropped does not matter for that. Counts are left out.
-/
namespace RootedBuild.ResultCache

variable {C : ResultCache} {key : CacheKey}
  {analyze : τ → Turn τ (Outcome AnalysisFault Analysis)} {s : τ}

/-- All that fetching a result can do. A slot is written back in every case but the first. -/
inductive Fetched (C : ResultCache) (key : CacheKey)
    (analyze : τ → Turn τ (Outcome AnalysisFault Analysis)) (s : τ)
    (turn : Turn (ResultCache × τ) (Outcome AnalysisFault Stored)) : Prop where
  | served (slot : CacheSlot) (e : CacheRecord) (has : C.slot? key.file = some slot)
      (holds : slot.entry = some e) (fits : e.fits key = true)
      (slots : turn.state.1.slots = C.slots) (rest : turn.state.2 = s)
      (answer : turn.answer = .ok e.stored)
  | stored (slot : CacheSlot) (new : Stored) (said : (analyze s).answer = .ok new.result)
      (holds : slot.entry = some ⟨key.node, key.fingerprint, new⟩)
      (slots : turn.state.1.slots = setSlot key.file slot C.slots)
      (rest : turn.state.2 = (analyze s).state) (answer : turn.answer = .ok new)
  | kept (slot : CacheSlot) (said : ∀ result, (analyze s).answer ≠ .ok result)
      (holds : slot.entry = ((C.slot? key.file).getD {}).entry)
      (slots : turn.state.1.slots = setSlot key.file slot C.slots)
      (rest : turn.state.2 = (analyze s).state)
      (answer : turn.answer.map Stored.result = (analyze s).answer)

theorem getD_slot?_entry {file : Path} {e : CacheRecord}
    (h : ((C.slot? file).getD {}).entry = some e) :
    ∃ slot, C.slot? file = some slot ∧ slot.entry = some e := by
  cases found : C.slot? file with
  | none => simp [found] at h
  | some slot => exact ⟨slot, rfl, by simpa [found] using h⟩

theorem fetched_fetch (C : ResultCache) (key : CacheKey)
    (analyze : τ → Turn τ (Outcome AnalysisFault Analysis)) (s : τ) :
    Fetched C key analyze s (C.fetch key analyze s) := by
  unfold fetch
  dsimp only
  cases fits : ((C.slot? key.file).getD {}).entry.filter fun e => e.fits key with
  | some e =>
      obtain ⟨entry, fit⟩ := Option.filter_eq_some_iff.mp fits
      obtain ⟨slot, found, holds⟩ := getD_slot?_entry entry
      exact .served slot e found holds fit rfl rfl rfl
  | none =>
      dsimp only
      cases said : (analyze s).answer with
      | ok result =>
          exact .stored { (C.slot? key.file).getD {} with
            entry := some ⟨key.node, key.fingerprint, ⟨C.made, result⟩⟩ }
            ⟨C.made, result⟩ said rfl rfl rfl rfl
      | failed e => exact .kept _ (by simp [said]) rfl rfl rfl said.symm
      | crashed =>
          exact .kept { (C.slot? key.file).getD {} with marked := true } (by simp [said]) rfl rfl
            rfl said.symm

/-- The analyzer is run once or not at all. -/
theorem fetch_state (C : ResultCache) (key : CacheKey)
    (analyze : τ → Turn τ (Outcome AnalysisFault Analysis)) (s : τ) :
    (C.fetch key analyze s).state.2 = s ∨ (C.fetch key analyze s).state.2 = (analyze s).state := by
  cases fetched_fetch C key analyze s with
  | served slot e has holds fits slots rest => exact .inl rest
  | stored slot new said holds slots rest => exact .inr rest
  | kept slot said holds slots rest => exact .inr rest

/-! ### What holds of all entries -/

/-- Files are spelled canonically, and every entry is a `good` one for its file. -/
def Holds (good : Path → CacheRecord → Prop) (C : ResultCache) : Prop :=
  ∀ place ∈ C.slots, place.1.Canonical ∧ ∀ e, place.2.entry = some e → good place.1 e

variable {good : Path → CacheRecord → Prop}

theorem holds_empty (good : Path → CacheRecord → Prop) : empty.Holds good := by
  intro place member
  cases member

theorem Holds.mono {better : Path → CacheRecord → Prop} (h : C.Holds good)
    (le : ∀ file e, good file e → better file e) : C.Holds better := by
  intro place member
  exact ⟨(h place member).1, fun e holds => le _ e ((h place member).2 e holds)⟩

theorem Holds.entry (h : C.Holds good) {file : Path} (canonical : file.Canonical)
    {slot : CacheSlot} (found : C.slot? file = some slot) {e : CacheRecord}
    (holds : slot.entry = some e) : good file e := by
  obtain ⟨place, first, rfl⟩ := Option.map_eq_some_iff.mp found
  have whole := h place (List.mem_of_find?_eq_some first)
  have same := List.find?_some first
  rw [← whole.1.eq_of_same canonical same]
  exact whole.2 e holds

theorem holds_setSlot {file : Path} (canonical : file.Canonical) {slot : CacheSlot}
    (new : ∀ e, slot.entry = some e → good file e) {slots : List (Path × CacheSlot)}
    (old : ∀ place ∈ slots, place.1.Canonical ∧ ∀ e, place.2.entry = some e → good place.1 e) :
    ∀ place ∈ setSlot file slot slots,
      place.1.Canonical ∧ ∀ e, place.2.entry = some e → good place.1 e := by
  induction slots with
  | nil =>
      intro place member
      cases List.mem_singleton.mp member
      exact ⟨canonical, new⟩
  | cons first rest ih =>
      intro place member
      have later := ih fun place inside => old place (List.mem_cons_of_mem first inside)
      have head := old first (by simp)
      unfold setSlot at member
      split at member
      · rename_i same
        rcases List.mem_cons.mp member with rfl | inside
        · rw [head.1.eq_of_same canonical same]
          exact ⟨canonical, new⟩
        · exact old place (List.mem_cons_of_mem first inside)
      · rcases List.mem_cons.mp member with rfl | inside
        · exact head
        · exact later place inside

/-- Fetching keeps what holds of all entries, if it holds of what the analyzer says now. -/
theorem Holds.fetch (h : C.Holds good) (canonical : key.file.Canonical)
    (fresh : ∀ new : Stored, (analyze s).answer = .ok new.result →
      good key.file ⟨key.node, key.fingerprint, new⟩) :
    (C.fetch key analyze s).state.1.Holds good := by
  cases fetched_fetch C key analyze s with
  | served slot e has holds fits slots rest answer => rwa [Holds, slots]
  | stored slot new said holds slots rest answer =>
      rw [Holds, slots]
      apply holds_setSlot canonical _ h
      intro e entry
      cases holds.symm.trans entry
      exact fresh new said
  | kept slot said holds slots rest answer =>
      rw [Holds, slots]
      apply holds_setSlot canonical _ h
      intro e entry
      obtain ⟨old, found, has⟩ := getD_slot?_entry (holds.symm.trans entry)
      exact h.entry canonical found has

theorem Holds.keepOnly (h : C.Holds good) (live : List Path) : (C.keepOnly live).1.Holds good := by
  intro place member
  exact h place (List.mem_of_mem_filter member)

end RootedBuild.ResultCache
