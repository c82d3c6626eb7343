import RootedBuild.Proofs.Cache.Requests

/-!
What a cache holds, told by its history. Uses of a cache come one after the other, each request with
an analysis of its own, of which nothing is assumed: it may hang on a state, fail or crash. A journal
says what became of results meanwhile, and has an analysis only if the cache had it run. A key is
found exactly if the journal's latest result of its file is the one the key asks for, and a look-up
tells whether a request will be served.
-/
namespace RootedBuild.ResultCache

/-- A use of a cache. A request names its node by number and brings the analysis that is run if
nothing stored serves it. -/
inductive Use (τ : Type) where
  | fetch (file : Path) (node : Nat) (source : String)
      (analyze : τ → Turn τ (Outcome AnalysisFault Analysis))
  | get (key : CacheKey)
  | keepOnly (live : List Path)
  | clear

/-- What a use leaves. -/
def use (C : ResultCache) (s : τ) : Use τ → ResultCache × τ
  | .fetch file node source analyze => (C.fetch (.of file node source) analyze s).state
  | .get _ => (C, s)
  | .keepOnly live => ((C.keepOnly live).1, s)
  | .clear => (C.clear, s)

def run (C : ResultCache) (s : τ) : List (Use τ) → ResultCache × τ
  | [] => (C, s)
  | u :: us => run (C.use s u).1 (C.use s u).2 us

/-! ### The journal -/

/-- Something that happened to results: an analysis was run, files that are not live any more were
dropped, or all were. -/
inductive Deed where
  | analyzed (file : Path) (node : Nat) (source : String)
      (outcome : Outcome AnalysisFault Analysis)
  | kept (live : List Path)
  | cleared

namespace Deed

/-- Whether a result was stored. -/
def stores : Deed → Bool
  | .analyzed _ _ _ (.ok _) => true
  | _ => false

/-- Whether an earlier result of the file is no longer there after it. -/
def displaces (file : Path) : Deed → Bool
  | .analyzed f _ _ (.ok _) => f.same file
  | .analyzed .. => false
  | .kept live => isGone live file
  | .cleared => true

end Deed

/-- The same analysis, which writes down that it was run and how it ended. -/
def noting (file : Path) (node : Nat) (source : String)
    (analyze : τ → Turn τ (Outcome AnalysisFault Analysis)) (s : τ × List Deed) :
    Turn (τ × List Deed) (Outcome AnalysisFault Analysis) :=
  let turn := analyze s.1
  ⟨(turn.state, s.2 ++ [.analyzed file node source turn.answer]), turn.events, turn.answer⟩

/-- What a use does to results. Of a request only its analysis counts, if that is run. -/
def deeds (C : ResultCache) (s : τ) : Use τ → List Deed
  | .fetch file node source analyze =>
    (C.fetch (.of file node source) (noting file node source analyze) (s, [])).state.2.2
  | .get _ => []
  | .keepOnly live => [.kept live]
  | .clear => [.cleared]

def journal (C : ResultCache) (s : τ) : List (Use τ) → List Deed
  | [] => []
  | u :: us => C.deeds s u ++ journal (C.use s u).1 (C.use s u).2 us

variable {C : ResultCache} {file : Path} {past : List Deed}

/-- All that a use can do to a cache, with what is written down of it. A request either is served or
has its analysis run. -/
inductive Does (C : ResultCache) : List Deed → ResultCache → Prop where
  | nothing : C.Does [] C
  | served : C.Does [] C.countHit
  | analyzed (file : Path) (node : Nat) (source : String) (outcome : Outcome AnalysisFault Analysis)
      (bare : (C.get (.of file node source)).answer = none) :
      C.Does [.analyzed file node source outcome] (C.afterAnalysis (.of file node source) outcome)
  | kept (live : List Path) : C.Does [.kept live] (C.keepOnly live).1
  | cleared : C.Does [.cleared] C.clear

theorem does_use (C : ResultCache) (s : τ) (u : Use τ) : C.Does (C.deeds s u) (C.use s u).1 := by
  cases u with
  | fetch file node source analyze =>
      rw [deeds, use]
      cases has : (C.get (.of file node source)).answer with
      | some stored =>
          rw [(fetch_of_get has _ _).1, (fetch_of_get has _ _).1]
          exact .served
      | none =>
          rw [(fetch_of_get_eq_none has _ _).1, (fetch_of_get_eq_none has _ _).1]
          exact .analyzed file node source (analyze s).answer has
  | get key => exact .nothing
  | keepOnly live => exact .kept live
  | clear => exact .cleared

/-- What every use keeps, all uses keep. -/
theorem run_keeps {P : ResultCache → List Deed → Prop}
    (keeps : ∀ {C D past deeds}, P C past → C.Does deeds D → P D (past ++ deeds))
    (h : P C past) (s : τ) (us : List (Use τ)) :
    P (C.run s us).1 (past ++ C.journal s us) := by
  induction us generalizing C s past with
  | nil => simpa [run, journal] using h
  | cons u us ih =>
      have later := ih (keeps h (C.does_use s u)) (C.use s u).2
      rwa [List.append_assoc] at later

/-! ### What the past still says of a file -/

/-- Somewhere in the past this happened, and nothing after it has undone it. -/
def Since (happened : List Deed → Deed → Prop) (undone : Deed → Bool) (past : List Deed) : Prop :=
  ∃ before deed after, past = before ++ deed :: after ∧ happened before deed ∧
    ∀ later ∈ after, undone later = false

/-- It happened last of all, or had happened before and the last deed leaves it. -/
theorem since_concat {happened : List Deed → Deed → Prop} {undone : Deed → Bool} {deed : Deed} :
    Since happened undone (past ++ [deed]) ↔
      happened past deed ∨ undone deed = false ∧ Since happened undone past := by
  constructor
  · rintro ⟨before, then', after, split, it, still⟩
    -- The new deed is the one that is meant if nothing follows that, and else the last to follow.
    rcases List.eq_nil_or_concat' after with rfl | ⟨rest, last, rfl⟩
    · obtain ⟨rfl, same⟩ := List.append_inj' split rfl
      cases same
      exact .inl it
    · have moved : past ++ [deed] = (before ++ then' :: rest) ++ [last] := by simpa using split
      obtain ⟨rfl, same⟩ := List.append_inj' moved rfl
      cases same
      obtain ⟨later, now⟩ := List.forall_mem_append.mp still
      exact .inr ⟨now _ (List.mem_singleton.mpr rfl), before, then', rest, rfl, it, later⟩
  · rintro (it | ⟨now, before, then', after, rfl, it, still⟩)
    · exact ⟨past, deed, [], rfl, it, by simp⟩
    · refine ⟨before, then', after ++ [deed], by simp, it, ?_⟩
      simpa [or_imp, forall_and] using ⟨still, now⟩

theorem not_since_nil {happened : List Deed → Deed → Prop} {undone : Deed → Bool} :
    ¬Since happened undone [] := by
  rintro ⟨before, deed, after, split, _⟩
  simp at split

/-- The record is what this analysis has left, after so many results as these deeds have stored. -/
def Deed.Leaves (file : Path) (e : CacheRecord) (before : List Deed) (deed : Deed) : Prop :=
  ∃ f source, deed = .analyzed f e.node source (.ok e.stored.result) ∧ f.same file = true ∧
    e.fingerprint = .ofText source ∧ e.stored.serial = before.countP Deed.stores

/-- The record is what the latest result of the file left. -/
def Latest (past : List Deed) (file : Path) (e : CacheRecord) : Prop :=
  Since (Deed.Leaves file e) (Deed.displaces file) past

theorem latest_concat {deed : Deed} {e : CacheRecord} : Latest (past ++ [deed]) file e ↔
    deed.Leaves file e past ∨ deed.displaces file = false ∧ Latest past file e :=
  since_concat

theorem latest_iff {e : CacheRecord} : Latest past file e ↔ ∃ before f source after,
    past = before ++ .analyzed f e.node source (.ok e.stored.result) :: after ∧
      f.same file = true ∧ e.fingerprint = .ofText source ∧
      e.stored.serial = before.countP Deed.stores ∧
      ∀ deed ∈ after, deed.displaces file = false := by
  constructor
  · rintro ⟨before, deed, after, rfl, ⟨f, source, rfl, same, print, serial⟩, still⟩
    exact ⟨before, f, source, after, rfl, same, print, serial, still⟩
  · rintro ⟨before, f, source, after, rfl, same, print, serial, still⟩
    exact ⟨before, _, after, rfl, ⟨f, source, rfl, same, print, serial⟩, still⟩

/-- The cache holds of each file the latest result of the past, and has numbered all results. -/
structure Recalls (C : ResultCache) (past : List Deed) : Prop where
  made : C.made = past.countP Deed.stores
  record : ∀ file e, C.record? file = some e ↔ Latest past file e

theorem recalls_empty : empty.Recalls [] where
  made := rfl
  record := by
    intro file e
    exact iff_of_false (by simp [record?, slot?, empty]) not_since_nil

/-- A deed that stores nothing takes from what is held what it displaces. -/
theorem Recalls.unstored (h : C.Recalls past) {D : ResultCache} {deed : Deed}
    (stores : deed.stores = false) (made : D.made = C.made)
    (record : ∀ f, D.record? f = if deed.displaces f then none else C.record? f) :
    D.Recalls (past ++ [deed]) where
  made := by simp [made, h.made, stores]
  record := by
    intro f e
    have old : ¬deed.Leaves f e past := by
      rintro ⟨g, source, rfl, _⟩
      cases stores
    rw [latest_concat, record, ← h.record, or_iff_right old]
    cases deed.displaces f <;> simp

theorem Recalls.stored (h : C.Recalls past) (file : Path) (node : Nat) (source : String)
    (result : Analysis) : (C.afterAnalysis (.of file node source) (.ok result)).Recalls
      (past ++ [.analyzed file node source (.ok result)]) where
  made := by simp [afterAnalysis, h.made, Deed.stores]
  record := by
    intro f e
    rw [latest_concat, record?_afterAnalysis_ok, Deed.displaces, ← h.record, h.made]
    obtain ⟨_, _, _, _⟩ := e
    split
    · rename_i same
      constructor
      · rintro ⟨⟩
        exact .inl ⟨file, source, rfl, same, rfl, rfl⟩
      · rintro (⟨g, text, ⟨⟩, _, rfl, rfl⟩ | ⟨displaced, _⟩)
        · rfl
        · cases same.symm.trans displaced
    · rename_i other
      constructor
      · exact fun held => .inr ⟨Bool.eq_false_iff.mpr other, held⟩
      · rintro (⟨g, text, ⟨⟩, same, _⟩ | ⟨_, held⟩)
        · exact absurd same other
        · exact held

theorem Recalls.does (h : C.Recalls past) {D : ResultCache} {deeds : List Deed}
    (does : C.Does deeds D) : D.Recalls (past ++ deeds) := by
  cases does with
  | nothing => rwa [List.append_nil]
  | served =>
      rw [List.append_nil]
      exact ⟨h.made, h.record⟩
  | analyzed file node source outcome bare =>
      cases outcome with
      | ok result => exact h.stored file node source result
      | failed e => exact h.unstored rfl rfl fun f => record?_afterAnalysis (by simp) f
      | crashed => exact h.unstored rfl rfl fun f => record?_afterAnalysis (by simp) f
  | kept live => exact h.unstored rfl rfl (record?_keepOnly C live)
  | cleared => exact h.unstored rfl rfl fun f => rfl

/-- A key is found exactly if the file's latest result was made by the key's node from a text with
its fingerprint and has not been displaced since. What is found is served, and nothing is run. -/
theorem run_finds_latest (us : List (Use τ)) (s : τ) :
    let C := (empty.run s us).1
    (∀ key stored, (C.get key).answer = some stored ↔ ∃ before f source after,
      empty.journal s us = before ++ .analyzed f key.node source (.ok stored.result) :: after ∧
        f.same key.file = true ∧ key.fingerprint = .ofText source ∧
        stored.serial = before.countP Deed.stores ∧
        ∀ deed ∈ after, deed.displaces key.file = false) ∧
    ∀ (key : CacheKey) {τ : Type} (analyze : τ → Turn τ (Outcome AnalysisFault Analysis)) (m : τ),
      (∀ stored, (C.get key).answer = some stored →
        (C.fetch key analyze m).state.2 = m ∧ (C.fetch key analyze m).answer = .ok stored) ∧
      ((C.get key).answer = none →
        (C.fetch key analyze m).state.2 = (analyze m).state ∧
          (C.fetch key analyze m).answer.map Stored.result = (analyze m).answer) ∧
      ((∀ result, (analyze m).answer ≠ .ok result) →
        ∀ k, ((C.fetch key analyze m).state.1.get k).answer = (C.get k).answer) ∧
      (∀ k : CacheKey, key.file.same k.file = false →
        ((C.fetch key analyze m).state.1.get k).answer = (C.get k).answer) ∧
      C.use m (.get key) = (C, m) := by
  intro C
  have recalls : C.Recalls (empty.journal s us) := run_keeps (fun h does => h.does does) recalls_empty s us
  refine ⟨fun key stored => (get_eq_some_iff.trans (recalls.record key.file _)).trans latest_iff, ?_⟩
  intro key τ analyze m
  refine ⟨fun stored has => ?_, fun bare => ?_, get_fetch_of_refused, fun k => get_fetch_of_apart,
    rfl⟩
  · obtain ⟨state, answer⟩ := fetch_of_get has analyze m
    exact ⟨by rw [state], answer⟩
  · obtain ⟨state, answer⟩ := fetch_of_get_eq_none bare analyze m
    refine ⟨by rw [state], ?_⟩
    rw [answer]
    cases (analyze m).answer <;> rfl

/-- An analysis that always ends like this. -/
def always (outcome : Outcome AnalysisFault Analysis) (s : Unit) :
    Turn Unit (Outcome AnalysisFault Analysis) := ⟨s, [], outcome⟩

/-- A result outlives an analysis of another text that crashed, and an eviction that keeps its
file. -/
theorem run_finds_latest_crashed :
    let succeed := always (.ok ⟨"1", []⟩)
    let crash := always .crashed
    let us : List (Use Unit) := [.fetch ⟨"/a.ts"⟩ 0 "1" succeed, .fetch ⟨"/a.ts"⟩ 0 "2" crash,
      .keepOnly [⟨"//a.ts"⟩]]
    let C := (empty.run () us).1
    let known : CacheKey := .of ⟨"/./a.ts"⟩ 0 "1"
    let unknown : CacheKey := .of ⟨"/a.ts"⟩ 0 "2"
    let other : CacheKey := .of ⟨"/b.ts"⟩ 0 "1"
    (C.get known).answer = some ⟨0, ⟨"1", []⟩⟩ ∧ (C.get unknown).answer = none ∧
      (∀ result, (crash ()).answer ≠ .ok result) ∧ other.file.same known.file = false ∧
      (C.fetch known crash ()).answer = .ok ⟨0, ⟨"1", []⟩⟩ ∧
      (C.fetch unknown succeed ()).answer.map Stored.result = .ok ⟨"1", []⟩ ∧
      ((C.fetch unknown crash ()).state.1.get known).answer = (C.get known).answer ∧
      ((C.fetch other succeed ()).state.1.get known).answer = (C.get known).answer := by
  intro succeed crash us C known unknown other
  obtain ⟨has, bare⟩ : (C.get known).answer = some ⟨0, ⟨"1", []⟩⟩ ∧
      (C.get unknown).answer = none := by
    decide +kernel
  have refused : ∀ result, (crash ()).answer ≠ .ok result := by
    rintro result ⟨⟩
  have apart : other.file.same known.file = false := by decide
  obtain ⟨_, latest⟩ := run_finds_latest us ()
  obtain ⟨served, _⟩ := latest known crash ()
  obtain ⟨_, made, _⟩ := latest unknown succeed ()
  obtain ⟨_, _, unchanged, _⟩ := latest unknown crash ()
  obtain ⟨_, _, _, untouched, _⟩ := latest other succeed ()
  dsimp only [C]
  exact ⟨has, bare, refused, apart, (served _ has).2, (made bare).2, unchanged refused known,
    untouched known apart⟩

end RootedBuild.ResultCache
