import RootedBuild.Proofs.Descriptor.Bases
import RootedBuild.Proofs.Descriptor.Runs

/-!
Descriptors that extend themselves. Every reading ends, and a path that stands on the chain already,
by its parts, ends it with a fault. A file that is reached again by another spelling is not noticed:
that takes a package name with a step upwards, which is kept as it is written while all other names
are cleaned. When that happens the file is read once more, and the answer may even be options.
-/
namespace RootedBuild.Descriptor

variable {t : FileTree}

/-! ### Where a reading gets to -/

/-- The descriptors that a reading of `d` sets out to read, each with the chain that leads to it.
The bases named before it have all been read. -/
inductive Reached (t : FileTree) (d : Path) : List Path → Path → Prop where
  | start : Reached t d [] (t.absolute d)
  | base {chain p desc before name after sum b} (reached : Reached t d chain p)
    (fresh : chain.any (·.same p) = false) (loaded : load t p = .ok desc)
    (split : desc.bases = before ++ name :: after)
    (earlier : Runs t (.lay (chain ++ [p]) p before .empty) (.ok sum))
    (found : base? t (home p) name = some b) : Reached t d (chain ++ [p]) b

/-- The first base is reached under the descriptor alone. -/
theorem Reached.first {d b : Path} {desc : Descriptor} {name : String} {names : List String}
    (loaded : load t (t.absolute d) = .ok desc) (named : desc.bases = name :: names)
    (found : base? t (home (t.absolute d)) name = some b) : Reached t d [t.absolute d] b :=
  .base .start rfl loaded named .finished found

theorem runs_lay_append {chain : List Path} {p b : Path} {before : List String} {name : String}
    (after : List String) {sum sum' : Options} {f : DescriptorFault}
    (earlier : Runs t (.lay chain p before sum) (.ok sum'))
    (found : base? t (home p) name = some b) (failed : Runs t (.read chain b) (.error f)) :
    Runs t (.lay chain p (before ++ name :: after) sum) (.error f) := by
  induction before generalizing sum with
  | nil => exact .broken found failed
  | cons first before ih =>
      cases earlier with
      | laid foundFirst read rest => exact .laid foundFirst read (ih rest)

/-- A fault anywhere is the fault of the whole reading. -/
theorem Reached.fails {d : Path} {chain : List Path} {p : Path} (h : Reached t d chain p)
    {f : DescriptorFault} (failed : Runs t (.read chain p) (.error f)) :
    (readOptionsAt t d).answer = .error f := by
  induction h with
  | start => exact (runs_readOptionsAt t d).unique failed
  | @base chain p desc before name after sum b _ fresh loaded split earlier found ih =>
      have bases := runs_lay_append after earlier found failed
      rw [← split] at bases
      exact ih (.loaded fresh loaded bases)

theorem Reached.chain {d : Path} {chain : List Path} {p : Path} (h : Reached t d chain p) :
    Chain chain := by
  induction h with
  | start => exact chain_nil
  | base _ fresh loaded _ _ _ ih => exact ih.push fresh loaded

/-! ### Faults of circularity -/

theorem load_reason {p : Path} {f : DescriptorFault} (h : load t p = .error f)
    (chain : List Path) : f.reason ≠ .circular chain := by
  unfold load at h
  split at h
  · rw [← Except.error.inj h]
    simp
  · rename_i text _
    cases read : ofText text with
    | error g =>
        rw [read] at h
        rw [← Except.error.inj h]
        simp
    | ok d => simp [read, Except.mapError] at h

/-- A fault of circularity tells a chain and a path on it. -/
theorem Runs.circular {task : Task} {r : Except DescriptorFault Options} (h : Runs t task r) :
    ∀ x whole, r = .error ⟨x, .circular whole⟩ →
      ∃ chain : List Path, whole = chain ++ [x] ∧ chain.any (·.same x) = true := by
  induction h with
  | @again chain p met =>
      intro x whole same
      cases same
      exact ⟨chain, rfl, met⟩
  | unloaded _ failed =>
      intro x whole same
      obtain rfl := Except.error.inj same
      exact absurd rfl (load_reason failed whole)
  | @loaded chain p d r _ _ _ ih =>
      intro x whole same
      cases r with
      | error f => exact ih x whole same
      | ok options => cases same
  | finished =>
      intro x whole same
      cases same
  | missing _ =>
      intro x whole same
      cases same
  | broken _ _ ih => exact ih
  | laid _ _ _ _ ih => exact ih

/-- The answer tells a chain and what it leads to exactly when that stands on the chain. -/
theorem Reached.answer_circular_iff {d : Path} {chain : List Path} {p : Path}
    (h : Reached t d chain p) :
    (readOptionsAt t d).answer = .error ⟨p, .circular (chain ++ [p])⟩ ↔
      ∃ q ∈ chain, q.same p = true := by
  rw [← List.any_eq_true]
  constructor
  · intro answer
    obtain ⟨chain', same, met⟩ := (runs_readOptionsAt t d).circular p _ answer
    rwa [List.append_cancel_right same]
  · intro met
    exact h.fails (.again met)

/-! ### Other spellings -/

/-- The path is another spelling of one on the chain. -/
def LeadsBack (chain : List Path) (p : Path) : Prop := ∃ q ∈ chain, q.clean = p.clean

/-- No file is on a chain twice, and whatever leads back to one ends the reading. -/
def CatchesCycles (t : FileTree) (d : Path) : Prop :=
  ∀ chain p, Reached t d chain p →
    chain.Pairwise (fun q r => q.clean ≠ r.clean) ∧
      (LeadsBack chain p → (readOptionsAt t d).answer = .error ⟨p, .circular (chain ++ [p])⟩)

/-- Names without steps upwards lead to tidy paths only. -/
theorem Reached.tidy {d : Path} {chain : List Path} {p : Path} (rooted : t.here.isAbsolute = true)
    (plain : ∀ chain p, Reached t d chain p → ∀ desc, load t p = .ok desc →
      ∀ name ∈ desc.bases, ¬StepsUp name)
    (h : Reached t d chain p) : p.Tidy ∧ ∀ q ∈ chain, q.Tidy := by
  induction h with
  | start => exact ⟨(FileTree.canonical_absolute rooted d).tidy, by simp⟩
  | @base chain p desc before name after sum b reached fresh loaded split _ found ih =>
      have named : name ∈ desc.bases := by simp [split]
      have base := tidy_base? found (tidy_home ih.1) (plain chain p reached desc loaded name named)
      refine ⟨base, ?_⟩
      intro q member
      rcases List.mem_append.mp member with inside | last
      · exact ih.2 q inside
      · rw [List.mem_singleton.mp last]
        exact ih.1

/-- When every spelling is noticed, the files on a chain are different. -/
theorem Reached.distinct {d : Path} {chain : List Path} {p : Path} (h : Reached t d chain p)
    (noticed : ∀ chain p, Reached t d chain p → LeadsBack chain p → ∃ q ∈ chain, q.same p = true) :
    chain.Pairwise fun q r => q.clean ≠ r.clean := by
  induction h with
  | start => exact List.Pairwise.nil
  | @base chain p desc before name after sum b reached fresh _ _ _ _ ih =>
      rw [List.pairwise_append]
      refine ⟨ih, List.pairwise_singleton _ _, ?_⟩
      intro q inside r last same
      rw [List.mem_singleton.mp last] at same
      obtain ⟨other, member, met⟩ := noticed chain p reached ⟨q, inside, same⟩
      rw [List.any_eq_false] at fresh
      exact fresh other member met

/-- Reading ends on every tree. A descriptor is told as circular exactly when one with the same
parts is on the chain, so all cycles are caught exactly if none leads back by other parts. -/
theorem reading_ends_and_catchesCycles_iff (rooted : t.here.isAbsolute = true) (d : Path) :
    (∀ fuel, chainBound ≤ fuel →
        (readChain t fuel [] (t.absolute d)).answer = (readOptionsAt t d).answer) ∧
      Runs t (.read [] (t.absolute d)) (readOptionsAt t d).answer ∧
      (∀ chain p, Reached t d chain p →
        chain.Pairwise (fun q r => q.same r = false) ∧
          ((readOptionsAt t d).answer = .error ⟨p, .circular (chain ++ [p])⟩ ↔
            ∃ q ∈ chain, q.same p = true)) ∧
      (CatchesCycles t d ↔
        ∀ chain p, Reached t d chain p → LeadsBack chain p → ∃ q ∈ chain, q.same p = true) ∧
      ((∀ chain p, Reached t d chain p → ∀ desc, load t p = .ok desc →
        ∀ name ∈ desc.bases, ¬StepsUp name) → CatchesCycles t d) := by
  have ends := runs_readOptionsAt t d
  have noticed_iff : CatchesCycles t d ↔ ∀ chain p, Reached t d chain p → LeadsBack chain p →
      ∃ q ∈ chain, q.same p = true := by
    constructor
    · intro catches chain p reached back
      exact reached.answer_circular_iff.mp ((catches chain p reached).2 back)
    · intro noticed chain p reached
      refine ⟨reached.distinct noticed, ?_⟩
      intro back
      exact reached.answer_circular_iff.mpr (noticed chain p reached back)
  refine ⟨?_, ends, ?_, noticed_iff, ?_⟩
  · intro fuel enough
    have room : chainBound ≤ ([] : List Path).length + fuel := by
      rwa [List.length_nil, Nat.zero_add]
    have more : Runs t _ _ := runs_readChain chain_nil room (t.absolute d)
    exact more.unique ends
  · intro chain p reached
    exact ⟨reached.chain.distinct, reached.answer_circular_iff⟩
  · intro plain
    rw [noticed_iff]
    rintro chain p reached ⟨q, member, same⟩
    have tidy := reached.tidy rooted plain
    exact ⟨q, member, ((tidy.2 q member).clean_eq_iff tidy.1).mp same⟩

def selfExtending : FileTree where
  entries := [(["a.json"], .file "[\"./a\", null]".toUTF8.toList)]
  here := ⟨"/"⟩

theorem readOptionsAt_selfExtending :
    selfExtending.here.isAbsolute = true ∧
      (readOptionsAt selfExtending ⟨"a.json"⟩).answer =
        .error ⟨⟨"/a.json"⟩, .circular [⟨"/a.json"⟩, ⟨"/a.json"⟩]⟩ := by
  have rooted : selfExtending.here.isAbsolute = true := by decide
  refine ⟨rooted, ?_⟩
  have named : (match load selfExtending (selfExtending.absolute ⟨"a.json"⟩) with
      | .ok d => d.bases == ["./a"]
      | .error _ => false) = true := by decide +kernel
  cases loaded : load selfExtending (selfExtending.absolute ⟨"a.json"⟩) with
  | error f => simp [loaded] at named
  | ok d =>
      simp only [loaded, beq_iff_eq] at named
      have again : Reached selfExtending ⟨"a.json"⟩ _ ⟨"/a.json"⟩ :=
        .first loaded named (by decide +kernel)
      have caught :=
        ((reading_ends_and_catchesCycles_iff rooted ⟨"a.json"⟩).2.2.1 _ _ again).2
      exact caught.mpr ⟨_, List.mem_singleton_self _, by decide +kernel⟩

/-- In `p` a package name leads back to the descriptor itself by way of `q`, where the same name
leads to another file. -/
def respelled : FileTree where
  entries :=
    [(["node_modules"], .directory),
      (["node_modules", "p.json"], .file "[\"q/../p.json\", null]".toUTF8.toList),
      (["node_modules", "q"], .directory),
      (["node_modules", "q", "node_modules"], .directory),
      (["node_modules", "q", "node_modules", "q"], .directory),
      (["node_modules", "q", "node_modules", "p.json"],
        .file "[null, \x7b\"strict\": true\x7d]".toUTF8.toList)]
  here := ⟨"/"⟩

/-- The file is read twice on one chain, and the answer is options. -/
theorem not_catchesCycles_respelled :
    ¬CatchesCycles respelled ⟨"node_modules/p.json"⟩ := by
  intro catches
  have named : (match load respelled (respelled.absolute ⟨"node_modules/p.json"⟩) with
      | .ok d => d.bases == ["q/../p.json"]
      | .error _ => false) = true := by decide +kernel
  have good : (match (readOptionsAt respelled ⟨"node_modules/p.json"⟩).answer with
      | .ok options => (options.get? "strict").isSome
      | .error _ => false) = true := by decide +kernel
  cases loaded : load respelled (respelled.absolute ⟨"node_modules/p.json"⟩) with
  | error f => simp [loaded] at named
  | ok d =>
      simp only [loaded, beq_iff_eq] at named
      have again : Reached respelled ⟨"node_modules/p.json"⟩ _ ⟨"/node_modules/q/../p.json"⟩ :=
        .first loaded named (by decide +kernel)
      have caught := (catches _ _ again).2 ⟨_, List.mem_singleton_self _, by decide +kernel⟩
      rw [caught] at good
      cases good

end RootedBuild.Descriptor
