import RootedBuild.Descriptor.Chain
import RootedBuild.Proofs.Path.Count

/-!
Reading a descriptor, as a derivation without a bound on its depth. A `Task` is what the reader has
before it, and `Runs` says what comes of it; a derivation is finite, so a task that has one comes to
an end. Every reading of a descriptor has one, because the descriptors on a chain are all different
and have short paths, of which there are not as many as the bound allows.
-/
namespace RootedBuild.Descriptor

/-- To read a descriptor under a chain, or to lay bases of it over the sum of those before. -/
inductive Task where
  | read (chain : List Path) (p : Path)
  | lay (chain : List Path) (p : Path) (names : List String) (sum : Options)

/-- What comes of a task. -/
inductive Runs (t : FileTree) : Task → Except DescriptorFault Options → Prop where
  | again {chain p} (met : chain.any (·.same p) = true) :
    Runs t (.read chain p) (.error ⟨p, .circular (chain ++ [p])⟩)
  | unloaded {chain p f} (fresh : chain.any (·.same p) = false) (failed : load t p = .error f) :
    Runs t (.read chain p) (.error f)
  | loaded {chain p d r} (fresh : chain.any (·.same p) = false) (found : load t p = .ok d)
    (bases : Runs t (.lay (chain ++ [p]) p d.bases .empty) r) :
    Runs t (.read chain p) (r.map (layOwn p d))
  | finished {chain p sum} : Runs t (.lay chain p [] sum) (.ok sum)
  | missing {chain p name names sum} (nowhere : base? t (home p) name = none) :
    Runs t (.lay chain p (name :: names) sum) (.error ⟨p, .baseMissing name⟩)
  | broken {chain p name names sum base f} (found : base? t (home p) name = some base)
    (failed : Runs t (.read chain base) (.error f)) :
    Runs t (.lay chain p (name :: names) sum) (.error f)
  | laid {chain p name names sum base inherited r} (found : base? t (home p) name = some base)
    (read : Runs t (.read chain base) (.ok inherited))
    (rest : Runs t (.lay chain p names (sum.merge inherited.members)) r) :
    Runs t (.lay chain p (name :: names) sum) r

variable {t : FileTree}

/-- A task comes to one end only. -/
theorem Runs.unique {task : Task} {r r' : Except DescriptorFault Options} (h : Runs t task r)
    (h' : Runs t task r') : r = r' := by
  induction h generalizing r' with
  | again met =>
      cases h' with
      | again _ => rfl
      | unloaded fresh _ => exact absurd (met.symm.trans fresh) (by decide)
      | loaded fresh _ _ => exact absurd (met.symm.trans fresh) (by decide)
  | unloaded fresh failed =>
      cases h' with
      | again met => exact absurd (met.symm.trans fresh) (by decide)
      | unloaded _ failed' => rw [← Except.error.inj (failed.symm.trans failed')]
      | loaded _ found _ => exact absurd (failed.symm.trans found) (by simp)
  | loaded fresh found _ ih =>
      cases h' with
      | again met => exact absurd (met.symm.trans fresh) (by decide)
      | unloaded _ failed => exact absurd (failed.symm.trans found) (by simp)
      | loaded _ found' bases =>
          obtain rfl := Except.ok.inj (found.symm.trans found')
          rw [ih bases]
  | finished =>
      cases h'
      rfl
  | missing nowhere =>
      cases h' with
      | missing _ => rfl
      | broken found _ => exact absurd (nowhere.symm.trans found) (by simp)
      | laid found _ _ => exact absurd (nowhere.symm.trans found) (by simp)
  | broken found _ ih =>
      cases h' with
      | missing nowhere => exact absurd (nowhere.symm.trans found) (by simp)
      | broken found' failed =>
          obtain rfl := Option.some.inj (found.symm.trans found')
          rw [Except.error.inj (ih failed)]
      | laid found' read _ =>
          obtain rfl := Option.some.inj (found.symm.trans found')
          exact absurd (ih read) (by simp)
  | laid found _ _ ih ihRest =>
      cases h' with
      | missing nowhere => exact absurd (nowhere.symm.trans found) (by simp)
      | broken found' failed =>
          obtain rfl := Option.some.inj (found.symm.trans found')
          exact absurd (ih failed) (by simp)
      | laid found' read rest =>
          obtain rfl := Option.some.inj (found.symm.trans found')
          obtain rfl := Except.ok.inj (ih read)
          exact ihRest rest

/-! ### Chains -/

/-- Descriptors that can be on a chain together: no two are the same path, and all could be read. -/
structure Chain (chain : List Path) : Prop where
  distinct : chain.Pairwise fun q r => q.same r = false
  short : ∀ q ∈ chain, q.text.utf8ByteSize ≤ FileTree.longestPath

theorem chain_nil : Chain [] := ⟨List.Pairwise.nil, by simp⟩

theorem short_of_load {p : Path} {d : Descriptor} (h : load t p = .ok d) :
    p.text.utf8ByteSize ≤ FileTree.longestPath := by
  by_contra long
  have unread : ∃ f, t.lookUp p = .error f := by
    unfold FileTree.lookUp
    split
    · exact ⟨_, rfl⟩
    · split
      · exact ⟨_, rfl⟩
      · rw [if_pos (Nat.lt_of_not_le long)]
        exact ⟨_, rfl⟩
  obtain ⟨f, unread⟩ := unread
  simp [load, FileTree.readText, FileTree.read, unread] at h

theorem Chain.push {chain : List Path} {p : Path} {d : Descriptor} (h : Chain chain)
    (fresh : chain.any (·.same p) = false) (found : load t p = .ok d) : Chain (chain ++ [p]) where
  distinct := by
    rw [List.pairwise_append]
    refine ⟨h.distinct, List.pairwise_singleton _ _, ?_⟩
    intro q inside r last
    rw [List.mem_singleton.mp last]
    rw [List.any_eq_false] at fresh
    exact Bool.eq_false_iff.mpr (fresh q inside)
  short := by
    intro q member
    rcases List.mem_append.mp member with inside | last
    · exact h.short q inside
    · rw [List.mem_singleton.mp last]
      exact short_of_load found

/-- A chain never gets as long as the bound on reading. -/
theorem Chain.length_lt {chain : List Path} (h : Chain chain) : chain.length < chainBound := by
  have few := Path.length_le_of_short h.distinct h.short
  unfold chainBound
  generalize FileTree.longestPath = n at few ⊢
  have positive : 0 < 256 ^ n := Nat.pow_pos (by decide)
  have next : Nat.pow 256 (n + 1) = 256 ^ n * 256 := Nat.pow_succ 256 n
  rw [next]
  omega

/-! ### Every reading ends -/

theorem runs_layBases {chain : List Path} {read : Path → Reading}
    (each : ∀ base, Runs t (.read chain base) (read base).answer) (p : Path) (names : List String)
    (options : Options) :
    Runs t (.lay chain p names options) (layBases t read p names options).answer := by
  induction names generalizing options with
  | nil => exact .finished
  | cons name names ih =>
      unfold layBases
      cases found : base? t (home p) name with
      | none => exact .missing found
      | some base =>
          have first := each base
          dsimp only
          cases answer : (read base).answer with
          | error f =>
              rw [answer] at first
              exact .broken found first
          | ok inherited =>
              rw [answer] at first
              exact .laid found first (ih _)

/-- With as much fuel as the bound leaves above the chain, reading goes on to its end. -/
theorem runs_readChain {chain : List Path} (h : Chain chain) {fuel : Nat}
    (enough : chainBound ≤ chain.length + fuel) (p : Path) :
    Runs t (.read chain p) (readChain t fuel chain p).answer := by
  induction fuel generalizing chain p with
  | zero => exact absurd h.length_lt (Nat.not_lt.mpr enough)
  | succ fuel ih =>
      unfold readChain
      cases met : chain.any (·.same p) with
      | true =>
          rw [if_pos rfl]
          exact .again met
      | false =>
          rw [if_neg Bool.false_ne_true]
          cases found : load t p with
          | error f => exact .unloaded met found
          | ok d =>
              -- the chain grows by what the fuel loses
              have room : chainBound ≤ (chain ++ [p]).length + fuel := by
                rw [List.length_append, List.length_singleton]
                omega
              exact .loaded met found
                (runs_layBases (ih (h.push met found) room) p d.bases .empty)

theorem runs_readOptionsAt (t : FileTree) (p : Path) :
    Runs t (.read [] (t.absolute p)) (readOptionsAt t p).answer := by
  have room : chainBound ≤ ([] : List Path).length + chainBound := Nat.le_add_left _ _
  exact runs_readChain chain_nil room (t.absolute p)

end RootedBuild.Descriptor
