import Mathlib.Data.List.Pairwise
import RootedBuild.Proofs.Build.Watched
import RootedBuild.Proofs.Ownership.Resolving

/-!
Any requests for nodes, one after the other. Each comes with a making of its own, which may succeed,
fail or crash, and is told of only by being run: a making under note writes down its root and how it
ended. What the requests leave is a table whose slots and arena say the same, with one node for each
making that succeeded; a making that did not is seen in nothing that can be asked of the table.
-/
namespace RootedBuild.NodeTable

/-- A request for the node of a root, and how to make one if there is none. -/
structure Request (τ ε α : Type) where
  root : Root
  make : τ → Turn τ (Outcome ε (NodeContents α))

/-- Answers requests in their order. -/
def run (R : NodeTable α) (s : τ) :
    List (Request τ ε α) → (NodeTable α × τ) × List (Outcome ε (Node α))
  | [] => ((R, s), [])
  | r :: rs =>
    let turn := R.fetch r.root r.make s
    let later := run turn.state.1 turn.state.2 rs
    (later.1, turn.answer :: later.2)

/-- The makings that were run, in order: the root of each, and whether it succeeded. -/
abbrev Makings := List (Root × Bool)

/-- The roots whose making succeeded. -/
def Makings.succeeded (ms : Makings) : List Root := (ms.filter Prod.snd).map Prod.fst

/-- The same request, which writes its making down when that is run. -/
def Request.noted (r : Request τ ε α) : Request (τ × Makings) ε α where
  root := r.root
  make s :=
    let made := r.make s.1
    ⟨(made.state, s.2 ++ [(r.root, made.answer.isOk)]), made.events, made.answer⟩

variable {R : NodeTable α} {root : Root}

/-! ### One request -/

theorem get_answer (R : NodeTable α) (root : Root) :
    (R.get root).answer = ((R.slot? root).getD {}).node := by
  unfold get
  cases R.slot? root <;> rfl

theorem get_withSlot (R : NodeTable α) (root r : Root) (slot : RootSlot α) :
    ((R.withSlot root slot).get r).answer =
      if root.same r then slot.node else (R.get r).answer := by
  rw [get_answer, get_answer, slot?_withSlot]
  split <;> rfl

/-- A node is found for a root if it stands in the arena and belongs to the root. -/
theorem Sound.get_eq_some_iff (h : R.Sound) {node : Node α} :
    (R.get root).answer = some node ↔ node ∈ R.arena ∧ node.root.same root = true := by
  rw [get_answer]
  constructor
  · intro has
    obtain ⟨slot, found, holds⟩ := getD_slot?_node has
    exact h.stands root slot node found holds
  · rintro ⟨member, same⟩
    obtain ⟨slot, found, holds⟩ := h.held node member
    rw [← slot?_congr same, found]
    exact holds

/-- A request for a root that has a node runs nothing. -/
theorem fetch_of_get {node : Node α} (has : (R.get root).answer = some node)
    (make : τ → Turn τ (Outcome ε (NodeContents α))) (s : τ) :
    (R.fetch root make s).state = (R, s) ∧ (R.fetch root make s).answer = .ok node := by
  rw [get_answer] at has
  simp only [fetch, has, and_self]

/-- Requests for the root run their making, and answer with what comes of it. -/
def Makes (R : NodeTable α) (root : Root) : Prop :=
  ∀ {τ ε : Type} (make : τ → Turn τ (Outcome ε (NodeContents α))) (s : τ),
    (R.fetch root make s).state.2 = (make s).state ∧
      (R.fetch root make s).answer = (make s).answer.map (root.nodeOf R.size)

theorem makes_of_get (bare : (R.get root).answer = none) : R.Makes root := by
  intro τ ε make s
  rw [get_answer] at bare
  cases fetched_fetch R root make s with
  | found slot node has holds =>
      rw [has] at bare
      cases holds.symm.trans bare
  | made slot parts said _ _ rest answer => exact ⟨rest, by rw [answer, said]; rfl⟩
  | failed slot e said _ _ _ rest answer => exact ⟨rest, by rw [answer, said]; rfl⟩
  | crashed slot said _ _ _ rest answer => exact ⟨rest, by rw [answer, said]; rfl⟩

/-- Two tables that cannot be told apart by asking. -/
structure Agrees (R S : NodeTable α) : Prop where
  size : R.size = S.size
  get : ∀ root, (R.get root).answer = (S.get root).answer
  node : ∀ id, R.node? id = S.node? id

theorem agrees_withSlot (bare : (R.get root).answer = none) {slot : RootSlot α}
    (unmade : slot.node = none) : (R.withSlot root slot).Agrees R where
  size := rfl
  get := by
    intro r
    rw [get_withSlot]
    split
    · rename_i same
      rw [unmade, get_answer, ← slot?_congr same, ← get_answer, bare]
    · rfl
  node _ := rfl

/-- A making that gives nothing leaves no trace. -/
theorem agrees_fetch {make : τ → Turn τ (Outcome ε (NodeContents α))} {s : τ}
    (refused : ∀ parts, (make s).answer ≠ .ok parts) (bare : (R.get root).answer = none) :
    (R.fetch root make s).state.1.Agrees R := by
  cases fetched_fetch R root make s with
  | found slot node has holds table =>
      rw [table]
      exact ⟨rfl, fun _ => rfl, fun _ => rfl⟩
  | made slot parts said => exact absurd said (refused parts)
  | failed slot e _ _ unmade table =>
      rw [table]
      exact agrees_withSlot bare unmade
  | crashed slot _ _ unmade table =>
      rw [table]
      exact agrees_withSlot bare unmade

/-- A request for another root leaves the root as it is. -/
theorem get_fetch_of_apart {other : Root} (apart : other.same root = false)
    (make : τ → Turn τ (Outcome ε (NodeContents α))) (s : τ) :
    ((R.fetch other make s).state.1.get root).answer = (R.get root).answer := by
  have untouched (slot : RootSlot α) :
      ((R.withSlot other slot).get root).answer = (R.get root).answer := by
    rw [get_withSlot, apart]
    rfl
  cases fetched_fetch R other make s with
  | found slot node has holds table => rw [table]
  | made slot parts said bare table =>
      rw [table]
      exact untouched { slot with node := some (R.push other slot parts).2 }
  | failed slot e said bare unmade table => rw [table, untouched]
  | crashed slot said bare unmade table => rw [table, untouched]

/-! ### Many requests -/

theorem get_run_of_apart {requests : List (Request τ ε α)}
    (apart : ∀ r ∈ requests, r.root.same root = false) (s : τ) :
    ((R.run s requests).1.1.get root).answer = (R.get root).answer := by
  induction requests generalizing R s with
  | nil => rfl
  | cons r rs ih =>
      obtain ⟨first, later⟩ := List.forall_mem_cons.mp apart
      exact (ih later _).trans (get_fetch_of_apart first r.make s)

theorem run_noted (R : NodeTable α) (requests : List (Request τ ε α)) (s : τ) (ms : Makings) :
    R.run s requests =
      (((R.run (s, ms) (requests.map Request.noted)).1.1,
          (R.run (s, ms) (requests.map Request.noted)).1.2.1),
        (R.run (s, ms) (requests.map Request.noted)).2) := by
  induction requests generalizing R s ms with
  | nil => rfl
  | cons r rs ih =>
      have one : (R.fetch r.root r.make s).state =
            ((R.fetch r.root r.noted.make (s, ms)).state.1,
              (R.fetch r.root r.noted.make (s, ms)).state.2.1) ∧
          (R.fetch r.root r.make s).answer = (R.fetch r.root r.noted.make (s, ms)).answer := by
        unfold fetch Request.noted
        dsimp only
        cases ((R.slot? r.root).getD {}).node with
        | some node => exact ⟨rfl, rfl⟩
        | none =>
            dsimp only
            cases (r.make s).answer <;> exact ⟨rfl, rfl⟩
      simp only [List.map_cons, run]
      rw [one.1, one.2]
      dsimp only
      rw [ih]
      rfl

/-- The nodes stand for the makings that succeeded, in their order, and have one root each. -/
structure Accounts (R : NodeTable α) (ms : Makings) : Prop where
  sound : R.Sound
  apart : R.arena.Pairwise fun n m => n.root.same m.root = false
  roots : R.arena.map Node.root = ms.succeeded

theorem accounts_empty : (empty : NodeTable α).Accounts [] where
  sound := sound_empty
  apart := List.Pairwise.nil
  roots := rfl

theorem Accounts.fetch {ms : Makings} (h : R.Accounts ms) (r : Request τ ε α) (s : τ) :
    (R.fetch r.root r.noted.make (s, ms)).state.1.Accounts
      (R.fetch r.root r.noted.make (s, ms)).state.2.2 := by
  have sound := (h.sound.fetch r.root r.noted.make (s, ms)).1
  have unsuccessful {answer : Outcome ε (NodeContents α)} (said : (r.make s).answer = answer)
      (not : answer.isOk = false) :
      Makings.succeeded (r.noted.make (s, ms)).state.2 = ms.succeeded := by
    simp [Request.noted, Makings.succeeded, said, not]
  cases fetched_fetch R r.root r.noted.make (s, ms) with
  | found slot node has holds table rest =>
      rw [table, rest]
      exact h
  | made slot parts said bare table rest =>
      rw [table] at sound ⊢
      rw [rest]
      refine ⟨sound, ?_, ?_⟩
      · refine List.pairwise_append.mpr ⟨h.apart, List.pairwise_singleton _ _, ?_⟩
        intro node member new inside
        cases List.mem_singleton.mp inside
        rw [Root.same_comm]
        exact h.sound.apart bare member
      · have kept : (r.make s).answer.isOk = true := by
          change (r.make s).answer = .ok parts at said
          rw [said]
          rfl
        simp [push, Request.noted, Makings.succeeded, kept, h.roots]
  | failed slot e said bare unmade table rest =>
      rw [table] at sound ⊢
      rw [rest]
      exact ⟨sound, h.apart, h.roots.trans (unsuccessful said rfl).symm⟩
  | crashed slot said bare unmade table rest =>
      rw [table] at sound ⊢
      rw [rest]
      exact ⟨sound, h.apart, h.roots.trans (unsuccessful said rfl).symm⟩

theorem Accounts.run {ms : Makings} (h : R.Accounts ms) (requests : List (Request τ ε α)) (s : τ) :
    (R.run (s, ms) (requests.map Request.noted)).1.1.Accounts
        (R.run (s, ms) (requests.map Request.noted)).1.2.2 ∧
      (∀ node ∈ R.arena, node ∈ (R.run (s, ms) (requests.map Request.noted)).1.1.arena) ∧
      ∀ node, .ok node ∈ (R.run (s, ms) (requests.map Request.noted)).2 →
        node ∈ (R.run (s, ms) (requests.map Request.noted)).1.1.arena := by
  induction requests generalizing R s ms with
  | nil => exact ⟨h, fun _ member => member, by simp [NodeTable.run]⟩
  | cons r rs ih =>
      obtain ⟨_, stays, given⟩ := h.sound.fetch r.root r.noted.make (s, ms)
      obtain ⟨last, kept, later⟩ := ih (h.fetch r s)
        (R.fetch r.root r.noted.make (s, ms)).state.2.1
      refine ⟨last, fun node member => kept node (stays node member), ?_⟩
      intro node answered
      rcases List.mem_cons.mp answered with first | inside
      · exact kept node (given node first.symm).1
      · exact later node inside

/-- A table after any requests. Nodes stand at the places of their ids, one for each root whose
making succeeded; a making that fails or crashes changes nothing that can be asked. -/
theorem run_keeps_table (requests : List (Request τ ε α)) (s : τ) :
    let noted := (empty : NodeTable α).run (s, []) (requests.map Request.noted)
    let R := noted.1.1
    let makings : Makings := noted.1.2.2
    (empty : NodeTable α).run s requests = ((R, noted.1.2.1), noted.2) ∧
    (∀ i node, R.node? i = some node → node.id = i) ∧
    R.arena.Pairwise (fun n m => n.root.same m.root = false) ∧
    (∀ path dir, (Root.descriptor path).same (.fallback dir) = false) ∧
    (∀ root node, (R.get root).answer = some node ↔
      node ∈ R.arena ∧ node.root.same root = true) ∧
    (∀ node, .ok node ∈ noted.2 → R.node? node.id = some node) ∧
    (R.arena.map Node.root = makings.succeeded ∧ R.size = makings.succeeded.length) ∧
    (∀ root node, (R.get root).answer = some node →
      ∀ {τ ε : Type} (make : τ → Turn τ (Outcome ε (NodeContents α))) (m : τ),
        (R.fetch root make m).state = (R, m) ∧ (R.fetch root make m).answer = .ok node) ∧
    ∀ root, (R.get root).answer = none → R.Makes root ∧
      ∀ {τ ε : Type} (make : τ → Turn τ (Outcome ε (NodeContents α))) (m : τ),
        (∀ parts, (make m).answer ≠ .ok parts) →
          (R.fetch root make m).state.1.Agrees R ∧
          ∀ {τ ε : Type} (others : List (Request τ ε α)) (o : τ),
            (∀ r ∈ others, r.root.same root = false) →
              ((R.fetch root make m).state.1.run o others).1.1.Makes root := by
  intro noted R makings
  obtain ⟨accounts, _, given⟩ := accounts_empty.run requests s
  have roots : R.arena.map Node.root = makings.succeeded := accounts.roots
  refine ⟨run_noted empty requests s [], accounts.sound.id, accounts.apart,
    fun path dir => rfl, fun root node => accounts.sound.get_eq_some_iff, ?_, ⟨roots, ?_⟩, ?_, ?_⟩
  · intro node answered
    exact accounts.sound.getElem?_id (given node answered)
  · rw [← roots, List.length_map]
    rfl
  · intro root node has τ ε make m
    exact fetch_of_get has make m
  · intro root bare
    refine ⟨makes_of_get bare, fun make m refused => ?_⟩
    have agrees := agrees_fetch refused bare
    refine ⟨agrees, fun others o apart => makes_of_get ?_⟩
    rw [get_run_of_apart apart, agrees.get, bare]

/-- A making that crashed, while another root got its node: nothing of it is seen, and the root is
made anew when it is asked for again. -/
theorem run_keeps_table_crashed :
    let root : Root := .descriptor ⟨"/p/tsconfig.json"⟩
    let other : Root := .fallback ⟨"/p"⟩
    let crash : Unit → Turn Unit (Outcome Unit (NodeContents Unit)) := fun s => ⟨s, [], .crashed⟩
    let succeed : Unit → Turn Unit (Outcome Unit (NodeContents Unit)) :=
      fun s => ⟨s, [], .ok ⟨.empty, ()⟩⟩
    let requests : List (Request Unit Unit Unit) := [⟨root, crash⟩, ⟨other, succeed⟩]
    let R := ((empty : NodeTable Unit).run ((), []) (requests.map Request.noted)).1.1
    (R.get root).answer = none ∧ (∀ parts, (crash ()).answer ≠ .ok parts) ∧
      R.arena.map Node.root = [other] ∧ (R.fetch root crash ()).state.1.Agrees R ∧
      ((R.fetch root crash ()).state.1.run () [⟨other, succeed⟩]).1.1.Makes root := by
  intro root other crash succeed requests R
  have bare : (R.get root).answer = none := Option.isNone_iff_eq_none.mp (by decide +kernel)
  have refused : ∀ parts, (crash ()).answer ≠ .ok parts := by
    rintro parts ⟨⟩
  have apart : ∀ r ∈ ([⟨other, succeed⟩] : List (Request Unit Unit Unit)),
      r.root.same root = false := by
    rintro r inside
    cases List.mem_singleton.mp inside
    rfl
  have kept := run_keeps_table requests ()
  obtain ⟨agrees, again⟩ := (kept.2.2.2.2.2.2.2.2 root bare).2 crash () refused
  exact ⟨bare, refused, by decide +kernel, agrees, again _ () apart⟩

end RootedBuild.NodeTable
