import RootedBuild.Proofs.Build.Keeping
import RootedBuild.Proofs.Build.Stopping
import RootedBuild.Proofs.Ownership.Resolving
import RootedBuild.Proofs.Service.Exchanges

/-!
What services are told. A service hears of its root and options first, and after that only of files
of this root, as long as the tree stays as it is. A service may answer what it likes, close its
output or exit; none of this is a crash, and it does not change what the next request says.
-/
namespace RootedBuild.Service

/-! ### The engine of services -/

namespace Request

/-- The file and the text of a request for an analysis. -/
def analysis? : Request → Option (Path × String)
  | .init .. => none
  | .analyze file source => some (file, source)

theorem analysis?_eq_some_iff {r : Request} {file : Path} {source : String} :
    r.analysis? = some (file, source) ↔ r = .analyze file source := by
  cases r <;> simp [analysis?]

end Request

namespace Conversation

/-- An exchange adds at most its own request to what the service has received. -/
theorem received_exchange (h : Host β) (c : Conversation β) (file : Path) (source : String) :
    ∃ more, (c.exchange h file source).1.received = c.received ++ more ∧
      ∀ r ∈ more, r = .analyze file source := by
  cases hears : c.listening with
  | false =>
      rw [exchange_of_deaf hears]
      exact ⟨[], (List.append_nil _).symm, by simp⟩
  | true =>
      exact ⟨[.analyze file source], received_exchange_of_listening hears file source, by simp⟩

end Conversation

variable {program : Program} {host : Host β} {t : FileTree}

theorem calm_engine (program : Program) (host : Host β) : (engine program host).Calm where
  create := by
    intro t facts options cs
    simp only [engine]
    cases program.launchFault? t facts.directory <;> simp
  analyze := by
    intro t i file source cs
    simp only [engine]
    cases cs[i]? with
    | none => simp
    | some c =>
        simp only [Conversation.exchange]
        cases c.send host file source with
        | none => simp
        | some c =>
            dsimp only
            unfold Response.outcome
            split <;> simp

/-- Making the contents of a node starts one service and tells it the root and the options, or none
at all. -/
theorem makeContents_engine (program : Program) (host : Host β) (settings : Settings) (root : Root)
    (b : Bench (List (Conversation β))) :
    let turn := Ownership.makeContents (engine program host) t settings root b
    (turn.state.memory = b.memory ∧ ∀ parts, turn.answer ≠ .ok parts) ∨
      ∃ options c, turn.answer = .ok ⟨options, b.memory.length⟩ ∧
        turn.state.memory = b.memory ++ [c] ∧ c.received = [.init root.facts options] := by
  unfold Ownership.makeContents
  dsimp only
  cases (Locator.optionsOf t settings root).answer with
  | error f => exact .inl ⟨rfl, by simp⟩
  | ok options =>
      simp only [Bench.create, engine]
      cases program.launchFault? t root.facts.directory with
      | some reason => exact .inl ⟨rfl, by simp [Outcome.map, Outcome.mapFailure]⟩
      | none => exact .inr ⟨options, _, rfl, rfl, rfl⟩

/-- An analysis goes to one service at most. -/
theorem analyze_engine (program : Program) (host : Host β) (i : Nat) (file : Path)
    (source : String) (cs : List (Conversation β)) :
    ((engine program host).analyze t i file source cs).1 = cs ∨
      ∃ c c' more, cs[i]? = some c ∧ c'.received = c.received ++ more ∧
        (∀ r ∈ more, r = .analyze file source) ∧
        ((engine program host).analyze t i file source cs).1 = cs.set i c' := by
  simp only [engine]
  cases found : cs[i]? with
  | none => exact .inl rfl
  | some c =>
      obtain ⟨more, received, own⟩ := c.received_exchange host file source
      exact .inr ⟨c, _, more, rfl, received, own, rfl⟩

/-! ### The invariant -/

/-- The service of each node was told the node's root and options first, and a service that got a
file was told the file's root and its options first. Roots are those that `L` gives. -/
structure Introduced (t : FileTree) (L : Locator) (R : Ownership (List (Conversation β)) Nat) :
    Prop where
  faithful : R.Faithful t
  located : R.locator.unasked = L.unasked
  nodes : ∀ node ∈ R.nodes.arena, ∃ c, R.bench.memory[node.analyzer]? = some c ∧
    c.received.head? = some (.init node.root.facts node.options)
  files : ∀ c ∈ R.bench.memory, ∀ file source, .analyze file source ∈ c.received →
    ∃ options, (Locator.optionsOf t L.settings (L.rootOf t file).answer).answer = .ok options ∧
      c.received.head? = some (.init (L.rootOf t file).answer.facts options)

namespace Introduced

variable {L : Locator} {R : Ownership (List (Conversation β)) Nat}

theorem start (rooted : t.here.isAbsolute = true) (context : Path) (settings : Settings) :
    Introduced t (.new t context settings)
      (.new t context settings [] : Ownership (List (Conversation β)) Nat) where
  faithful := Ownership.faithful_new rooted context settings []
  located := rfl
  nodes := by simp [Ownership.new, NodeTable.empty]
  files := by simp [Ownership.new]

theorem settings (h : Introduced t L R) : R.locator.settings = L.settings :=
  Locator.settings_eq_of_unasked h.located

/-- The root of a file is the one that `L` gives. -/
theorem rootOf (h : Introduced t L R) (rooted : t.here.isAbsolute = true) (memory : L.Truthful t)
    (file : Path) : (R.locator.rootOf t file).answer = (L.rootOf t file).answer := by
  rw [(Locator.rootOf_of_truthful rooted h.faithful.truthful file).1, h.located,
    ← (Locator.rootOf_of_truthful rooted memory file).1]

theorem resolve (h : Introduced t L R) (rooted : t.here.isAbsolute = true) (file : Path) :
    Introduced t L (R.resolve (engine program host) t file).state := by
  have faithful := h.faithful.resolve (E := engine program host) rooted file
  have located : (R.resolve (engine program host) t file).state.locator.unasked = L.unasked :=
    (Locator.rootOf_unasked file).trans h.located
  have contents := makeContents_engine (t := t) program host R.locator.settings
    (R.locator.rootOf t file).answer R.bench
  dsimp only at contents
  cases h.faithful.orderly.resolved (E := engine program host) rooted file with
  | known node member owns answer arena bench =>
      refine ⟨faithful, located, ?_, ?_⟩
      · rw [arena, bench]
        exact h.nodes
      · rw [bench]
        exact h.files
  | unmade bare refused answer arena bench =>
      rcases contents with ⟨memory, _⟩ | ⟨options, c, made, _⟩
      · refine ⟨faithful, located, ?_, ?_⟩
        · rw [arena, bench, Ownership.contentsNow, memory]
          exact h.nodes
        · rw [bench, Ownership.contentsNow, memory]
          exact h.files
      · exact absurd made (refused _)
  | made parts bare said answer arena bench =>
      rcases contents with ⟨_, refused⟩ | ⟨options, c, made, memory, received⟩
      · exact absurd said (refused parts)
      · cases said.symm.trans made
        refine ⟨faithful, located, ?_, ?_⟩
        · intro node member
          rw [bench, Ownership.contentsNow, memory]
          rcases List.mem_append.mp (arena ▸ member) with old | new
          · obtain ⟨c, found, first⟩ := h.nodes node old
            have inside := (List.getElem?_eq_some_iff.mp found).1
            exact ⟨c, by rwa [List.getElem?_append_left inside], first⟩
          · cases List.mem_singleton.mp new
            exact ⟨c, List.getElem?_concat_length, by rw [received]; rfl⟩
        · intro c' member file source request
          rw [bench, Ownership.contentsNow, memory] at member
          rcases List.mem_append.mp member with old | new
          · exact h.files c' old file source request
          · rw [List.mem_singleton.mp new, received, List.mem_singleton] at request
            cases request

theorem congr (h : Introduced t L R) {Q : Ownership (List (Conversation β)) Nat}
    (locator : Q.locator = R.locator) (nodes : Q.nodes = R.nodes)
    (memory : Q.bench.memory = R.bench.memory) : Introduced t L Q :=
  ⟨h.faithful.congr locator nodes, locator ▸ h.located, nodes ▸ memory ▸ h.nodes,
    memory ▸ h.files⟩

/-- A service has got one more file of its own root. -/
theorem told (h : Introduced t L R) {Q : Ownership (List (Conversation β)) Nat}
    (locator : Q.locator = R.locator) (nodes : Q.nodes = R.nodes) {i : Nat} {c c' : Conversation β}
    (memory : Q.bench.memory = R.bench.memory.set i c') (found : R.bench.memory[i]? = some c)
    {file : Path} {source : String} {more : List Request}
    (received : c'.received = c.received ++ more) (own : ∀ r ∈ more, r = .analyze file source)
    {options : Options}
    (read : (Locator.optionsOf t L.settings (L.rootOf t file).answer).answer = .ok options)
    (first : c.received.head? = some (.init (L.rootOf t file).answer.facts options)) :
    Introduced t L Q := by
  have stays {r : Request} (start : c.received.head? = some r) : c'.received.head? = some r := by
    rw [received, List.head?_append, start]
    rfl
  refine ⟨h.faithful.congr locator nodes, locator ▸ h.located, ?_, ?_⟩
  · intro node member
    obtain ⟨d, has, start⟩ := h.nodes node (nodes ▸ member)
    rw [memory, List.getElem?_set]
    split
    · rename_i same
      rw [← same, found] at has
      cases has
      exact ⟨c', by rw [if_pos (List.getElem?_eq_some_iff.mp found).1], stays start⟩
    · exact ⟨d, has, start⟩
  · intro d member f s request
    rw [memory] at member
    rcases List.mem_or_eq_of_mem_set member with old | rfl
    · exact h.files d old f s request
    · rw [received, List.mem_append] at request
      rcases request with earlier | new
      · obtain ⟨o, ok, start⟩ := h.files c (List.mem_of_getElem? found) f s earlier
        exact ⟨o, ok, stays start⟩
      · cases own _ new
        exact ⟨options, read, stays first⟩

/-- An analysis of a file by the node of its root. -/
theorem analyze (h : Introduced t L R) {Q : Ownership (List (Conversation β)) Nat}
    (locator : Q.locator = R.locator) (nodes : Q.nodes = R.nodes) {node : Node Nat}
    (member : node ∈ R.nodes.arena) {file : Path} (owns : node.root = (L.rootOf t file).answer)
    {source : String}
    (bench : Q.bench = (R.bench.analyze (engine program host) t node file source).state) :
    Introduced t L Q := by
  have read := h.faithful.made node member
  obtain ⟨c, found, first⟩ := h.nodes node member
  rw [h.settings, owns] at read
  rw [owns] at first
  have memory : Q.bench.memory =
      ((engine program host).analyze t node.analyzer file source R.bench.memory).1 := by
    rw [bench]
    rfl
  rcases analyze_engine (t := t) program host node.analyzer file source
    R.bench.memory with same | ⟨d, c', more, has, received, own, set⟩
  · exact h.congr locator nodes (memory.trans same)
  · cases found.symm.trans has
    exact h.told locator nodes (memory.trans set) found received own read first

end Introduced

/-! ### Builds -/

variable {L : Locator} {B : Build (List (Conversation β)) Nat}

theorem Introduced.analyzeFile (h : Introduced t L B.ownership) {node : Node Nat}
    (member : node ∈ B.ownership.nodes.arena) {file : Path}
    (owns : node.root = (L.rootOf t file).answer) (source : String) :
    Introduced t L (B.analyze (engine program host) t node file source).state.ownership := by
  -- the analyzer is run once, or not at all when the cache has the result
  rcases ResultCache.fetch_state B.cache (.of file node.id source)
    (Bench.analyze (engine program host) t node file source) B.ownership.bench with served | run
  · exact h.congr rfl rfl (congrArg Bench.memory served)
  · exact h.analyze rfl rfl member owns run

theorem introduced_start (rooted : t.here.isAbsolute = true) (context : Path)
    (options : BuildOptions) : Introduced t (.new t context options.settings)
      (Build.start t context options [] :
        Told (Build (List (Conversation β)) Nat)).answer.ownership := by
  have fresh := Introduced.start (β := β) rooted (t.absolute context) options.settings
  rw [Locator.new_absolute rooted] at fresh
  exact fresh

/-- Services stay introduced, and the node of a file is that of its root. -/
theorem keeps_introduced (rooted : t.here.isAbsolute = true) (memory : L.Truthful t) :
    Build.Keeps (engine program host) t (fun B => Introduced t L B.ownership)
      (fun B file node => node ∈ B.ownership.nodes.arena ∧
        node.root = (L.rootOf t file).answer) where
  resolve := by
    intro B file h
    refine ⟨h.resolve rooted (t.absolute file), fun node found => ?_⟩
    obtain ⟨member, owns⟩ := (h.faithful.orderly.resolved (E := engine program host) rooted
      (t.absolute file)).owner found
    rw [h.rootOf rooted memory, Locator.rootOf_absolute rooted] at owns
    exact ⟨member, owns⟩
  analyze := fun _ _ _ source h owner => h.analyzeFile owner.1 owner.2 source
  finish := fun _ _ h => h.congr rfl rfl rfl

/-- A batch with a file whose options cannot be read fails on a descriptor, be it that of this file
or of an earlier one. -/
theorem Introduced.compileAll_of_error (program : Program) (host : Host β)
    (h : Introduced t L B.ownership) (rooted : t.here.isAbsolute = true) (memory : L.Truthful t)
    {files : List Path} {file : Path} (listed : file ∈ files) {source : String}
    (text : t.readText (t.absolute file) = .ok source) {f : DescriptorFault}
    (read : (Locator.optionsOf t L.settings (L.rootOf t file).answer).answer = .error f) :
    ∃ g, (B.compileAll (engine program host) t files).answer = .failed (.descriptor g) := by
  have stops : Handler.Stops
      (fun B : Build (List (Conversation β)) Nat => Introduced t L B.ownership) (· = file)
      (Build.compile (engine program host) t) := by
    refine ⟨fun _ g holds => (keeps_introduced rooted memory).compile holds g,
      fun _ g _ => Build.compile_ne_crashed (calm_engine program host) g, ?_⟩
    rintro B _ holds rfl
    refine ⟨.descriptor f, Build.compile_of_error holds.faithful rooted text ?_, rfl⟩
    rw [holds.settings, holds.rootOf rooted memory]
    exact read
  obtain ⟨failure, failed, fatal⟩ := stops.all (t := t) h listed rfl
  obtain ⟨g, rfl⟩ := failure.isFatal_iff.mp fatal
  rw [← Build.compileAll_answer] at failed
  exact ⟨g, failed⟩

end RootedBuild.Service
