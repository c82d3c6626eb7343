import RootedBuild.History
import RootedBuild.Proofs.Build.Alone
import RootedBuild.Proofs.Build.Handling

/-!
An engine under watch: every call is written down, and an analyzer carries the number of the call
that made it. A build cannot tell it from the engine itself, so what is shown of the calls of a
watched engine is shown of every engine. The lemmas are about any engine that covers another one.
-/
namespace RootedBuild

/-! ### An engine that covers another one -/

/-- Behind the memory of `E'`, seen through `f`, and its analyzers, seen through `g`, stands `E`. -/
structure Engine.Covers (f : σ' → σ) (g : α' → α) (E' : Engine σ' α') (E : Engine σ α) : Prop where
  create : ∀ t facts options m, E.create t facts options (f m) =
    (f (E'.create t facts options m).1, (E'.create t facts options m).2.map g)
  analyze : ∀ t a file source m, E.analyze t (g a) file source (f m) =
    (f (E'.analyze t a file source m).1, (E'.analyze t a file source m).2)

variable {E' : Engine σ' α'} {E : Engine σ α} {f : σ' → σ} {g : α' → α}

def Node.map (g : α' → α) (n : Node α') : Node α := ⟨n.id, n.root, n.options, g n.analyzer⟩

def NodeContents.map (g : α' → α) (c : NodeContents α') : NodeContents α :=
  ⟨c.options, g c.analyzer⟩

def RootSlot.map (g : α' → α) (s : RootSlot α') : RootSlot α :=
  ⟨s.node.map (Node.map g), s.marked⟩

namespace NodeTable

def map (g : α' → α) (R : NodeTable α') : NodeTable α :=
  ⟨R.slots.map (Prod.map id (RootSlot.map g)), R.arena.map (Node.map g)⟩

theorem slot?_map (R : NodeTable α') (root : Root) :
    (R.map g).slot? root = (R.slot? root).map (RootSlot.map g) := by
  simp only [slot?, map, List.find?_map, Option.map_map]
  rfl

theorem setSlot_map (root : Root) (slot : RootSlot α') (slots : List (Root × RootSlot α')) :
    setSlot root (slot.map g) (slots.map (Prod.map id (RootSlot.map g))) =
      (setSlot root slot slots).map (Prod.map id (RootSlot.map g)) := by
  induction slots with
  | nil => rfl
  | cons entry rest ih =>
      obtain ⟨r, old⟩ := entry
      simp only [List.map_cons, Prod.map, id, setSlot]
      split
      · rfl
      · exact congrArg _ ih

theorem withSlot_map (R : NodeTable α') (root : Root) (slot : RootSlot α') :
    (R.map g).withSlot root (slot.map g) = (R.withSlot root slot).map g := by
  simp only [withSlot, map, setSlot_map]

theorem push_map (R : NodeTable α') (root : Root) (slot : RootSlot α') (parts : NodeContents α') :
    (R.map g).push root (slot.map g) (parts.map g) =
      ((R.push root slot parts).1.map g, (R.push root slot parts).2.map g) := by
  have node : (⟨(R.map g).arena.length, root, (parts.map g).options, (parts.map g).analyzer⟩ :
      Node α) = (R.push root slot parts).2.map g := by
    simp [map, push, Node.map, NodeContents.map]
  have slots := congrArg NodeTable.slots
    (withSlot_map (g := g) R root { slot with node := some (R.push root slot parts).2 })
  have arena : (R.map g).arena ++ [(R.push root slot parts).2.map g] =
      (R.push root slot parts).1.arena.map (Node.map g) := by
    simp [map, push]
  unfold push at node slots arena ⊢
  dsimp only at node slots arena ⊢
  rw [node]
  exact Prod.ext (congrArg₂ NodeTable.mk slots arena) rfl

theorem fetch_map {make' : τ' → Turn τ' (Outcome ε (NodeContents α'))}
    {make : τ → Turn τ (Outcome ε (NodeContents α))} {h : τ' → τ}
    (answer : ∀ s, (make (h s)).answer = (make' s).answer.map (NodeContents.map g))
    (state : ∀ s, (make (h s)).state = h (make' s).state) (R : NodeTable α') (root : Root)
    (s : τ') :
    ((R.map g).fetch root make (h s)).state =
        ((R.fetch root make' s).state.1.map g, h (R.fetch root make' s).state.2) ∧
      ((R.map g).fetch root make (h s)).answer =
        (R.fetch root make' s).answer.map (Node.map g) := by
  have slot : ((R.map g).slot? root).getD {} = ((R.slot? root).getD {}).map g := by
    rw [slot?_map]
    cases R.slot? root <;> rfl
  unfold fetch
  dsimp only
  rw [slot]
  generalize (R.slot? root).getD {} = old
  obtain ⟨node, marked⟩ := old
  cases node with
  | some node => exact ⟨rfl, rfl⟩
  | none =>
      simp only [RootSlot.map, Option.map_none, answer s, state s]
      cases said : (make' s).answer with
      | ok parts =>
          have pushed := push_map (g := g) R root ⟨none, marked⟩ parts
          simp only [Outcome.map]
          rw [show (⟨none, marked⟩ : RootSlot α) = RootSlot.map g ⟨none, marked⟩ from rfl, pushed]
          exact ⟨rfl, rfl⟩
      | failed e => exact ⟨by rw [← withSlot_map]; rfl, rfl⟩
      | crashed => exact ⟨by rw [← withSlot_map]; rfl, rfl⟩

end NodeTable

namespace Bench

def map (f : σ' → σ) (b : Bench σ') : Bench σ := ⟨f b.memory, b.crashed⟩

theorem create_map (covers : E'.Covers f g E) (t : FileTree) (root : Root) (options : Options)
    (b : Bench σ') : (b.map f).create E t root options =
      ((b.create E' t root options).1.map f, (b.create E' t root options).2.map g) := by
  simp only [create, map, covers.create]

theorem analyze_map (covers : E'.Covers f g E) (t : FileTree) (node : Node α') (file : Path)
    (source : String) (b : Bench σ') :
    (Bench.analyze E t (node.map g) file source (b.map f)).state =
        (Bench.analyze E' t node file source b).state.map f ∧
      (Bench.analyze E t (node.map g) file source (b.map f)).answer =
        (Bench.analyze E' t node file source b).answer := by
  simp only [analyze, map, Node.map, covers.analyze, and_self]

end Bench

namespace Ownership

def map (f : σ' → σ) (g : α' → α) (R : Ownership σ' α') : Ownership σ α :=
  ⟨R.locator, R.nodes.map g, R.bench.map f⟩

theorem makeContents_map (covers : E'.Covers f g E) (t : FileTree) (settings : Settings)
    (root : Root) (b : Bench σ') :
    (makeContents E t settings root (b.map f)).answer =
        (makeContents E' t settings root b).answer.map (NodeContents.map g) ∧
      (makeContents E t settings root (b.map f)).state =
        (makeContents E' t settings root b).state.map f := by
  unfold makeContents
  dsimp only
  cases (Locator.optionsOf t settings root).answer with
  | error e => exact ⟨rfl, rfl⟩
  | ok options =>
      dsimp only
      rw [Bench.create_map covers]
      refine ⟨?_, rfl⟩
      cases (b.create E' t root options).2 <;> rfl

theorem resolve_map (covers : E'.Covers f g E) (t : FileTree) (R : Ownership σ' α')
    (file : Path) :
    ((R.map f g).resolve E t file).state = (R.resolve E' t file).state.map f g ∧
      ((R.map f g).resolve E t file).answer = (R.resolve E' t file).answer.map (Node.map g) := by
  have fetched := NodeTable.fetch_map
    (fun b => (makeContents_map covers t R.locator.settings (R.locator.rootOf t file).answer b).1)
    (fun b => (makeContents_map covers t R.locator.settings (R.locator.rootOf t file).answer b).2)
    R.nodes (R.locator.rootOf t file).answer R.bench
  refine ⟨?_, fetched.2⟩
  have parts := fetched.1
  unfold resolve
  dsimp only [map] at parts ⊢
  rw [parts]

end Ownership

theorem ResultCache.fetch_map {analyze' : τ' → Turn τ' (Outcome AnalysisFault Analysis)}
    {analyze : τ → Turn τ (Outcome AnalysisFault Analysis)} {h : τ' → τ}
    (answer : ∀ s, (analyze (h s)).answer = (analyze' s).answer)
    (state : ∀ s, (analyze (h s)).state = h (analyze' s).state) (C : ResultCache) (key : CacheKey)
    (s : τ') :
    (C.fetch key analyze (h s)).state =
        ((C.fetch key analyze' s).state.1, h (C.fetch key analyze' s).state.2) ∧
      (C.fetch key analyze (h s)).answer = (C.fetch key analyze' s).answer := by
  unfold fetch
  dsimp only
  split
  · exact ⟨rfl, rfl⟩
  · rw [answer s, state s]
    cases (analyze' s).answer <;> exact ⟨rfl, rfl⟩

/-! ### A build on either engine -/

namespace Build

def map (f : σ' → σ) (g : α' → α) (B : Build σ' α') : Build σ α :=
  ⟨B.context, B.severity, B.ownership.map f g, B.cache⟩

variable {t : FileTree} {B : Build σ' α'}

theorem resolve_map (covers : E'.Covers f g E) (file : Path) :
    ((B.map f g).resolve E t file).state = (B.resolve E' t file).state.map f g ∧
      ((B.map f g).resolve E t file).answer = (B.resolve E' t file).answer.map (Node.map g) := by
  have resolved := Ownership.resolve_map covers t B.ownership (t.absolute file)
  refine ⟨?_, resolved.2⟩
  have parts := resolved.1
  unfold resolve
  dsimp only [map]
  rw [parts]

theorem analyze_map (covers : E'.Covers f g E) (node : Node α') (file : Path) (source : String) :
    ((B.map f g).analyze E t (node.map g) file source).state =
        (B.analyze E' t node file source).state.map f g ∧
      ((B.map f g).analyze E t (node.map g) file source).answer =
        (B.analyze E' t node file source).answer := by
  have fetched := ResultCache.fetch_map
    (fun b => (Bench.analyze_map covers t node file source b).2)
    (fun b => (Bench.analyze_map covers t node file source b).1)
    B.cache (.of file node.id source) B.ownership.bench
  refine ⟨?_, fetched.2⟩
  have parts := fetched.1
  unfold analyze
  dsimp only [map, Ownership.map, Node.map] at parts ⊢
  rw [parts]

theorem compileSource_map (covers : E'.Covers f g E) (file : Path) (source : String) :
    ((B.map f g).compileSource E t file source).state =
        (B.compileSource E' t file source).state.map f g ∧
      ((B.map f g).compileSource E t file source).answer =
        (B.compileSource E' t file source).answer := by
  have resolved := resolve_map (B := B) (t := t) covers (t.absolute file)
  rw [(compileSource_answer (E := E) file source).1, (compileSource_answer (E := E) file source).2,
    (compileSource_answer (E := E') file source).1, (compileSource_answer (E := E') file source).2,
    resolved.1, resolved.2]
  cases (B.resolve E' t (t.absolute file)).answer with
  | failed e => exact ⟨rfl, rfl⟩
  | crashed => exact ⟨rfl, rfl⟩
  | ok node =>
      have analyzed := analyze_map (B := (B.resolve E' t (t.absolute file)).state) (t := t) covers
        node (t.absolute file) source
      exact ⟨analyzed.1, by simp only [Outcome.map]; rw [analyzed.2]; rfl⟩

theorem compile_map (covers : E'.Covers f g E) (file : Path) :
    ((B.map f g).compile E t file).state = (B.compile E' t file).state.map f g ∧
      ((B.map f g).compile E t file).answer = (B.compile E' t file).answer := by
  cases read : t.readText (t.absolute file) with
  | error e =>
      rw [compile_of_unreadable read, compile_of_unreadable read]
      exact ⟨rfl, rfl⟩
  | ok source =>
      rw [compile_of_readable read, compile_of_readable read]
      exact compileSource_map covers _ source

theorem compileAll_map (covers : E'.Covers f g E) (files : List Path) :
    ((B.map f g).compileAll E t files).state = (B.compileAll E' t files).state.map f g ∧
      ((B.map f g).compileAll E t files).answer = (B.compileAll E' t files).answer := by
  have alike : Handler.Alike (fun _ => True) (fun B C => B = C.map f g) (compile E t)
      (compile E' t) := by
    rintro _ B file _ rfl
    exact (compile_map covers file).symm
  have both := alike.all (t := t) (b := B.map f g) rfl fun file (_ : file ∈ files) => trivial
  rw [compileAll_state, compileAll_state, compileAll_answer, compileAll_answer]
  exact both.symm

end Build

def Answer.map (g : α' → α) : Answer α' → Answer α
  | .nothing => .nothing
  | .node found => .node (found.map (Node.map g))
  | .output result => .output result
  | .report result => .report result
  | .counts stats => .counts stats

namespace Session

def map (f : σ' → σ) (g : α' → α) (S : Session σ' α') : Session σ α := ⟨S.tree, S.build.map f g⟩

theorem step_map (covers : E'.Covers f g E) (S : Session σ' α') (step : Step) :
    (S.map f g).step E step =
      ((S.step E' step).1.map f g, (S.step E' step).2.map g) := by
  cases step with
  | change entries => rfl
  | resolve file =>
      have both := Build.resolve_map (B := S.build) (t := S.tree) covers file
      simp only [Session.step, map, both, Answer.map]
  | compile file =>
      have both := Build.compile_map (B := S.build) (t := S.tree) covers file
      simp only [Session.step, map, both, Answer.map]
  | compileSource file source =>
      have both := Build.compileSource_map (B := S.build) (t := S.tree) covers file source
      simp only [Session.step, map, both, Answer.map]
  | compileAll files =>
      have both := Build.compileAll_map (B := S.build) (t := S.tree) covers files
      simp only [Session.step, map, both, Answer.map]
  | finish live => rfl

/-- A history comes to the same on both engines. -/
theorem run_map (covers : E'.Covers f g E) (S : Session σ' α') (steps : List Step) :
    (S.map f g).run E steps =
      ((S.run E' steps).1.map f g, (S.run E' steps).2.map (Answer.map g)) := by
  induction steps generalizing S with
  | nil => rfl
  | cons step steps ih =>
      simp only [run, step_map covers S step, ih, List.map_cons]

end Session

/-! ### Calls -/

/-- A call of an engine: of its factory, with the tree it was made on and whether there was an
analyzer in the end, or of the analyzer that came from a call of the factory. -/
inductive Call where
  | create (tree : FileTree) (facts : RootFacts) (options : Options) (made : Bool)
  | analyze (analyzer : Nat) (file : Path) (source : String)

namespace Call

/-- The analyzer, the file and the text of an analysis. -/
def analysis? : Call → Option (Nat × Path × String)
  | .create .. => none
  | .analyze a file source => some (a, file, source)

theorem getElem?_of_analysis? {calls : List Call} {k a : Nat} {file : Path} {source : String}
    (h : calls[k]?.bind analysis? = some (a, file, source)) :
    calls[k]? = some (.analyze a file source) := by
  obtain ⟨call, found, analysis⟩ := Option.bind_eq_some_iff.mp h
  cases call with
  | create => cases analysis
  | analyze =>
      cases analysis
      exact found

end Call

def Outcome.isOk : Outcome ε α → Bool
  | .ok _ => true
  | _ => false

/-- The engine under watch. Calls are numbered from zero. -/
def Engine.watched (E : Engine σ α) : Engine (σ × List Call) (α × Nat) where
  create t facts options m :=
    let (memory, outcome) := E.create t facts options m.1
    ((memory, m.2 ++ [.create t facts options outcome.isOk]), outcome.map fun a => (a, m.2.length))
  analyze t a file source m :=
    let (memory, outcome) := E.analyze t a.1 file source m.1
    ((memory, m.2 ++ [.analyze a.2 file source]), outcome)

theorem Engine.covers_watched (E : Engine σ α) : E.watched.Covers Prod.fst Prod.fst E where
  create := by
    intro t facts options m
    simp only [watched]
    cases outcome : (E.create t facts options m.1).2 <;> simp [Prod.ext_iff, Outcome.map, outcome]
  analyze := by
    intro t a file source m
    rfl

end RootedBuild
