import Mathlib.Data.List.Chain
import RootedBuild.Proofs.Descriptor.Runs

/-!
With which fault a reading ends. A visit goes depth first through a descriptor and all it extends.
Other than the reader it does not stop at a problem: it notes each one where it is met and goes on
with the next base. A reading fails exactly when its visit notes something, and then with what is
noted first. The chain of a visit is the line of descriptors that leads to the one at hand, so a
base that is reached by two branches is not circular for that.
-/
namespace RootedBuild.Descriptor

variable {t : FileTree}

/-! ### Visits -/

/-- What is to be visited: a descriptor, or bases that one names. Its ancestors lead to it. -/
inductive Spot where
  | descriptor (ancestors : List Path) (p : Path)
  | bases (ancestors : List Path) (p : Path) (names : List String)

/-- The problems of a visit, in the order in which they are met. -/
inductive Visit (t : FileTree) : Spot → List DescriptorFault → Prop where
  | revisited {chain p} (met : ∃ q ∈ chain, q.same p = true) :
    Visit t (.descriptor chain p) [⟨p, .circular (chain ++ [p])⟩]
  | unreadable {chain p f} (fresh : ∀ q ∈ chain, q.same p = false)
    (failed : t.readText p = .error f) : Visit t (.descriptor chain p) [⟨p, .unreadable f⟩]
  | malformed {chain p text f} (fresh : ∀ q ∈ chain, q.same p = false)
    (read : t.readText p = .ok text) (failed : ofText text = .error f) :
    Visit t (.descriptor chain p) [⟨p, .malformed f⟩]
  | understood {chain p text d faults} (fresh : ∀ q ∈ chain, q.same p = false)
    (read : t.readText p = .ok text) (parsed : ofText text = .ok d)
    (below : Visit t (.bases chain p d.bases) faults) : Visit t (.descriptor chain p) faults
  | finished {chain p} : Visit t (.bases chain p []) []
  | missing {chain p name names later} (nowhere : base? t (home p) name = none)
    (rest : Visit t (.bases chain p names) later) :
    Visit t (.bases chain p (name :: names)) (⟨p, .baseMissing name⟩ :: later)
  | base {chain p name names b faults later} (found : base? t (home p) name = some b)
    (inside : Visit t (.descriptor (chain ++ [p]) b) faults)
    (rest : Visit t (.bases chain p names) later) :
    Visit t (.bases chain p (name :: names)) (faults ++ later)

theorem load_eq_ok_iff {p : Path} {d : Descriptor} :
    load t p = .ok d ↔ ∃ text, t.readText p = .ok text ∧ ofText text = .ok d := by
  unfold load
  cases t.readText p with
  | error f => simp
  | ok text => cases parsed : ofText text <;> simp [parsed, Except.mapError]

theorem load_of_unreadable {p : Path} {f : FileFault} (failed : t.readText p = .error f) :
    load t p = .error ⟨p, .unreadable f⟩ := by
  rw [load, failed]

theorem load_of_malformed {p : Path} {text : String} {f : TextFault}
    (read : t.readText p = .ok text) (failed : ofText text = .error f) :
    load t p = .error ⟨p, .malformed f⟩ := by
  rw [load, read]
  dsimp only
  rw [failed]
  rfl

theorem any_same_eq_false_iff {chain : List Path} {p : Path} :
    chain.any (·.same p) = false ↔ ∀ q ∈ chain, q.same p = false := by
  simp [List.any_eq_false]

/-! ### The first problem -/

/-- The fault that a reading ends with, if any. -/
def failure? : Except ε α → Option ε
  | .ok _ => none
  | .error e => some e

theorem failure?_map (g : α → β) (r : Except ε α) : failure? (r.map g) = failure? r := by
  cases r <;> rfl

theorem failure?_eq_some_iff {r : Except ε α} {e : ε} : failure? r = some e ↔ r = .error e := by
  cases r <;> simp [failure?]

theorem failure?_eq_none_iff {r : Except ε α} : failure? r = none ↔ ∃ a, r = .ok a := by
  cases r <;> simp [failure?]

/-- Every reading of the spot fails with the first of the faults. -/
def Spot.FailsFirst (t : FileTree) (faults : List DescriptorFault) : Spot → Prop
  | .descriptor chain p => ∀ r, Runs t (.read chain p) r → failure? r = faults.head?
  | .bases chain p names =>
    ∀ sum r, Runs t (.lay (chain ++ [p]) p names sum) r → failure? r = faults.head?

theorem Visit.failsFirst {spot : Spot} {faults : List DescriptorFault} (h : Visit t spot faults) :
    spot.FailsFirst t faults := by
  induction h with
  | @revisited chain p met =>
      intro r runs
      have again := List.any_eq_true.mpr met
      rw [runs.unique (.again again)]
      rfl
  | unreadable fresh failed =>
      intro r runs
      have unloaded := Runs.unloaded (any_same_eq_false_iff.mpr fresh) (load_of_unreadable failed)
      rw [runs.unique unloaded]
      rfl
  | malformed fresh read failed =>
      intro r runs
      have unloaded := Runs.unloaded (any_same_eq_false_iff.mpr fresh)
        (load_of_malformed read failed)
      rw [runs.unique unloaded]
      rfl
  | understood fresh read parsed _ ih =>
      intro r runs
      have loaded := load_eq_ok_iff.mpr ⟨_, read, parsed⟩
      cases runs with
      | again met => rw [any_same_eq_false_iff.mpr fresh] at met; cases met
      | unloaded _ failed => rw [loaded] at failed; cases failed
      | loaded _ found bases =>
          obtain rfl := Except.ok.inj (loaded.symm.trans found)
          rw [failure?_map]
          exact ih _ _ bases
  | finished =>
      intro sum r runs
      cases runs
      rfl
  | missing nowhere _ _ =>
      intro sum r runs
      rw [runs.unique (.missing nowhere)]
      rfl
  | @base chain p name names b faults later found _ _ ihInside ihRest =>
      intro sum r runs
      rw [List.head?_append]
      cases runs with
      | missing nowhere => rw [found] at nowhere; cases nowhere
      | broken found' failed =>
          obtain rfl := Option.some.inj (found.symm.trans found')
          rw [← ihInside _ failed]
          rfl
      | laid found' read rest =>
          obtain rfl := Option.some.inj (found.symm.trans found')
          rw [← ihInside _ read, ihRest _ _ rest]
          rfl

/-! ### Every visit ends -/

theorem exists_visit_bases {chain : List Path} {p : Path}
    (each : ∀ b, ∃ faults, Visit t (.descriptor (chain ++ [p]) b) faults) (names : List String) :
    ∃ faults, Visit t (.bases chain p names) faults := by
  induction names with
  | nil => exact ⟨_, .finished⟩
  | cons name names ih =>
      obtain ⟨later, rest⟩ := ih
      cases found : base? t (home p) name with
      | none => exact ⟨_, .missing found rest⟩
      | some b =>
          obtain ⟨faults, inside⟩ := each b
          exact ⟨_, .base found inside rest⟩

/-- The chain of a visit grows by what is left of the bound on chains. -/
theorem exists_visit {chain : List Path} (h : Chain chain) {left : Nat}
    (enough : chainBound ≤ chain.length + left) (p : Path) :
    ∃ faults, Visit t (.descriptor chain p) faults := by
  induction left generalizing chain p with
  | zero => exact absurd h.length_lt (Nat.not_lt.mpr enough)
  | succ left ih =>
      by_cases met : ∃ q ∈ chain, q.same p = true
      · exact ⟨_, .revisited met⟩
      · have fresh : ∀ q ∈ chain, q.same p = false := by simpa using met
        cases read : t.readText p with
        | error f => exact ⟨_, .unreadable fresh read⟩
        | ok text =>
            cases parsed : ofText text with
            | error f => exact ⟨_, .malformed fresh read parsed⟩
            | ok d =>
                have loaded := load_eq_ok_iff.mpr ⟨text, read, parsed⟩
                have longer := h.push (any_same_eq_false_iff.mpr fresh) loaded
                have room : chainBound ≤ (chain ++ [p]).length + left := by
                  rw [List.length_append, List.length_singleton]
                  omega
                obtain ⟨faults, below⟩ := exists_visit_bases (ih longer room) d.bases
                exact ⟨faults, .understood fresh read parsed below⟩

theorem Visit.unique {spot : Spot} {faults faults' : List DescriptorFault}
    (h : Visit t spot faults) (h' : Visit t spot faults') : faults = faults' := by
  -- a descriptor is either on the chain or not, and its text is read and understood or not
  have apart {chain : List Path} {p : Path} (met : ∃ q ∈ chain, q.same p = true)
      (fresh : ∀ q ∈ chain, q.same p = false) : False := by
    obtain ⟨q, member, same⟩ := met
    rw [fresh q member] at same
    cases same
  induction h generalizing faults' with
  | revisited met =>
      cases h' with
      | revisited _ => rfl
      | unreadable fresh _ => exact (apart met fresh).elim
      | malformed fresh _ _ => exact (apart met fresh).elim
      | understood fresh _ _ _ => exact (apart met fresh).elim
  | unreadable fresh failed =>
      cases h' with
      | revisited met => exact (apart met fresh).elim
      | unreadable _ failed' => rw [Except.error.inj (failed.symm.trans failed')]
      | malformed _ read _ => rw [failed] at read; cases read
      | understood _ read _ _ => rw [failed] at read; cases read
  | malformed fresh read failed =>
      cases h' with
      | revisited met => exact (apart met fresh).elim
      | unreadable _ failed' => rw [read] at failed'; cases failed'
      | malformed _ read' failed' =>
          obtain rfl := Except.ok.inj (read.symm.trans read')
          rw [Except.error.inj (failed.symm.trans failed')]
      | understood _ read' parsed _ =>
          obtain rfl := Except.ok.inj (read.symm.trans read')
          rw [failed] at parsed
          cases parsed
  | understood fresh read parsed _ ih =>
      cases h' with
      | revisited met => exact (apart met fresh).elim
      | unreadable _ failed => rw [read] at failed; cases failed
      | malformed _ read' failed =>
          obtain rfl := Except.ok.inj (read.symm.trans read')
          rw [parsed] at failed
          cases failed
      | understood _ read' parsed' below =>
          obtain rfl := Except.ok.inj (read.symm.trans read')
          obtain rfl := Except.ok.inj (parsed.symm.trans parsed')
          exact ih below
  | finished =>
      cases h'
      rfl
  | missing nowhere _ ih =>
      cases h' with
      | missing _ rest => rw [ih rest]
      | base found _ _ => rw [nowhere] at found; cases found
  | base found _ _ ihInside ihRest =>
      cases h' with
      | missing nowhere _ => rw [found] at nowhere; cases nowhere
      | base found' inside rest =>
          obtain rfl := Option.some.inj (found.symm.trans found')
          rw [ihInside inside, ihRest rest]

/-! ### What a problem tells -/

/-- The descriptor at `p` names one that stands at `b`. -/
def Extends (t : FileTree) (p b : Path) : Prop :=
  ∃ d, load t p = .ok d ∧ ∃ name ∈ d.bases, base? t (home p) name = some b

/-- A line that starts with the descriptor at `d`, where each one extends the next. -/
def Descends (t : FileTree) (d : Path) (line : List Path) : Prop :=
  line.head? = some (t.absolute d) ∧ line.IsChain (Extends t)

/-- A fault names the descriptor that has the problem, and tells what the problem is. One of
circularity tells the line of its ancestors, and that it stands among them. -/
def Explained (t : FileTree) (d : Path) (f : DescriptorFault) : Prop :=
  ∃ ancestors, Descends t d (ancestors ++ [f.path]) ∧
    match f.reason with
    | .unreadable g => t.readText f.path = .error g
    | .malformed g => ∃ text, t.readText f.path = .ok text ∧ ofText text = .error g
    | .baseMissing name => ∃ declaring, load t f.path = .ok declaring ∧ name ∈ declaring.bases ∧
        base? t (home f.path) name = none
    | .circular chain => chain = ancestors ++ [f.path] ∧ ∃ q ∈ ancestors, q.same f.path = true

/-- The line to a spot descends from `d`, and names that are still to be visited are its own. -/
def Spot.Below (t : FileTree) (d : Path) : Spot → Prop
  | .descriptor chain p => Descends t d (chain ++ [p])
  | .bases chain p names => Descends t d (chain ++ [p]) ∧
      ∃ declaring, load t p = .ok declaring ∧ ∀ name ∈ names, name ∈ declaring.bases

theorem Descends.push {d : Path} {chain : List Path} {p b : Path}
    (h : Descends t d (chain ++ [p])) (extend : Extends t p b) :
    Descends t d (chain ++ [p] ++ [b]) := by
  refine ⟨?_, ?_⟩
  · rw [List.head?_append, h.1]
    rfl
  · refine List.isChain_append.mpr ⟨h.2, List.isChain_singleton b, ?_⟩
    intro q last r first
    rw [List.getLast?_concat, Option.mem_some_iff] at last
    rw [List.head?_cons, Option.mem_some_iff] at first
    rwa [← last, ← first]

theorem Visit.explained {d : Path} {spot : Spot} {faults : List DescriptorFault}
    (h : Visit t spot faults) (below : spot.Below t d) : ∀ f ∈ faults, Explained t d f := by
  induction h with
  | @revisited chain p met =>
      intro f member
      obtain rfl := List.mem_singleton.mp member
      exact ⟨chain, below, rfl, met⟩
  | @unreadable chain p g _ failed =>
      intro f member
      obtain rfl := List.mem_singleton.mp member
      exact ⟨chain, below, failed⟩
  | @malformed chain p text g _ read failed =>
      intro f member
      obtain rfl := List.mem_singleton.mp member
      exact ⟨chain, below, text, read, failed⟩
  | understood _ read parsed _ ih =>
      have loaded := load_eq_ok_iff.mpr ⟨_, read, parsed⟩
      exact ih ⟨below, _, loaded, fun name member => member⟩
  | finished => simp
  | @missing chain p name names later nowhere _ ih =>
      obtain ⟨line, declaring, loaded, own⟩ := below
      intro f member
      rcases List.mem_cons.mp member with rfl | after
      · exact ⟨chain, line, declaring, loaded, own name (List.mem_cons_self ..), nowhere⟩
      · exact ih ⟨line, declaring, loaded, fun n m => own n (List.mem_cons_of_mem _ m)⟩ f after
  | @base chain p name names b faults later found _ _ ihInside ihRest =>
      obtain ⟨line, declaring, loaded, own⟩ := below
      have extend : Extends t p b :=
        ⟨declaring, loaded, name, own name (List.mem_cons_self ..), found⟩
      intro f member
      rcases List.mem_append.mp member with inside | after
      · exact ihInside (line.push extend) f inside
      · exact ihRest ⟨line, declaring, loaded, fun n m => own n (List.mem_cons_of_mem _ m)⟩ f after

/-- The first problem decides. A reading fails exactly when its visit meets a problem, with the
first one, and nothing is circular when no line of descriptors holds a path twice. -/
theorem visit_decides_readOptionsAt (t : FileTree) (d : Path) :
    ∃ faults, Visit t (.descriptor [] (t.absolute d)) faults ∧
      (∀ faults', Visit t (.descriptor [] (t.absolute d)) faults' → faults' = faults) ∧
      (∀ f, (readOptionsAt t d).answer = .error f ↔ faults.head? = some f) ∧
      ((∃ options, (readOptionsAt t d).answer = .ok options) ↔ faults = []) ∧
      (∀ f ∈ faults, Explained t d f) ∧
      ((∀ line, Descends t d line → line.Pairwise fun q r => q.same r = false) →
        ∀ f ∈ faults, ∀ chain, f.reason ≠ .circular chain) := by
  have room : chainBound ≤ ([] : List Path).length + chainBound := Nat.le_add_left _ _
  obtain ⟨faults, visit⟩ := exists_visit chain_nil room (t.absolute d)
  have first := visit.failsFirst _ (runs_readOptionsAt t d)
  have explained := visit.explained (d := d) ⟨rfl, List.isChain_singleton _⟩
  refine ⟨faults, visit, fun _ other => other.unique visit, ?_, ?_, explained, ?_⟩
  · intro f
    rw [← first, failure?_eq_some_iff]
  · rw [← List.head?_eq_none_iff, ← first, failure?_eq_none_iff]
  · intro distinct f member chain circular
    obtain ⟨ancestors, line, told⟩ := explained f member
    rw [circular] at told
    obtain ⟨_, q, inside, same⟩ := told
    have other := (List.pairwise_append.mp (distinct _ line)).2.2 q inside f.path
      (List.mem_singleton_self _)
    rw [same] at other
    cases other

end RootedBuild.Descriptor
