import RootedBuild.Json.Printer
import RootedBuild.Proofs.Descriptor.Bases
import RootedBuild.Proofs.Descriptor.Declared
import RootedBuild.Proofs.Descriptor.Runs

/-!
What the options of a descriptor are, told without the reader: a walk through everything it extends,
each descriptor after its bases and the bases from left to right, gives the declarations in an order
in which the last one of a key counts. A base that is extended twice is met twice. What a value
stands for hangs on the directory of the descriptor that declares it. The key that remembers where
`paths` was declared is laid down together with them, so it stays with the ones that count.
-/
namespace RootedBuild.Descriptor
open Json

/-! ### The walk -/

/-- The options that a descriptor on the walk declares. -/
structure Declaration where
  path : Path
  declared : Members

def Declaration.value? (v : Declaration) (key : String) : Option Value :=
  (v.declared.get? key).map (meant (home v.path) key)

def declaration (p : Path) (d : Descriptor) : Declaration := ⟨p, d.options.getD []⟩

/-- The walk through the bases that the descriptor at a path names, each with all that it extends in
front of it. -/
inductive Walk (t : FileTree) : Path → List String → List Declaration → Prop where
  | finished {p} : Walk t p [] []
  | base {p name names b d inner later} (found : base? t (home p) name = some b)
    (loaded : load t b = .ok d) (below : Walk t b d.bases inner) (rest : Walk t p names later) :
    Walk t p (name :: names) (inner ++ declaration b d :: later)

/-- The declarations of a descriptor and all it extends, each descriptor after its bases. -/
def PostOrder (t : FileTree) (p : Path) (visits : List Declaration) : Prop :=
  ∃ d below, load t p = .ok d ∧ Walk t p d.bases below ∧ visits = below ++ [declaration p d]

variable {t : FileTree}

theorem Walk.unique {p : Path} {names : List String} {visits visits' : List Declaration}
    (h : Walk t p names visits) (h' : Walk t p names visits') : visits = visits' := by
  induction h generalizing visits' with
  | finished =>
      cases h'
      rfl
  | base found loaded _ _ ihBelow ihRest =>
      cases h' with
      | base found' loaded' below' rest' =>
          obtain rfl := Option.some.inj (found.symm.trans found')
          obtain rfl := Except.ok.inj (loaded.symm.trans loaded')
          rw [ihBelow below', ihRest rest']

theorem PostOrder.unique {p : Path} {visits visits' : List Declaration}
    (h : PostOrder t p visits) (h' : PostOrder t p visits') : visits = visits' := by
  obtain ⟨d, below, loaded, walk, rfl⟩ := h
  obtain ⟨d', below', loaded', walk', rfl⟩ := h'
  obtain rfl := Except.ok.inj (loaded.symm.trans loaded')
  rw [walk.unique walk']

theorem Walk.isAbsolute {p : Path} {names : List String} {visits : List Declaration}
    (h : Walk t p names visits) (absolute : p.isAbsolute = true) :
    ∀ v ∈ visits, v.path.isAbsolute = true := by
  induction h with
  | finished => simp
  | @base p name names b d inner later found _ _ _ ihBelow ihRest =>
      have here : b.isAbsolute = true := isAbsolute_base? found (isAbsolute_home absolute)
      intro v member
      rcases List.mem_append.mp member with inside | behind
      · exact ihBelow here v inside
      · rcases List.mem_cons.mp behind with rfl | after
        · exact here
        · exact ihRest absolute v after

theorem PostOrder.isAbsolute {p : Path} {visits : List Declaration} (h : PostOrder t p visits)
    (absolute : p.isAbsolute = true) : ∀ v ∈ visits, v.path.isAbsolute = true := by
  obtain ⟨d, below, _, walk, rfl⟩ := h
  intro v member
  rcases List.mem_append.mp member with inside | last
  · exact walk.isAbsolute absolute v inside
  · rw [List.mem_singleton.mp last]
    exact absolute

/-! ### The last declaration of a key -/

def lastValue : List Declaration → String → Option Value
  | [], _ => none
  | v :: later, key => (lastValue later key).or (v.value? key)

theorem lastValue_append (visits later : List Declaration) (key : String) :
    lastValue (visits ++ later) key = (lastValue later key).or (lastValue visits key) := by
  induction visits with
  | nil => simp [lastValue]
  | cons v visits ih => rw [List.cons_append, lastValue, lastValue, ih, Option.or_assoc]

theorem lastValue_isSome_iff (visits : List Declaration) (key : String) :
    (lastValue visits key).isSome = true ↔
      ∃ v ∈ visits, (v.declared.get? key).isSome = true := by
  induction visits with
  | nil => simp [lastValue]
  | cons v visits ih =>
      simp [lastValue, Declaration.value?, Option.isSome_or, ih, or_comm]

theorem lastValue_eq_none {visits : List Declaration} {key : String}
    (h : ∀ v ∈ visits, v.declared.get? key = none) : lastValue visits key = none := by
  rw [← Option.not_isSome_iff_eq_none, lastValue_isSome_iff]
  rintro ⟨v, member, declares⟩
  rw [h v member] at declares
  cases declares

theorem lastValue_of_last {before after : List Declaration} {v : Declaration} {key : String}
    {value : Value} (declares : v.declared.get? key = some value)
    (silent : ∀ w ∈ after, w.declared.get? key = none) :
    lastValue (before ++ v :: after) key = some (meant (home v.path) key value) := by
  rw [lastValue_append, lastValue, lastValue_eq_none silent, Declaration.value?, declares]
  rfl

/-! ### The reader -/

/-- What a descriptor lays over the options that it inherits. -/
def Declaration.laid? (v : Declaration) (key : String) : Option Value :=
  (anchored (home v.path) v.declared).get? key

/-- What the last descriptor to lay something down for a key lays down. -/
def lastLaid (visits : List Declaration) (key : String) : Option Value :=
  visits.reverse.findSome? (·.laid? key)

theorem lastLaid_append (visits later : List Declaration) (key : String) :
    lastLaid (visits ++ later) key = (lastLaid later key).or (lastLaid visits key) := by
  rw [lastLaid, List.reverse_append, List.findSome?_append]
  rfl

theorem lastLaid_singleton (v : Declaration) (key : String) :
    lastLaid [v] key = v.laid? key :=
  List.findSome?_singleton ..

/-- What is laid down for a key is what its value stands for, except where `paths` start from. -/
theorem lastLaid_eq_lastValue (visits : List Declaration) {key : String}
    (other : key ≠ Options.pathsBaseKey) : lastLaid visits key = lastValue visits key := by
  induction visits with
  | nil => rfl
  | cons v later ih =>
      change lastLaid ([v] ++ later) key = _
      rw [lastLaid_append, lastLaid_singleton, ih]
      exact congrArg _ (get?_anchored (home v.path) v.declared other)

/-- What a task that ends well has come to, by the walk. -/
def Task.Inherits (t : FileTree) : Task → Options → Prop
  | .read _ p, options => options.members.Sorted ∧ ∃ visits, PostOrder t p visits ∧
      ∀ key, key ≠ Options.pathsBaseKey → options.get? key = lastValue visits key
  | .lay _ p names sum, options => sum.members.Sorted →
      options.members.Sorted ∧ ∃ visits, Walk t p names visits ∧
        ∀ key, key ≠ Options.pathsBaseKey →
          options.get? key = (lastValue visits key).or (sum.get? key)

/-- The same of every key, with what was laid down for it. -/
def Task.Gathers (t : FileTree) : Task → Options → Prop
  | .read _ p, options => options.members.Sorted ∧ ∃ visits, PostOrder t p visits ∧
      ∀ key, options.get? key = lastLaid visits key
  | .lay _ p names sum, options => sum.members.Sorted →
      options.members.Sorted ∧ ∃ visits, Walk t p names visits ∧
        ∀ key, options.get? key = (lastLaid visits key).or (sum.get? key)

theorem get?_merge (o : Options) {upper : Members} (h : upper.Sorted) (key : String) :
    (o.merge upper).get? key = (upper.get? key).or (o.get? key) :=
  Members.get?_overlay o.members h key

theorem get?_layOwn {p : Path} {d : Descriptor} (loaded : load t p = .ok d) (options : Options)
    (key : String) :
    (layOwn p d options).get? key = ((declaration p d).laid? key).or (options.get? key) := by
  have sorted := load_sorted loaded
  unfold layOwn declaration Declaration.laid?
  cases own : d.options with
  | none => rfl
  | some declared =>
      exact get?_merge options (sorted_anchored (home p) (sorted declared own)) key

theorem sorted_layOwn (p : Path) (d : Descriptor) {options : Options}
    (h : options.members.Sorted) : (layOwn p d options).members.Sorted := by
  unfold layOwn
  split
  · exact h.overlay _
  · exact h

/-- Whatever the reader comes to is what the walk gives. -/
theorem Runs.gathers {task : Task} {r : Except DescriptorFault Options} (h : Runs t task r) :
    ∀ options, r = .ok options → task.Gathers t options := by
  induction h with
  | again _ =>
      intro options same
      cases same
  | unloaded _ _ =>
      intro options same
      cases same
  | @loaded chain p d r _ found _ ih =>
      intro options same
      cases r with
      | error f => cases same
      | ok sum =>
          obtain rfl := Except.ok.inj same
          obtain ⟨sorted, visits, walk, values⟩ := ih sum rfl Members.sorted_nil
          refine ⟨sorted_layOwn p d sorted, _, ⟨d, visits, found, walk, rfl⟩, ?_⟩
          intro key
          rw [get?_layOwn found sum key, values key, lastLaid_append, lastLaid_singleton]
          simp [Options.get?, Options.empty, Members.get?]
  | finished =>
      intro options same sorted
      obtain rfl := Except.ok.inj same
      exact ⟨sorted, [], .finished, fun key => rfl⟩
  | missing _ =>
      intro options same
      cases same
  | broken _ _ _ =>
      intro options same
      cases same
  | @laid chain p name names sum base inherited r found _ _ ihRead ihRest =>
      intro options same sorted
      obtain ⟨sortedBase, _, ⟨d, inner, loaded, below, rfl⟩, valuesBase⟩ := ihRead inherited rfl
      obtain ⟨sortedAll, later, rest, values⟩ := ihRest options same (sorted.overlay _)
      refine ⟨sortedAll, _, .base found loaded below rest, ?_⟩
      intro key
      have split : inner ++ declaration base d :: later =
          (inner ++ [declaration base d]) ++ later := by simp
      rw [values key, get?_merge sum sortedBase]
      change (lastLaid later key).or ((inherited.get? key).or (sum.get? key)) = _
      rw [valuesBase key, split, lastLaid_append (inner ++ [declaration base d]), Option.or_assoc]

theorem Runs.inherits {task : Task} {r : Except DescriptorFault Options} (h : Runs t task r) :
    ∀ options, r = .ok options → task.Inherits t options := by
  intro options same
  have gathered := h.gathers options same
  cases task with
  | read chain p =>
      obtain ⟨sorted, visits, order, values⟩ := gathered
      refine ⟨sorted, visits, order, ?_⟩
      intro key other
      rw [values key, lastLaid_eq_lastValue visits other]
  | lay chain p names sum =>
      intro sortedSum
      obtain ⟨sorted, visits, walk, values⟩ := gathered sortedSum
      refine ⟨sorted, visits, walk, ?_⟩
      intro key other
      rw [values key, lastLaid_eq_lastValue visits other]

/-- Last declaration wins. The options have exactly the keys that are declared on the walk, and for
each the value of its last declaration, as it is meant in the directory of that descriptor. -/
theorem get?_readOptionsAt (rooted : t.here.isAbsolute = true) {p : Path} {options : Options}
    (read : (readOptionsAt t p).answer = .ok options) :
    ∃ visits, PostOrder t (t.absolute p) visits ∧
      (∀ visits', PostOrder t (t.absolute p) visits' → visits' = visits) ∧
      (∀ v ∈ visits, ∀ s, ((home v.path).within s).Canonical) ∧
      ∀ key, key ≠ Options.pathsBaseKey →
        ((options.get? key).isSome = true ↔
          ∃ v ∈ visits, (v.declared.get? key).isSome = true) ∧
        ∀ before v after value, visits = before ++ v :: after →
          v.declared.get? key = some value → (∀ w ∈ after, w.declared.get? key = none) →
          options.get? key = some (meant (home v.path) key value) := by
  obtain ⟨_, visits, order, values⟩ := (runs_readOptionsAt t p).inherits options read
  have absolute := order.isAbsolute (FileTree.canonical_absolute rooted p).isAbsolute
  refine ⟨visits, order, fun visits' order' => order'.unique order, ?_, ?_⟩
  · intro v member s
    exact Path.canonical_within (isAbsolute_home (absolute v member))
  · intro key other
    rw [values key other]
    refine ⟨lastValue_isSome_iff visits key, ?_⟩
    rintro before v after value rfl declares silent
    exact lastValue_of_last declares silent

/-- `a` extends `b` and `c`, which both extend `d`, the only one to declare paths. -/
def sharedBase : FileTree where
  entries :=
    [(["a.json"], .file "[[\"./lib/b\", \"./c.json\"], null]".toUTF8.toList),
      (["lib"], .directory),
      (["lib", "b.json"], .file "[\"./d.json\", \x7b\"strict\": true\x7d]".toUTF8.toList),
      (["c.json"], .file "[\"./lib/d.json\", \x7b\"strict\": false\x7d]".toUTF8.toList),
      (["lib", "d.json"], .file
        "[null, \x7b\"outDir\": \"out\", \"typeRoots\": [\"../types\", 7]\x7d]".toUTF8.toList)]
  here := ⟨"/"⟩

/-- Both paths start from the directory of `d`, and the number among its roots stays. -/
theorem get?_readOptionsAt_sharedBase :
    sharedBase.here.isAbsolute = true ∧ ∃ options visits,
      (readOptionsAt sharedBase ⟨"a.json"⟩).answer = .ok options ∧
        PostOrder sharedBase (sharedBase.absolute ⟨"a.json"⟩) visits ∧
          (∃ v ∈ visits, (v.declared.get? "typeRoots").isSome = true) ∧
            options.text? "outDir" = some "/lib/out" ∧
              (options.get? "typeRoots").map Value.print = some "[\"/types\",7]" := by
  have rooted : sharedBase.here.isAbsolute = true := by decide
  have set : (match (readOptionsAt sharedBase ⟨"a.json"⟩).answer with
      | .ok options => options.text? "outDir" == some "/lib/out" &&
        (options.get? "typeRoots").map Value.print == some "[\"/types\",7]"
      | .error _ => false) = true := by decide +kernel
  cases read : (readOptionsAt sharedBase ⟨"a.json"⟩).answer with
  | error f => simp [read] at set
  | ok options =>
      obtain ⟨visits, order, _, _, values⟩ := get?_readOptionsAt rooted read
      have declared := (values "typeRoots" (by decide)).1
      rw [read] at set
      simp only [Bool.and_eq_true, beq_iff_eq] at set
      obtain ⟨out, types⟩ := set
      obtain ⟨value, found, _⟩ := Option.map_eq_some_iff.mp types
      refine ⟨rooted, options, visits, rfl, order, ?_, out, types⟩
      exact declared.mp (by rw [found]; rfl)

end RootedBuild.Descriptor
