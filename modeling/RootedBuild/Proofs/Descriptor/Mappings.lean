import RootedBuild.Proofs.Descriptor.Inheritance

/-!
Path mappings and the directory they start from. The two are different keys, and options are laid
over one another key by key, so each could come from a descriptor of its own. They do not, because
every descriptor that says `paths` lays its directory down with them: along the walk the last one to
lay down the one is the last to lay down the other. A descriptor that writes the key of the
directory itself is the only thing that parts them.
-/
namespace RootedBuild.Descriptor
open Json

/-- A descriptor that does not write where `paths` start from itself. -/
def Declaration.Plain (v : Declaration) : Prop := v.declared.get? Options.pathsBaseKey = none

theorem Declaration.laid?_paths (v : Declaration) : v.laid? "paths" = v.declared.get? "paths" := by
  have plain : meant (home v.path) "paths" = id := rfl
  have other : "paths" ≠ Options.pathsBaseKey := by decide
  rw [laid?, get?_anchored _ _ other, plain, Option.map_id_apply]

/-- The directory is laid down exactly where `paths` are. -/
theorem Declaration.Plain.laid?_base {v : Declaration} (h : v.Plain) :
    v.laid? Options.pathsBaseKey =
      (v.declared.get? "paths").map fun _ => .text (home v.path).text := by
  rw [laid?, get?_anchored_base, h]
  cases v.declared.get? "paths" <;> rfl

theorem lastLaid_eq_none_iff {visits : List Declaration} {key : String} :
    lastLaid visits key = none ↔ ∀ v ∈ visits, v.laid? key = none := by
  simp [lastLaid]

theorem lastLaid_of_last {before after : List Declaration} {v : Declaration} {key : String}
    {value : Value} (silent : ∀ w ∈ after, w.laid? key = none) (lays : v.laid? key = some value) :
    lastLaid (before ++ v :: after) key = some value := by
  change lastLaid (before ++ ([v] ++ after)) key = _
  rw [lastLaid_append, lastLaid_append, lastLaid_eq_none_iff.mpr silent, lastLaid_singleton, lays]
  rfl

theorem exists_last_of_lastLaid {visits : List Declaration} {key : String} {value : Value}
    (h : lastLaid visits key = some value) : ∃ before v after, visits = before ++ v :: after ∧
      v.laid? key = some value ∧ ∀ w ∈ after, w.laid? key = none := by
  obtain ⟨after, v, before, split, lays, silent⟩ := List.findSome?_eq_some_iff.mp h
  refine ⟨before.reverse, v, after.reverse, ?_, lays, ?_⟩
  · rw [← visits.reverse_reverse, split]
    simp
  · intro w member
    exact silent w (List.mem_reverse.mp member)

/-! ### The pair along a walk -/

theorem lastLaid_base_eq_none {visits : List Declaration} (plain : ∀ v ∈ visits, v.Plain)
    (h : lastLaid visits "paths" = none) : lastLaid visits Options.pathsBaseKey = none := by
  rw [lastLaid_eq_none_iff] at h ⊢
  intro v member
  rw [(plain v member).laid?_base, ← v.laid?_paths, h v member, Option.map_none]

/-- Where the last `paths` are laid down, so is the last base. -/
theorem exists_last_paths {visits : List Declaration} (plain : ∀ v ∈ visits, v.Plain)
    {value : Value} (h : lastLaid visits "paths" = some value) :
    ∃ before v after, visits = before ++ v :: after ∧ v.declared.get? "paths" = some value ∧
      (∀ w ∈ after, w.declared.get? "paths" = none) ∧
      lastLaid visits Options.pathsBaseKey = some (.text (home v.path).text) := by
  obtain ⟨before, v, after, rfl, lays, silent⟩ := exists_last_of_lastLaid h
  rw [v.laid?_paths] at lays
  have silentPaths : ∀ w ∈ after, w.declared.get? "paths" = none :=
    fun w member => w.laid?_paths ▸ silent w member
  have silentBase : ∀ w ∈ after, w.laid? Options.pathsBaseKey = none := by
    intro w member
    rw [(plain w (by simp [member])).laid?_base, silentPaths w member, Option.map_none]
  refine ⟨before, v, after, rfl, lays, silentPaths, lastLaid_of_last silentBase ?_⟩
  rw [(plain v (by simp)).laid?_base, lays, Option.map_some]

/-- Mappings keep their base. As long as no descriptor writes the key of the base itself, the
options have it exactly if they have `paths`, and it is the directory of the last descriptor to
declare them. -/
theorem get?_pathsBaseKey_readOptionsAt {p : Path} {options : Options}
    (read : (readOptionsAt t p).answer = .ok options) :
    ∃ visits, PostOrder t (t.absolute p) visits ∧
      (∀ visits', PostOrder t (t.absolute p) visits' → visits' = visits) ∧
      ((∀ v ∈ visits, v.Plain) →
        ((options.get? Options.pathsBaseKey).isSome = true ↔
          (options.get? "paths").isSome = true) ∧
        ∀ value, options.get? "paths" = some value →
          ∃ before v after, visits = before ++ v :: after ∧
            v.declared.get? "paths" = some value ∧
            (∀ w ∈ after, w.declared.get? "paths" = none) ∧
            options.get? Options.pathsBaseKey = some (.text (home v.path).text) ∧
            options.pathsBase? = options.baseUrl?.or (some (home v.path))) := by
  obtain ⟨_, visits, order, values⟩ := (runs_readOptionsAt t p).gathers options read
  refine ⟨visits, order, fun visits' order' => order'.unique order, ?_⟩
  intro plain
  refine ⟨?_, ?_⟩
  · rw [values Options.pathsBaseKey, values "paths"]
    cases last : lastLaid visits "paths" with
    | none => rw [lastLaid_base_eq_none plain last]
    | some value =>
        obtain ⟨_, _, _, _, _, _, based⟩ := exists_last_paths plain last
        simp [based]
  · intro value found
    rw [values "paths"] at found
    obtain ⟨before, v, after, split, declares, silent, based⟩ := exists_last_paths plain found
    rw [← values Options.pathsBaseKey] at based
    refine ⟨before, v, after, split, declares, silent, based, ?_⟩
    rw [Options.pathsBase?, Options.text?, based]
    rfl

/-- `a` extends `b` and `c`, which both extend `d`. Both `b` and `d` map `m`, and `d` is met again
after `b`. -/
def mappedTwice : FileTree where
  entries :=
    [(["a.json"], .file "[[\"./lib/b\", \"./c.json\"], null]".toUTF8.toList),
      (["lib"], .directory),
      (["lib", "b.json"], .file
        "[\"../base/d\", \x7b\"paths\": \x7b\"m\": [\"b\"]\x7d\x7d]".toUTF8.toList),
      (["c.json"], .file "[\"./base/d.json\", null]".toUTF8.toList),
      (["base"], .directory),
      (["base", "d.json"], .file
        "[null, \x7b\"paths\": \x7b\"m\": [\"d\"]\x7d\x7d]".toUTF8.toList)]
  here := ⟨"/"⟩

/-- The descriptor at a path extends `bases` and does not write where `paths` start from. -/
def isPlainAt (t : FileTree) (p : Path) (bases : List String) : Bool :=
  match load t p with
  | .ok d => d.bases == bases && ((d.options.getD []).get? Options.pathsBaseKey).isNone
  | .error _ => false

theorem exists_of_isPlainAt {p : Path} {bases : List String} (h : isPlainAt t p bases = true) :
    ∃ d, load t p = .ok d ∧ d.bases = bases ∧ (declaration p d).Plain := by
  unfold isPlainAt at h
  split at h
  · rename_i d loaded
    rw [Bool.and_eq_true, beq_iff_eq, Option.isNone_iff_eq_none] at h
    exact ⟨d, loaded, h⟩
  · cases h

/-- The walk meets `d`, `b`, `d`, `c` and `a`, and none of them writes the key. -/
theorem exists_postOrder_mappedTwice :
    ∃ visits, PostOrder mappedTwice (mappedTwice.absolute ⟨"a.json"⟩) visits ∧
      ∀ v ∈ visits, v.Plain := by
  have here : mappedTwice.absolute ⟨"a.json"⟩ = ⟨"/a.json"⟩ := by decide +kernel
  have isPlain : isPlainAt mappedTwice ⟨"/a.json"⟩ ["./lib/b", "./c.json"] = true ∧
      isPlainAt mappedTwice ⟨"/lib/b.json"⟩ ["../base/d"] = true ∧
      isPlainAt mappedTwice ⟨"/c.json"⟩ ["./base/d.json"] = true ∧
      isPlainAt mappedTwice ⟨"/base/d.json"⟩ [] = true := by decide +kernel
  have found : base? mappedTwice (home ⟨"/a.json"⟩) "./lib/b" = some ⟨"/lib/b.json"⟩ ∧
      base? mappedTwice (home ⟨"/a.json"⟩) "./c.json" = some ⟨"/c.json"⟩ ∧
      base? mappedTwice (home ⟨"/lib/b.json"⟩) "../base/d" = some ⟨"/base/d.json"⟩ ∧
      base? mappedTwice (home ⟨"/c.json"⟩) "./base/d.json" = some ⟨"/base/d.json"⟩ := by
    decide +kernel
  obtain ⟨a, loadedA, basesA, plainA⟩ := exists_of_isPlainAt isPlain.1
  obtain ⟨b, loadedB, basesB, plainB⟩ := exists_of_isPlainAt isPlain.2.1
  obtain ⟨c, loadedC, basesC, plainC⟩ := exists_of_isPlainAt isPlain.2.2.1
  obtain ⟨d, loadedD, basesD, plainD⟩ := exists_of_isPlainAt isPlain.2.2.2
  have walkD : Walk mappedTwice ⟨"/base/d.json"⟩ d.bases [] := basesD ▸ .finished
  have walkB : Walk mappedTwice ⟨"/lib/b.json"⟩ b.bases [declaration ⟨"/base/d.json"⟩ d] :=
    basesB ▸ .base found.2.2.1 loadedD walkD .finished
  have walkC : Walk mappedTwice ⟨"/c.json"⟩ c.bases [declaration ⟨"/base/d.json"⟩ d] :=
    basesC ▸ .base found.2.2.2 loadedD walkD .finished
  have walkA := Walk.base found.1 loadedB walkB (.base found.2.1 loadedC walkC .finished)
  rw [← basesA] at walkA
  rw [here]
  refine ⟨_, ⟨a, _, loadedA, walkA, rfl⟩, ?_⟩
  simp [plainA, plainB, plainC, plainD]

/-- The mappings are those of `d`, and so is the directory. -/
theorem get?_pathsBaseKey_mappedTwice : ∃ options visits,
    (readOptionsAt mappedTwice ⟨"a.json"⟩).answer = .ok options ∧
      PostOrder mappedTwice (mappedTwice.absolute ⟨"a.json"⟩) visits ∧ (∀ v ∈ visits, v.Plain) ∧
      options.pathsBase? = some ⟨"/base"⟩ ∧ ∃ v ∈ visits,
        home v.path = ⟨"/base"⟩ ∧ v.declared.get? "paths" = options.get? "paths" ∧
          (options.get? "paths").isSome = true := by
  have set : (match (readOptionsAt mappedTwice ⟨"a.json"⟩).answer with
      | .ok options => (options.get? "paths").isSome && decide (options.baseUrl? = none) &&
        decide (options.pathsBase? = some ⟨"/base"⟩)
      | .error _ => false) = true := by decide +kernel
  cases read : (readOptionsAt mappedTwice ⟨"a.json"⟩).answer with
  | error f => simp [read] at set
  | ok options =>
      simp only [read, Bool.and_eq_true, decide_eq_true_eq] at set
      obtain ⟨⟨mapped, noBaseUrl⟩, based⟩ := set
      obtain ⟨visits, order, unique, together⟩ := get?_pathsBaseKey_readOptionsAt read
      obtain ⟨visits', order', plain⟩ := exists_postOrder_mappedTwice
      rw [unique visits' order'] at plain
      obtain ⟨value, found⟩ := Option.isSome_iff_exists.mp mapped
      obtain ⟨before, v, after, split, declares, _, _, home⟩ := (together plain).2 value found
      rw [based, noBaseUrl, Option.none_or] at home
      exact ⟨options, visits, rfl, order, plain, based, v, by simp [split],
        (Option.some.inj home).symm, declares.trans found.symm, mapped⟩

end RootedBuild.Descriptor
