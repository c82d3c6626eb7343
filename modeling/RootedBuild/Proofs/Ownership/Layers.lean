import RootedBuild.Proofs.Descriptor.Inheritance
import RootedBuild.Proofs.Ownership.Resolving

/-!
The layers of a root's options: its descriptor with all that this extends, or the lenient options;
the configured ones over them; and last the keys that are reserved, some forced off and some
removed. What is said of a reserved key below is never seen. It cannot be seen on the way either,
because descriptors are laid over one another key by key: two trees whose descriptors differ in
reserved keys only give the same options, and the same problems.
-/
namespace RootedBuild
open Json

namespace Options

/-- The keys that nothing said below decides. -/
def reserved : List String := forcedOff ++ removed

theorem get?_inMemory (o : Options) (key : String) :
    o.inMemory.get? key =
      if key ∈ removed then none
      else if key ∈ forcedOff then some (.bool false) else o.get? key := by
  have distinct : forcedOff.Nodup := by decide
  have distinctRemoved : removed.Nodup := by decide
  have off := Members.get?_foldl (fun _ => some (.bool false))
    (fun ms k key => ms.get?_put k key (.bool false)) distinct o.members key
  have gone := Members.get?_foldl (fun _ => none) Members.get?_erase distinctRemoved
    (forcedOff.foldl (fun ms key => ms.put key (.bool false)) o.members) key
  rw [off] at gone
  exact gone

theorem sorted_inMemory {o : Options} (h : o.members.Sorted) : o.inMemory.members.Sorted :=
  (h.foldl (fun _ key h => h.put key (.bool false)) forcedOff).foldl
    (fun _ key h => h.erase key) removed

theorem sorted_lenient : lenient.members.Sorted := Members.sorted_ofPairs _

/-! ### Differences in reserved keys -/

/-- The same but for what is said of reserved keys. -/
def Akin (ms ms' : Members) : Prop := ∀ key, key ∉ reserved → ms.get? key = ms'.get? key

theorem Akin.refl (ms : Members) : Akin ms ms := fun _ _ => rfl

theorem Akin.overlay {ms ms' upper upper' : Members} (h : Akin ms ms') (above : Akin upper upper')
    (sorted : upper.Sorted) (sorted' : upper'.Sorted) :
    Akin (ms.overlay upper) (ms'.overlay upper') := by
  intro key free
  rw [Members.get?_overlay ms sorted, Members.get?_overlay ms' sorted', h key free,
    above key free]

/-- Paths among reserved keys are not what makes a path absolute elsewhere. -/
theorem Akin.anchored {declared declared' : Members} (h : Akin declared declared') (dir : Path) :
    Akin (Descriptor.anchored dir declared) (Descriptor.anchored dir declared') := by
  have freePaths : "paths" ∉ reserved := by decide
  intro key free
  by_cases base : key = pathsBaseKey
  · subst base
    rw [Descriptor.get?_anchored_base, Descriptor.get?_anchored_base, h _ freePaths, h _ free]
  · rw [Descriptor.get?_anchored dir declared base, Descriptor.get?_anchored dir declared' base,
      h key free]

theorem Akin.inMemory {o o' : Options} (h : Akin o.members o'.members) (sorted : o.members.Sorted)
    (sorted' : o'.members.Sorted) : o.inMemory = o'.inMemory := by
  refine congrArg Options.mk ((sorted_inMemory sorted).ext (sorted_inMemory sorted') ?_)
  intro key
  have said := o.get?_inMemory key
  have said' := o'.get?_inMemory key
  by_cases gone : key ∈ removed
  · rw [if_pos gone] at said said'
    exact said.trans said'.symm
  · by_cases off : key ∈ forcedOff
    · rw [if_neg gone, if_pos off] at said said'
      exact said.trans said'.symm
    · rw [if_neg gone, if_neg off] at said said'
      have free : key ∉ reserved := by simp [reserved, off, gone]
      exact (said.trans (h key free)).trans said'.symm

end Options

/-- The same error, or values that are alike. -/
inductive Tally (alike : α → α → Prop) : Except ε α → Except ε α → Prop where
  | failed (e : ε) : Tally alike (.error e) (.error e)
  | given {a a' : α} (same : alike a a') : Tally alike (.ok a) (.ok a')

namespace Tally

variable {alike : α → α → Prop} {x : Except ε α}

theorem refl (same : ∀ a, alike a a) (x : Except ε α) : Tally alike x x := by
  cases x with
  | error e => exact .failed e
  | ok a => exact .given (same a)

theorem of_error {e : ε} (h : Tally alike (.error e) x) : x = .error e := by
  cases h with
  | failed => rfl

theorem of_ok {a : α} (h : Tally alike (.ok a) x) : ∃ a', x = .ok a' ∧ alike a a' := by
  cases h with
  | given same => exact ⟨_, rfl, same⟩

end Tally

/-- Descriptors that extend the same, and say the same but for reserved keys. -/
def Descriptor.Akin (d d' : Descriptor) : Prop :=
  d'.bases = d.bases ∧ Options.Akin (d.options.getD []) (d'.options.getD [])

/-- Trees with the same files, where descriptors are told apart by reserved keys only. -/
structure FileTree.Akin (t t' : FileTree) : Prop where
  here : t'.here = t.here
  files : t'.isFile = t.isFile
  loads : ∀ p, Tally Descriptor.Akin (Descriptor.load t p) (Descriptor.load t' p)

theorem FileTree.Akin.refl (t : FileTree) : t.Akin t where
  here := rfl
  files := rfl
  loads _ := .refl (fun _ => ⟨rfl, .refl _⟩) _

namespace Descriptor

variable {t t' : FileTree}

/-- The same work, over options that are alike. -/
inductive Task.Akin : Task → Task → Prop where
  | read (chain : List Path) (p : Path) : Task.Akin (.read chain p) (.read chain p)
  | lay (chain : List Path) (p : Path) (names : List String) {sum sum' : Options}
    (same : Options.Akin sum.members sum'.members) :
    Task.Akin (.lay chain p names sum) (.lay chain p names sum')

theorem base?_of_akin (h : t.Akin t') (dir : Path) (name : String) :
    base? t' dir name = base? t dir name := by
  rw [base?, h.files]
  rfl

theorem akin_layOwn {p : Path} {d d' : Descriptor} (loaded : load t p = .ok d)
    (loaded' : load t' p = .ok d') (same : d.Akin d') {options options' : Options}
    (h : Options.Akin options.members options'.members) :
    Options.Akin (layOwn p d options).members (layOwn p d' options').members := by
  intro key free
  have laid := same.2.anchored (home p) key free
  have own := get?_layOwn loaded options key
  have own' := get?_layOwn loaded' options' key
  exact own.trans ((congrArg₂ Option.or laid (h key free)).trans own'.symm)

/-- In trees that are alike, reading comes to ends that are alike. -/
theorem Runs.akin (h : t.Akin t') {task : Task} {r : Except DescriptorFault Options}
    (runs : Runs t task r) : ∀ task', task.Akin task' →
      ∃ r', Runs t' task' r' ∧ Tally (fun o o' => Options.Akin o.members o'.members) r r' := by
  induction runs with
  | again met =>
      rintro _ ⟨⟩
      exact ⟨_, .again met, .failed _⟩
  | @unloaded chain p f fresh failed =>
      rintro _ ⟨⟩
      have failed' := (failed ▸ h.loads p).of_error
      exact ⟨_, .unloaded fresh failed', .failed f⟩
  | @loaded chain p d r fresh found _ ih =>
      rintro _ ⟨⟩
      obtain ⟨d', found', same⟩ := (found ▸ h.loads p).of_ok
      obtain ⟨r', bases, tally⟩ := ih (.lay (chain ++ [p]) p d'.bases .empty)
        (same.1 ▸ .lay _ _ _ (.refl _))
      refine ⟨_, .loaded fresh found' bases, ?_⟩
      cases tally with
      | failed f => exact .failed f
      | given sums => exact .given (akin_layOwn found found' same sums)
  | finished =>
      rintro _ (_ | ⟨_, _, _, same⟩)
      exact ⟨_, .finished, .given same⟩
  | missing nowhere =>
      rintro _ (_ | ⟨_, _, _, same⟩)
      exact ⟨_, .missing ((base?_of_akin h _ _).trans nowhere), .failed _⟩
  | @broken chain p name names sum base f found _ ih =>
      rintro _ (_ | ⟨_, _, _, same⟩)
      obtain ⟨r', read, tally⟩ := ih _ (.read chain base)
      rw [tally.of_error] at read
      exact ⟨_, .broken ((base?_of_akin h _ _).trans found) read, .failed f⟩
  | @laid chain p name names sum base inherited r found read _ ihRead ihRest =>
      rintro _ (_ | ⟨_, _, _, same⟩)
      obtain ⟨_, read', tally⟩ := ihRead _ (.read chain base)
      obtain ⟨inherited', rfl, sameBase⟩ := tally.of_ok
      have sorted := (read.gathers inherited rfl).1
      have sorted' := (read'.gathers inherited' rfl).1
      obtain ⟨r', rest, tallyRest⟩ :=
        ihRest _ (.lay chain p names (same.overlay sameBase sorted sorted'))
      exact ⟨r', .laid ((base?_of_akin h _ _).trans found) read' rest, tallyRest⟩

theorem readOptionsAt_akin (h : t.Akin t') (p : Path) :
    Tally (fun o o' => Options.Akin o.members o'.members) (readOptionsAt t p).answer
      (readOptionsAt t' p).answer := by
  obtain ⟨r', runs, tally⟩ := (runs_readOptionsAt t p).akin h _ (.read [] (t.absolute p))
  have here : t'.absolute p = t.absolute p := by rw [FileTree.absolute, h.here]; rfl
  have runs' := runs_readOptionsAt t' p
  rw [here] at runs'
  rwa [runs'.unique runs]

theorem sorted_readOptionsAt {p : Path} {options : Options}
    (read : (readOptionsAt t p).answer = .ok options) : options.members.Sorted :=
  ((runs_readOptionsAt t p).gathers options read).1

end Descriptor

namespace Locator

variable {t t' : FileTree} {settings settings' : Settings}

/-- What the options of a root start from. -/
inductive Founds (t : FileTree) : Root → Options → Prop where
  | descriptor {p own} (read : (Descriptor.readOptionsAt t p).answer = .ok own) :
    Founds t (.descriptor p) own
  | fallback {dir} : Founds t (.fallback dir) .lenient

theorem founds_of_baseOptions {root : Root} {own : Options}
    (h : (baseOptions t root).answer = .ok own) : Founds t root own := by
  cases root with
  | descriptor p => exact .descriptor h
  | fallback dir => exact Except.ok.inj h ▸ .fallback

theorem Founds.sorted {root : Root} {own : Options} (h : Founds t root own) :
    own.members.Sorted := by
  cases h with
  | descriptor read => exact Descriptor.sorted_readOptionsAt read
  | fallback => exact Options.sorted_lenient

theorem baseOptions_akin (h : t.Akin t') (root : Root) :
    Tally (fun o o' => Options.Akin o.members o'.members) (baseOptions t root).answer
      (baseOptions t' root).answer := by
  cases root with
  | descriptor p => exact Descriptor.readOptionsAt_akin h p
  | fallback dir => exact .given (.refl _)

theorem optionsOf_eq_ok_iff {root : Root} {options : Options} :
    (optionsOf t settings root).answer = .ok options ↔ ∃ own,
      (baseOptions t root).answer = .ok own ∧ (own.merge settings.overrides).inMemory = options := by
  dsimp only [optionsOf]
  cases (baseOptions t root).answer <;> simp [Except.map]

theorem optionsOf_eq_error_iff {root : Root} {f : DescriptorFault} :
    (optionsOf t settings root).answer = .error f ↔ (baseOptions t root).answer = .error f := by
  dsimp only [optionsOf]
  cases (baseOptions t root).answer <;> simp [Except.map]

theorem optionsOf_akin (h : t.Akin t') (root : Root)
    (same : Options.Akin settings.overrides settings'.overrides)
    (ordered : settings.overrides.Sorted) (ordered' : settings'.overrides.Sorted) :
    (optionsOf t' settings' root).answer = (optionsOf t settings root).answer := by
  have tally := baseOptions_akin h root
  cases own : (baseOptions t root).answer with
  | error f =>
      rw [own] at tally
      rw [optionsOf_eq_error_iff.mpr own, optionsOf_eq_error_iff.mpr tally.of_error]
  | ok o =>
      rw [own] at tally
      obtain ⟨o', own', akin⟩ := tally.of_ok
      have sorted := (founds_of_baseOptions own).sorted
      have sorted' := (founds_of_baseOptions own').sorted
      have merged := akin.overlay same ordered ordered'
      rw [optionsOf_eq_ok_iff.mpr ⟨o, own, rfl⟩, optionsOf_eq_ok_iff.mpr ⟨o', own', rfl⟩]
      exact congrArg Except.ok
        (merged.inMemory (sorted.overlay _) (sorted'.overlay _)).symm

/-- Options by layers: what the forced keys say, nothing for the removed ones, and otherwise what is
configured or else what the root starts from. Saying more of the first two makes no difference. -/
theorem optionsOf_layers (ordered : settings.overrides.Sorted) (root : Root) :
    (∀ options, (optionsOf t settings root).answer = .ok options → ∃ own, Founds t root own ∧
      (∀ key ∈ Options.forcedOff, options.get? key = some (.bool false)) ∧
      (∀ key ∈ Options.removed, options.get? key = none) ∧
      ∀ key, key ∉ Options.forcedOff → key ∉ Options.removed →
        options.get? key = (settings.overrides.get? key).or (own.get? key)) ∧
    (∀ t' settings', t.Akin t' → settings'.overrides.Sorted →
      Options.Akin settings.overrides settings'.overrides →
      (optionsOf t' settings' root).answer = (optionsOf t settings root).answer) ∧
    (∀ settings' f, (optionsOf t settings' root).answer = .error f ↔
      (optionsOf t settings root).answer = .error f) ∧
    ∀ {σ α : Type} (E : Engine σ α) (b : Bench σ) (parts : NodeContents α),
      (Ownership.makeContents E t settings root b).answer = .ok parts →
        (optionsOf t settings root).answer = .ok parts.options := by
  refine ⟨?_, ?_, ?_, ?_⟩
  · intro options given
    obtain ⟨own, base, rfl⟩ := optionsOf_eq_ok_iff.mp given
    refine ⟨own, founds_of_baseOptions base, ?_, ?_, ?_⟩
    · intro key off
      have apart : ∀ key ∈ Options.forcedOff, key ∉ Options.removed := by decide
      rw [Options.get?_inMemory, if_neg (apart key off), if_pos off]
    · intro key gone
      rw [Options.get?_inMemory, if_pos gone]
    · intro key on kept
      rw [Options.get?_inMemory, if_neg kept, if_neg on, Descriptor.get?_merge own ordered]
  · intro t' settings' akin ordered' same
    exact optionsOf_akin akin root same ordered ordered'
  · intro settings' f
    rw [optionsOf_eq_error_iff, optionsOf_eq_error_iff]
  · intro σ α E b parts made
    exact Ownership.optionsOf_of_makeContents made

/-- A descriptor that asks for an output directory, and extends one that asks for declarations. -/
def layered : FileTree where
  entries :=
    [(["a.json"], .file
        "[\"./b\", \x7b\"outDir\": \"out\", \"target\": \"es5\"\x7d]".toUTF8.toList),
      (["b.json"], .file "[null, \x7b\"declaration\": true, \"jsx\": 1\x7d]".toUTF8.toList)]
  here := ⟨"/"⟩

/-- A target is configured, and perhaps something else. -/
def configured (more : Members) : Settings where
  overrides := more ++ [("target", .text "es6")]

/-- Each kind of key, where the layers disagree. -/
theorem optionsOf_layered :
    (configured []).overrides.Sorted ∧ ∃ options own,
      (optionsOf layered (configured []) (.descriptor ⟨"/a.json"⟩)).answer = .ok options ∧
      Founds layered (.descriptor ⟨"/a.json"⟩) own ∧
      (own.get? "outDir").isSome = true ∧ options.get? "outDir" = none ∧
      options.get? "declaration" = some (.bool false) ∧
      options.get? "target" = some (.text "es6") ∧ options.get? "jsx" = own.get? "jsx" ∧
      (optionsOf layered (configured [("noEmit", .bool true), ("outDir", .text "x")])
        (.descriptor ⟨"/a.json"⟩)).answer = .ok options := by
  have ordered : (configured []).overrides.Sorted := List.pairwise_singleton _ _
  have ordered' :
      (configured [("noEmit", .bool true), ("outDir", .text "x")]).overrides.Sorted := by
    unfold Members.Sorted
    decide
  have asks : (match (baseOptions layered (.descriptor ⟨"/a.json"⟩)).answer with
      | .ok own => (own.get? "outDir").isSome
      | .error _ => false) = true := by decide +kernel
  obtain ⟨layers, unseen, _, _⟩ :=
    optionsOf_layers (t := layered) ordered (.descriptor ⟨"/a.json"⟩)
  cases base : (baseOptions layered (.descriptor ⟨"/a.json"⟩)).answer with
  | error f => simp [base] at asks
  | ok start =>
      have given : (optionsOf layered (configured []) (.descriptor ⟨"/a.json"⟩)).answer =
          .ok (start.merge (configured []).overrides).inMemory :=
        optionsOf_eq_ok_iff.mpr ⟨start, base, rfl⟩
      obtain ⟨own, founds, off, gone, values⟩ := layers _ given
      have same : own = start := by
        cases founds with
        | descriptor read => exact Except.ok.inj (read.symm.trans base)
      have akin : Options.Akin (configured []).overrides
          (configured [("noEmit", .bool true), ("outDir", .text "x")]).overrides := by
        intro key free
        have noEmit : "noEmit" ≠ key := fun same => free (same ▸ by decide)
        have outDir : "outDir" ≠ key := fun same => free (same ▸ by decide)
        simp [configured, Members.get?, noEmit, outDir]
      rw [base, ← same] at asks
      refine ⟨ordered, _, own, given, founds, asks, gone _ (by decide), off _ (by decide), ?_, ?_,
        (unseen layered _ (.refl layered) ordered' akin).trans given⟩
      · rw [values "target" (by decide) (by decide)]
        rfl
      · rw [values "jsx" (by decide) (by decide)]
        rfl

end Locator

end RootedBuild
