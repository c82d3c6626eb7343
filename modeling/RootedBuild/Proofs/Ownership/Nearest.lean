import RootedBuild.Proofs.Ownership.Memory
import RootedBuild.Proofs.Path.Above

/-!
Which root owns a file, told without a search and without a memory. `Nearest` is the deepest
directory at or above one that holds a file of some name, and `Owner` goes by it, by the build
context and by the file's own directory. On a tree that stays as it is a locator names that owner,
whatever it has been asked before.
-/
namespace RootedBuild

namespace FileTree

/-- `a` is the deepest directory at or above `dir` that holds a file of the name. -/
structure Nearest (t : FileTree) (dir : Path) (name : String) (a : Path) : Prop where
  canonical : a.Canonical
  above : dir.startsWith a = true
  holds : t.isFile (a.child name) = true
  deepest : ∀ b : Path, b.Canonical → dir.startsWith b = true → t.isFile (b.child name) = true →
    a.startsWith b = true

/-- No directory at or above `dir` holds a file of the name. -/
def Bare (t : FileTree) (dir : Path) (name : String) : Prop :=
  ∀ b : Path, b.Canonical → dir.startsWith b = true → t.isFile (b.child name) = false

variable {t : FileTree} {dir : Path} {name : String}

theorem Nearest.unique {a b : Path} (ha : t.Nearest dir name a) (hb : t.Nearest dir name b) :
    a = b :=
  ha.canonical.eq_of_startsWith hb.canonical
    (ha.deepest b hb.canonical hb.above hb.holds) (hb.deepest a ha.canonical ha.above ha.holds)

theorem Nearest.not_bare {a : Path} (h : t.Nearest dir name a) : ¬t.Bare dir name := by
  intro bare
  have none := bare a h.canonical h.above
  rw [h.holds] at none
  cases none

/-- The search finds the deepest directory, if there is any. -/
theorem nearest?_eq_some (h : dir.Canonical) {p : Path} (found : t.nearest? dir name = some p) :
    ∃ a, t.Nearest dir name a ∧ p = a.child name := by
  rw [nearest?, List.find?_map, Option.map_eq_some_iff] at found
  obtain ⟨a, found, rfl⟩ := found
  obtain ⟨holds, deeper, higher, split, passed⟩ := List.find?_eq_some_iff_append.mp found
  have ordered := h.pairwise_ancestors
  rw [split] at ordered
  have member : a ∈ dir.ancestors := split ▸ List.mem_append_right _ (List.mem_cons_self ..)
  obtain ⟨canonical, above⟩ := h.mem_ancestors_iff.mp member
  refine ⟨a, ⟨canonical, above, holds, ?_⟩, rfl⟩
  intro b canonical' above' holds'
  have member' := h.mem_ancestors_iff.mpr ⟨canonical', above'⟩
  rw [split] at member'
  rcases List.mem_append.mp member' with deep | rest
  · have missing := passed b deep
    rw [Function.comp_apply, holds'] at missing
    cases missing
  · rcases List.mem_cons.mp rest with rfl | high
    · exact Path.startsWith_self _
    · exact (List.pairwise_cons.mp (List.pairwise_append.mp ordered).2.1).1 b high

theorem nearest?_eq_none (h : dir.Canonical) (missed : t.nearest? dir name = none) :
    t.Bare dir name := by
  rw [nearest?, List.find?_map, Option.map_eq_none_iff, List.find?_eq_none] at missed
  intro b canonical above
  have missing := missed b (h.mem_ancestors_iff.mpr ⟨canonical, above⟩)
  exact Bool.eq_false_iff.mpr missing

end FileTree

namespace Locator

variable {t : FileTree} {context : Path} {settings : Settings}

/-- The roots of files asked for one after the other. -/
def rootsOf (t : FileTree) (L : Locator) : List Path → Locator × List Root
  | [] => (L, [])
  | file :: files =>
    let first := L.rootOf t file
    let rest := rootsOf t first.state files
    (rest.1, first.answer :: rest.2)

/-- The root that owns a file. -/
inductive Owner (t : FileTree) (context : Path) (settings : Settings) (file : Path) :
    Root → Prop where
  | descriptor {a : Path} (looked : settings.lookUp = true)
    (nearest : t.Nearest (startOf t file) settings.configName a) :
    Owner t context settings file (.descriptor (a.child settings.configName))
  | inside (bare : settings.lookUp = true → t.Bare (startOf t file) settings.configName)
    (lies : (t.absolute file).startsWith (t.absolute context) = true) :
    Owner t context settings file (.fallback (t.absolute context))
  | outside (bare : settings.lookUp = true → t.Bare (startOf t file) settings.configName)
    (lies : (t.absolute file).startsWith (t.absolute context) = false) :
    Owner t context settings file (.fallback (startOf t file))

theorem Owner.unique {file : Path} {r r' : Root} (h : Owner t context settings file r)
    (h' : Owner t context settings file r') : r = r' := by
  cases h with
  | descriptor looked nearest =>
      cases h' with
      | descriptor _ nearest' => rw [nearest.unique nearest']
      | inside bare _ => exact absurd (bare looked) nearest.not_bare
      | outside bare _ => exact absurd (bare looked) nearest.not_bare
  | inside bare lies =>
      cases h' with
      | descriptor looked nearest => exact absurd (bare looked) nearest.not_bare
      | inside _ _ => rfl
      | outside _ lies' => exact absurd (lies.symm.trans lies') (by decide)
  | outside bare lies =>
      cases h' with
      | descriptor looked nearest => exact absurd (bare looked) nearest.not_bare
      | inside _ lies' => exact absurd (lies.symm.trans lies') (by decide)
      | outside _ _ => rfl

theorem owner_rootFrom (rooted : t.here.isAbsolute = true) {file : Path}
    (bare : settings.lookUp = true → t.Bare (startOf t file) settings.configName) :
    Owner t context settings file
      ((new t context settings).rootFrom (t.absolute file) (startOf t file) none) := by
  have clean {p : Path} : (t.absolute p).clean = t.absolute p :=
    (FileTree.canonical_absolute rooted p).clean
  have isInside : (t.absolute context).isInside (t.absolute file) =
      (t.absolute file).startsWith (t.absolute context) := by
    rw [Path.isInside, clean, clean]
  dsimp only [rootFrom, new]
  rw [isInside]
  split
  · rename_i lies
    exact .inside bare lies
  · rename_i lies
    exact .outside bare (Bool.eq_false_iff.mpr lies)

/-- A locator that has not been asked names the owner. -/
theorem owner_rootOf_new (rooted : t.here.isAbsolute = true) (file : Path) :
    Owner t context settings file ((new t context settings).rootOf t file).answer := by
  have canonical := canonical_startOf rooted file
  have truthful : (new t context settings).Truthful t := truthful_of_found rfl
  have kept : (new t context settings).settings = settings := rfl
  rw [rootOf_answer, governing_of_truthful truthful canonical, kept]
  split
  · rename_i looked
    cases found : t.nearest? (startOf t file) settings.configName with
    | none => exact owner_rootFrom rooted fun _ => FileTree.nearest?_eq_none canonical found
    | some p =>
        obtain ⟨a, nearest, rfl⟩ := FileTree.nearest?_eq_some canonical found
        exact .descriptor looked nearest
  · rename_i unlooked
    exact owner_rootFrom rooted fun looked => absurd looked unlooked

/-- A truthful memory is not seen in any of a sequence of roots. -/
theorem rootsOf_of_truthful (rooted : t.here.isAbsolute = true) {L : Locator}
    (truthful : L.Truthful t) (files : List Path) :
    (L.rootsOf t files).2 = files.map fun file => (L.unasked.rootOf t file).answer := by
  induction files generalizing L with
  | nil => rfl
  | cons file files ih =>
      obtain ⟨answer, truthful', same⟩ := rootOf_of_truthful rooted truthful file
      have rest := ih truthful'
      rw [same] at rest
      exact congrArg₂ List.cons answer rest

/-- The search starts at the file's directory, or at the file where that is the root. -/
theorem startsWith_startOf (rooted : t.here.isAbsolute = true) (file : Path) :
    (t.absolute file).startsWith (startOf t file) = true := by
  unfold startOf
  cases parent : (t.absolute file).parent? with
  | none => exact Path.startsWith_self _
  | some dir =>
      have member : dir ∈ (t.absolute file).ancestors :=
        List.mem_cons_of_mem _ (List.mem_of_mem_head? parent)
      exact ((FileTree.canonical_absolute rooted file).mem_ancestors_iff.mp member).2

/-- Where the name of descriptors is a plain one, a root lies at or above what it owns. -/
theorem Owner.startsWith_directory (rooted : t.here.isAbsolute = true) {file : Path} {r : Root}
    (h : Owner t context settings file r) {s : String}
    (single : (⟨settings.configName⟩ : Path).parts = [.name s]) :
    (t.absolute file).startsWith r.directory = true := by
  have start := startsWith_startOf rooted file
  cases h with
  | descriptor looked nearest =>
      obtain ⟨dir, parent, parts⟩ := Path.exists_parent?_child nearest.canonical single
      have above := Path.startsWith_trans start nearest.above
      rw [Root.directory, parent, Option.getD_some, Path.startsWith, parts]
      exact above
  | inside bare lies => exact lies
  | outside bare lies => exact start

/-- The nearest descriptor owns. Whatever a locator remembers, a file is of the root with the
deepest descriptor above it, or without any of the default root of the context or of its own
directory. -/
theorem rootsOf_nearest (rooted : t.here.isAbsolute = true) (context : Path) (settings : Settings)
    (files : List Path) :
    ((new t context settings).rootsOf t files).2 =
        files.map (fun file => ((new t context settings).rootOf t file).answer) ∧
      (∀ file r, Owner t context settings file r ↔
        ((new t context settings).rootOf t file).answer = r) ∧
      ∀ s, (⟨settings.configName⟩ : Path).parts = [.name s] → ∀ file,
        (t.absolute file).startsWith
          ((new t context settings).rootOf t file).answer.directory = true := by
  refine ⟨rootsOf_of_truthful rooted (truthful_of_found rfl) files, ?_, ?_⟩
  · intro file r
    have owner : Owner t context settings file ((new t context settings).rootOf t file).answer :=
      owner_rootOf_new rooted file
    constructor
    · exact fun owns => owner.unique owns
    · rintro rfl
      exact owner
  · intro s single file
    exact (owner_rootOf_new rooted file).startsWith_directory rooted single

/-- A descriptor above one directory, and two others whose names start alike. -/
def neighbours : FileTree where
  entries := [(["app"], .directory), (["app", "sub"], .directory),
    (["app", "tsconfig.json"], .file []), (["apple"], .directory), (["applet"], .directory)]
  here := ⟨"/"⟩

/-- Files below a descriptor, in the build context, and next to it; then the root itself, and again
the first. -/
theorem rootsOf_neighbours : neighbours.here.isAbsolute = true ∧
    ((new neighbours ⟨"apple"⟩ {}).rootsOf neighbours
        [⟨"app/sub/a.ts"⟩, ⟨"apple/b.ts"⟩, ⟨"applet/c.ts"⟩, ⟨"/"⟩, ⟨"/app/./sub/d.ts"⟩]).2 =
      [.descriptor ⟨"/app/tsconfig.json"⟩, .fallback ⟨"/apple"⟩, .fallback ⟨"/applet"⟩,
        .fallback ⟨"/"⟩, .descriptor ⟨"/app/tsconfig.json"⟩] ∧
    Owner neighbours ⟨"apple"⟩ {} ⟨"/app/./sub/d.ts"⟩ (.descriptor ⟨"/app/tsconfig.json"⟩) ∧
    (neighbours.absolute ⟨"/app/./sub/d.ts"⟩).startsWith ⟨"/app"⟩ = true := by
  have rooted : neighbours.here.isAbsolute = true := by decide
  have single : (⟨({} : Settings).configName⟩ : Path).parts = [.name "tsconfig.json"] := by decide
  obtain ⟨answers, owner, inside⟩ := rootsOf_nearest rooted ⟨"apple"⟩ {}
    [⟨"app/sub/a.ts"⟩, ⟨"apple/b.ts"⟩, ⟨"applet/c.ts"⟩, ⟨"/"⟩, ⟨"/app/./sub/d.ts"⟩]
  have last : ((new neighbours ⟨"apple"⟩ {}).rootOf neighbours ⟨"/app/./sub/d.ts"⟩).answer =
      .descriptor ⟨"/app/tsconfig.json"⟩ := by decide +kernel
  have below := inside _ single ⟨"/app/./sub/d.ts"⟩
  rw [last] at below
  refine ⟨rooted, ?_, (owner _ _).mpr last, below⟩
  rw [answers]
  decide +kernel

end Locator

end RootedBuild
