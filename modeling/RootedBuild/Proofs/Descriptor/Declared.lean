import RootedBuild.Descriptor.Chain
import RootedBuild.Proofs.Json.Members

/-!
The options that one descriptor declares. They are read as members in order, whichever form the
descriptor is written in, and each key keeps its own value when their paths are made absolute:
`meant` is what a value stands for in a descriptor of a given directory.
-/
namespace RootedBuild
open Json

/-! ### Order -/

/-- What a reading gives, if it gives something, is as `good` says. -/
def Gives (good : α → Prop) (x : Except ε α) : Prop := ∀ a, x = .ok a → good a

namespace Gives

variable {good : α → Prop} {good' : β → Prop}

theorem ok {a : α} (h : good a) : Gives good (.ok a : Except ε α) := by
  intro b same
  rwa [← Except.ok.inj same]

theorem error (e : ε) : Gives good (.error e : Except ε α) := by
  intro b same
  cases same

theorem imp {good' : α → Prop} {x : Except ε α} (h : Gives good x)
    (weaken : ∀ a, good a → good' a) : Gives good' x :=
  fun a same => weaken a (h a same)

theorem bind {x : Except ε α} {next : α → Except ε β} (h : Gives good x)
    (later : ∀ a, good a → Gives good' (next a)) : Gives good' (x >>= next) := by
  cases x with
  | ok a => exact later a (h a rfl)
  | error e => exact .error e

theorem bind_any {x : Except ε α} {next : α → Except ε β} (later : ∀ a, Gives good' (next a)) :
    Gives good' (x >>= next) := by
  have any : Gives (fun _ => True) x := fun _ _ => trivial
  exact any.bind fun a _ => later a

end Gives

namespace Descriptor

def SortedOptions (options : Option Members) : Prop := ∀ ms, options = some ms → ms.Sorted

theorem sortedOptions_none : SortedOptions none := by
  intro ms same
  cases same

theorem sorted_record (w : Written) : SortedOptions (w.value?.bind Value.record?) := by
  intro ms same
  obtain ⟨v, value, record⟩ := Option.bind_eq_some_iff.mp same
  cases w with
  | record members =>
      rw [Written.value?, Option.map_eq_some_iff] at value
      obtain ⟨pairs, _, rfl⟩ := value
      rw [← Option.some.inj record]
      exact Members.sorted_ofPairs pairs
  | list items =>
      rw [Written.value?, Option.map_eq_some_iff] at value
      obtain ⟨vs, _, rfl⟩ := value
      cases record
  | number n => cases n <;> cases value; cases record
  | text s => cases s <;> cases value; cases record
  | _ =>
      cases value
      cases record

theorem readOptions_sorted (ts : Tokens) :
    Gives (fun found => SortedOptions found.1) (readOptions ts) := by
  unfold readOptions
  cases ts with
  | finish p => exact .error _
  | next t rest =>
      dsimp only
      split
      · exact .ok sortedOptions_none
      · refine Gives.bind_any ?_
        rintro ⟨w, rest⟩
        exact .ok (sorted_record w)
      · exact .error _

/-- What has been read so far has its options in order. -/
def Partial.Ordered (p : Partial) : Prop := SortedOptions p.options.join

theorem readMember_ordered {p : Partial} (h : p.Ordered) (key : String) (rest : Tokens) :
    Gives (fun found => found.1.Ordered) (readMember p key rest) := by
  unfold readMember
  split
  · split
    · exact .error _
    · refine Gives.bind_any ?_
      intro ts
      refine Gives.bind_any ?_
      rintro ⟨bases, rest⟩
      exact .ok h
  · split
    · split
      · exact .error _
      · refine Gives.bind_any ?_
        intro ts
        refine (readOptions_sorted ts).bind ?_
        rintro ⟨options, rest⟩ sorted
        exact .ok sorted
    · refine Gives.bind_any ?_
      intro ts
      refine Gives.bind_any ?_
      rintro ⟨w, rest⟩
      exact .ok h

theorem readMembers_sorted (fuel : Nat) (first : Bool) {p : Partial} (h : p.Ordered)
    (ts : Tokens) : Gives (fun found => SortedOptions found.1.options)
      (readMembers fuel first p ts) := by
  induction fuel generalizing first p ts with
  | zero => exact .error _
  | succ fuel ih =>
      refine Gives.bind_any ?_
      rintro (⟨key, rest⟩ | ⟨rest⟩)
      · refine (readMember_ordered h key rest).bind ?_
        rintro ⟨p, rest⟩ ordered
        exact ih false ordered rest
      · exact .ok h

theorem readElements_sorted (ts : Tokens) :
    Gives (fun found => SortedOptions found.1.options) (readElements ts) := by
  have close {d : Descriptor} (h : SortedOptions d.options) (ts : Tokens) :
      Gives (fun found => SortedOptions found.1.options)
        (do return (d, ← closeList ts) : Except Fault (Descriptor × Tokens)) := by
    refine Gives.bind_any ?_
    intro rest
    exact .ok h
  refine Gives.bind_any ?_
  rintro (_ | first)
  · exact close sortedOptions_none ts
  · refine Gives.bind_any ?_
    rintro ⟨bases, rest⟩
    refine Gives.bind_any ?_
    rintro (_ | second)
    · exact close sortedOptions_none rest
    · refine (readOptions_sorted second).bind ?_
      rintro ⟨options, rest⟩ sorted
      exact close sorted rest

theorem readTokens_sorted (ts : Tokens) :
    Gives (fun d => SortedOptions d.options) (readTokens ts) := by
  have finish {x : Except Fault (Descriptor × Tokens)}
      (h : Gives (fun found => SortedOptions found.1.options) x) :
      Gives (fun d => SortedOptions d.options)
        (do let found ← x; expectEnd found.2; return found.1) := by
    refine h.bind ?_
    rintro ⟨d, rest⟩ sorted
    refine Gives.bind_any ?_
    intro u
    exact .ok sorted
  cases ts with
  | finish p => exact .error _
  | next t rest =>
      obtain ⟨lexeme, start, stop⟩ := t
      cases lexeme with
      | openRecord => exact finish (readMembers_sorted _ true (p := {}) sortedOptions_none rest)
      | openList => exact finish (readElements_sorted rest)
      | _ => exact .error _

/-- The options of a descriptor that can be loaded stand in the order of their keys. -/
theorem load_sorted {t : FileTree} {p : Path} {d : Descriptor} (h : load t p = .ok d) :
    SortedOptions d.options := by
  unfold load at h
  split at h
  · cases h
  · rename_i text _
    unfold ofText at h
    dsimp only at h
    split at h
    · cases h
    · have sorted := readTokens_sorted (scan (plainJson text))
      cases read : readTokens (scan (plainJson text)) with
      | error f => rw [read] at h; cases h
      | ok found =>
          rw [read] at h
          obtain rfl := Except.ok.inj h
          exact sorted _ read

/-! ### Meaning -/

/-- A text is a path from `dir`, told by its absolute and clean spelling. -/
def fromDirectory (dir : Path) : Value → Value
  | .text s => .text (dir.within ⟨s⟩).text
  | v => v

/-- What the value of a key stands for in a descriptor of the directory `dir`. -/
def meant (dir : Path) (key : String) (v : Value) : Value :=
  if key ∈ ["baseUrl", "rootDir", "declarationDir", "outDir", "tsBuildInfoFile"] then
    fromDirectory dir v
  else if key ∈ ["rootDirs", "typeRoots"] then
    match v with
    | .list items => .list (items.map (fromDirectory dir))
    | v => v
  else v

theorem meant_eq (dir : Path) (key : String) (v : Value) : meant dir key v =
    if key ∈ pathKeys then anchorText dir v
    else if key ∈ pathListKeys then anchorItems dir v
    else v := by
  have text : fromDirectory dir = anchorText dir := by
    funext v
    cases v <;> rfl
  unfold meant
  rw [text]
  cases v <;> rfl

theorem get?_changeAt (f : Value → Value) (ms : Members) (k key : String) :
    (changeAt f ms k).get? key = if k = key then (ms.get? key).map f else ms.get? key := by
  unfold changeAt
  split
  · rename_i v found
    rw [Members.get?_put]
    split
    · rename_i same
      rw [← same, found, Option.map_some]
    · rfl
  · rename_i missing
    split
    · rename_i same
      rw [← same, missing, Option.map_none]
    · rfl

theorem sorted_changeAt (f : Value → Value) {ms : Members} (h : ms.Sorted) (k : String) :
    (changeAt f ms k).Sorted := by
  unfold changeAt
  split
  · exact h.put k _
  · exact h

/-- Making paths absolute leaves the keys that were declared, with what their values stand for. -/
theorem get?_foldl_anchor (dir : Path) (declared : Members) (key : String) :
    (pathListKeys.foldl (changeAt (anchorItems dir))
      (pathKeys.foldl (changeAt (anchorText dir)) declared)).get? key =
      (declared.get? key).map (meant dir key) := by
  have distinct : pathKeys.Nodup := by decide
  have distinctLists : pathListKeys.Nodup := by decide
  have apart : ∀ k ∈ pathKeys, k ∉ pathListKeys := by decide
  rw [Members.get?_foldl _ (get?_changeAt (anchorItems dir)) distinctLists,
    Members.get?_foldl _ (get?_changeAt (anchorText dir)) distinct, funext (meant_eq dir key)]
  by_cases path : key ∈ pathKeys
  · simp only [path, apart key path, if_true, if_false]
  · by_cases list : key ∈ pathListKeys
    · simp only [path, list, if_true, if_false]
    · simp only [path, list, if_false, Option.map_id']

/-- Anchored options have the keys that were declared, with what their values stand for, and perhaps
the directory of `paths`. -/
theorem get?_anchored (dir : Path) (declared : Members) {key : String}
    (other : key ≠ Options.pathsBaseKey) :
    (anchored dir declared).get? key = (declared.get? key).map (meant dir key) := by
  rw [← get?_foldl_anchor dir declared key]
  unfold anchored
  dsimp only
  split
  · rw [Members.get?_put, if_neg (Ne.symm other)]
  · rfl

/-- With `paths` stands the directory they were declared in, and nothing else overrules what is
declared for its key. -/
theorem get?_anchored_base (dir : Path) (declared : Members) :
    (anchored dir declared).get? Options.pathsBaseKey =
      if (declared.get? "paths").isSome then some (.text dir.text)
      else declared.get? Options.pathsBaseKey := by
  have plain : meant dir Options.pathsBaseKey = id := rfl
  have has := congrArg Option.isSome (get?_foldl_anchor dir declared "paths")
  rw [Option.isSome_map] at has
  unfold anchored Members.has
  dsimp only
  rw [has]
  split
  · rw [Members.get?_put, if_pos rfl]
  · rw [get?_foldl_anchor, plain, Option.map_id_apply]

theorem sorted_anchored (dir : Path) {declared : Members} (h : declared.Sorted) :
    (anchored dir declared).Sorted := by
  have single := h.foldl (fun _ k h => sorted_changeAt (anchorText dir) h k) pathKeys
  have lists := single.foldl (fun _ k h => sorted_changeAt (anchorItems dir) h k) pathListKeys
  unfold anchored
  dsimp only
  split
  · exact lists.put _ _
  · exact lists

end Descriptor

end RootedBuild
