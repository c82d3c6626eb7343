import RootedBuild.CommandLine.Run
import RootedBuild.Proofs.Json.Spread
import RootedBuild.Proofs.Service.Introduction
import RootedBuild.Service.Scripted

/-!
The two commands beside each other. Both find the root of a file and read its options, one from the
arguments as they are written, the other from absolute paths and with all that a batch remembers. On
one tree this makes no difference: what `config` prints of a file is what the service of the file is
told in a build, and a descriptor that `config` cannot read ends every build with the file.
-/
namespace RootedBuild.CommandLine
open Json Service

/-! ### What is shown -/

/-- What `config` goes by. -/
def ConfigCommand.settings (c : ConfigCommand) : Settings := { configName := c.configName }

def ConfigCommand.locator (t : FileTree) (c : ConfigCommand) : Locator :=
  .new t ⟨c.context⟩ c.settings

/-- The root of the file, as `config` finds it. -/
def ConfigCommand.root (t : FileTree) (c : ConfigCommand) : Root :=
  ((c.locator t).rootOf t ⟨c.file⟩).answer

theorem tell_none (events : List Event) : tell none events = "" := by
  have silent : events.filter (isTold none) = [] :=
    List.filter_eq_nil_iff.mpr fun _ _ => Bool.false_ne_true
  rw [tell, silent]
  rfl

theorem textLines_append (xs ys : List String) :
    textLines xs ++ textLines ys = String.join ((xs ++ ys).map (· ++ "\n")) := by
  rw [List.map_append, String.join_append]
  rfl

/-- What `config` shows besides events, by what the options of the root come to. -/
theorem showConfig_eq (t : FileTree) (c : ConfigCommand) :
    ∃ events, ∀ level, showConfig t level c =
      match (Locator.optionsOf t c.settings (c.root t)).answer with
      | .error f => ⟨1, tell level events, failureText (.descriptor f)⟩
      | .ok options =>
        ⟨0, tell level events ++ (describe (c.root t) options).printLines 0 ++ "\n", ""⟩ :=
  ⟨_, fun _ => rfl⟩

/-- What `build` shows besides events, by what its batch comes to. -/
theorem showBuild_eq (E : Engine σ α) (memory : σ) (t : FileTree) (b : BuildCommand) :
    let built := (Build.start t ⟨b.context⟩ b.options memory).answer.compileAll E t
      (b.files.map Path.mk)
    ∃ events later, ∀ level, showBuild E memory t level b =
      match built.answer with
      | .failed f => ⟨1, tell level events, failureText f⟩
      | .crashed => ⟨101, tell level events, ""⟩
      | .ok r =>
        let shown := showReport b built.state.context r
        { shown with out := tell level events ++ shown.out ++ tell level later } :=
  ⟨_, _, fun _ => rfl⟩

/-! ### One file in both commands -/

/-- `config` and `build` agree. Either `config` prints an object of options, descriptor and root,
and every service that is asked for the file was told these three first; or both complain of a
descriptor that cannot be parsed. -/
theorem showConfig_agrees (program : Program) (host : Host β) (t : FileTree)
    (rooted : t.here.isAbsolute = true) (c : ConfigCommand) (b : BuildCommand)
    (context : b.context = c.context) (name : b.configName = c.configName)
    (lookUp : b.noLookUp = false) (listed : ∃ f ∈ b.files, t.absolute ⟨f⟩ = t.absolute ⟨c.file⟩)
    (readable : ∃ source, t.readText (t.absolute ⟨c.file⟩) = .ok source) :
    let E := engine program host
    let built := (Build.start t ⟨b.context⟩ b.options []).answer.compileAll E t
      (b.files.map Path.mk)
    let complaint (f : DescriptorFault) : String :=
      "Error: " ++ ("Could not parse compiler configuration at " ++ f.path.text ++ ": " ++
        f.reason.message) ++ "\n"
    (∃ directory descriptor options,
      let object : Value := .record
        [("compilerOptions", .record options.members),
          ("descriptor", (descriptor.map fun p => .text p.text).getD .null),
          ("root", .text directory.text)]
      (∃ events, ∀ level, showConfig t level c =
        ⟨0, tell level events ++ object.printLines 0 ++ "\n", ""⟩) ∧
      (object.Integral → object.Ordered → valueOf? (showConfig t none c).out = some object) ∧
      ∀ service ∈ built.state.ownership.bench.memory, ∀ source,
        .analyze (t.absolute ⟨c.file⟩) source ∈ service.received →
          service.received.head? = some (.init ⟨directory, descriptor⟩ options)) ∨
    ∃ f g,
      (∃ events, ∀ level, showConfig t level c = ⟨1, tell level events, complaint f⟩) ∧
      built.answer = .failed (.descriptor g) ∧
      ∃ events, ∀ level, showBuild E [] t level b = ⟨1, tell level events, complaint g⟩ := by
  intro E built complaint
  have settings : b.options.settings = c.settings := by
    simp [BuildCommand.options, BuildOptions.settings, ConfigCommand.settings, name, lookUp]
  have fresh : Introduced t (c.locator t)
      (Build.start t ⟨b.context⟩ b.options [] :
        Told (Build (List (Conversation β)) Nat)).answer.ownership := by
    rw [ConfigCommand.locator, ← settings, ← context]
    exact introduced_start rooted ⟨b.context⟩ b.options
  have truthful : (c.locator t).Truthful t := Locator.truthful_of_found rfl
  obtain ⟨events, shown⟩ := showConfig_eq t c
  cases read : (Locator.optionsOf t c.settings (c.root t)).answer with
  | ok options =>
      simp only [read] at shown
      refine .inl ⟨(c.root t).directory, (c.root t).descriptor?, options, ⟨events, shown⟩, ?_, ?_⟩
      · intro integral ordered
        rw [shown none, tell_none, String.empty_append]
        exact valueOf?_printLines integral ordered
      · intro service member source request
        obtain ⟨given, told, first⟩ := ((keeps_introduced rooted truthful).compileAll fresh
          (b.files.map Path.mk)).files service member _ source request
        rw [Locator.rootOf_absolute rooted] at told first
        cases told.symm.trans read
        exact first
  | error f =>
      rw [read] at shown
      obtain ⟨file, inside, same⟩ := listed
      obtain ⟨source, text⟩ := readable
      have root : ((c.locator t).rootOf t ⟨file⟩).answer = c.root t := by
        rw [← Locator.rootOf_absolute rooted, same, Locator.rootOf_absolute rooted]
        rfl
      obtain ⟨g, failed⟩ := fresh.compileAll_of_error program host rooted truthful
        (List.mem_map_of_mem inside) (same ▸ text) (root ▸ read)
      obtain ⟨told, _, stopped⟩ := showBuild_eq E [] t b
      rw [failed] at stopped
      exact .inr ⟨f, g, ⟨events, shown⟩, failed, told, stopped⟩

/-- A source below a descriptor, and one that no descriptor governs. -/
def governedAndNot : FileTree where
  entries := [(["a.ts"], .file "1".toUTF8.toList), (["p"], .directory),
    (["p", "b.ts"], .file "2".toUTF8.toList), (["p", "tsconfig.json"], .file
      "\x7b\"compilerOptions\": \x7b\"jsx\": null, \"lib\": [\"dom\"]\x7d\x7d".toUTF8.toList)]
  here := ⟨"/p"⟩

/-- What `config` prints of the governed file. -/
def governedLines : List String :=
  ["\x7b",
    "  \"compilerOptions\": \x7b",
    "    \"composite\": false,",
    "    \"declaration\": false,",
    "    \"declarationMap\": false,",
    "    \"emitDeclarationOnly\": false,",
    "    \"incremental\": false,",
    "    \"jsx\": null,",
    "    \"lib\": [",
    "      \"dom\"",
    "    ],",
    "    \"noEmit\": false",
    "  \x7d,",
    "  \"descriptor\": \"/p/tsconfig.json\",",
    "  \"root\": \"/p\"",
    "\x7d"]

/-- What the service of the governed file is told first. -/
def governedLine : String :=
  "\x7b\"kind\":\"init\",\"rootDir\":\"/p\",\"configPath\":\"/p/tsconfig.json\"," ++
    "\"compilerOptions\":\x7b\"composite\":false,\"declaration\":false," ++
    "\"declarationMap\":false,\"emitDeclarationOnly\":false,\"incremental\":false," ++
    "\"jsx\":null,\"lib\":[\"dom\"],\"noEmit\":false\x7d\x7d\n"

/-- The governed file is asked for, under another spelling than `config` was given. -/
theorem showConfig_agrees_governed :
    let program : Program := ⟨"service", true⟩
    let host := scriptedHost ⟨"/p"⟩ [("*", [.ofLine "\x7b\"outputText\": \"3\"\x7d"])]
    let c : ConfigCommand := ⟨"../p/b.ts", ".", "tsconfig.json"⟩
    let b : BuildCommand :=
      ⟨["/a.ts", "b.ts"], ".", false, "tsconfig.json", false, none, "service", [], false⟩
    let built := (Build.start governedAndNot ⟨b.context⟩ b.options []).answer.compileAll
      (engine program host) governedAndNot (b.files.map Path.mk)
    showConfig governedAndNot none c = ⟨0, String.join (governedLines.map (· ++ "\n")), ""⟩ ∧
      ∃ directory descriptor options,
        let object : Value := .record
          [("compilerOptions", .record options.members),
            ("descriptor", (descriptor.map fun p => .text p.text).getD .null),
            ("root", .text directory.text)]
        (∃ events, ∀ level, showConfig governedAndNot level c =
          ⟨0, tell level events ++ object.printLines 0 ++ "\n", ""⟩) ∧
        ∃ service ∈ built.state.ownership.bench.memory,
          .analyze ⟨"/p/b.ts"⟩ "2" ∈ service.received ∧
            service.received.head? = some (.init ⟨directory, descriptor⟩ options) ∧
              (Request.init ⟨directory, descriptor⟩ options).line = governedLine := by
  intro program host c b built
  have rooted : governedAndNot.here.isAbsolute = true := by decide
  have listed : ∃ f ∈ b.files, governedAndNot.absolute ⟨f⟩ = governedAndNot.absolute ⟨c.file⟩ :=
    ⟨"b.ts", by simp [b], by decide +kernel⟩
  have readable : ∃ source,
      governedAndNot.readText (governedAndNot.absolute ⟨c.file⟩) = .ok source :=
    ⟨"2", by decide +kernel⟩
  have printed : showConfig governedAndNot none c =
      ⟨0, String.join (governedLines.map (· ++ "\n")), ""⟩ := by decide +kernel
  have asked : (built.state.ownership.bench.memory.map fun service =>
      (service.received.filterMap Request.analysis?, service.received.head?.map Request.line))[1]? =
        some ([(⟨"/p/b.ts"⟩, "2")], some governedLine) := by decide +kernel
  rcases showConfig_agrees program host governedAndNot rooted c b rfl rfl rfl listed readable with
    ⟨directory, descriptor, options, shown, _, told⟩ | ⟨f, g, ⟨events, shown⟩, _⟩
  · obtain ⟨service, member, holds⟩ := List.mem_map.mp (List.mem_of_getElem? asked)
    obtain ⟨requests, line⟩ := Prod.mk.inj holds
    have request : .analyze ⟨"/p/b.ts"⟩ "2" ∈ service.received := by
      have second : (⟨"/p/b.ts"⟩, "2") ∈ service.received.filterMap Request.analysis? := by
        rw [requests]
        exact List.mem_singleton.mpr rfl
      obtain ⟨r, received, is⟩ := List.mem_filterMap.mp second
      rwa [Request.analysis?_eq_some_iff.mp is] at received
    have same : governedAndNot.absolute ⟨c.file⟩ = ⟨"/p/b.ts"⟩ := by decide +kernel
    have first := told service member "2" (same ▸ request)
    rw [first] at line
    exact ⟨printed, directory, descriptor, options, shown, service, member, request, first,
      Option.some.inj line⟩
  · rw [shown none] at printed
    cases printed

end RootedBuild.CommandLine
