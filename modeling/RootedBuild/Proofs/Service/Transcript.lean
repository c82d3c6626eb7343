import RootedBuild.Proofs.Json.Printed
import RootedBuild.Proofs.Service.Exchanges
import RootedBuild.Proofs.Text.Utf8

/-!
What a service can make of the bytes it is sent. Whatever stands in file names and texts, a request
is one line, and the line tells the request again: the root with its options, or the file with its
text. So the bytes of a whole conversation split into the requests that were written, in order.
-/
namespace RootedBuild.Service
open Json

/-- The value of a line of JSON, with containers as deep in one another as a text can have them. -/
def valueOfLine? (line : List UInt8) : Option Value :=
  match Text.decodeUtf8 line with
  | .error _ => none
  | .ok text =>
    match readWhole (.strict text.length) text with
    | .error _ => none
    | .ok w => w.value?

namespace Request

/-- The request that an object tells of: its fields are these and no others, by their keys. -/
def ofValue? : Value → Option Request
  | .record [("compilerOptions", .record options), ("configPath", .null), ("kind", .text "init"),
      ("rootDir", .text directory)] => some (.init ⟨⟨directory⟩, none⟩ ⟨options⟩)
  | .record [("compilerOptions", .record options), ("configPath", .text descriptor),
      ("kind", .text "init"), ("rootDir", .text directory)] =>
    some (.init ⟨⟨directory⟩, some ⟨descriptor⟩⟩ ⟨options⟩)
  | .record [("fileName", .text file), ("kind", .text "analyze"), ("text", .text source)] =>
    some (.analyze ⟨file⟩ source)
  | _ => none

def ofLine? (line : List UInt8) : Option Request := (valueOfLine? line).bind ofValue?

/-- The bytes of a request, its line break included. -/
def bytes (r : Request) : List UInt8 := Text.encodeUtf8 r.line

/-- Options whose numbers are integers, with the members of every object in their order. -/
def Exact : Request → Prop
  | .init _ options =>
    (Value.record options.members).Integral ∧ (Value.record options.members).Ordered
  | .analyze _ _ => True

theorem integral_value {r : Request} (h : r.Exact) : r.value.Integral := by
  cases r with
  | init root options =>
      obtain ⟨directory, descriptor⟩ := root
      cases descriptor <;> exact ⟨trivial, trivial, trivial, h.1, trivial⟩
  | analyze file source => exact ⟨trivial, trivial, trivial, trivial⟩

/-- What is written of a request gives the request back. -/
theorem ofValue?_written {r : Request} (h : r.Exact) :
    r.value.written.value?.bind ofValue? = some r := by
  cases r with
  | init root options =>
      obtain ⟨directory, descriptor⟩ := root
      have bag : (Value.record options.members).written.value? =
          some (.record options.members) := Value.value?_written _ h.2
      have config : ((descriptor.map fun p => Value.text p.text).getD .null).written.value? =
          some ((descriptor.map fun p => Value.text p.text).getD .null) := by
        cases descriptor <;> rfl
      have last : pairsOf [] = some [] := rfl
      have fields := pairsOf_cons "kind" (w := .text (.ok "init")) rfl
        (pairsOf_cons "rootDir" (w := .text (.ok directory.text)) rfl
          (pairsOf_cons "configPath" config (pairsOf_cons "compilerOptions" bag last)))
      have inOrder (kind root config options : Value) : Members.ofPairs
          [("kind", kind), ("rootDir", root), ("configPath", config),
            ("compilerOptions", options)] =
          [("compilerOptions", options), ("configPath", config), ("kind", kind),
            ("rootDir", root)] := by
        simp only [Members.ofPairs, Members.overlay, Members.put, List.foldl_cons, List.foldl_nil,
          String.reduceEq, String.reduceLT, if_true, if_false]
      have whole : (value (.init ⟨directory, descriptor⟩ options)).written.value? =
          some (.record (Members.ofPairs _)) :=
        congrArg (Option.map fun ps => Value.record (Members.ofPairs ps)) fields
      rw [whole, inOrder]
      cases descriptor <;> rfl
  | analyze file source =>
      have inOrder : Members.ofPairs
          [("kind", .text "analyze"), ("fileName", .text file.text), ("text", .text source)] =
          [("fileName", .text file.text), ("kind", .text "analyze"), ("text", .text source)] := by
        simp only [Members.ofPairs, Members.overlay, Members.put, List.foldl_cons, List.foldl_nil,
          String.reduceEq, String.reduceLT, if_true, if_false]
      change (some (Value.record (Members.ofPairs _))).bind ofValue? = _
      rw [inOrder]
      rfl

theorem bytes_eq (r : Request) : r.bytes = Text.encodeUtf8 r.value.print ++ [10] := by
  have break_ : Text.encodeUtf8 "\n" = [10] := by
    rw [Text.encodeUtf8_eq]
    rfl
  rw [bytes, line, Text.encodeUtf8_append, break_]

theorem break_notMem_print {r : Request} (h : r.Exact) : 10 ∉ Text.encodeUtf8 r.value.print :=
  Text.break_notMem_encodeUtf8 (Value.break_notMem_print (integral_value h))

/-- A request that is printed is read again. -/
theorem ofLine?_print {r : Request} (h : r.Exact) :
    ofLine? (Text.encodeUtf8 r.value.print) = some r := by
  have room := Value.depth_le_length_print (integral_value h)
  obtain ⟨w, read, same⟩ := readWhole_print (integral_value h) room
  have value : w.value? = r.value.written.value? := by
    rw [← same, Written.value?_unplaced]
  rw [ofLine?, valueOfLine?, Text.decodeUtf8_encodeUtf8]
  dsimp only
  rw [read]
  exact (congrArg (Option.bind · ofValue?) value).trans (ofValue?_written h)

end Request

namespace Conversation

/-- All bytes that the service was sent. -/
def written (c : Conversation β) : List UInt8 := c.received.flatMap Request.bytes

theorem splitOn_flatMap {bodies : List (List UInt8)} (unbroken : ∀ body ∈ bodies, 10 ∉ body) :
    (bodies.flatMap (· ++ [10])).splitOn 10 = bodies ++ [[]] := by
  induction bodies with
  | nil => exact List.splitOn_nil 10
  | cons body bodies ih =>
      obtain ⟨first, later⟩ := List.forall_mem_cons.mp unbroken
      rw [List.flatMap_cons, List.append_assoc, List.singleton_append,
        List.splitOn_append_cons_self_of_not_mem first, ih later, List.cons_append]

/-- Split at its breaks, what was sent falls apart into the requests. -/
theorem splitOn_written {c : Conversation β} (h : ∀ r ∈ c.received, r.Exact) :
    c.written.splitOn 10 = c.received.map (fun r => Text.encodeUtf8 r.value.print) ++ [[]] := by
  have bodies : c.written =
      (c.received.map fun r => Text.encodeUtf8 r.value.print).flatMap (· ++ [10]) := by
    rw [List.flatMap_map]
    exact congrArg (List.flatMap · c.received) (funext Request.bytes_eq)
  rw [bodies]
  apply splitOn_flatMap
  intro body member
  obtain ⟨r, received, rfl⟩ := List.mem_map.mp member
  exact Request.break_notMem_print (h r received)

/-- What a service is sent splits at its breaks into one record for each request, its root and
options first, and each record tells the request exactly as it was asked. -/
theorem converse_written (program : Program) (h : Host β) (t : FileTree) (facts : RootFacts)
    (options : Options) (integral : (Value.record options.members).Integral)
    (ordered : (Value.record options.members).Ordered) {cs cs' : List (Conversation β)} {i : Nat}
    (started : (engine program h).create t facts options cs = (cs', .ok i))
    (calls : List (Path × String)) :
    ∃ c, cs'[i]? = some c ∧
      (∃ records, (c.converse h calls).1.written.splitOn 10 = records ++ [[]] ∧
        records.map Request.ofLine? =
          (.init facts options :: (calls.take (c.taken h calls)).map
            fun call => .analyze call.1 call.2).map some) ∧
      (∀ k file source, calls[k]? = some (file, source) → c.taken h calls ≤ k →
        (c.converse h calls).2[k]? = some (.failed ⟨file, brokenPipe⟩)) ∧
      ((c.converse h calls).1.listening = true → c.taken h calls = calls.length) := by
  obtain ⟨c, has, told⟩ : ∃ c, cs'[i]? = some c ∧ c.received = [.init facts options] := by
    simp only [engine] at started
    cases fault : program.launchFault? t facts.directory with
    | some reason =>
        rw [fault] at started
        cases started
    | none =>
        rw [fault] at started
        cases started
        exact ⟨_, List.getElem?_concat_length, rfl⟩
  have received := c.converse_received (h := h) calls
  rw [told, List.singleton_append] at received
  refine ⟨c, has, ?_, fun k file source call late => converse_unheard call late, taken_eq_length⟩
  have exact : ∀ r ∈ (c.converse h calls).1.received, r.Exact := by
    intro r member
    rw [received, List.mem_cons, List.mem_map] at member
    rcases member with rfl | ⟨call, _, rfl⟩
    · exact ⟨integral, ordered⟩
    · trivial
  refine ⟨_, splitOn_written exact, ?_⟩
  rw [← received, List.map_map]
  exact List.map_congr_left fun r inside => Request.ofLine?_print (exact r inside)

/-- A service that takes every request and says nothing. -/
def silentHost : Host Unit := ⟨(), fun _ _ _ => ((), {})⟩

theorem converse_written_awkward :
    let program : Program := ⟨"service", true⟩
    let t : FileTree := ⟨[], ⟨"/"⟩⟩
    let facts : RootFacts := ⟨⟨"/"⟩, none⟩
    let options : Options := ⟨[("a", .list [.number (.int (-1)), .null]), ("b", .text "\n")]⟩
    let calls : List (Path × String) :=
      [(⟨"/\"\n\\"⟩, "\x7b\"kind\":\"init\"\x7d\n\u2028\x00"), (⟨"/😀"⟩, "")]
    (Value.record options.members).Integral ∧ (Value.record options.members).Ordered ∧
      ∃ c, (engine program silentHost).create t facts options [] = ([c], .ok 0) ∧
        ∃ records, (c.converse silentHost calls).1.written.splitOn 10 = records ++ [[]] ∧
          records.map Request.ofLine? =
            [some (.init facts options),
              some (.analyze ⟨"/\"\n\\"⟩ "\x7b\"kind\":\"init\"\x7d\n\u2028\x00"),
              some (.analyze ⟨"/😀"⟩ "")] := by
  intro program t facts options calls
  have integral : (Value.record options.members).Integral :=
    ⟨⟨⟨by decide, by decide⟩, trivial, trivial⟩, trivial, trivial⟩
  have ordered : (Value.record options.members).Ordered := by
    refine ⟨?_, ⟨trivial, trivial, trivial⟩, trivial, trivial⟩
    unfold Members.Sorted
    decide
  have launched : program.launchFault? t facts.directory = none := by decide
  have started : (engine program silentHost).create t facts options [] =
      ([⟨facts.directory, [.init facts options], [], true, true, ()⟩], .ok 0) := by
    simp only [engine, launched]
    rfl
  obtain ⟨c, has, told, _, _⟩ :=
    converse_written program silentHost t facts options integral ordered started calls
  cases has
  exact ⟨integral, ordered, _, started, told⟩

end Conversation

end RootedBuild.Service
