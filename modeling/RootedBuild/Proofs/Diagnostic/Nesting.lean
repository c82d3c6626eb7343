import Mathlib.Data.List.Basic
import Mathlib.Data.List.TakeWhile
import RootedBuild.Diagnostic.Nested

/-!
Nested messages read back from their text. A flattened message has a line for each message in it,
and the indentation of a line says how deep it stands; read from the last line to the first, a line
takes the messages behind it that stand one step deeper as its details. Messages with a line break,
or with a space at their start, cannot be told from others in this way, and nothing is said of them
but that whatever is read back has the text that it was read from.
-/
namespace RootedBuild.NestedMessage

/-! ### Depths -/

mutual

/-- The messages with the depths at which they stand, each one before its details. -/
def nodes (depth : Nat) : NestedMessage → List (Nat × String)
  | .node message details => (depth, message) :: nodesOfAll (depth + 1) details

def nodesOfAll (depth : Nat) : List NestedMessage → List (Nat × String)
  | [] => []
  | m :: ms => m.nodes depth ++ nodesOfAll depth ms

end

/-- The line of a message that stands at some depth: two spaces for each step, then the message. -/
def lineOf (e : Nat × String) : List Char := List.replicate (2 * e.1) ' ' ++ e.2.toList

mutual

theorem lines_eq (depth : Nat) (m : NestedMessage) :
    (m.lines depth).map String.toList = (m.nodes depth).map lineOf := by
  cases m with
  | node message details =>
      rw [lines, nodes, List.map_cons, List.map_cons, linesOfAll_eq (depth + 1) details]
      simp [lineOf, indent]

theorem linesOfAll_eq (depth : Nat) (ms : List NestedMessage) :
    (linesOfAll depth ms).map String.toList = (nodesOfAll depth ms).map lineOf := by
  cases ms with
  | nil => rfl
  | cons m ms =>
      rw [linesOfAll, nodesOfAll, List.map_append, List.map_append, lines_eq depth m,
        linesOfAll_eq depth ms]

end

theorem toList_flatten (m : NestedMessage) :
    m.flatten.toList = ['\n'].intercalate ((m.nodes 0).map lineOf) := by
  rw [flatten, String.toList_intercalate, lines_eq]
  rfl

/-! ### Reading lines -/

/-- A line with its indentation taken off. -/
def readLine (cs : List Char) : Nat × String :=
  let depth := (cs.takeWhile (· == ' ')).length / 2
  (depth, String.ofList (cs.drop (2 * depth)))

/-- A message that can be told from its indentation and from the next line. -/
structure IsPlain (message : String) : Prop where
  unbroken : '\n' ∉ message.toList
  flush : message.toList.head? ≠ some ' '

/-- No message in it has a line break, or a space at its start. -/
def Legible (m : NestedMessage) : Prop := ∀ e ∈ m.nodes 0, IsPlain e.2

/-- Nothing of a line is lost. -/
theorem lineOf_readLine (cs : List Char) : lineOf (readLine cs) = cs := by
  have indented : cs.take (2 * (readLine cs).1) = List.replicate (2 * (readLine cs).1) ' ' := by
    have short : 2 * (readLine cs).1 ≤ (cs.takeWhile (· == ' ')).length := by
      rw [readLine]
      omega
    have front : cs.take (2 * (readLine cs).1) <+: cs.takeWhile (· == ' ') := by
      refine List.prefix_of_prefix_length_le (List.take_prefix _ _) (List.takeWhile_prefix _) ?_
      exact Nat.le_trans (List.length_take_le _ _) short
    refine List.eq_replicate_iff.mpr ⟨?_, fun c member => ?_⟩
    · exact List.length_take_of_le (Nat.le_trans short (List.takeWhile_prefix _).length_le)
    · have space := List.mem_takeWhile_imp (front.subset member)
      exact eq_of_beq space
  rw [lineOf, ← indented]
  simp [readLine]

theorem readLine_lineOf {e : Nat × String} (plain : IsPlain e.2) : readLine (lineOf e) = e := by
  have flush : e.2.toList.takeWhile (· == ' ') = [] := by
    cases spelled : e.2.toList with
    | nil => rfl
    | cons c cs =>
        have other : c ≠ ' ' := fun same => plain.flush (by rw [spelled, same]; rfl)
        simp [other]
  have indented : (lineOf e).takeWhile (· == ' ') = List.replicate (2 * e.1) ' ' := by
    rw [lineOf, List.takeWhile_append_of_pos (by simp), flush, List.append_nil]
  have depth : ((lineOf e).takeWhile (· == ' ')).length / 2 = e.1 := by
    rw [indented, List.length_replicate]
    omega
  rw [readLine, depth, lineOf, List.drop_left' List.length_replicate, String.ofList_toList]

theorem map_readLine_map_lineOf {es : List (Nat × String)} (plain : ∀ e ∈ es, IsPlain e.2) :
    (es.map lineOf).map readLine = es := by
  rw [List.map_map]
  exact (List.map_congr_left fun e member => readLine_lineOf (plain e member)).trans
    (List.map_id es)

theorem nodes_ne_nil (depth : Nat) (m : NestedMessage) : m.nodes depth ≠ [] := by
  cases m with
  | node message details =>
      rw [nodes]
      exact List.cons_ne_nil _ _

/-- The lines of a flattened message are those of the messages in it. -/
theorem splitOn_flatten {m : NestedMessage} (legible : m.Legible) :
    m.flatten.toList.splitOn '\n' = (m.nodes 0).map lineOf := by
  rw [toList_flatten]
  apply List.splitOn_intercalate
  · intro line member
    obtain ⟨e, inside, rfl⟩ := List.mem_map.mp member
    rw [lineOf, List.mem_append, not_or]
    refine ⟨fun indented => ?_, (legible e inside).unbroken⟩
    exact absurd (List.eq_of_mem_replicate indented) (by decide)
  · simpa using nodes_ne_nil 0 m

/-! ### Gathering details -/

/-- Puts a message in front of others and takes those one step deeper that come first among them as
its details. -/
def attach (e : Nat × String) (behind : List (Nat × NestedMessage)) : List (Nat × NestedMessage) :=
  (e.1, .node e.2 ((behind.takeWhile (·.1 == e.1 + 1)).map Prod.snd)) ::
    behind.dropWhile (·.1 == e.1 + 1)

/-- The message that a text shows, if its lines are those of one. -/
def unflatten (text : String) : Option NestedMessage :=
  match ((text.toList.splitOn '\n').map readLine).foldr attach [] with
  | [(0, m)] => some m
  | _ => none

/-- What follows a message is no deeper than the message. -/
def Returns (depth : Nat) (behind : List (Nat × NestedMessage)) : Prop :=
  ∀ e, behind.head? = some e → e.1 ≤ depth

/-- A message takes its own details and nothing that stands behind them. -/
theorem attach_details {depth : Nat} (message : String) (details : List NestedMessage)
    {behind : List (Nat × NestedMessage)} (returns : Returns depth behind) :
    attach (depth, message) (details.map (depth + 1, ·) ++ behind) =
      (depth, .node message details) :: behind := by
  have own : ∀ e ∈ details.map (depth + 1, ·), (e.1 == depth + 1) = true := by
    simp
  have rest : behind.takeWhile (·.1 == depth + 1) = [] ∧
      behind.dropWhile (·.1 == depth + 1) = behind := by
    cases behind with
    | nil => exact ⟨rfl, rfl⟩
    | cons e behind =>
        have shallow : e.1 ≤ depth := returns e rfl
        have other : (e.1 == depth + 1) = false := beq_eq_false_iff_ne.mpr (by omega)
        simp [other]
  rw [attach, List.takeWhile_append_of_pos own, List.dropWhile_append_of_pos own, rest.1, rest.2]
  simp [Function.comp_def]

mutual

/-- By induction on the message, together with lists of messages: what is gathered from its nodes is
the message, in front of whatever was gathered from what follows. -/
theorem foldr_attach_nodes (depth : Nat) (m : NestedMessage)
    {behind : List (Nat × NestedMessage)} (returns : Returns depth behind) :
    (m.nodes depth).foldr attach behind = (depth, m) :: behind := by
  cases m with
  | node message details =>
      have deeper : Returns (depth + 1) behind := fun e first => Nat.le_succ_of_le (returns e first)
      rw [nodes, List.foldr_cons, foldr_attach_nodesOfAll (depth + 1) details deeper]
      exact attach_details message details returns

theorem foldr_attach_nodesOfAll (depth : Nat) (ms : List NestedMessage)
    {behind : List (Nat × NestedMessage)} (returns : Returns depth behind) :
    (nodesOfAll depth ms).foldr attach behind = ms.map (depth, ·) ++ behind := by
  cases ms with
  | nil => rfl
  | cons m ms =>
      have next : Returns depth (ms.map (depth, ·) ++ behind) := by
        cases ms with
        | nil => exact returns
        | cons n ms =>
            rintro e ⟨⟩
            exact Nat.le_refl depth
      rw [nodesOfAll, List.foldr_append, foldr_attach_nodesOfAll depth ms returns,
        foldr_attach_nodes depth m next]
      rfl

end

theorem nodesOfAll_eq_flatMap (depth : Nat) (ms : List NestedMessage) :
    nodesOfAll depth ms = ms.flatMap (nodes depth) := by
  induction ms with
  | nil => rfl
  | cons m ms ih => rw [nodesOfAll, List.flatMap_cons, ih]

/-- The nodes of messages at their depths. -/
def nodesAt (behind : List (Nat × NestedMessage)) : List (Nat × String) :=
  behind.flatMap fun e => e.2.nodes e.1

/-- No node is lost or moved when details are attached. -/
theorem nodesAt_attach (e : Nat × String) (behind : List (Nat × NestedMessage)) :
    nodesAt (attach e behind) = e :: nodesAt behind := by
  have own : nodesOfAll (e.1 + 1) ((behind.takeWhile (·.1 == e.1 + 1)).map Prod.snd) =
      nodesAt (behind.takeWhile (·.1 == e.1 + 1)) := by
    rw [nodesOfAll_eq_flatMap, List.flatMap_map]
    refine List.flatMap_congr fun d member => ?_
    have deeper := List.mem_takeWhile_imp member
    rw [eq_of_beq deeper]
  rw [attach, nodesAt, List.flatMap_cons, nodes, own, List.cons_append]
  change e :: (nodesAt _ ++ nodesAt _) = _
  rw [nodesAt, nodesAt, ← List.flatMap_append, List.takeWhile_append_dropWhile]
  rfl

theorem nodesAt_foldr_attach (es : List (Nat × String)) : nodesAt (es.foldr attach []) = es := by
  induction es with
  | nil => rfl
  | cons e es ih => rw [List.foldr_cons, nodesAt_attach, ih]

/-- What is read back from a text has that text. -/
theorem flatten_of_unflatten {text : String} {m : NestedMessage} (read : unflatten text = some m) :
    m.flatten = text := by
  unfold unflatten at read
  split at read
  · rename_i found
    have nodes := nodesAt_foldr_attach ((text.toList.splitOn '\n').map readLine)
    rw [found, Option.some.inj read] at nodes
    have lines : (m.nodes 0).map lineOf = text.toList.splitOn '\n' := by
      rw [← List.append_nil (m.nodes 0)]
      change (nodesAt [(0, m)]).map lineOf = _
      rw [nodes, List.map_map]
      exact (List.map_congr_left fun cs _ => lineOf_readLine cs).trans (List.map_id _)
    rw [← String.toList_inj, toList_flatten, lines, List.intercalate_splitOn]
  · cases read

theorem unflatten_flatten {m : NestedMessage} (legible : m.Legible) :
    unflatten m.flatten = some m := by
  have nothing : Returns 0 [] := by
    rintro e ⟨⟩
  rw [unflatten, splitOn_flatten legible, map_readLine_map_lineOf legible,
    foldr_attach_nodes 0 m nothing]
  rfl

/-- A flattened message keeps its structure. The lines are its messages in order, each behind two
spaces for every level, and this text and no other is read back as the message. -/
theorem flatten_keeps_structure {m : NestedMessage} (legible : m.Legible) :
    m.flatten.toList.splitOn '\n' =
        (m.nodes 0).map (fun e => List.replicate (2 * e.1) ' ' ++ e.2.toList) ∧
      (∀ text, unflatten text = some m ↔ text = m.flatten) ∧
      ∀ m' : NestedMessage, m'.Legible → m'.flatten = m.flatten → m' = m := by
  refine ⟨splitOn_flatten legible, fun text => ⟨?_, ?_⟩, fun m' legible' same => ?_⟩
  · exact fun read => (flatten_of_unflatten read).symm
  · rintro rfl
    exact unflatten_flatten legible
  · have read := unflatten_flatten legible'
    rw [same, unflatten_flatten legible] at read
    exact (Option.some.inj read).symm

/-- Details two steps down, below one that says nothing, and a return to the first step. -/
def overloads : NestedMessage :=
  .node "No overload." [.node "" [.node "- number" [], .node "" []], .node "No text." []]

theorem flatten_keeps_structure_overloads :
    overloads.Legible ∧
      overloads.flatten = "No overload.\n  \n    - number\n    \n  No text." ∧
      unflatten "No overload.\n  \n    - number\n    \n  No text." = some overloads := by
  have legible : overloads.Legible := by
    have all : (overloads.nodes 0).all (fun e =>
        !e.2.toList.contains '\n' && e.2.toList.head? != some ' ') = true := by decide +kernel
    intro e member
    have plain := List.all_eq_true.mp all e member
    rw [Bool.and_eq_true] at plain
    exact ⟨by simpa using plain.1, by simpa using plain.2⟩
  have text : overloads.flatten = "No overload.\n  \n    - number\n    \n  No text." := by
    decide +kernel
  obtain ⟨-, reads, -⟩ := flatten_keeps_structure legible
  exact ⟨legible, text, (reads _).mpr text.symm⟩

end RootedBuild.NestedMessage
