import RootedBuild.Proofs.Service.Exchanges
import RootedBuild.Proofs.Service.Lines
import RootedBuild.Proofs.Service.Responses

/-!
Which line answers which request. Requests carry no numbers: the first one that is written is
answered by the first line of what the service says, the second one by the second line, and so on.
Every request takes one line, whatever the line holds, so a line that holds no result costs its own
request and no other.
-/
namespace RootedBuild.Service

/-- The response that stands in a line; behind the last line there is none. -/
def responseAt (lines : List (List UInt8)) (i : Nat) : Except String Response :=
  match lines[i]? with
  | some line => Response.ofLine line
  | none => .error closedOutput

theorem receive_eq (stream : List UInt8) :
    receive stream = (responseAt (linesOf stream) 0, (takeLine stream).2) := by
  cases stream with
  | nil => rfl
  | cons b rest =>
      rw [linesOf_takeLine (List.cons_ne_nil b rest)]
      rfl

theorem linesOf_rest (stream : List UInt8) :
    linesOf (takeLine stream).2 = (linesOf stream).tail := by
  cases stream with
  | nil => rfl
  | cons b rest =>
      rw [linesOf_takeLine (List.cons_ne_nil b rest)]
      rfl

namespace Conversation

/-- What the service says upon a request. -/
def reply (h : Host β) (c : Conversation β) (file : Path) (source : String) : List UInt8 :=
  if c.listening && c.speaking then (h.respond c.host file source).2.bytes else []

/-- What the service says upon many requests. -/
def said (h : Host β) (c : Conversation β) : List (Path × String) → List UInt8
  | [] => []
  | (file, source) :: calls =>
    c.reply h file source ++ (c.exchange h file source).1.said h calls

/-- All that can be read during the requests, line by line. -/
def lines (h : Host β) (c : Conversation β) (calls : List (Path × String)) : List (List UInt8) :=
  linesOf (c.unread ++ c.said h calls)

/-- Upon every request the service ends a line or its output. Whoever asks waits for one of the two,
so otherwise there is no answer at all. -/
def Answers (h : Host β) (c : Conversation β) : List (Path × String) → Prop
  | [] => True
  | (file, source) :: calls =>
    (∀ c' ∈ c.send h file source, c'.speaking = true → 10 ∈ c'.unread) ∧
      (c.exchange h file source).1.Answers h calls

instance decidableAnswers (h : Host β) (c : Conversation β) :
    (calls : List (Path × String)) → Decidable (c.Answers h calls)
  | [] => inferInstanceAs (Decidable True)
  | (file, source) :: calls =>
    have : Decidable ((c.exchange h file source).1.Answers h calls) := decidableAnswers h _ calls
    inferInstanceAs (Decidable (_ ∧ _))

variable {h : Host β} {c : Conversation β}

/-! ### One request -/

/-- A request that is written takes one line, behind which all else is left. -/
theorem exchange_of_listening (hears : c.listening = true) (file : Path) (source : String) :
    ∃ c', c.send h file source = some c' ∧ c'.unread = c.unread ++ c.reply h file source ∧
      c'.root = c.root ∧ (c.speaking = false → c'.speaking = false) ∧
      c.exchange h file source =
        ({ c' with unread := (takeLine c'.unread).2 },
          Response.outcome c.root file (responseAt (linesOf c'.unread) 0)) := by
  unfold exchange send reply
  rw [hears]
  cases speaks : c.speaking with
  | true =>
      refine ⟨_, rfl, rfl, rfl, by simp, ?_⟩
      simp [receive_eq, answer]
  | false =>
      refine ⟨_, rfl, ?_, rfl, fun _ => rfl, ?_⟩
      · simp
      · simp [receive_eq]

theorem said_of_silent (silent : c.speaking = false) (calls : List (Path × String)) :
    c.said h calls = [] := by
  induction calls generalizing c with
  | nil => rfl
  | cons call calls ih =>
      obtain ⟨file, source⟩ := call
      have nothing : c.reply h file source = [] := by simp [reply, silent]
      rw [said, nothing, List.nil_append]
      cases hears : c.listening with
      | false =>
          rw [exchange_of_deaf hears]
          exact ih silent
      | true =>
          obtain ⟨c', _, _, _, quiet, exchanged⟩ :=
            exchange_of_listening (h := h) hears file source
          rw [exchanged]
          exact ih (quiet silent)

theorem said_of_deaf (deaf : c.listening = false) (calls : List (Path × String)) :
    c.said h calls = [] := by
  induction calls with
  | nil => rfl
  | cons call calls ih =>
      obtain ⟨file, source⟩ := call
      rw [said, exchange_of_deaf deaf, ih, reply, deaf]
      rfl

/-- What comes later does not change the first line, if that has ended or nothing comes later. -/
theorem responseAt_append {stream later : List UInt8} (whole : 10 ∈ stream ∨ later = []) :
    responseAt (linesOf (stream ++ later)) 0 = responseAt (linesOf stream) 0 ∧
      linesOf ((takeLine stream).2 ++ later) = (linesOf (stream ++ later)).tail := by
  rcases whole with ended | rfl
  · have more : stream ≠ [] := List.ne_nil_of_mem ended
    rw [linesOf_takeLine (List.append_ne_nil_of_left_ne_nil more later), linesOf_takeLine more,
      takeLine_append ended]
    exact ⟨rfl, rfl⟩
  · rw [List.append_nil, List.append_nil]
    exact ⟨rfl, linesOf_rest stream⟩

/-- One request is answered by the first line, and the other lines are left for the others. -/
theorem lines_exchange {file : Path} {source : String} {calls : List (Path × String)}
    (hears : c.listening = true) (waits : c.Answers h ((file, source) :: calls)) :
    (c.exchange h file source).2 =
        Response.outcome c.root file (responseAt (c.lines h ((file, source) :: calls)) 0) ∧
      (c.exchange h file source).1.root = c.root ∧
      (c.exchange h file source).1.lines h calls = (c.lines h ((file, source) :: calls)).tail := by
  obtain ⟨c', sent, unread, root, _, exchanged⟩ :=
    exchange_of_listening (h := h) hears file source
  have stream : c.unread ++ c.said h ((file, source) :: calls) =
      c'.unread ++ (c.exchange h file source).1.said h calls := by
    rw [said, ← List.append_assoc, unread]
  have whole : 10 ∈ c'.unread ∨ (c.exchange h file source).1.said h calls = [] := by
    cases speaks : c'.speaking with
    | true => exact .inl (waits.1 c' sent speaks)
    | false =>
        refine .inr ?_
        rw [exchanged]
        exact said_of_silent (c := { c' with unread := (takeLine c'.unread).2 }) speaks calls
  obtain ⟨first, others⟩ := responseAt_append whole
  refine ⟨?_, ?_, ?_⟩
  · rw [lines, stream, first, exchanged]
  · rw [exchanged]
    exact root
  · rw [lines, lines, stream, ← others, exchanged]

/-! ### Many requests -/

/-- By induction on the requests: each leaves the lines behind its own to the others. -/
theorem converse_answered {calls : List (Path × String)} (waits : c.Answers h calls) {i : Nat}
    {file : Path} {source : String} (call : calls[i]? = some (file, source))
    (early : i < c.taken h calls) :
    (c.converse h calls).2[i]? =
      some (Response.outcome c.root file (responseAt (c.lines h calls) i)) := by
  induction calls generalizing c i with
  | nil => cases call
  | cons first calls ih =>
      obtain ⟨file', source'⟩ := first
      cases hears : c.listening with
      | false =>
          rw [taken_of_deaf hears] at early
          cases early
      | true =>
          obtain ⟨answer, root, left⟩ := lines_exchange hears waits
          rw [taken_cons hears] at early
          cases i with
          | zero =>
              cases call
              rw [converse, List.getElem?_cons_zero, answer]
          | succ i =>
              have later := ih waits.2 call (Nat.lt_of_succ_lt_succ early)
              rw [converse, List.getElem?_cons_succ, later, root, left, responseAt, responseAt,
                List.getElem?_tail]

theorem converse_left {calls : List (Path × String)} (waits : c.Answers h calls) :
    linesOf (c.converse h calls).1.unread = (c.lines h calls).drop (c.taken h calls) := by
  induction calls generalizing c with
  | nil => simp [converse, lines, said, taken]
  | cons call calls ih =>
      obtain ⟨file, source⟩ := call
      cases hears : c.listening with
      | false =>
          rw [converse_of_deaf hears, taken_of_deaf hears, lines, said_of_deaf hears,
            List.append_nil, List.drop_zero]
      | true =>
          obtain ⟨_, _, left⟩ := lines_exchange hears waits
          rw [converse, ih waits.2, left, taken_cons hears, List.drop_tail]

/-- Whoever has stopped speaking keeps no one waiting. -/
theorem answers_of_silent (silent : c.speaking = false) (calls : List (Path × String)) :
    c.Answers h calls := by
  induction calls generalizing c with
  | nil => trivial
  | cons call calls ih =>
      obtain ⟨file, source⟩ := call
      cases hears : c.listening with
      | false =>
          refine ⟨fun c' sent => ?_, ?_⟩
          · rw [send, hears] at sent
            cases sent
          · rw [exchange_of_deaf hears]
            exact ih silent
      | true =>
          obtain ⟨c', sent, _, _, quiet, exchanged⟩ :=
            exchange_of_listening (h := h) hears file source
          refine ⟨fun c'' sent' speaks => ?_, ?_⟩
          · cases sent.symm.trans sent'
            rw [quiet silent] at speaks
            cases speaks
          · rw [exchanged]
            exact ih (c := { c' with unread := (takeLine c'.unread).2 }) (quiet silent)

/-- Requests and lines stay in step. Every request that is written is answered by the line of its
own number or by the end of the output, and a line fails its call exactly if it is spoiled. -/
theorem converse_aligned (h : Host β) (c : Conversation β) (calls : List (Path × String))
    (waits : c.speaking = true → c.Answers h calls) :
    (∀ i file source, calls[i]? = some (file, source) → i < c.taken h calls →
      (c.converse h calls).2[i]? = some (Response.outcome c.root file
        (match (c.lines h calls)[i]? with
        | some line => Response.ofLine line
        | none => .error closedOutput))) ∧
    (∀ i file source, calls[i]? = some (file, source) → c.taken h calls ≤ i →
      (c.converse h calls).2[i]? = some (.failed ⟨file, brokenPipe⟩)) ∧
    (c.converse h calls).1.received =
      c.received ++ (calls.take (c.taken h calls)).map (fun call => .analyze call.1 call.2) ∧
    linesOf (c.converse h calls).1.unread = (c.lines h calls).drop (c.taken h calls) ∧
    (∀ (bodies : List (List UInt8)) (tail : List UInt8), (∀ body ∈ bodies, 10 ∉ body) →
      10 ∉ tail → c.unread ++ c.said h calls = bodies.flatMap (· ++ [10]) ++ tail →
      c.lines h calls = bodies.map (· ++ [10]) ++ if tail = [] then [] else [tail]) ∧
    ∀ file line, Response.Spoiled line ↔
      ∃ reason, Response.outcome c.root file (Response.ofLine line) = .failed ⟨file, reason⟩ := by
  have answers : c.Answers h calls := by
    cases speaks : c.speaking with
    | true => exact waits speaks
    | false => exact answers_of_silent speaks calls
  refine ⟨fun i file source call early => converse_answered answers call early,
    fun i file source call late => converse_unheard call late, converse_received calls,
    converse_left answers, fun bodies tail unbroken last stream => ?_,
    fun file line => Response.spoiled_iff c.root file⟩
  rw [lines, stream]
  exact linesOf_bodies unbroken last

/-- A service that says a blank line, then an error and a result without its break, and stops. -/
def haltingHost : Host Nat where
  start := 0
  respond turn _ _ :=
    match turn with
    | 0 => (1, { bytes := [10] })
    | 1 =>
      let lines := "\x7b\"error\":\"no\"\x7d\n\x7b\"outputText\":\"x\"\x7d"
      (2, { bytes := lines.toList.map fun c => UInt8.ofNat c.toNat })
    | turn => (turn, { closes := true })

theorem converse_aligned_halting :
    let c : Conversation Nat := ⟨⟨"/w"⟩, [], [], true, true, 0⟩
    let calls : List (Path × String) :=
      [(⟨"/w/a"⟩, ""), (⟨"/w/b"⟩, ""), (⟨"/w/c"⟩, ""), (⟨"/w/d"⟩, "")]
    c.Answers haltingHost calls ∧ c.taken haltingHost calls = 4 ∧
      (c.lines haltingHost calls).length = 3 ∧
      (c.converse haltingHost calls).2 =
        [.failed ⟨⟨"/w/a"⟩, "EOF while parsing a value at line 2 column 0"⟩,
          .failed ⟨⟨"/w/b"⟩, "no"⟩, .ok ⟨"x", []⟩, .failed ⟨⟨"/w/d"⟩, closedOutput⟩] ∧
      linesOf (c.converse haltingHost calls).1.unread = (c.lines haltingHost calls).drop 4 := by
  intro c calls
  have waits : c.Answers haltingHost calls := by decide +kernel
  have all : c.taken haltingHost calls = 4 := by decide +kernel
  obtain ⟨_, _, _, left, _⟩ := converse_aligned haltingHost c calls fun _ => waits
  rw [all] at left
  exact ⟨waits, all, by decide +kernel, by decide +kernel, left⟩

end Conversation

end RootedBuild.Service
