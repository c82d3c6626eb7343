import RootedBuild.Service.Conversation

/-!
Many requests to one service, one after the other. They are written as long as the service is there,
each behind the one before it; once it has exited no request is written any more, and every one of
them fails on the pipe.
-/
namespace RootedBuild.Service.Conversation

/-- Requests for files with their texts. -/
def converse (h : Host β) (c : Conversation β) :
    List (Path × String) → Conversation β × List (Outcome AnalysisFault Analysis)
  | [] => (c, [])
  | (file, source) :: calls =>
    let first := c.exchange h file source
    let rest := first.1.converse h calls
    (rest.1, first.2 :: rest.2)

/-- How many of the requests are written. -/
def taken (h : Host β) (c : Conversation β) : List (Path × String) → Nat
  | [] => 0
  | (file, source) :: calls =>
    if c.listening then (c.exchange h file source).1.taken h calls + 1 else 0

variable {h : Host β} {c : Conversation β}

theorem taken_cons (hears : c.listening = true) (file : Path) (source : String)
    (calls : List (Path × String)) :
    c.taken h ((file, source) :: calls) = (c.exchange h file source).1.taken h calls + 1 := by
  rw [taken, if_pos hears]

/-! ### A service that has exited -/

theorem exchange_of_deaf (deaf : c.listening = false) (file : Path) (source : String) :
    c.exchange h file source = (c, .failed ⟨file, brokenPipe⟩) := by
  unfold exchange send
  rw [deaf]
  rfl

theorem converse_of_deaf (deaf : c.listening = false) (calls : List (Path × String)) :
    c.converse h calls = (c, calls.map fun call => .failed ⟨call.1, brokenPipe⟩) := by
  induction calls with
  | nil => rfl
  | cons call calls ih =>
      obtain ⟨file, source⟩ := call
      rw [converse, exchange_of_deaf deaf]
      dsimp only
      rw [ih]
      rfl

theorem taken_of_deaf (deaf : c.listening = false) (calls : List (Path × String)) :
    c.taken h calls = 0 := by
  cases calls with
  | nil => rfl
  | cons call calls =>
      rw [taken, deaf]
      rfl

/-! ### What is written -/

theorem received_exchange_of_listening (hears : c.listening = true) (file : Path)
    (source : String) :
    (c.exchange h file source).1.received = c.received ++ [.analyze file source] := by
  unfold exchange send
  rw [hears]
  cases c.speaking <;> rfl

/-- The requests are received in their order, each as it was asked. -/
theorem converse_received (calls : List (Path × String)) :
    (c.converse h calls).1.received = c.received ++
      (calls.take (c.taken h calls)).map fun call => .analyze call.1 call.2 := by
  induction calls generalizing c with
  | nil => exact (List.append_nil _).symm
  | cons call calls ih =>
      obtain ⟨file, source⟩ := call
      cases hears : c.listening with
      | false =>
          rw [converse_of_deaf hears, taken_of_deaf hears, List.take_zero]
          exact (List.append_nil _).symm
      | true =>
          rw [converse, ih, received_exchange_of_listening hears, taken_cons hears,
            List.take_succ_cons, List.map_cons, List.append_assoc]
          rfl

theorem converse_unheard {calls : List (Path × String)} {i : Nat} {file : Path} {source : String}
    (call : calls[i]? = some (file, source)) (late : c.taken h calls ≤ i) :
    (c.converse h calls).2[i]? = some (.failed ⟨file, brokenPipe⟩) := by
  induction calls generalizing c i with
  | nil => cases call
  | cons first calls ih =>
      cases hears : c.listening with
      | false =>
          rw [converse_of_deaf hears, List.getElem?_map, call]
          rfl
      | true =>
          obtain ⟨file', source'⟩ := first
          rw [taken_cons hears] at late
          cases i with
          | zero => cases late
          | succ i => exact ih call (Nat.le_of_succ_le_succ late)

/-- All requests are written unless the service has exited. -/
theorem taken_eq_length {calls : List (Path × String)}
    (stays : (c.converse h calls).1.listening = true) : c.taken h calls = calls.length := by
  induction calls generalizing c with
  | nil => rfl
  | cons call calls ih =>
      obtain ⟨file, source⟩ := call
      cases hears : c.listening with
      | false =>
          rw [converse_of_deaf hears] at stays
          exact absurd (hears.symm.trans stays) Bool.false_ne_true
      | true => rw [taken_cons hears, ih stays, List.length_cons]

end RootedBuild.Service.Conversation
