import RootedBuild.Service.Conversation

/-!
The lines of a stream. A line goes up to and including its break, and what stands behind the last
break is a line too unless it is empty; no byte of the stream is lost, and none is in two lines.
Taking one line after the other off a stream gives its lines in their order.
-/
namespace RootedBuild.Service

/-- The lines of a stream, each with its break if it has one. -/
def linesOf : List UInt8 → List (List UInt8)
  | [] => []
  | b :: rest =>
    if b == 10 then [b] :: linesOf rest
    else
      match linesOf rest with
      | [] => [[b]]
      | line :: lines => (b :: line) :: lines

theorem takeLine_break (rest : List UInt8) : takeLine (10 :: rest) = ([10], rest) := rfl

theorem takeLine_cons {b : UInt8} (other : b ≠ 10) (rest : List UInt8) :
    takeLine (b :: rest) = (b :: (takeLine rest).1, (takeLine rest).2) := by
  rw [takeLine, if_neg (by simpa using other)]

theorem linesOf_break (rest : List UInt8) : linesOf (10 :: rest) = [10] :: linesOf rest := rfl

/-- What is taken off a stream is its first line. -/
theorem linesOf_takeLine {stream : List UInt8} (more : stream ≠ []) :
    linesOf stream = (takeLine stream).1 :: linesOf (takeLine stream).2 := by
  induction stream with
  | nil => exact absurd rfl more
  | cons b rest ih =>
      by_cases break_ : b = 10
      · rw [break_, takeLine_break, linesOf_break]
      · rw [takeLine_cons break_, linesOf, if_neg (by simpa using break_)]
        cases rest with
        | nil => rfl
        | cons c rest => rw [ih (by simp)]

/-- A stream that has a break gives its first line without a look at what comes later. -/
theorem takeLine_append {stream : List UInt8} (ended : 10 ∈ stream) (later : List UInt8) :
    takeLine (stream ++ later) = ((takeLine stream).1, (takeLine stream).2 ++ later) := by
  induction stream with
  | nil => cases ended
  | cons b rest ih =>
      rw [List.cons_append]
      by_cases break_ : b = 10
      · rw [break_, takeLine_break, takeLine_break]
      · rw [takeLine_cons break_, takeLine_cons break_,
          ih ((List.mem_cons.mp ended).resolve_left (Ne.symm break_))]

theorem takeLine_body {body : List UInt8} (unbroken : 10 ∉ body) (rest : List UInt8) :
    takeLine (body ++ 10 :: rest) = (body ++ [10], rest) := by
  induction body with
  | nil => rfl
  | cons b body ih =>
      rw [List.mem_cons, not_or] at unbroken
      rw [List.cons_append, takeLine_cons (Ne.symm unbroken.1), ih unbroken.2]
      rfl

theorem linesOf_body {body : List UInt8} (unbroken : 10 ∉ body) (rest : List UInt8) :
    linesOf (body ++ 10 :: rest) = (body ++ [10]) :: linesOf rest := by
  rw [linesOf_takeLine (by simp), takeLine_body unbroken]

theorem linesOf_unbroken {tail : List UInt8} (unbroken : 10 ∉ tail) (more : tail ≠ []) :
    linesOf tail = [tail] := by
  have taken : takeLine tail = (tail, []) := by
    clear more
    induction tail with
    | nil => rfl
    | cons b tail ih =>
        rw [List.mem_cons, not_or] at unbroken
        rw [takeLine_cons (Ne.symm unbroken.1), ih unbroken.2]
  rw [linesOf_takeLine more, taken]
  rfl

/-- The lines of a stream by what stands between its breaks. -/
theorem linesOf_bodies {bodies : List (List UInt8)} (unbroken : ∀ body ∈ bodies, 10 ∉ body)
    {tail : List UInt8} (last : 10 ∉ tail) :
    linesOf (bodies.flatMap (· ++ [10]) ++ tail) =
      bodies.map (· ++ [10]) ++ if tail = [] then [] else [tail] := by
  induction bodies with
  | nil =>
      split
      · rename_i empty
        rw [empty]
        rfl
      · rename_i more
        exact linesOf_unbroken last more
  | cons body bodies ih =>
      obtain ⟨first, later⟩ := List.forall_mem_cons.mp unbroken
      rw [List.flatMap_cons, List.append_assoc, List.append_assoc, List.singleton_append,
        linesOf_body first, ih later]
      rfl

end RootedBuild.Service
