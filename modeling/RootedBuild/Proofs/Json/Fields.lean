import RootedBuild.Json.Fields

/-!
Which field a member of an object ends in. Every member whose name is a field's stands in the first
field of that name, and keeps standing there while the others are put in.
-/
namespace RootedBuild.Json

variable {key : String} {w v : Written} {names : List String} {slots filled : List (Option Written)}
  {i : Nat}

theorem fillSlot_cons (key : String) (w : Written) (name : String) (names : List String)
    (slot : Option Written) (slots : List (Option Written)) :
    fillSlot key w (name :: names) (slot :: slots) =
      if name = key then
        match slot with
        | none => some (some w :: slots)
        | some _ => none
      else (fillSlot key w names slots).map (slot :: ·) := rfl

theorem length_of_fillSlot (put : fillSlot key w names slots = some filled) :
    filled.length = slots.length := by
  induction names generalizing slots filled with
  | nil =>
      rw [fillSlot.eq_def] at put
      cases put
      rfl
  | cons name names ih =>
      cases slots with
      | nil =>
          cases put
          rfl
      | cons slot slots =>
          rw [fillSlot_cons] at put
          split at put
          · cases slot with
            | none => cases put; rfl
            | some old => cases put
          · obtain ⟨later, rest, rfl⟩ := Option.map_eq_some_iff.mp put
            rw [List.length_cons, ih rest, List.length_cons]

/-- A field that has a value keeps it. -/
theorem fillSlot_keeps (put : fillSlot key w names slots = some filled)
    (holds : slots[i]? = some (some v)) : filled[i]? = some (some v) := by
  induction names generalizing slots filled i with
  | nil =>
      rw [fillSlot.eq_def] at put
      cases put
      exact holds
  | cons name names ih =>
      cases slots with
      | nil => cases holds
      | cons slot slots =>
          rw [fillSlot_cons] at put
          split at put
          · cases slot with
            | none =>
                cases put
                cases i with
                | zero => cases holds
                | succ i => exact holds
            | some old => cases put
          · obtain ⟨later, rest, rfl⟩ := Option.map_eq_some_iff.mp put
            cases i with
            | zero => exact holds
            | succ i =>
                rw [List.getElem?_cons_succ] at holds ⊢
                exact ih rest holds

/-- A value goes to the first field of its name. -/
theorem fillSlot_puts (put : fillSlot key w names slots = some filled)
    (named : names[i]? = some key) (first : key ∉ names.take i) (room : i < slots.length) :
    filled[i]? = some (some w) := by
  induction names generalizing slots filled i with
  | nil => cases named
  | cons name names ih =>
      cases slots with
      | nil => cases room
      | cons slot slots =>
          rw [fillSlot_cons] at put
          cases i with
          | zero =>
              rw [List.getElem?_cons_zero, Option.some.injEq] at named
              rw [if_pos named] at put
              cases slot with
              | none => cases put; rfl
              | some old => cases put
          | succ i =>
              rw [List.take_succ_cons, List.mem_cons, not_or] at first
              rw [if_neg (Ne.symm first.1)] at put
              obtain ⟨later, rest, rfl⟩ := Option.map_eq_some_iff.mp put
              rw [List.getElem?_cons_succ] at named ⊢
              exact ih rest named first.2 (Nat.lt_of_succ_lt_succ room)

/-- Every member of an object that is read stands in its field. -/
theorem fillSlots_holds {members : List WrittenMember}
    (put : fillSlots names slots members = some filled) (named : names[i]? = some key)
    (first : key ∉ names.take i) (room : i < slots.length) :
    (slots[i]? = some (some v) → filled[i]? = some (some v)) ∧
      ((.ok key, w) ∈ members → filled[i]? = some (some w)) := by
  induction members generalizing slots v with
  | nil =>
      cases put
      exact ⟨id, by simp⟩
  | cons m members ih =>
      obtain ⟨other, w'⟩ := m
      cases other with
      | error f => cases put
      | ok other =>
          rw [fillSlots] at put
          cases one : fillSlot other w' names slots with
          | none => rw [one] at put; cases put
          | some next =>
              rw [one] at put
              have room' : i < next.length := (length_of_fillSlot one).symm ▸ room
              refine ⟨fun holds => (ih put room').1 (fillSlot_keeps one holds), fun member => ?_⟩
              rcases List.mem_cons.mp member with here | later
              · cases here
                exact (ih put room').1 (fillSlot_puts one named first room)
              · exact (ih (v := v) put room').2 later

end RootedBuild.Json
