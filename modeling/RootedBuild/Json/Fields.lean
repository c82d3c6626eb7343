import RootedBuild.Json.Written

/-!
Reading a record type with known fields. Such a value is written as an object, where unknown keys
are passed over and a known key may stand only once, or as a list of its fields in their order. In a
list a field may be missing at the end only if it has a default; in an object a field that may be
absent may also be left out.
-/
namespace RootedBuild.Json

/-- The fields found, in the order of their names. -/
structure Fields where
  positional : Bool
  slots : List (Option Written)

/-- Puts a member where its name stands; a second value for one name is refused. -/
def fillSlot (key : String) (w : Written) :
    List String → List (Option Written) → Option (List (Option Written))
  | name :: names, slot :: slots =>
    if name = key then
      match slot with
      | none => some (some w :: slots)
      | some _ => none
    else (fillSlot key w names slots).map (slot :: ·)
  | _, slots => some slots

def fillSlots (names : List String) (slots : List (Option Written)) :
    List WrittenMember → Option (List (Option Written))
  | [] => some slots
  | (.ok key, w) :: rest =>
    match fillSlot key w names slots with
    | some slots => fillSlots names slots rest
    | none => none
  | (.error _, _) :: _ => none

def placeSlots : List String → List Written → Option (List (Option Written))
  | [], [] => some []
  | [], _ :: _ => none
  | _ :: names, [] => some (none :: names.map fun _ => none)
  | _ :: names, w :: ws => (placeSlots names ws).map (some w :: ·)

def Fields.ofWritten? (names : List String) : Written → Option Fields
  | .record members => (fillSlots names (names.map fun _ => none) members).map (⟨false, ·⟩)
  | .list items => (placeSlots names items).map (⟨true, ·⟩)
  | _ => none

namespace Fields

def slot (f : Fields) (i : Nat) : Option Written := (f.slots[i]?).join

def required (f : Fields) (i : Nat) (read : Written → Option α) : Option α :=
  match f.slot i with
  | some w => read w
  | none => none

/-- A field with a default may be left out of a list as well as of an object. -/
def withDefault (f : Fields) (i : Nat) (default : α) (read : Written → Option α) : Option α :=
  match f.slot i with
  | some w => read w
  | none => some default

/-- A field that may be null. -/
def nullable (read : Written → Option α) : Written → Option (Option α)
  | .null => some none
  | w => (read w).map some

/-- A field that may be absent may be left out of an object, and written as null anywhere. -/
def optional (f : Fields) (i : Nat) (read : Written → Option α) : Option (Option α) :=
  match f.slot i with
  | some w => nullable read w
  | none => if f.positional then none else some none

end Fields

mutual

/-- How deep containers are nested in a value. -/
def Written.depth : Written → Nat
  | .list items => depthOfItems items + 1
  | .record members => depthOfMembers members + 1
  | _ => 0

def depthOfItems : List Written → Nat
  | [] => 0
  | w :: ws => max w.depth (depthOfItems ws)

def depthOfMembers : List (Except Fault String × Written) → Nat
  | [] => 0
  | (_, w) :: rest => max w.depth (depthOfMembers rest)

end

namespace Written

def bool? : Written → Option Bool
  | .bool b => some b
  | _ => none

def text? : Written → Option String
  | .text (.ok s) => some s
  | _ => none

/-- A natural number of 32 bits; no binary number counts as one. -/
def nat32? : Written → Option Nat
  | .number (.ok (.int n)) => if 0 ≤ n && n < 0x100000000 then some n.toNat else none
  | _ => none

/-- A record of plain values inside another container; the limit on nesting holds for both. -/
def record? (w : Written) : Option Members :=
  if deepest ≤ w.depth then none else w.value?.bind Value.record?

def list? : Written → Option (List Written)
  | .list items => some items
  | _ => none

def texts? (w : Written) : Option (List String) := w.list?.bind fun items => items.mapM text?

end Written

end RootedBuild.Json
