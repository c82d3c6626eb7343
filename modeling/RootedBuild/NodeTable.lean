import RootedBuild.Engine

/-!
One node for each configuration root. Every root that was ever asked for has a slot; nodes stand in
an arena in the order of their making, and a node's id is its place there. A making that fails
leaves the slot empty, so that the next request tries again. Nothing is ever taken out.
-/
namespace RootedBuild

/-- The place of a root's node. A crash while it was being made leaves a mark for good. -/
structure RootSlot (α : Type) where
  node : Option (Node α) := none
  marked : Bool := false

structure NodeTable (α : Type) where
  slots : List (Root × RootSlot α) := []
  arena : List (Node α) := []

/-- What a node is made from. -/
structure NodeContents (α : Type) where
  options : Options
  analyzer : α

namespace NodeTable

def empty : NodeTable α := {}

def slot? (R : NodeTable α) (root : Root) : Option (RootSlot α) :=
  (R.slots.find? fun s => s.1.same root).map Prod.snd

/-- Puts a slot in the place of the root's slot, or at the end if it has none. -/
def setSlot (root : Root) (slot : RootSlot α) :
    List (Root × RootSlot α) → List (Root × RootSlot α)
  | [] => [(root, slot)]
  | (r, old) :: rest =>
    if r.same root then (r, slot) :: rest else (r, old) :: setSlot root slot rest

def withSlot (R : NodeTable α) (root : Root) (slot : RootSlot α) : NodeTable α :=
  { R with slots := setSlot root slot R.slots }

/-- A slot that has been set is found under every spelling of its root, and no other slot changes.
-/
theorem slot?_withSlot (R : NodeTable α) (root r : Root) (slot : RootSlot α) :
    (R.withSlot root slot).slot? r = if root.same r then some slot else R.slot? r := by
  have found (slots : List (Root × RootSlot α)) :
      ((setSlot root slot slots).find? fun s => s.1.same r).map Prod.snd =
        if root.same r then some slot else (slots.find? fun s => s.1.same r).map Prod.snd := by
    induction slots with
    | nil => cases h : root.same r <;> simp [setSlot, h]
    | cons s rest ih =>
      obtain ⟨q, old⟩ := s
      cases hq : q.same root
      · cases hr : q.same r
        · simpa [setSlot, hq, hr] using ih
        · have apart : root.same r = false := by
            rw [Root.same_comm, ← Root.same_congr hr root, hq]
          simp [setSlot, hq, hr, apart]
      · cases hr : root.same r <;> simp [setSlot, hq, Root.same_congr hq r, hr]
  exact found R.slots

def recovery (slot : RootSlot α) : List Event :=
  if slot.marked then [.recovered .nodeSlot] else []

/-- The node of a root, if it has been made. -/
def get (R : NodeTable α) (root : Root) : Told (Option (Node α)) :=
  match R.slot? root with
  | none => ⟨[], none⟩
  | some slot => ⟨recovery slot, slot.node⟩

def node? (R : NodeTable α) (id : Nat) : Option (Node α) := R.arena[id]?

def size (R : NodeTable α) : Nat := R.arena.length

def isEmpty (R : NodeTable α) : Bool := R.size == 0

/-- Gives a root the node made from `parts`. -/
def push (R : NodeTable α) (root : Root) (slot : RootSlot α) (parts : NodeContents α) :
    NodeTable α × Node α :=
  let node : Node α := ⟨R.arena.length, root, parts.options, parts.analyzer⟩
  ({ R.withSlot root { slot with node := some node } with arena := R.arena ++ [node] }, node)

/-- The node of a root, made by `make` if there is none yet. -/
def fetch (R : NodeTable α) (root : Root)
    (make : τ → Turn τ (Outcome ε (NodeContents α))) (s : τ) :
    Turn (NodeTable α × τ) (Outcome ε (Node α)) :=
  let slot := (R.slot? root).getD {}
  match slot.node with
  | some node => ⟨(R, s), recovery slot, .ok node⟩
  | none =>
    let made := make s
    let events := recovery slot ++ made.events
    match made.answer with
    | .ok parts =>
      let (R, node) := R.push root slot parts
      ⟨(R, made.state), events ++ [.nodeCreated node.id root], .ok node⟩
    | .failed e => ⟨(R.withSlot root slot, made.state), events, .failed e⟩
    | .crashed => ⟨(R.withSlot root { slot with marked := true }, made.state), events, .crashed⟩

end NodeTable

end RootedBuild
