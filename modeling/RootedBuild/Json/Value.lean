import RootedBuild.Json.Number

/-!
JSON values. The members of a record are kept by key, in the order of the keys' code points, and a
key has one value: `Members` holds the operations that keep it so. `Value` itself does not enforce
it; a value built from anything else than these operations may break it.
-/
namespace RootedBuild.Json

inductive Value where
  | null
  | bool (b : Bool)
  | number (n : Number)
  | text (s : String)
  | list (items : List Value)
  | record (members : List (String × Value))

abbrev Members := List (String × Value)

namespace Members

def get? (ms : Members) (key : String) : Option Value :=
  match ms with
  | [] => none
  | (k, v) :: rest => if k = key then some v else get? rest key

def has (ms : Members) (key : String) : Bool := (ms.get? key).isSome

/-- Sets the value of a key and keeps the order. -/
def put (ms : Members) (key : String) (value : Value) : Members :=
  match ms with
  | [] => [(key, value)]
  | (k, v) :: rest =>
    if k = key then (key, value) :: rest
    else if key < k then (key, value) :: (k, v) :: rest
    else (k, v) :: put rest key value

def erase (ms : Members) (key : String) : Members := ms.filter fun m => m.1 ≠ key

/-- Lays `upper` on top of `ms`, key by key. -/
def overlay (ms upper : Members) : Members := upper.foldl (fun acc m => put acc m.1 m.2) ms

/-- Of several values for one key the last one stays. -/
def ofPairs (pairs : List (String × Value)) : Members := overlay [] pairs

theorem get?_put (ms : Members) (key k : String) (v : Value) :
    (ms.put key v).get? k = if key = k then some v else ms.get? k := by
  induction ms with
  | nil => simp [put, get?]
  | cons m rest ih =>
    obtain ⟨k', v'⟩ := m
    by_cases hk : k' = key
    · subst hk
      by_cases h : k' = k <;> simp [put, get?, h]
    · by_cases hlt : key < k'
      · simp [put, get?, hk, hlt]
      · by_cases h : k' = k
        · subst h
          simp [put, get?, hk, hlt, Ne.symm hk]
        · simp [put, get?, hk, hlt, h, ih]

theorem get?_erase (ms : Members) (key k : String) :
    (ms.erase key).get? k = if key = k then none else ms.get? k := by
  induction ms with
  | nil => simp [erase, get?]
  | cons m rest ih =>
    obtain ⟨k', v'⟩ := m
    unfold erase at ih ⊢
    by_cases hk : k' = key
    · subst hk
      by_cases h : k' = k
      · simpa [get?, h] using ih
      · simpa [get?, h] using ih
    · by_cases h : k' = k
      · subst h
        simp [get?, hk, Ne.symm hk]
      · simpa [get?, hk, h] using ih

end Members

namespace Value

def bool? : Value → Option Bool
  | .bool b => some b
  | _ => none

def text? : Value → Option String
  | .text s => some s
  | _ => none

def list? : Value → Option (List Value)
  | .list items => some items
  | _ => none

def record? : Value → Option Members
  | .record members => some members
  | _ => none

end Value

def Number.same : Number → Number → Bool
  | .int m, .int n => m == n
  | .real x, .real y => x.sameNumber y
  | _, _ => false

mutual

/-- Equality of values. An integer differs from every binary number, and the two binary zeros are
equal. -/
def Value.same : Value → Value → Bool
  | .null, .null => true
  | .bool a, .bool b => a == b
  | .number a, .number b => a.same b
  | .text a, .text b => a == b
  | .list a, .list b => sameItems a b
  | .record a, .record b => sameMembers a b
  | _, _ => false

def sameItems : List Value → List Value → Bool
  | [], [] => true
  | a :: as, b :: bs => a.same b && sameItems as bs
  | _, _ => false

def sameMembers : List (String × Value) → List (String × Value) → Bool
  | [], [] => true
  | (k, a) :: as, (l, b) :: bs => k == l && a.same b && sameMembers as bs
  | _, _ => false

end

end RootedBuild.Json
