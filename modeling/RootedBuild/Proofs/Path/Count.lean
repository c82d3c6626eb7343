import Mathlib.Algebra.Group.Nat.Defs
import Mathlib.Data.List.Perm.Subperm
import RootedBuild.Path.Basic

/-!
There are only so many short paths. A text is coded by a number whose digits are its bytes, behind a
leading one, so texts of at most `n` bytes have codes below twice the `n`-th power of 256.
-/
namespace RootedBuild.Path

def code : List UInt8 → Nat
  | [] => 1
  | b :: bs => code bs * 256 + b.toNat

theorem code_pos (bs : List UInt8) : 0 < code bs := by
  induction bs with
  | nil => exact Nat.one_pos
  | cons b bs ih => rw [code]; omega

theorem code_lt (bs : List UInt8) : code bs < 2 * 256 ^ bs.length := by
  induction bs with
  | nil => decide
  | cons b bs ih =>
      have digit := b.toNat_lt
      rw [code, List.length_cons, Nat.pow_succ]
      omega

theorem code_injective {bs cs : List UInt8} (h : code bs = code cs) : bs = cs := by
  induction bs generalizing cs with
  | nil =>
      cases cs with
      | nil => rfl
      | cons c cs =>
          have positive := code_pos cs
          rw [code, code] at h
          omega
  | cons b bs ih =>
      have digit := b.toNat_lt
      cases cs with
      | nil =>
          have positive := code_pos bs
          rw [code, code] at h
          omega
      | cons c cs =>
          have digit' := c.toNat_lt
          rw [code, code] at h
          have first : b = c := UInt8.toNat_inj.mp (by omega)
          have rest : bs = cs := ih (by omega)
          rw [first, rest]

def textCode (p : Path) : Nat := code p.text.toByteArray.data.toList

theorem textCode_injective {p q : Path} (h : p.textCode = q.textCode) : p = q := by
  have bytes := code_injective h
  obtain ⟨text⟩ := p
  obtain ⟨text'⟩ := q
  have same : text = text' := by
    apply String.toByteArray_inj.mp
    apply ByteArray.ext
    exact Array.toList_inj.mp bytes
  rw [same]

theorem textCode_lt {p : Path} {n : Nat} (short : p.text.utf8ByteSize ≤ n) :
    p.textCode < 2 * 256 ^ n := by
  have bound := code_lt p.text.toByteArray.data.toList
  have size : p.text.toByteArray.data.toList.length = p.text.utf8ByteSize := rfl
  rw [size] at bound
  exact Nat.lt_of_lt_of_le bound (Nat.mul_le_mul_left 2 (Nat.pow_le_pow_right (by decide) short))

/-- Paths that are not the same, and are short, are not many. -/
theorem length_le_of_short {paths : List Path} {n : Nat}
    (distinct : paths.Pairwise fun p q => p.same q = false)
    (short : ∀ p ∈ paths, p.text.utf8ByteSize ≤ n) : paths.length ≤ 2 * 256 ^ n := by
  have nodup : (paths.map textCode).Nodup := by
    rw [List.Nodup, List.pairwise_map]
    refine distinct.imp ?_
    intro p q apart codes
    rw [textCode_injective codes, same_self] at apart
    cases apart
  have within : paths.map textCode ⊆ List.range (2 * 256 ^ n) := by
    intro k member
    obtain ⟨p, inside, rfl⟩ := List.mem_map.mp member
    exact List.mem_range.mpr (textCode_lt (short p inside))
  have count := (List.subperm_of_subset nodup within).length_le
  rwa [List.length_map, List.length_range] at count

end RootedBuild.Path
