import Mathlib.Tactic.Common

/-!
# Checked signed arithmetic

A signed operation has the value of its exact result when the type can hold it, and overflows otherwise.
`bind_signed_eq_some_iff` turns a chain of such operations into the list of the exact results that have to
be representable, and `exists_toInt_eq` shows that a value between two representable ones is.
-/

universe u

namespace CheckedSigned

variable {w : Nat} {x : Int}

/-- The `w`-bit value of a signed operation whose exact result is `x`; `none` when it overflows. -/
def signed (w : Nat) (x : Int) : Option (BitVec w) :=
  if (BitVec.ofInt w x).toInt = x then some (BitVec.ofInt w x) else none

theorem signed_eq_some_iff {v : BitVec w} : signed w x = some v ↔ v.toInt = x := by
  unfold signed
  constructor
  · intro h
    split_ifs at h with hx
    rw [← Option.some.inj h, hx]
  · rintro rfl
    rw [BitVec.ofInt_toInt, if_pos rfl]

@[simp] theorem signed_toInt (v : BitVec w) : signed w v.toInt = some v := signed_eq_some_iff.mpr rfl

/-- A chain of operations returns when the first result is representable and the rest returns. -/
theorem bind_signed_eq_some_iff {β : Type u} {f : BitVec w → Option β} {y : β} :
    (signed w x).bind f = some y ↔ ∃ v : BitVec w, v.toInt = x ∧ f v = some y := by
  simp only [Option.bind_eq_some_iff, signed_eq_some_iff]

theorem signed_eq_none_iff : signed w x = none ↔ ∀ v : BitVec w, v.toInt ≠ x := by
  simp only [Option.eq_none_iff_forall_ne_some, ne_eq, signed_eq_some_iff]

/-- What lies between two values of the type is a value of the type. -/
theorem exists_toInt_eq {a b : BitVec w} (ha : a.toInt ≤ x) (hb : x ≤ b.toInt) :
    ∃ v : BitVec w, v.toInt = x := by
  have hlow := a.le_two_mul_toInt
  have hhigh := b.two_mul_toInt_lt
  refine ⟨BitVec.ofInt w x, ?_⟩
  rw [BitVec.toInt_ofInt]
  apply Int.bmod_eq_of_le_mul_two
  · push_cast
    omega
  · push_cast
    omega

end CheckedSigned
