import Mathlib.Data.List.GetD
import Mathlib.Tactic.Common

/-!
# Checked memory

Arrays whose accesses fail outside their bounds, cells that may be uninitialised, and counted loops
over them. A computation in `Option` that returns has made no access out of range.

`forUp_spec` is the loop rule; `fill_spec` is the loop that writes one cell a round.
-/

universe u v

namespace CheckedMemory

/-- Memory for `n` values; a cell is `none` until it is written. -/
abbrev Cells (α : Type u) (n : Nat) := Vector (Option α) n

namespace Cells

variable {α : Type u} {n : Nat}

/-- Cells nobody has written. -/
def uninit (α : Type u) (n : Nat) : Cells α n := Vector.replicate n none

/-- Writes a cell, and fails outside the array. -/
def write (cells : Cells α n) (i : Nat) (x : α) : Option (Cells α n) :=
  if h : i < n then some (cells.set i (some x)) else none

/-- The contents, when every cell has been written. -/
def contents (cells : Cells α n) : Option (Vector α n) :=
  if h : ∀ i : Fin n, (cells.get i).isSome then some (Vector.ofFn fun i => (cells.get i).get (h i))
  else none

/-- The first `i` cells have been written, with the values of `f`. -/
def Filled (f : Nat → α) (i : Nat) (cells : Cells α n) : Prop :=
  ∀ j, j < n → j < i → cells[j]? = some (some (f j))

theorem filled_zero (f : Nat → α) (cells : Cells α n) : Filled f 0 cells :=
  fun _ _ h => absurd h (Nat.not_lt_zero _)

/-- Writing the next cell. -/
theorem Filled.write {f : Nat → α} {i : Nat} {cells : Cells α n} (h : Filled f i cells)
    (hi : i < n) : ∃ cells', cells.write i (f i) = some cells' ∧ Filled f (i + 1) cells' := by
  refine ⟨cells.set i (some (f i)), dif_pos hi, ?_⟩
  intro j hj hlt
  rw [Vector.getElem?_set]
  by_cases heq : i = j
  · subst heq
    rw [if_pos rfl]
  · rw [if_neg heq]
    exact h j hj (by omega)

/-- Cells that have all been written. -/
theorem Filled.eq_ofFn {f : Nat → α} {cells : Cells α n} (h : Filled f n cells) :
    cells = Vector.ofFn fun i : Fin n => some (f i) := by
  ext1 i hi
  have hget := h i hi hi
  rw [Vector.getElem?_eq_getElem hi] at hget
  rw [Option.some.inj hget, Vector.getElem_ofFn]

/-- Memory that has been written can be read back. -/
theorem contents_map_some (xs : Vector α n) : contents (xs.map some) = some xs := by
  have hget (i : Fin n) : (xs.map some).get i = some (xs.get i) := by
    show (xs.map some)[i.val] = some xs[i.val]
    rw [Vector.getElem_map]
  have hdef : ∀ i : Fin n, ((xs.map some).get i).isSome := fun i => by rw [hget]; rfl
  rw [contents, dif_pos hdef]
  congr 1
  ext1 i hi
  rw [Vector.getElem_ofFn]
  simp only [hget, Option.get_some]
  rfl

end Cells

variable {σ : Type v}

/-- `for (i = lo; i < lo + count; ++i) body(i)`. -/
def forUp (body : Nat → σ → Option σ) : (count lo : Nat) → σ → Option σ
  | 0, _, s => some s
  | count + 1, lo, s => (body lo s).bind (forUp body count (lo + 1))

/-- The loop rule: a body that returns and moves the invariant from `i` to `i + 1`. -/
theorem forUp_spec (body : Nat → σ → Option σ) {I : Nat → σ → Prop} (count : Nat) :
    ∀ (lo : Nat) (s : σ),
      (∀ i s, lo ≤ i → i < lo + count → I i s → ∃ s', body i s = some s' ∧ I (i + 1) s') →
      I lo s → ∃ s', forUp body count lo s = some s' ∧ I (lo + count) s' := by
  induction count with
  | zero => exact fun lo s _ h => ⟨s, rfl, h⟩
  | succ count ih =>
    intro lo s hbody h
    obtain ⟨s₁, hs₁, h₁⟩ := hbody lo s (Nat.le_refl lo) (by omega) h
    obtain ⟨s₂, hs₂, h₂⟩ := ih (lo + 1) s₁
      (fun i s hlo hhi => hbody i s (by omega) (by omega)) h₁
    refine ⟨s₂, ?_, ?_⟩
    · rw [forUp, hs₁]
      exact hs₂
    · rw [show lo + (count + 1) = lo + 1 + count by omega]
      exact h₂

/-- A loop whose round `i` writes `f i` to cell `i`. -/
theorem fill_spec {α : Type u} {n : Nat} (f : Nat → α)
    (body : Nat → Cells α n → Option (Cells α n)) (lo count : Nat) {cells : Cells α n}
    (hn : lo + count ≤ n)
    (hbody : ∀ i cells, lo ≤ i → i < lo + count → body i cells = cells.write i (f i))
    (h : Cells.Filled f lo cells) :
    ∃ cells', forUp body count lo cells = some cells' ∧ Cells.Filled f (lo + count) cells' :=
  forUp_spec body count lo cells
    (fun i cells hlo hhi hi => by
      rw [hbody i cells hlo hhi]
      exact hi.write (by omega)) h

end CheckedMemory
