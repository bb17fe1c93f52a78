import Mathlib.Algebra.Group.Nat.Defs
import Mathlib.Logic.Function.Basic
import Mathlib.Tactic.Common

/-!
# Support — counters with a carry

A counter is a run of wheels in memory, the last of them the fastest.  Advancing it turns the last
wheel by one, and the wheel before each one that came round to zero.

* `number_advance`: the counter is advanced by one, modulo the number of its readings.
* `advance_of_not_mem`: nothing but the wheels is turned.
-/

namespace CLib

/-- A wheel: what it reads, below `base`, and the position behind each. -/
structure Wheel (α : Type) where
  base : Nat
  read : α → Nat
  next : α → α
  read_lt : ∀ a, read a < base
  read_next : ∀ a, read (next a) = (read a + 1) % base

namespace Wheel

variable {α : Type} (w : Wheel α)

/-- What the `n` wheels from `p` on read. -/
def number (mem : Nat → α) (p : Nat) : Nat → Nat
  | 0 => 0
  | n + 1 => number mem p n * w.base + w.read (mem (p + n))

/-- `for(i=n-1; i>=0 && !++p[i]; i--);` -/
def advance (p : Nat) : Nat → (Nat → α) → Nat → α
  | 0, mem => mem
  | n + 1, mem =>
    let mem := Function.update mem (p + n) (w.next (mem (p + n)))
    if w.read (mem (p + n)) = 0 then advance p n mem else mem

variable {w} {p p' n : Nat} {mem mem' : Nat → α}

/-- The number is that of its wheels, wherever they stand. -/
theorem number_congr (h : ∀ i, i < n → mem' (p' + i) = mem (p + i)) :
    w.number mem' p' n = w.number mem p n := by
  induction n with
  | zero => rfl
  | succ n ih =>
      rw [number, number, ih fun i hi => h i (Nat.lt_succ_of_lt hi), h n (Nat.lt_succ_self n)]

theorem number_lt (w : Wheel α) (mem : Nat → α) (p n : Nat) : w.number mem p n < w.base ^ n := by
  induction n with
  | zero => exact Nat.one_pos
  | succ n ih =>
      have hread := w.read_lt (mem (p + n))
      calc w.number mem p n * w.base + w.read (mem (p + n))
          < w.number mem p n * w.base + w.base := Nat.add_lt_add_left hread _
        _ = (w.number mem p n + 1) * w.base := (Nat.succ_mul _ _).symm
        _ ≤ w.base ^ n * w.base := Nat.mul_le_mul_right _ ih
        _ = w.base ^ (n + 1) := (Nat.pow_succ ..).symm

/-- **Nothing but the wheels** is turned. -/
theorem advance_of_not_mem {q : Nat} (h : q < p ∨ p + n ≤ q) : w.advance p n mem q = mem q := by
  induction n generalizing mem with
  | zero => rfl
  | succ n ih =>
      have hne : q ≠ p + n := by omega
      rw [advance]
      split
      · rw [ih (by omega), Function.update_of_ne hne]
      · exact Function.update_of_ne hne _ _

/-- **A counter is advanced by one**, modulo the number of its readings. -/
theorem number_advance :
    w.number (w.advance p n mem) p n = (w.number mem p n + 1) % w.base ^ n := by
  induction n generalizing mem with
  | zero => exact (Nat.mod_one _).symm
  | succ n ih =>
      have hlt := number_lt w mem p n
      have hread := w.read_lt (mem (p + n))
      have hnext := w.read_next (mem (p + n))
      have hbelow : w.number (Function.update mem (p + n) (w.next (mem (p + n)))) p n =
          w.number mem p n := number_congr fun i hi => Function.update_of_ne (by omega) _ _
      rw [advance, number, number, Function.update_self]
      by_cases hwrap : w.read (mem (p + n)) + 1 = w.base
      · -- the wheel comes round, and the one before it is turned
        rw [hwrap, Nat.mod_self] at hnext
        rw [if_pos hnext, ih, hbelow, advance_of_not_mem (.inr (Nat.le_refl _)),
          Function.update_self, hnext, Nat.add_zero, Nat.add_assoc, hwrap, ← Nat.succ_mul,
          Nat.pow_succ, Nat.mul_mod_mul_right]
      · rw [Nat.mod_eq_of_lt (by omega)] at hnext
        have hsum : w.number mem p n * w.base + (w.read (mem (p + n)) + 1) < w.base ^ (n + 1) := by
          have hle : (w.number mem p n + 1) * w.base ≤ w.base ^ n * w.base :=
            Nat.mul_le_mul_right _ hlt
          rw [Nat.succ_mul] at hle
          rw [Nat.pow_succ]
          omega
        rw [if_neg (by omega), hbelow, Function.update_self, hnext, Nat.add_assoc,
          Nat.mod_eq_of_lt hsum]

end Wheel

end CLib
