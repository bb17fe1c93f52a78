import Mathlib.Data.Nat.ModEq

/-!
# Support — check digits

A number carries a check digit: its digits, each with a weight, sum to a multiple of the base.  The
sum is completed by one more digit, and it tells one wrong digit where the weights are prime to the
base.

* `dvd_add_checkDigit`: the check digit completes a sum.
* `not_dvd_weigh_set`: a sum does not survive the change of a digit.
-/

namespace CLib

/-- The weighted sum of digits. -/
def weigh : List Nat → List Nat → Nat
  | w :: ws, d :: ds => w * d + weigh ws ds
  | _, _ => 0

/-- The digit that completes a sum `a` in base `m`. -/
def checkDigit (m a : Nat) : Nat := (m - a % m) % m

theorem checkDigit_lt {m : Nat} (hm : 0 < m) (a : Nat) : checkDigit m a < m := Nat.mod_lt _ hm

/-- **The check digit completes a sum.** -/
theorem dvd_add_checkDigit {m : Nat} (hm : 0 < m) (a : Nat) : m ∣ a + checkDigit m a := by
  have hle : a % m ≤ m := (Nat.mod_lt a hm).le
  have hsum : a + checkDigit m a ≡ a % m + (m - a % m) [MOD m] :=
    (Nat.mod_modEq a m).symm.add (Nat.mod_modEq _ m)
  rw [Nat.add_sub_cancel' hle] at hsum
  exact (Nat.modEq_zero_iff_dvd.mp (hsum.trans (Nat.modEq_zero_iff_dvd.mpr dvd_rfl)))

variable {ws ds : List Nat} {i w d e : Nat}

/-- One digit more, with its weight. -/
theorem weigh_concat (h : ws.length = ds.length) (w d : Nat) :
    weigh (ws ++ [w]) (ds ++ [d]) = weigh ws ds + w * d := by
  induction ds generalizing ws with
  | nil =>
      obtain rfl := List.length_eq_zero_iff.mp h
      simp [weigh]
  | cons e ds ih =>
      cases ws with
      | nil => cases h
      | cons v ws =>
          simp only [List.cons_append, weigh]
          rw [ih (Nat.succ.inj h), Nat.add_assoc]

theorem weigh_set (hw : ws[i]? = some w) (he : ds[i]? = some e) :
    weigh ws (ds.set i d) + w * e = weigh ws ds + w * d := by
  induction ds generalizing ws i with
  | nil => cases he
  | cons a ds ih =>
      cases ws with
      | nil => cases hw
      | cons v ws =>
          cases i with
          | zero =>
              obtain rfl : v = w := Option.some.inj hw
              obtain rfl : a = e := Option.some.inj he
              rw [List.set_cons_zero, weigh, weigh]
              omega
          | succ i =>
              have hrest := ih (i := i) hw he
              rw [List.set_cons_succ, weigh, weigh]
              omega

/-- **A sum does not survive the change of a digit** whose weight is prime to the base. -/
theorem not_dvd_weigh_set {m : Nat} (hw : ws[i]? = some w) (he : ds[i]? = some e)
    (hprime : Nat.Coprime m w) (hem : e < m) (hdm : d < m) (hne : e ≠ d) (h : m ∣ weigh ws ds) :
    ¬m ∣ weigh ws (ds.set i d) := by
  intro h'
  have hset := weigh_set (d := d) hw he
  have hsame : w * e ≡ w * d [MOD m] := calc
    w * e ≡ weigh ws (ds.set i d) + w * e [MOD m] := by
      simpa using ((Nat.modEq_zero_iff_dvd.mpr h').symm.add_right (w * e))
    _ = weigh ws ds + w * d := hset
    _ ≡ w * d [MOD m] := by
      simpa using ((Nat.modEq_zero_iff_dvd.mpr h).add_right (w * d))
  exact hne ((Nat.ModEq.cancel_left_of_coprime hprime hsame).eq_of_lt_of_lt hem hdm)

end CLib
