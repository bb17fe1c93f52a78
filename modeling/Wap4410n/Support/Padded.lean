import Mathlib.Data.List.Lex
import Wap4410n.Support.Print

/-!
# Support — numbers padded with zeros

`printf("%0wd")` pads a number with zeros to `w` characters.  Two numbers of at most `w` digits then
compare as strings as they do as numbers, and so do tuples of such numbers printed one behind the
other, in lexicographic order.

* `printPadded_eq`: a number of at most `w` digits is printed as its last `w` digits.
* `strncmp_padded`, `strncmp_tuple`: strings compare as numbers, and as tuples of numbers.
-/

namespace CLib

/-! ### `strncmp` -/

/-- `strncmp(s, t, n)`, with the end of a text for its NUL. -/
def strncmp : Nat → List Byte → List Byte → Ordering
  | 0, _, _ => .eq
  | _ + 1, [], [] => .eq
  | _ + 1, [], _ :: _ => .lt
  | _ + 1, _ :: _, [] => .gt
  | n + 1, b :: s, c :: t => if b = c then strncmp n s t else if b < c then .lt else .gt

theorem strncmp_append {n m : Nat} {u v : List Byte} (hu : u.length = n) (hv : v.length = n)
    (s t : List Byte) :
    strncmp (n + m) (u ++ s) (v ++ t) = (strncmp n u v).then (strncmp m s t) := by
  induction n generalizing u v with
  | zero =>
      rw [List.length_eq_zero_iff.mp hu, List.length_eq_zero_iff.mp hv, Nat.zero_add]
      rfl
  | succ n ih =>
      obtain ⟨b, u, rfl⟩ := List.exists_cons_of_length_eq_add_one hu
      obtain ⟨c, v, rfl⟩ := List.exists_cons_of_length_eq_add_one hv
      rw [Nat.add_right_comm, List.cons_append, List.cons_append, strncmp, strncmp]
      split
      · exact ih (Nat.succ_injective hu) (Nat.succ_injective hv)
      · split <;> rfl

/-! ### Padding -/

/-- `%0wd`, of a `long` -/
def printPadded (w : Nat) (x : Int32) : List Byte :=
  let ds := digits 10 10 x.toInt.natAbs
  if x.toInt < 0 then 0x2d :: (List.replicate (w - 1 - ds.length) 0x30 ++ ds)
  else List.replicate (w - ds.length) 0x30 ++ ds

/-- The last `w` digits of a number. -/
def lastDigits : Nat → Nat → List Byte
  | 0, _ => []
  | w + 1, n => lastDigits w (n / 10) ++ [digit (n % 10)]

@[simp] theorem length_lastDigits (w n : Nat) : (lastDigits w n).length = w := by
  induction w generalizing n with
  | zero => rfl
  | succ w ih => rw [lastDigits, List.length_append, ih, List.length_singleton]

theorem lastDigits_zero (w : Nat) : lastDigits w 0 = List.replicate w 0x30 := by
  induction w with
  | zero => rfl
  | succ w ih =>
      rw [lastDigits, Nat.zero_div, ih, List.replicate_succ']
      rfl

theorem noNul_lastDigits (w n : Nat) : (0 : Byte) ∉ lastDigits w n := by
  induction w generalizing n with
  | zero => exact List.not_mem_nil
  | succ w ih =>
      rw [lastDigits, List.mem_append, List.mem_singleton, not_or]
      refine ⟨ih _, fun h => ?_⟩
      have hd := toNat_digit (Nat.mod_lt n (Nat.zero_lt_succ 9))
      rw [← h, UInt8.toNat_zero] at hd
      omega

/-- A number of at most `w` digits, padded to `w`. -/
theorem replicate_digits {w width n : Nat} (hw : w ≤ width) (hn : n < 10 ^ w) (hpos : 0 < w) :
    List.replicate (w - (digits 10 width n).length) 0x30 ++ digits 10 width n =
      lastDigits w n := by
  induction w generalizing width n with
  | zero => exact absurd hpos (Nat.lt_irrefl 0)
  | succ w ih =>
      obtain ⟨k, rfl⟩ := Nat.exists_eq_add_of_le' (Nat.le_trans (Nat.le_add_left 1 w) hw)
      rw [digits]
      split
      · rename_i hlt
        rw [lastDigits, Nat.div_eq_of_lt hlt, Nat.mod_eq_of_lt hlt, lastDigits_zero,
          List.length_singleton, Nat.add_sub_cancel]
      · rename_i hge
        have hdiv : n / 10 < 10 ^ w := by
          rw [Nat.pow_succ] at hn
          omega
        have hw' : 0 < w := by
          rcases Nat.eq_zero_or_pos w with rfl | h
          · simp at hdiv
            omega
          · exact h
        rw [List.length_append, List.length_singleton, Nat.add_sub_add_right, ← List.append_assoc,
          ih (Nat.le_of_succ_le_succ hw) hdiv hw', lastDigits]

/-- **A number of at most `w` digits** is printed as its last `w` digits. -/
theorem printPadded_eq {w n : Nat} (hpos : 0 < w) (hw : w ≤ 9) (hn : n < 10 ^ w) :
    printPadded w (.ofInt n) = lastDigits w n := by
  have hle : 10 ^ w ≤ 10 ^ 9 := Nat.pow_le_pow_right (Nat.zero_lt_succ 9) hw
  have hint : (Int32.ofInt n).toInt = n :=
    Int32.toInt_ofInt_of_le (by omega) (by omega)
  simp only [printPadded, hint, Int.natAbs_natCast]
  rw [if_neg (by omega)]
  exact replicate_digits (Nat.le_succ_of_le hw) hn hpos

/-- However wide the number is, it is printed in 11 characters, or in `w`. -/
theorem length_printPadded_le {w : Nat} (hw : w ≤ 11) (x : Int32) :
    (printPadded w x).length ≤ 11 := by
  have hdigits := length_digits_le 10 10 x.toInt.natAbs
  simp only [printPadded]
  split <;> simp only [List.length_cons, List.length_append, List.length_replicate] <;> omega

theorem digit_lt {a b : Nat} (ha : a < 10) (hb : b < 10) : digit a < digit b ↔ a < b := by
  rw [UInt8.lt_iff_toNat_lt, toNat_digit ha, toNat_digit hb]
  omega

theorem strncmp_digit {a b : Nat} (ha : a < 10) (hb : b < 10) :
    strncmp 1 [digit a] [digit b] = compare a b := by
  have heq : digit a = digit b ↔ a = b := by
    rw [← UInt8.toNat_inj, toNat_digit ha, toNat_digit hb]
    omega
  rw [strncmp, strncmp, Nat.compare_eq_ite_lt]
  simp only [heq, digit_lt ha hb]
  rcases lt_trichotomy a b with h | h | h
  · rw [if_neg h.ne, if_pos h, if_pos h]
  · rw [if_pos h, if_neg h.not_lt, if_neg h.not_gt]
  · rw [if_neg h.ne', if_neg h.not_gt, if_neg h.not_gt, if_pos h]

/-- The last digit decides where those before it agree. -/
theorem compare_div_mod (a b : Nat) :
    (compare (a / 10) (b / 10)).then (compare (a % 10) (b % 10)) = compare a b := by
  rcases lt_trichotomy (a / 10) (b / 10) with h | h | h
  · have hab : a < b := by omega
    rw [Nat.compare_eq_lt.mpr h, Nat.compare_eq_lt.mpr hab]
    rfl
  · rw [Nat.compare_eq_eq.mpr h, Ordering.eq_then]
    rcases lt_trichotomy (a % 10) (b % 10) with hm | hm | hm
    · have hab : a < b := by omega
      rw [Nat.compare_eq_lt.mpr hm, Nat.compare_eq_lt.mpr hab]
    · have hab : a = b := by omega
      rw [Nat.compare_eq_eq.mpr hm, Nat.compare_eq_eq.mpr hab]
    · have hab : b < a := by omega
      rw [Nat.compare_eq_gt.mpr hm, Nat.compare_eq_gt.mpr hab]
  · have hab : b < a := by omega
    rw [Nat.compare_eq_gt.mpr h, Nat.compare_eq_gt.mpr hab]
    rfl

/-- **Padded numbers** compare as numbers. -/
theorem strncmp_padded {w a b : Nat} (ha : a < 10 ^ w) (hb : b < 10 ^ w) :
    strncmp w (lastDigits w a) (lastDigits w b) = compare a b := by
  induction w generalizing a b with
  | zero =>
      rw [Nat.pow_zero] at ha hb
      rw [Nat.lt_one_iff.mp ha, Nat.lt_one_iff.mp hb]
      rfl
  | succ w ih =>
      rw [Nat.pow_succ] at ha hb
      rw [lastDigits, lastDigits, strncmp_append (length_lastDigits _ _) (length_lastDigits _ _),
        ih (by omega) (by omega),
        strncmp_digit (Nat.mod_lt _ (Nat.zero_lt_succ 9)) (Nat.mod_lt _ (Nat.zero_lt_succ 9))]
      exact compare_div_mod a b

/-! ### Tuples -/

/-- Numbers padded to `w`, one behind the other. -/
def tuple (w : Nat) (is : List Nat) : List Byte := is.flatMap (lastDigits w)

@[simp] theorem length_tuple (w : Nat) (is : List Nat) : (tuple w is).length = is.length * w := by
  induction is with
  | nil => simp [tuple]
  | cons i is ih =>
      rw [tuple, List.flatMap_cons, List.length_append, ← tuple, ih, length_lastDigits,
        List.length_cons, Nat.succ_mul, Nat.add_comm]

theorem noNul_tuple (w : Nat) (is : List Nat) : (0 : Byte) ∉ tuple w is := by
  intro h
  obtain ⟨i, -, hi⟩ := List.mem_flatMap.mp h
  exact noNul_lastDigits w i hi

/-- **Tuples of padded numbers** compare as tuples of numbers. -/
theorem strncmp_tuple {w : Nat} : ∀ {is js : List Nat}, is.length = js.length →
    (∀ i ∈ is, i < 10 ^ w) → (∀ j ∈ js, j < 10 ^ w) →
    (strncmp (is.length * w) (tuple w is) (tuple w js) = .eq ↔ is = js) ∧
      (strncmp (is.length * w) (tuple w is) (tuple w js) = .gt ↔ js < is)
  | [], [], _, _, _ => by simp [tuple, strncmp]
  | i :: is, j :: js, hlen, hi, hj => by
      obtain ⟨heq, hgt⟩ := strncmp_tuple (Nat.succ_injective hlen)
        (fun k hk => hi k (List.mem_cons_of_mem i hk))
          (fun k hk => hj k (List.mem_cons_of_mem j hk))
      have hsplit : strncmp ((i :: is).length * w) (tuple w (i :: is)) (tuple w (j :: js)) =
          (compare i j).then (strncmp (is.length * w) (tuple w is) (tuple w js)) := by
        rw [List.length_cons, Nat.succ_mul, Nat.add_comm, tuple, tuple, List.flatMap_cons,
          List.flatMap_cons, strncmp_append (length_lastDigits w i) (length_lastDigits w j),
          strncmp_padded (hi i List.mem_cons_self) (hj j List.mem_cons_self)]
        rfl
      rw [hsplit]
      constructor
      · rw [Ordering.then_eq_eq, Nat.compare_eq_eq, heq, List.cons_eq_cons]
      · rw [Ordering.then_eq_gt, Nat.compare_eq_gt, Nat.compare_eq_eq, hgt, List.cons_lt_cons_iff]
        exact or_congr_right (and_congr_left fun _ => eq_comm)

end CLib
