import Mathlib.Algebra.Group.Int.Defs
import Mathlib.Data.List.Induction
import Wap4410n.Support.CString

/-!
# Support — printing and scanning numbers

`printf` writes an `int` in at most 11 characters and an `unsigned` in at most eight hexadecimal
digits; `sscanf` reads an `int` behind white space.  A number that does not fit its type is taken
modulo 2^32, where the C standard leaves the result open.
-/

namespace CLib

/-! ### Printing -/

/-- The character of a digit. -/
def digit (d : Nat) : Byte := UInt8.ofNat (if d < 10 then 0x30 + d else 0x57 + d)

/-- The digits of `n` in a base, `width` of them at most. -/
def digits (base : Nat) : Nat → Nat → List Byte
  | 0, _ => []
  | width + 1, n =>
      if n < base then [digit n] else digits base width (n / base) ++ [digit (n % base)]

/-- `%d` -/
def printInt (x : Int32) : List Byte :=
  if x.toInt < 0 then 0x2d :: digits 10 10 x.toInt.natAbs else digits 10 10 x.toInt.natAbs

/-- `%x` -/
def printHex (x : UInt32) : List Byte := digits 16 8 x.toNat

/-- `%02x` -/
def printHex2 (x : UInt32) : List Byte :=
  List.replicate (2 - (printHex x).length) 0x30 ++ printHex x

theorem length_digits_le (base : Nat) : ∀ width n, (digits base width n).length ≤ width
  | 0, _ => Nat.le_refl 0
  | width + 1, n => by
      have ih := length_digits_le base width (n / base)
      unfold digits
      split
      · simp
      · rw [List.length_append, List.length_singleton]
        omega

/-- A number below `10 ^ k` has `k` digits at most. -/
theorem length_digits_lt : ∀ {width k n : Nat}, n < 10 ^ (k + 1) →
    (digits 10 width n).length ≤ k + 1
  | 0, k, n, _ => Nat.zero_le _
  | width + 1, k, n, h => by
      unfold digits
      split
      · simp
      · cases k with
        | zero => omega
        | succ k =>
            have hdiv : n / 10 < 10 ^ (k + 1) := by
              rw [Nat.pow_succ] at h
              omega
            have ih : (digits 10 width (n / 10)).length ≤ k + 1 := length_digits_lt hdiv
            rw [List.length_append, List.length_singleton]
            omega

theorem length_printInt_le (x : Int32) : (printInt x).length ≤ 11 := by
  have h := length_digits_le 10 10 x.toInt.natAbs
  unfold printInt
  split
  · rw [List.length_cons]
    omega
  · omega

theorem length_printHex_le (x : UInt32) : (printHex x).length ≤ 8 := length_digits_le 16 8 _

theorem length_printHex2_le (x : UInt32) : (printHex2 x).length ≤ 8 := by
  have h := length_printHex_le x
  rw [printHex2, List.length_append, List.length_replicate]
  omega

/-! ### Scanning -/

/-- `isspace` -/
def isSpace (b : Byte) : Bool := b == 0x20 || (0x09 ≤ b && b ≤ 0x0d)

/-- `isdigit` -/
def isDigit (b : Byte) : Bool := 0x30 ≤ b && b ≤ 0x39

/-- The value of a run of decimal digits. -/
def decimal (ds : List Byte) : Nat := ds.foldl (fun n b => 10 * n + (b.toNat - 0x30)) 0

/-- The number at the front of `s`, and what follows it. -/
def scanNumber (s : List Byte) : Option (Int × List Byte) :=
  let t := s.dropWhile isSpace
  let u := if t.head? = some 0x2d ∨ t.head? = some 0x2b then t.tail else t
  let ds := u.takeWhile isDigit
  if ds = [] then none else
    some (if t.head? = some 0x2d then -(decimal ds : Int) else decimal ds, u.dropWhile isDigit)

/-- `%d`: the number at the front of `s`, and what follows it. -/
def scanInt (s : List Byte) : Option (Int32 × List Byte) :=
  (scanNumber s).map fun r => (.ofInt r.1, r.2)

/-- A character of the format other than white space. -/
def scanChar (c : Byte) (s : List Byte) : Option (List Byte) :=
  if s.head? = some c then some s.tail else none

/-- `%*[^c]c`: a run free of `c`, not empty, and the `c` behind it. -/
def scanPast (c : Byte) (s : List Byte) : Option (List Byte) :=
  if s.head? = some c then none else scanChar c (s.dropWhile (· ≠ c))

/-! ### Decimal numbers as strings -/

theorem toNat_digit {d : Nat} (h : d < 10) : (digit d).toNat = 0x30 + d := by
  rw [digit, if_pos h, UInt8.toNat_ofNat']
  omega

theorem isDigit_iff {b : Byte} : isDigit b = true ↔ 0x30 ≤ b.toNat ∧ b.toNat ≤ 0x39 := by
  simp [isDigit, UInt8.le_iff_toNat_le]

theorem isDigit_digits : ∀ {width n : Nat} {b : Byte}, b ∈ digits 10 width n → isDigit b = true
  | 0, _, _, h => nomatch h
  | width + 1, n, b, h => by
      unfold digits at h
      split at h
      · rename_i hn
        rw [List.mem_singleton.mp h, isDigit_iff, toNat_digit hn]
        omega
      · rcases List.mem_append.mp h with h | h
        · exact isDigit_digits h
        · rw [List.mem_singleton.mp h, isDigit_iff, toNat_digit (Nat.mod_lt n (by decide))]
          omega

theorem digits_ne_nil (width n : Nat) : digits 10 (width + 1) n ≠ [] := by
  unfold digits
  split
  · exact List.cons_ne_nil _ _
  · simp

/-- The digits of a number that fits the width are its decimal notation. -/
theorem decimal_digits : ∀ {width n : Nat}, n < 10 ^ width → decimal (digits 10 width n) = n
  | 0, n, h => by
      obtain rfl : n = 0 := by omega
      rfl
  | width + 1, n, h => by
      unfold digits
      split
      · rename_i hn
        simp [decimal, toNat_digit hn]
      · have hdiv : n / 10 < 10 ^ width := by
          rw [Nat.pow_succ] at h
          omega
        have ih := decimal_digits hdiv
        have hmod := toNat_digit (Nat.mod_lt n (show 0 < 10 by decide))
        rw [decimal, List.foldl_append, ← decimal, ih]
        simp only [List.foldl_cons, List.foldl_nil, hmod]
        omega

/-- The value of a decimal digit. -/
def digitVal (b : Byte) : Nat := b.toNat - 0x30

theorem isDigit_digit {n : Nat} (h : n < 10) : isDigit (digit n) = true := by
  rw [isDigit_iff, toNat_digit h]
  omega

theorem digitVal_digit {n : Nat} (h : n < 10) : digitVal (digit n) = n := by
  rw [digitVal, toNat_digit h]
  omega

theorem decimal_concat (ds : List Byte) (b : Byte) :
    decimal (ds ++ [b]) = 10 * decimal ds + digitVal b := by
  rw [decimal, List.foldl_append]
  rfl

theorem digitVal_lt {b : Byte} (h : isDigit b = true) : digitVal b < 10 := by
  have hb := isDigit_iff.mp h
  rw [digitVal]
  omega

/-- A number without its last digits. -/
theorem decimal_div (ds : List Byte) {es : List Byte} (h : ∀ b ∈ es, isDigit b = true) :
    decimal (ds ++ es) / 10 ^ es.length = decimal ds := by
  induction es using List.reverseRecOn with
  | nil => simp
  | append_singleton es b ih =>
      have hb := digitVal_lt (h b (by simp))
      have hrest := ih fun a ha => h a (List.mem_append_left [b] ha)
      have hlast : decimal (ds ++ (es ++ [b])) / 10 = decimal (ds ++ es) := by
        rw [← List.append_assoc, decimal_concat]
        omega
      rw [List.length_append, List.length_singleton, Nat.pow_succ', ← Nat.div_div_eq_div_mul, hlast,
        hrest]

/-- The digit before the last `es.length`. -/
theorem decimal_digit (ds : List Byte) {b : Byte} {es : List Byte}
    (h : ∀ a ∈ b :: es, isDigit a = true) :
    decimal (ds ++ b :: es) / 10 ^ es.length % 10 = digitVal b := by
  have hb := digitVal_lt (h b List.mem_cons_self)
  have hdiv := decimal_div (ds ++ [b]) fun a ha => h a (List.mem_cons_of_mem b ha)
  rw [List.append_assoc, List.singleton_append, decimal_concat] at hdiv
  rw [hdiv]
  omega

theorem decimal_lt {ds : List Byte} (h : ∀ b ∈ ds, isDigit b = true) :
    decimal ds < 10 ^ ds.length := by
  have hdiv : decimal ([] ++ ds) / 10 ^ ds.length = 0 := decimal_div [] h
  exact Nat.lt_of_div_eq_zero (Nat.pow_pos (by decide)) hdiv

/-- `sprintf(s, "%d", v)` -/
def CStr.ofInt (v : Int) : CStr where
  bytes := printInt (.ofInt v)
  noNul := by
    have hdigit : ∀ n, (0 : Byte) ∉ digits 10 10 n := fun n h => by
      have := isDigit_iff.mp (isDigit_digits h)
      simp at this
    unfold printInt
    split <;> simp [hdigit]

/-- A number as `strtol` has it, no smaller than `LONG_MIN` and no greater than `LONG_MAX`. -/
def clampLong (v : Int) : Int :=
  if v < -0x80000000 then -0x80000000 else if 0x7fffffff < v then 0x7fffffff else v

/-- `atoi` -/
def atoi (s : CStr) : Int := ((scanNumber s.bytes).map fun r => clampLong r.1).getD 0

/-- A run of digits ends where what follows is not a digit. -/
theorem run_digits {ds t : List Byte} (hds : ∀ b ∈ ds, isDigit b = true)
    (ht : t.head?.all fun c => !isDigit c) :
    (ds ++ t).takeWhile isDigit = ds ∧ (ds ++ t).dropWhile isDigit = t := by
  have hrest : t.takeWhile isDigit = [] ∧ t.dropWhile isDigit = t := by
    cases t with
    | nil => exact ⟨rfl, rfl⟩
    | cons c t =>
        have hc : ¬isDigit c = true := by simpa using ht
        exact ⟨List.takeWhile_cons_of_neg hc, List.dropWhile_cons_of_neg hc⟩
  rw [List.takeWhile_append_of_pos hds, List.dropWhile_append_of_pos hds, hrest.1, hrest.2,
    List.append_nil]
  exact ⟨rfl, rfl⟩

/-- **A run of digits is scanned as its value.** -/
theorem scanNumber_decimal {ds t : List Byte} (hne : ds ≠ []) (hds : ∀ b ∈ ds, isDigit b = true)
    (ht : t.head?.all fun c => !isDigit c) :
    scanNumber (ds ++ t) = some ((decimal ds : Int), t) := by
  obtain ⟨hrun, hrest⟩ := run_digits hds ht
  obtain ⟨b, s, rfl⟩ := List.exists_cons_of_ne_nil hne
  have hdigit : ∀ c, isDigit c = true → isSpace c = false ∧ c ≠ 0x2d ∧ c ≠ 0x2b :=
    forall_byte (by decide)
  obtain ⟨hspace, hminus, hplus⟩ := hdigit b (hds b List.mem_cons_self)
  have hdrop : (b :: s ++ t).dropWhile isSpace = b :: s ++ t := by
    rw [List.cons_append, List.dropWhile_cons_of_neg (by simp [hspace])]
  have hhead : (b :: s ++ t).head? = some b := rfl
  simp only [scanNumber, hdrop, hhead, Option.some.injEq, hminus, hplus, or_self, if_false, hrun,
    hrest, hne]

/-- The digits of a number are scanned as that number. -/
theorem scanNumber_digits {n : Nat} (h : n < 10 ^ 10) :
    scanNumber (digits 10 10 n) = some ((n : Int), []) := by
  have hscan := scanNumber_decimal (digits_ne_nil 9 n) (fun b hb => isDigit_digits hb) (t := []) rfl
  rwa [List.append_nil, decimal_digits h] at hscan

/-- A sign in front of a run of digits. -/
theorem scanNumber_signed {sign : Byte} (hsign : sign = 0x2d ∨ sign = 0x2b) {ds t : List Byte}
    (hne : ds ≠ []) (hds : ∀ b ∈ ds, isDigit b = true) (ht : t.head?.all fun c => !isDigit c) :
    scanNumber (sign :: (ds ++ t)) =
      some (if sign = 0x2d then -(decimal ds : Int) else decimal ds, t) := by
  obtain ⟨hrun, hrest⟩ := run_digits hds ht
  have hspace : (sign :: (ds ++ t)).dropWhile isSpace = sign :: (ds ++ t) :=
    List.dropWhile_cons_of_neg (by rcases hsign with rfl | rfl <;> decide)
  simp only [scanNumber, hspace, List.head?_cons, Option.some.injEq, hsign, if_true, List.tail_cons,
    hrun, hrest, hne, if_false]

/-- A minus sign before them negates it. -/
theorem scanNumber_minus {n : Nat} (h : n < 10 ^ 10) :
    scanNumber (0x2d :: digits 10 10 n) = some (-(n : Int), []) := by
  have hscan := scanNumber_signed (.inl rfl) (digits_ne_nil 9 n) (fun b hb => isDigit_digits hb)
    (t := []) rfl
  rwa [List.append_nil, decimal_digits h, if_pos rfl] at hscan

theorem clampLong_eq {v : Int} (h : -2 ^ 31 ≤ v) (h' : v < 2 ^ 31) : clampLong v = v := by
  rw [clampLong, if_neg (by omega), if_neg (by omega)]

/-- **`atoi` reads back what `sprintf` printed.** -/
theorem atoi_ofInt {v : Int} (h : -2 ^ 31 ≤ v) (h' : v < 2 ^ 31) : atoi (.ofInt v) = v := by
  have hv : (Int32.ofInt v).toInt = v := Int32.toInt_ofInt_of_le h h'
  have hmax : v.natAbs < 10 ^ 10 := by omega
  have hbytes : (CStr.ofInt v).bytes =
      if v < 0 then 0x2d :: digits 10 10 v.natAbs else digits 10 10 v.natAbs := by
    simp only [CStr.ofInt, printInt, hv]
  rw [atoi, hbytes]
  by_cases hlt : v < 0
  · have habs : -(v.natAbs : Int) = v := by omega
    rw [if_pos hlt, scanNumber_minus hmax, habs]
    exact clampLong_eq h h'
  · have habs : (v.natAbs : Int) = v := by omega
    rw [if_neg hlt, scanNumber_digits hmax, habs]
    exact clampLong_eq h h'

/-- A number that is not negative is printed as its digits. -/
theorem bytes_ofInt {v : Int} (h : 0 ≤ v) (h' : v < 2 ^ 31) :
    (CStr.ofInt v).bytes = digits 10 10 v.toNat := by
  have hv : (Int32.ofInt v).toInt = v := Int32.toInt_ofInt_of_le (by omega) h'
  have hneg : ¬ v < 0 := by omega
  have hnat : v.natAbs = v.toNat := by omega
  simp only [CStr.ofInt, printInt, hv, if_neg hneg, hnat]

/-! ### Searching -/

/-- `strstr(s, t)`: the text from the first occurrence of `t` on. -/
def strstr (t : List Byte) : List Byte → Option (List Byte)
  | [] => if t = [] then some [] else none
  | b :: s => if t <+: b :: s then some (b :: s) else strstr t s

/-- A word without the separator does not start where less than it stands before one. -/
theorem not_prefix_of_separator {c : Byte} {t u : List Byte} (hc : c ∉ t)
    (h : u.length < t.length) (r : List Byte) : ¬ t <+: u ++ c :: r := by
  rintro ⟨w, hw⟩
  obtain ⟨x, hu, -⟩ | ⟨x, ht, hx⟩ := List.append_eq_append_iff.mp hw
  · rw [hu, List.length_append] at h
    omega
  · cases x with
    | nil =>
        rw [ht, List.append_nil] at h
        exact absurd h (Nat.lt_irrefl _)
    | cons b x =>
        rw [List.cons_append, List.cons.injEq] at hx
        exact hc (ht ▸ hx.1 ▸ List.mem_append_right u List.mem_cons_self)

/-- The search goes on behind a separator it is too close to. -/
theorem strstr_skip {c : Byte} {t : List Byte} (hc : c ∉ t) :
    ∀ {u : List Byte}, u.length < t.length → ∀ r, strstr t (u ++ c :: r) = strstr t r
  | [], h, r => if_neg (not_prefix_of_separator hc h r)
  | b :: u, h, r => by
      have hu : u.length < t.length := by
        rw [List.length_cons] at h
        omega
      rw [List.cons_append, strstr, ← List.cons_append, if_neg (not_prefix_of_separator hc h r)]
      exact strstr_skip hc hu r

/-- A word of the same length before the separator is the one searched for, or passed over. -/
theorem strstr_word {c : Byte} {t u : List Byte} (hc : c ∉ t) (hlen : u.length = t.length)
    (ht : t ≠ []) (r : List Byte) :
    strstr t (u ++ c :: r) = if u = t then some (u ++ c :: r) else strstr t r := by
  cases u with
  | nil => exact absurd (List.length_eq_zero_iff.mp hlen.symm) ht
  | cons b u =>
      by_cases h : b :: u = t
      · rw [if_pos h, List.cons_append, strstr, ← List.cons_append, h,
          if_pos (List.prefix_append t _)]
      · have hno : ¬ t <+: (b :: u) ++ c :: r := fun hp =>
          h ((List.prefix_of_prefix_length_le (List.prefix_append _ _) hp
            hlen.le).eq_of_length hlen)
        have hu : u.length < t.length := by
          rw [List.length_cons] at hlen
          omega
        rw [if_neg h, List.cons_append, strstr, ← List.cons_append, if_neg hno]
        exact strstr_skip hc hu r

end CLib
