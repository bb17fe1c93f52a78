import Mathlib.Data.List.Basic
import Wap4410n.Support.Ipv6

/-!
# Support — addresses in the notation of C

The `inet_aton` of the toolchain (`Support.Inet`) reads decimal numbers.  That of other C libraries
reads one to four numbers in the notation of C, with dots between them: hexadecimal behind `0x`,
octal behind `0`, and decimal.  The last number takes all octets that are left.  White space may
follow, and anything behind it.

* `number_eq_decimal_iff`: octal digits are the same number in decimal just below eight.
* `inetAton_quad_iff`: the dotted quads that are read as they are in decimal.
-/

namespace CLib.Notation

open Ipv6

def isOctal (b : Byte) : Bool := 0x30 ≤ b && b ≤ 0x37

/-- The number with these digits. -/
def number (base : Nat) (ds : List Byte) : Nat :=
  ds.foldl (fun n b => base * n + (digitValue b).getD 0) 0

/-- A number as `strtoul` reads it to base 0. -/
def numeral (ds : List Byte) : Option Nat :=
  if ds.head? = some 0x30 then
    if ds.tail.head? = some 0x78 ∨ ds.tail.head? = some 0x58 then
      if ds.drop 2 ≠ [] ∧ (ds.drop 2).all fun b => (digitValue b).isSome then
        some (number 16 (ds.drop 2))
      else none
    else if ds.all isOctal then some (number 8 ds)
    else none
  else if ds ≠ [] ∧ ds.all isDigit then some (decimal ds)
  else none

/-- The address of one to four numbers. -/
def address : List Nat → Option InAddr
  | [n] => if n < 2 ^ 32 then some (.ofNat n) else none
  | [a, n] =>
    if a < 2 ^ 8 ∧ n < 2 ^ 24 then
      some ⟨.ofNat a, .ofNat (n / 2 ^ 16), .ofNat (n / 2 ^ 8), .ofNat n⟩
    else none
  | [a, b, n] =>
    if a < 2 ^ 8 ∧ b < 2 ^ 8 ∧ n < 2 ^ 16 then
      some ⟨.ofNat a, .ofNat b, .ofNat (n / 2 ^ 8), .ofNat n⟩
    else none
  | [a, b, c, n] =>
    if a < 2 ^ 8 ∧ b < 2 ^ 8 ∧ c < 2 ^ 8 ∧ n < 2 ^ 8 then
      some ⟨.ofNat a, .ofNat b, .ofNat c, .ofNat n⟩
    else none
  | _ => none

/-- `inet_aton` -/
def inetAton (s : CStr) : Option InAddr := do
  let parts := (s.bytes.takeWhile fun b => !isSpace b).splitOn 0x2e
  address (← parts.mapM numeral)

example : inetAton (.text "0x7f.1") = some ⟨127, 0, 0, 1⟩ := by decide

/-! ### Octal numbers -/

theorem number_append (base : Nat) (ds : List Byte) (b : Byte) :
    number base (ds ++ [b]) = base * number base ds + (digitValue b).getD 0 := List.foldl_append ..

theorem decimal_append (ds : List Byte) (b : Byte) :
    decimal (ds ++ [b]) = 10 * decimal ds + (b.toNat - 0x30) := List.foldl_append ..

theorem digitValue_octal : ∀ b : Byte, isOctal b = true →
    (digitValue b).getD 0 = b.toNat - 0x30 ∧ b.toNat - 0x30 < 8 := forall_byte (by decide)

/-- The number to base eight is no greater. -/
theorem number_le_decimal {ds : List Byte} (h : ∀ b ∈ ds, isOctal b = true) :
    number 8 ds ≤ decimal ds := by
  induction ds using List.reverseRecOn with
  | nil => exact Nat.le_refl _
  | append_singleton ds b ih =>
      have hrest := ih fun c hc => h c (List.mem_append_left _ hc)
      have hb := (digitValue_octal b (h b (by simp))).1
      rw [number_append, decimal_append, hb]
      omega

/-- **Octal digits** are the same number in decimal just below eight. -/
theorem number_eq_decimal_iff {ds : List Byte} (h : ∀ b ∈ ds, isOctal b = true) :
    number 8 ds = decimal ds ↔ decimal ds < 8 := by
  rcases ds.eq_nil_or_concat' with rfl | ⟨ds, b, rfl⟩
  · exact iff_of_true rfl (by decide)
  · have hle := number_le_decimal fun c hc => h c (List.mem_append_left _ hc)
    obtain ⟨hb, hsmall⟩ := digitValue_octal b (h b (by simp))
    rw [number_append, decimal_append, hb]
    omega

/-- A digit is no greater than the number. -/
theorem digit_le_decimal {ds : List Byte} {b : Byte} (h : b ∈ ds) :
    b.toNat - 0x30 ≤ decimal ds := by
  induction ds using List.reverseRecOn with
  | nil => cases h
  | append_singleton ds c ih =>
      rw [decimal_append]
      rcases List.mem_append.mp h with h | h
      · have hrest := ih h
        omega
      · obtain rfl := List.mem_singleton.mp h
        omega

/-! ### Decimal numbers -/

/-- **A decimal number** is read as it is, but for a zero in front of eight or more. -/
theorem numeral_eq_iff {ds : List Byte} (h : IsNumeral ds) :
    numeral ds = some (decimal ds) ↔ (ds.head? = some 0x30 → decimal ds < 8) := by
  unfold numeral
  by_cases hzero : ds.head? = some 0x30
  · have hhex : ¬(ds.tail.head? = some 0x78 ∨ ds.tail.head? = some 0x58) := by
      have hdigit : ∀ b, ds.tail.head? = some b → isDigit b = true := fun b hb =>
        h.2 b (List.mem_of_mem_tail (List.mem_of_mem_head? hb))
      rintro (hx | hx)
      · exact absurd (hdigit _ hx) (by decide)
      · exact absurd (hdigit _ hx) (by decide)
    rw [if_pos hzero, if_neg hhex]
    by_cases hoct : ds.all isOctal = true
    · rw [if_pos hoct, Option.some_inj, number_eq_decimal_iff (List.all_eq_true.mp hoct)]
      exact ⟨fun hlt _ => hlt, fun hlt => hlt hzero⟩
    · -- there is an 8 or a 9
      have height : ∀ b : Byte, isDigit b = true → isOctal b = false → 8 ≤ b.toNat - 0x30 :=
        forall_byte (by decide)
      obtain ⟨b, hb, hno⟩ := List.all_eq_false.mp (by simpa using hoct)
      have hle := Nat.le_trans (height b (h.2 b hb) (by simpa using hno))
        (digit_le_decimal hb)
      rw [if_neg hoct]
      exact iff_of_false (by simp) fun hlt => Nat.not_lt.mpr hle (hlt hzero)
  · rw [if_neg hzero, if_pos ⟨h.1, List.all_eq_true.mpr h.2⟩]
    exact iff_of_true rfl fun hhead => absurd hhead hzero

/-- The parts of a quad. -/
theorem splitOn_quad {a b c d : List Byte}
    (hn : IsNumeral a ∧ IsNumeral b ∧ IsNumeral c ∧ IsNumeral d) :
    (quadText a b c d).splitOn 0x2e = [a, b, c, d] := by
  have hdot : ∀ {ds : List Byte}, IsNumeral ds → (0x2e : Byte) ∉ ds := fun h hmem =>
    absurd (h.2 _ hmem) (by decide)
  rw [quadText, List.splitOn_append_cons_self_of_not_mem (hdot hn.1),
    List.splitOn_append_cons_self_of_not_mem (hdot hn.2.1),
    List.splitOn_append_cons_self_of_not_mem (hdot hn.2.2.1),
    List.splitOn_eq_singleton (hdot hn.2.2.2)]

/-- There is no white space in a quad. -/
theorem takeWhile_quad {a b c d : List Byte}
    (hn : IsNumeral a ∧ IsNumeral b ∧ IsNumeral c ∧ IsNumeral d) :
    (quadText a b c d).takeWhile (fun b => !isSpace b) = quadText a b c d := by
  have hspace : ∀ x : Byte, isDigit x = true ∨ x = 0x2e → (!isSpace x) = true :=
    forall_byte (by decide)
  have hmem : ∀ x ∈ quadText a b c d, isDigit x = true ∨ x = 0x2e := by
    intro x hx
    simp only [quadText, List.mem_append, List.mem_cons] at hx
    rcases hx with hx | hx | hx | hx | hx | hx | hx
    · exact .inl (hn.1.2 x hx)
    · exact .inr hx
    · exact .inl (hn.2.1.2 x hx)
    · exact .inr hx
    · exact .inl (hn.2.2.1.2 x hx)
    · exact .inr hx
    · exact .inl (hn.2.2.2.2 x hx)
  exact List.takeWhile_eq_self_iff.mpr fun x hx => hspace x (hmem x hx)

/-- An octet is one number below 256. -/
theorem ofNat_inj {m n : Nat} (hm : m < 2 ^ 8) (hn : n ≤ 255) :
    UInt8.ofNat m = UInt8.ofNat n ↔ m = n := by
  constructor
  · intro h
    have hnat := congrArg UInt8.toNat h
    rwa [UInt8.toNat_ofNat', UInt8.toNat_ofNat', Nat.mod_eq_of_lt hm,
      Nat.mod_eq_of_lt (Nat.lt_succ_of_le hn)] at hnat
  · exact congrArg UInt8.ofNat

/-- **The dotted quads** that are read as they are. -/
theorem inetAton_quad_iff {s : CStr} {a b c d : List Byte} (hs : s.bytes = quadText a b c d)
    (hn : IsNumeral a ∧ IsNumeral b ∧ IsNumeral c ∧ IsNumeral d)
    (hle : decimal a ≤ 255 ∧ decimal b ≤ 255 ∧ decimal c ≤ 255 ∧ decimal d ≤ 255) :
    inetAton s =
        some ⟨.ofNat (decimal a), .ofNat (decimal b), .ofNat (decimal c), .ofNat (decimal d)⟩ ↔
      ∀ ds ∈ s.bytes.splitOn 0x2e, ds.head? = some 0x30 → decimal ds < 8 := by
  rw [inetAton, hs, takeWhile_quad hn, splitOn_quad hn]
  simp only [List.mem_cons, List.not_mem_nil, or_false, forall_eq_or_imp, forall_eq,
    ← numeral_eq_iff hn.1, ← numeral_eq_iff hn.2.1, ← numeral_eq_iff hn.2.2.1,
    ← numeral_eq_iff hn.2.2.2, List.mapM_cons, List.mapM_nil]
  constructor
  · intro h
    simp only [Option.bind_eq_bind, Option.bind_eq_some_iff, Option.pure_def, Option.some_inj] at h
    obtain ⟨l, ⟨na, ha, l₁, ⟨nb, hb, l₂, ⟨nc, hc, l₃, ⟨nd, hd, l₄, rfl, rfl⟩, rfl⟩, rfl⟩, rfl⟩,
      hl⟩ := h
    rw [address] at hl
    split at hl
    · next hlt =>
        obtain ⟨hea, heb, hec, hed⟩ := InAddr.mk.inj (Option.some.inj hl)
        rw [ha, hb, hc, hd, (ofNat_inj hlt.1 hle.1).mp hea, (ofNat_inj hlt.2.1 hle.2.1).mp heb,
          (ofNat_inj hlt.2.2.1 hle.2.2.1).mp hec, (ofNat_inj hlt.2.2.2 hle.2.2.2).mp hed]
        exact ⟨rfl, rfl, rfl, rfl⟩
    · cases hl
  · rintro ⟨ha, hb, hc, hd⟩
    rw [ha, hb, hc, hd]
    exact if_pos ⟨Nat.lt_succ_of_le hle.1, Nat.lt_succ_of_le hle.2.1, Nat.lt_succ_of_le hle.2.2.1,
      Nat.lt_succ_of_le hle.2.2.2⟩

end CLib.Notation
