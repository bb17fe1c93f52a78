import Wap4410n.Support.CString
import Wap4410n.Support.Odometer

/-!
# Utility — the next MAC address

`mac_plus_one` copies an address and adds one to the copy; `wlanModuleLoad` adds one to the first
six bytes of an array of its own.  Both run from the last byte to the first, as long as the byte
came round to zero.  A pointer is an address in a memory of bytes.

* `macPlusOne_adds`: the copy, or the array, is advanced by one modulo 2^48, and nothing else is
  stored.
-/

namespace Wap4410n.Utility

open CLib

/-- The addresses and their bytes. -/
abbrev Memory := Nat → Byte

/-- `unsigned char`, which wraps. -/
def byteWheel : Wheel Byte where
  base := 256
  read := UInt8.toNat
  next b := b + 1
  read_lt := UInt8.toNat_lt
  read_next b := UInt8.toNat_add b 1

/-- The six bytes at `mac`, as a number, the first byte its highest. -/
def macNumber (mem : Memory) (mac : Nat) : Nat := byteWheel.number mem mac 6

/-- `memcpy(dst, src, n)`; where the two overlap C leaves it open, and `src` is read first here. -/
def memcpy (mem : Memory) (dst src n : Nat) : Memory := fun q =>
  if dst ≤ q ∧ q < dst + n then mem (src + (q - dst)) else mem q

/-- `for(i=5; i>=0 && !++mac[i]; i--);` -/
def carryMac (mac : Nat) (mem : Memory) : Memory := byteWheel.advance mac 6 mem

/-- `mac_plus_one` -/
def macPlusOne (mem : Memory) (mac1 mac : Nat) : Memory := carryMac mac1 (memcpy mem mac1 mac 6)

/-- The loop of `wlanModuleLoad`, on `macStr` -/
def wlanMacPlusOne (mem : Memory) (macStr : Nat) : Memory := carryMac macStr mem

/-- The copy reads as what was copied. -/
theorem macNumber_memcpy (mem : Memory) (mac1 mac : Nat) :
    macNumber (memcpy mem mac1 mac 6) mac1 = macNumber mem mac :=
  Wheel.number_congr fun i hi => by
    rw [memcpy, if_pos ⟨Nat.le_add_right _ _, Nat.add_lt_add_left hi _⟩, Nat.add_sub_cancel_left]

/-- One more, and nothing stored but the six bytes. -/
theorem carryMac_adds (mac : Nat) (mem : Memory) :
    macNumber (carryMac mac mem) mac = (macNumber mem mac + 1) % 2 ^ 48 ∧
      ∀ q, q < mac ∨ mac + 6 ≤ q → carryMac mac mem q = mem q :=
  ⟨Wheel.number_advance, fun _ => Wheel.advance_of_not_mem⟩

/-- **The next address.**  `mac_plus_one` leaves at `mac1` the address at `mac` and one, modulo
2^48, and stores nothing elsewhere, so that an address that lies apart from `mac1` is as it was; the
loop of `wlanModuleLoad` does the same in place. -/
theorem macPlusOne_adds (mem : Memory) (mac1 mac macStr : Nat) :
    (macNumber (macPlusOne mem mac1 mac) mac1 = (macNumber mem mac + 1) % 2 ^ 48 ∧
      (∀ q, q < mac1 ∨ mac1 + 6 ≤ q → macPlusOne mem mac1 mac q = mem q) ∧
      (mac + 6 ≤ mac1 ∨ mac1 + 6 ≤ mac →
        ∀ i < 6, macPlusOne mem mac1 mac (mac + i) = mem (mac + i))) ∧
    macNumber (wlanMacPlusOne mem macStr) macStr = (macNumber mem macStr + 1) % 2 ^ 48 ∧
      ∀ q, q < macStr ∨ macStr + 6 ≤ q → wlanMacPlusOne mem macStr q = mem q := by
  obtain ⟨hnumber, hsame⟩ := carryMac_adds mac1 (memcpy mem mac1 mac 6)
  have hframe : ∀ q, q < mac1 ∨ mac1 + 6 ≤ q → macPlusOne mem mac1 mac q = mem q := fun q hq => by
    rw [macPlusOne, hsame q hq, memcpy, if_neg (by omega)]
  rw [macNumber_memcpy] at hnumber
  refine ⟨⟨hnumber, hframe, fun hapart i hi => hframe _ (by omega)⟩, carryMac_adds macStr mem⟩

/-- All six bytes come round. -/
example : macNumber (wlanMacPlusOne (fun _ => 255) 0) 0 = 0 := by decide

end Wap4410n.Utility
