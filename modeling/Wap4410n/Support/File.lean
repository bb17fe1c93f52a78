import Wap4410n.Support.Block

/-!
# Support — files and devices

A descriptor is the mode it was opened with and its offset (`Fd`).  `read` and `write` refuse a
descriptor opened for the other direction, and a count above `INT_MAX`.  A write may be cut short
or fail (`WriteOutcome`); nothing here reports it to the caller, who has to look at the result.
A device has a fixed size (`Device`): a write that reaches its end is cut there.
-/

namespace CLib

/-- The largest `int`. -/
def intMax : Nat := 2 ^ 31 - 1

/-- What becomes of a write: all bytes reach the file, the first `k` of them, or none and the call
returns −1. -/
inductive WriteOutcome where
  | complete
  | short (k : Nat)
  | failed
deriving DecidableEq

/-- How many of `n` bytes reach the file. -/
def WriteOutcome.count : WriteOutcome → Nat → Nat
  | .complete, n => n
  | .short k, n => min k n
  | .failed, _ => 0

theorem WriteOutcome.count_le (w : WriteOutcome) (n : Nat) : w.count n ≤ n := by
  cases w with
  | complete => exact Nat.le_refl n
  | short k => exact Nat.min_le_right k n
  | failed => exact Nat.zero_le n

@[simp] theorem WriteOutcome.count_complete (n : Nat) : WriteOutcome.complete.count n = n := rfl

/-- The direction a file was opened for. -/
inductive Mode where
  | rdonly
  | wronly
deriving DecidableEq

structure Fd where
  mode : Mode
  pos : Nat
deriving DecidableEq

/-- A device of `n` bytes. -/
@[ext] structure Device (n : Nat) where
  bytes : List Byte
  size_eq : bytes.length = n
deriving DecidableEq

namespace Device

variable {n : Nat}

/-- The device with `bs` written at `pos`, cut at its end. -/
def write (d : Device n) (pos : Nat) (bs : List Byte) : Device n where
  bytes := splice d.bytes pos (bs.take (n - pos))
  size_eq := by
    have h := d.size_eq
    by_cases hp : pos ≤ d.bytes.length
    · rw [length_splice hp, List.length_take]; omega
    · have e : n - pos = 0 := by omega
      simp [splice, e, List.take_append_drop, h]

theorem bytes_write {d : Device n} {pos : Nat} {bs : List Byte} (h : pos + bs.length ≤ n) :
    (d.write pos bs).bytes = splice d.bytes pos bs := by
  show splice _ _ _ = _
  rw [List.take_of_length_le (by omega)]

/-- The `k` bytes from `pos` on, as far as the device goes. -/
def slice (d : Device n) (pos k : Nat) : List Byte := (d.bytes.drop pos).take k

theorem length_slice (d : Device n) (pos k : Nat) : (d.slice pos k).length = min k (n - pos) := by
  simp [slice, d.size_eq]

/-- A device one byte repeated. -/
def filled (n : Nat) (b : Byte) : Device n := ⟨List.replicate n b, List.length_replicate⟩

end Device

namespace Fd

/-- `lseek(fd, pos, SEEK_SET)`. -/
def lseek (fd : Fd) (pos : Nat) : Fd := { fd with pos := pos }

/-- `read(fd, buf, count)` on a file that holds `bytes`: what is read, or `none` for −1. -/
def read (fd : Fd) (bytes : List Byte) (count : Nat) : Option (List Byte) :=
  if fd.mode = .wronly ∨ intMax < count then none else some ((bytes.drop fd.pos).take count)

/-- `write(fd, bs, strlen(bs))` on a device. -/
def write {n : Nat} (fd : Fd) (w : WriteOutcome) (d : Device n) (bs : List Byte) : Device n :=
  if fd.mode = .rdonly ∨ intMax < bs.length then d else d.write fd.pos (bs.take (w.count bs.length))

/-- A descriptor opened for writing only reads nothing. -/
@[simp] theorem read_wronly (pos : Nat) (bytes : List Byte) (count : Nat) :
    (Fd.mk .wronly pos).read bytes count = none := by
  simp [read]

theorem read_rdonly {pos : Nat} {bytes : List Byte} {count : Nat} (h : count ≤ intMax) :
    (Fd.mk .rdonly pos).read bytes count = some ((bytes.drop pos).take count) := by
  simp [read, Nat.not_lt.mpr h]

theorem write_wronly {n : Nat} {pos : Nat} {w : WriteOutcome} {d : Device n} {bs : List Byte}
    (h : bs.length ≤ intMax) :
    (Fd.mk .wronly pos).write w d bs = d.write pos (bs.take (w.count bs.length)) := by
  simp [write, Nat.not_lt.mpr h]

end Fd

/-! ### Lines -/

/-- `fgets(buf, n, fp)` on the bytes `s` that are left: up to `n - 1` of them, no further than the
end of a line; `none` at the end of the file. -/
def fgets (n : Nat) (s : List Byte) : Option (List Byte × List Byte) :=
  if s = [] then none else
    let k := min (n - 1) ((s.takeWhile (· ≠ 0x0a)).length + 1)
    some (s.take k, s.drop k)

theorem fgets_some {n : Nat} (hn : 1 < n) {s line left : List Byte}
    (h : fgets n s = some (line, left)) : line.length < n ∧ left.length < s.length := by
  unfold fgets at h
  split at h
  · cases h
  · rename_i hs
    cases h
    have := List.length_pos_iff.mpr hs
    rw [List.length_take, List.length_drop]
    omega

/-! ### Words -/

/-- A 32-bit word as it lies in memory, most significant byte first. -/
def be32 (x : UInt32) : List Byte :=
  [UInt8.ofNat (x.toNat / 2 ^ 24), UInt8.ofNat (x.toNat / 2 ^ 16), UInt8.ofNat (x.toNat / 2 ^ 8),
    UInt8.ofNat x.toNat]

/-- The 32-bit word that lies in memory at `m`. -/
def ofBe32 (m : List Byte) : UInt32 :=
  UInt32.ofNat (2 ^ 24 * (m.getD 0 0).toNat + 2 ^ 16 * (m.getD 1 0).toNat +
    2 ^ 8 * (m.getD 2 0).toNat + (m.getD 3 0).toNat)

@[simp] theorem length_be32 (x : UInt32) : (be32 x).length = 4 := rfl

theorem ofBe32_be32 (x : UInt32) (r : List Byte) : ofBe32 (be32 x ++ r) = x := by
  have hx := x.toNat_lt
  apply UInt32.toNat_inj.mp
  simp only [ofBe32, be32, List.cons_append, List.getD_cons_zero, List.getD_cons_succ,
    UInt8.toNat_ofNat', UInt32.toNat_ofNat']
  omega

theorem be32_inj {x y : UInt32} : be32 x = be32 y ↔ x = y := by
  refine ⟨fun h => ?_, fun h => h ▸ rfl⟩
  rw [← ofBe32_be32 x [], h, ofBe32_be32]

theorem be32_append_inj {x y : UInt32} {l l' : List Byte} :
    be32 x ++ l = be32 y ++ l' ↔ x = y ∧ l = l' := by
  have hl : (be32 x).length = (be32 y).length := rfl
  rw [List.append_eq_append_iff_of_size_eq_left hl, be32_inj]

theorem ofBe32_take (m : List Byte) : ofBe32 (m.take 4) = ofBe32 m := by
  have h : ∀ i, i < 4 → (m.take 4).getD i 0 = m.getD i 0 := fun i hi => by
    simp [List.getD_eq_getElem?_getD, List.getElem?_take_of_lt hi]
  simp only [ofBe32, h 0 (by decide), h 1 (by decide), h 2 (by decide), h 3 (by decide)]

/-- A word is determined by its four bytes, and they by it. -/
theorem be32_ofBe32 {m : List Byte} (h : m.length = 4) : be32 (ofBe32 m) = m := by
  match m, h with
  | [a, b, c, d], _ =>
      have ha := a.toNat_lt
      have hb := b.toNat_lt
      have hc := c.toNat_lt
      have hd := d.toNat_lt
      simp only [be32, ofBe32, List.getD_cons_zero, List.getD_cons_succ, UInt32.toNat_ofNat',
        List.cons.injEq, and_true]
      refine ⟨?_, ?_, ?_, ?_⟩ <;> apply UInt8.toNat_inj.mp <;>
        simp only [UInt8.toNat_ofNat'] <;> omega

end CLib
