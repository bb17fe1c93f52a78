import Mathlib.Data.BitVec
import Mathlib.Logic.Function.Iterate

/-!
# Support — reflected CRCs

A CRC register of `w` bits takes a message one bit at a time, least significant end first: the bit
is added into the low end of the register, which is then shifted down, and the polynomial `poly`
is added where a one was shifted out (`feed`).  `poly` is any word of `w` bits; its top bit is the
constant term of the polynomial.

* `foldl_feed`: up to `w` bits may be added at once, the shifts following.
* `iterate_shift_low`: `k` shifts are a table of `2 ^ k` words and a shift down by `k`.
* `crc_burst`: with a constant term, a change within `w` consecutive bits is always seen.
-/

namespace CLib.Crc

variable {w : Nat} {poly : BitVec w}

/-! ### One bit -/

/-- One shift of the register. -/
def shift (poly c : BitVec w) : BitVec w := if c.getLsbD 0 then c >>> 1 ^^^ poly else c >>> 1

/-- Bits as a word, the first lowest. -/
def load (w : Nat) (bits : List Bool) : BitVec w := (BitVec.ofBoolListLE bits).setWidth w

/-- The register after one bit of the message. -/
def feed (poly c : BitVec w) (b : Bool) : BitVec w := shift poly (c ^^^ load w [b])

/-- The CRC of a message. -/
def crc (poly init final : BitVec w) (bits : List Bool) : BitVec w :=
  bits.foldl (feed poly) init ^^^ final

/-- The bits of a byte, lowest first. -/
def bitsOf (b : UInt8) : List Bool := (List.range 8).map b.toBitVec.getLsbD

@[simp] theorem length_bitsOf (b : UInt8) : (bitsOf b).length = 8 := by
  rw [bitsOf, List.length_map, List.length_range]

theorem xor_right_comm (a b c : BitVec w) : a ^^^ b ^^^ c = a ^^^ c ^^^ b := by
  rw [BitVec.xor_assoc, BitVec.xor_comm b c, ← BitVec.xor_assoc]

theorem shift_xor (a b : BitVec w) : shift poly (a ^^^ b) = shift poly a ^^^ shift poly b := by
  have hcancel : ∀ x y : BitVec w, x ^^^ poly ^^^ (y ^^^ poly) = x ^^^ y := fun x y => by
    rw [xor_right_comm, BitVec.xor_assoc x, BitVec.xor_assoc y, BitVec.xor_self, BitVec.xor_zero]
  unfold shift
  rw [BitVec.getLsbD_xor, BitVec.ushiftRight_xor_distrib]
  cases a.getLsbD 0 <;> cases b.getLsbD 0
  · rfl
  · exact BitVec.xor_assoc _ _ _
  · exact xor_right_comm _ _ _
  · exact (hcancel _ _).symm

theorem iterate_shift_xor (n : Nat) (a b : BitVec w) :
    (shift poly)^[n] (a ^^^ b) = (shift poly)^[n] a ^^^ (shift poly)^[n] b := by
  induction n generalizing a b with
  | zero => rfl
  | succ n ih => rw [Function.iterate_succ_apply, shift_xor, ih]; rfl

/-! ### Several bits at once -/

@[simp] theorem getLsbD_load (bits : List Bool) (i : Nat) :
    (load w bits).getLsbD i = (decide (i < w) && bits.getD i false) := by
  rw [load, BitVec.getLsbD_setWidth, BitVec.getLsbD_ofBoolListLE]

@[simp] theorem getElem_load (bits : List Bool) {i : Nat} (hi : i < w) :
    (load w bits)[i] = bits.getD i false := by
  rw [← BitVec.getLsbD_eq_getElem, getLsbD_load, decide_eq_true hi, Bool.true_and]

theorem load_cons (b : Bool) (bits : List Bool) :
    load w (b :: bits) = load w [b] ^^^ load w bits <<< 1 := by
  refine BitVec.eq_of_getElem_eq fun i hi => ?_
  cases i with
  | zero => simp
  | succ i => simp

theorem load_inj {bits bits' : List Bool} (hl : bits.length = bits'.length) (h : bits.length ≤ w)
    (he : load w bits = load w bits') : bits = bits' := by
  refine List.ext_getElem hl fun i hi hi' => ?_
  have := congrArg (fun x => x.getLsbD i) he
  simp only [getLsbD_load, decide_eq_true (Nat.lt_of_lt_of_le hi h), Bool.true_and] at this
  simpa [hi, hi'] using this

/-- The bits of a byte are the byte. -/
theorem load_bitsOf (b : UInt8) : load w (bitsOf b) = b.toBitVec.setWidth w := by
  refine BitVec.eq_of_getLsbD_eq fun i hi => ?_
  rw [getLsbD_load, BitVec.getLsbD_setWidth, bitsOf, List.getD_eq_getElem?_getD, List.getElem?_map]
  by_cases h : i < 8
  · rw [List.getElem?_range h]
    rfl
  · have hbit := BitVec.getLsbD_of_ge b.toBitVec i (Nat.le_of_not_lt h)
    rw [List.getElem?_eq_none (by simpa using h), hbit]
    rfl

/-- Bits that leave room at the top are shifted down whole. -/
theorem shift_load {bits : List Bool} (h : bits.length < w) :
    shift poly (load w bits <<< 1) = load w bits := by
  have hlow : (load w bits <<< 1).getLsbD 0 = false := by simp
  rw [shift, hlow, if_neg Bool.false_ne_true]
  refine BitVec.eq_of_getElem_eq fun i hi => ?_
  by_cases htop : 1 + i < w
  · simp [htop]
  · have hout : bits.length ≤ i := by omega
    simp [htop, hout]

/-- **As many bits as the register has** may be added at once. -/
theorem foldl_feed {bits : List Bool} (h : bits.length ≤ w) (c : BitVec w) :
    bits.foldl (feed poly) c = (shift poly)^[bits.length] (c ^^^ load w bits) := by
  induction bits generalizing c with
  | nil =>
      have hnil : load w [] = 0#w := BitVec.eq_of_getLsbD_eq fun i _ => by simp [getLsbD_load]
      rw [hnil, BitVec.xor_zero]
      rfl
  | cons b bits ih =>
      have hlt : bits.length < w := h
      calc (b :: bits).foldl (feed poly) c
          = (shift poly)^[bits.length] (shift poly (c ^^^ load w [b]) ^^^ load w bits) :=
            ih (Nat.le_of_lt hlt) _
        _ = (shift poly)^[bits.length]
              (shift poly (c ^^^ load w [b] ^^^ load w bits <<< 1)) := by
            rw [shift_xor (c ^^^ load w [b]), shift_load hlt]
        _ = (shift poly)^[(b :: bits).length] (c ^^^ load w (b :: bits)) := by
            rw [load_cons b bits, ← BitVec.xor_assoc]
            rfl

/-! ### A table -/

/-- The low `k` bits of a word. -/
def low (k : Nat) (c : BitVec w) : BitVec w := (c.setWidth k).setWidth w

@[simp] theorem getLsbD_low (k : Nat) (c : BitVec w) (i : Nat) :
    (low k c).getLsbD i = (decide (i < k) && c.getLsbD i) := by
  rw [low, BitVec.getLsbD_setWidth, BitVec.getLsbD_setWidth]
  by_cases h : i < w
  · simp [h]
  · simp [h, BitVec.getLsbD_of_ge c i (Nat.le_of_not_lt h)]

theorem low_xor (k : Nat) (a b : BitVec w) : low k (a ^^^ b) = low k a ^^^ low k b := by
  rw [low, BitVec.setWidth_xor, BitVec.setWidth_xor]
  rfl

theorem low_setWidth {k : Nat} (b : BitVec k) : low k (b.setWidth w) = b.setWidth w := by
  refine BitVec.eq_of_getLsbD_eq fun i hi => ?_
  rw [getLsbD_low, BitVec.getLsbD_setWidth]
  by_cases h : i < k
  · simp [h]
  · simp [h, BitVec.getLsbD_of_ge b i (Nat.le_of_not_lt h)]

/-- The low bits, by a mask. -/
theorem low_eq_and (k : Nat) (c : BitVec w) : low k c = c &&& BitVec.ofNat w (2 ^ k - 1) := by
  refine BitVec.eq_of_getLsbD_eq fun i hi => ?_
  rw [getLsbD_low, BitVec.getLsbD_and, BitVec.getLsbD_ofNat, Nat.testBit_two_pow_sub_one,
    decide_eq_true hi, Bool.true_and, Bool.and_comm]

/-- A register whose low bits are clear is only shifted down. -/
theorem iterate_shift_clear {k : Nat} {c : BitVec w} (h : ∀ i, i < k → c.getLsbD i = false) :
    (shift poly)^[k] c = c >>> k := by
  induction k with
  | zero => rw [BitVec.ushiftRight_zero]; rfl
  | succ k ih =>
      have hlow : (c >>> k).getLsbD 0 = false := by
        rw [BitVec.getLsbD_ushiftRight]
        exact h k (Nat.lt_succ_self k)
      rw [Function.iterate_succ_apply', ih fun i hi => h i (Nat.lt_succ_of_lt hi), shift, hlow,
        if_neg Bool.false_ne_true, ← BitVec.shiftRight_add]

/-- **A table of the low bits**: `k` shifts depend on them alone, but for the shift down. -/
theorem iterate_shift_low (k : Nat) (c : BitVec w) :
    (shift poly)^[k] c = (shift poly)^[k] (low k c) ^^^ c >>> k := by
  have hsplit : c = low k c ^^^ (c ^^^ low k c) := by
    rw [BitVec.xor_comm c, ← BitVec.xor_assoc, BitVec.xor_self, BitVec.zero_xor]
  have hclear : ∀ i, i < k → (c ^^^ low k c).getLsbD i = false := fun i hi => by simp [hi]
  have hdown : (c ^^^ low k c) >>> k = c >>> k := by
    refine BitVec.eq_of_getLsbD_eq fun i _ => ?_
    simp [Nat.not_lt.mpr (Nat.le_add_right k i)]
  calc (shift poly)^[k] c
      = (shift poly)^[k] (low k c) ^^^ (shift poly)^[k] (c ^^^ low k c) := by
        rw [← iterate_shift_xor, ← hsplit]
    _ = (shift poly)^[k] (low k c) ^^^ c >>> k := by rw [iterate_shift_clear hclear, hdown]

/-! ### Bursts -/

/-- The two messages differ, and in at most `n` consecutive bits. -/
def Burst (n : Nat) (m m' : List Bool) : Prop :=
  ∃ before burst burst' after, m = before ++ (burst ++ after) ∧ m' = before ++ (burst' ++ after) ∧
    burst.length = burst'.length ∧ burst.length ≤ n ∧ burst ≠ burst'

section ConstantTerm

variable (hpoly : poly.msb = true)
include hpoly

/-- Whether the polynomial was added shows at the top. -/
theorem msb_shift (c : BitVec w) : (shift poly c).msb = c.getLsbD 0 := by
  have hdown : (c >>> 1).msb = false := by
    rw [BitVec.msb_ushiftRight]
    simp
  unfold shift
  split
  · rename_i h; rw [BitVec.msb_xor, hdown, hpoly, h]; rfl
  · rename_i h; rw [hdown]; simpa using h

theorem shift_injective : Function.Injective (shift poly) := by
  intro a b h
  have hbit : a.getLsbD 0 = b.getLsbD 0 := by rw [← msb_shift hpoly, h, msb_shift hpoly]
  have hrest : a >>> 1 = b >>> 1 := by
    unfold shift at h
    rw [← hbit] at h
    split at h
    · exact BitVec.xor_left_inj poly |>.mp h
    · exact h
  refine BitVec.eq_of_getLsbD_eq fun i _ => ?_
  cases i with
  | zero => exact hbit
  | succ i =>
      have := congrArg (fun x => x.getLsbD i) hrest
      simpa [Nat.add_comm] using this

theorem foldl_feed_injective (bits : List Bool) :
    Function.Injective fun c => bits.foldl (feed poly) c := by
  induction bits with
  | nil => exact fun _ _ h => h
  | cons b bits ih =>
      intro c c' h
      exact (BitVec.xor_left_inj (load w [b])).mp (shift_injective hpoly (ih h))

/-- **A burst no longer than the register** changes the CRC. -/
theorem crc_burst {init final : BitVec w} {m m' : List Bool} (h : Burst w m m') :
    crc poly init final m ≠ crc poly init final m' := by
  obtain ⟨before, burst, burst', after, rfl, rfl, hl, hle, hne⟩ := h
  intro he
  simp only [crc, List.foldl_append] at he
  generalize before.foldl (feed poly) init = c at he
  have hburst := foldl_feed_injective hpoly after ((BitVec.xor_left_inj final).mp he)
  rw [foldl_feed hle, foldl_feed (Nat.le_trans (Nat.le_of_eq hl.symm) hle), ← hl] at hburst
  have hload := (shift_injective hpoly).iterate _ hburst
  exact hne (load_inj hl hle ((BitVec.xor_right_inj _).mp hload))

end ConstantTerm

end CLib.Crc
