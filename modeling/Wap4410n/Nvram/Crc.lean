import Wap4410n.Nvram.Durability
import Wap4410n.Support.Crc

/-!
# Nvram — the checksum of the image

`crc32` takes the data a byte at a time, through a table it fills on every call, and `nvram_load`
compares its value with the one in the header.  `crcReference` is the checksum it means: the
reflected CRC-32, a bit at a time.  The sign of a `char` does not show, since only the low eight
bits of the index are used.

* `crcOf_eq`: the two agree on all data; a round of the loop is eight bits (`toBitVec_crcStep`).
* `crcOf_burst`: a change within 32 consecutive bits gives another checksum.
* `crc32_reference`: both, for `crc32` and for the load of a partition.
-/

namespace Wap4410n.Nvram

open CLib

/-- The polynomial of CRC-32, reflected. -/
def crcPoly : BitVec 32 := 0xEDB88320#32

/-- The bits of the data in the order of a reflected CRC: of each byte the lowest first. -/
def imageBits (data : List Byte) : List Bool := data.flatMap Crc.bitsOf

/-- CRC-32, bit by bit. -/
def crcReference (data : List Byte) : UInt32 :=
  ⟨Crc.crc crcPoly 0xFFFFFFFF#32 0xFFFFFFFF#32 (imageBits data)⟩

example : crcReference (ascii ['1', '2', '3', '4', '5', '6', '7', '8', '9']) = 0xCBF43926 := by
  decide +kernel

/-! ### The table -/

theorem toBitVec_crcBit (crc : UInt32) :
    (crcBit crc).toBitVec = Crc.shift crcPoly crc.toBitVec := by
  have hlow : crc &&& 1 ≠ 0 ↔ crc.toBitVec.getLsbD 0 = true := by
    rw [ne_eq, ← UInt32.toBitVec_inj, UInt32.toBitVec_and]
    show ¬ crc.toBitVec &&& 1#32 = 0#32 ↔ _
    rw [BitVec.and_one_eq_setWidth_ofBool_getLsbD]
    cases crc.toBitVec.getLsbD 0 <;> decide
  unfold crcBit Crc.shift
  simp only [hlow]
  split <;> rfl

theorem toBitVec_iterate_crcBit (n : Nat) (crc : UInt32) :
    (crcBit^[n] crc).toBitVec = (Crc.shift crcPoly)^[n] crc.toBitVec := by
  induction n generalizing crc with
  | zero => rfl
  | succ n ih => rw [Function.iterate_succ_apply, ih, toBitVec_crcBit]; rfl

/-- An entry of the table is its index, shifted eight times. -/
theorem getD_crcTable {i : UInt32} (h : i.toNat < 256) :
    crcTable.getD i.toNat 0 = crcBit^[8] i := by
  simp [crcTable, h]

/-! ### A byte -/

/-- A signed `char` has the low bits of the byte. -/
theorem low_char (b : Byte) :
    Crc.low 8 b.toInt8.toInt32.toUInt32.toBitVec = b.toBitVec.setWidth 32 := by
  have hchar : b.toInt8.toInt32.toUInt32.toBitVec = b.toBitVec.signExtend 32 := rfl
  refine BitVec.eq_of_getLsbD_eq fun i hi => ?_
  rw [Crc.getLsbD_low, hchar, BitVec.getLsbD_signExtend, BitVec.getLsbD_setWidth]
  by_cases h : i < 8
  · simp [h]
  · simp [h, BitVec.getLsbD_of_ge b.toBitVec i (Nat.le_of_not_lt h)]

/-- The index into the table. -/
theorem toBitVec_index (crc : UInt32) (b : Byte) :
    ((crc ^^^ b.toInt8.toInt32.toUInt32) &&& 0xFF).toBitVec =
      Crc.low 8 (crc.toBitVec ^^^ b.toBitVec.setWidth 32) := by
  have hand : ((crc ^^^ b.toInt8.toInt32.toUInt32) &&& 0xFF).toBitVec =
      Crc.low 8 (crc.toBitVec ^^^ b.toInt8.toInt32.toUInt32.toBitVec) := by
    rw [Crc.low_eq_and]
    rfl
  rw [hand, Crc.low_xor, low_char, Crc.low_xor, Crc.low_setWidth]

/-- What is left of the register: the byte lies below it. -/
theorem toBitVec_rest (crc : UInt32) (b : Byte) :
    ((crc >>> 8) &&& 0x00FFFFFF).toBitVec = (crc.toBitVec ^^^ b.toBitVec.setWidth 32) >>> 8 := by
  have hand : ((crc >>> 8) &&& 0x00FFFFFF).toBitVec = Crc.low 24 (crc.toBitVec >>> 8) := by
    rw [Crc.low_eq_and]
    rfl
  refine hand.trans (BitVec.eq_of_getLsbD_eq fun i hi => ?_)
  rw [Crc.getLsbD_low, BitVec.getLsbD_ushiftRight, BitVec.getLsbD_ushiftRight, BitVec.getLsbD_xor,
    BitVec.getLsbD_setWidth, BitVec.getLsbD_of_ge b.toBitVec (8 + i) (Nat.le_add_right 8 i),
    Bool.and_false, Bool.xor_false]
  by_cases h : i < 24
  · rw [decide_eq_true h, Bool.true_and]
  · rw [BitVec.getLsbD_of_ge crc.toBitVec (8 + i) (by omega), Bool.and_false]

/-- **A round of the loop** is eight bits of the data. -/
theorem toBitVec_crcStep (crc : UInt32) (b : Byte) :
    (crcStep crc b).toBitVec = (Crc.bitsOf b).foldl (Crc.feed crcPoly) crc.toBitVec := by
  have hlt : ((crc ^^^ b.toInt8.toInt32.toUInt32) &&& 0xFF).toNat < 256 := by
    rw [UInt32.toNat_and]
    exact Nat.lt_of_le_of_lt Nat.and_le_right (by decide)
  have hle : (Crc.bitsOf b).length ≤ 32 := by rw [Crc.length_bitsOf]; decide
  rw [Crc.foldl_feed hle, Crc.length_bitsOf, Crc.load_bitsOf, Crc.iterate_shift_low, crcStep,
    getD_crcTable hlt, UInt32.toBitVec_xor, toBitVec_iterate_crcBit, toBitVec_index, toBitVec_rest]
  exact BitVec.xor_comm _ _

/-! ### The data -/

/-- **The checksum is the reference**, whatever the data. -/
theorem crcOf_eq (data : List Byte) : crcOf data = crcReference data := by
  have hloop : ∀ crc : UInt32, (data.foldl crcStep crc).toBitVec =
      (imageBits data).foldl (Crc.feed crcPoly) crc.toBitVec := by
    induction data with
    | nil => exact fun _ => rfl
    | cons b data ih =>
        intro crc
        have hbits : imageBits (b :: data) = Crc.bitsOf b ++ imageBits data := List.flatMap_cons
        rw [List.foldl_cons, ih, toBitVec_crcStep, hbits, List.foldl_append]
  exact UInt32.toBitVec_inj.mp (congrArg (· ^^^ 0xFFFFFFFF#32) (hloop 0xFFFFFFFF))

/-- **A burst** gives another checksum. -/
theorem crcOf_burst {data data' : List Byte} (h : Crc.Burst 32 (imageBits data) (imageBits data')) :
    crcOf data ≠ crcOf data' := by
  rw [crcOf_eq, crcOf_eq]
  exact fun e => Crc.crc_burst (by decide) h (congrArg UInt32.toBitVec e)

/-! ### The load -/

/-- The checksum `nvram_load` compares with the one in the header. -/
def loadChecksum (sys : Sys) (flash : Device nvramSize) : Run Obj UInt32 :=
  crc32 ⟨.data, (loadData sys (loadHeader sys flash) flash).map Block.bytes⟩
    (asInt (loadHeader sys flash).len)

/-- A loadable image has the checksum of its bytes. -/
theorem loadChecksum_eq {sys : Sys} (hs : sys.ServesFiles) {flash : Device nvramSize}
    (h : Loadable sys flash) : loadChecksum sys flash = .ok (crcReference (flashData flash)) := by
  rw [loadChecksum, loadHeader_eq hs, asInt_loadable h, (loadData_loadable hs h).2, crcOf_eq]

/-- A load that succeeds found its magic number and the checksum of the image in the header. -/
theorem accepted_of_success {sys : Sys} (hs : sys.ServesFiles) {fs saved : Files}
    (hl : Loadable sys fs.flash) (h : nvramLoad sys fs = .ok (nvramSuccess, saved)) :
    (flashHeader fs.flash).magic = nvramMagic ∧
      crcOf (flashData fs.flash) = (flashHeader fs.flash).crc := by
  have hno : ∀ {e : Int} {x : Files}, e ≠ nvramSuccess →
      (.ok (e, x) : Run Obj (Int × Files)) ≠ .ok (nvramSuccess, saved) := fun hne he =>
    hne (congrArg Prod.fst (Except.ok.inj he))
  by_cases hmagic : (flashHeader fs.flash).magic = nvramMagic
  · refine ⟨hmagic, ?_⟩
    rw [nvramLoad_loadable hs hmagic hl] at h
    by_contra hcrc
    rw [if_neg hcrc] at h
    exact hno (by decide) h
  · rw [nvramLoad_magic hs hmagic] at h
    exact absurd h (hno (by decide))

/-- **`crc32` is the reference CRC-32** of the bytes it is given, and a change of the stored image
within 32 consecutive bits gives the load another checksum: where the header fitted the one image
it refuses the other. -/
theorem crc32_reference {sys : Sys} (hs : sys.ServesFiles) :
    (∀ (data : List Byte) (length : Nat), length ≤ data.length →
      crc32 ⟨.data, some data⟩ length = .ok (crcReference (data.take length))) ∧
    ∀ fs fs' : Files, Loadable sys fs.flash → flashHeader fs'.flash = flashHeader fs.flash →
      Crc.Burst 32 (imageBits (flashData fs.flash)) (imageBits (flashData fs'.flash)) →
      loadChecksum sys fs.flash = .ok (crcReference (flashData fs.flash)) ∧
      loadChecksum sys fs'.flash = .ok (crcReference (flashData fs'.flash)) ∧
      crcReference (flashData fs.flash) ≠ crcReference (flashData fs'.flash) ∧
      ∀ saved, nvramLoad sys fs = .ok (nvramSuccess, saved) →
        nvramLoad sys fs' = .ok (nvramCrcErr, fs') := by
  refine ⟨fun data length h => by rw [crc32_take h, crcOf_eq], fun fs fs' hl hheader hburst => ?_⟩
  have hl' : Loadable sys fs'.flash := by
    unfold Loadable at hl ⊢
    rwa [hheader]
  have hne := crcOf_burst hburst
  refine ⟨loadChecksum_eq hs hl, loadChecksum_eq hs hl', by rwa [← crcOf_eq, ← crcOf_eq],
    fun saved hsaved => ?_⟩
  obtain ⟨hmagic, hcrc⟩ := accepted_of_success hs hl hsaved
  rw [nvramLoad_loadable hs (hheader ▸ hmagic) hl', hheader, ← hcrc, if_neg hne.symm]

/-- A partition that holds an image under a given checksum. -/
def imaged (crc : UInt32) (image : List Byte) : Files where
  flash := ((Device.filled nvramSize 0).write 0
    (Header.mem ⟨nvramMagic, UInt32.ofNat image.length, crc, 0⟩)).write nvramHeaderSize image
  shadow := none
  default := none

/-- The image `a=`, and the second bit of its first byte turned. -/
theorem crc32_reference_oneBit :
    crc32 ⟨.data, some (ascii ['a', '='])⟩ 2 = .ok (crcReference (ascii ['a', '='])) ∧
      nvramLoad Sys.ideal (imaged (crcOf (ascii ['a', '='])) (ascii ['c', '='])) =
        .ok (nvramCrcErr, imaged (crcOf (ascii ['a', '='])) (ascii ['c', '='])) := by
  have hs := Sys.serves_ideal.toServesFiles
  let fs := imaged (crcOf (ascii ['a', '='])) (ascii ['a', '='])
  have hl : Loadable Sys.ideal fs.flash := ⟨by decide +kernel, .inr rfl⟩
  have hload : nvramLoad Sys.ideal fs =
      .ok (nvramSuccess, { fs with shadow := some (flashData fs.flash) }) := by
    rw [nvramLoad_loadable hs (by decide +kernel) hl, if_pos (by decide +kernel)]
  refine ⟨(crc32_reference hs).1 _ 2 (by decide),
    ((crc32_reference hs).2 fs _ hl (by decide +kernel) ?_).2.2.2 _ hload⟩
  exact ⟨[true], [false], [true], (imageBits (ascii ['a', '='])).drop 2, by decide +kernel,
    by decide +kernel, rfl, by decide, by decide⟩

end Wap4410n.Nvram
