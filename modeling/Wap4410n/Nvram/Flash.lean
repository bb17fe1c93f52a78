import Mathlib.Logic.Function.Iterate
import Wap4410n.Nvram.Shadow

/-!
# Nvram — the flash partition

`nvram_commit` writes a header (magic, length, CRC) at the start of the partition and the shadow
after `NVRAM_HEADER_SIZE` bytes; `nvram_load` reads them back into the shadow.  Neither looks at
what `read`, `write` or `lseek` returns.  `header` lives on the stack: what a short read leaves in
it is what the stack held.

A `long` and a pointer have 32 bits, most significant byte first, and `char` is signed.
-/

namespace Wap4410n.Nvram

open CLib

/-! ### `crc32` -/

/-- One round of the loop that fills `crcTable`. -/
def crcBit (crc : UInt32) : UInt32 :=
  if crc &&& 1 ≠ 0 then (crc >>> 1) ^^^ 0xEDB88320 else crc >>> 1

/-- `crcTable` -/
def crcTable : List UInt32 := (List.range 256).map fun i => crcBit^[8] (UInt32.ofNat i)

/-- One round of the loop over the data; the byte is a signed `char`. -/
def crcStep (crc : UInt32) (b : Byte) : UInt32 :=
  ((crc >>> 8) &&& 0x00FFFFFF) ^^^
    crcTable.getD ((crc ^^^ b.toInt8.toInt32.toUInt32) &&& 0xFF).toNat 0

/-- `while( length-- > 0)` of `crc32`. -/
def crcLoop : Nat → List Byte → UInt32 → Run Obj UInt32
  | 0, _, crc => .ok crc
  | _ + 1, [], _ => .error (.outside .data)
  | n + 1, b :: data, crc => crcLoop n data (crcStep crc b)

/-- `crc32`: a length that is not positive reads nothing. -/
def crc32 (data : Ptr Obj) (length : Int) : Run Obj UInt32 := do
  if length ≤ 0 then return 0xFFFFFFFF ^^^ 0xFFFFFFFF
  let crc ← crcLoop length.toNat (← data.bytes) 0xFFFFFFFF
  return crc ^^^ 0xFFFFFFFF

/-- The CRC of a list of bytes. -/
def crcOf (data : List Byte) : UInt32 := data.foldl crcStep 0xFFFFFFFF ^^^ 0xFFFFFFFF

theorem crcLoop_eq {n : Nat} {data : List Byte} {crc : UInt32} :
    crcLoop n data crc =
      if n ≤ data.length then .ok ((data.take n).foldl crcStep crc)
      else .error (.outside .data) := by
  induction n generalizing data crc with
  | zero => simp [crcLoop]
  | succ n ih =>
      cases data with
      | nil => simp [crcLoop]
      | cons b data => simp [crcLoop, ih]

/-- A CRC of bytes that are there. -/
theorem crc32_take {data : List Byte} {n : Nat} (h : n ≤ data.length) :
    crc32 ⟨.data, some data⟩ n = .ok (crcOf (data.take n)) := by
  unfold crc32
  by_cases hn : n = 0
  · subst hn; rfl
  · simp [hn, Ptr.bytes, crcLoop_eq, h, crcOf]

theorem crc32_length (data : List Byte) :
    crc32 ⟨.data, some data⟩ data.length = .ok (crcOf data) := by
  rw [crc32_take (Nat.le_refl _), List.take_length]

/-- A CRC that runs past the bytes read stops at a fault. -/
theorem crc32_outside {data : List Byte} {n : Nat} (h : data.length < n) :
    crc32 ⟨.data, some data⟩ n = .error (.outside .data) := by
  have h₁ : n ≠ 0 := by omega
  have h₂ : ¬ n ≤ data.length := by omega
  simp [crc32, h₁, Ptr.bytes, crcLoop_eq, h₂]

theorem crc32_null {n : Nat} (h : 0 < n) :
    crc32 ⟨.data, none⟩ n = .error (.null .data) := by
  have h₁ : n ≠ 0 := by omega
  simp [crc32, h₁, Ptr.bytes]

theorem crc32_nonpos (p : Ptr Obj) {i : Int} (h : i ≤ 0) : crc32 p i = .ok 0 := by
  simp [crc32, h]

/-! ### The header -/

/-- `NVRAM_MAGIC` -/
def nvramMagic : UInt32 := 0x004E4F52

/-- `nvram_header_t` -/
structure Header where
  magic : UInt32
  len : UInt32
  crc : UInt32
  reserved : UInt32
deriving DecidableEq

/-- `sizeof(nvram_header_t)` -/
def headerSize : Nat := 16

/-- The header as it lies in memory. -/
def Header.mem (h : Header) : List Byte :=
  be32 h.magic ++ (be32 h.len ++ (be32 h.crc ++ be32 h.reserved))

/-- The header that lies at `m`. -/
def Header.ofMem (m : List Byte) : Header where
  magic := ofBe32 m
  len := ofBe32 (m.drop 4)
  crc := ofBe32 (m.drop 8)
  reserved := ofBe32 (m.drop 12)

@[simp] theorem Header.length_mem (h : Header) : h.mem.length = headerSize := rfl

theorem Header.length_mem_le (h : Header) : h.mem.length ≤ intMax := by
  rw [Header.length_mem]
  decide

@[simp] theorem Header.ofMem_mem (h : Header) (r : List Byte) : Header.ofMem (h.mem ++ r) = h := by
  have e₁ : (h.mem ++ r).drop 4 = be32 h.len ++ (be32 h.crc ++ (be32 h.reserved ++ r)) := rfl
  have e₂ : (h.mem ++ r).drop 8 = be32 h.crc ++ (be32 h.reserved ++ r) := rfl
  have e₃ : (h.mem ++ r).drop 12 = be32 h.reserved ++ r := rfl
  have e₀ : h.mem ++ r = be32 h.magic ++ (be32 h.len ++ (be32 h.crc ++ (be32 h.reserved ++ r))) :=
    rfl
  rw [Header.ofMem, e₁, e₂, e₃, e₀]
  simp only [ofBe32_be32]

theorem Header.mem_ofMem {m : List Byte} (hm : m.length = headerSize) :
    (Header.ofMem m).mem = m := by
  have word : ∀ i, i + 4 ≤ headerSize → be32 (ofBe32 (m.drop i)) = (m.drop i).take 4 :=
    fun i hi => by
    have hl : ((m.drop i).take 4).length = 4 := by
      rw [List.length_take, List.length_drop, hm]
      omega
    rw [← ofBe32_take, be32_ofBe32 hl]
  have h₀ := word 0 (by decide)
  rw [List.drop_zero] at h₀
  simp only [Header.mem, Header.ofMem, h₀, word 4 (by decide), word 8 (by decide),
    word 12 (by decide)]
  rw [List.take_of_length_le (l := m.drop 12) (by rw [List.length_drop, hm]; decide)]
  have step : ∀ i, (m.drop i).take 4 ++ m.drop (i + 4) = m.drop i := fun i => by
    rw [← List.drop_drop, List.take_append_drop]
  rw [step 8, step 4]
  exact step 0

/-- A load looks at the magic number, the length and the CRC, which are the first 12 bytes. -/
theorem Header.take_mem_eq_iff {h h' : Header} :
    h.mem.take 12 = h'.mem.take 12 ↔ h.magic = h'.magic ∧ h.len = h'.len ∧ h.crc = h'.crc := by
  have e : ∀ h : Header, h.mem.take 12 = be32 h.magic ++ (be32 h.len ++ (be32 h.crc ++ [])) :=
    fun _ => rfl
  rw [e, e, be32_append_inj, be32_append_inj, be32_append_inj]
  simp

/-- An `unsigned long` passed where an `int` is expected. -/
def asInt (x : UInt32) : Int := x.toInt32.toInt

theorem asInt_of_lt {x : UInt32} (h : x.toNat < 2 ^ 31) : asInt x = x.toNat := by
  show x.toBitVec.toInt = _
  rw [BitVec.toInt_eq_toNat_cond]
  have : x.toBitVec.toNat = x.toNat := rfl
  rw [this, if_pos (by omega)]

theorem asInt_neg {x : UInt32} (h : 2 ^ 31 ≤ x.toNat) : asInt x < 0 := by
  have hx := x.toNat_lt
  show x.toBitVec.toInt < _
  rw [BitVec.toInt_eq_toNat_cond]
  have : x.toBitVec.toNat = x.toNat := rfl
  rw [this, if_neg (by omega)]
  omega

/-! ### `nvram_load` -/

/-- What one `read` of the flash brings: nothing where it fails. -/
def readFlash (sys : Sys) (fd : Fd) (flash : Device nvramSize) (count : Nat) : List Byte :=
  if sys.reads .flash then (fd.read flash.bytes count).getD [] else []

/-- `header` after `read(fd1, &header, sizeof(nvram_header_t))`. -/
def loadHeader (sys : Sys) (flash : Device nvramSize) : Header :=
  let header := (Block.fresh headerSize).store 0 (readFlash sys ⟨.rdonly, 0⟩ flash headerSize)
  Header.ofMem (header.contents sys.junk headerSize)

/-- `data` after `data=malloc(header.len+1); read(fd1, data, header.len+1);`. -/
def loadData (sys : Sys) (header : Header) (flash : Device nvramSize) : Option Block :=
  let size := (header.len + 1).toNat
  if sys.malloc size then
    some ((Block.fresh size).store 0 (readFlash sys ⟨.rdonly, nvramHeaderSize⟩ flash size))
  else none

/-- `nvram_load`: its return value, and the files after it. -/
def nvramLoad (sys : Sys) (fs : Files) : Run Obj (Int × Files) := do
  if !sys.opens .flash then return (nvramFlashErr, fs)
  let header := loadHeader sys fs.flash
  if header.magic ≠ nvramMagic then return (nvramMagicErr, fs)
  let data := (loadData sys header fs.flash).map Block.bytes
  let crc ← crc32 ⟨.data, data⟩ (asInt header.len)
  if crc ≠ header.crc then return (nvramCrcErr, fs)
  return (nvramSuccess,
    { fs with shadow := writeFileBin sys fs.shadow (data.getD []) (asInt header.len) })

/-! ### `nvram_commit` -/

/-- The header `nvram_commit` writes; `reserved` is what the stack held. -/
def commitHeader (sys : Sys) (data : List Byte) (crc : UInt32) : Header where
  magic := nvramMagic
  len := UInt32.ofNat data.length
  crc := crc
  reserved := ofBe32 ((List.range 4).map fun i => sys.junk (12 + i))

/-- `nvram_commit`: its return value, and the files after it. -/
def nvramCommit (sys : Sys) (fs : Files) : Run Obj (Int × Files) := do
  if !sys.creates .flash then return (nvramFlashErr, fs)
  let fd : Fd := ⟨.wronly, 0⟩
  -- `len <= 0` where the call fails and where the file is empty
  let data := (readFileBin sys .shadow fs.shadow).getD []
  if data.length = 0 then return (nvramShadowErr, fs)
  let header := commitHeader sys data (← crc32 ⟨.data, some data⟩ data.length)
  let flash := fd.write (sys.writes .header) fs.flash header.mem
  let fd := fd.lseek nvramHeaderSize
  let flash := fd.write (sys.writes .data) flash data
  -- check data
  let fd := fd.lseek nvramHeaderSize
  let data :=
    match fd.read flash.bytes data.length with
    | some got => splice data 0 got
    | none => data
  let crc ← crc32 ⟨.data, some data⟩ data.length
  if header.crc ≠ crc then return (nvramFlashErr, { fs with flash := flash })
  return (nvramSuccess, { fs with flash := flash })

end Wap4410n.Nvram
