import Wap4410n.Nvram.Flash

/-!
# Nvram — what a commit and a load guarantee

`nvram_load` takes the length of the image from the flash as it stands, and `nvram_commit` checks
what it wrote through a descriptor opened `O_WRONLY`: the read fails, the buffer still holds the
shadow, and the check compares the shadow's CRC with itself.

* `nvramCommit_eq`: on a shadow that is not empty a commit succeeds, whatever its two writes did.
* `durable_iff`: a commit that succeeded is recovered by the next load just when every byte its
  writes left out already stood on the flash.
* `nvramLoad_cases`: what a load does, by the header.
* `loadsSafely_iff`: a load is safe and atomic just when that length lies on the partition and
  memory for it is served, or is negative as an `int` with a CRC that is not zero.
-/

namespace Wap4410n.Nvram

open CLib

/-! ### Reading the flash -/

/-- The header the flash holds. -/
def flashHeader (flash : Device nvramSize) : Header := Header.ofMem (flash.slice 0 headerSize)

/-- The image the flash holds: the bytes after the header, as many as it says, as far as the
partition goes. -/
def flashData (flash : Device nvramSize) : List Byte :=
  flash.slice nvramHeaderSize (flashHeader flash).len.toNat

/-- The longest image the partition has room for. -/
theorem nvramCapacity : nvramSize - nvramHeaderSize = 65496 := by decide

theorem lt_intMax {n : Nat} : n < 2 ^ 31 ↔ n ≤ intMax := by
  unfold intMax
  omega

theorem readFlash_eq {sys : Sys} (hs : sys.ServesFiles) (flash : Device nvramSize) {pos n : Nat}
    (h : n ≤ intMax) : readFlash sys ⟨.rdonly, pos⟩ flash n = flash.slice pos n := by
  simp [readFlash, hs.reads, Fd.read_rdonly h, Device.slice]

theorem loadHeader_eq {sys : Sys} (hs : sys.ServesFiles) (flash : Device nvramSize) :
    loadHeader sys flash = flashHeader flash := by
  have hl : (flash.slice 0 headerSize).length = headerSize := by
    rw [Device.length_slice]; rfl
  have hb : ((Block.fresh headerSize).store 0 (flash.slice 0 headerSize)).bytes =
      flash.slice 0 headerSize := Block.bytes_store_end (Block.fresh headerSize) _
  unfold loadHeader flashHeader
  rw [readFlash_eq hs flash (by decide)]
  simp only [Block.contents_of_le (Nat.le_of_eq (hl.symm.trans (by rw [hb]))), hb]
  rw [List.take_of_length_le (Nat.le_of_eq hl)]

/-- The block a load reads into never overflows: `read` is given its size. -/
theorem loadData_inBounds {sys : Sys} {header : Header} {flash : Device nvramSize} {b : Block}
    (h : loadData sys header flash = some b) : b.InBounds := by
  have hread : ∀ fd n, (readFlash sys fd flash n).length ≤ n := fun fd n => by
    unfold readFlash Fd.read
    split
    · split
      · simp
      · exact List.length_take_le _ _
    · simp
  simp only [loadData, Option.ite_none_right_eq_some, Option.some.injEq] at h
  obtain ⟨-, rfl⟩ := h
  rw [Block.inBounds_store (Nat.zero_le _)]
  exact ⟨Block.inBounds_fresh _, by simpa using hread _ _⟩

theorem toNat_succ {x : UInt32} (h : x.toNat < 2 ^ 31) : (x + 1).toNat = x.toNat + 1 := by
  rw [UInt32.toNat_add]
  exact Nat.mod_eq_of_lt (by simp; omega)

/-- The bytes a load reads: one more than the image, as far as the partition goes. -/
theorem loadData_eq {sys : Sys} (hs : sys.ServesFiles) (header : Header)
    (flash : Device nvramSize) (hlen : header.len.toNat + 1 ≤ intMax) :
    (loadData sys header flash).map Block.bytes =
      if sys.malloc (header.len.toNat + 1) then
        some (flash.slice nvramHeaderSize (header.len.toNat + 1))
      else none := by
  unfold loadData
  rw [toNat_succ (by unfold intMax at hlen; omega)]
  by_cases hm : sys.malloc (header.len.toNat + 1) = true
  · simp only [hm, if_true, Option.map_some, readFlash_eq hs flash hlen]
    exact congrArg some (Block.bytes_store_end (Block.fresh _) _)
  · simp [hm]

/-- However long the image is said to be, no more is read than the partition holds. -/
theorem length_loadData_le {sys : Sys} {header : Header} {flash : Device nvramSize} {b : Block}
    (h : loadData sys header flash = some b) :
    b.bytes.length ≤ nvramSize - nvramHeaderSize := by
  have hread : ∀ n, (readFlash sys ⟨.rdonly, nvramHeaderSize⟩ flash n).length ≤
      nvramSize - nvramHeaderSize := fun n => by
    unfold readFlash Fd.read
    split
    · split
      · simp
      · rw [Option.getD_some, List.length_take, List.length_drop, flash.size_eq]
        exact Nat.min_le_right _ _
    · simp
  simp only [loadData, Option.ite_none_right_eq_some, Option.some.injEq] at h
  obtain ⟨-, rfl⟩ := h
  have := Block.bytes_store_end (Block.fresh (header.len + 1).toNat)
    (readFlash sys ⟨.rdonly, nvramHeaderSize⟩ flash (header.len + 1).toNat)
  rw [Block.bytes_fresh, List.nil_append, List.length_nil] at this
  rw [this]
  exact hread _

/-- The image lies on the partition, and memory for it is served or not needed. -/
def Loadable (sys : Sys) (flash : Device nvramSize) : Prop :=
  (flashHeader flash).len.toNat ≤ nvramSize - nvramHeaderSize ∧
    ((flashHeader flash).len.toNat = 0 ∨ sys.malloc ((flashHeader flash).len.toNat + 1) = true)

theorem writeFileBin_nat {sys : Sys} (hs : sys.ServesFiles) (f : Option (List Byte))
    (data : List Byte) (n : Nat) : writeFileBin sys f data n = some (data.take n) := by
  have h : ¬ (n : Int) < 0 := by omega
  simp [writeFileBin, hs.creates, hs.shadow, h]

/-! ### A load, by the length in the header -/

section Load

variable {sys : Sys} {fs : Files}

theorem nvramLoad_magic (hs : sys.ServesFiles) (h : (flashHeader fs.flash).magic ≠ nvramMagic) :
    nvramLoad sys fs = .ok (nvramMagicErr, fs) := by
  simp [nvramLoad, hs.opens, loadHeader_eq hs, h]

/-- Past the magic number a load is its checksum: where that faults so does the load. -/
theorem nvramLoad_bind (hs : sys.ServesFiles) (h : (flashHeader fs.flash).magic = nvramMagic) :
    nvramLoad sys fs = do
      let data := (loadData sys (flashHeader fs.flash) fs.flash).map Block.bytes
      let crc ← crc32 ⟨.data, data⟩ (asInt (flashHeader fs.flash).len)
      if crc = (flashHeader fs.flash).crc then
        return (nvramSuccess, { fs with
          shadow := writeFileBin sys fs.shadow (data.getD []) (asInt (flashHeader fs.flash).len) })
      else return (nvramCrcErr, fs) := by
  simp only [nvramLoad, hs.opens, loadHeader_eq hs, h, Bool.not_true, Bool.false_eq_true, if_false,
    ne_eq, not_true_eq_false]
  refine congrArg _ (funext fun crc => ?_)
  by_cases hc : crc = (flashHeader fs.flash).crc
  · rw [if_pos hc, if_neg (fun hn => hn hc)]
  · rw [if_neg hc, if_pos hc]

/-- The first `len` of the bytes read are the image, whether memory was asked for or not needed, and
so is what the CRC goes over. -/
theorem loadData_loadable (hs : sys.ServesFiles) {flash : Device nvramSize}
    (hl : Loadable sys flash) :
    (((loadData sys (flashHeader flash) flash).map Block.bytes).getD []).take
        (flashHeader flash).len.toNat = flashData flash ∧
      crc32 ⟨.data, (loadData sys (flashHeader flash) flash).map Block.bytes⟩
        ((flashHeader flash).len.toNat : Int) = .ok (crcOf (flashData flash)) := by
  obtain ⟨hlen, hm⟩ := hl
  have hcap := nvramCapacity ▸ hlen
  have hdata := loadData_eq hs (flashHeader flash) flash (lt_intMax.mp (by omega))
  rw [hdata]
  by_cases hserved : sys.malloc ((flashHeader flash).len.toNat + 1) = true
  · have hle : (flashHeader flash).len.toNat ≤
        (flash.slice nvramHeaderSize ((flashHeader flash).len.toNat + 1)).length := by
      rw [Device.length_slice]
      exact Nat.le_min.mpr ⟨Nat.le_succ _, hlen⟩
    have htake : (flash.slice nvramHeaderSize ((flashHeader flash).len.toNat + 1)).take
        (flashHeader flash).len.toNat = flashData flash := by
      rw [flashData, Device.slice, List.take_take, Nat.min_eq_left (Nat.le_succ _), Device.slice]
    rw [if_pos hserved]
    exact ⟨htake, by rw [crc32_take hle, htake]⟩
  · have h₀ := hm.resolve_right hserved
    have he : flashData flash = [] := by rw [flashData, h₀]; rfl
    rw [if_neg hserved, h₀, he]
    exact ⟨rfl, rfl⟩

theorem asInt_loadable {flash : Device nvramSize} (hl : Loadable sys flash) :
    asInt (flashHeader flash).len = ((flashHeader flash).len.toNat : Int) := by
  have hcap := nvramCapacity ▸ hl.1
  exact asInt_of_lt (by omega)

/-- A loadable image, by its CRC. -/
theorem nvramLoad_loadable (hs : sys.ServesFiles) (h : (flashHeader fs.flash).magic = nvramMagic)
    (hl : Loadable sys fs.flash) :
    nvramLoad sys fs =
      if crcOf (flashData fs.flash) = (flashHeader fs.flash).crc then
        .ok (nvramSuccess, { fs with shadow := some (flashData fs.flash) })
      else .ok (nvramCrcErr, fs) := by
  obtain ⟨htake, hcrc⟩ := loadData_loadable hs hl
  simp only [nvramLoad_bind hs h, asInt_loadable hl, hcrc, writeFileBin_nat hs, htake, Run.ok_bind,
    Run.pure_eq]

/-- The length is negative as an `int`: nothing is checksummed, and the shadow is truncated where
the header's CRC is that of no bytes. -/
theorem nvramLoad_negative (hs : sys.ServesFiles) (h : (flashHeader fs.flash).magic = nvramMagic)
    (hlen : 2 ^ 31 ≤ (flashHeader fs.flash).len.toNat) :
    nvramLoad sys fs =
      if (flashHeader fs.flash).crc = 0 then .ok (nvramSuccess, { fs with shadow := some [] })
      else .ok (nvramCrcErr, fs) := by
  have hneg := asInt_neg hlen
  have hw : ∀ data, writeFileBin sys fs.shadow data (asInt (flashHeader fs.flash).len) = some [] :=
    fun data => by simp only [writeFileBin, hs.creates, if_true, hneg]
  simp only [nvramLoad_bind hs h, crc32_nonpos _ (Int.le_of_lt hneg), hw, Run.ok_bind, Run.pure_eq,
    eq_comm (a := (0 : UInt32))]

/-- The image is said to be longer than the partition: the CRC runs past the bytes read. -/
theorem nvramLoad_outside (hs : sys.ServesFiles) (h : (flashHeader fs.flash).magic = nvramMagic)
    (hlen : nvramSize - nvramHeaderSize < (flashHeader fs.flash).len.toNat)
    (hint : (flashHeader fs.flash).len.toNat < 2 ^ 31)
    (hm : sys.malloc ((flashHeader fs.flash).len.toNat + 1) = true) :
    nvramLoad sys fs = .error (.outside .data) := by
  obtain ⟨b, hb⟩ : ∃ b, loadData sys (flashHeader fs.flash) fs.flash = some b := by
    simp [loadData, toNat_succ hint, hm]
  have hle := length_loadData_le hb
  simp only [nvramLoad, hs.opens, loadHeader_eq hs, h, asInt_of_lt hint, hb, Option.map_some,
    crc32_outside (Nat.lt_of_le_of_lt hle hlen), Bool.not_true, Bool.false_eq_true, if_false,
    ne_eq, not_true_eq_false, Run.error_bind]

/-- Memory for the image is refused: the CRC goes through NULL. -/
theorem nvramLoad_null (hs : sys.ServesFiles) (h : (flashHeader fs.flash).magic = nvramMagic)
    (hlen : 0 < (flashHeader fs.flash).len.toNat)
    (hint : (flashHeader fs.flash).len.toNat < 2 ^ 31)
    (hm : sys.malloc ((flashHeader fs.flash).len.toNat + 1) = false) :
    nvramLoad sys fs = .error (.null .data) := by
  have hb : loadData sys (flashHeader fs.flash) fs.flash = none := by
    simp [loadData, toNat_succ hint, hm]
  simp only [nvramLoad, hs.opens, loadHeader_eq hs, h, asInt_of_lt hint, hb, Option.map_none,
    crc32_null hlen, Bool.not_true, Bool.false_eq_true, if_false, ne_eq, not_true_eq_false,
    Run.error_bind]

/-- **What a load does**, by the header. -/
theorem nvramLoad_cases (fs : Files) (hs : sys.ServesFiles) :
    (flashHeader fs.flash).magic ≠ nvramMagic ∧ nvramLoad sys fs = .ok (nvramMagicErr, fs) ∨
    (flashHeader fs.flash).magic = nvramMagic ∧
      (Loadable sys fs.flash ∧ nvramLoad sys fs =
          (if crcOf (flashData fs.flash) = (flashHeader fs.flash).crc then
            .ok (nvramSuccess, { fs with shadow := some (flashData fs.flash) })
          else .ok (nvramCrcErr, fs)) ∨
        2 ^ 31 ≤ (flashHeader fs.flash).len.toNat ∧ nvramLoad sys fs =
          (if (flashHeader fs.flash).crc = 0 then
            .ok (nvramSuccess, { fs with shadow := some [] })
          else .ok (nvramCrcErr, fs)) ∨
        ¬ Loadable sys fs.flash ∧ (flashHeader fs.flash).len.toNat < 2 ^ 31 ∧
          ∃ e, nvramLoad sys fs = .error e) := by
  by_cases hmagic : (flashHeader fs.flash).magic = nvramMagic
  · refine .inr ⟨hmagic, ?_⟩
    by_cases hl : Loadable sys fs.flash
    · exact .inl ⟨hl, nvramLoad_loadable hs hmagic hl⟩
    · by_cases hbig : 2 ^ 31 ≤ (flashHeader fs.flash).len.toNat
      · exact .inr (.inl ⟨hbig, nvramLoad_negative hs hmagic hbig⟩)
      · have hint := Nat.lt_of_not_le hbig
        refine .inr (.inr ⟨hl, hint, ?_⟩)
        cases hm : sys.malloc ((flashHeader fs.flash).len.toNat + 1) with
        | true =>
            have hlen := Nat.lt_of_not_le fun hlen => hl ⟨hlen, .inr hm⟩
            exact ⟨_, nvramLoad_outside hs hmagic hlen hint hm⟩
        | false =>
            have hpos : 0 < (flashHeader fs.flash).len.toNat := Nat.pos_of_ne_zero fun h₀ =>
              hl ⟨(Nat.le_of_eq h₀).trans (Nat.zero_le _), .inl h₀⟩
            exact ⟨_, nvramLoad_null hs hmagic hpos hint hm⟩
  · exact .inl ⟨hmagic, nvramLoad_magic hs hmagic⟩

/-- What a load needs to return `NVRAM_SUCCESS`. -/
structure Loads (sys : Sys) (flash : Device nvramSize) : Prop where
  opens : sys.opens .flash = true
  magic : (loadHeader sys flash).magic = nvramMagic
  crc : crc32 ⟨.data, (loadData sys (loadHeader sys flash) flash).map Block.bytes⟩
    (asInt (loadHeader sys flash).len) = .ok (loadHeader sys flash).crc

/-- The code of a load that returns. -/
theorem nvramLoad_returns {ret : Int} {fs' : Files} (h : nvramLoad sys fs = .ok (ret, fs')) :
    ret = nvramSuccess ↔ Loads sys fs.flash := by
  unfold nvramLoad at h
  dsimp only at h
  split at h
  · rename_i hopens
    cases h
    refine iff_of_false (by decide) fun hl => ?_
    rw [hl.opens] at hopens
    cases hopens
  · split at h
    · rename_i hmagic
      cases h
      exact iff_of_false (by decide) fun hl => hmagic hl.magic
    · rename_i hopens hmagic
      cases hcrc : crc32 ⟨.data, (loadData sys (loadHeader sys fs.flash) fs.flash).map Block.bytes⟩
          (asInt (loadHeader sys fs.flash).len) with
      | error e =>
          rw [hcrc] at h
          cases h
      | ok crc =>
          rw [hcrc, Run.ok_bind] at h
          split at h
          · rename_i hne
            cases h
            refine iff_of_false (by decide) fun hl => hne ?_
            rw [hl.crc] at hcrc
            exact (Except.ok.inj hcrc).symm
          · rename_i heq
            cases h
            refine iff_of_true rfl ⟨by simpa using hopens, not_not.mp hmagic, ?_⟩
            rw [hcrc, not_not.mp heq]

/-! ### Any flash -/

theorem length_flashData (flash : Device nvramSize) :
    (flashData flash).length =
      min (flashHeader flash).len.toNat (nvramSize - nvramHeaderSize) :=
  Device.length_slice _ _ _

/-- A load is safe and atomic: it returns, its block is not overrun, an error leaves the files as
they were, and success leaves a shadow that is the image, whole and with the CRC the header has. -/
def LoadsSafely (sys : Sys) (fs : Files) : Prop :=
  (∀ b, loadData sys (loadHeader sys fs.flash) fs.flash = some b → b.InBounds) ∧
  ∃ ret fs', nvramLoad sys fs = .ok (ret, fs') ∧
    (ret ≠ nvramSuccess → fs' = fs) ∧
    (ret = nvramSuccess →
      fs' = { fs with shadow := some (flashData fs.flash) } ∧
      (flashData fs.flash).length = (flashHeader fs.flash).len.toNat ∧
      crcOf (flashData fs.flash) = (flashHeader fs.flash).crc)

/-- The shadow is emptied, and no image on the partition is as long as the header says. -/
theorem not_loadsSafely_negative (hs : sys.ServesFiles)
    (hmagic : (flashHeader fs.flash).magic = nvramMagic)
    (hbig : 2 ^ 31 ≤ (flashHeader fs.flash).len.toNat) (hc : (flashHeader fs.flash).crc = 0) :
    ¬ LoadsSafely sys fs := by
  rintro ⟨-, ret, fs', h, -, hok⟩
  rw [nvramLoad_negative hs hmagic hbig, if_pos hc] at h
  obtain ⟨hret, -⟩ := Prod.mk.inj (Except.ok.inj h)
  have hlen := (hok hret.symm).2.1
  have hcap := nvramCapacity
  rw [length_flashData] at hlen
  omega

/-- **Where a load is safe.**  The length is taken from the flash unchecked.  Longer than the
partition, it takes the CRC past the bytes that were read, or through the NULL of a request for
memory that was refused; negative as an `int`, with a CRC of zero, it empties the shadow. -/
theorem loadsSafely_iff (hs : sys.ServesFiles) :
    LoadsSafely sys fs ↔
      ((flashHeader fs.flash).magic = nvramMagic →
        Loadable sys fs.flash ∨
          2 ^ 31 ≤ (flashHeader fs.flash).len.toNat ∧ (flashHeader fs.flash).crc ≠ 0) := by
  have hcap := nvramCapacity
  have hsize := length_flashData fs.flash
  have hin : ∀ b, loadData sys (loadHeader sys fs.flash) fs.flash = some b → b.InBounds :=
    fun _ => loadData_inBounds
  rcases nvramLoad_cases fs hs with
    ⟨hmagic, hload⟩ | ⟨hmagic, ⟨hl, hload⟩ | ⟨hbig, hload⟩ | ⟨hl, hint, e, hload⟩⟩
  · exact iff_of_true ⟨hin, _, _, hload, fun _ => rfl, fun h => absurd h (by decide)⟩
      fun h => absurd h hmagic
  · refine iff_of_true ⟨hin, ?_⟩ fun _ => .inl hl
    split at hload
    · rename_i hc
      refine ⟨_, _, hload, fun h => absurd rfl h, fun _ => ⟨rfl, ?_, hc⟩⟩
      rw [hsize, Nat.min_eq_left hl.1]
    · exact ⟨_, _, hload, fun _ => rfl, fun h => absurd h (by decide)⟩
  · have hl : ¬ Loadable sys fs.flash := fun hl => by
      have := hl.1
      omega
    simp only [hmagic, forall_const, hl, false_or, hbig, true_and]
    split at hload
    · rename_i hc
      exact iff_of_false (not_loadsSafely_negative hs hmagic hbig hc) fun h => h hc
    · rename_i hc
      exact iff_of_true ⟨hin, _, _, hload, fun _ => rfl, fun h => absurd h (by decide)⟩ hc
  · refine iff_of_false (fun ⟨_, ret, fs', h, _⟩ => ?_) fun h => ?_
    · rw [hload] at h
      cases h
    · rcases h hmagic with h | ⟨hbig, -⟩
      · exact hl h
      · omega

/-- An erased flash has no magic number. -/
theorem loadsSafely_iff_erased :
    LoadsSafely .ideal ⟨.filled nvramSize 0xff, none, none⟩ :=
  (loadsSafely_iff Sys.serves_ideal.toServesFiles).mpr fun h => absurd h (by decide)

/-- A header with the right magic number, a length of `0xFFFFFFFF` and a CRC of zero. -/
def wrapHeader : Header := ⟨nvramMagic, 0xFFFFFFFF, 0, 0⟩

/-- Such a header loads, and the shadow it leaves is empty. -/
theorem not_loadsSafely_wrap :
    ¬ LoadsSafely .ideal
      ⟨(Device.filled nvramSize 0xff).write 0 wrapHeader.mem, some [endSymbol], none⟩ :=
  not_loadsSafely_negative Sys.serves_ideal.toServesFiles (by decide) (by decide) (by decide)

end Load

/-! ### Commits -/

section Commit

variable {sys sys' : Sys} {fs : Files} {S : List Byte}

/-- Every call of a commit but its two writes succeeds, on a shadow of `n` bytes. -/
structure CommitOpens (sys : Sys) (n : Nat) : Prop where
  flash : sys.creates .flash = true
  shadow : sys.opens .shadow = true
  memory : sys.malloc n = true
  reads : sys.reads .shadow = true

/-- How many bytes of the header a commit gets to the flash. -/
def headerWritten (sys : Sys) : Nat := (sys.writes .header).count headerSize

/-- How many bytes of the image a commit gets to the flash. -/
def dataWritten (sys : Sys) (S : List Byte) : Nat := (sys.writes .data).count S.length

/-- The flash after the two writes of a commit. -/
def flashCommitted (sys : Sys) (flash : Device nvramSize) (S : List Byte) : Device nvramSize :=
  (flash.write 0 ((commitHeader sys S (crcOf S)).mem.take (headerWritten sys))).write
    nvramHeaderSize (S.take (dataWritten sys S))

/-- **A commit succeeds, whatever its two writes did.**  The check reads through a descriptor that
was opened for writing: nothing is read, and the CRC is taken of the shadow again. -/
theorem nvramCommit_eq (hc : CommitOpens sys S.length) (hf : fs.shadow = some S) (hS : S ≠ [])
    (hfit : S.length + nvramHeaderSize ≤ nvramSize) :
    nvramCommit sys fs =
      .ok (nvramSuccess, { fs with flash := flashCommitted sys fs.flash S }) := by
  have hlen : S.length ≠ 0 := fun h => hS (List.length_eq_zero_iff.mp h)
  have hS' : S.length ≤ intMax := Nat.le_trans (Nat.le_of_add_right_le hfit) (by decide)
  have hread : readFileBin sys .shadow (some S) = some S := by
    simp only [readFileBin, hc.shadow, hc.memory, hc.reads, Bool.and_self, if_true]
  simp only [nvramCommit, hc.flash, hf, hread, Option.getD_some, hlen, crc32_length, Fd.lseek,
    Fd.read_wronly, Fd.write_wronly hS', Bool.not_true, Bool.false_eq_true, if_false, Run.ok_bind,
    Run.pure_eq]
  have hne : ¬ (commitHeader sys S (crcOf S)).crc ≠ crcOf S := fun h => h rfl
  rw [if_neg hne, Fd.write_wronly (Header.length_mem_le _)]
  rfl

/-- Where another call fails, so does the commit. -/
theorem nvramCommit_fails (hf : fs.shadow = some S) (hc : ¬ CommitOpens sys S.length) :
    nvramCommit sys fs = .ok (nvramFlashErr, fs) ∨
      nvramCommit sys fs = .ok (nvramShadowErr, fs) := by
  by_cases hflash : sys.creates .flash = true
  · right
    have hread : readFileBin sys .shadow (some S) = none := by
      refine if_neg fun h => hc ?_
      simp only [Bool.and_eq_true] at h
      exact ⟨hflash, h.1.1, h.1.2, h.2⟩
    simp [nvramCommit, hflash, hf, hread]
  · left
    simp [nvramCommit, hflash]

theorem nvramCommit_success (hc : CommitOpens sys S.length) (hf : fs.shadow = some S)
    (hS : S ≠ []) : ∃ fs', nvramCommit sys fs = .ok (nvramSuccess, fs') := by
  have hread : readFileBin sys .shadow (some S) = some S := by
    simp only [readFileBin, hc.shadow, hc.memory, hc.reads, Bool.and_self, if_true]
  have hlen : S.length ≠ 0 := fun h => hS (List.length_eq_zero_iff.mp h)
  simp only [nvramCommit, hc.flash, hf, hread, Option.getD_some, hlen, crc32_length, Fd.lseek,
    Fd.read_wronly, Bool.not_true, Bool.false_eq_true, if_false, Run.ok_bind, Run.pure_eq]
  rw [if_neg fun h => h rfl]
  exact ⟨_, rfl⟩

/-- There is nothing to commit. -/
theorem nvramCommit_empty (sys : Sys) (h : fs.shadow.getD [] = []) :
    nvramCommit sys fs = .ok (nvramFlashErr, fs) ∨
      nvramCommit sys fs = .ok (nvramShadowErr, fs) := by
  have hread : (readFileBin sys .shadow fs.shadow).getD [] = [] := by
    cases hf : fs.shadow with
    | none => rfl
    | some bytes =>
        rw [hf] at h
        obtain rfl : bytes = [] := h
        rw [readFileBin]
        split <;> rfl
  by_cases hflash : sys.creates .flash = true
  · exact .inr (by simp [nvramCommit, hflash, hread])
  · exact .inl (by simp [nvramCommit, hflash])

/-- What a commit needs to return `NVRAM_SUCCESS`. -/
def Commits (sys : Sys) (shadow : Option (List Byte)) : Prop :=
  ∃ S, shadow = some S ∧ S ≠ [] ∧ CommitOpens sys S.length

/-- **A commit returns**, and a code that is 0 or positive. -/
theorem nvramCommit_returns (sys : Sys) (fs : Files) :
    ∃ ret fs', nvramCommit sys fs = .ok (ret, fs') ∧ 0 ≤ ret ∧
      (ret = nvramSuccess ↔ Commits sys fs.shadow) := by
  by_cases hc : Commits sys fs.shadow
  · obtain ⟨S, hf, hS, hopens⟩ := hc
    obtain ⟨fs', h⟩ := nvramCommit_success hopens hf hS
    exact ⟨_, fs', h, by decide, iff_of_true rfl ⟨S, hf, hS, hopens⟩⟩
  · have hfail : nvramCommit sys fs = .ok (nvramFlashErr, fs) ∨
        nvramCommit sys fs = .ok (nvramShadowErr, fs) := by
      cases hf : fs.shadow with
      | none => exact nvramCommit_empty sys (by rw [hf]; rfl)
      | some S =>
          by_cases hS : S = []
          · exact nvramCommit_empty sys (by rw [hf]; exact hS)
          · exact nvramCommit_fails hf fun hopens => hc ⟨S, hf, hS, hopens⟩
    rcases hfail with h | h
    · exact ⟨_, _, h, by decide, iff_of_false (by decide) hc⟩
    · exact ⟨_, _, h, by decide, iff_of_false (by decide) hc⟩

section Committed

variable (flash : Device nvramSize)

theorem length_headerWritten (sys : Sys) (h : Header) :
    (h.mem.take (headerWritten sys)).length ≤ headerSize := by
  rw [List.length_take, Header.length_mem]
  exact Nat.min_le_right _ _

/-- The bytes on the flash after a commit. -/
theorem bytes_flashCommitted (hfit : S.length + nvramHeaderSize ≤ nvramSize) :
    (flashCommitted sys flash S).bytes =
      splice (splice flash.bytes 0 ((commitHeader sys S (crcOf S)).mem.take (headerWritten sys)))
        nvramHeaderSize (S.take (dataWritten sys S)) := by
  have h₁ := length_headerWritten sys (commitHeader sys S (crcOf S))
  have h₂ : (S.take (dataWritten sys S)).length ≤ S.length := List.length_take_le' _ _
  have h₃ : headerSize ≤ nvramSize := by decide
  rw [flashCommitted, Device.bytes_write (by omega), Device.bytes_write (by omega)]

/-- The header is on the flash after a commit just when the bytes its write left out stood there. -/
theorem flashHeader_committed (hfit : S.length + nvramHeaderSize ≤ nvramSize) :
    ((flashHeader (flashCommitted sys flash S)).magic = nvramMagic ∧
        (flashHeader (flashCommitted sys flash S)).len = UInt32.ofNat S.length ∧
        (flashHeader (flashCommitted sys flash S)).crc = crcOf S) ↔
      Standing flash.bytes 0 ((commitHeader sys S (crcOf S)).mem.take 12) (headerWritten sys) := by
  have hsize : ((flashCommitted sys flash S).slice 0 headerSize).length = headerSize := by
    rw [Device.length_slice]; rfl
  have hpos : nvramHeaderSize ≤ (splice flash.bytes 0
      ((commitHeader sys S (crcOf S)).mem.take (headerWritten sys))).length := by
    rw [length_splice (Nat.zero_le _), flash.size_eq]
    exact (show nvramHeaderSize ≤ nvramSize by decide).trans (Nat.le_max_left _ _)
  have htake : (flashHeader (flashCommitted sys flash S)).mem.take 12 =
      ((splice flash.bytes 0
        ((commitHeader sys S (crcOf S)).mem.take (headerWritten sys))).drop 0).take 12 := by
    rw [flashHeader, Header.mem_ofMem hsize, Device.slice, List.take_take, List.drop_zero,
      List.drop_zero, bytes_flashCommitted flash hfit]
    exact take_splice_of_le hpos (by decide)
  rw [← take_drop_splice_eq_iff (by rw [Header.length_mem]; decide) (Nat.zero_le _), ← htake,
    Header.take_mem_eq_iff]
  rfl

/-- So is the image. -/
theorem flashData_committed (hfit : S.length + nvramHeaderSize ≤ nvramSize) :
    (flashCommitted sys flash S).slice nvramHeaderSize S.length = S ↔
      Standing flash.bytes nvramHeaderSize S (dataWritten sys S) := by
  have hpos : nvramHeaderSize ≤ (splice flash.bytes 0
      ((commitHeader sys S (crcOf S)).mem.take (headerWritten sys))).length := by
    rw [length_splice (Nat.zero_le _), flash.size_eq]
    exact (show nvramHeaderSize ≤ nvramSize by decide).trans (Nat.le_max_left _ _)
  have hpre : 0 + ((commitHeader sys S (crcOf S)).mem.take (headerWritten sys)).length ≤
      nvramHeaderSize := by
    rw [Nat.zero_add]
    exact (length_headerWritten _ _).trans (by decide)
  have := take_drop_splice_eq_iff (k := dataWritten sys S) (Nat.le_refl S.length) hpos
  rw [List.take_length, standing_splice (Nat.zero_le _) hpre] at this
  rw [← this, Device.slice, bytes_flashCommitted flash hfit]

end Committed

/-- A load recreates `S` just when the flash holds a header for `S` and `S` after it. -/
theorem nvramLoad_recovers_iff (fs : Files) (hs : sys.ServesFiles) (hS : S ≠ [])
    (hfit : S.length + nvramHeaderSize ≤ nvramSize) :
    (∃ fs', nvramLoad sys fs = .ok (nvramSuccess, fs') ∧ fs'.shadow = some S) ↔
      sys.malloc (S.length + 1) = true ∧
        ((flashHeader fs.flash).magic = nvramMagic ∧
          (flashHeader fs.flash).len = UInt32.ofNat S.length ∧
          (flashHeader fs.flash).crc = crcOf S) ∧
        fs.flash.slice nvramHeaderSize S.length = S := by
  have hlen : S.length ≠ 0 := fun h => hS (List.length_eq_zero_iff.mp h)
  have hcap : S.length ≤ nvramSize - nvramHeaderSize := Nat.le_sub_of_add_le hfit
  have hlen' : (UInt32.ofNat S.length).toNat = S.length := by
    rw [UInt32.toNat_ofNat']
    exact Nat.mod_eq_of_lt (Nat.lt_of_le_of_lt hcap (by decide))
  constructor
  · rintro ⟨fs', hload, hS'⟩
    rcases nvramLoad_cases fs hs with
      ⟨-, he⟩ | ⟨hmagic, ⟨⟨hle, hm⟩, he⟩ | ⟨-, he⟩ | ⟨-, -, e, he⟩⟩
    · exact absurd (Prod.mk.inj (Except.ok.inj (he.symm.trans hload))).1 (by decide)
    · split at he
      · rename_i hcrc
        obtain ⟨-, rfl⟩ := Prod.mk.inj (Except.ok.inj (he.symm.trans hload))
        have hdata : flashData fs.flash = S := Option.some.inj hS'
        have hl : (flashHeader fs.flash).len.toNat = S.length := by
          rw [← hdata, length_flashData, Nat.min_eq_left hle]
        rw [hl] at hm
        refine ⟨hm.resolve_left hlen, ⟨hmagic, ?_, ?_⟩, ?_⟩
        · rw [← UInt32.toNat_inj, hl, hlen']
        · rw [← hcrc, hdata]
        · rwa [flashData, hl] at hdata
      · exact absurd (Prod.mk.inj (Except.ok.inj (he.symm.trans hload))).1 (by decide)
    · split at he
      · obtain ⟨-, rfl⟩ := Prod.mk.inj (Except.ok.inj (he.symm.trans hload))
        exact absurd (Option.some.inj hS').symm hS
      · exact absurd (Prod.mk.inj (Except.ok.inj (he.symm.trans hload))).1 (by decide)
    · rw [he] at hload
      cases hload
  · rintro ⟨hm, ⟨hmagic, hl, hcrc⟩, hdata⟩
    have hl' : (flashHeader fs.flash).len.toNat = S.length := by rw [hl, hlen']
    have hdata' : flashData fs.flash = S := by rw [flashData, hl', hdata]
    have hload := nvramLoad_loadable hs hmagic ⟨hl' ▸ hcap, .inr (hl' ▸ hm)⟩
    rw [hdata', if_pos hcrc.symm] at hload
    exact ⟨_, hload, rfl⟩

/-- A shadow `S` is durable: after a commit that reports success, whatever has become of the shadow
by then, a load reports success and the shadow is `S` again. -/
def Durable (sys sys' : Sys) (fs : Files) (S : List Byte) : Prop :=
  ∀ fs₁, nvramCommit sys fs = .ok (nvramSuccess, fs₁) → ∀ f₀, ∃ fs₂,
    nvramLoad sys' { fs₁ with shadow := f₀ } = .ok (nvramSuccess, fs₂) ∧ fs₂.shadow = some S

/-- **Where a commit is durable.**  A commit whose other calls succeed reports success; what it
reported is true just when every byte its two writes left out already stood on the flash. -/
theorem durable_iff (hs' : sys'.ServesFiles) (hf : fs.shadow = some S) (hS : S ≠ [])
    (hfit : S.length + nvramHeaderSize ≤ nvramSize) :
    Durable sys sys' fs S ↔
      (CommitOpens sys S.length → sys'.malloc (S.length + 1) = true ∧
        Standing fs.flash.bytes 0 ((commitHeader sys S (crcOf S)).mem.take 12)
          (headerWritten sys) ∧
        Standing fs.flash.bytes nvramHeaderSize S (dataWritten sys S)) := by
  by_cases hc : CommitOpens sys S.length
  · rw [← flashHeader_committed fs.flash hfit, ← flashData_committed fs.flash hfit]
    simp only [hc, forall_const]
    have recovers := fun f₀ => nvramLoad_recovers_iff
      (⟨flashCommitted sys fs.flash S, f₀, fs.default⟩ : Files) hs' hS hfit
    constructor
    · intro h
      exact (recovers none).mp (h _ (nvramCommit_eq hc hf hS hfit) none)
    · intro h fs₁ h₁ f₀
      have e := (nvramCommit_eq hc hf hS hfit).symm.trans h₁
      rw [← (Prod.mk.inj (Except.ok.inj e)).2]
      exact (recovers f₀).mpr h
  · refine iff_of_true (fun fs₁ h => ?_) fun h => absurd h hc
    rcases nvramCommit_fails hf hc with he | he <;>
      exact absurd (Prod.mk.inj (Except.ok.inj (he.symm.trans h))).1 (by decide)

/-- A whole commit is loaded back. -/
theorem durable_iff_complete :
    Durable .ideal .ideal ⟨.filled nvramSize 0xff, some (ascii ['a', '=']), none⟩
      (ascii ['a', '=']) :=
  (durable_iff Sys.serves_ideal.toServesFiles rfl (by decide) (by decide)).mpr fun _ =>
    ⟨rfl, fun j hk hj => absurd hj (by
      have : headerWritten .ideal = 16 := rfl
      simp at *
      omega), fun j hk hj => absurd hj (Nat.not_lt.mpr hk)⟩

/-- A commit whose header write fails on an erased flash. -/
theorem not_durable_failed_header :
    ¬ Durable { Sys.ideal with writes := fun s => if s = .header then .failed else .complete }
      .ideal ⟨.filled nvramSize 0xff, some (ascii ['a', '=']), none⟩ (ascii ['a', '=']) := by
  intro h
  have hload := h _ (nvramCommit_eq ⟨rfl, rfl, rfl, rfl⟩ rfl (by decide) (by decide)) none
  have hheader := ((nvramLoad_recovers_iff _ Sys.serves_ideal.toServesFiles (by decide)
    (by decide)).mp hload).2.1
  have := (flashHeader_committed _ (by decide)).mp hheader 0 (Nat.le_refl _) (by decide)
  exact absurd this (by decide)

end Commit

end Wap4410n.Nvram
