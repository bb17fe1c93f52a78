import Mathlib.Logic.Relation
import Wap4410n.Nvram.Growth
import Wap4410n.Scfg.Client
import Wap4410n.Scfg.Safety

/-!
# Scfg — the capacity of the store

The partition has room for `NVRAM_SIZE - NVRAM_HEADER_SIZE` bytes of configuration behind its
header, and `SCFG_GETALL` reads the shadow into `NVRAM_SIZE` bytes of stack.  Neither `SCFG_SET` nor
`nvram_set` looks at the size of the file they make.

* `fits_iff`: a setting leaves room just when the file it makes does.
* `within_step`, `withinCapacity_run`: requests that leave room keep the shadow within the capacity,
  over every run and on any system.
* `not_withinCapacity_full`: one more setting in a store that is full.
-/

namespace Wap4410n.Scfg

open CLib CLib.Run
open Nvram (Sys Files Name Store Represents Kept nvramSize nvramHeaderSize readFileBin nvramSet
  encode line eqSign)

/-! ### Runs -/

/-- The server accepts a `SCFG_SET`, which leaves the files `fs'`. -/
def AcceptsSet (env : Env) (fs : Files) (req : Request) (fs' : Files) : Prop :=
  req.cmd = Cmd.set.code ∧ (scfgRun env fs req).1 = .ok .ok ∧ (scfgRun env fs req).2.files = fs'

/-- One accepted request. -/
def SetStep (fs fs' : Files) : Prop := ∃ env req, AcceptsSet env fs req fs'

/-- How many bytes of shadow the partition holds. -/
def capacity : Nat := nvramSize - nvramHeaderSize

/-- A setting leaves room: its record fits behind the other records of the store, with the closing
NUL, and fits alone where the file that is there is not brought. -/
structure Fits (f : Option (List Byte)) (n : Name) (v : CStr) : Prop where
  alone : n.str.length + v.length + 3 ≤ capacity
  behind : ∀ st, Represents f st →
    (encode st.recs).length + n.str.length + v.length + 2 ≤ capacity + st.recordSize n

/-- The setting a request asks for leaves room. -/
def RequestFits (fs : Files) (req : Request) : Prop :=
  ∀ s n v, req.pt.Holds s → Assigns s n.str v → Fits fs.shadow n v

/-- One accepted request that leaves room. -/
def FittingStep (fs fs' : Files) : Prop :=
  ∃ env req, AcceptsSet env fs req fs' ∧ RequestFits fs req

/-- The shadow is within the capacity: `SCFG_GETALL` stays inside its buffer, and what a commit
reads fits the partition behind the header. -/
structure WithinCapacity (fs : Files) : Prop where
  size : (fs.shadow.getD []).length ≤ capacity
  getall : ∀ env req, req.cmd = Cmd.getall.code → (scfgRun env fs req).2.buf.InBounds
  commit : ∀ sys data, readFileBin sys .shadow fs.shadow = some data →
    nvramHeaderSize + data.length ≤ nvramSize

/-! ### One request -/

section Step

variable {env : Env} {fs fs' : Files} {req : Request}

/-- What an accepted request has done. -/
theorem acceptsSet_iff : AcceptsSet env fs req fs' ↔ req.cmd = Cmd.set.code ∧
    ∃ s name value run, req.pt.Holds s ∧ Assigns s name value ∧
      nvramSet (env.sys 0) fs.shadow name value = .ok run ∧
      { fs with shadow := run.shadow } = fs' := by
  refine and_congr_right fun hcmd => ?_
  have hrun : scfgRun env fs req = scfgSet env req.pt (.start fs) := by
    have : req.header.cmd = Cmd.set.code := hcmd
    rw [scfgRun, this, Cmd.ofCode_code]
  rw [hrun, scfgSet_served]
  constructor
  · rintro ⟨⟨s, name, value, run, hs, ha, hset⟩, rfl⟩
    exact ⟨s, name, value, run, hs, ha, hset, (files_scfgSet hs ha hset).symm⟩
  · rintro ⟨s, name, value, run, hs, ha, hset, rfl⟩
    exact ⟨⟨s, name, value, run, hs, ha, hset⟩, files_scfgSet hs ha hset⟩

/-- The name in an assignment is a proper one. -/
theorem Assigns.name {s name value : CStr} (h : Assigns s name value) :
    ∃ n : Name, n.str = name := by
  obtain ⟨-, rest, htok, -⟩ := h
  obtain ⟨hne, hno⟩ := strtok_token (CStr.strtok_eq_some.mp htok)
  exact ⟨⟨name, hne, fun h => hno eqSign h (by simp)⟩, rfl⟩

/-- The files a run of accepted requests can come to. -/
structure Within (fs : Files) : Prop where
  kept : Kept fs.shadow
  size : (fs.shadow.getD []).length ≤ capacity

/-- Where the file holds a store, a setting leaves room just when the new file is within the
capacity. -/
theorem fits_iff {f : Option (List Byte)} {st : Store} (hst : Represents f st) (n : Name)
    (v : CStr) :
    Fits f n v ↔ (encode (st.set n v).recs).length ≤ capacity := by
  have hgrow := Nvram.length_encode_set st n v
  have hlt := Nvram.recordSize_lt st n
  constructor
  · intro h
    have := h.behind st hst
    omega
  · intro h
    refine ⟨by omega, fun st' hst' => ?_⟩
    obtain rfl := hst.unique hst'
    omega

theorem length_set_le {f : Option (List Byte)} {n : Name} {v : CStr} (hfits : Fits f n v)
    {st : Store} (hst : st = .empty ∨ Represents f st) :
    (encode (st.set n v).recs).length ≤ capacity := by
  rcases hst with rfl | hst
  · have hgrow := Nvram.length_encode_set .empty n v
    have hone : (encode Store.empty.recs).length = 1 := rfl
    have halone := hfits.alone
    omega
  · exact (fits_iff hst n v).mp hfits

/-- **A request that leaves room** keeps the shadow within the capacity. -/
theorem within_step (hfs : Within fs) (h : FittingStep fs fs') : Within fs' := by
  obtain ⟨env, req, hacc, hfits⟩ := h
  obtain ⟨-, s, name, value, run, hs, ha, hset, rfl⟩ := acceptsSet_iff.mp hacc
  obtain ⟨n, rfl⟩ := ha.name
  rcases Nvram.nvramSet_kept hfs.kept hset with he | ⟨st, k, hst, hk, he⟩
  · refine ⟨?_, ?_⟩
    · show Kept run.shadow
      rw [he]
      exact hfs.kept
    · show (run.shadow.getD []).length ≤ capacity
      rw [he]
      exact hfs.size
  · refine ⟨?_, ?_⟩
    · show Kept run.shadow
      rw [he]
      exact Nvram.kept_take (st.set n value).distinct hk
    · show (run.shadow.getD []).length ≤ capacity
      rw [he]
      exact (List.length_take_le' _ _).trans (length_set_le (hfits s n value hs ha) hst)

theorem Within.withinCapacity (h : Within fs) : WithinCapacity fs := by
  have hsize : ∀ bytes, fs.shadow = some bytes → bytes.length ≤ capacity := fun bytes hb => by
    have := h.size
    rwa [hb] at this
  have hcap : nvramHeaderSize + capacity = nvramSize := by decide
  refine ⟨h.size, fun env req hcmd => ?_, fun sys data hread => ?_⟩
  · have hrun : scfgRun env fs req = scfgGetall env (.start fs) := by
      have : req.header.cmd = Cmd.getall.code := hcmd
      rw [scfgRun, this, Cmd.ofCode_code]
    have hrobust : Robust req (scfgGetall env (.start fs)) :=
      robust_getall.mpr fun _ _ bytes hb => (hsize bytes hb).trans (by omega)
    rw [hrun]
    exact hrobust.buf
  · have := hsize data (Nvram.readFileBin_some hread)
    omega

end Step

/-! ### Whole runs -/

/-- **Requests that leave room keep the store within its capacity**, from any store that is, over
every run, and whatever the system makes of the calls. -/
theorem withinCapacity_run {fs₀ fs : Files} {st : Store} (hst : Represents fs₀.shadow st)
    (hsize : (fs₀.shadow.getD []).length ≤ capacity)
    (hrun : Relation.ReflTransGen FittingStep fs₀ fs) : WithinCapacity fs := by
  have hwithin : Within fs := by
    induction hrun with
    | refl => exact ⟨.store hst, hsize⟩
    | tail _ hstep ih => exact within_step ih hstep
  exact hwithin.withinCapacity

/-- The request that sets `n` to `v`. -/
def assignment (n : Name) (v : CStr) (h : (line n.str v).length < 2 ^ 32 - 1) : Request where
  cmd := Cmd.set.code
  payload := (line n.str v).mem
  size := by rw [CStr.length_mem]; omega

theorem holds_assignment {n : Name} {v : CStr} {h : (line n.str v).length < 2 ^ 32 - 1} :
    (assignment n v h).pt.Holds (line n.str v) := ⟨[], mem_pt rfl⟩

/-- It is accepted where the system serves it. -/
theorem acceptsSet_assignment {fs : Files} {st : Store} (hst : Represents fs.shadow st) (n : Name)
    (v : CStr) (h : (line n.str v).length < 2 ^ 32 - 1) :
    AcceptsSet .ideal fs (assignment n v h)
    { fs with shadow := some (encode (st.set n v).recs) } := by
  obtain ⟨run, hset, -, hshadow⟩ := Nvram.nvramSet_represents Nvram.Sys.serves_ideal hst n v
  exact acceptsSet_iff.mpr ⟨rfl, _, _, _, run, holds_assignment, assigns_line n v, hset,
    by rw [hshadow]⟩

/-- A first setting. -/
theorem withinCapacity_run_first :
    WithinCapacity ⟨.filled nvramSize 0xff,
      some (encode [(.lit ['a'], .lit ['b'])]), none⟩ := by
  have hst : Represents none .empty := .missing
  have hstep : FittingStep ⟨.filled nvramSize 0xff, none, none⟩
      ⟨.filled nvramSize 0xff, some (encode [(.lit ['a'], .lit ['b'])]), none⟩ := by
    have hacc := @acceptsSet_assignment ⟨.filled nvramSize 0xff, none, none⟩ _ hst (.lit ['a'])
      (.lit ['b']) (by decide)
    refine ⟨.ideal, _, hacc, fun s n v hs ha => ?_⟩
    obtain rfl := holds_assignment.unique hs
    obtain ⟨hn, rfl⟩ := (assigns_line _ _).unique ha
    obtain rfl : Name.lit ['a'] = n := Name.ext hn
    refine ⟨by decide, fun st hst' => ?_⟩
    obtain rfl := hst.unique hst'
    decide
  exact withinCapacity_run hst (Nat.zero_le _) (.single hstep)

/-- A value of `n` letters. -/
def letters (n : Nat) : CStr := ⟨List.replicate n 0x78, by simp [List.mem_replicate]⟩

@[simp] theorem length_letters (n : Nat) : (letters n).length = n := List.length_replicate

/-- A store whose file has exactly as many bytes as the partition has room for. -/
def fullStore : Store := ⟨[(.lit ['a'], letters 65492)], by simp⟩

theorem length_fullStore : (encode fullStore.recs).length = capacity := by
  have ha : (Name.lit ['a']).str.length = 1 := rfl
  have hcap : capacity = 65496 := by decide
  have hv := length_letters 65492
  have hfile := Nvram.length_encode_singleton (.lit ['a']) (letters 65492)
  show (encode [(Name.lit ['a'], letters 65492)]).length = _
  omega

/-- **One more setting** is accepted, and neither the partition nor the buffer of `SCFG_GETALL`
holds the file. -/
theorem not_withinCapacity_full :
    Represents (some (encode fullStore.recs)) fullStore ∧
      (encode fullStore.recs).length = capacity ∧
      ∃ fs, Relation.ReflTransGen SetStep
          ⟨.filled nvramSize 0xff, some (encode fullStore.recs), none⟩ fs ∧
        nvramSize < (fs.shadow.getD []).length ∧ ¬ WithinCapacity fs := by
  have hst : Represents (some (encode fullStore.recs)) fullStore := .file fullStore
  have hline : (line (Name.lit ['b']).str (letters 100)).length < 2 ^ 32 - 1 := by
    rw [Nvram.length_line, length_letters]
    decide
  have hlen : nvramSize < (encode (fullStore.set (.lit ['b']) (letters 100)).recs).length := by
    have hget : fullStore.get (.lit ['b']) = none := Assoc.lookup_eq_none.mpr (by
      show Name.lit ['b'] ∉ [Name.lit ['a']]
      decide)
    have hgrow := Nvram.length_encode_set fullStore (.lit ['b']) (letters 100)
    have hb : (Name.lit ['b']).str.length = 1 := rfl
    have hcap : capacity = 65496 := by decide
    have hnv : nvramSize = 65536 := rfl
    rw [Store.recordSize_none hget, length_fullStore, length_letters, hb] at hgrow
    omega
  have hacc := @acceptsSet_assignment
    ⟨.filled nvramSize 0xff, some (encode fullStore.recs), none⟩ _ hst (.lit ['b']) (letters 100)
    hline
  refine ⟨hst, length_fullStore, _, .single ⟨.ideal, _, hacc⟩, hlen, fun h => ?_⟩
  have hsize : (encode (fullStore.set (.lit ['b']) (letters 100)).recs).length ≤ capacity := h.size
  exact absurd (hsize.trans (Nat.sub_le _ _)) (Nat.not_le.mpr hlen)

end Wap4410n.Scfg
