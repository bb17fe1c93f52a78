import Wap4410n.Nvram.Durability
import Wap4410n.Scfg.Client

/-!
# Scfg — which failures are reported

A failure is a positive code of `libnv`, the command `SCFG_ERR` of a reply, the value −1 of a client
call.  On the way from one to the next it can be lost.

**The server.**  `SCFG_OK` should mean that the operation succeeded (`Performed`).  `honest_iff`: it
does for the commands that are served in no other case.  `SCFG_COMMIT` tests for a negative code,
and there is none; the others drop the results of `nvram_set`, `nvram_load`, `nvram_commit`,
`myPipe`, `chdir`, `fread`, `sscanf`, `fseek` and `write`.

**The client.**  A call should return 0 just when `scfgmgr_connect` has succeeded and the command of
the reply is not `SCFG_ERR` (`Reports`).  `reports_iff`: a call that does not assign `i` returns 0
for `SCFG_ERR` as well, one without `rdata` stores through NULL, and where `socket_read` does not
return neither does the call.
-/

namespace Wap4410n.Scfg

open CLib CLib.Run
open Nvram (Sys Files SetRun nvramSize nvramGet nvramSet nvramLoad nvramCommit nvramSuccess Commits
  Loads loadHeader asInt)

/-! ### The server -/

/-- The shadow is created, and takes `n` bytes. -/
def WritesWhole (sys : Sys) (n : Nat) : Prop :=
  sys.creates .shadow = true ∧ (sys.writes .shadow).count n = n

/-- `nvram_set` has returned `NVRAM_SUCCESS`, and the shadow has taken what it stored. -/
def SetDone (sys : Sys) (run : SetRun) : Prop :=
  run.ret = nvramSuccess ∧ WritesWhole sys run.stored

/-- Every one of the calls is done. -/
def SetsDone (env : Env) : Nat → List (CStr × CStr) → Option (List Byte) → Prop
  | _, [], _ => True
  | i, (name, value) :: cs, f => ∃ run, nvramSet (env.sys i) f name value = .ok run ∧
      SetDone (env.sys i) run ∧ SetsDone env (i + 1) cs run.shadow

/-- How many bytes a load writes to the shadow. -/
def loadedLength (sys : Sys) (fs : Files) : Nat := (asInt (loadHeader sys fs.flash).len).toNat

/-- The directory behind `cd `. -/
def cdDir (s : CStr) : CStr := ⟨s.bytes.drop 3, fun h => s.noNul (List.mem_of_mem_drop h)⟩

/-- The four fields of `"%c%d.%d.%d"`, of a text that has them all. -/
def versionOf : List Byte → Option (Byte × Int32 × Int32 × Int32)
  | [] => none
  | annex :: s => do
    let (a, s) ← scanInt s
    let (b, s) ← (scanChar 0x2e s).bind scanInt
    let (c, _) ← (scanChar 0x2e s).bind scanInt
    return (annex, a, b, c)

/-- The string in `buf` behind the `fread` of the bytes of `/etc/version`. -/
def VersionString (env : Env) (bytes : List Byte) (s : CStr) : Prop :=
  CStr.ofMem (((Block.fresh nvramSize).store 0 (bytes.take 128)).contents env.stack nvramSize) =
    some s

/-- What was read has a version, and it is the one that is found in `buf`. -/
def VersionRead (bytes : List Byte) (s : CStr) : Prop :=
  ∃ v, versionOf (CStr.before (bytes.take 128)).bytes = some v ∧ versionOf s.bytes = some v

/-- The operation a request asks for has succeeded. -/
def Performed (env : Env) (fs : Files) (req : Request) : Prop :=
  match Cmd.ofCode req.cmd with
  | some .getall =>
    fs.shadow ≠ none ∧ (env.sys 0).opens .shadow = true ∧ (env.sys 0).reads .shadow = true
  | some .get => ∃ value fs', nvramGet (env.sys 0) fs req.pt = .ok (some value, fs')
  | some .set => ∃ s name value run, req.pt.Holds s ∧ Assigns s name value ∧
      nvramSet (env.sys 0) fs.shadow name value = .ok run ∧ SetDone (env.sys 0) run
  | some .commit => ∃ fs', nvramCommit (env.sys 0) fs = .ok (nvramSuccess, fs')
  | some .test => SetsDone env 0 testSettings fs.shadow
  | some .adslStatus => env.stats ≠ none ∧ env.statsReads = true
  | some .console => ∃ s, req.pt.Holds s ∧
      (Leaves s ∨ ¬ Leaves s ∧
        (ascii ['c', 'd', ' '] <+: s.bytes ∧ env.changes (cdDir s) = true ∨
          ¬ ascii ['c', 'd', ' '] <+: s.bytes ∧
            ∃ ret data, myPipe env req.pt = .ok (ret, data) ∧ 0 ≤ ret))
  | some .receive => ∃ save, (scfgReceive env req (.start fs)).2.saved = some save ∧
      save.count ≤ intMax ∧ env.saves.count save.count = save.count
  | some .version => ∃ bytes s, env.version = some bytes ∧ VersionString env bytes s ∧
      VersionRead bytes s
  | some .localIp => ∃ value fs',
      nvramGet (env.sys 0) fs (.ofString .constant lanIpaddr) = .ok (some value, fs')
  | some .restore => ∃ run fs',
      nvramSet (env.sys 0) fs.shadow restoreDefaults restoreOn = .ok run ∧
        SetDone (env.sys 0) run ∧
        nvramCommit (env.sys 1) { fs with shadow := run.shadow } = .ok (nvramSuccess, fs')
  | some .checksum => ∃ mtd, env.mtd = some mtd ∧ 4 ≤ mtd.length
  | some .cfgInit => ∃ fs₁ fs₂, nvramLoad (env.sys 0) fs = .ok (nvramSuccess, fs₁) ∧
      WritesWhole (env.sys 0) (loadedLength (env.sys 0) fs) ∧
      nvramCommit (env.sys 1) fs₁ = .ok (nvramSuccess, fs₂)
  | none => False

/-- The server answers `SCFG_OK` only if the operation has succeeded. -/
def Honest (env : Env) (fs : Files) (req : Request) : Prop :=
  (scfgRun env fs req).1 = .ok .ok → Performed env fs req

/-- The writes of the calls that return are not cut short. -/
def SetsTaken (env : Env) : Nat → List (CStr × CStr) → Option (List Byte) → Prop
  | _, [], _ => True
  | i, (name, value) :: cs, f => ∀ run, nvramSet (env.sys i) f name value = .ok run →
      WritesWhole (env.sys i) run.stored ∧ SetsTaken env (i + 1) cs run.shadow

/-- What a command whose results are not looked at needs of the files and the environment. -/
def HonestWhen (env : Env) (fs : Files) (req : Request) : Prop :=
  match Cmd.ofCode req.cmd with
  | some .set => ∀ s name value run, req.pt.Holds s → Assigns s name value →
      nvramSet (env.sys 0) fs.shadow name value = .ok run → WritesWhole (env.sys 0) run.stored
  | some .commit => Commits (env.sys 0) fs.shadow
  | some .test => ∀ f, setEach env 0 testSettings fs.shadow = .ok f →
      SetsTaken env 0 testSettings fs.shadow
  | some .console => ∀ s, req.pt.Holds s → ¬ Leaves s →
      (ascii ['c', 'd', ' '] <+: s.bytes →
        (0 : Byte) ∈ (List.range 1024).map (env.mytmp (cdDir s)) →
        env.changes (cdDir s) = true) ∧
      (¬ ascii ['c', 'd', ' '] <+: s.bytes → (env.sys 0).malloc 1 = true →
        ∃ fp, env.popen s = some fp ∧ Collects (env.sys 0) .empty fp)
  | some .receive => req.payload.drop (nameOf req.payload).length ≠ [] →
      env.creates (tmpDir ++ nameOf req.payload) = true →
      (contentOf req.payload).length ≤ intMax ∧
        env.saves.count (contentOf req.payload).length = (contentOf req.payload).length
  | some .restore => ∀ run,
      nvramSet (env.sys 0) fs.shadow restoreDefaults restoreOn = .ok run →
        WritesWhole (env.sys 0) run.stored ∧ Commits (env.sys 1) run.shadow
  | some .checksum => ∀ mtd, env.mtd = some mtd → 4 ≤ mtd.length
  | some .cfgInit => ∀ ret fs', nvramLoad (env.sys 0) fs = .ok (ret, fs') →
      Loads (env.sys 0) fs.flash ∧ WritesWhole (env.sys 0) (loadedLength (env.sys 0) fs) ∧
        Commits (env.sys 1) fs'.shadow
  | some .version => ∀ bytes s, env.version = some bytes → VersionString env bytes s →
      VersionRead bytes s
  | some .getall | some .get | some .adslStatus | some .localIp | none => True

section Server

variable {env : Env} {fs : Files} {req : Request}

/-! ### Commands that are served only where they succeed -/

theorem getall_served (h : (scfgGetall env (.start fs)).1 = .ok .ok) :
    fs.shadow ≠ none ∧ (env.sys 0).opens .shadow = true ∧ (env.sys 0).reads .shadow = true := by
  unfold scfgGetall at h
  rw [Locals.files_start] at h
  cases hf : fs.shadow with
  | none =>
      rw [hf] at h
      cases h
  | some bytes =>
      rw [hf] at h
      dsimp only at h
      cases ho : (env.sys 0).opens .shadow with
      | false =>
          rw [ho] at h
          cases h
      | true =>
          cases hr : (env.sys 0).reads .shadow with
          | false =>
              rw [ho, hr] at h
              cases h
          | true => exact ⟨by simp, rfl, rfl⟩

theorem get_served {p : Ptr Obj} (h : (scfgGet env p (.start fs)).1 = .ok .ok) :
    ∃ value fs', nvramGet (env.sys 0) fs p = .ok (some value, fs') := by
  unfold scfgGet at h
  rw [Locals.files_start] at h
  split at h
  · cases h
  · cases h
  · rename_i value fs' hget
    exact ⟨value, fs', hget⟩

theorem localIp_served (h : (scfgLocalIp env (.start fs)).1 = .ok .ok) :
    ∃ value fs',
      nvramGet (env.sys 0) fs (.ofString .constant lanIpaddr) = .ok (some value, fs') := by
  unfold scfgLocalIp at h
  dsimp only at h
  rw [Locals.files_start] at h
  split at h
  · cases h
  · cases h
  · rename_i value fs' hget
    exact ⟨value, fs', hget⟩

theorem adslStatus_served (h : (scfgAdslStatus env (.start fs)).1 = .ok .ok) :
    env.stats ≠ none ∧ env.statsReads = true := by
  unfold scfgAdslStatus at h
  cases hf : env.stats with
  | none =>
      rw [hf] at h
      cases h
  | some bytes =>
      rw [hf] at h
      cases hr : env.statsReads with
      | false =>
          rw [hr] at h
          cases h
      | true => exact ⟨by simp, rfl⟩

/-! ### Commands that drop a result -/

theorem honest_set : ((scfgSet env req.pt (.start fs)).1 = .ok .ok →
      ∃ s name value run, req.pt.Holds s ∧ Assigns s name value ∧
        nvramSet (env.sys 0) fs.shadow name value = .ok run ∧ SetDone (env.sys 0) run) ↔
    ∀ s name value run, req.pt.Holds s → Assigns s name value →
      nvramSet (env.sys 0) fs.shadow name value = .ok run →
        WritesWhole (env.sys 0) run.stored := by
  rw [scfgSet_served]
  constructor
  · intro h s name value run hs ha hrun
    obtain ⟨s', name', value', run', hs', ha', hrun', -, hdone⟩ :=
      h ⟨s, name, value, run, hs, ha, hrun⟩
    obtain rfl := hs.unique hs'
    obtain ⟨rfl, rfl⟩ := ha.unique ha'
    rw [hrun] at hrun'
    cases hrun'
    exact hdone
  · rintro h ⟨s, name, value, run, hs, ha, hrun⟩
    exact ⟨s, name, value, run, hs, ha, hrun, Nvram.nvramSet_ret hrun,
      h s name value run hs ha hrun⟩

theorem honest_commit : ((scfgCommit env (.start fs)).1 = .ok .ok →
      ∃ fs', nvramCommit (env.sys 0) fs = .ok (nvramSuccess, fs')) ↔
    Commits (env.sys 0) fs.shadow := by
  obtain ⟨ret, fs', h, hpos, hiff⟩ := Nvram.nvramCommit_returns (env.sys 0) fs
  have hserved : (scfgCommit env (.start fs)).1 = .ok .ok := by
    rw [scfgCommit, Locals.files_start, h]
    exact congrArg Except.ok (if_neg (Int.not_lt.mpr hpos))
  rw [← hiff, forall_prop_of_true hserved, h]
  constructor
  · rintro ⟨fs'', he⟩
    cases he
    rfl
  · rintro rfl
    exact ⟨fs', rfl⟩

theorem setsDone_iff : ∀ (cs : List (CStr × CStr)) (i : Nat) (f f' : Option (List Byte)),
    setEach env i cs f = .ok f' → (SetsDone env i cs f ↔ SetsTaken env i cs f)
  | [], _, _, _, _ => Iff.rfl
  | (name, value) :: cs, i, f, f', h => by
      unfold setEach at h
      unfold SetsDone SetsTaken
      cases hrun : nvramSet (env.sys i) f name value with
      | error e =>
          rw [hrun] at h
          cases h
      | ok run =>
          rw [hrun, ok_bind] at h
          have ih := setsDone_iff cs (i + 1) run.shadow f' h
          constructor
          · rintro ⟨run', he, hdone, hrest⟩ run'' he'
            cases he
            cases he'
            exact ⟨hdone.2, ih.mp hrest⟩
          · intro h
            obtain ⟨hwhole, hrest⟩ := h run rfl
            exact ⟨run, rfl, ⟨Nvram.nvramSet_ret hrun, hwhole⟩, ih.mpr hrest⟩

theorem honest_test :
    ((scfgTest env (.start fs)).1 = .ok .ok → SetsDone env 0 testSettings fs.shadow) ↔
    ∀ f, setEach env 0 testSettings fs.shadow = .ok f → SetsTaken env 0 testSettings fs.shadow := by
  unfold scfgTest
  rw [Locals.files_start]
  cases h : setEach env 0 testSettings fs.shadow with
  | error e => exact iff_of_true (fun h => by cases h) fun _ h => by cases h
  | ok f =>
      rw [setsDone_iff testSettings 0 fs.shadow f h]
      exact ⟨fun h _ _ => h rfl, fun h _ => h f rfl⟩

theorem honest_restore : ((scfgRestore env (.start fs)).1 = .ok .ok →
      ∃ run fs', nvramSet (env.sys 0) fs.shadow restoreDefaults restoreOn = .ok run ∧
        SetDone (env.sys 0) run ∧
        nvramCommit (env.sys 1) { fs with shadow := run.shadow } = .ok (nvramSuccess, fs')) ↔
    ∀ run, nvramSet (env.sys 0) fs.shadow restoreDefaults restoreOn = .ok run →
      WritesWhole (env.sys 0) run.stored ∧ Commits (env.sys 1) run.shadow := by
  unfold scfgRestore
  dsimp only
  rw [Locals.files_start]
  cases hrun : nvramSet (env.sys 0) fs.shadow restoreDefaults restoreOn with
  | error e => exact iff_of_true (fun h => by cases h) fun _ h => by cases h
  | ok run =>
      obtain ⟨ret, fs', h, -, hiff⟩ :=
        Nvram.nvramCommit_returns (env.sys 1) { fs with shadow := run.shadow }
      dsimp only [Locals.shadow, Locals.start]
      rw [h]
      dsimp only
      constructor
      · intro hserved run' he
        obtain ⟨run'', fs'', he', hdone, hcommit⟩ := hserved rfl
        cases he
        cases he'
        rw [h] at hcommit
        cases hcommit
        exact ⟨hdone.2, hiff.mp rfl⟩
      · intro hwhen _
        obtain ⟨hwhole, hcommits⟩ := hwhen run rfl
        obtain rfl := hiff.mpr hcommits
        exact ⟨run, fs', rfl, ⟨Nvram.nvramSet_ret hrun, hwhole⟩, h⟩

theorem honest_cfgInit : ((scfgCfgInit env (.start fs)).1 = .ok .ok →
      ∃ fs₁ fs₂, nvramLoad (env.sys 0) fs = .ok (nvramSuccess, fs₁) ∧
        WritesWhole (env.sys 0) (loadedLength (env.sys 0) fs) ∧
        nvramCommit (env.sys 1) fs₁ = .ok (nvramSuccess, fs₂)) ↔
    ∀ ret fs', nvramLoad (env.sys 0) fs = .ok (ret, fs') →
      Loads (env.sys 0) fs.flash ∧ WritesWhole (env.sys 0) (loadedLength (env.sys 0) fs) ∧
        Commits (env.sys 1) fs'.shadow := by
  unfold scfgCfgInit
  rw [Locals.files_start]
  cases hload : nvramLoad (env.sys 0) fs with
  | error e => exact iff_of_true (fun h => by cases h) fun _ _ h => by cases h
  | ok r =>
      obtain ⟨ret₁, fs₁⟩ := r
      obtain ⟨ret, fs', h, -, hiff⟩ := Nvram.nvramCommit_returns (env.sys 1) fs₁
      have hret := Nvram.nvramLoad_returns hload
      dsimp only
      rw [h]
      dsimp only
      constructor
      · intro hserved ret' fs'' he
        obtain ⟨fs₁', fs₂, he', hwhole, hcommit⟩ := hserved rfl
        cases he
        cases he'
        rw [h] at hcommit
        cases hcommit
        exact ⟨hret.mp rfl, hwhole, hiff.mp rfl⟩
      · intro hwhen _
        obtain ⟨hloads, hwhole, hcommits⟩ := hwhen ret₁ fs₁ rfl
        obtain rfl := hret.mpr hloads
        obtain rfl := hiff.mpr hcommits
        exact ⟨fs₁, fs', rfl, hwhole, h⟩

theorem honest_checksum : ((scfgChecksum env (.start fs)).1 = .ok .ok →
      ∃ mtd, env.mtd = some mtd ∧ 4 ≤ mtd.length) ↔
    ∀ mtd, env.mtd = some mtd → 4 ≤ mtd.length := by
  unfold scfgChecksum
  cases env.mtd with
  | none => exact iff_of_true (fun h => by cases h) fun _ h => by cases h
  | some mtd =>
      constructor
      · intro h mtd' he
        obtain ⟨mtd'', he', hlen⟩ := h rfl
        cases he
        cases he'
        exact hlen
      · exact fun h _ => ⟨mtd, rfl, h mtd rfl⟩

theorem honest_version : ((scfgVersion env (.start fs)).1 = .ok .ok →
      ∃ bytes s, env.version = some bytes ∧ VersionString env bytes s ∧ VersionRead bytes s) ↔
    ∀ bytes s, env.version = some bytes → VersionString env bytes s → VersionRead bytes s := by
  unfold scfgVersion
  cases env.version with
  | none => exact iff_of_true (fun h => by cases h) fun _ _ h => by cases h
  | some bytes =>
      dsimp only [Locals.rescan, Locals.string, Locals.start]
      unfold stringAt VersionString
      cases hs : CStr.ofMem (((Block.fresh nvramSize).store 0 (bytes.take 128)).contents env.stack
          nvramSize) with
      | none =>
          refine iff_of_true (fun h => by cases h) fun bytes' s hb h => ?_
          cases hb
          rw [hs] at h
          cases h
      | some s =>
          constructor
          · intro h bytes' s' hb hs'
            cases hb
            cases hs.symm.trans hs'
            obtain ⟨bytes'', s'', hb, hs'', hread⟩ := h rfl
            cases hb
            cases hs.symm.trans hs''
            exact hread
          · exact fun h _ => ⟨bytes, s, rfl, hs, h bytes s rfl hs⟩

theorem honest_receive : ((scfgReceive env req (.start fs)).1 = .ok .ok →
      ∃ save, (scfgReceive env req (.start fs)).2.saved = some save ∧
        save.count ≤ intMax ∧ env.saves.count save.count = save.count) ↔
    (req.payload.drop (nameOf req.payload).length ≠ [] →
      env.creates (tmpDir ++ nameOf req.payload) = true →
      (contentOf req.payload).length ≤ intMax ∧
        env.saves.count (contentOf req.payload).length = (contentOf req.payload).length) := by
  by_cases hne : req.payload = []
  · have hmem : req.pt.mem = none := if_pos hne
    refine iff_of_true (fun h => ?_) fun h => absurd (by simp [hne]) h
    rw [scfgReceive, hmem] at h
    cases h
  · rw [scfgReceive_eq hne]
    cases hdrop : req.payload.drop (nameOf req.payload).length with
    | nil => exact iff_of_true (fun h => by cases h) fun h => absurd rfl h
    | cons b pt =>
        have hcontent : contentOf req.payload = pt := by
          rw [contentOf, ← List.drop_drop, hdrop]
          rfl
        dsimp only
        rw [hcontent, forall_prop_of_true (List.cons_ne_nil b pt)]
        split
        · rename_i hc
          rw [forall_prop_of_true hc]
          constructor
          · intro h
            obtain ⟨save, he, hle, hcount⟩ := h rfl
            cases he
            exact ⟨hle, hcount⟩
          · exact fun ⟨hle, hcount⟩ _ => ⟨_, rfl, hle, hcount⟩
        · rename_i hc
          exact iff_of_true (fun h => by cases h) fun h => absurd h hc

/-- `myPipe` of a string returns a length where a shell starts and memory is served. -/
theorem myPipe_served {s : CStr} (hs : req.pt.Holds s) :
    (∃ ret data, myPipe env req.pt = .ok (ret, data) ∧ 0 ≤ ret) ↔
      (env.sys 0).malloc 1 = true ∧
        ∃ fp, env.popen s = some fp ∧ Collects (env.sys 0) .empty fp := by
  rw [myPipe_string hs]
  cases (env.sys 0).malloc 1 with
  | false => exact iff_of_false (fun ⟨_, _, h, _⟩ => by cases h) fun h => by cases h.1
  | true =>
      rw [if_pos rfl, and_iff_right rfl]
      cases env.popen s with
      | none =>
          refine iff_of_false (fun ⟨ret, data, h, hpos⟩ => ?_) fun ⟨fp, h, _⟩ => by cases h
          cases h
          exact absurd hpos (by decide)
      | some fp =>
          rcases pipeLoop_eq (env.sys 0) 0 (Int.le_refl 0) .empty fp with
            ⟨hcol, ret, hpos, he⟩ | ⟨hcol, he⟩
          · exact iff_of_true ⟨ret, _, congrArg Except.ok he, hpos⟩ ⟨fp, rfl, hcol⟩
          · refine iff_of_false (fun ⟨ret, data, h, hpos⟩ => ?_) fun ⟨fp', h, hcol'⟩ => ?_
            · dsimp only at h
              rw [he] at h
              cases h
              exact absurd hpos (by decide)
            · cases h
              exact hcol hcol'

theorem scfgPipe_served {l : Locals} {s : CStr} (hs : req.pt.Holds s) :
    (scfgPipe env req.pt l).1 = .ok .ok ↔ (env.sys 0).malloc 1 = true := by
  unfold scfgPipe
  rw [myPipe_string hs]
  cases (env.sys 0).malloc 1 with
  | false => exact iff_of_false (fun h => by cases h) fun h => by cases h
  | true =>
      rw [if_pos rfl]
      refine iff_of_true ?_ rfl
      cases env.popen s with
      | none => rfl
      | some fp =>
          rcases pipeLoop_eq (env.sys 0) 0 (Int.le_refl 0) .empty fp with
            ⟨-, ret, -, he⟩ | ⟨-, he⟩
          · simp only [he]
          · simp only [he]

theorem scfgCd_served {dir : CStr} {l : Locals} :
    (scfgCd env dir l).1 = .ok .ok ↔ (0 : Byte) ∈ (List.range 1024).map (env.mytmp dir) := by
  unfold scfgCd
  generalize (List.range 1024).map (env.mytmp dir) = m
  by_cases h₀ : (0 : Byte) ∈ m
  · refine iff_of_true ?_ h₀
    unfold stringAt
    cases hm : CStr.ofMem m with
    | none => exact absurd h₀ (CStr.ofMem_eq_none.mp hm)
    | some cwd => rfl
  · rw [stringAt_noNul h₀]
    exact iff_of_false (fun h => by cases h) h₀

theorem honest_console : ((scfgConsole env req.pt (.start fs)).1 = .ok .ok → ∃ s, req.pt.Holds s ∧
      (Leaves s ∨ ¬ Leaves s ∧
        (ascii ['c', 'd', ' '] <+: s.bytes ∧ env.changes (cdDir s) = true ∨
          ¬ ascii ['c', 'd', ' '] <+: s.bytes ∧
            ∃ ret data, myPipe env req.pt = .ok (ret, data) ∧ 0 ≤ ret))) ↔
    ∀ s, req.pt.Holds s → ¬ Leaves s →
      (ascii ['c', 'd', ' '] <+: s.bytes →
        (0 : Byte) ∈ (List.range 1024).map (env.mytmp (cdDir s)) →
        env.changes (cdDir s) = true) ∧
      (¬ ascii ['c', 'd', ' '] <+: s.bytes → (env.sys 0).malloc 1 = true →
        ∃ fp, env.popen s = some fp ∧ Collects (env.sys 0) .empty fp) := by
  rcases payload_cases req with ⟨hmem, hno⟩ | ⟨hmem, h₀, hno⟩ | ⟨s, r, -, hmem, hiff⟩
  · refine iff_of_true (fun h => ?_) fun s hs => absurd hs (hno s)
    rw [scfgConsole, hmem] at h
    cases h
  · have hne : req.payload ≠ [] := fun h => by
      rw [Request.pt, if_pos h] at hmem
      cases hmem
    obtain ⟨e, mode, he, -⟩ := scfgConsole_noNul env (.start fs) hmem hne h₀ hno
    refine iff_of_true (fun h => ?_) fun s hs => absurd hs (hno s)
    rw [he] at h
    cases h
  · have hs := (hiff s).mpr rfl
    simp only [hiff, exists_eq_left, forall_eq]
    rw [scfgConsole_string hmem]
    by_cases hl : Leaves s
    · exact iff_of_true (fun _ => .inl hl) fun h => absurd hl h
    · rw [if_neg hl, or_iff_right hl, and_iff_right hl, forall_prop_of_true hl]
      by_cases hcd : ascii ['c', 'd', ' '] <+: s.bytes
      · rw [if_pos hcd]
        show ((scfgCd env (cdDir s) _).1 = .ok .ok → _) ↔ _
        rw [scfgCd_served]
        simp [hcd]
      · rw [if_neg hcd, scfgPipe_served hs, myPipe_served hs]
        simp only [hcd, false_and, false_or, not_false_eq_true, true_and, false_implies,
          forall_const]
        exact ⟨fun h hm => (h hm).2, fun h hm => ⟨hm, h hm⟩⟩

end Server

/-- **When `SCFG_OK` means success.** -/
theorem honest_iff (env : Env) (fs : Files) (req : Request) :
    Honest env fs req ↔ HonestWhen env fs req := by
  have hcmd : req.header.cmd = req.cmd := rfl
  unfold Honest HonestWhen Performed scfgRun
  rw [hcmd]
  cases Cmd.ofCode req.cmd with
  | none => exact iff_true_intro fun h => by cases h
  | some c =>
      cases c with
      | getall => exact iff_true_intro getall_served
      | get => exact iff_true_intro get_served
      | set => exact honest_set
      | commit => exact honest_commit
      | test => exact honest_test
      | adslStatus => exact iff_true_intro adslStatus_served
      | console => exact honest_console
      | receive => exact honest_receive
      | version => exact honest_version
      | localIp => exact iff_true_intro localIp_served
      | restore => exact honest_restore
      | checksum => exact honest_checksum
      | cfgInit => exact honest_cfgInit

/-! ### The client -/

/-- `scfgmgr_connect` returns the value and leaves the reply. -/
def Connects (link : Link) (c : Call) (r : Int × Option Header) : Prop :=
  ∃ fuel, scfgmgrConnect link c.header c.data c.rdata fuel = some (.ok r)

/-- The call returns the value. -/
def Returns (link : Link) (c : Call) (ret : Int) : Prop :=
  ∃ fuel, c.run link fuel = some (.ok ret)

/-- The exchange is completed, and the reply is no `SCFG_ERR`. -/
def Answered (link : Link) (c : Call) : Prop :=
  ∃ rhd, Connects link c (0, some rhd) ∧ rhd.cmd ≠ scfgErr

/-- The call returns: 0 if the exchange is completed and the reply is no `SCFG_ERR`, else −1. -/
def Reports (link : Link) (c : Call) : Prop :=
  ∃ ret, Returns link c ret ∧ (ret = 0 ∧ Answered link c ∨ ret = -1 ∧ ¬ Answered link c)

/-- The request goes out. -/
def Sent (link : Link) (c : Call) : Prop :=
  link.connects = true ∧ (socketWrite link c.header c.data).isSome = true

/-- The request does not go out, or `socket_read` returns, and where it returns 0 the call looks at
the reply or the reply is no `SCFG_ERR`. -/
def ReportsWhen (link : Link) (c : Call) : Prop :=
  ¬ Sent link c ∨ ReadFails link.sys c.rdata link.peer ∨
    (ReadSucceeds link.sys c.rdata link.peer ∧
      (c.assigns = true ∨ (headerSeen link.sys link.peer).cmd ≠ scfgErr))

section Client

variable {link : Link} {c : Call}

theorem connects_iff (h : Sent link c) (r : Int × Option Header) : Connects link c r ↔
    ∃ run, SocketReads link.sys c.rdata link.peer (.ok run) ∧
      (if run.ret < 0 then -1 else 0, run.header) = r := by
  have hconnect : ∀ fuel, scfgmgrConnect link c.header c.data c.rdata fuel =
      (socketRead link.sys c.rdata link.peer fuel).map fun x =>
        (fun run => (if run.ret < 0 then -1 else 0, run.header)) <$> x := fun fuel => by
    have hsent : (socketWrite link c.header c.data).isNone = false := by
      rw [← Option.not_isSome, h.2]
      rfl
    rw [scfgmgrConnect, h.1, hsent]
    rfl
  simp only [Connects, hconnect, Option.map_eq_some_iff, SocketReads]
  constructor
  · rintro ⟨fuel, x, hx, he⟩
    cases x with
    | error e => cases he
    | ok run => exact ⟨run, ⟨fuel, hx⟩, Except.ok.inj he⟩
  · rintro ⟨run, ⟨fuel, hx⟩, rfl⟩
    exact ⟨fuel, _, hx, rfl⟩

theorem connects_unsent (h : ¬ Sent link c) (r : Int × Option Header) :
    Connects link c r ↔ r = (-1, none) := by
  have hconnect : ∀ fuel, scfgmgrConnect link c.header c.data c.rdata fuel =
      some (.ok (-1, none)) := fun fuel => by
    unfold scfgmgrConnect
    cases hc : link.connects with
    | false => rfl
    | true =>
        have hsent : (socketWrite link c.header c.data).isNone = true := by
          rw [← Option.not_isSome, Bool.not_eq_true']
          simpa using fun hs => h ⟨hc, hs⟩
        rw [hsent]
        rfl
  simp only [Connects, hconnect, Option.some.injEq, Except.ok.injEq, exists_const]
  exact eq_comm

theorem returns_iff (ret : Int) :
    Returns link c ret ↔ ∃ r, Connects link c r ∧ finish c.assigns r = .ok ret := by
  simp only [Returns, Connects, Call.run_eq, clientCall, Option.map_eq_some_iff]
  constructor
  · rintro ⟨fuel, x, hx, he⟩
    cases x with
    | error e => cases he
    | ok r => exact ⟨r, ⟨fuel, hx⟩, he⟩
  · rintro ⟨r, ⟨fuel, hx⟩, he⟩
    exact ⟨fuel, _, hx, he⟩

theorem finish_zero (assigns : Bool) (rhd : Header) : finish assigns (0, some rhd) =
    .ok (if assigns = true ∧ rhd.cmd = scfgErr then -1 else 0) := by
  cases assigns with
  | false => rfl
  | true => simp [finish]

/-- **When a call reports what has become of it.** -/
theorem reports_iff (link : Link) (c : Call) : Reports link c ↔ ReportsWhen link c := by
  by_cases hsent : Sent link c
  · have hreads := connects_iff hsent
    rcases socketReads_cases link.sys c.rdata link.peer with
      ⟨hf, run, hs, hret⟩ | ⟨hnf, hsucc, run, hs, hret, hh⟩ | ⟨hnf, hns, hstuck⟩
    · -- `socket_read` fails
      have hconnect : Connects link c (-1, run.header) :=
        (hreads _).mpr ⟨run, hs, by rw [hret]; rfl⟩
      have hno : ¬ Answered link c := fun ⟨rhd, hc, _⟩ => by
        obtain ⟨run', hs', he⟩ := (hreads _).mp hc
        cases hs.unique hs'
        rw [hret] at he
        cases he
      exact iff_of_true ⟨-1, (returns_iff _).mpr ⟨_, hconnect, rfl⟩, .inr ⟨rfl, hno⟩⟩
        (.inr (.inl hf))
    · -- it returns a reply
      have hconnect : ∀ r, Connects link c r ↔ r = (0, some (headerSeen link.sys link.peer)) :=
        fun r => by
          rw [hreads]
          constructor
          · rintro ⟨run', hs', rfl⟩
            cases hs.unique hs'
            rw [hret, hh]
            rfl
          · rintro rfl
            exact ⟨run, hs, by rw [hret, hh]; rfl⟩
      have hanswered : Answered link c ↔ (headerSeen link.sys link.peer).cmd ≠ scfgErr := by
        simp [Answered, hconnect]
      have hreturns : ∀ ret, Returns link c ret ↔
          ret = if c.assigns = true ∧ (headerSeen link.sys link.peer).cmd = scfgErr then -1
          else 0 :=
        fun ret => by
          simp only [returns_iff, hconnect, exists_eq_left, finish_zero, Except.ok.injEq]
          exact eq_comm
      simp only [Reports, ReportsWhen, hreturns, exists_eq_left, hanswered, hsent, hnf, hsucc,
        not_true_eq_false, false_or, true_and]
      by_cases herr : (headerSeen link.sys link.peer).cmd = scfgErr
      · cases c.assigns <;> simp [herr]
      · simp [herr]
    · -- it does not return
      refine iff_of_false (fun ⟨ret, hr, _⟩ => ?_) ?_
      · obtain ⟨r, hc, -⟩ := (returns_iff _).mp hr
        obtain ⟨run, hs, -⟩ := (hreads _).mp hc
        exact hstuck run hs
      · rintro (h | h | h)
        · exact h hsent
        · exact hnf h
        · exact hns h.1
  · have hconnect := connects_unsent hsent
    have hno : ¬ Answered link c := fun ⟨rhd, hc, _⟩ => by
      have := (hconnect _).mp hc
      cases this
    exact iff_of_true ⟨-1, (returns_iff _).mpr ⟨_, (hconnect _).mpr rfl, rfl⟩, .inr ⟨rfl, hno⟩⟩
      (.inl hsent)

end Client

/-! ### End to end -/

/-- A server whose reply is `SCFG_ERR`. -/
def refusing : Link where
  connects := true
  sendsHeader := true
  sendsData := true
  sys := .ideal
  peer := ⟨[Header.mem ⟨scmMagic, scfgErr, 0⟩], .eof, by decide⟩

end Wap4410n.Scfg
