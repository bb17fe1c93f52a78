import Wap4410n.Nvram.Faults
import Wap4410n.Scfg.Commands

/-!
# Scfg — which requests the server survives

A command takes the payload for a C string of bounded length; `socket_read` promises neither.  Nor
is a value, a file or the output of a program known to fit `buf`.

* `robust_getall` … `robust_receive`: each command, by what it is given.
* `robust_iff`: a request leaves the payload, `buf`, `tmp` and `filename` intact just when it is
  safe (`SafeRequest`).
-/

namespace Wap4410n.Scfg

open CLib CLib.Run
open Nvram (Sys Files nvramSize nvramGet nvramSet nvramLoad nvramCommit eqSign NameRead Own)

/-! ### Robustness -/

/-- How many bytes of a name fit `filename` behind `/tmp/`. -/
def nameRoom : Nat := 122

/-- A command has read nothing through a NULL payload or past its end, and stored nothing outside
`buf`, `tmp` and `filename`; what it has written for `SCFG_RECEIVE` goes to the file named by the
payload up to its first NUL, as far as it fits, and is not more than the bytes behind that NUL. -/
structure Robust (req : Request) (r : Served) : Prop where
  payload : r.1.FaultsIn (· ≠ .payload)
  buf : r.2.buf.InBounds
  tmp : r.2.tmp.InBounds
  filename : r.2.filename.InBounds
  saved : ∀ s, r.2.saved = some s → ∃ (name : CStr) (rest : List Byte),
    req.payload = name.bytes ++ 0 :: rest ∧ s.path = tmpDir ++ name.bytes.take nameRoom ∧
      s.left = rest ∧ s.count ≤ rest.length

/-- The locals only `SCFG_RECEIVE` uses are as they were on entry. -/
structure Plain (l : Locals) : Prop where
  tmp : l.tmp = .fresh 128
  filename : l.filename = .fresh 128
  saved : l.saved = none

section Commands

variable {env : Env} {fs : Files} {req : Request} {r : Served}

theorem plain_start (fs : Files) : Plain (.start fs) := ⟨rfl, rfl, rfl⟩

theorem robust_iff_of_plain (h : Plain r.2) :
    Robust req r ↔ r.1.FaultsIn (· ≠ .payload) ∧ r.2.buf.InBounds := by
  refine ⟨fun hr => ⟨hr.payload, hr.buf⟩, fun ⟨hp, hb⟩ => ⟨hp, hb, ?_, ?_, fun s hs => ?_⟩⟩
  · rw [h.tmp]
    exact Block.inBounds_fresh _
  · rw [h.filename]
    exact Block.inBounds_fresh _
  · rw [h.saved] at hs
    cases hs

/-- A command that stores nothing into `buf`. -/
theorem robust_of_fresh (h : Plain r.2) (hp : r.1.FaultsIn (· ≠ .payload))
    (hb : r.2.buf = .fresh nvramSize) : Robust req r :=
  (robust_iff_of_plain h).mpr ⟨hp, hb ▸ Block.inBounds_fresh _⟩

theorem own_ne_payload {o : Obj} (h : Own o) : o ≠ .payload := by
  rcases h with rfl | rfl | rfl | rfl <;> decide

theorem robust_ok (exit : Exit) {l : Locals} (h : Plain l) (hb : l.buf = .fresh nvramSize) :
    Robust req (.ok exit, l) :=
  robust_of_fresh h (faultsIn_ok _) hb

/-- A call of `libnv` that faults. -/
theorem robust_libnv {α : Type} {x : Run Obj α} {e : Fault Obj} {l : Locals} (he : x = .error e)
    (hx : x.FaultsIn Own) (h : Plain l) (hb : l.buf = .fresh nvramSize) :
    Robust req (.error e, l) :=
  robust_of_fresh h (faultsIn_error.mpr (own_ne_payload (hx e he))) hb

/-- A text shorter than `buf` may be printed over what it holds. -/
theorem robust_sprintf (exit : Exit) {l : Locals} {text : List Byte} (h : Plain l)
    (hs : l.buf.size = nvramSize) (ht : text.length < nvramSize) :
    Robust req (.ok exit, l.sprintf text) ↔ l.buf.InBounds := by
  have hplain : Plain (l.sprintf text) := ⟨h.tmp, h.filename, h.saved⟩
  have hstore : (l.sprintf text).buf.InBounds ↔ _ := Block.inBounds_store (Nat.zero_le _)
  rw [hs, List.length_append, List.length_singleton] at hstore
  rw [robust_iff_of_plain hplain, hstore]
  exact ⟨fun h => h.2.1, fun h => ⟨faultsIn_ok _, h, by omega⟩⟩

theorem robust_rescan {l : Locals} {text : CStr → List Byte} (h : Plain l)
    (hs : l.buf.size = nvramSize) (ht : ∀ s, (text s).length < nvramSize) :
    Robust req (l.rescan env text) ↔ l.buf.InBounds := by
  unfold Locals.rescan
  split
  · rename_i e he
    have hbuf : e.obj = .buf := stringAt_faults _ e he
    refine (robust_iff_of_plain h).trans (and_iff_right (faultsIn_error.mpr ?_))
    rw [hbuf]
    decide
  · exact robust_sprintf _ h hs (ht _)

/-! ### The commands that read a file into `buf` -/

theorem robust_getall : Robust req (scfgGetall env (.start fs)) ↔
    ((env.sys 0).opens .shadow = true → (env.sys 0).reads .shadow = true →
      ∀ bytes, fs.shadow = some bytes → bytes.length ≤ nvramSize) := by
  unfold scfgGetall
  rw [Locals.files_start]
  cases hf : fs.shadow with
  | none => exact iff_of_true (robust_ok _ (plain_start fs) rfl) fun _ _ _ h => by cases h
  | some bytes =>
      dsimp only
      cases ho : (env.sys 0).opens .shadow with
      | false => exact iff_of_true (robust_ok _ (plain_start fs) rfl) fun h => by cases h
      | true =>
          cases hr : (env.sys 0).reads .shadow with
          | false => exact iff_of_true (robust_ok _ ⟨rfl, rfl, rfl⟩ rfl) fun _ h => by cases h
          | true =>
              refine (robust_iff_of_plain ⟨rfl, rfl, rfl⟩).trans ?_
              refine (and_iff_right (faultsIn_ok _)).trans (Block.inBounds_store_fresh.trans ?_)
              simp

theorem length_statsText_lt (s : CStr) : (statsText s).length < nvramSize := by
  unfold statsText
  generalize ((strstr (ascii ['U', 'S']) s.bytes).map scanStats).getD (0, 0) = rates
  have h₁ := length_printInt_le rates.1
  have h₂ := length_printInt_le rates.2
  simp only [List.length_append, ascii, List.length_map, List.length_cons, List.length_nil]
  exact Nat.lt_of_le_of_lt (by omega : _ ≤ 31) (by decide)

theorem length_versionText_lt (annex : Byte) (s : CStr) :
    (versionText annex s).length < nvramSize := by
  unfold versionText
  generalize scanVersion annex s.bytes = v
  have h₁ := length_printHex2_le v.2.1.toUInt32
  have h₂ := length_printHex2_le v.2.2.1.toUInt32
  have h₃ := length_printHex2_le v.2.2.2.toUInt32
  simp only [List.length_append, List.length_cons]
  exact Nat.lt_of_le_of_lt (by omega : _ ≤ 26) (by decide)

theorem robust_adslStatus : Robust req (scfgAdslStatus env (.start fs)) ↔
    (env.statsReads = true → ∀ bytes, env.stats = some bytes → bytes.length ≤ nvramSize) := by
  unfold scfgAdslStatus
  cases hf : env.stats with
  | none => exact iff_of_true (robust_ok _ ⟨rfl, rfl, rfl⟩ rfl) fun _ _ h => by cases h
  | some bytes =>
      dsimp only
      cases hr : env.statsReads with
      | false => exact iff_of_true (robust_ok _ ⟨rfl, rfl, rfl⟩ rfl) fun h => by cases h
      | true =>
          refine (robust_rescan ⟨rfl, rfl, rfl⟩ rfl length_statsText_lt).trans
            (Block.inBounds_store_fresh.trans ?_)
          simp

theorem robust_version : Robust req (scfgVersion env (.start fs)) := by
  unfold scfgVersion
  cases env.version with
  | none => exact robust_of_fresh ⟨rfl, rfl, rfl⟩ (faultsIn_error.mpr (by decide)) rfl
  | some bytes =>
      refine (robust_rescan ⟨rfl, rfl, rfl⟩ rfl (length_versionText_lt _)).mpr
        (Block.inBounds_store_fresh.mpr ?_)
      exact (List.length_take_le _ _).trans (by decide)

theorem robust_checksum : Robust req (scfgChecksum env (.start fs)) := by
  unfold scfgChecksum
  cases env.mtd with
  | none => exact robust_ok _ ⟨rfl, rfl, rfl⟩ rfl
  | some mtd =>
      refine (robust_sprintf _ ⟨rfl, rfl, rfl⟩ rfl ?_).mpr (Block.inBounds_fresh nvramSize)
      exact Nat.lt_of_le_of_lt (length_printHex_le _) (by decide)

/-! ### The commands that only call `libnv` -/

theorem robust_commit : Robust req (scfgCommit env (.start fs)) := by
  unfold scfgCommit
  split
  · rename_i e he
    exact robust_libnv he Nvram.nvramCommit_faults ⟨rfl, rfl, rfl⟩ rfl
  · exact robust_ok _ ⟨rfl, rfl, rfl⟩ rfl

theorem setEach_faults : ∀ (cs : List (CStr × CStr)) (i : Nat) (f : Option (List Byte)),
    (setEach env i cs f).FaultsIn Own
  | [], _, _ => faultsIn_ok _
  | _ :: cs, i, f =>
      (Nvram.nvramSet_faults f _ _).bind fun r _ => setEach_faults cs (i + 1) r.shadow

theorem robust_test : Robust req (scfgTest env (.start fs)) := by
  unfold scfgTest
  split
  · rename_i e he
    exact robust_libnv he (setEach_faults _ _ _) ⟨rfl, rfl, rfl⟩ rfl
  · exact robust_ok _ ⟨rfl, rfl, rfl⟩ rfl

theorem robust_restore : Robust req (scfgRestore env (.start fs)) := by
  unfold scfgRestore
  dsimp only
  split
  · rename_i e he
    exact robust_libnv he (Nvram.nvramSet_faults _ _ _) ⟨rfl, rfl, rfl⟩ rfl
  · split
    · rename_i e he
      exact robust_libnv he Nvram.nvramCommit_faults ⟨rfl, rfl, rfl⟩ rfl
    · exact robust_ok _ ⟨rfl, rfl, rfl⟩ rfl

theorem robust_cfgInit : Robust req (scfgCfgInit env (.start fs)) := by
  unfold scfgCfgInit
  split
  · rename_i e he
    exact robust_libnv he Nvram.nvramLoad_faults ⟨rfl, rfl, rfl⟩ rfl
  · split
    · rename_i e he
      exact robust_libnv he Nvram.nvramCommit_faults ⟨rfl, rfl, rfl⟩ rfl
    · exact robust_ok _ ⟨rfl, rfl, rfl⟩ rfl

/-! ### The commands that copy a value into `buf` -/

theorem robust_copy {l : Locals} (h : Plain l) (hb : l.buf = .fresh nvramSize) (v : CStr) :
    Robust req (.ok .ok, l.copy v) ↔ v.length < nvramSize := by
  have hplain : Plain (l.copy v) := ⟨h.tmp, h.filename, h.saved⟩
  have hstore : (l.copy v).buf.InBounds ↔ _ := Block.inBounds_strcpy
  rw [hb, Block.size_fresh] at hstore
  rw [robust_iff_of_plain hplain, hstore]
  exact ⟨fun h => h.2.2, fun h => ⟨faultsIn_ok _, Block.inBounds_fresh _, h⟩⟩

/-- A string that `nvram_get` returns for the name at `p` fits `buf`. -/
def ValueFits (sys : Sys) (fs : Files) (p : Ptr Obj) : Prop :=
  ∀ value fs', nvramGet sys fs p = .ok (some value, fs') →
    ∀ v, stringAt Obj.value value = .ok v → v.length < nvramSize

/-- A value that `nvram_get` has returned. -/
theorem robust_value {value : List Byte} {l : Locals} (h : Plain l)
    (hb : l.buf = .fresh nvramSize) :
    Robust req (l.copyValue value) ↔
      ∀ v, stringAt Obj.value value = .ok v → v.length < nvramSize := by
  unfold Locals.copyValue
  cases he : stringAt Obj.value value with
  | error e =>
      refine iff_of_true (robust_of_fresh h (faultsIn_error.mpr ?_) hb) fun _ h => by cases h
      have hobj : e.obj = .value := stringAt_faults _ e he
      rw [hobj]
      decide
  | ok v =>
      refine (robust_copy h hb v).trans ⟨fun h w hw => ?_, fun h => h v rfl⟩
      cases hw
      exact h

/-- `nvram_get` of the payload faults there just when it reads a payload that is no string. -/
theorem nvramGet_payload_iff (sys : Sys) (fs : Files) (req : Request) :
    (nvramGet sys fs req.pt).FaultsIn (· ≠ .payload) ↔
      (NameRead sys fs → ∃ s, req.pt.Holds s) := by
  by_cases hp : ∃ s, req.pt.Holds s
  · obtain ⟨s, hs⟩ := hp
    exact iff_of_true ((Nvram.nvramGet_faults sys fs hs).mono fun _ => own_ne_payload)
      fun _ => ⟨s, hs⟩
  · have hobj : req.pt.obj = .payload := rfl
    have hiff := Nvram.nvramGet_faults_name sys fs (not_exists.mp hp) (by rw [hobj]; decide)
    rw [hobj] at hiff
    rw [hiff]
    exact ⟨fun h h' => absurd h' h, fun h h' => hp (h h')⟩

theorem robust_get : Robust req (scfgGet env req.pt (.start fs)) ↔
    (NameRead (env.sys 0) fs → ∃ s, req.pt.Holds s) ∧ ValueFits (env.sys 0) fs req.pt := by
  rw [← nvramGet_payload_iff]
  unfold scfgGet ValueFits
  rw [Locals.files_start]
  cases hget : nvramGet (env.sys 0) fs req.pt with
  | error e =>
      refine (robust_iff_of_plain ⟨rfl, rfl, rfl⟩).trans ?_
      refine and_congr faultsIn_error_congr ?_
      exact iff_of_true (Block.inBounds_fresh _) fun _ _ h => by cases h
  | ok r =>
      obtain ⟨value, fs'⟩ := r
      rw [and_iff_right (faultsIn_ok _)]
      cases value with
      | none => exact iff_of_true (robust_ok _ ⟨rfl, rfl, rfl⟩ rfl) fun _ _ h => by cases h
      | some value =>
          refine (robust_value ⟨rfl, rfl, rfl⟩ rfl).trans
            ⟨fun h w fs'' hw => ?_, fun h => h _ _ rfl⟩
          cases hw
          exact h

theorem robust_localIp : Robust req (scfgLocalIp env (.start fs)) ↔
    ValueFits (env.sys 0) fs (.ofString .constant lanIpaddr) := by
  unfold scfgLocalIp ValueFits
  dsimp only
  rw [Locals.files_start]
  cases hget : nvramGet (env.sys 0) fs (.ofString .constant lanIpaddr) with
  | error e =>
      have hown := Nvram.nvramGet_faults (env.sys 0) fs (Ptr.holds_ofString .constant lanIpaddr)
      exact iff_of_true (robust_libnv hget hown ⟨rfl, rfl, rfl⟩ rfl) fun _ _ h => by cases h
  | ok r =>
      obtain ⟨value, fs'⟩ := r
      cases value with
      | none =>
          exact iff_of_true (robust_of_fresh ⟨rfl, rfl, rfl⟩ (faultsIn_error.mpr (by decide)) rfl)
            fun _ _ h => by cases h
      | some value =>
          refine (robust_value ⟨rfl, rfl, rfl⟩ rfl).trans
            ⟨fun h w fs'' hw => ?_, fun h => h _ _ rfl⟩
          cases hw
          exact h

/-! ### The commands that take the payload for a string -/

/-- A fault at the payload. -/
theorem not_robust_of_payload {e : Fault Obj} {l : Locals} (he : e.obj = .payload) :
    ¬ Robust req (.error e, l) :=
  fun h => h.payload e rfl he

theorem robust_set : Robust req (scfgSet env req.pt (.start fs)) ↔
    ∃ s, req.pt.Holds s ∧ (eqSign ∈ s.bytes → s.length < nvramSize) := by
  unfold scfgSet
  rcases payload_cases req with ⟨hmem, hno⟩ | ⟨hmem, h₀, hno⟩ | ⟨s, r, -, hmem, hiff⟩
  · rw [hmem]
    exact iff_of_false (not_robust_of_payload rfl) fun ⟨s, hs, _⟩ => hno s hs
  · rw [hmem]
    refine iff_of_false ?_ fun ⟨s, hs, _⟩ => hno s hs
    simp only [strchrHas_noNul h₀]
    by_cases heq : eqSign ∈ req.payload
    · simp only [if_pos heq, stringAt_noNul h₀]
      exact not_robust_of_payload rfl
    · simp only [if_neg heq]
      exact not_robust_of_payload rfl
  · have hex : (∃ s, req.pt.Holds s ∧ (eqSign ∈ s.bytes → s.length < nvramSize)) ↔
        (eqSign ∈ s.bytes → s.length < nvramSize) := by
      simp only [hiff, exists_eq_left]
    have heq₀ : eqSign ≠ 0 := by decide
    rw [hex, hmem]
    simp only [strchrHas_append heq₀ s.noNul]
    by_cases heq : eqSign ∈ s.bytes
    · -- whatever follows stores nothing more into `buf`
      have hcopy : ∀ l : Locals, Plain l → l.buf = (Block.fresh nvramSize).strcpy s →
          ∀ x : Run Obj Exit, x.FaultsIn (· ≠ .payload) →
          (Robust req (x, l) ↔ (eqSign ∈ s.bytes → s.length < nvramSize)) := fun l h hb x hx => by
        rw [robust_iff_of_plain h, and_iff_right hx]
        show l.buf.InBounds ↔ _
        rw [hb, Block.inBounds_strcpy]
        exact ⟨fun h _ => h.2, fun h => ⟨Block.inBounds_fresh _, h heq⟩⟩
      simp only [decide_eq_true heq, stringAt_append]
      split
      · exact hcopy _ ⟨rfl, rfl, rfl⟩ rfl _ (faultsIn_ok _)
      · split
        · rename_i e he
          exact hcopy _ ⟨rfl, rfl, rfl⟩ rfl _
            (faultsIn_error.mpr (own_ne_payload (Nvram.nvramSet_faults _ _ _ e he)))
        · exact hcopy _ ⟨rfl, rfl, rfl⟩ rfl _ (faultsIn_ok _)
    · simp only [decide_eq_false heq]
      exact iff_of_true (robust_ok _ ⟨rfl, rfl, rfl⟩ rfl) fun h => absurd h heq

/-- The string in `mytmp` is shorter than `mytmp`. -/
theorem length_cwd_lt {m : List Byte} {cwd : CStr} (hm : m.length = 1024)
    (h : stringAt Obj.mytmp m = .ok cwd) : cwd.length < 1024 := by
  unfold stringAt at h
  split at h
  · rename_i s hs
    cases h
    obtain ⟨r, rfl⟩ := CStr.ofMem_eq_some.mp hs
    rw [List.length_append, List.length_cons] at hm
    show cwd.bytes.length < 1024
    omega
  · cases h

/-- The output of the command, where it is given to a shell, fits `buf`. -/
def OutputFits (env : Env) (s : CStr) : Prop :=
  ¬ Leaves s → ¬ ascii ['c', 'd', ' '] <+: s.bytes → (env.sys 0).malloc 1 = true →
    ∀ fp, env.popen s = some fp → Collects (env.sys 0) .empty fp →
      (outputOf fp).length < nvramSize

theorem robust_console_pipe {l : Locals} (h : Plain l) (hb : l.buf = .fresh nvramSize) {s : CStr}
    (hs : req.pt.Holds s) (hl : ¬ Leaves s) (hcd : ¬ ascii ['c', 'd', ' '] <+: s.bytes) :
    Robust req (scfgPipe env req.pt l) ↔ OutputFits env s := by
  unfold scfgPipe OutputFits
  rw [myPipe_string hs]
  cases hm : (env.sys 0).malloc 1 with
  | false =>
      refine iff_of_true (robust_of_fresh h ?_ hb) fun _ _ h => by cases h
      exact faultsIn_error.mpr (by decide)
  | true =>
      simp only [hl, hcd, not_false_eq_true, forall_const, if_true]
      cases hpopen : env.popen s with
      | none => exact iff_of_true ((robust_copy h hb _).mpr (by decide)) fun _ h => by cases h
      | some fp =>
          rcases pipeLoop_eq (env.sys 0) 0 (Int.le_refl 0) .empty fp with
            ⟨hcol, ret, -, he⟩ | ⟨hcol, he⟩
          · simp only [he]
            refine (robust_copy h hb _).trans ⟨fun h fp' hfp _ => ?_, fun h => h fp rfl hcol⟩
            cases hfp
            exact h
          · simp only [he]
            refine iff_of_true (robust_ok _ h hb) fun fp' hfp hcol' => ?_
            cases hfp
            exact absurd hcol' hcol

theorem robust_console_string {s : CStr} {r : List Byte}
    (hmem : req.pt.mem = some (s.bytes ++ 0 :: r)) (hs : req.pt.Holds s) :
    Robust req (scfgConsole env req.pt (.start fs)) ↔ OutputFits env s := by
  rw [scfgConsole_string hmem]
  by_cases hl : Leaves s
  · rw [if_pos hl]
    exact iff_of_true (robust_ok _ ⟨rfl, rfl, rfl⟩ rfl) fun h => absurd hl h
  · rw [if_neg hl]
    by_cases hcd : ascii ['c', 'd', ' '] <+: s.bytes
    · -- the working directory
      rw [if_pos hcd]
      refine iff_of_true ?_ fun _ h => absurd hcd h
      unfold scfgCd
      split
      · rename_i e he
        have hobj : e.obj = .mytmp := stringAt_faults _ e he
        refine robust_of_fresh ⟨rfl, rfl, rfl⟩ (faultsIn_error.mpr ?_) rfl
        rw [hobj]
        decide
      · rename_i cwd hcwd
        refine (robust_sprintf _ ⟨rfl, rfl, rfl⟩ rfl ?_).mpr (Block.inBounds_fresh _)
        have hlt : cwd.bytes.length < 1024 := length_cwd_lt (by simp) hcwd
        rw [List.length_append]
        exact Nat.lt_of_lt_of_le (Nat.add_lt_add_left hlt 3) (by decide)
    · rw [if_neg hcd]
      exact robust_console_pipe ⟨rfl, rfl, rfl⟩ rfl hs hl hcd

theorem robust_console : Robust req (scfgConsole env req.pt (.start fs)) ↔
    (∃ s, req.pt.Holds s ∧ OutputFits env s) ∨ Unread env req := by
  rcases payload_cases req with ⟨hmem, hno⟩ | ⟨hmem, h₀, hno⟩ | ⟨s, r, hpay, hmem, hiff⟩
  · have hnil : req.payload = [] := by
      by_contra h
      rw [Request.pt, if_neg h] at hmem
      cases hmem
    have hnull : scfgConsole env req.pt (.start fs) = (.error (.null .payload), .start fs) := by
      rw [scfgConsole, hmem]
    rw [hnull]
    refine iff_of_false (not_robust_of_payload rfl) ?_
    rintro (⟨s, hs, _⟩ | ⟨hne, _⟩)
    · exact hno s hs
    · exact hne hnil
  · have hne : req.payload ≠ [] := fun h => by
      rw [Request.pt, if_pos h] at hmem
      cases hmem
    have hex : ¬ ∃ s, req.pt.Holds s ∧ OutputFits env s := fun ⟨s, hs, _⟩ => hno s hs
    rw [or_iff_right hex]
    obtain ⟨e, mode, he, hcases⟩ := scfgConsole_noNul env (.start fs) hmem hne h₀ hno
    rw [he]
    rcases hcases with ⟨hobj, hun⟩ | ⟨hobj, hun⟩
    · exact iff_of_false (not_robust_of_payload hobj) hun
    · refine iff_of_true (robust_of_fresh ⟨rfl, rfl, rfl⟩ (faultsIn_error.mpr ?_) rfl) hun
      rw [hobj]
      decide
  · have hex : (∃ s, req.pt.Holds s ∧ OutputFits env s) ↔ OutputFits env s := by
      simp only [hiff, exists_eq_left]
    have hun : ¬ Unread env req := fun ⟨_, h₀, _⟩ => h₀ (by rw [hpay]; simp)
    rw [or_iff_left hun, hex, robust_console_string hmem ((hiff s).mpr rfl)]

/-! ### `SCFG_RECEIVE` -/

/-- A name that fits `filename` behind `/tmp/` fits `tmp`. -/
theorem robust_receive : Robust req (scfgReceive env req (.start fs)) ↔
    ∃ s, req.pt.Holds s ∧ s.length ≤ nameRoom := by
  have hroom : nameRoom = 122 := rfl
  by_cases hne : req.payload = []
  · have hmem : req.pt.mem = none := if_pos hne
    have hnull : scfgReceive env req (.start fs) = (.error (.null .payload), .start fs) := by
      rw [scfgReceive, hmem]
    rw [hnull]
    refine iff_of_false (not_robust_of_payload rfl) fun ⟨s, ⟨r, hr⟩, _⟩ => ?_
    rw [hmem] at hr
    cases hr
  · -- the name is the string the payload holds, as far as it fits `tmp`
    have hholds : ∀ s, req.pt.Holds s → nameOf req.payload = s.bytes.take 128 ∧
        0 < (req.payload.drop (nameOf req.payload).length).length := by
      rintro s ⟨r, hr⟩
      have hmem : req.pt.mem = some req.payload := if_neg hne
      rw [hmem] at hr
      rw [Option.some.inj hr, nameOf_string]
      refine ⟨rfl, ?_⟩
      have hle : (s.bytes.take 128).length ≤ s.bytes.length := List.length_take_le' _ _
      rw [List.length_drop, List.length_append, List.length_cons]
      omega
    rw [scfgReceive_eq hne]
    cases hdrop : req.payload.drop (nameOf req.payload).length with
    | nil =>
        refine iff_of_false (not_robust_of_payload rfl) fun ⟨s, hs, _⟩ => ?_
        have := (hholds s hs).2
        rw [hdrop] at this
        exact absurd this (Nat.lt_irrefl 0)
    | cons b pt =>
        dsimp only
        have hsize : ((Block.fresh 128).store 0 (tmpDir ++ (nameOf req.payload ++ [0]))).InBounds ↔
            (nameOf req.payload).length ≤ nameRoom := by
          rw [Block.inBounds_store_fresh, List.length_append, List.length_append]
          show 5 + ((nameOf req.payload).length + 1) ≤ 128 ↔ _
          omega
        by_cases hlen : (nameOf req.payload).length ≤ nameRoom
        · have hpay := drop_nameOf hdrop (by omega)
          have hs : req.pt.Holds ⟨nameOf req.payload, nameOf_noNul _⟩ :=
            ⟨pt, (if_neg hne : req.pt.mem = _).trans (congrArg some hpay)⟩
          have htmp : (Block.mk 128 (nameOf req.payload ++ [0])).InBounds := by
            show (nameOf req.payload ++ [0]).length ≤ 128
            rw [List.length_append, List.length_singleton]
            omega
          refine iff_of_true ?_ ⟨_, hs, hlen⟩
          split
          · refine ⟨faultsIn_ok _, Block.inBounds_fresh _, htmp, hsize.mpr hlen, fun save h => ?_⟩
            cases h
            refine ⟨⟨nameOf req.payload, nameOf_noNul _⟩, pt, hpay, ?_, rfl, Nat.le_refl _⟩
            rw [List.take_of_length_le hlen]
          · exact ⟨faultsIn_ok _, Block.inBounds_fresh _, htmp, hsize.mpr hlen,
              fun _ h => by cases h⟩
        · refine iff_of_false (fun h => hlen (hsize.mp ?_)) fun ⟨s, hs, hfit⟩ => hlen ?_
          · split at h
            · exact h.filename
            · exact h.filename
          · rw [(hholds s hs).1]
            exact (List.length_take_le' _ _).trans hfit

end Commands

/-! ### Every request -/

/-- What a command needs of the payload, the files and what else it reads. -/
def SafeRequest (env : Env) (fs : Files) (req : Request) : Prop :=
  match Cmd.ofCode req.cmd with
  | some .getall =>
    (env.sys 0).opens .shadow = true → (env.sys 0).reads .shadow = true →
      ∀ bytes, fs.shadow = some bytes → bytes.length ≤ nvramSize
  | some .get =>
    (NameRead (env.sys 0) fs → ∃ s, req.pt.Holds s) ∧ ValueFits (env.sys 0) fs req.pt
  | some .set => ∃ s, req.pt.Holds s ∧ (eqSign ∈ s.bytes → s.length < nvramSize)
  | some .adslStatus =>
    env.statsReads = true → ∀ bytes, env.stats = some bytes → bytes.length ≤ nvramSize
  | some .console => (∃ s, req.pt.Holds s ∧ OutputFits env s) ∨ Unread env req
  | some .receive => ∃ s, req.pt.Holds s ∧ s.length ≤ nameRoom
  | some .localIp => ValueFits (env.sys 0) fs (.ofString .constant lanIpaddr)
  | some .commit | some .test | some .version | some .restore | some .checksum | some .cfgInit
  | none => True

/-- **A request leaves the payload and the arrays of `scfg_run` intact just when it is safe.** -/
theorem robust_iff (env : Env) (fs : Files) (req : Request) :
    Robust req (scfgRun env fs req) ↔ SafeRequest env fs req := by
  have hcmd : req.header.cmd = req.cmd := rfl
  unfold scfgRun SafeRequest
  rw [hcmd]
  cases Cmd.ofCode req.cmd with
  | none => exact iff_true_intro (robust_ok _ (plain_start fs) rfl)
  | some c =>
      cases c with
      | getall => exact robust_getall
      | get => exact robust_get
      | set => exact robust_set
      | commit => exact iff_true_intro robust_commit
      | test => exact iff_true_intro robust_test
      | adslStatus => exact robust_adslStatus
      | console => exact robust_console
      | receive => exact robust_receive
      | version => exact iff_true_intro robust_version
      | localIp => exact robust_localIp
      | restore => exact iff_true_intro robust_restore
      | checksum => exact iff_true_intro robust_checksum
      | cfgInit => exact iff_true_intro robust_cfgInit

/-- A `SCFG_SET` of length 0 passes `socket_read` with no payload, and `strcpy` reads through
NULL. -/
theorem not_robust_set_empty :
    ¬ Robust ⟨Cmd.set.code, [], by decide⟩
      (scfgRun .ideal ⟨.filled nvramSize 0xff, some [], none⟩ ⟨Cmd.set.code, [], by decide⟩) :=
  not_robust_of_payload rfl

end Wap4410n.Scfg
