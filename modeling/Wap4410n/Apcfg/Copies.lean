import Wap4410n.Apcfg.Shared

/-!
# Apcfg — the copies of the shared settings

A setter of a shared setting compares its argument with one of the four copies and writes all of
them where they differ, so it is right only while the copies are equal (`Copies`).  Two kinds of
setter write one copy and no other: those of the accounting servers, whose loop over the VAPs names
the setting by `bss`, and `apCfgKey1ValSet` to `apCfgKey4ValSet`.  And a text that is accepted may
be longer than the buffer of the getter that reads it back.  `SharedCall.Meets` excludes both.

* `sharedCall_step`: a call that meets it keeps the copies equal and returns; where it returns
  `A_OK` the getter of every VAP returns the new value.
* `sharedCopies_run`: the same along any sequence of calls.
* `acctServerSet_splits_copies`: without it, one call leaves VAP 0 with a server of its own.
-/

namespace Wap4410n.Apcfg

open CLib

/-! ### Copies -/

/-- The settings all VAPs share. -/
def sharedFields : List VapField :=
  [.radiusServer, .backupRadiusServer, .radiusPort, .backupRadiusPort, .radiusKey, .backupRadiusKey,
    .acctServer, .backupAcctServer, .acctPort, .backupAcctPort, .acctKey, .backupAcctKey,
    .key 1, .key 2, .key 3, .key 4, .keyLength, .keyMethod]

/-- The four copies of every shared setting are equal. -/
def Copies (unit : Nat) (c : Config) : Prop :=
  ∀ f ∈ sharedFields, ∀ vap ∈ vaps, ∀ other ∈ vaps,
    c.get (.vap unit vap f) = c.get (.vap unit other f)

instance (unit : Nat) (c : Config) : Decidable (Copies unit c) := by
  unfold Copies
  infer_instance

/-! ### Calls -/

/-- The shared texts. -/
inductive SharedText where
  | radiusServer
  | backupRadiusServer
  | radiusSecret
  | backupRadiusSecret
  | acctServer
  | backupAcctServer
  | acctSecret
  | backupAcctSecret

namespace SharedText

def field : SharedText → VapField
  | radiusServer => .radiusServer
  | backupRadiusServer => .backupRadiusServer
  | radiusSecret => .radiusKey
  | backupRadiusSecret => .backupRadiusKey
  | acctServer => .acctServer
  | backupAcctServer => .backupAcctServer
  | acctSecret => .acctKey
  | backupAcctSecret => .backupAcctKey

def set : SharedText → Nat → Nat → CStr → Cfg Status
  | radiusServer => apCfgRadiusServerSet
  | backupRadiusServer => apCfgBackupRadiusServerSet
  | radiusSecret => apCfgRadiusSecretSet
  | backupRadiusSecret => apCfgBackupRadiusSecretSet
  | acctServer => scApCfgAcctServerSet
  | backupAcctServer => scApCfgBackupAcctServerSet
  | acctSecret => scApCfgAcctSecretSet
  | backupAcctSecret => scApCfgBackupAcctSecretSet

def get : SharedText → Nat → Nat → Cfg CStr
  | radiusServer => apCfgRadiusServerGet
  | backupRadiusServer => apCfgBackupRadiusServerGet
  | radiusSecret => apCfgRadiusSecretGet
  | backupRadiusSecret => apCfgBackupRadiusSecretGet
  | acctServer => scApCfgAcctServerGet
  | backupAcctServer => scApCfgBackupAcctServerGet
  | acctSecret => scApCfgAcctSecretGet
  | backupAcctSecret => scApCfgBackupAcctSecretGet

/-- The accounting servers. -/
def OneCopy : SharedText → Prop
  | acctServer | backupAcctServer => True
  | _ => False

/-- The least length the setter accepts. -/
def lo : SharedText → Nat
  | acctServer | backupAcctServer => 1
  | _ => 0

/-- The greatest length the setter accepts. -/
def hi : SharedText → Nat
  | radiusServer | backupRadiusServer => cfgMaxRadiusname
  | _ => cfgMaxSecretlen

/-- The size of the getter's buffer. -/
def size : SharedText → Nat
  | acctSecret | backupAcctSecret => 128
  | _ => 32

theorem field_mem (t : SharedText) : t.field ∈ sharedFields := by cases t <;> decide

theorem set_eq (t : SharedText) (h : ¬ t.OneCopy) :
    t.set = setSharedText t.lo t.hi t.size t.field := by
  cases t <;> first | rfl | exact absurd trivial h

theorem set_eq_setAcctServer (t : SharedText) (h : t.OneCopy) : t.set = setAcctServer t.field := by
  cases t <;> first | rfl | exact h.elim

theorem get_eq (t : SharedText) (unit bss : Nat) :
    t.get unit bss = getText t.size (.vap unit bss t.field) := by
  cases t <;> rfl

end SharedText

/-- The shared numbers. -/
inductive SharedNumber where
  | radiusPort
  | backupRadiusPort
  | acctPort
  | backupAcctPort
  | keyBitLen
  | keyEntryMethod

namespace SharedNumber

def field : SharedNumber → VapField
  | radiusPort => .radiusPort
  | backupRadiusPort => .backupRadiusPort
  | acctPort => .acctPort
  | backupAcctPort => .backupAcctPort
  | keyBitLen => .keyLength
  | keyEntryMethod => .keyMethod

def set : SharedNumber → Nat → Nat → Int → Cfg Status
  | radiusPort => apCfgRadiusPortSet
  | backupRadiusPort => apCfgBackupRadiusPortSet
  | acctPort => scApCfgAcctPortSet
  | backupAcctPort => scApCfgBackupAcctPortSet
  | keyBitLen => apCfgKeyBitLenSet
  | keyEntryMethod => apCfgKeyEntryMethodSet

def get : SharedNumber → Nat → Nat → Cfg Int
  | radiusPort => apCfgRadiusPortGet
  | backupRadiusPort => apCfgBackupRadiusPortGet
  | acctPort => scApCfgAcctPortGet
  | backupAcctPort => scApCfgBackupAcctPortGet
  | keyBitLen => apCfgKeyBitLenGet
  | keyEntryMethod => apCfgKeyEntryMethodGet

/-- The numbers the setter refuses. -/
def Refused : SharedNumber → Int → Prop
  | keyBitLen, v => v ≠ 40 ∧ v ≠ 104 ∧ v ≠ 128
  | keyEntryMethod, _ => False
  | _, v => v < 1 ∨ 65534 < v

theorem get_eq (n : SharedNumber) (unit bss : Nat) :
    n.get unit bss = getNumber 60 (.vap unit bss n.field) := by
  cases n <;> rfl

end SharedNumber

/-- The calls on the shared settings of a radio. -/
inductive SharedCall where
  | text (t : SharedText) (bss : Fin 4) (p : CStr)
  | number (n : SharedNumber) (bss : Fin 4) (v : Int32)
  /-- `apCfgKeyValSet` of key `keyId + 1` -/
  | key (bss keyId : Fin 4) (p : CStr)
  /-- `apCfgKey1ValSet` to `apCfgKey4ValSet` -/
  | keyN (bss keyId : Fin 4) (p : CStr)

namespace SharedCall

/-- The call as `libapcfg` makes it. -/
def run (unit : Nat) : SharedCall → Cfg Status
  | text t bss p => t.set unit bss p
  | number n bss v => n.set unit bss v.toInt
  | key bss keyId p => apCfgKeyValSet unit bss (keyId + 1) p
  | keyN bss keyId p => apCfgKeyNValSet unit bss (keyId + 1) p

/-- The getter of VAP `vap` returns the new value. -/
def ReadBack (unit vap : Nat) (c : Config) : SharedCall → Prop
  | text t _ p => t.get unit vap c = (.ok p, c)
  | number n _ v => n.get unit vap c = (.ok v.toInt, c)
  | key _ keyId p | keyN _ keyId p => apCfgKeyValGet unit vap (keyId + 1) c = (.ok p, c)

/-- **When a call is as it should be.**  It is refused; or what is stored and what is to be stored
fit the buffers they are copied into, and where the setter writes one copy only, that copy is as
it is to be. -/
def Meets (unit : Nat) (c : Config) : SharedCall → Prop
  | text t bss p => (p.length < t.lo ∨ t.hi < p.length) ∨
      (c.get (.vap unit bss t.field)).length < t.size ∧ p.length < t.size ∧
        (t.OneCopy → p = c.get (.vap unit bss t.field))
  | number n bss v => n.Refused v.toInt ∨
      (c.get (.vap unit bss n.field)).length < 60 ∧
        (v.toInt = atoi (c.get (.vap unit bss n.field)) ∨ (CStr.ofInt v.toInt).length < 10)
  | key bss keyId p => ¬ KeyLength p.length ∨
      (c.get (.vap unit bss (.key (keyId + 1)))).length < 32 ∧ p.length < 32
  | keyN bss keyId p => ¬ KeyLength p.length ∨
      p = c.get (.vap unit bss (.key (keyId + 1))) ∧ p.length < 32

end SharedCall

/-! ### Writing all copies -/

/-- The call writes `p` to every copy of `f` and to no other setting of a VAP. -/
def Broadcast (unit : Nat) (f : VapField) (p : CStr) (m : Cfg Unit) : Prop :=
  ∀ c, (m c).1 = .ok () ∧ ∀ vap g, (m c).2.get (.vap unit vap g) =
    if vap ∈ vaps ∧ g = f then p else c.get (.vap unit vap g)

section Broadcast

variable {unit : Nat} {f : VapField} {p : CStr}

/-- A loop over VAPs, each step of which writes the copy of one. -/
theorem each_writes {g : Nat → Cfg Unit}
    (hg : ∀ i c, (g i c).1 = .ok () ∧ (g i c).2.get = (c.set (.vap unit i f) p).get) :
    ∀ (is : List Nat) (c : Config), (Act.each g is c).1 = .ok () ∧
      ∀ vap h, (Act.each g is c).2.get (.vap unit vap h) =
        if vap ∈ is ∧ h = f then p else c.get (.vap unit vap h)
  | [], c => ⟨rfl, fun vap h => by simp [Act.each]⟩
  | i :: is, c => by
      obtain ⟨hok, hget⟩ := hg i c
      have hstep : Act.each g (i :: is) c = Act.each g is (g i c).2 :=
        Act.bind_ok (Prod.ext hok rfl) _
      obtain ⟨ihok, ihget⟩ := each_writes hg is (g i c).2
      rw [hstep]
      refine ⟨ihok, fun vap h => ?_⟩
      rw [ihget, hget, Config.get_set]
      by_cases hvap : vap = i <;> by_cases hf : h = f <;> simp [hvap, hf]

/-- A call behind that leaves the settings of the VAPs alone. -/
theorem Broadcast.andThen {m m' : Cfg Unit} (h : Broadcast unit f p m) (hm : Act.Returns m')
    (hk : ∀ vap g, Keeps (.vap unit vap g) m') : Broadcast unit f p (m >>= fun _ => m') := by
  intro c
  obtain ⟨hok, hget⟩ := h c
  rw [Act.bind_ok (Prod.ext hok rfl)]
  obtain ⟨⟨⟩, hret⟩ := hm (m c).2
  exact ⟨hret, fun vap g => (hk vap g _).trans (hget vap g)⟩

theorem broadcast_setOnVaps : Broadcast unit f p (setOnVaps unit f p) :=
  each_writes (fun _ _ => ⟨rfl, rfl⟩) vaps

theorem broadcast_setSharedText (id : Nat) :
    Broadcast unit f p (do setOnVaps unit f p; aplSetFlag id; wscConfigured) :=
  broadcast_setOnVaps.andThen (.bind (fun _ => ⟨(), rfl⟩) fun _ => wscConfigured_returns)
    fun _ _ => (keeps_aplSetFlag id).bind fun _ => keeps_wscConfigured nofun

/-- The loops that flag in each step. -/
theorem broadcast_flagging (id : Nat) :
    Broadcast unit f p (Act.each (fun i => do
      scfgmgrSet (.vap unit i f) p
      aplSetFlag id) vaps) :=
  each_writes (fun _ _ => ⟨rfl, Config.get_flag _ id⟩) vaps

/-- The copies that are equal stay so, and those written are `p`. -/
theorem Broadcast.copies {m : Cfg Unit} (h : Broadcast unit f p m) {c : Config}
    (hc : Copies unit c) : Copies unit (m c).2 := by
  intro g hg vap hvap other hother
  rw [(h c).2, (h c).2]
  by_cases hf : g = f
  · rw [if_pos ⟨hvap, hf⟩, if_pos ⟨hother, hf⟩]
  · rw [if_neg fun hand => hf hand.2, if_neg fun hand => hf hand.2]
    exact hc g hg vap hvap other hother

theorem Broadcast.get {m : Cfg Unit} (h : Broadcast unit f p m) (c : Config) {vap : Nat}
    (hvap : vap ∈ vaps) : (m c).2.get (.vap unit vap f) = p :=
  ((h c).2 vap f).trans (if_pos ⟨hvap, rfl⟩)

end Broadcast

/-! ### One call -/

/-- What a call does to equal copies: it returns, they stay equal, and they are the new value. -/
def Served (unit : Nat) (f : VapField) (good : CStr → Prop) (r : Run Buf Status × Config) : Prop :=
  Copies unit r.2 ∧ ∃ status, r.1 = .ok status ∧
    (status = .ok → ∀ vap ∈ vaps, good (r.2.get (.vap unit vap f)))

section Served

variable {unit bss : Nat} {f : VapField} {good : CStr → Prop} {c : Config}

theorem served_error (hc : Copies unit c) : Served unit f good (.ok .error, c) :=
  ⟨hc, .error, rfl, nofun⟩

/-- The setter finds the value it is to set, or writes all copies. -/
theorem served_compare {X : Type} [DecidableEq X] (hc : Copies unit c) (hf : f ∈ sharedFields)
    (hbss : bss ∈ vaps) {get : Cfg X} {old x : X} (hget : get c = (.ok old, c)) {p : CStr}
    {write : Cfg Unit} (hw : x ≠ old → Broadcast unit f p write)
    (hold : x = old → good (c.get (.vap unit bss f))) (hnew : x ≠ old → good p) :
    Served unit f good
      ((get >>= fun old => Act.when (x ≠ old) write >>= fun _ => pure Status.ok) c) := by
  rw [compare_eq hget x fun h => (hw h c).1]
  by_cases h : x = old
  · rw [if_neg (not_not.mpr h)]
    refine ⟨hc, .ok, rfl, fun _ vap hvap => ?_⟩
    rw [hc f hf vap hvap bss hbss]
    exact hold h
  · rw [if_pos h]
    refine ⟨(hw h).copies hc, .ok, rfl, fun _ vap hvap => ?_⟩
    rw [(hw h).get c hvap]
    exact hnew h

end Served

theorem mem_vaps (bss : Fin 4) : (bss : Nat) ∈ vaps := by
  revert bss
  decide

theorem key_mem : ∀ keyId : Fin 4, VapField.key (keyId + 1) ∈ sharedFields := by decide

section Families

variable {unit : Nat} {c : Config} (hc : Copies unit c) {f : VapField} (hf : f ∈ sharedFields)
  (bss : Fin 4)

include hc hf

theorem served_setSharedText {lo hi size : Nat} {p : CStr}
    (h : (p.length < lo ∨ hi < p.length) ∨
      (c.get (.vap unit bss f)).length < size ∧ p.length < size) :
    Served unit f (fun s => s = p ∧ p.length < size)
      (setSharedText lo hi size f unit bss p c) := by
  unfold setSharedText
  by_cases hrej : p.length < lo ∨ hi < p.length
  · rw [if_pos hrej]
    exact served_error hc
  · obtain ⟨hold, hnew⟩ := h.resolve_left hrej
    rw [if_neg hrej]
    exact served_compare hc hf (mem_vaps bss) ((getText_eq c _ size).trans (by rw [if_pos hold]))
      (fun _ => broadcast_setSharedText _) (fun e => ⟨e.symm, hnew⟩) fun _ => ⟨rfl, hnew⟩

theorem served_setAcctServer {p : CStr}
    (h : (p.length < 1 ∨ cfgMaxSecretlen < p.length) ∨
      (c.get (.vap unit bss f)).length < 32 ∧ p = c.get (.vap unit bss f)) :
    Served unit f (fun s => s = p ∧ p.length < 32) (setAcctServer f unit bss p c) := by
  unfold setAcctServer
  by_cases hrej : p.length < 1 ∨ cfgMaxSecretlen < p.length
  · rw [if_pos hrej]
    exact served_error hc
  · obtain ⟨hold, hp⟩ := h.resolve_left hrej
    rw [if_neg hrej]
    -- the text is found, and the loop is not entered
    exact served_compare (p := p) hc hf (mem_vaps bss)
      ((getText_eq c _ 32).trans (by rw [if_pos hold]))
      (fun hne => absurd hp hne) (fun e => ⟨e.symm, e ▸ hold⟩) fun hne => absurd hp hne

/-- What the getter of a number finds where the setter stored nothing. -/
theorem served_setPort {v : Int}
    (h : (v < 1 ∨ 65534 < v) ∨ (c.get (.vap unit bss f)).length < 60) :
    Served unit f (fun s => s.length < 60 ∧ atoi s = v) (setPort f unit bss v c) := by
  unfold setPort
  by_cases hrej : v < 1 ∨ 65534 < v
  · rw [if_pos hrej]
    exact served_error hc
  · have hold := h.resolve_left hrej
    have hlen : (CStr.ofInt v).length < 10 := by
      have hdigits : (digits 10 10 v.toNat).length ≤ 5 := length_digits_lt (by omega)
      rw [CStr.length, bytes_ofInt (by omega) (by omega)]
      omega
    rw [if_neg hrej]
    refine served_compare hc hf (mem_vaps bss)
      ((getNumber_eq c _ 60).trans (by rw [if_pos hold])) (fun _ => ?_) (fun e => ⟨hold, e.symm⟩)
      fun _ => ⟨by omega, atoi_ofInt (by omega) (by omega)⟩
    rw [store_fits hlen, Act.pure_bind]
    exact broadcast_setSharedText _

theorem served_setSharedNumber (v : Int32)
    (h : (c.get (.vap unit bss f)).length < 60 ∧
      (v.toInt = atoi (c.get (.vap unit bss f)) ∨ (CStr.ofInt v.toInt).length < 10)) :
    Served unit f (fun s => s.length < 60 ∧ atoi s = v.toInt)
      (setSharedNumber f unit bss v.toInt c) := by
  obtain ⟨hold, hv⟩ := h
  have hback := atoi_ofInt v.le_toInt v.toInt_lt
  unfold setSharedNumber
  refine served_compare hc hf (mem_vaps bss)
    ((getNumber_eq c _ 60).trans (by rw [if_pos hold])) (fun hne => ?_) (fun e => ⟨hold, e.symm⟩)
    fun hne => ⟨by have := hv.resolve_left hne; omega, hback⟩
  have hloop : (fun i => (store .string 10 (.ofInt v.toInt) >>= fun string =>
      scfgmgrSet (.vap unit i f) string >>= fun _ => aplSetFlag (aplVap unit bss))) =
      fun i => (scfgmgrSet (.vap unit i f) (.ofInt v.toInt) >>= fun _ =>
        aplSetFlag (aplVap unit bss)) := by
    rw [store_fits (hv.resolve_left hne)]
    rfl
  rw [hloop]
  exact (broadcast_flagging _).andThen wscConfigured_returns fun _ _ => keeps_wscConfigured nofun

omit hf in
theorem served_apCfgKeyValSet (keyId : Fin 4) {p : CStr}
    (h : ¬ KeyLength p.length ∨
      (c.get (.vap unit bss (.key (keyId + 1)))).length < 32 ∧ p.length < 32) :
    Served unit (.key (keyId + 1)) (fun s => s = p ∧ p.length < 32)
      (apCfgKeyValSet unit bss (keyId + 1) p c) := by
  have hf := key_mem keyId
  unfold apCfgKeyValSet
  by_cases hrej : ¬ KeyLength p.length
  · rw [if_pos hrej]
    exact served_error hc
  · obtain ⟨hold, hnew⟩ := h.resolve_left hrej
    rw [if_neg hrej]
    exact served_compare hc hf (mem_vaps bss) ((getText_eq c _ 32).trans (by rw [if_pos hold]))
      (fun _ => broadcast_flagging _) (fun e => ⟨e.symm, hnew⟩) fun _ => ⟨rfl, hnew⟩

omit hf in
/-- A copy that is stored as it was. -/
theorem served_apCfgKeyNValSet (keyId : Fin 4) {p : CStr}
    (h : ¬ KeyLength p.length ∨
      p = c.get (.vap unit bss (.key (keyId + 1))) ∧ p.length < 32) :
    Served unit (.key (keyId + 1)) (fun s => s = p ∧ p.length < 32)
      (apCfgKeyNValSet unit bss (keyId + 1) p c) := by
  unfold apCfgKeyNValSet
  by_cases hrej : ¬ KeyLength p.length
  · rw [if_pos hrej]
    exact served_error hc
  · obtain ⟨hold, hnew⟩ := h.resolve_left hrej
    rw [if_neg hrej]
    obtain ⟨⟨⟩, hret⟩ := wscConfigured_returns (c.set (.vap unit bss (.key (keyId + 1))) p)
    have hrun : (scfgmgrSet (.vap unit bss (.key (keyId + 1))) p >>= fun _ =>
        wscConfigured >>= fun _ => pure Status.ok) c =
        (.ok .ok, (wscConfigured (c.set (.vap unit bss (.key (keyId + 1))) p)).2) :=
      Act.bind_ok (m := wscConfigured) (Prod.ext hret rfl) fun _ => pure Status.ok
    have hsame : ∀ vap g, (wscConfigured (c.set (.vap unit bss (.key (keyId + 1))) p)).2.get
        (.vap unit vap g) = c.get (.vap unit vap g) := by
      intro vap g
      refine (keeps_wscConfigured (by nofun) _).trans (Config.get_set c _ _ p |>.trans ?_)
      split
      · rename_i e
        rw [e, hold]
      · rfl
    rw [hrun]
    refine ⟨fun g hg vap hvap other hother => ?_, .ok, rfl, fun _ vap hvap => ?_⟩
    · rw [hsame, hsame]
      exact hc g hg vap hvap other hother
    · refine ⟨?_, hnew⟩
      rw [hsame, hc _ (key_mem keyId) vap hvap bss (mem_vaps bss)]
      exact hold.symm

end Families

theorem SharedNumber.set_served {unit : Nat} {c : Config} (hc : Copies unit c) (n : SharedNumber)
    (bss : Fin 4) (v : Int32) (h : (SharedCall.number n bss v).Meets unit c) :
    Served unit n.field (fun s => s.length < 60 ∧ atoi s = v.toInt) (n.set unit bss v.toInt c) := by
  have hport (f : VapField) (hf : f ∈ sharedFields)
      (h : (v.toInt < 1 ∨ 65534 < v.toInt) ∨ (c.get (.vap unit bss f)).length < 60 ∧
        (v.toInt = atoi (c.get (.vap unit bss f)) ∨ (CStr.ofInt v.toInt).length < 10)) :=
    served_setPort hc hf bss (h.imp_right And.left)
  cases n with
  | radiusPort => exact hport _ (by decide) h
  | backupRadiusPort => exact hport _ (by decide) h
  | acctPort => exact hport _ (by decide) h
  | backupAcctPort => exact hport _ (by decide) h
  | keyBitLen =>
      by_cases hrej : v.toInt ≠ 40 ∧ v.toInt ≠ 104 ∧ v.toInt ≠ 128
      · rw [SharedNumber.set, apCfgKeyBitLenSet, if_pos hrej]
        exact served_error hc
      · rw [SharedNumber.set, apCfgKeyBitLenSet, if_neg hrej]
        exact served_setSharedNumber hc (by decide) bss v (h.resolve_left hrej)
  | keyEntryMethod => exact served_setSharedNumber hc (by decide) bss v (h.resolve_left id)

theorem SharedText.set_served {unit : Nat} {c : Config} (hc : Copies unit c) (t : SharedText)
    (bss : Fin 4) (p : CStr) (h : (SharedCall.text t bss p).Meets unit c) :
    Served unit t.field (fun s => s = p ∧ p.length < t.size) (t.set unit bss p c) := by
  by_cases hone : t.OneCopy
  · have hlo : t.lo = 1 := by cases t <;> first | rfl | exact hone.elim
    have hhi : t.hi = cfgMaxSecretlen := by cases t <;> first | rfl | exact hone.elim
    have hsize : t.size = 32 := by cases t <;> first | rfl | exact hone.elim
    rw [t.set_eq_setAcctServer hone, hsize]
    refine served_setAcctServer hc t.field_mem bss ?_
    rw [SharedCall.Meets, hlo, hhi, hsize] at h
    exact h.imp_right fun ⟨hold, _, hsame⟩ => ⟨hold, hsame hone⟩
  · rw [t.set_eq hone]
    exact served_setSharedText hc t.field_mem bss (h.imp_right fun ⟨hold, hnew, _⟩ => ⟨hold, hnew⟩)

/-- What the getter of a VAP makes of a copy. -/
theorem Served.readBack {unit : Nat} {f : VapField} {good : CStr → Prop}
    {r : Run Buf Status × Config} (h : Served unit f good r) (call : SharedCall)
    (hgood : ∀ vap, good (r.2.get (.vap unit vap f)) → call.ReadBack unit vap r.2) :
    Copies unit r.2 ∧ ∃ status, r.1 = .ok status ∧
      (status = .ok → ∀ vap ∈ vaps, call.ReadBack unit vap r.2) := by
  obtain ⟨hcopies, status, hret, hread⟩ := h
  exact ⟨hcopies, status, hret, fun hok vap hvap => hgood vap (hread hok vap hvap)⟩

/-- **One call.** -/
theorem sharedCall_step {unit : Nat} {c : Config} (hc : Copies unit c) (call : SharedCall)
    (h : call.Meets unit c) :
    Copies unit (call.run unit c).2 ∧ ∃ status, (call.run unit c).1 = .ok status ∧
      (status = .ok → ∀ vap ∈ vaps, call.ReadBack unit vap (call.run unit c).2) := by
  cases call with
  | text t bss p =>
      refine (t.set_served hc bss p h).readBack (.text t bss p) fun vap ⟨hp, hlen⟩ => ?_
      rw [SharedCall.ReadBack, t.get_eq, getText_eq, hp, if_pos hlen]
  | number n bss v =>
      refine (n.set_served hc bss v h).readBack (.number n bss v) fun vap ⟨hlen, hv⟩ => ?_
      rw [SharedCall.ReadBack, n.get_eq, getNumber_eq, if_pos hlen, hv]
  | key bss keyId p =>
      refine (served_apCfgKeyValSet hc bss keyId h).readBack (.key bss keyId p)
        fun vap ⟨hp, hlen⟩ => ?_
      rw [SharedCall.ReadBack, apCfgKeyValGet, getText_eq, hp, if_pos hlen]
  | keyN bss keyId p =>
      refine (served_apCfgKeyNValSet hc bss keyId h).readBack (.keyN bss keyId p)
        fun vap ⟨hp, hlen⟩ => ?_
      rw [SharedCall.ReadBack, apCfgKeyValGet, getText_eq, hp, if_pos hlen]

/-! ### Runs -/

/-- The configuration a sequence of calls leaves. -/
def SharedCall.runAll (unit : Nat) (calls : List SharedCall) (c : Config) : Config :=
  Act.runAll (calls.map (SharedCall.run unit)) c

/-- Each call of the sequence, together with the configuration it finds. -/
def SharedCall.trace (unit : Nat) : List SharedCall → Config → List (SharedCall × Config)
  | [], _ => []
  | call :: calls, c => (call, c) :: trace unit calls (call.run unit c).2

/-- **The copies stay equal** along any sequence of calls that meet the condition where they are
made, and every one of them that returns `A_OK` is read back at every VAP. -/
theorem sharedCopies_run {unit : Nat} {calls : List SharedCall} {c : Config} (hc : Copies unit c)
    (h : ∀ s ∈ SharedCall.trace unit calls c, s.1.Meets unit s.2) :
    Copies unit (SharedCall.runAll unit calls c) ∧
      ∀ s ∈ SharedCall.trace unit calls c, Copies unit s.2 ∧
        ∃ status, (s.1.run unit s.2).1 = .ok status ∧
          (status = .ok → ∀ vap ∈ vaps, s.1.ReadBack unit vap (s.1.run unit s.2).2) := by
  induction calls generalizing c with
  | nil => exact ⟨hc, nofun⟩
  | cons call calls ih =>
      obtain ⟨hnext, hret⟩ := sharedCall_step hc call (h (call, c) List.mem_cons_self)
      obtain ⟨hend, hall⟩ := ih hnext fun s hs => h s (List.mem_cons_of_mem _ hs)
      exact ⟨hend, List.forall_mem_cons.mpr ⟨⟨hc, hret⟩, hall⟩⟩

/-- Every setting is empty. -/
def allEmpty : Config where
  get _ := .empty
  flags := []
  closed := false

theorem sharedCopies_allEmpty_run :
    Copies 0 allEmpty ∧ Copies 0 (SharedCall.runAll 0
      [.text .radiusServer 2 (.text "10.0.0.5"), .key 0 3 (.text "abcde")] allEmpty) := by
  have hc : Copies 0 allEmpty := fun _ _ _ _ _ _ => rfl
  have hmeets : ∀ s ∈ SharedCall.trace 0
      [.text .radiusServer 2 (.text "10.0.0.5"), .key 0 3 (.text "abcde")] allEmpty,
      s.1.Meets 0 s.2 := by
    refine List.forall_mem_cons.mpr ⟨?_, List.forall_mem_cons.mpr ⟨?_, nofun⟩⟩
    · exact .inr ⟨by decide, by decide, nofun⟩
    · exact .inr ⟨by decide, by decide⟩
  exact ⟨hc, (sharedCopies_run hc hmeets).1⟩

/-- **An accounting server splits the copies.** -/
theorem acctServerSet_splits_copies :
    Copies 0 allEmpty ∧
      ¬ Copies 0 (SharedCall.runAll 0 [.text .acctServer 0 (.text "10.0.0.9")] allEmpty) := by
  refine ⟨fun _ _ _ _ _ _ => rfl, fun h => ?_⟩
  have hsplit := h .acctServer (by decide) 0 (by decide) 1 (by decide)
  exact absurd hsplit (by decide)

end Wap4410n.Apcfg
