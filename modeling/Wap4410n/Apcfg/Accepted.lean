import Wap4410n.Apcfg.LegalAp
import Wap4410n.Apcfg.Wp

/-!
# Apcfg — how long an accepted text is

A setter refuses a text that is longer than its own bound, and a number is printed into a buffer of
ten bytes at most.  `Setting.longest` is the bound of each setting that a setter in `Setter` writes;
a configuration is accepted (`Config.Accepted`) when no text in it is longer.  What a getter or a
caller makes of the texts is another matter.
-/

namespace Wap4410n.Apcfg

open CLib

/-- The longest text that a setter leaves, where it checks a length or prints a number. -/
def SysField.longest : SysField → Option Nat
  | .sysName | .sysDesc => some 39
  | .lanDns1 | .lanDns2 | .ntpServer | .syslogServer | .snmpContact | .snmpLocation
  | .snmpCommunityGet | .snmpCommunitySet | .snmpTrapCommunity => some 32
  | .timezoneDiff => some 12
  | .ethSuppUser | .ethSuppPwd | .loginUsername | .loginPassword => some 63
  | .emailAlertServer | .emailAddr => some 64
  | .rediretUrl => some 128
  | .legalApList => some maxLegalaplist
  | _ => none

def RadioField.longest : RadioField → Option Nat
  | .channel | .dtim | .rts | .frag => some 9
  | _ => none

def VapField.longest : VapField → Option Nat
  | .ssid | .key _ => some 32
  | .passphrase => some 64
  | .radiusServer | .backupRadiusServer => some cfgMaxRadiusname
  | .radiusKey | .backupRadiusKey | .acctServer | .backupAcctServer | .acctKey | .backupAcctKey =>
      some cfgMaxSecretlen
  | .defaultKey | .keyLength | .rekeyInterval | .radiusPort | .backupRadiusPort | .acctPort
  | .backupAcctPort | .vid | .pri => some 9
  | _ => none

def Setting.longest : Setting → Option Nat
  | .sys f => f.longest
  | .radio _ f => f.longest
  | .vap _ _ f => f.longest

/-- No text is longer than a setter leaves it. -/
def Config.Accepted (c : Config) : Prop := ∀ k n, k.longest = some n → (c.get k).length ≤ n

variable {c : Config} {k : Setting} {n size : Nat}

theorem Config.Accepted.lt (hc : c.Accepted) (hk : k.longest = some n) (hn : n < size) :
    (c.get k).length < size :=
  Nat.lt_of_le_of_lt (hc k n hk) hn

/-! ### Writing -/

theorem Config.Accepted.set (hc : c.Accepted) {p : CStr}
    (hp : ∀ n, k.longest = some n → p.length ≤ n) :
    (c.set k p).Accepted := by
  intro j n hj
  rw [Config.get_set]
  split
  · rename_i hjk
    exact hp n (hjk ▸ hj)
  · exact hc j n hj

section Preserves

open Act

variable {A : Type} {m : Cfg A} {p : CStr}

/-- A call that only reads. -/
theorem accepted_reads (h : ∀ c, (m c).2 = c) : Preserves Config.Accepted m :=
  fun c hc => by rwa [h c]

theorem accepted_scfgmgrSet (hp : ∀ n, k.longest = some n → p.length ≤ n) :
    Preserves Config.Accepted (scfgmgrSet k p) := fun _ hc => hc.set hp

theorem accepted_aplSetFlag (id : Nat) : Preserves Config.Accepted (aplSetFlag id) :=
  fun c hc k n hk => by
  have hget : (c.flag id).get = c.get := Config.get_flag c id
  show ((c.flag id).get k).length ≤ n
  rw [hget]
  exact hc k n hk

/-- What follows a store comes to a text that fits. -/
theorem accepted_store {buf : Buf} {f : CStr → Cfg A}
    (hf : p.length < size → Preserves Config.Accepted (f p)) :
    Preserves Config.Accepted (store buf size p >>= f) := by
  unfold store
  by_cases h : p.length < size
  · rw [if_pos h]
    exact hf h
  · rw [if_neg h]
    exact fun _ hc => hc

theorem accepted_getText (size : Nat) (k : Setting) : Preserves Config.Accepted (getText size k) :=
  accepted_reads fun c => by rw [getText_eq]

theorem accepted_getNumber (size : Nat) (k : Setting) :
    Preserves Config.Accepted (getNumber size k) :=
  (accepted_getText size k).bind fun _ => .pure _

theorem accepted_wscConfigured : Preserves Config.Accepted wscConfigured := by
  have hread : Preserves Config.Accepted (nvramSafeGet (.sys .restoreDefaults)) := fun _ hc => hc
  have hold : Preserves Config.Accepted apCfgWscConfiguredGet := fun _ hc => hc
  refine .bind ?_ fun _ => .pure _
  exact .ite (.pure _) (hread.bind fun _ => .ite (.pure _) (hold.bind fun _ =>
    .bind (.when (accepted_scfgmgrSet nofun)) fun _ => .pure _))

theorem accepted_setNew {X : Type} [DecidableEq X] {get : Cfg X}
    (hget : Preserves Config.Accepted get)
    {x : X} {write : Cfg Unit} (hwrite : Preserves Config.Accepted write) :
    Preserves Config.Accepted (setNew get x write) :=
  hget.bind fun _ => .bind (.when hwrite) fun _ => .pure _

theorem accepted_put (hp : ∀ n, k.longest = some n → p.length ≤ n) (ids : List Nat) :
    Preserves Config.Accepted (put k p ids) :=
  (accepted_scfgmgrSet hp).bind fun _ => .each fun id _ => accepted_aplSetFlag id

/-- The bound that a setter checks is the longest text. -/
theorem accepted_putText {lo hi : Nat} (hk : k.longest = some hi) (size : Nat) (ids : List Nat)
    (p : CStr) :
    Preserves Config.Accepted (putText lo hi size k ids p) := by
  unfold putText
  split
  · exact .pure _
  · rename_i h
    refine accepted_setNew (accepted_getText size k) (accepted_put (fun n hn => ?_) ids)
    cases hk.symm.trans hn
    omega

/-- A number is printed into ten bytes. -/
theorem accepted_printed {n : Nat} (hk : k.longest = some n) (hn : 9 ≤ n) {v : Int}
    {f : CStr → Cfg A}
    (hf : ∀ p, (∀ n, k.longest = some n → p.length ≤ n) → Preserves Config.Accepted (f p)) :
    Preserves Config.Accepted (store .string 10 (.ofInt v) >>= f) :=
  accepted_store fun h => hf _ fun m hm => by
    cases hk.symm.trans hm
    omega

theorem accepted_putInt {n : Nat} (hk : k.longest = some n) (hn : 9 ≤ n) {get : Cfg Int}
    (hget : Preserves Config.Accepted get) (ids : List Nat) (v : Int) :
    Preserves Config.Accepted (putInt 10 get k ids v) :=
  accepted_setNew hget (accepted_printed hk hn fun _ hp => accepted_put hp ids)

theorem accepted_putRadioInt {unit : Nat} {f : RadioField} (hk : f.longest = some 9) {get : Cfg Int}
    (hget : Preserves Config.Accepted get) (lo hi v : Int) :
    Preserves Config.Accepted (putRadioInt lo hi get unit f v) :=
  .ite (.pure _) (accepted_putInt (k := .radio unit f) hk (Nat.le_refl 9) hget _ v)

theorem accepted_setNumber {buf n : Nat} (hbuf : buf ≤ 10) (hk : k.longest = some n) (hn : 9 ≤ n)
    (size id : Nat) (wsc : Bool) (v : Int) :
    Preserves Config.Accepted (setNumber buf size k id wsc v) :=
  (accepted_getNumber size k).bind fun _ => .bind (.when (accepted_store fun h =>
    (accepted_scfgmgrSet fun m hm => by cases hk.symm.trans hm; omega).bind fun _ =>
      (accepted_aplSetFlag id).bind fun _ => .when accepted_wscConfigured)) fun _ => .pure _

theorem accepted_setText (hp : ∀ n, k.longest = some n → p.length ≤ n) (size id : Nat) :
    Preserves Config.Accepted (setText size k id p) :=
  (accepted_getText size k).bind fun _ => .bind (.when ((accepted_scfgmgrSet hp).bind fun _ =>
    (accepted_aplSetFlag id).bind fun _ => accepted_wscConfigured)) fun _ => .pure _

theorem accepted_setOnVaps {f : VapField} (hp : ∀ n, f.longest = some n → p.length ≤ n)
    (unit : Nat) :
    Preserves Config.Accepted (setOnVaps unit f p) :=
  .each fun _ _ => accepted_scfgmgrSet hp

theorem accepted_setSharedText {f : VapField} {hi : Nat} (hf : f.longest = some hi)
    (lo size unit bss : Nat)
    (p : CStr) : Preserves Config.Accepted (setSharedText lo hi size f unit bss p) := by
  unfold setSharedText
  split
  · exact .pure _
  · rename_i h
    have hp : ∀ n, f.longest = some n → p.length ≤ n := fun n hn => by
      cases hf.symm.trans hn
      omega
    exact (accepted_getText size _).bind
      fun _ => .bind (.when ((accepted_setOnVaps hp unit).bind fun _ =>
      (accepted_aplSetFlag _).bind fun _ => accepted_wscConfigured)) fun _ => .pure _

theorem accepted_setAcctServer {f : VapField} (hf : f.longest = some cfgMaxSecretlen)
    (unit bss : Nat) (p : CStr) : Preserves Config.Accepted (setAcctServer f unit bss p) := by
  unfold setAcctServer
  split
  · exact .pure _
  · rename_i h
    have hp : ∀ n, (Setting.vap unit bss f).longest = some n → p.length ≤ n := fun n hn => by
      cases hf.symm.trans hn
      omega
    exact (accepted_getText 32 _).bind fun _ =>
      .bind (.when ((Preserves.each fun _ _ => accepted_scfgmgrSet hp).bind fun _ =>
        (accepted_aplSetFlag _).bind fun _ => accepted_wscConfigured)) fun _ => .pure _

theorem accepted_setPort {f : VapField} (hf : f.longest = some 9) (unit bss : Nat) (v : Int) :
    Preserves Config.Accepted (setPort f unit bss v) :=
  .ite (.pure _) ((accepted_getNumber 60 _).bind fun _ => .bind (.when
    (accepted_printed (k := .vap unit bss f) hf (Nat.le_refl 9) fun _ hp =>
      (accepted_setOnVaps hp unit).bind fun _ =>
        (accepted_aplSetFlag _).bind fun _ => accepted_wscConfigured)) fun _ => .pure _)

theorem accepted_setSharedNumber {f : VapField} (hf : f.longest = some 9)
    (unit bss : Nat) (v : Int) :
    Preserves Config.Accepted (setSharedNumber f unit bss v) :=
  (accepted_getNumber 60 _).bind fun _ => .bind (.when
    ((Preserves.each fun i _ => accepted_printed (k := .vap unit i f) hf (Nat.le_refl 9) fun _ hp =>
      (accepted_scfgmgrSet hp).bind fun _ => accepted_aplSetFlag _).bind fun _ =>
        accepted_wscConfigured)) fun _ => .pure _

theorem KeyLength.le {n : Nat} (h : KeyLength n) : n ≤ 32 := by
  simp only [KeyLength, List.mem_cons, List.not_mem_nil, or_false] at h
  omega

theorem accepted_apCfgKeyValSet (unit bss keyId : Nat) (p : CStr) :
    Preserves Config.Accepted (apCfgKeyValSet unit bss keyId p) := by
  unfold apCfgKeyValSet
  split
  · exact .pure _
  · rename_i h
    have hp (i : Nat) : ∀ n, (Setting.vap unit i (.key keyId)).longest = some n → p.length ≤ n := by
      rintro _ ⟨⟩
      exact (not_not.mp h).le
    exact (accepted_getText 32 _).bind fun _ => .bind (.when (.each fun i _ =>
      (accepted_scfgmgrSet (hp i)).bind fun _ => accepted_aplSetFlag _)) fun _ => .pure _

theorem accepted_apCfgKeyNValSet (unit bss keyId : Nat) (p : CStr) :
    Preserves Config.Accepted (apCfgKeyNValSet unit bss keyId p) := by
  unfold apCfgKeyNValSet
  split
  · exact .pure _
  · rename_i h
    have hp : ∀ n, (Setting.vap unit bss (.key keyId)).longest = some n → p.length ≤ n := by
      rintro _ ⟨⟩
      exact (not_not.mp h).le
    exact (accepted_scfgmgrSet hp).bind fun _ => accepted_wscConfigured.bind fun _ => .pure _

theorem accepted_scApCfgLegalApListSet (p : CStr) :
    Preserves Config.Accepted (scApCfgLegalApListSet p) := by
  unfold scApCfgLegalApListSet
  split
  · exact .pure _
  · rename_i h
    have hp : ∀ n, legalKey.longest = some n → p.length ≤ n := by
      rintro _ ⟨⟩
      exact Nat.not_lt.mp h
    exact (accepted_getText _ _).bind fun _ => .bind (.when
      ((accepted_scfgmgrSet hp).bind fun _ => accepted_aplSetFlag _)) fun _ => .pure _

theorem accepted_scApCfgLegalApListAdd (pAddr : CStr) :
    Preserves Config.Accepted (scApCfgLegalApListAdd pAddr) :=
  (accepted_getText _ _).bind fun _ => .ite (.pure _) (accepted_store fun _ =>
    .ite ((accepted_scApCfgLegalApListSet _).bind fun _ => .pure _) (.pure _))

theorem accepted_scApCfgLegalApListDel (pAddr : CStr) :
    Preserves Config.Accepted (scApCfgLegalApListDel pAddr) := by
  refine (accepted_getText _ _).bind fun pList => ?_
  split
  · exact .pure _
  · rename_i pValue _
    have hbehind : Preserves Config.Accepted (behind pList (pList.length - pValue.length)) :=
      accepted_reads fun c => by
        unfold behind
        split
        · cases (pList.drop (pList.length - pValue.length)).strchr 0x2c <;> rfl
        · rfl
    exact hbehind.bind fun _ => accepted_store fun _ =>
      (accepted_scApCfgLegalApListSet _).bind fun _ => .pure _

theorem accepted_scApCfgLegalApListClear : Preserves Config.Accepted scApCfgLegalApListClear :=
  (accepted_scfgmgrSet (p := .empty) fun n _ => Nat.zero_le n).bind fun _ =>
    (accepted_aplSetFlag _).bind fun _ => .pure _

/-! ### The setters -/

/-- The setters of the texts of the system. -/
def textSetters : List (CStr → Cfg Status) := [
  apCfgSysNameSet, apCfgDescSet, apCfgNameSrvSet, apCfgNameSrv2Set, apCfgTimezoneOffsetSet,
  apCfgNtpServerSet, scApCfgDot1xSuppUsernameSet, scApCfgDot1xSuppPasswordSet, apCfgRedirectUrlSet,
  apCfgLoginSet, apCfgPasswordSet, apCfgSnmpContactSet, apCfgSnmpLocationSet, apCfgSnmpReadCommSet,
  apCfgSnmpWriteCommSet, apCfgSnmpTrapCommunitySet, apCfgsmtpMailServerSet, apCfgemailAddrForLogSet,
  apCfgsysLogServerSet, scApCfgLegalApListSet, scApCfgLegalApListAdd, scApCfgLegalApListDel]

/-- The setters of the texts of a VAP. -/
def vapTextSetters : List (Nat → Nat → CStr → Cfg Status) := [
  apCfgSsidSet, apCfgPassphraseSet, apCfgRadiusServerSet, apCfgBackupRadiusServerSet,
  apCfgRadiusSecretSet, apCfgBackupRadiusSecretSet, scApCfgAcctServerSet,
  scApCfgBackupAcctServerSet, scApCfgAcctSecretSet, scApCfgBackupAcctSecretSet]

/-- The setters of the numbers of a radio that are read with a buffer. -/
def radioNumberSetters : List (Nat → Int → Cfg Status) := [
  apCfgRadioChannelSet, scApCfgDtimIntervalSet, apCfgRtsThresholdSet, apCfgFragThresholdSet]

/-- The setters of the numbers of a VAP that are read with a buffer. -/
def vapNumberSetters : List (Nat → Nat → Int → Cfg Status) := [
  apCfgDefKeySet, apCfgKeyBitLenSet, apCfgGroupKeyUpdateIntervalSet, apCfgRadiusPortSet,
  apCfgBackupRadiusPortSet, scApCfgAcctPortSet, scApCfgBackupAcctPortSet, apCfgVlanPvidSet,
  apCfgPrioritySet]

/-- A call of one of these setters, of a setter of a WEP key, or of `scApCfgLegalApListClear`.  No
other setter writes a bounded setting by itself; those of other settings that check a length (the
names of the VAPs, the domain, WINS, FTP, SNMPv3, the certificate, …) or print a number are not
spoken of. -/
inductive Setter : Cfg Status → Prop where
  | text {set : CStr → Cfg Status} (h : set ∈ textSetters) (p : CStr) : Setter (set p)
  | vapText {set : Nat → Nat → CStr → Cfg Status} (h : set ∈ vapTextSetters) (unit bss : Nat)
      (p : CStr) : Setter (set unit bss p)
  | keyVal (unit bss keyId : Nat) (p : CStr) : Setter (apCfgKeyValSet unit bss keyId p)
  | keyNVal (unit bss keyId : Nat) (p : CStr) : Setter (apCfgKeyNValSet unit bss keyId p)
  | radioNumber {set : Nat → Int → Cfg Status} (h : set ∈ radioNumberSetters) (unit : Nat)
      (v : Int) : Setter (set unit v)
  | vapNumber {set : Nat → Nat → Int → Cfg Status} (h : set ∈ vapNumberSetters) (unit bss : Nat)
      (v : Int) : Setter (set unit bss v)
  | legalApClear : Setter scApCfgLegalApListClear

theorem accepted_textSetters : ∀ set ∈ textSetters, ∀ p, Preserves Config.Accepted (set p) := by
  simp only [textSetters, List.forall_mem_cons, List.not_mem_nil, false_imp_iff, implies_true,
    and_true]
  have hput {k : Setting} {lo hi size : Nat} {ids : List Nat} (hk : k.longest = some hi) :
      ∀ p, Preserves Config.Accepted (putText lo hi size k ids p) := accepted_putText hk size ids
  exact ⟨hput rfl, hput rfl, hput rfl, hput rfl, hput rfl, hput rfl, hput rfl, hput rfl, hput rfl,
    hput rfl, hput rfl, hput rfl, hput rfl, hput rfl, hput rfl, hput rfl, hput rfl, hput rfl,
    hput rfl, accepted_scApCfgLegalApListSet, accepted_scApCfgLegalApListAdd,
    accepted_scApCfgLegalApListDel⟩

theorem accepted_apCfgSsidSet (unit bss : Nat) (p : CStr) :
    Preserves Config.Accepted (apCfgSsidSet unit bss p) := by
  unfold apCfgSsidSet
  split
  · exact .pure _
  · rename_i h
    refine accepted_setText (fun n hn => ?_) _ _
    cases hn
    exact Nat.not_lt.mp h

theorem accepted_apCfgPassphraseSet (unit bss : Nat) (p : CStr) :
    Preserves Config.Accepted (apCfgPassphraseSet unit bss p) := by
  unfold apCfgPassphraseSet
  split
  · exact .pure _
  · rename_i h
    refine accepted_setText (fun n hn => ?_) _ _
    cases hn
    exact Nat.not_lt.mp h

theorem accepted_vapTextSetters :
    ∀ set ∈ vapTextSetters, ∀ unit bss p, Preserves Config.Accepted (set unit bss p) := by
  simp only [vapTextSetters, List.forall_mem_cons, List.not_mem_nil, false_imp_iff, implies_true,
    and_true]
  exact ⟨accepted_apCfgSsidSet, accepted_apCfgPassphraseSet, accepted_setSharedText rfl _ _,
    accepted_setSharedText rfl _ _, accepted_setSharedText rfl _ _, accepted_setSharedText rfl _ _,
    accepted_setAcctServer rfl, accepted_setAcctServer rfl, accepted_setSharedText rfl _ _,
    accepted_setSharedText rfl _ _⟩

theorem accepted_radioNumberSetters :
    ∀ set ∈ radioNumberSetters, ∀ unit v, Preserves Config.Accepted (set unit v) := by
  simp only [radioNumberSetters, List.forall_mem_cons, List.not_mem_nil, false_imp_iff,
    implies_true, and_true]
  refine ⟨fun unit v => ?_, fun unit => accepted_putRadioInt rfl (accepted_getNumber 60 _) _ _,
    fun unit => accepted_putRadioInt rfl (accepted_getNumber 60 _) _ _,
    fun unit => accepted_putRadioInt rfl (accepted_getNumber 60 _) _ _⟩
  have hbound (p : CStr) :
      ∀ n, (Setting.radio unit .channelOffset).longest = some n → p.length ≤ n := by
    rintro _ ⟨⟩
  have hoffset (p : CStr) : Preserves Config.Accepted (apCfgChannelOffsetSet unit p) :=
    .ite (.pure _) (accepted_setNew (accepted_getText 32 _) (accepted_put (hbound p) _))
  exact .ite (.pure _) (accepted_setNew (accepted_getNumber 60 _)
    (accepted_printed (k := .radio unit .channel) rfl (Nat.le_refl 9) fun _ hp =>
      (accepted_put hp _).bind fun _ => (hoffset _).bind fun _ => .pure _))

theorem accepted_vapNumberSetters :
    ∀ set ∈ vapNumberSetters, ∀ unit bss v, Preserves Config.Accepted (set unit bss v) := by
  simp only [vapNumberSetters, List.forall_mem_cons, List.not_mem_nil, false_imp_iff, implies_true,
    and_true]
  have hnumber {buf size id : Nat} {k : Setting} {wsc : Bool} {v : Int} (hbuf : buf ≤ 10)
      (hk : k.longest = some 9) : Preserves Config.Accepted (setNumber buf size k id wsc v) :=
    accepted_setNumber hbuf hk (Nat.le_refl 9) _ _ _ _
  exact ⟨fun _ _ _ => .ite (hnumber (Nat.le_refl 10) rfl) (.pure _),
    fun _ _ _ => .ite (.pure _) (accepted_setSharedNumber rfl _ _ _),
    fun _ _ _ => .ite (.pure _) (hnumber (Nat.le_refl 10) rfl),
    accepted_setPort rfl, accepted_setPort rfl, accepted_setPort rfl, accepted_setPort rfl,
    fun _ _ _ => .ite (.pure _) (hnumber (Nat.le_refl 10) rfl),
    fun _ _ _ => hnumber (by decide) rfl⟩

theorem Setter.accepted {m : Cfg Status} (h : Setter m) : Preserves Config.Accepted m := by
  cases h with
  | text h p => exact accepted_textSetters _ h p
  | vapText h unit bss p => exact accepted_vapTextSetters _ h unit bss p
  | keyVal unit bss keyId p => exact accepted_apCfgKeyValSet unit bss keyId p
  | keyNVal unit bss keyId p => exact accepted_apCfgKeyNValSet unit bss keyId p
  | radioNumber h unit v => exact accepted_radioNumberSetters _ h unit v
  | vapNumber h unit bss v => exact accepted_vapNumberSetters _ h unit bss v
  | legalApClear => exact accepted_scApCfgLegalApListClear

/-- **What the setters leave is accepted**, in a run of calls up to the first that writes behind a
buffer of its own, if there is one. -/
theorem accepted_run {calls : List (Cfg Status)} (h : ∀ m ∈ calls, Setter m) (hc : c.Accepted) :
    Config.Accepted (Act.each Act.ignore calls c).2 :=
  Preserves.each (fun m hm => (h m hm).accepted.bind fun _ => .pure _) c hc

/-- A configuration nothing is set in. -/
def nothingSet : Config where
  get _ := .empty
  flags := []
  closed := false

theorem accepted_nothingSet : nothingSet.Accepted := fun _ n _ => Nat.zero_le n

theorem accepted_named : Config.Accepted (Act.each Act.ignore [apCfgSysNameSet (.text "ap"),
    apCfgRadioChannelSet 0 11, scApCfgLegalApListAdd (.text "001122334455")] nothingSet).2 :=
  accepted_run (List.forall_mem_cons.mpr ⟨.text (by simp [textSetters]) _,
    List.forall_mem_cons.mpr ⟨.radioNumber (by simp [radioNumberSetters]) 0 11,
      List.forall_mem_singleton.mpr (.text (by simp [textSetters]) _)⟩⟩)
    accepted_nothingSet

end Preserves

end Wap4410n.Apcfg
