import Mathlib.Data.List.Nodup
import Wap4410n.Support.Act
import Wap4410n.Support.Print

/-!
# Apcfg — settings and the calls on them

`libapcfg` keeps every setting as a string under a name: a name of the system, of a radio
(`wlan%d_…`) or of a VAP of a radio (`wlan%d_ssid%d_…`).  A getter reads the string with
`nvram_safe_get` and decodes it; a setter compares its argument with what the getter returns, and
where they differ stores the encoded value with `scfgmgr_set` and flags what has to be applied.
The state of these calls is a `Config`: the string each name reads, and the flags.  A string that
outgrows the buffer it is copied into is a fault.

Getters and setters come in families, a definition each: `getText`, `getNumber`, `getFlag`,
`getEnum`, and `setText`, `setNumber`, `setFlag`, `setEnum`.  What a getter returns is a function of
the configuration (`getText_eq`, …), and `Keeps` says that a call leaves a setting as it is
(`keeps_setText`, …).
-/

namespace Wap4410n.Apcfg

open CLib

/-! ### Settings -/

/-- `WLAN_MAX_VAP` -/
def wlanMaxVap : Nat := 4

/-- The VAPs of a radio, in the order of `for(vap=0; vap<WLAN_MAX_VAP; vap++)`. -/
def vaps : List Nat := [0, 1, 2, 3]

/-- The settings of the system. -/
inductive SysField where
  | vlanList
  | legalApList
  | restoreDefaults
  | wscConfigured
  | sysName
  | sysDesc
  | sysLang
  | sysDomain
  | lanDhcpc
  | lanDhcp6c
  | lanIpaddr
  | lanNetmask
  | lanGateway
  | lanDns1
  | lanDns2
  | lanIpv6
  | lanIpaddrv6
  | lanGatewayv6
  | lanDnsv61
  | lanDnsv62
  | todEnable
  | todYear
  | todMon
  | todDay
  | todHour
  | todMin
  | todSec
  | timezoneDiff
  | timezoneDaylightsaving
  | ntpMode
  | ntpServer
  | bonjourEnable
  | lanForce100m
  | lanAutonego
  | lanPortspeedDefine
  | lanDuplexmode
  | ethDataRate
  | rediretMode
  | rediretUrl
  | ethSuppMode
  | ethSuppMac
  | ethSuppUser
  | ethSuppPwd
  | vlanMode
  | vlanDefault
  | vlanManagement
  | vlanDefaultTag
  | vlanWdsTag
  | wdsVlanList
  | rogueType
  | secretMask
  | loginUsername
  | loginPassword
  | autohttps
  | httpsMode
  | wlanManage
  | ssh
  | snmpMode
  | snmpContact
  | snmpLocation
  | snmpCommunityGet
  | snmpCommunitySet
  | snmpTrapCommunity
  | snmpTrustedAny
  | snmpTrustedHostStart
  | snmpTrustedHostEnd
  | snmpTrapDest
  | emailAlert
  | emailAlertServer
  | emailAddr
  | emailQueueLength
  | emailSendPeriod
  | syslogMode
  | syslogServer
  | logLoginFail
  | logLoginSuccess
  | logSystemErrors
  | logConfChange
deriving DecidableEq, Repr

/-- The settings of a radio. -/
inductive RadioField where
  | opMode
  | channelWidth
  | isolation
  | state
  | mode
  | autoChannel
  | channel
  | channelOffset
  | balance
  | d80211
  | shortGI
  | cts
  | bcn
  | dtim
  | rts
  | frag
  | remoteMac
  | remoteBridgeMac
deriving DecidableEq, Repr

/-- The settings of a VAP. -/
inductive VapField where
  | ssid
  | broabcast
  | state
  | isolation
  | authMode
  | wpaCipher
  | defaultKey
  | key (keyId : Nat)
  | keyLength
  | keyMethod
  | passphrase
  | rekeyInterval
  | radiusServer
  | backupRadiusServer
  | radiusPort
  | backupRadiusPort
  | radiusKey
  | backupRadiusKey
  | acctServer
  | backupAcctServer
  | acctPort
  | backupAcctPort
  | acctKey
  | backupAcctKey
  | accessControl
  | aclType
  | aclList
  | vid
  | wmm
  | wmmps
  | pri
  | loadbalance
  | pin
deriving DecidableEq, Repr

/-- A setting. -/
inductive Setting where
  | sys (f : SysField)
  | radio (unit : Nat) (f : RadioField)
  | vap (unit bss : Nat) (f : VapField)
deriving DecidableEq, Repr

/-! ### Calls -/

/-- The buffers of the getters and setters. -/
inductive Buf where
  /-- the buffer of a getter -/
  | value
  /-- the text of a number -/
  | string
  /-- the new VLAN list, or the text of a VLAN id -/
  | vlan
  | newList
  /-- the string `nvram_safe_get` returns -/
  | fullValue
  | unitValue
  | finalValue
  /-- the name of a decoded ACL entry -/
  | entryName
  | remoteMac
  /-- a variable of the editable configuration -/
  | variable
  | ipv6Buf
  /-- what `strtok` returns -/
  | token
  /-- a local number -/
  | number
  /-- a local array that a text is copied into -/
  | array
deriving DecidableEq, Repr

/-- `A_STATUS` -/
inductive Status where
  | ok
  | error
  | einval
  | noMemory
  | enoent
deriving DecidableEq, Repr

/-- The configuration as the calls see it. -/
@[ext] structure Config where
  /-- the string a setting reads, `""` where there is none -/
  get : Setting → CStr
  /-- `APL_FLAG`: the ids of what has to be applied, in order -/
  flags : List Nat
  /-- whether `APL_CLOSED` exists -/
  closed : Bool

/-- A call of `libapcfg`. -/
abbrev Cfg := Act Config Buf

namespace Config

/-- The setting `k` reads `v`. -/
def set (c : Config) (k : Setting) (v : CStr) : Config :=
  { c with get := Function.update c.get k v }

/-- The id is flagged, unless flags are closed. -/
def flag (c : Config) (id : Nat) : Config :=
  if c.closed then c else { c with flags := c.flags ++ [id] }

variable (c : Config) (k j : Setting) (v : CStr)

@[simp] theorem get_set_self : (c.set k v).get k = v := by simp [set]

@[simp] theorem get_set_ne (h : j ≠ k) : (c.set k v).get j = c.get j := by simp [set, h]

theorem get_set : (c.set k v).get j = if j = k then v else c.get j := by
  by_cases h : j = k
  · subst h
    simp
  · rw [if_neg h, get_set_ne c k j v h]

@[simp] theorem get_flag (id : Nat) : (c.flag id).get = c.get := by
  unfold flag
  split <;> rfl

end Config

/-- `nvram_safe_get` -/
def nvramSafeGet (k : Setting) : Cfg CStr := fun c => (.ok (c.get k), c)

/-- `scfgmgr_set` -/
def scfgmgrSet (k : Setting) (v : CStr) : Cfg Unit := fun c => (.ok (), c.set k v)

/-- `apl_set_flag` -/
def aplSetFlag (id : Nat) : Cfg Unit := fun c => (.ok (), c.flag id)

/-- `strcpy` or `sprintf` into a buffer. -/
def store (buf : Buf) (size : Nat) (p : CStr) : Cfg CStr :=
  if p.length < size then pure p else Act.fault (.outside buf)

/-- `APL_WLAN0+unit*(WLAN_MAX_VAP+1)` -/
def aplWlan (unit : Nat) : Nat := 14 + unit * (wlanMaxVap + 1)

/-- `APL_WLAN0_VAP0+bss+unit*(WLAN_MAX_VAP+1)` -/
def aplVap (unit bss : Nat) : Nat := 15 + bss + unit * (wlanMaxVap + 1)

/-- `APL_REBOOT` -/
def aplReboot : Nat := 1

/-- `APL_VLAN` -/
def aplVlan : Nat := 7

/-- `APL_BALANCE` -/
def aplBalance : Nat := 13

/-- `APL_ROGUEAP` -/
def aplRogueap : Nat := 31

/-! ### Getters -/

/-- `ENABLE` -/
def enable : CStr := .text "1"

/-- `DISABLE` -/
def disable : CStr := .text "0"

/-- `strcpy(value, nvram_safe_get(name)); return value;` -/
def getText (size : Nat) (k : Setting) : Cfg CStr := do store .value size (← nvramSafeGet k)

/-- `return atoi(value);` -/
def getNumber (size : Nat) (k : Setting) : Cfg Int := do return atoi (← getText size k)

/-- `value = (strcmp(p,ENABLE) == 0)?1:0;` -/
def getFlag (k : Setting) : Cfg Int := do return if (← nvramSafeGet k) = enable then 1 else 0

/-- The texts of an enumerated setting: those of the `switch` of its setter and of the chain of
`strcmp`s of its getter, with the `default` of each. -/
structure Texts where
  cases : List (Int × CStr)
  /-- `default: string=…;` -/
  text : CStr
  /-- the value of a text that is none of them -/
  value : Int
  distinct : (cases.map Prod.snd).Nodup := by decide

namespace Texts

/-- `switch(v)` -/
def encode (t : Texts) (v : Int) : CStr := ((t.cases.find? (·.1 = v)).map Prod.snd).getD t.text

/-- `if (strcmp(p, …) == 0) … else …` -/
def decode (t : Texts) (p : CStr) : Int := ((t.cases.find? (·.2 = p)).map Prod.fst).getD t.value

/-- The values that have a text of their own. -/
def values (t : Texts) : List Int := t.cases.map Prod.fst

end Texts

/-- `return` the value of the text. -/
def getEnum (t : Texts) (k : Setting) : Cfg Int := do return t.decode (← nvramSafeGet k)

/-! ### WPS -/

/-- `apCfgWscConfiguredGet` -/
def apCfgWscConfiguredGet : Cfg Int := do return atoi (← nvramSafeGet (.sys .wscConfigured))

/-- `apCfgWscConfiguredSet` -/
def apCfgWscConfiguredSet (v : Int) : Cfg Status := do
  if v ≠ 1 ∧ v ≠ 0 then return .error else
  let p ← nvramSafeGet (.sys .restoreDefaults)
  if p.mem.head? = some 0x31 then return .error else
  let old ← apCfgWscConfiguredGet
  Act.when (v ≠ old) (scfgmgrSet (.sys .wscConfigured) (if v = 0 then disable else enable))
  return .ok

/-- `apCfgWscConfiguredSet(1);` -/
def wscConfigured : Cfg Unit := do
  let _ ← apCfgWscConfiguredSet 1

/-! ### Setters -/

/-- `string = (v==1)?ENABLE:DISABLE;` -/
def flagText (v : Int) : CStr := if v = 1 then enable else disable

/-- A setter of a flag. -/
def setFlag (k : Setting) (id : Nat) (v : Int) : Cfg Status := do
  let old ← getFlag k
  Act.when (v ≠ old) do
    scfgmgrSet k (flagText v)
    aplSetFlag id
  return .ok

/-- A setter of an enumerated setting. -/
def setEnum (t : Texts) (k : Setting) (id : Nat) (wsc : Bool) (v : Int) : Cfg Status := do
  let old ← getEnum t k
  Act.when (v ≠ old) do
    scfgmgrSet k (t.encode v)
    aplSetFlag id
    Act.when wsc wscConfigured
  return .ok

/-- A setter of a number: `size` is that of the buffer the number is printed into, `getSize` that of
the getter's. -/
def setNumber (size getSize : Nat) (k : Setting) (id : Nat) (wsc : Bool) (v : Int) :
    Cfg Status := do
  let old ← getNumber getSize k
  Act.when (v ≠ old) do
    let string ← store .string size (.ofInt v)
    scfgmgrSet k string
    aplSetFlag id
    Act.when wsc wscConfigured
  return .ok

/-- A setter of a text. -/
def setText (getSize : Nat) (k : Setting) (id : Nat) (p : CStr) : Cfg Status := do
  let old ← getText getSize k
  Act.when (p ≠ old) do
    scfgmgrSet k p
    aplSetFlag id
    wscConfigured
  return .ok

/-! ### What the getters return -/

/-- The value of a flag. -/
def flagOf (p : CStr) : Int := if p = enable then 1 else 0

@[simp] theorem flagOf_flagText (v : Int) : flagOf (flagText v) = if v = 1 then 1 else 0 := by
  unfold flagText
  split
  · rfl
  · exact if_neg (by decide)

section Getters

variable (c : Config) (k : Setting)

theorem getEnum_eq (t : Texts) : getEnum t k c = (.ok (t.decode (c.get k)), c) := rfl

theorem store_eq (buf : Buf) (size : Nat) (p : CStr) :
    store buf size p c = (if p.length < size then .ok p else .error (.outside buf), c) := by
  unfold store
  split <;> rfl

theorem getText_eq (size : Nat) :
    getText size k c =
      (if (c.get k).length < size then .ok (c.get k) else .error (.outside .value), c) :=
  store_eq c .value size (c.get k)

theorem getNumber_eq (size : Nat) :
    getNumber size k c =
      (if (c.get k).length < size then .ok (atoi (c.get k)) else .error (.outside .value), c) := by
  unfold getNumber
  rw [Act.bind_apply, getText_eq]
  by_cases h : (c.get k).length < size
  · simp only [if_pos h, Act.pure_apply]
  · simp only [if_neg h]

end Getters

namespace Texts

variable (t : Texts) {v : Int}

/-- A value with a text of its own is read back from it. -/
theorem decode_encode (h : v ∈ t.values) : t.decode (t.encode v) = v := by
  obtain ⟨c, hc, rfl⟩ := List.mem_map.mp h
  cases hfind : t.cases.find? (·.1 = c.1) with
  | none =>
      have := List.find?_eq_none.mp hfind c hc
      simp at this
  | some d =>
      have hd : d.1 = c.1 := by simpa using List.find?_some hfind
      have hmem := List.mem_of_find?_eq_some hfind
      have htext : t.encode c.1 = d.2 := by rw [encode, hfind]; rfl
      cases hback : t.cases.find? (·.2 = d.2) with
      | none =>
          have := List.find?_eq_none.mp hback d hmem
          simp at this
      | some e =>
          have he : e.2 = d.2 := by simpa using List.find?_some hback
          obtain rfl : e = d :=
            List.inj_on_of_nodup_map t.distinct (List.mem_of_find?_eq_some hback) hmem he
          rw [htext, decode, hback]
          exact hd

/-- Every text decodes to a value with a text of its own, if the default does. -/
theorem decode_mem (ht : t.value ∈ t.values) (p : CStr) : t.decode p ∈ t.values := by
  rw [decode]
  cases hfind : t.cases.find? (·.2 = p) with
  | none => exact ht
  | some d => exact List.mem_map.mpr ⟨d, List.mem_of_find?_eq_some hfind, rfl⟩

/-- Any other value gets the default text. -/
theorem encode_of_notMem (h : v ∉ t.values) : t.encode v = t.text := by
  have hfind : t.cases.find? (·.1 = v) = none := by
    rw [List.find?_eq_none]
    intro c hc e
    exact h (List.mem_map.mpr ⟨c, hc, by simpa using e⟩)
  rw [encode, hfind]
  rfl

end Texts

/-! ### What a call leaves alone -/

/-- The call leaves the setting as it is, whether it returns or faults. -/
def Keeps (j : Setting) {A : Type} (m : Cfg A) : Prop := ∀ c, (m c).2.get j = c.get j

section Keeps

variable {A B : Type} {j k : Setting}

theorem Keeps.of_preserves {m : Cfg A} (h : ∀ v, Act.Preserves (fun c => c.get j = v) m) :
    Keeps j m := fun c => h (c.get j) c rfl

theorem Keeps.preserves {m : Cfg A} (h : Keeps j m) (v : CStr) :
    Act.Preserves (fun c => c.get j = v) m := fun c hc => (h c).trans hc

theorem Keeps.pure (a : A) : Keeps j (pure a : Cfg A) := fun _ => rfl

theorem Keeps.bind {m : Cfg A} {f : A → Cfg B} (h : Keeps j m) (hf : ∀ a, Keeps j (f a)) :
    Keeps j (m >>= f) :=
  .of_preserves fun v => (h.preserves v).bind fun a => (hf a).preserves v

theorem Keeps.ite {p : Prop} [Decidable p] {m m' : Cfg A} (h : Keeps j m) (h' : Keeps j m') :
    Keeps j (if p then m else m') :=
  .of_preserves fun v => (h.preserves v).ite (h'.preserves v)

theorem Keeps.when {p : Prop} [Decidable p] {m : Cfg Unit} (h : Keeps j m) :
    Keeps j (Act.when p m) := h.ite (.pure ())

theorem Keeps.each {X : Type} {f : X → Cfg Unit} {xs : List X} (h : ∀ x ∈ xs, Keeps j (f x)) :
    Keeps j (Act.each f xs) :=
  .of_preserves fun v => .each fun x hx => (h x hx).preserves v

theorem keeps_nvramSafeGet (k : Setting) : Keeps j (nvramSafeGet k) := fun _ => rfl

theorem keeps_scfgmgrSet (h : j ≠ k) (v : CStr) : Keeps j (scfgmgrSet k v) :=
  fun c => c.get_set_ne k j v h

theorem keeps_aplSetFlag (id : Nat) : Keeps j (aplSetFlag id) :=
  fun c => congrFun (c.get_flag id) j

theorem keeps_store (buf : Buf) (size : Nat) (p : CStr) : Keeps j (store buf size p) :=
  fun c => by rw [store_eq]

theorem keeps_getFlag (k : Setting) : Keeps j (getFlag k) := fun _ => rfl

theorem keeps_getEnum (t : Texts) (k : Setting) : Keeps j (getEnum t k) := fun _ => rfl

theorem keeps_getText (size : Nat) (k : Setting) : Keeps j (getText size k) :=
  (keeps_nvramSafeGet k).bind fun p => keeps_store .value size p

theorem keeps_getNumber (size : Nat) (k : Setting) : Keeps j (getNumber size k) :=
  (keeps_getText size k).bind fun _ => .pure _

theorem keeps_wscConfigured (h : j ≠ .sys .wscConfigured) : Keeps j wscConfigured := by
  refine .bind ?_ fun _ => .pure ()
  refine .ite (.pure _) ((keeps_nvramSafeGet _).bind fun p => .ite (.pure _) ?_)
  exact .bind (.bind (keeps_nvramSafeGet _) fun _ => .pure _) fun old =>
    .bind (.when (keeps_scfgmgrSet h _)) fun _ => .pure _

theorem keeps_setFlag (h : j ≠ k) (id : Nat) (v : Int) : Keeps j (setFlag k id v) :=
  (keeps_getFlag k).bind fun _ =>
    .bind (.when ((keeps_scfgmgrSet h _).bind fun _ => keeps_aplSetFlag id)) fun _ => .pure _

/-- The store, the flag and the note to WPS of a setter. -/
theorem keeps_stored (h : j ≠ k) (hw : j ≠ .sys .wscConfigured) (p : CStr) (id : Nat) (wsc : Bool) :
    Keeps j (do scfgmgrSet k p; aplSetFlag id; Act.when wsc wscConfigured) :=
  (keeps_scfgmgrSet h p).bind fun _ => (keeps_aplSetFlag id).bind fun _ =>
    .when (keeps_wscConfigured hw)

theorem keeps_setEnum (h : j ≠ k) (hw : j ≠ .sys .wscConfigured) (t : Texts) (id : Nat)
    (wsc : Bool) (v : Int) : Keeps j (setEnum t k id wsc v) :=
  (keeps_getEnum t k).bind fun _ => .bind (.when (keeps_stored h hw _ id wsc)) fun _ => .pure _

theorem keeps_setNumber (h : j ≠ k) (hw : j ≠ .sys .wscConfigured) (size getSize : Nat) (id : Nat)
    (wsc : Bool) (v : Int) : Keeps j (setNumber size getSize k id wsc v) :=
  (keeps_getNumber getSize k).bind fun _ =>
    .bind (.when ((keeps_store .string size _).bind fun p => keeps_stored h hw p id wsc))
      fun _ => .pure _

theorem keeps_setText (h : j ≠ k) (hw : j ≠ .sys .wscConfigured) (getSize id : Nat) (p : CStr) :
    Keeps j (setText getSize k id p) :=
  (keeps_getText getSize k).bind fun _ =>
    .bind (.when (keeps_stored h hw p id true)) fun _ => .pure _

end Keeps

theorem wscConfigured_returns : Act.Returns wscConfigured := by
  refine .bind (.ite (.pure _) (.bind (fun c => ⟨_, rfl⟩) fun p => .ite (.pure _) ?_)) fun _ =>
    .pure ()
  refine .bind (.bind (fun c => ⟨_, rfl⟩) fun _ => .pure _) fun old => ?_
  exact .bind (.when fun c => ⟨_, rfl⟩) fun _ => .pure _

/-! ### When a setter returns -/

theorem store_fits {buf : Buf} {size : Nat} {p : CStr} (h : p.length < size) :
    store buf size p = pure p := if_pos h

/-- `if (x != get()) write(); return A_OK;` -/
theorem compare_eq {X : Type} [DecidableEq X] {get : Cfg X} {old : X} {c : Config}
    (hget : get c = (.ok old, c)) (x : X) {w : Cfg Unit}
    (hw : x ≠ old → (w c).1 = .ok ()) :
    (get >>= fun old => Act.when (x ≠ old) w >>= fun _ => pure Status.ok) c =
      (.ok .ok, if x ≠ old then (w c).2 else c) := by
  rw [Act.bind_ok hget]
  by_cases h : x ≠ old
  · have hwhen : Act.when (x ≠ old) w c = (.ok (), (w c).2) := by
      rw [Act.when_apply, if_pos h]
      exact Prod.ext (hw h) rfl
    rw [Act.bind_ok hwhen, if_pos h]
    rfl
  · have hwhen : Act.when (x ≠ old) w c = (.ok (), c) := by
      rw [Act.when_apply, if_neg h]
    rw [Act.bind_ok hwhen, if_neg h]
    rfl

/-- The setter faults just when its getter does. -/
theorem compare_exact {X : Type} [DecidableEq X] {get : Cfg X} {old : X} {c : Config} {F : Prop}
    (hget : F → get c = (.ok old, c)) (hfault : ¬ F → ∃ e, (get c).1 = .error e) (x : X)
    {w : Cfg Unit} (hw : x ≠ old → (w c).1 = .ok ()) :
    Act.Exact c F (get >>= fun old => Act.when (x ≠ old) w >>= fun _ => pure Status.ok)
      fun _ c' => c' = if x ≠ old then (w c).2 else c := by
  by_cases hF : F
  · exact .inl ⟨hF, .ok, by rw [compare_eq (hget hF) x hw], by rw [compare_eq (hget hF) x hw]⟩
  · obtain ⟨e, he⟩ := hfault hF
    exact .inr ⟨hF, e, by rw [Act.bind_error (Prod.ext he rfl)]⟩

section Faults

variable (c : Config) (k : Setting) (id : Nat)

theorem getText_fault {size : Nat} (h : ¬ (c.get k).length < size) :
    ∃ e, (getText size k c).1 = .error e :=
  ⟨.outside .value, by rw [getText_eq, if_neg h]⟩

theorem getNumber_fault {size : Nat} (h : ¬ (c.get k).length < size) :
    ∃ e, (getNumber size k c).1 = .error e :=
  ⟨.outside .value, by rw [getNumber_eq, if_neg h]⟩

theorem getText_fits {size : Nat} (h : (c.get k).length < size) :
    getText size k c = (.ok (c.get k), c) := by
  rw [getText_eq, if_pos h]

theorem getNumber_fits {size : Nat} (h : (c.get k).length < size) :
    getNumber size k c = (.ok (atoi (c.get k)), c) := by
  rw [getNumber_eq, if_pos h]

/-- The store, the flag and the note to WPS of a setter do not fault. -/
theorem stored_returns (p : CStr) (wsc : Bool) :
    Act.Returns (do scfgmgrSet k p; aplSetFlag id; Act.when wsc wscConfigured) :=
  .bind (fun _ => ⟨_, rfl⟩) fun _ => .bind (fun _ => ⟨_, rfl⟩) fun _ => .when wscConfigured_returns

theorem setText_exact (size : Nat) (p : CStr) :
    Act.Exact c ((c.get k).length < size) (setText size k id p) fun _ _ => True :=
  (compare_exact (getText_fits c k) (getText_fault c k) p
    fun _ => (stored_returns k id p true c).elim fun _ h => h).mono Iff.rfl fun _ _ _ => trivial

theorem setNumber_exact {size : Nat} (getSize : Nat) (wsc : Bool) {v : Int}
    (hv : (CStr.ofInt v).length < size) :
    Act.Exact c ((c.get k).length < getSize) (setNumber size getSize k id wsc v)
      fun _ _ => True := by
  have hw : (store .string size (.ofInt v) >>= fun string => scfgmgrSet k string >>= fun _ =>
      aplSetFlag id >>= fun _ => Act.when wsc wscConfigured : Cfg Unit) =
      (do scfgmgrSet k (.ofInt v); aplSetFlag id; Act.when wsc wscConfigured) := by
    rw [store_fits hv]
    rfl
  refine (compare_exact (getNumber_fits c k) (getNumber_fault c k) v fun _ => ?_).mono Iff.rfl
    fun _ _ _ => trivial
  rw [hw]
  exact (stored_returns k id _ wsc c).elim fun _ h => h

theorem setFlag_returns (v : Int) : Act.Returns (setFlag k id v) :=
  .bind (fun _ => ⟨_, rfl⟩) fun _ =>
    .bind (.when (.bind (fun _ => ⟨_, rfl⟩) fun _ => fun _ => ⟨_, rfl⟩)) fun _ => .pure _

theorem setEnum_returns (t : Texts) (wsc : Bool) (v : Int) :
    Act.Returns (setEnum t k id wsc v) :=
  .bind (fun _ => ⟨_, rfl⟩) fun _ => .bind (.when (stored_returns k id _ wsc)) fun _ => .pure _

end Faults

/-! ### What the setters store -/

section Stored

variable (c : Config) (k : Setting) (id : Nat) (v : Int)

theorem setFlag_eq :
    setFlag k id v c =
      (.ok .ok, if v ≠ flagOf (c.get k) then (c.set k (flagText v)).flag id else c) := by
  have h : setFlag k id v c = (Act.when (v ≠ flagOf (c.get k)) (do
      scfgmgrSet k (flagText v)
      aplSetFlag id) >>= fun _ => pure .ok) c := rfl
  rw [h, Act.bind_apply, Act.when_apply]
  by_cases hv : v ≠ flagOf (c.get k)
  · rw [if_pos hv, if_pos hv]
    rfl
  · rw [if_neg hv, if_neg hv]
    rfl

/-- A setter of a flag leaves the flag 1 or 0, as its argument is 1 or not. -/
theorem flagOf_setFlag : flagOf ((setFlag k id v c).2.get k) = if v = 1 then 1 else 0 := by
  rw [setFlag_eq]
  by_cases h : v = flagOf (c.get k)
  · rw [if_neg (not_not.mpr h)]
    subst h
    unfold flagOf
    split <;> rfl
  · rw [if_pos h, Config.get_flag, Config.get_set_self, flagOf_flagText]

/-- A setter of an enumerated setting leaves the value of the text of its argument. -/
theorem decode_setEnum (hk : k ≠ .sys .wscConfigured) {t : Texts} (ht : t.value ∈ t.values)
    (wsc : Bool) :
    t.decode ((setEnum t k id wsc v c).2.get k) = t.decode (t.encode v) := by
  have h : setEnum t k id wsc v c = (Act.when (v ≠ t.decode (c.get k)) (do
      scfgmgrSet k (t.encode v)
      aplSetFlag id
      Act.when wsc wscConfigured) >>= fun _ => pure .ok) c := rfl
  rw [h, Act.bind_pure_snd, Act.when_apply]
  by_cases hv : v = t.decode (c.get k)
  · rw [if_neg (not_not.mpr hv)]
    have hmem : v ∈ t.values := hv ▸ t.decode_mem ht (c.get k)
    exact hv.symm.trans (t.decode_encode hmem).symm
  · rw [if_pos hv]
    have hkept : Keeps k (do aplSetFlag id; Act.when wsc wscConfigured) :=
      (keeps_aplSetFlag id).bind fun _ => .when (keeps_wscConfigured hk)
    have hset := hkept (c.set k (t.encode v))
    rw [Config.get_set_self] at hset
    exact congrArg t.decode hset

end Stored

end Wap4410n.Apcfg
