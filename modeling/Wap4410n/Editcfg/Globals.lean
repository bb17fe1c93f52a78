import Wap4410n.Apcfg.Wlan

/-!
# Editcfg — the variables of the editable configuration

`libeditapcfg` writes the configuration as a text and reads it back.  Both go through a set of
variables, one for each attribute of the text (`Globals`): `outputCFGGet` fills them from the
settings, and `parseCFGSet` sets the settings from them.  A variable is a byte, a word, an IPv4
address, a MAC address or a text in an array, which it fits (`Held`); the array of a text is only
ever read as a string, so that what lies behind its NUL is not kept.

What these functions ask of the device they run on is a `Device`.
-/

namespace Wap4410n.Editcfg

open CLib Apcfg

/-! ### Variables -/

/-- The variables of type `unsigned char`. -/
inductive ByteVar where
  | dhcpF | dhcp6F | ipv6 | prefixlen
  | timesetting | daylightSaving | usDefntp
  | htBonjour | htForce100m | htAutoNegotiation | htPortSpeed | htDuplexMode | htRedirect
  | ethDot1xAuth | authViaMac
  | wlsMode | channel | ssidBroadcast (vap : Nat)
  | vapIsolated | secSystem (vap : Nat) | wlsSeparation (vap : Nat) | authType (vap : Nat)
  | encrypt (vap : Nat) | keyNo (vap : Nat)
  | aclFlag (vap : Nat) | aclType (vap : Nat)
  | vlan | vlanTag | wdsTag | vapPri (vap : Nat) | vapWmm (vap : Nat)
  | worldwide | channelBand | guardInter | ctsProtect | dtimInter | loadBalance
  | opMode | wdsRepeater | ucrRepeater | noSecurity | illegalAp
  | secShow | httpsEnable | webAccess | secureSh | snmp | snmpTrust | trapRange
  | mailAlert | syslogF | unAthLogin | athLogin | sysError | cfgChange
deriving DecidableEq, Repr

/-- The variables of type `unsigned short int`. -/
inductive WordVar where
  | authSPort1 | authSPort2 | keyrenew (vap : Nat)
  | nativeVid | manageVid | vapVlan (vap : Nat)
  | countryCode | beaconInterval | rtsThreshold | fragLength | vapBalance (vap : Nat)
  | logLength | logTime
deriving DecidableEq, Repr

/-- The arrays that hold a text. -/
inductive TextVar where
  | apPin | apName | apDesc | apLang | dnsServer1 | dnsServer2
  | ipAddress6 | gateway6 | ipv6dnsServer1 | ipv6dnsServer2
  | dateP | timeP | timeZone | ntpServer
  | htRedirectUrl | authName | authPasswd
  | ssid (vap : Nat) | authSSecret1 | authSSecret2
  | key (keyId vap : Nat) | preShared (vap : Nat)
  | wdsVlanList | perfssid
  | loginName | loginPasswd
  | contact | snmplocal | snmpdevice | getCom | setCom | trapCom
  | smtpServ | mailAddr
deriving DecidableEq, Repr

/-- The arrays of four octets. -/
inductive AddrVar where
  | ipAddress4 | subnet4 | gateway4 | authSIP1 | authSIP2
  | trapStartIp | trapServerIp | logIPAddr
deriving DecidableEq, Repr

/-- The arrays of six bytes. -/
inductive MacVar where
  | apMac | aclMac (vap i : Nat) | pxpMac (i : Nat)
deriving DecidableEq, Repr

/-- `sizeof` -/
def TextVar.size : TextVar → Nat
  | apPin => 9
  | apName | apDesc => 40
  | apLang => 4
  | dnsServer1 | dnsServer2 | ntpServer | wdsVlanList => 21
  | ipAddress6 | gateway6 | ipv6dnsServer1 | ipv6dnsServer2 => 45
  | dateP => 15
  | timeP => 10
  | timeZone => 13
  | htRedirectUrl => 257
  | authName | authPasswd | loginName | loginPasswd => 64
  | ssid _ | perfssid | key _ _ => 33
  | authSSecret1 | authSSecret2 => 129
  | preShared _ | smtpServ | mailAddr => 65
  | contact | snmplocal | snmpdevice | getCom | setCom | trapCom => 33

/-- `AC_NO` -/
def acNo : Nat := 256

/-- A text in an array of `n` bytes. -/
structure Held (n : Nat) where
  text : CStr
  fits : text.length < n

/-- Six bytes. -/
structure MacAddr where
  a : Byte
  b : Byte
  c : Byte
  d : Byte
  e : Byte
  f : Byte
deriving DecidableEq, Repr

namespace MacAddr

def bytes (m : MacAddr) : List Byte := [m.a, m.b, m.c, m.d, m.e, m.f]

def zero : MacAddr := ⟨0, 0, 0, 0, 0, 0⟩

end MacAddr

/-- `rogueAPMacList_s`: an address is 17 bytes. -/
structure RogueAPMacList where
  no : UInt16
  outNo : UInt16
  mac : Nat → List Byte

/-- The variables. -/
@[ext] structure Globals where
  byte : ByteVar → UInt8
  word : WordVar → UInt16
  held : (v : TextVar) → Held v.size
  addr : AddrVar → InAddr
  mac : MacVar → MacAddr
  rogueApMacList : RogueAPMacList

/-- A variable, whatever its type. -/
inductive Var where
  | byte (v : ByteVar)
  | word (v : WordVar)
  | text (v : TextVar)
  | addr (v : AddrVar)
  | mac (v : MacVar)
  | rogueApMacList
deriving DecidableEq, Repr

theorem TextVar.size_pos (v : TextVar) : 0 < v.size := by
  unfold TextVar.size
  split <;> decide

namespace Globals

/-- Static variables start as zero. -/
def initial : Globals where
  byte _ := 0
  word _ := 0
  held v := ⟨.empty, v.size_pos⟩
  addr _ := .zero
  mac _ := .zero
  rogueApMacList := ⟨0, 0, fun _ => List.replicate 17 0⟩

variable (g : Globals)

def text (v : TextVar) : CStr := (g.held v).text

def setByte (v : ByteVar) (x : UInt8) : Globals := { g with byte := Function.update g.byte v x }

def setWord (v : WordVar) (x : UInt16) : Globals := { g with word := Function.update g.word v x }

def setText (v : TextVar) (x : Held v.size) : Globals :=
  { g with held := Function.update g.held v x }

def setAddr (v : AddrVar) (x : InAddr) : Globals := { g with addr := Function.update g.addr v x }

def setMac (v : MacVar) (x : MacAddr) : Globals := { g with mac := Function.update g.mac v x }

def setRogue (l : RogueAPMacList) : Globals := { g with rogueApMacList := l }

/-- The variable holds the same in both. -/
def Same (g g' : Globals) : Var → Prop
  | .byte v => g.byte v = g'.byte v
  | .word v => g.word v = g'.word v
  | .text v => g.held v = g'.held v
  | .addr v => g.addr v = g'.addr v
  | .mac v => g.mac v = g'.mac v
  | .rogueApMacList => g.rogueApMacList = g'.rogueApMacList

section Same

variable {g} {g₁ g₂ : Globals} {x : Var}

theorem Same.refl : g.Same g x := by
  cases x <;> rfl

theorem Same.trans (h : g.Same g₁ x) (h' : g₁.Same g₂ x) : g.Same g₂ x := by
  cases x <;> exact Eq.trans h h'

theorem same_setByte (v : ByteVar) (y : UInt8) (h : x ≠ .byte v) : g.Same (g.setByte v y) x := by
  cases x with
  | byte w =>
      have hw : w ≠ v := fun e => h (congrArg _ e)
      simp [Same, setByte, hw]
  | word | text | addr | mac | rogueApMacList => rfl

theorem same_setWord (v : WordVar) (y : UInt16) (h : x ≠ .word v) : g.Same (g.setWord v y) x := by
  cases x with
  | word w =>
      have hw : w ≠ v := fun e => h (congrArg _ e)
      simp [Same, setWord, hw]
  | byte | text | addr | mac | rogueApMacList => rfl

theorem same_setText (v : TextVar) (y : Held v.size) (h : x ≠ .text v) :
    g.Same (g.setText v y) x := by
  cases x with
  | text w =>
      have hw : w ≠ v := fun e => h (congrArg _ e)
      simp [Same, setText, hw]
  | byte | word | addr | mac | rogueApMacList => rfl

theorem same_setAddr (v : AddrVar) (y : InAddr) (h : x ≠ .addr v) : g.Same (g.setAddr v y) x := by
  cases x with
  | addr w =>
      have hw : w ≠ v := fun e => h (congrArg _ e)
      simp [Same, setAddr, hw]
  | byte | word | text | mac | rogueApMacList => rfl

theorem same_setMac (v : MacVar) (y : MacAddr) (h : x ≠ .mac v) : g.Same (g.setMac v y) x := by
  cases x with
  | mac w =>
      have hw : w ≠ v := fun e => h (congrArg _ e)
      simp [Same, setMac, hw]
  | byte | word | text | addr | rogueApMacList => rfl

theorem same_setRogue (l : RogueAPMacList) (h : x ≠ .rogueApMacList) :
    g.Same (g.setRogue l) x := by
  cases x with
  | rogueApMacList => exact absurd rfl h
  | byte | word | text | addr | mac => rfl

@[simp] theorem byte_setByte_self (v : ByteVar) (y : UInt8) : (g.setByte v y).byte v = y := by
  simp [setByte]

@[simp] theorem word_setWord_self (v : WordVar) (y : UInt16) : (g.setWord v y).word v = y := by
  simp [setWord]

@[simp] theorem held_setText_self (v : TextVar) (y : Held v.size) : (g.setText v y).held v = y := by
  simp [setText]

@[simp] theorem text_setText_self (v : TextVar) (y : Held v.size) :
    (g.setText v y).text v = y.text := by
  rw [text, held_setText_self]

@[simp] theorem setText_setText (v : TextVar) (y z : Held v.size) :
    (g.setText v y).setText v z = g.setText v z := by
  simp [setText]

@[simp] theorem addr_setAddr_self (v : AddrVar) (y : InAddr) : (g.setAddr v y).addr v = y := by
  simp [setAddr]

@[simp] theorem mac_setMac_self (v : MacVar) (y : MacAddr) : (g.setMac v y).mac v = y := by
  simp [setMac]

end Same

end Globals

/-- `strcpy`, `sprintf` or `memset` into a variable. -/
def copy (v : TextVar) (p : CStr) (g : Globals) : Run Buf Globals :=
  if h : p.length < v.size then .ok (g.setText v ⟨p, h⟩) else .error (.outside .variable)

/-- What a copy leaves. -/
theorem copy_ok {v : TextVar} {p : CStr} {g g' : Globals} (h : copy v p g = .ok g') :
    ∃ hp : p.length < v.size, g' = g.setText v ⟨p, hp⟩ := by
  unfold copy at h
  split at h
  · rename_i hp
    exact ⟨hp, (Except.ok.inj h).symm⟩
  · cases h

theorem copy_fits {v : TextVar} {p : CStr} (hp : p.length < v.size) (g : Globals) :
    copy v p g = .ok (g.setText v ⟨p, hp⟩) := dif_pos hp

/-! ### The device -/

/-- `%02d` -/
def twoDigits (n : Nat) : CStr :=
  if n < 10 then (CStr.text "0").append (.ofInt n) else .ofInt n

/-- The local time. -/
structure Clock where
  year : Nat
  mon : Nat
  mday : Nat
  hour : Nat
  min : Nat
  sec : Nat
  year_lt : year < 10000
  two_digits : mon < 100 ∧ mday < 100 ∧ hour < 100 ∧ min < 100 ∧ sec < 100

namespace Clock

variable (t : Clock)

/-- The first word of what `getTimeofDay` prints. -/
def date : CStr :=
  (CStr.ofInt t.year).append <| (CStr.text "/").append <| (twoDigits t.mon).append <|
    (CStr.text "/").append (twoDigits t.mday)

/-- The word behind the day of the week. -/
def time : CStr :=
  (twoDigits t.hour).append <| (CStr.text ":").append <| (twoDigits t.min).append <|
    (CStr.text ":").append (twoDigits t.sec)

end Clock

/-- What the functions learn from the device, and the checks of `libutility` on texts. -/
structure Device where
  /-- `getVersion` -/
  version : CStr
  /-- the address of the management bridge -/
  mac : MacAddr
  /-- the address and the gateway `getMgtBrv6Info` reports for a status -/
  mgtBrv6Info : Nat → CStr × CStr
  clock : Clock
  /-- the lines of `/tmp/chan_list` before `current:` -/
  chanList : List CStr
  /-- `sc_get_default_country` -/
  defaultCountry : Int
  /-- the texts behind the `-` of the lines of `/tmp/country_list` -/
  countryList : List CStr
  /-- `do_convert(LAN2UTF, …)` under a country code; `none` for −1 -/
  convert : Int → CStr → Option CStr
  /-- what `sscanf(value, "%f", &t)` and `t * 100` give, if `t` is a percentage -/
  percent : CStr → Option UInt16
  /-- what the local numbers of a function hold that nothing was stored into -/
  unset : Nat → Int
  /-- `scValidIPv6(addr, 0)` -/
  validIPv6 : CStr → Bool
  /-- `scValidIPv6(addr, 1)` -/
  validIPv6Prefix : CStr → Bool
  validUrl : CStr → Bool
  validEmailAddr : CStr → Bool
  validwdsVlanList : CStr → Bool

/-- A device that knows nothing and refuses every text. -/
def Device.bare : Device where
  version := .empty
  mac := .zero
  mgtBrv6Info _ := (.empty, .empty)
  clock := ⟨0, 0, 0, 0, 0, 0, by decide, by decide⟩
  chanList := []
  defaultCountry := 0
  countryList := []
  convert _ _ := none
  percent _ := none
  unset _ := 0
  validIPv6 _ := false
  validIPv6Prefix _ := false
  validUrl _ := false
  validEmailAddr _ := false
  validwdsVlanList _ := false

/-- `check_country_domain` -/
def Device.countryDomain (dev : Device) (countryCode : Int) : Bool :=
  dev.countryList.any fun p => atoi p = countryCode

end Wap4410n.Editcfg
