import Wap4410n.Support.Inet
import Wap4410n.Apcfg.Config
import Wap4410n.Utility.GwIpv6

/-!
# Apcfg — settings of the system

The getters and setters of the settings that belong to no radio: names, addresses, time, the
Ethernet port, VLANs, logins, SNMP and the log.  Like those of a radio and of a VAP they come in
families.  A setter is `setNew`: it writes when its argument differs from what the getter returns.
Some of the numbers are read without a buffer (`getAtoi`), and addresses are kept as text and
compared as addresses (`getAddr`).
-/

namespace Wap4410n.Apcfg

open CLib

/-! ### Families -/

def aplSysname : Nat := 2
def aplLogin : Nat := 3
def aplSsh : Nat := 5
def aplHttpd : Nat := 6
def aplIpv4 : Nat := 10
def aplIpv6 : Nat := 11
def aplEthsup : Nat := 12
def aplNtp : Nat := 24
def aplSnmp : Nat := 25
def aplLog : Nat := 26
def aplForce100m : Nat := 29
def aplHttpredirect : Nat := 30
def aplBonjour : Nat := 32

/-- `if (x != get()) write(); return A_OK;` -/
def setNew {X : Type} [DecidableEq X] (get : Cfg X) (x : X) (write : Cfg Unit) : Cfg Status := do
  let old ← get
  Act.when (x ≠ old) write
  return .ok

/-- `scfgmgr_set(name,p);` and the flags that follow it. -/
def put (k : Setting) (p : CStr) (ids : List Nat) : Cfg Unit := do
  scfgmgrSet k p
  Act.each aplSetFlag ids

/-- `return atoi(nvram_safe_get(name));` -/
def getAtoi (k : Setting) : Cfg Int := do return atoi (← nvramSafeGet k)

/-- `return inet_addr(nvram_safe_get(name));` -/
def getAddr (k : Setting) : Cfg InAddr := do return inetAddr (← nvramSafeGet k)

/-- A setter of a flag. -/
def putFlag (k : Setting) (ids : List Nat) (v : Int) : Cfg Status :=
  setNew (getFlag k) v (put k (flagText v) ids)

/-- A setter of a number: it is printed into a buffer of `size` bytes. -/
def putInt (size : Nat) (get : Cfg Int) (k : Setting) (ids : List Nat) (v : Int) : Cfg Status :=
  setNew get v do
    let string ← store .string size (.ofInt v)
    put k string ids

/-- A setter of a text of `lo` to `hi` characters. -/
def putText (lo hi size : Nat) (k : Setting) (ids : List Nat) (p : CStr) : Cfg Status :=
  if p.length < lo ∨ hi < p.length then return .error
  else setNew (getText size k) p (put k p ids)

/-- A setter of an address. -/
def putAddr (k : Setting) (ids : List Nat) (v : InAddr) : Cfg Status :=
  setNew (getAddr k) v (put k (inetNtoa v) ids)

theorem getAddr_eq (k : Setting) (c : Config) : getAddr k c = (.ok (inetAddr (c.get k)), c) := rfl

/-- An address is read as it was set. -/
theorem putAddr_get (k : Setting) (ids : List Nat) (v : InAddr) (c : Config) :
    (putAddr k ids v c).1 = .ok .ok ∧ inetAddr ((putAddr k ids v c).2.get k) = v ∧
      ∀ j, j ≠ k → (putAddr k ids v c).2.get j = c.get j := by
  have hflags : ∀ (ids : List Nat) (c : Config), ∃ c', Act.each aplSetFlag ids c = (.ok (), c') ∧
      c'.get = c.get := by
    intro ids
    induction ids with
    | nil => exact fun c => ⟨c, rfl, rfl⟩
    | cons id ids ih =>
        intro c
        obtain ⟨c', hrun, hget⟩ := ih (c.flag id)
        have hflag : (c.flag id).get = c.get := Config.get_flag c id
        exact ⟨c', hrun, hget.trans hflag⟩
  obtain ⟨c', hput, hget⟩ := hflags ids (c.set k (inetNtoa v))
  have hrun : put k (inetNtoa v) ids c = (.ok (), c') := hput
  unfold putAddr setNew
  rw [Act.bind_ok (getAddr_eq k c)]
  by_cases hv : v = inetAddr (c.get k)
  · rw [Act.when, if_neg (not_not.mpr hv)]
    exact ⟨rfl, hv.symm, fun _ _ => rfl⟩
  · rw [Act.when, if_pos hv, Act.bind_ok hrun]
    refine ⟨rfl, ?_, fun j hj => ?_⟩
    · change inetAddr (c'.get k) = v
      rw [hget, Config.get_set, if_pos rfl, inetAddr_inetNtoa]
    · change c'.get j = c.get j
      rw [hget, Config.get_set, if_neg hj]

/-! ### Names and addresses -/

/-- `apCfgSysNameGet` -/
def apCfgSysNameGet : Cfg CStr := getText 40 (.sys .sysName)

/-- `apCfgSysNameSet` -/
def apCfgSysNameSet : CStr → Cfg Status := putText 1 39 40 (.sys .sysName) [aplSysname, aplBonjour]

/-- `apCfgDescGet` -/
def apCfgDescGet : Cfg CStr := getText 40 (.sys .sysDesc)

/-- `apCfgDescSet` -/
def apCfgDescSet : CStr → Cfg Status := putText 0 39 40 (.sys .sysDesc) []

/-- `apCfgSysLangGet` -/
def apCfgSysLangGet : Cfg CStr := getText 40 (.sys .sysLang)

/-- `apCfgSysLangSet` -/
def apCfgSysLangSet : CStr → Cfg Status := putText 0 39 40 (.sys .sysLang) []

/-- `apCfgDhcpEnableGet` -/
def apCfgDhcpEnableGet : Cfg Int := getFlag (.sys .lanDhcpc)

/-- `apCfgDhcpEnableSet` -/
def apCfgDhcpEnableSet : Int → Cfg Status := putFlag (.sys .lanDhcpc) [aplIpv4]

/-- `apCfgDhcp6EnableGet` -/
def apCfgDhcp6EnableGet : Cfg Int := getFlag (.sys .lanDhcp6c)

/-- `apCfgDhcp6EnableSet` -/
def apCfgDhcp6EnableSet : Int → Cfg Status := putFlag (.sys .lanDhcp6c) [aplIpv6]

/-- `apCfgIpAddrGet` -/
def apCfgIpAddrGet : Cfg InAddr := getAddr (.sys .lanIpaddr)

/-- `apCfgIpAddrSet` -/
def apCfgIpAddrSet : InAddr → Cfg Status := putAddr (.sys .lanIpaddr) [aplIpv4, aplBonjour]

/-- `apCfgIpMaskGet` -/
def apCfgIpMaskGet : Cfg InAddr := getAddr (.sys .lanNetmask)

/-- `apCfgIpMaskSet` -/
def apCfgIpMaskSet : InAddr → Cfg Status := putAddr (.sys .lanNetmask) [aplIpv4]

/-- `apCfgGatewayAddrGet` -/
def apCfgGatewayAddrGet : Cfg InAddr := getAddr (.sys .lanGateway)

/-- `apCfgGatewayAddrSet` -/
def apCfgGatewayAddrSet : InAddr → Cfg Status := putAddr (.sys .lanGateway) [aplIpv4]

/-- `apCfgNameSrvGet` -/
def apCfgNameSrvGet : Cfg CStr := getText 33 (.sys .lanDns1)

/-- `apCfgNameSrvSet` -/
def apCfgNameSrvSet : CStr → Cfg Status := putText 0 32 33 (.sys .lanDns1) [aplIpv4]

/-- `apCfgNameSrv2Get` -/
def apCfgNameSrv2Get : Cfg CStr := getText 33 (.sys .lanDns2)

/-- `apCfgNameSrv2Set` -/
def apCfgNameSrv2Set : CStr → Cfg Status := putText 0 32 33 (.sys .lanDns2) [aplIpv4]

/-- `apCfgipv6modeGet` -/
def apCfgipv6modeGet : Cfg Int := getFlag (.sys .lanIpv6)

/-- `apCfgipv6modeSet` -/
def apCfgipv6modeSet (v : Int) : Cfg Status :=
  putFlag (.sys .lanIpv6) [if v = 0 then aplReboot else aplIpv6] v

/-- `apCfgIpv6AddrGet` -/
def apCfgIpv6AddrGet : Cfg CStr := getText 47 (.sys .lanIpaddrv6)

/-- `apCfgIpv6AddrSet`, with `scValidIPv6(addr, 1)` -/
def apCfgIpv6AddrSet (valid : CStr → Bool) (addr : CStr) : Cfg Status :=
  if ¬ valid addr then return .error
  else setNew apCfgIpv6AddrGet addr (put (.sys .lanIpaddrv6) addr [aplIpv6])

/-- The setter of the IPv6 address of a gateway or a name server, which may be empty. -/
def putAddr6 (valid : CStr → Bool) (k : Setting) (p : CStr) : Cfg Status :=
  if p.length ≠ 0 ∧ ¬ valid p then return .error
  else setNew (getText 47 k) p (put k p [aplIpv6])

/-- `apCfgGatewayv6AddrGet` -/
def apCfgGatewayv6AddrGet : Cfg CStr := getText 47 (.sys .lanGatewayv6)

/-- The objects of `scValidGWv6`: its `buff` is a local array. -/
def ofGateway : Utility.Ipv6Array → Buf
  | .token => .token
  | .ipStr | .buff => .array

/-- `scValidGWv6` -/
def validGWv6 (gw : CStr) : Run Buf Bool :=
  (Utility.scValidGWv6 gw).mapError (Fault.map ofGateway)

theorem validGWv6_eq_ok {gw : CStr} {r : Bool} :
    validGWv6 gw = .ok r ↔ Utility.scValidGWv6 gw = .ok r := by
  unfold validGWv6
  cases Utility.scValidGWv6 gw with
  | ok r' =>
      constructor <;>
      · intro h
        cases h
        rfl
  | error e =>
      constructor <;>
      · intro h
        cases h

/-- `apCfgGatewayv6AddrSet` -/
def apCfgGatewayv6AddrSet (gw : CStr) : Cfg Status := do
  let refused ← if gw.length = 0 then pure false else Act.lift ((! ·) <$> validGWv6 gw)
  if refused then return .error
  else setNew apCfgGatewayv6AddrGet gw (put (.sys .lanGatewayv6) gw [aplIpv6])

/-- `apCfgNameSrv61Get` -/
def apCfgNameSrv61Get : Cfg CStr := getText 47 (.sys .lanDnsv61)

/-- `apCfgNameSrv61Set`, with `scValidIPv6(dns, 0)` -/
def apCfgNameSrv61Set (valid : CStr → Bool) : CStr → Cfg Status := putAddr6 valid (.sys .lanDnsv61)

/-- `apCfgNameSrv62Get` -/
def apCfgNameSrv62Get : Cfg CStr := getText 47 (.sys .lanDnsv62)

/-- `apCfgNameSrv62Set`, with `scValidIPv6(dns, 0)` -/
def apCfgNameSrv62Set (valid : CStr → Bool) : CStr → Cfg Status := putAddr6 valid (.sys .lanDnsv62)

/-! ### Time -/

/-- `apCfgTimeModeGet` -/
def apCfgTimeModeGet : Cfg Int := getFlag (.sys .todEnable)

/-- `apCfgTimeModeSet` -/
def apCfgTimeModeSet : Int → Cfg Status := putInt 10 apCfgTimeModeGet (.sys .todEnable) [aplNtp]

/-- `apCfgTimeYearGet` -/
def apCfgTimeYearGet : Cfg Int := getAtoi (.sys .todYear)

/-- `apCfgTimeMonGet` -/
def apCfgTimeMonGet : Cfg Int := getAtoi (.sys .todMon)

/-- `apCfgTimeDayGet` -/
def apCfgTimeDayGet : Cfg Int := getAtoi (.sys .todDay)

/-- `apCfgTimeHourGet` -/
def apCfgTimeHourGet : Cfg Int := getAtoi (.sys .todHour)

/-- `apCfgTimeMinGet` -/
def apCfgTimeMinGet : Cfg Int := getAtoi (.sys .todMin)

/-- `apCfgTimeSecGet` -/
def apCfgTimeSecGet : Cfg Int := getAtoi (.sys .todSec)

/-- The setter of a part of the date or the time. -/
def putTime (f : SysField) : Int → Cfg Status := putInt 10 (getAtoi (.sys f)) (.sys f) [aplNtp]

/-- `apCfgTimeYearSet` -/
def apCfgTimeYearSet : Int → Cfg Status := putTime .todYear

/-- `apCfgTimeMonSet` -/
def apCfgTimeMonSet : Int → Cfg Status := putTime .todMon

/-- `apCfgTimeDaySet` -/
def apCfgTimeDaySet : Int → Cfg Status := putTime .todDay

/-- `apCfgTimeHourSet` -/
def apCfgTimeHourSet : Int → Cfg Status := putTime .todHour

/-- `apCfgTimeMinSet` -/
def apCfgTimeMinSet : Int → Cfg Status := putTime .todMin

/-- `apCfgTimeSecSet` -/
def apCfgTimeSecSet : Int → Cfg Status := putTime .todSec

/-- `apCfgTimezoneOffsetGet` -/
def apCfgTimezoneOffsetGet : Cfg CStr := getText 13 (.sys .timezoneDiff)

/-- `apCfgTimezoneOffsetSet` -/
def apCfgTimezoneOffsetSet : CStr → Cfg Status := putText 0 12 13 (.sys .timezoneDiff) [aplNtp]

/-- `apCfgDaylightSavingGet` -/
def apCfgDaylightSavingGet : Cfg Int := getFlag (.sys .timezoneDaylightsaving)

/-- `apCfgDaylightSavingSet` -/
def apCfgDaylightSavingSet : Int → Cfg Status := putFlag (.sys .timezoneDaylightsaving) [aplNtp]

/-- `apCfgNtpModeGet` -/
def apCfgNtpModeGet : Cfg Int := getAtoi (.sys .ntpMode)

/-- `apCfgNtpModeSet` -/
def apCfgNtpModeSet : Int → Cfg Status := putInt 10 apCfgNtpModeGet (.sys .ntpMode) [aplNtp]

/-- `apCfgNtpServerGet` -/
def apCfgNtpServerGet : Cfg CStr := getText 33 (.sys .ntpServer)

/-- `apCfgNtpServerSet` -/
def apCfgNtpServerSet : CStr → Cfg Status := putText 0 32 33 (.sys .ntpServer) [aplNtp]

/-! ### The Ethernet port -/

/-- `apCfgBonjourGet` -/
def apCfgBonjourGet : Cfg Int := getFlag (.sys .bonjourEnable)

/-- `apCfgBonjourSet` -/
def apCfgBonjourSet : Int → Cfg Status := putFlag (.sys .bonjourEnable) [aplBonjour]

/-- `apCfgForce100mGet` -/
def apCfgForce100mGet : Cfg Int := getFlag (.sys .lanForce100m)

/-- `apCfgForce100mSet`, which sets the flag in any case -/
def apCfgForce100mSet (v : Int) : Cfg Status := do
  let _ ← putFlag (.sys .lanForce100m) [] v
  aplSetFlag aplForce100m
  return .ok

/-- `apCfgAutonegoGet` -/
def apCfgAutonegoGet : Cfg Int := do return if (← getAtoi (.sys .lanAutonego)) = 1 then 1 else 0

/-- `apCfgAutonegoSet` -/
def apCfgAutonegoSet (v : Int) : Cfg Status :=
  setNew apCfgAutonegoGet v
    (put (.sys .lanAutonego) (if v = 0 then disable else enable) [aplForce100m])

/-- `apCfgPortspeedGet` -/
def apCfgPortspeedGet : Cfg Int := do
  let p ← getAtoi (.sys .lanPortspeedDefine)
  return if p = 1 then 1 else if p = 2 then 2 else 0

/-- `apCfgPortspeedSet` -/
def apCfgPortspeedSet (v : Int) : Cfg Status :=
  setNew apCfgPortspeedGet v do
    if v = 0 then do
      scfgmgrSet (.sys .lanPortspeedDefine) disable
      scfgmgrSet (.sys .ethDataRate) (.text "10Mbps")
    else if v = 1 then do
      scfgmgrSet (.sys .lanPortspeedDefine) enable
      scfgmgrSet (.sys .ethDataRate) (.text "100Mbps")
    else do
      scfgmgrSet (.sys .ethDataRate) (.text "1000Mbps")
      scfgmgrSet (.sys .lanPortspeedDefine) (.text "2")
    aplSetFlag aplForce100m

/-- `apCfgDuplexmodeGet` -/
def apCfgDuplexmodeGet : Cfg Int := do return if (← getAtoi (.sys .lanDuplexmode)) = 1 then 1 else 0

/-- `apCfgDuplexmodeSet` -/
def apCfgDuplexmodeSet (v : Int) : Cfg Status :=
  setNew apCfgDuplexmodeGet v do
    if v = 0 then scfgmgrSet (.sys .lanDuplexmode) disable
    else Act.when (v = 1) (scfgmgrSet (.sys .lanDuplexmode) enable)
    aplSetFlag aplForce100m

/-- `apCfgRedirectModeGet` -/
def apCfgRedirectModeGet : Cfg Int := getFlag (.sys .rediretMode)

/-- `apCfgRedirectModeSet` -/
def apCfgRedirectModeSet : Int → Cfg Status := putFlag (.sys .rediretMode) [aplHttpredirect]

/-- `apCfgRedirectUrlGet` -/
def apCfgRedirectUrlGet : Cfg CStr := getText 129 (.sys .rediretUrl)

/-- `apCfgRedirectUrlSet` -/
def apCfgRedirectUrlSet : CStr → Cfg Status :=
  putText 0 128 129 (.sys .rediretUrl) [aplHttpredirect]

/-- `scApCfgDot1xSuppEnableGet` -/
def scApCfgDot1xSuppEnableGet : Cfg Int := getFlag (.sys .ethSuppMode)

/-- `scApCfgDot1xSuppEnableSet` -/
def scApCfgDot1xSuppEnableSet : Int → Cfg Status := putFlag (.sys .ethSuppMode) [aplEthsup]

/-- `scApCfgDot1xSuppMacEnableGet` -/
def scApCfgDot1xSuppMacEnableGet : Cfg Int := getFlag (.sys .ethSuppMac)

/-- `scApCfgDot1xSuppMacEnableSet` -/
def scApCfgDot1xSuppMacEnableSet : Int → Cfg Status := putFlag (.sys .ethSuppMac) [aplEthsup]

/-- `scApCfgDot1xSuppUsernameGet` -/
def scApCfgDot1xSuppUsernameGet : Cfg CStr := getText 64 (.sys .ethSuppUser)

/-- `scApCfgDot1xSuppUsernameSet` -/
def scApCfgDot1xSuppUsernameSet : CStr → Cfg Status :=
  putText 0 63 64 (.sys .ethSuppUser) [aplEthsup]

/-- `scApCfgDot1xSuppPasswordGet` -/
def scApCfgDot1xSuppPasswordGet : Cfg CStr := getText 64 (.sys .ethSuppPwd)

/-- `scApCfgDot1xSuppPasswordSet` -/
def scApCfgDot1xSuppPasswordSet : CStr → Cfg Status :=
  putText 4 63 64 (.sys .ethSuppPwd) [aplEthsup]

/-! ### VLANs -/

/-- `apCfgVlanModeGet` -/
def apCfgVlanModeGet : Cfg Int := getFlag (.sys .vlanMode)

/-- `apCfgVlanModeSet` -/
def apCfgVlanModeSet : Int → Cfg Status := putFlag (.sys .vlanMode) [aplVlan]

/-- The setter of a VLAN id of the system: `VLAN_TAG_MIN` to `VLAN_TAG_MAX`. -/
def putVlanId (f : SysField) (v : Int) : Cfg Status :=
  if v < 1 ∨ 0x0FFE < v then return .error
  else putInt 10 (getAtoi (.sys f)) (.sys f) [aplVlan] v

/-- `apCfgNativeVlanIdGet` -/
def apCfgNativeVlanIdGet : Cfg Int := getAtoi (.sys .vlanDefault)

/-- `apCfgNativeVlanIdSet` -/
def apCfgNativeVlanIdSet : Int → Cfg Status := putVlanId .vlanDefault

/-- `apCfgManagementVlanIdGet` -/
def apCfgManagementVlanIdGet : Cfg Int := getAtoi (.sys .vlanManagement)

/-- `apCfgManagementVlanIdSet` -/
def apCfgManagementVlanIdSet : Int → Cfg Status := putVlanId .vlanManagement

/-- `apCfgNativeVlanTagGet` -/
def apCfgNativeVlanTagGet : Cfg Int := getFlag (.sys .vlanDefaultTag)

/-- `apCfgNativeVlanTagSet` -/
def apCfgNativeVlanTagSet : Int → Cfg Status := putFlag (.sys .vlanDefaultTag) [aplVlan]

/-- `apCfgWdsVlanTagGet` -/
def apCfgWdsVlanTagGet : Cfg Int := getFlag (.sys .vlanWdsTag)

/-- `apCfgWdsVlanTagSet` -/
def apCfgWdsVlanTagSet : Int → Cfg Status := putFlag (.sys .vlanWdsTag) [aplVlan]

/-- `apCfgwdsVlanListGet` -/
def apCfgwdsVlanListGet : Cfg CStr := getText 21 (.sys .wdsVlanList)

/-- `apCfgwdsVlanListSet`, with `scValidwdsVlanList` -/
def apCfgwdsVlanListSet (valid : CStr → Bool) (list : CStr) : Cfg Status :=
  if valid list then do
    put (.sys .wdsVlanList) list [aplVlan]
    return .ok
  else return .error

/-! ### Management -/

/-- `apCfgCountryCodeGet` -/
def apCfgCountryCodeGet : Cfg Int := getAtoi (.sys .sysDomain)

/-- `scApCfgRogueApTypeGet`, which returns a `char` -/
def scApCfgRogueApTypeGet : Cfg Int := do
  return (Int8.ofInt (← getAtoi (.sys .rogueType))).toInt

/-- `scApCfgRogueApTypeSet` -/
def scApCfgRogueApTypeSet (v : Int) : Cfg Status :=
  if 0 ≤ v ∧ v ≤ 3 then putInt 10 scApCfgRogueApTypeGet (.sys .rogueType) [aplRogueap] v
  else return .einval

/-- `apCfgSecMaskGet` -/
def apCfgSecMaskGet : Cfg Int := getAtoi (.sys .secretMask)

/-- `apCfgSecMaskSet` -/
def apCfgSecMaskSet : Int → Cfg Status := putInt 10 apCfgSecMaskGet (.sys .secretMask) []

/-- `apCfgLoginGet` -/
def apCfgLoginGet : Cfg CStr := getText 64 (.sys .loginUsername)

/-- `apCfgLoginSet` -/
def apCfgLoginSet : CStr → Cfg Status := putText 1 63 64 (.sys .loginUsername) [aplLogin]

/-- `apCfgPasswordGet` -/
def apCfgPasswordGet : Cfg CStr := getText 64 (.sys .loginPassword)

/-- `apCfgPasswordSet` -/
def apCfgPasswordSet : CStr → Cfg Status := putText 4 63 64 (.sys .loginPassword) [aplLogin]

/-- `apCfgAutohttpsModeSet`; its getter compares the NUL too -/
def apCfgAutohttpsModeSet : Int → Cfg Status := putFlag (.sys .autohttps) [aplHttpd, aplBonjour]

/-- `apCfgHttpsModeGet` -/
def apCfgHttpsModeGet : Cfg Int := getFlag (.sys .httpsMode)

/-- `apCfgHttpsModeSet` -/
def apCfgHttpsModeSet : Int → Cfg Status := putFlag (.sys .httpsMode) [aplHttpd]

/-- `apCfgWlanAccessGet` -/
def apCfgWlanAccessGet : Cfg Int := getFlag (.sys .wlanManage)

/-- `apCfgWlanAccessSet` -/
def apCfgWlanAccessSet : Int → Cfg Status := putFlag (.sys .wlanManage) [aplHttpd]

/-- `apCfgSSHGet` -/
def apCfgSSHGet : Cfg Int := getFlag (.sys .ssh)

/-- `apCfgSSHSet` -/
def apCfgSSHSet : Int → Cfg Status := putFlag (.sys .ssh) [aplSsh, aplBonjour]

/-! ### SNMP -/

/-- `apCfgSnmpModeGet` -/
def apCfgSnmpModeGet : Cfg Int := getFlag (.sys .snmpMode)

/-- `apCfgSnmpModeSet` -/
def apCfgSnmpModeSet : Int → Cfg Status := putFlag (.sys .snmpMode) [aplSnmp]

/-- The getter of a text of SNMP. -/
def getSnmpText (f : SysField) : Cfg CStr := getText 33 (.sys f)

/-- The setter of a text of SNMP. -/
def putSnmpText (f : SysField) : CStr → Cfg Status := putText 1 32 33 (.sys f) [aplSnmp]

/-- `apCfgSnmpContactGet` -/
def apCfgSnmpContactGet : Cfg CStr := getSnmpText .snmpContact

/-- `apCfgSnmpContactSet` -/
def apCfgSnmpContactSet : CStr → Cfg Status := putSnmpText .snmpContact

/-- `apCfgSnmpLocationGet` -/
def apCfgSnmpLocationGet : Cfg CStr := getSnmpText .snmpLocation

/-- `apCfgSnmpLocationSet` -/
def apCfgSnmpLocationSet : CStr → Cfg Status := putSnmpText .snmpLocation

/-- `apCfgSnmpReadCommGet` -/
def apCfgSnmpReadCommGet : Cfg CStr := getSnmpText .snmpCommunityGet

/-- `apCfgSnmpReadCommSet` -/
def apCfgSnmpReadCommSet : CStr → Cfg Status := putSnmpText .snmpCommunityGet

/-- `apCfgSnmpWriteCommGet` -/
def apCfgSnmpWriteCommGet : Cfg CStr := getSnmpText .snmpCommunitySet

/-- `apCfgSnmpWriteCommSet` -/
def apCfgSnmpWriteCommSet : CStr → Cfg Status := putSnmpText .snmpCommunitySet

/-- `apCfgSnmpTrapCommunityGet` -/
def apCfgSnmpTrapCommunityGet : Cfg CStr := getSnmpText .snmpTrapCommunity

/-- `apCfgSnmpTrapCommunitySet` -/
def apCfgSnmpTrapCommunitySet : CStr → Cfg Status := putSnmpText .snmpTrapCommunity

/-- `apCfgSnmpAnyManagerGet` -/
def apCfgSnmpAnyManagerGet : Cfg Int := getFlag (.sys .snmpTrustedAny)

/-- `apCfgSnmpAnyManagerSet` -/
def apCfgSnmpAnyManagerSet : Int → Cfg Status := putFlag (.sys .snmpTrustedAny) [aplSnmp]

/-- `apCfgSnmpManagerIpGet` -/
def apCfgSnmpManagerIpGet : Cfg InAddr := getAddr (.sys .snmpTrustedHostStart)

/-- `apCfgSnmpManagerIpSet` -/
def apCfgSnmpManagerIpSet : InAddr → Cfg Status := putAddr (.sys .snmpTrustedHostStart) [aplSnmp]

/-- `apCfgSnmpManagerIpEndGet` -/
def apCfgSnmpManagerIpEndGet : Cfg InAddr := getAddr (.sys .snmpTrustedHostEnd)

/-- `apCfgSnmpManagerIpEndSet` -/
def apCfgSnmpManagerIpEndSet : InAddr → Cfg Status := putAddr (.sys .snmpTrustedHostEnd) [aplSnmp]

/-- `apCfgSnmpTrapRecvIpGet` -/
def apCfgSnmpTrapRecvIpGet : Cfg InAddr := getAddr (.sys .snmpTrapDest)

/-- `apCfgSnmpTrapRecvIpSet` -/
def apCfgSnmpTrapRecvIpSet : InAddr → Cfg Status := putAddr (.sys .snmpTrapDest) [aplSnmp]

/-! ### The log -/

/-- `apCfgemailAlertsEnabledGet` -/
def apCfgemailAlertsEnabledGet : Cfg Int := getFlag (.sys .emailAlert)

/-- `apCfgemailAlertsEnabledSet` -/
def apCfgemailAlertsEnabledSet : Int → Cfg Status := putFlag (.sys .emailAlert) [aplLog]

/-- `apCfgsmtpMailServerGet` -/
def apCfgsmtpMailServerGet : Cfg CStr := getText 65 (.sys .emailAlertServer)

/-- `apCfgsmtpMailServerSet` -/
def apCfgsmtpMailServerSet : CStr → Cfg Status := putText 0 64 65 (.sys .emailAlertServer) [aplLog]

/-- `apCfgemailAddrForLogGet` -/
def apCfgemailAddrForLogGet : Cfg CStr := getText 65 (.sys .emailAddr)

/-- `apCfgemailAddrForLogSet` -/
def apCfgemailAddrForLogSet : CStr → Cfg Status := putText 0 64 65 (.sys .emailAddr) [aplLog]

/-- `apCfgemailAlertsQlenGet` -/
def apCfgemailAlertsQlenGet : Cfg Int := getAtoi (.sys .emailQueueLength)

/-- `scApCfgemailAlertsQlenSet`: `MIN_ALERT_QLEN` to `MAX_ALERT_QLEN`. -/
def scApCfgemailAlertsQlenSet (v : Int) : Cfg Status :=
  if v < 1 ∨ 500 < v then return .error
  else putInt 6 apCfgemailAlertsQlenGet (.sys .emailQueueLength) [aplLog] v

/-- `scApCfgemailAlertsIntervalGet` -/
def scApCfgemailAlertsIntervalGet : Cfg Int := getAtoi (.sys .emailSendPeriod)

/-- `scApCfgemailAlertsIntervalSet`: `MIN_ALERT_INTERVAL` to `MAX_ALERT_INTERVAL`. -/
def scApCfgemailAlertsIntervalSet (v : Int) : Cfg Status :=
  if v < 1 ∨ 600 < v then return .error
  else putInt 6 scApCfgemailAlertsIntervalGet (.sys .emailSendPeriod) [aplLog] v

/-- `apCfgsysLogEnabledGet` -/
def apCfgsysLogEnabledGet : Cfg Int := getFlag (.sys .syslogMode)

/-- `apCfgsysLogEnabledSet` -/
def apCfgsysLogEnabledSet : Int → Cfg Status := putFlag (.sys .syslogMode) [aplLog]

/-- `apCfgsysLogServerGet` -/
def apCfgsysLogServerGet : Cfg CStr := getText 33 (.sys .syslogServer)

/-- `apCfgsysLogServerSet` -/
def apCfgsysLogServerSet : CStr → Cfg Status := putText 0 32 33 (.sys .syslogServer) [aplLog]

/-- `apCfgDeauthGet` -/
def apCfgDeauthGet : Cfg Int := getFlag (.sys .logLoginFail)

/-- `apCfgDeauthSet` -/
def apCfgDeauthSet : Int → Cfg Status := putFlag (.sys .logLoginFail) [aplLog]

/-- `apCfgAuthLoginGet` -/
def apCfgAuthLoginGet : Cfg Int := getFlag (.sys .logLoginSuccess)

/-- `apCfgAuthLoginSet` -/
def apCfgAuthLoginSet : Int → Cfg Status := putFlag (.sys .logLoginSuccess) [aplLog]

/-- `apCfgChangeSysFucGet` -/
def apCfgChangeSysFucGet : Cfg Int := getFlag (.sys .logSystemErrors)

/-- `apCfgChangeSysFucSet` -/
def apCfgChangeSysFucSet : Int → Cfg Status := putFlag (.sys .logSystemErrors) [aplLog]

/-- `apCfgChangeCfgGet` -/
def apCfgChangeCfgGet : Cfg Int := getFlag (.sys .logConfChange)

/-- `apCfgChangeCfgSet` -/
def apCfgChangeCfgSet : Int → Cfg Status := putFlag (.sys .logConfChange) [aplLog]

end Wap4410n.Apcfg
