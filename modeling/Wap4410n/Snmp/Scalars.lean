import Wap4410n.Apcfg.Accepted
import Wap4410n.Cli.Url
import Wap4410n.Snmp.Indoor
import Wap4410n.Snmp.RemoteMac
import Wap4410n.Utility.Email
import Wap4410n.Utility.IpMask

/-!
# Snmp — the write methods of the scalar objects

The objects of `var_indoor` that are settings of the system: a flag, a number, a text or an address,
with a write method each.  Nearly all of them check the value in `RESERVE1` and give it to a setter
in `ACTION`; `Spec` is what such an object accepts and what it does to its settings, and
`Scalar.stores` says that the write methods do that.

* `requests_atomic`: a run of SET requests, each of which is carried out variable by variable or
  changes nothing.

Some methods do not do what their names say.  `write_managementVlanId` refuses no number, so that
the setter is the one to refuse it, and the manager is not told; a text ends at its first NUL, and
may be too short for its setter then; `write_hostName` clears 33 of 40 bytes.
-/

namespace Wap4410n.Snmp

open CLib Apcfg Utility

/-! ### The write methods -/

/-- `ASN_INTEGER` -/
def asnInteger : Byte := 0x02

/-- The value of a variable: its type, its length, the bytes at `var_val`, and what is read there as
a `long` and as an address. -/
structure VarBind where
  type : Byte
  octets : List Byte
  long : Int32
  word : InAddr

/-- `var_val_len` -/
def VarBind.len (v : VarBind) : Nat := v.octets.length

/-- A method that checks the value in `RESERVE1` and stores it in `ACTION`. -/
def writeValue (check : VarBind → SnmpErr) (put : VarBind → Cfg Unit) (v : VarBind) :
    WriteMethod Config Buf
  | .reserve1 => return check v
  | .action => do
    put v
    return .noError
  | .commit => do
    apcfgSubmit
    return .noError
  | .reserve2 | .free | .undo => return .noError

/-- The check of a number. -/
def checkLong (inRange : Int → Bool) (v : VarBind) : SnmpErr :=
  if v.type ≠ asnInteger then .wrongType
  else if 4 < v.len then .wrongLength
  else if inRange v.long.toInt then .noError
  else .wrongValue

/-- The method of a number. -/
def writeLong (inRange : Int → Bool) (put : Int → Cfg Unit) : VarBind → WriteMethod Config Buf :=
  writeValue (checkLong inRange) fun v => put v.long.toInt

/-- 0 or 1. -/
def isFlag (v : Int) : Bool := v = 0 || v = 1

/-- The method of a flag. -/
def writeFlag (set : Int → Cfg Status) : VarBind → WriteMethod Config Buf :=
  writeLong isFlag fun v => Act.ignore (set v)

/-- The method of a flag that is checked once more in `ACTION`. -/
def writeCheckedFlag (set : Int → Cfg Status) : VarBind → WriteMethod Config Buf :=
  writeLong isFlag fun v => Act.when (v = 0 ∨ v = 1) (Act.ignore (set v))

/-- The check of a text of `lo` to `hi` bytes. -/
def checkText (lo hi : Nat) (valid : CStr → Bool) (v : VarBind) : SnmpErr :=
  if v.type ≠ asnOctetStr then .wrongType
  else if v.len < lo ∨ hi < v.len then .wrongLength
  else if valid (.before v.octets) then .noError
  else .wrongValue

/-- `memcpy(val, var_val, var_val_len);`, into an array of `size` bytes that holds zeros. -/
def copyOctets (size : Nat) (v : VarBind) : Cfg CStr :=
  if v.len < size then return .before v.octets else Act.fault (.outside .array)

/-- The method of a text that is checked beside its length. -/
def writeValidText (lo hi : Nat) (valid : CStr → Bool) (set : CStr → Cfg Status) :
    VarBind → WriteMethod Config Buf :=
  writeValue (checkText lo hi valid) fun v => do
    let val ← copyOctets (hi + 1) v
    Act.ignore (set val)

/-- The method of a text. -/
def writeText (lo hi : Nat) : (CStr → Cfg Status) → VarBind → WriteMethod Config Buf :=
  writeValidText lo hi fun _ => true

/-- The method of an address. -/
def writeAddr (valid : InAddr → Bool) (set : InAddr → Cfg Status) :
    VarBind → WriteMethod Config Buf :=
  writeValue (fun v =>
      if v.type ≠ asnIpaddress then .wrongType
      else if v.len < 1 ∨ 4 < v.len then .wrongLength
      else if valid v.word then .noError
      else .wrongValue)
    fun v => Act.ignore (set v.word)

/-- `scValidIpMask`: what it returns. -/
def isMask (x : InAddr) : Bool := (scValidIpMask x).1

/-- `scValidIpGateWay` -/
def scValidIpGateWay (gateway : InAddr) : Bool := gateway.toNat = 0 || scValidIpAddress gateway

/-- `write_timeDaylightSaving` -/
def writeTimeDaylightSaving : VarBind → WriteMethod Config Buf :=
  writeCheckedFlag apCfgDaylightSavingSet

/-- `write_snmpTrustedAny` -/
def writeSnmpTrustedAny : VarBind → WriteMethod Config Buf :=
  writeCheckedFlag apCfgSnmpAnyManagerSet

/-- `write_timeSetMode` -/
def writeTimeSetMode : VarBind → WriteMethod Config Buf := writeFlag apCfgTimeModeSet

/-- `write_vlanMode` -/
def writeVlanMode : VarBind → WriteMethod Config Buf := writeFlag apCfgVlanModeSet

/-- `write_logLoginSuccessMode` -/
def writeLogLoginSuccessMode : VarBind → WriteMethod Config Buf := writeFlag apCfgAuthLoginSet

/-- `write_wirelessAccessMode` -/
def writeWirelessAccessMode : VarBind → WriteMethod Config Buf := writeFlag apCfgWlanAccessSet

/-- `write_vlanOverWDS` -/
def writeVlanOverWDS : VarBind → WriteMethod Config Buf := writeFlag apCfgWdsVlanTagSet

/-- `write_BonjourMode` -/
def writeBonjourMode : VarBind → WriteMethod Config Buf := writeFlag apCfgBonjourSet

/-- `write_httpRedirectMode` -/
def writeHttpRedirectMode : VarBind → WriteMethod Config Buf := writeFlag apCfgRedirectModeSet

/-- `write_eth1xSuppMode` -/
def writeEth1xSuppMode : VarBind → WriteMethod Config Buf := writeFlag scApCfgDot1xSuppEnableSet

/-- `write_logLoginFailMode` -/
def writeLogLoginFailMode : VarBind → WriteMethod Config Buf := writeFlag apCfgDeauthSet

/-- `write_vlanTag` -/
def writeVlanTag : VarBind → WriteMethod Config Buf := writeFlag apCfgNativeVlanTagSet

/-- `write_snmpMode` -/
def writeSnmpMode : VarBind → WriteMethod Config Buf := writeFlag apCfgSnmpModeSet

/-- `write_logConfChangeMode` -/
def writeLogConfChangeMode : VarBind → WriteMethod Config Buf := writeFlag apCfgChangeCfgSet

/-- `write_logSystemErrorMode` -/
def writeLogSystemErrorMode : VarBind → WriteMethod Config Buf := writeFlag apCfgChangeSysFucSet

/-- `write_sshMode` -/
def writeSshMode : VarBind → WriteMethod Config Buf := writeFlag apCfgSSHSet

/-- `write_ntpMode` -/
def writeNtpMode : VarBind → WriteMethod Config Buf := writeFlag apCfgNtpModeSet

/-- `write_emailAlertMode` -/
def writeEmailAlertMode : VarBind → WriteMethod Config Buf := writeFlag apCfgemailAlertsEnabledSet

/-- `write_snmpContact` -/
def writeSnmpContact : VarBind → WriteMethod Config Buf := writeText 1 32 apCfgSnmpContactSet

/-- `write_password` -/
def writePassword : VarBind → WriteMethod Config Buf := writeText 4 63 apCfgPasswordSet

/-- `write_deviceName` -/
def writeDeviceName : VarBind → WriteMethod Config Buf := writeText 0 39 apCfgDescSet

/-- `write_snmpCommunityGet` -/
def writeSnmpCommunityGet : VarBind → WriteMethod Config Buf := writeText 1 32 apCfgSnmpReadCommSet

/-- `write_snmpLocation` -/
def writeSnmpLocation : VarBind → WriteMethod Config Buf := writeText 1 32 apCfgSnmpLocationSet

/-- `write_ntpServer` -/
def writeNtpServer : VarBind → WriteMethod Config Buf := writeText 0 32 apCfgNtpServerSet

/-- `write_eth1xSuppName` -/
def writeEth1xSuppName : VarBind → WriteMethod Config Buf :=
  writeText 1 63 scApCfgDot1xSuppUsernameSet

/-- `write_eth1xSuppPwd` -/
def writeEth1xSuppPwd : VarBind → WriteMethod Config Buf :=
  writeText 4 63 scApCfgDot1xSuppPasswordSet

/-- `write_snmpDeviceName` -/
def writeSnmpDeviceName : VarBind → WriteMethod Config Buf := writeText 1 32 apCfgDescSet

/-- `write_snmpTrapCommunity` -/
def writeSnmpTrapCommunity : VarBind → WriteMethod Config Buf :=
  writeText 1 32 apCfgSnmpTrapCommunitySet

/-- `write_snmpCommunitySet` -/
def writeSnmpCommunitySet : VarBind → WriteMethod Config Buf := writeText 1 32 apCfgSnmpWriteCommSet

/-- `write_snmpTrapDestIP` -/
def writeSnmpTrapDestIP : VarBind → WriteMethod Config Buf :=
  writeAddr scValidIpAddress apCfgSnmpTrapRecvIpSet

/-- `write_lanIPv4Netmask` -/
def writeLanIPv4Netmask : VarBind → WriteMethod Config Buf := writeAddr isMask apCfgIpMaskSet

/-- `write_lanIPv4Gateway` -/
def writeLanIPv4Gateway : VarBind → WriteMethod Config Buf :=
  writeAddr scValidIpGateWay apCfgGatewayAddrSet

/-- `write_lanIPv4Address` -/
def writeLanIPv4Address : VarBind → WriteMethod Config Buf :=
  writeAddr scValidIpAddress apCfgIpAddrSet

/-- `write_syslogServer` -/
def writeSyslogServer : VarBind → WriteMethod Config Buf :=
  writeAddr scValidIpAddress fun x => apCfgsysLogServerSet (inetNtoa x)

/-- `write_lanIPv4PrimaryDns` -/
def writeLanIPv4PrimaryDns : VarBind → WriteMethod Config Buf :=
  writeAddr scValidIpAddress fun x => apCfgNameSrvSet (inetNtoa x)

/-- `write_lanIPv4SecondaryDns` -/
def writeLanIPv4SecondaryDns : VarBind → WriteMethod Config Buf :=
  writeAddr scValidIpAddress fun x => apCfgNameSrv2Set (inetNtoa x)

/-- `write_lanIPv4DhcpClientMode` -/
def writeLanIPv4DhcpClientMode : VarBind → WriteMethod Config Buf :=
  writeLong isFlag fun v => Act.when (v = 0 ∨ v = 1) do
    Act.ignore (apCfgDhcpEnableSet v)
    Act.ignore (apCfgDhcp6EnableSet v)

/-- `write_httpsMode` -/
def writeHttpsMode : VarBind → WriteMethod Config Buf :=
  writeLong isFlag fun v => do
    Act.ignore (apCfgAutohttpsModeSet v)
    Act.ignore (apCfgHttpsModeSet v)

/-- `write_eth1xSuppMac`: 0 switches it on, and 1 off. -/
def writeEth1xSuppMac : VarBind → WriteMethod Config Buf :=
  writeLong isFlag fun v => Act.ignore (scApCfgDot1xSuppMacEnableSet (if v = 0 then 1 else 0))

/-- `write_defaultVlanId` -/
def writeDefaultVlanId : VarBind → WriteMethod Config Buf :=
  writeLong (fun v => ¬ (v < 1 ∨ 0x0FFE < v)) fun v => Act.ignore (apCfgNativeVlanIdSet v)

/-- `write_managementVlanId`: no number is below `VLAN_TAG_MIN` *and* above `VLAN_TAG_MAX`. -/
def writeManagementVlanId : VarBind → WriteMethod Config Buf :=
  writeLong (fun v => ¬ (v < 1 ∧ 0x0FFE < v)) fun v => Act.ignore (apCfgManagementVlanIdSet v)

/-- `write_emailQueueLength` -/
def writeEmailQueueLength : VarBind → WriteMethod Config Buf :=
  writeLong (fun v => ¬ (v < 1 ∨ 500 < v)) fun v => Act.ignore (scApCfgemailAlertsQlenSet v)

/-- `write_emailSendPeriod` -/
def writeEmailSendPeriod : VarBind → WriteMethod Config Buf :=
  writeLong (fun v => ¬ (v < 1 ∨ 600 < v)) fun v => Act.ignore (scApCfgemailAlertsIntervalSet v)

/-- `timezoneTbl[v-1]` -/
def timezoneAt (v : Int) : CStr := .text (timezoneTbl.getD (v - 1).toNat "")

/-- `write_timeTimeZone` -/
def writeTimeTimeZone : VarBind → WriteMethod Config Buf :=
  writeLong (fun v => ¬ (v < 1 ∨ 75 < v))
    fun v => Act.ignore (apCfgTimezoneOffsetSet (timezoneAt v))

/-- `write_userName`: the length is checked once more in `ACTION`. -/
def writeUserName : VarBind → WriteMethod Config Buf :=
  writeValue (checkText 1 63 fun _ => true) fun v => Act.when (1 ≤ v.len ∧ v.len ≤ 63) do
    let nameTmp ← copyOctets 64 v
    Act.ignore (apCfgLoginSet nameTmp)

/-- `write_emailAlertAddress` -/
def writeEmailAlertAddress (v : VarBind) : WriteMethod Config Buf :=
  writeValidText 1 64 (fun val => scValidEmailAddr val (.ofNat v.len)) apCfgemailAddrForLogSet v

/-- The URL is no secure one, and `scValidUrl` takes it; it is no longer than `tempUrl`. -/
def validRedirect (val : CStr) : Bool :=
  !LinksysCli.beginsNoCase val (.text "https") && LinksysCli.judgeUrl val
    (LinksysCli.behindScheme val)

/-- `write_httpRedirectURL` -/
def writeHttpRedirectURL : VarBind → WriteMethod Config Buf :=
  writeValidText 1 128 validRedirect apCfgRedirectUrlSet

/-- `apname` after `memset(apname, 0x00, 32+1); memcpy(apname, var_val, var_val_len);`: what the two
leave out is what the stack held. -/
def apname (stack : Nat → Byte) (v : VarBind) : List Byte :=
  v.octets ++ (List.range' v.len (40 - v.len)).map fun i => if i < 33 then 0 else stack i

/-- `write_hostName` -/
def writeHostName (stack : Nat → Byte) : VarBind → WriteMethod Config Buf :=
  writeValue (checkText 1 39 fun _ => true) fun v => do
    let name ← if 40 < v.len then Act.fault (.outside .array) else
      Act.lift (stringAt .array (apname stack v))
    Act.ignore (apCfgSysNameSet name)

/-- The scalar objects that are settings of their own.  `snmpTrustedHostStart` and
`snmpTrustedHostEnd`, which look at each other, are not among them, nor are the commands
`saveSettings`, `rebootAP` and `resetToFactoryDefault`, `setDate` and `setTime`, `syslogMode`,
`emailAlertServer` and the six objects of IPv6. -/
inductive Scalar where
  | timeDaylightSaving | snmpTrustedAny | timeSetMode | vlanMode | logLoginSuccessMode
  | wirelessAccessMode | vlanOverWDS | bonjourMode | httpRedirectMode | eth1xSuppMode
  | logLoginFailMode | vlanTag | snmpMode | logConfChangeMode | logSystemErrorMode | sshMode
  | ntpMode | emailAlertMode | lanIPv4DhcpClientMode | httpsMode | eth1xSuppMac | defaultVlanId
  | managementVlanId | emailQueueLength | emailSendPeriod | timeTimeZone | userName
  | emailAlertAddress | httpRedirectURL | hostName | snmpContact | password | deviceName
  | snmpCommunityGet | snmpLocation | ntpServer | eth1xSuppName | eth1xSuppPwd | snmpDeviceName
  | snmpTrapCommunity | snmpCommunitySet | snmpTrapDestIP | lanIPv4Netmask | lanIPv4Gateway
  | lanIPv4Address | syslogServer | lanIPv4PrimaryDns | lanIPv4SecondaryDns
deriving DecidableEq

/-- The write method of an object. -/
def Scalar.write (stack : Nat → Byte) : Scalar → VarBind → WriteMethod Config Buf
  | .timeDaylightSaving => writeTimeDaylightSaving
  | .snmpTrustedAny => writeSnmpTrustedAny
  | .timeSetMode => writeTimeSetMode
  | .vlanMode => writeVlanMode
  | .logLoginSuccessMode => writeLogLoginSuccessMode
  | .wirelessAccessMode => writeWirelessAccessMode
  | .vlanOverWDS => writeVlanOverWDS
  | .bonjourMode => writeBonjourMode
  | .httpRedirectMode => writeHttpRedirectMode
  | .eth1xSuppMode => writeEth1xSuppMode
  | .logLoginFailMode => writeLogLoginFailMode
  | .vlanTag => writeVlanTag
  | .snmpMode => writeSnmpMode
  | .logConfChangeMode => writeLogConfChangeMode
  | .logSystemErrorMode => writeLogSystemErrorMode
  | .sshMode => writeSshMode
  | .ntpMode => writeNtpMode
  | .emailAlertMode => writeEmailAlertMode
  | .lanIPv4DhcpClientMode => writeLanIPv4DhcpClientMode
  | .httpsMode => writeHttpsMode
  | .eth1xSuppMac => writeEth1xSuppMac
  | .defaultVlanId => writeDefaultVlanId
  | .managementVlanId => writeManagementVlanId
  | .emailQueueLength => writeEmailQueueLength
  | .emailSendPeriod => writeEmailSendPeriod
  | .timeTimeZone => writeTimeTimeZone
  | .userName => writeUserName
  | .emailAlertAddress => writeEmailAlertAddress
  | .httpRedirectURL => writeHttpRedirectURL
  | .hostName => writeHostName stack
  | .snmpContact => writeSnmpContact
  | .password => writePassword
  | .deviceName => writeDeviceName
  | .snmpCommunityGet => writeSnmpCommunityGet
  | .snmpLocation => writeSnmpLocation
  | .ntpServer => writeNtpServer
  | .eth1xSuppName => writeEth1xSuppName
  | .eth1xSuppPwd => writeEth1xSuppPwd
  | .snmpDeviceName => writeSnmpDeviceName
  | .snmpTrapCommunity => writeSnmpTrapCommunity
  | .snmpCommunitySet => writeSnmpCommunitySet
  | .snmpTrapDestIP => writeSnmpTrapDestIP
  | .lanIPv4Netmask => writeLanIPv4Netmask
  | .lanIPv4Gateway => writeLanIPv4Gateway
  | .lanIPv4Address => writeLanIPv4Address
  | .syslogServer => writeSyslogServer
  | .lanIPv4PrimaryDns => writeLanIPv4PrimaryDns
  | .lanIPv4SecondaryDns => writeLanIPv4SecondaryDns

/-! ### What an object does -/

/-- What the text of a setting has to do with the value that is set, and with the text before. -/
abbrev Effect := VarBind → CStr → CStr → Prop

namespace Effect

def flag : Effect := fun v _ new => flagOf new = v.long.toInt

def inverted : Effect := fun v _ new => flagOf new = if v.long.toInt = 0 then 1 else 0

def number : Effect := fun v _ new => atoi new = v.long.toInt

/-- The setter refuses what the check lets through. -/
def vlanId : Effect := fun v old new =>
  if v.long.toInt < 1 ∨ 0x0FFE < v.long.toInt then new = old else atoi new = v.long.toInt

def timezone : Effect := fun v _ new => new = timezoneAt v.long.toInt

/-- The text ends at the first NUL, and the setter refuses it where it is too short then. -/
def text (lo : Nat) : Effect := fun v old new =>
  new = if (CStr.before v.octets).length < lo then old else .before v.octets

/-- The text ends at the first NUL of the array. -/
def name (stack : Nat → Byte) : Effect := fun v old new =>
  new = if (CStr.before (apname stack v)).length < 1 then old else .before (apname stack v)

def addr : Effect := fun v _ new => inetAddr new = v.word

def addrText : Effect := fun v _ new => new = inetNtoa v.word

end Effect

/-- What an object accepts, when its array ends, and what it does to each of its settings. -/
structure Spec where
  accepts : VarBind → Prop
  ends : VarBind → Prop
  effects : List (Setting × Effect)

/-- The settings of an object. -/
def Spec.settings (s : Spec) : List Setting := s.effects.map Prod.fst

/-- What an object does to the settings. -/
def Spec.Step (s : Spec) (v : VarBind) (old new : Setting → CStr) : Prop :=
  (∀ k, k ∉ s.settings → new k = old k) ∧ ∀ x ∈ s.effects, x.2 v (old x.1) (new x.1)

/-- A number in a range. -/
def IsLong (inRange : Int → Prop) (v : VarBind) : Prop :=
  v.type = asnInteger ∧ v.len ≤ 4 ∧ inRange v.long.toInt

/-- A text of `lo` to `hi` bytes. -/
def IsText (lo hi : Nat) (valid : VarBind → Prop) (v : VarBind) : Prop :=
  v.type = asnOctetStr ∧ lo ≤ v.len ∧ v.len ≤ hi ∧ valid v

/-- An address. -/
def IsAddr (valid : InAddr → Bool) (v : VarBind) : Prop :=
  v.type = asnIpaddress ∧ 1 ≤ v.len ∧ v.len ≤ 4 ∧ valid v.word = true

namespace Spec

/-- A flag, in each of some settings. -/
def flags (fs : List SysField) : Spec :=
  ⟨IsLong fun v => v = 0 ∨ v = 1, fun _ => True, fs.map fun f => (.sys f, .flag)⟩

/-- A number. -/
def long (inRange : Int → Prop) (f : SysField) (e : Effect) : Spec :=
  ⟨IsLong inRange, fun _ => True, [(.sys f, e)]⟩

/-- A text, of which the setter wants `least` characters. -/
def text (lo hi least : Nat) (f : SysField) (valid : VarBind → Prop) : Spec :=
  ⟨IsText lo hi valid, fun _ => True, [(.sys f, .text least)]⟩

/-- An address. -/
def addr (valid : InAddr → Bool) (f : SysField) (e : Effect) : Spec :=
  ⟨IsAddr valid, fun _ => True, [(.sys f, e)]⟩

end Spec

/-- What each object does. -/
def Scalar.spec (stack : Nat → Byte) : Scalar → Spec
  | .timeDaylightSaving => .flags [.timezoneDaylightsaving]
  | .snmpTrustedAny => .flags [.snmpTrustedAny]
  | .timeSetMode => .flags [.todEnable]
  | .vlanMode => .flags [.vlanMode]
  | .logLoginSuccessMode => .flags [.logLoginSuccess]
  | .wirelessAccessMode => .flags [.wlanManage]
  | .vlanOverWDS => .flags [.vlanWdsTag]
  | .bonjourMode => .flags [.bonjourEnable]
  | .httpRedirectMode => .flags [.rediretMode]
  | .eth1xSuppMode => .flags [.ethSuppMode]
  | .logLoginFailMode => .flags [.logLoginFail]
  | .vlanTag => .flags [.vlanDefaultTag]
  | .snmpMode => .flags [.snmpMode]
  | .logConfChangeMode => .flags [.logConfChange]
  | .logSystemErrorMode => .flags [.logSystemErrors]
  | .sshMode => .flags [.ssh]
  | .ntpMode => .long (fun v => v = 0 ∨ v = 1) .ntpMode .number
  | .emailAlertMode => .flags [.emailAlert]
  | .lanIPv4DhcpClientMode => .flags [.lanDhcpc, .lanDhcp6c]
  | .httpsMode => .flags [.autohttps, .httpsMode]
  | .eth1xSuppMac => .long (fun v => v = 0 ∨ v = 1) .ethSuppMac .inverted
  | .defaultVlanId => .long (fun v => 1 ≤ v ∧ v ≤ 0x0FFE) .vlanDefault .number
  | .managementVlanId => .long (fun _ => True) .vlanManagement .vlanId
  | .emailQueueLength => .long (fun v => 1 ≤ v ∧ v ≤ 500) .emailQueueLength .number
  | .emailSendPeriod => .long (fun v => 1 ≤ v ∧ v ≤ 600) .emailSendPeriod .number
  | .timeTimeZone => .long (fun v => 1 ≤ v ∧ v ≤ 75) .timezoneDiff .timezone
  | .userName => .text 1 63 1 .loginUsername fun _ => True
  | .emailAlertAddress => .text 1 64 0 .emailAddr fun v =>
      scValidEmailAddr (.before v.octets) (.ofNat v.len) = true
  | .httpRedirectURL => .text 1 128 0 .rediretUrl fun v => validRedirect (.before v.octets) = true
  | .hostName => ⟨IsText 1 39 fun _ => True, fun v => (0 : Byte) ∈ apname stack v,
      [(.sys .sysName, .name stack)]⟩
  | .snmpContact => .text 1 32 1 .snmpContact fun _ => True
  | .password => .text 4 63 4 .loginPassword fun _ => True
  | .deviceName => .text 0 39 0 .sysDesc fun _ => True
  | .snmpCommunityGet => .text 1 32 1 .snmpCommunityGet fun _ => True
  | .snmpLocation => .text 1 32 1 .snmpLocation fun _ => True
  | .ntpServer => .text 0 32 0 .ntpServer fun _ => True
  | .eth1xSuppName => .text 1 63 0 .ethSuppUser fun _ => True
  | .eth1xSuppPwd => .text 4 63 4 .ethSuppPwd fun _ => True
  | .snmpDeviceName => .text 1 32 0 .sysDesc fun _ => True
  | .snmpTrapCommunity => .text 1 32 1 .snmpTrapCommunity fun _ => True
  | .snmpCommunitySet => .text 1 32 1 .snmpCommunitySet fun _ => True
  | .snmpTrapDestIP => .addr scValidIpAddress .snmpTrapDest .addr
  | .lanIPv4Netmask => .addr isMask .lanNetmask .addr
  | .lanIPv4Gateway => .addr scValidIpGateWay .lanGateway .addr
  | .lanIPv4Address => .addr scValidIpAddress .lanIpaddr .addr
  | .syslogServer => .addr scValidIpAddress .syslogServer .addrText
  | .lanIPv4PrimaryDns => .addr scValidIpAddress .lanDns1 .addrText
  | .lanIPv4SecondaryDns => .addr scValidIpAddress .lanDns2 .addrText

/-! ### The setters -/

section Setters

variable {k : Setting} {p : CStr} {c : Config}

/-- The call leaves a text that has to do with the old one as `E` says, and every other as it
was. -/
def Puts (k : Setting) (E : CStr → CStr → Prop) {A : Type} (m : Cfg A) : Prop :=
  ∀ c : Config, c.Accepted → ∃ a c', m c = (.ok a, c') ∧ c'.Accepted ∧
    (∀ j, j ≠ k → c'.get j = c.get j) ∧ E (c.get k) (c'.get k)

theorem put_apply (k : Setting) (p : CStr) (ids : List Nat) (c : Config) :
    ∃ c', put k p ids c = (.ok (), c') ∧ c'.get = (c.set k p).get := by
  have hflags (c : Config) : ∃ c', Act.each aplSetFlag ids c = (.ok (), c') ∧ c'.get = c.get := by
    induction ids generalizing c with
    | nil => exact ⟨c, rfl, rfl⟩
    | cons id ids ih =>
        obtain ⟨c', hrun, hget⟩ := ih (c.flag id)
        exact ⟨c', hrun, hget.trans (Config.get_flag c id)⟩
  exact hflags (c.set k p)

/-- A text that is no longer than the setting allows takes the place of another. -/
theorem accepted_of_get {c c' : Config} (hc : c.Accepted) (hget : c'.get = (c.set k p).get)
    (hp : ∀ n, k.longest = some n → p.length ≤ n) : c'.Accepted := fun j n hj => by
  rw [hget]
  exact hc.set hp j n hj

/-- **A setter that compares**: what it puts reads as what it was given. -/
theorem puts_setNew {X : Type} [DecidableEq X] {g : Cfg X} {f : CStr → X} {x : X} {w : Cfg Unit}
    (hget : ∀ c : Config, c.Accepted → g c = (.ok (f (c.get k)), c)) (hp : f p = x)
    (hlen : ∀ n, k.longest = some n → p.length ≤ n)
    (hw : ∀ c, ∃ c', w c = (.ok (), c') ∧ c'.get = (c.set k p).get) :
    Puts k (fun _ new => f new = x) (setNew g x w) := by
  intro c hc
  obtain ⟨c', hrun, hget'⟩ := hw c
  have hsets := compare_eq (hget c hc) x fun _ => congrArg Prod.fst hrun
  by_cases hx : x ≠ f (c.get k)
  · rw [if_pos hx, hrun] at hsets
    refine ⟨_, _, hsets, accepted_of_get hc hget' hlen, fun j hj => ?_, ?_⟩
    · rw [hget', Config.get_set, if_neg hj]
    · rw [hget', Config.get_set, if_pos rfl]
      exact hp
  · rw [if_neg hx] at hsets
    exact ⟨_, _, hsets, hc, fun _ _ => rfl, (not_not.mp hx).symm⟩

theorem puts_putFlag {f : SysField} (hf : f.longest = none) (ids : List Nat) {v : Int}
    (hv : v = 0 ∨ v = 1) :
    Puts (.sys f) (fun _ new => flagOf new = v) (putFlag (.sys f) ids v) := by
  refine puts_setNew (fun _ _ => rfl) ?_ (fun n hn => ?_) (put_apply _ _ _)
  · rcases hv with rfl | rfl <;> decide
  · cases hf.symm.trans hn

/-- A number that is printed into its buffer. -/
theorem puts_putInt {f : SysField} (hf : f.longest = none) {size : Nat} (hsize : 6 ≤ size)
    {get : Cfg Int}
    {r : CStr → Int} (hget : ∀ c : Config, get c = (.ok (r (c.get (.sys f))), c))
    (ids : List Nat) {v : Int}
    (hr : r (.ofInt v) = v) (hv : (CStr.ofInt v).length < 6) :
    Puts (.sys f) (fun _ new => r new = v) (putInt size get (.sys f) ids v) := by
  refine puts_setNew (fun c _ => hget c) hr (fun n hn => ?_) fun c => ?_
  · cases hf.symm.trans hn
  · rw [store_fits (show (CStr.ofInt v).length < size by omega)]
    exact put_apply _ _ ids c

theorem puts_putText {f : SysField} {lo hi size : Nat} (hf : f.longest = some hi)
    (hsize : hi < size)
    (ids : List Nat) (hp : p.length ≤ hi) :
    Puts (.sys f) (fun old new => new = if p.length < lo then old else p)
      (putText lo hi size (.sys f) ids p) := by
  by_cases hlo : p.length < lo
  · intro c hc
    refine ⟨.error, c, ?_, hc, fun _ _ => rfl, (if_pos hlo).symm⟩
    rw [putText, if_pos (.inl hlo)]
    rfl
  · have hset :=
      puts_setNew (k := .sys f) (f := fun q => q) (x := p) (p := p) (g := getText size (.sys f))
      (fun c hc => getText_fits c (.sys f) (hc.lt hf hsize)) rfl (fun n hn => ?_)
      (put_apply (.sys f) p ids)
    · rw [putText, if_neg (by omega)]
      simpa only [if_neg hlo] using hset
    · cases hf.symm.trans hn
      exact hp

theorem puts_wholeText {f : SysField} {hi size : Nat} (hf : f.longest = some hi) (hsize : hi < size)
    (ids : List Nat) (hp : p.length ≤ hi) :
    Puts (.sys f) (fun _ new => new = p) (putText 0 hi size (.sys f) ids p) := by
  have h : Puts (.sys f) (fun old new => new = if p.length < 0 then old else p)
      (putText 0 hi size (.sys f) ids p) := puts_putText hf hsize ids hp
  simpa only [Nat.not_lt_zero, if_false] using h

theorem puts_putAddr {f : SysField} (hf : f.longest = none) (ids : List Nat) (x : InAddr) :
    Puts (.sys f) (fun _ new => inetAddr new = x) (putAddr (.sys f) ids x) := by
  refine puts_setNew (fun _ _ => rfl) (inetAddr_inetNtoa x) (fun n hn => ?_) (put_apply _ _ _)
  cases hf.symm.trans hn

/-- A number of at most five digits. -/
theorem puts_number {f : SysField} (hf : f.longest = none) {size : Nat} (hsize : 6 ≤ size)
    {get : Cfg Int}
    (hget : ∀ c : Config, get c = (.ok (atoi (c.get (.sys f))), c)) (ids : List Nat) {v : Int}
    (hv : 0 ≤ v)
    (hv' : v < 10 ^ 5) :
    Puts (.sys f) (fun _ new => atoi new = v) (putInt size get (.sys f) ids v) := by
  have hdigits : (digits 10 10 v.toNat).length ≤ 5 := length_digits_lt (by omega)
  have hlen : (CStr.ofInt v).length < 6 := by
    rw [CStr.length, bytes_ofInt hv (by omega)]
    omega
  exact puts_putInt hf hsize hget ids (atoi_ofInt (by omega) (by omega)) hlen

end Setters

/-! ### The objects -/

/-- The call has the effects of `v`, and leaves every other setting as it was. -/
def Does (v : VarBind) (es : List (Setting × Effect)) (m : Cfg Unit) : Prop :=
  ∀ c : Config, c.Accepted → ∃ c', m c = (.ok (), c') ∧ c'.Accepted ∧
    (∀ k, k ∉ es.map Prod.fst → c'.get k = c.get k) ∧ ∀ x ∈ es, x.2 v (c.get x.1) (c'.get x.1)

theorem does_one {v : VarBind} {k : Setting} {e : Effect} {m : Cfg Status} (h : Puts k (e v) m) :
    Does v [(k, e)] (Act.ignore m) := by
  intro c hc
  obtain ⟨a, c', hrun, hc', hframe, heff⟩ := h c hc
  refine ⟨c', by rw [Act.ignore, Act.bind_ok hrun]; rfl, hc', fun j hj => hframe j ?_,
    fun x hx => ?_⟩
  · exact fun hk => hj (hk ▸ List.mem_cons_self)
  · rw [List.mem_singleton.mp hx]
    exact heff

/-- A call that stores a setting that the next does not. -/
theorem does_next {v : VarBind} {k : Setting} {e : Effect} {es : List (Setting × Effect)}
    {m : Cfg Status}
    {m' : Cfg Unit} (h : Puts k (e v) m) (h' : Does v es m') (hk : k ∉ es.map Prod.fst) :
    Does v ((k, e) :: es) (do Act.ignore m; m') := by
  intro c hc
  obtain ⟨c₁, hrun, hc₁, hframe, heff⟩ := does_one h c hc
  obtain ⟨c₂, hrun', hc₂, hframe', heff'⟩ := h' c₁ hc₁
  refine ⟨c₂, by rw [Act.bind_ok hrun]; exact hrun', hc₂, fun j hj => ?_, fun x hx => ?_⟩
  · rw [List.map_cons, List.mem_cons, not_or] at hj
    rw [hframe' j hj.2, hframe j (by simpa using hj.1)]
  · rcases List.mem_cons.mp hx with rfl | hx
    · rw [hframe' _ hk]
      exact heff _ List.mem_cons_self
    · have hne : x.1 ≠ k := fun heq => hk (heq ▸ List.mem_map_of_mem hx)
      rw [← hframe x.1 (by simpa using hne)]
      exact heff' x hx

/-- The write method checks a value and stores it as its object does. -/
def Stores (write : VarBind → WriteMethod Config Buf) (s : Spec) : Prop :=
  ∀ v, (s.accepts v → s.ends v) → Stepping Config.Accepted (s.accepts v)
    (fun c c' => s.Step v c.get c'.get) (write v)

theorem stores_value {check : VarBind → SnmpErr} {store : VarBind → Cfg Unit} {s : Spec}
    (hcheck : ∀ v, check v = .noError ↔ s.accepts v)
    (hput : ∀ v, s.accepts v → s.ends v → Does v s.effects (store v)) :
    Stores (writeValue check store) s := by
  refine fun v hends => ⟨⟨check v, fun _ => rfl, hcheck v⟩, fun hv c hc => ?_, fun a ha ha' c => ?_⟩
  · obtain ⟨c', hrun, hc', hstep⟩ := hput v hv (hends hv) c hc
    exact ⟨c', by rw [writeValue, Act.bind_ok hrun]; rfl, hc', hstep⟩
  · cases a with
    | reserve1 => exact absurd rfl ha
    | action => exact absurd rfl ha'
    | reserve2 | commit | free | undo => rfl

theorem checkLong_iff (inRange : Int → Bool) (v : VarBind) :
    checkLong inRange v = .noError ↔ IsLong (fun x => inRange x = true) v := by
  unfold checkLong IsLong
  split_ifs with htype hlen hrange
  · exact iff_of_false nofun fun h => htype h.1
  · exact iff_of_false nofun fun h => by omega
  · exact iff_of_true rfl ⟨not_not.mp htype, Nat.le_of_not_lt hlen, hrange⟩
  · exact iff_of_false nofun fun h => hrange h.2.2

theorem checkText_iff {lo hi : Nat} {valid : CStr → Bool} {V : VarBind → Prop} {v : VarBind}
    (hV : valid (.before v.octets) = true ↔ V v) :
    checkText lo hi valid v = .noError ↔ IsText lo hi V v := by
  unfold checkText IsText
  split_ifs with htype hlen hvalid
  · exact iff_of_false nofun fun h => htype h.1
  · exact iff_of_false nofun fun h => by omega
  · exact iff_of_true rfl ⟨not_not.mp htype, by omega, by omega, hV.mp hvalid⟩
  · exact iff_of_false nofun fun h => hvalid (hV.mpr h.2.2.2)

/-- A number. -/
theorem stores_long {inRange : Int → Bool} {R : Int → Prop} (hR : ∀ x, inRange x = true ↔ R x)
    {store : Int → Cfg Unit} {es : List (Setting × Effect)}
    (h : ∀ v, R v.long.toInt → Does v es (store v.long.toInt)) :
    Stores (writeLong inRange store) ⟨IsLong R, fun _ => True, es⟩ := by
  refine stores_value (fun v => ?_) fun v hv _ => h v hv.2.2
  rw [checkLong_iff]
  simp only [IsLong, hR]

theorem isFlag_iff (v : Int) : isFlag v = true ↔ v = 0 ∨ v = 1 := by
  simp [isFlag]

/-- A flag. -/
theorem stores_flag {f : SysField} {set : Int → Cfg Status}
    (h : ∀ {x : Int}, x = 0 ∨ x = 1 → Puts (.sys f) (fun _ new => flagOf new = x) (set x)) :
    Stores (writeFlag set) (.flags [f]) :=
  stores_long isFlag_iff fun _ hv => does_one (h hv)

theorem stores_checkedFlag {f : SysField} {set : Int → Cfg Status}
    (h : ∀ {x : Int}, x = 0 ∨ x = 1 → Puts (.sys f) (fun _ new => flagOf new = x) (set x)) :
    Stores (writeCheckedFlag set) (.flags [f]) :=
  stores_long isFlag_iff fun v hv => by
    rw [show Act.when _ _ = Act.ignore (set v.long.toInt) from if_pos hv]
    exact does_one (h hv)

/-- A text that is copied into an array with room for it. -/
theorem stores_validText {lo hi least : Nat} {valid : CStr → Bool} {V : VarBind → Prop}
    {f : SysField}
    {set : CStr → Cfg Status} (hV : ∀ v : VarBind, valid (.before v.octets) = true ↔ V v)
    (h : ∀ {p : CStr}, p.length ≤ hi →
      Puts (.sys f) (fun old new => new = if p.length < least then old else p) (set p)) :
    Stores (writeValidText lo hi valid set) (.text lo hi least f V) := by
  refine stores_value (fun v => checkText_iff (hV v)) fun v hv _ => ?_
  have hcopy : copyOctets (hi + 1) v = return .before v.octets :=
    if_pos (Nat.lt_succ_of_le hv.2.2.1)
  rw [hcopy, Act.pure_bind]
  exact does_one (h (Nat.le_trans (CStr.length_before_le _) hv.2.2.1))

theorem stores_text {lo hi least : Nat} {f : SysField} {set : CStr → Cfg Status}
    (h : ∀ {p : CStr}, p.length ≤ hi →
      Puts (.sys f) (fun old new => new = if p.length < least then old else p) (set p)) :
    Stores (writeText lo hi set) (.text lo hi least f fun _ => True) :=
  stores_validText (fun _ => iff_of_true rfl trivial) h

/-- An address. -/
theorem stores_addr {valid : InAddr → Bool} {f : SysField} {e : Effect} {set : InAddr → Cfg Status}
    (h : ∀ v : VarBind, Puts (.sys f) (e v) (set v.word)) :
    Stores (writeAddr valid set) (.addr valid f e) := by
  refine stores_value (fun v => ?_) fun v _ _ => does_one (h v)
  unfold Spec.addr IsAddr
  split_ifs with htype hlen hvalid
  · exact iff_of_false nofun fun h => htype h.1
  · exact iff_of_false nofun fun h => by omega
  · exact iff_of_true rfl ⟨not_not.mp htype, by omega, by omega, hvalid⟩
  · exact iff_of_false nofun fun h => hvalid h.2.2.2

theorem stores_putAddr {valid : InAddr → Bool} {f : SysField} (hf : f.longest = none)
    {ids : List Nat} :
    Stores (writeAddr valid (putAddr (.sys f) ids)) (.addr valid f .addr) :=
  stores_addr fun v => puts_putAddr hf ids v.word

theorem stores_addrText {valid : InAddr → Bool} {f : SysField} {set : CStr → Cfg Status}
    (h : ∀ {p : CStr}, p.length ≤ 32 → Puts (.sys f) (fun _ new => new = p) (set p)) :
    Stores (writeAddr valid fun x => set (inetNtoa x)) (.addr valid f .addrText) := by
  refine stores_addr fun v => ?_
  exact h (Nat.le_trans (length_inetNtoa_le v.word) (by decide))

/-! ### The objects with a method of their own -/

theorem inRange_iff {lo hi x : Int} : decide (¬ (x < lo ∨ hi < x)) = true ↔ lo ≤ x ∧ x ≤ hi := by
  rw [decide_eq_true_iff]
  omega

theorem stores_timeSetMode : Stores writeTimeSetMode (.flags [.todEnable]) := by
  refine stores_flag fun hv => puts_putInt rfl (by decide) (fun _ => rfl) _ ?_ ?_
  · rcases hv with rfl | rfl <;> decide
  · rcases hv with rfl | rfl <;> decide

theorem stores_ntpMode : Stores writeNtpMode (.long (fun v => v = 0 ∨ v = 1) .ntpMode .number) := by
  show Stores (writeFlag apCfgNtpModeSet) _
  refine stores_long isFlag_iff fun v hv => does_one ?_
  exact puts_number rfl (by decide) (fun _ => rfl) _ (by omega) (by omega)

theorem stores_lanIPv4DhcpClientMode :
    Stores writeLanIPv4DhcpClientMode (.flags [.lanDhcpc, .lanDhcp6c]) := by
  refine stores_long isFlag_iff fun v hv => ?_
  rw [Act.when, if_pos hv]
  exact does_next (puts_putFlag rfl _ hv) (does_one (puts_putFlag rfl _ hv)) (by decide)

theorem stores_httpsMode : Stores writeHttpsMode (.flags [.autohttps, .httpsMode]) :=
  stores_long isFlag_iff fun _ hv =>
    does_next (puts_putFlag rfl _ hv) (does_one (puts_putFlag rfl _ hv)) (by decide)

theorem stores_eth1xSuppMac :
    Stores writeEth1xSuppMac (.long (fun v => v = 0 ∨ v = 1) .ethSuppMac .inverted) := by
  refine stores_long isFlag_iff fun v _ => does_one (puts_putFlag rfl _ ?_)
  split
  · exact .inr rfl
  · exact .inl rfl

theorem stores_defaultVlanId :
    Stores writeDefaultVlanId (.long (fun v => 1 ≤ v ∧ v ≤ 0x0FFE) .vlanDefault .number) := by
  refine stores_long (fun _ => inRange_iff) fun v hv => does_one ?_
  rw [apCfgNativeVlanIdSet, putVlanId, if_neg (by omega)]
  exact puts_number rfl (by decide) (fun _ => rfl) _ (by omega) (by omega)

/-- The check lets every number through, and the setter stores those that it should have. -/
theorem stores_managementVlanId :
    Stores writeManagementVlanId (.long (fun _ => True) .vlanManagement .vlanId) := by
  refine stores_long (fun x => ?_) fun v _ => does_one ?_
  · rw [decide_eq_true_iff, iff_true]
    omega
  · rw [apCfgManagementVlanIdSet, putVlanId]
    by_cases hv : v.long.toInt < 1 ∨ 0x0FFE < v.long.toInt
    · intro c hc
      rw [if_pos hv]
      exact ⟨.error, c, rfl, hc, fun _ _ => rfl, (if_pos hv).mpr rfl⟩
    · have heff : Effect.vlanId v = fun _ new => atoi new = v.long.toInt := by
        funext _ _
        exact if_neg hv
      rw [if_neg hv, heff]
      exact puts_number rfl (by decide) (fun _ => rfl) _ (by omega) (by omega)

theorem stores_emailQueueLength :
    Stores writeEmailQueueLength (.long (fun v => 1 ≤ v ∧ v ≤ 500) .emailQueueLength .number) := by
  refine stores_long (fun _ => inRange_iff) fun v hv => does_one ?_
  rw [scApCfgemailAlertsQlenSet, if_neg (by omega)]
  exact puts_number rfl (by decide) (fun _ => rfl) _ (by omega) (by omega)

theorem stores_emailSendPeriod :
    Stores writeEmailSendPeriod (.long (fun v => 1 ≤ v ∧ v ≤ 600) .emailSendPeriod .number) := by
  refine stores_long (fun _ => inRange_iff) fun v hv => does_one ?_
  rw [scApCfgemailAlertsIntervalSet, if_neg (by omega)]
  exact puts_number rfl (by decide) (fun _ => rfl) _ (by omega) (by omega)

/-- A line of the table starts with its number, and is no longer than the setting may be. -/
theorem timezoneTbl_line {i : Nat} (hi : i < 75) : atoi (.text (timezoneTbl.getD i "")) = i + 1 ∧
    (CStr.text (timezoneTbl.getD i "")).length ≤ 12 := by
  have hall : ∀ i < 75, atoi (.text (timezoneTbl.getD i "")) = i + 1 ∧
      (CStr.text (timezoneTbl.getD i "")).length ≤ 12 := by decide +kernel
  exact hall i hi

theorem length_timezoneAt_le (v : Int) : (timezoneAt v).length ≤ 12 := by
  have hlen : timezoneTbl.length = 75 := rfl
  by_cases hi : (v - 1).toNat < 75
  · exact (timezoneTbl_line hi).2
  · rw [timezoneAt, List.getD_eq_default _ _ (hlen ▸ Nat.le_of_not_lt hi)]
    exact (by decide : (CStr.text "").length ≤ 12)

theorem stores_timeTimeZone :
    Stores writeTimeTimeZone (.long (fun v => 1 ≤ v ∧ v ≤ 75) .timezoneDiff .timezone) := by
  refine stores_long (fun _ => inRange_iff) fun v _ => does_one ?_
  exact puts_wholeText rfl (by decide) _ (length_timezoneAt_le _)

theorem stores_userName : Stores writeUserName (.text 1 63 1 .loginUsername fun _ => True) := by
  refine stores_value (fun v => checkText_iff (V := fun _ => True) (iff_of_true rfl trivial))
    fun v hv _ => ?_
  have hcopy : copyOctets 64 v = return .before v.octets := if_pos (Nat.lt_succ_of_le hv.2.2.1)
  rw [Act.when, if_pos ⟨hv.2.1, hv.2.2.1⟩, hcopy, Act.pure_bind]
  exact does_one (puts_putText rfl (by decide) _ (Nat.le_trans (CStr.length_before_le _) hv.2.2.1))

theorem stores_emailAlertAddress : Stores writeEmailAlertAddress
    (.text 1 64 0 .emailAddr fun v =>
      scValidEmailAddr (.before v.octets) (.ofNat v.len) = true) := by
  refine stores_value (fun v => checkText_iff
    (V := fun v => scValidEmailAddr (.before v.octets) (.ofNat v.len) = true) Iff.rfl)
    fun v hv _ => ?_
  have hcopy : copyOctets 65 v = return .before v.octets := if_pos (Nat.lt_succ_of_le hv.2.2.1)
  rw [hcopy, Act.pure_bind]
  exact does_one (puts_putText rfl (by decide) _ (Nat.le_trans (CStr.length_before_le _) hv.2.2.1))

/-- The array ends where the stack says that it does. -/
theorem stores_hostName (stack : Nat → Byte) :
    Stores (writeHostName stack) (Scalar.spec stack .hostName) := by
  refine stores_value (fun v => checkText_iff (V := fun _ => True) (iff_of_true rfl trivial))
    fun v hv hends => ?_
  have hle : v.len ≤ 39 := hv.2.2.1
  have hmem : CStr.ofMem (apname stack v) = some (.before (apname stack v)) := if_pos hends
  have hlen : (CStr.before (apname stack v)).length ≤ 39 := by
    obtain ⟨r, hr⟩ := CStr.ofMem_eq_some.mp hmem
    have hsize : (apname stack v).length = 40 := by
      rw [apname, List.length_append, List.length_map, List.length_range']
      show v.len + _ = 40
      omega
    have h := congrArg List.length hr
    rw [hsize, List.length_append, List.length_cons] at h
    rw [CStr.length]
    omega
  have hname : stringAt Buf.array (apname stack v) = .ok (.before (apname stack v)) := by
    rw [stringAt, hmem]
  rw [if_neg (by omega), hname]
  exact does_one (puts_putText rfl (by decide) _ hlen)

/-- **The write methods do what their objects do.** -/
theorem Scalar.stores (stack : Nat → Byte) (s : Scalar) :
    Stores (s.write stack) (s.spec stack) := by
  cases s with
  | timeDaylightSaving | snmpTrustedAny => exact stores_checkedFlag (puts_putFlag rfl _)
  | timeSetMode => exact stores_timeSetMode
  | ntpMode => exact stores_ntpMode
  | lanIPv4DhcpClientMode => exact stores_lanIPv4DhcpClientMode
  | httpsMode => exact stores_httpsMode
  | eth1xSuppMac => exact stores_eth1xSuppMac
  | defaultVlanId => exact stores_defaultVlanId
  | managementVlanId => exact stores_managementVlanId
  | emailQueueLength => exact stores_emailQueueLength
  | emailSendPeriod => exact stores_emailSendPeriod
  | timeTimeZone => exact stores_timeTimeZone
  | userName => exact stores_userName
  | emailAlertAddress => exact stores_emailAlertAddress
  | hostName => exact stores_hostName stack
  | httpRedirectURL => exact stores_validText (fun _ => Iff.rfl) (puts_putText rfl (by decide) _)
  | deviceName | ntpServer | eth1xSuppName => exact stores_text (puts_putText rfl (by decide) _)
  | snmpContact | password | snmpCommunityGet | snmpLocation | eth1xSuppPwd | snmpTrapCommunity
  | snmpCommunitySet => exact stores_text (puts_putText rfl (by decide) _)
  | snmpDeviceName =>
      exact stores_text fun hp => puts_putText rfl (by decide) _ (Nat.le_trans hp (by decide))
  | snmpTrapDestIP | lanIPv4Netmask | lanIPv4Gateway | lanIPv4Address =>
      refine stores_putAddr ?_
      rfl
  | syslogServer | lanIPv4PrimaryDns | lanIPv4SecondaryDns =>
      exact stores_addrText (puts_wholeText rfl (by decide) _)
  | _ => exact stores_flag (puts_putFlag rfl _)

/-! ### Requests -/

/-- A variable of a request, with its value. -/
abbrev Var := Scalar × VarBind

namespace Var

variable (stack : Nat → Byte)

/-- The value is accepted. -/
def Accepts (x : Var) : Prop := (x.1.spec stack).accepts x.2

/-- What the variable does to the settings. -/
def Step (x : Var) : (Setting → CStr) → (Setting → CStr) → Prop := (x.1.spec stack).Step x.2

/-- A value that is accepted ends in its array. -/
def Ends (x : Var) : Prop := x.Accepts stack → (x.1.spec stack).ends x.2

/-- The write method of the variable, with its value. -/
def write (x : Var) : WriteMethod Config Buf := x.1.write stack x.2

theorem stepping {x : Var} (h : x.Ends stack) :
    Stepping Config.Accepted (x.Accepts stack) (fun c c' => x.Step stack c.get c'.get)
      (x.write stack) :=
  x.1.stores stack x.2 h

end Var

/-- An `INTEGER` -/
def VarBind.ofInt (v : Int32) : VarBind := ⟨asnInteger, [0, 0, 0, 0], v, .zero⟩

/-- An `OCTET STRING` -/
def VarBind.ofText (p : CStr) : VarBind := ⟨asnOctetStr, p.bytes, 0, .zero⟩

end Wap4410n.Snmp
