import Wap4410n.Snmp.Tables

/-!
# Snmp — the variables of the system

`var_indoor` answers from `struct indoor nin`, which `loadVar_indoor` fills anew for every request,
section by section as the comments of the source have it.  The struct is never cleared: a setting
that is not read leaves its field as it was.  `Reports` is what the function learns besides the
settings.
-/

namespace Wap4410n.Snmp

open CLib Apcfg

/-! ### What is reported -/

/-- `/proc/uptime`, in days, with the rest as `localtime` has it -/
structure Uptime where
  days : Int
  hour : Fin 24
  min : Fin 60
  sec : Fin 62

/-- The reports `loadVar_indoor` and the loaders of the tables read. -/
structure Reports where
  device : Device
  /-- `getHwVersion` -/
  hwversion : CStr
  /-- `getVersion` -/
  swversion : CStr
  /-- `ipaddr` of `getMgtBrv6Info(&iface_status, status)` -/
  ipaddr6 : Nat → CStr
  /-- `gw` of it -/
  gw6 : Nat → CStr
  /-- `/proc/uptime`, if it opens -/
  uptime : Option Uptime

/-! ### Texts -/

/-- `sprintf(s, "%2d", v)`, for a number that is not negative -/
def twoWide (v : Nat) : List Byte := if v < 10 then 0x20 :: digits 10 10 v else digits 10 10 v

/-- `sprintf(date, "%04ld.%02ld.%02ld", …)` -/
def dateText (year mon day : Int) : CStr :=
  .before (printPadded 4 (.ofInt year) ++ 0x2e :: (printPadded 2 (.ofInt mon) ++
    0x2e :: printPadded 2 (.ofInt day)))

/-- `sprintf(time, "%02ld:%02ld:%02ld", …)` -/
def timeText (hour min sec : Int) : CStr :=
  .before (printPadded 2 (.ofInt hour) ++ 0x3a :: (printPadded 2 (.ofInt min) ++
    0x3a :: printPadded 2 (.ofInt sec)))

/-- `sprintf(v, "Day %d, %2d:%02d:%02d", …)`, or without the days. -/
def uptimeText (u : Uptime) : CStr :=
  let clock := twoWide u.hour ++ 0x3a :: (printPadded 2 (.ofNat u.min) ++
    0x3a :: printPadded 2 (.ofNat u.sec))
  if 0 < u.days then
    (CStr.text "Day ").append ((CStr.ofInt u.days).append ((CStr.text ", ").append (.before clock)))
  else .before clock

/-- `timezoneTbl` -/
def timezoneTbl : List String := [
  "001-12:00", "002-11:00", "003-10:00", "004-09:00", "005-08:00", "006-07:00",
  "007-07:00", "008-07:00", "009-06:00", "010-06:00", "011-06:00", "012-06:00",
  "013-05:00", "014-05:00", "015-05:00", "016-04:00", "017-04:00", "018-04:00",
  "019-03:00", "020-03:00", "021-03:00", "022-03:00", "023-02:00", "024-01:00",
  "025-01:00", "026+00:00", "027+00:00", "028+01:00", "029+01:00", "030+01:00",
  "031+01:00", "032+01:00", "033+02:00", "034+02:00", "035+02:00", "036+02:00",
  "037+02:00", "038+02:00", "039+03:00", "040+03:00", "041+03:00", "042+03:00",
  "043+03:30", "044+04:00", "045+04:00", "046+04:30", "047+05:00", "048+05:00",
  "049+05:30", "050+05:45", "051+06:00", "052+06:00", "053+06:00", "054+06:00",
  "055+07:00", "056+07:00", "057+08:00", "058+08:00", "059+08:00", "060+08:00",
  "061+08:00", "062+09:00", "063+09:00", "064+09:00", "065+09:30", "066+09:30",
  "067+10:00", "068+10:00", "069+10:00", "070+10:00", "071+10:00", "072+11:00",
  "073+12:00", "074+12:00", "075+13:00"]

/-! ### `struct indoor` -/

/-- `//timeSettings` -/
structure TimeSettings where
  timesetmode : Int := 0
  date : Block := .zeroed 11
  time : Block := .zeroed 9
  ntpmode : Int := 0
  ntpserver : Block := .zeroed 128
  timezone : Int := 0
  daylightsaving : Int := 0

/-- `//lanIPv4Settings` -/
structure LanIPv4Settings where
  dhcpv4enalbe : Int := 0
  lanipv4addr : InAddr := .zero
  lanip4netmask : InAddr := .zero
  ipv4gateway : InAddr := .zero
  ipv4dns1 : InAddr := .zero
  ipv4dns2 : InAddr := .zero

/-- `//lanIPv6Settings` -/
structure LanIPv6Settings where
  ipv6mode : Int := 0
  ipv6addr : Block := .zeroed 45
  ipv6prefixlenth : Block := .zeroed 32
  ipv6gateway : Block := .zeroed 45
  ipv6dns1 : Block := .zeroed 45
  ipv6dns2 : Block := .zeroed 45

/-- `//sysSettings`, `//etherdot1xsup`, `//BonjourMode` and `//httpRedirectSettings` -/
structure SysSettings where
  hostname : Block := .zeroed 40
  devicename : Block := .zeroed 40
  dot1xsuppenable : Int := 0
  dot1xsupmode : Int := 0
  dot1xsuppusername : Block := .zeroed 64
  dot1xsupppasswd : Block := .zeroed 64
  bonjourmode : Int := 0
  redirectmode : Int := 0
  redirectUrl : Block := .zeroed 128

/-- `//localNetwork` and `//vlansettings` -/
structure LocalNetwork where
  hwversion : Block := .zeroed 128
  swversion : Block := .zeroed 128
  localmacaddr : Block := .zeroed 33
  sysuptime : Block := .zeroed 128
  ipv4addr : InAddr := .zero
  ip4netmask : InAddr := .zero
  vlanmode : Int := 0
  defaultvlanid : Int := 0
  vlantag : Int := 0
  managementvlanid : Int := 0
  vlanoverwds : Int := 0

/-- `//adminlogin` and `//snmpsettings` -/
structure ManagementSettings where
  login : Block := .zeroed 128
  newpasswd : Block := .zeroed 128
  httpsmode : Int := 0
  wlaccessmode : Int := 0
  sshmode : Int := 0
  snpmode : Int := 0
  snmpcontact : Block := .zeroed 255
  snmpdevicename : Block := .zeroed 255
  snmplocation : Block := .zeroed 255
  snmpreadcomm : Block := .zeroed 255
  snmpwritecomm : Block := .zeroed 255
  trapcomm : Block := .zeroed 255
  snmpmanagerany : Int := 0
  snmpmanagestart : InAddr := .zero
  snmpmanageend : InAddr := .zero
  snptrapdestvip : InAddr := .zero

/-- `//logsettings` -/
structure LogSettings where
  emailalertmode : Int := 0
  emailalertserver : Block := .zeroed 128
  emailalertaddr : Block := .zeroed 128
  emailqueuelenth : Int := 0
  emailsendperiod : Int := 0
  syslogmode : Int := 0
  syslogserver : InAddr := .zero
  loginsuccessmode : Int := 0
  loginfailmode : Int := 0
  syserrormode : Int := 0
  confchangemode : Int := 0

/-- `struct indoor` -/
structure Indoor where
  timeSettings : TimeSettings := {}
  lanIPv4Settings : LanIPv4Settings := {}
  lanIPv6Settings : LanIPv6Settings := {}
  sysSettings : SysSettings := {}
  localNetwork : LocalNetwork := {}
  managementsettings : ManagementSettings := {}
  logsettings : LogSettings := {}
  savesettings : Int := 0
  rebootap : Int := 0
  resettofactorydefault : Int := 0

/-! ### `loadVar_indoor` -/

/-- `for (i=0; i<75; i++) if (!strcmp(curZone, timezoneTbl[i])) { nin.timezone = i + 1; break; }` -/
def timezoneOf (curZone : CStr) (timezone : Int) : Int :=
  ((timezoneTbl.findIdx? fun s => CStr.text s = curZone).map fun i => (i : Int) + 1).getD timezone

def loadTimeSettings (n : TimeSettings) : Cfg TimeSettings := do
  let timesetmode ← apCfgTimeModeGet
  let year ← apCfgTimeYearGet
  let mon ← apCfgTimeMonGet
  let day ← apCfgTimeDayGet
  let date ← store .array 100 (dateText year mon day)
  let hour ← apCfgTimeHourGet
  let min ← apCfgTimeMinGet
  let sec ← apCfgTimeSecGet
  let time ← store .array 100 (timeText hour min sec)
  let ntpmode ← apCfgNtpModeGet
  let ntpserver ← apCfgNtpServerGet
  let offset ← apCfgTimezoneOffsetGet
  -- `char curZone[10]`
  let curZone ← store .array 10 offset
  let daylightsaving ← apCfgDaylightSavingGet
  return {
    timesetmode
    date := n.date.strcpy date
    time := n.time.strcpy time
    ntpmode
    ntpserver := n.ntpserver.strcpy ntpserver
    timezone := timezoneOf curZone n.timezone
    daylightsaving }

/-- `if(strlen(p) != 0) x = inet_addr(p);` -/
def addrOr (p : CStr) (x : InAddr) : InAddr := if p.length ≠ 0 then inetAddr p else x

def loadLanIPv4Settings (n : LanIPv4Settings) : Cfg LanIPv4Settings := do
  let dhcpv4enalbe ← apCfgDhcpEnableGet
  let lanipv4addr ← apCfgIpAddrGet
  let lanip4netmask ← apCfgIpMaskGet
  let ipv4gateway ← apCfgGatewayAddrGet
  let dns1 ← apCfgNameSrvGet
  let dns2 ← apCfgNameSrv2Get
  return {
    dhcpv4enalbe, lanipv4addr, lanip4netmask, ipv4gateway
    ipv4dns1 := addrOr dns1 n.ipv4dns1
    ipv4dns2 := addrOr dns2 n.ipv4dns2 }

/-- What DHCPv6 reports, or else Radvd, or else the setting. -/
def reportedOr (report : Nat → CStr) (get : Cfg CStr) : Cfg CStr :=
  let ifaceStatus := if (report 1).length = 0 then report 2 else report 1
  if 0 < ifaceStatus.length then return ifaceStatus else get

def loadLanIPv6Settings (r : Reports) (n : LanIPv6Settings) : Cfg LanIPv6Settings := do
  let ipv6mode ← apCfgipv6modeGet
  if ipv6mode = 0 then return { n with ipv6mode } else
  let ipaddr ← reportedOr r.ipaddr6 apCfgIpv6AddrGet
  -- `char ipv6addr[46]`, and `tmp_str`, which is longer
  let ipv6addr ← store .array 46 ipaddr
  match ipv6addr.strchr 0x2f with
  | none => Act.fault (.null .array)
  | some p => do
    let gw ← reportedOr r.gw6 apCfgGatewayv6AddrGet
    -- `char ipv6gw[46]`
    let ipv6gw ← store .array 46 gw
    let dns1 ← apCfgNameSrv61Get
    let dns2 ← apCfgNameSrv62Get
    return {
      ipv6mode
      ipv6addr := n.ipv6addr.strcpy (ipv6addr.upTo 0x2f)
      ipv6prefixlenth := n.ipv6prefixlenth.strcpy (p.drop 1)
      ipv6gateway := n.ipv6gateway.strcpy ipv6gw
      ipv6dns1 := n.ipv6dns1.strcpy dns1
      ipv6dns2 := n.ipv6dns2.strcpy dns2 }

/-- `if (!scApCfgDot1xSuppMacEnableGet()) get` -/
def unlessMac (mac : Int) (get : Cfg CStr) : Cfg CStr := if mac = 0 then get else return .empty

def loadSysSettings (n : SysSettings) : Cfg SysSettings := do
  let hostname ← apCfgSysNameGet
  let devicename ← apCfgDescGet
  let dot1xsuppenable ← scApCfgDot1xSuppEnableGet
  let mac ← scApCfgDot1xSuppMacEnableGet
  let username ← unlessMac mac scApCfgDot1xSuppUsernameGet
  let passwd ← unlessMac mac scApCfgDot1xSuppPasswordGet
  let bonjourmode ← apCfgBonjourGet
  let redirectmode ← apCfgRedirectModeGet
  let redirectUrl ← apCfgRedirectUrlGet
  return {
    hostname := n.hostname.strcpy hostname
    devicename := n.devicename.strcpy devicename
    dot1xsuppenable
    dot1xsupmode := if mac ≠ 0 then 0 else 1
    dot1xsuppusername := (n.dot1xsuppusername.store 0 [0]).strcpy username
    dot1xsupppasswd := (n.dot1xsupppasswd.store 0 [0]).strcpy passwd
    bonjourmode, redirectmode
    redirectUrl := n.redirectUrl.strcpy redirectUrl }

def loadLocalNetwork (r : Reports) (n : LocalNetwork) : Cfg LocalNetwork := do
  -- `p = (char *)malloc(20*sizeof(char));`
  let p ← store .array 20 r.device.mgtBrMac
  -- `char v[50]`
  let v ← store .array 50 ((r.uptime.map uptimeText).getD .empty)
  let ipv4addr ← apCfgIpAddrGet
  let ip4netmask ← apCfgIpMaskGet
  let vlanmode ← apCfgVlanModeGet
  let defaultvlanid ← apCfgNativeVlanIdGet
  let vlantag ← apCfgNativeVlanTagGet
  let managementvlanid ← apCfgManagementVlanIdGet
  let vlanoverwds ← apCfgWdsVlanTagGet
  return {
    hwversion := n.hwversion.strcpy r.hwversion
    swversion := n.swversion.strcpy r.swversion
    localmacaddr := n.localmacaddr.strncpy p p.length
    sysuptime := if r.uptime.isSome then n.sysuptime.strcpy v else n.sysuptime
    ipv4addr, ip4netmask, vlanmode, defaultvlanid, vlantag, managementvlanid, vlanoverwds }

def loadManagementSettings (n : ManagementSettings) : Cfg ManagementSettings := do
  let login ← apCfgLoginGet
  let newpasswd ← apCfgPasswordGet
  let httpsmode ← apCfgHttpsModeGet
  let wlaccessmode ← apCfgWlanAccessGet
  let sshmode ← apCfgSSHGet
  let snpmode ← apCfgSnmpModeGet
  let contact ← apCfgSnmpContactGet
  let devicename ← apCfgDescGet
  let location ← apCfgSnmpLocationGet
  let readcomm ← apCfgSnmpReadCommGet
  let writecomm ← apCfgSnmpWriteCommGet
  let trapcomm ← apCfgSnmpTrapCommunityGet
  let snmpmanagerany ← apCfgSnmpAnyManagerGet
  let snmpmanagestart ← apCfgSnmpManagerIpGet
  let snmpmanageend ← apCfgSnmpManagerIpEndGet
  let snptrapdestvip ← apCfgSnmpTrapRecvIpGet
  return {
    login := n.login.strcpy login
    newpasswd := n.newpasswd.strcpy newpasswd
    httpsmode, wlaccessmode, sshmode, snpmode
    snmpcontact := n.snmpcontact.strcpy contact
    snmpdevicename := n.snmpdevicename.strcpy devicename
    snmplocation := n.snmplocation.strcpy location
    snmpreadcomm := n.snmpreadcomm.strcpy readcomm
    snmpwritecomm := n.snmpwritecomm.strcpy writecomm
    trapcomm := n.trapcomm.strcpy trapcomm
    snmpmanagerany, snmpmanagestart, snmpmanageend, snptrapdestvip }

def loadLogSettings (n : LogSettings) : Cfg LogSettings := do
  let emailalertmode ← apCfgemailAlertsEnabledGet
  let server ← apCfgsmtpMailServerGet
  let addr ← apCfgemailAddrForLogGet
  let emailqueuelenth ← apCfgemailAlertsQlenGet
  let emailsendperiod ← scApCfgemailAlertsIntervalGet
  let syslogmode ← apCfgsysLogEnabledGet
  let p ← apCfgsysLogServerGet
  let loginsuccessmode ← apCfgAuthLoginGet
  let loginfailmode ← apCfgDeauthGet
  let syserrormode ← apCfgChangeSysFucGet
  let confchangemode ← apCfgChangeCfgGet
  return {
    emailalertmode
    emailalertserver := n.emailalertserver.strcpy server
    emailalertaddr := n.emailalertaddr.strcpy addr
    emailqueuelenth, emailsendperiod, syslogmode
    syslogserver := inetAddr (if p.length ≠ 0 then p else .text "255.255.255.255")
    loginsuccessmode, loginfailmode, syserrormode, confchangemode }

/-- `loadVar_indoor` -/
def loadVarIndoor (r : Reports) (nin : Indoor) : Cfg Indoor := do
  let timeSettings ← loadTimeSettings nin.timeSettings
  let lanIPv4Settings ← loadLanIPv4Settings nin.lanIPv4Settings
  let lanIPv6Settings ← loadLanIPv6Settings r nin.lanIPv6Settings
  let sysSettings ← loadSysSettings nin.sysSettings
  let localNetwork ← loadLocalNetwork r nin.localNetwork
  let managementsettings ← loadManagementSettings nin.managementsettings
  let logsettings ← loadLogSettings nin.logsettings
  return {
    timeSettings, lanIPv4Settings, lanIPv6Settings, sysSettings, localNetwork, managementsettings,
    logsettings }

end Wap4410n.Snmp
