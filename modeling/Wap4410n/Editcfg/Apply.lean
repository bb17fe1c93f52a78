import Wap4410n.Apcfg.Wlan
import Wap4410n.Apcfg.LegalAp
import Wap4410n.Editcfg.Dump
import Wap4410n.Editcfg.Import
import Wap4410n.Editcfg.Output

/-!
# Editcfg — from the variables to the settings

`parseCFGSet` sets the settings from the variables.  It is a sequence of calls of setters, whose
results it ignores.  A VAP whose SSID is empty is put back to its defaults; a secret is set only
where its variable is not empty.
-/

namespace Wap4410n.Editcfg

open CLib Apcfg

/-! ### Variables as arguments -/

namespace Globals

variable (g : Globals)

/-- A byte as an `int`. -/
def num (v : ByteVar) : Int := (g.byte v).toNat

/-- A word as an `int`. -/
def wnum (v : WordVar) : Int := (g.word v).toNat

/-- `!v` -/
def «not» (v : ByteVar) : Int := if g.byte v = 0 then 1 else 0

end Globals

/-- `macAddrToString(m, macAddrStr, ":")`, or the text of no address -/
def remoteText (m : MacAddr) : CStr :=
  if m = .zero then .text "00:00:00:00:00:00" else .before (macBytes m)

/-- The characters of a host name. -/
def hostnameStr : List Byte :=
  ascii "abcdefghijklmnopqrstuvwxyzABCDEFGHIJKLMNOPQRSTUVWXYZ0123456789-".toList

/-- `scValidHostName` -/
def scValidHostName (name : CStr) : Bool :=
  name.length ≠ 0 ∧ name.bytes.head? ≠ some 0x2d ∧ name.bytes.getLast? ≠ some 0x2d ∧
    name.bytes.all (· ∈ hostnameStr) ∧ ¬ name.bytes.all isDigit

/-! ### The parts -/

section Parts

variable (dev : Device) (g : Globals)

/-- `BASIC` -/
def setBasic : List (Cfg Unit) := [
  Act.when ((g.text .apName).length ≠ 0 ∧ scValidHostName (g.text .apName))
    (Act.ignore (apCfgSysNameSet (g.text .apName))),
  Act.when ((g.text .apDesc).length ≠ 0) (Act.ignore (apCfgDescSet (g.text .apDesc))),
  Act.when ((g.text .apLang).length ≠ 0) (Act.ignore (apCfgSysLangSet (g.text .apLang))),
  Act.ignore (apCfgDhcpEnableSet (g.num .dhcpF)),
  Act.ignore (apCfgDhcp6EnableSet (g.num .dhcp6F)),
  Act.when (g.addr .ipAddress4 ≠ .zero) (Act.ignore (apCfgIpAddrSet (g.addr .ipAddress4))),
  Act.when (g.addr .subnet4 ≠ .zero) (Act.ignore (apCfgIpMaskSet (g.addr .subnet4))),
  Act.ignore (apCfgGatewayAddrSet (g.addr .gateway4)),
  Act.ignore (apCfgNameSrvSet (g.text .dnsServer1)),
  Act.ignore (apCfgNameSrv2Set (g.text .dnsServer2)),
  Act.ignore (apCfgipv6modeSet (g.num .ipv6)),
  do
    let ipv6Buf ← store .ipv6Buf 45
      ((g.text .ipAddress6).append ((CStr.text "/").append (.ofInt (g.num .prefixlen))))
    let status ← apCfgIpv6AddrSet dev.validIPv6Prefix ipv6Buf
    Act.when (status ≠ .ok) do
      let addr ← apCfgIpv6AddrGet
      Act.when (addr = .empty) (Act.ignore (apCfgipv6modeSet 0)),
  Act.ignore (apCfgGatewayv6AddrSet (g.text .gateway6)),
  Act.ignore (apCfgNameSrv61Set dev.validIPv6 (g.text .ipv6dnsServer1)),
  Act.ignore (apCfgNameSrv62Set dev.validIPv6 (g.text .ipv6dnsServer2))]

/-- Three calls on the numbers between the separators of a text. -/
def setThree (separ : Byte) (s : CStr) (set1 set2 set3 : Int → Cfg Status) : Cfg Unit := do
  let (p, s) ← Act.lift (token separ s)
  Act.ignore (set1 (atoi p))
  let (p, s) ← Act.lift (token separ s)
  Act.ignore (set2 (atoi p))
  let (p, _) ← Act.lift (token separ s)
  Act.ignore (set3 (atoi p))

/-- `Time` -/
def setTime : List (Cfg Unit) := [
  Act.ignore (apCfgTimeModeSet (g.not .timesetting)),
  Act.when (g.byte .timesetting = 0) do
    setThree 0x2f (g.text .dateP) apCfgTimeYearSet apCfgTimeMonSet apCfgTimeDaySet
    setThree 0x3a (g.text .timeP) apCfgTimeHourSet apCfgTimeMinSet apCfgTimeSecSet,
  Act.ignore (apCfgTimezoneOffsetSet (g.text .timeZone)),
  Act.ignore (apCfgNtpModeSet (g.num .usDefntp)),
  Act.ignore (apCfgNtpServerSet (g.text .ntpServer)),
  Act.ignore (apCfgDaylightSavingSet (g.num .daylightSaving))]

/-- `Setup_advanced` -/
def setSetupAdv : List (Cfg Unit) := [
  Act.ignore (apCfgBonjourSet (g.num .htBonjour)),
  Act.ignore (apCfgForce100mSet (g.num .htForce100m)),
  Act.ignore (apCfgAutonegoSet (g.num .htAutoNegotiation)),
  Act.ignore (apCfgPortspeedSet (g.num .htPortSpeed)),
  Act.ignore (apCfgDuplexmodeSet (g.num .htDuplexMode)),
  Act.ignore (apCfgRedirectModeSet (g.num .htRedirect)),
  Act.ignore (apCfgRedirectUrlSet (g.text .htRedirectUrl)),
  Act.ignore (scApCfgDot1xSuppEnableSet (g.num .ethDot1xAuth)),
  Act.ignore (scApCfgDot1xSuppMacEnableSet (g.num .authViaMac)),
  Act.when ((g.text .authName).length ≠ 0)
    (Act.ignore (scApCfgDot1xSuppUsernameSet (g.text .authName))),
  Act.when ((g.text .authPasswd).length ≠ 0)
    (Act.ignore (scApCfgDot1xSuppPasswordSet (g.text .authPasswd)))]

/-- `VLAN_QoS` -/
def setVlan : List (Cfg Unit) := [
  Act.ignore (apCfgVlanModeSet (g.num .vlan)),
  Act.ignore vlanListClear,
  Act.when (g.byte .vlan ≠ 0) (Act.seq [
    Act.ignore (apCfgNativeVlanIdSet (g.wnum .nativeVid)),
    Act.ignore (apCfgManagementVlanIdSet (g.wnum .manageVid)),
    Act.ignore (apCfgNativeVlanTagSet (g.num .vlanTag)),
    Act.ignore (apCfgWdsVlanTagSet (g.num .wdsTag)),
    Act.ignore (apCfgwdsVlanListSet dev.validwdsVlanList (g.text .wdsVlanList))])]

/-- `switch(wlsMode)`, whose `default` falls through to `case 0` -/
def setWlsMode : Cfg Unit :=
  let wlsMode := g.num .wlsMode
  if wlsMode = 0 then Act.ignore (apCfgWlanStateSet 0 0)
  else if wlsMode = 1 then Act.ignore (apCfgFreqSpecSet 0 modeSelect11B)
  else if wlsMode = 2 then Act.ignore (apCfgFreqSpecSet 0 modeSelect11G)
  else if wlsMode = 3 then Act.ignore (apCfgFreqSpecSet 0 modeSelect11N)
  else if wlsMode = 4 then Act.ignore (apCfgFreqSpecSet 0 modeSelect11Bg)
  else if wlsMode = 7 then Act.ignore (apCfgFreqSpecSet 0 modeSelect11Bgn)
  else do
    Act.ignore (apCfgFreqSpecSet 0 modeSelect11Bgn)
    Act.ignore (apCfgWlanStateSet 0 0)

/-- `Wireless_Basic` -/
def setWlanBasic : List (Cfg Unit) := [
  Act.when (g.byte .wlsMode ≠ 0) (Act.ignore (apCfgWlanStateSet 0 1)),
  setWlsMode g,
  Act.ignore (apCfgAutoChannelSet 0 (g.not .channel)),
  Act.when (g.byte .channel ≠ 0) (Act.ignore (apCfgRadioChannelSet 0 (g.num .channel))),
  Act.ignore (apCfgInterVapForwardingSet 0 (g.num .vapIsolated))]

/-- `switch(opMode)` -/
def setOpMode : Cfg Unit :=
  let opMode := g.num .opMode
  if opMode = 1 then Act.ignore (apCfgOpModeSet 0 cfgOpModeApPtp)
  else if opMode = 2 then Act.ignore (apCfgOpModeSet 0 cfgOpModeMpt)
  else if opMode = 3 then
    Act.ignore (apCfgOpModeSet 0 (if g.byte .ucrRepeater ≠ 0 then cfgOpModeUr else cfgOpModeUc))
  else if opMode = 4 then do
    Act.ignore (apCfgOpModeSet 0 cfgOpModeRogap)
    -- `char flag`
    let flag := g.byte .noSecurity ||| g.byte .illegalAp <<< 1
    Act.ignore (scApCfgRogueApTypeSet flag.toInt8.toInt)
  else
    Act.ignore (apCfgOpModeSet 0 (if g.byte .wdsRepeater ≠ 0 then cfgOpModeApPtmp else cfgOpModeAp))

section Vap

variable (vap : Nat)

/-- `if(strlen(key) && (strlen(key) == len*2)) apCfgKeyValSet(unit, vap, keyId, key);` -/
def setKey (keyId : Nat) : Cfg Unit :=
  let key := g.text (.key keyId vap)
  let len := (g.byte (.encrypt vap)).toNat / 8
  Act.when (key.length ≠ 0 ∧ key.length = len * 2) (Act.ignore (apCfgKeyValSet 0 vap keyId key))

/-- `case 1` -/
def setWep : List (Cfg Unit) := [
  Act.ignore (apCfgKeyBitLenSet 0 vap (g.num (.encrypt vap))),
  Act.ignore (apCfgAuthTypeSet 0 vap
    (if g.byte (.authType vap) = 0 then apcfgAuthAuto
    else if g.byte (.authType vap) = 2 then apcfgAuthSharedKey
    else apcfgAuthOpenSystem)),
  Act.ignore (apCfgDefKeySet 0 vap (g.num (.keyNo vap))),
  setKey g vap 1,
  setKey g vap 2,
  setKey g vap 3,
  setKey g vap 4]

/-- `case 2` to `case 7`: the cipher, the passphrase where there is one to be, and the interval -/
def setWpa (auth cipher : Int) (psk : Bool) : List (Cfg Unit) := [
  Act.ignore (apCfgAuthTypeSet 0 vap auth),
  Act.ignore (apCfgWPACipherSet 0 vap cipher),
  Act.when (psk ∧ (g.text (.preShared vap)).length ≠ 0)
    (Act.ignore (apCfgPassphraseSet 0 vap (g.text (.preShared vap)))),
  Act.ignore (apCfgGroupKeyUpdateIntervalSet 0 vap (g.wnum (.keyrenew vap)))]

/-- `switch(secSystem[vap])` -/
def setSecurity : List (Cfg Unit) :=
  let secSystem := g.num (.secSystem vap)
  if secSystem = 0 then [Act.ignore (apCfgAuthTypeSet 0 vap apcfgAuthNone)]
  else if secSystem = 1 then setWep g vap
  else if secSystem = 2 then setWpa g vap apcfgAuthWpapsk (g.num (.encrypt vap)) true
  else if secSystem = 3 then setWpa g vap apcfgAuthWpa2psk 1 true
  else if secSystem = 4 then setWpa g vap apcfgAuthWpaAutoPsk 2 true
  else if secSystem = 5 then setWpa g vap apcfgAuthWpa (g.num (.encrypt vap)) false
  else if secSystem = 6 then setWpa g vap apcfgAuthWpa2 1 false
  else if secSystem = 7 then setWpa g vap apcfgAuthWpaAuto 2 false
  else if secSystem = 8 then [Act.ignore (apCfgAuthTypeSet 0 vap apcfgAuthDot1x)]
  else []

/-- `apCfgAclAdd(unit, vap, macAddrStr, "unknown", 1);` for an address that is not zero -/
def setAclMac (i : Nat) : Cfg Unit :=
  let m := g.mac (.aclMac vap i)
  Act.when (m ≠ .zero)
    (Act.ignore (apCfgAclAdd 0 vap (.before (macBytes m)) (.text "unknown") 1))

/-- The settings of a VAP with an SSID. -/
def setActiveVap : List (Cfg Unit) := [
  Act.ignore (apCfgActiveModeSet 0 vap 1),
  Act.ignore (apCfgSsidSet 0 vap (g.text (.ssid vap))),
  Act.ignore (apCfgSsidModeSet 0 vap (g.not (.ssidBroadcast vap))),
  Act.ignore (apCfgIntraVapForwardingSet 0 vap (g.num (.wlsSeparation vap))),
  Act.seq (setSecurity g vap),
  Act.ignore (apCfgAclModeSet 0 vap (g.num (.aclFlag vap))),
  Act.ignore (apCfgAclTypeSet 0 vap (g.num (.aclType vap))),
  apCfgAclClear 0 vap,
  Act.each (setAclMac g vap) (List.range cfgMaxAclLinksys),
  Act.ignore (apCfgVlanPvidSet 0 vap (g.wnum (.vapVlan vap))),
  Act.ignore (apCfgWmeSet 0 vap (g.num (.vapWmm vap))),
  Act.ignore (apCfgPrioritySet 0 vap (g.num (.vapPri vap))),
  Act.ignore (apCfgLoadBalanceSet 0 vap (g.wnum (.vapBalance vap)))]

/-- A pass of `for(vap = 0; vap < WLAN_MAX_VAP; vap++)`. -/
def setVap : Cfg Unit :=
  if (g.text (.ssid vap)).length = 0 then Act.ignore (scSetDefaultVap 0 vap)
  else Act.seq (setActiveVap g vap)

end Vap

/-- `Radius_Server` -/
def setRadius : List (Cfg Unit) := [
  Act.ignore (apCfgRadiusServerSet 0 0 (inetNtoa (g.addr .authSIP1))),
  Act.ignore (apCfgRadiusPortSet 0 0 (g.wnum .authSPort1)),
  Act.when ((g.text .authSSecret1).length ≠ 0)
    (Act.ignore (apCfgRadiusSecretSet 0 0 (g.text .authSSecret1))),
  Act.ignore (apCfgBackupRadiusServerSet 0 0 (inetNtoa (g.addr .authSIP2))),
  Act.ignore (apCfgBackupRadiusPortSet 0 0 (g.wnum .authSPort2)),
  Act.when ((g.text .authSSecret2).length ≠ 0)
    (Act.ignore (apCfgBackupRadiusSecretSet 0 0 (g.text .authSSecret2)))]

/-- `Wireless_Advanced` -/
def setWlanAdv : List (Cfg Unit) := [
  Act.ignore (scApCfg80211dEnabledSet 0 (g.num .worldwide)),
  Act.ignore (apCfgCountryCodeSet dev.countryDomain (g.wnum .countryCode)),
  Act.ignore (apCfgChannelWidthModeSet 0
    (if g.num .channelBand = cwmMode40M then g.num .channelBand else g.not .channelBand)),
  Act.ignore (scApCfgShortGISet 0
    (if g.num .guardInter = shortgiLong then g.num .guardInter else g.not .guardInter)),
  Act.ignore (apCfgCTSModeSet 0 (g.num .ctsProtect)),
  Act.ignore (apCfgBeaconIntervalSet 0 (g.wnum .beaconInterval)),
  Act.ignore (scApCfgDtimIntervalSet 0 (g.num .dtimInter)),
  Act.ignore (apCfgRtsThresholdSet 0 (g.wnum .rtsThreshold)),
  Act.ignore (apCfgFragThresholdSet 0 (g.wnum .fragLength)),
  Act.ignore (apCfgBalanceModeSet 0 (g.num .loadBalance))]

/-- The addresses of the remote access points. -/
def setRemotes : List (Cfg Unit) :=
  let opMode := g.num .opMode
  if opMode = 1 ∨ opMode = 3 then [
    Act.ignore (apCfgRemoteApMacAddrSet 0 (remoteText (g.mac (.pxpMac 0)))),
    Act.when (opMode = 3) (Act.ignore (apCfgSsidSet 0 0 (g.text .perfssid)))]
  else if opMode = 0 ∨ opMode = 2 then
    [0, 1, 2, 3].map fun i =>
      Act.ignore (apCfgRemoteWbrMacAddrSet 0 i (remoteText (g.mac (.pxpMac i))))
  else []

/-- A pass of `for(i=0; i<rogueApMacList.no; i++)`. -/
def setLegalAp (i : Nat) : Cfg Unit :=
  if acNo ≤ i then Act.fault (.outside .variable)
  else
    let mac := g.rogueApMacList.mac i
    -- `zeroMac17`
    Act.when (mac ≠ List.replicate 17 0)
      (Act.ignore (scApCfgLegalApListAdd (scMacStr17ToStr12 mac)))

/-- The list of legal access points. -/
def setLegalApList : List (Cfg Unit) := [
  Act.ignore scApCfgLegalApListClear,
  Act.each (setLegalAp g) (List.range g.rogueApMacList.no.toNat)]

/-- `apCfgSnmpManagerIpEndSet` of the last address of the range. -/
def setManagerIpEnd : Cfg Unit := do
  let ipAddress : InAddr := { g.addr .trapStartIp with d := g.byte .trapRange }
  let first ← apCfgSnmpManagerIpGet
  if ipAddress ≠ .zero ∧ first.toNat ≤ ipAddress.toNat then
    Act.ignore (apCfgSnmpManagerIpEndSet ipAddress)
  else Act.ignore (apCfgSnmpManagerIpEndSet first)

/-- `Management` -/
def setManagement : List (Cfg Unit) := [
  Act.ignore (apCfgSecMaskSet (g.num .secShow)),
  Act.ignore (apCfgLoginSet (g.text .loginName)),
  Act.when ((g.text .loginPasswd).length ≠ 0)
    (Act.ignore (apCfgPasswordSet (g.text .loginPasswd))),
  Act.ignore (apCfgAutohttpsModeSet (g.num .httpsEnable)),
  Act.ignore (apCfgHttpsModeSet (g.num .httpsEnable)),
  Act.ignore (apCfgWlanAccessSet (g.num .webAccess)),
  Act.ignore (apCfgSSHSet (g.num .secureSh)),
  Act.ignore (apCfgSnmpModeSet (g.num .snmp)),
  Act.when (g.byte .snmp ≠ 0) (Act.seq [
    Act.ignore (apCfgSnmpContactSet (g.text .contact)),
    Act.ignore (apCfgSnmpLocationSet (g.text .snmplocal)),
    Act.ignore (apCfgDescSet (g.text .snmpdevice)),
    Act.ignore (apCfgSnmpReadCommSet (g.text .getCom)),
    Act.ignore (apCfgSnmpWriteCommSet (g.text .setCom)),
    Act.ignore (apCfgSnmpTrapCommunitySet (g.text .trapCom)),
    Act.ignore (apCfgSnmpAnyManagerSet (g.num .snmpTrust)),
    Act.when (g.addr .trapStartIp ≠ .zero)
      (Act.ignore (apCfgSnmpManagerIpSet (g.addr .trapStartIp))),
    setManagerIpEnd g,
    Act.when (g.addr .trapServerIp ≠ .zero)
      (Act.ignore (apCfgSnmpTrapRecvIpSet (g.addr .trapServerIp)))])]

/-- `Log` -/
def setLog : List (Cfg Unit) := [
  Act.ignore (apCfgemailAlertsEnabledSet (g.num .mailAlert)),
  Act.when (g.byte .mailAlert ≠ 0) (Act.seq [
    Act.ignore (apCfgsmtpMailServerSet (g.text .smtpServ)),
    Act.ignore (apCfgemailAddrForLogSet (g.text .mailAddr)),
    Act.ignore (scApCfgemailAlertsQlenSet (g.wnum .logLength)),
    Act.ignore (scApCfgemailAlertsIntervalSet (g.wnum .logTime))]),
  Act.ignore (apCfgsysLogEnabledSet (g.num .syslogF)),
  Act.ignore (apCfgsysLogServerSet (inetNtoa (g.addr .logIPAddr))),
  Act.ignore (apCfgDeauthSet (g.num .unAthLogin)),
  Act.ignore (apCfgAuthLoginSet (g.num .athLogin)),
  Act.ignore (apCfgChangeSysFucSet (g.num .sysError)),
  Act.ignore (apCfgChangeCfgSet (g.num .cfgChange))]

/-- The calls of `parseCFGSet`. -/
def setCalls : List (Cfg Unit) :=
  setBasic dev g ++ setTime g ++ setSetupAdv g ++ setVlan dev g ++ setWlanBasic g ++
    setOpMode g :: vaps.map (setVap g) ++ Act.ignore (apCfgVlanListApply 0) :: setRadius g ++
    setWlanAdv dev g ++ setRemotes g ++ setLegalApList g ++ setManagement g ++ setLog g

/-- `parseCFGSet` -/
def parseCFGSet : Cfg Unit := Act.seq (setCalls dev g)

end Parts

/-- `parseCFG`, of a file that can be opened -/
def parseCFG (dev : Device) (text : List Byte) (setup : Bool) (g : Globals) : Cfg Nat := do
  let g ← (outputCFGGet dev).run g
  let (goodGroup, g) ← Act.lift (parseLines dev (buffers text) g)
  Act.when (goodGroup ≠ 0 ∧ setup) (parseCFGSet dev (correctVariables dev g))
  return goodGroup

end Wap4410n.Editcfg
