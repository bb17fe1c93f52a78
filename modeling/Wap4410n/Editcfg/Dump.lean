import Wap4410n.Apcfg.LegalAp
import Wap4410n.Editcfg.Assign
import Wap4410n.Editcfg.Load

/-!
# Editcfg — from the settings to the variables

`outputCFGGet` fills the variables from the settings.  It is a sequence of loads, most of which
store what one getter returns into one variable.  Settings that are not in use are not loaded: those
of a VAP that is not active leave the variables as they were.
-/

namespace Wap4410n.Editcfg

open CLib Apcfg

/-! ### Numbers -/

/-- `v = (p) ? x : y` of numbers -/
def choose (cases : List (Int × Int)) (other : Int) (x : Int) : Int :=
  ((cases.find? (·.1 = x)).map Prod.snd).getD other

/-! ### Addresses -/

/-- `scHex2Char(str, 2, value)` -/
def scHex2Char (str : List Byte) (value : Int) : Int :=
  let digits := (str.take 2).filter (· ≠ 0x20)
  if digits.all fun c => (digitValue c).isSome then
    digits.foldl (fun result c => 16 * result + ((digitValue c).getD 0 : Nat)) 0
  else value

/-- `scHexs2Chars(hexs, str, 6, 1)`; two characters that are no number give the byte before them -/
def scHexs2Chars (unset : Int) (hexs : CStr) : Run Buf MacAddr :=
  if hexs.length < 15 then .error (.outside .value)
  else
    let a := scHex2Char hexs.bytes unset
    let b := scHex2Char (hexs.bytes.drop 3) a
    let c := scHex2Char (hexs.bytes.drop 6) b
    let d := scHex2Char (hexs.bytes.drop 9) c
    let e := scHex2Char (hexs.bytes.drop 12) d
    let f := scHex2Char (hexs.bytes.drop 15) e
    .ok ⟨.ofInt a, .ofInt b, .ofInt c, .ofInt d, .ofInt e, .ofInt f⟩

/-- The parts of a text between the `.`s. -/
def dotParts : List Byte → List (List Byte)
  | [] => [[]]
  | b :: s =>
    match dotParts s with
    | [] => [[b]]
    | p :: ps => if b = 0x2e then [] :: p :: ps else (b :: p) :: ps

/-- `acpcfg_edit_setip`: a text with fewer than three `.`s is read past its end -/
def acpcfgEditSetip (ipStr : CStr) : Run Buf InAddr :=
  -- `char ipstrtemp[20]`
  if 20 ≤ ipStr.length then .error (.outside .string) else
  match dotParts ipStr.bytes with
  | a :: b :: c :: d :: _ =>
    let octet := fun p => UInt8.ofInt (atoi (.before p))
    .ok ⟨octet a, octet b, octet c, octet d⟩
  | _ => .error (.outside .string)

/-- `acpcfg_edit_setip(v, get());` -/
def loadIp (v : AddrVar) (get : Cfg CStr) : Load :=
  loadAddr v do Act.lift (acpcfgEditSetip (← get))

/-- `if(strcmp("00:00:00:00:00:00", remotemac) != 0) scHexs2Chars(remotemac, v, 6, 1);` -/
def setRemote (dev : Device) (v : MacVar) (remotemac : CStr) (g : Globals) : Run Buf Globals :=
  if remotemac = .text "00:00:00:00:00:00" then .ok g
  else do return g.setMac v (← scHexs2Chars (dev.unset 0) remotemac)

theorem same_setRemote {dev : Device} {v : MacVar} {remotemac : CStr} {g g' : Globals}
    (h : setRemote dev v remotemac g = .ok g') {x : Var} (hx : x ≠ .mac v) : g.Same g' x := by
  unfold setRemote at h
  split at h
  · cases h
    exact .refl
  · cases hm : scHexs2Chars (dev.unset 0) remotemac with
    | ok m =>
        rw [hm] at h
        cases h
        exact Globals.same_setMac v m hx
    | error e =>
        rw [hm] at h
        cases h

/-- `if(strcmp("00:00:00:00:00:00", remotemac) != 0) scHexs2Chars(remotemac, v, 6, 1);`, with
`remotemac` from a getter -/
def loadRemote (dev : Device) (v : MacVar) (get : Cfg CStr) : Load :=
  .put get (setRemote dev v) [.mac v] fun h x hx => same_setRemote h (by simpa using hx)

/-- `for(pScAclCurr = pScAcl; pScAclCurr&&count<20; pScAclCurr = pScAclCurr->next)` -/
def setAclMacs (dev : Device) (vap : Nat) : Nat → List CfgAclEntry → Globals → Run Buf Globals
  | _, [], g => .ok g
  | count, e :: es, g =>
    if count < 20 then do
      let mac ← scHexs2Chars (dev.unset 0) e.mac
      setAclMacs dev vap (count + 1) es (g.setMac (.aclMac vap count) mac)
    else .ok g

theorem same_setAclMacs {dev : Device} {vap : Nat} {x : Var}
    (hx : ∀ i < 20, x ≠ .mac (.aclMac vap i)) :
    ∀ {count : Nat} {es : List CfgAclEntry} {g g' : Globals},
      setAclMacs dev vap count es g = .ok g' → g.Same g' x
  | _, [], _, _, h => by
      cases h
      exact .refl
  | count, e :: es, g, g', h => by
      unfold setAclMacs at h
      split at h
      · rename_i hcount
        cases hm : scHexs2Chars (dev.unset 0) e.mac with
        | ok m =>
            rw [hm] at h
            exact (Globals.same_setMac _ m (hx count hcount)).trans (same_setAclMacs hx h)
        | error e =>
            rw [hm] at h
            cases h
      · cases h
        exact .refl

/-- `strtok(pList, ",")` and the calls with NULL behind it, at most `n`: the entries of the list, of
17 bytes each -/
def legalMacs : Nat → CStr → Run Buf (List (List Byte))
  | 0, _ => .ok []
  | n + 1, s =>
    match s.strtok [0x2c] with
    | none => .ok []
    | some (pValue, s) =>
      if pValue.length < 12 then .error (.outside .token)
      else do return scMacStr12ToStr17 pValue.bytes :: (← legalMacs n s)

/-- The list of addresses, from `scApCfgLegalApListGet`. -/
def legalList (pList : CStr) (p : RogueAPMacList) : Run Buf RogueAPMacList := do
  if pList.length = 0 then return { p with no := 0, outNo := 0 } else
  match pList.strtok [0x2c] with
  | none => .error (.null .token)
  | some _ => do
    let macs ← legalMacs pList.length pList
    if acNo < macs.length then .error (.outside .variable) else
    return ⟨.ofNat macs.length, 0, fun i => macs.getD i (p.mac i)⟩

/-- `rogueApMacList`, from `scApCfgLegalApListGet` -/
def loadLegalAps : Load :=
  .put scApCfgLegalApListGet
    (fun pList g => do return g.setRogue (← legalList pList g.rogueApMacList)) [.rogueApMacList]
    fun {pList g g'} h x hx => by
      cases hl : legalList pList g.rogueApMacList with
      | ok l =>
          rw [hl] at h
          cases h
          exact Globals.same_setRogue l (by simpa using hx)
      | error e =>
          rw [hl] at h
          cases h

/-! ### The parts -/

section Parts

variable (dev : Device)

/-- `apCfgAuthTypeGet` as `secSystem` -/
def secSystemOf : Int → Int :=
  choose [(apcfgAuthNone, 0), (apcfgAuthWpapsk, 2), (apcfgAuthWpa2psk, 3), (apcfgAuthWpaAutoPsk, 4),
    (apcfgAuthWpa, 5), (apcfgAuthWpa2, 6), (apcfgAuthWpaAuto, 7), (apcfgAuthDot1x, 8)] 1

/-- `apCfgAuthTypeGet` as `authType` -/
def authTypeOf : Int → Int := choose [(apcfgAuthAuto, 0), (apcfgAuthSharedKey, 2)] 1

/-- `iface6_status`: the address and the gateway -/
def iface6Status : CStr × CStr :=
  if (dev.mgtBrv6Info 1).1.length = 0 then dev.mgtBrv6Info 2 else dev.mgtBrv6Info 1

/-- What is printed into `gateway6`, if anything. -/
def gateway6Text : Cfg (Option CStr) := do
  if (← apCfgDhcp6EnableGet) ≠ 0 then
    return if 0 < (iface6Status dev).2.length then some (iface6Status dev).2 else none
  else return some (← apCfgGatewayv6AddrGet)

/-- `ipv6Buf`; nothing is stored into it without an address -/
def ipv6Buf : Cfg CStr := do
  if (← apCfgDhcp6EnableGet) ≠ 0 then
    if (iface6Status dev).1.length = 0 then Act.fault (.outside .ipv6Buf)
    else store .ipv6Buf 45 (iface6Status dev).1
  else store .ipv6Buf 45 (← apCfgIpv6AddrGet)

/-- `strtok(ipv6Buf, "/")` and `strtok(NULL, "/")` -/
def setIpv6 (ipv6Buf : CStr) (g : Globals) : Run Buf Globals :=
  match ipv6Buf.strtok [0x2f] with
  | none => .ok g
  | some (pt, s) => do
    let g ← copy .ipAddress6 pt g
    match s.strtok [0x2f] with
    | none => return g
    | some (pt, _) => return g.setByte .prefixlen (.ofInt (atoi pt))

theorem same_setIpv6 {buf : CStr} {g g' : Globals} (h : setIpv6 buf g = .ok g') {x : Var}
    (hx : x ≠ .text .ipAddress6) (hp : x ≠ .byte .prefixlen) : g.Same g' x := by
  unfold setIpv6 at h
  split at h
  · cases h
    exact .refl
  · rename_i pt s _
    cases hg : copy .ipAddress6 pt g with
    | ok g₁ =>
        rw [hg] at h
        refine (same_copy hg hx).trans ?_
        dsimp only [Run.ok_bind] at h
        split at h
        · cases h
          exact .refl
        · cases h
          exact Globals.same_setByte _ _ hp
    | error e =>
        rw [hg] at h
        cases h

/-- The addresses of `IPv6`; `ipv6Buf` is a buffer of its own, which is cut last. -/
def loadIpv6 : List Load := [
  .put (gateway6Text dev) (fun p g => p.elim (.ok g) (copy .gateway6 · g)) [.text .gateway6]
    fun {p g g'} h x hx => by
      cases p with
      | none =>
          cases h
          exact .refl
      | some p => exact same_copy h (by simpa using hx),
  loadText .ipv6dnsServer1 apCfgNameSrv61Get,
  loadText .ipv6dnsServer2 apCfgNameSrv62Get,
  .put (ipv6Buf dev) setIpv6 [.text .ipAddress6, .byte .prefixlen] fun h x hx => by
    rw [List.mem_cons, List.mem_singleton, not_or] at hx
    exact same_setIpv6 h hx.1 hx.2]

/-- `BASIC` -/
def dumpBasic : List Load := [
  loadByte .secShow apCfgSecMaskGet,
  loadMac .apMac dev.mac,
  loadText .apPin (apCfgDevicePinGet 0 0),
  loadText .apName apCfgSysNameGet,
  loadText .apDesc apCfgDescGet,
  loadText .apLang apCfgSysLangGet,
  loadByte .dhcpF apCfgDhcpEnableGet,
  loadByte .dhcp6F apCfgDhcp6EnableGet,
  loadAddr .ipAddress4 apCfgIpAddrGet,
  loadAddr .subnet4 apCfgIpMaskGet,
  loadAddr .gateway4 apCfgGatewayAddrGet,
  loadText .dnsServer1 apCfgNameSrvGet,
  loadText .dnsServer2 apCfgNameSrv2Get,
  loadByte .ipv6 apCfgipv6modeGet,
  .if (·.byte .ipv6 ≠ 0) (loadIpv6 dev)]

/-- `Time` -/
def dumpTime : List Load := [
  loadByte .timesetting (do return if (← apCfgTimeModeGet) ≠ 0 then 0 else 1),
  loadText .dateP (pure dev.clock.date),
  loadText .timeP (pure dev.clock.time),
  loadText .timeZone apCfgTimezoneOffsetGet,
  loadByte .usDefntp apCfgNtpModeGet,
  loadByte .daylightSaving apCfgDaylightSavingGet,
  loadText .ntpServer apCfgNtpServerGet]

/-- `Setup_advanced` -/
def dumpSetupAdv : List Load := [
  loadByte .htBonjour apCfgBonjourGet,
  loadByte .htForce100m apCfgForce100mGet,
  loadByte .htAutoNegotiation apCfgAutonegoGet,
  loadByte .htPortSpeed apCfgPortspeedGet,
  loadByte .htDuplexMode apCfgDuplexmodeGet,
  loadByte .htRedirect apCfgRedirectModeGet,
  .if (·.byte .htRedirect ≠ 0) [loadText .htRedirectUrl apCfgRedirectUrlGet],
  loadByte .ethDot1xAuth scApCfgDot1xSuppEnableGet,
  .if (·.byte .ethDot1xAuth ≠ 0) [
    loadByte .authViaMac scApCfgDot1xSuppMacEnableGet,
    loadText .authName scApCfgDot1xSuppUsernameGet,
    loadText .authPasswd scApCfgDot1xSuppPasswordGet]]

/-- `Wireless_Basic` -/
def dumpWlanBasic : List Load := [
  loadByte .wlsMode do
    let state ← apCfgWlanStateGet 0
    let spec ← apCfgFreqSpecGet 0
    return if state = 0 then 0 else choose
      [(modeSelect11B, 1), (modeSelect11G, 2), (modeSelect11N, 3), (modeSelect11Bg, 4)] 7 spec,
  loadByte .channel do
    let auto ← apCfgAutoChannelGet 0
    if auto ≠ 0 then return 0 else apCfgRadioChannelGet 0,
  loadByte .vapIsolated (apCfgInterVapForwardingGet 0)]

/-- `aclMac[vap]`, from `scAclBufGet`, whose buffer nothing else holds -/
def loadAclMacs (vap : Nat) : Load :=
  .put (scAclBufGet 0 vap false) (fun es g => setAclMacs dev vap 0 (es.getD []) g)
    ((List.range 20).map fun i => .mac (.aclMac vap i)) fun h _ hx =>
      same_setAclMacs (fun i hi e =>
        hx (List.mem_map.mpr ⟨i, List.mem_range.mpr hi, e.symm⟩)) h

/-- The settings of an active VAP. -/
def dumpActiveVap (vap : Nat) : List Load := [
  loadText (.ssid vap) (apCfgSsidGet 0 vap),
  loadByte (.ssidBroadcast vap) (do return if (← apCfgSsidModeGet 0 vap) = 0 then 1 else 0),
  loadByte (.wlsSeparation vap) (apCfgIntraVapForwardingGet 0 vap),
  loadByte (.secSystem vap) (do return secSystemOf (← apCfgAuthTypeGet 0 vap)),
  loadByte (.authType vap) (do return authTypeOf (← apCfgAuthTypeGet 0 vap)),
  .if (·.byte (.secSystem vap) = 1) [
    loadByte (.encrypt vap) (do return if (← apCfgKeyBitLenGet 0 vap) = 40 then 64 else 128)],
  .if (·.byte (.secSystem vap) ≠ 1) [
    loadByte (.encrypt vap) (do return choose [(0, 1), (1, 2)] 3 (← apCfgWPACipherGet 0 vap))],
  loadByte (.keyNo vap) (apCfgDefKeyGet 0 vap),
  loadText (.key 1 vap) (apCfgKeyValGet 0 vap 1),
  loadText (.key 2 vap) (apCfgKeyValGet 0 vap 2),
  loadText (.key 3 vap) (apCfgKeyValGet 0 vap 3),
  loadText (.key 4 vap) (apCfgKeyValGet 0 vap 4),
  loadText (.preShared vap) (apCfgPassphraseGet 0 vap),
  loadWord (.keyrenew vap) (apCfgGroupKeyUpdateIntervalGet 0 vap),
  loadByte (.aclFlag vap) (apCfgAclModeGet 0 vap),
  loadByte (.aclType vap) (apCfgAclTypeGet 0 vap),
  loadAclMacs dev vap,
  .ifSet apCfgVlanModeGet [
    loadWord (.vapVlan vap) (apCfgVlanPvidGet 0 vap),
    loadByte (.vapPri vap) (apCfgPriorityGet 0 vap)],
  loadByte (.vapWmm vap) (apCfgWmeGet 0 vap),
  .ifSet (apCfgBalanceModeGet 0) [loadWord (.vapBalance vap) (apCfgLoadBalanceGet 0 vap)]]

/-- `for(vap = 0; vap<WLAN_MAX_VAP; vap++)` -/
def dumpVap (vap : Nat) : Load := .ifSet (apCfgActiveModeGet 0 vap) (dumpActiveVap dev vap)

/-- `Radius_Server` -/
def dumpRadius : List Load := [
  loadIp .authSIP1 (apCfgRadiusServerGet 0 0),
  loadWord .authSPort1 (apCfgRadiusPortGet 0 0),
  loadText .authSSecret1 (apCfgRadiusSecretGet 0 0),
  loadIp .authSIP2 (apCfgBackupRadiusServerGet 0 0),
  loadWord .authSPort2 (apCfgBackupRadiusPortGet 0 0),
  loadText .authSSecret2 (apCfgBackupRadiusSecretGet 0 0)]

/-- `VLAN_QoS` -/
def dumpVlan : List Load := [
  loadByte .vlan apCfgVlanModeGet,
  .if (·.byte .vlan ≠ 0) [
    loadWord .nativeVid apCfgNativeVlanIdGet,
    loadWord .manageVid apCfgManagementVlanIdGet,
    loadByte .vlanTag apCfgNativeVlanTagGet,
    loadByte .wdsTag apCfgWdsVlanTagGet,
    loadText .wdsVlanList apCfgwdsVlanListGet]]

/-- `Wireless_Advanced` -/
def dumpWlanAdv : List Load := [
  loadByte .worldwide (scApCfg80211dEnabledGet 0),
  loadWord .countryCode apCfgCountryCodeGet,
  loadByte .channelBand (do
    return choose [(cwmMode20M, 1), (cwmMode40M, 2)] 0 (← apCfgChannelWidthModeGet 0)),
  loadByte .guardInter (do
    return choose [(shortgiShort, 1), (shortgiLong, 2)] 0 (← scApCfgShortGIGet 0)),
  loadByte .ctsProtect (apCfgCTSModeGet 0),
  loadWord .beaconInterval (apCfgBeaconIntervalGet 0),
  loadByte .dtimInter (scApCfgDtimIntervalGet 0),
  loadWord .rtsThreshold (apCfgRtsThresholdGet 0),
  loadWord .fragLength (apCfgFragThresholdGet 0),
  loadByte .loadBalance (apCfgBalanceModeGet 0)]

/-- `pxpMac[i]`, of the remote bridge `i` -/
def loadBridge (i : Nat) : Load :=
  .put (apCfgRemoteWbrMacAddrGet 0 i)
    (fun remotemac g => setRemote dev (.pxpMac i) remotemac (g.setMac (.pxpMac i) .zero))
    [.mac (.pxpMac i)] fun h x hx =>
      (Globals.same_setMac _ _ (by simpa using hx)).trans (same_setRemote h (by simpa using hx))

/-- What is printed into `perfssid`, from the SSID of VAP 0. -/
def perfssidText : Cfg CStr := do
  let pSrc ← apCfgSsidGet 0 0
  let country ← apCfgCountryCodeGet
  return match dev.convert country pSrc with
    | some converted => if converted.length < 128 then converted else pSrc
    | none => pSrc

/-- The addresses of the remote access points. -/
def loadRemotes : Load :=
  .ite (fun g => g.byte .wdsRepeater ≠ 0 ∨ g.byte .opMode = 2)
    (.all [loadBridge dev 0, loadBridge dev 1, loadBridge dev 2, loadBridge dev 3])
    (.ite (·.byte .opMode = 1)
      (loadRemote dev (.pxpMac 0) (apCfgRemoteApMacAddrGet 20 0))
      (.if (·.byte .opMode = 3) [
        loadText .perfssid (perfssidText dev),
        loadRemote dev (.pxpMac 0) (apCfgUcrRemoteApMacAddrGet 20 0)]))

/-- `AP_Mode` -/
def dumpApMode : List Load := [
  loadByte .opMode (do
    return choose [(cfgOpModeApPtp, 1), (cfgOpModeMpt, 2), (cfgOpModeUc, 3), (cfgOpModeUr, 3),
      (cfgOpModeRogap, 4)] 0 (← apCfgOpModeGet 0)),
  loadByte .wdsRepeater (do return if (← apCfgOpModeGet 0) = cfgOpModeApPtmp then 1 else 0),
  loadByte .ucrRepeater (do return if (← apCfgOpModeGet 0) = cfgOpModeUr then 1 else 0),
  loadRemotes dev,
  loadByte .noSecurity (do return if (← scApCfgRogueApTypeGet) % 2 = 1 then 1 else 0),
  loadByte .illegalAp (do return if (← scApCfgRogueApTypeGet) / 2 % 2 = 1 then 1 else 0),
  .if (·.byte .opMode = 4) [loadLegalAps]]

/-- `Management`; what stands behind `if(snmpTrust != 1);` is done in any case -/
def dumpManagement : List Load := [
  loadText .loginName apCfgLoginGet,
  loadText .loginPasswd apCfgPasswordGet,
  loadByte .httpsEnable apCfgHttpsModeGet,
  loadByte .webAccess apCfgWlanAccessGet,
  loadByte .secureSh apCfgSSHGet,
  loadByte .snmp apCfgSnmpModeGet,
  .if (·.byte .snmp ≠ 0) [
    loadText .contact apCfgSnmpContactGet,
    loadText .snmplocal apCfgSnmpLocationGet,
    loadText .snmpdevice apCfgDescGet,
    loadText .getCom apCfgSnmpReadCommGet,
    loadText .setCom apCfgSnmpWriteCommGet,
    loadText .trapCom apCfgSnmpTrapCommunityGet,
    loadByte .snmpTrust apCfgSnmpAnyManagerGet,
    loadAddr .trapStartIp apCfgSnmpManagerIpGet,
    loadByte .trapRange (do return (← apCfgSnmpManagerIpEndGet).d.toNat),
    loadAddr .trapServerIp apCfgSnmpTrapRecvIpGet]]

/-- `Log` -/
def dumpLog : List Load := [
  loadByte .mailAlert apCfgemailAlertsEnabledGet,
  .if (·.byte .mailAlert ≠ 0) [
    loadText .smtpServ apCfgsmtpMailServerGet,
    loadText .mailAddr apCfgemailAddrForLogGet,
    loadWord .logLength apCfgemailAlertsQlenGet,
    loadWord .logTime scApCfgemailAlertsIntervalGet],
  loadByte .syslogF apCfgsysLogEnabledGet,
  loadAddr .logIPAddr (do return inetAddr (← apCfgsysLogServerGet)),
  loadByte .unAthLogin apCfgDeauthGet,
  loadByte .athLogin apCfgAuthLoginGet,
  loadByte .sysError apCfgChangeSysFucGet,
  loadByte .cfgChange apCfgChangeCfgGet]

/-- The parts of `outputCFGGet`. -/
def dumpLoads : List Load := [
  .all (dumpBasic dev), .all (dumpTime dev), .all dumpSetupAdv, .all dumpWlanBasic,
  dumpVap dev 0, dumpVap dev 1, dumpVap dev 2, dumpVap dev 3,
  .all dumpRadius, .all dumpVlan, .all dumpWlanAdv, .all (dumpApMode dev), .all dumpManagement,
  .all dumpLog]

/-- `outputCFGGet` -/
def outputCFGGet : Load := .all (dumpLoads dev)

end Parts

end Wap4410n.Editcfg
