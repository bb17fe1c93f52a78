import Wap4410n.Apcfg.Acl
import Wap4410n.Apcfg.LegalAp
import Wap4410n.Apcfg.Shared
import Wap4410n.Apcfg.System
import Wap4410n.Apcfg.Wlan
import Wap4410n.Snmp.AxList

/-!
# Snmp — the tables

The loader of a table clears the struct the rows are made in, fills it once for each row from the
settings and from what the device reports, prints its `UID` and adds a copy of it to the list.  The
struct is not cleared between two rows.  Here a loader returns the copies, in the order in which
they are added; `Device` is what it reads besides the settings.
-/

namespace Wap4410n.Snmp

open CLib Apcfg

/-! ### What the device reports -/

/-- `if_adv_info_t` -/
structure IfAdvInfo where
  rxPackets : UInt64
  txPackets : UInt64
  rxBytes : UInt64
  txBytes : UInt64
  errors : UInt32
  dropped : UInt32

/-- The reports a loader reads. -/
structure Device where
  /-- `mac` of `getMgtBrInfo` -/
  mgtBrMac : CStr
  /-- `getEthernetStatus` -/
  ethernetStatus : Int
  /-- `getIFAdvInfo("eth0", …)` -/
  eth0 : IfAdvInfo
  /-- `mac` of `getIFInfo` for `ath%d%d` -/
  ifMac : Nat → Nat → CStr
  /-- `getIFAdvInfo` for `ath%d%d` -/
  ifAdvInfo : Nat → Nat → IfAdvInfo
  /-- whether `wlanconfig ath%d%d list scsta` prints anything -/
  hasStations : Nat → Nat → Bool
  /-- the lines of `/tmp/aclOtherSta` as it is opened for a VAP, each as `fgets(buffer,129,fp)` has
  it; `none` where it does not open -/
  aclOtherSta : Nat → Nat → Option (List CStr)
  /-- the lines of `/tmp/connecting_cfb`, each as `fgets(buffer,255,fp)` has it -/
  connectingCfb : Nat → Nat → Option (List CStr)
  /-- what `libiconv` makes of a text in a character set, in UTF-8; `none` where it returns `-1` -/
  libiconv : CStr → CStr → Option CStr

/-! ### Rows one after the other -/

section Rows

variable {X α : Type}

/-- `for (x in xs) …`: the rows that each turn adds, with the struct as the last turn leaves it. -/
def eachRows (turn : X → Row α → Cfg (List (Row α))) : List X → Row α → Cfg (List (Row α))
  | [], _ => return []
  | x :: xs, n => do
    let rows ← turn x n
    let more ← eachRows turn xs (rows.getLast?.getD n)
    return rows ++ more

/-- A loop each turn of which adds one row. -/
def eachRow (fill : X → Row α → Cfg (Row α)) : List X → Row α → Cfg (List (Row α)) :=
  eachRows fun x n => do return [← fill x n]

/-- Fields are assigned. -/
def Row.assign (r : Row α) (f : α → α) : Row α := { r with data := f r.data }

end Rows

/-- `for (radio=0; radio<count; radio++)` -/
def radios : List Nat := [0]

/-- `for (radio=0; radio<count; radio++) for (ssid=0; ssid<4; ssid++)` -/
def bsses : List (Nat × Nat) := radios.flatMap fun radio => vaps.map fun ssid => (radio, ssid)

/-- `sprintf(s, "%Lu", v)` -/
def printLu (v : Nat) : CStr := .before (digits 10 20 v)

/-! ### `wiredStatisticsTable` -/

/-- `wsTbl_data` -/
structure WsTblData where
  lanIpAddress : InAddr := .zero
  lanMacAddress : Block := .zeroed 33
  lanConnectionStatus : Int := 0
  lanRecvPackets : Block := .zeroed 33
  lanSendPackets : Block := .zeroed 33
  lanRecvBytes : Block := .zeroed 33
  lanSendBytes : Block := .zeroed 33
  lanRecvErrorPackets : Block := .zeroed 33
  lanRecvDropPackets : Block := .zeroed 33

/-- `loadvar_wiredStatisticsTable` -/
def loadvarWiredStatisticsTable (d : Device) : Cfg (List (Row WsTblData)) :=
  eachRow (fun lan n => do
    let n := n.setLong 0 (lan + 1)
    let ip ← apCfgIpAddrGet
    -- `p = (char *)malloc(20*sizeof(char));`
    let p ← store .array 20 d.mgtBrMac
    return (n.assign fun ws => { ws with
      lanIpAddress := ip
      lanMacAddress := ws.lanMacAddress.strncpy p p.length
      lanConnectionStatus := if d.ethernetStatus = 1 then 1 else 0
      lanRecvPackets := ws.lanRecvPackets.strcpy (printLu d.eth0.rxPackets.toNat)
      lanSendPackets := ws.lanSendPackets.strcpy (printLu d.eth0.txPackets.toNat)
      lanRecvBytes := ws.lanRecvBytes.strcpy (printLu d.eth0.rxBytes.toNat)
      lanSendBytes := ws.lanSendBytes.strcpy (printLu d.eth0.txBytes.toNat)
      lanRecvErrorPackets := ws.lanRecvErrorPackets.strcpy (printLu d.eth0.errors.toNat)
      lanRecvDropPackets :=
        ws.lanRecvDropPackets.strcpy (printLu d.eth0.dropped.toNat) }).sprintfUid 1)
    [0] (.zeroed 1 {})

/-! ### `wlanAccessControlTable` -/

/-- `wacTbl_data` -/
structure WacTblData where
  accessControlMode : Int := 0
  localMacMode : Int := 0

/-- `loadvar_wlanAccessControlTable` -/
def loadvarWlanAccessControlTable : Cfg (List (Row WacTblData)) :=
  eachRow (fun (radio, aclSSID) n => do
    let n := (n.setLong 0 (radio + 1)).setLong 1 (aclSSID + 1)
    let mode ← apCfgAclModeGet radio aclSSID
    let type ← apCfgAclTypeGet radio aclSSID
    return (n.assign fun _ => { accessControlMode := mode, localMacMode := type }).sprintfUid 2)
    bsses (.zeroed 2 {})

/-! ### `wlanSettingTable` -/

/-- `wlasTbl_data` -/
structure WlasTblData where
  wirelessMode : Int := 0
  channel : Int := 0
  channelBandWidth : Int := 0
  region : Int := 0
  dot11mode : Int := 0
  guardInterval : Int := 0
  ctsProtectionMode : Int := 0
  beaconInterval : Int := 0
  dtimInterval : Int := 0
  rtsThreshold : Int := 0
  fragmentationThreshold : Int := 0
  isolutionBetweenSSID : Int := 0

/-- `switch (apCfgFreqSpecGet(radio))` -/
def wirelessModeOf (v : Int) : Int :=
  if v = modeSelect11B then 1 else if v = modeSelect11G then 2 else if v = modeSelect11N then 3
  else if v = modeSelect11Bg then 4 else 5

/-- The mode of a radio, `0` where it is switched off. -/
def currentModeGet (radio : Nat) : Cfg Int := do
  if (← apCfgWlanStateGet radio) ≠ 0 then return wirelessModeOf (← apCfgFreqSpecGet radio)
  else return 0

/-- The channel of a radio, `0` where it is chosen by itself. -/
def channelGet (radio : Nat) : Cfg Int := do
  if (← apCfgAutoChannelGet radio) ≠ 0 then return 0 else apCfgRadioChannelGet radio

/-- `loadvar_wlanSettingTable` -/
def loadvarWlanSettingTable : Cfg (List (Row WlasTblData)) :=
  eachRow (fun radio n => do
    let n := n.setLong 0 (radio + 1)
    let wirelessMode ← currentModeGet radio
    let channel ← channelGet radio
    let channelBandWidth ← apCfgChannelWidthModeGet radio
    let region ← apCfgCountryCodeGet
    let dot11mode ← scApCfg80211dEnabledGet radio
    let guardInterval ← scApCfgShortGIGet radio
    let ctsProtectionMode ← apCfgCTSModeGet radio
    let beaconInterval ← apCfgBeaconIntervalGet radio
    let dtimInterval ← scApCfgDtimIntervalGet radio
    let rtsThreshold ← apCfgRtsThresholdGet radio
    let fragmentationThreshold ← apCfgFragThresholdGet radio
    let isolutionBetweenSSID ← apCfgInterVapForwardingGet radio
    return (n.assign fun _ => {
      wirelessMode, channel, channelBandWidth, region, dot11mode, guardInterval, ctsProtectionMode,
      beaconInterval, dtimInterval, rtsThreshold, fragmentationThreshold,
      isolutionBetweenSSID }).sprintfUid 1)
    radios (.zeroed 1 {})

/-! ### `wirelessNetworkSSIDTable` -/

/-- `wlnsTbl_data` -/
structure WlnsTblData where
  currentSSID : Block := .zeroed 128
  currentSSIDMacAddress : Block := .zeroed 33
  currentSSIDSecurity : Block := .zeroed 33
  currentSSIDPriority : Block := .zeroed 33

/-- `getSecurityBuf`, of an authentication type -/
def securityBuf (v : Int) : CStr :=
  if v = apcfgAuthNone then .text "None"
  else if v = apcfgAuthOpenSystem ∨ v = apcfgAuthSharedKey ∨ v = apcfgAuthAuto then .text "WEP"
  else if v = apcfgAuthWpa then .text "WPA - 802.1x"
  else if v = apcfgAuthWpapsk then .text "WPA - PSK"
  else if v = apcfgAuthWpa2 then .text "WPA2 - 802.1x"
  else if v = apcfgAuthWpa2psk then .text "WPA2 - PSK"
  else if v = apcfgAuthWpaAuto then .text "WPA/WPA2 - 802.1x"
  else if v = apcfgAuthWpaAutoPsk then .text "WPA/WPA2 - PSK"
  else .text "802.1x"

/-- `apCfgActiveModeGet(radio,ssid)?get:other` -/
def whenActive {A : Type} (radio ssid : Nat) (get : Cfg A) (other : A) : Cfg A := do
  if (← apCfgActiveModeGet radio ssid) ≠ 0 then get else return other

/-- `convTable`: the character set of a country -/
def convTable : List (Int × CStr) := [
  (840, .text "CP1252"), (36, .text "CP1252"), (76, .text "CP1252"), (156, .text "CP936"),
  (410, .text "CP949"), (1702, .text "CP1252"), (208, .text "CP1252"), (1276, .text "CP1252"),
  (246, .text "CP1252"), (250, .text "CP1252"), (276, .text "CP1252"), (372, .text "CP1252"),
  (380, .text "CP1252"), (392, .text "CP932"), (528, .text "CP1252"), (554, .text "CP1252"),
  (578, .text "CP1252"), (724, .text "CP1252"), (752, .text "CP1252"), (756, .text "CP1252"),
  (826, .text "CP1252"), (484, .text "CP1252"), (630, .text "CP1252"), (1076, .text "CP1252")]

/-- `do_convert(LAN2UTF, inbuf, …)` -/
def doConvert (d : Device) (inbuf : CStr) : Cfg (Option CStr) := do
  let countryCode ← apCfgCountryCodeGet
  return (convTable.lookup countryCode).bind fun fromCes => d.libiconv fromCes inbuf

/-- The name of a network in UTF-8, or as it is stored where it is not converted into `128`
bytes. -/
def currentSsidGet (d : Device) (radio ssid : Nat) : Cfg CStr := do
  let pSrc ← apCfgSsidGet radio ssid
  let converted ← doConvert d pSrc
  return (converted.filter (·.length < 128)).getD pSrc

/-- `loadvar_wirelessNetworkSSIDTable` -/
def loadvarWirelessNetworkSSIDTable (d : Device) : Cfg (List (Row WlnsTblData)) :=
  eachRow (fun (radio, ssid) n => do
    let n := (n.setLong 0 (radio + 1)).setLong 1 (ssid + 1)
    let currentSSID ← whenActive radio ssid (currentSsidGet d radio ssid) (.text "")
    let mac ← whenActive radio ssid (pure (d.ifMac radio ssid)) (.text "N/A")
    let secBuffer ← apCfgAuthTypeGet radio ssid
    let security ← whenActive radio ssid (pure (securityBuf secBuffer)) (.text "")
    let priority ← apCfgPriorityGet radio ssid
    return (n.assign fun wlns => {
      currentSSID := wlns.currentSSID.strcpy currentSSID
      currentSSIDMacAddress := wlns.currentSSIDMacAddress.strcpy mac
      currentSSIDSecurity := wlns.currentSSIDSecurity.strcpy security
      currentSSIDPriority := wlns.currentSSIDPriority.strcpy
        (if priority = 0 then .text "disable" else .ofInt priority) }).sprintfUid 2)
    bsses (.zeroed 2 {})

/-! ### `wlanOperationTable` -/

/-- `wloTbl_data` -/
structure WloTblData where
  operationMode : Int := 0
  remoteRepeatMacAddress1 : Block := .zeroed 33
  remoteRepeatMacAddress2 : Block := .zeroed 33
  remoteRepeatMacAddress3 : Block := .zeroed 33
  remoteAPMacAddress : Block := .zeroed 33
  remoteBridgeMacAddress1 : Block := .zeroed 33
  remoteBridgeMacAddress2 : Block := .zeroed 33
  remoteBridgeMacAddress3 : Block := .zeroed 33
  remoteBridgeMacAddress4 : Block := .zeroed 33
  remoteAPSSID : Block := .zeroed 128
  remoteAPMac : Block := .zeroed 33
  rogueApType : Int := 0

/-- `switch(apCfgOpModeGet(radio))`: the values it knows are shown as they are, and any other as
`0`. -/
def operationModeOf (v : Int) : Int :=
  if v = cfgOpModeApPtp ∨ v = cfgOpModeMpt ∨ v = cfgOpModeApPtmp ∨ v = cfgOpModeUc ∨
    v = cfgOpModeUr ∨ v = cfgOpModeRogap then v else 0

/-- `loadvar_wlanOperationTable`, with `brMac[20]` -/
def loadvarWlanOperationTable : Cfg (List (Row WloTblData)) :=
  eachRow (fun radio n => do
    let n := n.setLong 0 (radio + 1)
    let mode ← apCfgOpModeGet radio
    let mac1 ← apCfgRemoteWbrMacAddrGet radio 0
    let mac2 ← apCfgRemoteWbrMacAddrGet radio 1
    let mac3 ← apCfgRemoteWbrMacAddrGet radio 2
    let apMac ← apCfgRemoteApMacAddrGet 20 radio
    let mac4 ← apCfgRemoteWbrMacAddrGet radio 3
    let ssid ← apCfgSsidGet radio 0
    let ucrMac ← apCfgUcrRemoteApMacAddrGet 20 radio
    let rogueApType ← scApCfgRogueApTypeGet
    return (n.assign fun wlo => {
      operationMode := operationModeOf mode
      remoteRepeatMacAddress1 := wlo.remoteRepeatMacAddress1.strcpy mac1
      remoteRepeatMacAddress2 := wlo.remoteRepeatMacAddress2.strcpy mac2
      remoteRepeatMacAddress3 := wlo.remoteRepeatMacAddress3.strcpy mac3
      remoteAPMacAddress := wlo.remoteAPMacAddress.strcpy apMac
      remoteBridgeMacAddress1 := wlo.remoteBridgeMacAddress1.strcpy mac1
      remoteBridgeMacAddress2 := wlo.remoteBridgeMacAddress2.strcpy mac2
      remoteBridgeMacAddress3 := wlo.remoteBridgeMacAddress3.strcpy mac3
      remoteBridgeMacAddress4 := wlo.remoteBridgeMacAddress4.strcpy mac4
      remoteAPSSID := wlo.remoteAPSSID.strcpy ssid
      remoteAPMac := wlo.remoteAPMac.strcpy ucrMac
      rogueApType }).sprintfUid 1)
    radios (.zeroed 1 {})

/-! ### `wlanWirelessClientListTable` -/

/-- `wlclTbl_data` -/
structure WlclTblData where
  clientMacAddress : Block := .zeroed 33
  clientRate : Block := .zeroed 16
  clientRssi : Block := .zeroed 16
  clientStatus : Block := .zeroed 32

/-- `p=strrchr(s,c); *p=0;`: the text before the last `c`, and the one at `p+1`. -/
def cutLast (c : Byte) (s : CStr) : Option (CStr × CStr) :=
  if c ∈ s.bytes then
    let behind := (s.bytes.reverse.takeWhile (· ≠ c)).length
    some (s.take (s.length - behind - 1), s.drop (s.length - behind))
  else none

/-- A row of the client list is filled and added. -/
def fillClient (n : Row WlclTblData) (count : Nat) (mac rate rssi status : CStr) :
    Row WlclTblData :=
  ((n.setLong 2 count).assign fun wlcl => {
    clientMacAddress := wlcl.clientMacAddress.strcpy mac
    clientRate := wlcl.clientRate.strcpy rate
    clientRssi := wlcl.clientRssi.strcpy rssi
    clientStatus := wlcl.clientStatus.strcpy status }).sprintfUid 3

/-- What became of a line of a file. -/
inductive Parsed (A : Type) where
  /-- `continue;` -/
  | skip
  /-- `return 0;` -/
  | quit
  /-- `fgets` wrote behind the end of `buffer`. -/
  | overrun
  | row (a : A)

/-- How the reading of a file ended: at its end, at a line that makes the loader return, or at one
that overruns its buffer. -/
inductive Ending where
  | eof
  | quit
  | overrun
deriving DecidableEq

/-- A line of `/tmp/aclOtherSta`: the address, the rate and the signal. -/
def parseScsta (buffer : CStr) : Parsed (CStr × Int × Int) :=
  if buffer.length < 12 then .skip else
  match cutLast 0x2c (buffer.take (buffer.length - 1)) with
  | none => .quit
  | some (buffer, rssi) =>
    match cutLast 0x2c buffer with
    | none => .quit
    | some (buffer, rate) => .row (scToUppers buffer, atoi rate, atoi rssi - 95)

/-- A line of `/tmp/connecting_cfb`: the address and the status, if it is of the VAP.  It is read
with `fgets(buffer,255,fp)` into `buffer[130]`. -/
def parseConnecting (ssid : Nat) (buffer : CStr) : Parsed (CStr × Int) :=
  if 130 ≤ buffer.length then .overrun else
  if buffer.length < 15 then .skip else
  match cutLast 0x7c (buffer.take (buffer.length - 1)) with
  | none => .quit
  | some (buffer, p) =>
    let status := atoi p
    if status ≠ 0 ∧ status ≠ 1 then .skip else
    match cutLast 0x5d buffer with
    | none => .quit
    | some (buffer, p) =>
      let id := atoi p
      if id < 0 ∨ id ≠ ssid then .skip else
      match cutLast 0x5b buffer with
      | none => .quit
      | some (_, p) => .row (scToUppers p, status)

/-- `while(!feof(fp))`: the rows of a file, and how it ended. -/
def clientLines {A : Type} (parse : CStr → Parsed A)
    (fill : A → Row WlclTblData → Nat → Row WlclTblData) :
    List CStr → Row WlclTblData → Nat → List (Row WlclTblData) × Ending
  | [], _, _ => ([], .eof)
  | line :: lines, n, count =>
    match parse line with
    | .skip => clientLines parse fill lines n count
    | .quit => ([], .quit)
    | .overrun => ([], .overrun)
    | .row a =>
      let n := fill a n count
      let (rows, ending) := clientLines parse fill lines n (count + 1)
      (n :: rows, ending)

/-- The rows of the first file of a VAP. -/
def scstaRows : List CStr → Row WlclTblData → Nat → List (Row WlclTblData) × Ending :=
  clientLines parseScsta fun (mac, rate, rssi) n count =>
    fillClient n count mac ((CStr.ofInt rate).append (.text " Mbps"))
      ((CStr.ofInt rssi).append (.text " dBm")) (.text "Connected")

/-- The rows of the second file of a VAP. -/
def connectingRows (ssid : Nat) :
    List CStr → Row WlclTblData → Nat → List (Row WlclTblData) × Ending :=
  clientLines (parseConnecting ssid) fun (mac, status) n count =>
    fillClient n count mac (.text " ") (.text " ")
      (.text (if status = 0 then "Connecting" else "Associating"))

/-- What is done behind the rows of a file: what follows it, unless the loader returned from it. -/
def Ending.behind (rows : List (Row WlclTblData)) (more : Cfg (List (Row WlclTblData))) :
    Ending → Cfg (List (Row WlclTblData))
  | .eof => do return rows ++ (← more)
  | .quit => return rows
  | .overrun => Act.fault (.outside .array)

/-- The VAPs of the radio one after the other, with the number of the next row. -/
def clientVaps (d : Device) (radio : Nat) :
    List Nat → Row WlclTblData → Nat → Cfg (List (Row WlclTblData))
  | [], _, _ => return []
  | ssid :: ssids, n, count => do
    let n := n.setLong 1 (ssid + 1)
    if (← apCfgWlanStateGet radio) = 0 then return []
    else if (← apCfgActiveModeGet radio ssid) = 0 then return []
    else
    let (rows, ending) := scstaRows ((d.aclOtherSta radio ssid).getD []) n count
    let (rows', ending') := connectingRows ssid ((d.connectingCfb radio ssid).getD [])
      (rows.getLast?.getD n) (count + rows.length)
    ending.behind rows <| ending'.behind rows' <|
      clientVaps d radio ssids ((rows ++ rows').getLast?.getD n) (count + (rows ++ rows').length)

/-- `loadvar_wlanWirelessClientListTable` -/
def loadvarWlanWirelessClientListTable (d : Device) : Cfg (List (Row WlclTblData)) :=
  clientVaps d 0 vaps ((Row.zeroed 3 {}).setLong 0 1) 1

/-! ### `wirelessStatisticsTable` -/

/-- `wlsTbl_data` -/
structure WlsTblData where
  ssidIPAddress : InAddr := .zero
  ssidMacAddress : Block := .zeroed 33
  ssidConnectionStatus : Int := 0
  ssidRecvPackets : Block := .zeroed 33
  ssidSendPackets : Block := .zeroed 33
  ssidRecvByets : Block := .zeroed 33
  ssidSendByets : Block := .zeroed 33
  ssidRecvErrorPackets : Block := .zeroed 33
  ssidRecvDropPackets : Block := .zeroed 33

/-- `getVapNumber` -/
def getVapNumber (d : Device) (unit vap : Nat) : Cfg Int := do
  if (← apCfgActiveModeGet unit vap) = 0 then return -1
  else return if d.hasStations unit vap then 1 else 0

/-- `loadvar_wirelessStatisticsTable` -/
def loadvarWirelessStatisticsTable (d : Device) : Cfg (List (Row WlsTblData)) :=
  eachRow (fun (radio, ssid) n => do
    let n := (n.setLong 0 (radio + 1)).setLong 1 (ssid + 1)
    let ip ← apCfgIpAddrGet
    let mac ← whenActive radio ssid (pure (d.ifMac radio ssid)) (.text "None")
    let vapNumber ← getVapNumber d radio ssid
    let info := d.ifAdvInfo radio ssid
    let count (v : Nat) : Cfg CStr := whenActive radio ssid (pure (printLu v)) (.text "N/A")
    let recvPackets ← count info.rxPackets.toNat
    let sendPackets ← count info.txPackets.toNat
    let recvByets ← count info.rxBytes.toNat
    let sendByets ← count info.txBytes.toNat
    let errors ← count info.errors.toNat
    let dropped ← count info.dropped.toNat
    return (n.assign fun wls => {
      ssidIPAddress := ip
      ssidMacAddress := wls.ssidMacAddress.strcpy mac
      ssidConnectionStatus := if vapNumber = -1 then 0 else if vapNumber = 0 then 1 else 2
      ssidRecvPackets := wls.ssidRecvPackets.strcpy recvPackets
      ssidSendPackets := wls.ssidSendPackets.strcpy sendPackets
      ssidRecvByets := wls.ssidRecvByets.strcpy recvByets
      ssidSendByets := wls.ssidSendByets.strcpy sendByets
      ssidRecvErrorPackets := wls.ssidRecvErrorPackets.strcpy errors
      ssidRecvDropPackets := wls.ssidRecvDropPackets.strcpy dropped }).sprintfUid 2)
    bsses (.zeroed 2 {})

/-! ### `vlanQOSTable` -/

/-- `vqosTbl_data` -/
structure VqosTblData where
  profileVlan : Int := 0
  profilePriority : Int := 0
  profileWMM : Int := 0

/-- `loadvar_vlanQOSTable` -/
def loadvarVlanQOSTable : Cfg (List (Row VqosTblData)) :=
  eachRow (fun (radio, profileSSID) n => do
    let n := (n.setLong 0 (radio + 1)).setLong 1 (profileSSID + 1)
    let profileVlan ← apCfgVlanPvidGet radio profileSSID
    let profilePriority ← apCfgPriorityGet radio profileSSID
    let profileWMM ← apCfgWmeGet radio profileSSID
    return (n.assign fun _ => { profileVlan, profilePriority, profileWMM }).sprintfUid 2)
    bsses (.zeroed 2 {})

/-! ### `wlanSecurityTable` -/

/-- `lasTbl_data` -/
structure LasTblData where
  ssid : Block := .zeroed 255
  ssidBroadcastMode : Int := 0
  ssidIsolationWithinSSID : Int := 0
  securityMode : Int := 0
  wepKeyIndex : Int := 0
  wepKeyLength : Int := 0
  wepKey1 : Block := .zeroed 255
  wepKey2 : Block := .zeroed 255
  wepKey3 : Block := .zeroed 255
  wepKey4 : Block := .zeroed 255
  wpaPSK : Block := .zeroed 255
  wpaKeyRenewal : Int := 0

/-- `loadvar_wlanSecurityTable` -/
def loadvarWlanSecurityTable : Cfg (List (Row LasTblData)) :=
  eachRow (fun (radio, wlanSSID) n => do
    let n := (n.setLong 0 (radio + 1)).setLong 1 (wlanSSID + 1)
    let number (get : Cfg Int) : Cfg Int := whenActive radio wlanSSID get 0
    let text (get : Cfg CStr) : Cfg CStr := whenActive radio wlanSSID get (.text "")
    let ssid ← text (apCfgSsidGet radio wlanSSID)
    let ssidBroadcastMode ← number do
      return if (← apCfgSsidModeGet radio wlanSSID) ≠ 0 then 0 else 1
    let ssidIsolationWithinSSID ← number (apCfgIntraVapForwardingGet radio wlanSSID)
    let securityMode ← number (apCfgAuthTypeGet radio wlanSSID)
    let wepKeyIndex ← number (apCfgDefKeyGet radio wlanSSID)
    let wepKeyLength ← number (apCfgKeyBitLenGet radio wlanSSID)
    let wepKey1 ← text (apCfgKeyValGet radio wlanSSID 1)
    let wepKey2 ← text (apCfgKeyValGet radio wlanSSID 2)
    let wepKey3 ← text (apCfgKeyValGet radio wlanSSID 3)
    let wepKey4 ← text (apCfgKeyValGet radio wlanSSID 4)
    let wpaPSK ← text (apCfgPassphraseGet radio wlanSSID)
    let wpaKeyRenewal ← number (apCfgGroupKeyUpdateIntervalGet radio wlanSSID)
    return (n.assign fun las => {
      ssid := las.ssid.strcpy ssid
      ssidBroadcastMode, ssidIsolationWithinSSID, securityMode, wepKeyIndex, wepKeyLength
      wepKey1 := las.wepKey1.strcpy wepKey1
      wepKey2 := las.wepKey2.strcpy wepKey2
      wepKey3 := las.wepKey3.strcpy wepKey3
      wepKey4 := las.wepKey4.strcpy wepKey4
      wpaPSK := las.wpaPSK.strcpy wpaPSK
      wpaKeyRenewal }).sprintfUid 2)
    bsses (.zeroed 2 {})

/-! ### `wlanRadiusTable` -/

/-- `wlarTbl_data` -/
structure WlarTblData where
  radiusAuthPrimaryServerIP : InAddr := .zero
  radiusAuthPrimaryServerPort : Int := 0
  radiusAuthPrimaryServerKey : Block := .zeroed 128
  radiusAuthSecondaryServerIP : InAddr := .zero
  radiusAuthSecondaryServerPort : Int := 0
  radiusAuthSecondaryServerKey : Block := .zeroed 128

/-- `inet_addr` of the address of a server, or of `0.0.0.0` where there is none -/
def serverIP (p : CStr) : InAddr := inetAddr (if p.length ≠ 0 then p else .text "0.0.0.0")

/-- `loadvar_wlanRadiusTable`, which clears `nlas` and fills `nwlar` -/
def loadvarWlanRadiusTable (nwlar : Row WlarTblData) : Cfg (List (Row WlarTblData)) :=
  eachRow (fun (radio, radius) n => do
    let n := (n.setLong 0 (radio + 1)).setLong 1 (radius + 1)
    let server ← apCfgRadiusServerGet radio radius
    let port ← apCfgRadiusPortGet radio radius
    let key ← apCfgRadiusSecretGet radio radius
    let backupServer ← apCfgBackupRadiusServerGet radio radius
    let backupPort ← apCfgBackupRadiusPortGet radio radius
    let backupKey ← apCfgBackupRadiusSecretGet radio radius
    return (n.assign fun wlar => {
      radiusAuthPrimaryServerIP := serverIP server
      radiusAuthPrimaryServerPort := port
      radiusAuthPrimaryServerKey := wlar.radiusAuthPrimaryServerKey.strcpy key
      radiusAuthSecondaryServerIP := serverIP backupServer
      radiusAuthSecondaryServerPort := backupPort
      radiusAuthSecondaryServerKey :=
        wlar.radiusAuthSecondaryServerKey.strcpy backupKey }).sprintfUid 2)
    (radios.map fun radio => (radio, 0)) nwlar

/-! ### `wlanAccessControlMACListTable` -/

/-- `acmlTbl_data` -/
structure AcmlTblData where
  aclMac : Block := .zeroed 33

/-- An entry of the list of a VAP: `hasChanged` finds the struct changed, since it holds indices
that are not zero. -/
def fillAcl (radio ssid : Nat) (entry : CfgAclEntry × Nat) (n : Row AcmlTblData) :
    Row AcmlTblData :=
  ((((n.setLong 0 (radio + 1)).setLong 1 (ssid + 1)).setLong 2 (entry.2 + 1)).assign fun acml =>
    { aclMac := (acml.aclMac.memset 33).memcpy entry.1.mac.bytes }).sprintfUid 3

/-- `loadvar_wlanAccessControlMACListTable`.  `scAclBufFree` follows each `scAclBufGet`, which
therefore does not find the list of the VAP in use. -/
def loadvarWlanAccessControlMACListTable : Cfg (List (Row AcmlTblData)) :=
  eachRows (fun (radio, ssid) n => do
    let pScAcl ← scAclBufGet radio ssid false
    eachRow (fun entry n => return fillAcl radio ssid entry n) (pScAcl.getD []).zipIdx n)
    bsses (.zeroed 3 {})

/-! ### `wlanLegalApListTable` -/

/-- `lalTbl_data` -/
structure LalTblData where
  apMAC : Block := .zeroed 33

/-- `for(curIndex=0;curIndex<=10;curIndex++)`, which ends at `break`. -/
def legalApRows (p : CStr) : List Nat → Row LalTblData → List (Row LalTblData)
  | [], _ => []
  | curIndex :: indices, n =>
    if p.length < (curIndex + 1) * 13 then []
    else
      let n := ((n.setLong 0 (curIndex + 1)).assign fun lal =>
        { apMAC := lal.apMAC.memcpy ((p.bytes.drop (curIndex * 13)).take 12) }).sprintfUid 1
      n :: legalApRows p indices n

/-- `loadvar_wlanLegalApListTable` -/
def loadvarWlanLegalApListTable : Cfg (List (Row LalTblData)) := do
  let p ← scApCfgLegalApListGet
  return legalApRows p (List.range 11) (.zeroed 1 {})

/-! ### `wirelessNetworkTable` -/

/-- `wlnwTbl_data` -/
structure WlnwTblData where
  currentMode : Int := 0
  currentChannel : Block := .zeroed 33
  currentVlanTrunk : Int := 0
  currentPriority : Int := 0

/-- `loadvar_wirelessNetworkTable` -/
def loadvarWirelessNetworkTable : Cfg (List (Row WlnwTblData)) :=
  eachRow (fun radio n => do
    let n := n.setLong 0 (radio + 1)
    let currentMode ← currentModeGet radio
    let channel ← apCfgRadioChannelGet radio
    let vlanMode ← apCfgVlanModeGet
    return (n.assign fun wlnw => {
      currentMode
      currentChannel := wlnw.currentChannel.strcpy (.ofInt channel)
      currentVlanTrunk := vlanMode
      currentPriority := vlanMode }).sprintfUid 1)
    radios (.zeroed 1 {})

end Wap4410n.Snmp
