import Wap4410n.Apcfg.Acl
import Wap4410n.Apcfg.LegalAp
import Wap4410n.Apcfg.OpMode
import Wap4410n.Snmp.Scalars

/-!
# Snmp — the write methods of the tables

The rows of the tables are the radio and its VAPs, `unit` and `vap` the numbers of a row, less 1.
Some checks ask for the operation mode, in `RESERVE1`, before another variable of the request may
change it.
-/

namespace Wap4410n.Snmp

open CLib Apcfg

/-! ### Methods -/

/-- A method whose check may read the settings. -/
def writeRow (check : VarBind → Cfg SnmpErr) (put : VarBind → Cfg Unit) (v : VarBind) :
    WriteMethod Config Buf
  | .reserve1 => check v
  | .action => do
    put v
    return .noError
  | .commit => do
    apcfgSubmit
    return .noError
  | .reserve2 | .free | .undo => return .noError

/-- What is checked behind a check that passed. -/
def andThen (status : SnmpErr) (next : Cfg SnmpErr) : Cfg SnmpErr :=
  if status ≠ .noError then return status else next

/-- `if (vap != 0 && apCfgOpModeGet(unit) != CFG_OP_MODE_AP) return SNMP_ERR_WRONGVALUE;` -/
def onlyAp (unit vap : Nat) : Cfg SnmpErr :=
  if vap = 0 then return .noError
  else do
    let mode ← apCfgOpModeGet unit
    return if mode ≠ cfgOpModeAp then .wrongValue else .noError

/-- The method of a number of a VAP that exists in mode `CFG_OP_MODE_AP` only. -/
def writeVapLong (inRange : Int → Bool) (vap : Nat) (put : Int → Cfg Unit) :
    VarBind → WriteMethod Config Buf :=
  writeRow (fun v => andThen (checkLong inRange v) (onlyAp 0 vap)) fun v => put v.long.toInt

/-- The check of an address of `lo` to 4 bytes. -/
def checkAddr (lo : Nat) (v : VarBind) : SnmpErr :=
  if v.type ≠ asnIpaddress then .wrongType
  else if v.len < lo ∨ 4 < v.len then .wrongLength
  else if scValidIpAddress v.word then .noError
  else .wrongValue

/-! ### The radio -/

/-- `write_wirelessMode` -/
def writeWirelessMode (unit : Nat) : VarBind → WriteMethod Config Buf :=
  writeLong (fun v => ¬ (v < 0 ∨ 5 < v)) fun v => do
    Act.when (v ≠ 0) (Act.ignore (apCfgWlanStateSet unit 1))
    if v = 0 then Act.ignore (apCfgWlanStateSet unit v)
    else if v = 1 then Act.ignore (apCfgFreqSpecSet unit modeSelect11B)
    else if v = 2 then Act.ignore (apCfgFreqSpecSet unit modeSelect11G)
    else if v = 3 then Act.ignore (apCfgFreqSpecSet unit modeSelect11N)
    else if v = 4 then Act.ignore (apCfgFreqSpecSet unit modeSelect11Bg)
    else Act.when (v = 5) (Act.ignore (apCfgFreqSpecSet unit modeSelect11Bgn))

/-- `write_channel`: `maxChannel` is the last line of `/tmp/chan_list` before `current:`, or what
the stack held. -/
def writeChannel (maxChannel : Int) (unit : Nat) : VarBind → WriteMethod Config Buf :=
  writeLong (fun v => ¬ (v < 0 ∨ maxChannel < v)) fun v => do
    Act.ignore (apCfgAutoChannelSet unit (if v = 0 then 1 else 0))
    Act.when (v ≠ 0) (Act.ignore (apCfgRadioChannelSet unit v))

/-- `write_channelBandwidth` -/
def writeChannelBandwidth (unit : Nat) : VarBind → WriteMethod Config Buf :=
  writeRow (fun v => andThen (checkLong (fun v => v = 0 || v = 1 || v = 2) v) <|
      if v.long.toInt = 0 then return .noError
      else do
        let mode ← apCfgOpModeGet unit
        return if mode = cfgOpModeRogap ∨ mode = cfgOpModeUc ∨ mode = cfgOpModeUr then .wrongValue
          else .noError)
    fun v => Act.when (v.long.toInt = 0 ∨ v.long.toInt = 1 ∨ v.long.toInt = 2)
      (Act.ignore (apCfgChannelWidthModeSet unit v.long.toInt))

/-- `write_region`: `countries` are the numbers of `/tmp/country_list`. -/
def writeRegion (countries : List Int) (known : Int → Bool) : VarBind → WriteMethod Config Buf :=
  writeLong (fun v => countries.contains v) fun v => Act.ignore (apCfgCountryCodeSet known v)

/-- `write_dot11dMode` -/
def writeDot11dMode (unit : Nat) : VarBind → WriteMethod Config Buf :=
  writeFlag (scApCfg80211dEnabledSet unit)

/-- `write_guardInterval` -/
def writeGuardInterval (unit : Nat) : VarBind → WriteMethod Config Buf :=
  writeRow (fun v => andThen (checkLong (fun v => v = 0 || v = 1 || v = 2) v) do
      let width ← apCfgChannelWidthModeGet unit
      return if width = 0 then .wrongValue else .noError)
    fun v => Act.ignore (scApCfgShortGISet unit v.long.toInt)

/-- `write_ctsProtectionMode` -/
def writeCtsProtectionMode (unit : Nat) : VarBind → WriteMethod Config Buf :=
  writeFlag (apCfgCTSModeSet unit)

/-- `write_beaconInterval` -/
def writeBeaconInterval (unit : Nat) : VarBind → WriteMethod Config Buf :=
  writeLong (fun v => ¬ (v < 20 ∨ 1000 < v)) fun v => Act.ignore (apCfgBeaconIntervalSet unit v)

/-- `write_dtimInterval` -/
def writeDtimInterval (unit : Nat) : VarBind → WriteMethod Config Buf :=
  writeLong (fun v => ¬ (v < 1 ∨ 255 < v)) fun v => Act.ignore (scApCfgDtimIntervalSet unit v)

/-- `write_rtsThreshold` -/
def writeRtsThreshold (unit : Nat) : VarBind → WriteMethod Config Buf :=
  writeLong (fun v => ¬ (v < 1 ∨ 2347 < v)) fun v => Act.ignore (apCfgRtsThresholdSet unit v)

/-- `write_fragmentationThreshold` -/
def writeFragmentationThreshold (unit : Nat) : VarBind → WriteMethod Config Buf :=
  writeLong (fun v => ¬ (v < 256 ∨ 2346 < v)) fun v => Act.ignore (apCfgFragThresholdSet unit v)

/-- `write_isolationBetweenSSID` -/
def writeIsolationBetweenSSID (unit : Nat) : VarBind → WriteMethod Config Buf :=
  writeFlag (apCfgInterVapForwardingSet unit)

/-- `write_operationMode` -/
def writeOperationMode (unit : Nat) : VarBind → WriteMethod Config Buf :=
  writeLong (fun v => [0, 5, 3, 6, 7, 8, 9].contains v) fun v => Act.ignore (apCfgOpModeSet unit v)

/-- `write_remoteAPSSID` -/
def writeRemoteAPSSID (unit : Nat) : VarBind → WriteMethod Config Buf :=
  writeText 1 32 (apCfgSsidSet unit 0)

/-- `write_rogueApType` -/
def writeRogueApType : VarBind → WriteMethod Config Buf :=
  writeLong (fun v => v = 1 || v = 2 || v = 3) fun v => Act.ignore (scApCfgRogueApTypeSet v)

/-- The method of the address of a remote access point, with colons or without. -/
def writeRemoteAp (unit : Nat) : VarBind → WriteMethod Config Buf :=
  writeRow (fun v =>
      if v.type ≠ asnOctetStr then return .wrongType
      else if v.len ≠ 0 ∧ v.len ≠ 12 ∧ v.len ≠ 17 then return .wrongLength
      else Act.lift (brMac v.octets >>= checkMacAddress))
    fun v => do
      let mac ← Act.lift (brMac v.octets)
      if mac.length = 17 then Act.ignore (apCfgRemoteApMacAddrSet unit mac)
      else if mac.length = 12 then
        Act.ignore (apCfgRemoteApMacAddrSet unit (.before ((colons 6 mac.bytes).take 17)))
      else Act.ignore (apCfgRemoteApMacAddrSet unit (.text "00:00:00:00:00:00"))

/-- `write_remoteAPMacAddress` -/
def writeRemoteAPMacAddress : Nat → VarBind → WriteMethod Config Buf := writeRemoteAp

/-- `write_remoteAPMac` -/
def writeRemoteAPMac : Nat → VarBind → WriteMethod Config Buf := writeRemoteAp

/-! ### The VAPs -/

/-- `write_accessControlMode` -/
def writeAccessControlMode (unit vap : Nat) : VarBind → WriteMethod Config Buf :=
  writeLong (fun v => v = 0 || v = 1 || v = 2) fun v => Act.ignore (apCfgAclModeSet unit vap v)

/-- `write_localMacMode` -/
def writeLocalMacMode (unit vap : Nat) : VarBind → WriteMethod Config Buf :=
  writeFlag (apCfgAclTypeSet unit vap)

/-- `write_profileVlan` -/
def writeProfileVlan (unit vap : Nat) : VarBind → WriteMethod Config Buf :=
  writeLong (fun v => ¬ (v < 1 ∨ 0x0FFE < v)) fun v =>
    Act.when (1 ≤ v ∧ v ≤ 0x0FFE) (Act.ignore (apCfgVlanPvidSet unit vap v))

/-- `write_profilePriority` -/
def writeProfilePriority (unit vap : Nat) : VarBind → WriteMethod Config Buf :=
  writeLong (fun v => ¬ (v < 0 ∨ 7 < v)) fun v => Act.ignore (apCfgPrioritySet unit vap v)

/-- `write_profileWMM` -/
def writeProfileWMM (unit vap : Nat) : VarBind → WriteMethod Config Buf :=
  writeVapLong isFlag vap fun v => Act.ignore (apCfgWmeSet unit vap v)

/-- `write_ssid` -/
def writeSsid (unit vap : Nat) : VarBind → WriteMethod Config Buf :=
  writeRow (fun v => andThen (checkText 1 32 (fun _ => true) v) (onlyAp 0 vap)) fun v =>
    Act.when (1 ≤ v.len ∧ v.len ≤ 32) do
      Act.ignore (apCfgSsidSet unit vap (.before v.octets))
      Act.ignore (apCfgActiveModeSet unit vap 1)

/-- `write_ssidBroadcastMode` -/
def writeSsidBroadcastMode (unit vap : Nat) : VarBind → WriteMethod Config Buf :=
  writeVapLong isFlag vap fun v => Act.when (v = 0 ∨ v = 1)
    (Act.ignore (apCfgSsidModeSet unit vap (if v = 0 then 1 else 0)))

/-- `write_ssidIsolationWithinSSID` -/
def writeSsidIsolationWithinSSID (unit vap : Nat) : VarBind → WriteMethod Config Buf :=
  writeVapLong isFlag vap fun v => Act.when (v = 0 ∨ v = 1)
    (Act.ignore (apCfgIntraVapForwardingSet unit vap v))

/-- `write_securityMode` -/
def writeSecurityMode (unit vap : Nat) : VarBind → WriteMethod Config Buf :=
  writeRow (fun v => andThen (checkLong (fun v => [0, 1, 2, 4, 5, 6, 7, 8, 9, 10].contains v) v) do
      let status ← onlyAp unit vap
      andThen status do
        let mode ← apCfgOpModeGet unit
        return if (mode = cfgOpModeUc ∨ mode = cfgOpModeUr) ∧ v.long.toInt ∈
          [4, 6, 8, 10] then .wrongValue
          else .noError)
    fun v => Act.when (0 ≤ v.long.toInt ∧ v.long.toInt ≤ 10)
      (Act.ignore (apCfgAuthTypeSet unit vap v.long.toInt))

/-- `write_wepKeyIndex` -/
def writeWepKeyIndex (unit vap : Nat) : VarBind → WriteMethod Config Buf :=
  writeVapLong (fun v => ¬ (v < 1 ∨ 4 < v)) vap fun v => Act.ignore (apCfgDefKeySet unit vap v)

/-- `write_wepKeyLength`: another length is the wrong length. -/
def writeWepKeyLength (unit vap : Nat) : VarBind → WriteMethod Config Buf :=
  writeRow (fun v =>
      if v.type ≠ asnInteger then return .wrongType
      else if v.long.toInt ≠ 40 ∧ v.long.toInt ≠ 104 then return .wrongLength
      else onlyAp 0 vap)
    fun v => Act.when (v.long.toInt = 40 ∨ v.long.toInt = 104)
      (Act.ignore (apCfgKeyBitLenSet unit vap v.long.toInt))

/-- `('0'<=c && c<='9') || ('a'<=c && c<='f') || ('A'<=c && c<='F')` -/
def isKeyDigit (c : Byte) : Bool :=
  (0x30 ≤ c && c ≤ 0x39) || (0x61 ≤ c && c ≤ 0x66) || (0x41 ≤ c && c ≤ 0x46)

/-- The method of a key. -/
def writeWepKey (keyId unit vap : Nat) : VarBind → WriteMethod Config Buf :=
  writeRow (fun v =>
      if v.type ≠ asnOctetStr then return .wrongType
      else if v.len ≠ 10 ∧ v.len ≠ 26 then return .wrongLength
      else if ¬ v.octets.all isKeyDigit then return .wrongValue
      else onlyAp 0 vap)
    fun v => Act.when (v.len = 10 ∨ v.len = 26)
      (Act.ignore (apCfgKeyValSet unit vap keyId (.before v.octets)))

/-- `write_wepKey1` -/
def writeWepKey1 : Nat → Nat → VarBind → WriteMethod Config Buf := writeWepKey 1

/-- `write_wepKey2` -/
def writeWepKey2 : Nat → Nat → VarBind → WriteMethod Config Buf := writeWepKey 2

/-- `write_wepKey3` -/
def writeWepKey3 : Nat → Nat → VarBind → WriteMethod Config Buf := writeWepKey 3

/-- `write_wepKey4` -/
def writeWepKey4 : Nat → Nat → VarBind → WriteMethod Config Buf := writeWepKey 4

/-- `write_wpaPSK` -/
def writeWpaPSK (unit vap : Nat) : VarBind → WriteMethod Config Buf :=
  writeRow (fun v => andThen (checkText 8 63 (fun _ => true) v) (onlyAp 0 vap)) fun v =>
    Act.when (8 ≤ v.len ∧ v.len ≤ 63) (Act.ignore (apCfgPassphraseSet unit vap (.before v.octets)))

/-- `write_wpaKeyRenewal` -/
def writeWpaKeyRenewal (unit vap : Nat) : VarBind → WriteMethod Config Buf :=
  writeVapLong (fun v => ¬ (v < 600 ∨ 3600 < v)) vap fun v =>
    Act.when (600 ≤ v ∧ v ≤ 3600) (Act.ignore (apCfgGroupKeyUpdateIntervalSet unit vap v))

/-- `write_radiusAuthPrimaryServerIP`, which makes the server the name server, too -/
def writeRadiusAuthPrimaryServerIP (unit vap : Nat) : VarBind → WriteMethod Config Buf :=
  writeValue (checkAddr 1) fun v => do
    Act.ignore (apCfgNameSrvSet (inetNtoa v.word))
    Act.ignore (apCfgRadiusServerSet unit vap (inetNtoa v.word))

/-- `write_radiusAuthPrimaryServerPort` -/
def writeRadiusAuthPrimaryServerPort (unit vap : Nat) : VarBind → WriteMethod Config Buf :=
  writeLong (fun v => ¬ (v < 1 ∨ 65534 < v)) fun v => Act.ignore (apCfgRadiusPortSet unit vap v)

/-- `write_radiusAuthPrimaryServerKey` -/
def writeRadiusAuthPrimaryServerKey (unit vap : Nat) : VarBind → WriteMethod Config Buf :=
  writeText 1 64 (apCfgRadiusSecretSet unit vap)

/-- `write_radiusAuthSecondaryServerIP`, which makes the server the name server, too -/
def writeRadiusAuthSecondaryServerIP (unit vap : Nat) : VarBind → WriteMethod Config Buf :=
  writeValue (checkAddr 0) fun v => do
    Act.ignore (apCfgNameSrvSet (inetNtoa v.word))
    Act.ignore (apCfgBackupRadiusServerSet unit vap (inetNtoa v.word))

/-- `write_radiusAuthSecondaryServerPort` -/
def writeRadiusAuthSecondaryServerPort (unit vap : Nat) : VarBind → WriteMethod Config Buf :=
  writeLong (fun v => ¬ (v < 0 ∨ 65535 < v))
    fun v => Act.ignore (apCfgBackupRadiusPortSet unit vap v)

/-- `write_radiusAuthSecondaryServerKey` -/
def writeRadiusAuthSecondaryServerKey (unit vap : Nat) : VarBind → WriteMethod Config Buf :=
  writeText 1 64 (apCfgBackupRadiusSecretSet unit vap)

/-! ### The lists -/

/-- `write_aclMac`: the number of the row is taken for the radio, and is not lessened. -/
def writeAclMac (row : Nat) : VarBind → WriteMethod Config Buf :=
  writeRow (fun v =>
      if v.type ≠ asnOctetStr then return .wrongType
      else if v.len ≠ 17 then return .wrongLength
      else return .noError)
    fun v => Act.ignore (apCfgAclAdd row 0 (.before v.octets) (.text "unknown") 1)

/-- `write_apMAC` -/
def writeApMAC : VarBind → WriteMethod Config Buf :=
  writeRow (fun v =>
      if v.type ≠ asnOctetStr then return .wrongType
      else if v.len ≠ 0 ∧ v.len ≠ 12 ∧ v.len ≠ 17 then return .wrongLength
      else return .noError)
    fun v => do
      let mac ← Act.lift (brMac v.octets)
      if mac.length = 17 then Act.ignore (scApCfgLegalApListSet mac)
      else if mac.length =
        12 then Act.ignore (scApCfgLegalApListSet (.before ((colons 6 mac.bytes).take 17)))
      else Act.ignore (scApCfgLegalApListSet mac)

/-! ### The objects -/

/-- What the agent reads besides the settings: the stack, `/tmp/chan_list`, `/tmp/country_list`, and
the countries that the driver knows. -/
structure Surroundings where
  stack : Nat → Byte
  maxChannel : Int
  countries : List Int
  known : Int → Bool

/-- The objects of the radio. -/
inductive RadioObject where
  | wirelessMode | channel | channelBandwidth | region | dot11dMode | guardInterval
  | ctsProtectionMode | beaconInterval | dtimInterval | rtsThreshold | fragmentationThreshold
  | isolationBetweenSSID | operationMode | remoteAPSSID | rogueApType | remoteAPMacAddress
  | remoteAPMac
  | remoteMac (h : RemoteMac)

/-- The objects of a VAP. -/
inductive VapObject where
  | accessControlMode | localMacMode | profileVlan | profilePriority | profileWMM | ssid
  | ssidBroadcastMode | ssidIsolationWithinSSID | securityMode | wepKeyIndex | wepKeyLength
  | wepKey1 | wepKey2 | wepKey3 | wepKey4 | wpaPSK | wpaKeyRenewal
  | radiusAuthPrimaryServerIP | radiusAuthPrimaryServerPort | radiusAuthPrimaryServerKey
  | radiusAuthSecondaryServerIP | radiusAuthSecondaryServerPort | radiusAuthSecondaryServerKey

/-- The objects that can be set. -/
inductive Object where
  | scalar (s : Scalar)
  | bound (b : Bound)
  | radio (o : RadioObject)
  | vap (o : VapObject) (vap : Nat)
  | aclMac (row : Nat)
  | apMAC

/-- The write method of an object of the radio. -/
def RadioObject.write (env : Surroundings) : RadioObject → VarBind → WriteMethod Config Buf
  | .wirelessMode => writeWirelessMode 0
  | .channel => writeChannel env.maxChannel 0
  | .channelBandwidth => writeChannelBandwidth 0
  | .region => writeRegion env.countries env.known
  | .dot11dMode => writeDot11dMode 0
  | .guardInterval => writeGuardInterval 0
  | .ctsProtectionMode => writeCtsProtectionMode 0
  | .beaconInterval => writeBeaconInterval 0
  | .dtimInterval => writeDtimInterval 0
  | .rtsThreshold => writeRtsThreshold 0
  | .fragmentationThreshold => writeFragmentationThreshold 0
  | .isolationBetweenSSID => writeIsolationBetweenSSID 0
  | .operationMode => writeOperationMode 0
  | .remoteAPSSID => writeRemoteAPSSID 0
  | .rogueApType => writeRogueApType
  | .remoteAPMacAddress => writeRemoteAPMacAddress 0
  | .remoteAPMac => writeRemoteAPMac 0
  | .remoteMac h => fun v => h.write 0 ⟨v.type, v.octets⟩

/-- The write method of an object of a VAP. -/
def VapObject.write (vap : Nat) : VapObject → VarBind → WriteMethod Config Buf
  | .accessControlMode => writeAccessControlMode 0 vap
  | .localMacMode => writeLocalMacMode 0 vap
  | .profileVlan => writeProfileVlan 0 vap
  | .profilePriority => writeProfilePriority 0 vap
  | .profileWMM => writeProfileWMM 0 vap
  | .ssid => writeSsid 0 vap
  | .ssidBroadcastMode => writeSsidBroadcastMode 0 vap
  | .ssidIsolationWithinSSID => writeSsidIsolationWithinSSID 0 vap
  | .securityMode => writeSecurityMode 0 vap
  | .wepKeyIndex => writeWepKeyIndex 0 vap
  | .wepKeyLength => writeWepKeyLength 0 vap
  | .wepKey1 => writeWepKey1 0 vap
  | .wepKey2 => writeWepKey2 0 vap
  | .wepKey3 => writeWepKey3 0 vap
  | .wepKey4 => writeWepKey4 0 vap
  | .wpaPSK => writeWpaPSK 0 vap
  | .wpaKeyRenewal => writeWpaKeyRenewal 0 vap
  | .radiusAuthPrimaryServerIP => writeRadiusAuthPrimaryServerIP 0 vap
  | .radiusAuthPrimaryServerPort => writeRadiusAuthPrimaryServerPort 0 vap
  | .radiusAuthPrimaryServerKey => writeRadiusAuthPrimaryServerKey 0 vap
  | .radiusAuthSecondaryServerIP => writeRadiusAuthSecondaryServerIP 0 vap
  | .radiusAuthSecondaryServerPort => writeRadiusAuthSecondaryServerPort 0 vap
  | .radiusAuthSecondaryServerKey => writeRadiusAuthSecondaryServerKey 0 vap

/-- The write method of an object. -/
def Object.write (env : Surroundings) : Object → VarBind → WriteMethod Config Buf
  | .scalar s => s.write env.stack
  | .bound b => fun v => b.write ⟨v.type, v.len, v.word⟩
  | .radio o => o.write env
  | .vap o i => o.write i
  | .aclMac row => writeAclMac row
  | .apMAC => writeApMAC

/-! ### What an object may change -/

/-- The settings of an object of the radio. -/
def RadioObject.settings : RadioObject → List Setting
  | .wirelessMode => [.radio 0 .state, .radio 0 .mode]
  | .channel => [.radio 0 .autoChannel, .radio 0 .channel, .radio 0 .channelOffset]
  | .channelBandwidth => [.radio 0 .channelWidth]
  | .region => [.sys .sysDomain, .radio 0 .channelWidth]
  | .dot11dMode => [.radio 0 .d80211]
  | .guardInterval => [.radio 0 .shortGI]
  | .ctsProtectionMode => [.radio 0 .cts]
  | .beaconInterval => [.radio 0 .bcn]
  | .dtimInterval => [.radio 0 .dtim]
  | .rtsThreshold => [.radio 0 .rts]
  | .fragmentationThreshold => [.radio 0 .frag]
  | .isolationBetweenSSID => [.radio 0 .isolation]
  | .operationMode =>
      [.radio 0 .opMode, .radio 0 .channelWidth, .radio 0 .isolation, .vap 0 0 .authMode] ++
      vaps.tail.map fun vap => .vap 0 vap .state
  | .remoteAPSSID => [.vap 0 0 .ssid]
  | .rogueApType => [.sys .rogueType]
  | .remoteAPMacAddress | .remoteAPMac => [.radio 0 .remoteMac]
  | .remoteMac _ => [.radio 0 .remoteBridgeMac]

/-- The settings of an object of a VAP, by the fields that are its own. -/
def VapObject.own : VapObject → List VapField
  | .accessControlMode => [.accessControl]
  | .localMacMode => [.aclType]
  | .profileVlan => [.vid]
  | .profilePriority => [.pri]
  | .profileWMM => [.wmm]
  | .ssid => [.ssid, .state]
  | .ssidBroadcastMode => [.broabcast]
  | .ssidIsolationWithinSSID => [.isolation]
  | .securityMode => [.authMode]
  | .wepKeyIndex => [.defaultKey]
  | .wpaPSK => [.passphrase]
  | .wpaKeyRenewal => [.rekeyInterval]
  | _ => []

/-- The fields of all VAPs that an object of one may change. -/
def VapObject.shared : VapObject → List VapField
  | .wepKeyLength => [.keyLength]
  | .wepKey1 => [.key 1]
  | .wepKey2 => [.key 2]
  | .wepKey3 => [.key 3]
  | .wepKey4 => [.key 4]
  | .radiusAuthPrimaryServerIP => [.radiusServer]
  | .radiusAuthPrimaryServerPort => [.radiusPort]
  | .radiusAuthPrimaryServerKey => [.radiusKey]
  | .radiusAuthSecondaryServerIP => [.backupRadiusServer]
  | .radiusAuthSecondaryServerPort => [.backupRadiusPort]
  | .radiusAuthSecondaryServerKey => [.backupRadiusKey]
  | _ => []

/-- The settings of the system that an object of a VAP may change. -/
def VapObject.system : VapObject → List SysField
  | .radiusAuthPrimaryServerIP | .radiusAuthSecondaryServerIP => [.lanDns1]
  | _ => []

/-- The settings that an object may change, beside the mark that WPS is configured. -/
def Object.settings (env : Surroundings) : Object → List Setting
  | .scalar s => (s.spec env.stack).settings
  | .bound b => [b.setting]
  | .radio o => o.settings
  | .vap o v => (o.own.map fun f => .vap 0 v f) ++
      (vaps.flatMap fun i => o.shared.map fun f => .vap 0 i f) ++ o.system.map .sys
  | .aclMac row => [.vap row 0 .aclList]
  | .apMAC => [legalKey]

end Wap4410n.Snmp
