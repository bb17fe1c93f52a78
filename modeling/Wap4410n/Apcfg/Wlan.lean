import Wap4410n.Apcfg.System
import Wap4410n.Apcfg.Vap

/-!
# Apcfg — settings of a radio

The getters and setters of the settings of a radio that do not depend on its operation mode, the
getters of the settings of a VAP, and `apCfgVlanListApply`, which stores the sorted list of the VLAN
ids in use.  The addresses of the remote bridges are one text of eight entries of 18 characters,
which is copied as a block: a shorter text is read past its end.
-/

namespace Wap4410n.Apcfg

open CLib

/-! ### Radio -/

/-- The setter of a number of a radio from `lo` to `hi`. -/
def putRadioInt (lo hi : Int) (get : Cfg Int) (unit : Nat) (f : RadioField) (v : Int) :
    Cfg Status :=
  if v < lo ∨ hi < v then return .error
  else putInt 10 get (.radio unit f) [aplWlan unit] v

/-- `apCfgWlanStateGet` -/
def apCfgWlanStateGet (unit : Nat) : Cfg Int := getFlag (.radio unit .state)

/-- `apCfgWlanStateSet` -/
def apCfgWlanStateSet (unit : Nat) : Int → Cfg Status :=
  putFlag (.radio unit .state) [aplWlan unit]

def modeSelect11B : Int := 2
def modeSelect11G : Int := 3
def modeSelect11N : Int := 9
def modeSelect11Bg : Int := 10
def modeSelect11Bgn : Int := 11

/-- The texts of `wlan%d_mode`. -/
def freqSpecs : Texts where
  cases := [
    (0, .text "MODE_SELECT_AUTO"),
    (1, .text "MODE_SELECT_11A"),
    (modeSelect11B, .text "MODE_SELECT_11B"),
    (modeSelect11G, .text "MODE_SELECT_11G"),
    (4, .text "MODE_SELECT_FH"),
    (5, .text "MODE_SELECT_TURBOA"),
    (6, .text "MODE_SELECT_TURBOG"),
    (7, .text "MODE_SELECT_11NA"),
    (8, .text "MODE_SELECT_11NG"),
    (modeSelect11N, .text "MODE_SELECT_11N"),
    (modeSelect11Bg, .text "MODE_SELECT_11BG"),
    (modeSelect11Bgn, .text "MODE_SELECT_11BGN")]
  text := .text "MODE_SELECT_AUTO"
  value := -1

/-- `apCfgFreqSpecGet` -/
def apCfgFreqSpecGet (unit : Nat) : Cfg Int := getEnum freqSpecs (.radio unit .mode)

/-- `apCfgFreqSpecSet` -/
def apCfgFreqSpecSet (unit : Nat) (v : Int) : Cfg Status :=
  setEnum freqSpecs (.radio unit .mode) (aplWlan unit) false v

/-- `apCfgAutoChannelGet` -/
def apCfgAutoChannelGet (unit : Nat) : Cfg Int := getFlag (.radio unit .autoChannel)

/-- `apCfgAutoChannelSet` -/
def apCfgAutoChannelSet (unit : Nat) : Int → Cfg Status :=
  putFlag (.radio unit .autoChannel) [aplWlan unit]

/-- `apCfgChannelOffsetGet` -/
def apCfgChannelOffsetGet (unit : Nat) : Cfg CStr := getText 32 (.radio unit .channelOffset)

/-- `apCfgChannelOffsetSet` -/
def apCfgChannelOffsetSet (unit : Nat) (p : CStr) : Cfg Status :=
  if p ≠ .text "1" ∧ p ≠ .text "-1" then return .error
  else setNew (apCfgChannelOffsetGet unit) p (put (.radio unit .channelOffset) p [aplWlan unit])

/-- `apCfgRadioChannelGet` -/
def apCfgRadioChannelGet (unit : Nat) : Cfg Int := getNumber 60 (.radio unit .channel)

/-- `apCfgRadioChannelSet` -/
def apCfgRadioChannelSet (unit : Nat) (v : Int) : Cfg Status :=
  if v < 0 ∨ 14 < v then return .error
  else setNew (apCfgRadioChannelGet unit) v do
    let string ← store .string 10 (.ofInt v)
    put (.radio unit .channel) string [aplWlan unit]
    Act.ignore (apCfgChannelOffsetSet unit (if 5 ≤ v then .text "-1" else .text "1"))

/-- `apCfgBalanceModeGet` -/
def apCfgBalanceModeGet (unit : Nat) : Cfg Int := getFlag (.radio unit .balance)

/-- `apCfgBalanceModeSet` -/
def apCfgBalanceModeSet (unit : Nat) : Int → Cfg Status :=
  putFlag (.radio unit .balance) [aplBalance]

/-- `scApCfg80211dEnabledGet` -/
def scApCfg80211dEnabledGet (unit : Nat) : Cfg Int := getFlag (.radio unit .d80211)

/-- `scApCfg80211dEnabledSet` -/
def scApCfg80211dEnabledSet (unit : Nat) : Int → Cfg Status :=
  putFlag (.radio unit .d80211) [aplWlan unit]

def shortgiShort : Int := 0
def shortgiAuto : Int := 1
def shortgiLong : Int := 2

/-- The texts of `wlan%d_short_GI`. -/
def shortGIs : Texts where
  cases := [
    (shortgiLong, .text "SHORTGI_LONG"),
    (shortgiShort, .text "SHORTGI_SHORT"),
    (shortgiAuto, .text "SHORTGI_AUTO")]
  text := .text "SHORTGI_AUTO"
  value := shortgiAuto

/-- `scApCfgShortGIGet` -/
def scApCfgShortGIGet (unit : Nat) : Cfg Int := getEnum shortGIs (.radio unit .shortGI)

/-- `scApCfgShortGISet` -/
def scApCfgShortGISet (unit : Nat) (v : Int) : Cfg Status :=
  setEnum shortGIs (.radio unit .shortGI) (aplWlan unit) false v

/-- `apCfgCTSModeGet` -/
def apCfgCTSModeGet (unit : Nat) : Cfg Int := getAtoi (.radio unit .cts)

/-- `apCfgCTSModeSet` -/
def apCfgCTSModeSet (unit : Nat) : Int → Cfg Status :=
  putInt 10 (apCfgCTSModeGet unit) (.radio unit .cts) [aplWlan unit]

/-- `apCfgBeaconIntervalGet` -/
def apCfgBeaconIntervalGet (unit : Nat) : Cfg Int := getAtoi (.radio unit .bcn)

/-- `apCfgBeaconIntervalSet`: `MIN_BEACON_PERIOD` to `MAX_BEACON_PERIOD`. -/
def apCfgBeaconIntervalSet (unit : Nat) : Int → Cfg Status :=
  putRadioInt 20 1000 (apCfgBeaconIntervalGet unit) unit .bcn

/-- `scApCfgDtimIntervalGet` -/
def scApCfgDtimIntervalGet (unit : Nat) : Cfg Int := getNumber 60 (.radio unit .dtim)

/-- `scApCfgDtimIntervalSet`: `SC_MIN_DTIM_INTERVAL` to `SC_MAX_DTIM_INTERVAL`. -/
def scApCfgDtimIntervalSet (unit : Nat) : Int → Cfg Status :=
  putRadioInt 1 255 (scApCfgDtimIntervalGet unit) unit .dtim

/-- `apCfgRtsThresholdGet` -/
def apCfgRtsThresholdGet (unit : Nat) : Cfg Int := getNumber 60 (.radio unit .rts)

/-- `apCfgRtsThresholdSet`: `MIN_RTS_THRESHOLD` to `MAX_RTS_THRESHOLD`. -/
def apCfgRtsThresholdSet (unit : Nat) : Int → Cfg Status :=
  putRadioInt 1 2347 (apCfgRtsThresholdGet unit) unit .rts

/-- `apCfgFragThresholdGet` -/
def apCfgFragThresholdGet (unit : Nat) : Cfg Int := getNumber 60 (.radio unit .frag)

/-- `apCfgFragThresholdSet`: `MIN_FRAG_THRESHOLD` to `MAX_FRAG_THRESHOLD`. -/
def apCfgFragThresholdSet (unit : Nat) : Int → Cfg Status :=
  putRadioInt 256 2346 (apCfgFragThresholdGet unit) unit .frag

/-- `CTRY_JAPAN` -/
def ctryJapan : Int := 392

/-- `apCfgCountryCodeSet`, with `check_country_domain` -/
def apCfgCountryCodeSet (known : Int → Bool) (v : Int) : Cfg Status :=
  if ¬ known v then return .error
  else setNew apCfgCountryCodeGet v do
    let string ← store .string 10 (.ofInt v)
    put (.sys .sysDomain) string [aplReboot]
    Act.when (v = ctryJapan) (Act.ignore (apCfgChannelWidthModeSet 0 cwmMode20M))

/-! ### Remote access points -/

/-- `apCfgRemoteApMacAddrGet`, into a buffer of `size` bytes -/
def apCfgRemoteApMacAddrGet (size unit : Nat) : Cfg CStr := do
  store .remoteMac size (← nvramSafeGet (.radio unit .remoteMac))

/-- `apCfgUcrRemoteApMacAddrGet`, into a buffer of `size` bytes -/
def apCfgUcrRemoteApMacAddrGet (size unit : Nat) : Cfg CStr := do
  store .remoteMac size (← nvramSafeGet (.radio unit .remoteMac))

/-- `apCfgRemoteApMacAddrSet` -/
def apCfgRemoteApMacAddrSet (unit : Nat) (p : CStr) : Cfg Status :=
  setNew (apCfgRemoteApMacAddrGet 18 unit) p (put (.radio unit .remoteMac) p [aplWlan unit])

/-- `char finalValue[8][18]` -/
def bridgeSize : Nat := 8 * 18

/-- `memcpy(finalValue, pFullValue, 8*18);` -/
def copyBridges (pFullValue : CStr) : Cfg (List Byte) :=
  if bridgeSize ≤ pFullValue.mem.length then return pFullValue.mem.take bridgeSize
  else Act.fault (.outside .fullValue)

/-- `apCfgRemoteWbrMacAddrGet` -/
def apCfgRemoteWbrMacAddrGet (unit index : Nat) : Cfg CStr := do
  let pFullValue ← nvramSafeGet (.radio unit .remoteBridgeMac)
  let finalValue ← copyBridges pFullValue
  return .before ((finalValue.drop (18 * index)).take 17)

/-- `apCfgRemoteWbrMacAddrSet`, for an address of 17 characters -/
def apCfgRemoteWbrMacAddrSet (unit index : Nat) (pMac : CStr) : Cfg Status := do
  let pFullValue ← nvramSafeGet (.radio unit .remoteBridgeMac)
  let finalValue ← copyBridges pFullValue
  let valueToSet : CStr := .before
    (finalValue.take (18 * index) ++ pMac.mem.take 17 ++ 0x2c :: finalValue.drop (18 * index + 18))
  Act.when (valueToSet ≠ pFullValue) do
    put (.radio unit .remoteBridgeMac) valueToSet [aplWlan unit]
  return .ok

/-! ### VAP -/

/-- `apCfgDevicePinGet` -/
def apCfgDevicePinGet (unit bss : Nat) : Cfg CStr := getText 9 (.vap unit bss .pin)

/-- `apCfgSsidModeGet` -/
def apCfgSsidModeGet (unit bss : Nat) : Cfg Int := getFlag (.vap unit bss .broabcast)

/-- `apCfgIntraVapForwardingGet` -/
def apCfgIntraVapForwardingGet (unit bss : Nat) : Cfg Int := getFlag (.vap unit bss .isolation)

/-- `apCfgDefKeyGet` -/
def apCfgDefKeyGet (unit bss : Nat) : Cfg Int := getNumber 60 (.vap unit bss .defaultKey)

/-- `apCfgWPACipherGet` -/
def apCfgWPACipherGet (unit bss : Nat) : Cfg Int := getEnum wpaCiphers (.vap unit bss .wpaCipher)

/-- `apCfgPassphraseGet` -/
def apCfgPassphraseGet (unit bss : Nat) : Cfg CStr := getText 32 (.vap unit bss .passphrase)

/-- `apCfgGroupKeyUpdateIntervalGet` -/
def apCfgGroupKeyUpdateIntervalGet (unit bss : Nat) : Cfg Int :=
  getNumber 60 (.vap unit bss .rekeyInterval)

/-- `apCfgAclModeGet` -/
def apCfgAclModeGet (unit bss : Nat) : Cfg Int := getEnum aclModes (.vap unit bss .accessControl)

/-- `apCfgAclTypeGet` -/
def apCfgAclTypeGet (unit bss : Nat) : Cfg Int := getEnum aclTypes (.vap unit bss .aclType)

/-- `apCfgVlanPvidGet` -/
def apCfgVlanPvidGet (unit bss : Nat) : Cfg Int := getNumber 32 (.vap unit bss .vid)

/-- `apCfgWmeGet` -/
def apCfgWmeGet (unit bss : Nat) : Cfg Int := getFlag (.vap unit bss .wmm)

/-- `apCfgPriorityGet` -/
def apCfgPriorityGet (unit bss : Nat) : Cfg Int := getNumber 60 (.vap unit bss .pri)

/-- `apCfgLoadBalanceGet` -/
def apCfgLoadBalanceGet (unit bss : Nat) : Cfg Int := getNumber 60 (.vap unit bss .loadbalance)

/-! ### The list of VLANs in use -/

/-- `sc_swap` -/
def scSwap (v : List Int) (i j : Nat) : List Int := (v.set i (v.getD j 0)).set j (v.getD i 0)

/-- `for (i = left + 1; i <= right; i++)` of `scCompositor`, over the indices that are left, with
`last`. -/
def compositorLoop (left : Nat) : List Nat → List Int → Nat → List Int × Nat
  | [], v, last => (v, last)
  | i :: is, v, last =>
    if v.getD i 0 < v.getD left 0 then compositorLoop left is (scSwap v (last + 1) i) (last + 1)
    else compositorLoop left is v last

/-- `scCompositor(v, left, left+len-1)`, no deeper than `depth` -/
def scCompositor : Nat → List Int → Nat → Nat → List Int
  | 0, v, _, _ => v
  | depth + 1, v, left, len =>
    if len ≤ 1 then v else
    let right := left + len - 1
    let v := scSwap v left ((left + right) / 2)
    let (v, last) := compositorLoop left (List.range' (left + 1) (len - 1)) v left
    let v := scSwap v left last
    scCompositor depth (scCompositor depth v left (last - left)) (last + 1) (right - last)

/-- The text of the list, without the ids that stand twice in a row. -/
def vlanStr : Option Int → List Int → CStr
  | _, [] => .empty
  | before, d :: l =>
    if before = some d then vlanStr (some d) l
    else (CStr.ofInt d).append ((CStr.text ",").append (vlanStr (some d) l))

/-- `apCfgVlanListClear`, without the buffer -/
def vlanListClear : Cfg Status := do
  scfgmgrSet (.sys .vlanList) .empty
  return .ok

/-- `apCfgVlanListSet` of a text outside the buffer of `apCfgVlanListGet` -/
def vlanListSet (p : CStr) : Cfg Status :=
  setNew (getText 65 (.sys .vlanList)) p (put (.sys .vlanList) p [aplVlan])

/-- `vlanList[i++] = apCfgVlanPvidGet(unit, vap);` for every VAP -/
def pvids (unit : Nat) : List Nat → Cfg (List Int)
  | [] => return []
  | vap :: is => do
    let d ← apCfgVlanPvidGet unit vap
    let l ← pvids unit is
    return d :: l

/-- `apCfgVlanListApply` -/
def apCfgVlanListApply (unit : Nat) : Cfg Status := do
  let native ← apCfgNativeVlanIdGet
  let management ← apCfgManagementVlanIdGet
  let ids ← pvids unit vaps
  let vlanList := native :: management :: ids
  let vlanStr ← store .vlan 60
      (vlanStr none (scCompositor vlanList.length vlanList 0 vlanList.length))
  let _ ← vlanListSet vlanStr
  return .ok

example : scCompositor 6 [30, 1, 20, 1, 7, 30] 0 6 = [1, 1, 7, 20, 30, 30] := by decide

end Wap4410n.Apcfg
