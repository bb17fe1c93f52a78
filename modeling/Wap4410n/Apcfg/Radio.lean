import Wap4410n.Apcfg.Config

/-!
# Apcfg — operation mode and the settings it restricts

The operation mode of a radio restricts which VAPs may be active, which authentication VAP 0 may
use, the channel width, and forwarding between VAPs.  Each of the setters here guards its own
setting by the stored mode; `apCfgOpModeSet` corrects the settings of the others before it stores
the new one.
-/

namespace Wap4410n.Apcfg

open CLib

/-! ### Constants -/

def cfgOpModeAp : Int := 0
def cfgOpModeSta : Int := 1
def cfgOpModePpt : Int := 2
def cfgOpModeMpt : Int := 3
def cfgOpModeRepeater : Int := 4
def cfgOpModeApPtp : Int := 5
def cfgOpModeApPtmp : Int := 6
def cfgOpModeUc : Int := 7
def cfgOpModeUr : Int := 8
def cfgOpModeRogap : Int := 9

def cwmMode20M : Int := 0
def cwmMode20M40M : Int := 1
def cwmMode40M : Int := 2

def apcfgAuthNone : Int := 0
def apcfgAuthOpenSystem : Int := 1
def apcfgAuthSharedKey : Int := 2
def apcfgAuthAuto : Int := 3
def apcfgAuthWpa : Int := 4
def apcfgAuthWpapsk : Int := 5
def apcfgAuthWpa2 : Int := 6
def apcfgAuthWpa2psk : Int := 7
def apcfgAuthWpaAuto : Int := 8
def apcfgAuthWpaAutoPsk : Int := 9
def apcfgAuthDot1x : Int := 10

/-- The texts of `wlan%d_op_mode`. -/
def opModes : Texts where
  cases := [
    (cfgOpModeAp, .text "AccessPoint"),
    (cfgOpModeSta, .text "WirelessClient"),
    (cfgOpModePpt, .text "WirelessBridge"),
    (cfgOpModeMpt, .text "MultiPointBridge"),
    (cfgOpModeRepeater, .text "WirelessRepeater"),
    (cfgOpModeApPtp, .text "AccessPointAndPTP"),
    (cfgOpModeApPtmp, .text "AccessPointAndPTMP"),
    (cfgOpModeUc, .text "UnversalClient"),
    (cfgOpModeUr, .text "UnversalRepeater"),
    (cfgOpModeRogap, .text "WirelessMonitor")]
  text := .text "AccessPoint"
  value := cfgOpModeAp

/-- The texts of `wlan%d_channel_width`. -/
def channelWidths : Texts where
  cases := [
    (cwmMode20M, .text "CWM_MODE_20M"),
    (cwmMode20M40M, .text "CWM_MODE_20M_40M"),
    (cwmMode40M, .text "CWM_MODE_40M")]
  text := .text "CWM_MODE_20M_40M"
  value := cwmMode20M40M

/-- The texts of `wlan%d_ssid%d_auth_mode`. -/
def authTypes : Texts where
  cases := [
    (apcfgAuthNone, .text "NONE"),
    (apcfgAuthOpenSystem, .text "OPEN_SYSTEM"),
    (apcfgAuthSharedKey, .text "SHARED_KEY"),
    (apcfgAuthAuto, .text "AUTH_AUTO"),
    (apcfgAuthWpa, .text "AUTH_WPA"),
    (apcfgAuthWpapsk, .text "AUTH_WPAPSK"),
    (apcfgAuthWpa2, .text "AUTH_WPA2"),
    (apcfgAuthWpa2psk, .text "AUTH_WPA2PSK"),
    (apcfgAuthWpaAuto, .text "WPA_AUTO"),
    (apcfgAuthWpaAutoPsk, .text "WPA_AUTO_PSK"),
    (apcfgAuthDot1x, .text "AUTH_DOT1X")]
  text := .text "NONE"
  value := apcfgAuthNone

/-! ### Getters and setters -/

/-- `apCfgOpModeGet` -/
def apCfgOpModeGet (unit : Nat) : Cfg Int := getEnum opModes (.radio unit .opMode)

/-- `apCfgActiveModeGet` -/
def apCfgActiveModeGet (unit bss : Nat) : Cfg Int := getFlag (.vap unit bss .state)

/-- `apCfgActiveModeSet` -/
def apCfgActiveModeSet (unit bss : Nat) (v : Int) : Cfg Status := do
  if bss = 0 ∧ v = 0 then return .error else
  let mode ← apCfgOpModeGet unit
  if mode ≠ cfgOpModeAp ∧ bss ≠ 0 ∧ v = 1 then return .error else
  setFlag (.vap unit bss .state) (aplVap unit bss) v

/-- `apCfgInterVapForwardingGet` -/
def apCfgInterVapForwardingGet (unit : Nat) : Cfg Int := getFlag (.radio unit .isolation)

/-- `apCfgInterVapForwardingSet` -/
def apCfgInterVapForwardingSet (unit : Nat) (v : Int) : Cfg Status := do
  let mode ← apCfgOpModeGet unit
  setFlag (.radio unit .isolation) (aplWlan unit) (if mode = cfgOpModeUr then 0 else v)

/-- `apCfgChannelWidthModeGet` -/
def apCfgChannelWidthModeGet (unit : Nat) : Cfg Int :=
  getEnum channelWidths (.radio unit .channelWidth)

/-- `apCfgChannelWidthModeSet` -/
def apCfgChannelWidthModeSet (unit : Nat) (v : Int) : Cfg Status := do
  let mode ← apCfgOpModeGet unit
  setEnum channelWidths (.radio unit .channelWidth) (aplWlan unit) false
    (if mode = cfgOpModeRogap ∨ mode = cfgOpModeUc ∨ mode = cfgOpModeUr then cwmMode20M else v)

/-- `v > APCFG_AUTH_AUTO && v!=APCFG_AUTH_WPAPSK && v!=APCFG_AUTH_WPA2PSK &&
v!=APCFG_AUTH_WPA_AUTO_PSK` -/
def NotForClient (v : Int) : Prop :=
  apcfgAuthAuto < v ∧ v ≠ apcfgAuthWpapsk ∧ v ≠ apcfgAuthWpa2psk ∧ v ≠ apcfgAuthWpaAutoPsk

instance (v : Int) : Decidable (NotForClient v) := by unfold NotForClient; infer_instance

/-- `apCfgAuthTypeGet` -/
def apCfgAuthTypeGet (unit bss : Nat) : Cfg Int := getEnum authTypes (.vap unit bss .authMode)

/-- `apCfgAuthTypeSet` -/
def apCfgAuthTypeSet (unit bss : Nat) (v : Int) : Cfg Status := do
  let old ← apCfgAuthTypeGet unit bss
  if v = old then return .ok else
  let mode ← apCfgOpModeGet unit
  if (mode = cfgOpModeUc ∨ mode = cfgOpModeUr) ∧ bss = 0 ∧ NotForClient v then return .error else
  setEnum authTypes (.vap unit bss .authMode) (aplVap unit bss) true v

/-- `apCfgSsidGet` -/
def apCfgSsidGet (unit bss : Nat) : Cfg CStr := getText 64 (.vap unit bss .ssid)

/-- The corrections of `apCfgOpModeSet` for a mode other than `CFG_OP_MODE_AP`, under the old
mode. -/
def correctSettings (unit : Nat) (v : Int) : Cfg Unit := do
  Act.each (fun vap => do let _ ← apCfgActiveModeSet unit vap 0) vaps.tail
  Act.when (v = cfgOpModeUc ∨ v = cfgOpModeUr) do
    let authType ← apCfgAuthTypeGet unit 0
    Act.when (NotForClient authType) do
      let _ ← apCfgAuthTypeSet unit 0 apcfgAuthNone
  Act.when (v = cfgOpModeRogap ∨ v = cfgOpModeUc ∨ v = cfgOpModeUr) do
    let _ ← apCfgChannelWidthModeSet unit 0
  Act.when (v = cfgOpModeUr) do
    let _ ← apCfgInterVapForwardingSet unit 0

/-- The VAPs with an SSID are activated in mode `CFG_OP_MODE_AP`. -/
def activateVaps (unit : Nat) : Cfg Unit :=
  Act.each (fun vap => do
    let ssid ← apCfgSsidGet unit vap
    Act.when (ssid.length ≠ 0) do
      let _ ← apCfgActiveModeSet unit vap 1) vaps.tail

/-- `apCfgOpModeSet` -/
def apCfgOpModeSet (unit : Nat) (v : Int) : Cfg Status := do
  let old ← apCfgOpModeGet unit
  Act.when (v ≠ old) do
    Act.when (cfgOpModeAp ≠ v) (correctSettings unit v)
    scfgmgrSet (.radio unit .opMode) (opModes.encode v)
    aplSetFlag aplReboot
    Act.when (cfgOpModeAp = v) (activateVaps unit)
  return .ok

/-! ### What the getters return -/

/-- The operation mode of radio 0. -/
def opMode (c : Config) : Int := opModes.decode (c.get (.radio 0 .opMode))

/-- Whether a VAP of radio 0 is active. -/
def activeMode (c : Config) (vap : Nat) : Int := flagOf (c.get (.vap 0 vap .state))

/-- The type of authentication of a VAP of radio 0. -/
def authOf (c : Config) (vap : Nat) : Int := authTypes.decode (c.get (.vap 0 vap .authMode))

def channelWidth (c : Config) : Int := channelWidths.decode (c.get (.radio 0 .channelWidth))

def interVapForwarding (c : Config) : Int := flagOf (c.get (.radio 0 .isolation))

theorem apCfgOpModeGet_eq (c : Config) : apCfgOpModeGet 0 c = (.ok (opMode c), c) := rfl

theorem apCfgAuthTypeGet_eq (c : Config) (vap : Nat) :
    apCfgAuthTypeGet 0 vap c = (.ok (authOf c vap), c) := rfl

end Wap4410n.Apcfg
