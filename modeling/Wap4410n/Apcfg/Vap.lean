import Wap4410n.Apcfg.Radio
import Wap4410n.Apcfg.Shared

/-!
# Apcfg — settings of one VAP

The getters and setters of the settings a VAP has to itself, and the functions of `libutility` that
put a VAP back to its defaults with them.  `scSetDefaultSecurity` also resets the WEP keys all VAPs
share, unless it finds a VAP that uses them.
-/

namespace Wap4410n.Apcfg

open CLib

/-! ### Getters and setters -/

/-- `apCfgSsidModeSet` -/
def apCfgSsidModeSet (unit bss : Nat) (v : Int) : Cfg Status :=
  setFlag (.vap unit bss .broabcast) (aplVap unit bss) v

/-- `apCfgSsidSet` -/
def apCfgSsidSet (unit bss : Nat) (p : CStr) : Cfg Status :=
  -- `MAX_SSID`
  if 32 < p.length then return .error
  else setText 64 (.vap unit bss .ssid) (aplVap unit bss) p

/-- `apCfgIntraVapForwardingSet` -/
def apCfgIntraVapForwardingSet (unit bss : Nat) (v : Int) : Cfg Status :=
  setFlag (.vap unit bss .isolation) (aplVap unit bss) v

/-- `apCfgDefKeySet`: `CFG_MIN_SHARED_KEY` to `CFG_MAX_SHARED_KEY`, or `INVALID_SHARED_KEY`. -/
def apCfgDefKeySet (unit bss : Nat) (v : Int) : Cfg Status :=
  if 1 ≤ v ∧ v ≤ 4 ∨ v = 5 then
    setNumber 10 60 (.vap unit bss .defaultKey) (aplVap unit bss) true v
  else return .einval

/-- The texts of `wlan%d_ssid%d_wpa_cipher`. -/
def wpaCiphers : Texts where
  cases := [(0, .text "TKIP"), (1, .text "AES"), (2, .text "AUTO")]
  text := .text "AUTO"
  value := 2

/-- `apCfgWPACipherSet` -/
def apCfgWPACipherSet (unit bss : Nat) (v : Int) : Cfg Status :=
  setEnum wpaCiphers (.vap unit bss .wpaCipher) (aplVap unit bss) true v

/-- `apCfgPassphraseSet` -/
def apCfgPassphraseSet (unit bss : Nat) (p : CStr) : Cfg Status :=
  -- `CFG_MAX_PASSPHRASE`
  if 64 < p.length then return .error
  else setText 32 (.vap unit bss .passphrase) (aplVap unit bss) p

/-- `apCfgGroupKeyUpdateIntervalSet`: `MIN_` to `MAX_GROUP_KEY_UPDATE_INTERVAL`. -/
def apCfgGroupKeyUpdateIntervalSet (unit bss : Nat) (v : Int) : Cfg Status :=
  if v < 600 ∨ 36000 < v then return .error
  else setNumber 10 60 (.vap unit bss .rekeyInterval) (aplVap unit bss) true v

/-- The texts of `wlan%d_ssid%d_access_control`. -/
def aclModes : Texts where
  cases := [(0, .text "Disable"), (1, .text "Local"), (2, .text "Radius")]
  text := .text "Disable"
  value := 0

/-- `apCfgAclModeSet` -/
def apCfgAclModeSet (unit bss : Nat) (v : Int) : Cfg Status :=
  setEnum aclModes (.vap unit bss .accessControl) (aplVap unit bss) false v

/-- The texts of `wlan%d_ssid%d_acl_type`. -/
def aclTypes : Texts where
  cases := [(0, enable)]
  text := disable
  value := 1

/-- `apCfgAclTypeSet` -/
def apCfgAclTypeSet (unit bss : Nat) (v : Int) : Cfg Status :=
  setEnum aclTypes (.vap unit bss .aclType) (aplVap unit bss) false v

/-- `apCfgAclClear` -/
def apCfgAclClear (unit bss : Nat) : Cfg Unit := do
  scfgmgrSet (.vap unit bss .aclList) .empty
  aplSetFlag (aplVap unit bss)

/-- `apCfgVlanPvidSet`: `VLAN_TAG_MIN` to `VLAN_TAG_MAX`. -/
def apCfgVlanPvidSet (unit bss : Nat) (v : Int) : Cfg Status :=
  if v < 1 ∨ 0x0FFE < v then return .error
  else setNumber 10 32 (.vap unit bss .vid) aplVlan false v

/-- `apCfgWmeSet` -/
def apCfgWmeSet (unit bss : Nat) (v : Int) : Cfg Status :=
  setFlag (.vap unit bss .wmm) (aplVap unit bss) v

/-- `apCfgWmmpsSet` -/
def apCfgWmmpsSet (unit bss : Nat) (v : Int) : Cfg Status :=
  setFlag (.vap unit bss .wmmps) (aplVap unit bss) v

/-- `apCfgPrioritySet` -/
def apCfgPrioritySet (unit bss : Nat) (v : Int) : Cfg Status :=
  setNumber 5 60 (.vap unit bss .pri) (aplVap unit bss) false v

/-- `apCfgLoadBalanceSet`: `MIN_BALANCE` to `MAX_BALANCE`. -/
def apCfgLoadBalanceSet (unit bss : Nat) (v : Int) : Cfg Status :=
  if v < 0 ∨ 10000 < v then return .error
  else setNumber 10 60 (.vap unit bss .loadbalance) aplBalance false v

/-! ### Defaults -/

/-- `for (i = 0; i < WLAN_MAX_VAP; i++)` of `scSetDefaultSecurity`: whether it finds a VAP whose
authentication is `APCFG_AUTH_OPEN_SYSTEM` or `APCFG_AUTH_SHARED_KEY`. -/
def anyVapUsesWep (unit : Nat) : List Nat → Cfg Bool
  | [] => return false
  | i :: is => do
    let authType ← apCfgAuthTypeGet unit i
    if authType = apcfgAuthOpenSystem ∨ authType = apcfgAuthSharedKey then return true
    else anyVapUsesWep unit is

/-- `scSetDefaultSecurity` -/
def scSetDefaultSecurity (unit bss : Nat) : Cfg Status := do
  -- `DEFAULT_INTRA_VAP_FORWARDING`
  let _ ← apCfgIntraVapForwardingSet unit bss 1
  let _ ← apCfgAuthTypeSet unit bss apcfgAuthNone
  -- `DEFAULT_KEY`, which `apCfgDefKeySet` refuses
  let _ ← apCfgDefKeySet unit bss 0
  -- `DEFAULT_WPA_CIPHER`
  let _ ← apCfgWPACipherSet unit bss 2
  -- `DEFAULT_PASSPHRASE`
  let _ ← apCfgPassphraseSet unit bss .empty
  -- `DEFAULT_GROUP_KEY_UPDATE_INTERVAL`
  let _ ← apCfgGroupKeyUpdateIntervalSet unit bss 3600
  let inUse ← anyVapUsesWep unit vaps
  if inUse then return .ok else
  -- `SC_DEFAULT_KEY_BITLEN`
  let _ ← apCfgKeyBitLenSet unit bss 40
  -- `DEFAULT_KEY_VALUE`
  let _ ← apCfgKeyValSet unit bss 1 .empty
  let _ ← apCfgKeyValSet unit bss 2 .empty
  let _ ← apCfgKeyValSet unit bss 3 .empty
  let _ ← apCfgKeyValSet unit bss 4 .empty
  return .ok

/-- `scSetDefaultVap` -/
def scSetDefaultVap (unit bss : Nat) : Cfg Status := do
  let _ ← apCfgActiveModeSet unit bss 0
  let _ ← apCfgSsidSet unit bss .empty
  -- `DEFAULT_SSID_SUPPRESS_MODE`
  let _ ← apCfgSsidModeSet unit bss 0
  let _ ← scSetDefaultSecurity unit bss
  -- `DEFAULT_ACL_MODE`, `DEFAULT_APCFG_ACL`
  let _ ← apCfgAclModeSet unit bss 0
  let _ ← apCfgAclTypeSet unit bss 0
  apCfgAclClear unit bss
  -- `DEFAULT_VLAN_TAG`, `DEFAULT_WME_MODE`, `DEFAULT_WMMPS_MODE`, `DEFAULT_PRIORITY`
  let _ ← apCfgVlanPvidSet unit bss 1
  let _ ← apCfgWmeSet unit bss 1
  let _ ← apCfgWmmpsSet unit bss 1
  let _ ← apCfgPrioritySet unit bss 0
  -- `DEFAULT_BALANCE`
  let _ ← apCfgLoadBalanceSet unit bss 0
  return .ok

end Wap4410n.Apcfg
