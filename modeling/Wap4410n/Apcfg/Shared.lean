import Wap4410n.Apcfg.Config

/-!
# Apcfg — settings all VAPs share

RADIUS and accounting servers, their ports and secrets, and the WEP keys with their length and entry
method are stored with every VAP, but are one setting: a setter compares its argument with the copy
of the VAP it is called for, and where they differ writes all four.
-/

namespace Wap4410n.Apcfg

open CLib

/-- `CFG_MAX_RADIUSNAME` -/
def cfgMaxRadiusname : Nat := 64

/-- `CFG_MAX_SECRETLEN` -/
def cfgMaxSecretlen : Nat := 128

/-- `for(vap=0; vap<WLAN_MAX_VAP; vap++) { sprintf(name, …, unit, vap); scfgmgr_set(name,p); }` -/
def setOnVaps (unit : Nat) (f : VapField) (p : CStr) : Cfg Unit :=
  Act.each (fun vap => scfgmgrSet (.vap unit vap f) p) vaps

/-! ### Texts -/

/-- A setter of a shared text of `lo` to `hi` characters; `getSize` is the size of the buffer of its
getter. -/
def setSharedText (lo hi getSize : Nat) (f : VapField) (unit bss : Nat) (p : CStr) :
    Cfg Status := do
  if p.length < lo ∨ hi < p.length then return .error else
  let old ← getText getSize (.vap unit bss f)
  Act.when (p ≠ old) do
    setOnVaps unit f p
    aplSetFlag (aplVap unit bss)
    wscConfigured
  return .ok

/-- `apCfgRadiusServerGet` -/
def apCfgRadiusServerGet (unit bss : Nat) : Cfg CStr := getText 32 (.vap unit bss .radiusServer)

/-- `apCfgRadiusServerSet` -/
def apCfgRadiusServerSet : Nat → Nat → CStr → Cfg Status :=
  setSharedText 0 cfgMaxRadiusname 32 .radiusServer

/-- `apCfgBackupRadiusServerGet` -/
def apCfgBackupRadiusServerGet (unit bss : Nat) : Cfg CStr :=
  getText 32 (.vap unit bss .backupRadiusServer)

/-- `apCfgBackupRadiusServerSet` -/
def apCfgBackupRadiusServerSet : Nat → Nat → CStr → Cfg Status :=
  setSharedText 0 cfgMaxRadiusname 32 .backupRadiusServer

/-- `apCfgRadiusSecretGet` -/
def apCfgRadiusSecretGet (unit bss : Nat) : Cfg CStr := getText 32 (.vap unit bss .radiusKey)

/-- `apCfgRadiusSecretSet` -/
def apCfgRadiusSecretSet : Nat → Nat → CStr → Cfg Status :=
  setSharedText 0 cfgMaxSecretlen 32 .radiusKey

/-- `apCfgBackupRadiusSecretGet` -/
def apCfgBackupRadiusSecretGet (unit bss : Nat) : Cfg CStr :=
  getText 32 (.vap unit bss .backupRadiusKey)

/-- `apCfgBackupRadiusSecretSet` -/
def apCfgBackupRadiusSecretSet : Nat → Nat → CStr → Cfg Status :=
  setSharedText 0 cfgMaxSecretlen 32 .backupRadiusKey

/-- `scApCfgAcctSecretGet` -/
def scApCfgAcctSecretGet (unit bss : Nat) : Cfg CStr := getText 128 (.vap unit bss .acctKey)

/-- `scApCfgAcctSecretSet` -/
def scApCfgAcctSecretSet : Nat → Nat → CStr → Cfg Status :=
  setSharedText 0 cfgMaxSecretlen 128 .acctKey

/-- `scApCfgBackupAcctSecretGet` -/
def scApCfgBackupAcctSecretGet (unit bss : Nat) : Cfg CStr :=
  getText 128 (.vap unit bss .backupAcctKey)

/-- `scApCfgBackupAcctSecretSet` -/
def scApCfgBackupAcctSecretSet : Nat → Nat → CStr → Cfg Status :=
  setSharedText 0 cfgMaxSecretlen 128 .backupAcctKey

/-- The setter of an accounting server: the loop over the VAPs names the setting by `bss`. -/
def setAcctServer (f : VapField) (unit bss : Nat) (p : CStr) : Cfg Status := do
  if p.length < 1 ∨ cfgMaxSecretlen < p.length then return .error else
  let old ← getText 32 (.vap unit bss f)
  Act.when (p ≠ old) do
    Act.each (fun _ => scfgmgrSet (.vap unit bss f) p) vaps
    aplSetFlag (aplVap unit bss)
    wscConfigured
  return .ok

/-- `scApCfgAcctServerGet` -/
def scApCfgAcctServerGet (unit bss : Nat) : Cfg CStr := getText 32 (.vap unit bss .acctServer)

/-- `scApCfgAcctServerSet` -/
def scApCfgAcctServerSet : Nat → Nat → CStr → Cfg Status := setAcctServer .acctServer

/-- `scApCfgBackupAcctServerGet` -/
def scApCfgBackupAcctServerGet (unit bss : Nat) : Cfg CStr :=
  getText 32 (.vap unit bss .backupAcctServer)

/-- `scApCfgBackupAcctServerSet` -/
def scApCfgBackupAcctServerSet : Nat → Nat → CStr → Cfg Status := setAcctServer .backupAcctServer

/-! ### Ports -/

/-- A setter of a port. -/
def setPort (f : VapField) (unit bss : Nat) (v : Int) : Cfg Status := do
  if v < 1 ∨ 65534 < v then return .error else
  let old ← getNumber 60 (.vap unit bss f)
  Act.when (v ≠ old) do
    let string ← store .string 10 (.ofInt v)
    setOnVaps unit f string
    aplSetFlag (aplVap unit bss)
    wscConfigured
  return .ok

/-- `apCfgRadiusPortGet` -/
def apCfgRadiusPortGet (unit bss : Nat) : Cfg Int := getNumber 60 (.vap unit bss .radiusPort)

/-- `apCfgRadiusPortSet` -/
def apCfgRadiusPortSet : Nat → Nat → Int → Cfg Status := setPort .radiusPort

/-- `apCfgBackupRadiusPortGet` -/
def apCfgBackupRadiusPortGet (unit bss : Nat) : Cfg Int :=
  getNumber 60 (.vap unit bss .backupRadiusPort)

/-- `apCfgBackupRadiusPortSet` -/
def apCfgBackupRadiusPortSet : Nat → Nat → Int → Cfg Status := setPort .backupRadiusPort

/-- `scApCfgAcctPortGet` -/
def scApCfgAcctPortGet (unit bss : Nat) : Cfg Int := getNumber 60 (.vap unit bss .acctPort)

/-- `scApCfgAcctPortSet` -/
def scApCfgAcctPortSet : Nat → Nat → Int → Cfg Status := setPort .acctPort

/-- `scApCfgBackupAcctPortGet` -/
def scApCfgBackupAcctPortGet (unit bss : Nat) : Cfg Int :=
  getNumber 60 (.vap unit bss .backupAcctPort)

/-- `scApCfgBackupAcctPortSet` -/
def scApCfgBackupAcctPortSet : Nat → Nat → Int → Cfg Status := setPort .backupAcctPort

/-! ### WEP keys -/

/-- The lengths of a WEP key: none, or 5, 13, 16 bytes as text or in hexadecimal. -/
def KeyLength (n : Nat) : Prop := n ∈ [0, 5, 10, 13, 26, 16, 32]

instance (n : Nat) : Decidable (KeyLength n) := by unfold KeyLength; infer_instance

/-- `apCfgKeyValGet` -/
def apCfgKeyValGet (unit bss keyId : Nat) : Cfg CStr := getText 32 (.vap unit bss (.key keyId))

/-- `apCfgKeyValSet` -/
def apCfgKeyValSet (unit bss keyId : Nat) (p : CStr) : Cfg Status := do
  if ¬ KeyLength p.length then return .error else
  let old ← apCfgKeyValGet unit bss keyId
  Act.when (p ≠ old) do
    Act.each (fun i => do
      scfgmgrSet (.vap unit i (.key keyId)) p
      aplSetFlag (aplVap unit bss)) vaps
  return .ok

/-- `apCfgKey1ValSet` to `apCfgKey4ValSet`, which write the key of one VAP. -/
def apCfgKeyNValSet (unit bss keyId : Nat) (p : CStr) : Cfg Status := do
  if ¬ KeyLength p.length then return .error else
  scfgmgrSet (.vap unit bss (.key keyId)) p
  wscConfigured
  return .ok

/-- A setter of a shared number that is printed anew for each VAP. -/
def setSharedNumber (f : VapField) (unit bss : Nat) (v : Int) : Cfg Status := do
  let old ← getNumber 60 (.vap unit bss f)
  Act.when (v ≠ old) do
    Act.each (fun i => do
      let string ← store .string 10 (.ofInt v)
      scfgmgrSet (.vap unit i f) string
      aplSetFlag (aplVap unit bss)) vaps
    wscConfigured
  return .ok

/-- `apCfgKeyBitLenGet` -/
def apCfgKeyBitLenGet (unit bss : Nat) : Cfg Int := getNumber 60 (.vap unit bss .keyLength)

/-- `apCfgKeyBitLenSet` -/
def apCfgKeyBitLenSet (unit bss : Nat) (v : Int) : Cfg Status :=
  if v ≠ 40 ∧ v ≠ 104 ∧ v ≠ 128 then return .error
  else setSharedNumber .keyLength unit bss v

/-- `apCfgKeyEntryMethodGet` -/
def apCfgKeyEntryMethodGet (unit bss : Nat) : Cfg Int := getNumber 60 (.vap unit bss .keyMethod)

/-- `apCfgKeyEntryMethodSet` -/
def apCfgKeyEntryMethodSet : Nat → Nat → Int → Cfg Status := setSharedNumber .keyMethod

end Wap4410n.Apcfg
