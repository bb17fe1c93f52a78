import Wap4410n.Apcfg.Vap
import Wap4410n.Support.Assoc

/-!
# Apcfg — the access control list of a VAP

The list is one string, `mac,name,used;` for each entry.  `apCfgAclAdd` and `apCfgAclDel` walk over
it from one `;` to the next and compare the first 17 characters of each unit with the MAC address,
in upper case; `scAclBufGet` decodes it by fixed offsets and the next `,`.
-/

namespace Wap4410n.Apcfg

open CLib

/-! ### The string -/

/-- `CFG_MAX_ACL_LINKSYS` -/
def cfgMaxAclLinksys : Nat := 20

/-- `sizeof(CFG_ACL_ENTRY)` -/
def sizeofCfgAclEntry : Nat := 40

/-- `CFG_MAX_ACL*sizeof(CFG_ACL_ENTRY)` -/
def finalValueSize : Nat := 256 * sizeofCfgAclEntry

/-- The letter in upper case. -/
def toUpper (b : Byte) : Byte := if 0x61 ≤ b ∧ b ≤ 0x7a then b - 0x20 else b

theorem eq_zero_of_toUpper {b : Byte} (h : toUpper b = 0) : b = 0 := by
  unfold toUpper at h
  grind

/-- `scToUppers` -/
def scToUppers (s : CStr) : CStr where
  bytes := s.bytes.map toUpper
  noNul h := by
    obtain ⟨b, hb, e⟩ := List.mem_map.mp h
    exact s.noNul (eq_zero_of_toUpper e ▸ hb)

/-- `sprintf(unitValue, "%s,%s,%d", pMacAddr, pName, used)` -/
def aclUnit (mac name : CStr) (used : Int) : CStr :=
  mac.append (.append (.text ",") (.append name (.append (.text ",") (.ofInt used))))

/-! ### Walking over the list -/

/-- Where a walk over the units ends: at the unit of the MAC address, with the text before it and
that from its `;` on, or at the end of the list, with the number of units. -/
inductive AclScan where
  | found (before unitEnd : CStr)
  | absent (count : Nat)

/-- `while(strlen(pUnit) > 0)` of `apCfgAclAdd` and `apCfgAclDel`, which differ in what becomes of a
unit without `;`. -/
def aclScan (noEnd : Nat → Run Buf AclScan) (mac before unit : CStr) (count : Nat) :
    Run Buf AclScan :=
  if unit.length = 0 then .ok (.absent count) else
  match h : unit.strchr 0x3b with
  | none => noEnd count
  | some unitEnd => do
    if ← memcmpEq .fullValue 17 unit.mem mac.mem then
      return .found before unitEnd
    else
      aclScan noEnd mac (before.append ((unit.upTo 0x3b).append (.text ";"))) (unitEnd.drop 1)
        (count + 1)
termination_by unit.length
decreasing_by
  have := CStr.strchr_length h
  simp
  omega

/-- `wlan%d_ssid%d_acl_list` -/
abbrev aclKey (unit bss : Nat) : Setting := .vap unit bss .aclList

/-! ### Calls -/

/-- `apCfgAclAdd` -/
def apCfgAclAdd (unit bss : Nat) (pMacAddr pName : CStr) (used : Int) : Cfg Status := do
  if ← Act.lift (memcmpEq .value 17 pMacAddr.mem (CStr.text "00:00:00:00:00:00").mem) then
    return .error
  else
  let pFullValue ← nvramSafeGet (aclKey unit bss)
  let mac := scToUppers pMacAddr
  -- without `;` the unit is copied from NULL, or the walk goes on there
  match ← Act.lift (aclScan (fun _ => .error (.null .fullValue)) mac .empty pFullValue 0) with
  | .found before unitEnd => do
    let unitValue ← store .unitValue sizeofCfgAclEntry (aclUnit mac pName used)
    let finalValue ← store .finalValue finalValueSize (before.append (unitValue.append unitEnd))
    scfgmgrSet (aclKey unit bss) finalValue
    aplSetFlag (aplVap unit bss)
    return .ok
  | .absent count => do
    if cfgMaxAclLinksys ≤ count then return .noMemory else
    let unitValue ← store .unitValue sizeofCfgAclEntry (aclUnit mac pName used)
    let finalValue ← store .finalValue finalValueSize
      (if 0 < pFullValue.length then pFullValue.append (unitValue.append (.text ";"))
        else unitValue.append (.text ";"))
    scfgmgrSet (aclKey unit bss) finalValue
    aplSetFlag (aplVap unit bss)
    return .ok

/-- `apCfgAclDel` -/
def apCfgAclDel (unit bss : Nat) (pMac : CStr) : Cfg Status := do
  let pFullValue ← nvramSafeGet (aclKey unit bss)
  match ← Act.lift
    (aclScan (fun count => .ok (.absent count)) (scToUppers pMac) .empty pFullValue 0)
    with
  | .found before unitEnd => do
    let finalValue ← store .finalValue finalValueSize (before.append (unitEnd.drop 1))
    scfgmgrSet (aclKey unit bss) finalValue
    aplSetFlag (aplVap unit bss)
    return .ok
  | .absent _ => return .enoent

/-! ### Decoding -/

/-- `CFG_ACL_ENTRY` -/
@[ext] structure CfgAclEntry where
  mac : CStr
  name : CStr
  used : Bool
deriving DecidableEq

/-- `while(strlen(pUnit) > 0)` of `scAclBufGet`. -/
def aclDecode (unit : CStr) : Run Buf (List CfgAclEntry) :=
  if unit.length = 0 then .ok [] else
  -- `pUnit+=18` leaves the string
  if unit.length < 18 then .error (.outside .fullValue) else
  match _h : (unit.drop 18).strchr 0x2c with
  | none => .error (.null .fullValue)
  | some pSep =>
    let name := (unit.drop 18).upTo 0x2c
    if 16 < name.length then .error (.outside .entryName) else
    let rest := pSep.drop 1
    -- `pUnit+=2` leaves the string
    if rest.length < 2 then .error (.outside .fullValue) else do
    let entries ← aclDecode (rest.drop 2)
    return { mac := unit.take 17, name, used := rest.mem.head? = some 0x31 } :: entries
termination_by unit.length
decreasing_by
  have := CStr.strchr_length _h
  simp at this ⊢
  omega

/-- `scAclBufGet`, with `scAclBufUsed` of the VAP: `FALSE`, or `TRUE` and the entries. -/
def scAclBufGet (unit bss : Nat) (scAclBufUsed : Bool) : Cfg (Option (List CfgAclEntry)) := do
  if 1 < unit then return none else
  if scAclBufUsed then return none else
  let pFullValue ← nvramSafeGet (aclKey unit bss)
  let entries ← Act.lift (aclDecode pFullValue)
  return some entries

end Wap4410n.Apcfg
