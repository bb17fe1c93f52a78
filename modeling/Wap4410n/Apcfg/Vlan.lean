import Wap4410n.Apcfg.Vap

/-!
# Apcfg — the VLAN list

The list is a text of VLAN ids, each followed by `,`.  `apCfgVlanListGet` copies it into a static
buffer and returns that buffer; `apCfgVlanListAdd` cuts the buffer into tokens and
`apCfgVlanListDel` edits it in place.  Both end in `apCfgVlanListSet`, which calls the getter again
before it compares: whatever was written into the buffer is gone by then, and a text passed to it
that lies in the buffer is the stored one.
-/

namespace Wap4410n.Apcfg

open CLib

/-! ### The buffer -/

/-- `MAX_VLAN_LIST` -/
def maxVlanList : Nat := 8

/-- The configuration, and `static char value[64+1]` of `apCfgVlanListGet`. -/
@[ext] structure VlanStore where
  config : Config
  value : List Byte
  size_eq : value.length = 65

/-- A call on the VLAN list. -/
abbrev Vlan := Act VlanStore Buf

/-- A call on the configuration. -/
def onConfig {A : Type} (m : Cfg A) : Vlan A := fun s =>
  ((m s.config).1, { s with config := (m s.config).2 })

/-- `value`, and the buffer written in its place. -/
def editValue {A : Type} (f : List Byte → Run Buf (List Byte × A)) : Vlan A := fun s =>
  match f s.value with
  | .error e => (.error e, s)
  | .ok (value, a) =>
    if h : value.length = 65 then (.ok a, { s with value, size_eq := h })
    else (.error (.outside .value), s)

/-- The text at an offset of the buffer. -/
def valueAt (off : Nat) : Vlan CStr := fun s => (stringAt .value (s.value.drop off), s)

/-- `apCfgVlanListGet`, which returns `value` -/
def apCfgVlanListGet : Vlan Unit := do
  let p ← onConfig (nvramSafeGet (.sys .vlanList))
  -- `strcpy(value, p);`
  editValue fun value =>
    if p.length < value.length then .ok (p.mem ++ value.drop (p.length + 1), ())
    else .error (.outside .value)

/-! ### Setting -/

/-- A text of the caller's, or an offset of `value`. -/
inductive VlanText where
  | own (s : CStr)
  | value (off : Nat)

/-- The text, as it is when it is read. -/
def VlanText.text : VlanText → Vlan CStr
  | .own s => pure s
  | .value off => valueAt off

/-- `apCfgVlanListSet` -/
def apCfgVlanListSet (p : VlanText) : Vlan Status := do
  apCfgVlanListGet
  let text ← p.text
  let list ← valueAt 0
  Act.when (text ≠ list) (onConfig do
    scfgmgrSet (.sys .vlanList) text
    aplSetFlag aplVlan)
  return .ok

/-- `apCfgVlanListClear` -/
def apCfgVlanListClear : Vlan Status := do
  onConfig (scfgmgrSet (.sys .vlanList) .empty)
  return .ok

/-! ### Adding -/

/-- A buffer that holds a text from `pos` on reaches beyond it. -/
theorem lt_of_ofMem {value : List Byte} {pos : Nat} {text : CStr}
    (h : CStr.ofMem (value.drop pos) = some text) : pos < value.length := by
  by_contra hge
  rw [List.drop_eq_nil_iff.mpr (Nat.le_of_not_lt hge)] at h
  cases h

/-- Whether `v` is among the tokens of the buffer from `pos` on.  The `,` behind each token is
overwritten. -/
def vlanTokens (v : Int) (value : List Byte) (pos : Nat) : Run Buf (List Byte × Bool) :=
  match _h : CStr.ofMem (value.drop pos) with
  | none => .error (.outside .value)
  | some text =>
    let start := (text.bytes.takeWhile (· = 0x2c)).length
    let token := (text.drop start).upTo 0x2c
    let stop := pos + start + token.length
    if token.length = 0 then .ok (value, false)
    else if value[stop]? = some 0x2c then
      if v = atoi token then .ok (value.set stop 0, true)
      else vlanTokens v (value.set stop 0) (stop + 1)
    else if v = atoi token then .ok (value, true)
    else vlanTokens v value stop
termination_by value.length - pos
decreasing_by
  · have hpos := lt_of_ofMem _h
    rw [List.length_set]
    omega
  · have hpos := lt_of_ofMem _h
    have hstop : pos < stop := by omega
    exact Nat.sub_lt_sub_left hpos hstop

/-- A pass of the loop, with the text it finds. -/
theorem vlanTokens_text {v : Int} {value : List Byte} {pos : Nat} {text token : CStr}
    (h : CStr.ofMem (value.drop pos) = some text)
    (hstart : text.bytes.takeWhile (· = 0x2c) = []) (htoken : text.upTo 0x2c = token) :
    vlanTokens v value pos =
      if token.length = 0 then .ok (value, false)
      else if value[pos + token.length]? = some 0x2c then
        if v = atoi token then .ok (value.set (pos + token.length) 0, true)
        else vlanTokens v (value.set (pos + token.length) 0) (pos + token.length + 1)
      else if v = atoi token then .ok (value, true)
      else vlanTokens v value (pos + token.length) := by
  have hdrop : (text.drop 0).upTo 0x2c = token := htoken
  rw [vlanTokens]
  split
  · rename_i hnone
    rw [h] at hnone
    cases hnone
  · rename_i text' hsome
    rw [h] at hsome
    cases hsome
    simp only [hstart, List.length_nil, Nat.add_zero, hdrop]

/-- `apCfgVlanListAdd` -/
def apCfgVlanListAdd (v : Int) : Vlan Status := do
  -- `VLAN_TAG_MIN` to `VLAN_TAG_MAX`
  if v < 1 ∨ 0x0FFE < v then return .error else
  apCfgVlanListGet
  if ← editValue fun value => vlanTokens v value 0 then return .error else
  apCfgVlanListGet
  let list ← valueAt 0
  let vlan ← onConfig (store .vlan maxVlanList (list.append ((CStr.ofInt v).append (.text ","))))
  apCfgVlanListSet (.own vlan)

/-! ### Deleting -/

/-- `while( *p != '\0')`: the edited buffer, and the offset of `vlanList` in it. -/
def vlanDelete (vlan : CStr) (value : List Byte) (p : Nat) : Run Buf (List Byte × Nat) :=
  match _h : CStr.ofMem (value.drop p) with
  | none => .error (.outside .value)
  | some text =>
    let len := vlan.length
    if text.length = 0 then .ok (value, 0) else do
    if ← memcmpEq .value len (value.drop p) vlan.mem then
      if p = 0 then return (value, len)
      else if (text.drop len).length = 0 then return (value.set p 0, 0)
      else
        -- `memmove(p, p+len, strlen(p)-len);` leaves the NUL where it is
        return (value.take p ++ (text.bytes.drop len ++ value.drop (p + (text.length - len))), 0)
    else
      match text.strchr 0x2c with
      | none => .error (.null .value)
      | some _ => vlanDelete vlan value (p + (text.upTo 0x2c).length + 1)
termination_by value.length - p
decreasing_by
  have hpos := lt_of_ofMem _h
  omega

/-- A pass of the loop, with the text it finds. -/
theorem vlanDelete_text {vlan : CStr} {value : List Byte} {p : Nat} {text : CStr}
    (h : CStr.ofMem (value.drop p) = some text) :
    vlanDelete vlan value p =
      (if text.length = 0 then .ok (value, 0) else do
        if ← memcmpEq .value vlan.length (value.drop p) vlan.mem then
          if p = 0 then return (value, vlan.length)
          else if (text.drop vlan.length).length = 0 then return (value.set p 0, 0)
          else
            return (value.take p ++
              (text.bytes.drop vlan.length ++ value.drop (p + (text.length - vlan.length))), 0)
        else
          match text.strchr 0x2c with
          | none => .error (.null .value)
          | some _ => vlanDelete vlan value (p + (text.upTo 0x2c).length + 1)) := by
  rw [vlanDelete]
  split
  · rename_i hnone
    rw [h] at hnone
    cases hnone
  · rename_i text' hsome
    rw [h] at hsome
    cases hsome
    rfl

/-- `apCfgVlanListDel` -/
def apCfgVlanListDel (v : Int) : Vlan Status := do
  let vlan ← onConfig (store .vlan 5 ((CStr.ofInt v).append (.text ",")))
  apCfgVlanListGet
  let vlanList ← editValue fun value => vlanDelete vlan value 0
  apCfgVlanListSet (.value vlanList)

end Wap4410n.Apcfg
