import Wap4410n.Apcfg.Bridges
import Wap4410n.Editcfg.Assign
import Wap4410n.Snmp.TrustedHost
import Wap4410n.Support.Block
import Wap4410n.Utility.Ipv6

/-!
# Snmp — the addresses of remote bridges

The address of a remote bridge is written as an octet string: nothing, twelve digits, or six pairs
of digits with `:` or `-` between them.  `RESERVE1` brings it into the form of 17 characters with
`toValidMAC` and looks at the digits with `checkMacAddress`, which copies twelve of them into
`macStr12[13]`; `ACTION` stores the form with `setMacAddress`.  What `toValidMAC` refuses is empty
for the two others, and of the empty text `checkMacAddress` reads what was never stored.

* `toValidMAC_eq`: the texts that are brought into the form, and their digits.
* `checkMacAddress_form`: the check of a text in the form.
* `handles_iff`: the octet strings that are handled as they should be.
-/

namespace Wap4410n.Snmp

open CLib Apcfg
open Editcfg (scMacStr17ToStr12)
open Utility (scValidHex)

/-! ### The helpers -/

/-- `isValidChar`; the NUL that ends `validChar` is found, too -/
def isValidChar (c : Byte) : Bool := c = 0 || (ascii "0123456789abcdefABCDEF".toList).contains c

/-- `mac[i]==':' || mac[i]=='-'` -/
def isSeparator (c : Byte) : Bool := c = 0x3a || c = 0x2d

/-- `for(i=0; i<6; i++)`: pairs of characters, a colon behind each -/
def colons : Nat → List Byte → List Byte
  | i + 1, a :: b :: p => a :: b :: 0x3a :: colons i p
  | _, _ => []

/-- `toValidMAC` -/
def toValidMAC (mac : CStr) : Option CStr :=
  if mac.bytes.any fun c => !isValidChar c && !isSeparator c then none
  else if mac.length = 17 then
    if [2, 5, 8, 11, 14].any fun i => !isSeparator (mac.bytes.getD i 0) then none else some mac
  else if mac.length = 12 then some (.before ((colons 6 mac.bytes).take 17))
  else none

/-- `scValidHexs`, on an array of which `str` has been stored -/
def scValidHexs : List Byte → Nat → Run Buf Bool
  | _, 0 => .ok true
  | [], _ + 1 => .error (.outside .array)
  | c :: str, len + 1 => if scValidHex c then scValidHexs str len else .ok false

/-- `checkMacAddress` -/
def checkMacAddress (value : CStr) : Run Buf SnmpErr :=
  let macStr12 := (Block.fresh 13).strcpy
    (if value.length = 17 then scMacStr17ToStr12 value.bytes else value)
  if ¬ macStr12.InBounds then .error (.outside .array) else do
    if !(← scValidHexs macStr12.bytes 12) then return .wrongValue
    return if macStr12.bytes.getD 1 0 ∈ ascii "24680".toList then .noError else .wrongValue

/-- `setMacAddress` -/
def setMacAddress (unit index : Nat) (value : CStr) : Cfg Unit :=
  if value.length = 17 then Act.ignore (apCfgRemoteWbrMacAddrSet unit index value)
  else if value.length = 12 then
    Act.ignore (apCfgRemoteWbrMacAddrSet unit index (.before ((colons 6 value.bytes).take 17)))
  else Act.ignore (apCfgRemoteWbrMacAddrSet unit index (.text "00:00:00:00:00:00"))

/-! ### The write methods -/

/-- `ASN_OCTET_STR` -/
def asnOctetStr : Byte := 0x04

/-- The value of a variable: its type and its bytes. -/
structure OctetString where
  type : Byte
  octets : List Byte

/-- `memset(val, 0x00, 20); memcpy(val, var_val, var_val_len);`, and `brMac`, which is empty where
`toValidMAC` returns NULL -/
def brMac (octets : List Byte) : Run Buf CStr :=
  let val := (Block.zeroed 20).memcpy octets
  if ¬ val.InBounds then .error (.outside .array)
  else match val.held with
    | none => .error (.outside .array)
    | some mac => .ok ((toValidMAC mac).getD .empty)

/-- The write method of an address: the `index`-th of the radio, and what `COMMIT` does. -/
def writeRemoteMac (index : Nat) (commit : Cfg Unit) (unit : Nat) (v : OctetString) :
    WriteMethod Config Buf
  | .reserve1 =>
    if v.type ≠ asnOctetStr then return .wrongType
    else if v.octets.length ≠ 0 ∧ v.octets.length ≠ 12 ∧ v.octets.length ≠ 17 then
      return .wrongLength
    else Act.lift (brMac v.octets >>= checkMacAddress)
  | .action => do
    let mac ← Act.lift (brMac v.octets)
    setMacAddress unit index mac
    return .noError
  | .commit => do
    commit
    return .noError
  | .reserve2 | .free | .undo => return .noError

/-- `write_remoteRepeatMacAddress1` -/
def writeRemoteRepeatMacAddress1 : Nat → OctetString → WriteMethod Config Buf :=
  writeRemoteMac 0 apcfgSubmit

/-- `write_remoteRepeatMacAddress2` -/
def writeRemoteRepeatMacAddress2 : Nat → OctetString → WriteMethod Config Buf :=
  writeRemoteMac 1 apcfgSubmit

/-- `write_remoteRepeatMacAddress3` -/
def writeRemoteRepeatMacAddress3 : Nat → OctetString → WriteMethod Config Buf :=
  writeRemoteMac 2 apcfgSubmit

/-- `write_remoteBridgeMacAddress1` -/
def writeRemoteBridgeMacAddress1 : Nat → OctetString → WriteMethod Config Buf :=
  writeRemoteMac 0 apcfgSubmit

/-- `write_remoteBridgeMacAddress2` -/
def writeRemoteBridgeMacAddress2 : Nat → OctetString → WriteMethod Config Buf :=
  writeRemoteMac 1 apcfgSubmit

/-- `write_remoteBridgeMacAddress3` -/
def writeRemoteBridgeMacAddress3 : Nat → OctetString → WriteMethod Config Buf :=
  writeRemoteMac 2 apcfgSubmit

/-- `write_remoteBridgeMacAddress4`, which leaves the settings to another commit -/
def writeRemoteBridgeMacAddress4 : Nat → OctetString → WriteMethod Config Buf :=
  writeRemoteMac 3 (pure ())

/-- The objects. -/
inductive RemoteMac where
  | repeat1 | repeat2 | repeat3
  | bridge1 | bridge2 | bridge3 | bridge4
deriving DecidableEq, Repr

namespace RemoteMac

/-- Its write method. -/
def write : RemoteMac → Nat → OctetString → WriteMethod Config Buf
  | repeat1 => writeRemoteRepeatMacAddress1
  | repeat2 => writeRemoteRepeatMacAddress2
  | repeat3 => writeRemoteRepeatMacAddress3
  | bridge1 => writeRemoteBridgeMacAddress1
  | bridge2 => writeRemoteBridgeMacAddress2
  | bridge3 => writeRemoteBridgeMacAddress3
  | bridge4 => writeRemoteBridgeMacAddress4

/-- The address it stores. -/
def index : RemoteMac → Fin 8
  | repeat1 | bridge1 => 0
  | repeat2 | bridge2 => 1
  | repeat3 | bridge3 => 2
  | bridge4 => 3

theorem write_eq (h : RemoteMac) : ∃ commit, h.write = writeRemoteMac h.index commit := by
  cases h <;> exact ⟨_, rfl⟩

end RemoteMac

/-! ### Addresses -/

/-- The text without every third character. -/
def pairsOf : List Byte → List Byte
  | a :: b :: _ :: s => a :: b :: pairsOf s
  | s => s

/-- The digits of an address in either form. -/
def macDigits (s : List Byte) : List Byte := if s.length = 17 then pairsOf s else s

/-- Twelve characters, or 17 with every third a separator. -/
def MacShape (s : List Byte) : Prop :=
  s.length = 12 ∨ s.length = 17 ∧ ∀ i ∈ [2, 5, 8, 11, 14], isSeparator (s.getD i 0) = true

/-- The text is an address. -/
def IsMac (s : List Byte) : Prop :=
  MacShape s ∧ ∀ d ∈ macDigits s, (digitValue d).isSome = true

/-- The bytes that pairs of digits are. -/
def octetsOf : List Byte → List Nat
  | a :: b :: s => (16 * (digitValue a).getD 0 + (digitValue b).getD 0) :: octetsOf s
  | _ => []

/-- The bytes of an address. -/
def macOctets (s : List Byte) : List Nat := octetsOf (macDigits s)

/-- The lowest bit of the first byte is 0. -/
def Unicast (s : List Byte) : Prop := (macOctets s).headD 0 % 2 = 0

/-- What a write should let through: nothing, or a unicast address. -/
def Accepts (s : List Byte) : Prop := s = [] ∨ IsMac s ∧ Unicast s

/-- The octet string is handled as it should be: `RESERVE1` lets it through if it is nothing or a
unicast address, and reads and writes only what is its own; and for one that may pass `ACTION`
stores a text of 17 characters that is the same six bytes. -/
structure Handles (h : RemoteMac) (s : List Byte) : Prop where
  reserve : ∀ (unit : Nat) (c : Config), ∃ status,
    h.write unit ⟨asnOctetStr, s⟩ .reserve1 c = (.ok status, c) ∧
      (status = .noError ↔ Accepts s)
  action : ∀ (unit : Nat) (c : Config) (a : Bridges),
    c.get (.radio unit .remoteBridgeMac) = a.value → Accepts s →
      ∃ c' t, h.write unit ⟨asnOctetStr, s⟩ .action c = (.ok .noError, c') ∧
        apCfgRemoteWbrMacAddrGet unit h.index c' = (.ok t, c') ∧
        t.length = 17 ∧ IsMac t.bytes ∧
        macOctets t.bytes = if s = [] then List.replicate 6 0 else macOctets s

/-! ### Characters -/

section Characters

/-- What `toValidMAC` lets stand. -/
theorem isValidChar_iff {c : Byte} (h : c ≠ 0) : isValidChar c = (digitValue c).isSome := by
  have hall : ∀ c, c ≠ 0 → isValidChar c = (digitValue c).isSome :=
    forall_byte (by decide)
  exact hall c h

theorem scValidHex_iff {c : Byte} (h : c ≠ 0) : scValidHex c = (digitValue c).isSome := by
  have hall : ∀ c, c ≠ 0 → scValidHex c = (digitValue c).isSome :=
    forall_byte (by decide)
  exact hall c h

/-- The even digits: the numerals that are looked for, and letters. -/
theorem even_digit {d : Byte} (h : (digitValue d).isSome = true) :
    (digitValue d).getD 0 % 2 = 0 ↔
      d ∈ ascii "24680".toList ∨ d ∈ ascii "ACEace".toList := by
  have hall : ∀ d, (digitValue d).isSome = true → ((digitValue d).getD 0 % 2 = 0 ↔
      d ∈ ascii "24680".toList ∨ d ∈ ascii "ACEace".toList) := forall_byte (by decide)
  exact hall d h

theorem numeral_ne_letter {d : Byte} (h : d ∈ ascii "24680".toList) :
    d ∉ ascii "ACEace".toList := by
  have hall : ∀ d, d ∈ ascii "24680".toList → d ∉ ascii "ACEace".toList :=
    forall_byte (by decide)
  exact hall d h

end Characters

/-! ### The form of 17 characters -/

/-- Digits and separators, in either shape. -/
def Formed (t : List Byte) : Prop :=
  (∀ c ∈ t, (digitValue c).isSome = true ∨ isSeparator c = true) ∧ MacShape t

section Form

/-- Twelve characters with the colons. -/
theorem colons_twelve {s : List Byte} (h : s.length = 12) :
    ((colons 6 s).take 17).length = 17 ∧ pairsOf ((colons 6 s).take 17) = s ∧
      (∀ i ∈ [2, 5, 8, 11, 14], isSeparator (((colons 6 s).take 17).getD i 0) = true) ∧
      ∀ c ∈ (colons 6 s).take 17, c ∈ s ∨ c = 0x3a := by
  match s, h with
  | [_, _, _, _, _, _, _, _, _, _, _, _], _ =>
    refine ⟨rfl, rfl, ?_, ?_⟩
    · simp [colons, isSeparator]
    · simp [colons]

/-- What is brought into the form. -/
def formOf (t : CStr) : CStr := if t.length = 17 then t else .before ((colons 6 t.bytes).take 17)

theorem formOf_spec {t : CStr} (h : MacShape t.bytes) :
    (formOf t).length = 17 ∧ macDigits (formOf t).bytes = macDigits t.bytes ∧
      MacShape (formOf t).bytes := by
  obtain h | ⟨h, hsep⟩ := h
  · obtain ⟨hlen, hpairs, hsep, hmem⟩ := colons_twelve h
    have hnul : (0 : Byte) ∉ (colons 6 t.bytes).take 17 := fun h₀ =>
      (hmem 0 h₀).elim t.noNul (by decide)
    have hbytes : (formOf t).bytes = (colons 6 t.bytes).take 17 := by
      rw [formOf, if_neg (by rw [CStr.length, h]; decide), CStr.bytes_before hnul]
    refine ⟨by rw [CStr.length, hbytes, hlen], ?_, .inr ⟨by rw [hbytes, hlen], ?_⟩⟩
    · rw [macDigits, macDigits, hbytes, if_pos hlen, hpairs, if_neg (by rw [h]; decide)]
    · rw [hbytes]
      exact hsep
  · have hform : formOf t = t := if_pos h
    rw [hform]
    exact ⟨h, rfl, .inr ⟨h, hsep⟩⟩

/-- The characters that are refused. -/
theorem any_chars (t : CStr) :
    (t.bytes.any fun c => !isValidChar c && !isSeparator c) = false ↔
      ∀ c ∈ t.bytes, (digitValue c).isSome = true ∨ isSeparator c = true := by
  rw [List.any_eq_false]
  refine forall₂_congr fun c hc => ?_
  rw [isValidChar_iff (CStr.ne_zero hc)]
  cases (digitValue c).isSome <;> simp

/-- The places that are refused. -/
theorem any_places (s : List Byte) :
    ([2, 5, 8, 11, 14].any fun i => !isSeparator (s.getD i 0)) = false ↔
      ∀ i ∈ [2, 5, 8, 11, 14], isSeparator (s.getD i 0) = true := by
  rw [List.any_eq_false]
  refine forall₂_congr fun i _ => ?_
  cases isSeparator (s.getD i 0) <;> simp

/-- **What is brought into the form.** -/
theorem toValidMAC_formed {t : CStr} (h : Formed t.bytes) : toValidMAC t = some (formOf t) := by
  obtain ⟨hchars, hshape⟩ := h
  rw [toValidMAC, formOf, (any_chars t).mpr hchars]
  obtain h | ⟨h, hsep⟩ := hshape
  · have hlen : t.length = 12 := h
    rw [if_neg (by decide), if_neg (by rw [hlen]; decide), if_pos hlen,
      if_neg (by rw [hlen]; decide)]
  · have hlen : t.length = 17 := h
    rw [if_neg (by decide), if_pos hlen, (any_places t.bytes).mpr hsep, if_neg (by decide),
      if_pos hlen]

/-- **What is refused.** -/
theorem toValidMAC_refused {t : CStr} (h : ¬ Formed t.bytes) : toValidMAC t = none := by
  unfold toValidMAC
  split
  · rfl
  · rename_i hchars
    have hchars := (any_chars t).mp (Bool.eq_false_of_not_eq_true hchars)
    split
    · rename_i hlen
      split
      · rfl
      · rename_i hsep
        have hsep := (any_places t.bytes).mp (Bool.eq_false_of_not_eq_true hsep)
        exact absurd ⟨hchars, .inr ⟨hlen, hsep⟩⟩ h
    · split
      · rename_i hlen
        exact absurd ⟨hchars, .inl hlen⟩ h
      · rfl

/-- `val` holds the bytes up to the first NUL. -/
theorem brMac_eq {s : List Byte} (h : s.length < 20) :
    brMac s = .ok ((toValidMAC (.before s)).getD .empty) := by
  have hbytes :
      ((Block.zeroed 20).memcpy s).bytes = s ++ 0 :: List.replicate (19 - s.length) 0 := by
    have hrest : 20 - s.length = 19 - s.length + 1 := by omega
    rw [Block.memcpy, Block.store, splice_zero, Block.zeroed, List.drop_replicate]
    show s ++ List.replicate (20 - s.length) 0 = _
    rw [hrest, List.replicate_succ]
  have hin : ((Block.zeroed 20).memcpy s).InBounds :=
    Block.inBounds_memcpy.mpr ⟨Block.inBounds_zeroed 20, Nat.le_of_lt h⟩
  have hheld : ((Block.zeroed 20).memcpy s).held = some (.before s) := by
    have hall : (s ++ 0 :: List.replicate (19 - s.length) 0).length ≤ 20 := by
      rw [List.length_append, List.length_cons, List.length_replicate]
      omega
    have htake : ((Block.zeroed 20).memcpy s).bytes.take 20 =
        s ++ 0 :: List.replicate (19 - s.length) 0 := by
      rw [hbytes, List.take_of_length_le hall]
    exact (congrArg CStr.ofMem htake).trans (CStr.ofMem_before s _)
  rw [brMac, if_neg (not_not_intro hin), hheld]

end Form

/-! ### The check -/

section Check

/-- The digits are looked at until one is none. -/
theorem scValidHexs_eq {s : List Byte} (h : (0 : Byte) ∉ s) (r : List Byte) :
    scValidHexs (s ++ r) s.length = .ok (s.all fun d => (digitValue d).isSome) := by
  induction s with
  | nil => cases r <;> simp [scValidHexs]
  | cons c s ih =>
      rw [List.mem_cons, not_or] at h
      rw [List.cons_append, List.length_cons, scValidHexs, scValidHex_iff (Ne.symm h.1), ih h.2]
      cases hc : (digitValue c).isSome with
      | true => simp [hc]
      | false => simp [hc]

theorem pairsOf_subset : ∀ s : List Byte, pairsOf s ⊆ s
  | a :: b :: c :: s => by
      have ih := pairsOf_subset s
      intro x hx
      simp only [pairsOf, List.mem_cons] at hx ⊢
      rcases hx with hx | hx | hx
      · exact .inl hx
      · exact .inr (.inl hx)
      · exact .inr (.inr (.inr (ih hx)))
  | [] | [_] | [_, _] => List.Subset.refl _

/-- The digits of a text of 17 characters. -/
theorem scMacStr17ToStr12_bytes {m : CStr} (h : m.length = 17) :
    (scMacStr17ToStr12 m.bytes).bytes = pairsOf m.bytes ∧ (pairsOf m.bytes).length = 12 := by
  have hcut : ∀ l : List Byte, l.length = 17 →
      scMacStr17ToStr12 l = .before (pairsOf l) ∧ (pairsOf l).length = 12 := fun l hl => by
    match l, hl with
    | [_, _, _, _, _, _, _, _, _, _, _, _, _, _, _, _, _], _ => exact ⟨rfl, rfl⟩
  obtain ⟨hbefore, hlen⟩ := hcut m.bytes h
  refine ⟨?_, hlen⟩
  rw [hbefore, CStr.bytes_before fun h₀ => m.noNul (pairsOf_subset _ h₀)]

/-- **The check of a text in the form**: all of `macStr12` that is read was stored. -/
theorem checkMacAddress_form {m : CStr} (h : m.length = 17) :
    ∃ status, checkMacAddress m = .ok status ∧
      (status = .noError ↔ (∀ d ∈ macDigits m.bytes, (digitValue d).isSome = true) ∧
        (macDigits m.bytes).getD 1 0 ∈ ascii "24680".toList) := by
  obtain ⟨hbytes, hlen⟩ := scMacStr17ToStr12_bytes h
  have hdigits : macDigits m.bytes = pairsOf m.bytes := if_pos h
  have hnul : (0 : Byte) ∉ pairsOf m.bytes := fun h₀ => m.noNul (pairsOf_subset _ h₀)
  have hstored : ((Block.fresh 13).strcpy (scMacStr17ToStr12 m.bytes)).bytes =
      pairsOf m.bytes ++ [0] := by
    rw [Block.bytes_strcpy, CStr.mem, hbytes, Block.bytes_fresh, List.drop_nil, List.append_nil]
  have hin : ((Block.fresh 13).strcpy (scMacStr17ToStr12 m.bytes)).InBounds :=
    Block.inBounds_strcpy.mpr ⟨Block.inBounds_fresh 13, by
      rw [CStr.length, hbytes, hlen]
      decide⟩
  have hread : scValidHexs (pairsOf m.bytes ++ [0]) 12 =
      .ok ((pairsOf m.bytes).all fun d => (digitValue d).isSome) :=
    hlen ▸ scValidHexs_eq hnul [0]
  have hsecond : (pairsOf m.bytes ++ [0]).getD 1 0 = (pairsOf m.bytes).getD 1 0 := by
    rw [List.getD_eq_getElem?_getD, List.getElem?_append_left (by rw [hlen]; decide),
      List.getD_eq_getElem?_getD]
  rw [checkMacAddress, if_pos h, if_neg (not_not_intro hin), hstored, hread, hdigits, hsecond]
  by_cases hall : ∀ d ∈ pairsOf m.bytes, (digitValue d).isSome = true
  · have htrue : ((pairsOf m.bytes).all fun d => (digitValue d).isSome) = true :=
      List.all_eq_true.mpr hall
    rw [htrue, and_iff_right hall]
    refine ⟨_, rfl, ?_⟩
    split
    · rename_i hsecond
      exact iff_of_true rfl hsecond
    · rename_i hsecond
      exact iff_of_false (by decide) hsecond
  · have hfalse : ((pairsOf m.bytes).all fun d => (digitValue d).isSome) = false :=
      Bool.eq_false_iff.mpr (mt List.all_eq_true.mp hall)
    rw [hfalse]
    exact ⟨.wrongValue, rfl, iff_of_false (by decide) fun h => hall h.1⟩

/-- **The check of the empty text** leaves what was stored. -/
theorem checkMacAddress_empty : checkMacAddress .empty = .error (.outside .array) := by
  decide +kernel

end Check

/-! ### Addresses and texts in either shape -/

section Shapes

variable {s : List Byte}

/-- A text has digits and every third character besides. -/
theorem mem_of_shape (hshape : MacShape s) {c : Byte} (hc : c ∈ s) :
    c ∈ macDigits s ∨ isSeparator c = true := by
  obtain h | ⟨h, hsep⟩ := hshape
  · rw [macDigits, if_neg (by rw [h]; decide)]
    exact .inl hc
  · rw [macDigits, if_pos h]
    match s, h with
    | [_, _, _, _, _, _, _, _, _, _, _, _, _, _, _, _, _], _ =>
      simp only [List.forall_mem_cons, List.getD_cons_succ, List.getD_cons_zero] at hsep
      simp only [pairsOf, List.mem_cons, List.not_mem_nil] at hc ⊢
      obtain ⟨h₂, h₅, h₈, h₁₁, h₁₄, -⟩ := hsep
      grind

theorem not_formed_nil : ¬ Formed [] := fun h => absurd h.2 (by simp [MacShape])

/-- An address has nothing but digits and separators. -/
theorem IsMac.formed (h : IsMac s) : Formed s :=
  ⟨fun c hc => (mem_of_shape h.1 hc).imp_left (h.2 c), h.1⟩

/-- There is no NUL among them. -/
theorem Formed.noNul (h : Formed s) : (0 : Byte) ∉ s := fun h₀ =>
  (h.1 0 h₀).elim (fun h => absurd h (by decide)) fun h => absurd h (by decide)

theorem length_macDigits (h : MacShape s) : (macDigits s).length = 12 := by
  obtain h | ⟨h, -⟩ := h
  · rw [macDigits, if_neg (by rw [h]; decide), h]
  · rw [macDigits, if_pos h]
    match s, h with
    | [_, _, _, _, _, _, _, _, _, _, _, _, _, _, _, _, _], _ => rfl

/-- The second digit decides whether an address is of one station. -/
theorem unicast_iff (h : IsMac s) :
    Unicast s ↔ (macDigits s).getD 1 0 ∈ ascii "24680".toList ∨
      (macDigits s).getD 1 0 ∈ ascii "ACEace".toList := by
  obtain ⟨hshape, hdigits⟩ := h
  have hlen := length_macDigits hshape
  unfold Unicast macOctets
  match hs : macDigits s with
  | [] => rw [hs] at hlen; cases hlen
  | [_] => rw [hs] at hlen; cases hlen
  | a :: b :: r =>
    have hb : (digitValue b).isSome = true := hdigits b (by rw [hs]; simp)
    show _ ↔ b ∈ ascii "24680".toList ∨ b ∈ ascii "ACEace".toList
    rw [← even_digit hb]
    show (16 * (digitValue a).getD 0 + (digitValue b).getD 0) % 2 = 0 ↔
      (digitValue b).getD 0 % 2 = 0
    omega

end Shapes

/-! ### The octet strings that are handled -/

/-- The condition: the length is none of the three, or what stands before the first NUL is made of
digits and separators in one of the two shapes and, where its places hold digits, the second is no
even letter if that is all of the string, and no even numeral if it is not. -/
def Handled (s : List Byte) : Prop :=
  let t := (CStr.before s).bytes
  (s.length ≠ 0 ∧ s.length ≠ 12 ∧ s.length ≠ 17) ∨
    Formed t ∧ ((∀ d ∈ macDigits t, (digitValue d).isSome = true) →
      (macDigits t).getD 1 0 ∉
        if t.length = s.length then ascii "ACEace".toList else ascii "24680".toList)

section Handled

variable {h : RemoteMac} {s : List Byte}

/-- A text that is all of the string is the string. -/
theorem before_eq_iff : (CStr.before s).bytes.length = s.length ↔ (0 : Byte) ∉ s := by
  constructor
  · intro hlen h₀
    have hall : (CStr.before s).bytes = s := (List.takeWhile_sublist _).eq_of_length hlen
    exact (CStr.before s).noNul (hall.symm ▸ h₀)
  · intro hnul
    rw [CStr.bytes_before hnul]

/-- `RESERVE1` of a string of another length. -/
theorem write_length (hs : s.length ≠ 0 ∧ s.length ≠ 12 ∧ s.length ≠ 17) (unit : Nat)
    (c : Config) :
    h.write unit ⟨asnOctetStr, s⟩ .reserve1 c = (.ok .wrongLength, c) := by
  obtain ⟨commit, hwrite⟩ := h.write_eq
  rw [hwrite, writeRemoteMac, if_neg (by simp), if_pos hs]
  rfl

/-- `RESERVE1` of a string of one of the lengths. -/
theorem write_reserve (hs : s.length = 0 ∨ s.length = 12 ∨ s.length = 17) (unit : Nat)
    (c : Config) :
    h.write unit ⟨asnOctetStr, s⟩ .reserve1 c =
      (checkMacAddress ((toValidMAC (.before s)).getD .empty), c) := by
  obtain ⟨commit, hwrite⟩ := h.write_eq
  have hlen : ¬ (s.length ≠ 0 ∧ s.length ≠ 12 ∧ s.length ≠ 17) := by omega
  have hval : s.length < 20 := by omega
  rw [hwrite, writeRemoteMac, if_neg (by simp), if_neg hlen, brMac_eq hval]
  rfl

/-- A string that is not brought into the form has the check read what was not stored. -/
theorem write_refused (hs : s.length = 0 ∨ s.length = 12 ∨ s.length = 17)
    (hformed : ¬ Formed (CStr.before s).bytes) (unit : Nat) (c : Config) :
    h.write unit ⟨asnOctetStr, s⟩ .reserve1 c = (.error (.outside .array), c) := by
  rw [write_reserve hs, toValidMAC_refused hformed]
  exact congrArg (·, c) checkMacAddress_empty

/-- A string that is brought into the form is let through for its digits. -/
theorem write_formed (hs : s.length = 0 ∨ s.length = 12 ∨ s.length = 17)
    (hformed : Formed (CStr.before s).bytes) (unit : Nat) (c : Config) :
    ∃ status, h.write unit ⟨asnOctetStr, s⟩ .reserve1 c = (.ok status, c) ∧
      (status = .noError ↔
        (∀ d ∈ macDigits (CStr.before s).bytes, (digitValue d).isSome = true) ∧
          (macDigits (CStr.before s).bytes).getD 1 0 ∈ ascii "24680".toList) := by
  obtain ⟨hlen, hdigits, -⟩ := formOf_spec hformed.2
  obtain ⟨status, hcheck, hiff⟩ := checkMacAddress_form hlen
  rw [hdigits] at hiff
  refine ⟨status, ?_, hiff⟩
  rw [write_reserve hs, toValidMAC_formed hformed]
  exact congrArg (·, c) hcheck

/-- **`ACTION` stores an address as 17 characters.** -/
theorem write_mac (hmac : IsMac s) (unit : Nat) {c : Config} {a : Bridges}
    (hc : c.get (.radio unit .remoteBridgeMac) = a.value) :
    ∃ c' t, h.write unit ⟨asnOctetStr, s⟩ .action c = (.ok .noError, c') ∧
      apCfgRemoteWbrMacAddrGet unit h.index c' = (.ok t, c') ∧
      t.length = 17 ∧ IsMac t.bytes ∧ macOctets t.bytes = macOctets s := by
  have hbefore : (CStr.before s).bytes = s := CStr.bytes_before hmac.formed.noNul
  have hformed : Formed (CStr.before s).bytes := hbefore.symm ▸ hmac.formed
  obtain ⟨hlen, hdigits, hshape⟩ := formOf_spec hformed.2
  rw [hbefore] at hdigits
  let m : BridgeMac := ⟨formOf (.before s), hlen⟩
  obtain ⟨c', hset, hvalue⟩ : ∃ c', apCfgRemoteWbrMacAddrSet unit h.index m.text c = (.ok .ok, c') ∧
      c'.get (.radio unit .remoteBridgeMac) = Bridges.value (Function.update a h.index m) := by
    have hvalue := bridgesSet_value hc h.index m
    rw [bridgesSet hc h.index m] at hvalue
    exact ⟨_, bridgesSet hc h.index m, hvalue⟩
  have hval : s.length < 20 := by
    obtain h | ⟨h, -⟩ := hmac.1
    · omega
    · omega
  have hmacs : brMac s = .ok m.text := by
    rw [brMac_eq hval, toValidMAC_formed hformed]
    rfl
  have hstore : setMacAddress unit h.index m.text c = (.ok (), c') := by
    rw [setMacAddress, if_pos hlen, Act.ignore, Act.bind_ok hset]
    rfl
  refine ⟨c', m.text, ?_, ?_, hlen, ⟨hshape, ?_⟩, ?_⟩
  · obtain ⟨commit, hwrite⟩ := h.write_eq
    rw [hwrite, writeRemoteMac, Act.lift_bind hmacs, Act.bind_ok hstore]
    rfl
  · rw [bridgesGet hvalue, Function.update_self]
  · show ∀ d ∈ macDigits (formOf (.before s)).bytes, _
    rw [hdigits]
    exact hmac.2
  · show octetsOf (macDigits (formOf (.before s)).bytes) = _
    rw [hdigits]
    rfl

/-- What should be let through, of the strings that are brought into the form. -/
theorem accepts_formed (hformed : Formed (CStr.before s).bytes) :
    Accepts s ↔ (CStr.before s).bytes.length = s.length ∧
      (∀ d ∈ macDigits (CStr.before s).bytes, (digitValue d).isSome = true) ∧
      ((macDigits (CStr.before s).bytes).getD 1 0 ∈ ascii "24680".toList ∨
        (macDigits (CStr.before s).bytes).getD 1 0 ∈ ascii "ACEace".toList) := by
  rw [before_eq_iff]
  constructor
  · rintro (rfl | ⟨hmac, hunicast⟩)
    · exact absurd hformed not_formed_nil
    · have hnul := hmac.formed.noNul
      rw [CStr.bytes_before hnul]
      exact ⟨hnul, hmac.2, (unicast_iff hmac).mp hunicast⟩
  · rintro ⟨hnul, hdigits, hsecond⟩
    rw [CStr.bytes_before hnul] at hformed hdigits hsecond
    exact .inr ⟨⟨hformed.2, hdigits⟩, (unicast_iff ⟨hformed.2, hdigits⟩).mpr hsecond⟩

/-- A string of another length is refused, as it should be. -/
theorem handles_length (h : RemoteMac) (hs : s.length ≠ 0 ∧ s.length ≠ 12 ∧ s.length ≠ 17) :
    Handles h s := by
  have hrefuse : ¬ Accepts s := by
    rintro (rfl | ⟨⟨hlen | ⟨hlen, -⟩, -⟩, -⟩)
    · exact hs.1 rfl
    · exact hs.2.1 hlen
    · exact hs.2.2 hlen
  refine ⟨fun unit c => ?_, fun _ _ _ _ haccepts => absurd haccepts hrefuse⟩
  exact ⟨.wrongLength, write_length hs unit c, iff_of_false (by decide) hrefuse⟩

/-- A string that is not brought into the form makes the check read what was not stored. -/
theorem not_handles_refused (hs : s.length = 0 ∨ s.length = 12 ∨ s.length = 17)
    (hformed : ¬ Formed (CStr.before s).bytes) : ¬ Handles h s := by
  intro hhandles
  obtain ⟨status, hrun, -⟩ := hhandles.reserve 0 ⟨fun _ => .empty, [], false⟩
  rw [write_refused hs hformed] at hrun
  cases hrun

/-- A string that is brought into the form is handled where its second digit is none of those that
the check takes for the wrong ones. -/
theorem handles_formed_iff (hs : s.length = 0 ∨ s.length = 12 ∨ s.length = 17)
    (hformed : Formed (CStr.before s).bytes) :
    Handles h s ↔ ((∀ d ∈ macDigits (CStr.before s).bytes, (digitValue d).isSome = true) →
      (macDigits (CStr.before s).bytes).getD 1 0 ∉
        if (CStr.before s).bytes.length = s.length then ascii "ACEace".toList
        else ascii "24680".toList) := by
  have haccepts := accepts_formed hformed
  constructor
  · intro hhandles hdigits hsecond
    obtain ⟨status, hrun, hiff⟩ := hhandles.reserve 0 ⟨fun _ => .empty, [], false⟩
    obtain ⟨status', hrun', hiff'⟩ :=
      write_formed (h := h) hs hformed 0 ⟨fun _ => .empty, [], false⟩
    rw [hrun] at hrun'
    obtain rfl : status = status' := by cases hrun'; rfl
    have hsame := hiff'.symm.trans hiff
    split at hsecond
    · rename_i hwhole
      have hnumeral := (hsame.mpr (haccepts.mpr ⟨hwhole, hdigits, .inr hsecond⟩)).2
      exact numeral_ne_letter hnumeral hsecond
    · rename_i hwhole
      exact hwhole (haccepts.mp (hsame.mp ⟨hdigits, hsecond⟩)).1
  · intro hcond
    refine ⟨fun unit c => ?_, fun unit c a hc hok => ?_⟩
    · obtain ⟨status, hrun, hiff⟩ := write_formed (h := h) hs hformed unit c
      refine ⟨status, hrun, hiff.trans ?_⟩
      rw [haccepts]
      constructor
      · rintro ⟨hdigits, hnumeral⟩
        have hwhole : (CStr.before s).bytes.length = s.length := by
          by_contra hshort
          have hnot := hcond hdigits
          rw [if_neg hshort] at hnot
          exact hnot hnumeral
        exact ⟨hwhole, hdigits, .inl hnumeral⟩
      · rintro ⟨hwhole, hdigits, hsecond⟩
        have hnot := hcond hdigits
        rw [if_pos hwhole] at hnot
        exact ⟨hdigits, hsecond.resolve_right hnot⟩
    · obtain rfl | ⟨hmac, -⟩ := hok
      · exact absurd hformed not_formed_nil
      · have hne : s ≠ [] := fun hnil => not_formed_nil (hnil ▸ hmac.formed)
        rw [if_neg hne]
        exact write_mac hmac unit hc

/-- **The octet strings that are handled as they should be.**  A write method lets through just the
empty string and the unicast addresses, reads nothing that was not stored, and stores what it let
through, for the strings in `Handled`. -/
theorem handles_iff (h : RemoteMac) (s : List Byte) : Handles h s ↔ Handled s := by
  by_cases hs : s.length ≠ 0 ∧ s.length ≠ 12 ∧ s.length ≠ 17
  · exact iff_of_true (handles_length h hs) (.inl hs)
  · have hs' : s.length = 0 ∨ s.length = 12 ∨ s.length = 17 := by omega
    by_cases hformed : Formed (CStr.before s).bytes
    · rw [handles_formed_iff hs' hformed]
      constructor
      · exact fun hcond => .inr ⟨hformed, hcond⟩
      · rintro (hlen | ⟨-, hcond⟩)
        · exact absurd hlen hs
        · exact hcond
    · refine iff_of_false (not_handles_refused hs' hformed) ?_
      rintro (hlen | ⟨hformed', -⟩)
      · exact hs hlen
      · exact hformed hformed'

end Handled

/-- The empty string, which means that the address is cleared, is not let through. -/
theorem empty_not_handled : ¬ Handles .repeat1 [] := not_handles_refused (.inl rfl) not_formed_nil

end Wap4410n.Snmp
