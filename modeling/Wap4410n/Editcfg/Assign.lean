import Wap4410n.Apcfg.Acl
import Wap4410n.Editcfg.Globals

/-!
# Editcfg — reading a value into its variable

Every attribute of the text names the function that reads its value.  Such a function checks the
value and stores it into the variable, or leaves the variable as it is.  Most of them differ in a
bound only (`Assign.digit`, `Assign.byteNumber`, `Assign.wordNumber`, `Assign.str`); a value that is
longer than the array of its variable is a fault.

The functions that read a secret take a value of stars for a secret that was not shown: they empty
the variable.
-/

namespace Wap4410n.Editcfg

open CLib Apcfg

/-! ### Texts of digits -/

/-- `IsStarStr` -/
def isStarStr (value : CStr) : Bool := value.bytes.all (· = 0x2a)

def isHex (c : Byte) : Bool :=
  0x30 ≤ c && c ≤ 0x39 || 0x41 ≤ c && c ≤ 0x46 || 0x61 ≤ c && c ≤ 0x66

/-- `IsHexStr`, from the index `i` of a text of length `l` on -/
def isHexStr (flag : Bool) (l i : Nat) : List Byte → Bool
  | [] => true
  | c :: s =>
    if isHex c then
      match s with
      | [] => true
      | d :: s => isHex d && isHexStr flag l (if flag then i + 3 else i + 2) (s.drop flag.toNat)
    else if i = (l + 1) / 2 ∧ flag then ascii "**:**:**".toList <+: c :: s
    else ascii "******".toList <+: c :: s
termination_by s => s.length
decreasing_by
  simp
  omega

/-- `c1=*(value+j)-'0'; c1=c1>10?(c1&0x0F)+9:c1;` -/
def hexValue (c : Byte) : Byte := if 10 < c - 0x30 then ((c - 0x30) &&& 0x0F) + 9 else c - 0x30

/-- A byte of `hexcpy`, from the index `j` of the text. -/
def hexByte (value : CStr) (j : Nat) : Byte :=
  hexValue (value.mem.getD j 0) <<< 4 ||| hexValue (value.mem.getD (j + 1) 0)

/-- `hexcpy`, of six bytes that stand `step` characters apart -/
def hexcpy (value : CStr) (step : Nat) : MacAddr where
  a := hexByte value 0
  b := hexByte value step
  c := hexByte value (2 * step)
  d := hexByte value (3 * step)
  e := hexByte value (4 * step)
  f := hexByte value (5 * step)

/-- `scMacStr12ToStr17` -/
def scMacStr12ToStr17 (str12 : List Byte) : List Byte :=
  (List.range 17).map fun i =>
    if (i + 1) % 3 = 0 then 0x3a else str12.getD (i - i / 3) 0

/-- `scMacStr17ToStr12` -/
def scMacStr17ToStr12 (str17 : List Byte) : CStr :=
  .before (((List.range 17).filter fun i => (i + 1) % 3 ≠ 0).map fun i => str17.getD i 0)

/-- `sscanf(value,"%d.%d.%d.%d",&i[0],&i[1],&i[2],&i[3])`, if it reads all four -/
def scanOctets (value : CStr) : Option (Nat × Nat × Nat × Nat) := do
  let (a, s) ← scanInt value.bytes
  let (b, s) ← scanInt (← scanChar 0x2e s)
  let (c, s) ← scanInt (← scanChar 0x2e s)
  let (d, _) ← scanInt (← scanChar 0x2e s)
  return (a.toUInt32.toNat, b.toUInt32.toNat, c.toUInt32.toNat, d.toUInt32.toNat)

/-! ### Functions -/

/-- A function that reads a value, with its variable. -/
inductive Assign where
  | digit (lo hi : Byte) (v : ByteVar)
  | byteNumber (checked : Bool) (lo hi : Int) (v : ByteVar)
  | wordNumber (checked : Bool) (lo hi : Int) (v : WordVar)
  | keyLen (v : ByteVar)
  | percent (v : WordVar)
  | country (v : WordVar)
  | ip (v : AddrVar)
  | mask (v : AddrVar)
  | mac (v : MacVar)
  | str (n : Nat) (v : TextVar)
  | ssid (v : TextVar)
  | timeZone (v : TextVar)
  | date (v : TextVar)
  | time (v : TextVar)
  | ipv6 (v : TextVar)
  | gwv6 (v : TextVar)
  | url (v : TextVar)
  | mail (v : TextVar)
  | smtpServer (v : TextVar)
  | wdsvlist (v : TextVar)
  | password (v : TextVar)
  | secret128 (v : TextVar)
  | key (v : TextVar)
  | preSharedKey (v : TextVar)
  | rogueNo
  | scMacList
deriving DecidableEq, Repr

namespace Assign

/-- `Assign01` -/
abbrev assign01 : ByteVar → Assign := .digit 0 1

/-- `Assign0To2` -/
abbrev assign0To2 : ByteVar → Assign := .digit 0 2

/-- `Assign0To4` -/
abbrev assign0To4 : ByteVar → Assign := .digit 0 4

/-- `Assign1To4` -/
abbrev assign1To4 : ByteVar → Assign := .digit 1 4

/-- `Assign0To7` -/
abbrev assign0To7 : ByteVar → Assign := .digit 0 7

/-- `Assign0To8` -/
abbrev assign0To8 : ByteVar → Assign := .digit 0 8

/-- `Assign0To14` -/
abbrev assign0To14 : ByteVar → Assign := .byteNumber true 0 14

/-- `Assign1To254` -/
abbrev assign1To254 : ByteVar → Assign := .byteNumber false 1 254

/-- `Assign1To255` -/
abbrev assign1To255 : ByteVar → Assign := .byteNumber false 1 255

/-- `AssignPrefix` -/
abbrev assignPrefix : ByteVar → Assign := .byteNumber true 0 128

/-- `Assign1To500` -/
abbrev assign1To500 : WordVar → Assign := .wordNumber false 1 500

/-- `Assign60To600` -/
abbrev assign60To600 : WordVar → Assign := .wordNumber false 60 600

/-- `Assign20To1000` -/
abbrev assign20To1000 : WordVar → Assign := .wordNumber false 20 1000

/-- `Assign0To2347` -/
abbrev assign0To2347 : WordVar → Assign := .wordNumber true 0 2347

/-- `Assign256To2346` -/
abbrev assign256To2346 : WordVar → Assign := .wordNumber true 256 2346

/-- `Assign1To4094` -/
abbrev assign1To4094 : WordVar → Assign := .wordNumber true 1 4094

/-- `AssignWord` -/
abbrev assignWord : WordVar → Assign := .wordNumber true 0 65535

/-- `AssignPort` -/
abbrev assignPort : WordVar → Assign := .wordNumber true 1 65534

/-- `AssignStr15` -/
abbrev assignStr15 : TextVar → Assign := .str 15

/-- `AssignStr32` -/
abbrev assignStr32 : TextVar → Assign := .str 32

/-- `AssignStr40` -/
abbrev assignStr40 : TextVar → Assign := .str 40

/-- `AssignStr64` -/
abbrev assignStr64 : TextVar → Assign := .str 64

/-- `AssignServerStr` -/
abbrev assignServerStr : TextVar → Assign := .str 20

/-- `var` of the attribute. -/
def var : Assign → Var
  | digit _ _ v | byteNumber _ _ _ v | keyLen v => .byte v
  | wordNumber _ _ _ v | percent v | country v => .word v
  | ip v | mask v => .addr v
  | mac v => .mac v
  | str _ v | ssid v | timeZone v | date v | time v | ipv6 v | gwv6 v | url v | mail v
  | smtpServer v | wdsvlist v | password v | secret128 v | key v | preSharedKey v => .text v
  | rogueNo | scMacList => .rogueApMacList

/-- `isNvAssignFunc`: the functions that are called for an empty value, too. -/
def isNvAssignFunc : Assign → Bool
  | key _ | mac _ | ssid _ => true
  | _ => false

end Assign

section Values

variable (dev : Device) (value : CStr) (g : Globals)

/-- `unsigned char t=*((unsigned char *)value)-'0'; if (t>=lo && t<=hi) *var=t;` -/
def assignDigit (lo hi : Byte) (v : ByteVar) : Globals :=
  let t := value.mem.headD 0 - 0x30
  if lo ≤ t ∧ t ≤ hi then g.setByte v t else g

/-- `char c=*value; if(c<'0' || c>'9') return; t=atoi(value);`, or `t=atoi(value);` only -/
def numberOf (checked : Bool) : Option Int :=
  if checked ∧ ¬ isDigit (value.mem.headD 0) then none else some (atoi value)

/-- `AssignKeyLen` -/
def keyLenOf : UInt8 :=
  let t := atoi value
  if t = 1 then 0 else if t = 2 then 1 else if t = 3 then 2
  else if t = 64 then 40 else if t = 128 then 104 else 40

/-- `CTRY_UNITED_STATES`, `CTRY_AUSTRALIA`, `CTRY_BRAZIL`, `CTRY_CHINA`, `CTRY_GERMANY`,
`CTRY_MEXICO` and `CTRY_KOREA_ROC` -/
def readOnlyCountries : List Int := [840, 36, 76, 156, 276, 484, 410]

/-- `AssignCountry` -/
def assignCountry (v : WordVar) : Globals :=
  let deCountry := UInt16.ofInt dev.defaultCountry
  if ¬ isDigit (value.mem.headD 0) then g
  else if (deCountry.toNat : Int) ∈ readOnlyCountries then g.setWord v deCountry
  else if dev.countryList.any fun p => value.mem.take 2 = p.mem.take 2 then
    g.setWord v (UInt16.ofInt (atoi value))
  else g.setWord v deCountry

/-- `AssignIP` -/
def assignIP (v : AddrVar) : Globals :=
  match scanOctets value with
  | some (a, b, c, d) =>
    if 1 ≤ a ∧ a ≤ 254 ∧ b ≤ 255 ∧ c ≤ 255 ∧ 1 ≤ d ∧ d ≤ 254 then
      g.setAddr v ⟨.ofNat a, .ofNat b, .ofNat c, .ofNat d⟩
    else g
  | none => g

/-- What `AssignMask` accepts. -/
def validMask (a b c d : Nat) : Bool :=
  if a ≠ 255 then b = 0 ∧ c = 0 ∧ d = 0 ∧ a ∈ [192, 224, 240, 248, 252, 254]
  else if b ≠ 255 then c = 0 ∧ d = 0 ∧ b ∈ [0, 128, 192, 224, 240, 248, 252, 254]
  else if c ≠ 255 then d = 0 ∧ c ∈ [0, 128, 192, 224, 240, 248, 252, 254]
  else d ∈ [0, 128, 192, 224, 240, 248, 252]

/-- `AssignMask` -/
def assignMask (v : AddrVar) : Globals :=
  match scanOctets value with
  | some (a, b, c, d) =>
    if validMask a b c d then g.setAddr v ⟨.ofNat a, .ofNat b, .ofNat c, .ofNat d⟩ else g
  | none => g

/-- `AssignMac` -/
def assignMac (v : MacVar) : Globals :=
  let l := value.length
  if l = 0 then g.setMac v .zero
  else if l ≠ 12 ∧ l ≠ 17 then g
  else if ¬ isHexStr (l = 17) l 0 value.bytes then g
  else g.setMac v (hexcpy value (if l = 17 then 3 else 2))

/-- `AssignStr15` and the like: `memset(var, 0, l+1);` and a copy of `n` characters at most. -/
def assignStr (n : Nat) (v : TextVar) : Run Buf Globals :=
  if value.length < v.size then copy v (value.take n) g else .error (.outside .variable)

/-- `AssignSSID` -/
def assignSSID (v : TextVar) : Run Buf Globals :=
  if 32 < value.length then .ok g else copy v value g

/-- `AssignTimeZone` -/
def assignTimeZone (v : TextVar) : Run Buf Globals :=
  -- `CFG_TIME_ZONE_LEN`
  if 12 < value.length then .ok g else
  let i := scanInt value.bytes
  let h := i.bind fun r => scanInt r.2
  let m := h.bind fun r => (scanChar 0x3a r.2).bind scanInt
  let number := fun (k : Nat) (r : Option (Int32 × List Byte)) =>
    (r.map (·.1.toInt)).getD (dev.unset k)
  if number 0 i < 1 ∨ 75 < number 0 i then .ok g
  else if number 1 h < -12 ∨ 13 < number 1 h then .ok g
  else if number 2 m ≠ 0 ∧ number 2 m ≠ 30 ∧ number 2 m ≠ 45 then .ok g
  else if number 2 m = 45 ∧ number 1 h ≠ 5 then .ok g
  -- no hour is 3, 4, 5 and 9
  else if number 2 m = 30 then .ok g
  else copy v value g

/-- `p = strtok(…, spare);`, which is then read from -/
def token (spare : Byte) (s : CStr) : Run Buf (CStr × CStr) :=
  match s.strtok [spare] with
  | none => .error (.null .token)
  | some r => .ok r

/-- `AssignDate`; a year, a month or a day is below one bound and above the other at once for none
to be refused -/
def assignDate (v : TextVar) : Run Buf Globals := do
  -- `char buff[15];`
  if 15 ≤ value.length then .error (.outside .string) else
  let (p, s) ← token 0x2f value
  if ¬ isDigit (p.mem.headD 0) then return g else
  let (_, s) ← token 0x2f s
  let _ ← token 0x2f s
  copy v value g

/-- `AssignTime` -/
def assignTime (v : TextVar) : Run Buf Globals := do
  -- `char buff[128];`
  if 128 ≤ value.length then .error (.outside .string) else
  let (p, s) ← token 0x3a value
  if ¬ isDigit (p.mem.headD 0) then return g else
  let g ← copy v p g
  let (q, s) ← token 0x3a s
  let g ← copy v (p.append q) g
  let _ ← token 0x3a s
  copy v value g

/-- `scToLows` -/
def scToLows (s : CStr) : CStr :=
  .before (s.bytes.map fun b => if 0x41 ≤ b ∧ b ≤ 0x5a then b + 0x20 else b)

/-- A copy of a value that passes a check. -/
def assignValid (valid : CStr → Bool) (v : TextVar) : Run Buf Globals :=
  if valid value then copy v value g else .ok g

/-- `AssignGWv6` -/
def assignGWv6 (v : TextVar) : Run Buf Globals := do
  if ← validGWv6 value then copy v value g else return g

/-- `AssignSMTPServer` -/
def assignSMTPServer (v : TextVar) : Run Buf Globals :=
  let low := (scToLows value).bytes
  assignValid value g (fun p => p.length < 65 ∧ dev.validUrl p ∧
    ¬ ascii "http://".toList <+: low ∧ ¬ ascii "https://".toList <+: low) v

/-- `memset(var, 0, l+1); if(IsStarStr(value,l)) return;` and a copy of `n` characters at most -/
def assignSecret (n : Nat) (v : TextVar) : Run Buf Globals :=
  if v.size ≤ value.length then .error (.outside .variable)
  else copy v (if isStarStr value then .empty else value.take n) g

/-- `AssignPassword` -/
def assignPassword (v : TextVar) : Run Buf Globals :=
  if value.length < 4 then .ok g else assignSecret value g 64 v

/-- `AssignSecret128` -/
def assignSecret128 (v : TextVar) : Run Buf Globals := assignSecret value g 128 v

/-- `AssignKey` -/
def assignKey (v : TextVar) : Run Buf Globals :=
  let l := value.length
  if l = 0 then copy v .empty g
  else if l ≠ 10 ∧ l ≠ 26 then .ok g
  else if ¬ isHexStr false l 0 value.bytes then .ok g
  else assignSecret value g l v

/-- `AssignPreSharedKey` -/
def assignPreSharedKey (v : TextVar) : Run Buf Globals :=
  if value.length < 8 ∨ 63 < value.length then .ok g else assignSecret value g 63 v

/-- `Assign0To255` -/
def assign0To255 : Globals :=
  let t := atoi value
  let l := g.rogueApMacList
  g.setRogue { l with no := if t ≤ 255 then UInt16.ofInt t else l.no, outNo := 0 }

/-- `AssignScMacList` -/
def assignScMacList : Run Buf Globals :=
  let p := g.rogueApMacList
  let l := value.length
  if p.no ≤ p.outNo then .ok g
  else if l ≠ 12 ∧ l ≠ 17 then .ok g
  else if ¬ isHexStr (l = 17) l 0 value.bytes then .ok g
  else
    let mac := if l = 12 then scMacStr12ToStr17 value.bytes else value.bytes
    -- `IsInScMacList`
    if (List.range p.outNo.toNat).any fun i => p.mac i = mac then
      .ok (g.setRogue { p with no := p.no - 1 })
    else if acNo ≤ p.outNo.toNat then .error (.outside .variable)
    else .ok (g.setRogue
      { p with outNo := p.outNo + 1, mac := Function.update p.mac p.outNo.toNat mac })

end Values

/-- `assignfunc(var, value)` -/
def Assign.run (dev : Device) (value : CStr) (g : Globals) : Assign → Run Buf Globals
  | digit lo hi v => .ok (assignDigit value g lo hi v)
  | byteNumber checked lo hi v =>
    match numberOf value checked with
    | some t => .ok (if lo ≤ t ∧ t ≤ hi then g.setByte v (.ofInt t) else g)
    | none => .ok g
  | wordNumber checked lo hi v =>
    match numberOf value checked with
    | some t => .ok (if lo ≤ t ∧ t ≤ hi then g.setWord v (.ofInt t) else g)
    | none => .ok g
  | keyLen v => .ok (g.setByte v (keyLenOf value))
  | percent v =>
    match dev.percent value with
    | some t => .ok (g.setWord v t)
    | none => .ok g
  | country v => .ok (assignCountry dev value g v)
  | ip v => .ok (assignIP value g v)
  | mask v => .ok (assignMask value g v)
  | mac v => .ok (assignMac value g v)
  | str n v => assignStr value g n v
  | ssid v => assignSSID value g v
  | timeZone v => assignTimeZone dev value g v
  | date v => assignDate value g v
  | time v => assignTime value g v
  | ipv6 v => assignValid value g dev.validIPv6 v
  | gwv6 v => assignGWv6 value g v
  | url v => assignValid (scToLows value) g dev.validUrl v
  | mail v => assignValid value g (fun p => p.length ≤ 64 ∧ dev.validEmailAddr p) v
  | smtpServer v => assignSMTPServer dev value g v
  | wdsvlist v => assignValid value g dev.validwdsVlanList v
  | password v => assignPassword value g v
  | secret128 v => assignSecret128 value g v
  | key v => assignKey value g v
  | preSharedKey v => assignPreSharedKey value g v
  | rogueNo => .ok (assign0To255 value g)
  | scMacList => assignScMacList value g

end Wap4410n.Editcfg
