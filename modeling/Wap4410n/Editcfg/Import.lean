import Wap4410n.Support.Lines
import Wap4410n.Editcfg.Tables

/-!
# Editcfg — reading the text

`parseCFG` reads the text line by line.  A line with a name in brackets opens a group; in a group a
line is an attribute with its value, and the value goes to the function of the attribute.  A line is
read into a buffer of 129 bytes and a NUL, so that a longer one comes in pieces; a piece is a line
of its own to the functions here.

A file is the list of the lines that `fgets` has yet to return.  `feof` is asked before a line is
read only, and a line that is not there changes nothing.
-/

namespace Wap4410n.Editcfg

open CLib Apcfg

/-! ### Lines -/

/-- What `fgets(buffer,129,fp)` returns, as strings. -/
def buffers (text : List Byte) : List CStr := (lines 127 text).map .before

/-- `for(i=0;buffer[i];i++)` of `GetaGroup`: what stands between the first `[` and the next `]` -/
def bracketed (buffer : CStr) : CStr :=
  match buffer.bytes.dropWhile (· ≠ 0x5b) with
  | [] => .empty
  | _ :: rest => if 0x5d ∈ rest then .before (rest.takeWhile (· ≠ 0x5d)) else .empty

/-- `GetaGroup`: the group, and the lines behind it -/
def getaGroup : List CStr → CStr × List CStr
  | [] => (.empty, [])
  | buffer :: fp =>
    if (bracketed buffer).length = 0 then getaGroup fp else (bracketed buffer, fp)

/-- `findEQ`, from the index `i` on -/
def findEQ : Nat → List Byte → Nat
  | _, [] => 0
  | i, c :: s => if c = 0x20 then 0 else if c = 0x3d then i else findEQ (i + 1) s

/-- Whether the value of an attribute goes on with a character. -/
def inValue (attr : CStr) (c : Byte) : Bool :=
  if 0x20 < c ∧ c < 0x7f then true
  else if c = 0x20 ∧ attr.bytes.take 4 = ascii "SSID".toList ∧
    attr.mem[5]? = some 0x3d then true
  else attr ∈ [.text "SSID1", .text "SSID2", .text "SSID3", .text "SSID4"] ∧ c ≠ 0x0d

/-- The attribute and the value of a line. -/
def splitLine (buffer : CStr) : Option (CStr × CStr) :=
  if buffer.bytes.head? = none ∨ buffer.bytes.head? = some 0x20 then none
  else
    let j := findEQ 0 buffer.bytes
    if j = 0 then none
    else
      let attr := buffer.take j
      some (attr, .before ((buffer.bytes.drop (j + 1)).takeWhile (inValue attr)))

/-- `GetaAttr`: the attribute with its value, and the lines that are left -/
def getaAttr : List CStr → Option (CStr × CStr) × List CStr
  | [] => (none, [])
  | buffer :: fp =>
    if buffer.bytes.head? = some 0x5b then (none, buffer :: fp)
    else
      match splitLine buffer with
      | some r => (some r, fp)
      | none => getaAttr fp

/-! ### Groups -/

/-- `matchGroup` -/
def matchGroup (group : CStr) : Option Group := cfgData.find? (·.group = group)

/-- `matchAttr` -/
def matchAttr (attr : CStr) (p : List Attr) : Option Attr := p.find? (·.attr = attr)

/-- The value of an attribute is assigned; whether it counts. -/
def assignAttr (dev : Device) (p : List Attr) (attr value : CStr) (g : Globals) :
    Run Buf (Globals × Bool) :=
  match (matchAttr attr p).bind (·.assignfunc) with
  | none => .ok (g, false)
  | some assignfunc =>
    if value.length ≠ 0 ∨ assignfunc.isNvAssignFunc then do
      let g ← assignfunc.run dev value g
      return (g, true)
    else .ok (g, false)

/-- `while(!feof(fp))` of `ParseNAssignValue`, for at most `n` lines -/
def parseNAssignValue (dev : Device) (p : List Attr) :
    Nat → List CStr → Globals → Bool → Run Buf (Bool × List CStr × Globals)
  | 0, fp, g, goodAttr => .ok (goodAttr, fp, g)
  | n + 1, fp, g, goodAttr =>
    match getaAttr fp with
    | (none, fp) => .ok (goodAttr, fp, g)
    | (some (attr, value), fp) => do
      let (g, good) ← assignAttr dev p attr value g
      parseNAssignValue dev p n fp g (goodAttr || good)

/-- `while(!feof(fp))` of `parseCFG`, for at most `n` groups -/
def parseGroups (dev : Device) : Nat → List CStr → Globals → Nat → Run Buf (Nat × Globals)
  | 0, _, g, goodGroup => .ok (goodGroup, g)
  | n + 1, fp, g, goodGroup =>
    let (group, fp) := getaGroup fp
    match matchGroup group with
    | none => parseGroups dev n fp g goodGroup
    | some p => do
      let (good, fp, g) ← parseNAssignValue dev p.attrs fp.length fp g false
      parseGroups dev n fp g (goodGroup + good.toNat)

/-- The lines of a file, of which no group takes less than one. -/
def parseLines (dev : Device) (fp : List CStr) (g : Globals) : Run Buf (Nat × Globals) :=
  parseGroups dev fp.length fp g 0

/-- `correctVariables` -/
def correctVariables (dev : Device) (g : Globals) : Globals :=
  let maxChannel := (dev.chanList.getLast?.map atoi).getD 0
  let channel := if maxChannel < (g.byte .channel).toNat then 0 else g.byte .channel
  g.setByte .channel
    (if g.byte .opMode ≠ 0 ∧ channel = 0 then .ofInt maxChannel else channel)

end Wap4410n.Editcfg
