import Wap4410n.Editcfg.Dump
import Wap4410n.Editcfg.Tables

/-!
# Editcfg — the text of the configuration

`OutputCFG` fills the variables from the settings and writes the text: four lines of title, and for
each group of `cfgData` a line with its name and a line for each attribute.  The last line of the
title is overwritten with the sum of the bytes behind it.
-/

namespace Wap4410n.Editcfg

open CLib Apcfg

/-! ### Lines -/

/-- `\r\n` -/
def crlf : List Byte := [0x0d, 0x0a]

/-- `OutputGroup` -/
def outputGroup (group : CStr) : List Byte := crlf ++ 0x5b :: (group.bytes ++ 0x5d :: crlf)

/-- `OutputAttr` -/
def outputAttr (attr : CStr) : List Byte :=
  if attr.bytes.head? = some 0x3b then attr.bytes else attr.bytes ++ [0x3d]

/-- `OutputComment` -/
def outputComment (comment : List Byte) : List Byte :=
  if comment = [] then crlf else 0x20 :: (comment ++ crlf)

/-- The comment of an attribute, or that of the country. -/
def commentOf (dev : Device) (a : Attr) : List Byte :=
  if ascii "Country_Region".toList <+: a.attr.bytes then countryComment dev.defaultCountry
  else a.comment

/-- What is written, and the variables. -/
abbrev Written := List Byte × Globals

/-- A pass of `for(j=0;(p+j)->attr[0]!='\0';j++)`. -/
def writeAttr (dev : Device) (a : Attr) (s : Written) : Run Buf Written := do
  let buff := s.1 ++ outputAttr a.attr
  let (value, g) ← match a.outputfunc with
    | some outputfunc => outputfunc.run buff s.2
    | none => .ok ([], s.2)
  return (buff ++ (value ++ outputComment (commentOf dev a)), g)

/-- The attributes of a group. -/
def writeAttrs (dev : Device) : List Attr → Written → Run Buf Written
  | [], s => .ok s
  | a :: as, s => writeAttr dev a s >>= writeAttrs dev as

/-- `for(i=1;i<sizeof(CFGData)/sizeof(CFG_s);i++)` -/
def writeGroups (dev : Device) : List Group → Written → Run Buf Written
  | [], s => .ok s
  | p :: ps, s => writeAttrs dev p.attrs (s.1 ++ outputGroup p.group, s.2) >>= writeGroups dev ps

/-! ### Title -/

/-- `CFGTitle`, `CFGMac` and `CFGPin` -/
def titleLines (dev : Device) (g : Globals) : List Byte :=
  ascii ";WAP4410N Configuration File - Version: ".toList ++ (dev.version.bytes ++ 0x0a ::
    (ascii ";MAC address: ".toList ++ (macBytes (g.mac .apMac) ++ 0x0a ::
      (ascii ";WPS PIN: ".toList ++ ((g.text .apPin).bytes ++ [0x0a])))))

/-- The front of `CFGChecksum`. -/
def checksumLine : List Byte := ascii ";The checksum: ".toList

/-- `OutputTitle` -/
def outputTitle (dev : Device) (g : Globals) : Run Buf (List Byte) :=
  -- `char temp[20]`
  if 20 ≤ dev.version.length then .error (.outside .string)
  else .ok (titleLines dev g ++ (checksumLine ++ (List.replicate 8 0x30 ++ [0x0a])))

/-- `sprintf(APchecksum, "%-8lu", chSumDate)` into nine bytes -/
def checksum (body : List Byte) : Run Buf (List Byte) :=
  let sum := digits 10 10 (body.foldl (fun n b => n + b.toNat) 0 % UInt32.size)
  if 8 < sum.length then .error (.outside .variable)
  else .ok (sum ++ List.replicate (8 - sum.length) 0x20)

/-! ### The text -/

/-- The text of the variables, and the variables that are left. -/
def writeText (dev : Device) (g : Globals) : Run Buf Written := do
  let head ← outputTitle dev g
  let (buff, g) ← writeGroups dev cfgData (head, g)
  let body := buff.drop head.length
  let sum ← checksum body
  return (titleLines dev g ++ (checksumLine ++ (sum ++ 0x0a :: body)), g)

/-- `OutputCFG` -/
def outputCFG (dev : Device) (g : Globals) : Cfg Written := do
  let g ← (outputCFGGet dev).run g
  Act.lift (writeText dev g)

end Wap4410n.Editcfg
