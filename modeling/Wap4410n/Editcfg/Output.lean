import Wap4410n.Editcfg.Globals

/-!
# Editcfg — writing a variable

Every attribute of the text names the function that writes its variable.  `OutputPass` writes a
secret, and where secrets are not shown it first overwrites the variable with stars
(`OutputPass`); `OutputScMacList` writes a line for each address and takes the front of these lines
from what is written already.
-/

namespace Wap4410n.Editcfg

open CLib Apcfg

/-! ### Texts of bytes -/

/-- A hexadecimal digit of `%X` -/
def hexDigit (n : Nat) : Byte := UInt8.ofNat (if n < 10 then 0x30 + n else 0x37 + n)

/-- `%02X` -/
def hexText (b : Byte) : List Byte := [hexDigit (b.toNat / 16), hexDigit (b.toNat % 16)]

/-- `%02X:%02X:%02X:%02X:%02X:%02X` -/
def macBytes (m : MacAddr) : List Byte :=
  hexText m.a ++ 0x3a :: (hexText m.b ++ 0x3a :: (hexText m.c ++ 0x3a :: (hexText m.d ++
    0x3a :: (hexText m.e ++ 0x3a :: hexText m.f))))

/-- `%u` of a `short` -/
def decimalText (n : Nat) : List Byte := (CStr.ofInt n).bytes

/-! ### Functions -/

/-- A function that writes a variable, with the variable. -/
inductive Output where
  | byte (v : ByteVar)
  | word (v : WordVar)
  | ip (v : AddrVar)
  | mac (v : MacVar)
  | str (v : TextVar)
  | pass (v : TextVar)
  | percent (v : WordVar)
  | rogueNo
  | scMacList
deriving DecidableEq, Repr

section Functions

variable (g : Globals)

/-- `OutputIP` -/
def outputIP (v : AddrVar) : List Byte :=
  if g.addr v = .zero then [] else (inetNtoa (g.addr v)).bytes

/-- `OutputMac` -/
def outputMac (v : MacVar) : List Byte := if g.mac v = .zero then [] else macBytes (g.mac v)

/-- `OutputPercent`: `%.2f %%` of the number of hundredths -/
def outputPercent (v : WordVar) : List Byte :=
  let a := (g.word v).toNat
  if a = 0 then []
  else decimalText (a / 100) ++ 0x2e :: ((twoDigits (a % 100)).bytes ++ ascii " %".toList)

/-- As many stars as the text has characters. -/
def stars (s : CStr) : CStr where
  bytes := List.replicate s.length 0x2a
  noNul h := by
    have := List.eq_of_mem_replicate h
    contradiction

@[simp] theorem length_stars (s : CStr) : (stars s).length = s.length := List.length_replicate

/-- `memset(var, '*', strlen(var));` -/
def Held.star {n : Nat} (x : Held n) : Held n where
  text := stars x.text
  fits := by
    rw [length_stars]
    exact x.fits

/-- `OutputPass` -/
def outputPass (v : TextVar) : List Byte × Globals :=
  let g := if g.byte .secShow ≠ 0 then g.setText v (g.held v).star else g
  ((g.text v).bytes, g)

/-- `for(l=2;(c=*(buff-l));l++) if(c=='\n')`: the line that is being written, with the end of the
line before it -/
def lineSoFar (buff : List Byte) : List Byte :=
  let back := buff.reverse
  (back.take ((back.drop 1).findIdx (· = 0x0a) + 3)).reverse

/-- `while(1)` of `OutputScMacList`, for at most the addresses there are -/
def outputMacs (p : RogueAPMacList) (temp : List Byte) : Nat → UInt16 → Run Buf (List Byte × UInt16)
  | 0, _ => .error (.outside .variable)
  | n + 1, outNo =>
    if p.no = outNo + 1 then .ok (p.mac outNo.toNat, outNo + 1)
    else do
      let (rest, last) ← outputMacs p temp n (outNo + 1)
      return (p.mac outNo.toNat ++ (temp ++ rest), last)

/-- `OutputScMacList` -/
def outputScMacList (buff : List Byte) : Run Buf (List Byte × Globals) :=
  let p := g.rogueApMacList
  let temp := lineSoFar buff
  if p.no = 0 then .ok ([], g)
  -- `char temp[80]`
  else if 80 < temp.length then .error (.outside .string)
  else do
    let (s, outNo) ← outputMacs p temp (acNo - p.outNo.toNat) p.outNo
    return (s, g.setRogue { p with outNo })

end Functions

/-- `outputfunc(var, buff)`: what it writes behind `buff`, and the variables it leaves -/
def Output.run (buff : List Byte) (g : Globals) : Output → Run Buf (List Byte × Globals)
  | byte v => .ok (decimalText (g.byte v).toNat, g)
  | word v => .ok (decimalText (g.word v).toNat, g)
  | ip v => .ok (outputIP g v, g)
  | mac v => .ok (outputMac g v, g)
  | str v => .ok ((g.text v).bytes, g)
  | pass v => .ok (outputPass g v)
  | percent v => .ok (outputPercent g v, g)
  | rogueNo => .ok (decimalText g.rogueApMacList.no.toNat, g)
  | scMacList => outputScMacList g buff

end Wap4410n.Editcfg
