import Wap4410n.Editcfg.HexStr
import Wap4410n.Editcfg.Output
import Wap4410n.Support.Block

/-!
# Utility — bytes as hexadecimal digits

`scChars2Hexs` prints bytes as digits, with a separator behind each byte or none, and closes the
text over the last separator; `scHexs2Chars` reads them back, two characters at a time, and skips
one between them where it is told an interval.  `scHex2Char` leaves the number alone where it meets
no digit, and nobody looks at what it returns.

* `scHexs2Chars_scChars2Hexs`: reading what was printed gives the bytes.
* `assignMac_outputMac`, `assignMac_digits`: the import of an address from its text.
* `codecs_inverse`: all of these, with the two forms of an address text.
-/

namespace Wap4410n.Utility

open CLib Editcfg Apcfg

/-! ### `scChars2Hexs` -/

theorem hexText_noNul : ∀ b : Byte, (0 : Byte) ∉ hexText b := forall_byte (by decide)

/-- `sprintf(p, "%02X", c)` -/
def hexStr (c : Byte) : CStr := ⟨hexText c, hexText_noNul c⟩

/-- `for (i = 0; i < strLen; i++)` of `scChars2Hexs`: `p` and `cnt` after it -/
def scChars2HexsLoop (separator : Option CStr) : List Byte → Cursor → Int → Cursor × Int
  | [], p, cnt => (p, cnt)
  | c :: charStr, p, cnt =>
    match separator with
    | some separator =>
      let s := (hexStr c).append separator
      scChars2HexsLoop (some separator) charStr ((p.strcpy s).advance 3) (cnt + s.length)
    | none =>
      scChars2HexsLoop none charStr ((p.strcpy (hexStr c)).advance 2) (cnt + (hexStr c).length)

/-- `scChars2Hexs`: what it returns, and `hexBuf` after it -/
def scChars2Hexs (charStr : List Byte) (hexBuf : CLib.Block) (separator : Option CStr) :
    Int × CLib.Block :=
  let (p, cnt) := scChars2HexsLoop separator charStr (.start hexBuf) 0
  match separator with
  | some _ => (cnt - 1, (({ p with pos := p.pos - 1 } : Cursor).poke 0).block)
  | none => (cnt, (p.poke 0).block)

/-! ### `scHexs2Chars` -/

/-- `scHex2Char`, from a digit of `str` on: the number, or `none` where it returns −1 -/
def scHex2Char : Nat → List Byte → Int32 → Run Buf (Option Int32)
  | 0, _, result => .ok (some result)
  | _ + 1, [], _ => .error (.outside .string)
  | len + 1, ch :: str, result =>
    if ch = 0 then .ok (some result)
    else if ch = 0x20 then scHex2Char len str result
    else if ch ≤ 0x39 ∧ 0x30 ≤ ch then
      scHex2Char len str (result * 16 + .ofNat (ch.toNat - 0x30))
    else if ch ≤ 0x46 ∧ 0x41 ≤ ch then
      scHex2Char len str (result * 16 + (.ofNat (ch.toNat - 0x41) + 10))
    else if ch ≤ 0x66 ∧ 0x61 ≤ ch then
      scHex2Char len str (result * 16 + (.ofNat (ch.toNat - 0x61) + 10))
    else .ok none

/-- `scHexs2Chars`: the bytes it stores; `lTemp` starts as what the stack held -/
def scHexs2Chars (interval : Int) : Nat → List Byte → Int32 → Run Buf (List Byte)
  | 0, _, _ => .ok []
  | len + 1, p, lTemp => do
    let lTemp := (← scHex2Char 2 p 0).getD lTemp
    let str ← scHexs2Chars interval len (p.drop (if interval ≠ 0 then 3 else 2)) lTemp
    return lTemp.toUInt32.toUInt8 :: str

/-! ### Printing and reading -/

section Loop

variable {p : Cursor} {w : List Byte} {cnt : Int}

theorem length_hexStr (c : Byte) : (hexStr c).length = 2 := rfl

theorem wrote_separated (h : p.Wrote w) {separator : CStr} (hsep : separator.length = 1)
    (charStr : List Byte) :
    (scChars2HexsLoop (some separator) charStr p cnt).1.Wrote
        (w ++ charStr.flatMap fun c => hexText c ++ separator.bytes) ∧
      (scChars2HexsLoop (some separator) charStr p cnt).2 = cnt + 3 * charStr.length := by
  induction charStr generalizing p w cnt with
  | nil => simpa [scChars2HexsLoop] using h
  | cons c charStr ih =>
      have hlen : ((hexStr c).append separator).length = 3 := by
        rw [CStr.length_append, hsep, length_hexStr]
      have hw := h.strcpy_advance ((hexStr c).append separator)
      rw [hlen] at hw
      obtain ⟨hwrote, hcnt⟩ := @ih _ _ (cnt + 3) hw
      have hbytes : ((hexStr c).append separator).bytes = hexText c ++ separator.bytes := rfl
      rw [hbytes, List.append_assoc] at hwrote
      simp only [scChars2HexsLoop, hlen]
      refine ⟨by rwa [List.flatMap_cons], hcnt.trans ?_⟩
      rw [List.length_cons]
      omega

theorem wrote_together (h : p.Wrote w) (charStr : List Byte) :
    (scChars2HexsLoop none charStr p cnt).1.Wrote (w ++ charStr.flatMap hexText) ∧
      (scChars2HexsLoop none charStr p cnt).2 = cnt + 2 * charStr.length := by
  induction charStr generalizing p w cnt with
  | nil => simpa [scChars2HexsLoop] using h
  | cons c charStr ih =>
      have hw := h.strcpy_advance (hexStr c)
      obtain ⟨hwrote, hcnt⟩ := @ih _ _ (cnt + 2) hw
      have hbytes : (hexStr c).bytes = hexText c := rfl
      rw [hbytes, List.append_assoc] at hwrote
      simp only [scChars2HexsLoop, length_hexStr]
      refine ⟨by rwa [List.flatMap_cons], hcnt.trans ?_⟩
      rw [List.length_cons]
      omega

end Loop

/-- A digit that was printed is read. -/
theorem scHex2Char_hexDigit {n : Nat} (h : n < 16) (len : Nat) (str : List Byte) (result : Int32) :
    scHex2Char (len + 1) (hexDigit n :: str) result =
      scHex2Char len str (result * 16 + .ofNat n) := by
  have hdigit : ∀ n : Fin 10, hexDigit n ≠ 0 ∧ hexDigit n ≠ 0x20 ∧
      (hexDigit n ≤ 0x39 ∧ 0x30 ≤ hexDigit n) ∧ (hexDigit n).toNat - 0x30 = n := by decide
  have hletter : ∀ n : Fin 16, 10 ≤ n.val → hexDigit n ≠ 0 ∧ hexDigit n ≠ 0x20 ∧
      ¬ (hexDigit n ≤ 0x39 ∧ 0x30 ≤ hexDigit n) ∧ (hexDigit n ≤ 0x46 ∧ 0x41 ≤ hexDigit n) ∧
        Int32.ofNat ((hexDigit n).toNat - 0x41) + 10 = .ofNat n := by decide
  by_cases hn : n < 10
  · obtain ⟨h₀, hspace, hrange, hvalue⟩ := hdigit ⟨n, hn⟩
    rw [scHex2Char, if_neg h₀, if_neg hspace, if_pos hrange, hvalue]
  · obtain ⟨h₀, hspace, hno, hrange, hvalue⟩ := hletter ⟨n, h⟩ (Nat.le_of_not_lt hn)
    rw [scHex2Char, if_neg h₀, if_neg hspace, if_neg hno, if_pos hrange, hvalue]

/-- The two digits of a byte are read as the byte, whatever follows. -/
theorem scHex2Char_hexText (c : Byte) (r : List Byte) :
    scHex2Char 2 (hexText c ++ r) 0 = .ok (some (.ofNat c.toNat)) := by
  have hlt := c.toNat_lt
  have hsum : ∀ c : Byte, (0 * 16 + .ofNat (c.toNat / 16)) * 16 + .ofNat (c.toNat % 16) =
      Int32.ofNat c.toNat := forall_byte (by decide)
  rw [hexText, List.cons_append, scHex2Char_hexDigit (by omega), List.cons_append,
    scHex2Char_hexDigit (Nat.mod_lt _ (by decide)), scHex2Char, hsum]

/-- A round of `scHexs2Chars` at a byte that was printed. -/
theorem scHexs2Chars_hexText (interval : Int) (len : Nat) (c : Byte) (r : List Byte)
    (lTemp : Int32) :
    scHexs2Chars interval (len + 1) (hexText c ++ r) lTemp =
      (scHexs2Chars interval len (r.drop (if interval ≠ 0 then 1 else 0)) (.ofNat c.toNat)).map
        (c :: ·) := by
  have hbyte : ∀ c : Byte, (Int32.ofNat c.toNat).toUInt32.toUInt8 = c :=
    forall_byte (by decide)
  have hdrop : (hexText c ++ r).drop (if interval ≠ 0 then 3 else 2) =
      r.drop (if interval ≠ 0 then 1 else 0) := by split <;> rfl
  rw [scHexs2Chars, scHex2Char_hexText, Run.ok_bind, Option.getD_some, hdrop]
  simp only [hbyte]
  cases scHexs2Chars interval len (r.drop (if interval ≠ 0 then 1 else 0)) (.ofNat c.toNat) <;> rfl

/-- Bytes printed with a character between them, which is skipped. -/
theorem scHexs2Chars_separated (x c : Byte) (charStr r : List Byte) (lTemp : Int32) :
    scHexs2Chars 1 (charStr.length + 1)
      (hexText c ++ ((charStr.flatMap fun c => x :: hexText c) ++ r)) lTemp =
        .ok (c :: charStr) := by
  induction charStr generalizing c lTemp with
  | nil => rw [List.length_nil, scHexs2Chars_hexText]; rfl
  | cons d charStr ih =>
      have hskip : (((d :: charStr).flatMap fun c => x :: hexText c) ++ r).drop 1 =
          hexText d ++ ((charStr.flatMap fun c => x :: hexText c) ++ r) := by
        rw [List.flatMap_cons, List.append_assoc]
        rfl
      rw [List.length_cons, scHexs2Chars_hexText, if_pos (by decide), hskip, ih]
      rfl

/-- Bytes printed one right behind the other. -/
theorem scHexs2Chars_together (charStr r : List Byte) (lTemp : Int32) :
    scHexs2Chars 0 charStr.length (charStr.flatMap hexText ++ r) lTemp = .ok charStr := by
  induction charStr generalizing lTemp with
  | nil => rfl
  | cons c charStr ih =>
      rw [List.length_cons, List.flatMap_cons, List.append_assoc, scHexs2Chars_hexText,
        if_neg (by decide), List.drop_zero, ih]
      rfl

/-- A separator behind each byte is one between them, and one more. -/
theorem flatMap_separated (x c : Byte) (charStr : List Byte) :
    ((c :: charStr).flatMap fun c => hexText c ++ [x]) =
      (hexText c ++ charStr.flatMap fun c => x :: hexText c) ++ [x] := by
  induction charStr generalizing c with
  | nil => simp
  | cons d charStr ih =>
      rw [List.flatMap_cons, ih]
      simp

/-- **Reading what was printed with a separator** of one character gives the bytes. -/
theorem scHexs2Chars_scChars2Hexs_separated {charStr : List Byte} (hne : charStr ≠ [])
    {separator : CStr} (hsep : separator.length = 1) (size : Nat) (lTemp : Int32) :
    scHexs2Chars 1 charStr.length
        (scChars2Hexs charStr (.fresh size) (some separator)).2.bytes lTemp = .ok charStr := by
  obtain ⟨c, charStr, rfl⟩ := List.exists_cons_of_ne_nil hne
  obtain ⟨x, hx⟩ := List.length_eq_one_iff.mp hsep
  obtain ⟨hwrote, -⟩ := @wrote_separated _ _ 0 (Cursor.wrote_start size) _ hsep (c :: charStr)
  rw [hx, flatMap_separated, List.nil_append] at hwrote
  obtain ⟨r, hr⟩ := hwrote.bytes_poke_back 0
  have hbytes : (scChars2Hexs (c :: charStr) (.fresh size) (some separator)).2.bytes =
      (hexText c ++ charStr.flatMap fun c => x :: hexText c) ++ 0 :: r := hr
  rw [hbytes, List.append_assoc, List.length_cons, scHexs2Chars_separated]

/-- **Reading what was printed without one** gives the bytes. -/
theorem scHexs2Chars_scChars2Hexs_together (charStr : List Byte) (size : Nat) (lTemp : Int32) :
    scHexs2Chars 0 charStr.length (scChars2Hexs charStr (.fresh size) none).2.bytes lTemp =
      .ok charStr := by
  obtain ⟨hwrote, -⟩ := @wrote_together _ _ 0 (Cursor.wrote_start size) charStr
  have hbytes : (scChars2Hexs charStr (.fresh size) none).2.bytes =
      charStr.flatMap hexText ++ [0] := hwrote.bytes_poke 0
  rw [hbytes, scHexs2Chars_together]

/-! ### Addresses -/

/-- `toupper` -/
def toUpper (c : Byte) : Byte := if 0x61 ≤ c ∧ c ≤ 0x7a then c - 0x20 else c

/-- The twelve digits of an address, in capitals. -/
def macDigits (m : MacAddr) : List Byte := m.bytes.flatMap hexText

theorem isHex_hexText : ∀ b : Byte, ∀ c ∈ hexText b, isHex c = true := by
  have hall : ∀ b : Byte, (hexText b).all isHex = true := forall_byte (by decide)
  exact fun b => List.all_eq_true.mp (hall b)

/-- A digit has one value in either case. -/
theorem toUpper_digit : ∀ c : Byte, isHex (toUpper c) = true →
    isHex c = true ∧ hexValue (toUpper c) = hexValue c := forall_byte (by decide)

theorem hexValue_hexDigit : ∀ b : Byte,
    hexValue (hexDigit (b.toNat / 16)) <<< 4 ||| hexValue (hexDigit (b.toNat % 16)) = b :=
  forall_byte (by decide)

theorem digitText_false_iff {s : List Byte} : DigitText false s ↔ ∀ c ∈ s, isHex c = true := by
  refine ⟨fun h c hc => ?_, fun h i c hi _ => h c (List.mem_of_getElem? hi)⟩
  obtain ⟨i, hi⟩ := List.mem_iff_getElem?.mp hc
  exact h i c hi (fun e => Bool.noConfusion e)

/-- A byte of `hexcpy` is the one whose digits stand there. -/
theorem hexByte_eq {value : CStr} {j : Nat} {b : Byte}
    (hhigh : hexValue (value.mem.getD j 0) = hexValue (hexDigit (b.toNat / 16)))
    (hlow : hexValue (value.mem.getD (j + 1) 0) = hexValue (hexDigit (b.toNat % 16))) :
    hexByte value j = b := by
  rw [hexByte, hhigh, hlow, hexValue_hexDigit]

theorem digitText_macBytes (m : MacAddr) : DigitText true (macBytes m) := by
  have hfirst : ∀ (b : Byte) (s : List Byte), DigitText true s →
      DigitText true (hexText b ++ 0x3a :: s) := fun b s hs =>
    (digitText_pair (isHex_hexText b _ (by simp [hexText])) (isHex_hexText b _ (by simp [hexText]))
      _).mpr hs
  have hlast : ∀ b : Byte, DigitText true (hexText b) := fun b i c hc _ =>
    isHex_hexText b c (List.mem_of_getElem? hc)
  exact hfirst _ _ (hfirst _ _ (hfirst _ _ (hfirst _ _ (hfirst _ _ (hlast _)))))

/-- **The text written of an address** gives the address back. -/
theorem assignMac_outputMac {m : MacAddr} (g : Globals) (v : MacVar) {value : CStr}
    (h : value.bytes = macBytes m) : (assignMac value g v).mac v = m := by
  have hl : value.length = 17 := by rw [CStr.length, h]; rfl
  have hs : isHexStr true value.length 0 value.bytes = true :=
    (isHexStr_iff _ _ _ _).mpr (.inl (h ▸ digitText_macBytes m))
  have hmem : value.mem = macBytes m ++ [0] := by rw [CStr.mem, h]
  have hbyte : ∀ (j : Nat) (b : Byte), (macBytes m ++ [0]).getD j 0 = hexDigit (b.toNat / 16) →
      (macBytes m ++ [0]).getD (j + 1) 0 = hexDigit (b.toNat % 16) → hexByte value j = b :=
    fun j b hhigh hlow => hexByte_eq (by rw [hmem, hhigh]) (by rw [hmem, hlow])
  rw [@mac_assignMac _ true hl hs, hexcpy, hbyte _ m.a rfl rfl, hbyte _ m.b rfl rfl,
    hbyte _ m.c rfl rfl, hbyte _ m.d rfl rfl, hbyte _ m.e rfl rfl, hbyte _ m.f rfl rfl]

/-- **Its twelve digits**, in whichever case, give the address back. -/
theorem assignMac_digits {m : MacAddr} (g : Globals) (v : MacVar) {value : CStr}
    (h : value.bytes.map toUpper = macDigits m) : (assignMac value g v).mac v = m := by
  have hl : value.length = 12 := by
    have := congrArg List.length h
    rwa [List.length_map] at this
  have hcapital : ∀ c ∈ value.bytes, isHex (toUpper c) = true := fun c hc => by
    have hmem : toUpper c ∈ macDigits m := h ▸ List.mem_map_of_mem hc
    obtain ⟨b, -, hb⟩ := List.mem_flatMap.mp hmem
    exact isHex_hexText b _ hb
  have hs : isHexStr false value.length 0 value.bytes = true :=
    (isHexStr_iff _ _ _ _).mpr (.inl (digitText_false_iff.mpr fun c hc =>
      (toUpper_digit c (hcapital c hc)).1))
  -- the value of a digit is that of the capital in its place
  have hvalue : ∀ j, j < 12 → hexValue (value.mem.getD j 0) = hexValue ((macDigits m).getD j 0) :=
    fun j hj => by
      have hin : j < value.bytes.length := Nat.lt_of_lt_of_eq hj hl.symm
      have hmem : value.mem.getD j 0 = value.bytes[j] := by
        simp [CStr.mem, List.getElem?_append_left hin, hin]
      have hupper : (macDigits m).getD j 0 = toUpper value.bytes[j] := by
        rw [← h]
        simp [hin]
      rw [hmem, hupper, (toUpper_digit _ (hcapital _ (List.getElem_mem hin))).2]
  have hbyte : ∀ (j : Nat) (b : Byte), j + 1 < 12 →
      (macDigits m).getD j 0 = hexDigit (b.toNat / 16) →
        (macDigits m).getD (j + 1) 0 = hexDigit (b.toNat % 16) → hexByte value j = b :=
    fun j b hj hhigh hlow =>
      hexByte_eq (by rw [hvalue j (by omega), hhigh]) (by rw [hvalue (j + 1) hj, hlow])
  rw [@mac_assignMac _ false hl hs, hexcpy, hbyte _ m.a (by decide) rfl rfl,
    hbyte _ m.b (by decide) rfl rfl, hbyte _ m.c (by decide) rfl rfl,
    hbyte _ m.d (by decide) rfl rfl, hbyte _ m.e (by decide) rfl rfl,
    hbyte _ m.f (by decide) rfl rfl]

/-- **The two forms of an address text.** -/
theorem scMacStr17ToStr12_scMacStr12ToStr17 {s : CStr} (h : s.length = 12) :
    scMacStr17ToStr12 (scMacStr12ToStr17 s.bytes) = s := by
  have hcut : ∀ l : List Byte, l.length = 12 →
      scMacStr17ToStr12 (scMacStr12ToStr17 l) = .before l := fun l hl => by
    match l, hl with
    | [_, _, _, _, _, _, _, _, _, _, _, _], _ => rfl
  rw [hcut s.bytes h, CStr.before_bytes]

/-- **The codecs are inverse**: bytes printed and read, with a separator and without; the two forms
of an address text; and the import of an address from what the export wrote of it, or from its
digits alone. -/
theorem codecs_inverse :
    (∀ (b : List Byte) (size : Nat) (lTemp : Int32), 1 ≤ b.length → b.length ≤ 255 →
      (∀ sep : CStr, sep.length = 1 →
        scHexs2Chars 1 b.length (scChars2Hexs b (.fresh size) (some sep)).2.bytes lTemp = .ok b) ∧
      scHexs2Chars 0 b.length (scChars2Hexs b (.fresh size) none).2.bytes lTemp = .ok b) ∧
    (∀ s : CStr, s.length = 12 → scMacStr17ToStr12 (scMacStr12ToStr17 s.bytes) = s) ∧
    ∀ (g g' : Globals) (v v' : MacVar) (value : CStr), g.mac v ≠ .zero →
      (value.bytes = outputMac g v ∨ value.bytes.map toUpper = macDigits (g.mac v)) →
        (assignMac value g' v').mac v' = g.mac v := by
  refine ⟨fun b size lTemp hpos _ => ⟨fun sep hsep => ?_, ?_⟩, fun s hs => ?_,
    fun g g' v v' value hne hvalue => ?_⟩
  · exact scHexs2Chars_scChars2Hexs_separated (List.length_pos_iff.mp hpos) hsep size lTemp
  · exact scHexs2Chars_scChars2Hexs_together b size lTemp
  · exact scMacStr17ToStr12_scMacStr12ToStr17 hs
  · rcases hvalue with hvalue | hvalue
    · exact assignMac_outputMac g' v' (hvalue.trans (if_neg hne))
    · exact assignMac_digits g' v' hvalue

/-- Two bytes, and an address in small letters. -/
theorem codecs_inverse_twoBytes :
    scHexs2Chars 1 2 (scChars2Hexs [0x0a, 0xff] (.fresh 6) (some (CStr.text ":"))).2.bytes 0 =
        .ok [0x0a, 0xff] ∧
      (assignMac (CStr.text "001a2b3c4def") .initial .apMac).mac .apMac =
        ⟨0x00, 0x1a, 0x2b, 0x3c, 0x4d, 0xef⟩ := by
  let g := Globals.initial.setMac .apMac ⟨0x00, 0x1a, 0x2b, 0x3c, 0x4d, 0xef⟩
  have hmac := codecs_inverse.2.2 g .initial .apMac .apMac (CStr.text "001a2b3c4def")
    (by rw [Globals.mac_setMac_self]; decide) (.inr (by rw [Globals.mac_setMac_self]; decide))
  rw [Globals.mac_setMac_self] at hmac
  exact ⟨(codecs_inverse.1 [0x0a, 0xff] 6 0 (by decide) (by decide)).1 (CStr.text ":") rfl, hmac⟩

end Wap4410n.Utility
