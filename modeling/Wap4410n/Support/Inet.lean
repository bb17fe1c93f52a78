import Wap4410n.Support.Print

/-!
# Support — addresses as text

An IPv4 address is its four octets, in the order of the network.  `inet_addr` is that of uClibc: it
reads four decimal numbers up to 255, separated by `.`, with white space or nothing behind them; any
other text is `INADDR_NONE`.  `inet_ntoa` prints four decimal numbers.

* `inetAddr_inetNtoa`: `inet_addr` reads back what `inet_ntoa` printed.
-/

namespace CLib

/-- An IPv4 address. -/
structure InAddr where
  a : Byte
  b : Byte
  c : Byte
  d : Byte
deriving DecidableEq, Repr

namespace InAddr

/-- The octets. -/
def octets (x : InAddr) : List Byte := [x.a, x.b, x.c, x.d]

/-- The number the octets are the digits of. -/
def toNat (x : InAddr) : Nat :=
  ((x.a.toNat * 256 + x.b.toNat) * 256 + x.c.toNat) * 256 + x.d.toNat

def ofNat (n : Nat) : InAddr where
  a := UInt8.ofNat (n / 256 ^ 3)
  b := UInt8.ofNat (n / 256 ^ 2)
  c := UInt8.ofNat (n / 256)
  d := UInt8.ofNat n

/-- `INADDR_NONE` -/
def none : InAddr := ⟨255, 255, 255, 255⟩

/-- `0.0.0.0` -/
def zero : InAddr := ⟨0, 0, 0, 0⟩

end InAddr

/-- The value of a digit. -/
def digitValue (b : Byte) : Option Nat :=
  if 0x30 ≤ b ∧ b ≤ 0x39 then some (b.toNat - 0x30)
  else if 0x41 ≤ b ∧ b ≤ 0x46 then some (b.toNat - 0x37)
  else if 0x61 ≤ b ∧ b ≤ 0x66 then some (b.toNat - 0x57)
  else none

/-- A decimal number up to 255 at the front of a text, and what follows it. -/
def atonPart (s : List Byte) : Option (Byte × List Byte) :=
  let ds := s.takeWhile isDigit
  if ds = [] ∨ 255 < decimal ds then none else some (.ofNat (decimal ds), s.dropWhile isDigit)

/-- `inet_aton` -/
def inetAton (s : CStr) : Option InAddr := do
  let (a, s) ← atonPart s.bytes
  let (b, s) ← atonPart (← scanChar 0x2e s)
  let (c, s) ← atonPart (← scanChar 0x2e s)
  let (d, s) ← atonPart (← scanChar 0x2e s)
  if s.head?.all isSpace then some ⟨a, b, c, d⟩ else none

/-- `inet_addr` -/
def inetAddr (s : CStr) : InAddr := (inetAton s).getD .none

/-- An octet in decimal. -/
def octet (b : Byte) : CStr := .ofInt b.toNat

/-- `inet_ntoa` -/
def inetNtoa (x : InAddr) : CStr :=
  (octet x.a).append <| (CStr.text ".").append <| (octet x.b).append <| (CStr.text ".").append <|
    (octet x.c).append <| (CStr.text ".").append (octet x.d)

theorem length_octet_le (b : Byte) : (octet b).length ≤ 3 := by
  have hb := b.toNat_lt
  have hlen : (digits 10 10 (b.toNat : Int).toNat).length ≤ 3 := length_digits_lt (by omega)
  rw [octet, CStr.length, bytes_ofInt (by omega) (by omega)]
  exact hlen

/-- An address takes 15 characters at most. -/
theorem length_inetNtoa_le (x : InAddr) : (inetNtoa x).length ≤ 15 := by
  have hdot : (CStr.text ".").length = 1 := by decide
  have ha := length_octet_le x.a
  have hb := length_octet_le x.b
  have hc := length_octet_le x.c
  have hd := length_octet_le x.d
  rw [inetNtoa]
  simp only [CStr.length_append, hdot]
  omega

/-! ### Printed addresses are read back -/

theorem bytes_octet (b : Byte) : (octet b).bytes = digits 10 10 b.toNat := by
  have hb := b.toNat_lt
  rw [octet, bytes_ofInt (by omega) (by omega)]
  rfl

/-- The number of an octet is read up to what is not a digit. -/
theorem atonPart_octet (b : Byte) {t : List Byte} (ht : t.head?.all fun c => !isDigit c) :
    atonPart ((octet b).bytes ++ t) = some (b, t) := by
  have hb := b.toNat_lt
  have hdigits : ∀ c ∈ digits 10 10 b.toNat, isDigit c = true := fun c hc => isDigit_digits hc
  obtain ⟨hrun, hrest⟩ := run_digits hdigits ht
  have hvalue : decimal (digits 10 10 b.toNat) = b.toNat := decimal_digits (by omega)
  rw [atonPart, bytes_octet, hrun, hrest, hvalue]
  have hsmall : ¬(digits 10 10 b.toNat = [] ∨ 255 < b.toNat) := by
    rintro (h | h)
    · exact digits_ne_nil 9 _ h
    · omega
  exact (if_neg hsmall).trans (by rw [UInt8.ofNat_toNat])

/-- **`inet_addr` reads back what `inet_ntoa` printed.** -/
theorem inetAddr_inetNtoa (x : InAddr) : inetAddr (inetNtoa x) = x := by
  have hbytes : (inetNtoa x).bytes = (octet x.a).bytes ++ 0x2e :: ((octet x.b).bytes ++
      0x2e :: ((octet x.c).bytes ++ 0x2e :: (octet x.d).bytes)) := rfl
  have hlast : atonPart (octet x.d).bytes = some (x.d, []) := by
    have h := atonPart_octet x.d (t := []) rfl
    rwa [List.append_nil] at h
  have haton : inetAton (inetNtoa x) = some x := by
    rw [inetAton, hbytes, atonPart_octet x.a rfl]
    simp only [Option.bind_eq_bind, Option.bind_some, scanChar, List.head?_cons, if_true,
      List.tail_cons]
    rw [atonPart_octet x.b rfl]
    simp only [Option.bind_some, List.head?_cons, if_true, List.tail_cons]
    rw [atonPart_octet x.c rfl]
    simp only [Option.bind_some, List.head?_cons, if_true, List.tail_cons]
    rw [hlast]
    rfl
  rw [inetAddr, haton]
  rfl

example : inetAddr (.text "192.168.1.245") = ⟨192, 168, 1, 245⟩ := by decide

example : inetAddr (.text "192.168.1") = .none := by decide

end CLib
