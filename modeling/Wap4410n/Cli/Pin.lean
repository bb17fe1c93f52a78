import Wap4410n.Cli.Words
import Wap4410n.Support.CheckDigit
import Wap4410n.Support.Print

/-!
# CLI — the WPS PIN

`generate_pin` prints seven random digits and the digit that completes their weighted sum to a
multiple of ten.  `IsValidWpsPin` goes through the first `WPS_PIN_LEN` characters and then has
`atol` read the whole text, whose number `ValidateChecksum` takes apart again.

* `isValidWpsPin_iff`: accepted is a text that begins with eight digits or more, just when the last
  eight of them sum up and their number is a `long`.
* `generatePin_held`: what is generated is a PIN.
* `pinsAgree_iff`: generation and validation agree just when nothing follows a PIN in the text.
-/

namespace LinksysCli

open CLib

def wpsPinLen : Nat := 8

/-- `atol`, for a `long` of 32 bits. -/
def atol : CStr → Int := atoi

def validateChecksum (PIN : Nat) : Bool :=
  let accum := 0
  let accum := accum + 3 * ((PIN / 10000000) % 10)
  let accum := accum + 1 * ((PIN / 1000000) % 10)
  let accum := accum + 3 * ((PIN / 100000) % 10)
  let accum := accum + 1 * ((PIN / 10000) % 10)
  let accum := accum + 3 * ((PIN / 1000) % 10)
  let accum := accum + 1 * ((PIN / 100) % 10)
  let accum := accum + 3 * ((PIN / 10) % 10)
  let accum := accum + 1 * ((PIN / 1) % 10)
  accum % 10 = 0

/-- The loop of `IsValidWpsPin` from `i` on, `n` characters before its end. -/
def pinLoop (wps_pin : CStr) : Nat → Nat → Nat
  | 0, i => i
  | n + 1, i =>
      if charAt wps_pin i < 0x30 ∨ 0x39 < charAt wps_pin i then i else pinLoop wps_pin n (i + 1)

/-- The number of `atol` is passed on as an `unsigned long`. -/
def isValidWpsPin (wps_pin : CStr) : Bool :=
  if pinLoop wps_pin wpsPinLen 0 = wpsPinLen then
    validateChecksum (atol wps_pin % 0x100000000).toNat
  else false

/-- `generate_pin`, where `buffer` is what it reads from `/dev/urandom`, if that opens. -/
def generatePin (buffer : Option (Fin 7 → Byte)) (pinValue : Block) : Int × Block :=
  match buffer with
  | none => (-1, pinValue)
  | some buffer =>
      let buffer := fun i => buffer i % 10
      let accum := 0
      let accum := accum + 3 * (buffer 0 % 10).toNat
      let accum := accum + 1 * (buffer 1 % 10).toNat
      let accum := accum + 3 * (buffer 2 % 10).toNat
      let accum := accum + 1 * (buffer 3 % 10).toNat
      let accum := accum + 3 * (buffer 4 % 10).toNat
      let accum := accum + 1 * (buffer 5 % 10).toNat
      let accum := accum + 3 * (buffer 6 % 10).toNat
      let accum := accum % 10
      let accum := (10 - accum) % 10
      let text := ((List.ofFn buffer).map fun b => CStr.ofInt b.toNat).foldr CStr.append
        (.ofInt accum)
      (0, (pinValue.strcpy text).store 8 [0])

/-! ### What a PIN is -/

/-- The weights of the digits. -/
def pinWeights : List Nat := [3, 1, 3, 1, 3, 1, 3, 1]

/-- The digits sum up to a multiple of ten. -/
def Sums (ds : List Byte) : Prop := 10 ∣ weigh pinWeights (ds.map digitVal)

/-- Eight decimal digits that sum up. -/
structure IsPin (s : CStr) : Prop where
  length : s.length = wpsPinLen
  digits : ∀ b ∈ s.bytes, isDigit b = true
  sums : Sums s.bytes

/-- The digits a text begins with. -/
def leadingDigits (s : CStr) : List Byte := s.bytes.takeWhile isDigit

/-- The last eight of them. -/
def lastEight (s : CStr) : List Byte :=
  (leadingDigits s).drop ((leadingDigits s).length - wpsPinLen)

/-- The text goes on behind its first eight digits, and the last eight of all it begins with sum up,
the number of which is a `long`. -/
structure Overlong (s : CStr) : Prop where
  longer : wpsPinLen < s.length
  digits : wpsPinLen ≤ (leadingDigits s).length
  small : decimal (leadingDigits s) ≤ 0x7fffffff
  sums : Sums (lastEight s)

/-- Generation and validation agree: what is generated from `buffer` is accepted, just PINs are, and
a PIN that is accepted is not once one of its digits is changed. -/
structure PinsAgree (buffer : Fin 7 → Byte) (s : CStr) : Prop where
  generated : ∀ pinValue : Block, wpsPinLen < pinValue.size →
    ∃ p, (generatePin (some buffer) pinValue).2.held = some p ∧ p.length = wpsPinLen ∧
      (∀ b ∈ p.bytes, isDigit b = true) ∧ isValidWpsPin p = true
  accepted : isValidWpsPin s = true ↔ IsPin s
  changed : isValidWpsPin s = true → ∀ i < s.length, ∀ d, isDigit d = true →
    s.bytes[i]? ≠ some d → ∀ t : CStr, t.bytes = s.bytes.set i d → isValidWpsPin t = false

/-! ### `ValidateChecksum` -/

/-- The checksum of a number is that of its last eight digits. -/
theorem validateChecksum_iff {ds es : List Byte} (hlen : es.length = wpsPinLen)
    (h : ∀ b ∈ es, isDigit b = true) :
    validateChecksum (decimal (ds ++ es)) = true ↔ Sums es := by
  match es, hlen with
  | [b₀, b₁, b₂, b₃, b₄, b₅, b₆, b₇], _ =>
      have hdigit : ∀ (fs : List Byte) (b : Byte) (gs : List Byte),
          [b₀, b₁, b₂, b₃, b₄, b₅, b₆, b₇] = fs ++ b :: gs →
          decimal (ds ++ [b₀, b₁, b₂, b₃, b₄, b₅, b₆, b₇]) / 10 ^ gs.length % 10 = digitVal b := by
        intro fs b gs he
        rw [he, ← List.append_assoc]
        exact decimal_digit _ fun a ha => h a (he ▸ List.mem_append_right fs ha)
      have h₀ := hdigit [] b₀ [b₁, b₂, b₃, b₄, b₅, b₆, b₇] rfl
      have h₁ := hdigit [b₀] b₁ [b₂, b₃, b₄, b₅, b₆, b₇] rfl
      have h₂ := hdigit [b₀, b₁] b₂ [b₃, b₄, b₅, b₆, b₇] rfl
      have h₃ := hdigit [b₀, b₁, b₂] b₃ [b₄, b₅, b₆, b₇] rfl
      have h₄ := hdigit [b₀, b₁, b₂, b₃] b₄ [b₅, b₆, b₇] rfl
      have h₅ := hdigit [b₀, b₁, b₂, b₃, b₄] b₅ [b₆, b₇] rfl
      have h₆ := hdigit [b₀, b₁, b₂, b₃, b₄, b₅] b₆ [b₇] rfl
      have h₇ := hdigit [b₀, b₁, b₂, b₃, b₄, b₅, b₆] b₇ [] rfl
      generalize decimal (ds ++ [b₀, b₁, b₂, b₃, b₄, b₅, b₆, b₇]) = n at *
      simp only [List.length_cons, List.length_nil, Nat.reduceAdd, Nat.reducePow] at *
      unfold validateChecksum Sums
      rw [h₀, h₁, h₂, h₃, h₄, h₅, h₆, h₇]
      simp only [List.map_cons, List.map_nil, pinWeights, weigh, decide_eq_true_eq]
      omega

/-! ### `IsValidWpsPin` -/

/-- The loop counts the digits at the front, `n` at most. -/
theorem pinLoop_eq (s : CStr) (n i : Nat) :
    pinLoop s n i = i + min n ((s.bytes.drop i).takeWhile isDigit).length := by
  induction n generalizing i with
  | zero => simp [pinLoop]
  | succ n ih =>
      have hnext : s.bytes.drop (i + 1) = (s.bytes.drop i).drop 1 := by rw [List.drop_drop]
      have hchar : charAt s i = (s.bytes.drop i).getD 0 0 := by
        rw [charAt, List.getD_eq_getElem?_getD, List.getD_eq_getElem?_getD, List.getElem?_drop,
          Nat.add_zero]
      rw [pinLoop, ih, hnext, hchar]
      cases s.bytes.drop i with
      | nil => rfl
      | cons b bs =>
          rw [List.takeWhile_cons, List.getD_cons_zero]
          by_cases hb : isDigit b = true
          · have hnot : ¬(b < 0x30 ∨ 0x39 < b) := by
              simpa [isDigit, not_or, UInt8.not_lt] using hb
            rw [if_neg hnot, if_pos hb, List.drop_one, List.tail_cons, List.length_cons]
            omega
          · have hyes : b < 0x30 ∨ 0x39 < b := by
              by_contra hno
              exact hb (by simpa [isDigit, not_or, UInt8.not_lt] using hno)
            rw [if_pos hyes, if_neg hb]
            rfl

theorem leadingDigits_isDigit {s : CStr} {b : Byte} (hb : b ∈ leadingDigits s) : isDigit b = true :=
  List.mem_takeWhile_imp hb

/-- The number of a text that begins with a digit. -/
theorem atol_eq {s : CStr} (h : leadingDigits s ≠ []) :
    atol s = clampLong (decimal (leadingDigits s)) := by
  have hscan := scanNumber_decimal h (fun b hb => leadingDigits_isDigit hb)
    (head?_dropWhile_all isDigit s.bytes)
  rw [leadingDigits, List.takeWhile_append_dropWhile] at hscan
  rw [atol, atoi, hscan]
  rfl

/-- **A text is accepted** just when it begins with eight digits or more, whose number is a `long`
and whose last eight sum up. -/
theorem isValidWpsPin_iff (s : CStr) :
    isValidWpsPin s = true ↔ wpsPinLen ≤ (leadingDigits s).length ∧
      decimal (leadingDigits s) ≤ 0x7fffffff ∧ Sums (lastEight s) := by
  have hloop : pinLoop s wpsPinLen 0 = wpsPinLen ↔ wpsPinLen ≤ (leadingDigits s).length := by
    rw [pinLoop_eq, List.drop_zero, Nat.zero_add, leadingDigits]
    omega
  unfold isValidWpsPin
  by_cases hlen : wpsPinLen ≤ (leadingDigits s).length
  · rw [if_pos (hloop.mpr hlen), and_iff_right hlen,
      atol_eq (List.length_pos_iff.mp (Nat.lt_of_lt_of_le (by decide) hlen))]
    by_cases hsmall : decimal (leadingDigits s) ≤ 0x7fffffff
    · have hnumber : (clampLong (decimal (leadingDigits s)) % 0x100000000).toNat =
          decimal (leadingDigits s) := by
        unfold clampLong
        split <;> (try split) <;> omega
      have hsplit := (List.take_append_drop ((leadingDigits s).length - wpsPinLen)
        (leadingDigits s)).symm
      have hlast : (lastEight s).length = wpsPinLen := by
        rw [lastEight, List.length_drop]
        omega
      rw [and_iff_right hsmall, hnumber, hsplit]
      exact validateChecksum_iff hlast fun b hb =>
        leadingDigits_isDigit (List.mem_of_mem_drop hb)
    · have hnumber : (clampLong (decimal (leadingDigits s)) % 0x100000000).toNat = 0x7fffffff := by
        unfold clampLong
        split <;> (try split) <;> omega
      rw [hnumber]
      exact iff_of_false (by decide) fun h => hsmall h.1
  · rw [if_neg (mt hloop.mp hlen)]
    exact iff_of_false Bool.false_ne_true fun h => hlen h.1

/-! ### PINs -/

theorem leadingDigits_eq {s : CStr} (h : ∀ b ∈ s.bytes, isDigit b = true) :
    leadingDigits s = s.bytes := List.takeWhile_eq_self_iff.mpr h

/-- Nothing goes before the last eight of eight digits. -/
theorem lastEight_eq {s : CStr} (h : (leadingDigits s).length = wpsPinLen) :
    lastEight s = leadingDigits s := by
  rw [lastEight, h, Nat.sub_self, List.drop_zero]

/-- PINs are the texts accepted that do not go on behind eight characters. -/
theorem isPin_iff (s : CStr) : IsPin s ↔ isValidWpsPin s = true ∧ s.length ≤ wpsPinLen := by
  rw [isValidWpsPin_iff]
  constructor
  · rintro ⟨hlen, hdigits, hsums⟩
    have hall := leadingDigits_eq hdigits
    have hlead : (leadingDigits s).length = wpsPinLen := by rw [hall, ← hlen, CStr.length]
    have hbound := decimal_lt hdigits
    rw [← CStr.length, hlen] at hbound
    refine ⟨⟨hlead.ge, ?_, ?_⟩, hlen.le⟩
    · rw [hall]
      exact (Nat.lt_of_lt_of_le hbound (by decide)).le
    · rw [lastEight_eq hlead, hall]
      exact hsums
  · rintro ⟨⟨hlead, -, hsums⟩, hlen⟩
    have hprefix : leadingDigits s <+: s.bytes := List.takeWhile_prefix isDigit
    have hle := hprefix.length_le
    rw [CStr.length] at hlen
    have hall : leadingDigits s = s.bytes := hprefix.eq_of_length (by omega)
    rw [hall] at hlead
    have hlength : s.bytes.length = wpsPinLen := Nat.le_antisymm hlen hlead
    refine ⟨hlength, fun b hb => leadingDigits_isDigit (hall ▸ hb), ?_⟩
    rwa [lastEight_eq (by rw [hall, hlength]), hall] at hsums

/-- With one digit changed, a PIN is none. -/
theorem IsPin.changed {s t : CStr} (h : IsPin s) {i : Nat} (hi : i < s.length) {d : Byte}
    (hd : isDigit d = true) (hne : s.bytes[i]? ≠ some d) (ht : t.bytes = s.bytes.set i d) :
    ¬IsPin t := by
  intro hpin
  have hlen : i < s.bytes.length := hi
  have hi8 : i < pinWeights.length := by
    rw [h.length] at hi
    exact hi
  have hprime : ∀ w ∈ pinWeights, Nat.Coprime 10 w := by decide
  have hold : isDigit s.bytes[i] = true := h.digits _ (List.getElem_mem hlen)
  have hvalue : (s.bytes.map digitVal)[i]? = some (digitVal s.bytes[i]) := by
    rw [List.getElem?_map, List.getElem?_eq_getElem hlen]
    rfl
  have hdiff : digitVal s.bytes[i] ≠ digitVal d := by
    intro he
    have h₁ := isDigit_iff.mp hold
    have h₂ := isDigit_iff.mp hd
    rw [digitVal, digitVal] at he
    refine hne ?_
    rw [List.getElem?_eq_getElem hlen]
    exact congrArg some (UInt8.toNat_inj.mp (by omega))
  have hsums := hpin.sums
  rw [ht, Sums, List.map_set] at hsums
  exact not_dvd_weigh_set (List.getElem?_eq_getElem hi8) hvalue (hprime _ (List.getElem_mem hi8))
    (digitVal_lt hold) (digitVal_lt hd) hdiff h.sums hsums

/-! ### `generate_pin` -/

/-- A digit is printed as one character. -/
theorem bytes_ofInt_digit {n : Nat} (h : n < 10) : (CStr.ofInt n).bytes = [digit n] := by
  rw [bytes_ofInt (by omega) (by omega), Int.toNat_natCast, digits, if_pos h]

/-- The eight digits printed for the random bytes. -/
def generatedPin (buffer : Fin 7 → Byte) : List Nat :=
  let ds := (List.ofFn buffer).map fun b => b.toNat % 10
  ds ++ [checkDigit 10 (weigh [3, 1, 3, 1, 3, 1, 3] ds)]

theorem generatedPin_lt {buffer : Fin 7 → Byte} {n : Nat} (h : n ∈ generatedPin buffer) :
    n < 10 := by
  rcases List.mem_append.mp h with h | h
  · obtain ⟨b, -, rfl⟩ := List.mem_map.mp h
    exact Nat.mod_lt _ (by decide)
  · rw [List.mem_singleton.mp h]
    exact checkDigit_lt (by decide) _

theorem dvd_weigh_generatedPin (buffer : Fin 7 → Byte) :
    10 ∣ weigh pinWeights (generatedPin buffer) := by
  have hweights : pinWeights = [3, 1, 3, 1, 3, 1, 3] ++ [1] := rfl
  rw [hweights, generatedPin, weigh_concat (by simp), Nat.one_mul]
  exact dvd_add_checkDigit (by decide) _

/-- The text printed has these digits. -/
theorem generatePin_eq (buffer : Fin 7 → Byte) (pinValue : Block) :
    ∃ text : CStr, text.bytes = (generatedPin buffer).map digit ∧
      generatePin (some buffer) pinValue = (0, (pinValue.strcpy text).store 8 [0]) := by
  refine ⟨_, ?_, rfl⟩
  have hmod : ∀ b : Byte, (b % 10).toNat = b.toNat % 10 := fun b => UInt8.toNat_mod b 10
  have hprint : ∀ n, n % 10 < 10 := fun n => Nat.mod_lt n (by decide)
  simp only [generatedPin, checkDigit, weigh, List.ofFn_succ, List.ofFn_zero, List.map_cons,
    List.map_nil, List.foldr_cons, List.foldr_nil, CStr.bytes_append, hmod,
    bytes_ofInt_digit (hprint _), List.cons_append, List.nil_append, Nat.mod_mod, Nat.add_assoc,
    Nat.zero_add, Nat.add_zero]
  rfl

/-- What is printed stands in `pinValue`, with its NUL. -/
theorem held_pinValue {pinValue : Block} {text : CStr} (hlen : text.length = wpsPinLen)
    (hsize : wpsPinLen < pinValue.size) :
    ((pinValue.strcpy text).store 8 [0]).held = some text := by
  have hbytes : ((pinValue.strcpy text).store 8 [0]).bytes =
      text.bytes ++ 0 :: pinValue.bytes.drop 9 := by
    have h8 : text.bytes.length = 8 := hlen
    rw [Block.store, splice, Block.bytes_strcpy, CStr.mem, List.append_assoc, List.append_assoc,
      ← h8, List.take_left, List.drop_length_add_append, CStr.length, h8]
    rfl
  rw [Block.held_of_bytes hbytes]
  exact if_pos (hlen ▸ hsize)

/-- **What is generated is a PIN.** -/
theorem generatePin_held (buffer : Fin 7 → Byte) {pinValue : Block}
    (hsize : wpsPinLen < pinValue.size) :
    ∃ p, (generatePin (some buffer) pinValue).2.held = some p ∧ IsPin p := by
  obtain ⟨text, hbytes, hrun⟩ := generatePin_eq buffer pinValue
  have hlen : text.length = wpsPinLen := by
    rw [CStr.length, hbytes]
    simp [generatedPin, wpsPinLen]
  refine ⟨text, ?_, hlen, ?_, ?_⟩
  · rw [hrun]
    exact held_pinValue hlen hsize
  · intro b hb
    rw [hbytes] at hb
    obtain ⟨n, hn, rfl⟩ := List.mem_map.mp hb
    exact isDigit_digit (generatedPin_lt hn)
  · have hvalues : text.bytes.map digitVal = generatedPin buffer := by
      rw [hbytes, List.map_map]
      exact (List.map_congr_left fun n hn => digitVal_digit (generatedPin_lt hn)).trans
        (List.map_id _)
    rw [Sums, hvalues]
    exact dvd_weigh_generatedPin buffer

/-! ### Agreement -/

/-- **Generation and validation agree** on a text just when it does not go on behind a PIN. -/
theorem pinsAgree_iff (buffer : Fin 7 → Byte) (s : CStr) : PinsAgree buffer s ↔ ¬Overlong s := by
  constructor
  · rintro ⟨-, haccepted, -⟩ ⟨hlonger, hdigits, hsmall, hsums⟩
    have hpin := haccepted.mp ((isValidWpsPin_iff s).mpr ⟨hdigits, hsmall, hsums⟩)
    exact absurd hpin.length hlonger.ne'
  · intro hshort
    have hlength : isValidWpsPin s = true → s.length ≤ wpsPinLen := by
      intro hvalid
      by_contra hlong
      obtain ⟨hdigits, hsmall, hsums⟩ := (isValidWpsPin_iff s).mp hvalid
      exact hshort ⟨Nat.lt_of_not_le hlong, hdigits, hsmall, hsums⟩
    refine ⟨fun pinValue hsize => ?_, ?_, fun hvalid i hi d hd hne t ht => ?_⟩
    · obtain ⟨p, hheld, hpin⟩ := generatePin_held buffer hsize
      exact ⟨p, hheld, hpin.length, hpin.digits, ((isPin_iff p).mp hpin).1⟩
    · exact ⟨fun h => (isPin_iff s).mpr ⟨h, hlength h⟩, fun h => ((isPin_iff s).mp h).1⟩
    · have hpin := (isPin_iff s).mpr ⟨hvalid, hlength hvalid⟩
      have hlen : t.length = s.length := by rw [CStr.length, ht, List.length_set, CStr.length]
      rw [Bool.eq_false_iff]
      intro hchanged
      exact hpin.changed hi hd hne ht ((isPin_iff t).mpr ⟨hchanged, hlen ▸ hlength hvalid⟩)

/-- A letter behind a PIN goes unnoticed. -/
theorem letter_not_agrees : ¬PinsAgree (fun _ => 0) (.text "12345670a") := by
  intro h
  have hvalid : isValidWpsPin (.text "12345670a") = true := by decide +kernel
  have hlen := (h.accepted.mp hvalid).length
  exact absurd hlen (by decide)

end LinksysCli
