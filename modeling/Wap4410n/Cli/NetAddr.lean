import Wap4410n.Cli.Url
import Wap4410n.Support.InetNotation

/-!
# CLI — addresses

`sccli_tokenGetNetAddrHandler` looks for four numbers with `strtoul`, to base ten, and then hands
the token to `inet_addr`.  The first takes any character between two numbers, and does not look at
the last one where the token ends with it.  The second cannot tell `255.255.255.255` from a text it
does not read, and takes what stands behind a blank.

`inet_addr` is that of the C library.  The one of the toolchain, uClibc, reads four decimal numbers
(`inetAton`); others read the notation of C, with octal and hexadecimal numbers and fewer of them
(`Notation.inetAton`).  So the handler has it as a parameter.

* `partsLoop_eq`: the loop finds four numbers (`FourNumbers`), and reads nothing behind the token.
* `readsExactly_aton`: the tokens whose address is read just if it is a dotted quad, and as it is.
* `readsExactly_iff`: which these are with the one and with the other.
-/

namespace LinksysCli

open CLib CLib.Ipv6
open Wap4410n.Utility (OctetText DottedQuad)

/-! ### The handler -/

/-- The value `strtoul` returns, for an `unsigned long` of 32 bits. -/
def ulong (n : Int) : UInt32 := if 0xffffffff < n.natAbs then 0xffffffff else .ofInt n

/-- `strtoul(q, &pEnd, 10)`, and how far `pEnd` is from `q` -/
def strtoul (o : Local) (q : List Byte) : Run Local (UInt32 × Nat) := do
  let s ← stringAt o q
  match scanNumber s.bytes with
  | some (n, rest) => return (ulong n, s.length - rest.length)
  | none => return (0, 0)

/-- The loop of `sccli_tokenGetNetAddrHandler`, with the turns that are left; whether it ends. -/
def partsLoop : Nat → List Byte → Run Local Bool
  | 0, _ => return true
  | n + 1, q => do
    let (ul, pEnd) ← strtoul .popped q
    let v := ul.toInt32
    let ch ← deref .popped (q.drop pEnd)
    if ch ≠ 0 then
      if 256 ≤ v then return false
      else if v = 0 ∧ pEnd = 0 then return false
      else partsLoop n (q.drop (pEnd + 1))
    else if n ≠ 0 then return false
    else partsLoop n (q.drop (pEnd + 1))

/-- `sccli_tokenGetNetAddrHandler`, and the address where it is stored; `aton` is the `inet_aton` of
the C library. -/
def sccliTokenGetNetAddrHandler (aton : CStr → Option InAddr) (buf : Block) (pCli : Cli) :
    Run Local (Option InAddr) × Cli :=
  match { pCli with tokenLvl := pCli.tokenLvl + 1 }.sccliTokenPop buf with
  | (none, pCli) => (.ok none, pCli)
  | (some p, pCli) =>
    (do
      let found ← partsLoop 4 p.mem
      -- `inet_addr`
      let addr := (aton p).getD .none
      return if found = true ∧ addr ≠ .none then some addr else none, pCli)

/-! ### The numbers of a token -/

/-- A number is all of the text. -/
def NumberText (s : List Byte) : Prop := ∃ n, scanNumber s = some (n, [])

/-- A number whose `int` is below 256 is all of the text. -/
def SmallText (s : List Byte) : Prop := ∃ n, scanNumber s = some (n, []) ∧ (ulong n).toInt32 < 256

/-- The text begins with a small number, and `r` stands behind the character behind it. -/
def SmallThen (s r : List Byte) : Prop :=
  ∃ ds c, s = ds ++ c :: r ∧ isDigit c = false ∧ SmallText ds

/-- The text is small numbers, one more than `n`, each with a character behind it; the last of them
may be the end of the text, and is then any number or none. -/
def Numbers : Nat → List Byte → Prop
  | 0, s => s = [] ∨ NumberText s ∨ ∃ r, SmallThen s r
  | n + 1, s => ∃ r, SmallThen s r ∧ Numbers n r

/-- Four numbers. -/
def FourNumbers (t : CStr) : Prop := Numbers 3 t.bytes

/-- A number is blanks, a sign and digits. -/
structure Spelled (s : List Byte) (n : Int) (rest : List Byte) (blanks sign ds : List Byte) :
    Prop where
  text : s = blanks ++ (sign ++ (ds ++ rest))
  blank : ∀ b ∈ blanks, isSpace b = true
  signed : sign = [] ∨ sign = [0x2d] ∨ sign = [0x2b]
  digits : IsNumeral ds
  ends : rest.head?.all fun c => !isDigit c
  value : n = if sign = [0x2d] then -(decimal ds : Int) else decimal ds

/-- The sign at the front. -/
theorem exists_sign (t : List Byte) : ∃ sign u, t = sign ++ u ∧
    (sign = [] ∨ sign = [0x2d] ∨ sign = [0x2b]) ∧
    (if t.head? = some 0x2d ∨ t.head? = some 0x2b then t.tail else t) = u ∧
    (t.head? = some 0x2d ↔ sign = [0x2d]) := by
  cases t with
  | nil => exact ⟨[], [], rfl, .inl rfl, rfl, by simp⟩
  | cons b u =>
      by_cases hminus : b = 0x2d
      · subst hminus
        exact ⟨[0x2d], u, rfl, .inr (.inl rfl), rfl, by simp⟩
      · by_cases hplus : b = 0x2b
        · subst hplus
          exact ⟨[0x2b], u, rfl, .inr (.inr rfl), rfl, by simp⟩
        · exact ⟨[], b :: u, rfl, .inl rfl, if_neg (by simp [hminus, hplus]), by simp [hminus]⟩

theorem scanNumber_iff {s rest : List Byte} {n : Int} :
    scanNumber s = some (n, rest) ↔ ∃ blanks sign ds, Spelled s n rest blanks sign ds := by
  constructor
  · intro h
    obtain ⟨sign, u, ht, hsign, hu, hminus⟩ := exists_sign (s.dropWhile isSpace)
    rw [scanNumber] at h
    simp only [hu] at h
    simp only [hminus, Option.ite_none_left_eq_some, Option.some.injEq, Prod.mk.injEq] at h
    obtain ⟨hne, hn, hrest⟩ := h
    refine ⟨s.takeWhile isSpace, sign, u.takeWhile isDigit, ?_,
      fun b hb => List.mem_takeWhile_imp hb,
      hsign, ⟨hne, fun b hb => List.mem_takeWhile_imp hb⟩, ?_, hn.symm⟩
    · rw [← hrest, List.takeWhile_append_dropWhile, ← ht, List.takeWhile_append_dropWhile]
    · rw [← hrest]
      exact head?_dropWhile_all isDigit u
  · rintro ⟨blanks, sign, ds, rfl, hblank, hsign, hds, hends, rfl⟩
    have hskip : ∀ u, scanNumber (blanks ++ u) = scanNumber u := fun u => by
      rw [scanNumber, List.dropWhile_append_of_pos hblank]
      rfl
    rw [hskip]
    rcases hsign with rfl | rfl | rfl
    · exact scanNumber_decimal hds.1 hds.2 hends
    · exact scanNumber_signed (.inl rfl) hds.1 hds.2 hends
    · exact scanNumber_signed (.inr rfl) hds.1 hds.2 hends

/-- The number at the front is a text of its own. -/
theorem scanNumber_eq_some {s rest : List Byte} {n : Int} :
    scanNumber s = some (n, rest) ↔
      ∃ ds, s = ds ++ rest ∧ scanNumber ds = some (n, []) ∧ rest.head?.all fun c => !isDigit c := by
  rw [scanNumber_iff]
  constructor
  · rintro ⟨blanks, sign, ds, h⟩
    refine ⟨blanks ++ (sign ++ ds), by simp [h.text], ?_, h.ends⟩
    exact scanNumber_iff.mpr ⟨blanks, sign, ds, by simp, h.blank, h.signed, h.digits, rfl, h.value⟩
  · rintro ⟨text, rfl, hnumber, hends⟩
    obtain ⟨blanks, sign, ds, h⟩ := scanNumber_iff.mp hnumber
    exact ⟨blanks, sign, ds, by simp [h.text], h.blank, h.signed, h.digits, hends, h.value⟩

/-! ### The loop -/

/-- `strtoul` reads the token up to its NUL at most. -/
theorem strtoul_mem (s : CStr) : strtoul .popped s.mem = .ok
    (match scanNumber s.bytes with
      | some (n, rest) => (ulong n, s.length - rest.length)
      | none => (0, 0)) := by
  rw [strtoul, stringAt_mem, Run.ok_bind]
  cases scanNumber s.bytes <;> rfl

/-- The rest of a string is one. -/
theorem drop_mem (s : CStr) {ds r : List Byte} (h : s.bytes = ds ++ r) :
    s.mem.drop ds.length = r ++ [0] := by
  rw [CStr.mem, h, List.append_assoc, List.drop_left]

/-- A number, with a character behind it. -/
theorem smallThen_iff {s r : List Byte} :
    SmallThen s r ↔ ∃ m c, scanNumber s = some (m, c :: r) ∧ (ulong m).toInt32 < 256 := by
  constructor
  · rintro ⟨ds, c, hs, hc, m, hm, hsmall⟩
    exact ⟨m, c, scanNumber_eq_some.mpr ⟨ds, hs, hm, by simpa using hc⟩, hsmall⟩
  · rintro ⟨m, c, hm, hsmall⟩
    obtain ⟨ds, hs, hds, hc⟩ := scanNumber_eq_some.mp hm
    exact ⟨ds, c, hs, by simpa using hc, m, hds, hsmall⟩

/-- **A turn** where no number is found. -/
theorem partsLoop_none (n : Nat) {s : CStr} (h : scanNumber s.bytes = none) :
    partsLoop (n + 1) s.mem = .ok (decide (s.bytes = [] ∧ n = 0)) := by
  rw [partsLoop, strtoul_mem, h, Run.ok_bind]
  dsimp only
  rw [List.drop_zero]
  cases hs : s.bytes with
  | nil =>
      rw [CStr.mem, hs, List.nil_append, deref_cons, Run.ok_bind, if_neg (not_not.mpr rfl)]
      cases n with
      | zero => rfl
      | succ n => rfl
  | cons c l =>
      have hc : c ≠ 0 := CStr.ne_zero (hs ▸ List.mem_cons_self)
      rw [CStr.mem, hs, List.cons_append, deref_cons, Run.ok_bind, if_pos hc]
      simp

/-- Where `strtoul` stops that found a number. -/
theorem strtoul_stops {s : CStr} {m : Int} {rest : List Byte}
    (h : scanNumber s.bytes = some (m, rest)) :
    s.length - rest.length ≠ 0 ∧ s.mem.drop (s.length - rest.length) = rest ++ [0] := by
  obtain ⟨ds, hs, hds, -⟩ := scanNumber_eq_some.mp h
  have hlen : s.length - rest.length = ds.length := by
    rw [CStr.length, hs, List.length_append, Nat.add_sub_cancel]
  rw [hlen]
  refine ⟨fun hnil => ?_, drop_mem s hs⟩
  rw [List.length_eq_zero_iff.mp hnil] at hds
  cases hds

/-- **A turn** where the token ends with the number. -/
theorem partsLoop_last (n : Nat) {s : CStr} {m : Int} (h : scanNumber s.bytes = some (m, [])) :
    partsLoop (n + 1) s.mem = .ok (decide (n = 0)) := by
  rw [partsLoop, strtoul_mem, h, Run.ok_bind]
  dsimp only
  rw [(strtoul_stops h).2, List.nil_append, deref_cons, Run.ok_bind, if_neg (not_not.mpr rfl)]
  cases n with
  | zero => rfl
  | succ n => rfl

/-- **A turn** where a character stands behind the number. -/
theorem partsLoop_next (n : Nat) {s r : CStr} {m : Int} {c : Byte}
    (h : scanNumber s.bytes = some (m, c :: r.bytes)) :
    partsLoop (n + 1) s.mem =
      if (ulong m).toInt32 < 256 then partsLoop n r.mem else .ok false := by
  obtain ⟨hne, hdrop⟩ := strtoul_stops h
  have hc : c ≠ 0 := by
    obtain ⟨ds, hs, -, -⟩ := scanNumber_eq_some.mp h
    exact CStr.ne_zero (s := s) (by simp [hs])
  rw [partsLoop, strtoul_mem, h, Run.ok_bind]
  dsimp only
  rw [← List.drop_drop, hdrop, List.cons_append, deref_cons, Run.ok_bind, if_pos hc]
  by_cases hsmall : (ulong m).toInt32 < 256
  · rw [if_pos hsmall, if_neg (Int32.not_le.mpr hsmall), if_neg fun hzero => hne hzero.2]
    rfl
  · rw [if_neg hsmall, if_pos (Int32.not_lt.mp hsmall)]
    rfl

/-- What begins with no number is four numbers only where it is to be the end. -/
theorem numbers_none {n : Nat} {s : List Byte} (h : scanNumber s = none) :
    Numbers n s ↔ s = [] ∧ n = 0 := by
  have hthen : ∀ r, ¬SmallThen s r := fun r hr => by
    obtain ⟨m, c, hm, -⟩ := smallThen_iff.mp hr
    rw [h] at hm
    cases hm
  have hnumber : ¬NumberText s := fun ⟨m, hm⟩ => by
    rw [h] at hm
    cases hm
  cases n with
  | zero => simp [Numbers, hthen, hnumber]
  | succ n => simp [Numbers, hthen]

/-- A number that is all of the text is the last one. -/
theorem numbers_last {n : Nat} {s : List Byte} {m : Int} (h : scanNumber s = some (m, [])) :
    Numbers n s ↔ n = 0 := by
  have hthen : ∀ r, ¬SmallThen s r := fun r hr => by
    obtain ⟨m', c, hm, -⟩ := smallThen_iff.mp hr
    rw [h] at hm
    cases hm
  cases n with
  | zero => exact iff_of_true (.inr (.inl ⟨m, h⟩)) rfl
  | succ n => simp [Numbers, hthen]

/-- A number with a character behind it has to be small. -/
theorem numbers_next {n : Nat} {s r : List Byte} {m : Int} {c : Byte}
    (h : scanNumber s = some (m, c :: r)) :
    Numbers n s ↔ (ulong m).toInt32 < 256 ∧ ∀ k, n = k + 1 → Numbers k r := by
  have hthen : ∀ r', SmallThen s r' ↔ r' = r ∧ (ulong m).toInt32 < 256 := fun r' => by
    rw [smallThen_iff, h]
    constructor
    · rintro ⟨m', c', heq, hsmall⟩
      obtain ⟨rfl, hrest⟩ := Prod.mk.inj (Option.some.inj heq)
      exact ⟨(List.cons.inj hrest).2.symm, hsmall⟩
    · rintro ⟨rfl, hsmall⟩
      exact ⟨m, c, rfl, hsmall⟩
  cases n with
  | zero =>
      have hnumber : ¬NumberText s := fun ⟨m', hm⟩ => by
        rw [h] at hm
        cases hm
      have hne : s ≠ [] := fun hs => by
        rw [hs] at h
        cases h
      simp [Numbers, hthen, hnumber, hne]
  | succ n => simp [Numbers, hthen]

/-- A turn of the loop, and what is left. -/
theorem partsLoop_turn (n : Nat) (s : CStr)
    (hrest : ∀ r : CStr, ∃ found, partsLoop n r.mem = .ok found ∧
      (found = true ↔ ∀ k, n = k + 1 → Numbers k r.bytes)) :
    ∃ found, partsLoop (n + 1) s.mem = .ok found ∧ (found = true ↔ Numbers n s.bytes) := by
  cases h : scanNumber s.bytes with
  | none => exact ⟨_, partsLoop_none n h, by rw [decide_eq_true_iff, numbers_none h]⟩
  | some result =>
      obtain ⟨m, rest⟩ := result
      cases rest with
      | nil => exact ⟨_, partsLoop_last n h, by rw [decide_eq_true_iff, numbers_last h]⟩
      | cons c l =>
          have hnul : (0 : Byte) ∉ l := by
            obtain ⟨ds, hs, -, -⟩ := scanNumber_eq_some.mp h
            exact fun hmem => s.noNul (by simp [hs, hmem])
          rw [partsLoop_next n (r := ⟨l, hnul⟩) h, numbers_next h]
          by_cases hsmall : (ulong m).toInt32 < 256
          · obtain ⟨found, hloop, hfound⟩ := hrest ⟨l, hnul⟩
            rw [if_pos hsmall]
            exact ⟨found, hloop, by rw [hfound, and_iff_right hsmall]⟩
          · rw [if_neg hsmall]
            exact ⟨false, rfl, iff_of_false Bool.false_ne_true fun hno => hsmall hno.1⟩

/-- **The loop** finds small numbers, and reads nothing behind the token. -/
theorem partsLoop_eq (n : Nat) (s : CStr) :
    ∃ found, partsLoop (n + 1) s.mem = .ok found ∧ (found = true ↔ Numbers n s.bytes) := by
  induction n generalizing s with
  | zero => exact partsLoop_turn 0 s fun r => ⟨true, rfl, iff_of_true rfl fun k hk => by cases hk⟩
  | succ n ih =>
      refine partsLoop_turn (n + 1) s fun r => ?_
      obtain ⟨found, hloop, hfound⟩ := ih r
      refine ⟨found, hloop, hfound.trans ⟨fun h k hk => ?_, fun h => h n rfl⟩⟩
      obtain rfl := Nat.succ.inj hk
      exact h

/-! ### Dotted quads -/

/-- A number up to 255 is small. -/
theorem smallThen_octet {ds r : List Byte} {b c : Byte} (h : OctetText ds b)
    (hc : isDigit c = false) : SmallThen (ds ++ c :: r) r := by
  have hsmall : ∀ b : Byte, (ulong (b.toNat : Int)).toInt32 < 256 := forall_byte (by decide)
  have hscan := scanNumber_decimal h.1 h.2.1 (t := []) rfl
  rw [List.append_nil, h.2.2] at hscan
  exact ⟨ds, c, rfl, hc, b.toNat, hscan, hsmall b⟩

/-- **A dotted quad** is four numbers. -/
theorem fourNumbers_quad {t : CStr} {m : InAddr} (h : DottedQuad t m) : FourNumbers t := by
  obtain ⟨a, b, c, d, ha, hb, hc, hd, ht⟩ := h
  have hdot : isDigit 0x2e = false := rfl
  have hscan := scanNumber_decimal hd.1 hd.2.1 (t := []) rfl
  rw [List.append_nil] at hscan
  rw [FourNumbers, ht]
  exact ⟨_, smallThen_octet ha hdot, _, smallThen_octet hb hdot, _, smallThen_octet hc hdot,
    .inr (.inl ⟨_, hscan⟩)⟩

/-- A small number that is up to 255, with a character behind it and anything behind that. -/
theorem fourNumbers_followed {t q : CStr} {m : InAddr} (h : DottedQuad q m) {c : Byte}
    (hc : isDigit c = false) {r : List Byte} (ht : t.bytes = q.bytes ++ c :: r) :
    FourNumbers t := by
  obtain ⟨a, b, b', d, ha, hb, hb', hd, hq⟩ := h
  have hdot : isDigit 0x2e = false := rfl
  rw [FourNumbers, ht, hq]
  simp only [List.append_assoc, List.cons_append]
  exact ⟨_, smallThen_octet ha hdot, _, smallThen_octet hb hdot, _, smallThen_octet hb' hdot,
    .inr (.inr ⟨r, smallThen_octet hd hc⟩)⟩

/-- The numbers of a dotted quad that begin with a zero are below eight. -/
def ShortZeros (t : CStr) : Prop :=
  ∀ ds ∈ t.bytes.splitOn 0x2e, ds.head? = some 0x30 → decimal ds < 8

/-- In the notation of C a dotted quad is read as it is where its numbers are. -/
theorem notation_quad {t : CStr} {m : InAddr} (h : DottedQuad t m) :
    Notation.inetAton t = some m ↔ ShortZeros t := by
  obtain ⟨a, b, c, d, ha, hb, hc, hd, ht⟩ := h
  obtain ⟨ha, hla, hma⟩ := octetText_iff.mp ha
  obtain ⟨hb, hlb, hmb⟩ := octetText_iff.mp hb
  obtain ⟨hc, hlc, hmc⟩ := octetText_iff.mp hc
  obtain ⟨hd, hld, hmd⟩ := octetText_iff.mp hd
  rw [ShortZeros, ← Notation.inetAton_quad_iff ht ⟨ha, hb, hc, hd⟩ ⟨hla, hlb, hlc, hld⟩, hma, hmb,
    hmc, hmd]

theorem noSpace_quad {t : CStr} {m : InAddr} (h : DottedQuad t m) :
    ∀ b ∈ t.bytes, isSpace b = false := by
  obtain ⟨a, b, c, d, ha, hb, hc, hd, ht⟩ := h
  have hquad := Notation.takeWhile_quad ⟨(octetText_iff.mp ha).1, (octetText_iff.mp hb).1,
    (octetText_iff.mp hc).1, (octetText_iff.mp hd).1⟩
  intro x hx
  rw [ht] at hx
  simpa using List.takeWhile_eq_self_iff.mp hquad x hx

/-- A dotted quad other than `255.255.255.255`, with white space behind it and anything behind
that. -/
def Followed (t : CStr) : Prop :=
  ∃ q m c r, DottedQuad q m ∧ m ≠ .none ∧ isSpace c = true ∧ t.bytes = q.bytes ++ c :: r

/-! ### What is read -/

/-- The handler stores the address of the token, just if the token is a dotted quad; it reads
nothing behind the token. -/
def ReadsExactly (aton : CStr → Option InAddr) (t : CStr) : Prop :=
  ∀ buf pCli, Next buf pCli t → ∃ stored : Option InAddr,
    (sccliTokenGetNetAddrHandler aton buf pCli).1 = .ok stored ∧
    ∀ m, stored = some m ↔ DottedQuad t m

/-- The token is an address of another kind than a dotted quad. -/
def OtherAddress (aton : CStr → Option InAddr) (t : CStr) : Prop :=
  FourNumbers t ∧ (∃ m, m ≠ .none ∧ aton t = some m) ∧ ∀ m, ¬DottedQuad t m

section Handler

variable {aton : CStr → Option InAddr} {t : CStr}

/-- `inet_addr` cannot tell `255.255.255.255` from a text it does not read. -/
theorem getD_none_eq {m : InAddr} (hm : m ≠ .none) : (aton t).getD .none = m ↔ aton t = some m := by
  cases aton t with
  | none => exact iff_of_false (Ne.symm hm) (by simp)
  | some m' => simp

/-- **The handler** stores the address of four numbers. -/
theorem handler_eq {buf : Block} {pCli : Cli} (h : Next buf pCli t) :
    ∃ stored : Option InAddr, (sccliTokenGetNetAddrHandler aton buf pCli).1 = .ok stored ∧
      ∀ m, stored = some m ↔ FourNumbers t ∧ m ≠ .none ∧ aton t = some m := by
  have hnext : Next buf { pCli with tokenLvl := pCli.tokenLvl + 1 } t := h
  obtain ⟨pCli', hpop⟩ := hnext.pop
  obtain ⟨found, hloop, hfound⟩ := partsLoop_eq 3 t
  rw [sccliTokenGetNetAddrHandler, hpop]
  dsimp only
  rw [hloop, Run.ok_bind]
  refine ⟨_, rfl, fun m => ?_⟩
  rw [Option.ite_none_right_eq_some, Option.some_inj, hfound]
  constructor
  · rintro ⟨⟨hnumbers, hne⟩, hm⟩
    rw [hm] at hne
    exact ⟨hnumbers, hne, (getD_none_eq hne).mp hm⟩
  · rintro ⟨hnumbers, hne, haton⟩
    have hm := (getD_none_eq hne).mpr haton
    exact ⟨⟨hnumbers, hm ▸ hne⟩, hm⟩

/-- **Addresses are read exactly** just where the token is a dotted quad that `inet_addr` reads as
it is, or no address at all. -/
theorem readsExactly_aton : ReadsExactly aton t ↔
    (∀ m, DottedQuad t m → m ≠ .none ∧ aton t = some m) ∧ ¬OtherAddress aton t := by
  constructor
  · intro h
    have hnext := (next_sole t).1
    obtain ⟨stored, hrun, hexact⟩ := h _ _ hnext
    obtain ⟨stored', hrun', hstored⟩ := handler_eq hnext
    obtain rfl := Except.ok.inj (hrun.symm.trans hrun')
    constructor
    · intro m hquad
      exact ((hstored m).mp ((hexact m).mpr hquad)).2
    · rintro ⟨hnumbers, ⟨m, hne, haton⟩, hno⟩
      exact hno m ((hexact m).mp ((hstored m).mpr ⟨hnumbers, hne, haton⟩))
  · rintro ⟨hquads, hother⟩ buf pCli hnext
    obtain ⟨stored, hrun, hstored⟩ := handler_eq hnext
    refine ⟨stored, hrun, fun m => (hstored m).trans ?_⟩
    constructor
    · rintro ⟨hnumbers, hne, haton⟩
      by_contra hno
      refine hother ⟨hnumbers, ⟨m, hne, haton⟩, fun m' hquad => ?_⟩
      have hread := (hquads m' hquad).2
      exact hno (Option.some.inj (hread.symm.trans haton) ▸ hquad)
    · intro hquad
      obtain ⟨hne, haton⟩ := hquads m hquad
      exact ⟨fourNumbers_quad hquad, hne, haton⟩

/-- The other texts that are read in decimal are the quads with white space behind them. -/
theorem otherAddress_iff : OtherAddress inetAton t ↔ Followed t := by
  constructor
  · rintro ⟨-, ⟨m, hne, haton⟩, hno⟩
    obtain ⟨a, b, c, d, w, ht, ⟨ha, hb, hc, hd⟩, ⟨hla, hlb, hlc, hld⟩, hw, rfl⟩ :=
      inetAton_eq_some haton
    have hnul : (0 : Byte) ∉ quadText a b c d := fun h0 => t.noNul (by rw [ht]; simp [h0])
    have hquad : DottedQuad ⟨quadText a b c d, hnul⟩
        ⟨.ofNat (decimal a), .ofNat (decimal b), .ofNat (decimal c), .ofNat (decimal d)⟩ :=
      ⟨a, b, c, d, octetText_iff.mpr ⟨ha, hla, rfl⟩, octetText_iff.mpr ⟨hb, hlb, rfl⟩,
        octetText_iff.mpr ⟨hc, hlc, rfl⟩, octetText_iff.mpr ⟨hd, hld, rfl⟩, rfl⟩
    cases w with
    | nil =>
        rw [List.append_nil] at ht
        have hself : t = ⟨quadText a b c d, hnul⟩ := CStr.ext_iff.mpr ht
        rw [hself] at hno
        exact absurd hquad (hno _)
    | cons c' r => exact ⟨_, _, c', r, hquad, hne, by simpa using hw, ht⟩
  · rintro ⟨q, m, c, r, hquad, hne, hspace, ht⟩
    have hdigit : ∀ b : Byte, isSpace b = true → isDigit b = false := forall_byte (by decide)
    refine ⟨fourNumbers_followed hquad (hdigit c hspace) ht, ⟨m, hne, ?_⟩, fun m' hquad' => ?_⟩
    · obtain ⟨a, b, b', d, ha, hb, hb', hd, hq⟩ := hquad
      obtain ⟨ha, hla, hma⟩ := octetText_iff.mp ha
      obtain ⟨hb, hlb, hmb⟩ := octetText_iff.mp hb
      obtain ⟨hb', hlb', hmb'⟩ := octetText_iff.mp hb'
      obtain ⟨hd, hld, hmd⟩ := octetText_iff.mp hd
      rw [inetAton_quad_append (w := c :: r) (ht.trans (congrArg (· ++ c :: r) hq))
        ⟨ha, hb, hb', hd⟩
        ⟨hla, hlb, hlb', hld⟩ (by simpa using hspace), hma, hmb, hmb', hmd]
    · have hnone := noSpace_quad hquad' c (by simp [ht])
      rw [hspace] at hnone
      cases hnone

end Handler

/-- **Addresses are read exactly** with the `inet_addr` of the toolchain, unless the token is
`255.255.255.255` or goes on behind a blank; in the notation of C numbers with a leading zero are to
be short, too, and there are more addresses. -/
theorem readsExactly_iff (t : CStr) :
    (ReadsExactly inetAton t ↔ (∀ m, DottedQuad t m → m ≠ .none) ∧ ¬Followed t) ∧
      (ReadsExactly Notation.inetAton t ↔
        (∀ m, DottedQuad t m → m ≠ .none ∧ ShortZeros t) ∧ ¬OtherAddress Notation.inetAton t) := by
  constructor
  · rw [readsExactly_aton, otherAddress_iff]
    refine and_congr_left fun _ => forall₂_congr fun m hquad => ?_
    exact and_iff_left (inetAton_dottedQuad hquad)
  · rw [readsExactly_aton]
    refine and_congr_left fun _ => forall₂_congr fun m hquad => ?_
    exact and_congr_right fun _ => notation_quad hquad

/-- **The last address** is refused, and what stands behind a blank is let through, with the one
`inet_addr` as with the other. -/
theorem broadcast_not_readsExactly :
    (¬ReadsExactly inetAton (.text "255.255.255.255") ∧
        ¬ReadsExactly inetAton (.text "1.2.3.4 x")) ∧
      ¬ReadsExactly Notation.inetAton (.text "255.255.255.255") ∧
        ¬ReadsExactly Notation.inetAton (.text "1.2.3.4 x") := by
  have hquad : DottedQuad (.text "255.255.255.255") .none := by
    refine ⟨(CStr.text "255").bytes, (CStr.text "255").bytes, (CStr.text "255").bytes,
      (CStr.text "255").bytes, ?_, ?_, ?_, ?_, by decide⟩ <;>
    exact ⟨by decide, List.all_eq_true.mp (by decide), by decide⟩
  have hfront : DottedQuad (.text "1.2.3.4") ⟨1, 2, 3, 4⟩ := by
    refine ⟨(CStr.text "1").bytes, (CStr.text "2").bytes, (CStr.text "3").bytes,
      (CStr.text "4").bytes, ?_, ?_, ?_, ?_, by decide⟩ <;>
    exact ⟨by decide, List.all_eq_true.mp (by decide), by decide⟩
  have hblank (m : InAddr) : ¬DottedQuad (.text "1.2.3.4 x") m := fun h =>
    absurd (noSpace_quad h 0x20 (by decide)) (by decide)
  have hnumbers : FourNumbers (.text "1.2.3.4 x") :=
    fourNumbers_followed hfront (c := 0x20) (r := [0x78]) rfl (by decide)
  -- the reason is the same whatever is read behind the blank
  have hboth {aton : CStr → Option InAddr} (haton : aton (.text "1.2.3.4 x") = some ⟨1, 2, 3, 4⟩) :
      ¬ReadsExactly aton (.text "255.255.255.255") ∧ ¬ReadsExactly aton (.text "1.2.3.4 x") := by
    rw [readsExactly_aton, readsExactly_aton]
    exact ⟨fun h => (h.1 _ hquad).1 rfl,
      fun h => h.2 ⟨hnumbers, ⟨_, by decide, haton⟩, hblank⟩⟩
  exact ⟨hboth (by decide), hboth (by decide)⟩

end LinksysCli
