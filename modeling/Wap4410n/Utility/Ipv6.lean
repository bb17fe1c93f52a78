import Wap4410n.Support.Inet
import Wap4410n.Support.Ipv6

/-!
# Utility — IPv6 addresses

`scValidIPv6` goes through a text once, with a counter each for the dots, the separators, the `::`,
the digits of the piece it is in and those of them that are decimal.  With its flag set it reads up
to a `/` and takes what follows for the prefix length, as `atoi` does.

* `scValidIPv6_accepts`: the texts that are accepted.
* `scValidIPv6_decides`: the texts on which that is what they should be.
-/

namespace Wap4410n.Utility

open CLib Ipv6

/-! ### `scValidIPv6` -/

/-- What the functions read and write. -/
inductive Ipv6Array where
  | ipStr
  | buff
  | token
deriving DecidableEq, Repr

/-- `scValidHex`; the empty name is found, too -/
def scValidHex (ch : Byte) : Bool := ch = 0 || (ascii "0123456789ABCDEFabcdef".toList).contains ch

/-- `flagdotNo`, `flagcolNo`, `flagcolCo`, `flaghex`, `flagdec`, `flagslash` and `start_p` -/
structure Ipv6Scan where
  dotNo : Nat
  colNo : Nat
  colCo : Nat
  hex : Nat
  dec : Nat
  slash : Nat
  start : List Byte

/-- What happens at a character: `return 0;`, `break;`, or the next turn, behind one character or
behind two. -/
inductive Ipv6Next where
  | ret
  | brk (c : Ipv6Scan)
  | next (c : Ipv6Scan)
  | skip (c : Ipv6Scan)

/-- The end of `else if( *p == ':')`, with `*(p-1)` and what stands behind `p`. -/
def ipv6Colon (prev : Option Byte) (c : Ipv6Scan) (after : List Byte)
    (next : Ipv6Scan → Ipv6Next) : Run Ipv6Array Ipv6Next :=
  match prev with
  | none => .error (.outside .ipStr)
  | some q =>
    if q ≠ 0x3a ∧ after.head? = some 0x2e then .ok .ret
    else if c.dotNo = 0 ∧ c.colNo < 7 then
      .ok (next { c with colNo := c.colNo + 1, hex := 0, dec := 0, start := after })
    else .ok .ret

/-- The body of the loop at the character `b`, with `*(p-1)` and what stands behind it. -/
def ipv6Step (flag : Bool) (prev : Option Byte) (c : Ipv6Scan) (b : Byte) (after : List Byte) :
    Run Ipv6Array Ipv6Next :=
  if b = 0x2f then
    if flag then
      if 0x2f ∈ after then .ok .ret
      else if atoi (.before after) < 0 ∨ 128 < atoi (.before after) then .ok .ret
      else .ok (.brk { c with slash := c.slash + 1 })
    else .ok .ret
  else if b = 0x3a then
    if [0x3a, 0x3a] <+: after then .ok .ret
    else if [0x3a] <+: after then
      if 1 ≤ c.colCo then .ok .ret
      else ipv6Colon (some b)
        { c with colCo := c.colCo + 1, hex := 0, dec := 0, start := after.tail } after.tail .skip
    else if prev = none then .ok .ret
    else if (if flag then after.head? = some 0x2f else after = []) then .ok .ret
    else ipv6Colon prev c after .next
  else if scValidHex b then
    let c := { c with hex := c.hex + 1, dec := if isDigit b then c.dec + 1 else 0 }
    if 4 < c.hex then .ok .ret else .ok (.next c)
  else if b = 0x2e then
    if 1 ≤ c.hex ∧ c.hex ≤ 3 ∧ c.dec = c.hex then
      if after.head?.any isDigit then
        let dotNo := c.dotNo + 1
        if dotNo = 1 ∧ inetAddr (.before c.start) = .none then .ok .ret
        else if 3 < dotNo then .ok .ret
        else .ok (.next { c with dotNo := dotNo, hex := 0, dec := 0 })
      else .ok .ret
    else .ok .ret
  else .ok .ret

/-- `for(i=0; i<size; p++,i++)`: the counters behind the loop, if nothing was returned in it. -/
def ipv6Loop (flag : Bool) : Option Byte → Ipv6Scan → List Byte →
    Run Ipv6Array (Option Ipv6Scan)
  | _, c, [] => .ok (some c)
  | prev, c, b :: after => do
    match ← ipv6Step flag prev c b after with
    | .ret => return none
    | .brk c => return some c
    | .next c => ipv6Loop flag (some b) c after
    | .skip c =>
      match after with
      | [] => return some c
      | d :: after => ipv6Loop flag (some d) c after

/-- The condition behind the loop. -/
def ipv6Final (flag : Bool) (c : Ipv6Scan) : Bool :=
  !(c.colNo = 1 && 7 < c.colCo || c.colCo = 0 && c.colNo ≠ 7 || c.dotNo ≠ 0 && c.dotNo ≠ 3 ||
    (if flag then c.slash ≠ 1 else false))

/-- `scValidIPv6` -/
def scValidIPv6 (ipStr : CStr) (flag : Bool) : Run Ipv6Array Bool :=
  if (if flag then 46 else 40) < ipStr.length then .ok false
  else do
    match ← ipv6Loop flag none ⟨0, 0, 0, 0, 0, 0, ipStr.bytes⟩ ipStr.bytes with
    | none => return false
    | some c => return ipv6Final flag c

example : scValidIPv6 (.text "fe80::1:2") false = .ok true := by decide +kernel

example : scValidIPv6 (.text "fe80::1:2/64") true = .ok true := by decide +kernel

example : scValidIPv6 (.text "1:2:3:4:5:6:7:10.0.0.1") false = .ok true := by decide +kernel

/-! ### One character -/

section Steps

variable {flag : Bool} {prev : Option Byte} {c : Ipv6Scan} {b : Byte} {u : List Byte}

theorem ipv6Colon_ok (q : Byte) (next : Ipv6Scan → Ipv6Next) :
    ∃ n, ipv6Colon (some q) c u next = .ok n := by
  unfold ipv6Colon
  dsimp only
  split
  · exact ⟨_, rfl⟩
  · split <;> exact ⟨_, rfl⟩

/-- **Nothing is read before the text.** -/
theorem ipv6Step_ok : ∃ n, ipv6Step flag prev c b u = .ok n := by
  unfold ipv6Step
  split
  · split
    · split
      · exact ⟨_, rfl⟩
      · split <;> exact ⟨_, rfl⟩
    · exact ⟨_, rfl⟩
  split
  · split
    · exact ⟨_, rfl⟩
    split
    · split
      · exact ⟨_, rfl⟩
      · exact ipv6Colon_ok _ _
    cases prev with
    | none => exact ⟨_, rfl⟩
    | some q =>
        rw [if_neg (Option.some_ne_none q)]
        by_cases hend : if flag = true then u.head? = some 0x2f else u = []
        · exact ⟨.ret, if_pos hend⟩
        · rw [if_neg hend]
          exact ipv6Colon_ok _ _
  split
  · dsimp only
    split <;> exact ⟨_, rfl⟩
  split
  · split
    · split
      · dsimp only
        split
        · exact ⟨_, rfl⟩
        · split <;> exact ⟨_, rfl⟩
      · exact ⟨_, rfl⟩
    · exact ⟨_, rfl⟩
  · exact ⟨_, rfl⟩

theorem ipv6Loop_ok : ∀ {u : List Byte} {prev : Option Byte} {c : Ipv6Scan},
    ∃ r, ipv6Loop flag prev c u = .ok r
  | [], _, c => ⟨some c, rfl⟩
  | b :: u, prev, c => by
      obtain ⟨n, hn⟩ : ∃ n, ipv6Step flag prev c b u = .ok n := ipv6Step_ok
      rw [ipv6Loop, hn, Run.ok_bind]
      cases n with
      | ret => exact ⟨_, rfl⟩
      | brk c => exact ⟨_, rfl⟩
      | next c => exact ipv6Loop_ok
      | skip c =>
          cases u with
          | nil => exact ⟨_, rfl⟩
          | cons d u => exact ipv6Loop_ok

/-- The loop and the condition behind it let the rest of the text through. -/
def ipv6Accepts (flag : Bool) (prev : Option Byte) (c : Ipv6Scan) (u : List Byte) : Bool :=
  match ipv6Loop flag prev c u with
  | .ok (some c) => ipv6Final flag c
  | _ => false

theorem ipv6Accepts_nil : ipv6Accepts flag prev c [] = ipv6Final flag c := rfl

/-- A slash, where the flag is set, and the prefix length behind it. -/
def TakesPrefix (t : List Byte) : Prop :=
  (0x2f : Byte) ∉ t ∧ 0 ≤ atoi (.before t) ∧ atoi (.before t) ≤ 128

theorem ipv6Accepts_slash (hs : c.slash = 0) :
    ipv6Accepts flag prev c (0x2f :: u) = true ↔
      flag = true ∧ TakesPrefix u ∧ ipv6Final flag { c with slash := 1 } = true := by
  unfold ipv6Accepts TakesPrefix
  rw [ipv6Loop, ipv6Step, if_pos rfl]
  cases flag with
  | false => simp
  | true =>
      by_cases hmem : (0x2f : Byte) ∈ u
      · simp [hmem]
      · by_cases hrange : atoi (.before u) < 0 ∨ 128 < atoi (.before u)
        · have hnot : ¬(0 ≤ atoi (.before u) ∧ atoi (.before u) ≤ 128) := by omega
          simp only [if_true, if_neg hmem, if_pos hrange, Run.ok_bind, Run.pure_eq]
          simp [hmem, hnot]
        · have hyes : 0 ≤ atoi (.before u) ∧ atoi (.before u) ≤ 128 := by omega
          simp only [if_true, if_neg hmem, if_neg hrange, Run.ok_bind, Run.pure_eq, hs]
          simp [hmem, hyes]

/-- A hexadecimal digit. -/
theorem ipv6Accepts_hex (hb : Ipv6.isHexDigit b = true) :
    ipv6Accepts flag prev c (b :: u) = true ↔ c.hex < 4 ∧
      ipv6Accepts flag (some b)
        { c with hex := c.hex + 1, dec := if isDigit b then c.dec + 1 else 0 } u = true := by
  have hall : ∀ b, Ipv6.isHexDigit b = true → b ≠ 0x2f ∧ b ≠ 0x3a ∧ scValidHex b = true :=
    forall_byte (by decide)
  obtain ⟨hslash, hcolon, hhex⟩ := hall b hb
  unfold ipv6Accepts
  rw [ipv6Loop, ipv6Step, if_neg hslash, if_neg hcolon, if_pos hhex]
  dsimp only
  by_cases hroom : c.hex < 4
  · rw [if_neg (by omega)]
    simp [hroom]
  · rw [if_pos (by omega)]
    simp [hroom]

/-- Any other character. -/
theorem ipv6Accepts_other (hb : Ipv6.isHexDigit b = false) (hslash : b ≠ 0x2f) (hcolon : b ≠ 0x3a)
    (hdot : b ≠ 0x2e) (hnul : b ≠ 0) : ipv6Accepts flag prev c (b :: u) = false := by
  have hall : ∀ b, Ipv6.isHexDigit b = false → b ≠ 0 → scValidHex b = false :=
    forall_byte (by decide)
  unfold ipv6Accepts
  rw [ipv6Loop, ipv6Step, if_neg hslash, if_neg hcolon, hall b hb hnul, if_neg Bool.false_ne_true,
    if_neg hdot]
  rfl

/-- A dot. -/
theorem ipv6Accepts_dot :
    ipv6Accepts flag prev c (0x2e :: u) = true ↔
      (1 ≤ c.hex ∧ c.hex ≤ 3 ∧ c.dec = c.hex) ∧ u.head?.any isDigit = true ∧
      ¬(c.dotNo = 0 ∧ inetAddr (.before c.start) = .none) ∧ c.dotNo < 3 ∧
      ipv6Accepts flag (some 0x2e) { c with dotNo := c.dotNo + 1, hex := 0, dec := 0 }
      u = true := by
  unfold ipv6Accepts
  rw [ipv6Loop, ipv6Step, if_neg (by decide), if_neg (by decide), if_neg (by decide), if_pos rfl]
  by_cases hcount : 1 ≤ c.hex ∧ c.hex ≤ 3 ∧ c.dec = c.hex
  · rw [if_pos hcount]
    by_cases hdigit : u.head?.any isDigit = true
    · rw [if_pos hdigit]
      dsimp only
      have hone : c.dotNo + 1 = 1 ↔ c.dotNo = 0 := by omega
      by_cases hinet : c.dotNo = 0 ∧ inetAddr (.before c.start) = .none
      · rw [if_pos (by rwa [hone])]
        simp [hinet]
      · rw [if_neg (by rwa [hone])]
        by_cases hdots : c.dotNo < 3
        · rw [if_neg (by omega)]
          simp only [hcount, hdigit, hinet, hdots, Run.ok_bind, not_false_eq_true, true_and,
            and_self]
        · rw [if_pos (by omega)]
          simp [hdots]
    · rw [if_neg hdigit]
      simp [hdigit]
  · rw [if_neg hcount]
    simp only [hcount, Run.ok_bind, false_and]
    simp

/-- The counters behind a separator. -/
def Ipv6Scan.behind (c : Ipv6Scan) (gap : Bool) (u : List Byte) : Ipv6Scan :=
  { c with
    colNo := c.colNo + 1, colCo := c.colCo + gap.toNat, hex := 0, dec := 0, start := u }

/-- A colon and no other behind it. -/
theorem ipv6Accepts_colon (hu : u.head? ≠ some 0x3a) :
    ipv6Accepts flag prev c (0x3a :: u) = true ↔
      prev ≠ none ∧ ¬(if flag then u.head? = some 0x2f else u = []) ∧
      (u.head? = some 0x2e → prev = some 0x3a) ∧ c.dotNo = 0 ∧ c.colNo < 7 ∧
      ipv6Accepts flag (some 0x3a) (c.behind false u) u = true := by
  have hnot : ∀ {t : List Byte}, ¬0x3a :: t <+: u := by
    rintro t ⟨v, rfl⟩
    exact hu rfl
  unfold ipv6Accepts
  rw [ipv6Loop, ipv6Step, if_neg (by decide), if_pos rfl, if_neg hnot, if_neg hnot]
  cases prev with
  | none => simp
  | some q =>
      rw [if_neg (Option.some_ne_none q)]
      by_cases hend : if flag = true then u.head? = some 0x2f else u = []
      · rw [if_pos hend]
        simp [hend]
      · rw [if_neg hend, ipv6Colon]
        by_cases hdot : q ≠ 0x3a ∧ u.head? = some 0x2e
        · rw [if_pos hdot]
          simp [hdot]
        · have hdot' : u.head? = some 0x2e → q = 0x3a := fun h => by_contra fun hq => hdot ⟨hq, h⟩
          rw [if_neg hdot]
          by_cases hcount : c.dotNo = 0 ∧ c.colNo < 7
          · rw [if_pos hcount]
            simp only [hend, hcount, Ipv6Scan.behind, Run.ok_bind, Bool.toNat_false, Nat.add_zero]
            simp only [ne_eq, reduceCtorEq, not_false_eq_true, Option.some.injEq, true_and]
            exact ⟨fun h => ⟨hdot', h⟩, fun h => h.2⟩
          · rw [if_neg hcount]
            simp only [Run.ok_bind, Run.pure_eq]
            constructor
            · exact fun h => nomatch h
            · rintro ⟨-, -, -, hd, hn, -⟩
              exact absurd ⟨hd, hn⟩ hcount

/-- Two colons and no other behind them. -/
theorem ipv6Accepts_colons (hu : u.head? ≠ some 0x3a) :
    ipv6Accepts flag prev c (0x3a :: 0x3a :: u) = true ↔
      c.colCo = 0 ∧ c.dotNo = 0 ∧ c.colNo < 7 ∧
      ipv6Accepts flag (some 0x3a) (c.behind true u) u = true := by
  have hnot : ¬[0x3a, 0x3a] <+: 0x3a :: u := by
    rintro ⟨v, hv⟩
    rw [List.cons_append, List.cons_append, List.cons.injEq] at hv
    exact hu (by rw [← hv.2]; rfl)
  unfold ipv6Accepts
  rw [ipv6Loop, ipv6Step, if_neg (by decide), if_pos rfl, if_neg hnot, if_pos ⟨u, rfl⟩]
  by_cases hone : 1 ≤ c.colCo
  · rw [if_pos hone]
    have : c.colCo ≠ 0 := by omega
    simp [this]
  · rw [if_neg hone, ipv6Colon, if_neg fun h => h.1 rfl]
    have hzero : c.colCo = 0 := by omega
    by_cases hcount : c.dotNo = 0 ∧ c.colNo < 7
    · rw [if_pos hcount]
      simp only [hzero, hcount, Ipv6Scan.behind, Run.ok_bind, Bool.toNat_true, true_and,
        List.tail_cons]
    · rw [if_neg hcount]
      simp only [Run.ok_bind, Run.pure_eq]
      constructor
      · exact fun h => nomatch h
      · rintro ⟨-, hd, hn, -⟩
        exact absurd ⟨hd, hn⟩ hcount

/-- Three colons. -/
theorem ipv6Accepts_three : ipv6Accepts flag prev c (0x3a :: 0x3a :: 0x3a :: u) = false := by
  unfold ipv6Accepts
  rw [ipv6Loop, ipv6Step, if_neg (by decide), if_pos rfl, if_pos ⟨u, rfl⟩]
  rfl

end Steps

/-! ### One piece -/

/-- The length of the run of decimal digits at the end, behind a run of `n`. -/
def decRun (n : Nat) : List Byte → Nat
  | [] => n
  | b :: ds => decRun (if isDigit b then n + 1 else 0) ds

/-- `*(p-1)` behind a piece. -/
def lastOf (prev : Option Byte) : List Byte → Option Byte
  | [] => prev
  | b :: ds => lastOf (some b) ds

theorem decRun_le : ∀ (ds : List Byte) (n : Nat), decRun n ds ≤ n + ds.length
  | [], n => Nat.le_refl n
  | b :: ds, n => by
      have ih := decRun_le ds (if isDigit b then n + 1 else 0)
      rw [decRun, List.length_cons]
      split at ih
      · rename_i hb
        rw [if_pos hb]
        omega
      · rename_i hb
        rw [if_neg hb]
        omega

/-- All digits are decimal where the run is as long as the piece. -/
theorem decRun_eq_iff : ∀ {ds : List Byte} {n : Nat},
    decRun n ds = n + ds.length ↔ ∀ b ∈ ds, isDigit b = true
  | [], n => by simp [decRun]
  | b :: ds, n => by
      rw [decRun, List.forall_mem_cons, List.length_cons]
      by_cases hb : isDigit b = true
      · rw [if_pos hb, ← decRun_eq_iff (n := n + 1)]
        simp only [hb, true_and]
        omega
      · have hle := decRun_le ds 0
        rw [if_neg hb]
        simp only [hb, Bool.false_eq_true, false_and, iff_false]
        omega

/-- Behind a piece that is not empty it is a character of the piece. -/
theorem exists_lastOf : ∀ {ds : List Byte} (prev : Option Byte), ds ≠ [] →
    ∃ b ∈ ds, lastOf prev ds = some b
  | [], _, h => absurd rfl h
  | [b], _, _ => ⟨b, List.mem_singleton_self b, rfl⟩
  | b :: d :: ds, _, _ => by
      obtain ⟨x, hx, hlast⟩ := exists_lastOf (some b) (List.cons_ne_nil d ds)
      exact ⟨x, List.mem_cons_of_mem b hx, hlast⟩

section Pieces

variable {flag : Bool} {prev : Option Byte} {c : Ipv6Scan} {u : List Byte}

/-- The counters behind the digits of a piece. -/
def Ipv6Scan.digits (c : Ipv6Scan) (ds : List Byte) : Ipv6Scan :=
  { c with hex := c.hex + ds.length, dec := decRun c.dec ds }

/-- **Hexadecimal digits** are let through up to the fourth of a piece. -/
theorem ipv6Accepts_digits {ds : List Byte} (hds : ∀ b ∈ ds, isHexDigit b = true)
    (hc : c.hex ≤ 4) : ipv6Accepts flag prev c (ds ++ u) = true ↔
      c.hex + ds.length ≤ 4 ∧ ipv6Accepts flag (lastOf prev ds) (c.digits ds) u = true := by
  induction ds generalizing prev c with
  | nil => simp [lastOf, Ipv6Scan.digits, decRun, hc]
  | cons b ds ih =>
      have hb := hds b List.mem_cons_self
      rw [List.cons_append, ipv6Accepts_hex hb, List.length_cons]
      constructor
      · rintro ⟨hroom, h⟩
        obtain ⟨hlen, h⟩ := (ih (c := { c with
          hex := c.hex + 1, dec := if isDigit b then c.dec + 1 else 0 })
          (fun x hx => hds x (List.mem_cons_of_mem b hx)) hroom).mp h
        dsimp only at hlen
        refine ⟨by omega, ?_⟩
        rw [Ipv6Scan.digits] at h ⊢
        rw [List.length_cons, ← Nat.add_assoc, Nat.add_right_comm]
        exact h
      · rintro ⟨hlen, h⟩
        have hroom : c.hex < 4 := by omega
        refine ⟨hroom, (ih (c := { c with
          hex := c.hex + 1, dec := if isDigit b then c.dec + 1 else 0 })
          (fun x hx => hds x (List.mem_cons_of_mem b hx)) hroom).mpr ⟨?_, ?_⟩⟩
        · dsimp only
          omega
        · rw [Ipv6Scan.digits] at h ⊢
          rw [List.length_cons, ← Nat.add_assoc, Nat.add_right_comm] at h
          exact h

/-- The counters behind a number and its dot. -/
def Ipv6Scan.dotted (c : Ipv6Scan) : Ipv6Scan := { c with dotNo := c.dotNo + 1, hex := 0, dec := 0 }

/-- **A number with a dot behind it** is let through if it has three digits at most. -/
theorem ipv6Accepts_numeral {ds : List Byte} (hds : IsNumeral ds) (hhex : c.hex = 0)
    (hdec : c.dec = 0) : ipv6Accepts flag prev c (ds ++ 0x2e :: u) = true ↔
      ds.length ≤ 3 ∧ u.head?.any isDigit = true ∧
      ¬(c.dotNo = 0 ∧ inetAddr (.before c.start) = .none) ∧ c.dotNo < 3 ∧
      ipv6Accepts flag (some 0x2e) c.dotted u = true := by
  have hrun : (c.digits ds).dec = (c.digits ds).hex := by
    show decRun c.dec ds = c.hex + ds.length
    rw [hdec, hhex]
    exact decRun_eq_iff.mpr hds.2
  have hlen : (c.digits ds).hex = ds.length := by
    show c.hex + ds.length = ds.length
    omega
  have hpos : 1 ≤ ds.length := List.length_pos_iff.mpr hds.1
  rw [ipv6Accepts_digits (fun b hb => isHexDigit_of_isDigit (hds.2 b hb)) (by omega),
    ipv6Accepts_dot, hrun, hlen]
  constructor
  · rintro ⟨-, ⟨-, h3, -⟩, h⟩
    exact ⟨h3, h⟩
  · rintro ⟨h3, h⟩
    exact ⟨by omega, ⟨hpos, h3, rfl⟩, h⟩

/-- The text of a number starts with a digit. -/
theorem head_numeral {ds : List Byte} (h : IsNumeral ds) (t : List Byte) :
    (ds ++ t).head?.any isDigit = true := by
  obtain ⟨b, s, rfl⟩ := List.exists_cons_of_ne_nil h.1
  exact h.2 b List.mem_cons_self

/-- **Four numbers** are let through if `inet_addr` reads them and the first three have three
digits at most. -/
theorem ipv6Accepts_quad {a b d e : List Byte}
    (hn : IsNumeral a ∧ IsNumeral b ∧ IsNumeral d ∧ IsNumeral e) (hhex : c.hex = 0)
    (hdec : c.dec = 0) (hdot : c.dotNo = 0) :
    ipv6Accepts flag prev c (quadText a b d e ++ u) = true ↔
      inetAddr (.before c.start) ≠ .none ∧ (a.length ≤ 3 ∧ b.length ≤ 3 ∧ d.length ≤ 3) ∧
      e.length ≤ 4 ∧
      ipv6Accepts flag (lastOf (some 0x2e) e) (c.dotted.dotted.dotted.digits e) u = true := by
  have htext : quadText a b d e ++ u = a ++ 0x2e :: (b ++ 0x2e :: (d ++ 0x2e :: (e ++ u))) := by
    simp [quadText]
  rw [htext, ipv6Accepts_numeral hn.1 hhex hdec, ipv6Accepts_numeral hn.2.1 rfl rfl,
    ipv6Accepts_numeral hn.2.2.1 rfl rfl,
    ipv6Accepts_digits (fun x hx => isHexDigit_of_isDigit (hn.2.2.2.2 x hx)) (Nat.zero_le 4)]
  have hheads := And.intro (head_numeral hn.2.1 (0x2e :: (d ++ 0x2e :: (e ++ u))))
    (And.intro (head_numeral hn.2.2.1 (0x2e :: (e ++ u))) (head_numeral hn.2.2.2 u))
  have h1 : c.dotted.dotNo = 1 := by rw [Ipv6Scan.dotted, hdot]
  have h2 : c.dotted.dotted.dotNo = 2 := by rw [Ipv6Scan.dotted, h1]
  have h3 : c.dotted.dotted.dotted.hex = 0 := rfl
  simp only [hheads.1, hheads.2.1, hheads.2.2, h1, h2, h3, hdot, true_and, Nat.zero_add]
  simp
  tauto

end Pieces

/-! ### The pieces of what is accepted -/

section Tail

variable {flag : Bool} {prev : Option Byte} {c : Ipv6Scan} {u e : List Byte}

/-- What stands behind the address. -/
def Ends (flag : Bool) (e : List Byte) : Prop :=
  if flag then ∃ t, e = 0x2f :: t ∧ TakesPrefix t else e = []

/-- The separators, counted from those already met, and the end of the text. -/
structure Passes (flag : Bool) (c : Ipv6Scan) (p : List Byte) (rest : Rest) (e : List Byte) :
    Prop where
  separators : c.colNo + rest.length ≤ 7
  oneGap : c.colCo + gaps rest ≤ 1
  full : c.colCo + gaps rest = 0 → c.colNo + rest.length = 7
  quad : 0x2e ∈ last p rest → flag = false ∧ ¬IsOnes (last p rest)
  ends : Ends flag e

/-- The colons of a separator. -/
def separator (gap : Bool) : List Byte := if gap then [0x3a, 0x3a] else [0x3a]

theorem ipv6Final_eq_true :
    ipv6Final flag c = true ↔ ¬(c.colNo = 1 ∧ 7 < c.colCo) ∧ (c.colCo = 0 → c.colNo = 7) ∧
      (c.dotNo = 0 ∨ c.dotNo = 3) ∧ (flag = true → c.slash = 1) := by
  unfold ipv6Final
  cases flag <;> simp <;> omega

theorem bytes_before (h : 0 ∉ u) : (CStr.before u).bytes = u := by
  show u.takeWhile (· ≠ 0) = u
  exact List.takeWhile_eq_self_iff.mpr fun b hb => by
    have hne : b ≠ 0 := fun e => h (e ▸ hb)
    simpa using hne

/-- The end of the text, or the slash. -/
theorem ipv6Accepts_end (he : e = [] ∨ ∃ t, e = 0x2f :: t) (hs : c.slash = 0) (hc : c.colCo ≤ 1)
    (hd : c.dotNo = 0 ∨ c.dotNo = 3) :
    ipv6Accepts flag prev c e = true ↔ (c.colCo = 0 → c.colNo = 7) ∧ Ends flag e := by
  have hco : ¬(c.colNo = 1 ∧ 7 < c.colCo) := by omega
  rcases he with rfl | ⟨t, rfl⟩
  · rw [ipv6Accepts_nil, ipv6Final_eq_true, Ends]
    cases flag with
    | false => simp [hco, hd]
    | true => simp [hs]
  · rw [ipv6Accepts_slash hs, ipv6Final_eq_true, Ends]
    cases flag with
    | false => simp
    | true =>
        simp only [if_true, true_and, forall_const, and_true, List.cons.injEq, exists_eq_left']
        exact ⟨fun ⟨ht, _, hcount, _⟩ => ⟨hcount, ht⟩, fun ⟨hcount, ht⟩ => ⟨ht, hco, hcount, hd⟩⟩

/-- **A separator** is let through up to the seventh, and `::` once. -/
theorem ipv6Accepts_separator (gap : Bool) (hcolon : u.head? ≠ some 0x3a)
    (hdot : u.head? ≠ some 0x2e) (hdots : c.dotNo = 0) :
    ipv6Accepts flag prev c (separator gap ++ u) = true ↔
      (gap = false → prev ≠ none ∧ ¬(if flag then u.head? = some 0x2f else u = [])) ∧
      (gap = true → c.colCo = 0) ∧ c.colNo < 7 ∧
      ipv6Accepts flag (some 0x3a) (c.behind gap u) u = true := by
  cases gap with
  | false =>
      rw [separator, if_neg Bool.false_ne_true, List.singleton_append, ipv6Accepts_colon hcolon]
      simp only [hdots, hdot, false_imp_iff, true_and, forall_const, Bool.false_eq_true, and_assoc]
  | true =>
      rw [separator, if_pos rfl, List.cons_append, List.singleton_append, ipv6Accepts_colons hcolon]
      simp only [hdots, true_and, forall_const, Bool.true_eq_false, false_imp_iff]

/-- No dot stands at the front of a piece. -/
theorem ipv6Accepts_head_ne_dot (hhex : c.hex = 0) (h : ipv6Accepts flag prev c u = true) :
    u.head? ≠ some 0x2e := by
  intro hhead
  cases u with
  | nil => cases hhead
  | cons b u =>
      obtain rfl := Option.some.inj hhead
      have hcount := (ipv6Accepts_dot.mp h).1.1
      omega

/-- **A separator that is let through** has a colon or two, and no other behind it. -/
theorem exists_separator (hdots : c.dotNo = 0) (h : ipv6Accepts flag prev c (0x3a :: u) = true) :
    ∃ gap v, 0x3a :: u = separator gap ++ v ∧ v.head? ≠ some 0x3a ∧ v.head? ≠ some 0x2e ∧
      (gap = false → prev ≠ none ∧ ¬(if flag then v.head? = some 0x2f else v = [])) ∧
      (gap = true → c.colCo = 0) ∧ c.colNo < 7 ∧
      ipv6Accepts flag (some 0x3a) (c.behind gap v) v = true := by
  have hdot : ∀ (gap : Bool) {v : List Byte}, v.head? ≠ some 0x3a →
      ipv6Accepts flag prev c (separator gap ++ v) = true → v.head? ≠ some 0x2e := by
    intro gap v hcolon h
    cases gap with
    | false => exact ipv6Accepts_head_ne_dot rfl ((ipv6Accepts_colon hcolon).mp h).2.2.2.2.2
    | true => exact ipv6Accepts_head_ne_dot rfl ((ipv6Accepts_colons hcolon).mp h).2.2.2
  by_cases hone : u.head? = some 0x3a
  · obtain ⟨v, rfl⟩ : ∃ v, u = 0x3a :: v := by
      cases u with
      | nil => cases hone
      | cons b v => exact ⟨v, by rw [Option.some.inj hone]⟩
    have hcolon : v.head? ≠ some 0x3a := by
      intro hthree
      cases v with
      | nil => cases hthree
      | cons b v =>
          obtain rfl := Option.some.inj hthree
          rw [ipv6Accepts_three] at h
          cases h
    have hnodot := hdot true hcolon h
    exact ⟨true, v, rfl, hcolon, hnodot, (ipv6Accepts_separator true hcolon hnodot hdots).mp h⟩
  · have hnodot := hdot false hone h
    exact ⟨false, u, rfl, hone, hnodot, (ipv6Accepts_separator false hone hnodot hdots).mp h⟩

/-- The counters at the front of a piece. -/
structure Ipv6Scan.Fresh (c : Ipv6Scan) (u : List Byte) : Prop where
  dotNo : c.dotNo = 0
  hex : c.hex = 0
  dec : c.dec = 0
  slash : c.slash = 0
  start : c.start = u

/-- **A dotted piece that is let through** is a quad at the end of the text. -/
theorem exists_quad (hfresh : c.Fresh u) (hnul : 0 ∉ u) {p r : List Byte}
    (hu : u = p ++ 0x2e :: r) (hp : ∀ b ∈ p, isHexDigit b = true)
    (h : ipv6Accepts flag prev c u = true) :
    flag = false ∧ IsQuad 4 u ∧ ¬IsOnes u ∧ (c.colCo = 0 → c.colNo = 7) := by
  have hbytes := bytes_before hnul
  have haddr : inetAddr (.before u) ≠ .none := by
    have hdot := h
    rw [hu, ipv6Accepts_digits hp (by rw [hfresh.hex]; exact Nat.zero_le 4),
      ipv6Accepts_dot] at hdot
    intro hnone
    exact hdot.2.2.2.1 ⟨hfresh.dotNo, by rw [← hnone, ← hfresh.start]; rfl⟩
  obtain ⟨x, hx⟩ : ∃ x, inetAton (.before u) = some x := by
    cases hx : inetAton (.before u) with
    | none =>
        rw [inetAddr, hx] at haddr
        exact absurd rfl haddr
    | some x => exact ⟨x, rfl⟩
  obtain ⟨a, b, d, f, w, htext, hn, hle, hspace, rfl⟩ := inetAton_eq_some hx
  rw [hbytes] at htext
  rw [htext, ipv6Accepts_quad hn hfresh.hex hfresh.dec hfresh.dotNo] at h
  obtain ⟨-, ⟨ha, hb, hd⟩, hf, hrest⟩ := h
  have hw : w = [] := by
    cases w with
    | nil => rfl
    | cons y w =>
        have hall : ∀ y, isSpace y = true → isHexDigit y = false ∧ y ≠ 0x2f ∧ y ≠ 0x3a ∧ y ≠ 0x2e ∧
            y ≠ 0 := forall_byte (by decide)
        obtain ⟨h1, h2, h3, h4, h5⟩ := hall y (by simpa using hspace)
        rw [ipv6Accepts_other h1 h2 h3 h4 h5] at hrest
        cases hrest
  subst hw
  rw [List.append_nil] at htext
  obtain ⟨-, hcount, -, hslash⟩ := ipv6Final_eq_true.mp (ipv6Accepts_nil.symm.trans hrest)
  refine ⟨?_, ⟨a, b, d, f, htext, ⟨hn.1.1, ha, hn.1.2, hle.1⟩, ⟨hn.2.1.1, hb, hn.2.1.2, hle.2.1⟩,
    ⟨hn.2.2.1.1, hd, hn.2.2.1.2, hle.2.2.1⟩, ⟨hn.2.2.2.1, hf, hn.2.2.2.2, hle.2.2.2⟩⟩, ?_, hcount⟩
  · cases flag with
    | false => rfl
    | true =>
        have hone : c.slash = 1 := hslash rfl
        rw [hfresh.slash] at hone
        cases hone
  · rintro ⟨a', b', d', f', htext', hn', ha', hb', hd', hf'⟩
    obtain ⟨rfl, rfl, rfl, rfl⟩ := quadText_ext hn hn' (htext.symm.trans htext')
    refine haddr ?_
    rw [inetAddr, hx, ha', hb', hd', hf']
    rfl

/-- The digits of a piece, and the character behind them. -/
theorem exists_digits (hfresh : c.Fresh u) (hnul : 0 ∉ u) (h : ipv6Accepts flag prev c u = true) :
    ∃ p r, u = p ++ r ∧ (∀ b ∈ p, isHexDigit b = true) ∧ p.length ≤ 4 ∧
      ipv6Accepts flag (lastOf prev p) (c.digits p) r = true ∧
      ((r = [] ∨ ∃ t, r = 0x2f :: t) ∨ (∃ t, r = 0x3a :: t) ∨ ∃ t, r = 0x2e :: t) := by
  have hsplit := List.takeWhile_append_dropWhile (p := isHexDigit) (l := u)
  have hp : ∀ b ∈ u.takeWhile isHexDigit, isHexDigit b = true := fun b hb =>
    List.mem_takeWhile_imp hb
  have hloop := h
  rw [← hsplit, ipv6Accepts_digits hp (by rw [hfresh.hex]; exact Nat.zero_le 4), hfresh.hex,
    Nat.zero_add] at hloop
  refine ⟨_, _, hsplit.symm, hp, hloop.1, hloop.2, ?_⟩
  cases hr : u.dropWhile isHexDigit with
  | nil => exact .inl (.inl rfl)
  | cons b t =>
      have hstop := dropWhile_stop hr
      have hne : b ≠ 0 := fun e => hnul (by rw [← hsplit, hr, e]; simp)
      by_cases hslash : b = 0x2f
      · exact .inl (.inr ⟨t, by rw [hslash]⟩)
      by_cases hcolon : b = 0x3a
      · exact .inr (.inl ⟨t, by rw [hcolon]⟩)
      by_cases hdot : b = 0x2e
      · exact .inr (.inr ⟨t, by rw [hdot]⟩)
      rw [hr, ipv6Accepts_other hstop hslash hcolon hdot hne] at hloop
      exact absurd hloop.2 Bool.false_ne_true

/-- Nothing but digits is in the last piece. -/
theorem not_dot_mem {p : List Byte} (hp : ∀ b ∈ p, isHexDigit b = true) : (0x2e : Byte) ∉ p :=
  fun h => (isHexDigit_ne (hp _ h)).2.1 rfl

/-- **What is let through** behind a separator is pieces. -/
theorem exists_pieces (gap : Bool) {prev : Option Byte} {c : Ipv6Scan} {u : List Byte}
    (hfresh : c.Fresh u) (hnul : 0 ∉ u)
    (hcolon : u.head? ≠ some 0x3a)
    (hend : gap = false → ¬(if flag then u.head? = some 0x2f else u = []))
    (hno : c.colNo ≤ 7) (hco : c.colCo ≤ 1) (h : ipv6Accepts flag prev c u = true) :
    ∃ p rest e, u = p ++ (restText rest ++ e) ∧ Follows 4 gap p rest ∧ Passes flag c p rest e := by
  obtain ⟨p, r, hu, hp, hlen, hloop, hr⟩ := exists_digits hfresh hnul h
  rcases hr with hr | ⟨t, rfl⟩ | ⟨t, rfl⟩
  · -- the last piece
    obtain ⟨hfull, hends⟩ :=
      (ipv6Accepts_end (c := c.digits p) hr hfresh.slash hco (.inl hfresh.dotNo)).mp hloop
    refine ⟨p, [], r, hu, ?_, ⟨hno, hco, hfull, fun hdot => absurd hdot (not_dot_mem hp), hends⟩⟩
    by_cases hnil : p = []
    · refine .inr (.inr ⟨?_, hnil⟩)
      cases gap with
      | true => rfl
      | false =>
          rw [hnil, List.nil_append] at hu
          refine absurd ?_ (hend rfl)
          rw [hu]
          unfold Ends at hends
          cases flag with
          | false => exact hends
          | true =>
              obtain ⟨t, rfl, -⟩ := hends
              rfl
    · exact .inl ⟨hnil, hlen, hp⟩
  · -- a separator
    have hnil : p ≠ [] := by
      rintro rfl
      rw [hu] at hcolon
      exact hcolon rfl
    obtain ⟨g, v, hsep, hv, -, hlast, hgap, hroom, hrest⟩ :=
      exists_separator (c := c.digits p) hfresh.dotNo hloop
    have hlt : v.length < u.length := by
      have hlen := congrArg List.length hsep
      rw [hu, List.length_append]
      cases g <;> simp [separator] at hlen ⊢ <;> omega
    have hvnul : 0 ∉ v := fun hmem => hnul (by rw [hu, hsep]; simp [hmem])
    have hco' : ((c.digits p).behind g v).colCo ≤ 1 := by
      show c.colCo + g.toNat ≤ 1
      cases g with
      | false => exact hco
      | true =>
          have hzero : c.colCo = 0 := hgap rfl
          simp [hzero]
    obtain ⟨q, rest, e, hv', hfollows, hpasses⟩ := exists_pieces g
      (⟨hfresh.dotNo, rfl, rfl, hfresh.slash, rfl⟩ : ((c.digits p).behind g v).Fresh v) hvnul hv
      (fun hg => (hlast hg).2) hroom hco' hrest
    have hcount : (c.digits p).colNo + 1 + rest.length = c.colNo + (rest.length + 1) := by
      show c.colNo + 1 + rest.length = _
      omega
    have hgaps : gaps ((g, q) :: rest) = g.toNat + gaps rest := by
      cases g <;> simp [gaps, Nat.add_comm]
    refine ⟨p, (g, q) :: rest, e, ?_, ⟨⟨hnil, hlen, hp⟩, hfollows⟩, ?_, ?_, ?_, hpasses.quad,
      hpasses.ends⟩
    · rw [hu, hsep]
      conv_lhs => rw [hv']
      simp [restText, separator]
    · rw [List.length_cons, ← hcount]
      exact hpasses.separators
    · rw [hgaps, ← Nat.add_assoc]
      exact hpasses.oneGap
    · rw [hgaps, ← Nat.add_assoc, List.length_cons, ← hcount]
      exact hpasses.full
  · -- a quad
    obtain ⟨hflag, hquad, hones, hfull⟩ := exists_quad hfresh hnul hu hp h
    refine ⟨u, [], [], by simp [restText], .inr (.inl hquad), hno, hco, hfull,
      fun _ => ⟨hflag, hones⟩, ?_⟩
    rw [hflag, Ends]
    rfl
termination_by u.length

theorem Ends.cases (h : Ends flag e) : e = [] ∨ ∃ t, e = 0x2f :: t := by
  unfold Ends at h
  cases flag with
  | false => exact .inl h
  | true =>
      obtain ⟨t, ht, -⟩ := h
      exact .inr ⟨t, ht⟩

/-- The numbers of a quad that `inet_addr` does not take for an error. -/
theorem inetAddr_quad {p : List Byte} (hnul : 0 ∉ p) (h : IsQuad 4 p) (hones : ¬IsOnes p) :
    inetAddr (.before p) ≠ .none := by
  have hbytes := bytes_before hnul
  obtain ⟨a, b, d, f, hp, ha, hb, hd, hf⟩ := h
  have hn := And.intro ha.numeral (And.intro hb.numeral (And.intro hd.numeral hf.numeral))
  rw [inetAddr, inetAton_quad (hbytes.trans hp) hn ⟨ha.2.2.2, hb.2.2.2, hd.2.2.2, hf.2.2.2⟩]
  intro hnone
  have hvalue : ∀ {n : Nat}, n ≤ 255 → UInt8.ofNat n = 255 → n = 255 := fun hle h => by
    have hnat := congrArg UInt8.toNat h
    rw [UInt8.toNat_ofNat', Nat.mod_eq_of_lt (by omega)] at hnat
    exact hnat
  obtain ⟨h1, h2, h3, h4⟩ := InAddr.mk.inj hnone
  exact hones ⟨a, b, d, f, hp, hn, hvalue ha.2.2.2 h1, hvalue hb.2.2.2 h2, hvalue hd.2.2.2 h3,
    hvalue hf.2.2.2 h4⟩

/-- The character behind a separator. -/
theorem Follows.head_piece (flag : Bool) {gap : Bool} {q : List Byte} {rest : Rest}
    (h : Follows 4 gap q rest)
    (he : e = [] ∨ ∃ t, e = 0x2f :: t) {v : List Byte} (hv : v = q ++ (restText rest ++ e)) :
    v.head? ≠ some 0x3a ∧ v.head? ≠ some 0x2e ∧
      (gap = false → ¬(if flag then v.head? = some 0x2f else v = [])) := by
  subst hv
  obtain ⟨hchars, hempty⟩ := h.chars
  cases q with
  | nil =>
      obtain ⟨hgap, rfl⟩ := hempty rfl
      refine ⟨?_, ?_, fun hg => absurd (hgap.symm.trans hg) (by decide)⟩ <;>
        rcases he with rfl | ⟨t, rfl⟩ <;> simp [restText]
  | cons b q =>
      have hb := hchars b List.mem_cons_self
      have hdot : b ≠ 0x2e := by
        rintro rfl
        have hpiece : IsGroup (0x2e :: q) ∨ IsQuad 4 (0x2e :: q) := by
          cases rest with
          | nil => exact h.imp_right fun h => h.resolve_right fun h => by cases h.2
          | cons x rest => exact .inl h.1
        rcases hpiece with hgroup | ⟨a, x, y, z, hq, ha, -⟩
        · exact hgroup.chars.2.1 List.mem_cons_self
        · obtain ⟨d, a, rfl⟩ := List.exists_cons_of_ne_nil ha.1
          have hd := ha.2.2.1 d List.mem_cons_self
          rw [← (List.cons.inj hq).1] at hd
          exact absurd hd (by decide)
      refine ⟨fun h => hb.1 (Option.some.inj h), fun h => hdot (Option.some.inj h), fun _ => ?_⟩
      cases flag with
      | false => exact List.cons_ne_nil _ _
      | true => exact fun h => hb.2 (Option.some.inj h)

/-- **Pieces that follow a separator** are let through. -/
theorem ipv6Accepts_pieces : ∀ {rest : Rest} {gap : Bool} {p : List Byte} {prev : Option Byte}
    {c : Ipv6Scan} {u : List Byte}, c.Fresh u → 0 ∉ u → u = p ++ (restText rest ++ e) →
    Follows 4 gap p rest → Passes flag c p rest e → ipv6Accepts flag prev c u = true
  | [], gap, p, prev, c, u, hfresh, hnul, hu, hfollows, hpasses => by
      have hend : ∀ {prev : Option Byte} {c' : Ipv6Scan}, c'.colNo = c.colNo → c'.colCo = c.colCo →
          c'.slash = 0 → (c'.dotNo = 0 ∨ c'.dotNo = 3) → ipv6Accepts flag prev c' e = true := by
        intro prev c' hno hco hslash hdot
        have hone : c'.colCo ≤ 1 := by
          rw [hco]
          exact hpasses.oneGap
        refine (ipv6Accepts_end hpasses.ends.cases hslash hone hdot).mpr ⟨?_, hpasses.ends⟩
        rw [hno, hco]
        exact hpasses.full
      rw [restText, List.nil_append] at hu
      rcases hfollows with ⟨hne, hlen, hhex⟩ | hquad | ⟨-, hnil⟩
      · rw [hu, ipv6Accepts_digits hhex (by rw [hfresh.hex]; exact Nat.zero_le 4), hfresh.hex,
          Nat.zero_add]
        exact ⟨hlen, hend rfl rfl hfresh.slash (.inl hfresh.dotNo)⟩
      · obtain ⟨hflag, hones⟩ := hpasses.quad hquad.chars.2.1
        have hnil : e = [] := by
          have hends := hpasses.ends
          rw [hflag, Ends] at hends
          exact hends
        have hup : u = p := by rw [hu, hnil, List.append_nil]
        have haddr := inetAddr_quad (hup ▸ hnul) hquad hones
        obtain ⟨a, b, d, f, hp, ha, hb, hd, hf⟩ := hquad
        rw [hu, hp, ipv6Accepts_quad ⟨ha.numeral, hb.numeral, hd.numeral, hf.numeral⟩ hfresh.hex
          hfresh.dec hfresh.dotNo]
        refine ⟨by rwa [hfresh.start, hup], ⟨ha.2.1, hb.2.1, hd.2.1⟩, hf.2.1,
          hend rfl rfl hfresh.slash (.inr ?_)⟩
        show c.dotNo + 1 + 1 + 1 = 3
        rw [hfresh.dotNo]
      · rw [hu, hnil]
        exact hend rfl rfl hfresh.slash (.inl hfresh.dotNo)
  | (g, q) :: rest, gap, p, prev, c, u, hfresh, hnul, hu, ⟨⟨hne, hlen, hhex⟩, hfollows⟩,
    hpasses => by
      obtain ⟨hcolon, hdot, hlast⟩ := Follows.head_piece flag hfollows hpasses.ends.cases rfl
      have hu' : u = p ++ (separator g ++ (q ++ (restText rest ++ e))) := by
        rw [hu]
        simp [restText, separator]
      have hcount : c.colNo + 1 + rest.length = c.colNo + (rest.length + 1) := by omega
      have hgaps : gaps ((g, q) :: rest) = g.toNat + gaps rest := by
        cases g <;> simp [gaps, Nat.add_comm]
      obtain ⟨hno, hone, hfull, hquad, hends⟩ := hpasses
      rw [List.length_cons, ← hcount] at hno hfull
      rw [hgaps, ← Nat.add_assoc] at hone hfull
      have hprev : lastOf prev p ≠ none := by
        obtain ⟨b, -, hb⟩ := exists_lastOf prev hne
        rw [hb]
        exact Option.some_ne_none b
      rw [hu', ipv6Accepts_digits hhex (by rw [hfresh.hex]; exact Nat.zero_le 4), hfresh.hex,
        Nat.zero_add]
      refine ⟨hlen, (ipv6Accepts_separator _ (c := c.digits p) hcolon hdot hfresh.dotNo).mpr
        ⟨fun hg => ⟨hprev, hlast hg⟩, fun hg => ?_, ?_, ?_⟩⟩
      · rw [hg, Bool.toNat_true] at hone
        show c.colCo = 0
        omega
      · show c.colNo < 7
        omega
      · exact ipv6Accepts_pieces ⟨hfresh.dotNo, rfl, rfl, hfresh.slash, rfl⟩
          (fun hmem => hnul (by
            rw [hu']
            exact List.mem_append_right _ (List.mem_append_right _ hmem))) rfl hfollows
          ⟨hno, hone, hfull, hquad, hends⟩

end Tail

/-! ### The texts that are accepted -/

/-- A text that the function takes for an address, with what stands behind it. -/
structure Taken (flag : Bool) (x : Text) (e : List Byte) : Prop where
  reads : x.Reads 4
  separators : x.tail.length ≤ 7
  oneGap : gaps x.tail ≤ 1
  full : gaps x.tail = 0 → x.tail.length = 7
  quad : x.HasQuad → flag = false ∧ ¬IsOnes x.lastPiece
  ends : Ends flag e

theorem gaps_tail (x : Text) : gaps x.tail = x.gap.toNat + gaps x.rest := by
  rw [Text.tail]
  cases hg : x.gap <;> simp [gaps, Nat.add_comm]

/-- **The whole text** is let through where it is taken. -/
theorem ipv6Accepts_text {flag : Bool} {u : List Byte} (hnul : 0 ∉ u) :
    ipv6Accepts flag none ⟨0, 0, 0, 0, 0, 0, u⟩ u = true ↔
      ∃ x e, u = x.text ++ e ∧ Taken flag x e := by
  have hfresh : Ipv6Scan.Fresh ⟨0, 0, 0, 0, 0, 0, u⟩ u := ⟨rfl, rfl, rfl, rfl, rfl⟩
  constructor
  · intro h
    obtain ⟨p, r, hu, hp, hlen, hloop, hr⟩ := exists_digits hfresh hnul h
    rcases hr with hr | ⟨t, rfl⟩ | ⟨t, rfl⟩
    · -- no separator was met
      have hfull :=
        (ipv6Accepts_end (c := Ipv6Scan.digits ⟨0, 0, 0, 0, 0, 0, u⟩ p) hr rfl (Nat.zero_le 1)
        (.inl rfl)).mp hloop
      exact absurd (hfull.1 rfl) (by show ¬(0 : Nat) = 7; decide)
    · obtain ⟨g, v, hsep, hv, -, hlast, -, -, hrest⟩ :=
        exists_separator (c := Ipv6Scan.digits ⟨0, 0, 0, 0, 0, 0, u⟩ p) rfl hloop
      have hvnul : 0 ∉ v := fun hmem => hnul (by rw [hu, hsep]; simp [hmem])
      have hco : (Ipv6Scan.behind (Ipv6Scan.digits ⟨0, 0, 0, 0, 0, 0, u⟩ p) g v).colCo ≤ 1 := by
        cases g <;> simp [Ipv6Scan.behind, Ipv6Scan.digits]
      obtain ⟨q, rest, e, hv', hfollows, hno, hone, hfull, hquad, hends⟩ :=
        exists_pieces g (u := v) ⟨rfl, rfl, rfl, rfl, rfl⟩ hvnul hv
          (fun hg => (hlast hg).2) (by show 0 + 1 ≤ 7; decide) hco hrest
      have hgaps : gaps (Text.tail ⟨p, g, q, rest⟩) = 0 + g.toNat + gaps rest := by
        rw [gaps_tail, Nat.zero_add]
      have hcount : (Text.tail ⟨p, g, q, rest⟩).length = 0 + 1 + rest.length := by
        show rest.length + 1 = 0 + 1 + rest.length
        omega
      refine ⟨⟨p, g, q, rest⟩, e, ?_, ⟨⟨?_, hfollows⟩, ?_, ?_, ?_, hquad, hends⟩⟩
      · rw [hu, hsep]
        conv_lhs => rw [hv']
        simp [Text.text, Text.tail, restText, separator]
      · by_cases hnil : p = []
        · refine .inr ⟨?_, hnil⟩
          cases g with
          | true => rfl
          | false => exact absurd (by rw [hnil]; rfl) (hlast rfl).1
        · exact .inl ⟨hnil, hlen, hp⟩
      · rw [hcount]
        exact hno
      · rw [hgaps]
        exact hone
      · rw [hgaps, hcount]
        exact hfull
    · obtain ⟨-, -, -, hfull⟩ := exists_quad hfresh hnul hu hp h
      exact absurd (hfull rfl) (by show ¬(0 : Nat) = 7; decide)
  · rintro ⟨x, e, hu, hreads, hno, hone, hfull, hquad, hends⟩
    obtain ⟨hcolon, hdot, hlast⟩ := Follows.head_piece flag hreads.2 hends.cases rfl
    have hu' : u = x.first ++ (separator x.gap ++ (x.second ++ (restText x.rest ++ e))) := by
      rw [hu]
      simp [Text.text, Text.tail, restText, separator]
    have hcount : x.tail.length = 0 + 1 + x.rest.length := by
      rw [Text.tail, List.length_cons]
      omega
    rw [gaps_tail] at hone hfull
    rw [hcount] at hno hfull
    have hfirst : (∀ b ∈ x.first, isHexDigit b = true) ∧ x.first.length ≤ 4 ∧
        (x.gap = false → x.first ≠ []) := by
      rcases hreads.1 with ⟨hne, hlen, hhex⟩ | ⟨hgap, hnil⟩
      · exact ⟨hhex, hlen, fun _ => hne⟩
      · rw [hnil, hgap]
        exact ⟨fun b hb => absurd hb List.not_mem_nil, Nat.zero_le 4, Bool.noConfusion⟩
    obtain ⟨hhex, hlen, hne⟩ := hfirst
    have haccepts : ipv6Accepts flag none ⟨0, 0, 0, 0, 0, 0, u⟩
        (x.first ++ (separator x.gap ++ (x.second ++ (restText x.rest ++ e)))) = true := by
      rw [ipv6Accepts_digits hhex (Nat.zero_le 4)]
      refine ⟨by show 0 + x.first.length ≤ 4; omega, (ipv6Accepts_separator _ hcolon hdot rfl).mpr
        ⟨fun hg => ⟨?_, hlast hg⟩, fun _ => rfl, by show 0 < 7; decide, ?_⟩⟩
      · obtain ⟨b, -, hb⟩ := exists_lastOf none (hne hg)
        rw [hb]
        exact Option.some_ne_none b
      · refine ipv6Accepts_pieces ⟨rfl, rfl, rfl, rfl, rfl⟩
          (fun hmem => hnul (by
            rw [hu']
            exact List.mem_append_right _ (List.mem_append_right _ hmem))) rfl hreads.2
          ⟨hno, ?_, ?_, hquad, hends⟩
        · show 0 + x.gap.toNat + gaps x.rest ≤ 1
          omega
        · show 0 + x.gap.toNat + gaps x.rest = 0 → 0 + 1 + x.rest.length = 7
          rw [Nat.zero_add]
          exact hfull
    rwa [← hu'] at haccepts

/-- **`scValidIPv6` returns**, for every text, and accepts those that are not too long and taken for
an address. -/
theorem scValidIPv6_accepts (ipStr : CStr) (flag : Bool) :
    ∃ r, scValidIPv6 ipStr flag = .ok r ∧
      (r = true ↔ ipStr.length ≤ (if flag then 46 else 40) ∧
        ∃ x e, ipStr.bytes = x.text ++ e ∧ Taken flag x e) := by
  rw [scValidIPv6, ← ipv6Accepts_text ipStr.noNul, ipv6Accepts]
  by_cases hlen : (if flag then 46 else 40) < ipStr.length
  · rw [if_pos hlen]
    exact ⟨false, rfl, ⟨fun h => (nomatch h), fun h => absurd h.1 (Nat.not_le.mpr hlen)⟩⟩
  · obtain ⟨r, hr⟩ : ∃ r, ipv6Loop flag none ⟨0, 0, 0, 0, 0, 0, ipStr.bytes⟩ ipStr.bytes = .ok r :=
      ipv6Loop_ok
    rw [if_neg hlen, hr, Run.ok_bind]
    cases r with
    | none => exact ⟨false, rfl, by simp⟩
    | some c => exact ⟨_, rfl, by simp [Nat.not_lt.mp hlen]⟩

/-! ### The texts that are misjudged -/

/-- What the function is for: to accept the addresses or, with the flag set, those with a prefix
length behind them. -/
def IsIpv6Text (flag : Bool) (s : List Byte) : Prop := if flag then IsPrefixed s else IsAddress s

/-- A text that is meant to be accepted, with what stands behind the address. -/
structure Meant (flag : Bool) (x : Text) (e : List Byte) : Prop where
  reads : x.Reads 3
  counts : x.Counts
  ends : if flag then ∃ t, e = 0x2f :: t ∧ IsPrefixLength t else e = []

/-- The texts that are refused although they are addresses, or accepted although they are not. -/
inductive Misjudged : Bool → Text → List Byte → Prop where
  /-- six groups and a quad are refused -/
  | sixGroups {x : Text} (hreads : x.Reads 3) (hquad : x.HasQuad) (hgaps : gaps x.tail = 0)
      (hgroups : x.groups = 8) : Misjudged false x []
  /-- seven groups and a quad are accepted -/
  | sevenGroups {x : Text} (hquad : x.HasQuad) (hones : ¬IsOnes x.lastPiece)
      (hgaps : gaps x.tail = 0) (hgroups : x.groups = 9) : Misjudged false x []
  /-- a `::` that stands for no group is accepted -/
  | emptyGap {x : Text} (hones : x.HasQuad → ¬IsOnes x.lastPiece) (hgaps : gaps x.tail = 1)
      (hlen : x.tail.length ≤ 7) (hgroups : 8 ≤ x.groups) : Misjudged false x []
  /-- `255.255.255.255` is refused -/
  | ones {x : Text} (hreads : x.Reads 3) (hquad : x.HasQuad) (hones : IsOnes x.lastPiece)
      (hgaps : gaps x.tail = 1) (hgroups : x.groups ≤ 7) : Misjudged false x []
  /-- a last number of four digits is accepted -/
  | longNumber {x : Text} (hreads : ¬x.Reads 3) (hones : ¬IsOnes x.lastPiece)
      (hgaps : gaps x.tail = 1) (hgroups : x.groups ≤ 7) : Misjudged false x []
  /-- with a prefix length every quad is refused -/
  | quadPrefix {x : Text} {t : List Byte} (hreads : x.Reads 3) (hquad : x.HasQuad)
      (hcounts : x.Counts) (ht : IsPrefixLength t) : Misjudged true x (0x2f :: t)
  /-- a `::` that stands for no group is accepted -/
  | emptyGapPrefix {x : Text} {t : List Byte} (hquad : ¬x.HasQuad) (hgaps : gaps x.tail = 1)
      (hlen : x.tail.length ≤ 7) (hgroups : 8 ≤ x.groups) (ht : TakesPrefix t) :
      Misjudged true x (0x2f :: t)
  /-- what `atoi` takes for a number up to 128 is accepted -/
  | notNumber {x : Text} {t : List Byte} (hquad : ¬x.HasQuad) (hcounts : x.Counts)
      (ht : TakesPrefix t) (hnot : ¬IsPrefixLength t) : Misjudged true x (0x2f :: t)

theorem isIpv6Text_iff (flag : Bool) (s : List Byte) :
    IsIpv6Text flag s ↔ ∃ x e, s = x.text ++ e ∧ Meant flag x e := by
  unfold IsIpv6Text
  cases flag with
  | false =>
      constructor
      · rintro ⟨x, rfl, hreads, hcounts⟩
        exact ⟨x, [], (List.append_nil _).symm, hreads, hcounts, rfl⟩
      · rintro ⟨x, e, hs, hreads, hcounts, hends⟩
        obtain rfl : e = [] := hends
        exact ⟨x, by rw [hs, List.append_nil], hreads, hcounts⟩
  | true =>
      constructor
      · rintro ⟨a, t, rfl, ⟨x, rfl, hreads, hcounts⟩, ht⟩
        exact ⟨x, _, rfl, hreads, hcounts, t, rfl, ht⟩
      · rintro ⟨x, e, rfl, hreads, hcounts, t, rfl, ht⟩
        exact ⟨_, t, rfl, ⟨x, rfl, hreads, hcounts⟩, ht⟩

/-- A prefix length is read as it is. -/
theorem takesPrefix_of_isPrefixLength {t : List Byte} (h : IsPrefixLength t) : TakesPrefix t := by
  obtain ⟨hne, hds, hle⟩ := h
  have hnul : 0 ∉ t := fun hmem => absurd (hds _ hmem) (by decide)
  have hscan := scanNumber_decimal hne hds (t := []) rfl
  rw [List.append_nil] at hscan
  have hvalue : atoi (.before t) = decimal t := by
    rw [atoi, bytes_before hnul, hscan]
    exact clampLong_eq (by omega) (by omega)
  refine ⟨fun hmem => absurd (hds _ hmem) (by decide), ?_, ?_⟩ <;> rw [hvalue] <;> omega

/-- The cases without a prefix length. -/
theorem misjudged_false {x : Text} {e : List Byte} :
    Misjudged false x e ↔ e = [] ∧
      (x.Reads 3 ∧ x.HasQuad ∧ gaps x.tail = 0 ∧ x.groups = 8 ∨
        x.HasQuad ∧ ¬IsOnes x.lastPiece ∧ gaps x.tail = 0 ∧ x.groups = 9 ∨
        (x.HasQuad → ¬IsOnes x.lastPiece) ∧ gaps x.tail = 1 ∧ x.tail.length ≤ 7 ∧ 8 ≤ x.groups ∨
        x.Reads 3 ∧ x.HasQuad ∧ IsOnes x.lastPiece ∧ gaps x.tail = 1 ∧ x.groups ≤ 7 ∨
        ¬x.Reads 3 ∧ ¬IsOnes x.lastPiece ∧ gaps x.tail = 1 ∧ x.groups ≤ 7) := by
  constructor
  · intro h
    cases h with
    | sixGroups h1 h2 h3 h4 => exact ⟨rfl, .inl ⟨h1, h2, h3, h4⟩⟩
    | sevenGroups h1 h2 h3 h4 => exact ⟨rfl, .inr (.inl ⟨h1, h2, h3, h4⟩)⟩
    | emptyGap h1 h2 h3 h4 => exact ⟨rfl, .inr (.inr (.inl ⟨h1, h2, h3, h4⟩))⟩
    | ones h1 h2 h3 h4 h5 => exact ⟨rfl, .inr (.inr (.inr (.inl ⟨h1, h2, h3, h4, h5⟩)))⟩
    | longNumber h1 h2 h3 h4 => exact ⟨rfl, .inr (.inr (.inr (.inr ⟨h1, h2, h3, h4⟩)))⟩
  · rintro ⟨rfl, ⟨h1, h2, h3, h4⟩ | ⟨h1, h2, h3, h4⟩ | ⟨h1, h2, h3, h4⟩ | ⟨h1, h2, h3, h4, h5⟩ |
      ⟨h1, h2, h3, h4⟩⟩
    · exact .sixGroups h1 h2 h3 h4
    · exact .sevenGroups h1 h2 h3 h4
    · exact .emptyGap h1 h2 h3 h4
    · exact .ones h1 h2 h3 h4 h5
    · exact .longNumber h1 h2 h3 h4

/-- The cases with one. -/
theorem misjudged_true {x : Text} {t : List Byte} :
    Misjudged true x (0x2f :: t) ↔
      x.Reads 3 ∧ x.HasQuad ∧ x.Counts ∧ IsPrefixLength t ∨
      ¬x.HasQuad ∧ gaps x.tail = 1 ∧ x.tail.length ≤ 7 ∧ 8 ≤ x.groups ∧ TakesPrefix t ∨
      ¬x.HasQuad ∧ x.Counts ∧ TakesPrefix t ∧ ¬IsPrefixLength t := by
  constructor
  · intro h
    cases h with
    | quadPrefix h1 h2 h3 h4 => exact .inl ⟨h1, h2, h3, h4⟩
    | emptyGapPrefix h1 h2 h3 h4 h5 => exact .inr (.inl ⟨h1, h2, h3, h4, h5⟩)
    | notNumber h1 h2 h3 h4 => exact .inr (.inr ⟨h1, h2, h3, h4⟩)
  · rintro (⟨h1, h2, h3, h4⟩ | ⟨h1, h2, h3, h4, h5⟩ | ⟨h1, h2, h3, h4⟩)
    · exact .quadPrefix h1 h2 h3 h4
    · exact .emptyGapPrefix h1 h2 h3 h4 h5
    · exact .notNumber h1 h2 h3 h4

/-- **What is meant is what is taken**, but for the texts that are misjudged. -/
theorem taken_iff_meant {flag : Bool} {x : Text} {e : List Byte} (hreads : x.Reads 4)
    (he : e = [] ∨ ∃ t, e = 0x2f :: t) : (Taken flag x e ↔ Meant flag x e) ↔
    ¬Misjudged flag x e := by
  have hthree : ¬x.HasQuad → x.Reads 3 := fun h => ⟨hreads.1, hreads.2.of_noQuad h⟩
  have hone := fun h => Text.tail_le_groups hreads h
  have hquad : gaps x.tail = 0 → x.HasQuad → x.groups = x.tail.length + 2 := fun hg hq => by
    rw [Text.groups_of_noGap hreads hg, quads,
      if_pos (show (0x2e : Byte) ∈ x.lastPiece from hq)]
  have hplain : gaps x.tail = 0 → ¬x.HasQuad → x.groups = x.tail.length + 1 := fun hg hq => by
    rw [Text.groups_of_noGap hreads hg, quads, if_neg (show (0x2e : Byte) ∉ x.lastPiece from hq),
      Nat.add_zero]
  have htaken : Taken flag x e ↔ (x.tail.length ≤ 7 ∧ gaps x.tail ≤ 1 ∧
      (gaps x.tail = 0 → x.tail.length = 7) ∧ (x.HasQuad → flag = false ∧ ¬IsOnes x.lastPiece) ∧
      Ends flag e) :=
    ⟨fun h => ⟨h.separators, h.oneGap, h.full, h.quad, h.ends⟩,
      fun h => ⟨hreads, h.1, h.2.1, h.2.2.1, h.2.2.2.1, h.2.2.2.2⟩⟩
  have hmeant : Meant flag x e ↔ (x.Reads 3 ∧
      (gaps x.tail = 0 ∧ x.groups = 8 ∨ gaps x.tail = 1 ∧ x.groups ≤ 7) ∧
      if flag then ∃ t, e = 0x2f :: t ∧ IsPrefixLength t else e = []) :=
    ⟨fun h => ⟨h.reads, h.counts, h.ends⟩, fun h => ⟨h.1, h.2.1, h.2.2⟩⟩
  rw [htaken, hmeant]
  cases flag with
  | false =>
      rw [misjudged_false]
      simp only [Ends, Bool.false_eq_true, if_false, true_and]
      grind
  | true =>
      rcases he with rfl | ⟨t, rfl⟩
      · have hnot : ¬Misjudged true x [] := fun h => by cases h
        simp [Ends, hnot]
      · have htakes := fun h : IsPrefixLength t => takesPrefix_of_isPrefixLength h
        rw [misjudged_true, Text.Counts]
        simp only [Ends, if_true, List.cons.injEq, true_and, exists_eq_left', Bool.true_eq_false,
          false_and, imp_false]
        grind

/-- The answer of the function is what it should be. -/
def DecidesIpv6 (ipStr : CStr) (flag : Bool) : Prop :=
  ∃ r, scValidIPv6 ipStr flag = .ok r ∧ (r = true ↔ IsIpv6Text flag ipStr.bytes)

/-- **`scValidIPv6` decides** whether a text is an address, but for those that are misjudged. -/
theorem scValidIPv6_decides {ipStr : CStr} {flag : Bool}
    (hlen : ipStr.length ≤ if flag then 46 else 40) :
    DecidesIpv6 ipStr flag ↔
      ¬∃ x e, ipStr.bytes = x.text ++ e ∧ x.Reads 4 ∧ Misjudged flag x e := by
  have hform : ∀ {x : Text} {e : List Byte}, Misjudged flag x e → e = [] ∨ ∃ t, e = 0x2f :: t := by
    rintro x e (_ | _ | _ | _ | _ | _ | _ | _)
    all_goals first | exact .inl rfl | exact .inr ⟨_, rfl⟩
  have hhead : ∀ {e : List Byte}, (e = [] ∨ ∃ t, e = 0x2f :: t) → e.head?.all (· = 0x2f) := by
    rintro e (rfl | ⟨t, rfl⟩) <;> rfl
  have hmform : ∀ {x : Text} {e : List Byte}, Meant flag x e → e = [] ∨ ∃ t, e = 0x2f :: t := by
    rintro x e ⟨-, -, hends⟩
    cases flag with
    | false => exact .inl hends
    | true => exact .inr ⟨hends.choose, hends.choose_spec.1⟩
  obtain ⟨r, hr, haccepts⟩ := scValidIPv6_accepts ipStr flag
  have hdecides : DecidesIpv6 ipStr flag ↔ ((∃ x e, ipStr.bytes = x.text ++ e ∧ Taken flag x e) ↔
      ∃ x e, ipStr.bytes = x.text ++ e ∧ Meant flag x e) := by
    rw [← isIpv6Text_iff]
    constructor
    · rintro ⟨r', hr', hiff⟩
      obtain rfl := Except.ok.inj (hr.symm.trans hr')
      rw [← hiff, haccepts]
      exact ⟨fun h => ⟨hlen, h⟩, fun h => h.2⟩
    · exact fun h => ⟨r, hr, haccepts.trans ((and_iff_right hlen).trans h)⟩
  rw [hdecides]
  constructor
  · rintro hiff ⟨x, e, hs, hreads, hbad⟩
    -- the text has no other reading
    have hsame : ∀ {y : Text} {f : List Byte}, ipStr.bytes = y.text ++ f → y.Reads 4 →
        (f = [] ∨ ∃ t, f = 0x2f :: t) → y = x ∧ f = e := fun hs' hreads' hf =>
      Text.append_ext hreads' hreads (hhead hf) (hhead (hform hbad)) (hs'.symm.trans hs)
    refine (taken_iff_meant hreads (hform hbad)).mp ⟨fun htaken => ?_, fun hmeant => ?_⟩ hbad
    · obtain ⟨y, f, hs', hmeant⟩ := hiff.mp ⟨x, e, hs, htaken⟩
      obtain ⟨rfl, rfl⟩ := hsame hs' (hmeant.reads.mono (by decide)) (hmform hmeant)
      exact hmeant
    · obtain ⟨y, f, hs', htaken⟩ := hiff.mpr ⟨x, e, hs, hmeant⟩
      obtain ⟨rfl, rfl⟩ := hsame hs' htaken.reads htaken.ends.cases
      exact htaken
  · intro hgood
    constructor
    · rintro ⟨x, e, hs, htaken⟩
      exact ⟨x, e, hs, ((taken_iff_meant htaken.reads htaken.ends.cases).mpr fun hbad =>
        hgood ⟨x, e, hs, htaken.reads, hbad⟩).mp htaken⟩
    · rintro ⟨x, e, hs, hmeant⟩
      have hreads := hmeant.reads.mono (by decide : 3 ≤ 4)
      exact ⟨x, e, hs, ((taken_iff_meant hreads (hmform hmeant)).mpr fun hbad =>
        hgood ⟨x, e, hs, hreads, hbad⟩).mpr hmeant⟩

/-- `fe80::1` -/
def linkLocal : Text := ⟨ascii "fe80".toList, true, ascii "1".toList, []⟩

theorem linkLocal_reads (n : Nat) : linkLocal.Reads n :=
  ⟨.inl ⟨by decide, by decide, by decide +kernel⟩, .inl ⟨by decide, by decide, by decide +kernel⟩⟩

theorem scValidIPv6_decides_linkLocal : DecidesIpv6 (.text "fe80::1") false :=
  (scValidIPv6_decides (by decide)).mpr (by
    rintro ⟨x, e, hs, hreads, hbad⟩
    have htext : (CStr.text "fe80::1").bytes = linkLocal.text ++ [] := by decide
    obtain ⟨rfl, rfl⟩ := Text.append_ext hreads (linkLocal_reads 4)
      (by rcases misjudged_false.mp hbad with ⟨rfl, -⟩; rfl) rfl (hs.symm.trans htext)
    have hquad : ¬linkLocal.HasQuad := by
      show ¬(0x2e : Byte) ∈ linkLocal.lastPiece
      decide
    have hgroups : linkLocal.groups = 2 := by decide
    rcases misjudged_false.mp hbad with ⟨-, ⟨-, h, -⟩ | ⟨h, -⟩ | ⟨-, -, -, h⟩ | ⟨-, h, -⟩ | ⟨h, -⟩⟩
    · exact hquad h
    · exact hquad h
    · omega
    · exact hquad h
    · exact h (linkLocal_reads 3))

/-- **An address with a quad** is refused. -/
theorem scValidIPv6_refuses : ¬DecidesIpv6 (.text "1:2:3:4:5:6:10.0.0.1") false := by
  rintro ⟨r, hr, hiff⟩
  have hfalse : scValidIPv6 (.text "1:2:3:4:5:6:10.0.0.1") false = .ok false := by decide +kernel
  obtain rfl := Except.ok.inj (hfalse.symm.trans hr)
  have hgroup : ∀ b ∈ ascii "123456".toList, IsGroup [b] := fun b hb =>
    ⟨List.cons_ne_nil b [], Nat.le_add_left 1 3, fun x hx => by
      have hall : ∀ b ∈ ascii "123456".toList, isHexDigit b = true := by decide +kernel
      rw [List.mem_singleton.mp hx]
      exact hall b hb⟩
  have hoctet : IsOctet 3 (ascii "10".toList) ∧ IsOctet 3 (ascii "0".toList) ∧
      IsOctet 3 (ascii "1".toList) :=
    ⟨⟨by decide, by decide, by decide +kernel, by decide⟩,
      ⟨by decide, by decide, by decide +kernel, by decide⟩,
      ⟨by decide, by decide, by decide +kernel, by decide⟩⟩
  have haddress : IsAddress (CStr.text "1:2:3:4:5:6:10.0.0.1").bytes :=
    ⟨⟨[0x31], false, [0x32], [(false, [0x33]), (false, [0x34]), (false, [0x35]), (false, [0x36]),
        (false, ascii "10.0.0.1".toList)]⟩, by decide,
      ⟨.inl (hgroup _ (by decide)), hgroup _ (by decide), hgroup _ (by decide),
        hgroup _ (by decide),
        hgroup _ (by decide), hgroup _ (by decide), .inr (.inl ⟨_, _, _, _, by decide,
          hoctet.1, hoctet.2.1, hoctet.2.1, hoctet.2.2⟩)⟩, .inl ⟨by decide, by decide⟩⟩
  exact absurd (hiff.mpr haddress) (by decide)

end Wap4410n.Utility
