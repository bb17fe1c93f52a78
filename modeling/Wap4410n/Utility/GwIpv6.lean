import Wap4410n.Utility.Ipv6

/-!
# Utility — the IPv6 gateway

`scValidGWv6` copies a text into `buff`, takes it apart at the slashes and checks the first part:
with `scValidIPv6`, or in a loop of its own if the part begins or ends with a colon.  What stands
behind the part has to be a prefix length.

* `gwLoop_iff`: the parts that the loop lets through.
* `scValidGWv6_noSlash`: no text without a slash is accepted.
* `scValidGWv6_safe`: the texts on which the function does what it should.
-/

namespace Wap4410n.Utility

open CLib Ipv6

/-! ### `scValidGWv6` -/

/-- `flagcolCo`, `flaghex` and `flagcolNo` -/
structure GwScan where
  colCo : Nat
  hex : Nat
  colNo : Nat

/-- What happens at a character: `return 0;`, or the next turn, behind one character or two. -/
inductive GwNext where
  | ret
  | next (c : GwScan)
  | skip (c : GwScan)

/-- The end of `if( *p == ':')`, with `*(p-1)` and what stands behind `p`. -/
def gwColon (prev : Option Byte) (c : GwScan) (after : List Byte) (next : GwScan → GwNext) :
    Run Ipv6Array GwNext :=
  let count : Run Ipv6Array GwNext :=
    if c.colNo < 7 then .ok (next { c with colNo := c.colNo + 1, hex := 0 }) else .ok .ret
  match after, prev with
  | _ :: _, _ => count
  | [], none => .error (.outside .buff)
  | [], some q => if q ≠ 0x3a then .ok .ret else count

/-- The body of the loop at the character `b`, with `*(p-1)` and what stands behind it. -/
def gwStep (prev : Option Byte) (c : GwScan) (b : Byte) (after : List Byte) :
    Run Ipv6Array GwNext :=
  if b = 0x3a then
    if [0x3a, 0x3a] <+: after then .ok .ret
    else if [0x3a] <+: after then
      if 1 ≤ c.colCo then .ok .ret
      else gwColon (some b) { c with colCo := c.colCo + 1, hex := 0 } after.tail .skip
    else gwColon prev c after .next
  else if scValidHex b then
    if 4 < c.hex + 1 then .ok .ret else .ok (.next { c with hex := c.hex + 1 })
  else .ok .ret

/-- `for(; *p!='\0'; p++)`: whether it runs to its end. -/
def gwLoop : Option Byte → GwScan → List Byte → Run Ipv6Array Bool
  | _, _, [] => .ok true
  | prev, c, b :: after => do
    match ← gwStep prev c b after with
    | .ret => return false
    | .next c => gwLoop (some b) c after
    | .skip c =>
      match after with
      | [] => return true
      | d :: after => gwLoop (some d) c after

/-- The check of the part at `p`, with `*(p-1)`. -/
def gwPart (prev : Option Byte) (p : CStr) : Run Ipv6Array Bool :=
  match p.bytes.getLast? with
  -- `p[strlen(p)-1]`
  | none => .error (.outside .buff)
  | some l =>
    if p.bytes.head? ≠ some 0x3a ∧ l ≠ 0x3a then scValidIPv6 p false
      else gwLoop prev ⟨0, 0, 0⟩ p.bytes

/-- `scValidGWv6` -/
def scValidGWv6 (ipStr : CStr) : Run Ipv6Array Bool :=
  -- `char buff[46];`
  if 46 ≤ ipStr.length then .error (.outside .buff)
  else
    match ipStr.strtok [0x2f] with
    | none => gwPart none ipStr
    | some (p, s) => do
      if ← gwPart (ipStr.bytes.head?.filter (· = 0x2f)) p then
        match s.strtok [0x2f] with
        | none => .error (.null .token)
        | some (t, _) => return 0 ≤ atoi t && atoi t ≤ 128
      else return false

example : scValidGWv6 (.text "fe80::1/64") = .ok true := by decide +kernel

example : scValidGWv6 (.text "fe80::1") = .error (.null .token) := by decide +kernel

/-! ### One character -/

section Steps

variable {prev : Option Byte} {c : GwScan} {b : Byte} {u : List Byte}

theorem gwColon_ok (h : prev ≠ none ∨ u ≠ []) (next : GwScan → GwNext) :
    ∃ n, gwColon prev c u next = .ok n := by
  unfold gwColon
  cases u with
  | nil =>
      cases prev with
      | none => exact absurd rfl (h.resolve_right fun hne => hne rfl)
      | some q =>
          dsimp only
          split
          · exact ⟨_, rfl⟩
          · split <;> exact ⟨_, rfl⟩
  | cons d u =>
      dsimp only
      split <;> exact ⟨_, rfl⟩

/-- Where something follows, or a colon stands before, the separators are counted. -/
theorem gwColon_count (h : u = [] → prev = some 0x3a) (next : GwScan → GwNext) :
    gwColon prev c u next =
      if c.colNo < 7 then .ok (next { c with colNo := c.colNo + 1, hex := 0 }) else .ok .ret := by
  unfold gwColon
  cases u with
  | nil =>
      rw [h rfl]
      exact if_neg fun hne => hne rfl
  | cons d u => rfl

/-- At the end of the text nothing else goes on. -/
theorem gwColon_end (h : prev ≠ some 0x3a) (next : GwScan → GwNext) :
    gwColon prev c [] next = .error (.outside .buff) ∨ gwColon prev c [] next = .ok .ret := by
  unfold gwColon
  cases prev with
  | none => exact .inl rfl
  | some q => exact .inr (if_pos fun e => h (by rw [e]))

/-- **The character before the text is read** at a colon that is the whole text only. -/
theorem gwStep_ok (h : prev ≠ none ∨ b :: u ≠ [0x3a]) : ∃ n, gwStep prev c b u = .ok n := by
  unfold gwStep
  split
  · rename_i hb
    split
    · exact ⟨_, rfl⟩
    split
    · split
      · exact ⟨_, rfl⟩
      · exact gwColon_ok (.inl (Option.some_ne_none b)) _
    · exact gwColon_ok (h.imp_right fun hne hnil => hne (by rw [hb, hnil])) _
  split
  · split <;> exact ⟨_, rfl⟩
  · exact ⟨_, rfl⟩

theorem gwLoop_ok : ∀ {u : List Byte} {prev : Option Byte} {c : GwScan},
    prev ≠ none ∨ u ≠ [0x3a] → ∃ r, gwLoop prev c u = .ok r
  | [], _, _, _ => ⟨true, rfl⟩
  | b :: u, prev, c, h => by
      obtain ⟨n, hn⟩ := gwStep_ok (c := c) h
      rw [gwLoop, hn, Run.ok_bind]
      cases n with
      | ret => exact ⟨_, rfl⟩
      | next c => exact gwLoop_ok (.inl (Option.some_ne_none b))
      | skip c =>
          cases u with
          | nil => exact ⟨_, rfl⟩
          | cons d u => exact gwLoop_ok (.inl (Option.some_ne_none d))

/-- The loop runs to its end. -/
def gwPasses (prev : Option Byte) (c : GwScan) (u : List Byte) : Prop := gwLoop prev c u = .ok true

theorem gwPasses_nil : gwPasses prev c [] := rfl

/-- A hexadecimal digit. -/
theorem gwPasses_hex (hb : isHexDigit b = true) :
    gwPasses prev c (b :: u) ↔ c.hex < 4 ∧ gwPasses (some b) { c with hex := c.hex + 1 } u := by
  have hall : ∀ b, isHexDigit b = true → b ≠ 0x3a ∧ scValidHex b = true :=
    forall_byte (by decide)
  obtain ⟨hcolon, hhex⟩ := hall b hb
  unfold gwPasses
  rw [gwLoop, gwStep, if_neg hcolon, if_pos hhex]
  by_cases hroom : c.hex < 4
  · rw [if_neg (by omega)]
    simp [hroom]
  · rw [if_pos (by omega)]
    simp [hroom]

/-- Any other character. -/
theorem gwPasses_other (hb : isHexDigit b = false) (hcolon : b ≠ 0x3a) (hnul : b ≠ 0) :
    ¬gwPasses prev c (b :: u) := by
  have hall : ∀ b, isHexDigit b = false → b ≠ 0 → scValidHex b = false :=
    forall_byte (by decide)
  unfold gwPasses
  rw [gwLoop, gwStep, if_neg hcolon, hall b hb hnul, if_neg Bool.false_ne_true]
  exact fun h => nomatch h

/-- The counters behind a separator. -/
def GwScan.behind (c : GwScan) (gap : Bool) : GwScan := ⟨c.colCo + gap.toNat, 0, c.colNo + 1⟩

/-- A colon and no other behind it. -/
theorem gwPasses_colon (hu : u.head? ≠ some 0x3a) :
    gwPasses prev c (0x3a :: u) ↔
      (u = [] → prev = some 0x3a) ∧ c.colNo < 7 ∧ gwPasses (some 0x3a) (c.behind false) u := by
  have hnot : ∀ {t : List Byte}, ¬0x3a :: t <+: u := by
    rintro t ⟨v, rfl⟩
    exact hu rfl
  unfold gwPasses
  rw [gwLoop, gwStep, if_pos rfl, if_neg hnot, if_neg hnot]
  by_cases hend : u = [] → prev = some 0x3a
  · rw [gwColon_count hend]
    by_cases hroom : c.colNo < 7
    · rw [if_pos hroom]
      simp only [hroom, GwScan.behind, Run.ok_bind, Bool.toNat_false, Nat.add_zero, true_and]
      exact ⟨fun h => ⟨hend, h⟩, fun h => h.2⟩
    · rw [if_neg hroom]
      simp [hroom]
  · obtain ⟨hnil, hprev⟩ := Classical.not_imp.mp hend
    subst hnil
    rcases gwColon_end (c := c) hprev .next with h | h <;> rw [h] <;> simp [hprev]

/-- Two colons and no other behind them. -/
theorem gwPasses_colons (hu : u.head? ≠ some 0x3a) :
    gwPasses prev c (0x3a :: 0x3a :: u) ↔
      c.colCo = 0 ∧ c.colNo < 7 ∧ gwPasses (some 0x3a) (c.behind true) u := by
  have hnot : ¬[0x3a, 0x3a] <+: 0x3a :: u := by
    rintro ⟨v, hv⟩
    rw [List.cons_append, List.cons_append, List.cons.injEq] at hv
    exact hu (by rw [← hv.2]; rfl)
  unfold gwPasses
  rw [gwLoop, gwStep, if_pos rfl, if_neg hnot, if_pos ⟨u, rfl⟩]
  by_cases hone : 1 ≤ c.colCo
  · rw [if_pos hone]
    have : c.colCo ≠ 0 := by omega
    simp [this]
  · have hzero : c.colCo = 0 := by omega
    rw [if_neg hone, gwColon_count fun _ => rfl]
    by_cases hroom : c.colNo < 7
    · rw [if_pos hroom]
      simp [hzero, hroom, GwScan.behind]
    · rw [if_neg hroom]
      simp [hroom]

/-- Three colons. -/
theorem gwPasses_three : ¬gwPasses prev c (0x3a :: 0x3a :: 0x3a :: u) := by
  unfold gwPasses
  rw [gwLoop, gwStep, if_pos rfl, if_pos ⟨u, rfl⟩]
  exact fun h => nomatch h

end Steps

/-! ### The pieces of what is let through -/

section Pieces

variable {prev : Option Byte} {c : GwScan} {u : List Byte}

/-- The counters behind the digits of a piece. -/
def GwScan.digits (c : GwScan) (ds : List Byte) : GwScan := { c with hex := c.hex + ds.length }

/-- **Hexadecimal digits** are let through up to the fourth of a piece. -/
theorem gwPasses_digits {ds : List Byte} (hds : ∀ b ∈ ds, isHexDigit b = true) (hc : c.hex ≤ 4) :
    gwPasses prev c (ds ++ u) ↔
      c.hex + ds.length ≤ 4 ∧ gwPasses (lastOf prev ds) (c.digits ds) u := by
  induction ds generalizing prev c with
  | nil => simp [lastOf, GwScan.digits, hc]
  | cons b ds ih =>
      have hcount : ∀ hex : Nat, hex + (b :: ds).length = hex + 1 + ds.length := fun hex => by
        rw [List.length_cons]
        omega
      have htail : ∀ x ∈ ds, isHexDigit x = true := fun x hx => hds x (List.mem_cons_of_mem b hx)
      rw [List.cons_append, gwPasses_hex (hds b List.mem_cons_self), hcount, GwScan.digits, hcount]
      constructor
      · rintro ⟨hroom, h⟩
        exact (ih (c := { c with hex := c.hex + 1 }) htail hroom).mp h
      · rintro ⟨hlen, h⟩
        have hroom : c.hex < 4 := by omega
        exact ⟨hroom, (ih (c := { c with hex := c.hex + 1 }) htail hroom).mpr ⟨hlen, h⟩⟩

/-- **A separator** is let through up to the seventh, and `::` once. -/
theorem gwPasses_separator {gap : Bool} (hu : u.head? ≠ some 0x3a) :
    gwPasses prev c (separator gap ++ u) ↔
      (gap = false → u = [] → prev = some 0x3a) ∧ (gap = true → c.colCo = 0) ∧ c.colNo < 7 ∧
      gwPasses (some 0x3a) (c.behind gap) u := by
  cases gap with
  | false =>
      rw [separator, if_neg Bool.false_ne_true, List.singleton_append, gwPasses_colon hu]
      simp only [forall_const, Bool.false_eq_true, false_imp_iff, true_and]
  | true =>
      rw [separator, if_pos rfl, List.cons_append, List.singleton_append, gwPasses_colons hu]
      simp only [forall_const, Bool.true_eq_false, false_imp_iff, true_and]

/-- Colons that are let through are one or two. -/
theorem exists_colons (h : gwPasses prev c (0x3a :: u)) :
    ∃ gap v, 0x3a :: u = separator gap ++ v ∧ v.head? ≠ some 0x3a := by
  match u, h with
  | [], _ => exact ⟨false, [], rfl, fun h => nomatch h⟩
  | [b], _ =>
      by_cases hb : b = 0x3a
      · exact ⟨true, [], by rw [hb]; rfl, fun h => nomatch h⟩
      · exact ⟨false, [b], rfl, fun h => hb (Option.some.inj h)⟩
  | b :: d :: u, h =>
      by_cases hb : b = 0x3a
      · refine ⟨true, d :: u, by rw [hb]; rfl, fun hd => ?_⟩
        rw [hb, Option.some.inj hd] at h
        exact gwPasses_three h
      · exact ⟨false, b :: d :: u, rfl, fun h => hb (Option.some.inj h)⟩

/-- The digits at the front of what is let through, and the colon behind them. -/
theorem exists_gwDigits (hnul : 0 ∉ u) (hhex : c.hex = 0) (h : gwPasses prev c u) :
    ∃ p r, u = p ++ r ∧ (∀ b ∈ p, isHexDigit b = true) ∧ p.length ≤ 4 ∧
      gwPasses (lastOf prev p) (c.digits p) r ∧ (r = [] ∨ ∃ t, r = 0x3a :: t) := by
  have hsplit := List.takeWhile_append_dropWhile (p := isHexDigit) (l := u)
  have hp : ∀ b ∈ u.takeWhile isHexDigit, isHexDigit b = true := fun b hb =>
    List.mem_takeWhile_imp hb
  rw [← hsplit, gwPasses_digits hp (by rw [hhex]; exact Nat.zero_le 4), hhex, Nat.zero_add] at h
  refine ⟨_, _, hsplit.symm, hp, h.1, h.2, ?_⟩
  cases hr : u.dropWhile isHexDigit with
  | nil => exact .inl rfl
  | cons b t =>
      have hstop := dropWhile_stop hr
      have hne : b ≠ 0 := fun e => hnul (by rw [← hsplit, hr, e]; simp)
      by_cases hcolon : b = 0x3a
      · exact .inr ⟨t, by rw [hcolon]⟩
      · rw [hr] at h
        exact absurd h.2 (gwPasses_other hstop hcolon hne)

/-- Digits are no colon. -/
theorem lastOf_ne_colon {ds : List Byte} (hds : ∀ b ∈ ds, isHexDigit b = true)
    (hprev : prev ≠ some 0x3a) : lastOf prev ds ≠ some 0x3a := by
  by_cases hnil : ds = []
  · rw [hnil]
    exact hprev
  · obtain ⟨b, hb, hlast⟩ := exists_lastOf prev hnil
    rw [hlast]
    exact fun h => (isHexDigit_ne (hds b hb)).1 (Option.some.inj h)

/-- Seven separators at most, with those already met, one `::` among them and no dots. -/
structure GwCounts (c : GwScan) (p : List Byte) (rest : Rest) : Prop where
  separators : c.colNo + rest.length ≤ 7
  oneGap : c.colCo + gaps rest ≤ 1
  noDot : 0x2e ∉ last p rest

theorem gaps_cons (gap : Bool) (p : List Byte) (rest : Rest) :
    gaps ((gap, p) :: rest) = gap.toNat + gaps rest := by
  cases gap <;> simp [gaps, Nat.add_comm]

/-- A piece more. -/
theorem gwCounts_cons {gap : Bool} {p q : List Byte} {rest : Rest} :
    GwCounts c p ((gap, q) :: rest) ↔ GwCounts ((c.digits p).behind gap) q rest := by
  have hcount : (c.digits p).colNo + 1 + rest.length = c.colNo + (rest.length + 1) := by
    show c.colNo + 1 + rest.length = _
    omega
  have hgaps : c.colCo + gaps ((gap, q) :: rest) = (c.digits p).colCo + gap.toNat + gaps rest := by
    rw [gaps_cons, ← Nat.add_assoc]
    rfl
  constructor
  · rintro ⟨hno, hone, hdot⟩
    exact ⟨hcount ▸ hno, hgaps ▸ hone, hdot⟩
  · rintro ⟨hno, hone, hdot⟩
    exact ⟨hcount ▸ hno, hgaps ▸ hone, hdot⟩

/-- **What is let through** behind a separator is pieces. -/
theorem exists_gwPieces {gap : Bool} {prev : Option Byte} {c : GwScan} {u : List Byte}
    (hnul : 0 ∉ u) (hhex : c.hex = 0) (hcolon : u.head? ≠ some 0x3a) (hend : gap = false → u ≠ [])
    (hno : c.colNo ≤ 7) (hco : c.colCo ≤ 1) (h : gwPasses prev c u) :
    ∃ p rest, u = p ++ restText rest ∧ Follows 4 gap p rest ∧ GwCounts c p rest := by
  obtain ⟨p, r, hu, hp, hlen, hloop, rfl | ⟨t, rfl⟩⟩ := exists_gwDigits hnul hhex h
  · -- the last piece
    refine ⟨p, [], hu, ?_, hno, hco, not_dot_mem hp⟩
    by_cases hnil : p = []
    · refine .inr (.inr ⟨?_, hnil⟩)
      cases gap with
      | true => rfl
      | false => exact absurd (by rw [hu, hnil]; rfl) (hend rfl)
    · exact .inl ⟨hnil, hlen, hp⟩
  · -- a separator
    have hnil : p ≠ [] := by
      rintro rfl
      rw [hu] at hcolon
      exact hcolon rfl
    obtain ⟨g, v, hsep, hv⟩ := exists_colons hloop
    rw [hsep, gwPasses_separator hv] at hloop
    obtain ⟨hlast, hgap, hroom, hrest⟩ := hloop
    have hlt : v.length < u.length := by
      have hlen := congrArg List.length hsep
      rw [hu, List.length_append]
      cases g <;> simp [separator] at hlen ⊢ <;> omega
    have hne : lastOf prev p ≠ some 0x3a := by
      obtain ⟨b, hb, hlast⟩ := exists_lastOf prev hnil
      rw [hlast]
      exact fun h => (isHexDigit_ne (hp b hb)).1 (Option.some.inj h)
    have hone : ((c.digits p).behind g).colCo ≤ 1 := by
      show c.colCo + g.toNat ≤ 1
      cases g with
      | false => exact hco
      | true =>
          have hzero : c.colCo = 0 := hgap rfl
          simp [hzero]
    obtain ⟨q, rest, hv', hfollows, hcounts⟩ := exists_gwPieces (c := (c.digits p).behind g)
      (fun hmem => hnul (by rw [hu, hsep]; simp [hmem])) rfl hv (fun hg hnil => hne (hlast hg hnil))
      hroom hone hrest
    refine ⟨p, (g, q) :: rest, ?_, ⟨⟨hnil, hlen, hp⟩, hfollows⟩, gwCounts_cons.mpr hcounts⟩
    rw [hu, hsep, hv']
    rfl
termination_by u.length

/-- A piece without dots has digits only. -/
theorem Follows.piece_hex {n : Nat} {gap : Bool} {p : List Byte} {rest : Rest}
    (h : Follows n gap p rest) (hdot : 0x2e ∉ last p rest) :
    p.length ≤ 4 ∧ ∀ b ∈ p, isHexDigit b = true := by
  cases rest with
  | cons x rest => exact h.1.2
  | nil =>
      rcases h with h | h | ⟨-, rfl⟩
      · exact h.2
      · exact absurd h.chars.2.1 hdot
      · exact ⟨Nat.zero_le 4, fun b hb => nomatch hb⟩

/-- What stands behind a separator does not begin with a colon. -/
theorem Follows.head_ne_colon {n : Nat} {gap : Bool} {p : List Byte} {rest : Rest}
    (h : Follows n gap p rest) :
    (p ++ restText rest).head? ≠ some 0x3a ∧ (gap = false → p ++ restText rest ≠ []) := by
  obtain ⟨hchars, hempty⟩ := h.chars
  cases p with
  | nil =>
      obtain ⟨hgap, rfl⟩ := hempty rfl
      exact ⟨fun h => (nomatch h), fun hg => absurd (hgap.symm.trans hg) (by decide)⟩
  | cons b p =>
      exact ⟨fun h => (hchars b List.mem_cons_self).1 (Option.some.inj h),
        fun _ => List.cons_ne_nil _ _⟩

/-- **Pieces that follow a separator** are let through. -/
theorem gwPasses_pieces : ∀ {rest : Rest} {gap : Bool} {p : List Byte} {prev : Option Byte}
    {c : GwScan}, c.hex = 0 → Follows 4 gap p rest → GwCounts c p rest →
    gwPasses prev c (p ++ restText rest)
  | [], gap, p, prev, c, hhex, hfollows, hcounts => by
      obtain ⟨hlen, hp⟩ := Follows.piece_hex (show Follows 4 gap p [] from hfollows) hcounts.noDot
      rw [gwPasses_digits hp (by rw [hhex]; exact Nat.zero_le 4), hhex, Nat.zero_add]
      exact ⟨hlen, gwPasses_nil⟩
  | (g, q) :: rest, gap, p, prev, c, hhex, hfollows, hcounts => by
      obtain ⟨hlen, hp⟩ := hfollows.1.2
      obtain ⟨hcolon, hend⟩ := Follows.head_ne_colon hfollows.2
      have hcounts' := gwCounts_cons.mp hcounts
      have hno := hcounts.separators
      have hone := hcounts.oneGap
      rw [List.length_cons] at hno
      rw [gaps_cons] at hone
      rw [gwPasses_digits hp (by rw [hhex]; exact Nat.zero_le 4), hhex, Nat.zero_add]
      refine ⟨hlen, (gwPasses_separator hcolon).mpr ⟨fun hg hnil => absurd hnil (hend hg),
        fun hg => ?_, ?_, gwPasses_pieces rfl hfollows.2 hcounts'⟩⟩
      · rw [hg, Bool.toNat_true] at hone
        show c.colCo = 0
        omega
      · show c.colNo < 7
        omega

/-- A part that the loop lets through: up to eight groups with a colon between them, one `::` at
most in place of a colon, and a colon at the front or not. -/
def ColonPart (u : List Byte) : Prop :=
  ∃ x : Text, u = x.text ∧ (IsGroup x.first ∨ x.first = []) ∧ Follows 4 x.gap x.second x.rest ∧
    ¬x.HasQuad ∧ x.tail.length ≤ 7 ∧ gaps x.tail ≤ 1

/-- **A part with a colon** is let through if it has that form. -/
theorem gwLoop_iff (hprev : prev ≠ some 0x3a) (hnul : 0 ∉ u) (hcolon : 0x3a ∈ u) :
    gwLoop prev ⟨0, 0, 0⟩ u = .ok true ↔ ColonPart u := by
  have hdigits : ∀ {x : List Byte}, IsGroup x ∨ x = [] →
      x.length ≤ 4 ∧ ∀ b ∈ x, isHexDigit b = true := by
    rintro x (h | rfl)
    · exact h.2
    · exact ⟨Nat.zero_le 4, fun b hb => nomatch hb⟩
  constructor
  · intro h
    obtain ⟨p, r, hu, hp, hlen, hloop, rfl | ⟨t, rfl⟩⟩ :=
      exists_gwDigits (c := ⟨0, 0, 0⟩) hnul rfl h
    · rw [hu, List.append_nil] at hcolon
      exact absurd rfl (isHexDigit_ne (hp _ hcolon)).1
    · obtain ⟨g, v, hsep, hv⟩ := exists_colons hloop
      rw [hsep, gwPasses_separator hv] at hloop
      obtain ⟨hlast, -, hroom, hrest⟩ := hloop
      have hne := lastOf_ne_colon hp hprev
      have hgap : 0 + g.toNat ≤ 1 := by cases g <;> decide
      obtain ⟨q, rest, hv', hfollows, hcounts⟩ := exists_gwPieces
        (c := (GwScan.digits ⟨0, 0, 0⟩ p).behind g)
          (fun hmem => hnul (by rw [hu, hsep]; simp [hmem]))
        rfl hv (fun hg hnil => hne (hlast hg hnil)) hroom hgap hrest
      have hcounts' := gwCounts_cons.mpr hcounts
      have hno := hcounts'.separators
      have hone := hcounts'.oneGap
      rw [Nat.zero_add] at hno hone
      refine ⟨⟨p, g, q, rest⟩, ?_, ?_, hfollows, hcounts.noDot, hno, hone⟩
      · rw [hu, hsep, hv']
        rfl
      · by_cases hnil : p = []
        · exact .inr hnil
        · exact .inl ⟨hnil, hlen, hp⟩
  · rintro ⟨x, rfl, hfirst, hfollows, hquad, hno, hone⟩
    obtain ⟨hlen, hp⟩ := hdigits hfirst
    obtain ⟨hv, hend⟩ := Follows.head_ne_colon hfollows
    have hcounts : GwCounts ⟨0, 0, 0⟩ x.first x.tail :=
      ⟨by rwa [Nat.zero_add], by rwa [Nat.zero_add], hquad⟩
    show gwPasses prev ⟨0, 0, 0⟩ (x.first ++ (separator x.gap ++ (x.second ++ restText x.rest)))
    rw [gwPasses_digits hp (Nat.zero_le 4), Nat.zero_add]
    exact ⟨hlen, (gwPasses_separator hv).mpr ⟨fun hg hnil => absurd hnil (hend hg), fun _ => rfl,
      by show 0 < 7; decide, gwPasses_pieces rfl hfollows (gwCounts_cons.mp hcounts)⟩⟩

end Pieces

/-! ### The first part -/

section Part

variable {prev : Option Byte} {p : CStr}

theorem gwPart_eq (hne : p.bytes ≠ []) :
    gwPart prev p =
      if p.bytes.head? = some 0x3a ∨ p.bytes.getLast? = some 0x3a then gwLoop prev ⟨0, 0, 0⟩ p.bytes
      else scValidIPv6 p false := by
  rw [gwPart, List.getLast?_eq_some_getLast hne]
  dsimp only
  by_cases hends : p.bytes.head? = some 0x3a ∨ p.bytes.getLast hne = 0x3a
  · rw [if_neg (by tauto), if_pos (by rwa [Option.some_inj])]
  · rw [if_pos (by tauto), if_neg (by rwa [Option.some_inj])]

/-- **The check returns** unless it reads before a part that is a colon. -/
theorem gwPart_ok (hne : p.bytes ≠ []) (h : prev ≠ none ∨ p.bytes ≠ [0x3a]) :
    ∃ r, gwPart prev p = .ok r := by
  rw [gwPart_eq hne]
  split
  · exact gwLoop_ok h
  · obtain ⟨r, hr, -⟩ := scValidIPv6_accepts p false
    exact ⟨r, hr⟩

/-- A colon alone makes it read before the part. -/
theorem gwPart_colon (hp : p.bytes = [0x3a]) : gwPart none p = .error (.outside .buff) := by
  rw [gwPart_eq (by rw [hp]; exact List.cons_ne_nil _ _), hp, if_pos (.inl rfl)]
  decide +kernel

/-- A first part that is let through. -/
def GatewayPart (p : CStr) : Prop :=
  if p.bytes.head? = some 0x3a ∨ p.bytes.getLast? = some 0x3a then ColonPart p.bytes
  else scValidIPv6 p false = .ok true

theorem gwPart_eq_true (hprev : prev ≠ some 0x3a) (hne : p.bytes ≠ []) :
    gwPart prev p = .ok true ↔ GatewayPart p := by
  rw [gwPart_eq hne, GatewayPart]
  by_cases hends : p.bytes.head? = some 0x3a ∨ p.bytes.getLast? = some 0x3a
  · have hmem : 0x3a ∈ p.bytes := hends.elim List.mem_of_head? List.mem_of_getLast?
    rw [if_pos hends, if_pos hends, gwLoop_iff hprev p.noNul hmem]
  · rw [if_neg hends, if_neg hends]

end Part

/-! ### The whole text -/

section Whole

variable {ipStr p s : CStr}

/-- `*(p-1)` is a slash, or lies before the text. -/
theorem before_ne_colon : ipStr.bytes.head?.filter (· = 0x2f) ≠ some 0x3a := by
  intro h
  obtain ⟨-, hslash⟩ := Option.filter_eq_some_iff.mp h
  exact absurd hslash (by decide)

/-- The parts behind the first slash of a text that does not begin with one. -/
theorem strtok_of_head (h : ipStr.strtok [0x2f] = some (p, s))
    (hhead : ipStr.bytes.head?.filter (· = 0x2f) = none) :
    p.bytes = ipStr.bytes.takeWhile (· ≠ 0x2f) := by
  refine strtok_front (CStr.strtok_eq_some.mp h) fun hslash => ?_
  rw [hslash] at hhead
  cases hhead

/-- The first part lets the function go on to what stands behind it. -/
theorem scValidGWv6_token (hlen : ipStr.length ≤ 45) (h : ipStr.strtok [0x2f] = some (p, s))
    (hcolon : ipStr.bytes.takeWhile (· ≠ 0x2f) ≠ [0x3a]) :
    (∃ r, scValidGWv6 ipStr = .ok r) ↔ (GatewayPart p → s.strtok [0x2f] ≠ none) := by
  have hne := (strtok_token (CStr.strtok_eq_some.mp h)).1
  rw [← gwPart_eq_true before_ne_colon hne, scValidGWv6, if_neg (by omega), h]
  dsimp only
  obtain ⟨r, hr⟩ : ∃ r, gwPart (ipStr.bytes.head?.filter (· = 0x2f)) p = .ok r := by
    refine gwPart_ok hne (Classical.or_iff_not_imp_left.mpr fun hnone => ?_)
    rwa [strtok_of_head h (Classical.not_not.mp hnone)]
  rw [hr, Run.ok_bind]
  cases r with
  | false => simp
  | true =>
      cases hs : s.strtok [0x2f] with
      | none => simp
      | some t => simp

/-- A text with nothing but slashes behind its first part is never accepted. -/
theorem scValidGWv6_unfollowed (h : ipStr.strtok [0x2f] = some (p, s))
    (hs : s.strtok [0x2f] = none) :
    scValidGWv6 ipStr ≠ .ok true := by
  rw [scValidGWv6]
  split
  · exact fun h => nomatch h
  rw [h]
  dsimp only
  rw [hs]
  cases gwPart (ipStr.bytes.head?.filter (· = 0x2f)) p with
  | error f => exact fun h => nomatch h
  | ok r => cases r <;> exact fun h => nomatch h

/-- **A text without a slash** is never accepted. -/
theorem scValidGWv6_noSlash (hslash : 0x2f ∉ ipStr.bytes) : scValidGWv6 ipStr ≠ .ok true := by
  by_cases hnil : ipStr.bytes = []
  · have htok : ipStr.strtok [0x2f] = none :=
      CStr.strtok_eq_none.mpr (strtok_eq_none.mpr (by rw [hnil]; exact fun b hb => nomatch hb))
    rw [scValidGWv6, htok]
    split
    · exact fun h => nomatch h
    · rw [gwPart, hnil]
      exact fun h => nomatch h
  · have htok : ipStr.strtok [0x2f] = some (ipStr, .empty) :=
      CStr.strtok_eq_some.mpr (strtok_last hnil hslash)
    exact scValidGWv6_unfollowed htok rfl

/-- What the function is for: it returns, and of the texts without a slash it accepts the
addresses. -/
def SafeGateway (ipStr : CStr) : Prop :=
  ∃ r, scValidGWv6 ipStr = .ok r ∧ (0x2f ∉ ipStr.bytes → (r = true ↔ IsAddress ipStr.bytes))

/-- The texts that `scValidGWv6` handles. -/
structure GatewayInput (ipStr : CStr) : Prop where
  /-- the text fits into `buff` -/
  fits : ipStr.length ≤ 45
  nonempty : ipStr.bytes ≠ []
  /-- no colon alone in front of the first slash -/
  colon : ipStr.bytes.takeWhile (· ≠ 0x2f) ≠ [0x3a]
  /-- a first part that is let through has another one behind it -/
  followed : ∀ p s, ipStr.strtok [0x2f] = some (p, s) → GatewayPart p → ∃ b ∈ s.bytes, b ≠ 0x2f
  /-- the text is no address without a prefix length -/
  noAddress : 0x2f ∉ ipStr.bytes → ¬IsAddress ipStr.bytes

theorem strtok_ne_none_iff : s.strtok [0x2f] ≠ none ↔ ∃ b ∈ s.bytes, b ≠ 0x2f := by
  rw [ne_eq, CStr.strtok_eq_none, strtok_eq_none]
  simp

/-- **`scValidGWv6` returns** for the texts that fit, are not empty, have no colon alone in front
and something behind a first part that is let through. -/
theorem scValidGWv6_returns :
    (∃ r, scValidGWv6 ipStr = .ok r) ↔ ipStr.length ≤ 45 ∧ ipStr.bytes ≠ [] ∧
      ipStr.bytes.takeWhile (· ≠ 0x2f) ≠ [0x3a] ∧
      ∀ p s, ipStr.strtok [0x2f] = some (p, s) → GatewayPart p → ∃ b ∈ s.bytes, b ≠ 0x2f := by
  by_cases hlen : 46 ≤ ipStr.length
  · rw [scValidGWv6, if_pos hlen]
    constructor
    · rintro ⟨r, hr⟩
      cases hr
    · exact fun h => absurd h.1 (by omega)
  have hfits : ipStr.length ≤ 45 := by omega
  cases htok : ipStr.strtok [0x2f] with
  | none =>
      have hall := strtok_eq_none.mp (CStr.strtok_eq_none.mp htok)
      have hpart : scValidGWv6 ipStr = gwPart none ipStr := by
        rw [scValidGWv6, if_neg hlen, htok]
      rw [hpart]
      constructor
      · rintro ⟨r, hr⟩
        have hne : ipStr.bytes ≠ [] := by
          intro hnil
          rw [gwPart, hnil] at hr
          cases hr
        refine ⟨hfits, hne, fun hcolon => ?_, fun p s h => nomatch h⟩
        have hmem : 0x3a ∈ ipStr.bytes.takeWhile (· ≠ 0x2f) := by
          rw [hcolon]
          exact List.mem_singleton_self _
        exact absurd (hall _ ((List.takeWhile_sublist _).subset hmem)) (by decide)
      · rintro ⟨-, hne, -, -⟩
        refine gwPart_ok hne (.inr fun hcolon => ?_)
        exact absurd (hall 0x3a (by rw [hcolon]; exact List.mem_singleton_self _)) (by decide)
  | some t =>
      obtain ⟨p, s⟩ := t
      have hne : ipStr.bytes ≠ [] := by
        intro hnil
        have := CStr.strtok_eq_some.mp htok
        rw [hnil] at this
        cases this
      by_cases hcolon : ipStr.bytes.takeWhile (· ≠ 0x2f) = [0x3a]
      · -- `*(p-1)` lies before `buff`
        obtain ⟨b, u, hb⟩ := List.exists_cons_of_ne_nil hne
        have hfirst : b ≠ 0x2f := by
          rintro rfl
          rw [hb] at hcolon
          cases hcolon
        have hbefore : ipStr.bytes.head?.filter (· = 0x2f) = none := by
          rw [hb]
          simp [hfirst]
        have hp : p.bytes = [0x3a] := (strtok_of_head htok hbefore).trans hcolon
        have hfault : scValidGWv6 ipStr = .error (.outside .buff) := by
          rw [scValidGWv6, if_neg hlen, htok]
          dsimp only
          rw [hbefore, gwPart_colon hp]
          rfl
        rw [hfault]
        exact iff_of_false (fun ⟨r, hr⟩ => nomatch hr) fun h => h.2.2.1 hcolon
      · rw [scValidGWv6_token hfits htok hcolon, strtok_ne_none_iff]
        constructor
        · rintro h
          refine ⟨hfits, hne, hcolon, fun p' s' h' => ?_⟩
          obtain ⟨rfl, rfl⟩ := Prod.mk.inj (Option.some.inj h')
          exact h
        · exact fun h => h.2.2.2 p s rfl

/-- **`scValidGWv6` does what it should** on those texts only, and on those that are an address it
does not. -/
theorem scValidGWv6_safe (ipStr : CStr) : SafeGateway ipStr ↔ GatewayInput ipStr := by
  have hreturns := @scValidGWv6_returns ipStr
  constructor
  · rintro ⟨r, hr, haddress⟩
    obtain ⟨hfits, hne, hcolon, hfollowed⟩ := hreturns.mp ⟨r, hr⟩
    refine ⟨hfits, hne, hcolon, hfollowed, fun hslash h => ?_⟩
    have htrue := (haddress hslash).mpr h
    rw [htrue] at hr
    exact scValidGWv6_noSlash hslash hr
  · rintro ⟨hfits, hne, hcolon, hfollowed, hno⟩
    obtain ⟨r, hr⟩ := hreturns.mpr ⟨hfits, hne, hcolon, hfollowed⟩
    refine ⟨r, hr, fun hslash => iff_of_false (fun htrue => ?_) (hno hslash)⟩
    rw [htrue] at hr
    exact scValidGWv6_noSlash hslash hr

/-- **A plain address** makes the function read behind the null pointer. -/
theorem scValidGWv6_plain : ¬SafeGateway (.text "fe80::1") := by
  rintro ⟨r, hr, -⟩
  have hfault : scValidGWv6 (.text "fe80::1") = .error (.null .token) := by decide +kernel
  rw [hfault] at hr
  cases hr

end Whole

end Wap4410n.Utility
