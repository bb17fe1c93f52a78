import Mathlib.Data.List.Basic
import Wap4410n.Support.CString

/-!
# Utility — e-mail addresses

`scValidEmailAddr` looks for the first `@` and for the last dot, each on its own.  The dot has to be
the third or the fourth character from the end, wherever the `@` is, and every character but the
first `@` is looked up in a list of those that are invalid, the `@` among them.

* `scValidEmailAddr_iff`: the texts the function accepts.
* `wellJudged_iff`: it accepts addresses only, and all plain ones, but where the `@` stands at the
  front or behind the last dot.
-/

namespace Wap4410n.Utility

open CLib

/-! ### `scValidEmailAddr` -/

/-- `InvalidStr`: "except '_', '.', '|'" -/
def invalidStr : CStr :=
  .text "\x60~!@#$%^&*-+=\x5c\x22'()[]\x7b\x7d;:,<>?/ "

/-- `while((dot = strchr(lastdot+1, '.')) != NULL) lastdot = dot;`, over what stands behind
`lastdot`, the first of it at `i`. -/
def lastDot : List Byte → Nat → Nat → Nat
  | [], _, lastdot => lastdot
  | c :: s, i, lastdot => lastDot s (i + 1) (if c = 0x2e then i else lastdot)

/-- `for(; start < end; start++)`, from the character at `i` on; `strchr` finds a NUL, too. -/
def scanEmail (sign : Nat) : List Byte → Nat → Bool
  | [], _ => true
  | c :: s, i =>
    if i = sign then scanEmail sign s (i + 1)
    else if c ∈ invalidStr.mem then false
    else scanEmail sign s (i + 1)

def scValidEmailAddr (email : CStr) (len : Byte) : Bool :=
  match email.bytes.findIdx? (· = 0x40) with
  | none => false
  | some sign =>
    if email.bytes.head? = some 0x2e then false
    else
      let lastdot := lastDot email.bytes.tail 1 0
      let rest : Int := len.toNat - lastdot
      if lastdot = 0 ∨ (rest ≠ 3 ∧ rest ≠ 4) then false
      else scanEmail sign (email.mem.take len.toNat) 0

/-! ### Addresses -/

/-- The last dot has two or three characters behind it. -/
def ShortLabel (s : List Byte) : Prop :=
  ∃ host label, s = host ++ 0x2e :: label ∧ (0x2e : Byte) ∉ label ∧
    (label.length = 2 ∨ label.length = 3)

/-- One `@`, something before it, and a domain behind it whose last label is short. -/
def IsEmailAddress (s : List Byte) : Prop :=
  ∃ user domain, s = user ++ 0x40 :: domain ∧ (0x40 : Byte) ∉ user ∧ (0x40 : Byte) ∉ domain ∧
    user ≠ [] ∧ ShortLabel domain

/-- A letter, a digit, `_`, `.` or `|`. -/
def Plain (b : Byte) : Prop :=
  (0x41 ≤ b ∧ b ≤ 0x5a) ∨ (0x61 ≤ b ∧ b ≤ 0x7a) ∨ (0x30 ≤ b ∧ b ≤ 0x39) ∨ b ∈ ascii ['_', '.', '|']

instance (b : Byte) : Decidable (Plain b) := inferInstanceAs (Decidable (_ ∨ _ ∨ _ ∨ _))

/-- What is accepted is an address, and a plain address without a dot at its front is accepted. -/
def WellJudged (email : CStr) : Prop :=
  (scValidEmailAddr email (.ofNat email.length) = true → IsEmailAddress email.bytes) ∧
  (IsEmailAddress email.bytes → (∀ b ∈ email.bytes, b = 0x40 ∨ Plain b) →
    email.bytes.head? ≠ some 0x2e → scValidEmailAddr email (.ofNat email.length) = true)

/-- One `@`, no invalid character beside it, no dot at the front, and a short last label, be it in
the domain or not. -/
structure Spelled (s user domain : List Byte) : Prop where
  split : s = user ++ 0x40 :: domain
  valid : ∀ b ∈ user ++ domain, b ∉ invalidStr.bytes
  front : s.head? ≠ some 0x2e
  label : ShortLabel s

/-- The `@` of such a text stands at the front, or behind the last dot. -/
def Misplaced (s : List Byte) : Prop :=
  ∃ user domain, Spelled s user domain ∧ (user = [] ∨ (0x2e : Byte) ∉ domain)

/-! ### The last dot -/

theorem lastDot_of_notMem {s : List Byte} (h : (0x2e : Byte) ∉ s) (i lastdot : Nat) :
    lastDot s i lastdot = lastdot := by
  induction s generalizing i with
  | nil => rfl
  | cons c s ih =>
      obtain ⟨hc, hs⟩ := not_or.mp (mt List.mem_cons.mpr h)
      rw [lastDot, if_neg (Ne.symm hc), ih hs]

theorem lastDot_append (host : List Byte) {label : List Byte} (h : (0x2e : Byte) ∉ label)
    (i lastdot : Nat) : lastDot (host ++ 0x2e :: label) i lastdot = i + host.length := by
  induction host generalizing i lastdot with
  | nil =>
      rw [List.nil_append, lastDot, if_pos rfl, lastDot_of_notMem h]
      rfl
  | cons c host ih =>
      rw [List.cons_append, lastDot, ih, List.length_cons]
      omega

/-- The last of what occurs. -/
theorem exists_last {c : Byte} {s : List Byte} (h : c ∈ s) :
    ∃ front rest, s = front ++ c :: rest ∧ c ∉ rest := by
  obtain ⟨front, rest, hs, hfront⟩ := List.eq_append_cons_of_mem (List.mem_reverse.mpr h)
  refine ⟨rest.reverse, front.reverse, ?_, by rwa [List.mem_reverse]⟩
  rw [← List.reverse_reverse s, hs, List.reverse_append, List.reverse_cons, List.append_assoc]
  rfl

/-- **The last dot** behind the first character, as the third or fourth from the end. -/
theorem shortLabel_iff {s : List Byte} (hs : s ≠ []) (hfront : s.head? ≠ some 0x2e) :
    ShortLabel s ↔ ¬(lastDot s.tail 1 0 = 0 ∨
      (((s.length : Int) - lastDot s.tail 1 0) ≠ 3 ∧
        ((s.length : Int) - lastDot s.tail 1 0) ≠ 4)) := by
  obtain ⟨c, t, rfl⟩ := List.exists_cons_of_ne_nil hs
  rw [List.tail_cons]
  constructor
  · rintro ⟨host, label, hsplit, hlabel, hlen⟩
    cases host with
    | nil =>
        obtain ⟨rfl, -⟩ := List.cons.inj hsplit
        exact absurd rfl hfront
    | cons a host =>
        rw [List.cons_append] at hsplit
        obtain ⟨rfl, rfl⟩ := List.cons.inj hsplit
        rw [lastDot_append host hlabel]
        simp only [List.length_cons, List.length_append]
        omega
  · intro h
    by_cases hdot : (0x2e : Byte) ∈ t
    · obtain ⟨host, label, rfl, hlabel⟩ := exists_last hdot
      rw [lastDot_append host hlabel] at h
      simp only [List.length_cons, List.length_append] at h
      exact ⟨c :: host, label, rfl, hlabel, by omega⟩
    · exact absurd (.inl (lastDot_of_notMem hdot 1 0)) h

/-! ### The scan -/

/-- Behind the `@` every character is looked up. -/
theorem scanEmail_behind {sign : Nat} {s : List Byte} {i : Nat} (h : sign < i) :
    scanEmail sign s i = true ↔ ∀ b ∈ s, b ∉ invalidStr.mem := by
  induction s generalizing i with
  | nil => simp [scanEmail]
  | cons c s ih =>
      rw [scanEmail, if_neg (Nat.ne_of_gt h), List.forall_mem_cons]
      by_cases hc : c ∈ invalidStr.mem
      · rw [if_pos hc]
        exact iff_of_false Bool.false_ne_true fun h => h.1 hc
      · rw [if_neg hc, ih (Nat.lt_succ_of_lt h)]
        exact ⟨fun h => ⟨hc, h⟩, fun h => h.2⟩

/-- Every character but the first `@` is looked up. -/
theorem scanEmail_append (user domain : List Byte) (i : Nat) :
    scanEmail (i + user.length) (user ++ 0x40 :: domain) i = true ↔
      ∀ b ∈ user ++ domain, b ∉ invalidStr.mem := by
  induction user generalizing i with
  | nil =>
      rw [List.length_nil, Nat.add_zero, List.nil_append, List.nil_append, scanEmail, if_pos rfl]
      exact scanEmail_behind (Nat.lt_succ_self i)
  | cons c user ih =>
      have hnext : i + (c :: user).length = i + 1 + user.length := by
        rw [List.length_cons]
        omega
      rw [hnext, List.cons_append, List.cons_append, scanEmail, if_neg (by omega),
        List.forall_mem_cons]
      by_cases hc : c ∈ invalidStr.mem
      · rw [if_pos hc]
        exact iff_of_false Bool.false_ne_true fun h => h.1 hc
      · rw [if_neg hc, ih]
        exact ⟨fun h => ⟨hc, h⟩, fun h => h.2⟩

/-! ### What is accepted -/

/-- The first `@`. -/
theorem findIdx_at {user : List Byte} (h : (0x40 : Byte) ∉ user) (domain : List Byte) :
    (user ++ 0x40 :: domain).findIdx? (· = 0x40) = some user.length := by
  have hnone : user.findIdx? (· = 0x40) = none :=
    List.findIdx?_eq_none_iff.mpr fun b hb => decide_eq_false fun e => h (e ▸ hb)
  rw [List.findIdx?_append, hnone, Option.none_or, List.findIdx?_cons]
  simp

/-- The `@` is invalid itself, so that there is no other. -/
theorem Spelled.noAt {s user domain : List Byte} (h : Spelled s user domain) :
    (0x40 : Byte) ∉ user ∧ (0x40 : Byte) ∉ domain := by
  have hat : (0x40 : Byte) ∈ invalidStr.bytes := by decide
  exact ⟨fun hu => h.valid _ (List.mem_append_left _ hu) hat,
    fun hd => h.valid _ (List.mem_append_right _ hd) hat⟩

/-- **The function accepts** the texts spelled with one `@`, valid characters, no dot at the front
and a short last label. -/
theorem scValidEmailAddr_iff {email : CStr} (hlen : email.length ≤ 255) :
    scValidEmailAddr email (.ofNat email.length) = true ↔
      ∃ user domain, Spelled email.bytes user domain := by
  have hcount : (UInt8.ofNat email.length).toNat = email.bytes.length := by
    rw [UInt8.toNat_ofNat']
    exact Nat.mod_eq_of_lt (by omega)
  have htake : email.mem.take email.bytes.length = email.bytes := List.take_left
  by_cases hat : (0x40 : Byte) ∈ email.bytes
  · obtain ⟨user, domain, hsplit, huser⟩ := List.eq_append_cons_of_mem hat
    have hsign : email.bytes.findIdx? (· = 0x40) = some user.length := by
      rw [hsplit]
      exact findIdx_at huser domain
    rw [scValidEmailAddr, hsign]
    dsimp only
    rw [hcount, htake]
    by_cases hfront : email.bytes.head? = some 0x2e
    · rw [if_pos hfront]
      exact iff_of_false Bool.false_ne_true fun ⟨_, _, h⟩ => h.front hfront
    rw [if_neg hfront]
    have hlabel := shortLabel_iff (List.ne_nil_of_mem hat) hfront
    by_cases hshort : ShortLabel email.bytes
    · have hscan := scanEmail_append user domain 0
      rw [Nat.zero_add, ← hsplit] at hscan
      rw [if_neg (hlabel.mp hshort), hscan]
      constructor
      · intro hvalid
        exact ⟨user, domain, hsplit, fun b hb h => hvalid b hb (List.mem_append_left _ h), hfront,
          hshort⟩
      · rintro ⟨user', domain', h⟩ b hb
        obtain ⟨hu, hd⟩ := h.noAt
        obtain ⟨rfl, -, rfl⟩ :=
          (List.append_cons_inj_of_notMem hu hd).mp (h.split.symm.trans hsplit)
        have hmem : b ∈ email.bytes := by
          rw [hsplit]
          simp only [List.mem_append, List.mem_cons] at hb ⊢
          tauto
        rw [CStr.mem, List.mem_append, List.mem_singleton, not_or]
        exact ⟨h.valid b hb, CStr.ne_zero hmem⟩
    · rw [if_pos (not_not.mp (mt hlabel.mpr hshort))]
      exact iff_of_false Bool.false_ne_true fun ⟨_, _, h⟩ => hshort h.label
  · have hnone : email.bytes.findIdx? (· = 0x40) = none :=
      List.findIdx?_eq_none_iff.mpr fun b hb => decide_eq_false fun e => hat (e ▸ hb)
    rw [scValidEmailAddr, hnone]
    refine iff_of_false Bool.false_ne_true fun ⟨_, _, h⟩ => hat ?_
    rw [h.split]
    simp

/-! ### What is an address -/

/-- A short label of the whole text is one of the domain, if that has a dot. -/
theorem shortLabel_domain {user domain : List Byte} (hdot : (0x2e : Byte) ∈ domain) :
    ShortLabel (user ++ 0x40 :: domain) ↔ ShortLabel domain := by
  constructor
  · rintro ⟨host, label, hsplit, hlabel, hlen⟩
    obtain ⟨front, rest, rfl, hrest⟩ := exists_last hdot
    have hwhole : (user ++ 0x40 :: front) ++ 0x2e :: rest = host ++ 0x2e :: label := by
      rw [← hsplit, List.append_assoc]
      rfl
    -- both are the last dot of the text
    have hplace := congrArg (lastDot · 0 0) hwhole
    simp only [lastDot_append _ hrest, lastDot_append _ hlabel, Nat.zero_add] at hplace
    obtain ⟨-, hlast⟩ := List.append_inj hwhole hplace
    obtain ⟨-, rfl⟩ := List.cons.inj hlast
    exact ⟨front, rest, rfl, hrest, hlen⟩
  · rintro ⟨host, label, rfl, hlabel, hlen⟩
    exact ⟨user ++ 0x40 :: host, label, by rw [List.append_assoc]; rfl, hlabel, hlen⟩

/-- A plain character is valid. -/
theorem plain_valid : ∀ b : Byte, Plain b → b ∉ invalidStr.bytes := forall_byte (by decide)

/-- **The e-mail addresses are judged well** just where the text is not one with its `@` at the
front or behind the last dot. -/
theorem wellJudged_iff (email : CStr) (hlen : email.length ≤ 255) :
    WellJudged email ↔ ¬Misplaced email.bytes := by
  have haccept := scValidEmailAddr_iff hlen
  constructor
  · rintro ⟨hsound, -⟩ ⟨user, domain, h, hplace⟩
    obtain ⟨hu, hd⟩ := h.noAt
    obtain ⟨user', domain', hsplit, hu', hd', hne, hshort⟩ := hsound (haccept.mpr ⟨user, domain, h⟩)
    obtain ⟨rfl, -, rfl⟩ := (List.append_cons_inj_of_notMem hu hd).mp (h.split.symm.trans hsplit)
    rcases hplace with hempty | hdot
    · exact hne hempty
    · obtain ⟨host, label, rfl, -, -⟩ := hshort
      exact hdot (by simp)
  · intro hwell
    constructor
    · intro hacc
      obtain ⟨user, domain, h⟩ := haccept.mp hacc
      obtain ⟨hu, hd⟩ := h.noAt
      have hplace : user ≠ [] ∧ (0x2e : Byte) ∈ domain := by
        by_contra hno
        exact hwell ⟨user, domain, h, by tauto⟩
      refine ⟨user, domain, h.split, hu, hd, hplace.1, ?_⟩
      have hshort := h.label
      rw [h.split] at hshort
      exact (shortLabel_domain hplace.2).mp hshort
    · rintro ⟨user, domain, hsplit, hu, hd, hne, hshort⟩ hplain hfront
      have hdot : (0x2e : Byte) ∈ domain := by
        obtain ⟨host, label, rfl, -, -⟩ := hshort
        simp
      refine haccept.mpr ⟨user, domain, hsplit, fun b hb => ?_, hfront, ?_⟩
      · have hmem : b ∈ email.bytes ∧ b ≠ 0x40 := by
          rw [hsplit]
          rcases List.mem_append.mp hb with hb | hb
          · exact ⟨by simp [hb], fun e => hu (e ▸ hb)⟩
          · exact ⟨by simp [hb], fun e => hd (e ▸ hb)⟩
        exact plain_valid b ((hplain b hmem.1).resolve_left hmem.2)
      · rw [hsplit]
        exact (shortLabel_domain hdot).mpr hshort

theorem wellJudged_iff_front : ¬WellJudged (.text "@a.co") := by
  have hvalid : ([] ++ (CStr.text "a.co").bytes).all (· ∉ invalidStr.bytes) = true := by decide
  exact (wellJudged_iff (.text "@a.co") (by decide)).not.mpr fun h => h
    ⟨[], (CStr.text "a.co").bytes, ⟨by decide,
      fun b hb => of_decide_eq_true (List.all_eq_true.mp hvalid b hb), by decide,
      (CStr.text "@a").bytes, (CStr.text "co").bytes, by decide, by decide, by decide⟩, .inl rfl⟩

/-- **An address without a dot behind its `@`** is accepted. -/
theorem emailAddr_dotless : ¬WellJudged (.text "a.@b") := by
  rintro ⟨hsound, -⟩
  obtain ⟨user, domain, hsplit, hu, hd, -, host, label, hdomain, -, -⟩ := hsound (by decide)
  have htext :
      (CStr.text "a.@b").bytes = (CStr.text "a.").bytes ++ 0x40 :: (CStr.text "b").bytes := by
    decide
  obtain ⟨-, -, rfl⟩ := (List.append_cons_inj_of_notMem hu hd).mp (hsplit.symm.trans htext)
  have hdot : (0x2e : Byte) ∈ (CStr.text "b").bytes := by
    rw [hdomain]
    simp
  exact absurd hdot (by decide)

end Wap4410n.Utility
