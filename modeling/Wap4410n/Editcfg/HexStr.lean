import Wap4410n.Editcfg.Assign

/-!
# Editcfg — texts of hexadecimal digits

`IsHexStr` reads pairs of digits, one right after the other or (`flag`) with one character between
them that it does not look at.  At the start of a pair it takes a wildcard for the rest of the text:
`i == (l+1)/2 && flag ? … : …` binds the index to the choice of the wildcard, so that six stars are
taken at every other index, whatever follows them.

* `isHexStr_iff`: what `IsHexStr` accepts.
* `assign_wellFormed_iff`: keys, addresses and addresses with a wildcard are imported well formed
  just from the values in which no wildcard is reached.
-/

namespace Wap4410n.Editcfg

open CLib Apcfg

/-! ### What `IsHexStr` accepts -/

/-- From one pair of digits to the next. -/
def pairStep (flag : Bool) : Nat := if flag then 3 else 2

/-- A text of digits; where pairs stand three apart the third character is free. -/
def DigitText (flag : Bool) (s : List Byte) : Prop :=
  ∀ i c, s[i]? = some c → (flag = true → i % 3 ≠ 2) → isHex c = true

/-- What is compared at the index `i` of a text of length `l`. -/
def wildcardAt (flag : Bool) (l i : Nat) : List Byte :=
  if i = (l + 1) / 2 ∧ flag then ascii "**:**:**".toList else ascii "******".toList

/-- Digits up to the index `i` of the text `s`, and a wildcard there, if `s` is the end of a text of
length `l` from its index `b` on. -/
def WildcardFrom (flag : Bool) (l b : Nat) (s : List Byte) : Prop :=
  ∃ k, DigitText flag (s.take (pairStep flag * k)) ∧
    wildcardAt flag l (b + pairStep flag * k) <+: s.drop (pairStep flag * k)

theorem isHex_star : isHex 0x2a = false := by decide

theorem wildcardAt_cons (flag : Bool) (l i : Nat) :
    ∃ s, wildcardAt flag l i = 0x2a :: s := by
  unfold wildcardAt
  split <;> exact ⟨_, rfl⟩

theorem digitText_nil (flag : Bool) : DigitText flag [] := fun _ _ h => by simp at h

/-- The first character of a text of digits is one. -/
theorem DigitText.head {flag : Bool} {c : Byte} {s : List Byte} (h : DigitText flag (c :: s)) :
    isHex c = true := h 0 c rfl (by simp)

theorem DigitText.second {flag : Bool} {c d : Byte} {s : List Byte}
    (h : DigitText flag (c :: d :: s)) : isHex d = true := h 1 d rfl (by simp)

/-- A pair of digits in front. -/
theorem digitText_pair {flag : Bool} {c d : Byte} (hc : isHex c = true) (hd : isHex d = true)
    (s : List Byte) : DigitText flag (c :: d :: s) ↔ DigitText flag (s.drop flag.toNat) := by
  cases flag with
  | false =>
      refine ⟨fun h i x hx hf => h (i + 2) x hx (fun e => Bool.noConfusion e),
        fun h i x hx hf => ?_⟩
      match i, hx with
      | 0, hx => cases hx; exact hc
      | 1, hx => cases hx; exact hd
      | i + 2, hx => exact h i x hx (fun e => Bool.noConfusion e)
  | true =>
      refine ⟨fun h i x hx hf => h (i + 3) x ?_ (fun _ => by have := hf rfl; omega),
        fun h i x hx hf => ?_⟩
      · simpa [Nat.add_comm] using hx
      · match i, hx with
        | 0, hx => cases hx; exact hc
        | 1, hx => cases hx; exact hd
        | 2, _ => exact absurd rfl (hf rfl)
        | i + 3, hx =>
            exact h i x (by simpa [Nat.add_comm] using hx) (fun _ => by have := hf rfl; omega)

/-- A digit in front, and nothing else. -/
theorem digitText_single {flag : Bool} {c : Byte} (hc : isHex c = true) : DigitText flag [c] := by
  intro i x hx _
  cases i with
  | zero => cases hx; exact hc
  | succ i => simp at hx

/-- No wildcard begins with a digit. -/
theorem not_wildcardAt_hex {flag : Bool} {l i : Nat} {c : Byte} {s : List Byte}
    (hc : isHex c = true) : ¬ wildcardAt flag l i <+: c :: s := by
  obtain ⟨w, hw⟩ := wildcardAt_cons flag l i
  rw [hw, List.cons_prefix_cons]
  rintro ⟨rfl, -⟩
  rw [isHex_star] at hc
  cases hc

/-- A pair of digits is passed, and the wildcard reached from behind it. -/
theorem wildcardFrom_pair {flag : Bool} {l b : Nat} {c d : Byte} (hc : isHex c = true)
    (hd : isHex d = true) (s : List Byte) :
    WildcardFrom flag l b (c :: d :: s) ↔
      WildcardFrom flag l (b + pairStep flag) (s.drop flag.toNat) := by
  have hstep : ∀ k, pairStep flag * (k + 1) = pairStep flag * k + flag.toNat + 2 := fun k => by
    cases flag <;> simp [pairStep] <;> omega
  have hbase : ∀ k, b + pairStep flag * (k + 1) = b + pairStep flag + pairStep flag * k :=
    fun k => by rw [Nat.mul_succ]; omega
  have htake : ∀ k, DigitText flag ((c :: d :: s).take (pairStep flag * (k + 1))) ↔
      DigitText flag ((s.drop flag.toNat).take (pairStep flag * k)) := fun k => by
    rw [hstep, List.take_succ_cons, List.take_succ_cons, digitText_pair hc hd, List.drop_take,
      Nat.add_sub_cancel]
  have hdrop : ∀ k, (c :: d :: s).drop (pairStep flag * (k + 1)) =
      (s.drop flag.toNat).drop (pairStep flag * k) := fun k => by
    rw [hstep, List.drop_succ_cons, List.drop_succ_cons, List.drop_drop, Nat.add_comm]
  constructor
  · rintro ⟨k, hpairs, hwild⟩
    cases k with
    | zero => exact absurd hwild (not_wildcardAt_hex hc)
    | succ k => exact ⟨k, (htake k).mp hpairs, by rwa [hdrop, hbase] at hwild⟩
  · rintro ⟨k, hpairs, hwild⟩
    exact ⟨k + 1, (htake k).mpr hpairs, by rwa [hdrop, hbase]⟩

/-- No wildcard is reached over a pair that is not one of digits. -/
theorem wildcardFrom_start {flag : Bool} {l b : Nat} {s : List Byte}
    (hpair : ¬ DigitText flag (s.take 2)) :
    WildcardFrom flag l b s ↔ wildcardAt flag l b <+: s := by
  constructor
  · rintro ⟨k, hpairs, hwild⟩
    cases k with
    | zero => exact hwild
    | succ k =>
        refine absurd (fun i c hi hf => hpairs i c ?_ hf) hpair
        have hlt : i < 2 := by
          by_contra hge
          rw [List.getElem?_eq_none (by rw [List.length_take]; omega)] at hi
          cases hi
        have hle : 2 ≤ pairStep flag * (k + 1) := by
          cases flag with
          | false => exact Nat.mul_le_mul_left 2 (Nat.succ_pos k)
          | true => exact Nat.le_trans (by decide) (Nat.mul_le_mul_left 3 (Nat.succ_pos k))
        rw [List.getElem?_take_of_lt hlt] at hi
        rwa [List.getElem?_take_of_lt (Nat.lt_of_lt_of_le hlt hle)]
  · exact fun h => ⟨0, digitText_nil flag, h⟩

/-- **What `IsHexStr` accepts**: digits, or digits up to a wildcard. -/
theorem isHexStr_iff (flag : Bool) (l i : Nat) (s : List Byte) :
    isHexStr flag l i s = true ↔ DigitText flag s ∨ WildcardFrom flag l i s := by
  fun_induction isHexStr flag l i s with
  | case1 i => simp [digitText_nil]
  | case2 i c hc => simp [digitText_single hc]
  | case3 i c hc d s ih =>
      have hi : (if flag = true then i + 3 else i + 2) = i + pairStep flag := by
        cases flag <;> rfl
      simp only [dite_eq_ite] at ih
      rw [hi] at ih
      rw [Bool.and_eq_true, hi]
      by_cases hd : isHex d = true
      · rw [ih, digitText_pair hc hd, wildcardFrom_pair hc hd]
        exact and_iff_right hd
      · have hno : ¬ DigitText flag (c :: d :: s) := fun h => hd h.second
        have hpair : ¬ DigitText flag ((c :: d :: s).take 2) := fun h => hd h.second
        rw [wildcardFrom_start hpair]
        simp [hd, hno, not_wildcardAt_hex hc]
  | case4 i c s hc hi =>
      have hno : ∀ t, ¬ DigitText flag (c :: t) := fun t h => hc h.head
      have hpair : ¬ DigitText flag ((c :: s).take 2) := hno _
      rw [wildcardFrom_start hpair, wildcardAt, if_pos hi, decide_eq_true_iff]
      exact (or_iff_right (hno s)).symm
  | case5 i c s hc hi =>
      have hno : ∀ t, ¬ DigitText flag (c :: t) := fun t h => hc h.head
      have hpair : ¬ DigitText flag ((c :: s).take 2) := hno _
      rw [wildcardFrom_start hpair, wildcardAt, if_neg hi, decide_eq_true_iff]
      exact (or_iff_right (hno s)).symm

/-! ### What is imported -/

/-- Three bytes, and the wildcard for the other three. -/
def WildText (flag : Bool) (s : List Byte) : Prop :=
  if flag then s.length = 17 ∧ DigitText true (s.take 9) ∧ s.drop 9 = ascii "**:**:**".toList
  else s.length = 12 ∧ DigitText false (s.take 6) ∧ s.drop 6 = ascii "******".toList

/-- The values of keys and addresses are imported well formed, from the text `value`. -/
structure WellFormed (value : CStr) : Prop where
  /-- a key is emptied, or becomes 10 or 26 digits -/
  key : ∀ (v : TextVar) (g g' : Globals), assignKey value g v = .ok g' → g'.text v ≠ g.text v →
    g'.text v = .empty ∧ (value = .empty ∨ isStarStr value = true) ∨
      ((g'.text v).length = 10 ∨ (g'.text v).length = 26) ∧ DigitText false (g'.text v).bytes
  /-- an address is cleared, or set from 12 digits or from six pairs -/
  mac : ∀ (v : MacVar) (g : Globals), (assignMac value g v).mac v ≠ g.mac v →
    value = .empty ∧ (assignMac value g v).mac v = .zero ∨
      value.length = 12 ∧ DigitText false value.bytes ∨ value.length = 17 ∧
      DigitText true value.bytes
  /-- an address that is appended is six pairs, or three and the wildcard -/
  scMac : ∀ g g' : Globals, assignScMacList value g = .ok g' →
    g'.rogueApMacList.mac = g.rogueApMacList.mac ∨ ∃ mac, mac.length = 17 ∧
      (DigitText true mac ∨ WildText true mac) ∧ g'.rogueApMacList.mac =
        Function.update g.rogueApMacList.mac g.rogueApMacList.outNo.toNat mac
  /-- `IsHexStr` takes digits, or three bytes and the wildcard -/
  hexStr : ∀ flag, isHexStr flag value.length 0 value.bytes = true ↔
    DigitText flag value.bytes ∨ WildText flag value.bytes

/-- No digits from the start of the text lead up to a wildcard. -/
def NoWildcard (value : CStr) : Prop :=
  ∀ flag, ¬ WildcardFrom flag value.length 0 value.bytes

/-- A text of digits, where nothing else is accepted. -/
theorem NoWildcard.hexStr {value : CStr} (h : NoWildcard value) {flag : Bool}
    (hs : isHexStr flag value.length 0 value.bytes = true) : DigitText flag value.bytes :=
  ((isHexStr_iff flag _ _ _).mp hs).resolve_right (h flag)

theorem length_scMacStr12ToStr17 (s : List Byte) : (scMacStr12ToStr17 s).length = 17 := by
  simp [scMacStr12ToStr17]

/-- The twelve digits of an address, with separators. -/
theorem digitText_scMacStr12ToStr17 {s : List Byte} (hl : s.length = 12) (h : DigitText false s) :
    DigitText true (scMacStr12ToStr17 s) := by
  intro i c hc hi
  have hlt : i < 17 := by
    have := List.getElem?_eq_some_iff.mp hc
    obtain ⟨hlt, -⟩ := this
    rwa [length_scMacStr12ToStr17] at hlt
  have hsep : ¬ (i + 1) % 3 = 0 := by have := hi rfl; omega
  have hin : i - i / 3 < s.length := by omega
  simp only [scMacStr12ToStr17, List.getElem?_map, List.getElem?_range hlt, Option.map_some,
    if_neg hsep, Option.some.injEq] at hc
  refine h (i - i / 3) c ?_ (fun e => Bool.noConfusion e)
  rw [List.getElem?_eq_getElem hin, ← hc]
  simp [hin]

/-- A text that leads up to a wildcard is not one of digits. -/
theorem WildcardFrom.not_digitText {flag : Bool} {l b : Nat} {s : List Byte}
    (h : WildcardFrom flag l b s) : ¬ DigitText flag s := by
  obtain ⟨k, -, hwild⟩ := h
  obtain ⟨w, hw⟩ := wildcardAt_cons flag l (b + pairStep flag * k)
  obtain ⟨t, ht⟩ := hw ▸ hwild
  intro hs
  have hstar : s[pairStep flag * k]? = some 0x2a := by
    rw [← Nat.add_zero (pairStep flag * k), ← List.getElem?_drop, ← ht]
    rfl
  have hpair : flag = true → pairStep flag * k % 3 ≠ 2 := by
    rintro rfl
    simp [pairStep]
  have := hs _ _ hstar hpair
  rw [isHex_star] at this
  cases this

/-- Three bytes of digits lead up to the wildcard behind them. -/
theorem WildText.wildcardFrom {flag : Bool} {s : List Byte} (h : WildText flag s) :
    WildcardFrom flag s.length 0 s := by
  cases flag with
  | false =>
      obtain ⟨hl, hpairs, hwild⟩ := h
      refine ⟨3, hpairs, ?_⟩
      rw [hl]
      exact hwild ▸ List.prefix_refl _
  | true =>
      obtain ⟨hl, hpairs, hwild⟩ := h
      refine ⟨3, hpairs, ?_⟩
      rw [hl]
      exact hwild ▸ List.prefix_refl _

theorem WildText.length {flag : Bool} {s : List Byte} (h : WildText flag s) :
    s.length = if flag then 17 else 12 := by
  cases flag <;> exact h.1

/-- An address of the right length and accepted by `IsHexStr` is stored. -/
theorem mac_assignMac {value : CStr} {flag : Bool} (hl : value.length = if flag then 17 else 12)
    (hs : isHexStr flag value.length 0 value.bytes = true) (g : Globals) (v : MacVar) :
    (assignMac value g v).mac v = hexcpy value (pairStep flag) := by
  cases flag with
  | false =>
      have hl : value.length = 12 := hl
      rw [hl] at hs
      simp [assignMac, hl, hs, pairStep]
  | true =>
      have hl : value.length = 17 := hl
      rw [hl] at hs
      simp [assignMac, hl, hs, pairStep]

section NoWildcard

variable {value : CStr} (h : NoWildcard value)
include h

theorem key_of_noWildcard {v : TextVar} {g g' : Globals} (hk : assignKey value g v = .ok g')
    (hne : g'.text v ≠ g.text v) :
    g'.text v = .empty ∧ (value = .empty ∨ isStarStr value = true) ∨
      ((g'.text v).length = 10 ∨ (g'.text v).length = 26) ∧ DigitText false (g'.text v).bytes := by
  simp only [assignKey] at hk
  by_cases h₀ : value.length = 0
  · rw [if_pos h₀] at hk
    obtain ⟨hp, rfl⟩ := copy_ok hk
    exact .inl ⟨Globals.text_setText_self _ _, .inl (CStr.length_eq_zero.mp h₀)⟩
  rw [if_neg h₀] at hk
  by_cases hl : value.length ≠ 10 ∧ value.length ≠ 26
  · rw [if_pos hl] at hk
    cases hk
    exact absurd rfl hne
  rw [if_neg hl] at hk
  by_cases hs : isHexStr false value.length 0 value.bytes = true
  · rw [if_neg (fun hn => hn hs), assignSecret] at hk
    split at hk
    · cases hk
    by_cases hstar : isStarStr value = true
    · rw [if_pos hstar] at hk
      obtain ⟨hp, rfl⟩ := copy_ok hk
      exact .inl ⟨Globals.text_setText_self _ _, .inr hstar⟩
    · have htake : value.take value.length = value := CStr.ext List.take_length
      rw [if_neg hstar, htake] at hk
      obtain ⟨hp, rfl⟩ := copy_ok hk
      rw [Globals.text_setText_self]
      have hlen : value.length = 10 ∨ value.length = 26 := by omega
      exact .inr ⟨hlen, h.hexStr hs⟩
  · rw [if_pos hs] at hk
    cases hk
    exact absurd rfl hne

theorem mac_of_noWildcard {v : MacVar} {g : Globals} (hne : (assignMac value g v).mac v ≠ g.mac v) :
    value = .empty ∧ (assignMac value g v).mac v = .zero ∨
      value.length = 12 ∧ DigitText false value.bytes ∨
        value.length = 17 ∧ DigitText true value.bytes := by
  simp only [assignMac] at hne ⊢
  by_cases h₀ : value.length = 0
  · rw [if_pos h₀, Globals.mac_setMac_self]
    exact .inl ⟨CStr.length_eq_zero.mp h₀, rfl⟩
  rw [if_neg h₀] at hne
  by_cases hl : value.length ≠ 12 ∧ value.length ≠ 17
  · rw [if_pos hl] at hne
    exact absurd rfl hne
  rw [if_neg hl] at hne
  by_cases hs : isHexStr (value.length = 17) value.length 0 value.bytes = true
  · have ht := h.hexStr hs
    by_cases h₁₇ : value.length = 17
    · exact .inr (.inr ⟨h₁₇, decide_eq_true h₁₇ ▸ ht⟩)
    · exact .inr (.inl ⟨by omega, decide_eq_false h₁₇ ▸ ht⟩)
  · rw [if_pos hs] at hne
    exact absurd rfl hne

theorem scMac_of_noWildcard {g g' : Globals} (hk : assignScMacList value g = .ok g') :
    g'.rogueApMacList.mac = g.rogueApMacList.mac ∨ ∃ mac, mac.length = 17 ∧
      (DigitText true mac ∨ WildText true mac) ∧ g'.rogueApMacList.mac =
        Function.update g.rogueApMacList.mac g.rogueApMacList.outNo.toNat mac := by
  simp only [assignScMacList] at hk
  by_cases hroom : g.rogueApMacList.no ≤ g.rogueApMacList.outNo
  · rw [if_pos hroom] at hk
    cases hk
    exact .inl rfl
  rw [if_neg hroom] at hk
  by_cases hl : value.length ≠ 12 ∧ value.length ≠ 17
  · rw [if_pos hl] at hk
    cases hk
    exact .inl rfl
  rw [if_neg hl] at hk
  by_cases hs : isHexStr (value.length = 17) value.length 0 value.bytes = true
  · rw [if_neg (fun hn => hn hs)] at hk
    have ht := h.hexStr hs
    have hmac : ∀ mac, (if value.length = 12 then scMacStr12ToStr17 value.bytes else value.bytes) =
        mac → mac.length = 17 ∧ DigitText true mac := by
      rintro mac rfl
      by_cases h₁₂ : value.length = 12
      · have hflag : decide (value.length = 17) = false := decide_eq_false (by omega)
        rw [if_pos h₁₂]
        exact ⟨length_scMacStr12ToStr17 _, digitText_scMacStr12ToStr17 h₁₂ (hflag ▸ ht)⟩
      · have h₁₇ : value.length = 17 := by omega
        rw [if_neg h₁₂]
        exact ⟨h₁₇, decide_eq_true h₁₇ ▸ ht⟩
    generalize (if value.length = 12 then scMacStr12ToStr17 value.bytes else value.bytes) = mac
      at hk hmac
    split at hk
    · cases hk
      exact .inl rfl
    split at hk
    · cases hk
    cases hk
    obtain ⟨hlen, htext⟩ := hmac mac rfl
    exact .inr ⟨mac, hlen, .inl htext, rfl⟩
  · rw [if_pos hs] at hk
    cases hk
    exact .inl rfl

end NoWildcard

/-- **Keys and addresses are imported well formed just where no wildcard is reached.** -/
theorem assign_wellFormed_iff (value : CStr) : WellFormed value ↔ NoWildcard value := by
  constructor
  · intro h flag hwild
    have hs := (isHexStr_iff flag value.length 0 value.bytes).mpr (.inr hwild)
    have hno := hwild.not_digitText
    have hl := (((h.hexStr flag).mp hs).resolve_left hno).length
    -- an address that the variable does not hold yet
    let m := hexcpy value (pairStep flag)
    let g := Globals.initial.setMac .apMac { m with a := m.a + 1 }
    have hset : (assignMac value g .apMac).mac .apMac = m := mac_assignMac hl hs g .apMac
    have hchange : (assignMac value g .apMac).mac .apMac ≠ g.mac .apMac := by
      rw [hset, Globals.mac_setMac_self]
      intro e
      have hother : ∀ b : Byte, b ≠ b + 1 := forall_byte (by decide)
      exact hother m.a (congrArg MacAddr.a e)
    rcases h.mac .apMac g hchange with ⟨rfl, -⟩ | ⟨hl', ht⟩ | ⟨hl', ht⟩
    · cases flag <;> exact absurd hl (by decide)
    · cases flag with
      | false => exact hno ht
      | true => exact absurd (hl.symm.trans hl') (by decide)
    · cases flag with
      | false => exact absurd (hl.symm.trans hl') (by decide)
      | true => exact hno ht
  · intro h
    refine ⟨fun v g g' => key_of_noWildcard h, fun v g => mac_of_noWildcard h,
      fun g g' => scMac_of_noWildcard h, fun flag => ⟨fun hs => .inl (h.hexStr hs), ?_⟩⟩
    · rintro (ht | hw)
      · exact (isHexStr_iff flag _ _ _).mpr (.inl ht)
      · exact absurd hw.wildcardFrom (h flag)

/-- A key that begins with six stars is stored, whatever follows them. -/
theorem sixStars_not_wellFormed : ¬ WellFormed (CStr.text "******GGGG") := by
  intro h
  have hs : isHexStr false 10 0 (CStr.text "******GGGG").bytes = true := by decide +kernel
  have hk : assignKey (CStr.text "******GGGG") .initial (.key 1 0) =
      copy (.key 1 0) ((CStr.text "******GGGG").take 10) .initial := by
    show (if ¬ isHexStr false 10 0 (CStr.text "******GGGG").bytes = true then _ else _) = _
    rw [if_neg (fun hn => hn hs)]
    rfl
  rw [copy_fits (by decide)] at hk
  have hset := h.key _ _ _ hk (by rw [Globals.text_setText_self]; decide)
  rw [Globals.text_setText_self] at hset
  rcases hset with ⟨he, -⟩ | ⟨-, ht⟩
  · exact absurd he (by decide)
  · exact absurd ht.head (by decide)

end Wap4410n.Editcfg
