import Mathlib.Data.List.Nodup
import Wap4410n.Support.Print

/-!
# Utility — the VLAN list of a WDS link

`scValidwdsVlanList` goes through a list twice: the first pass counts the commas since the last
digit, the second takes the numbers apart with `strtok` and stores each into an array of five before
it is checked.

* `scValidwdsVlanList_iff`: the lists that are accepted, and no number is stored behind the array.
-/

namespace Wap4410n.Utility

open CLib

/-! ### The function -/

/-- The arrays of the function; `testlist` has 21 bytes and takes what is shorter. -/
inductive WdsArray where
  | value
deriving DecidableEq, Repr

/-- The first pass, with `count`. -/
def wdsCommas (count : Nat) : List Byte → Bool
  | [] => true
  | b :: s =>
    if isDigit b then wdsCommas 0 s
    else if b ≠ 0x2c then false
    else if 1 < count + 1 then false
    else wdsCommas (count + 1) s

/-- The second pass, with the numbers stored so far. -/
def wdsValues (value : List Int) (s : CStr) : Run WdsArray Bool :=
  match _h : s.strtok [0x2c] with
  | none => .ok true
  | some (pa, s') =>
    let v := atoi pa
    -- `int value[5];`
    if 5 ≤ value.length then .error (.outside .value)
    else if v < 1 ∨ 4094 < v then .ok false
    else if v ∈ value then .ok false
    else if 3 < value.length then .ok false
    else wdsValues (value ++ [v]) s'
termination_by s.length
decreasing_by
  have htok := CStr.strtok_eq_some.mp _h
  have hpos := List.length_pos_iff.mpr (strtok_token htok).1
  have hlen := strtok_length htok
  simp only [CStr.length]
  omega

/-- `scValidwdsVlanList` -/
def scValidwdsVlanList (list : CStr) : Run WdsArray Bool :=
  if ¬ list.length < 21 then .ok false
  else if ¬ wdsCommas 1 list.bytes then .ok false
  else if list.length = 0 then .ok true
  else wdsValues [] list

/-! ### The lists -/

/-- Numbers in decimal. -/
def Numerals (ns : List (List Byte)) : Prop := ∀ ds ∈ ns, ds ≠ [] ∧ ∀ b ∈ ds, isDigit b = true

/-- The numbers, with a comma behind each but perhaps the last. -/
def CommaList (s : List Byte) (ns : List (List Byte)) : Prop :=
  s = ns.flatMap (· ++ [0x2c]) ∨ s ++ [0x2c] = ns.flatMap (· ++ [0x2c])

/-- Different VLAN ids. -/
def VlanIds (vs : List Nat) : Prop := (∀ v ∈ vs, 1 ≤ v ∧ v ≤ 4094) ∧ vs.Nodup

/-- A list of one to four VLAN ids, of 20 characters at most, or no list. -/
def WdsVlanList (list : CStr) : Prop :=
  list = .empty ∨ list.length ≤ 20 ∧ ∃ ns, Numerals ns ∧ CommaList list.bytes ns ∧
    1 ≤ ns.length ∧ ns.length ≤ 4 ∧ VlanIds (ns.map decimal)

theorem commaList_nil {s : List Byte} : CommaList s [] ↔ s = [] := by
  simp [CommaList]

/-- A list is a number, and nothing behind it or a comma and a list. -/
theorem commaList_cons {s ds : List Byte} {ns : List (List Byte)} :
    CommaList s (ds :: ns) ↔
      s = ds ∧ ns = [] ∨ ∃ t, s = ds ++ 0x2c :: t ∧ CommaList t ns := by
  unfold CommaList
  rw [List.flatMap_cons, List.append_assoc, List.singleton_append]
  constructor
  · rintro (h | h)
    · exact .inr ⟨_, h, .inl rfl⟩
    · rcases List.eq_nil_or_concat (ns.flatMap (· ++ [0x2c])) with hnil | ⟨t, x, ht⟩
      · rw [hnil] at h
        have hns : ns = [] := by
          cases ns with
          | nil => rfl
          | cons es ns => simp at hnil
        exact .inl ⟨List.append_cancel_right h, hns⟩
      · rw [ht, List.concat_eq_append, ← List.cons_append, ← List.append_assoc] at h
        obtain ⟨hs, hx⟩ := List.append_inj' h rfl
        exact .inr ⟨t, hs, .inr (by rw [ht, hx, List.concat_eq_append])⟩
  · rintro (⟨rfl, rfl⟩ | ⟨t, rfl, rfl | ht⟩)
    · exact .inr rfl
    · exact .inl rfl
    · exact .inr (by rw [← ht]; simp)

/-! ### The first pass -/

/-- A number starts the count again. -/
theorem wdsCommas_digits {ds : List Byte} (hds : ∀ b ∈ ds, isDigit b = true) (hne : ds ≠ [])
    (count : Nat) (s : List Byte) : wdsCommas count (ds ++ s) = wdsCommas 0 s := by
  induction ds generalizing count with
  | nil => exact absurd rfl hne
  | cons b ds ih =>
      rw [List.cons_append, wdsCommas, if_pos (hds b List.mem_cons_self)]
      cases ds with
      | nil => rfl
      | cons c ds =>
          exact ih (fun x hx => hds x (List.mem_cons_of_mem b hx)) (List.cons_ne_nil c ds) 0

/-- A comma behind a number is counted. -/
theorem wdsCommas_comma (s : List Byte) : wdsCommas 0 (0x2c :: s) = wdsCommas 1 s := rfl

/-- What the first pass lets through is a list of numbers. -/
theorem exists_commaList : ∀ {s : List Byte}, wdsCommas 1 s = true →
    ∃ ns, Numerals ns ∧ CommaList s ns
  | [], _ => ⟨[], fun _ h => (nomatch h), commaList_nil.mpr rfl⟩
  | b :: s, h => by
      cases hb : isDigit b with
      | false =>
          rw [wdsCommas, hb, if_neg Bool.false_ne_true] at h
          split at h <;> cases h
      | true =>
          -- the run of digits, and what stops it
          have hsplit := List.takeWhile_append_dropWhile (p := isDigit) (l := b :: s)
          have hne : (b :: s).takeWhile isDigit ≠ [] := by
            rw [List.takeWhile_cons_of_pos hb]
            exact List.cons_ne_nil _ _
          have hds : ∀ c ∈ (b :: s).takeWhile isDigit, isDigit c = true := fun c hc =>
            List.mem_takeWhile_imp hc
          rw [← hsplit, wdsCommas_digits hds hne] at h
          cases hr : (b :: s).dropWhile isDigit with
          | nil =>
              rw [hr, List.append_nil] at hsplit
              rw [← hsplit]
              refine ⟨[_], ?_, commaList_cons.mpr (.inl ⟨rfl, rfl⟩)⟩
              intro es he
              rw [List.mem_singleton.mp he]
              exact ⟨hne, hds⟩
          | cons c t =>
              rw [hr, wdsCommas, dropWhile_stop hr, if_neg Bool.false_ne_true] at h
              have hcomma : c = 0x2c := by
                by_contra hc
                rw [if_pos hc] at h
                cases h
              have hlen : t.length ≤ s.length := by
                have hle := congrArg List.length hsplit
                rw [hr, List.length_append, List.length_cons, List.length_cons] at hle
                omega
              subst hcomma
              obtain ⟨ns, hns, hlist⟩ := exists_commaList (s := t) h
              refine ⟨_ :: ns, ?_, commaList_cons.mpr (.inr ⟨t, by rw [← hr, hsplit], hlist⟩)⟩
              intro es he
              rcases List.mem_cons.mp he with rfl | he
              · exact ⟨hne, hds⟩
              · exact hns es he
termination_by s => s.length

/-- **The first pass** lets the lists of numbers through. -/
theorem wdsCommas_iff (s : List Byte) :
    wdsCommas 1 s = true ↔ ∃ ns, Numerals ns ∧ CommaList s ns := by
  refine ⟨exists_commaList, ?_⟩
  rintro ⟨ns, hns, hlist⟩
  induction ns generalizing s with
  | nil =>
      rw [commaList_nil.mp hlist]
      rfl
  | cons ds ns ih =>
      obtain ⟨hne, hds⟩ := hns ds List.mem_cons_self
      rcases commaList_cons.mp hlist with ⟨rfl, -⟩ | ⟨t, rfl, ht⟩
      · have hpass := wdsCommas_digits hds hne 1 []
        rw [List.append_nil] at hpass
        exact hpass
      · rw [wdsCommas_digits hds hne, wdsCommas_comma]
        exact ih t (fun es he => hns es (List.mem_cons_of_mem ds he)) ht

/-! ### The second pass -/

/-- `strtok` takes the first number off the list. -/
theorem strtok_commaList {s : CStr} {ds : List Byte} {ns : List (List Byte)}
    (hns : Numerals (ds :: ns)) (h : CommaList s.bytes (ds :: ns)) :
    ∃ pa s', s.strtok [0x2c] = some (pa, s') ∧ pa.bytes = ds ∧ CommaList s'.bytes ns := by
  obtain ⟨hne, hds⟩ := hns ds List.mem_cons_self
  have hcomma : (0x2c : Byte) ∉ ds := fun hc => absurd (hds _ hc) (by decide)
  have hnul : (0 : Byte) ∉ ds := fun hc => absurd (hds _ hc) (by decide)
  rcases commaList_cons.mp h with ⟨hs, rfl⟩ | ⟨t, hs, ht⟩
  · refine ⟨⟨ds, hnul⟩, .empty, CStr.strtok_eq_some.mpr ?_, rfl, commaList_nil.mpr rfl⟩
    rw [hs]
    exact strtok_last hne hcomma
  · have htnul : (0 : Byte) ∉ t := fun hc => s.noNul (by rw [hs]; simp [hc])
    refine ⟨⟨ds, hnul⟩, ⟨t, htnul⟩, CStr.strtok_eq_some.mpr ?_, rfl, ht⟩
    rw [hs]
    exact strtok_append hne hcomma

/-- The number of a run of digits, no greater than `LONG_MAX`. -/
theorem atoi_digits {pa : CStr} (hne : pa.bytes ≠ []) (hds : ∀ b ∈ pa.bytes, isDigit b = true) :
    atoi pa = clampLong (decimal pa.bytes) := by
  have hscan := scanNumber_decimal hne hds (t := []) rfl
  rw [List.append_nil] at hscan
  rw [atoi, hscan]
  rfl

/-- What `strtol` cuts off was no VLAN id. -/
theorem clampLong_range (n : Nat) :
    (¬(clampLong n < 1 ∨ 4094 < clampLong n) ↔ 1 ≤ n ∧ n ≤ 4094) ∧
      (1 ≤ n ∧ n ≤ 4094 → clampLong n = n) := by
  unfold clampLong
  split
  · omega
  · split <;> omega

/-- No number is left. -/
theorem wdsValues_nil (value : List Int) {s : CStr} (h : s.bytes = []) :
    wdsValues value s = .ok true := by
  have hnone : s.strtok [0x2c] = none := by
    cases hs : s.strtok [0x2c] with
    | none => rfl
    | some r =>
        have htok := CStr.strtok_eq_some.mp hs
        rw [h] at htok
        cases htok
  rw [wdsValues]
  split
  · rfl
  · rename_i hs
    rw [hnone] at hs
    cases hs

/-- The number of a token. -/
theorem wdsValues_token {value : List Int} {s pa s' : CStr} (h : s.strtok [0x2c] = some (pa, s')) :
    wdsValues value s =
      if 5 ≤ value.length then .error (.outside .value)
      else if atoi pa < 1 ∨ 4094 < atoi pa then .ok false
      else if atoi pa ∈ value then .ok false
      else if 3 < value.length then .ok false
      else wdsValues (value ++ [atoi pa]) s' := by
  rw [wdsValues]
  split
  · rename_i hs
    rw [h] at hs
    cases hs
  · rename_i hs
    rw [h] at hs
    obtain ⟨rfl, rfl⟩ := Prod.mk.inj (Option.some.inj hs)
    rfl

/-- **The second pass** stores five numbers at most, and accepts up to four of them that are
different VLAN ids. -/
theorem wdsValues_spec : ∀ {ns : List (List Byte)} {value : List Nat} {s : CStr}, Numerals ns →
    CommaList s.bytes ns → VlanIds value → value.length ≤ 4 →
    ∃ r, wdsValues (value.map fun n : Nat => (n : Int)) s = .ok r ∧
      (r = true ↔ VlanIds (value ++ ns.map decimal) ∧ value.length + ns.length ≤ 4)
  | [], value, s, _, hlist, hvalue, hlen => by
      refine ⟨true, wdsValues_nil _ (commaList_nil.mp hlist), ?_⟩
      simpa using ⟨hvalue, hlen⟩
  | ds :: ns, value, s, hns, hlist, hvalue, hlen => by
      obtain ⟨pa, s', htok, rfl, hrest⟩ := strtok_commaList hns hlist
      obtain ⟨hne, hds⟩ := hns _ List.mem_cons_self
      have hroom : ¬5 ≤ (value.map fun n : Nat => (n : Int)).length := by
        rw [List.length_map]
        omega
      obtain ⟨hrange, heq⟩ := clampLong_range (decimal pa.bytes)
      rw [wdsValues_token htok, if_neg hroom, atoi_digits hne hds, List.length_map]
      by_cases hid : 1 ≤ decimal pa.bytes ∧ decimal pa.bytes ≤ 4094
      · rw [if_neg (hrange.mpr hid), heq hid]
        have hmem : ((decimal pa.bytes : Nat) : Int) ∈ value.map (fun n : Nat => (n : Int)) ↔
            decimal pa.bytes ∈ value := by
          refine List.mem_map.trans ⟨?_, fun h => ⟨_, h, rfl⟩⟩
          rintro ⟨n, hn, e⟩
          rwa [← Int.ofNat.inj e]
        by_cases hdup : decimal pa.bytes ∈ value
        · rw [if_pos (hmem.mpr hdup)]
          refine ⟨false, rfl, ⟨fun h => (nomatch h), fun h => ?_⟩⟩
          obtain ⟨⟨-, hnodup⟩, -⟩ := h
          exact absurd rfl ((List.nodup_append.mp hnodup).2.2 _ hdup _ List.mem_cons_self)
        · rw [if_neg fun h => hdup (hmem.mp h)]
          by_cases hfour : 3 < value.length
          · rw [if_pos hfour]
            refine ⟨false, rfl, ⟨fun h => (nomatch h), fun h => ?_⟩⟩
            have := h.2
            rw [List.length_cons] at this
            omega
          · have hvalue' : VlanIds (value ++ [decimal pa.bytes]) := by
              refine ⟨fun v hv => ?_, ?_⟩
              · rcases List.mem_append.mp hv with hv | hv
                · exact hvalue.1 v hv
                · rwa [List.mem_singleton.mp hv]
              · exact List.nodup_append.mpr ⟨hvalue.2, List.nodup_singleton _, fun a ha b hb e =>
                  hdup (by rwa [← List.mem_singleton.mp hb, ← e])⟩
            obtain ⟨r, hr, hiff⟩ := wdsValues_spec (fun es he => hns es (List.mem_cons_of_mem _ he))
              hrest hvalue' (by rw [List.length_append, List.length_singleton]; omega)
            rw [if_neg hfour]
            refine ⟨r, by rw [← hr, List.map_append]; rfl, ?_⟩
            rw [hiff, List.append_assoc, List.length_append, List.length_cons, List.length_nil,
              List.length_cons, Nat.add_assoc, Nat.add_comm (0 + 1)]
            rfl
      · rw [if_pos (Decidable.not_not.mp fun h => hid (hrange.mp h))]
        refine ⟨false, rfl, ⟨fun h => (nomatch h), fun h => ?_⟩⟩
        exact absurd (h.1.1 _ (List.mem_append_right _ List.mem_cons_self)) hid

/-- **`scValidwdsVlanList` accepts the lists** of up to four VLAN ids, and stores no number behind
its array. -/
theorem scValidwdsVlanList_iff (list : CStr) :
    ∃ r, scValidwdsVlanList list = .ok r ∧ (r = true ↔ WdsVlanList list) := by
  have hids : VlanIds [] := ⟨fun v hv => (nomatch hv), List.nodup_nil⟩
  unfold scValidwdsVlanList
  by_cases hempty : list = .empty
  · refine ⟨true, ?_, iff_of_true rfl (.inl hempty)⟩
    rw [hempty]
    decide
  have hpos : list.length ≠ 0 := fun h => hempty (CStr.length_eq_zero.mp h)
  by_cases hlen : list.length < 21
  · rw [if_neg (not_not.mpr hlen)]
    by_cases hcommas : wdsCommas 1 list.bytes = true
    · obtain ⟨ns, hns, hlist⟩ := (wdsCommas_iff _).mp hcommas
      obtain ⟨r, hr, hiff⟩ := wdsValues_spec hns hlist hids (Nat.zero_le 4)
      rw [if_neg (not_not.mpr hcommas), if_neg hpos]
      refine ⟨r, hr, ⟨fun htrue => .inr ⟨by omega, ns, hns, hlist, ?_, ?_, ?_⟩, ?_⟩⟩
      · refine List.length_pos_iff.mpr fun hnil => hpos ?_
        rw [hnil, commaList_nil] at hlist
        rw [CStr.length, hlist, List.length_nil]
      · have hfour := (hiff.mp htrue).2
        rwa [List.length_nil, Nat.zero_add] at hfour
      · exact (hiff.mp htrue).1
      · rintro (h | ⟨-, ms, hms, hmlist, -, hfour, hvalid⟩)
        · exact absurd h hempty
        · -- the list determines its numbers
          obtain ⟨r', hr', hiff'⟩ := wdsValues_spec hms hmlist hids (Nat.zero_le 4)
          obtain rfl := Except.ok.inj (hr.symm.trans hr')
          exact hiff'.mpr ⟨hvalid, by rwa [List.length_nil, Nat.zero_add]⟩
    · rw [if_pos hcommas]
      refine ⟨false, rfl, ⟨fun h => (nomatch h), ?_⟩⟩
      rintro (h | ⟨-, ns, hns, hlist, -⟩)
      · exact absurd h hempty
      · exact absurd ((wdsCommas_iff _).mpr ⟨ns, hns, hlist⟩) hcommas
  · rw [if_pos hlen]
    refine ⟨false, rfl, ⟨fun h => (nomatch h), ?_⟩⟩
    rintro (h | ⟨hle, -⟩)
    · exact absurd h hempty
    · omega

example : scValidwdsVlanList (.text "1,0002,4094,") = .ok true := by decide +kernel

end Wap4410n.Utility
