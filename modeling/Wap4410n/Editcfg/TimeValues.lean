import Wap4410n.Editcfg.Frame

/-!
# Editcfg — time zones, dates and times

`AssignTimeZone` reads three numbers with `sscanf` and looks at them whether they were read or not;
`m==30 && (h!=3 || h!=4 || …)` refuses every half hour.  `AssignDate` and `AssignTime` take the
value apart with `strtok`, and never ask whether there was a part; `t<1970 && t>2100` and the like
refuse no number, so that only the first character decides.

* `zone_exact_iff`, `date_exact_iff`, `time_exact_iff`: the values of which a function stores just
  those that are valid, and leaves its variable alone otherwise.
* `timeValues_exact_iff`: the three together.
-/

namespace Wap4410n.Editcfg

open CLib Apcfg

/-! ### The valid values -/

/-- A run of digits, from `lo` to `hi` of them. -/
def Numeral (lo hi : Nat) (s : List Byte) : Prop :=
  lo ≤ s.length ∧ s.length ≤ hi ∧ ∀ b ∈ s, isDigit b = true

instance (lo hi : Nat) (s : List Byte) : Decidable (Numeral lo hi s) :=
  inferInstanceAs (Decidable (_ ∧ _ ∧ _))

/-- The offsets of `timeZoneStr`. -/
def ZoneOffset (hour : Int) (minute : Nat) : Prop :=
  -12 ≤ hour ∧ hour ≤ 13 ∧
    (minute = 0 ∨ minute = 30 ∧ (hour = 3 ∨ hour = 4 ∨ hour = 5 ∨ hour = 9) ∨
      minute = 45 ∧ hour = 5)

instance (hour : Int) (minute : Nat) : Decidable (ZoneOffset hour minute) :=
  inferInstanceAs (Decidable (_ ∧ _ ∧ _))

/-- A number with its sign. -/
def signed (sign : Byte) (ds : List Byte) : Int :=
  if sign = 0x2d then -(decimal ds : Int) else decimal ds

/-- `NNN+HH:MM` or `NNN-HH:MM` -/
def ZoneForm (value : CStr) : Prop :=
  ∃ (i h m : List Byte) (sign : Byte), value.bytes = i ++ sign :: (h ++ 0x3a :: m) ∧
    Numeral 3 3 i ∧ Numeral 2 2 h ∧ Numeral 2 2 m ∧ (sign = 0x2d ∨ sign = 0x2b) ∧
    (1 ≤ decimal i ∧ decimal i ≤ 75) ∧ ZoneOffset (signed sign h) (decimal m)

/-- Three numbers with a separator between them. -/
def ThreeNumbers (sep : Byte) (value : CStr) (p : Nat → Nat → Nat → Prop) (first : Nat) : Prop :=
  ∃ a b c : List Byte, value.bytes = a ++ sep :: (b ++ sep :: c) ∧ Numeral first (max first 2) a ∧
    Numeral 1 2 b ∧ Numeral 1 2 c ∧ p (decimal a) (decimal b) (decimal c)

/-- `YYYY/M/D` -/
def DateForm (value : CStr) : Prop :=
  ThreeNumbers 0x2f value (fun y m d => (1970 ≤ y ∧ y ≤ 2100) ∧ (1 ≤ m ∧ m ≤ 12) ∧ 1 ≤ d ∧ d ≤ 31) 4

/-- `H:M:S` -/
def TimeForm (value : CStr) : Prop :=
  ThreeNumbers 0x3a value (fun h m s => h ≤ 23 ∧ m ≤ 59 ∧ s ≤ 59) 1

/-- A call stores the value just if it is valid, and leaves the variables alone otherwise. -/
structure Exact (form : CStr → Prop) (run : CStr → Globals → Run Buf Globals) (v : TextVar)
    (value : CStr) : Prop where
  stored : form value → ∀ g, ∃ h : value.length < v.size, run value g = .ok (g.setText v ⟨value, h⟩)
  refused : ¬ form value → ∀ g, run value g = .ok g

/-- There are variables that do not hold the value yet. -/
theorem exists_other (v : TextVar) (value : CStr) : ∃ g : Globals, g.text v ≠ value := by
  by_cases h : value = .empty
  · have hsize : (CStr.text "0").length < v.size := by
      unfold TextVar.size
      split <;> decide
    refine ⟨Globals.initial.setText v ⟨.text "0", hsize⟩, ?_⟩
    rw [Globals.text_setText_self, h]
    exact (show CStr.text "0" ≠ .empty by decide)
  · exact ⟨.initial, fun e => h e.symm⟩

/-- Variables that a store leaves as they are held the value already. -/
theorem text_of_setText {g : Globals} {v : TextVar} {value : CStr} {h : value.length < v.size}
    (e : g = g.setText v ⟨value, h⟩) : g.text v = value := by
  have := congrArg (fun g : Globals => g.text v) e
  rwa [Globals.text_setText_self] at this

/-! ### Time zones -/

/-- The first number of the value, if `sscanf` reads it. -/
def zoneIndex (value : CStr) : Option Int := (scanInt value.bytes).map (·.1.toInt)

/-- The second number. -/
def zoneHour (value : CStr) : Option Int :=
  ((scanInt value.bytes).bind fun r => scanInt r.2).map (·.1.toInt)

/-- The number behind the colon. -/
def zoneMinute (value : CStr) : Option Int :=
  (((scanInt value.bytes).bind fun r => scanInt r.2).bind fun r =>
    (scanChar 0x3a r.2).bind scanInt).map (·.1.toInt)

/-- The value is too long, or a number that was read is out of its range. -/
def ZoneRefused (value : CStr) : Prop :=
  12 < value.length ∨ (∃ i, zoneIndex value = some i ∧ (i < 1 ∨ 75 < i)) ∨
    (∃ h, zoneHour value = some h ∧ (h < -12 ∨ 13 < h)) ∨
    ∃ m, zoneMinute value = some m ∧ m ≠ 0 ∧ (m = 45 → zoneHour value ≠ some 5)

/-- The values of which `AssignTimeZone` stores just the valid ones. -/
def ZoneDecided (value : CStr) : Prop :=
  ZoneForm value ∧ zoneMinute value ≠ some 30 ∨ ¬ ZoneForm value ∧ ZoneRefused value

section Zone

variable {dev : Device} {value : CStr}

theorem assignTimeZone_of_valid (h : Assign.ValidZone dev value) (g : Globals) (v : TextVar) :
    assignTimeZone dev value g v = copy v value g := by
  obtain ⟨hlen, hi, hh, hm⟩ := h
  unfold assignTimeZone
  rw [if_neg (by omega)]
  dsimp only at hi hh hm ⊢
  rw [if_neg (by omega), if_neg (by omega), if_neg (by omega), if_neg (by omega),
    if_neg (by omega)]

theorem assignTimeZone_of_not_valid (h : ¬ Assign.ValidZone dev value) (g : Globals) (v : TextVar) :
    assignTimeZone dev value g v = .ok g := by
  unfold assignTimeZone
  split
  · rfl
  dsimp only
  split
  · rfl
  split
  · rfl
  split
  · rfl
  split
  · rfl
  split
  · rfl
  rename_i hlen hi hh hm h45 h30
  exact absurd ⟨by omega, by dsimp only; omega, by dsimp only; omega, by dsimp only; omega⟩ h

theorem validZone_iff : Assign.ValidZone dev value ↔ value.length ≤ 12 ∧
    (1 ≤ (zoneIndex value).getD (dev.unset 0) ∧ (zoneIndex value).getD (dev.unset 0) ≤ 75) ∧
    (-12 ≤ (zoneHour value).getD (dev.unset 1) ∧ (zoneHour value).getD (dev.unset 1) ≤ 13) ∧
    ((zoneMinute value).getD (dev.unset 2) = 0 ∨
      (zoneMinute value).getD (dev.unset 2) = 45 ∧ (zoneHour value).getD (dev.unset 1) = 5) :=
        Iff.rfl

/-- Minutes that were read stand behind an hour that was read. -/
theorem exists_zoneHour {m : Int} (h : zoneMinute value = some m) :
    ∃ hour, zoneHour value = some hour := by
  unfold zoneMinute at h
  unfold zoneHour
  cases hr : (scanInt value.bytes).bind fun r => scanInt r.2 with
  | none => rw [hr] at h; cases h
  | some r => exact ⟨_, rfl⟩

/-- A value that is refused is refused whatever the numbers held before. -/
theorem ZoneRefused.not_valid (h : ZoneRefused value) : ¬ Assign.ValidZone dev value := by
  rw [validZone_iff]
  rintro ⟨hlen, hi, hh, hm⟩
  rcases h with h | ⟨i, hread, h⟩ | ⟨hour, hread, h⟩ | ⟨m, hread, h₀, h⟩
  · omega
  · rw [hread, Option.getD_some] at hi
    omega
  · rw [hread, Option.getD_some] at hh
    omega
  · obtain ⟨hour, hhour⟩ := exists_zoneHour hread
    rw [hread, hhour, Option.getD_some, Option.getD_some] at hm
    rcases hm with hm | ⟨hm, rfl⟩
    · exact h₀ hm
    · exact h hm hhour

/-- A value that is not refused is accepted, where the numbers that were not read happen to fit. -/
theorem exists_valid (h : ¬ ZoneRefused value) : ∃ dev, Assign.ValidZone dev value := by
  simp only [ZoneRefused, not_or, not_exists, not_and] at h
  obtain ⟨hlen, hi, hh, hm⟩ := h
  refine ⟨{ Device.bare with unset := fun k => if k = 0 then 1 else 0 }, validZone_iff.mpr
    ⟨by omega, ?_, ?_, ?_⟩⟩
  · cases hread : zoneIndex value with
    | none => exact ⟨by decide, by decide⟩
    | some i => exact ⟨by have := hi i hread; simp; omega, by have := hi i hread; simp; omega⟩
  · cases hread : zoneHour value with
    | none => exact ⟨by decide, by decide⟩
    | some i => exact ⟨by have := hh i hread; simp; omega, by have := hh i hread; simp; omega⟩
  · cases hread : zoneMinute value with
    | none => exact .inl rfl
    | some m =>
        obtain ⟨hour, hhour⟩ := exists_zoneHour hread
        by_cases h₀ : m = 0
        · exact .inl h₀
        · obtain ⟨rfl, h5⟩ := Classical.not_imp.mp (hm m hread h₀)
          rw [not_not] at h5
          rw [h5]
          exact .inr ⟨rfl, rfl⟩

/-- The numbers of a valid value. -/
theorem ZoneForm.numbers (h : ZoneForm value) : value.length = 9 ∧
    ∃ (i : Nat) (hour : Int) (minute : Nat), zoneIndex value = some (i : Int) ∧
      zoneHour value = some hour ∧ zoneMinute value = some (minute : Int) ∧ (1 ≤ i ∧ i ≤ 75) ∧
      ZoneOffset hour minute := by
  obtain ⟨i, h, m, sign, hbytes, hi, hh, hm, hsign, hindex, hoffset⟩ := h
  have hne : ∀ {n k : Nat} {ds : List Byte}, Numeral (n + 1) k ds → ds ≠ [] := fun hds e => by
    have := hds.1
    rw [e] at this
    exact absurd this (by simp)
  have hsep : ∀ t, (sign :: t).head?.all fun c => !isDigit c := fun t => by
    rcases hsign with rfl | rfl <;> rfl
  have h₁ : scanInt value.bytes = some (.ofInt (decimal i), sign :: (h ++ 0x3a :: m)) := by
    rw [scanInt, hbytes, scanNumber_decimal (hne hi) hi.2.2 (hsep _)]
    rfl
  have h₂ : scanInt (sign :: (h ++ 0x3a :: m)) = some (.ofInt (signed sign h), 0x3a :: m) := by
    rw [scanInt, scanNumber_signed hsign (hne hh) hh.2.2 rfl]
    rfl
  have h₃ : scanInt m = some (.ofInt (decimal m), []) := by
    have := scanNumber_decimal (hne hm) hm.2.2 (t := []) rfl
    rw [List.append_nil] at this
    rw [scanInt, this]
    rfl
  obtain ⟨hlo, hhi, hminute⟩ := hoffset
  have hnumber : ∀ n : Int, -12 ≤ n → n ≤ 75 → (Int32.ofInt n).toInt = n := fun n hn hn' =>
    Int32.toInt_ofInt_of_le (by omega) (by omega)
  refine ⟨?_, decimal i, signed sign h, decimal m, ?_, ?_, ?_, hindex, hlo, hhi, hminute⟩
  · have hli := Nat.le_antisymm hi.2.1 hi.1
    have hlh := Nat.le_antisymm hh.2.1 hh.1
    have hlm := Nat.le_antisymm hm.2.1 hm.1
    rw [CStr.length, hbytes]
    simp [hli, hlh, hlm]
  · rw [zoneIndex, h₁, Option.map_some, hnumber _ (by omega) (by omega)]
  · rw [zoneHour, h₁, Option.bind_some, h₂, Option.map_some, hnumber _ hlo (by omega)]
  · have hcolon : scanChar 0x3a (0x3a :: m) = some m := rfl
    rw [zoneMinute, h₁, Option.bind_some, h₂, Option.bind_some, hcolon, Option.bind_some, h₃,
      Option.map_some, hnumber _ (by omega) (by omega)]

/-- **The values `AssignTimeZone` decides**: valid ones of whole hours and of 45 minutes, and those
it refuses by what it reads of them. -/
theorem zone_exact_iff (value : CStr) :
    (∀ dev, Exact ZoneForm (fun value g => assignTimeZone dev value g .timeZone) .timeZone value) ↔
      ZoneDecided value := by
  obtain ⟨g, hg⟩ := exists_other .timeZone value
  constructor
  · intro h
    by_cases hform : ZoneForm value
    · refine .inl ⟨hform, fun h30 => ?_⟩
      obtain ⟨hroom, hset⟩ := (h .bare).stored hform g
      have hno : ¬ Assign.ValidZone .bare value := by
        rw [validZone_iff, h30]
        simp
      rw [assignTimeZone_of_not_valid hno] at hset
      exact hg (text_of_setText (Except.ok.inj hset))
    · refine .inr ⟨hform, ?_⟩
      by_contra hno
      obtain ⟨dev, hdev⟩ := exists_valid hno
      have hkeep := (h dev).refused hform g
      rw [assignTimeZone_of_valid hdev] at hkeep
      obtain ⟨hroom, hset⟩ := copy_ok hkeep
      exact hg (text_of_setText hset)
  · rintro (⟨hform, h30⟩ | ⟨hno, hrefused⟩) dev
    · obtain ⟨hlen, i, hour, minute, hi, hh, hm, hindex, hlo, hhi, hminute⟩ := hform.numbers
      have hvalid : Assign.ValidZone dev value := by
        rw [hm, ne_eq, Option.some.injEq] at h30
        rw [validZone_iff, hi, hh, hm]
        simp only [Option.getD_some]
        omega
      have hroom : value.length < TextVar.timeZone.size := by rw [hlen]; decide
      refine ⟨fun _ g => ⟨hroom, ?_⟩, fun hno => absurd hform hno⟩
      rw [assignTimeZone_of_valid hvalid, copy_fits hroom]
    · exact ⟨fun h => absurd h hno, fun _ g => assignTimeZone_of_not_valid hrefused.not_valid g _⟩

end Zone

/-! ### Dates and times -/

/-- The first part of the value does not begin with a digit. -/
def WordFirst (sep : Byte) (value : CStr) : Prop :=
  (value.strtok [sep]).isSome = true ∧ ¬ Assign.NumberFirst sep value

/-- The values of which `AssignDate` stores just the valid ones. -/
def DateDecided (value : CStr) : Prop :=
  DateForm value ∨ value.length < 15 ∧ WordFirst 0x2f value

/-- The values of which `AssignTime` stores just the valid ones. -/
def TimeDecided (value : CStr) : Prop :=
  TimeForm value ∨ value.length < 128 ∧ WordFirst 0x3a value

section Parts

variable {value : CStr}

/-- The three numbers are the parts. -/
theorem ThreeNumbers.parts {sep : Byte} (hsep : isDigit sep = false) {p : Nat → Nat → Nat → Prop}
    {first : Nat} (hfirst : 0 < first) (h : ThreeNumbers sep value p first) :
    ∃ a s b s' c : CStr, token sep value = .ok (a, s) ∧ isDigit (a.mem.headD 0) = true ∧
      token sep s = .ok (b, s') ∧ token sep s' = .ok (c, .empty) ∧
      value.length ≤ max first 2 + 6 := by
  obtain ⟨a, b, c, hbytes, ha, hb, hc, -⟩ := h
  have hne : ∀ {n k : Nat} {ds : List Byte}, 0 < n → Numeral n k ds → ds ≠ [] := fun hn hds =>
    List.ne_nil_of_length_pos (Nat.lt_of_lt_of_le hn hds.1)
  have hfree : ∀ {n k : Nat} {ds : List Byte}, Numeral n k ds → sep ∉ ds := fun hds hmem => by
    have := hds.2.2 sep hmem
    rw [hsep] at this
    cases this
  have hnul : ∀ x ∈ a ++ sep :: (b ++ sep :: c), x ≠ 0 := fun x hx =>
    CStr.ne_zero (s := value) (hbytes ▸ hx)
  have hnul' : ∀ {l : List Byte}, (∀ x ∈ l, x ∈ a ++ sep :: (b ++ sep :: c)) → (0 : Byte) ∉ l :=
    fun hl h₀ => hnul 0 (hl 0 h₀) rfl
  refine ⟨⟨a, hnul' (by simp +contextual)⟩, ⟨b ++ sep :: c, hnul' ?_⟩,
    ⟨b, hnul' (by simp +contextual)⟩, ⟨c, hnul' (by simp +contextual)⟩,
    ⟨c, hnul' (by simp +contextual)⟩, ?_, ?_, ?_, ?_, ?_⟩
  · intro x hx
    exact List.mem_append_right _ (List.mem_cons_of_mem _ hx)
  · rw [Assign.token_eq_ok, CStr.strtok_eq_some, hbytes]
    exact strtok_append (hne hfirst ha) (hfree ha)
  · obtain ⟨x, t, rfl⟩ := List.exists_cons_of_ne_nil (hne hfirst ha)
    exact ha.2.2 x List.mem_cons_self
  · rw [Assign.token_eq_ok, CStr.strtok_eq_some]
    exact strtok_append (hne Nat.one_pos hb) (hfree hb)
  · rw [Assign.token_eq_ok, CStr.strtok_eq_some]
    exact strtok_last (hne Nat.one_pos hc) (hfree hc)
  · have hla := ha.2.1
    have hlb := hb.2.1
    have hlc := hc.2.1
    rw [CStr.length, hbytes]
    simp only [List.length_append, List.length_cons]
    omega

theorem not_wordFirst {sep : Byte} (hsep : isDigit sep = false) {p : Nat → Nat → Nat → Prop}
    {first : Nat} (hfirst : 0 < first) (h : ThreeNumbers sep value p first) :
    ¬ WordFirst sep value := by
  obtain ⟨a, s, -, -, -, ha, hdigit, -⟩ := h.parts hsep hfirst
  exact fun hword => hword.2 ⟨a, s, Assign.token_eq_ok.mp ha, hdigit⟩

/-- A function that reads the first part and goes on if it is a number. -/
theorem firstPart_ok {sep : Byte} {g g' : Globals} {r : CStr × CStr → Run Buf Globals}
    (h : (do
      let t ← token sep value
      if ¬ isDigit (t.1.mem.headD 0) then return g else
      r t) = .ok g') :
    WordFirst sep value ∨ ∃ t, r t = .ok g' := by
  obtain ⟨t, ht, h⟩ := Run.bind_eq_ok.mp h
  have htok := Assign.token_eq_ok.mp ht
  by_cases hdigit : isDigit (t.1.mem.headD 0) = true
  · rw [if_neg (not_not_intro hdigit)] at h
    exact .inr ⟨t, h⟩
  · refine .inl ⟨Option.isSome_of_eq_some htok, ?_⟩
    rintro ⟨p, s, hp, hfirst⟩
    cases htok.symm.trans hp
    exact hdigit hfirst

theorem firstPart_word {sep : Byte} {g : Globals} {r : CStr × CStr → Run Buf Globals}
    (h : WordFirst sep value) : (do
      let t ← token sep value
      if ¬ isDigit (t.1.mem.headD 0) then return g else
      r t) = .ok g := by
  obtain ⟨hsome, hno⟩ := h
  obtain ⟨t, ht⟩ := Option.isSome_iff_exists.mp hsome
  have hdigit : ¬ isDigit (t.1.mem.headD 0) = true := fun hd => hno ⟨t.1, t.2, ht, hd⟩
  rw [Assign.token_eq_ok.mpr ht, Run.ok_bind, if_pos hdigit]
  rfl

/-- A call that returns found a word, or has stored the value. -/
theorem assignDate_ok {g g' : Globals} {v : TextVar} (h : assignDate value g v = .ok g') :
    value.length < 15 ∧ (WordFirst 0x2f value ∨ g'.text v = value) := by
  unfold assignDate at h
  split at h
  · cases h
  · rename_i hlen
    refine ⟨by omega, (firstPart_ok h).imp_right ?_⟩
    rintro ⟨t, h⟩
    obtain ⟨q, -, h⟩ := Run.bind_eq_ok.mp h
    obtain ⟨r, -, h⟩ := Run.bind_eq_ok.mp h
    obtain ⟨hp, rfl⟩ := copy_ok h
    exact Globals.text_setText_self _ _

theorem assignTime_ok {g g' : Globals} {v : TextVar} (h : assignTime value g v = .ok g') :
    value.length < 128 ∧ (WordFirst 0x3a value ∨ g'.text v = value) := by
  unfold assignTime at h
  split at h
  · cases h
  · rename_i hlen
    refine ⟨by omega, (firstPart_ok h).imp_right ?_⟩
    rintro ⟨t, h⟩
    obtain ⟨g₁, -, h⟩ := Run.bind_eq_ok.mp h
    obtain ⟨q, -, h⟩ := Run.bind_eq_ok.mp h
    obtain ⟨g₂, -, h⟩ := Run.bind_eq_ok.mp h
    obtain ⟨r, -, h⟩ := Run.bind_eq_ok.mp h
    obtain ⟨hp, rfl⟩ := copy_ok h
    exact Globals.text_setText_self _ _

/-- **The values `AssignDate` decides**: dates, and those that do not begin with a number. -/
theorem date_exact_iff (value : CStr) :
    Exact DateForm (fun value g => assignDate value g .dateP) .dateP value ↔ DateDecided value := by
  constructor
  · intro h
    by_cases hform : DateForm value
    · exact .inl hform
    · obtain ⟨g, hg⟩ := exists_other .dateP value
      obtain ⟨hlen, hword | hset⟩ := assignDate_ok (h.refused hform g)
      · exact .inr ⟨hlen, hword⟩
      · exact absurd hset hg
  · rintro (hform | ⟨hlen, hword⟩)
    · obtain ⟨a, s, b, s', c, ha, hdigit, hb, hc, hlen⟩ :=
        ThreeNumbers.parts (by decide) (by decide) hform
      have hroom : value.length < TextVar.dateP.size := Nat.lt_of_le_of_lt hlen (by decide)
      have hbuff : ¬ 15 ≤ value.length := Nat.not_le_of_lt hroom
      refine ⟨fun _ g => ⟨hroom, ?_⟩, fun hno => absurd hform hno⟩
      simp only [assignDate, if_neg hbuff, ha, hb, hc, Run.ok_bind, hdigit, not_true_eq_false,
        if_false, copy_fits hroom]
    · refine ⟨fun hform => absurd hword (not_wordFirst (by decide) (by decide) hform),
        fun _ g => ?_⟩
      have hbuff : ¬ 15 ≤ value.length := by omega
      rw [assignDate, if_neg hbuff]
      exact firstPart_word hword

/-- **The values `AssignTime` decides**: times, and those that do not begin with a number. -/
theorem time_exact_iff (value : CStr) :
    Exact TimeForm (fun value g => assignTime value g .timeP) .timeP value ↔ TimeDecided value := by
  constructor
  · intro h
    by_cases hform : TimeForm value
    · exact .inl hform
    · obtain ⟨g, hg⟩ := exists_other .timeP value
      obtain ⟨hlen, hword | hset⟩ := assignTime_ok (h.refused hform g)
      · exact .inr ⟨hlen, hword⟩
      · exact absurd hset hg
  · rintro (hform | ⟨hlen, hword⟩)
    · obtain ⟨a, s, b, s', c, ha, hdigit, hb, hc, hlen⟩ :=
        ThreeNumbers.parts (by decide) (by decide) hform
      have hroom : value.length < TextVar.timeP.size := Nat.lt_of_le_of_lt hlen (by decide)
      have hbuff : ¬ 128 ≤ value.length := Nat.not_le_of_lt (Nat.lt_trans hroom (by decide))
      -- what is written before the last check is part of the value
      have hfirst := Assign.length_strtok (Assign.token_eq_ok.mp ha)
      have hsecond := Assign.length_strtok (Assign.token_eq_ok.mp hb)
      have hroom₁ : a.length < TextVar.timeP.size := by omega
      have hroom₂ : (a.append b).length < TextVar.timeP.size := by
        rw [CStr.length_append]
        omega
      refine ⟨fun _ g => ⟨hroom, ?_⟩, fun hno => absurd hform hno⟩
      simp only [assignTime, if_neg hbuff, ha, hb, hc, Run.ok_bind, hdigit, not_true_eq_false,
        if_false, copy_fits hroom₁, copy_fits hroom₂, copy_fits hroom, Globals.setText_setText]
    · refine ⟨fun hform => absurd hword (not_wordFirst (by decide) (by decide) hform),
        fun _ g => ?_⟩
      have hbuff : ¬ 128 ≤ value.length := by omega
      rw [assignTime, if_neg hbuff]
      exact firstPart_word hword

end Parts

/-- **Time zones, dates and times are imported exactly** just from the values that are decided. -/
theorem timeValues_exact_iff (zone date time : CStr) :
    ((∀ dev, Exact ZoneForm (fun value g => assignTimeZone dev value g .timeZone) .timeZone zone) ∧
      Exact DateForm (fun value g => assignDate value g .dateP) .dateP date ∧
      Exact TimeForm (fun value g => assignTime value g .timeP) .timeP time) ↔
      ZoneDecided zone ∧ DateDecided date ∧ TimeDecided time := by
  rw [zone_exact_iff, date_exact_iff, time_exact_iff]

/-- Tehran is refused, a date of one number goes through NULL, and a time out of range is stored. -/
theorem timeValues_not_exact :
    ¬ Exact ZoneForm (fun value g => assignTimeZone .bare value g .timeZone) .timeZone
        (CStr.text "043+03:30") ∧
      ¬ Exact DateForm (fun value g => assignDate value g .dateP) .dateP (CStr.text "2024") ∧
      ¬ Exact TimeForm (fun value g => assignTime value g .timeP) .timeP
      (CStr.text "99:99:99") := by
  refine ⟨fun h => ?_, fun h => ?_, fun h => ?_⟩
  · have hform : ZoneForm (CStr.text "043+03:30") :=
      ⟨ascii "043".toList, ascii "03".toList, ascii "30".toList, 0x2b, by decide +kernel,
        by decide +kernel, by decide +kernel, by decide +kernel, .inr rfl, by decide, by decide⟩
    obtain ⟨hroom, hset⟩ := h.stored hform .initial
    have hkeep : assignTimeZone .bare (CStr.text "043+03:30") .initial .timeZone =
        .ok .initial := by
      refine assignTimeZone_of_not_valid (ZoneRefused.not_valid ?_) _ _
      exact .inr (.inr (.inr ⟨30, by decide +kernel, by decide, by decide⟩))
    rw [hkeep] at hset
    exact absurd (text_of_setText (Except.ok.inj hset)) (by decide)
  · have hno : ¬ DateForm (CStr.text "2024") := by
      rintro ⟨a, b, c, hbytes, -⟩
      have hmem : (0x2f : Byte) ∈ (CStr.text "2024").bytes := by rw [hbytes]; simp
      exact absurd hmem (by decide)
    have herror : assignDate (CStr.text "2024") .initial .dateP = .error (.null .token) := rfl
    have hkeep := h.refused hno .initial
    rw [herror] at hkeep
    cases hkeep
  · have hno : ¬ TimeForm (CStr.text "99:99:99") := by
      rintro ⟨a, b, c, hbytes, ha, -, -, hhour, -⟩
      match a, ha with
      | [], ha => exact absurd ha.1 (by decide)
      | [x], _ =>
          have hsecond : (CStr.text "99:99:99").bytes[1]? = some 0x3a := by rw [hbytes]; rfl
          exact absurd hsecond (by decide)
      | [x, y], _ =>
          have hfront : (CStr.text "99:99:99").bytes.take 2 = [x, y] := by rw [hbytes]; rfl
          rw [← hfront] at hhour
          exact absurd hhour (by decide)
      | _ :: _ :: _ :: _, ha => exact absurd ha.2.1 (by simp)
    have hroom : (CStr.text "99:99:99").length < TextVar.timeP.size := by decide
    have hset : assignTime (CStr.text "99:99:99") .initial .timeP =
        .ok (Globals.initial.setText .timeP ⟨_, hroom⟩) := by
      rw [← Globals.setText_setText, ← Globals.setText_setText]
      rfl
    have hkeep := h.refused hno .initial
    rw [hset] at hkeep
    exact absurd (text_of_setText (Except.ok.inj hkeep).symm) (by decide)

end Wap4410n.Editcfg
