import Wap4410n.Editcfg.Tables

/-!
# Editcfg — what reading a value writes

The tables pair each variable with the function that reads its value, and nothing else matches the
function with the size of the variable: most functions clear as many bytes as the value has before
they look at its length.  A function is meant to write its own variable alone, and to leave it as it
is when it refuses the value (`Assign.Meets`).

A value is refused where the function returns before it stores the value or a default for it
(`Assign.Accepts` says when it does not).  A value of stars is one that the functions of secrets
refuse behind the clearing; an entry of the list of legal access points that is in the list already
takes one from the number of entries.

* `Assign.sized_cfgData`: the sizes of the variables, row by row.
* `Assign.meets_iff`: when a function writes its own variable alone.
* `attribute_meets`: the same, of the rows of the tables.
* `language_overflows`: a value that is longer than the variable.
-/

namespace Wap4410n.Editcfg

open CLib Apcfg

namespace Assign

/-! ### What a function is meant to do -/

/-- `*p` is a digit in the first part of the value. -/
def NumberFirst (sep : Byte) (value : CStr) : Prop :=
  ∃ p s, value.strtok [sep] = some (p, s) ∧ isDigit (p.mem.headD 0) = true

/-- The value has three parts. -/
def ThreeParts (sep : Byte) (value : CStr) : Prop :=
  ∃ p s q s', value.strtok [sep] = some (p, s) ∧ s.strtok [sep] = some (q, s') ∧
    (s'.strtok [sep]).isSome = true

/-- The octets of an address that `AssignIP` accepts. -/
def ValidIP (value : CStr) : Prop :=
  ∃ a b c d, scanOctets value = some (a, b, c, d) ∧
    1 ≤ a ∧ a ≤ 254 ∧ b ≤ 255 ∧ c ≤ 255 ∧ 1 ≤ d ∧ d ≤ 254

/-- The octets of a mask. -/
def ValidMask (value : CStr) : Prop :=
  ∃ a b c d, scanOctets value = some (a, b, c, d) ∧ validMask a b c d = true

/-- A number in its bounds. -/
def ValidNumber (checked : Bool) (lo hi : Int) (value : CStr) : Prop :=
  ∃ t, numberOf value checked = some t ∧ lo ≤ t ∧ t ≤ hi

/-- An address of twelve or seventeen characters. -/
def ValidMac (value : CStr) : Prop :=
  (value.length = 12 ∨ value.length = 17) ∧
    isHexStr (value.length = 17) value.length 0 value.bytes = true

/-- The entry as it is compared with the list. -/
def entryOf (value : CStr) : List Byte :=
  if value.length = 12 then scMacStr12ToStr17 value.bytes else value.bytes

/-- `IsInScMacList` -/
def Listed (value : CStr) (p : RogueAPMacList) : Prop :=
  ((List.range p.outNo.toNat).any fun i => p.mac i = entryOf value) = true

/-- The time zones `AssignTimeZone` accepts. -/
def ValidZone (dev : Device) (value : CStr) : Prop :=
  let i := scanInt value.bytes
  let h := i.bind fun r => scanInt r.2
  let m := h.bind fun r => (scanChar 0x3a r.2).bind scanInt
  let number := fun (k : Nat) (r : Option (Int32 × List Byte)) =>
    (r.map (·.1.toInt)).getD (dev.unset k)
  value.length ≤ 12 ∧ (1 ≤ number 0 i ∧ number 0 i ≤ 75) ∧
    (-12 ≤ number 1 h ∧ number 1 h ≤ 13) ∧ (number 2 m = 0 ∨ number 2 m = 45 ∧ number 1 h = 5)

/-- The servers `AssignSMTPServer` accepts. -/
def ValidServer (dev : Device) (value : CStr) : Prop :=
  value.length < 65 ∧ dev.validUrl value = true ∧
    ¬ ascii "http://".toList <+: (scToLows value).bytes ∧
    ¬ ascii "https://".toList <+: (scToLows value).bytes

/-- The texts for which `scValidGWv6` returns: they fit `buff[46]` and are not empty, no colon
stands alone in front of the first slash, and a first part that is let through has something behind
it. -/
def GatewayReturns (value : CStr) : Prop :=
  value.length ≤ 45 ∧ value.bytes ≠ [] ∧ value.bytes.takeWhile (· ≠ 0x2f) ≠ [0x3a] ∧
    ∀ p s, value.strtok [0x2f] = some (p, s) → Utility.GatewayPart p → ∃ b ∈ s.bytes, b ≠ 0x2f

/-- The function stores the value, or a default for it. -/
def Accepts (dev : Device) (value : CStr) (g : Globals) : Assign → Prop
  | digit lo hi _ => lo ≤ value.mem.headD 0 - 0x30 ∧ value.mem.headD 0 - 0x30 ≤ hi
  | byteNumber checked lo hi _ | wordNumber checked lo hi _ => ValidNumber checked lo hi value
  | keyLen _ | str _ _ => True
  | percent _ => (dev.percent value).isSome = true
  | country _ => isDigit (value.mem.headD 0) = true
  | ip _ => ValidIP value
  | mask _ => ValidMask value
  | mac _ => value.length = 0 ∨ ValidMac value
  | ssid _ => value.length ≤ 32
  | timeZone _ => ValidZone dev value
  | date _ => NumberFirst 0x2f value
  | time _ => NumberFirst 0x3a value
  | ipv6 _ => dev.validIPv6 value = true
  | gwv6 _ => Utility.scValidGWv6 value = .ok true
  | url _ => dev.validUrl (scToLows value) = true
  | mail _ => value.length ≤ 64 ∧ dev.validEmailAddr value = true
  | smtpServer _ => ValidServer dev value
  | wdsvlist _ => dev.validwdsVlanList value = true
  | password _ => 4 ≤ value.length ∧ isStarStr value = false
  | secret128 _ => isStarStr value = false
  | key _ => value.length = 0 ∨ (value.length = 10 ∨ value.length = 26) ∧
      isHexStr false value.length 0 value.bytes = true ∧ isStarStr value = false
  | preSharedKey _ => 8 ≤ value.length ∧ value.length ≤ 63 ∧ isStarStr value = false
  | rogueNo => atoi value ≤ 255
  | scMacList => g.rogueApMacList.outNo < g.rogueApMacList.no ∧ ValidMac value ∧
      ¬ Listed value g.rogueApMacList

/-- `var` holds the same in both; of the list of legal access points, the `var` of
`Legal_AP_List_entry_no` is the number of entries. -/
def Unchanged (g g' : Globals) : Assign → Prop
  | rogueNo => g.rogueApMacList.no = g'.rogueApMacList.no
  | a => g.Same g' a.var

/-- The call returns, has written the variable alone, and has left it as it is if it refuses the
value. -/
def Writes (dev : Device) (value : CStr) (g : Globals) (a : Assign) (r : Run Buf Globals) : Prop :=
  ∃ g', r = .ok g' ∧ (∀ x, x ≠ a.var → g.Same g' x) ∧
    (¬ a.Accepts dev value g → a.Unchanged g g')

/-- `assignfunc(var, value)` writes `var` alone, and not if it refuses the value. -/
def Meets (dev : Device) (value : CStr) (g : Globals) (a : Assign) : Prop :=
  a.Writes dev value g (a.run dev value g)

/-! ### Where it does -/

/-- The call returns: the value fits the variable, a gateway is one that its check returns for, and
a date or a time has its three parts. -/
def Fits (dev : Device) (value : CStr) (g : Globals) : Assign → Prop
  | str _ v => value.length < v.size
  | ipv6 v => dev.validIPv6 value = true → value.length < v.size
  | gwv6 v => GatewayReturns value ∧
      (Utility.scValidGWv6 value = .ok true → value.length < v.size)
  | wdsvlist v => dev.validwdsVlanList value = true → value.length < v.size
  | date v => value.length < v.size ∧ (value.strtok [0x2f]).isSome = true ∧
      (NumberFirst 0x2f value → ThreeParts 0x2f value)
  | time v => (value.strtok [0x3a]).isSome = true ∧
      (NumberFirst 0x3a value → ThreeParts 0x3a value ∧ value.length < v.size)
  | password v => value.length < v.size
  | scMacList => scMacList.Accepts dev value g → g.rogueApMacList.outNo.toNat < acNo
  | _ => True

/-- What the function refuses leaves the variable as it is: a value of stars finds an empty one, and
an entry is not in the list already. -/
def Spares (value : CStr) (g : Globals) : Assign → Prop
  | password v => 4 ≤ value.length → isStarStr value = true → g.text v = .empty
  | secret128 v => isStarStr value = true → g.text v = .empty
  | key v => value.length = 10 ∨ value.length = 26 → isStarStr value = true → g.text v = .empty
  | preSharedKey v => 8 ≤ value.length → value.length ≤ 63 → isStarStr value = true →
      g.text v = .empty
  | scMacList => g.rogueApMacList.outNo < g.rogueApMacList.no → ValidMac value →
      ¬ Listed value g.rogueApMacList
  | _ => True

/-- The sizes of the variables of the functions that do not look at more than the length of the
value. -/
def Sized : Assign → Prop
  | ssid v => v.size = 33
  | timeZone v => v.size = 13
  | date v => v.size = 15
  | url v => v.size = 257
  | mail v | smtpServer v | preSharedKey v => v.size = 65
  | password v => v.size = 64
  | secret128 v => v.size = 129
  | key v => v.size = 33
  | _ => True

instance (a : Assign) : Decidable a.Sized := by
  unfold Sized
  split <;> infer_instance

/-- **The sizes of the variables**, row by row. -/
theorem sized_cfgData : ∀ p ∈ cfgData, ∀ row ∈ p.attrs, ∀ a ∈ row.assignfunc, a.Sized := by
  decide +kernel

section Writes

variable {dev : Device} {value : CStr} {g : Globals} {a : Assign}

theorem unchanged_refl (a : Assign) (g : Globals) : a.Unchanged g g := by
  cases a <;> rfl

/-- A call that changes nothing. -/
theorem writes_none : a.Writes dev value g (.ok g) :=
  ⟨g, rfl, fun _ _ => .refl, fun _ => unchanged_refl a g⟩

theorem not_writes_error {e : Fault Buf} : ¬ a.Writes dev value g (.error e) := by
  rintro ⟨g', h, -⟩
  cases h

/-- A call that stores what it accepts. -/
theorem writes_of_accepts (ha : a.Accepts dev value g) {g' : Globals}
    (hframe : ∀ x, x ≠ a.var → g.Same g' x) : a.Writes dev value g (.ok g') :=
  ⟨g', rfl, hframe, fun h => absurd ha h⟩

/-- A call that stores what it accepts, and changes nothing else. -/
theorem writes_ite {p : Prop} [Decidable p] (hp : p → a.Accepts dev value g) {g' : Globals}
    (hframe : ∀ x, x ≠ a.var → g.Same g' x) :
    a.Writes dev value g (.ok (if p then g' else g)) := by
  split
  · rename_i h
    exact writes_of_accepts (hp h) hframe
  · exact writes_none

/-- A copy of a value that is accepted needs room. -/
theorem writes_copy {v : TextVar} (hvar : a.var = .text v) (ha : a.Accepts dev value g) {p : CStr} :
    a.Writes dev value g (copy v p g) ↔ p.length < v.size := by
  constructor
  · intro h
    by_contra hlong
    rw [copy, dif_neg hlong] at h
    exact not_writes_error h
  · intro h
    rw [copy_fits h]
    exact writes_of_accepts ha fun x hx => Globals.same_setText v _ (hvar ▸ hx)

/-- A function of a text that stores what passes a check. -/
theorem writes_valid {v : TextVar} (hvar : a.var = .text v) {valid : CStr → Bool} {p : CStr}
    (ha : a.Accepts dev value g ↔ valid p = true) :
    a.Writes dev value g (assignValid p g valid v) ↔ (valid p = true → p.length < v.size) := by
  unfold assignValid
  split
  · rename_i h
    rw [writes_copy hvar (ha.mpr h)]
    exact ⟨fun hlt _ => hlt, fun hlt => hlt h⟩
  · rename_i h
    exact iff_of_true writes_none fun hv => absurd hv h

theorem held_eq_iff {v : TextVar} {x : Held v.size} : g.held v = x ↔ g.text v = x.text := by
  constructor
  · intro h
    rw [Globals.text, h]
  · intro h
    cases x
    cases hheld : g.held v
    rw [Globals.text, hheld] at h
    cases h
    rfl

/-- The functions of secrets: the variable is cleared, and a value of stars is not stored. -/
theorem writes_secret {v : TextVar} (hvar : a.var = .text v) {n : Nat} (hn : value.length ≤ n)
    (haccept : a.Accepts dev value g ↔ isStarStr value = false) :
    a.Writes dev value g (assignSecret value g n v) ↔
      value.length < v.size ∧ (isStarStr value = true → g.text v = .empty) := by
  have htake : value.take n = value := by
    rw [CStr.ext_iff]
    exact List.take_of_length_le hn
  unfold assignSecret
  by_cases hsize : v.size ≤ value.length
  · rw [if_pos hsize]
    exact iff_of_false not_writes_error fun h => absurd h.1 (by omega)
  · rw [if_neg hsize]
    have hlt : value.length < v.size := by omega
    by_cases hstar : isStarStr value = true
    · have hrefused : ¬ a.Accepts dev value g := by
        rw [haccept, hstar]
        exact Bool.noConfusion
      have hroom : CStr.empty.length < v.size := v.size_pos
      rw [if_pos hstar, copy_fits hroom]
      constructor
      · rintro ⟨g', hg', hframe, hunchanged⟩
        refine ⟨hlt, fun _ => ?_⟩
        cases hg'
        have hsame : g.Same (g.setText v ⟨.empty, v.size_pos⟩) (.text v) := by
          have h := hunchanged hrefused
          cases a <;> first | cases hvar; done | exact hvar ▸ h
        have hheld : g.held v = ⟨.empty, v.size_pos⟩ := by
          rw [← Globals.held_setText_self (g := g) v ⟨.empty, v.size_pos⟩]
          exact hsame
        exact held_eq_iff.mp hheld
      · rintro ⟨-, hempty⟩
        have hself : g.setText v ⟨.empty, v.size_pos⟩ = g := by
          have hheld : g.held v = ⟨.empty, hroom⟩ := held_eq_iff.mpr (hempty hstar)
          rw [Globals.setText, ← hheld, Function.update_eq_self]
        rw [hself]
        exact writes_none
    · rw [if_neg hstar, htake, writes_copy hvar (haccept.mpr (Bool.eq_false_iff.mpr hstar))]
      exact ⟨fun h => ⟨h, fun h' => absurd h' hstar⟩, And.left⟩

/-! ### Function by function -/

theorem digit_writes (lo hi : Byte) (v : ByteVar) :
    (digit lo hi v).Writes dev value g (.ok (assignDigit value g lo hi v)) := by
  rw [assignDigit]
  split
  · rename_i hbounds
    refine writes_of_accepts ?_ fun _ hx => Globals.same_setByte v _ hx
    exact hbounds
  · exact writes_none

theorem byteNumber_meets (checked : Bool) (lo hi : Int) (v : ByteVar) :
    (byteNumber checked lo hi v).Meets dev value g := by
  unfold Meets run
  dsimp only
  cases hn : numberOf value checked with
  | none => exact writes_none
  | some t =>
      refine writes_ite (fun h => ?_) fun _ hx => Globals.same_setByte v _ hx
      exact ⟨t, hn, h⟩

theorem wordNumber_meets (checked : Bool) (lo hi : Int) (v : WordVar) :
    (wordNumber checked lo hi v).Meets dev value g := by
  unfold Meets run
  dsimp only
  cases hn : numberOf value checked with
  | none => exact writes_none
  | some t =>
      refine writes_ite (fun h => ?_) fun _ hx => Globals.same_setWord v _ hx
      exact ⟨t, hn, h⟩

theorem percent_meets (v : WordVar) : (percent v).Meets dev value g := by
  unfold Meets run
  dsimp only
  cases hp : dev.percent value with
  | none => exact writes_none
  | some t =>
      refine writes_of_accepts ?_ fun _ hx => Globals.same_setWord v _ hx
      exact Option.isSome_of_eq_some hp

theorem country_writes (v : WordVar) :
    (country v).Writes dev value g (.ok (assignCountry dev value g v)) := by
  have hset (x : UInt16) (hdigit : isDigit (value.mem.headD 0) = true) :
      (country v).Writes dev value g (.ok (g.setWord v x)) :=
    writes_of_accepts (a := .country v) hdigit fun _ hx => Globals.same_setWord v _ hx
  rw [assignCountry]
  split
  · exact writes_none
  · rename_i hdigit
    have hdigit : isDigit (value.mem.headD 0) = true := by simpa using hdigit
    split
    · exact hset _ hdigit
    · split
      · exact hset _ hdigit
      · exact hset _ hdigit

theorem ip_writes (v : AddrVar) : (ip v).Writes dev value g (.ok (assignIP value g v)) := by
  rw [assignIP]
  split
  · rename_i a b c d hscan
    split
    · rename_i hvalid
      refine writes_of_accepts ?_ fun _ hx => Globals.same_setAddr v _ hx
      exact ⟨a, b, c, d, hscan, hvalid⟩
    · exact writes_none
  · exact writes_none

theorem mask_writes (v : AddrVar) : (mask v).Writes dev value g (.ok (assignMask value g v)) := by
  rw [assignMask]
  split
  · rename_i a b c d hscan
    split
    · rename_i hvalid
      refine writes_of_accepts ?_ fun _ hx => Globals.same_setAddr v _ hx
      exact ⟨a, b, c, d, hscan, hvalid⟩
    · exact writes_none
  · exact writes_none

theorem mac_writes (v : MacVar) : (mac v).Writes dev value g (.ok (assignMac value g v)) := by
  rw [assignMac]
  split
  · rename_i hzero
    refine writes_of_accepts ?_ fun _ hx => Globals.same_setMac v _ hx
    exact .inl hzero
  · split
    · exact writes_none
    · rename_i hlen
      split
      · exact writes_none
      · rename_i hhex
        refine writes_of_accepts ?_ fun _ hx => Globals.same_setMac v _ hx
        exact .inr ⟨by omega, by simpa using hhex⟩

theorem str_writes (n : Nat) (v : TextVar) :
    (str n v).Writes dev value g (assignStr value g n v) ↔ value.length < v.size := by
  rw [assignStr]
  split
  · rename_i hlt
    refine (writes_copy (a := .str n v) rfl trivial).trans (iff_of_true ?_ hlt)
    exact Nat.lt_of_le_of_lt (List.length_take_le' _ _) hlt
  · rename_i hlong
    exact iff_of_false not_writes_error hlong

theorem ssid_writes {v : TextVar} (hsize : v.size = 33) :
    (ssid v).Writes dev value g (assignSSID value g v) := by
  rw [assignSSID]
  split
  · exact writes_none
  · rename_i hlen
    have haccept : (ssid v).Accepts dev value g := Nat.le_of_not_lt hlen
    exact (writes_copy rfl haccept).mpr (by omega)

theorem timeZone_writes {v : TextVar} (hsize : v.size = 13) :
    (timeZone v).Writes dev value g (assignTimeZone dev value g v) := by
  rw [assignTimeZone]
  split
  · exact writes_none
  · rename_i hlen
    dsimp only
    split
    · exact writes_none
    · split
      · exact writes_none
      · split
        · exact writes_none
        · split
          · exact writes_none
          · split
            · exact writes_none
            · rename_i hi hh hm h45 h30
              have haccept : (timeZone v).Accepts dev value g :=
                ⟨by omega, by dsimp only; omega, by dsimp only; omega, by dsimp only; omega⟩
              exact (writes_copy rfl haccept).mpr (by omega)

theorem keyLen_writes (v : ByteVar) :
    (keyLen v).Writes dev value g (.ok (g.setByte v (keyLenOf value))) := by
  refine writes_of_accepts ?_ fun _ hx => Globals.same_setByte v _ hx
  exact trivial

theorem length_scToLows (s : CStr) : (scToLows s).length ≤ s.length := by
  unfold scToLows CStr.before CStr.length
  exact (List.takeWhile_sublist _).length_le.trans (List.length_map _).le

theorem url_writes {v : TextVar} (hsize : v.size = 257) (hlen : value.length ≤ 126) :
    (url v).Writes dev value g (assignValid (scToLows value) g dev.validUrl v) := by
  refine (writes_valid rfl Iff.rfl).mpr fun _ => ?_
  have := length_scToLows value
  omega

theorem mail_meets {v : TextVar} (hsize : v.size = 65) : (mail v).Meets dev value g := by
  unfold Meets run
  dsimp only
  refine (writes_valid rfl ?_).mpr fun h => ?_
  · rw [decide_eq_true_iff]
    exact Iff.rfl
  · have := (of_decide_eq_true h).1
    omega

theorem smtpServer_writes {v : TextVar} (hsize : v.size = 65) :
    (smtpServer v).Writes dev value g (assignSMTPServer dev value g v) := by
  rw [assignSMTPServer]
  refine (writes_valid rfl ?_).mpr fun h => ?_
  · rw [decide_eq_true_iff]
    exact Iff.rfl
  · have := (of_decide_eq_true h).1
    omega

theorem token_eq_ok {sep : Byte} {s : CStr} {r : CStr × CStr} :
    token sep s = .ok r ↔ s.strtok [sep] = some r := by
  unfold token
  split
  · rename_i h
    exact iff_of_false (fun h' => by cases h') (by rw [h]; exact fun h' => by cases h')
  · rename_i r' h
    rw [h, Except.ok.injEq, Option.some.injEq]

theorem copy_eq_ok {v : TextVar} {p : CStr} {g g' : Globals} :
    copy v p g = .ok g' ↔ ∃ hp : p.length < v.size, g' = g.setText v ⟨p, hp⟩ :=
  ⟨copy_ok, fun ⟨hp, hg'⟩ => hg' ▸ copy_fits hp g⟩

/-- The parts of a text are not longer than the text. -/
theorem length_strtok {sep : Byte} {s p r : CStr} (h : s.strtok [sep] = some (p, r)) :
    p.length + r.length ≤ s.length := strtok_length (CStr.strtok_eq_some.mp h)

/-- Of a value that is accepted, it is left to show that the call returns. -/
theorem writes_iff_returns (ha : a.Accepts dev value g) {r : Run Buf Globals}
    (hframe : ∀ g', r = .ok g' → ∀ x, x ≠ a.var → g.Same g' x) :
    a.Writes dev value g r ↔ ∃ g', r = .ok g' := by
  constructor
  · rintro ⟨g', hg', -⟩
    exact ⟨g', hg'⟩
  · rintro ⟨g', hg'⟩
    exact ⟨g', hg', hframe g' hg', fun h => absurd ha h⟩

/-- A function that reads the first part of the value and goes on if it is a number. -/
theorem writes_number {sep : Byte} {r : CStr × CStr → Run Buf Globals} {P : Prop}
    (haccept : a.Accepts dev value g ↔ NumberFirst sep value)
    (hframe : ∀ t g', r t = .ok g' → ∀ x, x ≠ a.var → g.Same g' x)
    (hreturns : ∀ t, value.strtok [sep] = some t → ((∃ g', r t = .ok g') ↔ P)) :
    a.Writes dev value g (do
      let t ← token sep value
      if ¬ isDigit (t.1.mem.headD 0) then return g else
      r t) ↔ (value.strtok [sep]).isSome = true ∧ (NumberFirst sep value → P) := by
  cases hp : value.strtok [sep] with
  | none =>
      have htoken : token sep value = .error (.null .token) := by rw [token, hp]
      rw [htoken, Run.error_bind]
      exact iff_of_false not_writes_error fun h => Bool.noConfusion h.1
  | some t =>
      rw [token_eq_ok.mpr hp, Run.ok_bind]
      by_cases hdigit : isDigit (t.1.mem.headD 0) = true
      · have hnumber : NumberFirst sep value := ⟨t.1, t.2, hp, hdigit⟩
        rw [if_neg (not_not_intro hdigit), writes_iff_returns (haccept.mpr hnumber) (hframe t),
          hreturns t hp]
        exact ⟨fun h => ⟨rfl, fun _ => h⟩, fun h => h.2 hnumber⟩
      · have hnumber : ¬ NumberFirst sep value := by
          rintro ⟨p, s, h, hfirst⟩
          cases hp.symm.trans h
          exact hdigit hfirst
        rw [if_pos hdigit]
        exact iff_of_true writes_none ⟨rfl, fun h => absurd h hnumber⟩

theorem date_writes {v : TextVar} (hsize : v.size = 15) :
    (date v).Writes dev value g (assignDate value g v) ↔
      value.length < v.size ∧ (value.strtok [0x2f]).isSome = true ∧
        (NumberFirst 0x2f value → ThreeParts 0x2f value) := by
  rw [assignDate, hsize]
  by_cases hlen : 15 ≤ value.length
  · rw [if_pos hlen]
    exact iff_of_false not_writes_error fun h => absurd h.1 (by omega)
  · have hlt : value.length < 15 := by omega
    rw [if_neg hlen, and_iff_right hlt]
    refine writes_number Iff.rfl ?_ ?_
    · intro t g' h x hx
      obtain ⟨q, -, h⟩ := Run.bind_eq_ok.mp h
      obtain ⟨r, -, h⟩ := Run.bind_eq_ok.mp h
      obtain ⟨hp, rfl⟩ := copy_eq_ok.mp h
      exact Globals.same_setText v _ hx
    · intro t ht
      constructor
      · rintro ⟨g', h⟩
        obtain ⟨q, hq, h⟩ := Run.bind_eq_ok.mp h
        obtain ⟨r, hr, -⟩ := Run.bind_eq_ok.mp h
        have hthird := token_eq_ok.mp hr
        exact ⟨t.1, t.2, q.1, q.2, ht, token_eq_ok.mp hq, Option.isSome_of_eq_some hthird⟩
      · rintro ⟨p, s, q, s', hp, hq, hr⟩
        cases ht.symm.trans hp
        obtain ⟨r, hr⟩ := Option.isSome_iff_exists.mp hr
        have hroom : value.length < v.size := by omega
        refine ⟨g.setText v ⟨value, hroom⟩, Run.bind_eq_ok.mpr ⟨_, token_eq_ok.mpr hq, ?_⟩⟩
        exact Run.bind_eq_ok.mpr ⟨r, token_eq_ok.mpr hr, copy_fits hroom g⟩

theorem time_writes {v : TextVar} (hlen : value.length ≤ 126) :
    (time v).Writes dev value g (assignTime value g v) ↔
      (value.strtok [0x3a]).isSome = true ∧
        (NumberFirst 0x3a value → ThreeParts 0x3a value ∧ value.length < v.size) := by
  rw [assignTime, if_neg (by omega)]
  refine writes_number Iff.rfl ?_ ?_
  · intro t g' h x hx
    obtain ⟨g₁, h₁, h⟩ := Run.bind_eq_ok.mp h
    obtain ⟨q, -, h⟩ := Run.bind_eq_ok.mp h
    obtain ⟨g₂, h₂, h⟩ := Run.bind_eq_ok.mp h
    obtain ⟨r, -, h⟩ := Run.bind_eq_ok.mp h
    obtain ⟨hp₁, rfl⟩ := copy_eq_ok.mp h₁
    obtain ⟨hp₂, rfl⟩ := copy_eq_ok.mp h₂
    obtain ⟨hp, rfl⟩ := copy_eq_ok.mp h
    exact ((Globals.same_setText v _ hx).trans (Globals.same_setText v _ hx)).trans
      (Globals.same_setText v _ hx)
  · intro t ht
    constructor
    · rintro ⟨g', h⟩
      obtain ⟨g₁, -, h⟩ := Run.bind_eq_ok.mp h
      obtain ⟨q, hq, h⟩ := Run.bind_eq_ok.mp h
      obtain ⟨g₂, -, h⟩ := Run.bind_eq_ok.mp h
      obtain ⟨r, hr, h⟩ := Run.bind_eq_ok.mp h
      obtain ⟨hroom, -⟩ := copy_eq_ok.mp h
      have hthird := token_eq_ok.mp hr
      refine ⟨⟨t.1, t.2, q.1, q.2, ht, token_eq_ok.mp hq, ?_⟩, hroom⟩
      exact Option.isSome_of_eq_some hthird
    · rintro ⟨⟨p, s, q, s', hp, hq, hr⟩, hroom⟩
      cases ht.symm.trans hp
      obtain ⟨r, hr⟩ := Option.isSome_iff_exists.mp hr
      -- the parts, and what is put together from them, are no longer than the value
      have hlp := length_strtok hp
      have hlq := length_strtok hq
      have hroom₁ : p.length < v.size := by omega
      have hroom₂ : (p.append q).length < v.size := by
        rw [CStr.length_append]
        omega
      refine ⟨((g.setText v ⟨p, hroom₁⟩).setText v ⟨p.append q, hroom₂⟩).setText v ⟨value, hroom⟩,
        Run.bind_eq_ok.mpr ⟨_, copy_fits hroom₁ g, ?_⟩⟩
      refine Run.bind_eq_ok.mpr ⟨_, token_eq_ok.mpr hq, ?_⟩
      refine Run.bind_eq_ok.mpr ⟨_, copy_fits hroom₂ _, ?_⟩
      exact Run.bind_eq_ok.mpr ⟨r, token_eq_ok.mpr hr, copy_fits hroom _⟩

theorem gwv6_writes (v : TextVar) :
    (gwv6 v).Writes dev value g (assignGWv6 value g v) ↔
      GatewayReturns value ∧ (Utility.scValidGWv6 value = .ok true → value.length < v.size) := by
  have hreturns : (∃ r, Utility.scValidGWv6 value = .ok r) ↔ GatewayReturns value :=
    Utility.scValidGWv6_returns
  rw [assignGWv6, ← hreturns]
  cases hcheck : validGWv6 value with
  | error e =>
      refine iff_of_false not_writes_error fun h => ?_
      obtain ⟨r, hr⟩ := h.1
      cases hcheck.symm.trans (validGWv6_eq_ok.mpr hr)
  | ok r =>
      have hcall := validGWv6_eq_ok.mp hcheck
      rw [Run.ok_bind, and_iff_right ⟨r, hcall⟩]
      cases r with
      | false => exact iff_of_true writes_none fun h => by cases hcall.symm.trans h
      | true =>
          have haccept : (gwv6 v).Accepts dev value g := hcall
          exact (writes_copy rfl haccept).trans ⟨fun h _ => h, fun h => h hcall⟩

theorem password_writes {v : TextVar} (hsize : v.size = 64) :
    (password v).Writes dev value g (assignPassword value g v) ↔
      value.length < v.size ∧
        (4 ≤ value.length → isStarStr value = true → g.text v = .empty) := by
  rw [assignPassword, hsize]
  split
  · rename_i hshort
    exact iff_of_true writes_none ⟨by omega, fun h => absurd h (by omega)⟩
  · rename_i hlong
    have hfour : 4 ≤ value.length := by omega
    by_cases hlen : value.length ≤ 64
    · rw [writes_secret (a := .password v) rfl hlen (and_iff_right hfour), hsize]
      exact and_congr_right fun _ => ⟨fun h _ => h, fun h => h hfour⟩
    · rw [assignSecret, if_pos (by omega)]
      exact iff_of_false not_writes_error fun h => absurd h.1 (by omega)

theorem secret128_writes {v : TextVar} (hsize : v.size = 129) (hlen : value.length ≤ 126) :
    (secret128 v).Writes dev value g (assignSecret128 value g v) ↔
      (isStarStr value = true → g.text v = .empty) := by
  rw [assignSecret128, writes_secret (a := .secret128 v) rfl (by omega) Iff.rfl]
  exact and_iff_right (by omega)

/-- A text of stars that is long enough passes for a text of digits. -/
theorem isHexStr_stars {l : Nat} (hstar : isStarStr value = true) (hlen : 6 ≤ value.length) :
    isHexStr false l 0 value.bytes = true := by
  have hall : value.bytes = List.replicate value.length 0x2a := by
    refine List.eq_replicate_iff.mpr ⟨rfl, fun b hb => ?_⟩
    unfold isStarStr at hstar
    simpa using List.all_eq_true.mp hstar b hb
  obtain ⟨n, hn⟩ : ∃ n, value.length = n + 6 := ⟨value.length - 6, by omega⟩
  rw [hall, hn]
  simp [isHexStr, isHex, ascii, List.replicate_succ]

theorem key_writes {v : TextVar} (hsize : v.size = 33) :
    (key v).Writes dev value g (assignKey value g v) ↔
      (value.length = 10 ∨ value.length = 26 → isStarStr value = true → g.text v = .empty) := by
  rw [assignKey]
  split
  · rename_i hzero
    have haccept : (key v).Accepts dev value g := .inl hzero
    have hroom : CStr.empty.length < v.size := v.size_pos
    exact iff_of_true ((writes_copy rfl haccept).mpr hroom) fun h => absurd h (by omega)
  · rename_i hzero
    split
    · rename_i hlen
      exact iff_of_true writes_none fun h => absurd h (by omega)
    · rename_i hlen
      have hlen : value.length = 10 ∨ value.length = 26 := by omega
      split
      · rename_i hhex
        refine iff_of_true writes_none fun _ hstar => absurd (isHexStr_stars hstar ?_) hhex
        omega
      · rename_i hhex
        have hhex : isHexStr false value.length 0 value.bytes = true := by simpa using hhex
        have haccept : (key v).Accepts dev value g ↔ isStarStr value = false := by
          rw [Accepts, or_iff_right hzero, and_iff_right hlen, and_iff_right hhex]
        rw [writes_secret (a := .key v) rfl (Nat.le_refl _) haccept, and_iff_right (by omega)]
        exact ⟨fun h _ => h, fun h => h hlen⟩

theorem preSharedKey_writes {v : TextVar} (hsize : v.size = 65) :
    (preSharedKey v).Writes dev value g (assignPreSharedKey value g v) ↔
      (8 ≤ value.length → value.length ≤ 63 → isStarStr value = true → g.text v = .empty) := by
  rw [assignPreSharedKey]
  split
  · rename_i hlen
    exact iff_of_true writes_none fun h h' => absurd hlen (by omega)
  · rename_i hlen
    have hlo : 8 ≤ value.length := by omega
    have hhi : value.length ≤ 63 := by omega
    have haccept : (preSharedKey v).Accepts dev value g ↔ isStarStr value = false := by
      rw [Accepts, and_iff_right hlo, and_iff_right hhi]
    rw [writes_secret (a := .preSharedKey v) rfl hhi haccept, and_iff_right (by omega)]
    exact ⟨fun h _ _ => h, fun h => h hlo hhi⟩

theorem rogueNo_writes : rogueNo.Writes dev value g (.ok (assign0To255 value g)) := by
  refine ⟨_, rfl, fun _ hx => Globals.same_setRogue _ hx, fun h => ?_⟩
  have hlarge : ¬ atoi value ≤ 255 := h
  change _ = if atoi value ≤ 255 then _ else _
  rw [if_neg hlarge]

theorem scMacList_writes :
    scMacList.Writes dev value g (assignScMacList value g) ↔
      (g.rogueApMacList.outNo < g.rogueApMacList.no ∧ ValidMac value ∧
          ¬ Listed value g.rogueApMacList → g.rogueApMacList.outNo.toNat < acNo) ∧
        (g.rogueApMacList.outNo < g.rogueApMacList.no → ValidMac value →
          ¬ Listed value g.rogueApMacList) := by
  rw [assignScMacList, ← entryOf]
  dsimp only
  split
  · rename_i hfull
    have hno : ¬ g.rogueApMacList.outNo < g.rogueApMacList.no := by simpa using hfull
    exact iff_of_true writes_none ⟨fun h => absurd h.1 hno, fun h => absurd h hno⟩
  · rename_i hfull
    have hlt : g.rogueApMacList.outNo < g.rogueApMacList.no := by simpa using hfull
    split
    · rename_i hlen
      have hbad : ¬ ValidMac value := fun h => by have := h.1; omega
      exact iff_of_true writes_none ⟨fun h => absurd h.2.1 hbad, fun _ h => absurd h hbad⟩
    · rename_i hlen
      split
      · rename_i hhex
        have hbad : ¬ ValidMac value := fun h => hhex h.2
        exact iff_of_true writes_none ⟨fun h => absurd h.2.1 hbad, fun _ h => absurd h hbad⟩
      · rename_i hhex
        have hvalid : ValidMac value := ⟨by omega, by simpa using hhex⟩
        split
        · rename_i hlisted
          -- the number of entries is not 0 here, so that it is another one behind
          refine iff_of_false ?_ fun h => h.2 hlt hvalid hlisted
          rintro ⟨g', hg', -, hunchanged⟩
          have hsame := hunchanged fun h => h.2.2 hlisted
          cases hg'
          have hno : g.rogueApMacList.no = g.rogueApMacList.no - 1 :=
            congrArg RogueAPMacList.no hsame
          grind
        · rename_i hnew
          have haccept : scMacList.Accepts dev value g := ⟨hlt, hvalid, hnew⟩
          split
          · rename_i hlong
            exact iff_of_false not_writes_error fun h => absurd (h.1 haccept) (by omega)
          · rename_i hroom
            refine iff_of_true ?_ ⟨fun _ => by omega, fun _ _ => hnew⟩
            exact writes_of_accepts haccept fun _ hx => Globals.same_setRogue _ hx

end Writes

/-- **When a function writes its own variable alone.** -/
theorem meets_iff {dev : Device} {value : CStr} {g : Globals} {a : Assign} (hsized : a.Sized)
    (hlen : value.length ≤ 126) :
    a.Meets dev value g ↔ a.Fits dev value g ∧ a.Spares value g := by
  have hyes {P : Prop} (h : P) : P ↔ True ∧ True := iff_of_true h ⟨trivial, trivial⟩
  cases a with
  | digit lo hi v => exact hyes (digit_writes lo hi v)
  | byteNumber checked lo hi v => exact hyes (byteNumber_meets checked lo hi v)
  | wordNumber checked lo hi v => exact hyes (wordNumber_meets checked lo hi v)
  | keyLen v => exact hyes (keyLen_writes v)
  | percent v => exact hyes (percent_meets v)
  | country v => exact hyes (country_writes v)
  | ip v => exact hyes (ip_writes v)
  | mask v => exact hyes (mask_writes v)
  | mac v => exact hyes (mac_writes v)
  | ssid v => exact hyes (ssid_writes hsized)
  | timeZone v => exact hyes (timeZone_writes hsized)
  | url v => exact hyes (url_writes hsized hlen)
  | mail v => exact hyes (mail_meets hsized)
  | smtpServer v => exact hyes (smtpServer_writes hsized)
  | rogueNo => exact hyes rogueNo_writes
  | str n v => exact (str_writes n v).trans (and_iff_left trivial).symm
  | date v => exact (date_writes hsized).trans (and_iff_left trivial).symm
  | time v => exact (time_writes hlen).trans (and_iff_left trivial).symm
  | ipv6 v => exact (writes_valid rfl Iff.rfl).trans (and_iff_left trivial).symm
  | gwv6 v => exact (gwv6_writes v).trans (and_iff_left trivial).symm
  | wdsvlist v => exact (writes_valid rfl Iff.rfl).trans (and_iff_left trivial).symm
  | password v => exact password_writes hsized
  | secret128 v => exact (secret128_writes hsized hlen).trans (and_iff_right trivial).symm
  | key v => exact (key_writes hsized).trans (and_iff_right trivial).symm
  | preSharedKey v => exact (preSharedKey_writes hsized).trans (and_iff_right trivial).symm
  | scMacList => exact scMacList_writes

end Assign

section Rows

variable {p : Group} {row : Attr} {a : Assign}

/-- **When an attribute writes its own variable alone**, of the rows of the tables. -/
theorem attribute_meets (hp : p ∈ cfgData) (hrow : row ∈ p.attrs) (ha : row.assignfunc = some a)
    (dev : Device) {value : CStr} (hlen : value.length ≤ 126) (g : Globals) :
    a.Meets dev value g ↔ a.Fits dev value g ∧ a.Spares value g :=
  Assign.meets_iff (Assign.sized_cfgData p hp row hrow a ha) hlen

end Rows

/-- A name of two letters fits the variable of the language. -/
theorem attribute_meets_language :
    (Assign.assignStr40 .apLang).Meets Device.bare (.text "EN") .initial := by
  have hlanguage : row "Language" (.assignStr40 .apLang) (.str .apLang) "" ∈ basic :=
    .tail _ (.tail _ (.head _))
  refine (attribute_meets (p := ⟨.text "BASIC", basic⟩) (.head _) hlanguage rfl Device.bare
    (by decide) .initial).mpr ⟨?_, trivial⟩
  change (CStr.text "EN").length < 4
  decide

/-- **A language that is longer than its variable.** -/
theorem language_overflows : ¬ ∀ p ∈ cfgData, ∀ row ∈ p.attrs, ∀ a ∈ row.assignfunc,
    ∀ (dev : Device) (value : CStr) (g : Globals), value.length ≤ 126 → a.Meets dev value g := by
  intro h
  have hlanguage : row "Language" (.assignStr40 .apLang) (.str .apLang) "" ∈ basic :=
    .tail _ (.tail _ (.head _))
  have hmeets := h ⟨.text "BASIC", basic⟩ (.head _) _ hlanguage (.assignStr40 .apLang) rfl
    Device.bare (.text "English") .initial (by decide)
  have hfits : (CStr.text "English").length < 4 := (Assign.str_writes 40 .apLang).mp hmeets
  exact absurd hfits (by decide)

end Wap4410n.Editcfg
