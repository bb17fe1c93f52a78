import Wap4410n.Apcfg.Wlan
import Wap4410n.Support.Flat
import Mathlib.Data.List.OfFn

/-!
# Apcfg — the list of remote bridges

The addresses of the remote bridges are one text: eight entries of 17 characters, a comma behind
each.  The getter and the setter copy it into `char finalValue[8][18]` and work on one row; the
comma at the end of a row gives way to a NUL in the copy that is read.

* `Bridges.value`: the text of eight addresses.
* `bridges_array`: on such a text the calls are reading and updating an array of eight addresses.
-/

namespace Wap4410n.Apcfg

open CLib

/-! ### The array -/

/-- An address as the list holds it. -/
@[ext] structure BridgeMac where
  text : CStr
  length_eq : text.length = 17

/-- The eight addresses. -/
abbrev Bridges := Fin 8 → BridgeMac

/-- A row of `finalValue`. -/
def BridgeMac.row (m : BridgeMac) : List Byte := m.text.bytes ++ [0x2c]

theorem BridgeMac.length_row (m : BridgeMac) : m.row.length = 18 := by
  rw [row, List.length_append, ← CStr.length, m.length_eq]
  rfl

theorem BridgeMac.row_noNul (m : BridgeMac) : (0 : Byte) ∉ m.row := by
  have := m.text.noNul
  simp [row, this]

namespace Bridges

variable (a : Bridges)

def rows : List (List Byte) := List.ofFn fun i => (a i).row

theorem width_rows : Flat.Width 18 a.rows := by
  intro r hr
  obtain ⟨i, rfl⟩ := (List.mem_ofFn' _ _).mp hr
  exact (a i).length_row

/-- The text of the addresses. -/
def value : CStr where
  bytes := a.rows.flatten
  noNul h := by
    obtain ⟨r, hr, h₀⟩ := List.mem_flatten.mp h
    obtain ⟨i, rfl⟩ := (List.mem_ofFn' _ _).mp hr
    exact (a i).row_noNul h₀

theorem length_value : a.value.length = bridgeSize := by
  have := a.width_rows.length
  rw [rows, List.length_ofFn] at this
  exact this

theorem getElem_rows (i : Fin 8) (h : i.val < a.rows.length) : a.rows[i.val] = (a i).row := by
  simp only [rows, List.getElem_ofFn, Fin.eta]

/-- A row overwritten is an address replaced. -/
theorem rows_update (i : Fin 8) (m : BridgeMac) :
    rows (Function.update a i m) = a.rows.set i m.row := by
  refine List.ext_getElem (by simp only [rows, List.length_ofFn, List.length_set]) fun j hj _ => ?_
  rw [List.getElem_set]
  simp only [rows, List.getElem_ofFn]
  by_cases h : i.val = j
  · subst h
    rw [if_pos rfl, Fin.eta, Function.update_self]
  · have hne : ∀ hj, (⟨j, hj⟩ : Fin 8) ≠ i := fun _ e => h (congrArg Fin.val e).symm
    rw [if_neg h, Function.update_of_ne (hne _)]

theorem value_update (i : Fin 8) (m : BridgeMac) :
    CStr.before (a.value.bytes.take (18 * i) ++ m.text.mem.take 17 ++
      0x2c :: a.value.bytes.drop (18 * i + 18)) = value (Function.update a i m) := by
  have hi : i.val < a.rows.length := by rw [rows, List.length_ofFn]; exact i.isLt
  have hm : m.text.mem.take 17 = m.text.bytes := by
    rw [CStr.mem, List.take_left' m.length_eq]
  have hrow : m.text.bytes ++ 0x2c :: a.value.bytes.drop (18 * i + 18) =
      m.row ++ a.value.bytes.drop (18 * i + 18) := by
    rw [BridgeMac.row, List.append_assoc]
    rfl
  have hset : a.value.bytes.take (18 * i) ++ m.text.mem.take 17 ++
      0x2c :: a.value.bytes.drop (18 * i + 18) = (value (Function.update a i m)).bytes := by
    rw [hm, List.append_assoc, hrow]
    exact (a.width_rows.set hi m.row).trans (congrArg List.flatten (a.rows_update i m)).symm
  rw [hset, CStr.before_bytes]

end Bridges

/-! ### The calls -/

section Calls

variable {unit : Nat} {c : Config} {a : Bridges}

theorem copyBridges_value (a : Bridges) : copyBridges a.value = pure a.value.bytes := by
  have hlen : a.value.bytes.length = bridgeSize := a.length_value
  have htake : a.value.mem.take bridgeSize = a.value.bytes := by
    rw [CStr.mem, List.take_left' hlen]
  have hle : bridgeSize ≤ a.value.mem.length := by
    rw [CStr.length_mem, a.length_value]
    exact Nat.le_succ _
  rw [copyBridges, if_pos hle, htake]

/-- Reading an entry. -/
theorem bridgesGet (h : c.get (.radio unit .remoteBridgeMac) = a.value) (i : Fin 8) :
    apCfgRemoteWbrMacAddrGet unit i c = (.ok (a i).text, c) := by
  have hi : i.val < a.rows.length := by rw [Bridges.rows, List.length_ofFn]; exact i.isLt
  have hrow : (a.value.bytes.drop (18 * i)).take 18 = (a i).row :=
    (a.width_rows.row hi).trans (a.getElem_rows i hi)
  have hentry : (a.value.bytes.drop (18 * i)).take 17 = (a i).text.bytes := by
    rw [← Nat.min_eq_left (show 17 ≤ 18 by decide), ← List.take_take, hrow, BridgeMac.row,
      List.take_left' (a i).length_eq]
  show (copyBridges (c.get _) >>= fun finalValue => _) c = _
  rw [h, copyBridges_value, Act.pure_bind, hentry, CStr.before_bytes]
  rfl

/-- Setting an entry: nothing where the text stays the same. -/
theorem bridgesSet (h : c.get (.radio unit .remoteBridgeMac) = a.value) (i : Fin 8)
    (m : BridgeMac) :
    apCfgRemoteWbrMacAddrSet unit i m.text c = (.ok .ok,
      if Bridges.value (Function.update a i m) = a.value then c
      else (c.set (.radio unit .remoteBridgeMac) (Bridges.value (Function.update a i m))).flag
        (aplWlan unit)) := by
  show (copyBridges (c.get _) >>= fun finalValue => _) c = _
  rw [h, copyBridges_value, Act.pure_bind, a.value_update i m, Act.bind_apply, Act.when_apply]
  by_cases he : Bridges.value (Function.update a i m) = a.value
  · rw [if_neg (not_not_intro he), if_pos he]
    rfl
  · rw [if_pos he, if_neg he]
    rfl

/-- What a call of the setter leaves is the text of the updated array. -/
theorem bridgesSet_value (h : c.get (.radio unit .remoteBridgeMac) = a.value) (i : Fin 8)
    (m : BridgeMac) :
    (apCfgRemoteWbrMacAddrSet unit i m.text c).2.get (.radio unit .remoteBridgeMac) =
      Bridges.value (Function.update a i m) := by
  rw [bridgesSet h]
  dsimp only
  split
  · rename_i he
    rw [h, he]
  · rw [Config.get_flag, Config.get_set_self]

/-- The setter, called for each of the entries. -/
def setBridges (unit : Nat) (sets : List (Fin 8 × BridgeMac)) : Cfg Unit :=
  Act.each (fun s => Act.ignore (apCfgRemoteWbrMacAddrSet unit s.1 s.2.text)) sets

/-- The array after these calls. -/
def Bridges.setAll (a : Bridges) (sets : List (Fin 8 × BridgeMac)) : Bridges :=
  sets.foldl (fun a s => Function.update a s.1 s.2) a

/-- Any sequence of calls returns, and leaves the text of the array it stands for. -/
theorem setBridges_value (sets : List (Fin 8 × BridgeMac))
    (h : c.get (.radio unit .remoteBridgeMac) = a.value) :
    ∃ c', setBridges unit sets c = (.ok (), c') ∧
      c'.get (.radio unit .remoteBridgeMac) = (a.setAll sets).value := by
  induction sets generalizing c a with
  | nil => exact ⟨c, rfl, h⟩
  | cons s sets ih =>
      obtain ⟨c', hrun, hvalue⟩ := ih (bridgesSet_value h s.1 s.2)
      have hstep : Act.ignore (apCfgRemoteWbrMacAddrSet unit s.1 s.2.text) c =
          (.ok (), (apCfgRemoteWbrMacAddrSet unit s.1 s.2.text c).2) := by
        rw [Act.ignore, Act.bind_ok (bridgesSet h s.1 s.2), bridgesSet h]
        rfl
      exact ⟨c', (Act.bind_ok hstep _).trans hrun, hvalue⟩

/-- **The list behaves as an array of eight addresses**: after any calls of the setter on a
well-formed text, another call keeps it well formed, the entry that was set is read as it was set,
the others as before, and to set what is stored changes nothing. -/
theorem bridges_array (unit : Nat) (c : Config) (a : Bridges)
    (h : c.get (.radio unit .remoteBridgeMac) = a.value) (sets : List (Fin 8 × BridgeMac)) :
    ∃ c₁, setBridges unit sets c = (.ok (), c₁) ∧ ∀ (i : Fin 8) (m : BridgeMac),
      ∃ c₂, apCfgRemoteWbrMacAddrSet unit i m.text c₁ = (.ok .ok, c₂) ∧
        (∃ a₂ : Bridges, c₂.get (.radio unit .remoteBridgeMac) = a₂.value) ∧
        apCfgRemoteWbrMacAddrGet unit i c₂ = (.ok m.text, c₂) ∧
        (∀ j, j ≠ i → (apCfgRemoteWbrMacAddrGet unit j c₂).1 =
          (apCfgRemoteWbrMacAddrGet unit j c₁).1) ∧
        (apCfgRemoteWbrMacAddrGet unit i c₁ = (.ok m.text, c₁) → c₂ = c₁) := by
  obtain ⟨c₁, hrun, hvalue⟩ := setBridges_value sets h
  refine ⟨c₁, hrun, fun i m => ⟨_, bridgesSet hvalue i m, ?_⟩⟩
  have hnew := bridgesSet_value hvalue i m
  rw [bridgesSet hvalue i m] at hnew
  refine ⟨⟨_, hnew⟩, ?_, fun j hj => ?_, fun hstored => ?_⟩
  · rw [bridgesGet hnew, Function.update_self]
  · rw [bridgesGet hnew, bridgesGet hvalue, Function.update_of_ne hj]
  · rw [bridgesGet hvalue] at hstored
    have hsame : a.setAll sets i = m :=
      BridgeMac.ext (Except.ok.inj (congrArg Prod.fst hstored))
    rw [if_pos (by rw [← hsame, Function.update_eq_self])]

end Calls

/-- No bridges, and the fourth of them set. -/
theorem bridges_array_fourth :
    let zero : Bridges := fun _ => ⟨.text "00:00:00:00:00:00", rfl⟩
    let c : Config := ⟨fun _ => zero.value, [], false⟩
    ∃ c', apCfgRemoteWbrMacAddrSet 0 3 (.text "00:1A:2B:3C:4D:5E") c = (.ok .ok, c') ∧
      apCfgRemoteWbrMacAddrGet 0 3 c' = (.ok (.text "00:1A:2B:3C:4D:5E"), c') := by
  intro zero c
  obtain ⟨c₁, hrun, hset⟩ := bridges_array 0 c zero rfl []
  obtain rfl : c = c₁ := congrArg Prod.snd hrun
  obtain ⟨c₂, hset, -, hget, -⟩ := hset 3 ⟨.text "00:1A:2B:3C:4D:5E", rfl⟩
  exact ⟨c₂, hset, hget⟩

end Wap4410n.Apcfg
