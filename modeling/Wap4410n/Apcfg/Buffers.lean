import Wap4410n.Apcfg.Copies
import Wap4410n.Apcfg.Wlan

/-!
# Apcfg — what a getter's buffer holds

A getter copies the string of its setting into a static buffer, and the setter of the same setting
accepts a string by its length.  The two constants are independent of one another: for most of the
texts of a VAP the setter accepts strings that outgrow the buffer (`VapText.Overflows`).

* `readsBack_iff`: the strings a getter returns as they were set.
* `keyVal_overflows`: a WEP key of 32 digits is not one of them.
-/

namespace Wap4410n.Apcfg

open CLib

/-! ### The texts -/

/-- The texts of a VAP whose setter checks a length of its own. -/
inductive VapText where
  /-- `apCfgKeyValSet` of key `keyId + 1` -/
  | key (keyId : Fin 4)
  | passphrase
  | shared (t : SharedText)

namespace VapText

def field : VapText → VapField
  | key keyId => .key (keyId + 1)
  | passphrase => .passphrase
  | shared t => t.field

def set : VapText → Nat → Nat → CStr → Cfg Status
  | key keyId, unit, bss => apCfgKeyValSet unit bss (keyId + 1)
  | passphrase, unit, bss => apCfgPassphraseSet unit bss
  | shared t, unit, bss => t.set unit bss

def get : VapText → Nat → Nat → Cfg CStr
  | key keyId, unit, bss => apCfgKeyValGet unit bss (keyId + 1)
  | passphrase, unit, bss => apCfgPassphraseGet unit bss
  | shared t, unit, bss => t.get unit bss

/-- The size of the getter's buffer. -/
def size : VapText → Nat
  | key _ | passphrase => 32
  | shared t => t.size

/-- The length check of the setter. -/
def Accepts : VapText → CStr → Prop
  | key _, p => KeyLength p.length
  | passphrase, p => p.length ≤ 64
  | shared t, p => t.lo ≤ p.length ∧ p.length ≤ t.hi

/-- The strings that pass the check and outgrow the buffer with their NUL. -/
def Overflows : VapText → CStr → Prop
  | key _, p => p.length = 32
  | passphrase, p => 32 ≤ p.length ∧ p.length ≤ 64
  | shared .radiusServer, p | shared .backupRadiusServer, p => 32 ≤ p.length ∧ p.length ≤ 64
  | shared .radiusSecret, p | shared .backupRadiusSecret, p | shared .acctServer, p
  | shared .backupAcctServer, p => 32 ≤ p.length ∧ p.length ≤ 128
  | shared .acctSecret, p | shared .backupAcctSecret, p => p.length = 128

/-- Where the setter returns `A_OK`, the string fits the getter's buffer with its NUL and the getter
returns it. -/
def ReadsBack (t : VapText) (p : CStr) : Prop :=
  ∀ (unit : Nat) (bss : Fin 4) (c : Config), (t.set unit bss p c).1 = .ok .ok →
    p.length + 1 ≤ t.size ∧
      t.get unit bss (t.set unit bss p c).2 = (.ok p, (t.set unit bss p c).2)

theorem get_eq (t : VapText) (unit bss : Nat) :
    t.get unit bss = getText t.size (.vap unit bss t.field) := by
  cases t with
  | key | passphrase => rfl
  | shared t => exact t.get_eq unit bss

theorem overflows_iff (t : VapText) (p : CStr) :
    t.Overflows p ↔ t.Accepts p ∧ t.size ≤ p.length := by
  cases t with
  | key keyId =>
      simp only [Overflows, Accepts, size, KeyLength, List.mem_cons, List.not_mem_nil, or_false]
      omega
  | passphrase =>
      simp only [Overflows, Accepts, size]
      omega
  | shared t =>
      cases t <;>
        simp only [Overflows, Accepts, size, SharedText.lo, SharedText.hi, SharedText.size,
          cfgMaxRadiusname, cfgMaxSecretlen] <;> omega

theorem size_pos (t : VapText) : 0 < t.size := by
  cases t with
  | key | passphrase => exact Nat.succ_pos 31
  | shared t => cases t <;> decide

end VapText

/-! ### One setter -/

section Compare

variable {k : Setting} {size : Nat} {p : CStr} {w : Cfg Unit} {c : Config}

/-- `if (strcmp(p, get())) write(); return A_OK;` -/
def compareText (size : Nat) (k : Setting) (p : CStr) (write : Cfg Unit) : Cfg Status := do
  let old ← getText size k
  Act.when (p ≠ old) write
  return .ok

/-- What it leaves, if it returns. -/
theorem get_compareText (hw : ∀ c, (w c).2.get k = p)
    (h : (compareText size k p w c).1 = .ok .ok) : (compareText size k p w c).2.get k = p := by
  unfold compareText at h ⊢
  by_cases hfit : (c.get k).length < size
  · rw [Act.bind_ok (getText_fits c k hfit)] at h ⊢
    by_cases hp : p = c.get k
    · have hwhen : Act.when (p ≠ c.get k) w c = (.ok (), c) := by
        rw [Act.when_apply, if_neg (not_not.mpr hp)]
      rw [Act.bind_ok hwhen]
      exact hp.symm
    · rw [Act.bind_pure_snd, Act.when_apply, if_pos hp]
      exact hw c
  · obtain ⟨e, he⟩ := getText_fault c k hfit
    rw [Act.bind_error (Prod.ext he rfl)] at h
    cases h

/-- Where nothing is stored yet it returns. -/
theorem compareText_returns (hsize : 0 < size) (hc : c.get k = .empty)
    (hw : (w c).1 = .ok ()) : (compareText size k p w c).1 = .ok .ok := by
  have hget : getText size k c = (.ok (c.get k), c) := getText_fits c k (by rwa [hc])
  exact congrArg Prod.fst (compare_eq hget p fun _ => hw)

end Compare

namespace VapText

section Set

variable (t : VapText) (unit : Nat) (bss : Fin 4) (p : CStr)

/-- What the setter writes. -/
theorem exists_write :
    ∃ w : Cfg Unit, (∀ c, (w c).1 = .ok () ∧ (w c).2.get (.vap unit bss t.field) = p) ∧
      (t.Accepts p → t.set unit bss p = compareText t.size (.vap unit bss t.field) p w) := by
  have hbss := mem_vaps bss
  cases t with
  | key keyId =>
      have hwrite : Broadcast unit (.key (keyId + 1)) p _ := broadcast_flagging (aplVap unit bss)
      refine ⟨_, fun c => ⟨(hwrite c).1, hwrite.get c hbss⟩, fun h => ?_⟩
      change apCfgKeyValSet unit bss (keyId + 1) p = _
      exact if_neg (not_not.mpr h)
  | passphrase =>
      refine ⟨do scfgmgrSet (.vap unit bss .passphrase) p; aplSetFlag (aplVap unit bss);
                  wscConfigured, fun c => ⟨?_, ?_⟩, fun h => ?_⟩
      · obtain ⟨⟨⟩, h⟩ := stored_returns (.vap unit bss .passphrase) (aplVap unit bss) p true c
        exact h
      · have hkept : Keeps (.vap unit bss .passphrase)
            (do aplSetFlag (aplVap unit bss); wscConfigured) :=
          (keeps_aplSetFlag _).bind fun _ => keeps_wscConfigured nofun
        exact (hkept _).trans (c.get_set_self _ p)
      · change apCfgPassphraseSet unit bss p = _
        exact if_neg (Nat.not_lt.mpr h)
  | shared t =>
      by_cases hone : t.OneCopy
      · let loop : Cfg Unit := Act.each (fun _ => scfgmgrSet (.vap unit bss t.field) p) vaps
        refine ⟨do loop; aplSetFlag (aplVap unit bss); wscConfigured, fun c => ⟨?_, ?_⟩,
          fun h => ?_⟩
        · obtain ⟨⟨⟩, h⟩ := wscConfigured_returns (((loop c).2).flag (aplVap unit bss))
          exact h
        · have hkept : Keeps (.vap unit bss t.field)
              (do aplSetFlag (aplVap unit bss); wscConfigured) :=
            (keeps_aplSetFlag _).bind fun _ => keeps_wscConfigured nofun
          exact (hkept (loop c).2).trans (Config.get_set_self _ _ p)
        · change t.set unit bss p = _
          rw [t.set_eq_setAcctServer hone]
          have hsize : t.size = 32 := by cases t <;> first | rfl | exact hone.elim
          have hlo : t.lo = 1 := by cases t <;> first | rfl | exact hone.elim
          have hhi : t.hi = cfgMaxSecretlen := by cases t <;> first | rfl | exact hone.elim
          obtain ⟨h₀, h₁⟩ := h
          rw [hlo] at h₀
          rw [hhi] at h₁
          change setAcctServer t.field unit bss p = compareText t.size _ p _
          rw [hsize]
          exact if_neg (by omega)
      · have hwrite : Broadcast unit t.field p _ := broadcast_setSharedText (aplVap unit bss)
        refine ⟨_, fun c => ⟨(hwrite c).1, hwrite.get c hbss⟩, fun h => ?_⟩
        change t.set unit bss p = _
        rw [t.set_eq hone]
        obtain ⟨h₀, h₁⟩ := h
        exact if_neg (by omega)

theorem set_refused (h : ¬ t.Accepts p) (c : Config) :
    (t.set unit bss p c).1 = .ok .error := by
  cases t with
  | key keyId =>
      have hset : apCfgKeyValSet unit bss (keyId + 1) p = pure .error := if_pos h
      exact congrArg (fun m => (m c).1) hset
  | passphrase =>
      have hset : apCfgPassphraseSet unit bss p = pure .error := if_pos (Nat.not_le.mp h)
      exact congrArg (fun m => (m c).1) hset
  | shared t =>
      have hrej : p.length < t.lo ∨ t.hi < p.length := by
        simp only [Accepts, not_and_or, Nat.not_le] at h
        exact h
      by_cases hone : t.OneCopy
      · have hlo : t.lo = 1 := by cases t <;> first | rfl | exact hone.elim
        have hhi : t.hi = cfgMaxSecretlen := by cases t <;> first | rfl | exact hone.elim
        rw [hlo, hhi] at hrej
        have hset : t.set unit bss p = pure .error := by
          rw [t.set_eq_setAcctServer hone]
          exact if_pos hrej
        exact congrArg (fun m => (m c).1) hset
      · have hset : t.set unit bss p = pure .error := by
          rw [t.set_eq hone]
          exact if_pos hrej
        exact congrArg (fun m => (m c).1) hset

end Set

/-- **What a getter returns as it was set.** -/
theorem readsBack_iff (t : VapText) (p : CStr) : t.ReadsBack p ↔ ¬ t.Overflows p := by
  rw [overflows_iff]
  constructor
  · rintro h ⟨haccept, hsize⟩
    obtain ⟨w, hw, hset⟩ := t.exists_write 0 0 p
    let c : Config := { get := fun _ => .empty, flags := [], closed := false }
    have hok : (t.set 0 (0 : Fin 4) p c).1 = .ok .ok := by
      rw [hset haccept]
      exact compareText_returns t.size_pos rfl (hw c).1
    have := (h 0 0 c hok).1
    omega
  · intro h unit bss c hok
    by_cases haccept : t.Accepts p
    · have hfits : p.length < t.size := Nat.lt_of_not_le fun hle => h ⟨haccept, hle⟩
      obtain ⟨w, hw, hset⟩ := t.exists_write unit bss p
      rw [hset haccept] at hok ⊢
      have hget := get_compareText (fun c => (hw c).2) hok
      refine ⟨hfits, ?_⟩
      rw [t.get_eq, getText_eq, hget, if_pos hfits]
    · rw [t.set_refused unit bss p haccept c] at hok
      cases hok

/-- A WEP key of 16 bytes in hexadecimal. -/
def hexKey : CStr := .text "0123456789ABCDEF0123456789ABCDEF"

/-- **A key that is accepted and outgrows the buffer.** -/
theorem keyVal_overflows : ¬ (key 0).ReadsBack hexKey := by
  intro h
  let c : Config := { get := fun _ => .empty, flags := [], closed := false }
  have hok : ((key 0).set 0 (0 : Fin 4) hexKey c).1 = .ok .ok := by decide
  have hlong : ¬ hexKey.length + 1 ≤ (key 0).size := by decide
  exact hlong (h 0 0 c hok).1

end VapText

end Wap4410n.Apcfg
