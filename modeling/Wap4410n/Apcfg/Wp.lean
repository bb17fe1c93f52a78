import Wap4410n.Apcfg.Wlan
import Wap4410n.Support.Wp

/-!
# Apcfg — when a sequence of getters returns

The rules for the calls that only read, one for each family of getters: a text and a number have to
fit the buffer of their getter, and everything else is read in any case.
-/

namespace Wap4410n.Apcfg

open CLib Act

variable {c : Config} {k : Setting} {size : Nat}

/-- A buffer. -/
theorem wp_store {buf : Buf} {p : CStr} {Q : CStr → Config → Prop} :
    Wp (store buf size p) Q c ↔ p.length < size ∧ Q p c := by
  unfold store
  by_cases h : p.length < size
  · rw [if_pos h, wp_pure, and_iff_right h]
  · rw [if_neg h, wp_fault]
    exact ⟨False.elim, fun hq => h hq.1⟩

theorem wp_nvramSafeGet {Q : CStr → Config → Prop} : Wp (nvramSafeGet k) Q c ↔ Q (c.get k) c :=
  wp_pure

theorem wp_getText {Q : CStr → Config → Prop} :
    Wp (getText size k) Q c ↔ (c.get k).length < size ∧ Q (c.get k) c := by
  rw [getText, wp_bind, wp_nvramSafeGet, wp_store]

theorem wp_getNumber {Q : Int → Config → Prop} :
    Wp (getNumber size k) Q c ↔ (c.get k).length < size ∧ Q (atoi (c.get k)) c := by
  rw [getNumber, wp_bind, wp_getText, wp_pure]

theorem wp_getFlag {Q : Int → Config → Prop} : Wp (getFlag k) Q c ↔ Q (flagOf (c.get k)) c :=
  wp_pure

theorem wp_getEnum {t : Texts} {Q : Int → Config → Prop} :
    Wp (getEnum t k) Q c ↔ Q (t.decode (c.get k)) c := wp_pure

theorem wp_getAtoi {Q : Int → Config → Prop} : Wp (getAtoi k) Q c ↔ Q (atoi (c.get k)) c := wp_pure

theorem wp_getAddr {Q : InAddr → Config → Prop} : Wp (getAddr k) Q c ↔ Q (inetAddr (c.get k)) c :=
  wp_pure

end Wap4410n.Apcfg
