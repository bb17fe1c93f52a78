import Wap4410n.Apcfg.System
import Wap4410n.Snmp.Agent
import Wap4410n.Support.Runs

/-!
# Snmp — the range of trusted hosts

`snmpTrustedHostStart` and `snmpTrustedHostEnd` are the bounds of the range of managers.  The write
method of each checks its new bound in `RESERVE1` against the other bound as it is stored, and
stores it in `ACTION`.  A request may carry both.

* `handleSet_bounds`: a request stores all its bounds, or none, by the checks of `RESERVE1`.
* `ordered_handleSet_iff`: when a request leaves a range in order.
* `trustedHosts`: the range over all sequences of requests, and which ranges are accepted.
* `reversed_accepted`: a request that leaves no range, and one of a range that is refused.
-/

namespace Wap4410n.Snmp

open CLib Apcfg

/-! ### The write methods -/

/-- `ASN_IPADDRESS` -/
def asnIpaddress : Byte := 0x40

/-- The value of a variable: its type, its length, and `*(u_long *) var_val`. -/
structure Value where
  type : Byte
  len : Nat
  word : InAddr
deriving DecidableEq, Repr

/-- `scIpSeparateTo4`: the address is printed and its four numbers are scanned. -/
def scIpSeparateTo4 (ipAddress : InAddr) : Nat × Nat × Nat × Nat :=
  (ipAddress.a.toNat, ipAddress.b.toNat, ipAddress.c.toNat, ipAddress.d.toNat)

/-- `scValidIpAddress` -/
def scValidIpAddress (ipAddress : InAddr) : Bool :=
  let (ip0, ip1, ip2, ip3) := scIpSeparateTo4 ipAddress
  if ip0 < 1 ∨ 223 < ip0 ∨ ip0 = 127 then false
  else if 255 < ip1 then false
  else if 255 < ip2 then false
  else if ip3 < 1 ∨ 254 < ip3 then false
  else true

/-- `apcfg_submit` writes the stored settings to flash, and leaves them. -/
def apcfgSubmit : Cfg Unit := pure ()

/-- The write method of a bound: `other` reads the other bound, and `outside` says that the value is
on the wrong side of it. -/
def writeBound (other : Cfg InAddr) (outside : Nat → Nat → Bool) (set : InAddr → Cfg Status)
    (v : Value) : WriteMethod Config Buf
  | .reserve1 => do
    if v.type ≠ asnIpaddress then return .wrongType
    else if v.len < 1 ∨ 4 < v.len then return .wrongLength
    else if scValidIpAddress v.word = false then return .wrongValue
    else do
      let otherVal ← other
      return if outside v.word.toNat otherVal.toNat then .wrongValue else .noError
  | .action => do
    Act.ignore (set v.word)
    return .noError
  | .commit => do
    apcfgSubmit
    return .noError
  | .reserve2 | .free | .undo => return .noError

/-- `write_snmpTrustedHostEnd` -/
def writeSnmpTrustedHostEnd : Value → WriteMethod Config Buf :=
  writeBound apCfgSnmpManagerIpGet (fun value start => start > value) apCfgSnmpManagerIpEndSet

/-- `write_snmpTrustedHostStart` -/
def writeSnmpTrustedHostStart : Value → WriteMethod Config Buf :=
  writeBound apCfgSnmpManagerIpEndGet (fun value last => last < value) apCfgSnmpManagerIpSet

/-- The two objects. -/
inductive Bound where
  | start
  | «end»
deriving DecidableEq, Repr

namespace Bound

/-- Its write method. -/
def write : Bound → Value → WriteMethod Config Buf
  | start => writeSnmpTrustedHostStart
  | «end» => writeSnmpTrustedHostEnd

/-- Its setting. -/
def setting : Bound → Setting
  | start => .sys .snmpTrustedHostStart
  | «end» => .sys .snmpTrustedHostEnd

end Bound

/-- The bounds of a request, each once at most, in any order. -/
structure Request where
  bounds : List (Bound × Value)
  nodup : (bounds.map Prod.fst).Nodup

/-- The request goes through the phases. -/
def Request.run (r : Request) : Cfg SnmpErr := handleSet (r.bounds.map fun x => x.1.write x.2)

/-- A stored bound. -/
def bound (c : Config) (b : Bound) : Nat := (inetAddr (c.get b.setting)).toNat

/-- The stored range is one. -/
def Ordered (c : Config) : Prop := bound c .start ≤ bound c .end

/-- The value is an address. -/
def Value.WellFormed (v : Value) : Prop :=
  v.type = asnIpaddress ∧ 1 ≤ v.len ∧ v.len ≤ 4 ∧ scValidIpAddress v.word = true

/-- The value fits the other bound. -/
def Fits (c : Config) : Bound → Value → Prop
  | .start, v => v.word.toNat ≤ bound c .end
  | .end, v => bound c .start ≤ v.word.toNat

/-! ### One method -/

variable {c : Config}

instance Value.decidableWellFormed (v : Value) : Decidable v.WellFormed :=
  inferInstanceAs (Decidable (_ ∧ _))

/-- What `RESERVE1` lets through. -/
theorem writeBound_reserve1 {other : Cfg InAddr} {x : InAddr} (hother : other c = (.ok x, c))
    (outside : Nat → Nat → Bool) (set : InAddr → Cfg Status) (v : Value) :
    ∃ status, writeBound other outside set v .reserve1 c = (.ok status, c) ∧
      (status = .noError ↔ v.WellFormed ∧ outside v.word.toNat x.toNat = false) := by
  simp only [writeBound]
  split
  · rename_i htype
    exact ⟨.wrongType, rfl, nofun, fun h => absurd h.1.1 htype⟩
  · rename_i htype
    split
    · rename_i hlen
      refine ⟨.wrongLength, rfl, nofun, fun h => ?_⟩
      obtain ⟨-, hlo, hhi, -⟩ := h.1
      exact hlen.elim (fun h => absurd hlo (Nat.not_le_of_lt h)) fun h =>
        absurd hhi (Nat.not_le_of_lt h)
    · rename_i hlen
      obtain ⟨hlo, hhi⟩ := not_or.mp hlen
      split
      · rename_i hvalid
        refine ⟨.wrongValue, rfl, nofun, fun h => ?_⟩
        have hok := h.1.2.2.2
        rw [hvalid] at hok
        cases hok
      · rename_i hvalid
        have hwell : v.WellFormed := ⟨not_not.mp htype, Nat.le_of_not_lt hlo, Nat.le_of_not_lt hhi,
          (Bool.not_eq_false _).mp hvalid⟩
        rw [Act.bind_ok hother]
        cases hout : outside v.word.toNat x.toNat with
        | true => exact ⟨.wrongValue, rfl, nofun, fun h => nomatch h.2⟩
        | false => exact ⟨.noError, rfl, fun _ => ⟨hwell, rfl⟩, fun _ => rfl⟩

theorem write_reserve1 (b : Bound) (v : Value) (c : Config) :
    ∃ status, b.write v .reserve1 c = (.ok status, c) ∧
      (status = .noError ↔ v.WellFormed ∧ Fits c b v) := by
  cases b with
  | start =>
      obtain ⟨status, hrun, hiff⟩ := writeBound_reserve1 (getAddr_eq (.sys .snmpTrustedHostEnd) c)
        (fun value last => last < value) apCfgSnmpManagerIpSet v
      refine ⟨status, hrun, hiff.trans (and_congr_right fun _ => ?_)⟩
      rw [decide_eq_false_iff_not, not_lt]
      rfl
  | «end» =>
      obtain ⟨status, hrun, hiff⟩ := writeBound_reserve1 (getAddr_eq (.sys .snmpTrustedHostStart) c)
        (fun value start => start > value) apCfgSnmpManagerIpEndSet v
      refine ⟨status, hrun, hiff.trans (and_congr_right fun _ => ?_)⟩
      rw [decide_eq_false_iff_not, gt_iff_lt, not_lt]
      rfl

/-- What `ACTION` writes. -/
theorem write_action (b : Bound) (v : Value) (c : Config) :
    ∃ c', b.write v .action c = (.ok .noError, c') ∧
      ∀ b', bound c' b' = if b' = b then v.word.toNat else bound c b' := by
  obtain ⟨hok, hget, hother⟩ := putAddr_get b.setting [aplSnmp] v.word c
  refine ⟨(putAddr b.setting [aplSnmp] v.word c).2, ?_, fun b' => ?_⟩
  · have hset : putAddr b.setting [aplSnmp] v.word c =
        (.ok .ok, (putAddr b.setting [aplSnmp] v.word c).2) := Prod.ext hok rfl
    cases b with
    | start | «end» =>
        change ((putAddr _ [aplSnmp] v.word >>= fun _ => pure ()) >>= fun _ =>
          (pure SnmpErr.noError : Cfg SnmpErr)) c = _
        rw [Act.bind_ok (Act.bind_ok hset _)]
        rfl
  · by_cases hb : b' = b
    · subst hb
      rw [if_pos rfl, bound, hget]
    · have hk : b'.setting ≠ b.setting := by
        cases b <;> cases b' <;> first | exact absurd rfl hb | nofun
      rw [if_neg hb, bound, hother _ hk]
      rfl

theorem write_simple (b : Bound) (v : Value) : Simple (b.write v) where
  reads c := by
    obtain ⟨status, h, -⟩ := write_reserve1 b v c
    exact ⟨status, h⟩
  writes c := by
    obtain ⟨c', h, -⟩ := write_action b v c
    exact ⟨c', h⟩
  idle a h h' c := by
    cases a with
    | reserve1 => exact absurd rfl h
    | action => exact absurd rfl h'
    | reserve2 | commit | free | undo => cases b <;> rfl

/-! ### One request -/

/-- The value a request sets a bound to, if it carries it. -/
def Request.value (r : Request) (b : Bound) : Option Value :=
  (r.bounds.find? fun x => x.1 = b).map Prod.snd

/-- Every value of the request passes its check. -/
def Request.Passes (r : Request) (c : Config) : Prop :=
  ∀ x ∈ r.bounds, x.2.WellFormed ∧ Fits c x.1 x.2

/-- The bounds behind the writes of distinct bounds. -/
theorem phase_action {xs : List (Bound × Value)} (hnodup : (xs.map Prod.fst).Nodup) (c : Config) :
    ∀ b, bound (phase .action (xs.map fun x => x.1.write x.2) c).2 b =
      (((xs.find? fun x => x.1 = b).map Prod.snd).map fun v => v.word.toNat).getD (bound c b) := by
  induction xs generalizing c with
  | nil => exact fun _ => rfl
  | cons x xs ih =>
      obtain ⟨hx, hxs⟩ := List.nodup_cons.mp hnodup
      obtain ⟨c', hwrite, hbound⟩ := write_action x.1 x.2 c
      intro b
      have hrun : (phase .action ((x :: xs).map fun x => x.1.write x.2) c).2 =
          (phase .action (xs.map fun x => x.1.write x.2) c').2 := by
        rw [List.map_cons, phase, Act.bind_ok hwrite]
        exact Act.bind_pure_snd _ _ _
      rw [hrun, ih hxs c' b, hbound]
      by_cases hb : x.1 = b
      · have hnone : xs.find? (fun x => x.1 = b) = none := by
          rw [List.find?_eq_none]
          intro y hy hyb
          refine hx (List.mem_map.mpr ⟨y, hy, ?_⟩)
          rw [hb]
          exact of_decide_eq_true hyb
        rw [hnone, List.find?_cons_of_pos (by simpa using hb), if_pos hb.symm]
        rfl
      · rw [List.find?_cons_of_neg (by simpa using hb), if_neg (Ne.symm hb)]

/-- **A request stores all its bounds or none.** -/
theorem handleSet_bounds (r : Request) (c : Config) :
    (r.Passes c ∧ (r.run c).1 = .ok .noError ∧
      ∀ b, bound (r.run c).2 b = ((r.value b).map fun v => v.word.toNat).getD (bound c b)) ∨
    (¬ r.Passes c ∧ (r.run c).1 ≠ .ok .noError ∧ (r.run c).2 = c) := by
  have hsimple : ∀ w ∈ r.bounds.map fun x => x.1.write x.2, Simple w := by
    intro w hw
    obtain ⟨x, -, rfl⟩ := List.mem_map.mp hw
    exact write_simple x.1 x.2
  have hpasses : (∀ w ∈ r.bounds.map fun x => x.1.write x.2, w .reserve1 c = (.ok .noError, c)) ↔
      r.Passes c := by
    rw [List.forall_mem_map]
    refine forall₂_congr fun x _ => ?_
    obtain ⟨status, hrun, hiff⟩ := write_reserve1 x.1 x.2 c
    rw [hrun, ← hiff]
    exact ⟨fun h => by cases h; rfl, fun h => by rw [h]⟩
  by_cases h : r.Passes c
  · refine .inl ⟨h, ?_⟩
    rw [Request.run, handleSet_accepted hsimple (hpasses.mpr h)]
    exact ⟨rfl, phase_action r.nodup c⟩
  · obtain ⟨status, hne, hrun⟩ := handleSet_refused hsimple fun hall => h (hpasses.mp hall)
    refine .inr ⟨h, ?_⟩
    rw [Request.run, hrun]
    exact ⟨fun heq => hne (by cases heq; rfl), rfl⟩

theorem Request.value_eq_some {r : Request} {b : Bound} {v : Value} (h : r.value b = some v) :
    (b, v) ∈ r.bounds := by
  obtain ⟨x, hfind, rfl⟩ := Option.map_eq_some_iff.mp h
  have hb : x.1 = b := by simpa using List.find?_some hfind
  rw [← hb]
  exact List.mem_of_find?_eq_some hfind

/-- The condition of a request: values of both bounds that pass their checks are in order. -/
def InOrder (c : Config) (r : Request) : Prop :=
  r.Passes c → ∀ s ∈ r.value .start, ∀ e ∈ r.value .end, s.word.toNat ≤ e.word.toNat

/-- **What a request leaves of a range.** -/
theorem ordered_handleSet_iff (hc : Ordered c) (r : Request) :
    Ordered (r.run c).2 ↔ InOrder c r := by
  obtain ⟨hpass, -, hbound⟩ | ⟨hfail, -, hsame⟩ := handleSet_bounds r c
  · rw [Ordered, hbound, hbound, InOrder, forall_prop_of_true hpass]
    cases hs : r.value .start with
    | none =>
        cases he : r.value .end with
        | none => exact ⟨fun _ _ h => (nomatch h), fun _ => hc⟩
        | some e =>
            have hfits : Fits c .end e := (hpass _ (Request.value_eq_some he)).2
            exact ⟨fun _ _ h => (nomatch h), fun _ => hfits⟩
    | some s =>
        cases he : r.value .end with
        | none =>
            have hfits : Fits c .start s := (hpass _ (Request.value_eq_some hs)).2
            exact ⟨fun _ _ _ _ h => (nomatch h), fun _ => hfits⟩
        | some e =>
            refine ⟨fun h s' hs' e' he' => ?_, fun h => h s rfl e rfl⟩
            cases hs'
            cases he'
            exact h
  · rw [hsame]
    exact ⟨fun _ h => absurd h hfail, fun _ => hc⟩

/-- The request sets both bounds to addresses in order. -/
structure Request.SetsRange (r : Request) (s e : Value) : Prop where
  start : r.value .start = some s
  last : r.value .end = some e
  wellFormed : s.WellFormed ∧ e.WellFormed
  ordered : s.word.toNat ≤ e.word.toNat

/-- A request of both bounds carries nothing else. -/
theorem Request.SetsRange.passes_iff {r : Request} {s e : Value} (h : r.SetsRange s e) :
    r.Passes c ↔ s.word.toNat ≤ bound c .end ∧ bound c .start ≤ e.word.toNat := by
  have hs := Request.value_eq_some h.start
  have he := Request.value_eq_some h.last
  constructor
  · intro hpass
    exact ⟨(hpass _ hs).2, (hpass _ he).2⟩
  · rintro ⟨hstart, hlast⟩ ⟨b, v⟩ hx
    have hone : ∀ {v v' : Value}, (b, v) ∈ r.bounds → (b, v') ∈ r.bounds → v = v' := by
      intro v v' hv hv'
      exact congrArg Prod.snd (List.inj_on_of_nodup_map r.nodup hv hv' rfl)
    cases b with
    | start =>
        cases hone hx hs
        exact ⟨h.wellFormed.1, hstart⟩
    | «end» =>
        cases hone hx he
        exact ⟨h.wellFormed.2, hlast⟩

/-! ### All requests -/

/-- **The range of trusted hosts** stays a range as long as no request sets both bounds out of order
past their checks; and a range is accepted just when it overlaps the one that is stored. -/
theorem trustedHosts (c : Config) :
    (∀ rs : List Request, Ordered c → Meets (fun c r => (r.run c).2) InOrder c rs →
      Ordered (runs (fun c r => (r.run c).2) c rs)) ∧
    ∀ (r : Request) (s e : Value), r.SetsRange s e →
      ((r.run c).1 = .ok .noError ↔
        s.word.toNat ≤ bound c .end ∧ bound c .start ≤ e.word.toNat) := by
  constructor
  · intro rs hc hm
    have hstep : ∀ (c : Config) (r : Request), Ordered c → InOrder c r → Ordered (r.run c).2 :=
      fun c r hc hr => (ordered_handleSet_iff hc r).mpr hr
    exact Meets.invariant hstep hc hm
  · intro r s e h
    rw [← h.passes_iff]
    obtain ⟨hpass, hrun, -⟩ | ⟨hfail, hrun, -⟩ := handleSet_bounds r c
    · exact ⟨fun _ => hpass, fun _ => hrun⟩
    · exact ⟨fun h => absurd h hrun, fun h => absurd h hfail⟩

/-- `10.0.0.n` -/
def host (n : Byte) : InAddr := ⟨10, 0, 0, n⟩

/-- A stored range. -/
def hosts (first last : Byte) : Config where
  get k :=
    if k = .sys .snmpTrustedHostStart then inetNtoa (host first)
    else if k = .sys .snmpTrustedHostEnd then inetNtoa (host last)
    else .empty
  flags := []
  closed := false

/-- A value of four bytes. -/
def hostValue (n : Byte) : Value := ⟨asnIpaddress, 4, host n⟩

/-- A request of both bounds. -/
def setHosts (first last : Byte) : Request where
  bounds := [(.start, hostValue first), (.end, hostValue last)]
  nodup := by simp

theorem bound_hosts (first last : Byte) : bound (hosts first last) .start = (host first).toNat ∧
    bound (hosts first last) .end = (host last).toNat :=
  ⟨congrArg InAddr.toNat (inetAddr_inetNtoa _), congrArg InAddr.toNat (inetAddr_inetNtoa _)⟩

/-- The range is moved up in one request, and then down again. -/
theorem trustedHosts_setHosts :
    Ordered (runs (fun c r => (r.run c).2) (hosts 1 20) [setHosts 10 30]) ∧
      ((setHosts 10 30).run (hosts 1 20)).1 = .ok .noError := by
  obtain ⟨hstart, hlast⟩ := bound_hosts 1 20
  have hsets : (setHosts 10 30).SetsRange (hostValue 10) (hostValue 30) :=
    ⟨rfl, rfl, by decide, by decide⟩
  constructor
  · refine (trustedHosts (hosts 1 20)).1 [setHosts 10 30] ?_ ⟨?_, trivial⟩
    · rw [Ordered, hstart, hlast]
      decide
    · rintro - s ⟨⟩ e ⟨⟩
      decide
  · refine ((trustedHosts (hosts 1 20)).2 (setHosts 10 30) _ _ hsets).mpr ?_
    rw [hstart, hlast]
    decide

/-- **A request that leaves no range, and one of a range that is refused.** -/
theorem reversed_accepted :
    Ordered (hosts 1 20) ∧ ¬ Ordered ((setHosts 15 12).run (hosts 1 20)).2 ∧
      (setHosts 30 40).SetsRange (hostValue 30) (hostValue 40) ∧
      ((setHosts 30 40).run (hosts 1 20)).1 ≠ .ok .noError := by
  obtain ⟨hstart, hlast⟩ := bound_hosts 1 20
  have hordered : Ordered (hosts 1 20) := by
    rw [Ordered, hstart, hlast]
    decide
  have hsets : (setHosts 30 40).SetsRange (hostValue 30) (hostValue 40) :=
    ⟨rfl, rfl, by decide, by decide⟩
  refine ⟨hordered, ?_, hsets, ?_⟩
  · rw [ordered_handleSet_iff hordered]
    intro hin
    have hpass : (setHosts 15 12).Passes (hosts 1 20) := by
      rintro x hx
      obtain rfl | rfl := List.mem_pair.mp hx
      · refine ⟨by decide, ?_⟩
        change _ ≤ bound _ _
        rw [hlast]
        decide
      · refine ⟨by decide, ?_⟩
        change bound _ _ ≤ _
        rw [hstart]
        decide
    exact absurd (hin hpass _ rfl _ rfl) (by decide)
  · obtain ⟨hpass, -, -⟩ | ⟨-, hrefused, -⟩ := handleSet_bounds (setHosts 30 40) (hosts 1 20)
    · have hover := (hsets.passes_iff.mp hpass).1
      rw [hlast] at hover
      exact absurd hover (by decide)
    · exact hrefused

end Wap4410n.Snmp
