import Mathlib.Algebra.Group.Int.Defs
import Mathlib.Algebra.Group.Nat.Defs
import Mathlib.Data.List.Basic
import Mathlib.Tactic.Common
import Wap4410n.Support.Runs

/-!
# PushButton — the reset button

The daemon polls the button.  While the button is held it prompts once for a release, and on the
release it restores the defaults, reboots or tests, according to how long the button was held.  The
time is computed in microseconds, in a `time_t` of 32 bits, so that a press of more than 2147
seconds overflows.

* `timerinterval_toInt`: the interval is the time that passed, modulo 2^32.
* `heldRight_iff`: the right action is taken just on the presses that do not overflow, or come round
  to more than four seconds; the prompt is right on all of them.
-/

namespace Wap4410n.PushButton

open CLib

/-! ### The time -/

/-- `struct timeval`, whose fields are `long` -/
structure Timeval where
  sec : Int32
  usec : Int32
  usec_nonneg : 0 ≤ usec.toInt
  usec_lt : usec.toInt < 1000000

/-- The time in microseconds. -/
def Timeval.micros (t : Timeval) : Int := t.sec.toInt * 1000000 + t.usec.toInt

/-- `timerinterval` -/
def timerinterval (tvp uvp : Timeval) : Int32 :=
  (tvp.sec - uvp.sec) * 1000000 + (tvp.usec - uvp.usec)

/-- `RESTORE_INTERVAL` -/
def restoreInterval : Int32 := 4000000

/-- `REBOOT_INTERVAL` -/
def rebootInterval : Int32 := 1000000

/-- **The interval** is the time that passed, modulo 2^32. -/
theorem timerinterval_toInt (tvp uvp : Timeval) :
    (timerinterval tvp uvp).toInt = (tvp.micros - uvp.micros).bmod (2 ^ 32) := by
  have hsplit : tvp.micros - uvp.micros =
      (tvp.sec.toInt - uvp.sec.toInt) * 1000000 + (tvp.usec.toInt - uvp.usec.toInt) := by
    rw [Timeval.micros, Timeval.micros]
    omega
  have hmillion : (1000000 : Int32).toInt = 1000000 := by decide
  rw [timerinterval, Int32.toInt_add, Int32.toInt_mul, Int32.toInt_sub, Int32.toInt_sub, hmillion,
    Int.bmod_mul_bmod, Int.bmod_add_bmod, Int.add_bmod_bmod, hsplit]

/-! ### The daemon -/

/-- `STATE_NORMAL` and `STATE_PRESSED` -/
inductive ButtonState where
  | normal
  | pressed
deriving DecidableEq, Repr

/-- What the daemon does, beside waiting. -/
inductive Action where
  /-- `Please release the button for doing restore.` -/
  | prompt
  | restore
  | reboot
  | test
deriving DecidableEq, Repr

/-- A turn of the loop: what `ButtonIsPushed` returns, and the time. -/
structure Poll where
  pushed : Bool
  time : Timeval

/-- The variables of `main`, and whether it called `exit`. -/
structure Daemon where
  state : ButtonState
  flag : Bool
  beginTime : Timeval
  exited : Bool

namespace Daemon

/-- A turn of the loop of `main`. -/
def poll (m : Daemon) (p : Poll) : Daemon × Option Action :=
  if m.exited then (m, none)
  else if p.pushed then
    match m.state with
    | .normal => ({ m with beginTime := p.time, state := .pressed, flag := false }, none)
    | .pressed =>
      let interval := timerinterval p.time m.beginTime
      if m.flag = false ∧ restoreInterval < interval then ({ m with flag := true }, some .prompt)
      else (m, none)
  else
    match m.state with
    | .normal => (m, none)
    | .pressed =>
      let m := { m with state := .normal }
      let interval := timerinterval p.time m.beginTime
      if restoreInterval < interval then ({ m with exited := true }, some .restore)
      else if rebootInterval < interval then ({ m with exited := true }, some .reboot)
      else (m, some .test)

/-- The daemon behind a turn. -/
def step (m : Daemon) (p : Poll) : Daemon := (m.poll p).1

/-- The turns at which something was done. -/
def acted (m : Daemon) : List Poll → List (Poll × Action)
  | [] => []
  | p :: ps => ((m.poll p).2.map (p, ·)).toList ++ acted (m.step p) ps

end Daemon

/-- `main`; `flag` and `beginTime` are not initialised. -/
def main (flag : Bool) (beginTime : Timeval) : Daemon := ⟨.normal, flag, beginTime, false⟩

/-- The polls of a press, from the first one at which the button is pushed to the first one at which
it is not, and those before it. -/
structure Press where
  before : List Poll
  first : Poll
  held : List Poll
  release : Poll
  /-- the button was not pushed just before -/
  fresh : ∀ p ∈ before.getLast?, p.pushed = false
  first_pushed : first.pushed = true
  held_pushed : ∀ p ∈ held, p.pushed = true
  released : release.pushed = false
  /-- the time does not go back -/
  ordered : (before ++ first :: held ++ [release]).Pairwise (·.time.micros ≤ ·.time.micros)

namespace Press

/-- How long the button was held. -/
def duration (pr : Press) : Int := pr.release.time.micros - pr.first.time.micros

/-- What is to be done on a release, in microseconds. -/
def rightAction (d : Int) : Action :=
  if 4000000 < d then .restore else if 1000000 < d then .reboot else .test

/-- The daemon is right about a press that begins when it is at `m`. -/
structure HeldRight (pr : Press) (m : Daemon) : Prop where
  once : (m.acted (pr.first :: pr.held)).length ≤ 1
  late : ∀ q ∈ m.acted (pr.first :: pr.held),
    q.2 = .prompt ∧ 4000000 < q.1.time.micros - pr.first.time.micros
  action : ((runs Daemon.step m (pr.first :: pr.held)).poll pr.release).2 =
    some (rightAction pr.duration)

/-- The interval is on the right side of the bounds. -/
def Fits (d : Int) : Prop := d < 2 ^ 31 ∨ 4000000 < d % 2 ^ 32 ∧ d % 2 ^ 32 < 2 ^ 31

end Press

/-! ### A press -/

namespace Daemon

/-- The daemon in a press that began at `t`. -/
structure Pressed (m : Daemon) (t : Timeval) : Prop where
  state : m.state = .pressed
  beginTime : m.beginTime = t
  running : m.exited = false

/-- The daemon between two presses. -/
structure Normal (m : Daemon) : Prop where
  state : m.state = .normal
  running : m.exited = false

variable {m : Daemon} {t : Timeval} {p : Poll}

/-- **The first poll** of a press. -/
theorem Normal.poll (h : m.Normal) (hp : p.pushed = true) :
    m.poll p = ({ m with beginTime := p.time, state := .pressed, flag := false }, none) := by
  rw [Daemon.poll, h.running, if_neg Bool.false_ne_true, if_pos hp, h.state]

/-- **The other polls** of a press. -/
theorem Pressed.poll (h : m.Pressed t) (hp : p.pushed = true) :
    m.poll p =
      if m.flag = false ∧ restoreInterval < timerinterval p.time t then
        ({ m with flag := true }, some .prompt)
      else (m, none) := by
  rw [Daemon.poll, h.running, if_neg Bool.false_ne_true, if_pos hp, h.state, h.beginTime]

/-- The polls of a press but the first: it goes on, and a prompt is given at most once, where the
interval is past the bound. -/
theorem Pressed.acted (h : m.Pressed t) {ps : List Poll} (hps : ∀ p ∈ ps, p.pushed = true) :
    (runs step m ps).Pressed t ∧
      (m.acted ps).length ≤ (if m.flag then 0 else 1) ∧
      ∀ q ∈ m.acted ps, q.1 ∈ ps ∧ q.2 = .prompt ∧ restoreInterval < timerinterval q.1.time t := by
  induction ps generalizing m with
  | nil => exact ⟨h, Nat.zero_le _, fun q hq => absurd hq List.not_mem_nil⟩
  | cons p ps ih =>
      obtain ⟨hp, hps⟩ := List.forall_mem_cons.mp hps
      have hpoll := h.poll hp
      rw [runs_cons, Daemon.acted, step, hpoll]
      by_cases hprompt : m.flag = false ∧ restoreInterval < timerinterval p.time t
      · obtain ⟨hflag, hlate⟩ := hprompt
        have hnext : { m with flag := true }.Pressed t := ⟨h.state, h.beginTime, h.running⟩
        obtain ⟨hstill, hlen, hacted⟩ := ih hnext hps
        have hnone : Daemon.acted { m with flag := true } ps = [] :=
          List.eq_nil_of_length_eq_zero (Nat.le_zero.mp hlen)
        rw [if_pos ⟨hflag, hlate⟩, hflag]
        refine ⟨hstill, ?_, fun q hq => ?_⟩
        · rw [hnone]
          exact Nat.le_refl 1
        · rw [hnone] at hq
          obtain rfl := List.mem_singleton.mp hq
          exact ⟨List.mem_cons_self, rfl, hlate⟩
      · obtain ⟨hstill, hlen, hacted⟩ := ih h hps
        rw [if_neg hprompt]
        exact ⟨hstill, hlen, fun q hq => ⟨List.mem_cons_of_mem p (hacted q hq).1, (hacted q hq).2⟩⟩

/-- **The release.** -/
theorem Pressed.release (h : m.Pressed t) (hp : p.pushed = false) :
    (m.poll p).2 = some (Press.rightAction (timerinterval p.time t).toInt) := by
  rw [Daemon.poll, h.running, if_neg Bool.false_ne_true, hp, if_neg Bool.false_ne_true, h.state,
    Press.rightAction]
  dsimp only
  rw [h.beginTime]
  have hrestore : restoreInterval < timerinterval p.time t ↔
      4000000 < (timerinterval p.time t).toInt := Int32.lt_iff_toInt_lt
  have hreboot : rebootInterval < timerinterval p.time t ↔
      1000000 < (timerinterval p.time t).toInt := Int32.lt_iff_toInt_lt
  simp only [hrestore, hreboot]
  split
  · rfl
  · split <;> rfl

/-- The daemon has ended, or saw that the button is released. -/
theorem step_normal (m : Daemon) (hp : p.pushed = false) (hrun : (m.step p).exited = false) :
    (m.step p).Normal := by
  refine ⟨?_, hrun⟩
  revert hrun
  rw [step, Daemon.poll, hp, if_neg Bool.false_ne_true]
  split
  · next hexit => simp [hexit]
  · cases hstate : m.state with
    | normal => exact fun _ => hstate
    | pressed =>
        dsimp only
        split
        · exact fun _ => rfl
        · split <;> exact fun _ => rfl

end Daemon

namespace Press

variable (pr : Press)

/-- A press finds the daemon between two presses, if it still runs. -/
theorem normal_before (flag : Bool) (beginTime : Timeval)
    (hrun : (runs Daemon.step (main flag beginTime) pr.before).exited = false) :
    (runs Daemon.step (main flag beginTime) pr.before).Normal := by
  have hfresh := pr.fresh
  revert hrun hfresh
  rcases List.eq_nil_or_concat' pr.before with hnil | ⟨ps, p, hlast⟩
  · rw [hnil]
    exact fun _ _ => ⟨rfl, rfl⟩
  · rw [hlast, List.getLast?_concat, runs, List.foldl_append]
    exact fun hrun hfresh => Daemon.step_normal _ (hfresh p rfl) hrun

/-- The polls of a press are not before it. -/
theorem first_le {p : Poll} (hp : p ∈ pr.first :: pr.held ∨ p = pr.release) :
    pr.first.time.micros ≤ p.time.micros := by
  have hpress := (List.pairwise_append.mp (List.append_assoc .. ▸ pr.ordered)).2.1
  have hfirst := (List.pairwise_cons.mp hpress).1
  rcases hp with hp | rfl
  · rcases List.mem_cons.mp hp with rfl | hp
    · exact Int.le_refl _
    · exact hfirst p (List.mem_append_left _ hp)
  · exact hfirst _ (List.mem_append_right _ (List.mem_singleton_self _))

theorem rightAction_restore {d : Int} : rightAction d = .restore ↔ 4000000 < d := by
  rw [rightAction]
  split
  · next h => exact iff_of_true rfl h
  · next h =>
      refine iff_of_false ?_ h
      split <;> simp

/-- **The right action** is that of the time modulo 2^32 just where it fits. -/
theorem rightAction_bmod {d : Int} (hd : 0 ≤ d) :
    rightAction (d.bmod (2 ^ 32)) = rightAction d ↔ Fits d := by
  rcases Int.lt_or_le d (2 ^ 31) with hsmall | hlarge
  · have hbmod : d.bmod (2 ^ 32) = d := Int.bmod_eq_of_le (by omega) (by omega)
    rw [hbmod]
    exact iff_of_true rfl (.inl hsmall)
  · -- the time is past all bounds
    have hlate : rightAction d = .restore := rightAction_restore.mpr (by omega)
    rw [hlate, rightAction_restore, Fits, Int.bmod_def]
    split <;> omega

/-- A prompt where the time modulo 2^32 is past the bound is not too early. -/
theorem late_of_bmod {d : Int} (hd : 0 ≤ d) (h : 4000000 < d.bmod (2 ^ 32)) : 4000000 < d := by
  rw [Int.bmod_def] at h
  split at h <;> omega

/-- **A press** is acted upon right just where its duration fits. -/
theorem heldRight_iff (flag : Bool) (beginTime : Timeval)
    (hrun : (runs Daemon.step (main flag beginTime) pr.before).exited = false) :
    pr.HeldRight (runs Daemon.step (main flag beginTime) pr.before) ↔ Fits pr.duration := by
  have hnormal := pr.normal_before flag beginTime hrun
  generalize runs Daemon.step (main flag beginTime) pr.before = m at hnormal
  have hfirst := hnormal.poll pr.first_pushed
  have hpressed : (m.step pr.first).Pressed pr.first.time := by
    rw [Daemon.step, hfirst]
    exact ⟨rfl, rfl, hnormal.running⟩
  obtain ⟨hheld, hlen, hacted⟩ := hpressed.acted pr.held_pushed
  have hall : m.acted (pr.first :: pr.held) = (m.step pr.first).acted pr.held := by
    rw [Daemon.acted, hfirst]
    rfl
  have hd : 0 ≤ pr.duration := Int.sub_nonneg_of_le (pr.first_le (.inr rfl))
  have hrelease := hheld.release pr.released
  rw [timerinterval_toInt] at hrelease
  rw [← rightAction_bmod hd]
  constructor
  · intro h
    exact Option.some.inj (hrelease.symm.trans h.action)
  · intro hright
    refine ⟨?_, fun q hq => ?_, ?_⟩
    · rw [hall]
      exact Nat.le_trans hlen (by split <;> simp)
    · rw [hall] at hq
      obtain ⟨hmem, hprompt, hlate⟩ := hacted q hq
      rw [restoreInterval, Int32.lt_iff_toInt_lt, timerinterval_toInt] at hlate
      exact ⟨hprompt, late_of_bmod
        (Int.sub_nonneg_of_le (pr.first_le (.inl (List.mem_cons_of_mem _ hmem)))) hlate⟩
    · rw [← hright]
      exact hrelease

/-- The second `sec`. -/
def second (sec : Nat) : Timeval := ⟨.ofNat sec, 0, by decide, by decide⟩

/-- A press of `sec` seconds, the first one. -/
def ofSeconds (sec : Nat) (h : (second 0).micros ≤ (second sec).micros) : Press where
  before := []
  first := ⟨true, second 0⟩
  held := []
  release := ⟨false, second sec⟩
  fresh := by simp
  first_pushed := rfl
  held_pushed := by simp
  released := rfl
  ordered := by simpa using h

theorem heldRight_iff_short : (ofSeconds 5 (by decide)).HeldRight (main true (second 0)) :=
  ((ofSeconds 5 (by decide)).heldRight_iff true (second 0) rfl).mpr (.inl (by decide))

/-- **A press of 2200 seconds** is taken for a test. -/
theorem longPress_not_right : ¬(ofSeconds 2200 (by decide)).HeldRight (main true (second 0)) := by
  intro h
  exact absurd h.action (by decide)

end Press

end Wap4410n.PushButton
