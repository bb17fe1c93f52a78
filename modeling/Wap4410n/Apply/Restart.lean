import Wap4410n.Apcfg.Wlan

/-!
# Apply — a VAP reconfigured and the radio restarted

A VAP of a running radio is reconfigured by `vap_handler`, which writes a script and runs it.  When
the radio is started, `wlanStart` writes scripts for all of its interfaces.  Both derive from the
operation mode which interfaces there are, and both leave the lines of an interface to the same
helpers, `wlanBasicApply` and the others.  A script is the list of its `Line`s here, with a call of
a helper as one line, and `calls` are the arguments a helper is called with for an interface.

The helper is told with `sta` whether the interface follows the channel of a remote access point.
In mode `CFG_OP_MODE_UR` `wlanStart` passes 2 for the access point beside the client, `vap_handler`
0; and `vap_handler` sets up an access point in modes in which `wlanStart` makes none.

* `linesOf_activeAps`: the lines of the loop of `wlanStart` about one VAP are those of its own.
* `restarts_iff`: the modes in which the two agree on a VAP.
* `repeater_channel`: they do not in mode `CFG_OP_MODE_UR`.
-/

namespace Wap4410n.Apply

open CLib Apcfg

/-! ### Lines of a script -/

/-- The helpers that configure an interface. -/
inductive Helper where
  | basic | advance | acl | wds | security | noApSecurity | bridge
deriving DecidableEq, Repr

/-- The modes of an interface; `wds` is `wlanmode ap nosbeacon`. -/
inductive Mode where
  | ap | wds | sta
deriving DecidableEq, Repr

/-- What `ATH_SCRIPT_ADD` adds, and the calls of the helpers, which add lines of their own. -/
inductive Line where
  /-- `wlanconfig ath%d%d create …` -/
  | make (bss : Nat) (mode : Mode)
  /-- `/etc/ath/ath_VAP_stop ath%d%d destroy` -/
  | stop (bss : Nat)
  | call (helper : Helper) (bss : Nat) (args : List Int)
  | text (line : String)
deriving DecidableEq, Repr

/-- `wlanBasicApply` -/
def wlanBasicApply (bss : Nat) (all sta : Int) : Line := .call .basic bss [all, sta]

/-- `wlanAdvanceApply` -/
def wlanAdvanceApply (bss : Nat) (all : Int) : Line := .call .advance bss [all]

/-- `wlanAclApply` -/
def wlanAclApply (bss : Nat) : Line := .call .acl bss []

/-- `wlanWdsApply` -/
def wlanWdsApply (bss : Nat) : Line := .call .wds bss []

/-- `wlanSecurityApply` -/
def wlanSecurityApply (bss : Nat) : Line := .call .security bss []

/-- `wlanNoApSecurityApply` -/
def wlanNoApSecurityApply (bss : Nat) : Line := .call .noApSecurity bss []

/-- `wlanBridgeApply` -/
def wlanBridgeApply (bss : Nat) (wds : Int) : Line := .call .bridge bss [wds]

namespace Line

/-- The interface the line is about. -/
def bss : Line → Option Nat
  | make bss _ => some bss
  | stop bss => some bss
  | call _ bss _ => some bss
  | text _ => none

end Line

/-- The lines about an interface. -/
def linesOf (bss : Nat) (script : List Line) : List Line := script.filter (·.bss = some bss)

/-- The arguments with which the helper is called for an interface. -/
def calls (helper : Helper) (bss : Nat) (script : List Line) : List (List Int) :=
  script.filterMap fun
    | .call h b args => if h = helper ∧ b = bss then some args else none
    | _ => none

/-- An access point is made for the interface. -/
def MakesAp (bss : Nat) (script : List Line) : Prop :=
  .make bss .ap ∈ script ∨ .make bss .wds ∈ script

instance (bss : Nat) (script : List Line) : Decidable (MakesAp bss script) :=
  inferInstanceAs (Decidable (_ ∨ _))

/-! ### `vap_handler` -/

/-- `WLAN_MAX_DEV` -/
def wlanMaxDev : Nat := 1

/-- `apmode`: the mode has access points. -/
def apMode (mode : Int) : Bool :=
  mode ≠ cfgOpModePpt && mode ≠ cfgOpModeMpt && mode ≠ cfgOpModeUc

/-- `wds`: the mode has bridges. -/
def wdsMode (mode : Int) : Bool :=
  mode = cfgOpModePpt || mode = cfgOpModeMpt || mode = cfgOpModeApPtp || mode = cfgOpModeApPtmp

/-- `sta`: the mode has a client. -/
def staMode (mode : Int) : Bool := mode = cfgOpModeUc || mode = cfgOpModeUr

/-- The interfaces `vap_handler` removes and makes first. -/
def remakeVap (mode : Int) (vap : Nat) : List Line :=
  if apMode mode then
    [.stop vap, .make vap .ap] ++ (if staMode mode then [.stop wlanMaxVap] else [])
  else if staMode mode then [.stop wlanMaxVap]
  else [.stop vap]

/-- Universal client and repeater setup. -/
def clientLines : List Line := [
  .text "echo 1 > /proc/us_cfb", .make wlanMaxVap .sta,
  wlanBasicApply wlanMaxVap 1 1, wlanAdvanceApply wlanMaxVap 1,
  wlanNoApSecurityApply wlanMaxVap, .text "sleep 2", wlanBridgeApply wlanMaxVap 0,
  .text "/usr/sbin/rc wpasupplicant restart&"]

/-- Pure WDS mode setup. -/
def bridgeLines (vap : Nat) : List Line := [
  .text "echo 1 > /proc/wds_cfb", .make vap .wds,
  wlanBasicApply vap 1 0, wlanAdvanceApply vap 1, wlanWdsApply vap,
  wlanNoApSecurityApply vap, .text "sleep 2", wlanBridgeApply vap 1,
  .text "/usr/sbin/rc wdspsk start&"]

/-- Normal AP mode. -/
def apLines (wds : Bool) (vap : Nat) : List Line :=
  (if wds then [.text "echo 1 > /proc/wds_cfb"] else []) ++
  [wlanBasicApply vap 0 0, wlanAdvanceApply vap 0, wlanAclApply vap] ++
  (if wds then [wlanWdsApply vap] else []) ++
  [wlanSecurityApply vap, wlanBridgeApply vap (if wds then 2 else 0)] ++
  (if vap = 0 ∧ wds then [.text "/usr/sbin/rc wdspsk start&"] else [])

/-- `vap_handler`, in a mode other than `CFG_OP_MODE_ROGAP`: the lines for an active VAP. -/
def configVap (mode : Int) (vap : Nat) : List Line :=
  remakeVap mode vap ++
  (if vap = 0 ∧ staMode mode then clientLines else []) ++
  (if vap = 0 ∧ wdsMode mode ∧ !apMode mode then bridgeLines vap else []) ++
  (if apMode mode then apLines (vap = 0 && wdsMode mode) vap else [])

/-- `vap_handler`: what it returns, and the script it runs.  It runs none while there is a script of
an earlier call (`busy`). -/
def vapHandler (busy : Bool) (unit vap : Int) : Cfg (Int × List Line) := do
  if unit = -1 ∨ wlanMaxDev ≤ unit ∨ vap = -1 ∨ wlanMaxVap ≤ vap then return (1, []) else
  if busy then return (0, []) else
  let state ← apCfgWlanStateGet unit.toNat
  let active ← apCfgActiveModeGet unit.toNat vap.toNat
  let mode ← apCfgOpModeGet unit.toNat
  return (0, [.text "#!/bin/sh", .text "/etc/ath/ath_VAP_down 0"] ++
    (if state = 0 ∨ active = 0 then [.stop vap.toNat]
      else if mode ≠ cfgOpModeRogap then configVap mode vap.toNat
      else []) ++
    [.text "/etc/ath/ath_VAP_up 0"])

/-! ### `wlanStart` -/

/-- The scripts of `wlanStart`, run in this order. -/
inductive Step where
  | pre | make | sta | ap | suf | last
deriving DecidableEq, Repr

/-- The lines of an access point that is started. -/
def startAp (mode : Int) (vap : Nat) : List (Step × Line) := [
  (.make, .make vap .ap),
  (.make, wlanBasicApply vap 0 (if mode = cfgOpModeUr then 2 else 0)),
  (.make, wlanAdvanceApply vap 0),
  (.make, wlanAclApply vap),
  (.suf, wlanBridgeApply vap 0),
  (.ap, wlanSecurityApply vap)]

/-- `for(vap=0; vap < WLAN_MAX_VAP; vap++)`: the access points of the active VAPs. -/
def startAps (unit : Nat) (mode : Int) : List Nat → Cfg (List (Step × Line))
  | [] => return []
  | vap :: rest => do
      let active ← apCfgActiveModeGet unit vap
      let lines ← startAps unit mode rest
      return (if active ≠ 0 then startAp mode vap else []) ++ lines

/-- Rogue AP mode. -/
def startRogue : List (Step × Line) := [
  (.make, .make 0 .sta),
  (.last, .text "/usr/sbin/rc rogueap start&")]

/-- WDS and AP mode setup. -/
def startApWds : List (Step × Line) := [
  (.make, .text "echo 1 > /proc/wds_cfb"),
  (.make, .make 0 .ap),
  (.make, wlanBasicApply 0 0 0),
  (.make, wlanAdvanceApply 0 0),
  (.make, wlanAclApply 0),
  (.suf, wlanBridgeApply 0 2),
  (.ap, wlanWdsApply 0),
  (.ap, wlanSecurityApply 0),
  (.last, .text "/usr/sbin/rc wdspsk start&")]

/-- Pure WDS mode setup. -/
def startWds : List (Step × Line) := [
  (.make, .text "echo 1 > /proc/wds_cfb"),
  (.make, .make 0 .wds),
  (.make, wlanBasicApply 0 1 0),
  (.make, wlanAdvanceApply 0 1),
  (.suf, wlanBridgeApply 0 1),
  (.ap, wlanWdsApply 0),
  (.ap, wlanNoApSecurityApply 0),
  (.ap, .text "sleep 2"),
  (.last, .text "/usr/sbin/rc wdspsk start&")]

/-- Universal client and repeater setup. -/
def startClient : List (Step × Line) := [
  (.make, .text "echo 1 > /proc/us_cfb"),
  (.make, .make wlanMaxVap .sta),
  (.make, wlanBasicApply wlanMaxVap 1 1),
  (.make, wlanAdvanceApply wlanMaxVap 1),
  (.suf, wlanBridgeApply wlanMaxVap 0),
  (.sta, wlanNoApSecurityApply wlanMaxVap),
  (.sta, .text "sleep 2"),
  (.last, .text "/usr/sbin/rc wpasupplicant start&")]

/-- The setups of the modes of an enabled radio, with the lines of the access points of the modes
that have one for each VAP. -/
def startModes (mode : Int) (aps : List (Step × Line)) : List (Step × Line) :=
  (if mode = cfgOpModeAp ∨ mode = cfgOpModeUr then aps else []) ++
  (if mode = cfgOpModeApPtp ∨ mode = cfgOpModeApPtmp then startApWds else []) ++
  (if mode = cfgOpModePpt ∨ mode = cfgOpModeMpt then startWds else []) ++
  (if mode = cfgOpModeUc ∨ mode = cfgOpModeUr then startClient else []) ++
  [(.last, .text "/usr/sbin/snmptrap -t 3")]

/-- `wlanStart`, from the branches on the mode on: the lines it adds, each with its script. -/
def wlanStart (unit : Nat) : Cfg (List (Step × Line)) := do
  let mode ← apCfgOpModeGet unit
  if mode = cfgOpModeRogap then return startRogue else
  let state ← apCfgWlanStateGet unit
  if state = 1 then
    let aps ← startAps unit mode vaps
    return startModes mode aps
  else return []

/-- The lines of the scripts. -/
def scriptLines (script : List (Step × Line)) : List Line := script.map Prod.snd

/-! ### The lines about a VAP -/

section Lines

variable (bss : Nat) (script script' : List Line)

theorem linesOf_append :
    linesOf bss (script ++ script') = linesOf bss script ++ linesOf bss script' :=
  List.filter_append _ _

theorem calls_linesOf (helper : Helper) :
    calls helper bss (linesOf bss script) = calls helper bss script := by
  induction script with
  | nil => rfl
  | cons line script ih =>
      by_cases h : line.bss = some bss
      · have hkept : linesOf bss (line :: script) = line :: linesOf bss script :=
          List.filter_cons_of_pos (by simpa using h)
        rw [hkept]
        unfold calls at ih ⊢
        rw [List.filterMap_cons, List.filterMap_cons, ih]
      · have hleft : linesOf bss (line :: script) = linesOf bss script :=
          List.filter_cons_of_neg (by simpa using h)
        have hnone : calls helper bss (line :: script) = calls helper bss script := by
          cases line with
          | call h' b args =>
              have hb : b ≠ bss := fun hb => h (congrArg some hb)
              exact List.filterMap_cons_none (if_neg fun hand => hb hand.2)
          | _ => rfl
        rw [hleft, hnone, ih]

theorem makesAp_linesOf : MakesAp bss (linesOf bss script) ↔ MakesAp bss script := by
  have hmem (mode : Mode) : .make bss mode ∈ linesOf bss script ↔ .make bss mode ∈ script := by
    unfold linesOf
    rw [List.mem_filter]
    exact and_iff_left (decide_eq_true rfl)
  exact or_congr (hmem .ap) (hmem .wds)

end Lines

variable {c : Config}

/-- Whether the radio is enabled. -/
def wlanState (c : Config) : Int := flagOf (c.get (.radio 0 .state))

theorem scriptLines_append (script script' : List (Step × Line)) :
    scriptLines (script ++ script') = scriptLines script ++ scriptLines script' :=
  List.map_append

/-- The access points of the active VAPs of a list. -/
def activeAps (c : Config) (mode : Int) (bsss : List Nat) : List (Step × Line) :=
  bsss.flatMap fun bss => if activeMode c bss ≠ 0 then startAp mode bss else []

theorem startAps_eq (mode : Int) (bsss : List Nat) :
    startAps 0 mode bsss c = (.ok (activeAps c mode bsss), c) := by
  induction bsss with
  | nil => rfl
  | cons bss rest ih =>
      have hactive : apCfgActiveModeGet 0 bss c = (.ok (activeMode c bss), c) := rfl
      unfold startAps
      rw [Act.bind_ok hactive, Act.bind_ok ih]
      rfl

/-- None of the lines of another access point is about the VAP. -/
theorem linesOf_startAp_of_ne {bss vap : Nat} (h : bss ≠ vap) (mode : Int) :
    linesOf vap (scriptLines (startAp mode bss)) = [] := by
  refine List.filter_eq_nil_iff.mpr fun line hline => ?_
  have hbss : line.bss = some bss := by
    have hall : ∀ line ∈ scriptLines (startAp mode bss), line.bss = some bss := by
      simp [scriptLines, startAp, Line.bss, wlanBasicApply, wlanAdvanceApply, wlanAclApply,
        wlanBridgeApply, wlanSecurityApply]
    exact hall line hline
  simpa [hbss] using h

/-- Among the access points of a list, the lines about an active VAP are those of its own. -/
theorem linesOf_activeAps (mode : Int) {vap : Nat} (hact : activeMode c vap ≠ 0)
    {bsss : List Nat} (hnd : bsss.Nodup) :
    linesOf vap (scriptLines (activeAps c mode bsss)) =
      if vap ∈ bsss then linesOf vap (scriptLines (startAp mode vap)) else [] := by
  induction bsss with
  | nil => rfl
  | cons bss rest ih =>
      obtain ⟨hnot, hnd⟩ := List.nodup_cons.mp hnd
      have hsplit : activeAps c mode (bss :: rest) =
          (if activeMode c bss ≠ 0 then startAp mode bss else []) ++ activeAps c mode rest := rfl
      rw [hsplit, scriptLines_append, linesOf_append, ih hnd]
      by_cases hb : bss = vap
      · subst hb
        rw [if_pos hact, if_neg hnot, if_pos List.mem_cons_self, List.append_nil]
      · have hhead : linesOf vap
            (scriptLines (if activeMode c bss ≠ 0 then startAp mode bss else [])) = [] := by
          split
          · exact linesOf_startAp_of_ne hb mode
          · rfl
        simp only [hhead, List.nil_append, List.mem_cons, Ne.symm hb, false_or]

/-- The lines of `wlanStart`, with those of the access points of the modes that have one for each
VAP. -/
def startLines (mode : Int) (aps : List (Step × Line)) : List (Step × Line) :=
  if mode = cfgOpModeRogap then startRogue else startModes mode aps

/-- The lines of `vap_handler` for an active VAP of an enabled radio. -/
def handleLines (busy : Bool) (mode : Int) (vap : Nat) : List Line :=
  if busy then [] else
  [.text "#!/bin/sh", .text "/etc/ath/ath_VAP_down 0"] ++
    (if mode ≠ cfgOpModeRogap then configVap mode vap else []) ++ [.text "/etc/ath/ath_VAP_up 0"]

theorem vapHandler_eq (busy : Bool) {vap : Nat} (hvap : vap < wlanMaxVap) (hon : wlanState c = 1)
    (hact : activeMode c vap ≠ 0) :
    vapHandler busy 0 vap c = (.ok (0, handleLines busy (opMode c) vap), c) := by
  have hstate : apCfgWlanStateGet 0 c = (.ok (wlanState c), c) := rfl
  have hactive : apCfgActiveModeGet 0 vap c = (.ok (activeMode c vap), c) := rfl
  have hvalid : ¬ ((0 : Int) = -1 ∨ (wlanMaxDev : Int) ≤ 0 ∨ (vap : Int) = -1 ∨
      (wlanMaxVap : Int) ≤ vap) := by
    unfold wlanMaxDev
    omega
  unfold vapHandler handleLines
  rw [if_neg hvalid]
  split
  · rfl
  · rw [Int.toNat_zero, Int.toNat_natCast, Act.bind_ok hstate, Act.bind_ok hactive,
      Act.bind_ok (apCfgOpModeGet_eq c), if_neg (by simp [hon, hact])]
    rfl

theorem wlanStart_eq (hon : wlanState c = 1) :
    wlanStart 0 c = (.ok (startLines (opMode c) (activeAps c (opMode c) vaps)), c) := by
  have hstate : apCfgWlanStateGet 0 c = (.ok (wlanState c), c) := rfl
  unfold wlanStart startLines
  rw [Act.bind_ok (apCfgOpModeGet_eq c), Act.ite_apply]
  split
  · rfl
  · rw [Act.bind_ok hstate, if_pos hon, Act.bind_ok (startAps_eq _ _)]
    rfl

/-- The lines about a VAP depend on those of its own access point only. -/
theorem linesOf_startLines (vap : Nat) (mode : Int) {aps aps' : List (Step × Line)}
    (h : linesOf vap (scriptLines aps) = linesOf vap (scriptLines aps')) :
    linesOf vap (scriptLines (startLines mode aps)) =
      linesOf vap (scriptLines (startLines mode aps')) := by
  unfold startLines startModes
  split
  · rfl
  · simp only [scriptLines_append, linesOf_append]
    split
    · rw [h]
    · rfl

/-! ### Where the two agree -/

/-- The helpers are called alike for the interface of the VAP, and not at all where no access point
is made for it. -/
def Alike (vap : Nat) (handled started : List Line) : Prop :=
  (∀ helper, calls helper vap handled = calls helper vap started) ∧
    (¬ MakesAp vap started →
      ∀ helper, calls helper vap handled = [] ∧ calls helper vap started = [])

/-- `vap_handler` configures the VAP as `wlanStart` does. -/
def Restarts (busy : Bool) (c : Config) (vap : Nat) : Prop :=
  ∃ ret handled started, vapHandler busy 0 vap c = (.ok (ret, handled), c) ∧
    wlanStart 0 c = (.ok started, c) ∧ Alike vap handled (scriptLines started)

/-- The modes in which `vap_handler` configures the VAP as `wlanStart` does.  While there is a
script of an earlier call, they are those in which there is nothing to configure. -/
def ModeAgrees (busy : Bool) (mode : Int) (vap : Nat) : Prop :=
  if busy then
    mode ∈ [cfgOpModeSta, cfgOpModeRepeater, cfgOpModeUc, cfgOpModeRogap] ∨
      vap ≠ 0 ∧ mode ∈ [cfgOpModePpt, cfgOpModeMpt, cfgOpModeApPtp, cfgOpModeApPtmp]
  else
    mode ∈ [cfgOpModeAp, cfgOpModePpt, cfgOpModeMpt, cfgOpModeUc, cfgOpModeRogap] ∨
      vap = 0 ∧ mode ∈ [cfgOpModeApPtp, cfgOpModeApPtmp]

instance (busy : Bool) (mode : Int) (vap : Nat) : Decidable (ModeAgrees busy mode vap) :=
  inferInstanceAs (Decidable (ite _ _ _))

instance (P : Helper → Prop) [DecidablePred P] : Decidable (∀ helper, P helper) :=
  decidable_of_iff
    (∀ helper ∈ [Helper.basic, .advance, .acl, .wds, .security, .noApSecurity, .bridge], P helper)
    ⟨fun h helper => h helper (by cases helper <;> decide), fun h helper _ => h helper⟩

instance (vap : Nat) (handled started : List Line) : Decidable (Alike vap handled started) :=
  inferInstanceAs (Decidable (_ ∧ (_ → _)))

theorem alike_linesOf (vap : Nat) (handled started : List Line) :
    Alike vap handled (linesOf vap started) ↔ Alike vap handled started := by
  unfold Alike
  simp only [calls_linesOf, makesAp_linesOf]

/-- The two lists of lines for one VAP, mode by mode. -/
theorem alike_iff (busy : Bool) : ∀ mode ∈ opModes.values, ∀ vap < wlanMaxVap,
    Alike vap (handleLines busy mode vap) (scriptLines (startLines mode (startAp mode vap))) ↔
      ModeAgrees busy mode vap := by
  cases busy <;> decide +kernel

/-- **A VAP is reconfigured as it is started** in the modes of `ModeAgrees` alone. -/
theorem restarts_iff (busy : Bool) {vap : Nat} (hvap : vap < wlanMaxVap) (hon : wlanState c = 1)
    (hact : activeMode c vap ≠ 0) : Restarts busy c vap ↔ ModeAgrees busy (opMode c) vap := by
  have hmode : opMode c ∈ opModes.values := Texts.decode_mem (t := opModes) (by decide) _
  have hown : linesOf vap (scriptLines (startLines (opMode c) (activeAps c (opMode c) vaps))) =
      linesOf vap (scriptLines (startLines (opMode c) (startAp (opMode c) vap))) := by
    refine linesOf_startLines vap (opMode c) ?_
    have hmem : vap ∈ vaps := by
      unfold wlanMaxVap at hvap
      unfold vaps
      simp only [List.mem_cons, List.not_mem_nil, or_false]
      omega
    rw [linesOf_activeAps (opMode c) hact (by decide), if_pos hmem]
  rw [← alike_iff busy (opMode c) hmode vap hvap, ← alike_linesOf, ← hown, alike_linesOf]
  constructor
  · rintro ⟨ret, handled, started, hhandle, hstart, halike⟩
    rw [vapHandler_eq busy hvap hon hact] at hhandle
    rw [wlanStart_eq hon] at hstart
    cases hhandle
    cases hstart
    exact halike
  · intro halike
    exact ⟨_, _, _, vapHandler_eq busy hvap hon hact, wlanStart_eq hon, halike⟩

/-- A configuration in which the radio and VAP 0 are enabled. -/
def enabledIn (mode : Int) : Config where
  get
    | .radio _ .state => enable
    | .radio _ .opMode => opModes.encode mode
    | .vap _ 0 .state => enable
    | _ => .empty
  flags := []
  closed := false

/-- Beside a bridge, VAP 0 is reconfigured as it is started. -/
theorem restarts_apPtp : (0 < wlanMaxVap ∧ wlanState (enabledIn cfgOpModeApPtp) = 1 ∧
    activeMode (enabledIn cfgOpModeApPtp) 0 ≠ 0) ∧
    Restarts false (enabledIn cfgOpModeApPtp) 0 :=
  ⟨by decide, (restarts_iff false (by decide) (by decide) (by decide)).mpr (by decide)⟩

/-- **The access point of a repeater** is started without a channel of its own, and reconfigured
with one. -/
theorem repeater_channel : ¬ ∀ (c : Config) (vap : Nat), vap < wlanMaxVap → wlanState c = 1 →
    activeMode c vap ≠ 0 → Restarts false c vap := by
  intro h
  have hon : wlanState (enabledIn cfgOpModeUr) = 1 := by decide
  have hact : activeMode (enabledIn cfgOpModeUr) 0 ≠ 0 := by decide
  obtain ⟨ret, handled, started, hhandle, hstart, halike, -⟩ :=
    h (enabledIn cfgOpModeUr) 0 (by decide) hon hact
  rw [vapHandler_eq false (by decide) hon hact] at hhandle
  rw [wlanStart_eq hon] at hstart
  cases hhandle
  cases hstart
  -- 0 for `sta` in the one, 2 in the other
  exact absurd (halike .basic) (by decide +kernel)

end Wap4410n.Apply
