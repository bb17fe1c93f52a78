import Wap4410n.Apcfg.Vap

/-!
# Apcfg — what the operation mode requires

In client, repeater and monitor mode a radio has only VAP 0, no enterprise authentication there, a
channel of 20 MHz, and in repeater mode no forwarding between VAPs (`OpModeInv`).  The setters of
these settings refuse or correct a value the stored mode does not allow.  `apCfgOpModeSet` stores
the new mode last: before that it corrects the settings, and the invariant of the old mode holds
meanwhile (`correctSettings_spec`); behind it, it activates VAPs only in mode `AccessPoint`.

* `preserves_apCfgOpModeSet`, …: one call.
* `opModeInv_run`: any sequence of calls.
-/

namespace Wap4410n.Apcfg

open CLib

/-! ### The invariant -/

/-- The authentication of VAP 0. -/
def authType (c : Config) : Int := authOf c 0

/-- The types of authentication a universal client or repeater may use. -/
def clientAuth : List Int :=
  [apcfgAuthNone, apcfgAuthOpenSystem, apcfgAuthSharedKey, apcfgAuthAuto, apcfgAuthWpapsk,
    apcfgAuthWpa2psk, apcfgAuthWpaAutoPsk]

/-- What the operation mode requires of the other settings. -/
structure OpModeInv (c : Config) : Prop where
  vap0 : activeMode c 0 = 1
  vaps : opMode c ≠ cfgOpModeAp → ∀ vap ∈ [1, 2, 3], activeMode c vap = 0
  auth : opMode c = cfgOpModeUc ∨ opMode c = cfgOpModeUr → authType c ∈ clientAuth
  width : opMode c = cfgOpModeRogap ∨ opMode c = cfgOpModeUc ∨ opMode c = cfgOpModeUr →
    channelWidth c = cwmMode20M
  forwarding : opMode c = cfgOpModeUr → interVapForwarding c = 0

/-- The settings the invariant is about. -/
def Relevant : Setting → Bool
  | .radio 0 _ | .vap 0 _ .state | .vap 0 0 .authMode => true
  | _ => false

theorem ne_of_relevant {j k : Setting} (hj : Relevant j = true) (hk : Relevant k = false) :
    j ≠ k := by
  rintro rfl
  rw [hj] at hk
  cases hk

/-- **One setting at a time.**  Each clause holds as before, or the new value meets it. -/
theorem OpModeInv.update {c c' : Config} (hi : OpModeInv c) (hmode : opMode c' = opMode c)
    (hactive : ∀ vap, activeMode c' vap = activeMode c vap ∨
      (vap = 0 → activeMode c' vap = 1) ∧
        (opMode c ≠ cfgOpModeAp → vap ≠ 0 → activeMode c' vap = 0))
    (hauth : authType c' = authType c ∨
      (opMode c = cfgOpModeUc ∨ opMode c = cfgOpModeUr → authType c' ∈ clientAuth))
    (hwidth : channelWidth c' = channelWidth c ∨
      (opMode c = cfgOpModeRogap ∨ opMode c = cfgOpModeUc ∨ opMode c = cfgOpModeUr →
        channelWidth c' = cwmMode20M))
    (hforward : interVapForwarding c' = interVapForwarding c ∨
      (opMode c = cfgOpModeUr → interVapForwarding c' = 0)) : OpModeInv c' := by
  constructor
  · obtain h | h := hactive 0
    · exact h.trans hi.vap0
    · exact h.1 rfl
  · intro hm vap hvap
    rw [hmode] at hm
    obtain h | h := hactive vap
    · exact h.trans (hi.vaps hm vap hvap)
    · exact h.2 hm fun hz => by simp [hz] at hvap
  · intro hm
    rw [hmode] at hm
    obtain h | h := hauth
    · exact h ▸ hi.auth hm
    · exact h hm
  · intro hm
    rw [hmode] at hm
    obtain h | h := hwidth
    · exact h.trans (hi.width hm)
    · exact h hm
  · intro hm
    rw [hmode] at hm
    obtain h | h := hforward
    · exact h.trans (hi.forwarding hm)
    · exact h hm

section Agree

variable {c c' : Config} {k : Setting}

/-- The settings of the invariant other than `k` are the same. -/
def AgreeBut (k : Setting) (c c' : Config) : Prop :=
  ∀ j, Relevant j = true → j ≠ k → c'.get j = c.get j

theorem AgreeBut.opMode (h : AgreeBut k c c') (hk : .radio 0 .opMode ≠ k) :
    opMode c' = opMode c := congrArg opModes.decode (h _ rfl hk)

theorem AgreeBut.activeMode (h : AgreeBut k c c') {vap : Nat} (hk : .vap 0 vap .state ≠ k) :
    activeMode c' vap = activeMode c vap := congrArg flagOf (h _ rfl hk)

theorem AgreeBut.authType (h : AgreeBut k c c') (hk : .vap 0 0 .authMode ≠ k) :
    authType c' = authType c := congrArg authTypes.decode (h _ rfl hk)

theorem AgreeBut.channelWidth (h : AgreeBut k c c') (hk : .radio 0 .channelWidth ≠ k) :
    channelWidth c' = channelWidth c := congrArg channelWidths.decode (h _ rfl hk)

theorem AgreeBut.interVapForwarding (h : AgreeBut k c c') (hk : .radio 0 .isolation ≠ k) :
    interVapForwarding c' = interVapForwarding c := congrArg flagOf (h _ rfl hk)

end Agree

/-- A call that leaves the settings of the invariant alone. -/
theorem preserves_of_keeps {A : Type} {m : Cfg A} (h : ∀ j, Relevant j = true → Keeps j m) :
    Act.Preserves OpModeInv m := by
  intro c hi
  -- no setting of the invariant is `sys`
  have hagree : AgreeBut (.sys .vlanList) c (m c).2 := fun j hj _ => h j hj c
  exact hi.update (hagree.opMode nofun) (fun _ => .inl (hagree.activeMode nofun))
    (.inl (hagree.authType nofun)) (.inl (hagree.channelWidth nofun))
    (.inl (hagree.interVapForwarding nofun))

/-! ### The setters of one setting -/

theorem apCfgActiveModeSet_eq (bss : Nat) (v : Int) (c : Config) :
    apCfgActiveModeSet 0 bss v c =
      if bss = 0 ∧ v = 0 ∨ opMode c ≠ cfgOpModeAp ∧ bss ≠ 0 ∧ v = 1 then (.ok .error, c)
      else setFlag (.vap 0 bss .state) (aplVap 0 bss) v c := by
  unfold apCfgActiveModeSet
  by_cases h : bss = 0 ∧ v = 0
  · rw [if_pos h, if_pos (.inl h)]
    rfl
  · rw [if_neg h, apCfgOpModeGet, Act.bind_ok (getEnum_eq c _ opModes), Act.ite_apply]
    by_cases h' : opMode c ≠ cfgOpModeAp ∧ bss ≠ 0 ∧ v = 1
    · exact (if_pos h').trans (if_pos (Or.inr h')).symm
    · exact (if_neg h').trans (if_neg (not_or.mpr ⟨h, h'⟩)).symm

theorem preserves_apCfgActiveModeSet (bss : Nat) {v : Int} (hv : v = 0 ∨ v = 1) :
    Act.Preserves OpModeInv (apCfgActiveModeSet 0 bss v) := by
  intro c hi
  rw [apCfgActiveModeSet_eq]
  split
  · exact hi
  · rename_i hno
    obtain ⟨h₀, h₁⟩ := not_or.mp hno
    have hagree : AgreeBut (.vap 0 bss .state) c
        (setFlag (.vap 0 bss .state) (aplVap 0 bss) v c).2 :=
      fun j _ hj => keeps_setFlag hj _ _ c
    have hflag := flagOf_setFlag c (.vap 0 bss .state) (aplVap 0 bss) v
    refine hi.update (hagree.opMode nofun) ?_ (.inl (hagree.authType nofun))
      (.inl (hagree.channelWidth nofun)) (.inl (hagree.interVapForwarding nofun))
    intro vap
    by_cases hb : vap = bss
    · subst hb
      refine .inr ⟨fun hz => ?_, fun hm hz => ?_⟩
      · have hone : v = 1 := hv.resolve_left fun h => h₀ ⟨hz, h⟩
        exact hflag.trans (if_pos hone)
      · have hne : v ≠ 1 := fun h => h₁ ⟨hm, hz, h⟩
        exact hflag.trans (if_neg hne)
    · exact .inl (hagree.activeMode fun e => hb (by cases e; rfl))

theorem apCfgInterVapForwardingSet_eq (v : Int) (c : Config) :
    apCfgInterVapForwardingSet 0 v c =
      setFlag (.radio 0 .isolation) (aplWlan 0) (if opMode c = cfgOpModeUr then 0 else v) c := by
  unfold apCfgInterVapForwardingSet
  rw [apCfgOpModeGet, Act.bind_ok (getEnum_eq c _ opModes)]
  rfl

theorem agree_apCfgInterVapForwardingSet (v : Int) (c : Config) :
    AgreeBut (.radio 0 .isolation) c (apCfgInterVapForwardingSet 0 v c).2 := by
  rw [apCfgInterVapForwardingSet_eq]
  exact fun j _ hj => keeps_setFlag hj _ _ c

theorem preserves_apCfgInterVapForwardingSet (v : Int) :
    Act.Preserves OpModeInv (apCfgInterVapForwardingSet 0 v) := by
  intro c hi
  have hagree := agree_apCfgInterVapForwardingSet v c
  refine hi.update (hagree.opMode nofun) (fun _ => .inl (hagree.activeMode nofun))
    (.inl (hagree.authType nofun)) (.inl (hagree.channelWidth nofun)) (.inr fun hm => ?_)
  rw [apCfgInterVapForwardingSet_eq, if_pos hm]
  exact flagOf_setFlag c _ _ 0

theorem apCfgChannelWidthModeSet_eq (v : Int) (c : Config) :
    apCfgChannelWidthModeSet 0 v c =
      setEnum channelWidths (.radio 0 .channelWidth) (aplWlan 0) false
        (if opMode c = cfgOpModeRogap ∨ opMode c = cfgOpModeUc ∨ opMode c = cfgOpModeUr
          then cwmMode20M else v) c := by
  unfold apCfgChannelWidthModeSet
  rw [apCfgOpModeGet, Act.bind_ok (getEnum_eq c _ opModes)]
  rfl

theorem agree_apCfgChannelWidthModeSet (v : Int) (c : Config) :
    AgreeBut (.radio 0 .channelWidth) c (apCfgChannelWidthModeSet 0 v c).2 := by
  rw [apCfgChannelWidthModeSet_eq]
  exact fun j hr hj => keeps_setEnum hj (ne_of_relevant hr rfl) _ _ _ _ c

/-- A width with a text of its own is stored, or 20 MHz in its place. -/
theorem channelWidth_apCfgChannelWidthModeSet {v : Int} (hv : v ∈ channelWidths.values)
    (c : Config) :
    channelWidth (apCfgChannelWidthModeSet 0 v c).2 =
      if opMode c = cfgOpModeRogap ∨ opMode c = cfgOpModeUc ∨ opMode c = cfgOpModeUr
        then cwmMode20M else v := by
  rw [apCfgChannelWidthModeSet_eq, channelWidth,
    decode_setEnum c (.radio 0 .channelWidth) (aplWlan 0)
    _ (by nofun) (t := channelWidths) (by decide) false]
  refine channelWidths.decode_encode ?_
  split
  · decide
  · exact hv

theorem preserves_apCfgChannelWidthModeSet (v : Int) :
    Act.Preserves OpModeInv (apCfgChannelWidthModeSet 0 v) := by
  intro c hi
  have hagree := agree_apCfgChannelWidthModeSet v c
  refine hi.update (hagree.opMode nofun) (fun _ => .inl (hagree.activeMode nofun))
    (.inl (hagree.authType nofun)) (.inr fun hm => ?_)
    (.inl (hagree.interVapForwarding nofun))
  rw [apCfgChannelWidthModeSet_eq, if_pos hm, channelWidth,
    decode_setEnum c (.radio 0 .channelWidth)
    (aplWlan 0) _ (by nofun) (t := channelWidths) (by decide) false]
  exact channelWidths.decode_encode (by decide)

/-! ### Authentication -/

theorem clientAuth_of_not : ∀ v ∈ authTypes.values, ¬ NotForClient v → v ∈ clientAuth := by decide

/-- What is read back of a type a client may use is one, also where it is no type at all. -/
theorem decode_encode_mem {v : Int} (h : ¬ NotForClient v) :
    authTypes.decode (authTypes.encode v) ∈ clientAuth := by
  by_cases hv : v ∈ authTypes.values
  · rw [authTypes.decode_encode hv]
    exact clientAuth_of_not v hv h
  · rw [authTypes.encode_of_notMem hv]
    decide

theorem apCfgAuthTypeSet_eq (bss : Nat) (v : Int) (c : Config) :
    apCfgAuthTypeSet 0 bss v c =
      if v = authTypes.decode (c.get (.vap 0 bss .authMode)) then (.ok .ok, c)
      else if (opMode c = cfgOpModeUc ∨ opMode c = cfgOpModeUr) ∧ bss = 0 ∧ NotForClient v then
        (.ok .error, c)
      else setEnum authTypes (.vap 0 bss .authMode) (aplVap 0 bss) true v c := by
  unfold apCfgAuthTypeSet
  rw [apCfgAuthTypeGet, Act.bind_ok (getEnum_eq c _ authTypes), Act.ite_apply]
  congr 1
  rw [apCfgOpModeGet, Act.bind_ok (getEnum_eq c _ opModes), Act.ite_apply]
  rfl

theorem keeps_apCfgAuthTypeSet {j : Setting} {bss : Nat} (h : j ≠ .vap 0 bss .authMode)
    (hw : j ≠ .sys .wscConfigured) (v : Int) : Keeps j (apCfgAuthTypeSet 0 bss v) := by
  intro c
  rw [apCfgAuthTypeSet_eq]
  split
  · rfl
  · split
    · rfl
    · exact keeps_setEnum h hw _ _ _ _ c

theorem agree_apCfgAuthTypeSet (v : Int) (c : Config) :
    AgreeBut (.vap 0 0 .authMode) c (apCfgAuthTypeSet 0 0 v c).2 :=
  fun _ hr hj => keeps_apCfgAuthTypeSet hj (ne_of_relevant hr rfl) v c

/-- A type of authentication a client may use is stored, or what is read in its place is one. -/
theorem authType_apCfgAuthTypeSet {v : Int} (hv : ¬ NotForClient v) (c : Config) :
    authType (apCfgAuthTypeSet 0 0 v c).2 ∈ clientAuth := by
  rw [apCfgAuthTypeSet_eq]
  split
  · rename_i h
    rw [h] at hv
    exact clientAuth_of_not _ (authTypes.decode_mem (by decide) _) hv
  · rw [if_neg fun h => hv h.2.2, authType, authOf,
      decode_setEnum c (.vap 0 0 .authMode) (aplVap 0 0) v
      (by nofun) (t := authTypes) (by decide) true]
    exact decode_encode_mem hv

theorem preserves_apCfgAuthTypeSet (bss : Nat) (v : Int) :
    Act.Preserves OpModeInv (apCfgAuthTypeSet 0 bss v) := by
  cases bss with
  | zero =>
      intro c hi
      have hagree := agree_apCfgAuthTypeSet v c
      refine hi.update (hagree.opMode nofun) (fun _ => .inl (hagree.activeMode nofun)) ?_
        (.inl (hagree.channelWidth nofun)) (.inl (hagree.interVapForwarding nofun))
      by_cases hv : NotForClient v
      · -- refused in the modes of a client
        by_cases hm : opMode c = cfgOpModeUc ∨ opMode c = cfgOpModeUr
        · refine .inl (congrArg authType ?_)
          rw [apCfgAuthTypeSet_eq]
          split
          · rfl
          · rw [if_pos ⟨hm, rfl, hv⟩]
        · exact .inr fun h => absurd h hm
      · exact .inr fun _ => authType_apCfgAuthTypeSet hv c
  | succ n =>
      exact preserves_of_keeps fun j hr =>
        keeps_apCfgAuthTypeSet (ne_of_relevant hr rfl) (ne_of_relevant hr rfl) v

/-! ### Putting a VAP back to its defaults -/

section Irrelevant

variable {f : VapField} {vap : Nat} (id : Nat) (v : Int)

theorem preserves_setFlag (hk : Relevant (.vap 0 vap f) = false) :
    Act.Preserves OpModeInv (setFlag (.vap 0 vap f) id v) :=
  preserves_of_keeps fun _ hr => keeps_setFlag (ne_of_relevant hr hk) id v

theorem preserves_setEnum (hk : Relevant (.vap 0 vap f) = false) (t : Texts) (wsc : Bool) :
    Act.Preserves OpModeInv (setEnum t (.vap 0 vap f) id wsc v) :=
  preserves_of_keeps fun _ hr =>
    keeps_setEnum (ne_of_relevant hr hk) (ne_of_relevant hr rfl) t id wsc v

theorem preserves_setNumber (hk : Relevant (.vap 0 vap f) = false) (size getSize : Nat)
    (wsc : Bool) : Act.Preserves OpModeInv (setNumber size getSize (.vap 0 vap f) id wsc v) :=
  preserves_of_keeps fun _ hr =>
    keeps_setNumber (ne_of_relevant hr hk) (ne_of_relevant hr rfl) size getSize id wsc v

theorem preserves_setText (hk : Relevant (.vap 0 vap f) = false) (getSize : Nat) (p : CStr) :
    Act.Preserves OpModeInv (setText getSize (.vap 0 vap f) id p) :=
  preserves_of_keeps fun _ hr =>
    keeps_setText (ne_of_relevant hr hk) (ne_of_relevant hr rfl) getSize id p

end Irrelevant

/-- The shared settings are not of the invariant. -/
theorem preserves_setSharedNumber {f : VapField} (hk : ∀ vap, Relevant (.vap 0 vap f) = false)
    (bss : Nat) (v : Int) : Act.Preserves OpModeInv (setSharedNumber f 0 bss v) := by
  refine preserves_of_keeps fun j hr => (keeps_getNumber _ _).bind fun _ => ?_
  refine .bind (.when (.bind (.each fun i _ => ?_) fun _ => ?_)) fun _ => .pure _
  · exact (keeps_store _ _ _).bind fun string =>
      (keeps_scfgmgrSet (ne_of_relevant hr (hk i)) string).bind fun _ => keeps_aplSetFlag _
  · exact keeps_wscConfigured (ne_of_relevant hr rfl)

theorem preserves_apCfgKeyValSet (bss keyId : Nat) (p : CStr) :
    Act.Preserves OpModeInv (apCfgKeyValSet 0 bss keyId p) := by
  refine preserves_of_keeps fun j hr => .ite (.pure _) ((keeps_getText _ _).bind fun _ => ?_)
  refine .bind (.when (.each fun i _ => ?_)) fun _ => .pure _
  exact (keeps_scfgmgrSet (ne_of_relevant hr rfl) p).bind fun _ => keeps_aplSetFlag _

theorem preserves_anyVapUsesWep (is : List Nat) :
    Act.Preserves OpModeInv (anyVapUsesWep 0 is) := by
  induction is with
  | nil => exact .pure _
  | cons i is ih =>
      exact .bind (preserves_of_keeps fun _ _ => keeps_getEnum _ _) fun _ => .ite (.pure _) ih

theorem preserves_scSetDefaultSecurity (bss : Nat) :
    Act.Preserves OpModeInv (scSetDefaultSecurity 0 bss) := by
  refine .bind (preserves_setFlag _ _ rfl) fun _ => ?_
  refine .bind (preserves_apCfgAuthTypeSet bss _) fun _ => ?_
  refine .bind (.ite (preserves_setNumber _ _ rfl _ _ _) (.pure _)) fun _ => ?_
  refine .bind (preserves_setEnum _ _ rfl _ _) fun _ => ?_
  refine .bind (.ite (.pure _) (preserves_setText _ rfl _ _)) fun _ => ?_
  refine .bind (.ite (.pure _) (preserves_setNumber _ _ rfl _ _ _)) fun _ => ?_
  refine .bind (preserves_anyVapUsesWep vaps) fun _ => .ite (.pure _) ?_
  refine .bind (.ite (.pure _) (preserves_setSharedNumber (fun _ => rfl) bss _)) fun _ => ?_
  refine .bind (preserves_apCfgKeyValSet bss 1 _) fun _ => ?_
  refine .bind (preserves_apCfgKeyValSet bss 2 _) fun _ => ?_
  refine .bind (preserves_apCfgKeyValSet bss 3 _) fun _ => ?_
  exact .bind (preserves_apCfgKeyValSet bss 4 _) fun _ => .pure _

theorem preserves_scSetDefaultVap (bss : Nat) :
    Act.Preserves OpModeInv (scSetDefaultVap 0 bss) := by
  refine .bind (preserves_apCfgActiveModeSet bss (.inl rfl)) fun _ => ?_
  refine .bind (.ite (.pure _) (preserves_setText _ rfl _ _)) fun _ => ?_
  refine .bind (preserves_setFlag _ _ rfl) fun _ => ?_
  refine .bind (preserves_scSetDefaultSecurity bss) fun _ => ?_
  refine .bind (preserves_setEnum _ _ rfl _ _) fun _ => ?_
  refine .bind (preserves_setEnum _ _ rfl _ _) fun _ => ?_
  refine .bind (preserves_of_keeps fun j hr =>
    (keeps_scfgmgrSet (ne_of_relevant hr rfl) _).bind fun _ => keeps_aplSetFlag _) fun _ => ?_
  refine .bind (.ite (.pure _) (preserves_setNumber _ _ rfl _ _ _)) fun _ => ?_
  refine .bind (preserves_setFlag _ _ rfl) fun _ => ?_
  refine .bind (preserves_setFlag _ _ rfl) fun _ => ?_
  refine .bind (preserves_setNumber _ _ rfl _ _ _) fun _ => ?_
  exact .bind (.ite (.pure _) (preserves_setNumber _ _ rfl _ _ _)) fun _ => .pure _

/-! ### Changing the mode -/

/-- Only VAP 0 is active, if any. -/
def OthersOff (c : Config) : Prop := ∀ vap ∈ vaps.tail, activeMode c vap = 0

/-- What mode `v` requires of the authentication of VAP 0. -/
def AuthFor (v : Int) (c : Config) : Prop :=
  v = cfgOpModeUc ∨ v = cfgOpModeUr → authType c ∈ clientAuth

/-- What mode `v` requires of the channel width. -/
def WidthFor (v : Int) (c : Config) : Prop :=
  v = cfgOpModeRogap ∨ v = cfgOpModeUc ∨ v = cfgOpModeUr → channelWidth c = cwmMode20M

/-- What mode `v` requires of forwarding between VAPs. -/
def ForwardingFor (v : Int) (c : Config) : Prop := v = cfgOpModeUr → interVapForwarding c = 0

theorem deactivateVaps_spec :
    Act.Spec OpModeInv
      (Act.each (fun vap => apCfgActiveModeSet 0 vap 0 >>= fun _ => pure ()) vaps.tail)
      (fun _ c => OpModeInv c ∧ OthersOff c) OpModeInv := by
  refine Act.Spec.each (K := fun vap c => activeMode c vap = 0) ?_ ?_
  · intro vap hvap
    have hpos : vap ≠ 0 := by rintro rfl; simp [vaps] at hvap
    refine Act.Preserves.establish
      ((preserves_apCfgActiveModeSet vap (.inl rfl)).bind fun _ => .pure ()) fun c _ => ?_
    rw [Act.bind_pure_snd, apCfgActiveModeSet_eq, if_neg (by simp [hpos])]
    exact flagOf_setFlag c _ _ 0
  · intro vap other hother c (hoff : activeMode c vap = 0)
    have hpos : other ≠ 0 := by rintro rfl; simp [vaps] at hother
    rw [Act.bind_pure_snd, apCfgActiveModeSet_eq, if_neg (by simp [hpos])]
    by_cases h : vap = other
    · subst h
      exact flagOf_setFlag c _ _ 0
    · rw [← hoff]
      exact congrArg flagOf (keeps_setFlag (fun e => h (by cases e; rfl)) _ _ c)

theorem correctAuth_spec (v : Int) :
    Act.Spec OpModeInv (Act.when (v = cfgOpModeUc ∨ v = cfgOpModeUr) do
      let authType ← apCfgAuthTypeGet 0 0
      Act.when (NotForClient authType) do
        let _ ← apCfgAuthTypeSet 0 0 apcfgAuthNone)
      (fun _ c => OpModeInv c ∧ AuthFor v c) OpModeInv := by
  refine Act.Spec.when (fun _ => ?_) fun hv c hi => ⟨hi, fun h => absurd h hv⟩
  have hget : ∀ c, apCfgAuthTypeGet 0 0 c = (.ok (authType c), c) := fun c => rfl
  refine (Act.Spec.read hget).bind fun a => Act.Spec.when (fun _ => ?_) ?_
  · have hnone : ∀ c, OpModeInv c →
        authType ((apCfgAuthTypeSet 0 0 apcfgAuthNone >>= fun _ => pure ()) c).2 ∈ clientAuth := by
      intro c _
      rw [Act.bind_pure_snd]
      exact authType_apCfgAuthTypeSet (by decide) c
    have hset := Act.Preserves.establish (K := fun c => authType c ∈ clientAuth)
      ((preserves_apCfgAuthTypeSet 0 apcfgAuthNone).bind fun _ => .pure ()) hnone
    exact hset.mono (fun c h => h.1) (fun _ c h => ⟨h.1, fun _ => h.2⟩) fun _ h => h
  · rintro ha c ⟨hi, rfl⟩
    exact ⟨hi, fun _ => clientAuth_of_not _ (authTypes.decode_mem (by decide) _) ha⟩

theorem correctWidth_spec (v : Int) :
    Act.Spec OpModeInv
      (Act.when (v = cfgOpModeRogap ∨ v = cfgOpModeUc ∨ v = cfgOpModeUr) do
        let _ ← apCfgChannelWidthModeSet 0 0)
      (fun _ c => OpModeInv c ∧ WidthFor v c) OpModeInv := by
  refine Act.Spec.when (fun _ => ?_) fun hv c hi => ⟨hi, fun h => absurd h hv⟩
  refine Act.Preserves.establish
    ((preserves_apCfgChannelWidthModeSet 0).bind fun _ => .pure ()) fun c _ _ => ?_
  rw [Act.bind_pure_snd, channelWidth_apCfgChannelWidthModeSet (by decide)]
  exact ite_self _

theorem correctForwarding_spec (v : Int) :
    Act.Spec OpModeInv
      (Act.when (v = cfgOpModeUr) do
        let _ ← apCfgInterVapForwardingSet 0 0)
      (fun _ c => OpModeInv c ∧ ForwardingFor v c) OpModeInv := by
  refine Act.Spec.when (fun _ => ?_) fun hv c hi => ⟨hi, fun h => absurd h hv⟩
  refine Act.Preserves.establish
    ((preserves_apCfgInterVapForwardingSet 0).bind fun _ => .pure ()) fun c _ _ => ?_
  rw [Act.bind_pure_snd, apCfgInterVapForwardingSet_eq, ite_self]
  exact flagOf_setFlag c _ _ 0

section Kept

variable {A : Type} {m : Cfg A}

theorem preserves_othersOff (h : ∀ vap, Keeps (.vap 0 vap .state) m) :
    Act.Preserves OthersOff m := by
  intro c hc vap hvap
  exact (congrArg flagOf (h vap c)).trans (hc vap hvap)

theorem preserves_authFor (h : Keeps (.vap 0 0 .authMode) m) (v : Int) :
    Act.Preserves (AuthFor v) m := by
  intro c hc hv
  have hauth : authType (m c).2 = authType c := congrArg authTypes.decode (h c)
  exact hauth ▸ hc hv

theorem preserves_widthFor (h : Keeps (.radio 0 .channelWidth) m) (v : Int) :
    Act.Preserves (WidthFor v) m :=
  fun c hc hv => (congrArg channelWidths.decode (h c)).trans (hc hv)

end Kept

/-- **The corrections.**  The invariant of the old mode holds throughout, and in the end all that
the new mode requires. -/
theorem correctSettings_spec (v : Int) :
    Act.Spec OpModeInv (correctSettings 0 v)
      (fun _ c => (((OpModeInv c ∧ ForwardingFor v c) ∧ WidthFor v c) ∧ AuthFor v c) ∧ OthersOff c)
      OpModeInv := by
  have hauth : ∀ {j}, j ≠ .vap 0 0 .authMode → j ≠ .sys .wscConfigured →
      Keeps j (Act.when (v = cfgOpModeUc ∨ v = cfgOpModeUr) do
        let authType ← apCfgAuthTypeGet 0 0
        Act.when (NotForClient authType) do
          let _ ← apCfgAuthTypeSet 0 0 apcfgAuthNone) := fun hj hw =>
    .when ((keeps_getEnum _ _).bind fun _ =>
      .when ((keeps_apCfgAuthTypeSet hj hw _).bind fun _ => .pure ()))
  have hwidth : ∀ {j}, j ≠ .radio 0 .channelWidth → j ≠ .sys .wscConfigured →
      Keeps j (Act.when (v = cfgOpModeRogap ∨ v = cfgOpModeUc ∨ v = cfgOpModeUr) do
        let _ ← apCfgChannelWidthModeSet 0 0) := fun hj hw =>
    .when (.bind (.bind (keeps_getEnum _ _) fun _ => keeps_setEnum hj hw _ _ _ _) fun _ => .pure ())
  have hforward : ∀ {j}, j ≠ .radio 0 .isolation →
      Keeps j (Act.when (v = cfgOpModeUr) do
        let _ ← apCfgInterVapForwardingSet 0 0) := fun hj =>
    .when (.bind (.bind (keeps_getEnum _ _) fun _ => keeps_setFlag hj _ _) fun _ => .pure ())
  refine deactivateVaps_spec.bind fun _ => ?_
  refine ((correctAuth_spec v).frame (preserves_othersOff fun vap => hauth nofun nofun)).bind
    fun _ => ?_
  refine (((correctWidth_spec v).frame (preserves_authFor (hwidth nofun nofun) v)).frame
    (preserves_othersOff fun vap => hwidth nofun nofun)).bind fun _ => ?_
  exact (((correctForwarding_spec v).frame (preserves_widthFor (hforward nofun) v)).frame
    (preserves_authFor (hforward nofun) v)).frame (preserves_othersOff fun vap => hforward nofun)

/-- A mode is read back as it was set, and a number that is no mode as `CFG_OP_MODE_AP`. -/
theorem decode_opModes (v : Int) :
    opModes.decode (opModes.encode v) = v ∨ opModes.decode (opModes.encode v) = cfgOpModeAp := by
  by_cases hv : v ∈ opModes.values
  · exact .inl (opModes.decode_encode hv)
  · refine .inr ?_
    rw [opModes.encode_of_notMem hv]
    decide

/-- The new mode is stored over settings that are as it requires. -/
theorem storeMode {v : Int} {c : Config} (hi : OpModeInv c)
    (hready : cfgOpModeAp ≠ v →
      ForwardingFor v c ∧ WidthFor v c ∧ AuthFor v c ∧ OthersOff c) :
    OpModeInv (c.set (.radio 0 .opMode) (opModes.encode v)) := by
  have hagree : AgreeBut (.radio 0 .opMode) c (c.set (.radio 0 .opMode) (opModes.encode v)) :=
    fun j _ hj => c.get_set_ne _ j _ hj
  have hmode : opMode (c.set (.radio 0 .opMode) (opModes.encode v)) =
      opModes.decode (opModes.encode v) := congrArg opModes.decode (c.get_set_self _ _)
  have hcase : opModes.decode (opModes.encode v) = v ∧ cfgOpModeAp ≠ v ∨
      opModes.decode (opModes.encode v) = cfgOpModeAp := by
    obtain h | h := decode_opModes v
    · by_cases hap : cfgOpModeAp = v
      · exact .inr (h.trans hap.symm)
      · exact .inl ⟨h, hap⟩
    · exact .inr h
  have hvap0 : activeMode (c.set (.radio 0 .opMode) (opModes.encode v)) 0 = 1 :=
    (hagree.activeMode nofun).trans hi.vap0
  obtain ⟨hv, hne⟩ | hap := hcase
  · rw [hv] at hmode
    obtain ⟨hforward, hwidth, hauth, hoff⟩ := hready hne
    constructor
    · exact hvap0
    · intro _ vap hvap
      have hkeep : activeMode (c.set (.radio 0 .opMode) (opModes.encode v)) vap =
          activeMode c vap :=
        hagree.activeMode nofun
      exact hkeep.trans (hoff vap hvap)
    · intro hm
      rw [hmode] at hm
      exact (hagree.authType nofun).symm ▸ hauth hm
    · intro hm
      rw [hmode] at hm
      exact (hagree.channelWidth nofun).trans (hwidth hm)
    · intro hm
      rw [hmode] at hm
      exact (hagree.interVapForwarding nofun).trans (hforward hm)
  · rw [hap] at hmode
    constructor
    · exact hvap0
    · exact fun hm => absurd hmode hm
    · exact fun hm => absurd (hmode ▸ hm) (by decide)
    · exact fun hm => absurd (hmode ▸ hm) (by decide)
    · exact fun hm => absurd (hmode ▸ hm) (by decide)

theorem preserves_activateVaps : Act.Preserves OpModeInv (activateVaps 0) := by
  refine .each fun vap _ => .bind ?_ fun ssid => .when (.bind ?_ fun _ => .pure ())
  · exact preserves_of_keeps fun _ _ => keeps_getText _ _
  · exact preserves_apCfgActiveModeSet vap (.inr rfl)

/-- The call that changes the mode. -/
theorem preserves_apCfgOpModeSet (v : Int) : Act.Preserves OpModeInv (apCfgOpModeSet 0 v) := by
  have hflag : ∀ id, Act.Preserves OpModeInv (aplSetFlag id) := fun id =>
    preserves_of_keeps fun _ _ => keeps_aplSetFlag id
  have hbehind : Act.Preserves OpModeInv (do
      aplSetFlag aplReboot
      Act.when (cfgOpModeAp = v) (activateVaps 0)) :=
    (hflag aplReboot).bind fun _ => .when preserves_activateVaps
  have hcorrect : Act.Spec OpModeInv (Act.when (cfgOpModeAp ≠ v) (correctSettings 0 v))
      (fun _ c => OpModeInv c ∧ (cfgOpModeAp ≠ v →
        ForwardingFor v c ∧ WidthFor v c ∧ AuthFor v c ∧ OthersOff c)) OpModeInv := by
    refine Act.Spec.when (fun _ => ?_) fun hv c hi => ⟨hi, fun h => absurd h hv⟩
    refine (correctSettings_spec v).mono (fun _ h => h) ?_ fun _ h => h
    rintro _ c ⟨⟨⟨⟨hi, hforward⟩, hwidth⟩, hauth⟩, hoff⟩
    exact ⟨hi, fun _ => ⟨hforward, hwidth, hauth, hoff⟩⟩
  have hstore : Act.Spec OpModeInv (do
      Act.when (cfgOpModeAp ≠ v) (correctSettings 0 v)
      scfgmgrSet (.radio 0 .opMode) (opModes.encode v)
      aplSetFlag aplReboot
      Act.when (cfgOpModeAp = v) (activateVaps 0)) (fun _ => OpModeInv) OpModeInv := by
    refine hcorrect.bind fun _ => ?_
    refine Act.Spec.bind (Q := fun _ => OpModeInv) ?_ fun _ => hbehind.spec
    rintro c ⟨hi, hready⟩
    exact .inl ⟨(), rfl, storeMode hi hready⟩
  refine .bind (preserves_of_keeps fun _ _ => keeps_getEnum _ _) fun _ => ?_
  exact .bind (.when (hstore.preserves fun _ _ h => h)) fun _ => .pure _

/-! ### Runs -/

/-- The calls that touch the mode and what it restricts, on radio 0. -/
inductive OpModeCall where
  | opModeSet (v : Int)
  | activeModeSet (vap : Fin 4) (on : Bool)
  | authTypeSet (vap : Fin 4) (v : Int)
  | channelWidthModeSet (v : Int)
  | interVapForwardingSet (v : Int)
  | setDefaultVap (vap : Fin 4)

/-- The call as `libapcfg` makes it. -/
def OpModeCall.run : OpModeCall → Cfg Status
  | .opModeSet v => apCfgOpModeSet 0 v
  | .activeModeSet vap on => apCfgActiveModeSet 0 vap (if on then 1 else 0)
  | .authTypeSet vap v => apCfgAuthTypeSet 0 vap v
  | .channelWidthModeSet v => apCfgChannelWidthModeSet 0 v
  | .interVapForwardingSet v => apCfgInterVapForwardingSet 0 v
  | .setDefaultVap vap => scSetDefaultVap 0 vap

theorem preserves_opModeCall (call : OpModeCall) : Act.Preserves OpModeInv call.run := by
  cases call with
  | opModeSet v => exact preserves_apCfgOpModeSet v
  | activeModeSet vap on =>
      refine preserves_apCfgActiveModeSet vap ?_
      cases on with
      | false => exact .inl rfl
      | true => exact .inr rfl
  | authTypeSet vap v => exact preserves_apCfgAuthTypeSet vap v
  | channelWidthModeSet v => exact preserves_apCfgChannelWidthModeSet v
  | interVapForwardingSet v => exact preserves_apCfgInterVapForwardingSet v
  | setDefaultVap vap => exact preserves_scSetDefaultVap vap

/-- **What the mode requires holds after any sequence of calls**, also of calls that fault. -/
theorem opModeInv_run (calls : List OpModeCall) {c : Config} (h : OpModeInv c) :
    OpModeInv (Act.runAll (calls.map OpModeCall.run) c) := by
  refine Act.Preserves.runAll (fun m hm => ?_) h
  obtain ⟨call, -, rfl⟩ := List.mem_map.mp hm
  exact preserves_opModeCall call

/-- A radio with VAP 0 alone, in mode `AccessPoint`. -/
def oneVap : Config where
  get k := if k = .vap 0 0 .state then enable else .empty
  flags := []
  closed := false

theorem opModeInv_oneVap_run :
    OpModeInv oneVap ∧
      OpModeInv (Act.runAll ([.activeModeSet 2 true, .opModeSet cfgOpModeUr,
        .activeModeSet 2 true, .channelWidthModeSet cwmMode40M].map OpModeCall.run) oneVap) := by
  have h : OpModeInv oneVap :=
    ⟨by decide, by decide, by decide, by decide, by decide⟩
  exact ⟨h, opModeInv_run _ h⟩

end Wap4410n.Apcfg
