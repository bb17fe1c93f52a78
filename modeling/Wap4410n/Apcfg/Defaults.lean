import Wap4410n.Apcfg.Vap
import Wap4410n.Apcfg.Copies

/-!
# Apcfg — putting one VAP back to its defaults

`scSetDefaultVap` and `scSetDefaultSecurity` write settings of one VAP and, with the setters that
write all copies, the WEP keys and their length.  They leave the keys alone where they find a VAP
that uses them, but look for `APCFG_AUTH_OPEN_SYSTEM` and `APCFG_AUTH_SHARED_KEY` only: a VAP of
type `APCFG_AUTH_AUTO`, for which `wlanSecurityApply` programs the keys as well, loses them.

`After` says what a configuration is behind a part of such a call, setting by setting, except those
the part writes for its own VAP; `own_step` and `shared_step` are its two kinds of step.

* `scSetDefaultSecurity_exact`, `scSetDefaultVap_exact`: when a reset returns, and what it leaves.
* `reset_harmless_iff`: when it returns and damages no other VAP.
* `scSetDefaultVap_damages`: a configuration where it takes a key in use.
-/

namespace Wap4410n.Apcfg

open CLib

/-! ### The property -/

/-- The types of authentication for which `wlanSecurityApply` programs WEP keys. -/
def UsesKeys (authType : Int) : Prop :=
  authType = apcfgAuthOpenSystem ∨ authType = apcfgAuthSharedKey ∨ authType = apcfgAuthAuto

/-- The settings of WEP that all VAPs share. -/
def wepFields : List VapField := [.keyLength, .key 1, .key 2, .key 3, .key 4]

/-- Every setting of every other active VAP is as before, and the WEP keys too if another VAP uses
them. -/
def Undamaged (v : Nat) (c c' : Config) : Prop :=
  (∀ other ∈ vaps, other ≠ v → activeMode c other = 1 →
    ∀ f, c'.get (.vap 0 other f) = c.get (.vap 0 other f)) ∧
  ((∃ other ∈ vaps, other ≠ v ∧ UsesKeys (authOf c other)) →
    ∀ vap ∈ vaps, ∀ f ∈ wepFields, c'.get (.vap 0 vap f) = c.get (.vap 0 vap f))

/-- The call returns and damages no other VAP than `v`. -/
def Harmless (v : Nat) (c : Config) (m : Cfg Status) : Prop :=
  (∃ status, (m c).1 = .ok status) ∧ Undamaged v c (m c).2

/-! ### The condition -/

/-- What `scSetDefaultSecurity` looks for: another VAP of one of two of the three types. -/
def FoundInUse (v : Nat) (c : Config) : Prop :=
  ∃ other ∈ vaps, other ≠ v ∧
    (authOf c other = apcfgAuthOpenSystem ∨ authOf c other = apcfgAuthSharedKey)

/-- The setting of VAP `v` has its default value. -/
def AtDefault (v : Nat) (c : Config) : VapField → Prop
  | .keyLength => atoi (c.get (.vap 0 v .keyLength)) = 40
  | f => c.get (.vap 0 v f) = .empty

/-- The text of the default. -/
def defaultText : VapField → CStr
  | .keyLength => .ofInt 40
  | _ => .empty

/-- **When the keys are safe.**  The reset finds a VAP that uses them; or it changes no copy it must
not: none at all if another VAP is of type `APCFG_AUTH_AUTO`, and none of an active VAP. -/
def KeysSafe (v : Nat) (c : Config) : Prop :=
  FoundInUse v c ∨
    ((∃ other ∈ vaps, other ≠ v ∧ authOf c other = apcfgAuthAuto) →
      ∀ f ∈ wepFields, AtDefault v c f) ∧
    ∀ other ∈ vaps, other ≠ v → activeMode c other = 1 → ∀ f ∈ wepFields,
      AtDefault v c f ∨ c.get (.vap 0 other f) = defaultText f

/-- What the reset of the keys reads fits the getters' buffers, if it comes to that. -/
def KeysFit (v : Nat) (c : Config) : Prop :=
  FoundInUse v c ∨ (c.get (.vap 0 v .keyLength)).length < 60 ∧
    (c.get (.vap 0 v (.key 1))).length < 32 ∧ (c.get (.vap 0 v (.key 2))).length < 32 ∧
    (c.get (.vap 0 v (.key 3))).length < 32 ∧ (c.get (.vap 0 v (.key 4))).length < 32

/-- What `scSetDefaultSecurity` reads of VAP `v` fits the getters' buffers. -/
def SecurityFits (v : Nat) (c : Config) : Prop :=
  (c.get (.vap 0 v .passphrase)).length < 32 ∧ (c.get (.vap 0 v .rekeyInterval)).length < 60 ∧
    KeysFit v c

/-- What `scSetDefaultVap` reads of VAP `v` fits the getters' buffers. -/
def VapFits (v : Nat) (c : Config) : Prop :=
  (c.get (.vap 0 v .ssid)).length < 64 ∧ SecurityFits v c ∧
    (c.get (.vap 0 v .vid)).length < 32 ∧ (c.get (.vap 0 v .pri)).length < 60 ∧
    (c.get (.vap 0 v .loadbalance)).length < 60

/-! ### Steps of a reset -/

/-- `c'` is `c` but for the settings `fs` of VAP `v` and the shared settings `xs`, which are reset
where VAP `v` has another value than the default. -/
structure After (v : Nat) (fs xs : List VapField) (c c' : Config) : Prop where
  kept : ∀ vap f, (vap = v → f ∉ fs) → (vap ∈ vaps → f ∉ xs) →
    c'.get (.vap 0 vap f) = c.get (.vap 0 vap f)
  same : ∀ f ∈ xs, AtDefault v c f → ∀ vap ∈ vaps, c'.get (.vap 0 vap f) = c.get (.vap 0 vap f)
  reset : ∀ f ∈ xs, ¬ AtDefault v c f → ∀ vap ∈ vaps, c'.get (.vap 0 vap f) = defaultText f
  /-- the type of authentication, once it is among `fs` -/
  none : .authMode ∈ fs → authOf c' v = apcfgAuthNone

section Steps

variable {v : Nat} {fs xs : List VapField} {f : VapField} {c c' : Config} {A : Type} {m : Cfg A}

theorem After.refl (v : Nat) (c : Config) : After v [] [] c c :=
  ⟨fun _ _ _ _ => rfl, nofun, nofun, nofun⟩

/-- The call writes the setting `f` of VAP `v` and no other of a VAP. -/
def WritesOwn (v : Nat) (f : VapField) (m : Cfg A) : Prop :=
  ∀ vap g, (vap = v → g ≠ f) → Keeps (.vap 0 vap g) m

theorem After.own (h : After v fs xs c c') (hf : f ∉ xs) (hm : WritesOwn v f m)
    (hnone : f = .authMode → authOf (m c').2 v = apcfgAuthNone) :
    After v (f :: fs) xs c (m c').2 := by
  have hkeep : ∀ {vap g}, (vap = v → g ≠ f) →
      (m c').2.get (.vap 0 vap g) = c'.get (.vap 0 vap g) := fun h => hm _ _ h c'
  have hxs : ∀ {vap g}, g ∈ xs → (m c').2.get (.vap 0 vap g) = c'.get (.vap 0 vap g) :=
    fun hg => hkeep fun _ e => hf (e ▸ hg)
  constructor
  · intro vap g hg hx
    rw [hkeep fun e => fun e' => hg e (e' ▸ List.mem_cons_self)]
    exact h.kept vap g (fun e hmem => hg e (List.mem_cons_of_mem f hmem)) hx
  · intro g hg hd vap hvap
    rw [hxs hg, h.same g hg hd vap hvap]
  · intro g hg hd vap hvap
    rw [hxs hg, h.reset g hg hd vap hvap]
  · intro hmem
    by_cases e : f = .authMode
    · exact hnone e
    · have hauth : authOf (m c').2 v = authOf c' v :=
        congrArg authTypes.decode (hkeep fun _ e' => e e'.symm)
      rw [hauth]
      exact h.none ((List.mem_cons.mp hmem).resolve_left fun e' => e e'.symm)

/-- A call on a setting of VAP `v` that reads it into a buffer first. -/
theorem own_step {n : Nat} (h : After v fs xs c c') (hf : f ∉ fs) (hx : f ∉ xs)
    (hne : f ≠ .authMode)
    (hm : Act.Exact c' ((c'.get (.vap 0 v f)).length < n) m fun _ _ => True)
    (hk : WritesOwn v f m) :
    Act.Exact c' ((c.get (.vap 0 v f)).length < n) m fun _ => After v (f :: fs) xs c := by
  have hread : c'.get (.vap 0 v f) = c.get (.vap 0 v f) := h.kept v f (fun _ => hf) fun _ => hx
  rw [hread] at hm
  exact (hm.and fun _ => h.own hx hk fun e => absurd e hne).mono Iff.rfl fun _ _ hq => hq.2

/-- A call on a setting of VAP `v` that does not fault. -/
theorem own_returns (h : After v fs xs c c') (hx : f ∉ xs) (hm : Act.Returns m)
    (hk : WritesOwn v f m) (hnone : f = .authMode → authOf (m c').2 v = apcfgAuthNone) :
    Act.Exact c' True m fun _ => After v (f :: fs) xs c :=
  (hm.exact c').mono Iff.rfl fun _ _ e => e ▸ h.own hx hk hnone

/-- A call on a shared setting: it is read, and all copies are written where it is not the
default. -/
theorem shared_step {X : Type} [DecidableEq X] (h : After v fs xs c c') (hf : f ∉ fs) (hx : f ∉ xs)
    (hne : f ≠ .authMode) {get : Cfg X} {old x : X} {F : Prop} (hget : F → get c' = (.ok old, c'))
    (hfault : ¬ F → ∃ e, (get c').1 = .error e) {write : Cfg Unit}
    (hw : Broadcast 0 f (defaultText f) write) (hx' : x = old ↔ AtDefault v c f) :
    Act.Exact c' F (get >>= fun old => Act.when (x ≠ old) write >>= fun _ => pure Status.ok)
      fun _ => After v fs (f :: xs) c := by
  refine (compare_exact hget hfault x fun _ => (hw c').1).mono Iff.rfl ?_
  rintro _ c'' rfl
  by_cases hd : AtDefault v c f
  · rw [if_neg (not_not.mpr (hx'.mpr hd))]
    constructor
    · exact fun vap g hg hxs => h.kept vap g hg fun e hmem => hxs e (List.mem_cons_of_mem f hmem)
    · intro g hg hdg vap hvap
      obtain rfl | hg := List.mem_cons.mp hg
      · exact h.kept vap g (fun _ => hf) fun _ => hx
      · exact h.same g hg hdg vap hvap
    · intro g hg hdg vap hvap
      obtain rfl | hg := List.mem_cons.mp hg
      · exact absurd hd hdg
      · exact h.reset g hg hdg vap hvap
    · exact h.none
  · rw [if_pos fun e => hd (hx'.mp e)]
    have hget' := (hw c').2
    have hkeep : ∀ {vap g}, (vap ∈ vaps → g ≠ f) →
        (write c').2.get (.vap 0 vap g) = c'.get (.vap 0 vap g) := fun hg =>
      (hget' _ _).trans (if_neg fun e => hg e.1 e.2)
    constructor
    · intro vap g hg hxs
      rw [hkeep fun e e' => hxs e (e' ▸ List.mem_cons_self)]
      exact h.kept vap g hg fun e hmem => hxs e (List.mem_cons_of_mem f hmem)
    · intro g hg hdg vap hvap
      obtain rfl | hg := List.mem_cons.mp hg
      · exact absurd hdg hd
      · rw [hkeep fun _ e => hx (e ▸ hg), h.same g hg hdg vap hvap]
    · intro g hg hdg vap hvap
      obtain rfl | hg := List.mem_cons.mp hg
      · exact (hget' vap g).trans (if_pos ⟨hvap, rfl⟩)
      · rw [hkeep fun _ e => hx (e ▸ hg), h.reset g hg hdg vap hvap]
    · intro hmem
      have hauth : authOf (write c').2 v = authOf c' v :=
        congrArg authTypes.decode (hkeep fun _ e => hne e.symm)
      rw [hauth]
      exact h.none hmem

end Steps

/-! ### The parts of a reset -/

section WritesOwn

variable (v : Nat) (f : VapField) (id : Nat) (x : Int)

theorem ne_of_own {v f : _} {vap : Nat} {g : VapField} (h : vap = v → g ≠ f) :
    Setting.vap 0 vap g ≠ .vap 0 v f := by
  rintro ⟨⟩
  exact h rfl rfl

theorem writesOwn_setFlag : WritesOwn v f (setFlag (.vap 0 v f) id x) :=
  fun _ _ h => keeps_setFlag (ne_of_own h) id x

theorem writesOwn_setEnum (t : Texts) (wsc : Bool) :
    WritesOwn v f (setEnum t (.vap 0 v f) id wsc x) :=
  fun _ _ h => keeps_setEnum (ne_of_own h) nofun t id wsc x

theorem writesOwn_setNumber (size getSize : Nat) (wsc : Bool) :
    WritesOwn v f (setNumber size getSize (.vap 0 v f) id wsc x) :=
  fun _ _ h => keeps_setNumber (ne_of_own h) nofun size getSize id wsc x

theorem writesOwn_setText (getSize : Nat) (p : CStr) :
    WritesOwn v f (setText getSize (.vap 0 v f) id p) :=
  fun _ _ h => keeps_setText (ne_of_own h) nofun getSize id p

end WritesOwn

/-- `scSetDefaultSecurity` sets the type before it looks for one in use. -/
theorem authOf_apCfgAuthTypeSet_none (v : Nat) (c : Config) :
    authOf (apCfgAuthTypeSet 0 v apcfgAuthNone c).2 v = apcfgAuthNone := by
  unfold apCfgAuthTypeSet
  rw [Act.bind_ok (apCfgAuthTypeGet_eq c v), Act.ite_apply]
  split
  · rename_i h
    exact h.symm
  · rw [Act.bind_ok (apCfgOpModeGet_eq c), Act.ite_apply,
      if_neg fun h => absurd h.2.2 (by decide), authOf,
      decode_setEnum c (.vap 0 v .authMode) (aplVap 0 v) apcfgAuthNone (by nofun)
        (t := authTypes) (by decide) true]
    exact authTypes.decode_encode (by decide)

theorem apCfgAuthTypeSet_none_returns (v : Nat) :
    Act.Returns (apCfgAuthTypeSet 0 v apcfgAuthNone) :=
  .bind (fun _ => ⟨_, rfl⟩) fun _ => .ite (.pure _) <| .bind (fun _ => ⟨_, rfl⟩) fun _ =>
    .ite (.pure _) (setEnum_returns _ _ _ _ _)

theorem writesOwn_apCfgAuthTypeSet (v : Nat) (x : Int) :
    WritesOwn v .authMode (apCfgAuthTypeSet 0 v x) := fun _ _ h =>
  .bind (keeps_getEnum _ _) fun _ => .ite (.pure _) <| .bind (keeps_getEnum _ _) fun _ =>
    .ite (.pure _) (keeps_setEnum (ne_of_own h) nofun _ _ _ _)

theorem apCfgActiveModeSet_returns (v : Nat) (x : Int) :
    Act.Returns (apCfgActiveModeSet 0 v x) :=
  .ite (.pure _) <| .bind (fun _ => ⟨_, rfl⟩) fun _ => .ite (.pure _) (setFlag_returns _ _ x)

theorem writesOwn_apCfgActiveModeSet (v : Nat) (x : Int) :
    WritesOwn v .state (apCfgActiveModeSet 0 v x) := fun _ _ h =>
  .ite (.pure _) <| .bind (keeps_getEnum _ _) fun _ =>
    .ite (.pure _) (keeps_setFlag (ne_of_own h) _ x)

theorem writesOwn_apCfgAclClear (v : Nat) : WritesOwn v .aclList (apCfgAclClear 0 v) := fun _ _ h =>
  (keeps_scfgmgrSet (ne_of_own h) _).bind fun _ => keeps_aplSetFlag _

/-- The VAPs are looked at in turn. -/
theorem anyVapUsesWep_eq (c : Config) (is : List Nat) :
    anyVapUsesWep 0 is c = (.ok (is.any fun i =>
      authOf c i = apcfgAuthOpenSystem ∨ authOf c i = apcfgAuthSharedKey), c) := by
  induction is with
  | nil => rfl
  | cons i is ih =>
      unfold anyVapUsesWep
      rw [Act.bind_ok (apCfgAuthTypeGet_eq c i), Act.ite_apply, List.any_cons]
      by_cases h : authOf c i = apcfgAuthOpenSystem ∨ authOf c i = apcfgAuthSharedKey
      · rw [if_pos h, decide_eq_true h]
        rfl
      · rw [if_neg h, decide_eq_false h, ih]
        rfl

/-- With its own VAP at `APCFG_AUTH_NONE`, the loop finds the others. -/
theorem After.found_iff {v : Nat} {fs : List VapField} {c c' : Config} (h : After v fs [] c c')
    (hauth : .authMode ∈ fs) :
    (vaps.any fun i => authOf c' i = apcfgAuthOpenSystem ∨ authOf c' i = apcfgAuthSharedKey) =
    true ↔
      FoundInUse v c := by
  have hother : ∀ {i}, i ≠ v → authOf c' i = authOf c i := fun hi =>
    congrArg authTypes.decode (h.kept _ _ (fun e => absurd e hi) nofun)
  rw [List.any_eq_true]
  constructor
  · rintro ⟨i, hi, hu⟩
    have hu := of_decide_eq_true hu
    have hne : i ≠ v := by
      rintro rfl
      rw [h.none hauth] at hu
      exact absurd hu (by decide)
    rw [hother hne] at hu
    exact ⟨i, hi, hne, hu⟩
  · rintro ⟨i, hi, hne, hu⟩
    rw [← hother hne] at hu
    exact ⟨i, hi, decide_eq_true hu⟩

section Keys

variable {v : Nat} {fs xs : List VapField} {c c' : Config}

theorem keyBitLen_step (h : After v fs [] c c') (hf : .keyLength ∉ fs) :
    Act.Exact c' ((c.get (.vap 0 v .keyLength)).length < 60) (apCfgKeyBitLenSet 0 v 40)
      fun _ => After v fs [.keyLength] c := by
  have hread : c'.get (.vap 0 v .keyLength) = c.get (.vap 0 v .keyLength) :=
    h.kept v .keyLength (fun _ => hf) fun _ => List.not_mem_nil
  rw [apCfgKeyBitLenSet, if_neg (by decide), ← hread]
  refine shared_step h hf List.not_mem_nil (by decide) (getNumber_fits c' _)
    (getNumber_fault c' _) ?_ ?_
  · exact (broadcast_flagging _).andThen wscConfigured_returns fun _ _ =>
      keeps_wscConfigured Setting.noConfusion
  · rw [hread]
    exact eq_comm

theorem key_step (h : After v fs xs c c') (keyId : Nat) (hf : .key keyId ∉ fs)
    (hx : .key keyId ∉ xs) :
    Act.Exact c' ((c.get (.vap 0 v (.key keyId))).length < 32) (apCfgKeyValSet 0 v keyId .empty)
      fun _ => After v fs (.key keyId :: xs) c := by
  have hread : c'.get (.vap 0 v (.key keyId)) = c.get (.vap 0 v (.key keyId)) :=
    h.kept v (.key keyId) (fun _ => hf) fun _ => hx
  unfold apCfgKeyValSet
  rw [if_neg (by decide), ← hread]
  refine shared_step h hf hx nofun (getText_fits c' _) (getText_fault c' _)
    (broadcast_flagging _) ?_
  rw [hread]
  exact eq_comm

end Keys

/-- The settings `scSetDefaultSecurity` writes for its own VAP. -/
def securityFields : List VapField :=
  [.rekeyInterval, .passphrase, .wpaCipher, .authMode, .isolation]

/-- The keys are reset unless another VAP is found to use them. -/
theorem resetKeys_exact {v : Nat} {fs : List VapField} {c c' : Config} (h : After v fs [] c c')
    (hauth : .authMode ∈ fs) (hfs : ∀ f ∈ wepFields, f ∉ fs) :
    Act.Exact c' (KeysFit v c)
      (do
        let inUse ← anyVapUsesWep 0 vaps
        if inUse then return .ok else
        let _ ← apCfgKeyBitLenSet 0 v 40
        let _ ← apCfgKeyValSet 0 v 1 .empty
        let _ ← apCfgKeyValSet 0 v 2 .empty
        let _ ← apCfgKeyValSet 0 v 3 .empty
        let _ ← apCfgKeyValSet 0 v 4 .empty
        return Status.ok)
      fun _ c'' => FoundInUse v c ∧ After v fs [] c c'' ∨
        ¬ FoundInUse v c ∧ After v fs wepFields.reverse c c'' := by
  have hloop := h.found_iff hauth
  refine Act.Exact.read (anyVapUsesWep_eq c' vaps) ?_
  by_cases hfound : FoundInUse v c
  · rw [if_pos (hloop.mpr hfound)]
    exact (Act.Exact.pure (.inl ⟨hfound, h⟩)).mono (by simp [KeysFit, hfound]) fun _ _ hq => hq
  · rw [if_neg fun e => hfound (hloop.mp e)]
    have hreset : Act.Exact c' _ _ fun _ => After v fs wepFields.reverse c :=
      (keyBitLen_step h (hfs _ (by decide))).bind fun _ _ h =>
        (key_step h 1 (hfs _ (by decide)) (by decide)).bind fun _ _ h =>
          (key_step h 2 (hfs _ (by decide)) (by decide)).bind fun _ _ h =>
            (key_step h 3 (hfs _ (by decide)) (by decide)).bind fun _ _ h =>
              (key_step h 4 (hfs _ (by decide)) (by decide)).bind fun _ _ h =>
                Act.Exact.pure (a := Status.ok) h
    exact hreset.mono (by simp [KeysFit, hfound]) fun _ _ hq => .inr ⟨hfound, hq⟩

/-- **The reset of security.** -/
theorem scSetDefaultSecurity_exact {v : Nat} {fs : List VapField} {c c' : Config}
    (h : After v fs [] c c') (hfs : ∀ f ∈ .passphrase :: .rekeyInterval :: wepFields, f ∉ fs) :
    Act.Exact c' (SecurityFits v c) (scSetDefaultSecurity 0 v) fun _ c'' =>
      FoundInUse v c ∧ After v (securityFields ++ fs) [] c c'' ∨
        ¬ FoundInUse v c ∧ After v (securityFields ++ fs) wepFields.reverse c c'' := by
  have hdisjoint : ∀ f ∈ wepFields, f ∉ securityFields := by decide
  have hwep : ∀ f ∈ wepFields, f ∉ securityFields ++ fs := fun f hf hmem =>
    (List.mem_append.mp hmem).elim (hdisjoint f hf)
      (hfs f (List.mem_cons_of_mem _ (List.mem_cons_of_mem _ hf)))
  have hpass : VapField.passphrase ∉ .wpaCipher :: .authMode :: .isolation :: fs := by
    simp [hfs .passphrase]
  have hrekey : VapField.rekeyInterval ∉
      .passphrase :: .wpaCipher :: .authMode :: .isolation :: fs := by
    simp [hfs .rekeyInterval]
  have hchain : Act.Exact c' (True ∧ True ∧ True ∧ True ∧
      (c.get (.vap 0 v .passphrase)).length < 32 ∧ (c.get (.vap 0 v .rekeyInterval)).length < 60 ∧
        KeysFit v c) (scSetDefaultSecurity 0 v) fun _ c'' =>
      FoundInUse v c ∧ After v (securityFields ++ fs) [] c c'' ∨
        ¬ FoundInUse v c ∧ After v (securityFields ++ fs) wepFields.reverse c c'' := by
    refine (own_returns h nofun (setFlag_returns _ _ 1) (writesOwn_setFlag v .isolation _ 1)
      nofun).bind fun _ c₁ h₁ => ?_
    refine (own_returns h₁ nofun (apCfgAuthTypeSet_none_returns v)
      (writesOwn_apCfgAuthTypeSet v _) fun _ => authOf_apCfgAuthTypeSet_none v c₁).bind
      fun _ c₂ h₂ => ?_
    -- `apCfgDefKeySet` refuses the default key
    refine (Act.Exact.pure (a := Status.einval) (Q := fun _ => After v _ _ c) h₂).bind
      fun _ c₃ h₃ => ?_
    refine (own_returns h₃ nofun (setEnum_returns _ _ _ _ 2)
      (writesOwn_setEnum v .wpaCipher _ 2 _ _) nofun).bind fun _ c₄ h₄ => ?_
    refine (own_step h₄ hpass nofun nofun (setText_exact c₄ _ _ 32 .empty)
      (writesOwn_setText v .passphrase _ _ _)).bind fun _ c₅ h₅ => ?_
    refine (own_step h₅ hrekey nofun nofun (setNumber_exact c₅ _ _ 60 true (by decide))
      (writesOwn_setNumber v .rekeyInterval _ 3600 _ _ _)).bind fun _ c₆ h₆ => ?_
    exact resetKeys_exact h₆ (List.mem_append_left fs (by decide)) hwep
  exact hchain.mono (by simp [SecurityFits]) fun _ _ hq => hq

/-- The settings `scSetDefaultVap` writes for its own VAP. -/
def vapFields : List VapField :=
  [.loadbalance, .pri, .wmmps, .wmm, .vid, .aclList, .aclType, .accessControl] ++ securityFields ++
    [.broabcast, .ssid, .state]

/-- What follows the reset of security in `scSetDefaultVap`. -/
theorem resetOthers_exact {v : Nat} {xs : List VapField} {c c' : Config}
    (h : After v (securityFields ++ [.broabcast, .ssid, .state]) xs c c')
    (hxs : ∀ f ∈ [.loadbalance, .pri, .wmmps, .wmm, .vid, .aclList, .aclType, .accessControl],
      f ∉ xs) :
    Act.Exact c' ((c.get (.vap 0 v .vid)).length < 32 ∧ (c.get (.vap 0 v .pri)).length < 60 ∧
        (c.get (.vap 0 v .loadbalance)).length < 60)
      (do
        let _ ← apCfgAclModeSet 0 v 0
        let _ ← apCfgAclTypeSet 0 v 0
        apCfgAclClear 0 v
        let _ ← apCfgVlanPvidSet 0 v 1
        let _ ← apCfgWmeSet 0 v 1
        let _ ← apCfgWmmpsSet 0 v 1
        let _ ← apCfgPrioritySet 0 v 0
        let _ ← apCfgLoadBalanceSet 0 v 0
        return Status.ok)
      fun _ => After v vapFields xs c := by
  refine Act.Exact.mono (F := True ∧ True ∧ True ∧ (c.get (.vap 0 v .vid)).length < 32 ∧ True ∧
    True ∧ (c.get (.vap 0 v .pri)).length < 60 ∧ (c.get (.vap 0 v .loadbalance)).length < 60 ∧
      True) (Q := fun _ => After v vapFields xs c) ?_ (by simp) fun _ _ hq => hq
  refine (own_returns h (hxs _ (by decide)) (setEnum_returns _ _ _ _ 0)
    (writesOwn_setEnum v .accessControl _ 0 _ _) nofun).bind fun _ c₁ h₁ => ?_
  refine (own_returns h₁ (hxs _ (by decide)) (setEnum_returns _ _ _ _ 0)
    (writesOwn_setEnum v .aclType _ 0 _ _) nofun).bind fun _ c₂ h₂ => ?_
  refine (own_returns h₂ (hxs .aclList (by decide)) (fun _ => ⟨(), rfl⟩)
    (writesOwn_apCfgAclClear v) nofun).bind fun _ c₃ h₃ => ?_
  refine (own_step (f := .vid) h₃ (by decide) (hxs _ (by decide)) nofun
    (setNumber_exact c₃ _ _ 32 false (by decide)) (writesOwn_setNumber v .vid _ 1 _ _ _)).bind
    fun _ c₄ h₄ => ?_
  refine (own_returns h₄ (hxs _ (by decide)) (setFlag_returns _ _ 1)
    (writesOwn_setFlag v .wmm _ 1) nofun).bind fun _ c₅ h₅ => ?_
  refine (own_returns h₅ (hxs _ (by decide)) (setFlag_returns _ _ 1)
    (writesOwn_setFlag v .wmmps _ 1) nofun).bind fun _ c₆ h₆ => ?_
  refine (own_step (f := .pri) h₆ (by decide) (hxs _ (by decide)) nofun
    (setNumber_exact c₆ _ _ 60 false (by decide)) (writesOwn_setNumber v .pri _ 0 _ _ _)).bind
    fun _ c₇ h₇ => ?_
  refine (own_step (f := .loadbalance) h₇ (by decide) (hxs _ (by decide)) nofun
    (setNumber_exact c₇ _ _ 60 false (by decide))
    (writesOwn_setNumber v .loadbalance _ 0 _ _ _)).bind fun _ c₈ h₈ => ?_
  exact Act.Exact.pure h₈

/-- **The reset of a VAP.** -/
theorem scSetDefaultVap_exact (v : Nat) (c : Config) :
    Act.Exact c (VapFits v c) (scSetDefaultVap 0 v) fun _ c' =>
      FoundInUse v c ∧ After v vapFields [] c c' ∨
        ¬ FoundInUse v c ∧ After v vapFields wepFields.reverse c c' := by
  refine Act.Exact.mono (F := True ∧ (c.get (.vap 0 v .ssid)).length < 64 ∧ True ∧
    SecurityFits v c ∧ (c.get (.vap 0 v .vid)).length < 32 ∧ (c.get (.vap 0 v .pri)).length < 60 ∧
      (c.get (.vap 0 v .loadbalance)).length < 60) (Q := fun _ c' =>
      FoundInUse v c ∧ After v vapFields [] c c' ∨
        ¬ FoundInUse v c ∧ After v vapFields wepFields.reverse c c') ?_ (by simp [VapFits])
    fun _ _ hq => hq
  refine (own_returns (.refl v c) nofun (apCfgActiveModeSet_returns v 0)
    (writesOwn_apCfgActiveModeSet v 0) nofun).bind fun _ c₁ h₁ => ?_
  refine (own_step (f := .ssid) h₁ (by decide) nofun nofun (setText_exact c₁ _ _ 64 .empty)
    (writesOwn_setText v .ssid _ _ _)).bind fun _ c₂ h₂ => ?_
  refine (own_returns h₂ nofun (setFlag_returns _ _ 0) (writesOwn_setFlag v .broabcast _ 0)
    nofun).bind fun _ c₃ h₃ => ?_
  refine (scSetDefaultSecurity_exact h₃ (by decide)).bind fun _ c₄ h₄ => ?_
  obtain ⟨hfound, h₄⟩ | ⟨hfound, h₄⟩ := h₄
  · exact (resetOthers_exact h₄ nofun).mono Iff.rfl fun _ _ hq => .inl ⟨hfound, hq⟩
  · exact (resetOthers_exact h₄ (by decide)).mono Iff.rfl fun _ _ hq => .inr ⟨hfound, hq⟩

/-! ### When a reset does no harm -/

/-- The default is the value it is compared with. -/
theorem atDefault_of_eq {v : Nat} {c : Config} {f : VapField}
    (h : c.get (.vap 0 v f) = defaultText f) : AtDefault v c f := by
  cases f with
  | keyLength =>
      rw [AtDefault, h]
      exact atoi_ofInt (by decide) (by decide)
  | _ => exact h

/-- Where nothing shared is reset, no other VAP is touched. -/
theorem undamaged_of_found {v : Nat} {fs : List VapField} {c c' : Config} (h : After v fs [] c c')
    (hfs : ∀ f ∈ wepFields, f ∉ fs) : Undamaged v c c' :=
  ⟨fun other _ hne _ f => h.kept other f (fun e => absurd e hne) nofun,
    fun _ vap _ f hf => h.kept vap f (fun _ => hfs f hf) nofun⟩

theorem undamaged_iff {v : Nat} (hv : v ∈ vaps) {fs : List VapField} {c c' : Config}
    (hfound : ¬ FoundInUse v c) (h : After v fs wepFields.reverse c c') :
    Undamaged v c c' ↔ KeysSafe v c := by
  have hrev : ∀ {f}, f ∈ wepFields → f ∈ wepFields.reverse := List.mem_reverse.mpr
  constructor
  · rintro ⟨hactive, hkeys⟩
    refine .inr ⟨?_, fun other hother hne hon f hf => ?_⟩
    · rintro ⟨other, hother, hne, hauto⟩ f hf
      by_contra hd
      have hreset := h.reset f (hrev hf) hd v hv
      rw [hkeys ⟨other, hother, hne, .inr (.inr hauto)⟩ v hv f hf] at hreset
      exact hd (atDefault_of_eq hreset)
    · by_cases hd : AtDefault v c f
      · exact .inl hd
      · refine .inr ?_
        rw [← hactive other hother hne hon f]
        exact h.reset f (hrev hf) hd other hother
  · intro hsafe
    obtain ⟨hauto, hactive⟩ := hsafe.resolve_left hfound
    refine ⟨fun other hother hne hon f => ?_, ?_⟩
    · by_cases hf : f ∈ wepFields
      · by_cases hd : AtDefault v c f
        · exact h.same f (hrev hf) hd other hother
        · rw [h.reset f (hrev hf) hd other hother]
          exact ((hactive other hother hne hon f hf).resolve_left hd).symm
      · exact h.kept other f (fun e => absurd e hne) fun _ hmem => hf (List.mem_reverse.mp hmem)
    · rintro ⟨other, hother, hne, huses⟩ vap hvap f hf
      have htype : authOf c other = apcfgAuthAuto := by
        obtain hopen | hshared | hauto := huses
        · exact absurd ⟨other, hother, hne, .inl hopen⟩ hfound
        · exact absurd ⟨other, hother, hne, .inr hshared⟩ hfound
        · exact hauto
      exact h.same f (hrev hf) (hauto ⟨other, hother, hne, htype⟩ f hf) vap hvap

/-- What a reset leaves of the other VAPs. -/
theorem undamaged_reset_iff {v : Nat} (hv : v ∈ vaps) {fs : List VapField} {c c' : Config}
    (hfs : ∀ f ∈ wepFields, f ∉ fs)
    (h : FoundInUse v c ∧ After v fs [] c c' ∨
      ¬ FoundInUse v c ∧ After v fs wepFields.reverse c c') :
    Undamaged v c c' ↔ KeysSafe v c := by
  obtain ⟨hfound, h⟩ | ⟨hfound, h⟩ := h
  · exact ⟨fun _ => .inl hfound, fun _ => undamaged_of_found h hfs⟩
  · exact undamaged_iff hv hfound h

/-- **When a reset does no harm.** -/
theorem reset_harmless_iff (v : Fin 4) (c : Config) :
    (Harmless v c (scSetDefaultVap 0 v) ↔ VapFits v c ∧ KeysSafe v c) ∧
      (Harmless v c (scSetDefaultSecurity 0 v) ↔ SecurityFits v c ∧ KeysSafe v c) := by
  have hv := mem_vaps v
  refine ⟨?_, ?_⟩
  · exact (scSetDefaultVap_exact v c).achieves fun _ _ h =>
      undamaged_reset_iff hv (by decide) h
  · exact (scSetDefaultSecurity_exact (.refl v c) nofun).achieves fun _ _ h =>
      undamaged_reset_iff hv (by decide) h

/-- VAP 1 is active and uses WEP with either type of authentication. -/
def wepAuto : Config where
  get
    | .vap 0 1 .state => enable
    | .vap 0 1 .authMode => .text "AUTH_AUTO"
    | .vap 0 _ (.key 1) => .text "abcde"
    | _ => .empty
  flags := []
  closed := false

/-- **A reset of VAP 2 takes the key of VAP 1.** -/
theorem scSetDefaultVap_damages :
    (∃ status, (scSetDefaultVap 0 2 wepAuto).1 = .ok status) ∧
      ¬ Undamaged 2 wepAuto (scSetDefaultVap 0 2 wepAuto).2 := by
  refine ⟨⟨.ok, by decide⟩, fun ⟨hactive, _⟩ => ?_⟩
  have hkey := hactive 1 (by decide) (by decide) (by decide) (.key 1)
  exact absurd hkey (by decide)

end Wap4410n.Apcfg
