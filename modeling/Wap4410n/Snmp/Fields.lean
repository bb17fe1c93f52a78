import Wap4410n.Apcfg.Accepted
import Wap4410n.Snmp.Contents

/-!
# Snmp — when the rows of a table are built within their structs

A loader fills the fields of a row with `strcpy` and `strncpy`, each field an array of its own size,
and prints the `UID` last.  `Table.RowFits` says of a row that nothing was stored behind one of its
arrays, and `Table.Fits` what has to hold of the settings and the reports for it: `loadvar_fits_iff`
is the equivalence.

The setters bound most of the texts, so that on an accepted configuration only the texts that no
setter bounds are left, and what the driver reports.  The `UID` has room for the indices of two
loops only, so that a table with three indices is loaded within its structs when it has no rows.
-/

namespace Wap4410n.Snmp

open CLib Apcfg Act

/-! ### The fields of the rows -/

def WsTblData.Within (ws : WsTblData) : Prop :=
  ws.lanMacAddress.IsArray 33 ∧ ws.lanRecvPackets.IsArray 33 ∧ ws.lanSendPackets.IsArray 33 ∧
    ws.lanRecvBytes.IsArray 33 ∧ ws.lanSendBytes.IsArray 33 ∧ ws.lanRecvErrorPackets.IsArray 33 ∧
    ws.lanRecvDropPackets.IsArray 33

def WlnsTblData.Within (wlns : WlnsTblData) : Prop :=
  wlns.currentSSID.IsArray 128 ∧ wlns.currentSSIDMacAddress.IsArray 33 ∧
    wlns.currentSSIDSecurity.IsArray 33 ∧ wlns.currentSSIDPriority.IsArray 33

def WloTblData.Within (wlo : WloTblData) : Prop :=
  wlo.remoteRepeatMacAddress1.IsArray 33 ∧ wlo.remoteRepeatMacAddress2.IsArray 33 ∧
    wlo.remoteRepeatMacAddress3.IsArray 33 ∧ wlo.remoteAPMacAddress.IsArray 33 ∧
    wlo.remoteBridgeMacAddress1.IsArray 33 ∧ wlo.remoteBridgeMacAddress2.IsArray 33 ∧
    wlo.remoteBridgeMacAddress3.IsArray 33 ∧ wlo.remoteBridgeMacAddress4.IsArray 33 ∧
    wlo.remoteAPSSID.IsArray 128 ∧ wlo.remoteAPMac.IsArray 33

def WlclTblData.Within (wlcl : WlclTblData) : Prop :=
  wlcl.clientMacAddress.IsArray 33 ∧ wlcl.clientRate.IsArray 16 ∧ wlcl.clientRssi.IsArray 16 ∧
    wlcl.clientStatus.IsArray 32

def WlsTblData.Within (wls : WlsTblData) : Prop :=
  wls.ssidMacAddress.IsArray 33 ∧ wls.ssidRecvPackets.IsArray 33 ∧ wls.ssidSendPackets.IsArray 33 ∧
    wls.ssidRecvByets.IsArray 33 ∧ wls.ssidSendByets.IsArray 33 ∧
    wls.ssidRecvErrorPackets.IsArray 33 ∧ wls.ssidRecvDropPackets.IsArray 33

def LasTblData.Within (las : LasTblData) : Prop :=
  las.ssid.IsArray 255 ∧ las.wepKey1.IsArray 255 ∧ las.wepKey2.IsArray 255 ∧
    las.wepKey3.IsArray 255 ∧ las.wepKey4.IsArray 255 ∧ las.wpaPSK.IsArray 255

def WlarTblData.Within (wlar : WlarTblData) : Prop :=
  wlar.radiusAuthPrimaryServerKey.IsArray 128 ∧ wlar.radiusAuthSecondaryServerKey.IsArray 128

def AcmlTblData.Within (acml : AcmlTblData) : Prop := acml.aclMac.IsArray 33

def LalTblData.Within (lal : LalTblData) : Prop := lal.apMAC.IsArray 33

def WlnwTblData.Within (wlnw : WlnwTblData) : Prop := wlnw.currentChannel.IsArray 33

/-- Nothing is stored behind an array of the row. -/
def Table.Within : (t : Table) → t.Data → Prop
  | .wiredStatisticsTable => WsTblData.Within
  | .wlanAccessControlTable | .wlanSettingTable | .vlanQOSTable => fun _ => True
  | .wirelessNetworkSSIDTable => WlnsTblData.Within
  | .wlanOperationTable => WloTblData.Within
  | .wlanWirelessClientListTable => WlclTblData.Within
  | .wirelessStatisticsTable => WlsTblData.Within
  | .wlanSecurityTable => LasTblData.Within
  | .wlanRadiusTable => WlarTblData.Within
  | .wlanAccessControlMACListTable => AcmlTblData.Within
  | .wlanLegalApListTable => LalTblData.Within
  | .wirelessNetworkTable => WlnwTblData.Within

/-! ### Loops -/

section Loop

variable {X α : Type} {c : Config}

/-- **The rows of a loop** each turn of which only reads. -/
theorem wp_eachRow {fill : X → Row α → Cfg (Row α)} {xs : List X} {I : Row α → Prop} {F : X → Prop}
    (hfill : ∀ x ∈ xs, ∀ n, I n → ∀ R : Config → Prop,
      Wp (fill x n) (fun r c' => I r ∧ R c') c ↔ F x ∧ R c) {n : Row α} (hn : I n)
        (R : Config → Prop) :
    Wp (eachRow fill xs n) (fun rows c' => (∀ r ∈ rows, I r) ∧ R c') c ↔ (∀ x ∈ xs, F x) ∧ R c := by
  induction xs generalizing n with
  | nil =>
      rw [eachRow, eachRows, wp_pure]
      simp
  | cons x xs ih =>
      have hrest := fun r hr => ih (fun y hy => hfill y (List.mem_cons_of_mem x hy)) (n := r) hr
      have hrow := wp_reading (hfill x List.mem_cons_self n hn) hrest
      have hturn (r : Row α) (s : Config) :
          Wp (pure [r] : Cfg (List (Row α))) (fun rows s' =>
            Wp (eachRow fill xs (rows.getLast?.getD n) >>= fun more => pure (rows ++ more))
              (fun rows c' => (∀ r ∈ rows, I r) ∧ R c') s') s ↔
          I r ∧ Wp (eachRow fill xs r) (fun rows c' => (∀ r ∈ rows, I r) ∧ R c') s := by
        rw [wp_pure, wp_bind, ← wp_const_and]
        refine wp_congr fun more s' => ?_
        rw [wp_pure, List.singleton_append, List.forall_mem_cons, and_assoc]
      rw [List.forall_mem_cons, and_assoc, ← hrow, eachRow, eachRows, wp_bind, wp_bind]
      exact wp_congr hturn

/-- The fields of a row, behind the assignment of the others. -/
theorem data_filled (r : Row α) (f : α → α) (k : Nat) :
    ((r.assign f).sprintfUid k).data = f r.data :=
  rfl

theorem data_setLong (r : Row α) (i v : Nat) : (r.setLong i v).data = r.data := rfl

end Loop

theorem length_printLu (v : Nat) : (printLu v).length < 33 := by
  have hdigits := length_digits_le 10 20 v
  have hle : (printLu v).length ≤ (digits 10 20 v).length := CStr.length_before_le _
  omega

theorem length_ofInt (v : Int) : (CStr.ofInt v).length < 33 :=
  Nat.lt_of_le_of_lt (length_printInt_le _) (by decide)

theorem length_securityBuf (v : Int) : (securityBuf v).length < 33 := by
  unfold securityBuf
  repeat' split
  all_goals decide +kernel

variable {c : Config} {d : Device} {R : Config → Prop}

section Active

variable {A : Type} {radio ssid : Nat} {get : Cfg A} {other : A} {Q : A → Config → Prop}

theorem wp_whenActive_on (h : flagOf (c.get (.vap radio ssid .state)) ≠ 0) :
    Wp (whenActive radio ssid get other) Q c ↔ Wp get Q c := by
  rw [whenActive, wp_bind, apCfgActiveModeGet, wp_getFlag, if_pos h]

theorem wp_whenActive_off (h : ¬ flagOf (c.get (.vap radio ssid .state)) ≠ 0) :
    Wp (whenActive radio ssid get other) Q c ↔ Q other c := by
  rw [whenActive, wp_bind, apCfgActiveModeGet, wp_getFlag, if_neg h, wp_pure]

end Active

/-! ### The tables -/

theorem wp_wiredStatisticsTable :
    Wp (loadvarWiredStatisticsTable d)
        (fun rows c' => (∀ r ∈ rows, WsTblData.Within r.data) ∧ R c') c ↔
      d.mgtBrMac.length < 20 ∧ R c := by
  refine (wp_eachRow (I := fun r => WsTblData.Within r.data)
    (F := fun _ => d.mgtBrMac.length < 20) ?_ ?_ R).trans
    (and_congr_left' List.forall_mem_singleton)
  · rintro lan - n ⟨h₁, h₂, h₃, h₄, h₅, h₆, h₇⟩ R
    have hmac (h : d.mgtBrMac.length < 20) : d.mgtBrMac.length ≤ 33 := by omega
    simp only [apCfgIpAddrGet, wp_bind, wp_getAddr, wp_store, wp_pure, data_filled, data_setLong,
      WsTblData.Within, h₁.strncpy, h₂.strcpy, h₃.strcpy, h₄.strcpy, h₅.strcpy, h₆.strcpy,
      h₇.strcpy, length_printLu, and_true]
    exact and_congr_right fun h => and_iff_right (hmac h)
  · simp only [WsTblData.Within, Block.isArray_zeroed, and_self, Row.zeroed]

theorem wp_wlanAccessControlTable :
    Wp loadvarWlanAccessControlTable (fun rows c' => (∀ r ∈ rows, True) ∧ R c') c ↔ R c := by
  refine (wp_eachRow (I := fun _ => True) (F := fun _ => True) ?_ trivial R).trans
    (and_iff_right fun _ _ => trivial)
  rintro ⟨radio, aclSSID⟩ - n - R
  simp only [apCfgAclModeGet, apCfgAclTypeGet, wp_bind, wp_getEnum, wp_pure]

theorem wp_currentModeGet {radio : Nat} {G : Prop} {Q : Int → Config → Prop} (hQ : ∀ v, Q v c ↔ G) :
    Wp (currentModeGet radio) Q c ↔ G := by
  simp only [currentModeGet, apCfgWlanStateGet, apCfgFreqSpecGet, wp_bind, wp_getFlag, wp_ite,
    wp_getEnum, wp_pure, hQ, ite_self]

theorem wp_wlanSettingTable (hc : c.Accepted) :
    Wp loadvarWlanSettingTable (fun rows c' => (∀ r ∈ rows, True) ∧ R c') c ↔ R c := by
  refine (wp_eachRow (I := fun _ => True) (F := fun _ => True) ?_ trivial R).trans
    (and_iff_right fun _ _ => trivial)
  rintro radio - n - R
  have hchannel : (c.get (.radio radio .channel)).length < 60 := hc.lt rfl (by decide)
  have hdtim : (c.get (.radio radio .dtim)).length < 60 := hc.lt rfl (by decide)
  have hrts : (c.get (.radio radio .rts)).length < 60 := hc.lt rfl (by decide)
  have hfrag : (c.get (.radio radio .frag)).length < 60 := hc.lt rfl (by decide)
  rw [wp_bind]
  refine wp_currentModeGet fun mode => ?_
  simp only [channelGet, apCfgAutoChannelGet, apCfgRadioChannelGet, apCfgChannelWidthModeGet,
    apCfgCountryCodeGet, scApCfg80211dEnabledGet, scApCfgShortGIGet, apCfgCTSModeGet,
    apCfgBeaconIntervalGet, scApCfgDtimIntervalGet, apCfgRtsThresholdGet, apCfgFragThresholdGet,
    apCfgInterVapForwardingGet, wp_bind, wp_ite, wp_getFlag, wp_getEnum, wp_getAtoi, wp_getNumber,
    wp_pure, hchannel, hdtim, hrts, hfrag, true_and, ite_self]

/-- The VAP is switched on. -/
def VapOn (c : Config) (ssid : Nat) : Prop := flagOf (c.get (.vap 0 ssid .state)) ≠ 0

theorem forall_mem_bsses {P : Nat × Nat → Prop} :
    (∀ x ∈ bsses, P x) ↔ ∀ ssid ∈ vaps, P (0, ssid) := by
  rw [bsses, radios, List.flatMap_singleton, List.forall_mem_map]

/-- The name that is shown of a network. -/
theorem wp_currentSsidGet {radio ssid : Nat} (hssid : (c.get (.vap radio ssid .ssid)).length < 64) :
    ∃ p : CStr, p.length < 128 ∧
      ∀ Q : CStr → Config → Prop, Wp (currentSsidGet d radio ssid) Q c ↔ Q p c := by
  refine ⟨(((convTable.lookup (atoi (c.get (.sys .sysDomain)))).bind fun fromCes =>
    d.libiconv fromCes (c.get (.vap radio ssid .ssid))).filter (·.length < 128)).getD
      (c.get (.vap radio ssid .ssid)), ?_, fun Q => ?_⟩
  · generalize (convTable.lookup _).bind _ = converted
    cases h : converted.filter (·.length < 128) with
    | none => exact hssid.trans (by decide)
    | some text =>
        have hlength := (Option.filter_eq_some_iff.mp h).2
        exact of_decide_eq_true hlength
  · simp only [currentSsidGet, doConvert, apCfgSsidGet, apCfgCountryCodeGet, wp_bind, wp_getText,
      wp_getAtoi, wp_pure, hssid, true_and]

theorem wp_wirelessNetworkSSIDTable (hc : c.Accepted) :
    Wp (loadvarWirelessNetworkSSIDTable d)
      (fun rows c' => (∀ r ∈ rows, WlnsTblData.Within r.data) ∧ R c')
        c ↔ (∀ ssid ∈ vaps, VapOn c ssid → (d.ifMac 0 ssid).length < 33) ∧ R c := by
  refine (wp_eachRow (I := fun r => WlnsTblData.Within r.data) (F := fun x : Nat × Nat =>
    flagOf (c.get (.vap x.1 x.2 .state)) ≠ 0 → (d.ifMac x.1 x.2).length < 33) ?_ ?_ R).trans
    (and_congr_left' forall_mem_bsses)
  · rintro ⟨radio, ssid⟩ - n ⟨h₁, h₂, h₃, h₄⟩ R
    have hssid : (c.get (.vap radio ssid .ssid)).length < 64 := hc.lt rfl (by decide)
    obtain ⟨shown, hshown, hwp⟩ := wp_currentSsidGet (d := d) hssid
    have hpri : (c.get (.vap radio ssid .pri)).length < 60 := hc.lt rfl (by decide)
    have hpriority (v : Int) : (if v = 0 then CStr.text "disable" else .ofInt v).length < 33 := by
      split
      · decide
      · exact length_ofInt v
    have hempty : (CStr.text "").length < 128 := by decide
    have hnone : (CStr.text "N/A").length < 33 := by decide
    have hnone' : (CStr.text "").length < 33 := by decide
    by_cases hon : flagOf (c.get (.vap radio ssid .state)) ≠ 0
    · simp only [apCfgAuthTypeGet, apCfgPriorityGet, wp_bind, wp_whenActive_on hon, hwp,
        wp_getEnum, wp_getNumber, wp_pure, data_filled, data_setLong, WlnsTblData.Within,
        h₁.strcpy, h₂.strcpy, h₃.strcpy, h₄.strcpy, hshown, hpri, hpriority, length_securityBuf,
        true_and, and_true, forall_prop_of_true hon]
    · simp only [apCfgAuthTypeGet, apCfgPriorityGet, wp_bind, wp_whenActive_off hon, wp_getEnum,
        wp_getNumber, wp_pure, data_filled, data_setLong, WlnsTblData.Within, h₁.strcpy, h₂.strcpy,
        h₃.strcpy, h₄.strcpy, hpri, hpriority, hempty, hnone, hnone', true_and, and_true,
        forall_prop_of_false hon]
  · simp only [WlnsTblData.Within, Block.isArray_zeroed, and_self, Row.zeroed]

theorem wp_apCfgRemoteWbrMacAddrGet {unit index : Nat} {Q : CStr → Config → Prop} :
    Wp (apCfgRemoteWbrMacAddrGet unit index) Q c ↔
      bridgeSize ≤ (c.get (.radio unit .remoteBridgeMac)).mem.length ∧
        Q (.before
          ((((c.get (.radio unit .remoteBridgeMac)).mem.take bridgeSize).drop (18 * index)).take
          17)) c := by
  rw [apCfgRemoteWbrMacAddrGet, wp_bind, wp_nvramSafeGet, wp_bind, copyBridges]
  split
  · rename_i h
    rw [wp_pure, wp_pure, and_iff_right h]
  · rename_i h
    rw [wp_fault]
    exact ⟨False.elim, fun hq => h hq.1⟩

theorem length_bridge (m : List Byte) : (CStr.before (m.take 17)).length < 33 := by
  have hle := CStr.length_before_le (m.take 17)
  have htake := List.length_take_le 17 m
  omega

theorem wp_wlanOperationTable (hc : c.Accepted) :
    Wp loadvarWlanOperationTable (fun rows c' => (∀ r ∈ rows, WloTblData.Within r.data) ∧ R c') c ↔
      (bridgeSize ≤ (c.get (.radio 0 .remoteBridgeMac)).mem.length ∧
        (c.get (.radio 0 .remoteMac)).length < 20) ∧ R c := by
  refine (wp_eachRow (I := fun r => WloTblData.Within r.data) (F := fun radio =>
    bridgeSize ≤ (c.get (.radio radio .remoteBridgeMac)).mem.length ∧
      (c.get (.radio radio .remoteMac)).length < 20) ?_ ?_ R).trans
    (and_congr_left' List.forall_mem_singleton)
  · rintro radio - n ⟨h₁, h₂, h₃, h₄, h₅, h₆, h₇, h₈, h₉, h₁₀⟩ R
    have hssid : (c.get (.vap radio 0 .ssid)).length < 64 := hc.lt rfl (by decide)
    have hssid' : (c.get (.vap radio 0 .ssid)).length < 128 := hc.lt rfl (by decide)
    have hmac (h : (c.get (.radio radio .remoteMac)).length < 20) :
      (c.get (.radio radio .remoteMac)).length < 33 := h.trans (by decide)
    simp only [apCfgOpModeGet, wp_apCfgRemoteWbrMacAddrGet, apCfgRemoteApMacAddrGet, apCfgSsidGet,
      apCfgUcrRemoteApMacAddrGet, scApCfgRogueApTypeGet, wp_bind, wp_getEnum, wp_nvramSafeGet,
      wp_store, wp_getText, wp_getAtoi, wp_pure, data_filled, data_setLong, WloTblData.Within,
      h₁.strcpy, h₂.strcpy, h₃.strcpy, h₄.strcpy, h₅.strcpy, h₆.strcpy, h₇.strcpy, h₈.strcpy,
      h₉.strcpy, h₁₀.strcpy, hssid, hssid', length_bridge, true_and]
    tauto
  · simp only [WloTblData.Within, Block.isArray_zeroed, and_self, Row.zeroed]

theorem wp_wirelessStatisticsTable :
    Wp (loadvarWirelessStatisticsTable d)
      (fun rows c' => (∀ r ∈ rows, WlsTblData.Within r.data) ∧ R c')
        c ↔ (∀ ssid ∈ vaps, VapOn c ssid → (d.ifMac 0 ssid).length < 33) ∧ R c := by
  refine (wp_eachRow (I := fun r => WlsTblData.Within r.data) (F := fun x : Nat × Nat =>
    flagOf (c.get (.vap x.1 x.2 .state)) ≠ 0 → (d.ifMac x.1 x.2).length < 33) ?_ ?_ R).trans
    (and_congr_left' forall_mem_bsses)
  · rintro ⟨radio, ssid⟩ - n ⟨h₁, h₂, h₃, h₄, h₅, h₆, h₇⟩ R
    have hnone : (CStr.text "None").length < 33 := by decide
    have hnone' : (CStr.text "N/A").length < 33 := by decide
    by_cases hon : flagOf (c.get (.vap radio ssid .state)) ≠ 0
    · simp only [getVapNumber, apCfgIpAddrGet, apCfgActiveModeGet, wp_bind, wp_getAddr, wp_getFlag,
        if_neg hon, wp_whenActive_on hon, wp_pure, data_filled, data_setLong, WlsTblData.Within,
        h₁.strcpy, h₂.strcpy, h₃.strcpy, h₄.strcpy, h₅.strcpy, h₆.strcpy, h₇.strcpy, length_printLu,
        and_true, forall_prop_of_true hon]
    · simp only [getVapNumber, apCfgIpAddrGet, apCfgActiveModeGet, wp_bind, wp_getAddr, wp_getFlag,
        if_pos (not_not.mp hon), wp_whenActive_off hon, wp_pure, data_filled, data_setLong,
        WlsTblData.Within, h₁.strcpy, h₂.strcpy, h₃.strcpy, h₄.strcpy, h₅.strcpy, h₆.strcpy,
        h₇.strcpy, hnone, hnone', and_self, forall_prop_of_false hon]
  · simp only [WlsTblData.Within, Block.isArray_zeroed, and_self, Row.zeroed]

theorem wp_vlanQOSTable (hc : c.Accepted) :
    Wp loadvarVlanQOSTable (fun rows c' => (∀ r ∈ rows, True) ∧ R c') c ↔ R c := by
  refine (wp_eachRow (I := fun _ => True) (F := fun _ => True) ?_ trivial R).trans
    (and_iff_right fun _ _ => trivial)
  rintro ⟨radio, ssid⟩ - n - R
  have hvid : (c.get (.vap radio ssid .vid)).length < 32 := hc.lt rfl (by decide)
  have hpri : (c.get (.vap radio ssid .pri)).length < 60 := hc.lt rfl (by decide)
  simp only [apCfgVlanPvidGet, apCfgPriorityGet, apCfgWmeGet, wp_bind, wp_getNumber, wp_getFlag,
    wp_pure, hvid, hpri, true_and]

/-- The WEP keys and the passphrase of a VAP fit the buffers of their getters. -/
def SecurityFits (c : Config) (unit bss : Nat) : Prop :=
  (∀ keyId ∈ [1, 2, 3, 4], (c.get (.vap unit bss (.key keyId))).length < 32) ∧
    (c.get (.vap unit bss .passphrase)).length < 32

theorem wp_wlanSecurityTable (hc : c.Accepted) :
    Wp loadvarWlanSecurityTable (fun rows c' => (∀ r ∈ rows, LasTblData.Within r.data) ∧ R c') c ↔
      (∀ ssid ∈ vaps, VapOn c ssid → SecurityFits c 0 ssid) ∧ R c := by
  refine (wp_eachRow (I := fun r => LasTblData.Within r.data) (F := fun x : Nat × Nat =>
    flagOf (c.get (.vap x.1 x.2 .state)) ≠ 0 → SecurityFits c x.1 x.2) ?_ ?_ R).trans
    (and_congr_left' forall_mem_bsses)
  · rintro ⟨radio, ssid⟩ - n ⟨h₁, h₂, h₃, h₄, h₅, h₆⟩ R
    have hssid : (c.get (.vap radio ssid .ssid)).length < 64 := hc.lt rfl (by decide)
    have hdefault : (c.get (.vap radio ssid .defaultKey)).length < 60 := hc.lt rfl (by decide)
    have hlength : (c.get (.vap radio ssid .keyLength)).length < 60 := hc.lt rfl (by decide)
    have hinterval : (c.get (.vap radio ssid .rekeyInterval)).length < 60 := hc.lt rfl (by decide)
    have hempty : (CStr.text "").length < 255 := by decide
    have hkey (i : Nat) : (c.get (.vap radio ssid (.key i))).length < 255 := hc.lt rfl (by decide)
    have hpassphrase : (c.get (.vap radio ssid .passphrase)).length < 255 := hc.lt rfl (by decide)
    have hssid' : (c.get (.vap radio ssid .ssid)).length < 255 := hc.lt rfl (by decide)
    by_cases hon : flagOf (c.get (.vap radio ssid .state)) ≠ 0
    · simp only [apCfgSsidGet, apCfgSsidModeGet, apCfgIntraVapForwardingGet, apCfgAuthTypeGet,
        apCfgDefKeyGet, apCfgKeyBitLenGet, apCfgKeyValGet, apCfgPassphraseGet,
        apCfgGroupKeyUpdateIntervalGet, wp_bind, wp_whenActive_on hon, wp_getText, wp_getFlag,
        wp_getEnum, wp_getNumber, wp_pure, data_filled, data_setLong, LasTblData.Within, h₁.strcpy,
        h₂.strcpy, h₃.strcpy, h₄.strcpy, h₅.strcpy, h₆.strcpy, hssid, hssid', hdefault, hlength,
        hinterval, hkey, hpassphrase, true_and, forall_prop_of_true hon, SecurityFits,
        List.forall_mem_cons, List.not_mem_nil, false_imp_iff, implies_true, and_assoc]
    · simp only [wp_bind, wp_whenActive_off hon, wp_pure, data_filled, data_setLong,
        LasTblData.Within, h₁.strcpy, h₂.strcpy, h₃.strcpy, h₄.strcpy, h₅.strcpy, h₆.strcpy, hempty,
        true_and, forall_prop_of_false hon]
  · simp only [LasTblData.Within, Block.isArray_zeroed, and_self, Row.zeroed]

theorem wp_wlanRadiusTable (hc : c.Accepted) {nwlar : Row WlarTblData} (hn : nwlar.data.Within) :
    Wp (loadvarWlanRadiusTable nwlar)
      (fun rows c' => (∀ r ∈ rows, WlarTblData.Within r.data) ∧ R c') c ↔
      (∀ f ∈ [VapField.radiusServer, .radiusKey, .backupRadiusServer, .backupRadiusKey],
        (c.get (.vap 0 0 f)).length < 32) ∧ R c := by
  refine (wp_eachRow (I := fun r => WlarTblData.Within r.data) (F := fun x : Nat × Nat =>
    ∀ f ∈ [VapField.radiusServer, .radiusKey, .backupRadiusServer, .backupRadiusKey],
      (c.get (.vap x.1 x.2 f)).length < 32) ?_ hn R).trans
    (and_congr_left' List.forall_mem_singleton)
  rintro ⟨radio, radius⟩ - n ⟨h₁, h₂⟩ R
  have hport : (c.get (.vap radio radius .radiusPort)).length < 60 := hc.lt rfl (by decide)
  have hport' : (c.get (.vap radio radius .backupRadiusPort)).length < 60 := hc.lt rfl (by decide)
  have hkey {k : Setting} (h : (c.get k).length < 32) : (c.get k).length < 128 :=
    h.trans (by decide)
  simp only [apCfgRadiusServerGet, apCfgRadiusPortGet, apCfgRadiusSecretGet,
    apCfgBackupRadiusServerGet, apCfgBackupRadiusPortGet, apCfgBackupRadiusSecretGet, wp_bind,
    wp_getText, wp_getNumber, wp_pure, data_filled, data_setLong, WlarTblData.Within, h₁.strcpy,
    h₂.strcpy, hport, hport', true_and, List.forall_mem_cons, List.not_mem_nil, false_imp_iff,
    implies_true, and_true]
  constructor
  · rintro ⟨hserver, hsecret, hbackup, hbackupSecret, -, hR⟩
    exact ⟨⟨hserver, hsecret, hbackup, hbackupSecret⟩, hR⟩
  · rintro ⟨⟨hserver, hsecret, hbackup, hbackupSecret⟩, hR⟩
    exact ⟨hserver, hsecret, hbackup, hbackupSecret, ⟨hkey hsecret, hkey hbackupSecret⟩, hR⟩

theorem wp_wirelessNetworkTable (hc : c.Accepted) :
    Wp loadvarWirelessNetworkTable
      (fun rows c' => (∀ r ∈ rows, WlnwTblData.Within r.data) ∧ R c') c ↔ R c := by
  refine (wp_eachRow (I := fun r => WlnwTblData.Within r.data) (F := fun _ => True) ?_ ?_ R).trans
    (and_iff_right fun _ _ => trivial)
  · rintro radio - n hn R
    have hchannel : (c.get (.radio radio .channel)).length < 60 := hc.lt rfl (by decide)
    rw [wp_bind]
    refine wp_currentModeGet fun mode => ?_
    have h : n.data.currentChannel.IsArray 33 := hn
    simp only [apCfgRadioChannelGet, apCfgVlanModeGet, wp_bind, wp_getNumber, wp_getFlag, wp_pure,
      data_filled, data_setLong, WlnwTblData.Within, h.strcpy, hchannel, length_ofInt, true_and]
  · simp only [WlnwTblData.Within, Block.isArray_zeroed, Row.zeroed]

/-! ### The list of legal access points -/

theorem legalApRows_within (p : CStr) {n : Row LalTblData} (hn : n.data.Within) (xs : List Nat) :
    ∀ r ∈ legalApRows p xs n, r.data.Within := by
  induction xs generalizing n with
  | nil => exact fun _ h => absurd h List.not_mem_nil
  | cons x xs ih =>
      rw [legalApRows]
      split
      · exact fun _ h => absurd h List.not_mem_nil
      · have hlen : ((p.bytes.drop (x * 13)).take 12).length ≤ 33 := by
          rw [List.length_take]
          omega
        have hfirst : (n.data.apMAC.memcpy ((p.bytes.drop (x * 13)).take 12)).IsArray 33 :=
          (Block.IsArray.store hn _).mpr hlen
        exact List.forall_mem_cons.mpr ⟨hfirst, ih hfirst⟩

theorem wp_wlanLegalApListTable (hc : c.Accepted) :
    Wp loadvarWlanLegalApListTable
      (fun rows c' => (∀ r ∈ rows, LalTblData.Within r.data) ∧ R c') c ↔ R c := by
  have hlist : (c.get legalKey).length < maxLegalaplist + 1 := hc.lt rfl (Nat.lt_succ_self _)
  rw [loadvarWlanLegalApListTable, scApCfgLegalApListGet, wp_bind, wp_getText, wp_pure,
    and_iff_right hlist]
  have hzeroed : (Row.zeroed 1 ({} : LalTblData)).data.Within := Block.isArray_zeroed 33
  exact and_iff_right (legalApRows_within _ hzeroed _)

/-! ### Three indices -/

section Uid

variable {α : Type} {k : Nat} {r : Row α}

theorem noNul_printPadded (w : Nat) (x : Int32) : (0 : Byte) ∉ printPadded w x := by
  have hdigits : (0 : Byte) ∉ digits 10 10 x.toInt.natAbs := fun h => by
    have hdigit := isDigit_iff.mp (isDigit_digits h)
    simp at hdigit
  simp only [printPadded]
  split <;> simp [hdigits]

theorem le_length_printPadded (w : Nat) (x : Int32) : w ≤ (printPadded w x).length := by
  simp only [printPadded]
  split <;> simp only [List.length_cons, List.length_append, List.length_replicate] <;> omega

/-- As many characters as the indices have digits stand at `UID`, or more. -/
theorem le_length_uid (k : Nat) (r : Row α) : k * 4 ≤ (r.sprintfUid k).uid.length := by
  let text := (List.range k).flatMap fun i => printPadded 4 (r.long i).toInt32
  have hnul : (0 : Byte) ∉ text := fun h => by
    obtain ⟨i, -, hi⟩ := List.mem_flatMap.mp h
    exact noNul_printPadded 4 _ hi
  have huid : (r.sprintfUid k).uid.length = text.length := by
    show (CStr.before (splice r.mem 0 (text ++ [0]))).length = _
    rw [splice_zero, List.append_assoc]
    exact congrArg CStr.length (CStr.before_append ⟨text, hnul⟩ _)
  have hlen : ∀ is : List Nat,
      is.length * 4 ≤ (is.flatMap fun i => printPadded 4 (r.long i).toInt32).length := by
    intro is
    induction is with
    | nil => exact Nat.zero_le _
    | cons i is ih =>
        have hi := le_length_printPadded 4 (r.long i).toInt32
        rw [List.flatMap_cons, List.length_append, List.length_cons]
        omega
  rw [huid]
  exact Nat.le_trans (by rw [List.length_range]) (hlen (List.range k))

end Uid

/-- The room for the text of the indices, with its NUL -/
def uidSize : Nat := 9

/-- A row of a table is written within its struct. -/
def Table.RowFits (t : Table) (r : Row t.Data) : Prop := r.uid.length < uidSize ∧ t.Within r.data

/-- One or two indices fit. -/
theorem Row.Formed.uid_fits {α : Type} {k : Nat} {r : Row α} (h : r.Formed k) (hk : k ≤ 2) :
    r.uid.length < uidSize := by
  rw [CStr.length, h.2, length_tuple, Row.length_indices, uidSize]
  omega

/-- **A table with one or two indices**: only the arrays of its rows are left to look at. -/
theorem Table.wp_rowFits {t : Table} {m : Cfg (List (Row t.Data))} (ht : t.width ≤ 2)
    (hm : m.Yields fun rows => ∀ r ∈ rows, r.Formed t.width) :
    Wp m (fun rows _ => ∀ r ∈ rows, t.RowFits r) c ↔
      Wp m (fun rows _ => (∀ r ∈ rows, t.Within r.data) ∧ True) c := by
  refine (wp_and_yields hm).symm.trans (.trans (wp_congr fun rows _ => ?_) (wp_and_yields hm))
  refine and_congr_right fun hformed => ?_
  rw [and_true]
  exact forall₂_congr fun r hr => and_iff_right ((hformed r hr).uid_fits ht)

/-- Three indices never fit. -/
theorem not_rowFits {t : Table} (r : Row t.Data) : ¬ t.RowFits (r.sprintfUid 3) := by
  rintro ⟨huid, -⟩
  have hle := le_length_uid 3 r
  rw [uidSize] at huid
  omega

/-- The row is one that three indices were printed into. -/
def Tripled {α : Type} (r : Row α) : Prop := ∃ m : Row α, r = m.sprintfUid 3

/-- **A table with three indices** has to have no row. -/
theorem Table.rowFits_iff_nil {t : Table} {rows : List (Row t.Data)}
    (h : ∀ r ∈ rows, Tripled r) : (∀ r ∈ rows, t.RowFits r) ↔ rows = [] := by
  constructor
  · intro hfits
    refine List.eq_nil_iff_forall_not_mem.mpr fun r hr => ?_
    obtain ⟨m, rfl⟩ := h r hr
    exact not_rowFits m (hfits _ hr)
  · rintro rfl
    exact fun _ h => nomatch h

/-! ### The access control lists -/

theorem aclDecode_eq_nil {s : CStr} : aclDecode s = .ok [] ↔ s.length = 0 := by
  constructor
  · intro h
    by_contra hne
    rw [aclDecode, if_neg hne] at h
    split at h
    · cases h
    split at h
    · cases h
    dsimp only at h
    split at h
    · cases h
    split at h
    · cases h
    · obtain ⟨entries, -, hcons⟩ := Run.bind_eq_ok.mp h
      cases hcons
  · intro h
    rw [aclDecode, if_pos h]


theorem wp_scAclBufGet {unit bss : Nat} (hunit : unit ≤ 1)
    {Q : Option (List CfgAclEntry) → Config → Prop} :
    Wp (scAclBufGet unit bss false) Q c ↔
      ∃ entries, aclDecode (c.get (aclKey unit bss)) = .ok entries ∧ Q (some entries) c := by
  rw [scAclBufGet, if_neg (Nat.not_lt.mpr hunit), if_neg Bool.false_ne_true, wp_bind,
    wp_nvramSafeGet, wp_bind, wp_lift]
  exact exists_congr fun entries => and_congr_right fun _ => wp_pure

theorem eachRow_eq_nil {X α : Type} {f : X → Row α → Row α} {xs : List X} {n : Row α} :
    Wp (eachRow (fun x n => return f x n) xs n) (fun rows c' => rows = [] ∧ R c') c ↔
    xs = [] ∧ R c := by
  rw [Wp, eachRow_pure]
  cases xs with
  | nil => simp [fillEach]
  | cons x xs => simp [fillEach]

/-- The loop over the VAPs adds no row just where no VAP has an entry. -/
theorem wp_aclVaps (ssids : List Nat) (n : Row AcmlTblData) :
    Wp (eachRows (fun x n => do
      let pScAcl ← scAclBufGet x.1 x.2 false
      eachRow (fun entry n => return fillAcl x.1 x.2 entry n) (pScAcl.getD []).zipIdx n)
      (ssids.map fun ssid => (0, ssid)) n) (fun rows c' => rows = [] ∧ R c') c ↔
    (∀ ssid ∈ ssids, (c.get (aclKey 0 ssid)).length = 0) ∧ R c := by
  induction ssids generalizing n with
  | nil =>
      rw [List.map_nil, eachRows, wp_pure]
      simp
  | cons ssid ssids ih =>
      have hvap (R : Config → Prop) : Wp (do
          let pScAcl ← scAclBufGet 0 ssid false
          eachRow (fun entry n => return fillAcl 0 ssid entry n) (pScAcl.getD []).zipIdx n :
            Cfg (List (Row AcmlTblData))) (fun rows c' => rows = [] ∧ R c') c ↔
          (c.get (aclKey 0 ssid)).length = 0 ∧ R c := by
        rw [wp_bind, wp_scAclBufGet (Nat.zero_le 1), ← aclDecode_eq_nil]
        constructor
        · rintro ⟨entries, hdecode, hrows⟩
          obtain ⟨hnil, hR⟩ := eachRow_eq_nil.mp hrows
          rw [Option.getD_some, List.zipIdx_eq_nil_iff] at hnil
          rw [hnil] at hdecode
          exact ⟨hdecode, hR⟩
        · rintro ⟨hdecode, hR⟩
          exact ⟨[], hdecode, eachRow_eq_nil.mpr ⟨rfl, hR⟩⟩
      have hturn := wp_reading hvap (Q := fun rows => Wp (eachRows (fun x n => do
          let pScAcl ← scAclBufGet x.1 x.2 false
          eachRow (fun entry n => return fillAcl x.1 x.2 entry n) (pScAcl.getD []).zipIdx n)
          (ssids.map fun ssid => (0, ssid)) (rows.getLast?.getD n)) fun rows c' => rows = [] ∧ R c')
        fun rows _ => ih (rows.getLast?.getD n)
      rw [List.map_cons, eachRows, List.forall_mem_cons, and_assoc, ← hturn, wp_bind]
      refine wp_congr fun rows s => ?_
      rw [wp_bind, ← wp_const_and]
      refine wp_congr fun more s' => ?_
      rw [wp_pure, List.append_eq_nil_iff, and_assoc]

theorem eachRows_yields {X α : Type} {turn : X → Row α → Cfg (List (Row α))} {P : Row α → Prop}
    (h : ∀ x n, (turn x n).Yields fun rows => ∀ r ∈ rows, P r) (xs : List X) (n : Row α) :
    (eachRows turn xs n).Yields fun rows => ∀ r ∈ rows, P r := by
  induction xs generalizing n with
  | nil => exact .pure fun _ h => nomatch h
  | cons x xs ih =>
      exact (h x n).bind fun rows hrows => (ih _).bind fun more hmore =>
        .pure (List.forall_mem_append.mpr ⟨hrows, hmore⟩)

theorem aclTable_tripled :
    loadvarWlanAccessControlMACListTable.Yields fun rows => ∀ r ∈ rows, Tripled r :=
  eachRows_yields (fun _ _ => .behind fun _ =>
    eachRows_yields (fun _ _ => .pure (List.forall_mem_singleton.mpr ⟨_, rfl⟩)) _ _) _ _

theorem wp_wlanAccessControlMACListTable :
    Wp loadvarWlanAccessControlMACListTable
        (fun rows _ => ∀ r ∈ rows, Table.wlanAccessControlMACListTable.RowFits r) c ↔
      ∀ ssid ∈ vaps, (c.get (aclKey 0 ssid)).length = 0 := by
  have hrows := wp_aclVaps (R := fun _ => True) (c := c) vaps (.zeroed 3 {})
  rw [and_true] at hrows
  rw [← hrows]
  refine (wp_and_yields aclTable_tripled).symm.trans (.trans (wp_congr fun rows _ => ?_)
    (wp_and_yields aclTable_tripled))
  refine and_congr_right fun htripled => ?_
  rw [and_true]
  exact Table.rowFits_iff_nil (t := .wlanAccessControlMACListTable) htripled

/-! ### The client list -/

theorem clientVaps_tripled (d : Device) (ssids : List Nat) (n : Row WlclTblData) (count : Nat) :
    (clientVaps d 0 ssids n count).Yields fun rows => ∀ r ∈ rows, Tripled r := by
  induction ssids generalizing n count with
  | nil => exact .pure fun _ h => nomatch h
  | cons ssid ssids ih =>
      intro c rows hload
      have hvap : ∀ r ∈ vapRows c d ssid n count, Tripled r := by
        obtain ⟨hrows, -⟩ := fillEach_establishes fillNumbered ((vapShown c d ssid).zipIdx count)
          (I := fun _ => True) (P := fun _ r => Tripled r) (n := n.setLong 1 (ssid + 1))
          (fun _ _ _ _ => ⟨trivial, _, rfl⟩) trivial
        exact forall_mem_of_forall₂ (hrows.imp fun _ _ h => h)
      rw [clientVaps_cons] at hload
      refine Ending.yields_behind (F := fun rows => ∀ r ∈ rows, Tripled r) _ hvap
        ((ih _ _).mono fun more hmore => ?_) c rows hload
      exact List.forall_mem_append.mpr ⟨hvap, hmore⟩

/-- Nothing is read of the clients, and their second file within its buffer. -/
def NoClientRead (c : Config) (d : Device) : Prop :=
  Parsed.upToQuit (items c d) = [] ∧ ∀ pre post, items c d = pre ++ .overrun :: post → .quit ∈ pre

theorem wp_wlanWirelessClientListTable :
    Wp (loadvarWlanWirelessClientListTable d)
        (fun rows _ => ∀ r ∈ rows, Table.wlanWirelessClientListTable.RowFits r) c ↔
      NoClientRead c d := by
  rw [NoClientRead, ← Parsed.ending_ne_overrun_iff]
  by_cases hending : Parsed.ending (items c d) = .overrun
  · refine iff_of_false ?_ fun h => h.2 hending
    rintro ⟨rows, hload, -⟩
    have hfault := clientVaps_overrun c d vaps ((Row.zeroed 3 {}).setLong 0 1) 1 hending
    cases (congrArg Prod.fst hfault).symm.trans hload
  obtain ⟨rows, hload, hclients, -⟩ := clientVaps_eq c d vaps (by decide)
    (n := (Row.zeroed 3 {}).setLong 0 1) ⟨rfl, rfl, rfl, rfl⟩ 1 hending
  have htripled := clientVaps_tripled d vaps ((Row.zeroed 3 {}).setLong 0 1) 1 c rows
    (congrArg Prod.fst hload)
  have hnil : rows = [] ↔ Parsed.upToQuit (items c d) = [] := by
    rw [← List.map_eq_nil_iff (f := Row.client), hclients, List.map_eq_nil_iff]
    rfl
  rw [loadvarWlanWirelessClientListTable, Wp, hload, and_iff_left hending, ← hnil,
    ← Table.rowFits_iff_nil (t := .wlanWirelessClientListTable) htripled]
  constructor
  · rintro ⟨_, ⟨⟩, hfits⟩
    exact hfits
  · exact fun hfits => ⟨rows, rfl, hfits⟩

/-! ### All tables -/

/-- **What a table asks** of the settings and the reports for its rows to be written within their
structs. -/
def Table.Fits (c : Config) (d : Device) : Table → Prop
  | .wiredStatisticsTable => d.mgtBrMac.length < 20
  | .wirelessNetworkSSIDTable | .wirelessStatisticsTable =>
      ∀ ssid ∈ vaps, VapOn c ssid → (d.ifMac 0 ssid).length < 33
  | .wlanOperationTable => bridgeSize ≤ (c.get (.radio 0 .remoteBridgeMac)).mem.length ∧
      (c.get (.radio 0 .remoteMac)).length < 20
  | .wlanWirelessClientListTable => NoClientRead c d
  | .wlanSecurityTable => ∀ ssid ∈ vaps, VapOn c ssid → SecurityFits c 0 ssid
  | .wlanRadiusTable =>
      ∀ f ∈ [VapField.radiusServer, .radiusKey, .backupRadiusServer, .backupRadiusKey],
      (c.get (.vap 0 0 f)).length < 32
  | .wlanAccessControlMACListTable => ∀ ssid ∈ vaps, (c.get (aclKey 0 ssid)).length = 0
  | .wlanAccessControlTable | .wlanSettingTable | .vlanQOSTable | .wlanLegalApListTable
  | .wirelessNetworkTable => True

theorem Numbered.all_formed {α : Type} {k : Nat} {iss : List (List Nat)} {rows : List (Row α)}
    (h : Numbered k iss rows) : ∀ r ∈ rows, r.Formed k := fun r hr => (h.1 r hr).1

/-- **Every table** is loaded within its structs just where its condition holds. -/
theorem Table.loadvar_fits_iff (hc : c.Accepted) {nwlar : Row WlarTblData} (hn : nwlar.Sized 2)
    (hw : nwlar.data.Within) (t : Table) :
    Wp (t.loadvar d nwlar) (fun rows _ => ∀ r ∈ rows, t.RowFits r) c ↔ t.Fits c d := by
  have hread {t : Table} {F : Prop} (ht : t.width ≤ 2)
      (hm : (t.loadvar d nwlar).Yields fun rows => ∀ r ∈ rows, r.Formed t.width)
      (h : Wp (t.loadvar d nwlar) (fun rows _ => (∀ r ∈ rows, t.Within r.data) ∧ True) c ↔
        F ∧ True) :
      Wp (t.loadvar d nwlar) (fun rows _ => ∀ r ∈ rows, t.RowFits r) c ↔ F :=
    (Table.wp_rowFits ht hm).trans (h.trans (iff_of_eq (and_true F)))
  cases t with
  | wiredStatisticsTable =>
      exact hread (by decide) (wiredStatisticsTable_numbered.mono fun _ h => h.all_formed)
        wp_wiredStatisticsTable
  | wlanAccessControlTable =>
      exact hread (by decide) (wlanAccessControlTable_numbered.mono fun _ h => h.all_formed)
        (wp_wlanAccessControlTable.trans (and_true True).symm.to_iff)
  | wlanSettingTable =>
      exact hread (by decide) (wlanSettingTable_numbered.mono fun _ h => h.all_formed)
        ((wp_wlanSettingTable hc).trans (and_true True).symm.to_iff)
  | wirelessNetworkSSIDTable =>
      exact hread (by decide) (wirelessNetworkSSIDTable_numbered.mono fun _ h => h.all_formed)
        (wp_wirelessNetworkSSIDTable hc)
  | wlanOperationTable =>
      exact hread (by decide) (wlanOperationTable_numbered.mono fun _ h => h.all_formed)
        (wp_wlanOperationTable hc)
  | wlanWirelessClientListTable => exact wp_wlanWirelessClientListTable
  | wirelessStatisticsTable =>
      exact hread (by decide) (wirelessStatisticsTable_numbered.mono fun _ h => h.all_formed)
        wp_wirelessStatisticsTable
  | vlanQOSTable =>
      exact hread (by decide) (vlanQOSTable_numbered.mono fun _ h => h.all_formed)
        ((wp_vlanQOSTable hc).trans (and_true True).symm.to_iff)
  | wlanSecurityTable =>
      exact hread (by decide) (wlanSecurityTable_numbered.mono fun _ h => h.all_formed)
        (wp_wlanSecurityTable hc)
  | wlanRadiusTable =>
      exact hread (by decide) ((wlanRadiusTable_numbered hn).mono fun _ h => h.all_formed)
        (wp_wlanRadiusTable hc hw)
  | wlanAccessControlMACListTable => exact wp_wlanAccessControlMACListTable
  | wlanLegalApListTable =>
      exact hread (by decide) wlanLegalApListTable_formed
        ((wp_wlanLegalApListTable hc).trans (and_true True).symm.to_iff)
  | wirelessNetworkTable =>
      exact hread (by decide) (wirelessNetworkTable_numbered.mono fun _ h => h.all_formed)
        ((wp_wirelessNetworkTable hc).trans (and_true True).symm.to_iff)

end Wap4410n.Snmp
