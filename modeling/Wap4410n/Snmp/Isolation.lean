import Wap4410n.Snmp.Rows

/-!
# Snmp — what a request leaves alone

A call of a write method changes the settings of its object, and no others (`Object.keeps`), in
whatever phase.  So a run of requests changes only what it names, and the mark that WPS is
configured.

* `requests_frame`: a setting of no object of the run is as it was.
* `vap_isolated`: the requests to one VAP and the other VAPs.
* `opModeInv_requests`: what the operation mode requires holds behind any run of requests, whatever
  the order of their variables, though the checks ask for the mode before another variable changes
  it.
-/

namespace Wap4410n.Snmp

open CLib Apcfg


/-! ### Calls that keep a setting -/

section Keeps

variable {A : Type} {j k : Setting}

theorem keeps_ignore {m : Cfg A} (h : Keeps j m) : Keeps j (Act.ignore m) :=
  h.bind fun _ => .pure ()

theorem keeps_lift (r : Run Buf A) : Keeps j (Act.lift r) := fun _ => rfl

theorem keeps_setNew {X : Type} [DecidableEq X] {get : Cfg X} {x : X} {w : Cfg Unit}
    (hget : Keeps j get)
    (hw : Keeps j w) : Keeps j (setNew get x w) :=
  hget.bind fun _ => .bind (.when hw) fun _ => .pure _

theorem keeps_put (h : j ≠ k) (p : CStr) (ids : List Nat) : Keeps j (put k p ids) :=
  (keeps_scfgmgrSet h p).bind fun _ => .each fun id _ => keeps_aplSetFlag id

theorem keeps_putFlag (h : j ≠ k) (ids : List Nat) (v : Int) : Keeps j (putFlag k ids v) :=
  keeps_setNew (keeps_getFlag k) (keeps_put h _ ids)

theorem keeps_putInt (h : j ≠ k) {size : Nat} {get : Cfg Int} (hget : Keeps j get)
    (ids : List Nat) (v : Int) :
    Keeps j (putInt size get k ids v) :=
  keeps_setNew hget <| (keeps_store _ _ _).bind fun p => keeps_put h p ids

theorem keeps_putRadioInt {lo hi : Int} {get : Cfg Int} {unit : Nat} {f : RadioField}
    (h : j ≠ .radio unit f) (hget : Keeps j get) (v : Int) :
    Keeps j (putRadioInt lo hi get unit f v) :=
  .ite (.pure _) (keeps_putInt h hget _ v)

theorem keeps_putText (h : j ≠ k) {lo hi size : Nat} (ids : List Nat) (p : CStr) :
    Keeps j (putText lo hi size k ids p) :=
  .ite (.pure _) (keeps_setNew (keeps_getText size k) (keeps_put h p ids))

theorem keeps_putAddr (h : j ≠ k) (ids : List Nat) (x : InAddr) : Keeps j (putAddr k ids x) :=
  keeps_setNew (fun _ => rfl) (keeps_put h _ ids)

/-- The copies of a shared setting. -/
theorem keeps_setOnVaps {unit : Nat} {f : VapField} (h : ∀ i ∈ vaps, j ≠ .vap unit i f) (p : CStr) :
    Keeps j (setOnVaps unit f p) :=
  .each fun i hi => keeps_scfgmgrSet (h i hi) p

variable {unit bss : Nat} {f : VapField}

theorem keeps_setSharedText (hw : j ≠ .sys .wscConfigured) (h : ∀ i ∈ vaps, j ≠ .vap unit i f)
    {lo hi getSize : Nat} (p : CStr) :
    Keeps j (setSharedText lo hi getSize f unit bss p) := by
  refine .ite (.pure _) ((keeps_getText _ _).bind fun _ => .bind (.when ?_) fun _ => .pure _)
  exact (keeps_setOnVaps h p).bind fun _ => (keeps_aplSetFlag _).bind
    fun _ => keeps_wscConfigured hw

theorem keeps_setPort (hw : j ≠ .sys .wscConfigured) (h : ∀ i ∈ vaps, j ≠ .vap unit i f) (v : Int) :
    Keeps j (setPort f unit bss v) := by
  refine .ite (.pure _) ((keeps_getNumber _ _).bind fun _ => .bind (.when ?_) fun _ => .pure _)
  exact (keeps_store _ _ _).bind fun p => (keeps_setOnVaps h p).bind fun _ =>
    (keeps_aplSetFlag _).bind fun _ => keeps_wscConfigured hw

theorem keeps_setSharedNumber (hw : j ≠ .sys .wscConfigured) (h : ∀ i ∈ vaps, j ≠ .vap unit i f)
    (v : Int) : Keeps j (setSharedNumber f unit bss v) := by
  refine (keeps_getNumber _ _).bind fun _ => .bind (.when ?_) fun _ => .pure _
  refine .bind (.each fun i hi => ?_) fun _ => ?_
  · exact (keeps_store _ _ _).bind fun p => (keeps_scfgmgrSet (h i hi) p).bind
      fun _ => keeps_aplSetFlag _
  · exact keeps_wscConfigured hw

theorem keeps_apCfgKeyValSet {keyId : Nat} (h : ∀ i ∈ vaps, j ≠ .vap unit i (.key keyId))
    (p : CStr) :
    Keeps j (apCfgKeyValSet unit bss keyId p) := by
  refine .ite (.pure _)
    ((keeps_getText _ _).bind fun _ => .bind (.when (.each fun i hi => ?_)) fun _ => .pure _)
  exact (keeps_scfgmgrSet (h i hi) p).bind fun _ => keeps_aplSetFlag _

theorem keeps_apCfgAclAdd (h : j ≠ aclKey unit bss) (pMac pName : CStr) (used : Int) :
    Keeps j (apCfgAclAdd unit bss pMac pName used) := by
  refine (keeps_lift _).bind fun _ => .ite (.pure _) ((keeps_nvramSafeGet _).bind fun full => ?_)
  refine (keeps_lift _).bind fun found => ?_
  have hstore {finalValue : CStr} : Keeps j (do
      scfgmgrSet (aclKey unit bss) finalValue
      aplSetFlag (aplVap unit bss)
      return Status.ok) :=
    (keeps_scfgmgrSet h _).bind fun _ => (keeps_aplSetFlag _).bind fun _ => .pure _
  cases found with
  | found before unitEnd =>
      exact (keeps_store _ _ _).bind fun _ => (keeps_store _ _ _).bind fun _ => hstore
  | absent count =>
      exact .ite (.pure _)
        ((keeps_store _ _ _).bind fun _ => (keeps_store _ _ _).bind fun _ => hstore)

theorem keeps_scApCfgLegalApListSet (h : j ≠ legalKey) (p : CStr) :
    Keeps j (scApCfgLegalApListSet p) := by
  refine .ite (.pure _) (.bind ?_ fun _ => .bind (.when ?_) fun _ => .pure _)
  · exact keeps_getText _ _
  · exact (keeps_scfgmgrSet h p).bind fun _ => keeps_aplSetFlag _

theorem keeps_apCfgRemoteWbrMacAddrSet (h : j ≠ .radio unit .remoteBridgeMac) (index : Nat)
    (p : CStr) :
    Keeps j (apCfgRemoteWbrMacAddrSet unit index p) := by
  refine (keeps_nvramSafeGet _).bind fun full => .bind ?_ fun _ => .bind (.when (keeps_put h _ _))
    fun _ => .pure _
  exact .ite (.pure _) fun _ => rfl

end Keeps

/-! ### Methods that keep a setting -/

section Methods

variable {I : Config → Prop} {j : Setting} {store : VarBind → Cfg Unit}

theorem preserves_ignore {A : Type} {m : Cfg A} (h : Act.Preserves I m) :
    Act.Preserves I (Act.ignore m) :=
  h.bind fun _ => .pure ()

theorem preserves_writeRow {check : VarBind → Cfg SnmpErr} (hcheck : ∀ v, Act.Preserves I (check v))
    (hput : ∀ v, Act.Preserves I (store v)) (v : VarBind) (a : Action) :
    Act.Preserves I (writeRow check store v a) := by
  cases a with
  | reserve1 => exact hcheck v
  | action => exact (hput v).bind fun _ => .pure _
  | commit => exact Act.Preserves.bind (.pure _) fun _ => .pure _
  | reserve2 | free | undo => exact .pure _

theorem preserves_writeValue {check : VarBind → SnmpErr} (hput : ∀ v, Act.Preserves I (store v))
    (v : VarBind)
    (a : Action) : Act.Preserves I (writeValue check store v a) := by
  cases a with
  | reserve1 => exact .pure _
  | action => exact (hput v).bind fun _ => .pure _
  | commit => exact Act.Preserves.bind (.pure _) fun _ => .pure _
  | reserve2 | free | undo => exact .pure _

theorem preserves_writeLong {inRange : Int → Bool} {put : Int → Cfg Unit}
    (h : ∀ x, Act.Preserves I (put x))
    (v : VarBind) (a : Action) : Act.Preserves I (writeLong inRange put v a) :=
  preserves_writeValue (fun _ => h _) v a

theorem keeps_writeRow {check : VarBind → Cfg SnmpErr} (hcheck : ∀ v, Keeps j (check v))
    (hput : ∀ v, Keeps j (store v)) (v : VarBind) (a : Action) :
    Keeps j (writeRow check store v a) :=
  .of_preserves fun p => preserves_writeRow (fun v => (hcheck v).preserves p)
    (fun v => (hput v).preserves p) v a

theorem keeps_writeValue {check : VarBind → SnmpErr} (hput : ∀ v, Keeps j (store v)) (v : VarBind)
    (a : Action) :
    Keeps j (writeValue check store v a) :=
  .of_preserves fun p => preserves_writeValue (fun v => (hput v).preserves p) v a

theorem keeps_writeLong {inRange : Int → Bool} {put : Int → Cfg Unit} (h : ∀ x, Keeps j (put x))
    (v : VarBind)
    (a : Action) : Keeps j (writeLong inRange put v a) := keeps_writeValue (fun _ => h _) v a

theorem keeps_writeFlag {set : Int → Cfg Status} (h : ∀ x, Keeps j (set x)) (v : VarBind)
    (a : Action) :
    Keeps j (writeFlag set v a) := keeps_writeLong (fun x => keeps_ignore (h x)) v a

theorem keeps_writeCheckedFlag {set : Int → Cfg Status} (h : ∀ x, Keeps j (set x)) (v : VarBind)
    (a : Action) :
    Keeps j (writeCheckedFlag set v a) := keeps_writeLong (fun x => .when (keeps_ignore (h x))) v a

theorem keeps_copyOctets (size : Nat) (v : VarBind) : Keeps j (copyOctets size v) :=
  .ite (.pure _) fun _ => rfl

theorem keeps_writeValidText {lo hi : Nat} {valid : CStr → Bool} {set : CStr → Cfg Status}
    (h : ∀ p, Keeps j (set p)) (v : VarBind) (a : Action) :
    Keeps j (writeValidText lo hi valid set v a) :=
  keeps_writeValue (fun v => (keeps_copyOctets _ v).bind fun p => keeps_ignore (h p)) v a

theorem keeps_writeAddr {valid : InAddr → Bool} {set : InAddr → Cfg Status}
    (h : ∀ x, Keeps j (set x))
    (v : VarBind) (a : Action) : Keeps j (writeAddr valid set v a) :=
  keeps_writeValue (fun v => keeps_ignore (h v.word)) v a

theorem keeps_andThen {status : SnmpErr} {next : Cfg SnmpErr} (h : Keeps j next) :
    Keeps j (andThen status next) := .ite (.pure _) h

theorem keeps_onlyAp (unit vap : Nat) : Keeps j (onlyAp unit vap) :=
  .ite (.pure _) ((keeps_getEnum _ _).bind fun _ => .pure _)

theorem keeps_writeVapLong {inRange : Int → Bool} {vap : Nat} {put : Int → Cfg Unit}
    (h : ∀ x, Keeps j (put x))
    (v : VarBind) (a : Action) : Keeps j (writeVapLong inRange vap put v a) :=
  keeps_writeRow (fun _ => keeps_andThen (keeps_onlyAp 0 vap)) (fun _ => h _) v a

end Methods

/-! ### Objects that keep a setting -/

section Objects

variable {j : Setting}

theorem keeps_fault {A : Type} (e : Fault Buf) : Keeps j (Act.fault e : Cfg A) := fun _ => rfl

theorem keeps_writeLanIPv4DhcpClientMode (h : j ≠ .sys .lanDhcpc) (h' : j ≠ .sys .lanDhcp6c)
    (v : VarBind)
    (a : Action) : Keeps j (writeLanIPv4DhcpClientMode v a) := by
  refine keeps_writeLong (fun x => ?_) v a
  exact Keeps.when
    ((keeps_ignore (keeps_putFlag h _ x)).bind fun _ => keeps_ignore (keeps_putFlag h' _ x))

theorem keeps_writeUserName (h : j ≠ .sys .loginUsername) (v : VarBind) (a : Action) :
    Keeps j (writeUserName v a) := by
  refine keeps_writeValue (fun v => ?_) v a
  exact Keeps.when ((keeps_copyOctets 64 v).bind fun p => keeps_ignore (keeps_putText h _ p))

theorem keeps_writeHostName (stack : Nat → Byte) (h : j ≠ .sys .sysName) (v : VarBind)
    (a : Action) :
    Keeps j (writeHostName stack v a) := by
  refine keeps_writeValue (fun v => ?_) v a
  have hset (p : CStr) : Keeps j (Act.ignore (apCfgSysNameSet p)) :=
    keeps_ignore (keeps_putText h _ p)
  exact Keeps.ite (.bind (keeps_fault _) hset) (.bind (keeps_lift _) hset)

theorem keeps_writeEth1xSuppMac (h : j ≠ .sys .ethSuppMac) (v : VarBind) (a : Action) :
    Keeps j (writeEth1xSuppMac v a) := by
  refine keeps_writeLong (fun x => ?_) v a
  exact keeps_ignore (keeps_putFlag h _ _)

/-- The method of a number whose setter checks it, too. -/
theorem keeps_writeNumber {inRange : Int → Bool} {outside : Int → Prop} [DecidablePred outside]
    {size : Nat}
    {get : Cfg Int} (hget : Keeps j get) {k : Setting} (h : j ≠ k) {ids : List Nat} (v : VarBind)
    (a : Action) :
    Keeps j (writeLong inRange (fun v => Act.ignore
      (if outside v then return .error else putInt size get k ids v)) v a) :=
  keeps_writeLong (fun x => keeps_ignore (.ite (.pure _) (keeps_putInt h hget ids x))) v a

/-- A scalar object. -/
theorem Scalar.keeps (stack : Nat → Byte) {s : Scalar} (hj : j ∉ (s.spec stack).settings)
    (v : VarBind)
    (a : Action) : Keeps j (s.write stack v a) := by
  have hne {k : Setting} (hk : k ∈ (s.spec stack).settings) : j ≠ k :=
    (ne_of_mem_of_not_mem hk hj).symm
  cases s with
  | timeDaylightSaving | snmpTrustedAny =>
      exact keeps_writeCheckedFlag (keeps_putFlag (hne List.mem_cons_self) _) v a
  | timeSetMode | ntpMode =>
      exact keeps_writeFlag (keeps_putInt (hne List.mem_cons_self) (fun _ => rfl) _) v a
  | lanIPv4DhcpClientMode =>
      exact keeps_writeLanIPv4DhcpClientMode (hne List.mem_cons_self)
        (hne (List.mem_cons_of_mem _ List.mem_cons_self)) v a
  | httpsMode =>
      have hsecond : j ≠ _ := hne (List.mem_cons_of_mem _ List.mem_cons_self)
      exact keeps_writeLong
        (fun x => (keeps_ignore (keeps_putFlag (hne List.mem_cons_self) _ x)).bind fun _ =>
          keeps_ignore (keeps_putFlag hsecond _ x)) v a
  | eth1xSuppMac => exact keeps_writeEth1xSuppMac (hne List.mem_cons_self) v a
  | defaultVlanId | managementVlanId | emailQueueLength | emailSendPeriod =>
      exact keeps_writeNumber (fun _ => rfl) (hne List.mem_cons_self) v a
  | timeTimeZone =>
      exact keeps_writeLong (fun _ => keeps_ignore (keeps_putText (hne List.mem_cons_self) _ _)) v a
  | userName => exact keeps_writeUserName (hne List.mem_cons_self) v a
  | hostName => exact keeps_writeHostName stack (hne List.mem_cons_self) v a
  | emailAlertAddress | httpRedirectURL | snmpContact | password | deviceName | snmpCommunityGet
  | snmpLocation | ntpServer | eth1xSuppName | eth1xSuppPwd | snmpDeviceName | snmpTrapCommunity
  | snmpCommunitySet => exact keeps_writeValidText (keeps_putText (hne List.mem_cons_self) _) v a
  | snmpTrapDestIP | lanIPv4Netmask | lanIPv4Gateway | lanIPv4Address =>
      exact keeps_writeAddr (keeps_putAddr (hne List.mem_cons_self) _) v a
  | syslogServer | lanIPv4PrimaryDns | lanIPv4SecondaryDns =>
      exact keeps_writeAddr (fun _ => keeps_putText (hne List.mem_cons_self) _ _) v a
  | _ => exact keeps_writeFlag (keeps_putFlag (hne List.mem_cons_self) _) v a

/-- A bound of the managers. -/
theorem Bound.keeps {b : Bound} (hj : j ≠ b.setting) (v : Value) (a : Action) :
    Keeps j (b.write v a) := by
  have hbound {other : Cfg InAddr} {outside : Nat → Nat → Bool} {set : InAddr → Cfg Status}
      (hother : Keeps j other) (hset : ∀ x, Keeps j (set x)) :
        Keeps j (writeBound other outside set v a) := by
    cases a with
    | reserve1 =>
        exact .ite (.pure _) (.ite (.pure _) (.ite (.pure _) (hother.bind fun _ => .pure _)))
    | action => exact (keeps_ignore (hset _)).bind fun _ => .pure _
    | commit => exact Keeps.bind (.pure _) fun _ => .pure _
    | reserve2 | free | undo => exact .pure _
  cases b with
  | start => exact hbound (fun _ => rfl) (keeps_putAddr hj _)
  | «end» => exact hbound (fun _ => rfl) (keeps_putAddr hj _)

theorem RemoteMac.keeps (hj : j ≠ .radio 0 .remoteBridgeMac) (h : RemoteMac) (v : OctetString)
    (a : Action) :
    Keeps j (h.write 0 v a) := by
  have hmac {index : Nat} {commit : Cfg Unit} (hcommit : Keeps j commit) :
      Keeps j (writeRemoteMac index commit 0 v a) := by
    cases a with
    | reserve1 => exact .ite (.pure _) (.ite (.pure _) (keeps_lift _))
    | action =>
        refine (keeps_lift _).bind fun mac => .bind ?_ fun _ => .pure _
        exact .ite (keeps_ignore (keeps_apCfgRemoteWbrMacAddrSet hj _ _)) <|
          .ite (keeps_ignore (keeps_apCfgRemoteWbrMacAddrSet hj _ _))
            (keeps_ignore (keeps_apCfgRemoteWbrMacAddrSet hj _ _))
    | commit => exact hcommit.bind fun _ => .pure _
    | reserve2 | free | undo => exact .pure _
  cases h with
  | bridge4 => exact hmac (.pure ())
  | _ => exact hmac (.pure ())

theorem keeps_writeRemoteAp (hj : j ≠ .radio 0 .remoteMac) (v : VarBind) (a : Action) :
    Keeps j (writeRemoteAp 0 v a) := by
  have hset (p : CStr) : Keeps j (Act.ignore (apCfgRemoteApMacAddrSet 0 p)) :=
    keeps_ignore <| keeps_setNew ((keeps_nvramSafeGet _).bind fun p => keeps_store _ _ p)
      (keeps_put hj _ _)
  exact keeps_writeRow (fun _ => .ite (.pure _) (.ite (.pure _) (keeps_lift _)))
    (fun _ => (keeps_lift _).bind fun _ => .ite (hset _) (.ite (hset _) (hset _))) v a

theorem keeps_apCfgActiveModeSet {bss : Nat} (h : j ≠ .vap 0 bss .state) (v : Int) :
    Keeps j (apCfgActiveModeSet 0 bss v) := by
  intro c
  rw [apCfgActiveModeSet_eq]
  split
  · rfl
  · exact keeps_setFlag h _ _ c

theorem keeps_apCfgChannelWidthModeSet (h : j ≠ .radio 0 .channelWidth)
    (hw : j ≠ .sys .wscConfigured)
    (v : Int) : Keeps j (apCfgChannelWidthModeSet 0 v) :=
  (keeps_getEnum _ _).bind fun _ => keeps_setEnum h hw _ _ _ _

theorem keeps_apCfgInterVapForwardingSet (h : j ≠ .radio 0 .isolation) (v : Int) :
    Keeps j (apCfgInterVapForwardingSet 0 v) :=
  (keeps_getEnum _ _).bind fun _ => keeps_setFlag h _ _

theorem keeps_apCfgOpModeSet (hj : j ∉ RadioObject.operationMode.settings)
    (hw : j ≠ .sys .wscConfigured)
    (v : Int) : Keeps j (apCfgOpModeSet 0 v) := by
  have hne {k : Setting} (hk : k ∈ RadioObject.operationMode.settings) : j ≠ k :=
    (ne_of_mem_of_not_mem hk hj).symm
  have hstate (vap : Nat) (hvap : vap ∈ vaps.tail) (v : Int) :
      Keeps j (apCfgActiveModeSet 0 vap v) :=
    keeps_apCfgActiveModeSet (hne (List.mem_append_right _ (List.mem_map_of_mem hvap))) v
  have hauth (v : Int) : Keeps j (apCfgAuthTypeSet 0 0 v) :=
    keeps_apCfgAuthTypeSet (hne (by decide)) hw v
  have hwidth (v : Int) : Keeps j (apCfgChannelWidthModeSet 0 v) :=
    keeps_apCfgChannelWidthModeSet (hne (by decide)) hw v
  have hforward (v : Int) : Keeps j (apCfgInterVapForwardingSet 0 v) :=
    keeps_apCfgInterVapForwardingSet (hne (by decide)) v
  have hcorrect : Keeps j (correctSettings 0 v) := by
    refine .bind (.each fun vap hvap => (hstate vap hvap 0).bind fun _ => .pure _) fun _ => ?_
    refine .bind (.when ((keeps_getEnum _ _).bind fun _ => .when ((hauth _).bind fun _ => .pure _)))
      fun _ => ?_
    refine .bind (.when ((hwidth 0).bind fun _ => .pure _)) fun _ => ?_
    exact .when ((hforward 0).bind fun _ => .pure _)
  have hactivate : Keeps j (activateVaps 0) :=
    .each fun vap hvap => (keeps_getText _ _).bind
      fun _ => .when ((hstate vap hvap 1).bind fun _ => .pure _)
  refine (keeps_getEnum _ _).bind fun _ => .bind (.when (.bind (.when hcorrect) fun _ => ?_))
    fun _ => .pure _
  exact (keeps_scfgmgrSet (hne (by decide)) _).bind fun _ => (keeps_aplSetFlag _).bind
    fun _ => .when hactivate

theorem keeps_writeWirelessMode (h : j ≠ .radio 0 .state) (h' : j ≠ .radio 0 .mode)
    (hw : j ≠ .sys .wscConfigured) (v : VarBind) (a : Action) :
    Keeps j (writeWirelessMode 0 v a) := by
  have hstate (x : Int) : Keeps j (Act.ignore (apCfgWlanStateSet 0 x)) :=
    keeps_ignore (keeps_putFlag h _ x)
  have hspec (x : Int) : Keeps j (Act.ignore (apCfgFreqSpecSet 0 x)) :=
    keeps_ignore (keeps_setEnum h' hw _ _ _ x)
  refine keeps_writeLong (fun x => .bind (.when (hstate 1)) fun _ => ?_) v a
  exact .ite (hstate x)
    (.ite (hspec _) (.ite (hspec _) (.ite (hspec _) (.ite (hspec _) (.when (hspec _))))))

theorem keeps_writeChannel (h : j ∉ RadioObject.channel.settings) (maxChannel : Int) (v : VarBind)
    (a : Action) :
    Keeps j (writeChannel maxChannel 0 v a) := by
  have hne {k : Setting} (hk : k ∈ RadioObject.channel.settings) : j ≠ k :=
    (ne_of_mem_of_not_mem hk h).symm
  have hoffset (p : CStr) : Keeps j (apCfgChannelOffsetSet 0 p) :=
    .ite (.pure _) (keeps_setNew (keeps_getText _ _) (keeps_put (hne (by decide)) p _))
  have hchannel (x : Int) : Keeps j (apCfgRadioChannelSet 0 x) := by
    refine .ite (.pure _)
      (keeps_setNew (keeps_getNumber _ _) ((keeps_store _ _ _).bind fun p => ?_))
    exact (keeps_put (hne (by decide)) p _).bind fun _ => keeps_ignore (hoffset _)
  refine keeps_writeLong
    (fun x => .bind (keeps_ignore ?_) fun _ => .when (keeps_ignore (hchannel x))) v a
  exact keeps_putFlag (hne (by decide)) _ _

theorem keeps_writeChannelBandwidth (h : j ≠ .radio 0 .channelWidth) (hw : j ≠ .sys .wscConfigured)
    (v : VarBind) (a : Action) : Keeps j (writeChannelBandwidth 0 v a) := by
  refine keeps_writeRow (fun v => keeps_andThen ?_) (fun v => ?_) v a
  · exact .ite (.pure _) ((keeps_getEnum _ _).bind fun _ => .pure _)
  · exact Keeps.when (keeps_ignore (keeps_apCfgChannelWidthModeSet h hw _))

theorem keeps_writeRegion (h : j ≠ .sys .sysDomain) (h' : j ≠ .radio 0 .channelWidth)
    (hw : j ≠ .sys .wscConfigured) (countries : List Int) (known : Int → Bool) (v : VarBind)
    (a : Action) :
    Keeps j (writeRegion countries known v a) := by
  refine keeps_writeLong
    (fun x => keeps_ignore (.ite (.pure _) (keeps_setNew (fun _ => rfl) ?_))) v a
  refine (keeps_store _ _ _).bind fun p => (keeps_put h p _).bind fun _ => .when (keeps_ignore ?_)
  exact keeps_apCfgChannelWidthModeSet h' hw _

theorem keeps_writeRogueApType (h : j ≠ .sys .rogueType) (v : VarBind) (a : Action) :
    Keeps j (writeRogueApType v a) :=
  keeps_writeLong (fun x => keeps_ignore (.ite (keeps_putInt h (fun _ => rfl) _ x) (.pure _))) v a

/-- An object of the radio. -/
theorem RadioObject.keeps (env : Surroundings) {o : RadioObject} (hw : j ≠ .sys .wscConfigured)
    (hj : j ∉ o.settings) (v : VarBind) (a : Action) : Keeps j (o.write env v a) := by
  have hne {k : Setting} (hk : k ∈ o.settings) : j ≠ k := (ne_of_mem_of_not_mem hk hj).symm
  have hthreshold {lo hi : Int} {get : Cfg Int} {f : RadioField} {inRange : Int → Bool}
      (hf : j ≠ .radio 0 f) (hget : Keeps j get) :
      Keeps j (writeLong inRange (fun v => Act.ignore (putRadioInt lo hi get 0 f v)) v a) :=
    keeps_writeLong (fun x => keeps_ignore (keeps_putRadioInt hf hget x)) v a
  cases o with
  | wirelessMode =>
      exact keeps_writeWirelessMode (hne List.mem_cons_self)
        (hne (List.mem_cons_of_mem _ List.mem_cons_self)) hw v a
  | channel => exact keeps_writeChannel hj env.maxChannel v a
  | channelBandwidth => exact keeps_writeChannelBandwidth (hne List.mem_cons_self) hw v a
  | region =>
      exact keeps_writeRegion (hne List.mem_cons_self)
        (hne (List.mem_cons_of_mem _ List.mem_cons_self)) hw _ _ v a
  | dot11dMode => exact keeps_writeFlag (keeps_putFlag (hne List.mem_cons_self) _) v a
  | guardInterval =>
      exact keeps_writeRow (fun _ => keeps_andThen ((keeps_getEnum _ _).bind fun _ => .pure _))
        (fun _ => keeps_ignore (keeps_setEnum (hne List.mem_cons_self) hw _ _ _ _)) v a
  | ctsProtectionMode =>
      exact keeps_writeFlag (keeps_putInt (hne List.mem_cons_self) (fun _ => rfl) _) v a
  | beaconInterval => exact hthreshold (hne List.mem_cons_self) fun _ => rfl
  | dtimInterval | rtsThreshold | fragmentationThreshold =>
      exact hthreshold (hne List.mem_cons_self) (keeps_getNumber _ _)
  | isolationBetweenSSID =>
      exact keeps_writeFlag (keeps_apCfgInterVapForwardingSet (hne List.mem_cons_self)) v a
  | operationMode =>
      exact keeps_writeLong (fun x => keeps_ignore (keeps_apCfgOpModeSet hj hw x)) v a
  | remoteAPSSID =>
      exact keeps_writeValidText
        (fun p => .ite (.pure _) (keeps_setText (hne List.mem_cons_self) hw _ _ p)) v a
  | rogueApType => exact keeps_writeRogueApType (hne List.mem_cons_self) v a
  | remoteAPMacAddress | remoteAPMac => exact keeps_writeRemoteAp (hne List.mem_cons_self) v a
  | remoteMac h => exact h.keeps (hne List.mem_cons_self) _ a

/-! The objects of a VAP, each with the field that is its own or that it shares. -/

variable {vap : Nat}

theorem keeps_writeSsid (h : j ≠ .vap 0 vap .ssid) (h' : j ≠ .vap 0 vap .state)
    (hw : j ≠ .sys .wscConfigured)
    (v : VarBind) (a : Action) : Keeps j (writeSsid 0 vap v a) := by
  refine keeps_writeRow (fun v => keeps_andThen (keeps_onlyAp 0 vap)) (fun v => ?_) v a
  have hssid (p : CStr) : Keeps j (apCfgSsidSet 0 vap p) :=
    .ite (.pure _) (keeps_setText h hw _ _ p)
  exact Keeps.when
    ((keeps_ignore (hssid _)).bind fun _ => keeps_ignore (keeps_apCfgActiveModeSet h' 1))

theorem keeps_writeSecurityMode (h : j ≠ .vap 0 vap .authMode) (hw : j ≠ .sys .wscConfigured)
    (v : VarBind) (a : Action) : Keeps j (writeSecurityMode 0 vap v a) := by
  refine keeps_writeRow (fun v => keeps_andThen ?_) (fun v => ?_) v a
  · exact (keeps_onlyAp 0 vap).bind
      fun _ => keeps_andThen ((keeps_getEnum _ _).bind fun _ => .pure _)
  · exact Keeps.when (keeps_ignore (keeps_apCfgAuthTypeSet h hw _))

theorem keeps_writeWepKeyLength (h : ∀ i ∈ vaps, j ≠ .vap 0 i .keyLength)
    (hw : j ≠ .sys .wscConfigured)
    (v : VarBind) (a : Action) : Keeps j (writeWepKeyLength 0 vap v a) := by
  refine keeps_writeRow (fun v => ?_) (fun v => ?_) v a
  · exact .ite (.pure _) (.ite (.pure _) (keeps_onlyAp 0 vap))
  · exact Keeps.when (keeps_ignore (.ite (.pure _) (keeps_setSharedNumber hw h _)))

theorem keeps_writeWepKey {keyId : Nat} (h : ∀ i ∈ vaps, j ≠ .vap 0 i (.key keyId)) (v : VarBind)
    (a : Action) :
    Keeps j (writeWepKey keyId 0 vap v a) := by
  refine keeps_writeRow (fun v => ?_) (fun v => ?_) v a
  · exact .ite (.pure _) (.ite (.pure _) (.ite (.pure _) (keeps_onlyAp 0 vap)))
  · exact Keeps.when (keeps_ignore (keeps_apCfgKeyValSet h _))

theorem keeps_writeWpaPSK (h : j ≠ .vap 0 vap .passphrase) (hw : j ≠ .sys .wscConfigured)
    (v : VarBind) (a : Action) : Keeps j (writeWpaPSK 0 vap v a) := by
  refine keeps_writeRow (fun v => keeps_andThen (keeps_onlyAp 0 vap)) (fun v => ?_) v a
  exact Keeps.when (keeps_ignore (.ite (.pure _) (keeps_setText h hw _ _ _)))

theorem keeps_writeProfileVlan (h : j ≠ .vap 0 vap .vid) (hw : j ≠ .sys .wscConfigured)
    (v : VarBind)
    (a : Action) : Keeps j (writeProfileVlan 0 vap v a) := by
  refine keeps_writeLong (fun x => ?_) v a
  exact Keeps.when (keeps_ignore (.ite (.pure _) (keeps_setNumber h hw _ _ _ _ _)))

theorem keeps_writeWepKeyIndex (h : j ≠ .vap 0 vap .defaultKey) (hw : j ≠ .sys .wscConfigured)
    (v : VarBind) (a : Action) : Keeps j (writeWepKeyIndex 0 vap v a) :=
  keeps_writeVapLong (fun x => keeps_ignore (.ite (keeps_setNumber h hw _ _ _ _ x) (.pure _))) v a

theorem keeps_writeWpaKeyRenewal (h : j ≠ .vap 0 vap .rekeyInterval) (hw : j ≠ .sys .wscConfigured)
    (v : VarBind) (a : Action) : Keeps j (writeWpaKeyRenewal 0 vap v a) := by
  refine keeps_writeVapLong (fun x => ?_) v a
  exact Keeps.when (keeps_ignore (.ite (.pure _) (keeps_setNumber h hw _ _ _ _ x)))

theorem keeps_writeSsidBroadcastMode (h : j ≠ .vap 0 vap .broabcast) (v : VarBind) (a : Action) :
    Keeps j (writeSsidBroadcastMode 0 vap v a) := by
  refine keeps_writeVapLong (fun x => ?_) v a
  exact Keeps.when (keeps_ignore (keeps_setFlag h _ _))

theorem keeps_writeSsidIsolationWithinSSID (h : j ≠ .vap 0 vap .isolation) (v : VarBind)
    (a : Action) :
    Keeps j (writeSsidIsolationWithinSSID 0 vap v a) := by
  refine keeps_writeVapLong (fun x => ?_) v a
  exact Keeps.when (keeps_ignore (keeps_setFlag h _ x))

/-- The address of a server, which becomes the name server, too. -/
theorem keeps_writeServer {f : VapField} (h : ∀ i ∈ vaps, j ≠ .vap 0 i f) (h' : j ≠ .sys .lanDns1)
    (hw : j ≠ .sys .wscConfigured) {lo hi size least : Nat} (v : VarBind) (a : Action) :
    Keeps j (writeValue (checkAddr least) (fun v => do
      Act.ignore (apCfgNameSrvSet (inetNtoa v.word))
      Act.ignore (setSharedText lo hi size f 0 vap (inetNtoa v.word))) v a) :=
  keeps_writeValue (fun _ => (keeps_ignore (keeps_putText h' _ _)).bind fun _ =>
    keeps_ignore (keeps_setSharedText hw h _)) v a

theorem keeps_writePort {f : VapField} (h : ∀ i ∈ vaps, j ≠ .vap 0 i f)
    (hw : j ≠ .sys .wscConfigured)
    {inRange : Int → Bool} (v : VarBind) (a : Action) :
    Keeps j (writeLong inRange (fun v => Act.ignore (setPort f 0 vap v)) v a) :=
  keeps_writeLong (fun x => keeps_ignore (keeps_setPort hw h x)) v a

theorem keeps_writeSecret {f : VapField} (h : ∀ i ∈ vaps, j ≠ .vap 0 i f)
    (hw : j ≠ .sys .wscConfigured)
    {lo hi size lo' hi' : Nat} (v : VarBind) (a : Action) :
    Keeps j (writeText lo' hi' (setSharedText lo hi size f 0 vap) v a) :=
  keeps_writeValidText (fun p => keeps_setSharedText hw h p) v a

/-- An object of a VAP. -/
theorem VapObject.keeps {o : VapObject} (hw : j ≠ .sys .wscConfigured)
    (hown : ∀ f ∈ o.own, j ≠ .vap 0 vap f) (hshared : ∀ f ∈ o.shared, ∀ i ∈ vaps, j ≠ .vap 0 i f)
    (hsystem : ∀ f ∈ o.system, j ≠ .sys f) (v : VarBind) (a : Action) :
    Keeps j (o.write vap v a) := by
  cases o with
  | accessControlMode =>
      exact keeps_writeLong
        (fun x => keeps_ignore (keeps_setEnum (hown _ List.mem_cons_self) hw _ _ _ x)) v a
  | localMacMode => exact keeps_writeFlag (keeps_setEnum (hown _ List.mem_cons_self) hw _ _ _) v a
  | profileVlan => exact keeps_writeProfileVlan (hown _ List.mem_cons_self) hw v a
  | profilePriority =>
      exact keeps_writeLong
        (fun x => keeps_ignore (keeps_setNumber (hown _ List.mem_cons_self) hw _ _ _ _ x)) v a
  | profileWMM =>
      exact keeps_writeVapLong
        (fun x => keeps_ignore (keeps_setFlag (hown _ List.mem_cons_self) _ x)) v a
  | ssid =>
      exact keeps_writeSsid (hown _ List.mem_cons_self)
        (hown _ (List.mem_cons_of_mem _ List.mem_cons_self)) hw v a
  | ssidBroadcastMode => exact keeps_writeSsidBroadcastMode (hown _ List.mem_cons_self) v a
  | ssidIsolationWithinSSID =>
      exact keeps_writeSsidIsolationWithinSSID (hown _ List.mem_cons_self) v a
  | securityMode => exact keeps_writeSecurityMode (hown _ List.mem_cons_self) hw v a
  | wepKeyIndex => exact keeps_writeWepKeyIndex (hown _ List.mem_cons_self) hw v a
  | wepKeyLength => exact keeps_writeWepKeyLength (hshared _ List.mem_cons_self) hw v a
  | wepKey1 => exact keeps_writeWepKey (hshared _ List.mem_cons_self) v a
  | wepKey2 => exact keeps_writeWepKey (hshared _ List.mem_cons_self) v a
  | wepKey3 => exact keeps_writeWepKey (hshared _ List.mem_cons_self) v a
  | wepKey4 => exact keeps_writeWepKey (hshared _ List.mem_cons_self) v a
  | wpaPSK => exact keeps_writeWpaPSK (hown _ List.mem_cons_self) hw v a
  | wpaKeyRenewal => exact keeps_writeWpaKeyRenewal (hown _ List.mem_cons_self) hw v a
  | radiusAuthPrimaryServerIP =>
      exact keeps_writeServer (hshared _ List.mem_cons_self) (hsystem _ List.mem_cons_self) hw v a
  | radiusAuthPrimaryServerPort => exact keeps_writePort (hshared _ List.mem_cons_self) hw v a
  | radiusAuthPrimaryServerKey => exact keeps_writeSecret (hshared _ List.mem_cons_self) hw v a
  | radiusAuthSecondaryServerIP =>
      exact keeps_writeServer (hshared _ List.mem_cons_self) (hsystem _ List.mem_cons_self) hw v a
  | radiusAuthSecondaryServerPort => exact keeps_writePort (hshared _ List.mem_cons_self) hw v a
  | radiusAuthSecondaryServerKey => exact keeps_writeSecret (hshared _ List.mem_cons_self) hw v a

theorem keeps_writeAclMac {row : Nat} (h : j ≠ aclKey row 0) (v : VarBind) (a : Action) :
    Keeps j (writeAclMac row v a) :=
  keeps_writeRow (fun _ => .ite (.pure _) (.ite (.pure _) (.pure _)))
    (fun _ => keeps_ignore (keeps_apCfgAclAdd h _ _ _)) v a

theorem keeps_writeApMAC (h : j ≠ legalKey) (v : VarBind) (a : Action) :
    Keeps j (writeApMAC v a) := by
  have hset (p : CStr) : Keeps j (Act.ignore (scApCfgLegalApListSet p)) :=
    keeps_ignore (keeps_scApCfgLegalApListSet h p)
  exact keeps_writeRow (fun _ => .ite (.pure _) (.ite (.pure _) (.pure _)))
    (fun _ => (keeps_lift _).bind fun _ => .ite (hset _) (.ite (hset _) (hset _))) v a

/-- **The settings of an object.**  A call of its method leaves every other setting as it was. -/
theorem Object.keeps (env : Surroundings) {o : Object} (hw : j ≠ .sys .wscConfigured)
    (hj : j ∉ o.settings env)
    (v : VarBind) (a : Action) : Keeps j (o.write env v a) := by
  cases o with
  | scalar s => exact Scalar.keeps env.stack hj v a
  | bound b => exact b.keeps (List.ne_of_not_mem_cons hj) _ a
  | radio o => exact o.keeps env hw hj v a
  | vap o i =>
      have hno := not_or.mp fun h => hj (List.mem_append.mpr h)
      have hno' := not_or.mp fun h => hno.1 (List.mem_append.mpr h)
      refine o.keeps hw (fun f hf => ?_) (fun f hf i hi => ?_) (fun f hf => ?_) v a
      · exact (ne_of_mem_of_not_mem (List.mem_map_of_mem hf) hno'.1).symm
      · exact (ne_of_mem_of_not_mem (List.mem_flatMap.mpr ⟨i, hi, List.mem_map_of_mem hf⟩)
          hno'.2).symm
      · exact (ne_of_mem_of_not_mem (List.mem_map_of_mem hf) hno.2).symm
  | aclMac row => exact keeps_writeAclMac (List.ne_of_not_mem_cons hj) v a
  | apMAC => exact keeps_writeApMAC (List.ne_of_not_mem_cons hj) v a

end Objects

/-! ### Runs of requests -/

/-- A variable of a request, with its value. -/
abbrev SetVar := Object × VarBind

/-- The write method of the variable, with its value. -/
def SetVar.write (env : Surroundings) (x : SetVar) : WriteMethod Config Buf := x.1.write env x.2

section Requests

variable {env : Surroundings} {requests : List (List SetVar)} {j : Setting}

/-- A setting of no object of the run. -/
theorem keeps_handleSets (hw : j ≠ .sys .wscConfigured)
    (hj : ∀ vars ∈ requests, ∀ x ∈ vars, j ∉ x.1.settings env) :
    Keeps j (handleSets (SetVar.write env) requests) :=
  .of_preserves fun p => preserves_handleSets fun vars hvars x hx a =>
    (x.1.keeps env hw (hj vars hvars x hx) x.2 a).preserves p

/-- **A run of requests changes what it names.** -/
theorem requests_frame (hw : j ≠ .sys .wscConfigured)
    (hj : ∀ vars ∈ requests, ∀ x ∈ vars, j ∉ x.1.settings env) (c : Config) :
    (handleSets (SetVar.write env) requests c).2.get j = c.get j :=
  keeps_handleSets hw hj c

/-- A channel list of eleven lines, and no country. -/
def surroundings : Surroundings := ⟨fun _ => 0, 11, [], fun _ => false⟩

theorem requests_frame_channel :
    (handleSets (SetVar.write surroundings) [[(Object.vap .ssid 1, VarBind.ofText (.text "guest")),
        (.radio .channel, .ofInt 6)]] nothingSet).2.get (.vap 0 2 .ssid) =
          nothingSet.get (.vap 0 2 .ssid) := by
  refine requests_frame (by decide) (fun vars hvars => ?_) nothingSet
  obtain rfl := List.mem_singleton.mp hvars
  exact List.forall_mem_cons.mpr ⟨by decide, List.forall_mem_singleton.mpr (by decide)⟩

/-- The settings that the objects of VAP `i` have to do with: its own, those that all VAPs share,
the mark that WPS is configured, and the name server. -/
def Reachable (i : Nat) : Setting → Prop
  | .vap 0 i' f =>
      i' = i ∨ f ∈ [.keyLength, .key 1, .key 2, .key 3, .key 4, .radiusServer, .radiusPort,
      .radiusKey, .backupRadiusServer, .backupRadiusPort, .backupRadiusKey]
  | .sys f => f = .wscConfigured ∨ f = .lanDns1
  | _ => False

/-- What holds of the fields of an object holds of its settings. -/
theorem VapObject.forall_settings {P : Setting → Prop} (o : VapObject) {i : Nat}
    (hown : ∀ f ∈ o.own, P (.vap 0 i f)) (hshared : ∀ f ∈ o.shared, ∀ i' ∈ vaps, P (.vap 0 i' f))
    (hsystem : ∀ f ∈ o.system, P (.sys f)) : ∀ k ∈ (Object.vap o i).settings env, P k := by
  intro k hk
  obtain hk | hk := List.mem_append.mp hk
  · obtain hk | hk := List.mem_append.mp hk
    · obtain ⟨f, hf, rfl⟩ := List.mem_map.mp hk
      exact hown f hf
    · obtain ⟨i', hi', hk⟩ := List.mem_flatMap.mp hk
      obtain ⟨f, hf, rfl⟩ := List.mem_map.mp hk
      exact hshared f hf i' hi'
  · obtain ⟨f, hf, rfl⟩ := List.mem_map.mp hk
    exact hsystem f hf

theorem VapObject.reachable (o : VapObject) (i : Nat) :
    ∀ k ∈ (Object.vap o i).settings env, Reachable i k := by
  refine o.forall_settings (fun f _ => .inl rfl) (fun f hf i' _ => .inr ?_) fun f hf => .inr ?_
  · revert f
    cases o <;> decide
  · revert f
    cases o <;> decide

/-- **The VAPs are isolated.** -/
theorem vap_isolated {i : Nat} (hvap : ∀ vars ∈ requests, ∀ x ∈ vars, ∃ o, x.1 = .vap o i)
    (hj : ¬ Reachable i j) (c : Config) :
    (handleSets (SetVar.write env) requests c).2.get j = c.get j := by
  have hw : j ≠ .sys .wscConfigured := by
    rintro rfl
    exact hj (.inl rfl)
  refine keeps_handleSets hw (fun vars hvars x hx hmem => hj ?_) c
  obtain ⟨o, ho⟩ := hvap vars hvars x hx
  exact o.reachable i j (ho ▸ hmem)

theorem vap_isolated_guest :
    (handleSets (SetVar.write surroundings) [[(Object.vap .ssid 1, VarBind.ofText (.text "guest")),
        (.vap .wepKey1 1, .ofText (.text "0123456789"))]] nothingSet).2.get (.vap 0 2 .passphrase) =
      nothingSet.get (.vap 0 2 .passphrase) := by
  have hno : ¬ Reachable 1 (.vap 0 2 .passphrase) := not_or.mpr (by decide)
  refine vap_isolated (fun vars hvars => ?_) hno nothingSet
  obtain rfl := List.mem_singleton.mp hvars
  exact List.forall_mem_cons.mpr ⟨⟨.ssid, rfl⟩, List.forall_mem_singleton.mpr ⟨.wepKey1, rfl⟩⟩

end Requests

/-! ### What the operation mode requires -/

/-- The settings that the operation mode has to do with. -/
def Guarded : Setting → Bool
  | .radio 0 .opMode | .radio 0 .channelWidth | .radio 0 .isolation | .vap 0 _ .state
  | .vap 0 0 .authMode => true
  | _ => false

theorem preserves_of_keepsGuarded {A : Type} {m : Cfg A} (h : ∀ j, Guarded j = true → Keeps j m) :
    Act.Preserves OpModeInv m := by
  intro c hi
  exact hi.update (congrArg opModes.decode (h _ rfl c))
    (fun _ => .inl (congrArg flagOf (h _ rfl c)))
    (.inl (congrArg authTypes.decode (h _ rfl c)))
      (.inl (congrArg channelWidths.decode (h _ rfl c)))
    (.inl (congrArg flagOf (h _ rfl c)))

theorem ne_of_guarded {j k : Setting} (hj : Guarded j = true) (hk : Guarded k = false) : j ≠ k := by
  rintro rfl
  rw [hj] at hk
  cases hk

/-- An object whose settings the operation mode has nothing to do with. -/
theorem Object.preserves_of_unguarded (env : Surroundings) {o : Object}
    (h : ∀ k ∈ o.settings env, Guarded k = false) (v : VarBind) (a : Action) :
    Act.Preserves OpModeInv (o.write env v a) :=
  preserves_of_keepsGuarded fun j hj =>
    o.keeps env (ne_of_guarded hj rfl) (fun hmem => ne_of_guarded hj (h j hmem) rfl) v a

theorem Scalar.unguarded (stack : Nat → Byte) (s : Scalar) :
    ∀ k ∈ (s.spec stack).settings, Guarded k = false := by
  cases s with
  | lanIPv4DhcpClientMode
  | httpsMode => exact List.forall_mem_cons.mpr ⟨rfl, List.forall_mem_singleton.mpr rfl⟩
  | _ => exact List.forall_mem_singleton.mpr rfl

theorem preserves_writeRegion (countries : List Int) (known : Int → Bool) (v : VarBind)
    (a : Action) :
    Act.Preserves OpModeInv (writeRegion countries known v a) := by
  refine preserves_writeLong (fun x => preserves_ignore (.ite (.pure _) ?_)) v a
  refine Act.Preserves.bind (preserves_of_keeps fun _ _ _ => rfl) fun _ => .bind (.when ?_)
    fun _ => .pure _
  refine .bind (preserves_of_keeps fun _ _ => keeps_store _ _ _) fun p => .bind ?_ fun _ => .when ?_
  · exact preserves_of_keeps fun j hr => keeps_put (ne_of_relevant hr rfl) p _
  · exact preserves_ignore (preserves_apCfgChannelWidthModeSet _)

theorem RadioObject.preserves (env : Surroundings) (o : RadioObject) (v : VarBind) (a : Action) :
    Act.Preserves OpModeInv (o.write env v a) := by
  have hunguarded (h : ∀ k ∈ o.settings, Guarded k = false) :=
    (Object.radio o).preserves_of_unguarded env h v a
  cases o with
  | channelBandwidth =>
      refine preserves_writeRow (fun v => ?_) (fun v => ?_) v a
      · exact preserves_of_keeps fun _ _ => keeps_andThen
          (.ite (.pure _) ((keeps_getEnum _ _).bind fun _ => .pure _))
      · exact Act.Preserves.when (preserves_ignore (preserves_apCfgChannelWidthModeSet _))
  | region => exact preserves_writeRegion _ _ v a
  | isolationBetweenSSID =>
      exact preserves_writeLong
        (fun x => preserves_ignore (preserves_apCfgInterVapForwardingSet x)) v a
  | operationMode =>
      exact preserves_writeLong (fun x => preserves_ignore (preserves_apCfgOpModeSet x)) v a
  | remoteMac h => exact hunguarded (List.forall_mem_singleton.mpr rfl)
  | _ => exact hunguarded (by decide)

theorem VapObject.preserves (env : Surroundings) (o : VapObject) (i : Nat) (v : VarBind)
    (a : Action) :
    Act.Preserves OpModeInv (o.write i v a) := by
  have hunguarded (h : ∀ f ∈ o.own ++ o.shared, ∀ vap, Guarded (.vap 0 vap f) = false) :
      Act.Preserves OpModeInv (o.write i v a) :=
    Object.preserves_of_unguarded env (o := .vap o i) (o.forall_settings
      (fun f hf => h f (List.mem_append_left _ hf) i)
      (fun f hf vap _ => h f (List.mem_append_right _ hf) vap) fun _ _ => rfl) v a
  cases o with
  | ssid => 
      refine preserves_writeRow (fun v => ?_) (fun v => ?_) v a
      · exact preserves_of_keeps fun _ _ => keeps_andThen (keeps_onlyAp 0 i)
      · refine Act.Preserves.when
          (.bind (preserves_ignore (.ite (.pure _) ?_)) fun _ => preserves_ignore ?_)
        · exact preserves_setText _ rfl _ _
        · exact preserves_apCfgActiveModeSet i (.inr rfl)
  | securityMode => 
      refine preserves_writeRow (fun v => ?_) (fun v => ?_) v a
      · exact preserves_of_keeps
          fun _ _ => keeps_andThen ((keeps_onlyAp 0 i).bind fun _ => keeps_andThen
          ((keeps_getEnum _ _).bind fun _ => .pure _))
      · exact Act.Preserves.when (preserves_ignore (preserves_apCfgAuthTypeSet i _))
  | accessControlMode | localMacMode | profileVlan | profilePriority | profileWMM
  | ssidBroadcastMode | ssidIsolationWithinSSID | wepKeyIndex | wepKeyLength | wepKey1 | wepKey2
  | wepKey3 | wepKey4 | wpaPSK | wpaKeyRenewal | radiusAuthPrimaryServerIP
  | radiusAuthPrimaryServerPort | radiusAuthPrimaryServerKey
  | radiusAuthSecondaryServerIP | radiusAuthSecondaryServerPort | radiusAuthSecondaryServerKey =>
      exact hunguarded (List.forall_mem_singleton.mpr fun _ => rfl)

/-- A call of a method, in whatever phase. -/
theorem Object.preserves (env : Surroundings) (o : Object) (v : VarBind) (a : Action) :
    Act.Preserves OpModeInv (o.write env v a) := by
  cases o with
  | scalar s => exact preserves_of_unguarded env (o := .scalar s) (s.unguarded env.stack) v a
  | bound b =>
      exact preserves_of_unguarded env (o := .bound b)
        (List.forall_mem_singleton.mpr (by cases b <;> rfl)) v a
  | radio o => exact o.preserves env v a
  | vap o i => exact o.preserves env i v a
  | aclMac row =>
      exact preserves_of_unguarded env (o := .aclMac row)
        (List.forall_mem_singleton.mpr (by cases row <;> rfl)) v a
  | apMAC => exact preserves_of_unguarded env (o := .apMAC) (List.forall_mem_singleton.mpr rfl) v a

/-- **What the operation mode requires holds behind every run of requests.** -/
theorem opModeInv_requests (env : Surroundings) (requests : List (List SetVar)) {c : Config}
    (hc : OpModeInv c) :
    OpModeInv (handleSets (SetVar.write env) requests c).2 :=
  preserves_handleSets (fun _ _ x _ a => x.1.preserves env x.2 a) c hc

theorem opModeInv_requests_oneVap :
    OpModeInv Apcfg.oneVap ∧ OpModeInv (handleSets (SetVar.write surroundings)
      [[(Object.radio .operationMode, VarBind.ofInt 6), (.vap .ssid 2, .ofText (.text "guest"))],
        [(.vap .securityMode 0, .ofInt 4)]] Apcfg.oneVap).2 := by
  have h : OpModeInv Apcfg.oneVap :=
    ⟨by decide +kernel, by decide +kernel, by decide +kernel, by decide +kernel, by decide +kernel⟩
  exact ⟨h, opModeInv_requests surroundings _ h⟩

end Wap4410n.Snmp
