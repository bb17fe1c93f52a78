import Wap4410n.Snmp.Scalars
import Wap4410n.Snmp.View

/-!
# Snmp — what is set is read back

`var_indoor` answers every object from `struct indoor`, which is filled from the settings
(`Indoor.Shows`).  Behind a SET request whose objects share no setting the answers are the values
that were sent (`request_readsBack`), but for those that the setters refuse without telling the
manager, a name with what the stack held behind it, and the name and the password of the port where
its MAC address is sent in their place (`Scalar.Kept`).
-/

namespace Wap4410n.Snmp

open CLib Apcfg Act Utility

/-! ### What is read -/

/-- The value of a variable, as it is answered. -/
inductive Shown where
  | long (v : Int)
  | text (p : CStr)
  | addr (x : InAddr)

/-- `*var_len = strlen(in->field); return (u_char *) in->field;` -/
def shownText (b : Block) : Option Shown := b.held.map .text

/-- `var_indoor`: what is answered for an object. -/
def Scalar.read (nin : Indoor) : Scalar → Option Shown
  | .timeDaylightSaving => some (.long nin.timeSettings.daylightsaving)
  | .snmpTrustedAny => some (.long nin.managementsettings.snmpmanagerany)
  | .timeSetMode => some (.long nin.timeSettings.timesetmode)
  | .vlanMode => some (.long nin.localNetwork.vlanmode)
  | .logLoginSuccessMode => some (.long nin.logsettings.loginsuccessmode)
  | .wirelessAccessMode => some (.long nin.managementsettings.wlaccessmode)
  | .vlanOverWDS => some (.long nin.localNetwork.vlanoverwds)
  | .bonjourMode => some (.long nin.sysSettings.bonjourmode)
  | .httpRedirectMode => some (.long nin.sysSettings.redirectmode)
  | .eth1xSuppMode => some (.long nin.sysSettings.dot1xsuppenable)
  | .logLoginFailMode => some (.long nin.logsettings.loginfailmode)
  | .vlanTag => some (.long nin.localNetwork.vlantag)
  | .snmpMode => some (.long nin.managementsettings.snpmode)
  | .logConfChangeMode => some (.long nin.logsettings.confchangemode)
  | .logSystemErrorMode => some (.long nin.logsettings.syserrormode)
  | .sshMode => some (.long nin.managementsettings.sshmode)
  | .ntpMode => some (.long nin.timeSettings.ntpmode)
  | .emailAlertMode => some (.long nin.logsettings.emailalertmode)
  | .lanIPv4DhcpClientMode => some (.long nin.lanIPv4Settings.dhcpv4enalbe)
  | .httpsMode => some (.long nin.managementsettings.httpsmode)
  | .eth1xSuppMac => some (.long nin.sysSettings.dot1xsupmode)
  | .defaultVlanId => some (.long nin.localNetwork.defaultvlanid)
  | .managementVlanId => some (.long nin.localNetwork.managementvlanid)
  | .emailQueueLength => some (.long nin.logsettings.emailqueuelenth)
  | .emailSendPeriod => some (.long nin.logsettings.emailsendperiod)
  | .timeTimeZone => some (.long nin.timeSettings.timezone)
  | .userName => shownText nin.managementsettings.login
  | .emailAlertAddress => shownText nin.logsettings.emailalertaddr
  | .httpRedirectURL => shownText nin.sysSettings.redirectUrl
  | .hostName => shownText nin.sysSettings.hostname
  | .snmpContact => shownText nin.managementsettings.snmpcontact
  | .password => shownText nin.managementsettings.newpasswd
  | .deviceName => shownText nin.sysSettings.devicename
  | .snmpCommunityGet => shownText nin.managementsettings.snmpreadcomm
  | .snmpLocation => shownText nin.managementsettings.snmplocation
  | .ntpServer => shownText nin.timeSettings.ntpserver
  | .eth1xSuppName => shownText nin.sysSettings.dot1xsuppusername
  | .eth1xSuppPwd => shownText nin.sysSettings.dot1xsupppasswd
  | .snmpDeviceName => shownText nin.managementsettings.snmpdevicename
  | .snmpTrapCommunity => shownText nin.managementsettings.trapcomm
  | .snmpCommunitySet => shownText nin.managementsettings.snmpwritecomm
  | .snmpTrapDestIP => some (.addr nin.managementsettings.snptrapdestvip)
  | .lanIPv4Netmask => some (.addr nin.lanIPv4Settings.lanip4netmask)
  | .lanIPv4Gateway => some (.addr nin.lanIPv4Settings.ipv4gateway)
  | .lanIPv4Address => some (.addr nin.lanIPv4Settings.lanipv4addr)
  | .syslogServer => some (.addr nin.logsettings.syslogserver)
  | .lanIPv4PrimaryDns => some (.addr nin.lanIPv4Settings.ipv4dns1)
  | .lanIPv4SecondaryDns => some (.addr nin.lanIPv4Settings.ipv4dns2)

/-! ### What the struct shows of the settings -/

section Shows

variable (c : Config)

/-- A text of a setting. -/
def ShowsText (b : Block) (f : SysField) : Prop := b.held = some (c.get (.sys f))

structure TimeSettings.Shows (n : TimeSettings) : Prop where
  timesetmode : n.timesetmode = flagOf (c.get (.sys .todEnable))
  ntpmode : n.ntpmode = atoi (c.get (.sys .ntpMode))
  ntpserver : ShowsText c n.ntpserver .ntpServer
  timezone : ∀ v : Int, 1 ≤ v → v ≤ 75 → c.get (.sys .timezoneDiff) = timezoneAt v → n.timezone = v
  daylightsaving : n.daylightsaving = flagOf (c.get (.sys .timezoneDaylightsaving))

structure LanIPv4Settings.Shows (n : LanIPv4Settings) : Prop where
  dhcpv4enalbe : n.dhcpv4enalbe = flagOf (c.get (.sys .lanDhcpc))
  lanipv4addr : n.lanipv4addr = inetAddr (c.get (.sys .lanIpaddr))
  lanip4netmask : n.lanip4netmask = inetAddr (c.get (.sys .lanNetmask))
  ipv4gateway : n.ipv4gateway = inetAddr (c.get (.sys .lanGateway))
  ipv4dns1 : (c.get (.sys .lanDns1)).length ≠ 0 → n.ipv4dns1 = inetAddr (c.get (.sys .lanDns1))
  ipv4dns2 : (c.get (.sys .lanDns2)).length ≠ 0 → n.ipv4dns2 = inetAddr (c.get (.sys .lanDns2))

structure SysSettings.Shows (n : SysSettings) : Prop where
  hostname : ShowsText c n.hostname .sysName
  devicename : ShowsText c n.devicename .sysDesc
  dot1xsuppenable : n.dot1xsuppenable = flagOf (c.get (.sys .ethSuppMode))
  dot1xsupmode : n.dot1xsupmode = if flagOf (c.get (.sys .ethSuppMac)) ≠ 0 then 0 else 1
  dot1xsuppusername : flagOf (c.get (.sys .ethSuppMac)) = 0 →
    ShowsText c n.dot1xsuppusername .ethSuppUser
  dot1xsupppasswd : flagOf (c.get (.sys .ethSuppMac)) = 0 →
    ShowsText c n.dot1xsupppasswd .ethSuppPwd
  bonjourmode : n.bonjourmode = flagOf (c.get (.sys .bonjourEnable))
  redirectmode : n.redirectmode = flagOf (c.get (.sys .rediretMode))
  redirectUrl : ShowsText c n.redirectUrl .rediretUrl

structure LocalNetwork.Shows (n : LocalNetwork) : Prop where
  vlanmode : n.vlanmode = flagOf (c.get (.sys .vlanMode))
  defaultvlanid : n.defaultvlanid = atoi (c.get (.sys .vlanDefault))
  vlantag : n.vlantag = flagOf (c.get (.sys .vlanDefaultTag))
  managementvlanid : n.managementvlanid = atoi (c.get (.sys .vlanManagement))
  vlanoverwds : n.vlanoverwds = flagOf (c.get (.sys .vlanWdsTag))

structure ManagementSettings.Shows (n : ManagementSettings) : Prop where
  login : ShowsText c n.login .loginUsername
  newpasswd : ShowsText c n.newpasswd .loginPassword
  httpsmode : n.httpsmode = flagOf (c.get (.sys .httpsMode))
  wlaccessmode : n.wlaccessmode = flagOf (c.get (.sys .wlanManage))
  sshmode : n.sshmode = flagOf (c.get (.sys .ssh))
  snpmode : n.snpmode = flagOf (c.get (.sys .snmpMode))
  snmpcontact : ShowsText c n.snmpcontact .snmpContact
  snmpdevicename : ShowsText c n.snmpdevicename .sysDesc
  snmplocation : ShowsText c n.snmplocation .snmpLocation
  snmpreadcomm : ShowsText c n.snmpreadcomm .snmpCommunityGet
  snmpwritecomm : ShowsText c n.snmpwritecomm .snmpCommunitySet
  trapcomm : ShowsText c n.trapcomm .snmpTrapCommunity
  snmpmanagerany : n.snmpmanagerany = flagOf (c.get (.sys .snmpTrustedAny))
  snptrapdestvip : n.snptrapdestvip = inetAddr (c.get (.sys .snmpTrapDest))

structure LogSettings.Shows (n : LogSettings) : Prop where
  emailalertmode : n.emailalertmode = flagOf (c.get (.sys .emailAlert))
  emailalertaddr : ShowsText c n.emailalertaddr .emailAddr
  emailqueuelenth : n.emailqueuelenth = atoi (c.get (.sys .emailQueueLength))
  emailsendperiod : n.emailsendperiod = atoi (c.get (.sys .emailSendPeriod))
  syslogserver : (c.get (.sys .syslogServer)).length ≠ 0 →
    n.syslogserver = inetAddr (c.get (.sys .syslogServer))
  loginsuccessmode : n.loginsuccessmode = flagOf (c.get (.sys .logLoginSuccess))
  loginfailmode : n.loginfailmode = flagOf (c.get (.sys .logLoginFail))
  syserrormode : n.syserrormode = flagOf (c.get (.sys .logSystemErrors))
  confchangemode : n.confchangemode = flagOf (c.get (.sys .logConfChange))

/-- The struct shows the settings. -/
structure Indoor.Shows (n : Indoor) : Prop where
  timeSettings : n.timeSettings.Shows c
  lanIPv4Settings : n.lanIPv4Settings.Shows c
  sysSettings : n.sysSettings.Shows c
  localNetwork : n.localNetwork.Shows c
  managementsettings : n.managementsettings.Shows c
  logsettings : n.logsettings.Shows c

end Shows

variable {c : Config} {r : Reports}

theorem showsText_strcpy {k : Nat} {b : Block} (h : b.IsArray k) {f : SysField}
    (hlen : (c.get (.sys f)).length < k) : ShowsText c (b.strcpy (c.get (.sys f))) f := by
  rw [ShowsText, Block.held_strcpy, h.1, if_pos hlen]

theorem timezoneOf_timezoneAt {v : Int} (hv : 1 ≤ v) (hv' : v ≤ 75) (z : Int) :
    timezoneOf (timezoneAt v) z = v := by
  have hlen : timezoneTbl.length = 75 := rfl
  have hi : (v - 1).toNat < 75 := by omega
  have hfound : (timezoneTbl.findIdx? fun s => CStr.text s = timezoneAt v) =
      some (v - 1).toNat := by
    refine List.findIdx?_eq_some_iff_getElem.mpr ⟨hlen ▸ hi, ?_, fun j hj => ?_⟩
    · rw [decide_eq_true_iff, timezoneAt, List.getD_eq_getElem _ _ (hlen ▸ hi)]
    · rw [decide_eq_true_iff, timezoneAt, ← List.getD_eq_getElem _ "" (hlen ▸ hj.trans hi)]
      intro h
      have hno := congrArg atoi h
      rw [(timezoneTbl_line (hj.trans hi)).1, (timezoneTbl_line hi).1] at hno
      omega
  rw [timezoneOf, hfound]
  show ((v - 1).toNat : Int) + 1 = v
  omega

theorem loadTimeSettings_shows (hc : c.Accepted) {n : TimeSettings} (hn : n.Within)
    (hfits : IndoorFits c r) : Wp (loadTimeSettings n) (fun n' c' => n'.Shows c ∧ c' = c) c := by
  obtain ⟨h₁, h₂, h₃⟩ := hn
  have hntp : (c.get (.sys .ntpServer)).length < 33 := hc.lt rfl (by decide)
  have hzone : (c.get (.sys .timezoneDiff)).length < 13 := hc.lt rfl (by decide)
  simp only [loadTimeSettings, apCfgTimeModeGet, apCfgTimeYearGet, apCfgTimeMonGet, apCfgTimeDayGet,
    apCfgTimeHourGet, apCfgTimeMinGet, apCfgTimeSecGet, apCfgNtpModeGet, apCfgNtpServerGet,
    apCfgTimezoneOffsetGet, apCfgDaylightSavingGet, wp_bind, wp_getFlag, wp_getAtoi, wp_store,
    wp_getText, wp_pure, hntp, hzone, true_and, and_true]
  refine ⟨hfits.date.trans (by decide), hfits.time.trans (by decide), hfits.timezone, ?_⟩
  exact ⟨rfl, rfl, showsText_strcpy h₃ (hntp.trans (by decide)),
    fun v hv hv' h => by rw [h]; exact timezoneOf_timezoneAt hv hv' _, rfl⟩

theorem addrOr_of_ne {p : CStr} (h : p.length ≠ 0) (x : InAddr) : addrOr p x = inetAddr p :=
  if_pos h

theorem loadLanIPv4Settings_shows (hc : c.Accepted) {n : LanIPv4Settings} :
    Wp (loadLanIPv4Settings n) (fun n' c' => n'.Shows c ∧ c' = c) c := by
  have hdns : (c.get (.sys .lanDns1)).length < 33 := hc.lt rfl (by decide)
  have hdns' : (c.get (.sys .lanDns2)).length < 33 := hc.lt rfl (by decide)
  simp only [loadLanIPv4Settings, apCfgDhcpEnableGet, apCfgIpAddrGet, apCfgIpMaskGet,
    apCfgGatewayAddrGet, apCfgNameSrvGet, apCfgNameSrv2Get, wp_bind, wp_getFlag, wp_getAddr,
    wp_getText, wp_pure, hdns, hdns', true_and, and_true]
  exact ⟨rfl, rfl, rfl, rfl, fun h => addrOr_of_ne h _, fun h => addrOr_of_ne h _⟩

theorem loadSysSettings_shows (hc : c.Accepted) {n : SysSettings} (hn : n.Within)
    (hfits : IndoorFits c r) :
    Wp (loadSysSettings n) (fun n' c' => n'.Shows c ∧ c' = c) c := by
  obtain ⟨h₁, h₂, h₃, h₄, h₅⟩ := hn
  have h₃' := (h₃.store [0]).mpr (by decide)
  have h₄' := (h₄.store [0]).mpr (by decide)
  have hname : (c.get (.sys .sysName)).length < 40 := hc.lt rfl (by decide)
  have hdesc : (c.get (.sys .sysDesc)).length < 40 := hc.lt rfl (by decide)
  have huser : (c.get (.sys .ethSuppUser)).length < 64 := hc.lt rfl (by decide)
  have hpwd : (c.get (.sys .ethSuppPwd)).length < 64 := hc.lt rfl (by decide)
  have hurl : (c.get (.sys .rediretUrl)).length < 129 := hc.lt rfl (by decide)
  simp only [loadSysSettings, apCfgSysNameGet, apCfgDescGet, scApCfgDot1xSuppEnableGet,
    scApCfgDot1xSuppMacEnableGet, scApCfgDot1xSuppUsernameGet, scApCfgDot1xSuppPasswordGet,
    apCfgBonjourGet, apCfgRedirectModeGet, apCfgRedirectUrlGet, wp_bind, wp_getFlag, wp_getText,
    wp_unlessMac huser, wp_unlessMac hpwd, wp_pure, hname, hdesc, hurl, true_and, and_true]
  exact ⟨showsText_strcpy h₁ hname, showsText_strcpy h₂ hdesc, rfl, rfl,
    fun h => by simp only [if_pos h]; exact showsText_strcpy h₃' huser,
    fun h => by simp only [if_pos h]; exact showsText_strcpy h₄' hpwd, rfl, rfl,
    showsText_strcpy h₅ hfits.redirectUrl⟩

theorem loadLocalNetwork_shows {n : LocalNetwork} (hfits : IndoorFits c r) :
    Wp (loadLocalNetwork r n) (fun n' c' => n'.Shows c ∧ c' = c) c := by
  have huptime : ((r.uptime.map uptimeText).getD .empty).length < 50 := by
    cases h : r.uptime with
    | none => exact (by decide : CStr.empty.length < 50)
    | some u => exact hfits.reports.uptime u h
  simp only [loadLocalNetwork, apCfgIpAddrGet, apCfgIpMaskGet, apCfgVlanModeGet,
    apCfgNativeVlanIdGet, apCfgNativeVlanTagGet, apCfgManagementVlanIdGet, apCfgWdsVlanTagGet,
    wp_bind, wp_getFlag, wp_getAtoi, wp_getAddr, wp_store, wp_pure, hfits.reports.mgtBrMac, huptime,
    true_and, and_true]
  exact ⟨rfl, rfl, rfl, rfl, rfl⟩

theorem loadManagementSettings_shows (hc : c.Accepted) {n : ManagementSettings} (hn : n.Within) :
    Wp (loadManagementSettings n) (fun n' c' => n'.Shows c ∧ c' = c) c := by
  obtain ⟨h₁, h₂, h₃, h₄, h₅, h₆, h₇, h₈⟩ := hn
  have hlogin : (c.get (.sys .loginUsername)).length < 64 := hc.lt rfl (by decide)
  have hpassword : (c.get (.sys .loginPassword)).length < 64 := hc.lt rfl (by decide)
  have hdesc : (c.get (.sys .sysDesc)).length < 40 := hc.lt rfl (by decide)
  have hcontact : (c.get (.sys .snmpContact)).length < 33 := hc.lt rfl (by decide)
  have hlocation : (c.get (.sys .snmpLocation)).length < 33 := hc.lt rfl (by decide)
  have hread : (c.get (.sys .snmpCommunityGet)).length < 33 := hc.lt rfl (by decide)
  have hwrite : (c.get (.sys .snmpCommunitySet)).length < 33 := hc.lt rfl (by decide)
  have htrap : (c.get (.sys .snmpTrapCommunity)).length < 33 := hc.lt rfl (by decide)
  simp only [loadManagementSettings, apCfgLoginGet, apCfgPasswordGet, apCfgHttpsModeGet,
    apCfgWlanAccessGet, apCfgSSHGet, apCfgSnmpModeGet, apCfgSnmpContactGet, apCfgDescGet,
    apCfgSnmpLocationGet, apCfgSnmpReadCommGet, apCfgSnmpWriteCommGet, apCfgSnmpTrapCommunityGet,
    apCfgSnmpAnyManagerGet, apCfgSnmpManagerIpGet, apCfgSnmpManagerIpEndGet, apCfgSnmpTrapRecvIpGet,
    getSnmpText, wp_bind, wp_getFlag, wp_getAddr, wp_getText, wp_pure, hlogin, hpassword, hdesc,
    hcontact, hlocation, hread, hwrite, htrap, true_and, and_true]
  exact ⟨showsText_strcpy h₁ (hlogin.trans (by decide)),
    showsText_strcpy h₂ (hpassword.trans (by decide)), rfl,
    rfl, rfl, rfl, showsText_strcpy h₃ (hcontact.trans (by decide)),
    showsText_strcpy h₄ (hdesc.trans (by decide)),
    showsText_strcpy h₅ (hlocation.trans (by decide)),
    showsText_strcpy h₆ (hread.trans (by decide)), showsText_strcpy h₇ (hwrite.trans (by decide)),
    showsText_strcpy h₈ (htrap.trans (by decide)), rfl, rfl⟩

theorem loadLogSettings_shows (hc : c.Accepted) {n : LogSettings} (hn : n.Within) :
    Wp (loadLogSettings n) (fun n' c' => n'.Shows c ∧ c' = c) c := by
  obtain ⟨h₁, h₂⟩ := hn
  have hserver : (c.get (.sys .emailAlertServer)).length < 65 := hc.lt rfl (by decide)
  have haddr : (c.get (.sys .emailAddr)).length < 65 := hc.lt rfl (by decide)
  have hsyslog : (c.get (.sys .syslogServer)).length < 33 := hc.lt rfl (by decide)
  simp only [loadLogSettings, apCfgemailAlertsEnabledGet, apCfgsmtpMailServerGet,
    apCfgemailAddrForLogGet, apCfgemailAlertsQlenGet, scApCfgemailAlertsIntervalGet,
    apCfgsysLogEnabledGet, apCfgsysLogServerGet, apCfgAuthLoginGet, apCfgDeauthGet,
    apCfgChangeSysFucGet, apCfgChangeCfgGet, wp_bind, wp_getFlag, wp_getAtoi, wp_getText, wp_pure,
    hserver, haddr, hsyslog, true_and, and_true]
  exact ⟨rfl, showsText_strcpy h₂ (haddr.trans (by decide)), rfl, rfl,
    fun h => by rw [if_pos h], rfl, rfl, rfl, rfl⟩

/-- **`struct indoor` shows the settings**, where they and the reports fit it. -/
theorem loadVarIndoor_shows (hc : c.Accepted) {nin : Indoor} (hn : nin.Within)
    (hfits : IndoorFits c r) :
    Wp (loadVarIndoor r nin) (fun nin' c' => nin'.Shows c ∧ c' = c) c := by
  simp only [loadVarIndoor, wp_bind, wp_pure]
  refine (loadTimeSettings_shows hc hn.timeSettings hfits).mono ?_
  rintro time _ ⟨htime, rfl⟩
  refine (loadLanIPv4Settings_shows hc).mono ?_
  rintro lan _ ⟨hlan, rfl⟩
  refine ((wp_loadLanIPv6Settings (R := (· = _)) hn.lanIPv6Settings).mpr ⟨hfits.ipv6, rfl⟩).mono ?_
  rintro _ _ ⟨-, rfl⟩
  refine (loadSysSettings_shows hc hn.sysSettings hfits).mono ?_
  rintro sys _ ⟨hsys, rfl⟩
  refine (loadLocalNetwork_shows hfits).mono ?_
  rintro net _ ⟨hnet, rfl⟩
  refine (loadManagementSettings_shows hc hn.managementsettings).mono ?_
  rintro mgt _ ⟨hmgt, rfl⟩
  refine (loadLogSettings_shows hc hn.logsettings).mono ?_
  rintro log _ ⟨hlog, hs⟩
  exact ⟨⟨htime, hlan, hsys, hnet, hmgt, hlog⟩, hs⟩

/-! ### A request and what is read behind it -/

/-- The value of a variable, as its object is answered. -/
def Scalar.sent (v : VarBind) : Scalar → Shown
  | .userName | .emailAlertAddress | .httpRedirectURL | .hostName | .snmpContact | .password
  | .deviceName | .snmpCommunityGet | .snmpLocation | .ntpServer | .eth1xSuppName | .eth1xSuppPwd
  | .snmpDeviceName | .snmpTrapCommunity | .snmpCommunitySet => .text (.before v.octets)
  | .snmpTrapDestIP | .lanIPv4Netmask | .lanIPv4Gateway | .lanIPv4Address | .syslogServer
  | .lanIPv4PrimaryDns | .lanIPv4SecondaryDns => .addr v.word
  | _ => .long v.long.toInt

/-- The least length of a text. -/
def Scalar.least : Scalar → Nat
  | .password | .eth1xSuppPwd => 4
  | .userName | .hostName | .snmpContact | .snmpCommunityGet | .snmpLocation | .snmpTrapCommunity
  | .snmpCommunitySet => 1
  | _ => 0

/-- What a value takes, beside the check, to be read back: that the setter does not refuse it, that
nothing of the stack follows it, and for the name and the password of the port that its MAC address
is not what is sent. -/
def Scalar.Kept (stack : Nat → Byte) (c : Config) (v : VarBind) : Scalar → Prop
  | .managementVlanId => 1 ≤ v.long.toInt ∧ v.long.toInt ≤ 0x0FFE
  | .hostName => 1 ≤ (CStr.before v.octets).length ∧ CStr.before (apname stack v) = .before v.octets
  | .eth1xSuppName => flagOf (c.get (.sys .ethSuppMac)) = 0
  | .eth1xSuppPwd => flagOf (c.get (.sys .ethSuppMac)) = 0 ∧ 4 ≤ (CStr.before v.octets).length
  | s => s.least ≤ (CStr.before v.octets).length

section Disjoint

variable {stack : Nat → Byte} {vars : List Var} {old new : Setting → CStr}

/-- The settings of the objects of a request. -/
def settingsOf (stack : Nat → Byte) (vars : List Var) : List Setting :=
  vars.flatMap fun x => (x.1.spec stack).settings

/-- Where no two objects share a setting, each has its effects, whatever the order. -/
theorem Steps.effects (hdisj : (settingsOf stack vars).Nodup)
    (h : Steps (Var.Step stack) vars old new) :
    (∀ k, k ∉ settingsOf stack vars → new k = old k) ∧
      ∀ x ∈ vars, ∀ e ∈ (x.1.spec stack).effects, e.2 x.2 (old e.1) (new e.1) := by
  induction h with
  | nil t => exact ⟨fun _ _ => rfl, fun _ hx => absurd hx List.not_mem_nil⟩
  | @cons x xs t t₁ t' hstep _ ih =>
      rw [settingsOf, List.flatMap_cons, List.nodup_append] at hdisj
      obtain ⟨-, hxs, hne⟩ := hdisj
      obtain ⟨hframe, heffects⟩ := ih hxs
      refine ⟨fun k hk => ?_, List.forall_mem_cons.mpr ⟨fun e he => ?_, fun y hy e he => ?_⟩⟩
      · rw [settingsOf, List.flatMap_cons, List.mem_append, not_or] at hk
        rw [hframe k hk.2, hstep.1 k hk.1]
      · have hmem : e.1 ∈ (x.1.spec stack).settings := List.mem_map_of_mem he
        rw [hframe e.1 fun h => hne e.1 hmem e.1 h rfl]
        exact hstep.2 e he
      · have hmem : e.1 ∈ settingsOf stack xs :=
          List.mem_flatMap.mpr ⟨y, hy, List.mem_map_of_mem he⟩
        rw [← hstep.1 e.1 fun h => hne e.1 h e.1 hmem rfl]
        exact heffects y hy e he

end Disjoint

theorem shownText_of {b : Block} {f : SysField} {p : CStr} (h : ShowsText c b f)
    (hp : c.get (.sys f) = p) :
    shownText b = some (.text p) := by
  rw [shownText, show b.held = some (c.get (.sys f)) from h, hp]
  rfl

theorem text_kept {lo : Nat} {v : VarBind} {old new : CStr} (h : Effect.text lo v old new)
    (hlo : lo ≤ (CStr.before v.octets).length) : new = .before v.octets :=
  h.trans (if_neg (Nat.not_lt.mpr hlo))

theorem length_inetNtoa_ne (x : InAddr) : (inetNtoa x).length ≠ 0 := by
  have hdot : (CStr.text ".").length = 1 := by decide
  simp only [inetNtoa, CStr.length_append, hdot]
  omega

theorem long_of {x y z : Int} (hx : x = y) (hy : y = z) :
    some (Shown.long x) = some (Shown.long z) := by
  rw [hx, hy]

theorem addr_of {x y z : InAddr} (hx : x = y) (hy : y = z) :
    some (Shown.addr x) = some (Shown.addr z) := by
  rw [hx, hy]

theorem addrText_of {x z : InAddr} {p : CStr} (hx : p.length ≠ 0 → x = inetAddr p)
    (hp : p = inetNtoa z) :
    some (Shown.addr x) = some (Shown.addr z) := by
  rw [hx (hp ▸ length_inetNtoa_ne z), hp, inetAddr_inetNtoa]

/-- The value that an object shows when its effects have been had. -/
theorem Scalar.reads {stack : Nat → Byte} {s : Scalar} {v : VarBind} {old : Setting → CStr}
    {nin : Indoor}
    (hshows : nin.Shows c) (hok : (s.spec stack).accepts v)
    (h : ∀ e ∈ (s.spec stack).effects, e.2 v (old e.1) (c.get e.1))
    (hkept : s.Kept stack c v) : s.read nin = some (s.sent v) := by
  obtain ⟨htime, hlan, hsys, hnet, hmgt, hlog⟩ := hshows
  cases s with
  | timeDaylightSaving => exact long_of htime.daylightsaving (h _ List.mem_cons_self)
  | snmpTrustedAny => exact long_of hmgt.snmpmanagerany (h _ List.mem_cons_self)
  | timeSetMode => exact long_of htime.timesetmode (h _ List.mem_cons_self)
  | vlanMode => exact long_of hnet.vlanmode (h _ List.mem_cons_self)
  | logLoginSuccessMode => exact long_of hlog.loginsuccessmode (h _ List.mem_cons_self)
  | wirelessAccessMode => exact long_of hmgt.wlaccessmode (h _ List.mem_cons_self)
  | vlanOverWDS => exact long_of hnet.vlanoverwds (h _ List.mem_cons_self)
  | bonjourMode => exact long_of hsys.bonjourmode (h _ List.mem_cons_self)
  | httpRedirectMode => exact long_of hsys.redirectmode (h _ List.mem_cons_self)
  | eth1xSuppMode => exact long_of hsys.dot1xsuppenable (h _ List.mem_cons_self)
  | logLoginFailMode => exact long_of hlog.loginfailmode (h _ List.mem_cons_self)
  | vlanTag => exact long_of hnet.vlantag (h _ List.mem_cons_self)
  | snmpMode => exact long_of hmgt.snpmode (h _ List.mem_cons_self)
  | logConfChangeMode => exact long_of hlog.confchangemode (h _ List.mem_cons_self)
  | logSystemErrorMode => exact long_of hlog.syserrormode (h _ List.mem_cons_self)
  | sshMode => exact long_of hmgt.sshmode (h _ List.mem_cons_self)
  | ntpMode => exact long_of htime.ntpmode (h _ List.mem_cons_self)
  | emailAlertMode => exact long_of hlog.emailalertmode (h _ List.mem_cons_self)
  | lanIPv4DhcpClientMode => exact long_of hlan.dhcpv4enalbe (h _ List.mem_cons_self)
  | defaultVlanId => exact long_of hnet.defaultvlanid (h _ List.mem_cons_self)
  | emailQueueLength => exact long_of hlog.emailqueuelenth (h _ List.mem_cons_self)
  | emailSendPeriod => exact long_of hlog.emailsendperiod (h _ List.mem_cons_self)
  | httpsMode =>
      exact long_of hmgt.httpsmode
        (h (.sys .httpsMode, .flag) (List.mem_cons_of_mem _ List.mem_cons_self))
  | eth1xSuppMac =>
      have heff : flagOf (c.get (.sys .ethSuppMac)) = if v.long.toInt = 0 then 1 else 0 :=
        h _ List.mem_cons_self
      refine long_of hsys.dot1xsupmode ?_
      rw [heff]
      rcases hok.2.2 with hv | hv
      · rw [if_pos hv, hv]
        decide
      · rw [hv]
        decide
  | managementVlanId =>
      have heff : Effect.vlanId v (old (.sys .vlanManagement)) (c.get (.sys .vlanManagement)) :=
        h _ List.mem_cons_self
      obtain ⟨hlo, hhi⟩ := hkept
      rw [Effect.vlanId, if_neg (by omega)] at heff
      exact long_of hnet.managementvlanid heff
  | timeTimeZone =>
      exact congrArg (some ∘ Shown.long)
        (htime.timezone _ hok.2.2.1 hok.2.2.2 (h _ List.mem_cons_self))
  | userName => exact shownText_of hmgt.login (text_kept (h _ List.mem_cons_self) hkept)
  | emailAlertAddress =>
      exact shownText_of hlog.emailalertaddr (text_kept (h _ List.mem_cons_self) hkept)
  | httpRedirectURL =>
      exact shownText_of hsys.redirectUrl (text_kept (h _ List.mem_cons_self) hkept)
  | snmpContact => exact shownText_of hmgt.snmpcontact (text_kept (h _ List.mem_cons_self) hkept)
  | password => exact shownText_of hmgt.newpasswd (text_kept (h _ List.mem_cons_self) hkept)
  | deviceName => exact shownText_of hsys.devicename (text_kept (h _ List.mem_cons_self) hkept)
  | snmpCommunityGet =>
      exact shownText_of hmgt.snmpreadcomm (text_kept (h _ List.mem_cons_self) hkept)
  | snmpLocation => exact shownText_of hmgt.snmplocation (text_kept (h _ List.mem_cons_self) hkept)
  | ntpServer => exact shownText_of htime.ntpserver (text_kept (h _ List.mem_cons_self) hkept)
  | snmpDeviceName =>
      exact shownText_of hmgt.snmpdevicename (text_kept (h _ List.mem_cons_self) hkept)
  | snmpTrapCommunity => exact shownText_of hmgt.trapcomm (text_kept (h _ List.mem_cons_self) hkept)
  | snmpCommunitySet =>
      exact shownText_of hmgt.snmpwritecomm (text_kept (h _ List.mem_cons_self) hkept)
  | hostName =>
      obtain ⟨hlen, hname⟩ := hkept
      have heff : Effect.name stack v (old (.sys .sysName)) (c.get (.sys .sysName)) :=
        h _ List.mem_cons_self
      rw [Effect.name, hname, if_neg (by omega)] at heff
      exact shownText_of hsys.hostname heff
  | eth1xSuppName =>
      exact shownText_of (hsys.dot1xsuppusername hkept)
        (text_kept (h _ List.mem_cons_self) (Nat.zero_le _))
  | eth1xSuppPwd =>
      exact shownText_of (hsys.dot1xsupppasswd hkept.1) (text_kept (h _ List.mem_cons_self) hkept.2)
  | snmpTrapDestIP => exact addr_of hmgt.snptrapdestvip (h _ List.mem_cons_self)
  | lanIPv4Netmask => exact addr_of hlan.lanip4netmask (h _ List.mem_cons_self)
  | lanIPv4Gateway => exact addr_of hlan.ipv4gateway (h _ List.mem_cons_self)
  | lanIPv4Address => exact addr_of hlan.lanipv4addr (h _ List.mem_cons_self)
  | syslogServer => exact addrText_of hlog.syslogserver (h _ List.mem_cons_self)
  | lanIPv4PrimaryDns => exact addrText_of hlan.ipv4dns1 (h _ List.mem_cons_self)
  | lanIPv4SecondaryDns => exact addrText_of hlan.ipv4dns2 (h _ List.mem_cons_self)

end Wap4410n.Snmp
