import Wap4410n.Editcfg.Assign
import Wap4410n.Editcfg.Output

/-!
# Editcfg — the attributes

The tables of the editable configuration: the groups (`cfgData`), and for each group its attributes
with the functions that read and write their variables and the comment behind the value.  The
tables of the four VAPs are one with the index of the VAP (`wlanSec`, `wlanConnControl`).
-/

namespace Wap4410n.Editcfg

open CLib

/-- `attr_s`; the `type` of every attribute is `CFG_TYPE_ALL`. -/
structure Attr where
  attr : CStr
  assignfunc : Option Assign
  outputfunc : Option Output
  comment : List Byte

/-- `CFG_s`; the `type` of every group is `CFG_TYPE_ALL`. -/
structure Group where
  group : CStr
  attrs : List Attr

/-- An attribute that is written and read. -/
def row (attr : String) (assignfunc : Assign) (outputfunc : Output) (comment : String) : Attr where
  attr := .text attr
  assignfunc := some assignfunc
  outputfunc := some outputfunc
  comment := ascii comment.toList

/-- An attribute that is only written. -/
def shown (attr : String) (outputfunc : Output) (comment : String) : Attr where
  attr := .text attr
  assignfunc := none
  outputfunc := some outputfunc
  comment := ascii comment.toList

/-- A line of the text without a value. -/
def title (attr : String) : Attr where
  attr := .text attr
  assignfunc := none
  outputfunc := none
  comment := []

def macRow (attr : String) (v : MacVar) : Attr := row attr (.mac v) (.mac v) ""

/-! ### Comments -/

/-- The lines of `timeZoneStr`. -/
def timeZoneLines : List String :=
  [";001-12:00: \"(GMT-12:00) International Date Line West\"",
    ";002-11:00: \"(GMT-11:00) Midway Island, Samoa\"",
    ";003-10:00: \"(GMT-10:00) Hawaii\"",
    ";004-09:00: \"(GMT-09:00) Alaska\"",
    ";005-08:00: \"(GMT-08:00) Pacific Time (US & Canada); Tijuana\"",
    ";006-07:00: \"(GMT-07:00) Arizona\"",
    ";007-07:00: \"(GMT-07:00) Chihuahua, La Paz, Mazatlan\"",
    ";008-07:00: \"(GMT-07:00) Mountain Time (US & Canada)\"",
    ";009-06:00: \"(GMT-06:00) Central America\"",
    ";010-06:00: \"(GMT-06:00) Central Time (US & Canada)\"",
    ";011-06:00: \"(GMT-06:00) Guadalajara, Mexico City, Monterrey\"",
    ";012-06:00: \"(GMT-06:00) Saskatchewan\"",
    ";013-05:00: \"(GMT-05:00) Bogota, Lima, Quito\"",
    ";014-05:00: \"(GMT-05:00) Eastern Time (US & Canada)\"",
    ";015-05:00: \"(GMT-05:00) Indiana (East)\"",
    ";016-04:00: \"(GMT-04:00) Atlantic Time (Canada)\"",
    ";017-04:00: \"(GMT-04:00) Caracas, La Paz\"",
    ";018-04:00: \"(GMT-04:00) Santiago\"",
    ";019-03:00: \"(GMT-03:00) Newfoundland\"",
    ";020-03:00: \"(GMT-03:00) Brasilia\"",
    ";021-03:00: \"(GMT-03:00) Buenos Aires, Georgetown\"",
    ";022-03:00: \"(GMT-03:00) Greenland\"",
    ";023-02:00: \"(GMT-02:00) Mid-Atlantic\"",
    ";024-01:00: \"(GMT-01:00) Azores\"",
    ";025-01:00: \"(GMT-01:00) Cape Verde Is.\"",
    ";026+00:00: \"(GMT) Casablanca, Monrovia\"",
    ";027+00:00: \"(GMT) Greenwich Mean Time : Dublin, Edinburgh, Lisbon, London\"",
    ";028+01:00: \"(GMT+01:00) Amsterdam, Berlin, Bern, Rome, Stockholm, Vienna\"",
    ";029+01:00: \"(GMT+01:00) Belgrade, Bratislava, Budapest, Ljubljana, Prague\"",
    ";030+01:00: \"(GMT+01:00) Brussels, Copenhagen, Madrid, Paris\"",
    ";031+01:00: \"(GMT+01:00) Sarajevo, Skopje, Warsaw, Zagreb\"",
    ";032+01:00: \"(GMT+01:00) West Central Africa\"",
    ";033+02:00: \"(GMT+02:00) Athens, Beirut, Istanbul, Minsk\"",
    ";034+02:00: \"(GMT+02:00) Bucharest\"",
    ";035+02:00: \"(GMT+02:00) Cairo\"",
    ";036+02:00: \"(GMT+02:00) Harare, Pretoria\"",
    ";037+02:00: \"(GMT+02:00) Helsinki, Kyiv, Riga, Sofia, Tallinn, Vilnius\"",
    ";038+02:00: \"(GMT+02:00) Jerusalem\"",
    ";039+03:00: \"(GMT+03:00) Baghdad\"",
    ";040+03:00: \"(GMT+03:00) Kuwait, Riyadh\"",
    ";041+03:00: \"(GMT+03:00) Moscow, St. Petersburg, Volgograd\"",
    ";042+03:00: \"(GMT+03:00) Nairobi\"",
    ";043+03:30: \"(GMT+03:30) Tehran\"",
    ";044+04:00: \"(GMT+04:00) Abu Dhabi, Muscat\"",
    ";045+04:00: \"(GMT+04:00) Baku, Tbilisi, Yerevan\"",
    ";046+04:30: \"(GMT+04:30) Kabul\"",
    ";047+05:00: \"(GMT+05:00) Ekaterinburg\"",
    ";048+05:00: \"(GMT+05:00) Islamabad, Karachi, Tashkent\"",
    ";049+05:30: \"(GMT+05:30) Chennai, Kolkata, Mumbai, New Delhi\"",
    ";050+05:45: \"(GMT+05:45) Kathmandu\"",
    ";051+06:00: \"(GMT+06:00) Almaty, Novosibirsk\"",
    ";052+06:00: \"(GMT+06:00) Astana, Dhaka\"",
    ";053+06:00: \"(GMT+06:00) Sri Jayawardenepura\"",
    ";054+06:00: \"(GMT+06:00) Rangoon\"",
    ";055+07:00: \"(GMT+07:00) Bangkok, Hanoi, Jakarta\"",
    ";056+07:00: \"(GMT+07:00) Krasnoyarsk\"",
    ";057+08:00: \"(GMT+08:00) China, Hong Kong, Australia Western\"",
    ";058+08:00: \"(GMT+08:00) Irkutsk, Ulaan Bataar\"",
    ";059+08:00: \"(GMT+08:00) Kuala Lumpur, Singapore\"",
    ";060+08:00: \"(GMT+08:00) Perth\"",
    ";061+08:00: \"(GMT+08:00) Taipei\"",
    ";062+09:00: \"(GMT+09:00) Osaka, Sapporo, Tokyo\"",
    ";063+09:00: \"(GMT+09:00) Seoul\"",
    ";064+09:00: \"(GMT+09:00) Yakutsk\"",
    ";065+09:30: \"(GMT+09:30) Adelaide\"",
    ";066+09:30: \"(GMT+09:30) Darwin\"",
    ";067+10:00: \"(GMT+10:00) Brisbane\"",
    ";068+10:00: \"(GMT+10:00) Canberra, Melbourne, Sydney\"",
    ";069+10:00: \"(GMT+10:00) Guam, Port Moresby\"",
    ";070+10:00: \"(GMT+10:00) Hobart\"",
    ";071+10:00: \"(GMT+10:00) Vladivostok\"",
    ";072+11:00: \"(GMT+11:00) Magadan, Solomon Ls., New Caledonia\"",
    ";073+12:00: \"(GMT+12:00) Auckland, Wellington\"",
    ";074+12:00: \"(GMT+12:00) Fiji, Kamchatka, Marshall ls.\"",
    ";075+13:00: \"(GMT+13:00) Nuku`alofa\""]

/-- `timeZoneStr` -/
def timeZoneStr : String := String.join (timeZoneLines.map fun l => "\r\n" ++ l)

/-- `comment[coLine]` of `OutputCountryComment` -/
def countryComment (defaultCountry : Int) : List Byte :=
  ascii <| String.toList <|
    if defaultCountry = 36 then ";36: Australia. It\xa1\xafs read only"
    else if defaultCountry = 76 then ";76: Brazil. It\xa1\xafs read only"
    else if defaultCountry = 156 then ";156: China. It\xa1\xafs read only"
    else if defaultCountry = 276 then
      ";1702: Asia, 208: Denmark, 1276: Europe, 246: Finland, 250: France, 276: Germany,\r\n" ++
        "         372: Ireland, 380: Italy, 392: Japan, 528: Netherlands, 554: New Zealand, " ++
        "578: Norway, \r\n         724: Spain, 752: Sweden, 756: Switzerland, 826: United Kingdom"
    else if defaultCountry = 484 then ";484: Mexico, 630: Puerto Rico, 1076: South America"
    else if defaultCountry = 410 then ";410: South Korea. It\xa1\xafs read only"
    else ";840: United States. It\xa1\xafs read only"

/-! ### Attributes -/

/-- `Basic` -/
def basic : List Attr :=
  [
    row "Host_Name" (.assignStr40 .apName) (.str .apName) "",
    row "Device_Name" (.assignStr40 .apDesc) (.str .apDesc) "",
    row "Language" (.assignStr40 .apLang) (.str .apLang) "",
    row "IP_settings" (.assign01 .dhcpF) (.byte .dhcpF) ";0:static; 1:automatic",
    row "Ipv4_address" (.ip .ipAddress4) (.ip .ipAddress4) "",
    row "Ipv4_subnet_mask" (.mask .subnet4) (.ip .subnet4) "",
    row "IPv4_default_gateway" (.ip .gateway4) (.ip .gateway4) "",
    row "IPv4_Primary_DNS" (.assignStr15 .dnsServer1) (.str .dnsServer1) "",
    row "IPv4_Secondary_DNS" (.assignStr15 .dnsServer2) (.str .dnsServer2) "",
    row "IPv6" (.assign01 .ipv6) (.byte .ipv6) ";0:disabled; 1:enabled",
    row "IPv6_settings" (.assign01 .dhcp6F) (.byte .dhcp6F) ";0:static; 1:automatic",
    row "Ipv6_address" (.ipv6 .ipAddress6) (.str .ipAddress6) "",
    row "Ipv6_prefix_length" (.assignPrefix .prefixlen) (.byte .prefixlen) "",
    row "IPv6_default_gateway" (.gwv6 .gateway6) (.str .gateway6) "",
    row "IPv6_Primary_DNS" (.ipv6 .ipv6dnsServer1) (.str .ipv6dnsServer1) "",
    row "IPv6_Secondary_DNS" (.ipv6 .ipv6dnsServer2) (.str .ipv6dnsServer2) ""]

/-- `Time` -/
def time : List Attr :=
  [
    row "Time_setting" (.assign01 .timesetting) (.byte .timesetting)
      ";0: manually, 1:automatically",
    row "Date" (.date .dateP) (.str .dateP) ";yyyy/mm/dd",
    row "Time" (.time .timeP) (.str .timeP) ";hh:mm:ss",
    row "Time_zone" (.timeZone .timeZone) (.str .timeZone) timeZoneStr,
    row "daylight_saving" (.assign01 .daylightSaving) (.byte .daylightSaving)
      ";0:disabled, 1:enabled",
    row "User_Defined_NTP" (.assign01 .usDefntp) (.byte .usDefntp) ";0:disabled, 1:enabled",
    row "User_NTP" (.assignServerStr .ntpServer) (.str .ntpServer) ""]

/-- `Setup_adv` -/
def setupAdv : List Attr :=
  [
    row "Force_Fast_Ethernet" (.assign01 .htForce100m) (.byte .htForce100m)
      ";0:disabled, 1:enabled",
    row "Ethernet_Auto_Negotiation" (.assign01 .htAutoNegotiation) (.byte .htAutoNegotiation)
      ";0:disabled, 1:enabled",
    row "Administrative_Port_Speed" (.assign0To2 .htPortSpeed) (.byte .htPortSpeed)
      ";0:10M, 1:100M, 2:1000M",
    row "Administrative_Duplex_Mode" (.assign01 .htDuplexMode) (.byte .htDuplexMode)
      ";0:Half Duplex, 1:Full Duplex",
    row "Bonjour" (.assign01 .htBonjour) (.byte .htBonjour) ";0:disabled, 1:enabled",
    row "HTTP_Redirect" (.assign01 .htRedirect) (.byte .htRedirect) ";0:disabled, 1:enabled",
    row "HTTP_Redirect_URL" (.url .htRedirectUrl) (.str .htRedirectUrl) "",
    row "802.1x_supplicant" (.assign01 .ethDot1xAuth) (.byte .ethDot1xAuth)
      ";0:disabled, 1:enabled",
    row "Via_mac_authentication" (.assign01 .authViaMac) (.byte .authViaMac)
      ";0:disabled, 1:enabled",
    row "Username" (.assignStr64 .authName) (.str .authName) "",
    row "Password" (.password .authPasswd) (.str .authPasswd) ""]

/-- `Wlan_Basic` -/
def wlanBasic : List Attr :=
  [
    row "Network_mode" (.assign0To7 .wlsMode) (.byte .wlsMode)
      ";0:Disable; 1: b only; 2: g only; 3: n only; 4: B/G mixed; 7:B/G/N mixed",
    row "Channel" (.assign0To14 .channel) (.byte .channel) "; 0..14; 0: auto channel",
    row "SSID1" (.ssid (.ssid 0)) (.str (.ssid 0)) "",
    row "SSID1_broadcast" (.assign01 (.ssidBroadcast 0)) (.byte (.ssidBroadcast 0))
      ";0:disabled, 1:enabled",
    row "SSID2" (.ssid (.ssid 1)) (.str (.ssid 1)) "",
    row "SSID2_broadcast" (.assign01 (.ssidBroadcast 1)) (.byte (.ssidBroadcast 1))
      ";0:disabled, 1:enabled",
    row "SSID3" (.ssid (.ssid 2)) (.str (.ssid 2)) "",
    row "SSID3_broadcast" (.assign01 (.ssidBroadcast 2)) (.byte (.ssidBroadcast 2))
      ";0:disabled, 1:enabled",
    row "SSID4" (.ssid (.ssid 3)) (.str (.ssid 3)) "",
    row "SSID4_broadcast" (.assign01 (.ssidBroadcast 3)) (.byte (.ssidBroadcast 3))
      ";0:disabled, 1:enabled"]

/-- `Radius_Server` -/
def radiusServer : List Attr :=
  [
    row "Primary_radius_server" (.ip .authSIP1) (.ip .authSIP1) "",
    row "Primary_port_no" (.assignPort .authSPort1) (.word .authSPort1) "",
    row "Primary_shared_secret" (.secret128 .authSSecret1) (.pass .authSSecret1) "",
    row "Secondary_radius_server" (.ip .authSIP2) (.ip .authSIP2) "",
    row "Secondary_port_no" (.assignPort .authSPort2) (.word .authSPort2) "",
    row "Secondary_shared_secret" (.secret128 .authSSecret2) (.pass .authSSecret2) ""]

/-- `Wlan_sec_1` to `Wlan_sec_4` -/
def wlanSec (vap : Nat) (name psk : String) : List Attr :=
  [
    title name,
    shown "ssid" (.str (.ssid vap)) "",
    row "isolation_between_SSID" (.assign01 .vapIsolated) (.byte .vapIsolated)
      ";0:disabled, 1:enabled",
    row "security_mode" (.assign0To8 (.secSystem vap)) (.byte (.secSystem vap))
      (";1: WEP, 2: WPA-Personal, 3: WPA2-Personal, 4: WPA2-Personal Mixed, 5: " ++
        "WPA-Enterprise,\r\n    6: WPA2-Enterprise, 7: WPA2-Enterprise Mixed, 8:RADIUS, 0: " ++
        "Disabled"),
    row "isolation_within_SSID" (.assign01 (.wlsSeparation vap)) (.byte (.wlsSeparation vap))
      ";0:disabled, 1:enabled",
    row "authentication_type" (.assign0To2 (.authType vap)) (.byte (.authType vap))
      ";0:open system; 1:shared key",
    row "encryption" (.keyLen (.encrypt vap)) (.byte (.encrypt vap))
      ";64: 64 bit WEP, 128:128 bit WEP, 1: TKP, 2: AES, 3: AES+TKIP",
    row "Default_Tx_key" (.assign1To4 (.keyNo vap)) (.byte (.keyNo vap)) "; 1..4",
    row "key1" (.key (.key 1 vap)) (.pass (.key 1 vap)) ";in Hex",
    row "key2" (.key (.key 2 vap)) (.pass (.key 2 vap)) ";in Hex",
    row "key3" (.key (.key 3 vap)) (.pass (.key 3 vap)) ";in Hex",
    row "key4" (.key (.key 4 vap)) (.pass (.key 4 vap)) ";in Hex",
    row "PSK_key" (.preSharedKey (.preShared vap)) (.pass (.preShared vap)) psk,
    row "Key_renew" (.assignWord (.keyrenew vap)) (.word (.keyrenew vap)) ";in seconds"]

/-- `Wlan_sec_1` -/
def wlanSec1 : List Attr :=
  wlanSec 0 ";for SSID1" ";in ASCII; The length of the key is from 8 to 64"

/-- `Wlan_sec_2` -/
def wlanSec2 : List Attr :=
  wlanSec 1 ";for SSID2" ";in ASCII; The length of the key is from 8 to 63"

/-- `Wlan_sec_3` -/
def wlanSec3 : List Attr :=
  wlanSec 2 ";for SSID3" ";in ASCII; The length of the key is from 8 to 63"

/-- `Wlan_sec_4` -/
def wlanSec4 : List Attr :=
  wlanSec 3 ";for SSID4" ";in ASCII; The length of the key is from 8 to 63"

/-- `Wlan_Conn_Control_1` to `Wlan_Conn_Control_4` -/
def wlanConnControl (vap : Nat) (name : String) : List Attr :=
  [
    title name,
    row "Connection_Control" (.assign0To2 (.aclFlag vap)) (.byte (.aclFlag vap))
      ";0: disabled, 1:local, 2: Radius",
    row "Control_type" (.assign01 (.aclType vap)) (.byte (.aclType vap))
      ";0: allowed the following local mac, 1: prevent the following local mac",
    macRow "Mac_01" (.aclMac vap 0),
    macRow "Mac_02" (.aclMac vap 1),
    macRow "Mac_03" (.aclMac vap 2),
    macRow "Mac_04" (.aclMac vap 3),
    macRow "Mac_05" (.aclMac vap 4),
    macRow "Mac_06" (.aclMac vap 5),
    macRow "Mac_07" (.aclMac vap 6),
    macRow "Mac_08" (.aclMac vap 7),
    macRow "Mac_09" (.aclMac vap 8),
    macRow "Mac_10" (.aclMac vap 9),
    macRow "Mac_11" (.aclMac vap 10),
    macRow "Mac_12" (.aclMac vap 11),
    macRow "Mac_13" (.aclMac vap 12),
    macRow "Mac_14" (.aclMac vap 13),
    macRow "Mac_15" (.aclMac vap 14),
    macRow "Mac_16" (.aclMac vap 15),
    macRow "Mac_17" (.aclMac vap 16),
    macRow "Mac_18" (.aclMac vap 17),
    macRow "Mac_19" (.aclMac vap 18),
    macRow "Mac_20" (.aclMac vap 19)]

/-- `Wlan_Conn_Control_1` -/
def wlanConnControl1 : List Attr := wlanConnControl 0 ";for SSID1"

/-- `Wlan_Conn_Control_2` -/
def wlanConnControl2 : List Attr := wlanConnControl 1 ";for SSID2"

/-- `Wlan_Conn_Control_3` -/
def wlanConnControl3 : List Attr := wlanConnControl 2 ";for SSID3"

/-- `Wlan_Conn_Control_4` -/
def wlanConnControl4 : List Attr := wlanConnControl 3 ";for SSID4"

/-- `VLAN_QoS` -/
def vlanQoS : List Attr :=
  [
    row "VLAN" (.assign01 .vlan) (.byte .vlan) ";0: disabled, 1:enabled",
    row "Default_VLAN_ID" (.assign1To4094 .nativeVid) (.word .nativeVid) ";1..4094",
    row "VLAN_Tag" (.assign0To2 .vlanTag) (.byte .vlanTag) ";0:untagged, 1: tagged",
    row "AP_Management_VLAN" (.assign1To4094 .manageVid) (.word .manageVid) ";1..4094",
    row "VLAN_tag_over_WDS" (.assign0To2 .wdsTag) (.byte .wdsTag) ";0: disabled, 1:enabled",
    row "WDS_VLAN_List" (.wdsvlist .wdsVlanList) (.str .wdsVlanList)
      (";a,b,...,\"a\" is a VLAN ID. Different IDs divided by \",\". 4 VLAN IDs should be set " ++
        "at most"),
    row "VLAN_ID_4_SSID1" (.assign1To4094 (.vapVlan 0)) (.word (.vapVlan 0)) ";1..4094",
    row "Priority_4_SSID1" (.assign0To7 (.vapPri 0)) (.byte (.vapPri 0)) ";0..7",
    row "WMM_4_SSID1" (.assign0To2 (.vapWmm 0)) (.byte (.vapWmm 0)) ";0: disabled, 1:enabled",
    row "VLAN_ID_4_SSID2" (.assign1To4094 (.vapVlan 1)) (.word (.vapVlan 1)) ";1..4094",
    row "Priority_4_SSID2" (.assign0To7 (.vapPri 1)) (.byte (.vapPri 1)) ";0..7",
    row "WMM_4_SSID2" (.assign0To2 (.vapWmm 1)) (.byte (.vapWmm 1)) ";0: disabled, 1:enabled",
    row "VLAN_ID_4_SSID3" (.assign1To4094 (.vapVlan 2)) (.word (.vapVlan 2)) ";1..4094",
    row "Priority_4_SSID3" (.assign0To7 (.vapPri 2)) (.byte (.vapPri 2)) ";0..7",
    row "WMM_4_SSID3" (.assign0To2 (.vapWmm 2)) (.byte (.vapWmm 2)) ";0: disabled, 1:enabled",
    row "VLAN_ID_4_SSID4" (.assign1To4094 (.vapVlan 3)) (.word (.vapVlan 3)) ";1..4094",
    row "Priority_4_SSID4" (.assign0To7 (.vapPri 3)) (.byte (.vapPri 3)) ";0..7",
    row "WMM_4_SSID4" (.assign0To2 (.vapWmm 3)) (.byte (.vapWmm 3)) ";0: disabled, 1:enabled"]

/-- `Wlan_Adv` -/
def wlanAdv : List Attr :=
  [
    row "802.11d" (.assign01 .worldwide) (.byte .worldwide) ";0: disabled, 1:enabled",
    row "Country_Region" (.country .countryCode) (.word .countryCode) "",
    row "Channel_bandwidth" (.assign0To2 .channelBand) (.byte .channelBand)
      ";0: auto, 1: 20MHz, 2: 40MHz",
    row "Guard_Interval" (.assign0To2 .guardInter) (.byte .guardInter)
      ";0: auto, 1: 400ns, 2: 800ns",
    row "CTS_Protection_Mode" (.assign01 .ctsProtect) (.byte .ctsProtect) ";0: disable, 1: auto",
    row "beacon_interval" (.assign20To1000 .beaconInterval) (.word .beaconInterval) ";20..1000",
    row "DTIM_interval" (.assign1To255 .dtimInter) (.byte .dtimInter) ";1..255",
    row "rts_threshold" (.assign0To2347 .rtsThreshold) (.word .rtsThreshold) ";1..2347",
    row "fragmentation_threshold" (.assign256To2346 .fragLength) (.word .fragLength) ";256..2346",
    row "Load_balance" (.assign01 .loadBalance) (.byte .loadBalance) ";0: disabled, 1:enabled",
    row "Load_threshold_4_SSD1" (.percent (.vapBalance 0)) (.percent (.vapBalance 0)) "",
    row "Load_threshold_4_SSD2" (.percent (.vapBalance 1)) (.percent (.vapBalance 1)) "",
    row "Load_threshold_4_SSD3" (.percent (.vapBalance 2)) (.percent (.vapBalance 2)) "",
    row "Load_threshold_4_SSD4" (.percent (.vapBalance 3)) (.percent (.vapBalance 3)) ""]

/-- `AP_Mode` -/
def apMode : List Attr :=
  [
    row "AP_mode" (.assign0To4 .opMode) (.byte .opMode)
      ";0: Access Point, 1: WDS repeater, 2: WDS bridge, 3: Universal bridge, 4: Monitor",
    row "MAC1" (.mac (.pxpMac 0)) (.mac (.pxpMac 0)) "",
    row "MAC2" (.mac (.pxpMac 1)) (.mac (.pxpMac 1)) "",
    row "MAC3" (.mac (.pxpMac 2)) (.mac (.pxpMac 2)) "",
    row "MAC4" (.mac (.pxpMac 3)) (.mac (.pxpMac 3)) "",
    row "Allow_WDS_repeater" (.assign01 .wdsRepeater) (.byte .wdsRepeater)
      ";0:disabled, 1: enabled",
    row "Universal_repeater" (.assign01 .ucrRepeater) (.byte .ucrRepeater)
      ";0:disabled, 1: enabled",
    row "Preferred_SSID" (.ssid .perfssid) (.str .perfssid) ";for universal bridge",
    row "No_Security" (.assign01 .noSecurity) (.byte .noSecurity)
      ";1: view it as a rogue AP. 0: don\xa1\xaft",
    row "No_in_Legal_AP_List" (.assign01 .illegalAp) (.byte .illegalAp)
      ";1: view it as a rogue AP. 0: don\xa1\xaft",
    row "Legal_AP_List_entry_no" (.rogueNo) (.rogueNo) ";0..255",
    row "Legal_AP" (.scMacList) (.scMacList) ""]

/-- `Management` -/
def management : List Attr :=
  [
    row "secret_shown" (.assign01 .secShow) (.byte .secShow)
      ";0: show clear text, 1: just show ********",
    row "username" (.assignStr64 .loginName) (.str .loginName) "",
    row "AP_password" (.password .loginPasswd) (.pass .loginPasswd) "",
    row "HTTPS_Access" (.assign01 .httpsEnable) (.byte .httpsEnable) ";0:disabled, 1: enabled",
    row "Wireless_Web_Access" (.assign01 .webAccess) (.byte .webAccess) ";0:disabled, 1: enabled",
    row "Secure_Shell" (.assign01 .secureSh) (.byte .secureSh) ";0:disabled, 1: enabled",
    row "SNMP" (.assign01 .snmp) (.byte .snmp) ";0:disabled, 1: enabled",
    row "Contact" (.assignStr32 .contact) (.str .contact) "",
    row "Device_Name" (.assignStr32 .snmpdevice) (.str .snmpdevice) "",
    row "Location" (.assignStr32 .snmplocal) (.str .snmplocal) "",
    row "Get_Community" (.assignStr32 .getCom) (.str .getCom) "",
    row "Set_Community" (.assignStr32 .setCom) (.str .setCom) "",
    row "Trap_Community" (.assignStr32 .trapCom) (.str .trapCom) "",
    row "SNMP_Trusted_Any_Host" (.assign01 .snmpTrust) (.byte .snmpTrust) ";0:disabled, 1: enabled",
    row "SNMP_Trusted_Host_start_IP" (.ip .trapStartIp) (.ip .trapStartIp) "",
    row "SNMP_Trusted_Host_range" (.assign1To254 .trapRange) (.byte .trapRange) ";0..255",
    row "Trap_Destination" (.ip .trapServerIp) (.ip .trapServerIp) ""]

/-- `Log` -/
def log : List Attr :=
  [
    row "E-mail_alert" (.assign01 .mailAlert) (.byte .mailAlert) ";0:disabled, 1: enabled",
    row "SMTP_server" (.smtpServer .smtpServ) (.str .smtpServ) "",
    row "Email_address_for_logs" (.mail .mailAddr) (.str .mailAddr) "",
    row "Log_queue_length" (.assign1To500 .logLength) (.word .logLength) "",
    row "Log_time_threshold" (.assign60To600 .logTime) (.word .logTime) "",
    row "Syslog" (.assign01 .syslogF) (.byte .syslogF) ";0:disabled, 1: enabled",
    row "Syslog_server_IP" (.ip .logIPAddr) (.ip .logIPAddr) "",
    row "Unathorized_login_attempt" (.assign01 .unAthLogin) (.byte .unAthLogin) ";0:no log, 1: log",
    row "Authorized_Login" (.assign01 .athLogin) (.byte .athLogin) ";0:no log, 1: log",
    row "System_error_message" (.assign01 .sysError) (.byte .sysError) ";0:no log, 1: log",
    row "Configuration_changes" (.assign01 .cfgChange) (.byte .cfgChange) ";0:no log, 1: log"]

/-- `CFGData`, from the index 1 on -/
def cfgData : List Group :=
  [⟨.text "BASIC", basic⟩,
    ⟨.text "Time", time⟩,
    ⟨.text "Setup_advanced", setupAdv⟩,
    ⟨.text "Wireless_Basic", wlanBasic⟩,
    ⟨.text "Radius_Server", radiusServer⟩,
    ⟨.text "Wireless_security_1", wlanSec1⟩,
    ⟨.text "Wireless_security_2", wlanSec2⟩,
    ⟨.text "Wireless_security_3", wlanSec3⟩,
    ⟨.text "Wireless_security_4", wlanSec4⟩,
    ⟨.text "Wireless_Connection_Control_1", wlanConnControl1⟩,
    ⟨.text "Wireless_Connection_Control_2", wlanConnControl2⟩,
    ⟨.text "Wireless_Connection_Control_3", wlanConnControl3⟩,
    ⟨.text "Wireless_Connection_Control_4", wlanConnControl4⟩,
    ⟨.text "VLAN_QoS", vlanQoS⟩,
    ⟨.text "Wireless_Advanced", wlanAdv⟩,
    ⟨.text "AP_Mode", apMode⟩,
    ⟨.text "Management", management⟩,
    ⟨.text "Log", log⟩]

end Wap4410n.Editcfg
