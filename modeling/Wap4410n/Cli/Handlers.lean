import Wap4410n.Apcfg.Wlan
import Wap4410n.Cli.Words

/-!
# CLI — handlers of values

The handlers of `set tod`, `set toc`, `set http-redirect url` and `set psk` pop the token with the
new value and copy it into an array of their own.  The first two cut the copy at its separators
into three numbers, `scValidUrl` copies the URL once more, and `asciiToPassphraseKey` writes a
passphrase of 64 characters as a key.  What `libapcfg` does behind them is `lib`: only the arrays of
a handler and of what it calls in `libutility`, and the pointers it uses, are its own.

* `setParts_confined`, `setParts_null`: three numbers are cut out just when the text has that many
  fields.
* `asciiToPassphraseKey_inBounds`: the key stays in its array.
* `safe_iff`: a handler is safe for a token just when the token fits (`Fits`).
-/

namespace LinksysCli

open CLib
open Wap4410n.Apcfg (Config Cfg Buf Status SysField enable getAtoi setNew putInt putTime)
open Wap4410n.Apcfg (apCfgTimeModeGet apCfgTimeYearGet apCfgTimeMonGet apCfgTimeDayGet
  apCfgTimeHourGet apCfgTimeMinGet apCfgTimeSecGet apCfgTimeYearSet apCfgTimeMonSet apCfgTimeDaySet
  apCfgTimeHourSet apCfgTimeMinSet apCfgTimeSecSet apCfgRedirectUrlGet apCfgRedirectUrlSet
  apCfgPassphraseGet apCfgPassphraseSet)

/-- The objects of the handlers. -/
inductive Local where
  | date
  | iclock
  | buf
  | passphrase
  | passKey
  /-- the copy `scValidUrl` makes -/
  | tempUrl
  /-- what `strtok` returns -/
  | token
  /-- what `sccli_tokenPop` returns -/
  | popped
  /-- an object of `libapcfg` -/
  | lib (b : Buf)
deriving DecidableEq, Repr

abbrev Call := Act Config Local

/-- A call of `libapcfg`. -/
def lib {A : Type} (m : Cfg A) : Call A := Act.relabel Local.lib m

/-- What a function returns that has stored into the array `o`. -/
def storing {A : Type} (o : Local) (r : A × Block) : Call A :=
  if r.2.InBounds then pure r.1 else Act.fault (.outside o)

/-- `strcpy(o, p);`, into an array of `size` bytes. -/
def strcpy (o : Local) (size : Nat) (p : CStr) : Call CStr :=
  storing o (p, (Block.fresh size).strcpy p)

/-- A pointer that may be NULL is used. -/
def used {A : Type} (o : Local) : Option A → Call A
  | none => Act.fault (.null o)
  | some a => pure a

/-! ### `libutility` -/

def scIsIpAddress (ipAddr : CStr) : Bool :=
  let ip := (inetAddr ipAddr).toNat
  (inetAddr (.text "1.0.0.1")).toNat ≤ ip && ip ≤ (inetAddr (.text "254.255.255.254")).toNat

def scIsAllnumber (str : CStr) : Bool :=
  str.bytes.all fun ch => ch ∈ (CStr.text "0123456789.").bytes

def validstr : CStr := .text "\x22\x5c[<]>:;,|=+*? ~!@#$%^&()\x60\x7b\x7d"

/-- `!strncasecmp(p, s, strlen(s))` -/
def beginsNoCase (p s : CStr) : Bool := (p.bytes.take s.length).map Cli.tolower = s.bytes

def scValidUrl (charStr : CStr) : Call Bool := do
  let tempUrl ← strcpy .tempUrl 129 charStr
  let pt :=
    if beginsNoCase tempUrl (.text "http://") then tempUrl.drop 7
    else if beginsNoCase tempUrl (.text "https://") then tempUrl.drop 8
    else tempUrl
  let count := pt.bytes.count 0x2e
  if count = 0 then return false
  else if count = 3 ∧ scIsIpAddress tempUrl then return true
  else if pt.bytes.any fun ch => ch ∈ validstr.bytes then return false
  else return !scIsAllnumber pt

/-- The loop of `asciiToPassphraseKey`, over what is left of `pstr`; `keyIndex` is the position of
the cursor. -/
def asciiToKey (encryptedKeyLen : Nat) : List Byte → Nat → Byte → Cursor → Status × Cursor
  | [], _, _, pPpKey => (.ok, pPpKey)
  | ch :: pstr, count, tval, pPpKey =>
      if encryptedKeyLen ≤ pPpKey.pos then (.ok, pPpKey)
      else
        match digitValue ch with
        | none => (.einval, pPpKey)
        | some v =>
            let tval := tval <<< 4 ||| .ofNat v
            if count + 1 = 2 then asciiToKey encryptedKeyLen pstr 0 0 (pPpKey.put tval)
            else asciiToKey encryptedKeyLen pstr (count + 1) tval pPpKey

def asciiToPassphraseKey (pstr : CStr) (pPpKey : Block) (encryptedKeyLen : Nat) : Status × Block :=
  let (rc, pPpKey) := asciiToKey encryptedKeyLen pstr.bytes 0 0 (.start pPpKey)
  (rc, pPpKey.block)

/-! ### The handlers -/

/-- `value = strtok(…, separ); rc = set(atoi(value)); if(rc != A_OK) return CLI_PARSE_ERROR;`, for
one setter after the other. -/
def setParts (separ : Byte) : List (Int → Cfg Status) → CStr → Call Bool
  | [], _ => pure true
  | set :: sets, s => do
      let (value, s) ← used .token (s.strtok [separ])
      let rc ← lib (set (atoi value))
      if rc ≠ .ok then return false else setParts separ sets s

/-- The token is copied into `array`, and the numbers are set from the copy. -/
def copyParts (array : Local) (separ : Byte) (sets : List (Int → Cfg Status))
    (gets : List (Cfg Int)) (pToken : CStr) (pCli : Cli) : Call (Int × Cli) := do
  let text ← strcpy array 32 pToken
  let set ← setParts separ sets text
  if set = false then return (cliParseError, pCli)
  else do
    Act.each (fun get => Act.ignore (lib get)) gets
    return (cliParseOk, pCli)

/-- A handler of numbers with separators between them. -/
def partsCliCmdSet (array : Local) (separ : Byte) (sets : List (Int → Cfg Status))
    (gets : List (Cfg Int)) (buf : Block) (pCli : Cli) : Call (Int × Cli) :=
  if pCli.sccliTokenCount ≠ 1 then return (cliParseError, pCli)
  else do
    let mode ← lib apCfgTimeModeGet
    if mode ≠ 1 then return (cliParseError, pCli)
    else do
      let (pToken, pCli) := pCli.sccliTokenPop buf
      let pToken ← used .popped pToken
      copyParts array separ sets gets pToken pCli

/-- `todCliCmdSet` -/
def todCliCmdSet : Block → Cli → Call (Int × Cli) :=
  partsCliCmdSet .date 0x2f [apCfgTimeYearSet, apCfgTimeMonSet, apCfgTimeDaySet]
    [apCfgTimeYearGet, apCfgTimeMonGet, apCfgTimeDayGet]

/-- `tocCliCmdSet` -/
def tocCliCmdSet : Block → Cli → Call (Int × Cli) :=
  partsCliCmdSet .iclock 0x3a [apCfgTimeHourSet, apCfgTimeMinSet, apCfgTimeSecSet]
    [apCfgTimeHourGet, apCfgTimeMinGet, apCfgTimeSecGet]

def httpURLCliCmdSet (buf : Block) (pCli : Cli) : Call (Int × Cli) :=
  if pCli.sccliTokenCount = 0 then return (cliParseNoValue, pCli)
  else do
    let (pStr, pCli) := pCli.sccliTokenPop buf
    let pStr ← used .popped pStr
    let url ← strcpy .buf 128 pStr
    if (CStr.text "https").bytes <+: pStr.bytes then return (cliParseError, pCli)
    else do
      let valid ← scValidUrl pStr
      if valid = false then return (cliParseError, pCli)
      else do
        let result ← lib (apCfgRedirectUrlSet url)
        if result ≠ .ok then return (cliParseError, pCli)
        else do
          Act.ignore (lib apCfgRedirectUrlGet)
          return (cliParseOk, pCli)

/-- `( bufLen == CFG_MAX_PASSPHRASE ) && (asciiToPassphraseKey(…) != A_OK)` -/
def checkHex (passphrase : CStr) : Call Status :=
  if passphrase.length = 64 then
    storing .passKey (asciiToPassphraseKey passphrase (Block.fresh 64) 64)
  else return .ok

/-- `pskCliCmdSet`: `unit` and `vap` are those of the CLI. -/
def pskCliCmdSet (unit : Nat) (buf : Block) (pCli : Cli) : Call (Int × Cli) :=
  if pCli.sccliTokenCount = 0 then return (cliParseNoValue, pCli)
  else if pCli.sccliTokenCount = 1 then do
    let (p, pCli) := pCli.sccliTokenPop buf
    let p ← used .popped p
    let bufLen := p.length
    if cliInbuf < bufLen then return (cliParseError, pCli)
    -- `MIN_PASSPHRASE_SIZE`
    else if bufLen < 8 then return (cliParseError, pCli)
    -- `CFG_MAX_PASSPHRASE`
    else if 64 < bufLen then return (cliParseError, pCli)
    else do
      let passphrase ← strcpy .passphrase cliInbuf p
      let hex ← checkHex passphrase
      if hex ≠ .ok then return (cliParseError, pCli)
      else do
        -- only the text printed depends on the status
        Act.ignore (lib (apCfgPassphraseSet unit pCli.vap.toNat p))
        Act.ignore (lib (apCfgPassphraseGet unit pCli.vap.toNat))
        return (cliParseOk, pCli)
  else return (cliParseError, pCli)

inductive Handler where
  | tod
  | toc
  | httpURL
  | psk
deriving DecidableEq, Repr

/-- The handler, called for the radio `unit` with the parser's `buf`. -/
def Handler.run (unit : Nat) : Handler → Block → Cli → Call (Int × Cli)
  | .tod => todCliCmdSet
  | .toc => tocCliCmdSet
  | .httpURL => httpURLCliCmdSet
  | .psk => pskCliCmdSet unit

/-- `t` is the token the next pop answers. -/
def Next (buf : Block) (pCli : Cli) (t : CStr) : Prop :=
  pCli.tokenIdx < maxToken ∧ ∃ p ps, pCli.left = p :: ps ∧ Cli.tokenAt buf p = t

def Local.IsLib (o : Local) : Prop := ∃ b, o = .lib b

/-- With the token `t` next, whatever else the ring holds and whatever the configuration, the
handler and what it calls in `libutility` store inside their arrays and use no NULL. -/
def Safe (h : Handler) (t : CStr) : Prop :=
  ∀ unit buf pCli, Next buf pCli t → (h.run unit buf pCli).Confined Local.IsLib

/-- The token fits the handler's array, and has the fields the handler reads. -/
def Fits : Handler → CStr → Prop
  | .tod, t => t.length < 32 ∧ 3 ≤ (fields 0x2f t.bytes).length
  | .toc, t => t.length < 32 ∧ 3 ≤ (fields 0x3a t.bytes).length
  | .httpURL, t => t.length < 128
  | .psk, _ => True

/-! ### Stores and pops -/

theorem storing_confined {A : Type} {P : Local → Prop} {o : Local} {r : A × Block}
    (h : r.2.InBounds) : (storing o r).Confined P := by
  rw [storing, if_pos h]
  exact .pure _

theorem strcpy_eq {o : Local} {size : Nat} {p : CStr} (h : p.length < size) :
    strcpy o size p = pure p :=
  if_pos (Block.inBounds_strcpy.mpr ⟨Block.inBounds_fresh size, h⟩)

theorem strcpy_fault {o : Local} {size : Nat} {p : CStr} (h : ¬p.length < size) :
    strcpy o size p = Act.fault (.outside o) :=
  if_neg fun hin : ((Block.fresh size).strcpy p).InBounds => h (Block.inBounds_strcpy.mp hin).2

theorem lib_confined {A : Type} (m : Cfg A) : (lib m).Confined Local.IsLib :=
  .relabel fun b => ⟨b, rfl⟩

/-- A call of `libapcfg` that returns. -/
theorem lib_eq {A : Type} {m : Cfg A} {c c' : Config} {a : A} (h : m c = (.ok a, c')) :
    lib m c = (.ok a, c') := by
  unfold lib Act.relabel
  rw [h]
  rfl

theorem Next.pop {buf : Block} {pCli : Cli} {t : CStr} (h : Next buf pCli t) :
    ∃ pCli', pCli.sccliTokenPop buf = (some t, pCli') := by
  obtain ⟨hidx, p, ps, hleft, ht⟩ := h
  obtain ⟨pCli', htake, -⟩ := Cli.take_cons hidx hleft
  refine ⟨pCli', ?_⟩
  rw [Cli.sccliTokenPop, htake, ← ht]

/-- The parser's state with the token `t` alone in its ring. -/
def sole (t : CStr) : Block × Cli := (⟨cliInbuf, t.mem⟩, sccliInit.sccliTokenInit.sccliTokenPush 0)

theorem next_sole (t : CStr) : Next (sole t).1 (sole t).2 t ∧ (sole t).2.sccliTokenCount = 1 := by
  have hidx : (sole t).2.tokenIdx < maxToken := Cli.tokenIdx_push _ 0
  have hleft : (sole t).2.left = [0] := Cli.left_pushes [0] sccliInit
  have hat : Cli.tokenAt (sole t).1 0 = t := CStr.before_append t []
  refine ⟨⟨hidx, 0, [], hleft, hat⟩, ?_⟩
  rw [Cli.sccliTokenCount_eq hidx, hleft]
  rfl

/-! ### Numbers with separators -/

/-- Each number has its field. -/
theorem setParts_confined {separ : Byte} {sets : List (Int → Cfg Status)} {s : CStr}
    (h : sets.length ≤ (fields separ s.bytes).length) :
    (setParts separ sets s).Confined Local.IsLib := by
  induction sets generalizing s with
  | nil => exact .pure true
  | cons set sets ih =>
      have hfields := fields_eq separ s.bytes
      cases htok : s.strtok [separ] with
      | none =>
          rw [CStr.strtok_eq_none.mp htok] at hfields
          rw [hfields] at h
          exact absurd h (Nat.not_succ_le_zero _)
      | some r =>
          rw [CStr.strtok_eq_some.mp htok] at hfields
          rw [hfields] at h
          have hrest := ih (Nat.le_of_succ_le_succ h)
          rw [setParts, htok]
          exact (lib_confined _).bind fun rc => .ite (fun _ => .pure false) fun _ => hrest

/-- A number that is set already is not written. -/
theorem putTime_eq {c : Config} {f : SysField} {v : CStr} (h : c.get (.sys f) = v) :
    putTime f (atoi v) c = (.ok .ok, c) := by
  have hget : getAtoi (.sys f) c = (.ok (atoi (c.get (.sys f))), c) := rfl
  unfold putTime putInt setNew
  rw [Act.bind_ok hget, h, Act.when, if_neg (not_not.mpr rfl)]
  rfl

/-- What the fields say is what the settings read. -/
def Reading (c : Config) (parts : List SysField) (texts : List (List Byte)) : Prop :=
  ∀ p ∈ parts.zip texts, c.get (.sys p.1) = .before p.2

/-- A number without a field is read through NULL. -/
theorem setParts_null {separ : Byte} {parts : List SysField} {s : CStr} {c : Config}
    (hc : Reading c parts (fields separ s.bytes))
    (h : (fields separ s.bytes).length < parts.length) :
    setParts separ (parts.map putTime) s c = (.error (.null .token), c) := by
  induction parts generalizing s with
  | nil => exact absurd h (Nat.not_lt_zero _)
  | cons f parts ih =>
      have hfields := fields_eq separ s.bytes
      cases htok : s.strtok [separ] with
      | none =>
          rw [List.map_cons, setParts, htok]
          rfl
      | some r =>
          rw [CStr.strtok_eq_some.mp htok] at hfields
          rw [hfields] at hc h
          have hf : c.get (.sys f) = r.1 := by
            rw [hc (f, r.1.bytes) List.mem_cons_self, CStr.before_bytes]
          have hrest := ih (fun p hp => hc p (List.mem_cons_of_mem _ hp))
            (Nat.lt_of_succ_lt_succ h)
          rw [List.map_cons, setParts, htok]
          show (lib (putTime f (atoi r.1)) >>= _) c = _
          rw [Act.bind_ok (lib_eq (putTime_eq hf))]
          exact hrest

/-- Settings read what they are to. -/
theorem exists_reading {parts : List SysField} (h : parts.Nodup) (c : Config)
    (texts : List (List Byte)) :
    ∃ c' : Config, Reading c' parts texts ∧
      ∀ f, f ∉ parts → c'.get (.sys f) = c.get (.sys f) := by
  induction parts generalizing texts with
  | nil => exact ⟨c, fun p hp => absurd hp List.not_mem_nil, fun _ _ => rfl⟩
  | cons f parts ih =>
      obtain ⟨hf, hparts⟩ := List.nodup_cons.mp h
      cases texts with
      | nil => exact ⟨c, fun p hp => absurd hp List.not_mem_nil, fun _ _ => rfl⟩
      | cons t texts =>
          obtain ⟨c', hread, hkept⟩ := ih hparts texts
          refine ⟨c'.set (.sys f) (.before t), ?_, ?_⟩
          · intro p hp
            rcases List.mem_cons.mp hp with rfl | hp
            · rw [Config.get_set_self]
            · have hne : p.1 ≠ f := fun he => hf (he ▸ (List.of_mem_zip hp).1)
              rw [Config.get_set_ne _ _ _ _ (by simpa using hne)]
              exact hread p hp
          · intro g hg
            have hne : g ≠ f := fun he => hg (he ▸ List.mem_cons_self)
            rw [Config.get_set_ne _ _ _ _ (by simpa using hne)]
            exact hkept g fun hmem => hg (List.mem_cons_of_mem f hmem)

section Parts

variable {array : Local} {separ : Byte} {parts : List SysField} {gets : List (Cfg Int)} {t : CStr}

theorem each_lib_confined (gets : List (Cfg Int)) :
    (Act.each (fun get => Act.ignore (lib get)) gets).Confined Local.IsLib := by
  induction gets with
  | nil => exact .pure ()
  | cons get gets ih => exact (lib_confined get).ignore.bind fun _ => ih

theorem copyParts_confined (pCli : Cli) (hlen : t.length < 32)
    (hfields : parts.length ≤ (fields separ t.bytes).length) :
    (copyParts array separ (parts.map putTime) gets t pCli).Confined Local.IsLib := by
  have hset : (setParts separ (parts.map putTime) t).Confined Local.IsLib :=
    setParts_confined (by rwa [List.length_map])
  unfold copyParts
  rw [strcpy_eq hlen]
  refine hset.bind fun set => .ite (fun _ => .pure _) fun _ => ?_
  exact (each_lib_confined gets).bind fun _ => .pure _

/-- A token too long is copied past the array. -/
theorem copyParts_long (sets : List (Int → Cfg Status)) (gets : List (Cfg Int)) (pCli : Cli)
    (c : Config) (hlen : ¬t.length < 32) :
    (copyParts array separ sets gets t pCli c).1 = .error (.outside array) := by
  unfold copyParts
  rw [strcpy_fault hlen]
  rfl

/-- A token with fewer fields leaves `strtok` nothing to return. -/
theorem copyParts_short {c : Config} (gets : List (Cfg Int)) (pCli : Cli) (hlen : t.length < 32)
    (hc : Reading c parts (fields separ t.bytes))
    (hfields : (fields separ t.bytes).length < parts.length) :
    (copyParts array separ (parts.map putTime) gets t pCli c).1 = .error (.null .token) := by
  unfold copyParts
  rw [strcpy_eq hlen, Act.pure_bind, Act.bind_error (setParts_null hc hfields)]

theorem partsCliCmdSet_confined {sets : List (Int → Cfg Status)} {buf : Block} {pCli : Cli}
    (hnext : Next buf pCli t)
    (h : ∀ pCli', (copyParts array separ sets gets t pCli').Confined Local.IsLib) :
    (partsCliCmdSet array separ sets gets buf pCli).Confined Local.IsLib := by
  obtain ⟨pCli', hpop⟩ := hnext.pop
  unfold partsCliCmdSet
  rw [hpop]
  refine .ite (fun _ => .pure _) fun _ => (lib_confined _).bind fun mode => ?_
  exact .ite (fun _ => .pure _) fun _ => h pCli'

/-- Where the time is set by hand, the only token in the ring is copied. -/
theorem partsCliCmdSet_sole (array : Local) (separ : Byte) (sets : List (Int → Cfg Status))
    (gets : List (Cfg Int)) (t : CStr) {c : Config} (hmode : c.get (.sys .todEnable) = enable) :
    ∃ pCli', partsCliCmdSet array separ sets gets (sole t).1 (sole t).2 c =
      copyParts array separ sets gets t pCli' c := by
  obtain ⟨hnext, hcount⟩ := next_sole t
  obtain ⟨pCli', hpop⟩ := hnext.pop
  have hget : apCfgTimeModeGet c = (.ok 1, c) := by
    have hflag : apCfgTimeModeGet c =
        (.ok (if c.get (.sys .todEnable) = enable then 1 else 0), c) := rfl
    rw [hflag, if_pos hmode]
  refine ⟨pCli', ?_⟩
  unfold partsCliCmdSet
  rw [hpop, if_neg (not_not.mpr hcount), Act.bind_ok (lib_eq hget)]
  rfl

/-- **A handler of numbers** is safe for a token just when the token fits its array and has a field
for each number. -/
theorem partsCliCmdSet_safe_iff (harray : ¬array.IsLib) (hparts : parts.Nodup)
    (hmode : SysField.todEnable ∉ parts) :
    (∀ buf pCli, Next buf pCli t →
        (partsCliCmdSet array separ (parts.map putTime) gets buf pCli).Confined Local.IsLib) ↔
      t.length < 32 ∧ parts.length ≤ (fields separ t.bytes).length := by
  constructor
  · intro h
    obtain ⟨c', hread, hkept⟩ := exists_reading hparts ⟨fun _ => enable, [], false⟩
      (fields separ t.bytes)
    have henable : c'.get (.sys .todEnable) = enable := hkept _ hmode
    obtain ⟨pCli', hsole⟩ := partsCliCmdSet_sole array separ (parts.map putTime) gets t henable
    have hsafe := h (sole t).1 (sole t).2 (next_sole t).1 c'
    rw [hsole] at hsafe
    have hlen : t.length < 32 := by
      by_contra hlong
      exact harray (hsafe _ (copyParts_long _ gets pCli' c' hlong))
    refine ⟨hlen, ?_⟩
    by_contra hshort
    obtain ⟨b, hb⟩ := hsafe _ (copyParts_short gets pCli' hlen hread (Nat.lt_of_not_le hshort))
    cases hb
  · rintro ⟨hlen, hfields⟩ buf pCli hnext
    exact partsCliCmdSet_confined hnext fun pCli' => copyParts_confined pCli' hlen hfields

theorem todCliCmdSet_eq : todCliCmdSet = partsCliCmdSet .date 0x2f
    ([.todYear, .todMon, .todDay].map putTime)
    [apCfgTimeYearGet, apCfgTimeMonGet, apCfgTimeDayGet] := rfl

theorem tocCliCmdSet_eq : tocCliCmdSet = partsCliCmdSet .iclock 0x3a
    ([.todHour, .todMin, .todSec].map putTime)
    [apCfgTimeHourGet, apCfgTimeMinGet, apCfgTimeSecGet] := rfl

end Parts

/-! ### URLs -/

/-- The validator copies the URL into an array of its own. -/
theorem scValidUrl_confined {charStr : CStr} (h : charStr.length < 129) :
    (scValidUrl charStr).Confined Local.IsLib := by
  unfold scValidUrl
  rw [strcpy_eq h]
  refine .ite (fun _ => .pure _) fun _ => .ite (fun _ => .pure _) fun _ => ?_
  exact .ite (fun _ => .pure _) fun _ => .pure _

theorem httpURLCliCmdSet_confined {buf : Block} {pCli : Cli} {t : CStr} (hnext : Next buf pCli t)
    (h : t.length < 128) : (httpURLCliCmdSet buf pCli).Confined Local.IsLib := by
  obtain ⟨pCli', hpop⟩ := hnext.pop
  unfold httpURLCliCmdSet
  rw [hpop]
  refine .ite (fun _ => .pure _) fun _ => ?_
  show (strcpy .buf 128 t >>= _).Confined Local.IsLib
  rw [strcpy_eq h]
  refine .ite (fun _ => .pure _) fun _ => ?_
  refine (scValidUrl_confined (Nat.lt_succ_of_lt h)).bind fun valid => ?_
  refine .ite (fun _ => .pure _) fun _ => (lib_confined _).bind fun result => ?_
  exact .ite (fun _ => .pure _) fun _ => (lib_confined _).ignore.bind fun _ => .pure _

/-- Whatever else holds, a URL too long is copied past `buf`. -/
theorem httpURLCliCmdSet_long {t : CStr} (c : Config) (h : ¬t.length < 128) :
    (httpURLCliCmdSet (sole t).1 (sole t).2 c).1 = .error (.outside .buf) := by
  obtain ⟨hnext, hcount⟩ := next_sole t
  obtain ⟨pCli', hpop⟩ := hnext.pop
  unfold httpURLCliCmdSet
  rw [hpop, hcount, if_neg Nat.one_ne_zero]
  show ((strcpy .buf 128 t >>= _) c).1 = _
  rw [strcpy_fault h]
  rfl

/-! ### Keys -/

/-- The key is stored below `encryptedKeyLen`. -/
theorem asciiToKey_inBounds {encryptedKeyLen : Nat} (pstr : List Byte) {count : Nat} {tval : Byte}
    {pPpKey : Cursor} {w : List Byte} (hw : pPpKey.Wrote w) (hin : pPpKey.block.InBounds)
    (hlen : encryptedKeyLen ≤ pPpKey.block.size) :
    (asciiToKey encryptedKeyLen pstr count tval pPpKey).2.block.InBounds := by
  induction pstr generalizing count tval pPpKey w with
  | nil => exact hin
  | cons ch pstr ih =>
      unfold asciiToKey
      split
      · exact hin
      · rename_i hpos
        split
        · exact hin
        · split
          · refine ih (hw.put _) ?_ hlen
            refine (Block.inBounds_store hw.pos_le).mpr ⟨hin, ?_⟩
            exact (Nat.lt_of_not_le hpos).trans_le hlen
          · exact ih hw hin hlen

theorem asciiToPassphraseKey_inBounds (pstr : CStr) (size : Nat) :
    (asciiToPassphraseKey pstr (Block.fresh size) size).2.InBounds :=
  asciiToKey_inBounds pstr.bytes (Cursor.wrote_start size) (Block.inBounds_fresh size) le_rfl

/-- A passphrase is copied only where it has 64 characters at most. -/
theorem pskCliCmdSet_confined (unit : Nat) {buf : Block} {pCli : Cli} {t : CStr}
    (hnext : Next buf pCli t) : (pskCliCmdSet unit buf pCli).Confined Local.IsLib := by
  obtain ⟨pCli', hpop⟩ := hnext.pop
  unfold pskCliCmdSet
  rw [hpop]
  refine .ite (fun _ => .pure _) fun _ => .ite (fun _ => ?_) fun _ => .pure _
  refine .ite (fun _ => .pure _) fun _ => .ite (fun _ => .pure _) fun _ => ?_
  refine .ite (fun _ => .pure _) fun hmax => ?_
  have hlen : t.length < cliInbuf := (Nat.le_of_not_lt hmax).trans_lt (by decide)
  show (strcpy .passphrase cliInbuf t >>= _).Confined Local.IsLib
  rw [strcpy_eq hlen]
  have hkey : (checkHex t).Confined Local.IsLib :=
    .ite (fun _ => storing_confined (asciiToPassphraseKey_inBounds t 64)) fun _ => .pure _
  refine hkey.bind fun hex => .ite (fun _ => .pure _) fun _ => ?_
  exact (lib_confined _).ignore.bind fun _ => (lib_confined _).ignore.bind fun _ => .pure _

/-! ### All four -/

theorem safe_tod_iff (t : CStr) : Safe .tod t ↔ Fits .tod t := by
  have harray : ¬Local.date.IsLib := by
    rintro ⟨b, hb⟩
    cases hb
  have hiff : (∀ buf pCli, Next buf pCli t → (todCliCmdSet buf pCli).Confined Local.IsLib) ↔
      Fits .tod t := by
    rw [todCliCmdSet_eq]
    exact partsCliCmdSet_safe_iff harray (by decide) (by decide)
  exact ⟨fun h => hiff.mp (h 0), fun h _ => hiff.mpr h⟩

theorem safe_toc_iff (t : CStr) : Safe .toc t ↔ Fits .toc t := by
  have harray : ¬Local.iclock.IsLib := by
    rintro ⟨b, hb⟩
    cases hb
  have hiff : (∀ buf pCli, Next buf pCli t → (tocCliCmdSet buf pCli).Confined Local.IsLib) ↔
      Fits .toc t := by
    rw [tocCliCmdSet_eq]
    exact partsCliCmdSet_safe_iff harray (by decide) (by decide)
  exact ⟨fun h => hiff.mp (h 0), fun h _ => hiff.mpr h⟩

theorem safe_httpURL_iff (t : CStr) : Safe .httpURL t ↔ Fits .httpURL t := by
  constructor
  · intro h
    by_contra hlong
    obtain ⟨b, hb⟩ := h 0 _ _ (next_sole t).1 ⟨fun _ => enable, [], false⟩ _
      (httpURLCliCmdSet_long _ hlong)
    cases hb
  · exact fun h unit buf pCli hnext => httpURLCliCmdSet_confined hnext h

/-- **A handler is safe for a token just when the token fits.** -/
theorem safe_iff (h : Handler) (t : CStr) : Safe h t ↔ Fits h t := by
  cases h with
  | tod => exact safe_tod_iff t
  | toc => exact safe_toc_iff t
  | httpURL => exact safe_httpURL_iff t
  | psk => exact iff_of_true (fun unit buf pCli hnext => pskCliCmdSet_confined unit hnext) trivial

/-- A year is no date. -/
theorem year_not_safe : ¬Safe .tod (.text "2008") := by
  intro h
  have hfields : ¬3 ≤ (fields 0x2f (CStr.text "2008").bytes).length := by decide +kernel
  exact hfields ((safe_tod_iff _).mp h).2

end LinksysCli
