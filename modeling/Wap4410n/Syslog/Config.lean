import Wap4410n.Support.Act
import Wap4410n.Support.KeyLines

/-!
# Syslogd — the configuration file

`parse_config` reads the file into `buf`, on the stack, and searches it for one key after the other.
What stands behind a key is copied to an array of `struct syslog_conf`, or to `tmp`, where it is
read as a number; the last number says how many levels are marked in `log_level`.  Neither the end
of `buf` nor the sizes of the arrays are looked at.

* `copy_exact`, `number_exact`: when a copy stays within its array, and what it leaves.
* `parseConfig_exact`: when the whole of it stays within its arrays, where `buf` holds a string.
* `parsesExactly_iff`: when each field becomes what its key stands for in the file.
-/

namespace Syslog.Config

open CLib

/-! ### The keys -/

/-- The arrays of `struct syslog_conf` that the file fills. -/
inductive Field where
  | mailServer
  | mailReceiver
  | mailSender
  | mailSubject
  | mailSubjectAlert
  | mailKeyword
  | dosThresholds
  | mailAuthEnable
  | TZ
  | daylight
  | timeMode
  | logKeyword
deriving DecidableEq

namespace Field

def key : Field → LineKey
  | mailServer => .lit "smtp_mail_server="
  | mailReceiver => .lit "email_alert_addr="
  | mailSender => .lit "email_return_addr="
  | mailSubject => .lit "mail_subject="
  | mailSubjectAlert => .lit "mail_subject_alert="
  | mailKeyword => .lit "mail_keyword="
  | dosThresholds => .lit "dos_thresholds="
  | mailAuthEnable => .lit "mail_auth_enable="
  | TZ => .lit "TZ="
  | daylight => .lit "daylight="
  | timeMode => .lit "time_mode="
  | logKeyword => .lit "log_keyword="

def size : Field → Nat
  | mailServer | mailReceiver | mailSender | mailSubject | mailSubjectAlert | mailKeyword => 128
  | dosThresholds => 4
  | mailAuthEnable | daylight | timeMode => 2
  | TZ => 16
  | logKeyword => 512

end Field

/-- The numbers, which are copied to `tmp`. -/
inductive Number where
  | emailQlen
  | emailInterval
  | logSendType
  | logLevel
deriving DecidableEq

def Number.key : Number → LineKey
  | emailQlen => .lit "email_qlen="
  | emailInterval => .lit "email_interval="
  | logSendType => .lit "log_send_type="
  | logLevel => .lit "log_level="

/-- What is read and written: the file's text, an array of `conf`, `tmp`, `conf.log_level`. -/
inductive Obj where
  | buf
  | conf (f : Field)
  | tmp
  | logLevel
deriving DecidableEq

/-- The settings of `struct syslog_conf` that `parse_config` makes. -/
structure Conf where
  mailEnable : Int
  mailLogFull : Int
  emailQlen : Int
  emailInterval : Int
  text : Field → CStr
  logEnable : Int
  logList : List Int
  logLevel : List Int
  logSendType : Nat

/-- `bzero` and `memset`. -/
def Conf.initial : Conf :=
  ⟨0, 0, 0, 0, fun _ => .empty, 0, List.replicate 20 (-1), List.replicate 8 0, 0⟩

/-! ### `parse_config` -/

abbrev Parse := Act Conf Obj

/-- `strccpy2(dst, src, key, c)`, for an array of `size` bytes: the string it then holds. -/
def strccpy2 (dst : Obj) (size : Nat) (src : List Byte) (key : LineKey) (c : Byte) :
    Run Obj CStr := do
  match ← strstrIn .buf key.bytes src with
  | none => return .empty
  | some pt =>
      let s ← upTo .buf c (pt.drop key.bytes.length)
      if s.length < size then return .before s else .error (.outside dst)

/-- An assignment to fields of `conf`. -/
def assign (g : Conf → Conf) : Parse Unit := fun conf => (.ok (), g conf)

/-- The settings so far. -/
def current : Parse Conf := fun conf => (.ok conf, conf)

/-- `if (strstr(buf, s)) …;` -/
def flag (buf : List Byte) (s : LineKey) (g : Conf → Conf) : Parse Unit := do
  let pt ← Act.lift (strstrIn .buf s.bytes buf)
  Act.when (pt.isSome) (assign g)

/-- `strccpy2(conf.f, buf, key, '\n');` -/
def copy (buf : List Byte) (f : Field) : Parse Unit := do
  let s ← Act.lift (strccpy2 (.conf f) f.size buf f.key 0x0a)
  assign fun conf => { conf with text := fun g => if g = f then s else conf.text g }

/-- `strccpy2(tmp, buf, key, '\n'); atoi(tmp)` -/
def number (buf : List Byte) (n : Number) : Parse Int := do
  let tmp ← Act.lift (strccpy2 .tmp 32 buf n.key 0x0a)
  return atoi tmp

/-- `for (; n > 0; i++, n--) conf.log_level[i] = 1;` -/
def markLevels : Nat → Nat → Parse Unit
  | _, 0 => pure ()
  | i, n + 1 => fun conf =>
      if i < conf.logLevel.length then
        markLevels (i + 1) n { conf with logLevel := conf.logLevel.set i 1 }
      else (.error (.outside .logLevel), conf)

/-- The fields that are read only where mail is enabled. -/
def mailFields : List Field :=
  [.mailServer, .mailReceiver, .mailSender, .mailSubject, .mailSubjectAlert, .mailKeyword,
    .dosThresholds, .mailAuthEnable]

/-- What is read only where mail is enabled. -/
def parseMail (buf : List Byte) : Parse Unit := do
  flag buf (.lit "mail_log_full=1") fun conf => { conf with mailLogFull := 1 }
  Act.each (copy buf) mailFields
  let qlen ← number buf .emailQlen
  assign fun conf => { conf with emailQlen := qlen }
  let interval ← number buf .emailInterval
  assign fun conf => { conf with emailInterval := interval }

/-- What is always read. -/
def parseLog (buf : List Byte) : Parse Unit := do
  let sendType ← number buf .logSendType
  assign fun conf => { conf with logSendType := (sendType % 2 ^ 32).toNat }
  Act.each (copy buf) [.TZ, .daylight]
  flag buf (.lit "log_enable=1") fun conf => { conf with logEnable := 1 }
  Act.each (copy buf) [.timeMode, .logKeyword]
  assign fun conf => { conf with logLevel := List.replicate 8 0 }
  let level ← number buf .logLevel
  markLevels 0 (level + 1).toNat

/-- The 2048 bytes of the stack that `buf` takes. -/
structure Stack where
  bytes : List Byte
  size : bytes.length = 2048

/-- The bytes that `fread` reads. -/
def bytesRead (file : List Byte) : List Byte := file.take 2048

/-- `buf` behind the `fread`: what it does not overwrite is left as the stack held it. -/
def bufAfter (file : List Byte) (stack : Stack) : List Byte :=
  bytesRead file ++ stack.bytes.drop (bytesRead file).length

/-- `parse_config` behind the `fread`. -/
def parseBuf (buf : List Byte) : Parse Unit := do
  assign fun _ => .initial
  flag buf (.lit "email_alert=1") fun conf => { conf with mailEnable := 1 }
  let conf ← current
  Act.when (conf.mailEnable = 1) (parseMail buf)
  parseLog buf

/-- `parse_config`, on a file that may not open. -/
def parseConfig (file : Option (List Byte)) (stack : Stack) : Parse Bool :=
  match file with
  | none => return false
  | some file => do
      parseBuf (bufAfter file stack)
      return true

/-! ### One key -/

section Keys

variable {t : CStr} {r : List Byte}

/-- A copy from a text that a NUL ends. -/
theorem strccpy2_eq (dst : Obj) {size : Nat} (hsize : 0 < size) (key : LineKey) :
    strccpy2 dst size (t.bytes ++ 0 :: r) key 0x0a =
      if (valueBehind key t.bytes).length < size then .ok (.before (valueBehind key t.bytes))
      else .error (.outside dst) := by
  have hsearch := strstrIn_append (o := Obj.buf) key.isKey.1 key.isKey.2.1 r t.noNul
  rw [strccpy2, hsearch, Run.ok_bind]
  cases hfind : strstr key.bytes t.bytes with
  | none =>
      rw [valueBehind_none hfind]
      exact (if_pos hsize).symm
  | some pt =>
      obtain ⟨pre, ht, hkey, -⟩ := strstr_eq_some key.isKey.1 hfind
      have hpt : (0 : Byte) ∉ pt.drop key.bytes.length := fun hm =>
        t.noNul (ht ▸ List.mem_append_right pre (List.mem_of_mem_drop hm))
      have hcopy := upTo_append (o := Obj.buf) 0x0a r hpt
      rw [valueBehind_some hfind, Option.map_some]
      show (upTo _ _ ((pt ++ 0 :: r).drop key.bytes.length) >>= _) = _
      rw [List.drop_append_of_le_length hkey.length_le, hcopy, Run.ok_bind]
      rfl

theorem flag_eq (s : LineKey) (g : Conf → Conf) (conf : Conf) :
    flag (t.bytes ++ 0 :: r) s g conf =
      (.ok (), if (strstr s.bytes t.bytes).isSome then g conf else conf) := by
  have hsearch := strstrIn_append (o := Obj.buf) s.isKey.1 s.isKey.2.1 r t.noNul
  rw [flag, Act.lift_bind hsearch, Act.when_apply, Option.isSome_map]
  split <;> rfl

/-- What stands behind the key of a field, and the NUL, fit its array. -/
def Field.Fits (t : CStr) (f : Field) : Prop := (valueBehind f.key t.bytes).length < f.size

/-- What stands behind the key of a number, and the NUL, fit `tmp`. -/
def Number.Fits (t : CStr) (n : Number) : Prop := (valueBehind n.key t.bytes).length < 32

/-- The number read from `tmp`. -/
def Number.value (t : CStr) (n : Number) : Int := atoi (.before (valueBehind n.key t.bytes))

/-- The fields of `l` are filled with what stands behind their keys, the others are empty. -/
def Filled (t : CStr) (l : List Field) (conf : Conf) : Prop :=
  ∀ f, (conf.text f).bytes = if f ∈ l then valueBehind f.key t.bytes else []

variable {l : List Field} {conf : Conf}

/-- **A copy to a field** stays within the array just when what stands behind the key is shorter. -/
theorem copy_exact (h : Filled t l conf) (f : Field) :
    Act.Exact conf (f.Fits t) (copy (t.bytes ++ 0 :: r) f) fun _ => Filled t (l ++ [f]) := by
  have hsize : 0 < f.size := by cases f <;> decide
  have hcopy := strccpy2_eq (t := t) (r := r) (.conf f) hsize f.key
  by_cases hfits : f.Fits t
  · rw [copy, Act.lift_bind (hcopy.trans (if_pos hfits))]
    refine .inl ⟨hfits, (), rfl, fun g => ?_⟩
    show (if g = f then CStr.before (valueBehind f.key t.bytes) else conf.text g).bytes = _
    by_cases hg : g = f
    · subst hg
      rw [if_pos rfl, if_pos (List.mem_append_right l (List.mem_singleton_self g)),
        CStr.bytes_before (noNul_valueBehind g.key t.noNul)]
    · have hmem : g ∈ l ++ [f] ↔ g ∈ l := by simp [hg]
      rw [if_neg hg, h g]
      simp only [hmem]
  · refine .inr ⟨hfits, .outside (.conf f), ?_⟩
    rw [copy, hcopy.trans (if_neg hfits)]
    rfl

theorem copies_exact : ∀ (fs : List Field) {l : List Field} {conf : Conf}, Filled t l conf →
    Act.Exact conf (∀ f ∈ fs, f.Fits t) (Act.each (copy (t.bytes ++ 0 :: r)) fs)
      fun _ => Filled t (l ++ fs)
  | [], l, conf, h => by
      refine (Act.Exact.pure (a := ()) ?_).mono (by simp) fun _ _ hq => hq
      rwa [List.append_nil]
  | f :: fs, l, conf, h => by
      refine ((copy_exact h f).bind fun _ conf' h' => copies_exact fs h').mono ?_ fun _ _ hq => ?_
      · rw [List.forall_mem_cons]
      · rwa [List.append_assoc] at hq

/-- **A copy to `tmp`** stays within it just when what stands behind the key is shorter. -/
theorem number_exact (n : Number) (conf : Conf) :
    Act.Exact conf (n.Fits t) (number (t.bytes ++ 0 :: r) n)
      fun v conf' => v = n.value t ∧ conf' = conf := by
  have hcopy := strccpy2_eq (t := t) (r := r) .tmp (show 0 < 32 by decide) n.key
  by_cases hfits : n.Fits t
  · rw [number, Act.lift_bind (hcopy.trans (if_pos hfits))]
    exact .inl ⟨hfits, _, rfl, rfl, rfl⟩
  · refine .inr ⟨hfits, .outside .tmp, ?_⟩
    rw [number, hcopy.trans (if_neg hfits)]
    rfl

/-- The levels are marked within `log_level` just when there are at most eight. -/
theorem markLevels_exact : ∀ (n : Nat) {i : Nat} {conf : Conf}, conf.logLevel.length = 8 → i ≤ 8 →
    Act.Exact conf (i + n ≤ 8) (markLevels i n) fun _ conf' => conf'.text = conf.text
  | 0, i, conf, _, hi => .inl ⟨hi, (), rfl, rfl⟩
  | n + 1, i, conf, hl, hi => by
      by_cases hlt : i < 8
      · let conf' : Conf := { conf with logLevel := conf.logLevel.set i 1 }
        have hl' : conf'.logLevel.length = 8 := List.length_set.trans hl
        have hstep : markLevels i (n + 1) conf = markLevels (i + 1) n conf' :=
          if_pos (hl.symm ▸ hlt)
        have ih := markLevels_exact n hl' hlt
        unfold Act.Exact at ih ⊢
        rw [hstep, show i + (n + 1) = i + 1 + n from by omega]
        exact ih
      · refine .inr ⟨by omega, .outside .logLevel, ?_⟩
        exact congrArg Prod.fst (if_neg (hl.symm ▸ hlt))

end Keys

/-! ### The whole file -/

section Whole

variable {t : CStr} {r : List Byte} {l : List Field} {conf : Conf}

/-- The file enables mail. -/
def MailOn (t : CStr) : Prop := (strstr (LineKey.lit "email_alert=1").bytes t.bytes).isSome

instance (t : CStr) : Decidable (MailOn t) := inferInstanceAs (Decidable (_ = true))

/-- The field is read: those of the mail settings are where mail is enabled. -/
def Field.IsRead (t : CStr) (f : Field) : Prop := f ∈ mailFields → MailOn t

/-- The number is read. -/
def Number.IsRead (t : CStr) (n : Number) : Prop := n = .emailQlen ∨ n = .emailInterval → MailOn t

/-- What is copied fits, and `log_level` has as many levels as the file asks for. -/
structure Fits (t : CStr) : Prop where
  fields : ∀ f, Field.IsRead t f → f.Fits t
  numbers : ∀ n, Number.IsRead t n → n.Fits t
  level : Number.logLevel.value t < 8

theorem parseMail_exact (h : Filled t l conf) :
    Act.Exact conf ((∀ f ∈ mailFields, f.Fits t) ∧ Number.emailQlen.Fits t ∧
      Number.emailInterval.Fits t) (parseMail (t.bytes ++ 0 :: r))
      fun _ => Filled t (l ++ mailFields) := by
  refine Act.Exact.step (flag_eq _ _ conf) ?_
  have h' : Filled t l (if (strstr (LineKey.lit "mail_log_full=1").bytes t.bytes).isSome then
      { conf with mailLogFull := 1 } else conf) := by
    split <;> exact h
  refine ((copies_exact mailFields h').bind fun _ c hc =>
    (number_exact .emailQlen c).bind fun v c' hc' => ?_)
  obtain ⟨-, rfl⟩ := hc'
  refine Act.Exact.step rfl (((number_exact .emailInterval _).bind fun v' c' hc' =>
    .inl ⟨trivial, (), rfl, ?_⟩).mono (and_iff_left trivial) fun _ _ hq => hq)
  obtain ⟨-, rfl⟩ := hc'
  exact hc

theorem parseLog_exact (h : Filled t l conf) :
    Act.Exact conf (Number.logSendType.Fits t ∧ (∀ f ∈ [Field.TZ, .daylight], f.Fits t) ∧
      (∀ f ∈ [Field.timeMode, .logKeyword], f.Fits t) ∧ Number.logLevel.Fits t ∧
      0 + (Number.logLevel.value t + 1).toNat ≤ 8) (parseLog (t.bytes ++ 0 :: r))
      fun _ => Filled t (l ++ [.TZ, .daylight] ++ [.timeMode, .logKeyword]) := by
  refine (number_exact .logSendType conf).bind fun v c hc => ?_
  obtain ⟨-, rfl⟩ := hc
  have h' : Filled t l { c with logSendType := (v % 2 ^ 32).toNat } := h
  refine Act.Exact.step rfl ((copies_exact [.TZ, .daylight] h').bind fun _ c hc => ?_)
  refine Act.Exact.step (flag_eq _ _ c) ?_
  have hc' : Filled t (l ++ [.TZ, .daylight])
      (if (strstr (LineKey.lit "log_enable=1").bytes t.bytes).isSome then
        { c with logEnable := 1 } else c) := by
    split <;> exact hc
  refine (copies_exact [.timeMode, .logKeyword] hc').bind fun _ c hc => ?_
  refine Act.Exact.step rfl ((number_exact .logLevel _).bind fun v c' hc' => ?_)
  obtain ⟨rfl, rfl⟩ := hc'
  refine (markLevels_exact _ List.length_replicate (Nat.zero_le 8)).mono Iff.rfl fun _ c' hc' => ?_
  intro f
  rw [hc']
  exact hc f

/-- The mail settings are the fields that are not always read. -/
theorem mem_always (f : Field) :
    f ∈ mailFields ∨ f ∈ [Field.TZ, .daylight] ∨ f ∈ [Field.timeMode, .logKeyword] := by
  cases f <;> decide

theorem not_mem_mail {f : Field}
    (h : f ∈ [Field.TZ, .daylight] ∨ f ∈ [Field.timeMode, .logKeyword]) :
    f ∉ mailFields := by
  revert h
  cases f <;> decide

/-- The conditions met on the way are those of the file. -/
theorem fits_iff :
    (MailOn t → (∀ f ∈ mailFields, f.Fits t) ∧ Number.emailQlen.Fits t ∧
        Number.emailInterval.Fits t) ∧
      Number.logSendType.Fits t ∧ (∀ f ∈ [Field.TZ, .daylight], f.Fits t) ∧
      (∀ f ∈ [Field.timeMode, .logKeyword], f.Fits t) ∧ Number.logLevel.Fits t ∧
      0 + (Number.logLevel.value t + 1).toNat ≤ 8 ↔ Fits t := by
  constructor
  · rintro ⟨hmail, hsend, hzone, htime, htmp, hlevel⟩
    refine ⟨fun f hf => ?_, fun n hn => ?_, by omega⟩
    · rcases mem_always f with hm | hz | ht
      · exact (hmail (hf hm)).1 f hm
      · exact hzone f hz
      · exact htime f ht
    · cases n with
      | emailQlen => exact (hmail (hn (.inl rfl))).2.1
      | emailInterval => exact (hmail (hn (.inr rfl))).2.2
      | logSendType => exact hsend
      | logLevel => exact htmp
  · intro h
    have halways : ∀ f, f ∈ [Field.TZ, .daylight] ∨ f ∈ [Field.timeMode, .logKeyword] → f.Fits t :=
      fun f hf => h.fields f fun hm => absurd hm (not_mem_mail hf)
    have hlevel := h.level
    exact ⟨fun on => ⟨fun f _ => h.fields f fun _ => on, h.numbers _ fun _ => on,
        h.numbers _ fun _ => on⟩,
      h.numbers .logSendType (by rintro (h | h) <;> cases h), fun f hf => halways f (.inl hf),
      fun f hf => halways f (.inr hf), h.numbers .logLevel (by rintro (h | h) <;> cases h),
      by omega⟩

/-- The fields that are read. -/
def readFields (t : CStr) : List Field :=
  (if MailOn t then mailFields else []) ++ [.TZ, .daylight] ++ [.timeMode, .logKeyword]

theorem mem_readFields {f : Field} : f ∈ readFields t ↔ f.IsRead t := by
  rw [readFields, List.append_assoc, List.mem_append, List.mem_append, Field.IsRead]
  by_cases on : MailOn t
  · rw [if_pos on]
    exact iff_of_true (mem_always f) fun _ => on
  · rw [if_neg on]
    constructor
    · rintro (h | h) hm
      · cases h
      · exact absurd hm (not_mem_mail h)
    · exact fun h => .inr ((mem_always f).resolve_left fun hm => on (h hm))

/-- The mail settings are read where mail is enabled. -/
theorem whenMail_exact (h : Filled t [] conf) (hon : conf.mailEnable = 1 ↔ MailOn t) :
    Act.Exact conf (MailOn t → (∀ f ∈ mailFields, f.Fits t) ∧ Number.emailQlen.Fits t ∧
      Number.emailInterval.Fits t)
      (Act.when (conf.mailEnable = 1) (parseMail (t.bytes ++ 0 :: r)))
      fun _ => Filled t (if MailOn t then mailFields else []) := by
  refine Act.Exact.ite (fun henable => ?_) fun henable => ?_
  · have on := hon.mp henable
    rw [if_pos on]
    exact (parseMail_exact h).mono ⟨fun hf _ => hf, fun hf => hf on⟩ fun _ _ hq => hq
  · have off := fun on => henable (hon.mpr on)
    rw [if_neg off]
    exact .inl ⟨fun on => absurd on off, (), rfl, h⟩

/-- **A text that a NUL ends** is read without leaving an array just when it fits, and then each
field that is read is filled with what stands behind its key. -/
theorem parseBuf_exact (conf : Conf) :
    Act.Exact conf (Fits t) (parseBuf (t.bytes ++ 0 :: r)) fun _ => Filled t (readFields t) := by
  refine Act.Exact.step rfl (Act.Exact.step (flag_eq _ _ _) (Act.Exact.step rfl ?_))
  refine ((whenMail_exact ?_ ?_).bind fun _ c hc => parseLog_exact hc).mono fits_iff
    fun _ _ hq => hq
  · split <;> exact fun _ => rfl
  · rw [MailOn]
    split
    · next on => exact iff_of_true rfl on
    · next off => exact iff_of_false Int.zero_ne_one off

/-- Each key that is read is found at the start of a line first, or stands for the same there; no
key that is not read stands for anything. -/
structure Placed (t : CStr) : Prop where
  read : ∀ f, Field.IsRead t f → FoundInside f.key t.bytes →
    valueBehind f.key t.bytes = lineValue f.key t.bytes
  unread : ∀ f, ¬ Field.IsRead t f → lineValue f.key t.bytes = []

/-- The fields are what their keys stand for just when the keys are well placed. -/
theorem lineValue_iff (h : Filled t (readFields t) conf) :
    (∀ f, (conf.text f).bytes = lineValue f.key t.bytes) ↔ Placed t := by
  constructor
  · intro hall
    refine ⟨fun f hf _ => ?_, fun f hf => ?_⟩
    · rw [← hall f, h f, if_pos (mem_readFields.mpr hf)]
    · rw [← hall f, h f, if_neg fun hm => hf (mem_readFields.mp hm)]
  · intro hp f
    rw [h f]
    by_cases hf : f.IsRead t
    · rw [if_pos (mem_readFields.mpr hf)]
      by_cases hin : FoundInside f.key t.bytes
      · exact hp.read f hf hin
      · exact valueBehind_eq_lineValue hin
    · rw [if_neg fun hm => hf (mem_readFields.mp hm), hp.unread f hf]

end Whole

/-! ### The property -/

/-- The text of the file, as far as it is read. -/
def fileText (file : List Byte) : CStr := .before (bytesRead file)

/-- The file is parsed exactly: `buf` is its text, no access leaves an array, and each field is what
its key stands for. -/
def ParsesExactly (file : List Byte) (stack : Stack) (conf : Conf) : Prop :=
  CStr.ofMem (bufAfter file stack) = some (fileText file) ∧
    (∃ ret, (parseConfig (some file) stack conf).1 = .ok ret) ∧
    ∀ f, ((parseConfig (some file) stack conf).2.text f).bytes =
      lineValue f.key (fileText file).bytes

/-- A NUL is among the bytes read, or the stack holds one behind them. -/
def Terminated (file : List Byte) (stack : Stack) : Prop :=
  (0 : Byte) ∈ bytesRead file ∨ stack.bytes[(bytesRead file).length]? = some 0

section Property

variable (file : List Byte) (stack : Stack)

theorem ofMem_bufAfter_iff :
    CStr.ofMem (bufAfter file stack) = some (fileText file) ↔ Terminated file stack := by
  rw [Terminated, ← List.head?_drop]
  by_cases hnul : (0 : Byte) ∈ bytesRead file
  · exact iff_of_true (CStr.ofMem_append_of_mem hnul _) (.inl hnul)
  · rw [or_iff_right hnul, bufAfter]
    constructor
    · intro h
      obtain ⟨r, hr⟩ := CStr.ofMem_eq_some.mp h
      rw [fileText, CStr.bytes_before hnul] at hr
      rw [List.append_cancel_left hr]
      rfl
    · intro h
      obtain ⟨r, hr⟩ := List.head?_eq_some_iff.mp h
      rw [hr, CStr.ofMem_before]
      rfl

variable {file stack}

/-- Where `buf` holds the file's text, the text decides. -/
theorem parseConfig_exact (h : CStr.ofMem (bufAfter file stack) = some (fileText file))
    (conf : Conf) : Act.Exact conf (Fits (fileText file)) (parseConfig (some file) stack)
      fun _ => Filled (fileText file) (readFields (fileText file)) := by
  obtain ⟨r, hbuf⟩ := CStr.ofMem_eq_some.mp h
  show Act.Exact conf _ (parseBuf (bufAfter file stack) >>= fun _ => pure true) _
  rw [hbuf]
  exact ((parseBuf_exact conf).bind fun _ c hc => .inl ⟨trivial, true, rfl, hc⟩).mono
    (and_iff_left trivial) fun _ _ hq => hq

variable (file stack)

/-- **A configuration file is parsed exactly** just when a NUL ends it, what is copied fits, and the
keys stand at the starts of lines. -/
theorem parsesExactly_iff (conf : Conf) :
    ParsesExactly file stack conf ↔
      Terminated file stack ∧ Fits (fileText file) ∧ Placed (fileText file) := by
  rw [ParsesExactly, ← ofMem_bufAfter_iff]
  exact and_congr_right fun hbuf =>
    (parseConfig_exact hbuf conf).achieves fun _ c hc => lineValue_iff hc

/-- The ninth level is marked behind `log_level`. -/
theorem nine_levels_not_exact :
    ¬ ParsesExactly (ascii "log_level=8\n".toList) ⟨List.replicate 2048 0, List.length_replicate⟩
      .initial := by
  rintro ⟨hbuf, hret, -⟩
  have hlevel : Number.logLevel.value (fileText (ascii "log_level=8\n".toList)) = 8 := by decide
  rcases parseConfig_exact hbuf .initial with ⟨hfits, -⟩ | ⟨-, e, he⟩
  · exact absurd hfits.level (hlevel ▸ Int.lt_irrefl 8)
  · obtain ⟨ret, hok⟩ := hret
    rw [he] at hok
    cases hok

end Property

end Syslog.Config
