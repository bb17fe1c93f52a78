import Mathlib.Data.List.Forall2
import Wap4410n.Support.Block
import Wap4410n.Support.Loop
import Wap4410n.Support.Print

/-!
# Syslogd — datagrams

`serveConnection` walks over a datagram that lies in `tmpbuf`, followed by zeros.  It copies what
it finds up to a NUL into `line`, leaves out the first priority, writes control characters as two
bytes, and hands `line` to `logMessage`, which skips a time stamp, looks for a tag and may write
the message anew behind it.

* `scan_fits`, `scan_overlong`: what one turn of the copying loop does with a part.
* `logSafe_iff`: when `logMessage` stays within its arrays.
* `serveConnection_survives_iff`: the datagrams that are handed over part by part, each part once,
  without an access outside the arrays.
-/

namespace Syslog

open CLib

/-- What is read: the array a datagram is received into, the line it is copied to, and the type of
the message. -/
inductive Obj where
  | tmpbuf
  | line
  | msgType
deriving DecidableEq

def maxline : Nat := 1024

/-! ### `serveConnection` -/

/-- Where the copying loop stands: before the first `'<'` (`find == 0`), among the digits of the
priority, or behind them. -/
inductive Mode where
  | text
  | digits
  | after
deriving DecidableEq

/-- `LOG_USER | LOG_NOTICE` -/
def logUserNotice : BitVec 32 := 13

/-- A priority outside `LOG_FACMASK | LOG_PRIMASK` is replaced. -/
def checkedPri (pri : BitVec 32) : BitVec 32 := if pri &&& ~~~0x3ff ≠ 0 then logUserNotice else pri

/-- What a byte is copied as: a line feed as a blank, a control character in two bytes. -/
def escape (c : Byte) : List Byte :=
  if c = 0x0a then [0x20] else if c < 0x20 then [0x5e, c ^^^ 0x40] else [c]

/-- Where the copying loop leaves `pri` and `q`, and the memory from `p` on. -/
structure Scan where
  pri : BitVec 32
  line : Cursor
  rest : List Byte

/-- The copying loop over the memory from `p` on.  The byte behind the digits is not looked at
again: the `p++` at the end of the body skips it, be it the `'>'` or not. -/
def scan : List Byte → Mode → BitVec 32 → Cursor → Run Obj Scan
  | [], _, _, _ => .error (.outside .tmpbuf)
  | c :: ps, .digits, pri, q =>
      if isDigit c then scan ps .digits (10 * pri + BitVec.ofNat 32 (c.toNat - 0x30)) q
      else scan ps .after (checkedPri pri) q
  | c :: ps, mode, pri, q =>
      if c ≠ 0 ∧ q.pos < maxline then
        if c = 0x3c ∧ mode = .text then scan ps .digits 0 q
        else scan ps mode pri (q.putAll (escape c))
      else .ok ⟨pri, q, c :: ps⟩

/-! ### `logMessage` -/

/-- `strstr(s, needle)`, as an offset. -/
def strstr (needle : List Byte) : List Byte → Option Nat
  | [] => if needle = [] then some 0 else none
  | b :: s => if needle.isPrefixOf (b :: s) then some 0 else (strstr needle s).map (· + 1)

/-- `while(*msg!='\0' && *msg++!=' ');` -/
def afterWord : List Byte → List Byte
  | [] => []
  | b :: s => if b = 0x20 then s else afterWord s

/-- `white_msg` -/
def whiteMsg (s : List Byte) : Bool := s.all fun b => b = 0x20 || b = 0x09 || b = 0x0a

/-- The tags of messages that are written anew, and the bit of `conf.log_send_type` asked for. -/
def tags : List (CStr × Option Nat) :=
  [(.text "[CFG_Change]", some 3), (.text "[systme_error]", none), (.text "[AuthLogin]", some 1),
    (.text "[WE_SUCCESS]", some 4), (.text "[WE_FAILURE]", none), (.text "[UnAuthLogin]", some 0),
    (.text "[ROGUEAP]", none)]

/-- Whether a tag is asked for: those without a bit always are. -/
def enabled (logSendType : Nat) (bit : Option Nat) : Bool := bit.all logSendType.testBit

/-- The comparisons of `tmp` with the tags; a tag is shorter than `tmp`, which is read no further
than the tag's NUL. -/
def tagged (logSendType : Nat) (tmp : List Byte) : Bool :=
  tags.any fun t => tmp.take (t.1.length + 1) = t.1.mem && enabled logSendType t.2

/-- The arrays `logMessage` stores into. -/
structure Frame where
  line : Block
  msgType : Block
  tmp : Block
  tmp2 : Block

/-- `msgType`, from what stands before the first `": "`: at most 128 bytes, over zeros.  Without a
`": "` it is left as it was found on the stack. -/
def typeOf (junk msg : List Byte) : Block :=
  match strstr (ascii [':', ' ']) msg with
  | some i => ((Block.fresh 128).memset 128).store 0 ((msg.take (i + 2)).take 128)
  | none => ⟨128, junk⟩

/-- What `msg` points to behind the type, or behind the first word. -/
def behindType (msg : List Byte) : List Byte :=
  afterWord (match strstr (ascii [':', ' ']) msg with
    | some i => msg.drop (i + 1)
    | none => msg)

/-- `logMessage` up to the label `add_timestamp`, behind which `msg` is only read.  `line` is the
string it is called with, `junk` what `msgType` holds before. -/
def logMessage (junk : List Byte) (logSendType : Nat) (line : CStr) : Run Obj Frame := do
  -- the time stamp is skipped unseen
  let msg ← stringAt .line (line.mem.drop 16)
  let msgType := typeOf junk msg.bytes
  let msg := behindType msg.bytes
  let f : Frame := ⟨⟨maxline + 1, line.mem⟩, msgType, .fresh 20, .fresh 2048⟩
  if whiteMsg msg then return f
  let tmp :=
    ((Block.fresh 20).store 0 (msg.take 4 ++ List.replicate (4 - msg.length) 0)).store 4 [0]
  if tmp.bytes.take 4 ≠ ascii ['[', 'S', 'C', ']'] then return { f with tmp := tmp }
  let msg := msg.drop 4
  let tmp := tmp.memset 20
  match msg.findIdx? (· = 0x5d) with
  | none => return { f with tmp := tmp }
  | some right =>
      let tmp := tmp.store 0 ((msg.take (right + 1)).take 20)
      if tagged logSendType tmp.bytes then
        let msg := msg.drop (CStr.before tmp.bytes).length
        let type ← stringAt .msgType msgType.bytes
        return {
          line := f.line.store (line.length - msg.length) (type.bytes ++ msg ++ [0])
          msgType := msgType
          tmp := tmp
          tmp2 := f.tmp2.store 0 (type.bytes ++ msg ++ [0]) }
      else return { f with tmp := tmp }

/-! ### A datagram -/

/-- A call of `logMessage`: where `p` stood when the line was begun and when it was ended, the line
and its text, and what the call did. -/
structure Call where
  start : Nat
  stop : Nat
  line : Block
  text : CStr
  frame : Frame

/-- The memory from `p` on, and the calls made. -/
structure Serve where
  mem : List Byte
  calls : List Call

/-- One turn of the loop of `serveConnection`, over an array of `total` bytes of which the last
`unused` lie behind the datagram. -/
def serveStep (junk : List Byte) (logSendType total unused : Nat) (s : Serve) :
    Serve ⊕ Run Obj (List Call) :=
  if unused < s.mem.length then
    let turn : Run Obj (List Byte × Call) := do
      let r ← scan s.mem .text logUserNotice (.start (.fresh (maxline + 1)))
      let line := (r.line.poke 0).block
      let text ← stringAt .line line.bytes
      let frame ← logMessage junk logSendType text
      return (r.rest.tail, ⟨total - s.mem.length, total - r.rest.length, line, text, frame⟩)
    match turn with
    | .ok (mem, call) => .inl ⟨mem, s.calls ++ [call]⟩
    | .error e => .inr (.error e)
  else .inr (.ok s.calls)

/-- `tmpbuf[BUFSIZ+1]`, cleared before the datagram is received. -/
def received (bufsiz : Nat) (d : List Byte) : List Byte :=
  d ++ List.replicate (bufsiz + 1 - d.length) 0

/-! ### What a datagram holds -/

/-- The parts of a datagram: what stands before each NUL, and behind the last if it is not
empty. -/
def parts : List Byte → List (List Byte)
  | [] => []
  | b :: d =>
      if b = 0 then [] :: parts d
      else
        match parts d with
        | [] => [[b]]
        | p :: ps => (b :: p) :: ps

/-- The parts with their offsets. -/
def places : Nat → List (List Byte) → List (Nat × List Byte)
  | _, [] => []
  | i, p :: ps => (i, p) :: places (i + p.length + 1) ps

/-- A part as it is handed over. -/
def encode : Mode → List Byte → List Byte
  | _, [] => []
  | .digits, c :: p => encode (if isDigit c then .digits else .after) p
  | mode, c :: p => if c = 0x3c ∧ mode = .text then encode .digits p else escape c ++ encode mode p

/-- Where the copying loop stands behind a part. -/
def modeAfter : Mode → List Byte → Mode
  | mode, [] => mode
  | .digits, c :: p => modeAfter (if isDigit c then .digits else .after) p
  | mode, c :: p => if c = 0x3c ∧ mode = .text then modeAfter .digits p else modeAfter mode p

/-- No array is overrun. -/
def Frame.InBounds (f : Frame) : Prop :=
  f.line.InBounds ∧ f.msgType.InBounds ∧ f.tmp.InBounds ∧ f.tmp2.InBounds

def Call.InBounds (c : Call) : Prop := c.line.InBounds ∧ c.frame.InBounds

/-- A call hands over a part: it begins with it, reads it to its end, and its line is the part as
it is written. -/
def Call.Hands (c : Call) (part : Nat × List Byte) : Prop :=
  c.start = part.1 ∧ part.1 + part.2.length ≤ c.stop ∧ c.text.bytes = encode .text part.2

/-- The daemon survives a datagram: whatever lies on the stack, the loop ends, nothing is read
outside the arrays or beyond a string's NUL, no array is overrun, and there is one call for each
part. -/
def Survives (bufsiz logSendType : Nat) (d : List Byte) : Prop :=
  ∀ junk : List Byte, junk.length = 128 → ∃ calls,
    Loop.Returns (serveStep junk logSendType (bufsiz + 1) (bufsiz + 1 - d.length))
      ⟨received bufsiz d, []⟩ (.ok calls) ∧
    (∀ c ∈ calls, c.InBounds) ∧ List.Forall₂ Call.Hands calls (places 0 (parts d))

/-! ### What a datagram may hold -/

/-- A part fits into `line`, of which `n` bytes are filled: fewer than `MAXLINE` before each byte
that is looked at as text, and no more in the end. -/
def Fits : Mode → Nat → List Byte → Prop
  | _, n, [] => n ≤ maxline
  | .digits, n, c :: p => Fits (if isDigit c then .digits else .after) n p
  | mode, n, c :: p =>
      n < maxline ∧
        if c = 0x3c ∧ mode = .text then Fits .digits n p else Fits mode (n + (escape c).length) p

instance Fits.decidable : ∀ (mode : Mode) (n : Nat) (p : List Byte), Decidable (Fits mode n p)
  | _, n, [] => Nat.decLe n maxline
  | .digits, n, c :: p => Fits.decidable (if isDigit c then .digits else .after) n p
  | .text, n, c :: p =>
      have := Fits.decidable .digits n p
      have := Fits.decidable .text (n + (escape c).length) p
      inferInstanceAs (Decidable (n < maxline ∧
        if c = 0x3c ∧ Mode.text = .text then Fits .digits n p
        else Fits .text (n + (escape c).length) p))
  | .after, n, c :: p =>
      have := Fits.decidable .digits n p
      have := Fits.decidable .after (n + (escape c).length) p
      inferInstanceAs (Decidable (n < maxline ∧
        if c = 0x3c ∧ Mode.after = .text then Fits .digits n p
        else Fits .after (n + (escape c).length) p))

/-- A part ends among the digits of its priority. -/
def Open (p : List Byte) : Prop := modeAfter .text p = .digits

/-- `logMessage` writes the message anew: behind its type, or its first word, stand `[SC]` and a
tag that is asked for. -/
def Rewritten (logSendType : Nat) (msg : List Byte) : Prop :=
  ∃ t ∈ tags, enabled logSendType t.2 = true ∧
    ascii ['[', 'S', 'C', ']'] ++ t.1.bytes <+: behindType msg

/-- A line has a time stamp to skip, and if it is written anew it has a type of at most 127 bytes
and room for it. -/
def Loggable (logSendType : Nat) (line : List Byte) : Prop :=
  16 ≤ line.length ∧ (Rewritten logSendType (line.drop 16) →
    ∃ i, strstr (ascii [':', ' ']) (line.drop 16) = some i ∧ i + 2 ≤ 127 ∧
      line.length + (i + 2) ≤ maxline)

/-- A datagram that is survived: its parts fit and can be logged, and none ends among the digits of
its priority, but for the last, where a NUL or a zero behind the datagram follows them. -/
def Sound (bufsiz logSendType : Nat) (d : List Byte) : Prop :=
  (∀ p ∈ parts d, Fits .text 0 p ∧ Loggable logSendType (encode .text p)) ∧
    (∀ p ∈ (parts d).dropLast, ¬ Open p) ∧
    ∀ p, (parts d).getLast? = some p → Open p → d.getLast? = some 0 ∨ d.length < bufsiz

/-! ### The copying loop -/

section Scan

/-- Outside the digits the loop looks at a byte as text. -/
theorem scan_text {mode : Mode} (h : mode ≠ .digits) (c : Byte) (ps : List Byte) (pri : BitVec 32)
    (q : Cursor) : scan (c :: ps) mode pri q =
      if c ≠ 0 ∧ q.pos < maxline then
        if c = 0x3c ∧ mode = .text then scan ps .digits 0 q
        else scan ps mode pri (q.putAll (escape c))
      else .ok ⟨pri, q, c :: ps⟩ := by
  cases mode with
  | digits => exact absurd rfl h
  | text => rfl
  | after => rfl

theorem encode_text {mode : Mode} (h : mode ≠ .digits) (c : Byte) (p : List Byte) :
    encode mode (c :: p) =
      if c = 0x3c ∧ mode = .text then encode .digits p else escape c ++ encode mode p := by
  cases mode with
  | digits => exact absurd rfl h
  | text => rfl
  | after => rfl

theorem modeAfter_text {mode : Mode} (h : mode ≠ .digits) (c : Byte) (p : List Byte) :
    modeAfter mode (c :: p) =
      if c = 0x3c ∧ mode = .text then modeAfter .digits p else modeAfter mode p := by
  cases mode with
  | digits => exact absurd rfl h
  | text => rfl
  | after => rfl

theorem fits_text {mode : Mode} (h : mode ≠ .digits) (n : Nat) (c : Byte) (p : List Byte) :
    Fits mode n (c :: p) ↔ n < maxline ∧
      if c = 0x3c ∧ mode = .text then Fits .digits n p
      else Fits mode (n + (escape c).length) p := by
  cases mode with
  | digits => exact absurd rfl h
  | text => rfl
  | after => rfl

theorem noNul_escape {c : Byte} (hc : c ≠ 0) : (0 : Byte) ∉ escape c := by
  unfold escape
  split
  · decide
  · split
    · rename_i hlt
      have hx : c ^^^ 0x40 ≠ 0 := by
        intro h
        have hc' : c = 0x40 := UInt8.xor_eq_zero_iff.mp h
        rw [hc'] at hlt
        exact absurd hlt (by decide)
      simp [Ne.symm hx]
    · simpa using Ne.symm hc

theorem noNul_encode {p : List Byte} (hp : (0 : Byte) ∉ p) (mode : Mode) :
    (0 : Byte) ∉ encode mode p := by
  induction p generalizing mode with
  | nil => cases mode <;> simp [encode]
  | cons c p ih =>
      obtain ⟨hc, hp'⟩ := not_or.mp (mt List.mem_cons.mpr hp)
      by_cases hmode : mode = .digits
      · rw [hmode]
        exact ih hp' _
      · rw [encode_text hmode]
        split
        · exact ih hp' _
        · exact fun h => (List.mem_append.mp h).elim (noNul_escape (Ne.symm hc)) (ih hp' _)

variable {m : List Byte}

/-- **A part that fits** is copied whole, and the loop goes on behind it. -/
theorem scan_fits {p w : List Byte} (hp : (0 : Byte) ∉ p) {mode : Mode} (pri : BitVec 32)
    {q : Cursor} (hq : q.Wrote w) (hfits : Fits mode w.length p) :
    ∃ pri' q', scan (p ++ m) mode pri q = scan m (modeAfter mode p) pri' q' ∧
      q'.Wrote (w ++ encode mode p) ∧ q'.block.size = q.block.size ∧
      (w ++ encode mode p).length ≤ maxline := by
  induction p generalizing w mode pri q with
  | nil =>
      have hle : w.length ≤ maxline := by cases mode <;> exact hfits
      refine ⟨pri, q, ?_, ?_, rfl, ?_⟩ <;> cases mode <;> simp [modeAfter, encode, hq, hle]
  | cons c p ih =>
      obtain ⟨hc, hp'⟩ := not_or.mp (mt List.mem_cons.mpr hp)
      by_cases hmode : mode = .digits
      · subst hmode
        rw [List.cons_append, scan]
        split
        · rename_i hdigit
          simp only [Fits, encode, modeAfter, if_pos hdigit] at hfits ⊢
          exact ih hp' _ hq hfits
        · rename_i hdigit
          simp only [Fits, encode, modeAfter, if_neg hdigit] at hfits ⊢
          exact ih hp' _ hq hfits
      · obtain ⟨hlt, hrest⟩ := (fits_text hmode ..).mp hfits
        rw [List.cons_append, scan_text hmode, encode_text hmode, modeAfter_text hmode,
          if_pos ⟨Ne.symm hc, by rw [hq.pos_eq]; exact hlt⟩]
        split
        · rename_i hpri
          rw [if_pos hpri] at hrest
          exact ih hp' _ hq hrest
        · rename_i hpri
          rw [if_neg hpri, ← List.length_append] at hrest
          obtain ⟨pri', q', hscan, hwrote, hsize, hlen⟩ := ih hp' _ (hq.putAll _) hrest
          rw [List.append_assoc] at hwrote hlen
          exact ⟨pri', q', hscan, hwrote, hsize.trans (Cursor.size_putAll _ _), hlen⟩

/-- **A part that does not fit**: the loop stops before its end, or fills more than `line` has
room for. -/
theorem scan_overlong {p w : List Byte} (hp : (0 : Byte) ∉ p) {mode : Mode} (pri : BitVec 32)
    {q : Cursor} (hq : q.Wrote w) (hmode : mode = .digits → w.length ≤ maxline)
    (hfits : ¬ Fits mode w.length p) :
    ∃ r w', scan (p ++ 0 :: m) mode pri q = .ok r ∧ r.line.Wrote w' ∧
      r.line.block.size = q.block.size ∧
      (m.length + 1 < r.rest.length ∨ maxline < w'.length) := by
  induction p generalizing w mode pri q with
  | nil =>
      have hgt : maxline < w.length := by cases mode <;> exact Nat.lt_of_not_le hfits
      have hne : mode ≠ .digits := fun h => absurd (hmode h) (Nat.not_le_of_gt hgt)
      refine ⟨⟨pri, q, 0 :: m⟩, w, ?_, hq, rfl, .inr hgt⟩
      rw [List.nil_append, scan_text hne, if_neg fun h => h.1 rfl]
  | cons c p ih =>
      obtain ⟨hc, hp'⟩ := not_or.mp (mt List.mem_cons.mpr hp)
      by_cases hne : mode = .digits
      · subst hne
        rw [List.cons_append, scan]
        have hle := hmode rfl
        split
        · rename_i hdigit
          simp only [Fits, if_pos hdigit] at hfits
          exact ih hp' _ hq (fun _ => hle) hfits
        · rename_i hdigit
          simp only [Fits, if_neg hdigit] at hfits
          exact ih hp' _ hq (fun _ => hle) hfits
      · rw [List.cons_append, scan_text hne]
        by_cases hlt : w.length < maxline
        · rw [if_pos ⟨Ne.symm hc, by rw [hq.pos_eq]; exact hlt⟩]
          rw [fits_text hne, and_iff_right hlt] at hfits
          split
          · rename_i hpri
            rw [if_pos hpri] at hfits
            exact ih hp' _ hq (fun _ => hlt.le) hfits
          · rename_i hpri
            rw [if_neg hpri, ← List.length_append] at hfits
            obtain ⟨r, w', hscan, hwrote, hsize, hor⟩ :=
              ih hp' _ (hq.putAll _) (fun h => absurd h hne) hfits
            exact ⟨r, w', hscan, hwrote, hsize.trans (Cursor.size_putAll _ _), hor⟩
        · refine ⟨⟨pri, q, c :: (p ++ 0 :: m)⟩, w, ?_, hq, rfl, .inl ?_⟩
          · rw [if_neg fun h => hlt (by rw [← hq.pos_eq]; exact h.2)]
          · simp only [List.length_append, List.length_cons]
            omega

/-- The loop stops at or behind where it began. -/
theorem scan_rest_le {mode : Mode} {pri : BitVec 32} {q : Cursor} {r : Scan}
    (h : scan m mode pri q = .ok r) : r.rest.length ≤ m.length := by
  induction m generalizing mode pri q with
  | nil => cases mode <;> cases h
  | cons c m ih =>
      by_cases hmode : mode = .digits
      · subst hmode
        rw [scan] at h
        split at h
        · exact (ih h).trans (Nat.le_succ _)
        · exact (ih h).trans (Nat.le_succ _)
      · rw [scan_text hmode] at h
        split at h
        · split at h
          · exact (ih h).trans (Nat.le_succ _)
          · exact (ih h).trans (Nat.le_succ _)
        · cases h
          exact le_refl _

/-- The line is written from its start. -/
theorem scan_wrote {mode : Mode} {pri : BitVec 32} {q : Cursor} {r : Scan} {w : List Byte}
    (h : scan m mode pri q = .ok r) (hq : q.Wrote w) : ∃ w', r.line.Wrote w' := by
  induction m generalizing mode pri q w with
  | nil => cases mode <;> cases h
  | cons c m ih =>
      by_cases hmode : mode = .digits
      · subst hmode
        rw [scan] at h
        split at h
        · exact ih h hq
        · exact ih h hq
      · rw [scan_text hmode] at h
        split at h
        · split at h
          · exact ih h hq
          · exact ih h (hq.putAll _)
        · cases h
          exact ⟨w, hq⟩

end Scan

/-! ### The tag -/

section Tag

/-- A tag is closed by its only bracket, and shorter than `tmp`. -/
theorem tag_shape {t : CStr × Option Nat} (h : t ∈ tags) :
    ∃ u, t.1.bytes = u ++ [0x5d] ∧ (0x5d : Byte) ∉ u ∧ t.1.length < 20 := by
  have hall : ∀ t ∈ tags, t.1.bytes = t.1.bytes.dropLast ++ [0x5d] ∧
      (0x5d : Byte) ∉ t.1.bytes.dropLast ∧ t.1.length < 20 := by decide
  exact ⟨_, hall t h⟩

variable {msg : List Byte} {logSendType : Nat}

/-- What `tmp` holds: the message up to its first bracket, over zeros. -/
def tagBytes (msg : List Byte) (right : Nat) : List Byte :=
  (msg.take (right + 1)).take 20 ++
    List.replicate (20 - ((msg.take (right + 1)).take 20).length) 0

/-- A message that begins with a tag has its first bracket at the tag's end. -/
theorem tagBytes_of_prefix {t : CStr × Option Nat} (ht : t ∈ tags) (h : t.1.bytes <+: msg) :
    ∃ right, msg.findIdx? (· = 0x5d) = some right ∧
      tagBytes msg right = t.1.bytes ++ 0 :: List.replicate (19 - t.1.length) 0 := by
  obtain ⟨u, hu, hno, hlt⟩ := tag_shape ht
  obtain ⟨rest, rfl⟩ := h
  have hlen : t.1.length = u.length + 1 := by rw [CStr.length, hu]; simp
  have hnone : u.findIdx? (· = 0x5d) = none := by
    rw [List.findIdx?_eq_none_iff]
    intro b hb
    simpa using fun e : b = 0x5d => hno (e ▸ hb)
  refine ⟨u.length, ?_, ?_⟩
  · rw [hu, List.append_assoc, List.findIdx?_append, hnone, List.singleton_append,
      List.findIdx?_cons]
    simp
  · have htake : ((t.1.bytes ++ rest).take (u.length + 1)).take 20 = t.1.bytes := by
      rw [← hlen, CStr.length, List.take_left, List.take_of_length_le hlt.le]
    rw [tagBytes, htake, show 20 - t.1.bytes.length = 19 - t.1.length + 1 by
      rw [CStr.length] at hlt ⊢; omega, List.replicate_succ]

/-- **The comparison**: `tmp` is a tag just where the message begins with it. -/
theorem tagBytes_eq_iff {t : CStr × Option Nat} (ht : t ∈ tags) {right : Nat}
    (hright : msg.findIdx? (· = 0x5d) = some right) :
    (tagBytes msg right).take (t.1.length + 1) = t.1.mem ↔ t.1.bytes <+: msg := by
  constructor
  · intro h
    obtain ⟨z, hz⟩ : t.1.bytes <+: tagBytes msg right := by
      refine (List.prefix_append t.1.bytes [0]).trans ?_
      rw [← CStr.mem, ← h]
      exact List.take_prefix _ _
    have hx : (msg.take (right + 1)).take 20 <+: msg :=
      (List.take_prefix _ _).trans (List.take_prefix _ _)
    rcases List.append_eq_append_iff.mp hz with ⟨a, ha, -⟩ | ⟨a, ha, hzero⟩
    · exact List.IsPrefix.trans ⟨a, ha.symm⟩ hx
    · -- what `tmp` holds behind the message is zero, and the tag has no NUL
      cases a with
      | nil =>
          rw [List.append_nil] at ha
          rwa [ha]
      | cons b a =>
          have hb :
              b ∈ List.replicate (20 - ((msg.take (right + 1)).take 20).length) (0 : Byte) := by
            rw [hzero]
            simp
          rw [List.eq_of_mem_replicate hb] at ha
          exact absurd (by rw [ha]; simp) t.1.noNul
  · intro h
    obtain ⟨right', hright', hbytes⟩ := tagBytes_of_prefix ht h
    rw [hright] at hright'
    rw [Option.some.inj hright', hbytes, CStr.mem, CStr.length, List.take_append,
      List.take_of_length_le (Nat.le_succ _)]
    simp

theorem tagged_tagBytes {right : Nat} (hright : msg.findIdx? (· = 0x5d) = some right) :
    tagged logSendType (tagBytes msg right) = true ↔
      ∃ t ∈ tags, enabled logSendType t.2 = true ∧ t.1.bytes <+: msg := by
  rw [tagged, List.any_eq_true]
  refine exists_congr fun t => and_congr_right fun ht => ?_
  rw [Bool.and_eq_true, decide_eq_true_iff, tagBytes_eq_iff ht hright, and_comm]

end Tag

/-! ### `logMessage` -/

section Log

variable {msg : List Byte} {logSendType : Nat} {junk : List Byte}

theorem isPrefix_of_strstr {needle : List Byte} : ∀ {s : List Byte} {i : Nat},
    strstr needle s = some i → needle <+: s.drop i
  | [], i, h => by
      simp only [strstr] at h
      split at h
      · rename_i he
        rw [he]
        exact List.nil_prefix
      · cases h
  | b :: s, i, h => by
      simp only [strstr] at h
      split at h
      · rename_i hpre
        cases h
        exact List.isPrefixOf_iff_prefix.mp hpre
      · obtain ⟨j, hj, rfl⟩ := Option.map_eq_some_iff.mp h
        simpa using isPrefix_of_strstr hj

/-- The blank behind the colon lies in the message. -/
theorem strstr_colon_le {i : Nat} (h : strstr (ascii [':', ' ']) msg = some i) :
    i + 2 ≤ msg.length := by
  have := (isPrefix_of_strstr h).length_le
  simp only [ascii, List.map_cons, List.map_nil, List.length_cons, List.length_nil,
    List.length_drop] at this
  omega

theorem afterWord_suffix : ∀ s : List Byte, afterWord s <:+ s
  | [] => List.suffix_refl []
  | b :: s => by
      rw [afterWord]
      split
      · exact List.suffix_cons b s
      · exact (afterWord_suffix s).trans (List.suffix_cons b s)

theorem behindType_suffix (msg : List Byte) : behindType msg <:+ msg := by
  unfold behindType
  split
  · exact (afterWord_suffix _).trans (List.drop_suffix _ _)
  · exact afterWord_suffix _

theorem bytes_tmp_cleared (msg : List Byte) :
    ((((Block.fresh 20).store 0 (msg.take 4 ++ List.replicate (4 - msg.length) 0)).store 4
      [0]).memset 20).bytes = List.replicate 20 0 := by
  have hfour : (msg.take 4 ++ List.replicate (4 - msg.length) (0 : Byte)).length = 4 := by
    simp
    omega
  have hlen :
      (splice (msg.take 4 ++ List.replicate (4 - msg.length) (0 : Byte)) 4 [0]).length = 5 := by
    rw [length_splice hfour.ge, hfour]
    rfl
  simp only [Block.memset, Block.store, Block.bytes_fresh]
  rw [show splice ([] : List Byte) 0 (msg.take 4 ++ List.replicate (4 - msg.length) 0) =
    msg.take 4 ++ List.replicate (4 - msg.length) 0 by simp [splice], splice_zero,
    List.drop_eq_nil_of_le (by rw [hlen]; simp), List.append_nil]

theorem inBounds_tmp_four (msg : List Byte) :
    (((Block.fresh 20).store 0 (msg.take 4 ++ List.replicate (4 - msg.length) 0)).store 4
      [0]).InBounds := by
  have hfour : (msg.take 4 ++ List.replicate (4 - msg.length) (0 : Byte)).length = 4 := by
    simp
    omega
  have hfirst : ((Block.fresh 20).store 0
      (msg.take 4 ++ List.replicate (4 - msg.length) 0)).bytes.length = 4 := by
    simp only [Block.store, Block.bytes_fresh]
    rw [length_splice (Nat.zero_le _), hfour]
    rfl
  rw [Block.inBounds_store hfirst.ge, Block.inBounds_store_fresh, hfour]
  exact ⟨by omega, show 4 + 1 ≤ 20 by omega⟩

theorem inBounds_tmp_cleared (msg : List Byte) :
    ((((Block.fresh 20).store 0 (msg.take 4 ++ List.replicate (4 - msg.length) 0)).store 4
      [0]).memset 20).InBounds := by
  rw [Block.InBounds, bytes_tmp_cleared, List.length_replicate]
  exact le_refl 20

/-- `tmp` behind the copying of the tag. -/
theorem bytes_tmp (msg x : List Byte) (right : Nat) :
    (((((Block.fresh 20).store 0 (msg.take 4 ++ List.replicate (4 - msg.length) 0)).store 4
      [0]).memset 20).store 0 ((x.take (right + 1)).take 20)).bytes = tagBytes x right := by
  rw [Block.store, bytes_tmp_cleared, splice_zero, List.drop_replicate, tagBytes]

theorem inBounds_tmp (msg x : List Byte) (right : Nat) :
    (((((Block.fresh 20).store 0 (msg.take 4 ++ List.replicate (4 - msg.length) 0)).store 4
      [0]).memset 20).store 0 ((x.take (right + 1)).take 20)).InBounds := by
  rw [Block.InBounds, bytes_tmp, tagBytes, List.length_append, List.length_replicate]
  have : ((x.take (right + 1)).take 20).length ≤ 20 := List.length_take_le _ _
  show _ ≤ 20
  omega

theorem inBounds_typeOf (hjunk : junk.length = 128) (msg : List Byte) :
    (typeOf junk msg).InBounds := by
  unfold typeOf
  split
  · rw [Block.inBounds_store (Nat.zero_le _)]
    refine ⟨Block.inBounds_memset_fresh.mpr (le_refl _), ?_⟩
    rw [Nat.zero_add]
    exact List.length_take_le _ _
  · exact hjunk.le

theorem append_prefix_iff {a b m : List Byte} :
    a ++ b <+: m ↔ a <+: m ∧ b <+: m.drop a.length := by
  constructor
  · rintro ⟨r, rfl⟩
    refine ⟨⟨b ++ r, by rw [List.append_assoc]⟩, r, ?_⟩
    rw [List.append_assoc, List.drop_left]
  · rintro ⟨⟨r, rfl⟩, h⟩
    rw [List.drop_left] at h
    obtain ⟨r', rfl⟩ := h
    exact ⟨r', by rw [List.append_assoc]⟩

/-- The first comparison: the message begins with `[SC]`. -/
theorem tmp_eq_iff :
    (((Block.fresh 20).store 0 (msg.take 4 ++ List.replicate (4 - msg.length) 0)).store 4
      [0]).bytes.take 4 = ascii ['[', 'S', 'C', ']'] ↔ ascii ['[', 'S', 'C', ']'] <+: msg := by
  have hfour : (msg.take 4 ++ List.replicate (4 - msg.length) (0 : Byte)).length = 4 := by
    simp
    omega
  have htake : (((Block.fresh 20).store 0 (msg.take 4 ++ List.replicate (4 - msg.length) 0)).store 4
      [0]).bytes.take 4 = msg.take 4 ++ List.replicate (4 - msg.length) 0 := by
    have hfirst : ((Block.fresh 20).store 0
        (msg.take 4 ++ List.replicate (4 - msg.length) 0)).bytes =
          msg.take 4 ++ List.replicate (4 - msg.length) 0 := by
      simp [Block.store, splice]
    rw [Block.store, hfirst, take_splice_of_le (by omega) (le_refl 4),
      List.take_of_length_le hfour.le]
  rw [htake, List.prefix_iff_eq_take]
  change _ ↔ _ = msg.take 4
  by_cases hlen : 4 ≤ msg.length
  · rw [Nat.sub_eq_zero_of_le hlen, List.replicate_zero, List.append_nil, eq_comm]
  · refine iff_of_false ?_ ?_
    · intro h
      have hz : (0 : Byte) ∈ msg.take 4 ++ List.replicate (4 - msg.length) 0 := by
        rw [List.mem_append, List.mem_replicate]
        exact .inr ⟨by omega, rfl⟩
      rw [h] at hz
      exact absurd hz (by decide)
    · intro h
      have := congrArg List.length h
      rw [List.length_take] at this
      simp [ascii] at this
      omega

theorem rewritten_iff :
    Rewritten logSendType msg ↔ ascii ['[', 'S', 'C', ']'] <+: behindType msg ∧
      ∃ t ∈ tags, enabled logSendType t.2 = true ∧ t.1.bytes <+: (behindType msg).drop 4 := by
  constructor
  · rintro ⟨t, ht, hen, h⟩
    obtain ⟨hsc, htag⟩ := append_prefix_iff.mp h
    exact ⟨hsc, t, ht, hen, htag⟩
  · rintro ⟨hsc, t, ht, hen, htag⟩
    exact ⟨t, ht, hen, append_prefix_iff.mpr ⟨hsc, htag⟩⟩

variable {line : CStr}

/-- Behind the time stamp a line of 16 bytes or more is read on. -/
theorem stringAt_stamp (h : 16 ≤ line.length) :
    stringAt Obj.line (line.mem.drop 16) = .ok (line.drop 16) := by
  rw [stringAt, CStr.mem, List.drop_append_of_le_length h]
  have : CStr.ofMem ((line.drop 16).bytes ++ 0 :: []) = some (line.drop 16) :=
    CStr.ofMem_append _ []
  rw [show line.bytes.drop 16 ++ [0] = (line.drop 16).bytes ++ 0 :: [] from rfl, this]

/-- **A message left as it is.** -/
theorem logMessage_plain (hjunk : junk.length = 128) (hlen : line.length ≤ maxline)
    (h : 16 ≤ line.length) (hplain : ¬ Rewritten logSendType (line.bytes.drop 16)) :
    ∃ f, logMessage junk logSendType line = .ok f ∧ f.InBounds := by
  have hline : (⟨maxline + 1, line.mem⟩ : Block).InBounds := by
    rw [Block.InBounds, CStr.length_mem]
    exact Nat.succ_le_succ hlen
  have htype := inBounds_typeOf hjunk (line.drop 16).bytes
  have hbig : (Block.fresh 2048).InBounds := Block.inBounds_fresh _
  simp only [logMessage, stringAt_stamp h, Run.ok_bind]
  split
  · exact ⟨_, rfl, hline, htype, Block.inBounds_fresh _, hbig⟩
  · split
    · exact ⟨_, rfl, hline, htype, inBounds_tmp_four _, hbig⟩
    · rename_i hsc
      split
      · exact ⟨_, rfl, hline, htype, inBounds_tmp_cleared _, hbig⟩
      · rename_i right hright
        rw [bytes_tmp, if_neg]
        · exact ⟨_, rfl, hline, htype, inBounds_tmp _ _ _, hbig⟩
        · rw [tagged_tagBytes hright]
          intro htag
          exact hplain (rewritten_iff.mpr ⟨tmp_eq_iff.mp (not_not.mp hsc), htag⟩)

/-- **A message written anew**: its type is read, and stored with what stands behind the tag. -/
theorem logMessage_rewritten (h : 16 ≤ line.length)
    (hre : Rewritten logSendType (line.bytes.drop 16)) :
    ∃ tail tmp, tail <:+ line.bytes ∧ tmp.InBounds ∧ ∀ junk,
      logMessage junk logSendType line = do
        let type ← stringAt .msgType (typeOf junk (line.bytes.drop 16)).bytes
        return {
          line := (⟨maxline + 1, line.mem⟩ : Block).store (line.length - tail.length)
            (type.bytes ++ tail ++ [0])
          msgType := typeOf junk (line.bytes.drop 16)
          tmp := tmp
          tmp2 := (Block.fresh 2048).store 0 (type.bytes ++ tail ++ [0]) } := by
  obtain ⟨hsc, htags⟩ := rewritten_iff.mp hre
  obtain ⟨t, ht, -, hpre⟩ := id htags
  obtain ⟨right, hright, -⟩ := tagBytes_of_prefix ht hpre
  have hwhite : ¬ whiteMsg (behindType (line.bytes.drop 16)) = true := by
    obtain ⟨r, hr⟩ := hsc
    rw [← hr]
    simp [whiteMsg, ascii]
  refine ⟨((behindType (line.bytes.drop 16)).drop 4).drop
    (CStr.before (tagBytes ((behindType (line.bytes.drop 16)).drop 4) right)).length, _, ?_,
    inBounds_tmp (behindType (line.bytes.drop 16)) ((behindType (line.bytes.drop 16)).drop 4) right,
    fun junk => ?_⟩
  · exact (List.drop_suffix _ _).trans ((List.drop_suffix _ _).trans
      ((behindType_suffix _).trans (List.drop_suffix _ _)))
  · have htagged : tagged logSendType (tagBytes ((behindType (line.bytes.drop 16)).drop 4) right) =
        true := (tagged_tagBytes hright).mpr htags
    simp only [logMessage, stringAt_stamp h, Run.ok_bind, CStr.drop, if_neg hwhite, ne_eq,
      tmp_eq_iff, hsc, not_true, if_false, hright, bytes_tmp, htagged, if_true]

/-- The type is a string of at most 127 bytes, or none. -/
theorem ofMem_typeOf (junk : List Byte) (msg : CStr) {i : Nat}
    (hi : strstr (ascii [':', ' ']) msg.bytes = some i) :
    CStr.ofMem (typeOf junk msg.bytes).bytes = if i + 2 ≤ 127 then some (msg.take (i + 2))
    else none := by
  have hbytes : (typeOf junk msg.bytes).bytes = (msg.bytes.take (i + 2)).take 128 ++
      List.replicate (128 - ((msg.bytes.take (i + 2)).take 128).length) 0 := by
    simp only [typeOf, hi]
    rw [Block.store, Block.bytes_memset_fresh, splice_zero, List.drop_replicate]
  have hle := strstr_colon_le hi
  have hlen : ((msg.bytes.take (i + 2)).take 128).length = min 128 (i + 2) := by
    rw [List.length_take, List.length_take, min_eq_left hle]
  rw [hbytes, hlen]
  by_cases h : i + 2 ≤ 127
  · rw [if_pos h, List.take_of_length_le (by rw [List.length_take]; omega),
      show 128 - min 128 (i + 2) = 127 - (i + 2) + 1 by omega, List.replicate_succ]
    exact CStr.ofMem_append (msg.take (i + 2)) _
  · rw [if_neg h, show 128 - min 128 (i + 2) = 0 by omega, List.replicate_zero, List.append_nil,
      CStr.ofMem_eq_none]
    exact fun h0 => msg.noNul (List.mem_of_mem_take (List.mem_of_mem_take h0))

/-- `logMessage` stays within its arrays and strings. -/
def LogSafe (junk : List Byte) (logSendType : Nat) (line : CStr) : Prop :=
  ∃ f, logMessage junk logSendType line = .ok f ∧ f.InBounds

/-- A message written anew has a type to read, and room for it. -/
theorem logSafe_rewritten_iff (hlen : line.length ≤ maxline) (h : 16 ≤ line.length)
    (hre : Rewritten logSendType (line.bytes.drop 16)) (hjunk : junk.length = 128) {i : Nat}
    (hi : strstr (ascii [':', ' ']) (line.bytes.drop 16) = some i) :
    LogSafe junk logSendType line ↔ i + 2 ≤ 127 ∧ line.length + (i + 2) ≤ maxline := by
  obtain ⟨tail, tmp, ⟨w, hw⟩, htmp, hlog⟩ := logMessage_rewritten h hre
  have htail : w.length + tail.length = line.length := by
    rw [CStr.length, ← hw, List.length_append]
  have htype := ofMem_typeOf junk (line.drop 16) hi
  have hile : i + 2 ≤ (line.bytes.drop 16).length := strstr_colon_le hi
  unfold LogSafe
  rw [hlog junk, stringAt]
  by_cases h127 : i + 2 ≤ 127
  · rw [if_pos h127] at htype
    have htlen : (CStr.take (i + 2) (line.drop 16)).bytes.length = i + 2 := by
      show ((line.bytes.drop 16).take (i + 2)).length = i + 2
      rw [List.length_take, min_eq_left hile]
    rw [show (typeOf junk (line.bytes.drop 16)).bytes =
      (typeOf junk (line.drop 16).bytes).bytes from rfl, htype]
    have hbytes : ((CStr.take (i + 2) (line.drop 16)).bytes ++ tail ++ [0]).length =
        i + 2 + tail.length + 1 := by
      rw [List.length_append, List.length_append, htlen]
      rfl
    have hline : ((⟨maxline + 1, line.mem⟩ : Block).store (line.length - tail.length)
        ((CStr.take (i + 2) (line.drop 16)).bytes ++ tail ++ [0])).InBounds ↔
          line.length + (i + 2) ≤ maxline := by
      rw [Block.inBounds_store (by rw [CStr.length_mem]; omega), hbytes, Block.InBounds,
        CStr.length_mem]
      show line.length + 1 ≤ maxline + 1 ∧ _ ≤ maxline + 1 ↔ _
      omega
    have hbig : ((Block.fresh 2048).store 0
        ((CStr.take (i + 2) (line.drop 16)).bytes ++ tail ++ [0])).InBounds := by
      rw [Block.inBounds_store_fresh, hbytes]
      have : maxline = 1024 := rfl
      omega
    rw [and_iff_right h127, ← hline]
    constructor
    · rintro ⟨f, hf, hb, -⟩
      cases hf
      exact hb
    · intro hb
      exact ⟨_, rfl, hb, inBounds_typeOf hjunk _, htmp, hbig⟩
  · rw [if_neg h127] at htype
    rw [show (typeOf junk (line.bytes.drop 16)).bytes =
      (typeOf junk (line.drop 16).bytes).bytes from rfl, htype]
    refine iff_of_false ?_ (fun h => h127 h.1)
    rintro ⟨f, hf, -⟩
    cases hf

/-- **What `logMessage` may be given**, whatever lies on the stack. -/
theorem logSafe_iff (hlen : line.length ≤ maxline) :
    (∀ junk : List Byte, junk.length = 128 → LogSafe junk logSendType line) ↔
      Loggable logSendType line.bytes := by
  by_cases h : 16 ≤ line.length
  · by_cases hre : Rewritten logSendType (line.bytes.drop 16)
    · constructor
      · intro hsafe
        refine ⟨h, fun _ => ?_⟩
        cases hi : strstr (ascii [':', ' ']) (line.bytes.drop 16) with
        | some i =>
            have hjunk : (List.replicate 128 (1 : Byte)).length = 128 := List.length_replicate
            obtain ⟨h127, hroom⟩ :=
              (logSafe_rewritten_iff hlen h hre hjunk hi).mp (hsafe _ hjunk)
            exact ⟨i, rfl, h127, hroom⟩
        | none =>
            -- without a type the stack is read, and no NUL need be there
            obtain ⟨tail, tmp, -, -, hlog⟩ := logMessage_rewritten h hre
            obtain ⟨f, hf, -⟩ := hsafe (List.replicate 128 1) List.length_replicate
            have hnone : CStr.ofMem (List.replicate 128 (1 : Byte)) = none :=
              CStr.ofMem_eq_none.mpr (by simp)
            rw [hlog, stringAt, typeOf, hi] at hf
            simp only [hnone] at hf
            cases hf
      · rintro ⟨-, hloggable⟩ junk hjunk
        obtain ⟨i, hi, h127, hroom⟩ := hloggable hre
        exact (logSafe_rewritten_iff hlen h hre hjunk hi).mpr ⟨h127, hroom⟩
    · exact iff_of_true (fun junk hjunk => logMessage_plain hjunk hlen h hre)
        ⟨h, fun hre' => absurd hre' hre⟩
  · refine iff_of_false ?_ (fun hlog => h hlog.1)
    intro hsafe
    obtain ⟨f, hf, -⟩ := hsafe (List.replicate 128 0) List.length_replicate
    have hnone : CStr.ofMem (line.mem.drop 16) = none := by
      rw [List.drop_eq_nil_of_le (by rw [CStr.length_mem]; omega)]
      rfl
    simp only [logMessage, stringAt, hnone] at hf
    cases hf

end Log

/-! ### The parts of a datagram -/

section Parts

variable {p d : List Byte}

theorem parts_append (hp : (0 : Byte) ∉ p) (d : List Byte) :
    parts (p ++ 0 :: d) = p :: parts d := by
  induction p with
  | nil => rfl
  | cons b p ih =>
      obtain ⟨hb, hp'⟩ := not_or.mp (mt List.mem_cons.mpr hp)
      rw [List.cons_append, parts, if_neg (Ne.symm hb), ih hp']

theorem parts_last (hp : (0 : Byte) ∉ p) (hne : p ≠ []) : parts p = [p] := by
  induction p with
  | nil => exact absurd rfl hne
  | cons b p ih =>
      obtain ⟨hb, hp'⟩ := not_or.mp (mt List.mem_cons.mpr hp)
      rw [parts, if_neg (Ne.symm hb)]
      cases p with
      | nil => rfl
      | cons c p => rw [ih hp' (List.cons_ne_nil _ _)]

theorem parts_ne_nil (h : d ≠ []) : parts d ≠ [] := by
  cases d with
  | nil => exact absurd rfl h
  | cons b d =>
      rw [parts]
      split
      · exact List.cons_ne_nil _ _
      · split <;> exact List.cons_ne_nil _ _

theorem noNul_of_mem_parts (h : p ∈ parts d) : (0 : Byte) ∉ p := by
  induction d generalizing p with
  | nil => cases h
  | cons b d ih =>
      rw [parts] at h
      split at h
      · rcases List.mem_cons.mp h with rfl | h
        · exact List.not_mem_nil
        · exact ih h
      · rename_i hb
        split at h
        · obtain rfl := List.mem_singleton.mp h
          simpa using Ne.symm hb
        · rename_i q qs hparts
          rcases List.mem_cons.mp h with rfl | h
          · have hq := ih (p := q) (by rw [hparts]; exact List.mem_cons_self)
            exact fun h0 => (List.mem_cons.mp h0).elim (fun e => hb e.symm) hq
          · exact ih (by rw [hparts]; exact List.mem_cons_of_mem _ h)

end Parts

/-! ### Turns of the loop -/

section Turns

variable {junk : List Byte} {logSendType total unused : Nat}

/-- The loop, from the state it is in, makes one call for each of the parts to come, within the
arrays. -/
def Outcome (junk : List Byte) (logSendType total unused : Nat) (s : Serve)
    (pl : List (Nat × List Byte)) : Prop :=
  ∃ calls, Loop.Returns (serveStep junk logSendType total unused) s (.ok (s.calls ++ calls)) ∧
    (∀ c ∈ calls, c.InBounds) ∧ List.Forall₂ Call.Hands calls pl

variable {s : Serve} {pl : List (Nat × List Byte)}

/-- Behind the datagram the loop ends. -/
theorem outcome_end (h : s.mem.length ≤ unused) :
    Outcome junk logSendType total unused s pl ↔ pl = [] := by
  have hend : serveStep junk logSendType total unused s = .inr (.ok s.calls) := by
    rw [serveStep, if_neg (Nat.not_lt_of_le h)]
  constructor
  · rintro ⟨calls, hret, -, hpl⟩
    have hcalls := (Loop.returns_of_inr hend _).mp hret
    have hnil : calls = [] := by simpa using hcalls
    rw [hnil] at hpl
    exact List.forall₂_nil_left_iff.mp hpl
  · rintro rfl
    exact ⟨[], by rw [List.append_nil]; exact (Loop.returns_of_inr hend _).mpr rfl, by simp, .nil⟩

theorem outcome_error {e : Fault Obj}
    (h : serveStep junk logSendType total unused s = .inr (.error e)) :
    ¬ Outcome junk logSendType total unused s pl := by
  rintro ⟨calls, hret, -⟩
  cases (Loop.returns_of_inr h _).mp hret

/-- A call once made is among those the loop returns. -/
theorem returns_calls {calls : List Call}
    (h : Loop.Returns (serveStep junk logSendType total unused) s (.ok calls)) :
    s.calls <+: calls := by
  have hkeep : ∀ s₁ s₂, s.calls <+: s₁.calls →
      serveStep junk logSendType total unused s₁ = .inl s₂ → s.calls <+: s₂.calls := by
    intro s₁ s₂ h₁ h₂
    simp only [serveStep] at h₂
    split at h₂
    · split at h₂
      · cases h₂
        exact h₁.trans (List.prefix_append _ _)
      · cases h₂
    · cases h₂
  obtain ⟨s', hs', hend⟩ := h.of_invariant hkeep (List.prefix_refl _)
  simp only [serveStep] at hend
  split at hend
  · split at hend <;> cases hend
  · cases hend
    exact hs'

/-- **One turn**: its call hands over the next part, and the loop goes on with the others. -/
theorem outcome_turn {mem : List Byte} {c : Call}
    (h : serveStep junk logSendType total unused s = .inl ⟨mem, s.calls ++ [c]⟩)
    (part : Nat × List Byte) :
    Outcome junk logSendType total unused s (part :: pl) ↔
      (c.InBounds ∧ c.Hands part) ∧
        Outcome junk logSendType total unused ⟨mem, s.calls ++ [c]⟩ pl := by
  constructor
  · rintro ⟨calls, hret, hin, hall⟩
    rw [Loop.returns_of_inl h] at hret
    obtain ⟨c', calls', hhands, hall', rfl⟩ := List.forall₂_cons_right_iff.mp hall
    obtain rfl : c = c' := by
      obtain ⟨u, hu⟩ := returns_calls hret
      rw [List.append_assoc] at hu
      exact (List.cons.inj (List.append_cancel_left hu)).1
    refine ⟨⟨hin c List.mem_cons_self, hhands⟩, calls', ?_,
      fun x hx => hin x (List.mem_cons_of_mem _ hx), hall'⟩
    rwa [List.append_assoc]
  · rintro ⟨⟨hc, hhands⟩, calls, hret, hin, hall⟩
    refine ⟨c :: calls, ?_, List.forall_mem_cons.mpr ⟨hc, hin⟩, .cons hhands hall⟩
    rw [Loop.returns_of_inl h]
    rwa [List.append_assoc] at hret

variable (junk logSendType total) in
/-- What a turn comes to where the copying loop ends: the line is the text written, and the call
is made unless `logMessage` leaves its arrays. -/
theorem serveStep_of_scan {r : Scan} {w : List Byte} (hlt : unused < s.mem.length)
    (hscan : scan s.mem .text logUserNotice (.start (.fresh (maxline + 1))) = .ok r)
    (hw : r.line.Wrote w) :
    serveStep junk logSendType total unused s =
      match logMessage junk logSendType (.before (w ++ [0])) with
      | .ok f => .inl ⟨r.rest.tail, s.calls ++ [⟨total - s.mem.length, total - r.rest.length,
          (r.line.poke 0).block, .before (w ++ [0]), f⟩]⟩
      | .error e => .inr (.error e) := by
  have htext : stringAt Obj.line (r.line.poke 0).block.bytes = .ok (.before (w ++ [0])) := by
    rw [hw.bytes_poke, stringAt, CStr.ofMem, if_pos (by simp)]
    rfl
  simp only [serveStep, if_pos hlt, hscan, Run.ok_bind, htext]
  cases logMessage junk logSendType (.before (w ++ [0])) <;> rfl

theorem serveStep_error {e : Fault Obj} (hlt : unused < s.mem.length)
    (hscan : scan s.mem .text logUserNotice (.start (.fresh (maxline + 1))) = .error e) :
    serveStep junk logSendType total unused s = .inr (.error e) := by
  rw [serveStep, if_pos hlt, hscan]
  rfl

/-- What the parts to come ask for, with `unused` zeros behind them. -/
def SoundFrom (junk : List Byte) (logSendType unused : Nat) (d : List Byte) : Prop :=
  (∀ p ∈ parts d, Fits .text 0 p ∧
    LogSafe junk logSendType (.before (encode .text p ++ [0]))) ∧
    (∀ p ∈ (parts d).dropLast, ¬ Open p) ∧
    ∀ p, (parts d).getLast? = some p → Open p → d.getLast? = some 0 ∨ 1 < unused

theorem start_wrote : (Cursor.start (.fresh (maxline + 1))).Wrote [] := Cursor.wrote_start _

/-- **A part that does not fit** is not handed over whole. -/
theorem not_outcome_overlong {p m : List Byte} (hp : (0 : Byte) ∉ p)
    (hmem : s.mem = p ++ 0 :: m) (hlt : unused < s.mem.length) {i : Nat}
    (htotal : i + s.mem.length = total) (hfits : ¬ Fits .text 0 p) :
    ¬ Outcome junk logSendType total unused s ((i, p) :: pl) := by
  obtain ⟨r, w, hscan, hw, hsize, hor⟩ := scan_overlong (m := m) hp logUserNotice
    start_wrote (fun h => by cases h) hfits
  rw [← hmem] at hscan
  have hturn := serveStep_of_scan junk logSendType total hlt hscan hw
  cases hlog : logMessage junk logSendType (.before (w ++ [0])) with
  | error e =>
      rw [hlog] at hturn
      exact outcome_error hturn
  | ok f =>
      rw [hlog] at hturn
      rw [outcome_turn hturn]
      rintro ⟨⟨⟨hline, -⟩, -, hstop, -⟩, -⟩
      have hlen := congrArg List.length hmem
      rw [List.length_append, List.length_cons] at hlen
      rcases hor with hrest | hlong
      · have hle : r.rest.length ≤ s.mem.length := scan_rest_le hscan
        simp only at hstop
        omega
      · rw [Block.InBounds, hw.bytes_poke, List.length_append] at hline
        have hblock : (r.line.poke 0).block.size = maxline + 1 := hsize
        rw [hblock] at hline
        simp at hline
        omega

/-- **A part that fits** is handed over by one turn, and the loop goes on where the copying loop
ends. -/
theorem outcome_fits {p m r : List Byte} (hp : (0 : Byte) ∉ p) (hmem : s.mem = p ++ 0 :: m)
    (hlt : unused < s.mem.length) {i : Nat} (htotal : i + s.mem.length = total)
    (hfits : Fits .text 0 p)
    (hscan : ∀ pri q, ∃ pri', scan (0 :: m) (modeAfter .text p) pri q = .ok ⟨pri', q, r⟩)
    (hrest : r.length ≤ m.length + 1) {P : Prop}
    (hnext : ∀ calls, Outcome junk logSendType total unused ⟨r.tail, calls⟩ pl ↔ P) :
    Outcome junk logSendType total unused s ((i, p) :: pl) ↔
      LogSafe junk logSendType (.before (encode .text p ++ [0])) ∧ P := by
  obtain ⟨pri, q, hpart, hw, hsize, hlen⟩ := scan_fits (m := 0 :: m) hp logUserNotice
    start_wrote hfits
  rw [List.nil_append] at hw hlen
  obtain ⟨pri', hend⟩ := hscan pri q
  rw [hend, ← hmem] at hpart
  have hturn := serveStep_of_scan junk logSendType total hlt hpart hw
  cases hlog : logMessage junk logSendType (.before (encode .text p ++ [0])) with
  | error e =>
      rw [hlog] at hturn
      refine iff_of_false (outcome_error hturn) ?_
      rintro ⟨⟨f, hf, -⟩, -⟩
      rw [hlog] at hf
      cases hf
  | ok f =>
      rw [hlog] at hturn
      have hmemlen := congrArg List.length hmem
      rw [List.length_append, List.length_cons] at hmemlen
      have hline : (q.poke 0).block.InBounds := by
        have hblock : (q.poke 0).block.size = maxline + 1 := hsize
        rw [Block.InBounds, hw.bytes_poke, hblock, List.length_append]
        exact Nat.succ_le_succ hlen
      have htext : (CStr.before (encode .text p ++ [0])).bytes = encode .text p :=
        congrArg CStr.bytes (CStr.before_append ⟨_, noNul_encode hp .text⟩ [])
      rw [outcome_turn hturn, hnext]
      refine and_congr_left fun _ => ?_
      constructor
      · rintro ⟨⟨-, hf⟩, -⟩
        exact ⟨f, hlog, hf⟩
      · rintro ⟨f', hf', hin⟩
        rw [hlog] at hf'
        cases hf'
        refine ⟨⟨hline, hin⟩, ?_, ?_, htext⟩
        · simp only
          omega
        · simp only
          omega

/-- The parts of a datagram that begins with a part and its NUL. -/
theorem soundFrom_cons {p d : List Byte} (hp : (0 : Byte) ∉ p) (hd : d ≠ []) :
    SoundFrom junk logSendType unused (p ++ 0 :: d) ↔
      (Fits .text 0 p ∧ LogSafe junk logSendType (.before (encode .text p ++ [0]))) ∧ ¬ Open p ∧
        SoundFrom junk logSendType unused d := by
  obtain ⟨q, qs, hq⟩ := List.exists_cons_of_ne_nil (parts_ne_nil hd)
  have hlast : (p ++ 0 :: d).getLast? = d.getLast? := by
    rw [List.getLast?_append_of_ne_nil _ (List.cons_ne_nil _ _)]
    obtain ⟨b, d', rfl⟩ := List.exists_cons_of_ne_nil hd
    rw [List.getLast?_cons_cons]
  unfold SoundFrom
  rw [parts_append hp, hlast, hq, List.dropLast_cons_cons, List.getLast?_cons_cons]
  constructor
  · rintro ⟨hfits, hopen, hend⟩
    obtain ⟨h₁, h₂⟩ := List.forall_mem_cons.mp hfits
    obtain ⟨h₃, h₄⟩ := List.forall_mem_cons.mp hopen
    exact ⟨h₁, h₃, h₂, h₄, hend⟩
  · rintro ⟨h₁, h₃, h₂, h₄, hend⟩
    exact ⟨List.forall_mem_cons.mpr ⟨h₁, h₂⟩, List.forall_mem_cons.mpr ⟨h₃, h₄⟩, hend⟩

/-- The last part of a datagram. -/
theorem soundFrom_single {p d : List Byte} (hd : parts d = [p]) :
    SoundFrom junk logSendType unused d ↔
      (Fits .text 0 p ∧ LogSafe junk logSendType (.before (encode .text p ++ [0]))) ∧
        (Open p → d.getLast? = some 0 ∨ 1 < unused) := by
  unfold SoundFrom
  rw [hd]
  simp

/-- A NUL ends the copying, outside the digits of a priority. -/
theorem scan_nul {mode : Mode} (h : mode ≠ .digits) (m : List Byte) (pri : BitVec 32) (q : Cursor) :
    scan (0 :: m) mode pri q = .ok ⟨pri, q, 0 :: m⟩ := by
  rw [scan_text h, if_neg fun h => h.1 rfl]

/-- The NUL behind the digits is skipped. -/
theorem scan_digits_nul (m : List Byte) (pri : BitVec 32) (q : Cursor) :
    scan (0 :: m) .digits pri q = scan m .after (checkedPri pri) q := by
  rw [scan, if_neg (by decide)]

/-- The next call begins where the loop stands. -/
theorem outcome_start {i : Nat} {p : List Byte}
    (h : Outcome junk logSendType total unused s ((i, p) :: pl)) :
    unused < s.mem.length ∧ i = total - s.mem.length := by
  by_cases hlt : unused < s.mem.length
  · refine ⟨hlt, ?_⟩
    cases hstep : serveStep junk logSendType total unused s with
    | inr r =>
        obtain ⟨calls, hret, -, hall⟩ := h
        have hr := (Loop.returns_of_inr hstep _).mp hret
        simp only [serveStep, if_pos hlt] at hstep
        split at hstep
        · cases hstep
        · rw [← Sum.inr.inj hstep] at hr
          cases hr
    | inl s' =>
        have hcopy := hstep
        simp only [serveStep, if_pos hlt] at hcopy
        split at hcopy
        · rename_i mem c hturn
          rw [← Sum.inl.inj hcopy] at hstep
          obtain ⟨⟨-, hstart, -⟩, -⟩ := (outcome_turn hstep _).mp h
          obtain ⟨r, -, hr⟩ := Run.bind_eq_ok.mp hturn
          obtain ⟨text, -, ht⟩ := Run.bind_eq_ok.mp hr
          obtain ⟨f, -, hf⟩ := Run.bind_eq_ok.mp ht
          cases hf
          exact hstart.symm
        · cases hcopy
  · exact absurd ((outcome_end (Nat.le_of_not_lt hlt)).mp h) (List.cons_ne_nil _ _)

/-- **A part that ends among the digits** swallows its NUL, and the next part is not handed over
from its beginning. -/
theorem not_outcome_open {p m : List Byte} (hp : (0 : Byte) ∉ p) (hmem : s.mem = p ++ 0 :: m)
    (hlt : unused < s.mem.length) {i : Nat} (htotal : i + s.mem.length = total)
    (hfits : Fits .text 0 p) (hopen : Open p) {q : List Byte} :
    ¬ Outcome junk logSendType total unused s ((i, p) :: (i + p.length + 1, q) :: pl) := by
  obtain ⟨pri, t, hpart, hw, -, -⟩ := scan_fits (m := 0 :: m) hp logUserNotice
    start_wrote hfits
  rw [hopen, scan_digits_nul, ← hmem] at hpart
  have hmemlen := congrArg List.length hmem
  rw [List.length_append, List.length_cons] at hmemlen
  cases hscan : scan m .after (checkedPri pri) t with
  | error e => exact outcome_error (serveStep_error hlt (hpart.trans hscan))
  | ok r =>
      rw [hscan] at hpart
      have hrest := scan_rest_le hscan
      obtain ⟨w, hwrote⟩ : ∃ w, r.line.Wrote w := scan_wrote hscan hw
      have hturn := serveStep_of_scan junk logSendType total hlt hpart hwrote
      cases hlog : logMessage junk logSendType (.before (w ++ [0])) with
      | error e =>
          rw [hlog] at hturn
          exact outcome_error hturn
      | ok f =>
          rw [hlog] at hturn
          rw [outcome_turn hturn]
          rintro ⟨-, hnext⟩
          obtain ⟨hlt', hstart⟩ := outcome_start hnext
          have htail : r.rest.tail.length = r.rest.length - 1 := List.length_tail
          simp only at hstart hlt'
          omega

/-- The last part, where no NUL of the datagram follows it. -/
theorem outcome_last {p : List Byte} (hp : (0 : Byte) ∉ p) (hne : p ≠ []) {k i : Nat}
    (calls : List Call) (htotal : i + p.length + (k + 1) = total) :
    Outcome junk logSendType total (k + 1) ⟨p ++ List.replicate (k + 1) 0, calls⟩
      (places i (parts p)) ↔ SoundFrom junk logSendType (k + 1) p := by
  have hpos : 0 < p.length := List.length_pos_iff.mpr hne
  have hlen : (p ++ List.replicate (k + 1) (0 : Byte)).length = p.length + (k + 1) := by simp
  have hlt : k + 1 < (p ++ List.replicate (k + 1) (0 : Byte)).length := by omega
  have htot : i + (p ++ List.replicate (k + 1) (0 : Byte)).length = total := by omega
  have hlast : p.getLast? ≠ some 0 := fun h => hp (List.mem_of_getLast? h)
  rw [soundFrom_single (parts_last hp hne), parts_last hp hne, places, places]
  by_cases hfits : Fits .text 0 p
  · by_cases hopen : Open p
    · rw [and_iff_right hfits, imp_iff_right hopen, or_iff_right hlast]
      cases k with
      | zero =>
          -- the array ends behind the digits
          obtain ⟨pri, t, hpart, -⟩ := scan_fits (m := [0]) hp logUserNotice
            start_wrote hfits
          rw [hopen, scan_digits_nul, scan] at hpart
          exact iff_of_false (outcome_error (serveStep_error hlt hpart)) (by simp)
      | succ k =>
          rw [outcome_fits (m := List.replicate (k + 1) 0) (r := List.replicate (k + 1) 0)
            (P := True) hp rfl hlt htot hfits ?_ (by simp) fun _ => ?_]
          · simp
          · intro pri q
            rw [hopen, scan_digits_nul]
            exact ⟨_, scan_nul (by decide) _ _ _⟩
          · rw [outcome_end (by simp; omega)]
            simp
    · rw [outcome_fits (m := List.replicate k 0) (r := List.replicate (k + 1) 0) (P := True)
        hp rfl hlt htot hfits (fun pri q => ⟨pri, scan_nul hopen _ _ _⟩) (by simp) fun _ => ?_]
      · simp [hfits, hopen]
      · simp [outcome_end]
  · exact iff_of_false (not_outcome_overlong hp rfl hlt htot hfits) fun h => hfits h.1.1

/-- The last part, closed by a NUL. -/
theorem outcome_last_nul {p : List Byte} (hp : (0 : Byte) ∉ p) {k i : Nat} (calls : List Call)
    (htotal : i + (p.length + 1) + (k + 1) = total) :
    Outcome junk logSendType total (k + 1) ⟨p ++ [0] ++ List.replicate (k + 1) 0, calls⟩
      (places i (parts (p ++ [0]))) ↔ SoundFrom junk logSendType (k + 1) (p ++ [0]) := by
  have hmem :
      p ++ [0] ++ List.replicate (k + 1) (0 : Byte) = p ++ 0 :: List.replicate (k + 1) 0 := by
    simp
  have hlen : (p ++ 0 :: List.replicate (k + 1) (0 : Byte)).length = p.length + 1 + (k + 1) := by
    simp
    omega
  have hlt : k + 1 < (p ++ 0 :: List.replicate (k + 1) (0 : Byte)).length := by omega
  have htot : i + (p ++ 0 :: List.replicate (k + 1) (0 : Byte)).length = total := by omega
  have hparts : parts (p ++ [0]) = [p] := parts_append hp []
  rw [soundFrom_single hparts, hparts, hmem, places, places,
    List.getLast?_append_of_ne_nil _ (List.cons_ne_nil _ _)]
  by_cases hfits : Fits .text 0 p
  · by_cases hopen : Open p
    · rw [outcome_fits (r := List.replicate (k + 1) 0) (P := True) hp rfl hlt htot hfits ?_
        (by simp) fun _ => ?_]
      · simp [hfits]
      · intro pri q
        rw [hopen, scan_digits_nul]
        exact ⟨_, scan_nul (by decide) _ _ _⟩
      · simp [outcome_end]
    · rw [outcome_fits (r := 0 :: List.replicate (k + 1) 0) (P := True) hp rfl hlt htot hfits
        (fun pri q => ⟨pri, scan_nul hopen _ _ _⟩) (by simp) fun _ => ?_]
      · simp [hfits]
      · simp [outcome_end]
  · exact iff_of_false (not_outcome_overlong hp rfl hlt htot hfits) fun h => hfits h.1.1

variable (junk logSendType) in
/-- **The loop of `serveConnection`**, from any part on. -/
theorem outcome_iff (k n : Nat) : ∀ d : List Byte, d.length ≤ n →
    ∀ (i : Nat) (calls : List Call), i + d.length + (k + 1) = total →
      (Outcome junk logSendType total (k + 1) ⟨d ++ List.replicate (k + 1) 0, calls⟩
        (places i (parts d)) ↔ SoundFrom junk logSendType (k + 1) d) := by
  induction n with
  | zero =>
      intro d hd i calls _
      obtain rfl := List.length_eq_zero_iff.mp (Nat.le_zero.mp hd)
      rw [outcome_end (by simp)]
      simp [SoundFrom, parts, places]
  | succ n ih =>
      intro d hd i calls htotal
      by_cases hne : d = []
      · exact ih d (by simp [hne]) i calls htotal
      cases hs : CStr.ofMem d with
      | none => exact outcome_last (CStr.ofMem_eq_none.mp hs) hne calls htotal
      | some p =>
          obtain ⟨d', rfl⟩ := CStr.ofMem_eq_some.mp hs
          have hp := p.noNul
          by_cases hd' : d' = []
          · subst hd'
            exact outcome_last_nul hp calls (by simpa using htotal)
          rw [List.length_append, List.length_cons] at hd htotal
          have hmem : p.bytes ++ 0 :: d' ++ List.replicate (k + 1) (0 : Byte) =
              p.bytes ++ 0 :: (d' ++ List.replicate (k + 1) 0) := by simp
          have hlen : (p.bytes ++ 0 :: (d' ++ List.replicate (k + 1) (0 : Byte))).length =
              p.bytes.length + 1 + d'.length + (k + 1) := by
            simp
            omega
          have hlt :
              k + 1 < (p.bytes ++ 0 :: (d' ++ List.replicate (k + 1) (0 : Byte))).length := by
            omega
          have htot : i + (p.bytes ++ 0 :: (d' ++ List.replicate (k + 1) (0 : Byte))).length =
              total := by omega
          rw [soundFrom_cons hp hd', parts_append hp, hmem, places]
          by_cases hfits : Fits .text 0 p.bytes
          · by_cases hopen : Open p.bytes
            · refine iff_of_false ?_ (fun h => h.2.1 hopen)
              obtain ⟨q, qs, hq⟩ := List.exists_cons_of_ne_nil (parts_ne_nil hd')
              rw [hq, places]
              exact not_outcome_open hp rfl hlt htot hfits hopen
            · rw [outcome_fits (r := 0 :: (d' ++ List.replicate (k + 1) 0))
                (P := SoundFrom junk logSendType (k + 1) d') hp rfl hlt htot hfits
                (fun pri q => ⟨pri, scan_nul hopen _ _ _⟩) (by simp)
                (fun calls' => ih d' (by omega) (i + p.bytes.length + 1) calls' (by omega))]
              rw [and_iff_right hfits, and_iff_right hopen]
          · exact iff_of_false (not_outcome_overlong hp rfl hlt htot hfits) fun h => hfits h.1.1

end Turns

theorem survives_iff_soundFrom {bufsiz : Nat} {d : List Byte} (hd : d.length ≤ bufsiz)
    (logSendType : Nat) : Survives bufsiz logSendType d ↔ ∀ junk : List Byte, junk.length = 128 →
      SoundFrom junk logSendType (bufsiz + 1 - d.length) d := by
  obtain ⟨k, hk⟩ : ∃ k, bufsiz + 1 - d.length = k + 1 := ⟨bufsiz - d.length, by omega⟩
  unfold Survives
  rw [hk]
  refine forall_congr' fun junk => imp_congr_right fun _ => ?_
  have houtcome := outcome_iff junk logSendType k d.length d (le_refl _) 0 []
    (show 0 + d.length + (k + 1) = bufsiz + 1 by omega)
  rw [← houtcome, received, hk]
  rfl

/-- **The datagrams that are survived.** -/
theorem serveConnection_survives_iff {bufsiz : Nat} {d : List Byte} (hd : d.length ≤ bufsiz)
    (logSendType : Nat) : Survives bufsiz logSendType d ↔ Sound bufsiz logSendType d := by
  have hlog : ∀ p ∈ parts d, Fits .text 0 p →
      ((∀ junk : List Byte, junk.length = 128 →
        LogSafe junk logSendType (.before (encode .text p ++ [0]))) ↔
          Loggable logSendType (encode .text p)) := fun p hp hfits => by
    have hno := noNul_of_mem_parts hp
    have htext : CStr.before (encode .text p ++ [0]) = ⟨_, noNul_encode hno .text⟩ :=
      CStr.before_append ⟨_, noNul_encode hno .text⟩ []
    obtain ⟨-, -, -, -, -, hlen⟩ := scan_fits (m := []) hno logUserNotice start_wrote hfits
    rw [htext]
    exact logSafe_iff hlen
  have hsmall : 1 < bufsiz + 1 - d.length ↔ d.length < bufsiz := by omega
  rw [survives_iff_soundFrom hd]
  unfold Sound SoundFrom
  rw [hsmall]
  constructor
  · intro hall
    obtain ⟨hfits, hopen, hend⟩ := hall (List.replicate 128 0) List.length_replicate
    refine ⟨fun p hp => ⟨(hfits p hp).1, (hlog p hp (hfits p hp).1).mp fun junk hjunk => ?_⟩,
      hopen, hend⟩
    exact ((hall junk hjunk).1 p hp).2
  · rintro ⟨hfits, hopen, hend⟩ junk hjunk
    exact ⟨fun p hp => ⟨(hfits p hp).1, (hlog p hp (hfits p hp).1).mpr (hfits p hp).2 junk hjunk⟩,
      hopen, hend⟩

/-- One letter: the time stamp that is skipped is not there. -/
theorem serveConnection_short_datagram : ¬ ∀ (bufsiz logSendType : Nat) (d : List Byte),
    d.length ≤ bufsiz → Survives bufsiz logSendType d := by
  intro h
  have hsound := (survives_iff_soundFrom (by decide) 0).mp (h 4096 0 [0x61] (by decide))
  obtain ⟨f, hf, -⟩ :=
    ((hsound (List.replicate 128 0) List.length_replicate).1 [0x61] List.mem_cons_self).2
  cases hf

/-- A login that is told. -/
def loginLine : List Byte := ascii "<14>Jan  1 00:00:00 httpd: [SC][AuthLogin]admin".toList

/-- Its message is written anew. -/
theorem serveConnection_survives_login :
    Rewritten 2 (loginLine.drop 20) ∧ Survives 4096 2 loginLine := by
  have hparts : parts loginLine = [loginLine] := by decide +kernel
  have hline : encode .text loginLine = loginLine.drop 4 := by decide +kernel
  refine ⟨⟨(.text "[AuthLogin]", some 1), by decide, by decide, by decide +kernel⟩,
    (serveConnection_survives_iff (by decide) 2).mpr ⟨?_, ?_, ?_⟩⟩
  · rw [hparts, List.forall_mem_singleton, hline]
    exact ⟨by decide +kernel, by decide +kernel, fun _ => ⟨5, by decide +kernel⟩⟩
  · rw [hparts]
    exact fun _ h => absurd h List.not_mem_nil
  · exact fun _ _ _ => .inr (by decide +kernel)

end Syslog
