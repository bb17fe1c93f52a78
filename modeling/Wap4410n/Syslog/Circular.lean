import Wap4410n.Support.Block
import Wap4410n.Support.Lines
import Wap4410n.Support.Runs

/-!
# Syslogd — the circular log

`circ_message` appends a line to the shared buffer.  A line that does not reach the end of the
buffer is stored at `tail`, and drops the oldest lines it runs into; one that does reach it is
stored around the end, and drops what stood at the start.  `message` then writes the log file anew
from the whole buffer: from its start to `tail` where `tail` lies above `head`, and from `head`
around the end to `tail` where it does not.

* `circMessage_inv`: a line keeps the invariant, where it leaves a line feed to begin behind.
* `circular_safe_runs`: in every run of such lines, clears and mail sends, no store leaves the
  buffer and the log file holds the last lines of those logged.
-/

namespace Syslog

open CLib

/-! ### The buffer -/

/-- `struct shbuf_ds`; `size` is the size of `data`. -/
structure Shbuf where
  num : Int
  head : Nat
  tail : Nat
  data : Block
deriving DecidableEq

namespace Shbuf

def size (b : Shbuf) : Nat := b.data.size

/-- The buffer as `ipcsyslog_init` leaves it, with memory the system has cleared. -/
def init (n : Nat) : Shbuf := ⟨0, 0, 0, .zeroed n⟩

end Shbuf

/-- Storing `msg` where it does not reach the end of the buffer. -/
def appendMessage (msg : List Byte) (b : Shbuf) : Shbuf :=
  let l := msg.length
  let head :=
    if b.tail < b.head then
      if b.tail + l ≥ b.head then
        let k := b.tail + l - b.head
        match memchr b.data.bytes (b.head + k) (b.size - (b.head + k)) 0x0a with
        | some c => c + 1
        | none => 0
      else b.head
    else b.head
  { b with head := head, tail := b.tail + l, data := b.data.store b.tail msg }

/-- Storing `msg` around the end of the buffer: `strncpy` up to its last byte but one, `strcpy` of
the rest to its start. -/
def wrapMessage (msg : List Byte) (b : Shbuf) : Shbuf :=
  let l := msg.length
  let k := b.tail + l - b.size
  match memchr b.data.bytes k (b.size - k) 0x0a with
  | some c =>
      { b with
        head := c + 1
        tail := k + 1
        data := (b.data.store b.tail (msg.take (l - k - 1))).store 0 (msg.drop (l - k - 1) ++ [0]) }
  | none => { b with head := 0, tail := 0 }

def circMessage (msg : List Byte) (b : Shbuf) : Shbuf :=
  let b := { b with num := b.num + 1 }
  if b.tail + msg.length < b.size then appendMessage msg b else wrapMessage msg b

/-! ### The daemon -/

/-- The settings of `struct syslog_conf` that the log depends on. -/
structure Conf where
  mailEnable : Int
  mailLogFull : Int
  emailQlen : Int

/-- `send_mail_signal`, and whether it sends a mail. -/
def sendMailSignal (conf : Conf) (b : Shbuf) : Shbuf × Bool :=
  if conf.mailEnable = 1 then ({ b with head := 0, tail := 0, num := 0 }, true) else (b, false)

/-- What `message` writes to the log file from the buffer, before its NUL. -/
def dump (b : Shbuf) : List Byte :=
  if b.tail > b.head then b.data.bytes.take b.tail
  else (b.data.bytes.drop b.head).take (b.size - b.head - 1) ++ b.data.bytes.take b.tail

/-- The two mail sends at the end of `message`, and whether there was one. -/
def mailAfter (conf : Conf) (b : Shbuf) : Shbuf × Bool :=
  let (b, full) :=
    if ¬ b.tail > b.head ∧ conf.mailLogFull = 1 then sendMailSignal conf b else (b, false)
  let (b, queue) := if b.num ≥ conf.emailQlen then sendMailSignal conf b else (b, false)
  (b, full || queue)

/-- A line as `message` is given it: one line feed, at its end, no NUL, and at most 1022 bytes. -/
structure Line where
  bytes : List Byte
  isLine : IsLine bytes
  noNul : (0 : Byte) ∉ bytes
  short : bytes.length ≤ 1022

/-- What happens to the log: a call of `message`, with the settings then in force and whether the
log file opens; `clear_signal`; the clearing that a `[CLEAR]` message starts with; a call of
`send_mail_signal`. -/
inductive Event where
  | message (conf : Conf) (opens : Bool) (line : Line)
  | clearSignal
  | clear
  | sendMail (conf : Conf)

/-- The buffer, the lines logged since the last clear or send, and what the last event, if it was
a `message` without a mail send, wrote to the log file. -/
structure Log where
  buf : Shbuf
  logged : List Line
  written : Option (List Byte)

namespace Log

def init (n : Nat) : Log := ⟨.init n, [], none⟩

/-- `message`: `vsnprintf` leaves 1022 bytes at most. -/
def message (s : Log) (conf : Conf) (opens : Bool) (line : Line) : Log :=
  let b := circMessage (line.bytes.take 1022) s.buf
  if opens then
    let (b', sent) := mailAfter conf b
    if sent then ⟨b', [], none⟩ else ⟨b', s.logged ++ [line], some (dump b ++ [0])⟩
  else ⟨b, s.logged ++ [line], none⟩

def step (s : Log) : Event → Log
  | .message conf opens line => s.message conf opens line
  | .clearSignal => ⟨{ s.buf with head := 0, tail := 0 }, [], none⟩
  | .clear => ⟨{ s.buf with head := 0, tail := 0, num := 0 }, [], none⟩
  | .sendMail conf =>
      let (b, sent) := sendMailSignal conf s.buf
      if sent then ⟨b, [], none⟩ else ⟨b, s.logged, none⟩

/-- The text of some lines. -/
def text (ls : List Line) : List Byte := (ls.map Line.bytes).flatten

/-- The indices and the stores stay in the buffer, and what was written to the log file is the
text of the last lines, the newest among them, and a NUL. -/
def Safe (s : Log) : Prop :=
  s.buf.head ≤ s.buf.size ∧ s.buf.tail ≤ s.buf.size ∧ s.buf.data.InBounds ∧
    ∀ f, s.written = some f → ∃ j < s.logged.length, f = text (s.logged.drop j) ++ [0]

/-- The line leaves a line feed to begin behind: one that runs into the oldest lines, a line feed
between its end and the end of the buffer; one that wraps does not end on another's line feed. -/
def Leaves (b : Shbuf) (msg : List Byte) : Prop :=
  if b.tail + msg.length < b.size then
    b.tail < b.head → b.head ≤ b.tail + msg.length →
      (0x0a : Byte) ∈ b.data.bytes.drop (b.tail + msg.length)
  else b.data.bytes[b.tail + msg.length - b.size]? ≠ some 0x0a

instance (b : Shbuf) (msg : List Byte) : Decidable (Leaves b msg) :=
  inferInstanceAs (Decidable (ite _ _ _))

def Ok (s : Log) : Event → Prop
  | .message _ _ line => Leaves s.buf line.bytes
  | _ => True

instance (s : Log) : (e : Event) → Decidable (Ok s e)
  | .message _ _ line => inferInstanceAs (Decidable (Leaves s.buf line.bytes))
  | .clearSignal | .clear | .sendMail _ => inferInstanceAs (Decidable True)

end Log

/-! ### The invariant -/

/-- The lines in the buffer, from the oldest on. -/
def kept (b : Shbuf) : List Byte :=
  if b.head = 0 then b.data.bytes.take b.tail
  else (b.data.bytes.drop b.head).take (b.size - b.head - 1) ++ b.data.bytes.take b.tail

/-- The buffer holds the last of the lines logged.  They begin at 0 or, once the log has gone
around the end, at `head`, above `tail`; the last byte of the buffer is never stored into. -/
structure Inv (b : Shbuf) (logged : List Line) : Prop where
  size_gt : 1024 < b.size
  full : b.data.bytes.length = b.size
  last : b.data.bytes[b.size - 1]? = some 0
  tail_lt : b.tail < b.size
  order : b.head = 0 ∨ (0 < b.tail ∧ b.tail < b.head ∧ b.head < b.size)
  holds : ∃ j ≤ logged.length, kept b = Log.text (logged.drop j)

section Step

variable {b b' : Shbuf} {logged : List Line} {line : Line}

theorem Line.length_pos (line : Line) : 0 < line.bytes.length := by
  obtain ⟨t, -, ht⟩ := line.isLine
  simp [ht]

/-- The bytes below `tail` end what is kept. -/
theorem exists_kept_eq (b : Shbuf) : ∃ u, kept b = u ++ b.data.bytes.take b.tail := by
  unfold kept
  split
  · exact ⟨[], rfl⟩
  · exact ⟨_, rfl⟩

theorem text_append (ls ls' : List Line) : Log.text (ls ++ ls') = Log.text ls ++ Log.text ls' := by
  simp [Log.text]

/-- Where the lines kept lose what stands before a line feed and gain the line logged, they are
still the last lines. -/
theorem Inv.append (h : Inv b logged) {x y : List Byte} (hk : kept b = x ++ y)
    (hx : x = [] ∨ ∃ t, x = t ++ [0x0a]) (hk' : kept b' = y ++ line.bytes) :
    ∃ j ≤ (logged ++ [line]).length, kept b' = Log.text ((logged ++ [line]).drop j) := by
  obtain ⟨j, hj, hkept⟩ := h.holds
  have hlines : ∀ l ∈ (logged.drop j).map Line.bytes, IsLine l := by
    intro l hl
    obtain ⟨m, -, rfl⟩ := List.mem_map.mp hl
    exact m.isLine
  obtain ⟨i, hi, hy⟩ := exists_drop_of_cut hlines (hkept.symm.trans hk) hx
  rw [List.length_map, List.length_drop] at hi
  refine ⟨j + i, by simp; omega, ?_⟩
  rw [List.drop_append_of_le_length (by omega), text_append, hk', hy, ← List.map_drop,
    List.drop_drop]
  simp [Log.text]

/-- What stands in the buffer up to a line feed, and behind it. -/
theorem cut_at {m : List Byte} {i c : Nat} (hi : i ≤ c) (hc : m[c]? = some 0x0a) :
    ∃ t, (m.drop i).take (c + 1 - i) = t ++ [0x0a] := by
  refine ⟨(m.drop i).take (c - i), ?_⟩
  rw [Nat.succ_sub hi, List.take_add_one, List.getElem?_drop, Nat.add_sub_cancel' hi, hc]
  rfl

/-- **A line that does not reach the end** of the buffer. -/
theorem appendMessage_inv (h : Inv b logged) (hfit : b.tail + line.bytes.length < b.size)
    (hleaves : Log.Leaves b line.bytes) :
    Inv (appendMessage line.bytes b) (logged ++ [line]) ∧
      line.bytes <:+ kept (appendMessage line.bytes b) := by
  have hle : b.tail ≤ b.data.bytes.length := by
    rw [h.full]
    exact h.tail_lt.le
  have hpos := line.length_pos
  have htake : (appendMessage line.bytes b).data.bytes.take (b.tail + line.bytes.length) =
      b.data.bytes.take b.tail ++ line.bytes := take_splice hle
  have hdrop : ∀ k, b.tail + line.bytes.length ≤ k →
      (appendMessage line.bytes b).data.bytes.drop k = b.data.bytes.drop k := fun k hk =>
    drop_splice hle hk
  have hfull : (appendMessage line.bytes b).data.bytes.length = b.size := by
    have hlen : (appendMessage line.bytes b).data.bytes.length = _ := length_splice hle
    have := h.full
    rw [hlen]
    omega
  have hlast : (appendMessage line.bytes b).data.bytes[b.size - 1]? = some 0 := by
    have hget : (appendMessage line.bytes b).data.bytes[b.size - 1]? = _ := getElem?_splice hle _
    rw [hget, if_neg (by omega)]
    exact h.last
  -- the lines kept, and the new head
  suffices hhead : ((appendMessage line.bytes b).head = 0 ∨
      b.tail + line.bytes.length < (appendMessage line.bytes b).head ∧
        (appendMessage line.bytes b).head < b.size) ∧
      ∃ x y, kept b = x ++ y ∧ (x = [] ∨ ∃ t, x = t ++ [0x0a]) ∧
        kept (appendMessage line.bytes b) = y ++ line.bytes by
    obtain ⟨horder, x, y, hk, hx, hk'⟩ := hhead
    refine ⟨⟨h.size_gt, hfull, hlast, hfit, ?_, h.append hk hx hk'⟩, y, hk'.symm⟩
    rcases horder with h0 | ⟨hlt, hsize⟩
    · exact .inl h0
    · exact .inr ⟨Nat.add_pos_right _ hpos, hlt, hsize⟩
  rcases h.order with h0 | ⟨htail, hlt, hsize⟩
  · have hhead : (appendMessage line.bytes b).head = 0 := by simp [appendMessage, h0]
    refine ⟨.inl hhead, [], b.data.bytes.take b.tail, ?_, .inl rfl, ?_⟩
    · rw [kept, if_pos h0]
      rfl
    · rw [kept, if_pos hhead]
      exact htake
  · have hkept : kept b = (b.data.bytes.drop b.head).take (b.size - b.head - 1) ++
        b.data.bytes.take b.tail := by rw [kept, if_neg (by omega)]
    by_cases hrun : b.head ≤ b.tail + line.bytes.length
    · -- it runs into the oldest lines: the head goes behind the next line feed
      rw [Log.Leaves, if_pos hfit] at hleaves
      obtain ⟨i, hi⟩ := List.mem_iff_getElem?.mp (hleaves hlt hrun)
      rw [List.getElem?_drop] at hi
      have hbound : b.tail + line.bytes.length + i < b.size := by
        rw [← h.full]
        exact (List.getElem?_eq_some_iff.mp hi).1
      have hk : b.head + (b.tail + line.bytes.length - b.head) = b.tail + line.bytes.length :=
        Nat.add_sub_cancel' hrun
      obtain ⟨c, hc, -⟩ := memchr_le (n := b.size - (b.tail + line.bytes.length))
        (Nat.le_add_right _ i) (by omega) hi
      obtain ⟨hic, hcn, hget⟩ := memchr_eq_some hc
      have hclast : c ≠ b.size - 1 := by
        rintro rfl
        rw [h.last] at hget
        cases hget
      have hhead : (appendMessage line.bytes b).head = c + 1 := by
        simp only [appendMessage, if_pos hlt, ge_iff_le, if_pos hrun, hk, hc]
      obtain ⟨t, ht⟩ := cut_at (show b.head ≤ c by omega) hget
      refine ⟨.inr ⟨by omega, by omega⟩, (b.data.bytes.drop b.head).take (c + 1 - b.head),
        (b.data.bytes.drop (c + 1)).take (b.size - (c + 1) - 1) ++ b.data.bytes.take b.tail,
        ?_, .inr ⟨t, ht⟩, ?_⟩
      · rw [hkept, ← List.append_assoc]
        congr 1
        rw [show b.size - b.head - 1 = (c + 1 - b.head) + (b.size - (c + 1) - 1) by omega,
          List.take_add, List.drop_drop, show b.head + (c + 1 - b.head) = c + 1 by omega]
      · rw [kept, if_neg (by omega), hhead, hdrop (c + 1) (by omega), List.append_assoc, ← htake]
        rfl
    · have hhead : (appendMessage line.bytes b).head = b.head := by
        simp only [appendMessage, if_pos hlt, ge_iff_le, if_neg hrun]
      refine ⟨.inr ⟨by omega, by omega⟩, [], kept b, rfl, .inl rfl, ?_⟩
      rw [kept, if_neg (by omega), hhead, hdrop b.head (by omega), hkept, List.append_assoc,
        ← htake]
      rfl

/-- The newest line ends where `tail` stands. -/
theorem Inv.newline (h : Inv b logged) (htail : 0 < b.tail) :
    b.data.bytes[b.tail - 1]? = some 0x0a := by
  obtain ⟨j, -, hkept⟩ := h.holds
  have hle : b.tail ≤ b.data.bytes.length := by
    rw [h.full]
    exact h.tail_lt.le
  have hlen : (b.data.bytes.take b.tail).length = b.tail := by simp [hle]
  obtain ⟨u, hu⟩ := exists_kept_eq b
  have hne : (logged.drop j).map Line.bytes ≠ [] := by
    intro e
    rw [hu, Log.text, e] at hkept
    have hnil := (List.append_eq_nil_iff.mp hkept).2
    rw [hnil] at hlen
    exact absurd hlen (by simp; omega)
  obtain ⟨t, ht⟩ := flatten_eq_append (fun l hl => by
    obtain ⟨m, -, rfl⟩ := List.mem_map.mp hl
    exact m.isLine) hne
  have hlast : (u ++ b.data.bytes.take b.tail).getLast? = some 0x0a := by
    rw [← hu, hkept, Log.text, ht]
    simp
  have hne' : b.data.bytes.take b.tail ≠ [] := fun e => by
    rw [e] at hlen
    exact absurd hlen (by simp; omega)
  rw [List.getLast?_append_of_ne_nil _ hne', List.getLast?_eq_getElem?, hlen,
    List.getElem?_take_of_lt (by omega)] at hlast
  exact hlast

/-- **A line that reaches the end** of the buffer. -/
theorem wrapMessage_inv (h : Inv b logged) (hfit : ¬ b.tail + line.bytes.length < b.size)
    (hleaves : Log.Leaves b line.bytes) :
    Inv (wrapMessage line.bytes b) (logged ++ [line]) ∧
      line.bytes <:+ kept (wrapMessage line.bytes b) := by
  have hle : b.tail ≤ b.data.bytes.length := by
    rw [h.full]
    exact h.tail_lt.le
  have hpos := line.length_pos
  have hshort := line.short
  have hgt := h.size_gt
  have hlt := h.tail_lt
  rw [Log.Leaves, if_neg hfit] at hleaves
  -- the line feed at `tail - 1` ends the search, and the condition keeps it from `k`
  obtain ⟨k, hk⟩ : ∃ k, k = b.tail + line.bytes.length - b.size := ⟨_, rfl⟩
  rw [← hk] at hleaves
  obtain ⟨c, hc, hct⟩ := memchr_le (i := k) (n := b.size - k) (by omega) (by omega)
    (h.newline (by omega))
  obtain ⟨hkc, -, hget⟩ := memchr_eq_some hc
  have hne : c ≠ k := by
    rintro rfl
    exact hleaves hget
  obtain ⟨n, hn⟩ : ∃ n, n = line.bytes.length - k - 1 := ⟨_, rfl⟩
  have hwrap : wrapMessage line.bytes b =
      { b with
        head := c + 1
        tail := k + 1
        data := (b.data.store b.tail (line.bytes.take n)).store 0 (line.bytes.drop n ++ [0]) } := by
    simp only [wrapMessage, ← hk, hc, ← hn]
  have hupper : (line.bytes.take n).length = n := by rw [List.length_take]; omega
  have hlower : (line.bytes.drop n ++ [0]).length = k + 2 := by simp; omega
  -- the two stores
  have hfirst : (splice b.data.bytes b.tail (line.bytes.take n)).length = b.size := by
    rw [length_splice hle, hupper, h.full]
    omega
  have hfirstTake : (splice b.data.bytes b.tail (line.bytes.take n)).take (b.size - 1) =
      b.data.bytes.take b.tail ++ line.bytes.take n := by
    rw [← take_splice hle, hupper]
    congr 1
    omega
  have hbytes : (wrapMessage line.bytes b).data.bytes =
      splice (splice b.data.bytes b.tail (line.bytes.take n)) 0 (line.bytes.drop n ++ [0]) := by
    rw [hwrap]
    rfl
  have htake : (wrapMessage line.bytes b).data.bytes.take (k + 1) = line.bytes.drop n := by
    have hlen : (line.bytes.drop n).length = k + 1 := by simp; omega
    rw [hbytes, splice_zero, List.append_assoc, ← hlen, List.take_left]
  have hdrop : ((wrapMessage line.bytes b).data.bytes.drop (c + 1)).take (b.size - (c + 1) - 1) =
      (b.data.bytes.take b.tail).drop (c + 1) ++ line.bytes.take n := by
    rw [hbytes, drop_splice (Nat.zero_le _) (by omega),
      show b.size - (c + 1) - 1 = b.size - 1 - (c + 1) by omega, ← List.drop_take, hfirstTake,
      List.drop_append_of_le_length (by simp; omega)]
  have hkept' : kept (wrapMessage line.bytes b) =
      (b.data.bytes.take b.tail).drop (c + 1) ++ line.bytes := by
    have hhead : (wrapMessage line.bytes b).head = c + 1 := by rw [hwrap]
    have htail : (wrapMessage line.bytes b).tail = k + 1 := by rw [hwrap]
    have hsize : (wrapMessage line.bytes b).size = b.size := by rw [hwrap]; rfl
    rw [kept, if_neg (by omega), hhead, htail, hsize, htake, hdrop, List.append_assoc,
      List.take_append_drop]
  obtain ⟨u, hu⟩ := exists_kept_eq b
  obtain ⟨t, ht⟩ := cut_at (Nat.zero_le c) hget
  have hcut : b.data.bytes.take b.tail =
      (b.data.bytes.take (c + 1)) ++ (b.data.bytes.take b.tail).drop (c + 1) := by
    conv_lhs => rw [← List.take_append_drop (c + 1) (b.data.bytes.take b.tail), List.take_take]
    congr 2
    omega
  refine ⟨⟨?_, ?_, ?_, ?_, ?_, ?_⟩, _, hkept'.symm⟩
  · rw [hwrap]
    exact hgt
  · rw [hbytes, length_splice (Nat.zero_le _), hfirst, hlower, hwrap]
    show _ = b.size
    omega
  · have hsize : (wrapMessage line.bytes b).size = b.size := by rw [hwrap]; rfl
    rw [hsize, hbytes, getElem?_splice (Nat.zero_le _), if_neg (by omega), getElem?_splice hle,
      if_neg (by omega)]
    exact h.last
  · rw [hwrap]
    show k + 1 < b.size
    omega
  · refine .inr ?_
    rw [hwrap]
    exact ⟨Nat.succ_pos k, show k + 1 < c + 1 by omega, show c + 1 < b.size by omega⟩
  · refine h.append (x := u ++ b.data.bytes.take (c + 1))
      (y := (b.data.bytes.take b.tail).drop (c + 1))
      ?_ (.inr ⟨u ++ t, ?_⟩) hkept'
    · rw [hu, List.append_assoc, ← hcut]
    · rw [List.drop_zero, Nat.sub_zero] at ht
      rw [ht, List.append_assoc]

theorem Inv.renumber (h : Inv b logged) (num : Int) : Inv { b with num := num } logged :=
  ⟨h.size_gt, h.full, h.last, h.tail_lt, h.order, h.holds⟩

theorem Inv.clear (h : Inv b logged) (num : Int) :
    Inv { b with head := 0, tail := 0, num := num } [] :=
  ⟨h.size_gt, h.full, h.last, Nat.zero_lt_of_lt h.size_gt, .inl rfl, 0, le_refl 0, rfl⟩

theorem inv_init {n : Nat} (hn : 1024 < n) : Inv (.init n) [] := by
  have hlast : (Block.zeroed n).bytes[n - 1]? = some 0 := by
    rw [Block.zeroed, List.getElem?_replicate, if_pos (by omega)]
  exact ⟨hn, List.length_replicate, hlast, Nat.zero_lt_of_lt hn, .inl rfl, 0, le_refl 0, rfl⟩

/-- **A line** keeps the invariant, and is the last of the lines kept. -/
theorem circMessage_inv (h : Inv b logged) (hleaves : Log.Leaves b line.bytes) :
    Inv (circMessage line.bytes b) (logged ++ [line]) ∧
      line.bytes <:+ kept (circMessage line.bytes b) := by
  simp only [circMessage]
  split
  · rename_i hfit
    exact appendMessage_inv (h.renumber _) hfit hleaves
  · rename_i hfit
    exact wrapMessage_inv (h.renumber _) hfit hleaves

/-- What `message` writes is what the buffer keeps. -/
theorem Inv.dump_eq (h : Inv b logged) (hne : kept b ≠ []) : dump b = kept b := by
  unfold dump
  rcases h.order with h0 | ⟨-, hlt, -⟩
  · have htail : b.tail > b.head := by
      rw [h0]
      by_contra hle
      refine hne ?_
      rw [kept, if_pos h0, Nat.le_zero.mp (Nat.le_of_not_lt hle), List.take_zero]
    rw [if_pos htail, kept, if_pos h0]
  · rw [if_neg (by omega), kept, if_neg (by omega)]

end Step

/-! ### Runs -/

namespace Log

/-- The invariant, and what was written. -/
def Good (s : Log) : Prop :=
  Inv s.buf s.logged ∧
    ∀ f, s.written = some f → ∃ j < s.logged.length, f = text (s.logged.drop j) ++ [0]

theorem Good.safe {s : Log} (h : s.Good) : s.Safe := by
  obtain ⟨hinv, hwritten⟩ := h
  have hsize : 0 < s.buf.size := Nat.zero_lt_of_lt hinv.size_gt
  refine ⟨?_, hinv.tail_lt.le, hinv.full.le, hwritten⟩
  rcases hinv.order with h0 | ⟨-, -, hlt⟩
  · omega
  · exact hlt.le

/-- A mail send that is made clears the log; one that is not leaves it. -/
theorem sendMailSignal_cases (conf : Conf) (b : Shbuf) :
    sendMailSignal conf b = ({ b with head := 0, tail := 0, num := 0 }, true) ∨
      sendMailSignal conf b = (b, false) := by
  unfold sendMailSignal
  split
  · exact .inl rfl
  · exact .inr rfl

theorem mailAfter_cases (conf : Conf) (b : Shbuf) :
    mailAfter conf b = ({ b with head := 0, tail := 0, num := 0 }, true) ∨
      mailAfter conf b = (b, false) := by
  rcases sendMailSignal_cases conf b with h | h <;>
    rcases sendMailSignal_cases conf { b with head := 0, tail := 0, num := 0 } with h' | h' <;>
    simp only [mailAfter] <;> split <;> simp only [h, h'] <;> split <;> simp

/-- **One event** keeps the log good. -/
theorem good_step (s : Log) (e : Event) (h : s.Good) (hok : s.Ok e) : (s.step e).Good := by
  have hnothing : ∀ f, (none : Option (List Byte)) = some f → ∃ j < s.logged.length,
      f = text (s.logged.drop j) ++ [0] := by simp
  cases e with
  | message conf opens line =>
      obtain ⟨hinv, hnewest⟩ := circMessage_inv h.1 hok
      have hline : line.bytes.take 1022 = line.bytes := List.take_of_length_le line.short
      simp only [step, message, hline]
      cases opens with
      | false => exact ⟨hinv, by simp⟩
      | true =>
          have hne : kept (circMessage line.bytes s.buf) ≠ [] := by
            obtain ⟨t, ht⟩ := hnewest
            intro e
            rw [e] at ht
            have hnil := (List.append_eq_nil_iff.mp ht).2
            exact absurd line.length_pos (by simp [hnil])
          rcases mailAfter_cases conf (circMessage line.bytes s.buf) with hmail | hmail
          · simp only [hmail, if_true]
            exact ⟨hinv.clear 0, by simp⟩
          · simp only [hmail, if_true, Bool.false_eq_true, if_false]
            refine ⟨hinv, fun f hf => ?_⟩
            obtain ⟨j, hj, hkept⟩ := hinv.holds
            refine ⟨j, lt_of_le_of_ne hj ?_, ?_⟩
            · rintro rfl
              rw [List.drop_length] at hkept
              exact hne hkept
            · rw [← Option.some.inj hf, hinv.dump_eq hne, hkept]
  | clearSignal => exact ⟨h.1.clear s.buf.num, by simp [step]⟩
  | clear => exact ⟨h.1.clear 0, by simp [step]⟩
  | sendMail conf =>
      rcases sendMailSignal_cases conf s.buf with hmail | hmail
      · simp only [step, hmail, if_true]
        exact ⟨h.1.clear 0, by simp⟩
      · simp only [step, hmail, Bool.false_eq_true, if_false]
        exact ⟨h.1, by simp⟩

/-- **The circular log is intact** in every state of a run whose lines each leave a line feed to
begin behind. -/
theorem circular_safe_runs {n : Nat} (hn : 1024 < n) (es es' : List Event)
    (h : Meets step Ok (init n) (es ++ es')) : (runs step (init n) es).Safe :=
  (Meets.invariant_prefix good_step ⟨inv_init hn, by simp [init]⟩ h).safe

theorem notMem_letters {n : Nat} {b : Byte} (h : b ≠ 0x61) : b ∉ List.replicate n (0x61 : Byte) :=
  fun hb => h (List.eq_of_mem_replicate hb)

theorem noNul_letters (n : Nat) : (0 : Byte) ∉ List.replicate n (0x61 : Byte) ++ [0x0a] := by
  rw [List.mem_append, List.mem_singleton]
  rintro (h | h)
  · exact notMem_letters (by decide) h
  · exact absurd h (by decide)

theorem isLine_letters (n : Nat) : IsLine (List.replicate n (0x61 : Byte) ++ [0x0a]) :=
  ⟨List.replicate n 0x61, notMem_letters (by decide), rfl⟩

theorem length_letters_le {n : Nat} (h : n ≤ 1021) :
    (List.replicate n (0x61 : Byte) ++ [0x0a]).length ≤ 1022 := by
  rw [List.length_append, List.length_replicate]
  exact Nat.succ_le_succ h

/-- A line of `n` letters. -/
def lineOf (n : Nat) (h : n ≤ 1021) : Line where
  bytes := List.replicate n 0x61 ++ [0x0a]
  isLine := isLine_letters n
  noNul := noNul_letters n
  short := length_letters_le h

/-- Three lines in a buffer of 1025 bytes: the second goes around the end, and the third runs into
what it stored there, which no line feed ends. -/
def threeLines : List Event :=
  [lineOf 1021 (by decide), lineOf 999 (by decide), lineOf 25 (by decide)].map
    (.message ⟨0, 0, 0⟩ true)

/-- The log file then begins with the second half of the second line. -/
theorem circular_partial_line :
    ¬ ∀ n, 1024 < n → ∀ es : List Event, (runs step (init n) es).Safe := by
  intro h
  obtain ⟨-, -, -, hwritten⟩ := h 1025 (by decide) threeLines
  have hlogged : (runs step (init 1025) threeLines).logged.map (fun m => m.bytes.length) =
      [1022, 1000, 26] := by decide +kernel
  have hlength : (runs step (init 1025) threeLines).written.map List.length = some 1025 := by
    decide +kernel
  obtain ⟨f, hf, hlen⟩ := Option.map_eq_some_iff.mp hlength
  obtain ⟨j, hj, rfl⟩ := hwritten f hf
  have htext : ∀ ls : List Line, (text ls).length = (ls.map fun m => m.bytes.length).sum := by
    intro ls
    simp [text, List.length_flatten, Function.comp_def]
  have hthree := congrArg List.length hlogged
  rw [List.length_map] at hthree
  rw [List.length_append, htext, List.map_drop, hlogged] at hlen
  rw [hthree] at hj
  have hno : ∀ j < 3, ([1022, 1000, 26].drop j).sum + 1 ≠ 1025 := by decide
  exact hno j hj hlen

/-- One line, logged twice. -/
theorem circular_safe_twice :
    (runs step (init 1025) [.message ⟨0, 0, 0⟩ true (lineOf 3 (by decide))]).Safe :=
  circular_safe_runs (by decide) _ [.message ⟨0, 0, 0⟩ true (lineOf 3 (by decide))]
    (by decide +kernel)

end Log

end Syslog
