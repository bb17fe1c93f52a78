import Wap4410n.Support.File

/-!
# Support — byte streams

What a peer sends over a connection is a stream: the bytes arrive in pieces, none of them empty,
and then the connection ends or breaks (`Stream`).  A read takes one piece, or the front of one
that is longer than asked for; it never joins two.  Every sequence of results a connection can give
to a sequence of reads is one of these, for some way to cut the bytes into pieces.

`Cut s p` says that a piece ends after the first `p` bytes.

* `read_cases`: what one read does.
* `cut_read`: the cuts behind a read are those of what is left.
* `cut_of_lt`, `le_of_cut`: a read that brings less than asked for ends at a cut, and no read goes
  past one.
-/

namespace CLib

/-- How a stream ends: `read` returns 0 from then on, or −1. -/
inductive StreamEnd where
  | eof
  | error
deriving DecidableEq

/-- The bytes a peer sends, in the pieces they arrive in. -/
structure Stream where
  chunks : List (List Byte)
  fin : StreamEnd
  nonempty : ∀ c ∈ chunks, c ≠ []

namespace Stream

section Pieces

variable {c : List Byte} {cs : List (List Byte)}

theorem nonempty_tail (h : ∀ d ∈ c :: cs, d ≠ []) : ∀ d ∈ cs, d ≠ [] :=
  fun d hd => h d (List.mem_cons_of_mem c hd)

theorem nonempty_drop {count : Nat} (hc : count < c.length) (h : ∀ d ∈ c :: cs, d ≠ []) :
    ∀ d ∈ c.drop count :: cs, d ≠ [] := by
  intro d hd
  rcases List.mem_cons.mp hd with rfl | hd
  · exact List.ne_nil_of_length_pos (by rw [List.length_drop]; omega)
  · exact nonempty_tail h d hd

end Pieces

/-- The bytes that have not been read. -/
def rest (s : Stream) : List Byte := s.chunks.flatten

/-- `read(fd, buf, count)`: what is read, or `none` for −1, and the stream after it. -/
def read (s : Stream) (count : Nat) : Option (List Byte) × Stream :=
  if intMax < count then (none, s) else
  match s with
  | ⟨[], .eof, h⟩ => (some [], ⟨[], .eof, h⟩)
  | ⟨[], .error, h⟩ => (none, ⟨[], .error, h⟩)
  | ⟨c :: cs, fin, h⟩ =>
    if hc : count < c.length then
      (some (c.take count), ⟨c.drop count :: cs, fin, nonempty_drop hc h⟩)
    else (some c, ⟨cs, fin, nonempty_tail h⟩)

/-- A piece ends after the first `p` bytes. -/
def Cut (s : Stream) (p : Nat) : Prop := ∃ k, (s.chunks.take k).flatten.length = p

/-- A piece ends strictly between the offsets `a` and `b`. -/
def CutWithin (s : Stream) (a b : Nat) : Prop := ∃ p, a < p ∧ p < b ∧ s.Cut p

variable {s s' : Stream} {bs : List Byte} {count p : Nat}

theorem read_refused (h : intMax < count) : s.read count = (none, s) := if_pos h

/-! ### A read of a stream with a first piece -/

section First

variable {c : List Byte} {cs : List (List Byte)} {fin : StreamEnd} {h : ∀ d ∈ c :: cs, d ≠ []}

theorem rest_cons : rest ⟨c :: cs, fin, h⟩ = c ++ rest ⟨cs, fin, nonempty_tail h⟩ := rfl

theorem read_take (hle : count ≤ intMax) (hc : count < c.length) :
    read ⟨c :: cs, fin, h⟩ count =
      (some (c.take count), ⟨c.drop count :: cs, fin, nonempty_drop hc h⟩) :=
  (if_neg (Nat.not_lt.mpr hle)).trans (dif_pos hc)

theorem read_all (hle : count ≤ intMax) (hc : c.length ≤ count) :
    read ⟨c :: cs, fin, h⟩ count = (some c, ⟨cs, fin, nonempty_tail h⟩) :=
  (if_neg (Nat.not_lt.mpr hle)).trans (dif_neg (Nat.not_lt.mpr hc))

/-- A cut is at the start or behind the first piece. -/
theorem cut_cons (hp : 0 < p) : Cut ⟨c :: cs, fin, h⟩ p ↔
    c.length ≤ p ∧ Cut ⟨cs, fin, nonempty_tail h⟩ (p - c.length) := by
  constructor
  · rintro ⟨k, hk⟩
    cases k with
    | zero => simp at hk; omega
    | succ k =>
        simp only [List.take_succ_cons, List.flatten_cons, List.length_append] at hk
        exact ⟨by omega, k, by show (cs.take k).flatten.length = _; omega⟩
  · rintro ⟨hle, k, hk⟩
    refine ⟨k + 1, ?_⟩
    have hk' : (cs.take k).flatten.length = p - c.length := hk
    simp only [List.take_succ_cons, List.flatten_cons, List.length_append]
    omega

end First

/-! ### One read -/

/-- **One read** brings the front of the bytes left, or there are none. -/
theorem read_cases (s : Stream) (hle : count ≤ intMax) (h₀ : 0 < count) :
    (∃ bs s', s.read count = (some bs, s') ∧ bs ≠ [] ∧ bs.length ≤ count ∧
        s.rest = bs ++ s'.rest ∧ s'.fin = s.fin) ∨
      s.rest = [] ∧
        (s.fin = .eof ∧ s.read count = (some [], s) ∨
          s.fin = .error ∧ s.read count = (none, s)) := by
  have h' := Nat.not_lt.mpr hle
  obtain ⟨chunks, fin, hne⟩ := s
  cases chunks with
  | nil =>
      cases fin with
      | eof => exact .inr ⟨rfl, .inl ⟨rfl, if_neg h'⟩⟩
      | error => exact .inr ⟨rfl, .inr ⟨rfl, if_neg h'⟩⟩
  | cons c cs =>
      left
      by_cases hc : count < c.length
      · refine ⟨_, _, read_take hle hc, ?_, List.length_take_le _ _, ?_, rfl⟩
        · exact List.ne_nil_of_length_pos (by rw [List.length_take]; omega)
        · rw [rest_cons, rest_cons, ← List.append_assoc, List.take_append_drop]
      · exact ⟨_, _, read_all hle (Nat.le_of_not_lt hc), hne c List.mem_cons_self,
          Nat.le_of_not_lt hc, rest_cons, rfl⟩

/-- A read that brings something, by what it leaves of the first piece. -/
theorem read_some (hr : s.read count = (some bs, s')) (hne : bs ≠ []) :
    count ≤ intMax ∧ ∃ c cs fin h, s = ⟨c :: cs, fin, h⟩ ∧
      ((∃ hc : count < c.length, bs = c.take count ∧
          s' = ⟨c.drop count :: cs, fin, nonempty_drop hc h⟩) ∨
        c.length ≤ count ∧ bs = c ∧ s' = ⟨cs, fin, nonempty_tail h⟩) := by
  have hle : count ≤ intMax := Nat.le_of_not_lt fun h => by
    rw [read_refused h] at hr
    cases hr
  refine ⟨hle, ?_⟩
  have h' := Nat.not_lt.mpr hle
  obtain ⟨chunks, fin, h⟩ := s
  cases chunks with
  | nil =>
      cases fin with
      | eof =>
          have he : read ⟨[], .eof, h⟩ count = (some [], ⟨[], .eof, h⟩) := if_neg h'
          rw [he] at hr
          cases hr
          exact absurd rfl hne
      | error =>
          have he : read ⟨[], .error, h⟩ count = (none, ⟨[], .error, h⟩) := if_neg h'
          rw [he] at hr
          cases hr
  | cons c cs =>
      refine ⟨c, cs, fin, h, rfl, ?_⟩
      by_cases hc : count < c.length
      · rw [read_take hle hc] at hr
        cases hr
        exact .inl ⟨hc, rfl, rfl⟩
      · rw [read_all hle (Nat.le_of_not_lt hc)] at hr
        cases hr
        exact .inr ⟨Nat.le_of_not_lt hc, rfl, rfl⟩

/-- No read goes past a cut. -/
theorem le_of_cut (hr : s.read count = (some bs, s')) (hne : bs ≠ []) (hp : 0 < p)
    (hcut : s.Cut p) : bs.length ≤ p := by
  obtain ⟨-, c, cs, fin, h, rfl, hc⟩ := read_some hr hne
  have := ((cut_cons hp).mp hcut).1
  rcases hc with ⟨-, rfl, -⟩ | ⟨-, rfl, -⟩
  · exact (List.length_take_le' _ _).trans this
  · exact this

/-- A read that brings less than was asked for ends at a cut. -/
theorem cut_of_lt (hr : s.read count = (some bs, s')) (hne : bs ≠ []) (hlt : bs.length < count) :
    s.Cut bs.length := by
  obtain ⟨-, c, cs, fin, h, rfl, hc⟩ := read_some hr hne
  rcases hc with ⟨hc, rfl, -⟩ | ⟨-, rfl, -⟩
  · rw [List.length_take] at hlt
    omega
  · exact ⟨1, by simp⟩

/-- The cuts behind a read are those of what is left. -/
theorem cut_read (hr : s.read count = (some bs, s')) (hne : bs ≠ []) (hp : 0 < p) :
    s'.Cut p ↔ s.Cut (bs.length + p) := by
  obtain ⟨-, c, cs, fin, h, rfl, hc⟩ := read_some hr hne
  rw [cut_cons (Nat.add_pos_right _ hp)]
  rcases hc with ⟨hc, rfl, rfl⟩ | ⟨-, rfl, rfl⟩
  · rw [cut_cons hp, List.length_drop, List.length_take, Nat.min_eq_left (Nat.le_of_lt hc)]
    have e : p - (c.length - count) = count + p - c.length := by omega
    rw [e]
    exact and_congr_left fun _ => by omega
  · simp

end Stream

end CLib
