import Wap4410n.Support.CString

/-!
# Support — blocks of memory

A block is what one allocation or one array declaration provides: a size, and the bytes stored
into it so far, which always form an initial segment (`Block`).  A store past the size is not
stopped and not forgotten: it makes the stored bytes outgrow the size, and `Block.InBounds` says
that this has not happened.  What such a store overwrites outside the block is not described.

A local array is a block whose stores start at its front: an initializer, `memset`, `memcpy`,
`strncpy`.  It holds a string (`Block.held`) where a NUL is among the bytes stored.
`memchr` looks for a byte.

A cursor is a block together with a pointer that moves through it (`Cursor`).  `Cursor.Wrote w`
says that the bytes below the pointer are `w` and that at most one byte above it is stored, which
is the state a sequence of `strcpy`, `p += strlen` and `*(p++) = c` keeps.
-/

namespace CLib

/-! ### Overwriting a run of a list -/

section Splice

variable {α : Type}

/-- `m` with the run that starts at `i` overwritten by `bs`. -/
def splice (m : List α) (i : Nat) (bs : List α) : List α :=
  m.take i ++ bs ++ m.drop (i + bs.length)

variable {m bs : List α} {i : Nat}

theorem length_splice (h : i ≤ m.length) :
    (splice m i bs).length = max m.length (i + bs.length) := by
  simp only [splice, List.length_append, List.length_take, List.length_drop]
  omega

theorem take_splice (h : i ≤ m.length) :
    (splice m i bs).take (i + bs.length) = m.take i ++ bs := by
  have hl : (m.take i ++ bs).length = i + bs.length := by simp [h]
  rw [splice, ← hl, List.take_left]

/-- What lies before the run is kept. -/
theorem take_splice_of_le {k : Nat} (h : i ≤ m.length) (hk : k ≤ i) :
    (splice m i bs).take k = m.take k := by
  have hl : k ≤ (m.take i).length := by simp; omega
  rw [splice, List.append_assoc, List.take_append_of_le_length hl, List.take_take]
  congr 1
  omega

/-- What lies behind the run is kept. -/
theorem drop_splice {k : Nat} (h : i ≤ m.length) (hk : i + bs.length ≤ k) :
    (splice m i bs).drop k = m.drop k := by
  have htake : (m.take i ++ bs).length = i + bs.length := by simp [h]
  rw [splice, List.drop_append, List.drop_eq_nil_of_le (by omega), List.nil_append, htake,
    List.drop_drop, Nat.add_sub_cancel' hk]

/-- Past the end, overwriting is appending. -/
theorem splice_length (m bs : List α) : splice m m.length bs = m ++ bs := by
  simp [splice]

theorem splice_zero (m bs : List α) : splice m 0 bs = bs ++ m.drop bs.length := by
  simp [splice]

/-- Two runs, the second where the first ends, are one. -/
theorem splice_splice (h : i ≤ m.length) (bs cs : List α) :
    splice (splice m i bs) (i + bs.length) cs = splice m i (bs ++ cs) := by
  have htake : (m.take i ++ bs).length = i + bs.length := by simp [h]
  have hdrop : (splice m i bs).drop (i + bs.length + cs.length) =
      m.drop (i + bs.length + cs.length) := by
    rw [splice, ← List.drop_drop, ← htake, List.drop_left, List.drop_drop, htake]
  rw [splice, take_splice h, hdrop, splice, List.length_append, List.append_assoc,
    List.append_assoc, List.append_assoc, List.append_assoc, Nat.add_assoc]

theorem getElem?_splice (h : i ≤ m.length) (j : Nat) :
    (splice m i bs)[j]? = if i ≤ j ∧ j < i + bs.length then bs[j - i]? else m[j]? := by
  have hl : (m.take i).length = i := by simp [h]
  rw [splice, List.append_assoc]
  by_cases hj : j < i
  · rw [List.getElem?_append_left (by omega), List.getElem?_take_of_lt hj, if_neg (by omega)]
  · rw [List.getElem?_append_right (by omega), hl]
    by_cases hj' : j - i < bs.length
    · rw [List.getElem?_append_left hj', if_pos (by omega)]
    · rw [List.getElem?_append_right (by omega), List.getElem?_drop, if_neg (by omega)]
      congr 1
      omega

/-- From the `k`-th on, the elements of `bs` stand in `m` at `i`. -/
def Standing (m : List α) (i : Nat) (bs : List α) (k : Nat) : Prop :=
  ∀ j, k ≤ j → j < bs.length → m[i + j]? = bs[j]?

/-- A run written before `i` leaves what stands from `i` on. -/
theorem standing_splice {k i₀ : Nat} {bs₀ : List α} (h₀ : i₀ ≤ m.length)
    (h : i₀ + bs₀.length ≤ i) : Standing (splice m i₀ bs₀) i bs k ↔ Standing m i bs k := by
  have hget : ∀ j, (splice m i₀ bs₀)[i + j]? = m[i + j]? := fun j => by
    rw [getElem?_splice h₀, if_neg (by omega)]
  simp only [Standing, hget]

/-- Where the first `k` elements of `bs` are written at `i`, its first `n` elements are found there
just when the others of them stood there already. -/
theorem take_drop_splice_eq_iff {n k : Nat} (hn : n ≤ bs.length) (hi : i ≤ m.length) :
    ((splice m i (bs.take k)).drop i).take n = bs.take n ↔ Standing m i (bs.take n) k := by
  have hget : ∀ j, j < n → (((splice m i (bs.take k)).drop i).take n)[j]? =
      if j < k then bs[j]? else m[i + j]? := fun j hj => by
    rw [List.getElem?_take_of_lt hj, List.getElem?_drop, getElem?_splice hi, List.length_take]
    by_cases hk : j < k
    · rw [if_pos ⟨by omega, by omega⟩, if_pos hk, Nat.add_sub_cancel_left,
        List.getElem?_take_of_lt hk]
    · rw [if_neg (by omega), if_neg hk]
  constructor
  · intro e j hkj hj
    have hj' : j < n := by simp at hj; omega
    have := hget j hj'
    rw [e, if_neg (by omega)] at this
    exact this.symm
  · intro h
    refine List.ext_getElem? fun j => ?_
    by_cases hj : j < n
    · rw [hget j hj, List.getElem?_take_of_lt hj]
      split
      · rfl
      · rename_i hk
        have := h j (by omega) (by simp; omega)
        rwa [List.getElem?_take_of_lt hj] at this
    · rw [List.getElem?_eq_none (by simp; omega), List.getElem?_eq_none (by simp; omega)]

end Splice

/-! ### Searching -/

/-- `memchr(m + i, b, n)`, as an offset into `m`. -/
def memchr (m : List Byte) (i n : Nat) (b : Byte) : Option Nat :=
  (((m.drop i).take n).findIdx? (· = b)).map (i + ·)

section Memchr

variable {m : List Byte} {i n : Nat} {b : Byte}

theorem memchr_eq_some {c : Nat} (h : memchr m i n b = some c) :
    i ≤ c ∧ c < i + n ∧ m[c]? = some b := by
  obtain ⟨j, hj, rfl⟩ := Option.map_eq_some_iff.mp h
  obtain ⟨hlt, hb, -⟩ := List.findIdx?_eq_some_iff_getElem.mp hj
  have hn : j < n := by
    rw [List.length_take] at hlt
    omega
  refine ⟨Nat.le_add_right i j, by omega, ?_⟩
  rw [← List.getElem?_drop, ← List.getElem?_take_of_lt hn, List.getElem?_eq_getElem hlt]
  exact congrArg some (by simpa using hb)

/-- The search stops at an occurrence or before it. -/
theorem memchr_le {j : Nat} (hi : i ≤ j) (hj : j < i + n) (h : m[j]? = some b) :
    ∃ c, memchr m i n b = some c ∧ c ≤ j := by
  have hget : ((m.drop i).take n)[j - i]? = some b := by
    rw [List.getElem?_take_of_lt (by omega), List.getElem?_drop, Nat.add_sub_cancel' hi, h]
  cases hfind : ((m.drop i).take n).findIdx? (· = b) with
  | none =>
      have hall := List.findIdx?_eq_none_iff.mp hfind b (List.mem_of_getElem? hget)
      simp at hall
  | some k =>
      refine ⟨i + k, by rw [memchr, hfind]; rfl, ?_⟩
      obtain ⟨hk, -, hfirst⟩ := List.findIdx?_eq_some_iff_getElem.mp hfind
      by_contra hlt
      obtain ⟨hlt', hb⟩ := List.getElem?_eq_some_iff.mp hget
      exact absurd hb (by simpa using hfirst (j - i) (by omega))

end Memchr

/-! ### Blocks -/

/-- A block of memory: the bytes requested for it, and the bytes stored into it from its start. -/
structure Block where
  size : Nat
  bytes : List Byte
deriving DecidableEq

namespace Block

/-- A block nothing has been stored into. -/
def fresh (size : Nat) : Block := ⟨size, []⟩

/-- Every byte stored lies in the block. -/
def InBounds (b : Block) : Prop := b.bytes.length ≤ b.size

instance (b : Block) : Decidable b.InBounds := inferInstanceAs (Decidable (_ ≤ _))

/-- The bytes `bs` stored from offset `i` on. -/
def store (b : Block) (i : Nat) (bs : List Byte) : Block := { b with bytes := splice b.bytes i bs }

/-- `strcpy(b, s)`. -/
def strcpy (b : Block) (s : CStr) : Block := b.store 0 s.mem

@[simp] theorem size_fresh (n : Nat) : (fresh n).size = n := rfl
@[simp] theorem bytes_fresh (n : Nat) : (fresh n).bytes = [] := rfl
@[simp] theorem size_store (b : Block) (i : Nat) (bs : List Byte) : (b.store i bs).size = b.size :=
  rfl
@[simp] theorem size_strcpy (b : Block) (s : CStr) : (b.strcpy s).size = b.size := rfl

theorem bytes_store_end (b : Block) (bs : List Byte) :
    (b.store b.bytes.length bs).bytes = b.bytes ++ bs :=
  splice_length _ _

theorem bytes_strcpy (b : Block) (s : CStr) :
    (b.strcpy s).bytes = s.mem ++ b.bytes.drop (s.length + 1) := by
  simp [strcpy, store, splice_zero]

theorem inBounds_fresh (n : Nat) : (fresh n).InBounds := Nat.zero_le _

theorem inBounds_store {b : Block} {i : Nat} {bs : List Byte} (hi : i ≤ b.bytes.length) :
    (b.store i bs).InBounds ↔ b.InBounds ∧ i + bs.length ≤ b.size := by
  simp only [InBounds, store, length_splice hi]
  omega

theorem inBounds_store_fresh {n : Nat} {bs : List Byte} :
    ((fresh n).store 0 bs).InBounds ↔ bs.length ≤ n := by
  rw [inBounds_store (Nat.zero_le _)]
  simp [inBounds_fresh]

theorem inBounds_strcpy {b : Block} {s : CStr} :
    (b.strcpy s).InBounds ↔ b.InBounds ∧ s.length + 1 ≤ b.size := by
  rw [strcpy, inBounds_store (Nat.zero_le _)]
  simp

/-! ### Arrays -/

/-- `char b[n] = "";` -/
def zeroed (n : Nat) : Block := ⟨n, List.replicate n 0⟩

/-- `memset(b, 0, n)` -/
def memset (b : Block) (n : Nat) : Block := b.store 0 (List.replicate n 0)

/-- `memcpy(b, bs, n)`, for the `n` bytes `bs`. -/
def memcpy (b : Block) (bs : List Byte) : Block := b.store 0 bs

/-- `strncpy(b, s, n)` -/
def strncpy (b : Block) (s : CStr) (n : Nat) : Block :=
  b.store 0 (s.bytes.take n ++ List.replicate (n - s.length) 0)

theorem inBounds_memcpy {b : Block} {bs : List Byte} :
    (b.memcpy bs).InBounds ↔ b.InBounds ∧ bs.length ≤ b.size := by
  rw [memcpy, inBounds_store (Nat.zero_le _), Nat.zero_add]

theorem inBounds_zeroed (n : Nat) : (zeroed n).InBounds := by simp [InBounds, zeroed]

theorem inBounds_memset_fresh {n k : Nat} : ((fresh n).memset k).InBounds ↔ k ≤ n := by
  rw [memset, inBounds_store_fresh, List.length_replicate]

theorem bytes_memset_fresh (n k : Nat) : ((fresh n).memset k).bytes = List.replicate k 0 := by
  simp [memset, store, splice_zero]

/-- The first `n` bytes of a block; those never stored are `junk`. -/
def contents (b : Block) (junk : Nat → Byte) (n : Nat) : List Byte :=
  b.bytes.take n ++ (List.range' b.bytes.length (n - b.bytes.length)).map junk

@[simp] theorem length_contents (b : Block) (junk : Nat → Byte) (n : Nat) :
    (b.contents junk n).length = n := by
  simp only [contents, List.length_append, List.length_take, List.length_map, List.length_range']
  omega

/-- Where every byte asked for has been stored, nothing else shows. -/
theorem contents_of_le {b : Block} {junk : Nat → Byte} {n : Nat} (h : n ≤ b.bytes.length) :
    b.contents junk n = b.bytes.take n := by
  simp [contents, Nat.sub_eq_zero_of_le h]

/-- The string a block holds, where its NUL lies in the block. -/
def held (b : Block) : Option CStr := CStr.ofMem (b.bytes.take b.size)

/-- A text that is copied to the front of a block and has a NUL behind it. -/
theorem held_of_bytes {b : Block} {s : CStr} {r : List Byte} (h : b.bytes = s.bytes ++ 0 :: r) :
    b.held = if s.length < b.size then some s else none := by
  rw [held, h]
  split
  · rename_i hlt
    obtain ⟨n, hn⟩ := Nat.exists_eq_add_of_lt hlt
    rw [hn, CStr.length, Nat.add_assoc, List.take_length_add_append, List.take_succ_cons]
    exact CStr.ofMem_append s _
  · rename_i hge
    rw [List.take_append_of_le_length (Nat.not_lt.mp hge)]
    exact CStr.ofMem_eq_none.mpr fun h0 => s.noNul (List.mem_of_mem_take h0)

theorem held_strcpy (b : Block) (s : CStr) :
    (b.strcpy s).held = if s.length < b.size then some s else none :=
  held_of_bytes (by rw [bytes_strcpy, CStr.mem, List.append_assoc]; rfl)

/-- A copy without its NUL, before a NUL that stands there. -/
theorem held_memcpy {b : Block} {s : CStr} {r : List Byte} (h : b.bytes.drop s.length = 0 :: r)
    (hs : s.length < b.size) : (b.memcpy s.bytes).held = some s := by
  have hbytes : (b.memcpy s.bytes).bytes = s.bytes ++ 0 :: r := by
    rw [memcpy, store, splice_zero, ← h]
    rfl
  rw [held_of_bytes hbytes]
  exact if_pos hs

section Array

/-- The block is an array of `k` bytes, and nothing was stored behind it. -/
def IsArray (k : Nat) (b : Block) : Prop := b.size = k ∧ b.InBounds

variable {k : Nat} {b : Block}

theorem isArray_zeroed (k : Nat) : (zeroed k).IsArray k := ⟨rfl, inBounds_zeroed k⟩

theorem IsArray.store (h : b.IsArray k) (bs : List Byte) :
    (b.store 0 bs).IsArray k ↔ bs.length ≤ k := by
  obtain ⟨rfl, hb⟩ := h
  rw [IsArray, inBounds_store (Nat.zero_le _), Nat.zero_add]
  exact ⟨fun h => h.2.2, fun h => ⟨rfl, hb, h⟩⟩

/-- A text fits with its NUL. -/
theorem IsArray.strcpy (h : b.IsArray k) {s : CStr} : (b.strcpy s).IsArray k ↔ s.length < k := by
  rw [Block.strcpy, h.store, CStr.length_mem]
  exact Iff.rfl

theorem IsArray.strncpy (h : b.IsArray k) {s : CStr} :
    (b.strncpy s s.length).IsArray k ↔ s.length ≤ k := by
  rw [Block.strncpy, h.store, Nat.sub_self, List.replicate_zero, List.append_nil, List.length_take]
  rw [CStr.length, Nat.min_self]

end Array

end Block

/-! ### Cursors -/

/-- A block and the offset a pointer into it has reached. -/
structure Cursor where
  block : Block
  pos : Nat
deriving DecidableEq

namespace Cursor

/-- `p = b`. -/
def start (b : Block) : Cursor := ⟨b, 0⟩

/-- `*(p++) = c`. -/
def put (t : Cursor) (c : Byte) : Cursor := ⟨t.block.store t.pos [c], t.pos + 1⟩

/-- `*p = c`. -/
def poke (t : Cursor) (c : Byte) : Cursor := ⟨t.block.store t.pos [c], t.pos⟩

/-- `strcpy(p, s)`. -/
def strcpy (t : Cursor) (s : CStr) : Cursor := ⟨t.block.store t.pos s.mem, t.pos⟩

/-- `p += n`. -/
def advance (t : Cursor) (n : Nat) : Cursor := ⟨t.block, t.pos + n⟩

/-- `*(p++) = c` for each `c` of `cs`. -/
def putAll (t : Cursor) (cs : List Byte) : Cursor := cs.foldl put t

/-- The bytes below the pointer are `w`, and at most one stored byte lies at or above it. -/
structure Wrote (t : Cursor) (w : List Byte) : Prop where
  pos_eq : t.pos = w.length
  below : t.block.bytes.take t.pos = w
  above : t.block.bytes.length ≤ t.pos + 1

@[simp] theorem size_put (t : Cursor) (c : Byte) : (t.put c).block.size = t.block.size := rfl
@[simp] theorem size_poke (t : Cursor) (c : Byte) : (t.poke c).block.size = t.block.size := rfl
@[simp] theorem size_strcpy (t : Cursor) (s : CStr) : (t.strcpy s).block.size = t.block.size := rfl
@[simp] theorem size_advance (t : Cursor) (n : Nat) : (t.advance n).block.size = t.block.size := rfl


@[simp] theorem putAll_nil (t : Cursor) : t.putAll [] = t := rfl
@[simp] theorem putAll_cons (t : Cursor) (c : Byte) (cs : List Byte) :
    t.putAll (c :: cs) = (t.put c).putAll cs := rfl

@[simp] theorem size_putAll (t : Cursor) (cs : List Byte) :
    (t.putAll cs).block.size = t.block.size := by
  induction cs generalizing t with
  | nil => rfl
  | cons c cs ih => rw [putAll_cons, ih, size_put]

theorem putAll_append (t : Cursor) (cs ds : List Byte) :
    t.putAll (cs ++ ds) = (t.putAll cs).putAll ds :=
  List.foldl_append

@[simp] theorem pos_putAll (t : Cursor) (cs : List Byte) :
    (t.putAll cs).pos = t.pos + cs.length := by
  induction cs generalizing t with
  | nil => rfl
  | cons c cs ih =>
      rw [putAll_cons, ih, List.length_cons]
      show t.pos + 1 + cs.length = _
      omega

/-- A run of `*(p++) = c` stores its bytes where the pointer stands. -/
theorem putAll_eq {t : Cursor} (h : t.pos ≤ t.block.bytes.length) (cs : List Byte) :
    t.putAll cs = ⟨t.block.store t.pos cs, t.pos + cs.length⟩ := by
  induction cs generalizing t with
  | nil => simp [Block.store, splice]
  | cons c cs ih =>
      have hlen : (t.put c).pos ≤ (t.put c).block.bytes.length := by
        simp only [Cursor.put, Block.store, length_splice h, List.length_singleton]
        omega
      have hsplice := splice_splice h [c] cs
      rw [putAll_cons, ih hlen]
      simp only [Cursor.put, Block.store, List.length_singleton] at hsplice ⊢
      rw [hsplice, List.singleton_append, List.length_cons]
      congr 1
      omega

/-- A string copied byte by byte and closed is stored with its NUL. -/
theorem poke_putAll_start (b : Block) (cs : List Byte) :
    (((start b).putAll cs).poke 0).block = b.store 0 (cs ++ [0]) := by
  rw [putAll_eq (t := start b) (Nat.zero_le _)]
  have hsplice := splice_splice (Nat.zero_le b.bytes.length) cs [0]
  simp only [Cursor.poke, start, Block.store, hsplice]

theorem wrote_start (n : Nat) : (start (Block.fresh n)).Wrote [] := ⟨rfl, rfl, Nat.zero_le _⟩

variable {t : Cursor} {w : List Byte}

theorem Wrote.pos_le (h : t.Wrote w) : t.pos ≤ t.block.bytes.length := by
  have := congrArg List.length h.below
  simp only [List.length_take] at this
  have := h.pos_eq
  omega

theorem Wrote.put (h : t.Wrote w) (c : Byte) : (t.put c).Wrote (w ++ [c]) := by
  refine ⟨by simp [Cursor.put, h.pos_eq], ?_, ?_⟩
  · show (splice t.block.bytes t.pos [c]).take (t.pos + 1) = _
    have : (splice t.block.bytes t.pos [c]).take (t.pos + [c].length) = _ := take_splice h.pos_le
    simpa [h.below] using this
  · have := h.above
    simp only [Cursor.put, Block.store, length_splice h.pos_le, List.length_singleton]
    omega

theorem Wrote.putAll {t : Cursor} {w : List Byte} (h : t.Wrote w) (cs : List Byte) :
    (t.putAll cs).Wrote (w ++ cs) := by
  induction cs generalizing t w with
  | nil => simpa using h
  | cons c cs ih => simpa using ih (h.put c)

/-- `strcpy(p, s); p += strlen(s)` appends `s`; the NUL stays above the pointer. -/
theorem Wrote.strcpy_advance (h : t.Wrote w) (s : CStr) :
    ((t.strcpy s).advance s.length).Wrote (w ++ s.bytes) := by
  have hle := h.pos_le
  refine ⟨by simp [Cursor.strcpy, Cursor.advance, h.pos_eq, CStr.length], ?_, ?_⟩
  · show (splice t.block.bytes t.pos s.mem).take (t.pos + s.length) = _
    have hput : (splice t.block.bytes t.pos s.mem).take (t.pos + s.mem.length) = _ :=
      take_splice hle
    have hm := congrArg (List.take (t.pos + s.length)) hput
    rw [List.take_take, h.below, CStr.length_mem] at hm
    rw [show min (t.pos + s.length) (t.pos + (s.length + 1)) = t.pos + s.length by omega] at hm
    rw [hm, CStr.mem, ← List.append_assoc]
    have hl : (w ++ s.bytes).length = t.pos + s.length := by simp [h.pos_eq, CStr.length]
    rw [← hl, List.take_left]
  · have := h.above
    simp only [Cursor.strcpy, Cursor.advance, Block.store, length_splice hle, CStr.length_mem]
    omega

/-- The closing store leaves exactly what was written and the byte stored. -/
theorem Wrote.bytes_poke (h : t.Wrote w) (c : Byte) : (t.poke c).block.bytes = w ++ [c] := by
  have hle := h.pos_le
  have ha := h.above
  have hd : t.block.bytes.drop (t.pos + 1) = [] := List.drop_eq_nil_of_le ha
  show splice t.block.bytes t.pos [c] = _
  simp [splice, h.below, hd]

/-- A store over the last byte written. -/
theorem Wrote.bytes_poke_back {x : Byte} (h : t.Wrote (w ++ [x])) (c : Byte) :
    ∃ r, (({ t with pos := t.pos - 1 } : Cursor).poke c).block.bytes = w ++ c :: r := by
  have hpos : t.pos - 1 = w.length := by
    rw [h.pos_eq, List.length_append, List.length_singleton, Nat.add_sub_cancel]
  have hbelow : t.block.bytes.take (t.pos - 1) = w := by
    rw [← Nat.min_eq_left (Nat.sub_le t.pos 1), ← List.take_take, h.below, hpos, List.take_left]
  refine ⟨t.block.bytes.drop (t.pos - 1 + 1), ?_⟩
  show t.block.bytes.take (t.pos - 1) ++ [c] ++ _ = _
  rw [hbelow, List.append_assoc]
  rfl

end Cursor

end CLib
