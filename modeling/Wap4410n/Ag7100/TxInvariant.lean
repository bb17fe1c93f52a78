import Wap4410n.Ag7100.Tx

/-!
# Ag7100 — the invariant of the transmit ring

From the tail on the ring is the pieces of the packets that were not freed, one in each slot, then
free slots (`Layout`).  The pieces in front of the MAC were sent, and it owns the others.  The first
piece of a packet has the packet in its buffer, with the slot of the last one.

A packet has a free slot for each piece, and one more, as long as the queue is stopped where the
ring is full (`Inv`); that is what the link timer does not heed.

* `inv_step`: every event keeps the invariant, unless the timer starts the queue of a full ring.
* `transmit_safe`: what holds in every state of a run.
-/

namespace Wap4410n.Ag7100.Tx

open CLib Ring

variable {P : Type} {b : Build}

/-! ### The build -/

theorem vetTxLenPerPkt_le (len : Nat) : vetTxLenPerPkt len ≤ 2048 := by
  unfold vetTxLenPerPkt
  dsimp only
  split
  · decide
  split
  · split
    · decide
    split <;> omega
  · omega

namespace Build

theorem txMaxDescPerDsPkt_pos (b : Build) : 1 ≤ b.txMaxDescPerDsPkt := by
  unfold txMaxDescPerDsPkt
  split
  · exact Nat.le_refl 1
  · have hle : b.txLenPerDs ≤ 2048 := vetTxLenPerPkt_le _
    have hpos := Nat.div_pos hle (Nat.lt_of_lt_of_le (by decide) b.txLenPerDs_ge)
    omega

/-- An empty ring is not full. -/
theorem add_two_le_nelem (b : Build) : b.txMaxDescPerDsPkt + 2 ≤ b.nelem := by
  have hmax := b.txMaxDescPerDsPkt_pos
  have hmul := Nat.mul_le_mul_right b.txMaxDescPerDsPkt b.three_le
  rw [nelem]
  omega

theorem nelem_pos (b : Build) : 0 < b.nelem := by
  have := b.add_two_le_nelem
  omega

end Build

/-! ### The pieces of a packet -/

/-- What a descriptor sends of a packet. -/
structure Piece (P : Type) where
  skb : Skb P
  start : Nat
  size : Nat
  more : Bool

namespace Piece

variable (c : Piece P)

/-- The descriptor of a piece. -/
def desc (owned : Bool) : Desc P := ⟨!owned, c.more, c.size, some (c.skb, c.start)⟩

/-- The packet, at its first piece. -/
def first : Option (Skb P) := if c.start = 0 then some c.skb else none

/-- The packet, at its last piece. -/
def last : Option (Skb P) := if c.start + c.size = c.skb.len then some c.skb else none

end Piece

section Pieces

variable (b) (skb : Skb P)

/-- The pieces from `start` on. -/
def piecesFrom (start len : Nat) : List (Piece P) :=
  if _h : len = 0 then []
  else
    ⟨skb, start, lenThisDs b len, lenThisDs b len < len⟩ ::
      piecesFrom (start + lenThisDs b len) (len - lenThisDs b len)
termination_by len
decreasing_by
  have := lenThisDs_pos b (Nat.pos_of_ne_zero _h)
  omega

def pieces : List (Piece P) := piecesFrom b skb 0 skb.len

/-- `nds_this_pkt` -/
def nds : Nat := (pieces b skb).length

theorem piecesFrom_zero (start : Nat) : piecesFrom b skb start 0 = [] := by
  rw [piecesFrom, dif_pos rfl]

variable {len : Nat}

theorem piecesFrom_pos (start : Nat) (h : 0 < len) : piecesFrom b skb start len =
    ⟨skb, start, lenThisDs b len, lenThisDs b len < len⟩ ::
      piecesFrom b skb (start + lenThisDs b len) (len - lenThisDs b len) := by
  rw [piecesFrom, dif_neg (Nat.ne_of_gt h)]

theorem lenThisDs_le (len : Nat) : lenThisDs b len ≤ len := by
  unfold lenThisDs
  split
  · split <;> omega
  · exact Nat.le_refl _

/-- An induction along the pieces. -/
theorem piecesFrom_induction {motive : Nat → Nat → Prop} (nil : ∀ start, motive start 0)
    (cons : ∀ start len, 0 < len → motive (start + lenThisDs b len) (len - lenThisDs b len) →
      motive start len) : ∀ start len, motive start len
  | start, len =>
    if h : len = 0 then h ▸ nil start
    else cons start len (Nat.pos_of_ne_zero h)
      (piecesFrom_induction nil cons (start + lenThisDs b len) (len - lenThisDs b len))
termination_by _ len => len
decreasing_by
  have := lenThisDs_pos b (Nat.pos_of_ne_zero h)
  omega

theorem length_piecesFrom_pos (start : Nat) (h : 0 < len) :
    0 < (piecesFrom b skb start len).length := by
  rw [piecesFrom_pos b skb _ h]
  exact Nat.succ_pos _

/-- **The pieces are as few as they can be.** -/
theorem length_piecesFrom_lt : ∀ start len, 0 < len →
    ((piecesFrom b skb start len).length - 1) * b.txLenPerDs < len := by
  refine piecesFrom_induction b (fun _ h => absurd h (by decide)) fun start len h ih _ => ?_
  have hmin := b.txLenPerDs_ge
  rw [piecesFrom_pos b skb _ h, List.length_cons, Nat.add_sub_cancel]
  by_cases hrest : len - lenThisDs b len = 0
  · rw [hrest, piecesFrom_zero, List.length_nil, Nat.zero_mul]
    exact h
  · have hpos := length_piecesFrom_pos b skb (start + lenThisDs b len) (Nat.pos_of_ne_zero hrest)
    have hlt := ih (Nat.pos_of_ne_zero hrest)
    obtain ⟨k, hk⟩ :
        ∃ k, (piecesFrom b skb (start + lenThisDs b len) (len - lenThisDs b len)).length =
        k + 1 := ⟨_, (Nat.sub_add_cancel hpos).symm⟩
    rw [hk, Nat.add_sub_cancel] at hlt
    rw [hk, Nat.succ_mul]
    unfold lenThisDs at hrest hlt
    by_cases hbig : b.txLenPerDs < len
    · rw [if_pos hbig] at hrest hlt
      by_cases hsmall : len ≤ b.txLenPerDs + 4
      · -- a remainder of four bytes or less
        rw [if_pos hsmall] at hlt
        have hzero : k = 0 := by
          by_contra hk0
          have := Nat.le_mul_of_pos_left b.txLenPerDs (Nat.pos_of_ne_zero hk0)
          omega
        rw [hzero]
        omega
      · rw [if_neg hsmall] at hlt
        omega
    · rw [if_neg hbig] at hrest
      omega

/-- **A packet fits into the descriptors of one**, but for a chip that has one for each. -/
theorem nds_le (h : b.ar9100 = false) (hlen : skb.len ≤ 2048) :
    nds b skb ≤ b.txMaxDescPerDsPkt := by
  have hmin := b.txLenPerDs_ge
  rw [nds, pieces]
  by_cases hpos : skb.len = 0
  · rw [hpos, piecesFrom_zero]
    exact Nat.zero_le _
  · have hlt := length_piecesFrom_lt b skb 0 skb.len (Nat.pos_of_ne_zero hpos)
    rw [Build.txMaxDescPerDsPkt, if_neg (by rw [h]; exact Bool.false_ne_true)]
    have hdiv := Nat.div_add_mod 2048 b.txLenPerDs
    have hle : (piecesFrom b skb 0 skb.len).length - 1 ≤ 2048 / b.txLenPerDs :=
      (Nat.le_div_iff_mul_le (by omega)).mpr (by omega)
    by_cases hmod : 2048 % b.txLenPerDs = 0
    · rw [if_neg (by simpa using hmod)]
      by_contra hgt
      have heq : (piecesFrom b skb 0 skb.len).length - 1 = 2048 / b.txLenPerDs := by omega
      rw [heq, Nat.mul_comm] at hlt
      omega
    · rw [if_pos hmod]
      omega

/-- The packet ends in the last piece only. -/
theorem filterMap_last_piecesFrom : ∀ start len, 0 < len → start + len = skb.len →
    (piecesFrom b skb start len).filterMap Piece.last = [skb] := by
  refine piecesFrom_induction b (fun _ h => absurd h (by decide)) fun start len h ih _ hsum => ?_
  have hle := lenThisDs_le b len
  rw [piecesFrom_pos b skb _ h, List.filterMap_cons, Piece.last]
  by_cases hrest : len - lenThisDs b len = 0
  · rw [if_pos (by dsimp only; omega), hrest, piecesFrom_zero]
    rfl
  · rw [if_neg (by dsimp only; omega)]
    exact ih (Nat.pos_of_ne_zero hrest) (by omega)

/-- The packet begins in the first piece only. -/
theorem filterMap_first_piecesFrom : ∀ start len, 0 < start →
    (piecesFrom b skb start len).filterMap Piece.first = [] := by
  refine piecesFrom_induction b (fun start _ => by rw [piecesFrom_zero]; rfl)
    fun start len h ih hstart => ?_
  rw [piecesFrom_pos b skb _ h, List.filterMap_cons, Piece.first, if_neg (Nat.ne_of_gt hstart)]
  exact ih (by omega)

/-- The pieces are of the packet, and the last one has nothing behind it. -/
theorem piecesFrom_getElem? : ∀ start len, ∀ {i : Nat} {c : Piece P},
    (piecesFrom b skb start len)[i]? = some c →
    c.skb = skb ∧ (c.start = start ↔ i = 0) ∧ start ≤ c.start ∧
      c.more = decide (i + 1 < (piecesFrom b skb start len).length) := by
  refine piecesFrom_induction b (fun start i c h => ?_) fun start len h ih i c hi => ?_
  · rw [piecesFrom_zero] at h
    cases h
  · have hpos := lenThisDs_pos b h
    rw [piecesFrom_pos b skb _ h] at hi ⊢
    cases i with
    | zero =>
        obtain rfl := Option.some.inj hi
        refine ⟨rfl, ⟨fun _ => rfl, fun _ => rfl⟩, Nat.le_refl _, ?_⟩
        dsimp only
        rw [List.length_cons, decide_eq_decide]
        constructor
        · intro hlt
          have hrest : 0 < len - lenThisDs b len := by omega
          have := length_piecesFrom_pos b skb (start + lenThisDs b len) hrest
          omega
        · intro hlt
          by_contra hge
          have hzero : len - lenThisDs b len = 0 := by omega
          rw [hzero, piecesFrom_zero] at hlt
          exact absurd hlt (Nat.lt_irrefl 1)
    | succ i =>
        rw [List.getElem?_cons_succ] at hi
        obtain ⟨hskb, hstart, hle, hmore⟩ := ih hi
        refine ⟨hskb, ⟨fun h0 => by omega, fun h0 => by omega⟩, by omega, ?_⟩
        rw [hmore, List.length_cons, decide_eq_decide]
        omega

end Pieces

/-! ### The layout of the ring -/

/-- The slot `i` from `tail` on, with the piece `c`. -/
structure Holds (b : Build) (r : TxRing P) (tail i : Nat) (c : Piece P) (owned : Bool) : Prop where
  desc : r.desc (slot b.nelem tail i) = c.desc owned
  first : c.start = 0 → r.buffer (slot b.nelem tail i) =
    ⟨some c.skb, slot b.nelem tail (i + (nds b c.skb - 1)), nds b c.skb⟩
  other : c.start ≠ 0 → (r.buffer (slot b.nelem tail i)).bufPkt = none

/-- A free slot. -/
structure Free (b : Build) (r : TxRing P) (tail i : Nat) : Prop where
  desc : (r.desc (slot b.nelem tail i)).isEmpty = true
  buffer : (r.buffer (slot b.nelem tail i)).bufPkt = none

/-- The pieces `cs`, `d` of them sent, and free slots, one at least. -/
structure Layout (b : Build) (r : TxRing P) (tail next : Nat) (cs : List (Piece P)) (d : Nat) :
    Prop where
  tail_lt : tail < b.nelem
  bound : cs.length < b.nelem
  head_eq : r.ringHead = slot b.nelem tail cs.length
  next_eq : next = slot b.nelem tail d
  sent_le : d ≤ cs.length
  used : ∀ {i : Nat} {c : Piece P}, cs[i]? = some c → Holds b r tail i c (decide (d ≤ i))
  free : ∀ {i : Nat}, cs.length ≤ i → i < b.nelem → Free b r tail i

/-- The unused descriptors of a ring with `u` used ones. -/
theorem ndescUnused_eq {n tail u : Nat} (htail : tail < n) (hu : u < n) :
    ndescUnused n (slot n tail u) tail = n - u := by
  unfold ndescUnused
  by_cases hwrap : tail + u < n
  · rw [slot, Nat.mod_eq_of_lt hwrap, if_neg (by omega)]
    omega
  · have hmod : slot n tail u = tail + u - n := by
      rw [slot, Nat.mod_eq_sub_mod (by omega), Nat.mod_eq_of_lt (by omega)]
    rw [hmod, if_pos (by omega)]
    omega

namespace Layout

variable {r : TxRing P} {tail next d : Nat} {cs : List (Piece P)}

theorem unused (h : Layout b r tail next cs d) :
    ndescUnused b.nelem r.ringHead tail = b.nelem - cs.length := by
  rw [h.head_eq]
  exact ndescUnused_eq h.tail_lt h.bound

/-- **The head is the tail of an empty ring** only. -/
theorem head_eq_tail (h : Layout b r tail next cs d) : tail = r.ringHead ↔ cs = [] := by
  have hinj := slot_inj (a := tail) (i := 0) (j := cs.length) b.nelem_pos h.bound
  rw [slot_zero h.tail_lt] at hinj
  rw [h.head_eq, hinj, eq_comm, List.length_eq_zero_iff]

end Layout

/-- From another slot on. -/
theorem slot_slot (n a i j : Nat) : slot n (slot n a i) j = slot n a (i + j) := by
  rw [slot, slot, slot, Nat.mod_add_mod, Nat.add_assoc]

theorem iterate_incr {n a : Nat} (ha : a < n) (k : Nat) : (incr n)^[k] a = slot n a k := by
  induction k with
  | zero => exact (slot_zero ha).symm
  | succ k ih => rw [Function.iterate_succ_apply', ih, incr_slot (Nat.zero_lt_of_lt ha)]

section Stores

variable {r : TxRing P} {tail i j : Nat}

theorem setDesc_of_ne (hi : i < b.nelem) (hj : j < b.nelem) (hij : i ≠ j) (ds : Desc P) :
    (r.setDesc (slot b.nelem tail j) ds).desc (slot b.nelem tail i) =
      r.desc (slot b.nelem tail i) :=
  Function.update_of_ne (fun heq => hij ((slot_inj hi hj).mp heq)) _ _

theorem setBuffer_of_ne (hi : i < b.nelem) (hj : j < b.nelem) (hij : i ≠ j) (bf : Buffer P) :
    (r.setBuffer (slot b.nelem tail j) bf).buffer (slot b.nelem tail i) =
      r.buffer (slot b.nelem tail i) :=
  Function.update_of_ne (fun heq => hij ((slot_inj hi hj).mp heq)) _ _

theorem noMore_desc (hi : i < b.nelem) (hj : j < b.nelem) :
    (r.noMore (slot b.nelem tail j)).desc (slot b.nelem tail i) =
      if i = j then { r.desc (slot b.nelem tail i) with more := false }
      else r.desc (slot b.nelem tail i) := by
  by_cases hij : i = j
  · rw [if_pos hij, hij]
    exact Function.update_self _ _ _
  · rw [if_neg hij]
    exact setDesc_of_ne hi hj hij _

theorem giveToDma_desc (hi : i < b.nelem) (hj : j < b.nelem) :
    (r.giveToDma (slot b.nelem tail j)).desc (slot b.nelem tail i) =
      if i = j then { r.desc (slot b.nelem tail i) with isEmpty := false }
      else r.desc (slot b.nelem tail i) := by
  by_cases hij : i = j
  · rw [if_pos hij, hij]
    exact Function.update_self _ _ _
  · rw [if_neg hij]
    exact setDesc_of_ne hi hj hij _

@[simp] theorem setDesc_self (k : Nat) (ds : Desc P) : (r.setDesc k ds).desc k = ds :=
  Function.update_self _ _ _

@[simp] theorem setBuffer_self (k : Nat) (bf : Buffer P) : (r.setBuffer k bf).buffer k = bf :=
  Function.update_self _ _ _

end Stores

/-! ### `complete` -/

/-- **The MAC sends a piece**: the first one it owns. -/
theorem Layout.complete {m : Mac P} {tail d : Nat} {cs : List (Piece P)}
    (h : Layout b m.ring tail m.next cs d) :
    ∃ d', Layout b (m.complete b).ring tail (m.complete b).next cs d' ∧
      (m.complete b).sent = m.sent ++ ((cs.take d').drop d).filterMap Piece.last ∧ d ≤ d' := by
  by_cases hd : d < cs.length
  · have hc := List.getElem?_eq_getElem hd
    have hds := (h.used hc).desc
    rw [decide_eq_true (Nat.le_refl d), ← h.next_eq] at hds
    have hdn := Nat.lt_trans hd h.bound
    have hcomplete : m.complete b = { m with
        ring := m.ring.setDesc m.next (cs[d].desc false)
        next := incr b.nelem m.next
        sent := m.sent ++ cs[d].last.toList } := by
      rw [Mac.complete, hds]
      show (if (true : Bool) = true then _ else _) = _
      rw [if_pos rfl]
      dsimp only [Piece.desc, Piece.last]
      by_cases hend : cs[d].start + cs[d].size = cs[d].skb.len <;> simp [hend]
    refine ⟨d + 1, ?_, ?_, Nat.le_succ d⟩
    · rw [hcomplete]
      refine ⟨h.tail_lt, h.bound, h.head_eq, ?_, hd, fun {i c} hi => ?_, fun {i} hi hn => ?_⟩
      · dsimp only
        rw [h.next_eq, incr_slot b.nelem_pos]
      · have hlt := (List.getElem?_eq_some_iff.mp hi).1
        obtain ⟨hdesc, hfirst, hother⟩ := h.used hi
        refine ⟨?_, hfirst, hother⟩
        dsimp only
        rw [h.next_eq]
        by_cases hid : i = d
        · subst hid
          rw [setDesc_self, decide_eq_false (by omega), Option.some.inj (hc.symm.trans hi)]
        · rw [setDesc_of_ne (Nat.lt_trans hlt h.bound) hdn hid, hdesc]
          congr 1
          rw [decide_eq_decide]
          omega
      · obtain ⟨hdesc, hbuffer⟩ := h.free hi hn
        refine ⟨?_, hbuffer⟩
        dsimp only
        rw [h.next_eq, setDesc_of_ne hn hdn (by omega)]
        exact hdesc
    · have htake : (cs.take (d + 1)).drop d = [cs[d]] := by
        rw [List.take_succ_eq_append_getElem hd, List.drop_left' (by rw [List.length_take]; omega)]
      rw [hcomplete, htake]
      cases hlast : cs[d].last <;> simp [hlast]
  · have hall : d = cs.length := by
      have := h.sent_le
      omega
    have hown : (m.ring.desc m.next).ownedByDma = false := by
      rw [h.next_eq, Desc.ownedByDma, (h.free (by omega) (by rw [hall]; exact h.bound)).desc]
      rfl
    refine ⟨d, ?_, ?_, Nat.le_refl d⟩
    · rw [Mac.complete, hown]
      exact h
    · have hnil : (cs.take d).drop d = [] := List.drop_eq_nil_of_le (List.length_take_le d cs)
      rw [hnil, Mac.complete, hown]
      exact (List.append_nil _).symm

/-! ### `ag7100_tx_reap` -/

/-- **The first packet is freed** where its last piece was sent. -/
theorem Layout.pop {r : TxRing P} {tail next d : Nat} {skb : Skb P} {cs : List (Piece P)}
    (hlen : 0 < skb.len) (h : Layout b r tail next (pieces b skb ++ cs) d)
    (hsent : nds b skb ≤ d) :
    Layout b (r.setBuffer tail { r.buffer tail with bufPkt := none })
      (slot b.nelem tail (nds b skb)) next cs (d - nds b skb) := by
  have hpos : 0 < nds b skb := length_piecesFrom_pos b skb _ hlen
  have hbound := h.bound
  have hle := h.sent_le
  rw [List.length_append] at hbound hle
  change nds b skb + cs.length < b.nelem at hbound
  change d ≤ nds b skb + cs.length at hle
  have hcount : (pieces b skb ++ cs).length = nds b skb + cs.length := List.length_append
  have htail := slot_zero h.tail_lt
  have hother : ∀ {i : Nat}, i < b.nelem → i ≠ 0 →
      (r.setBuffer tail { r.buffer tail with bufPkt := none }).buffer (slot b.nelem tail i) =
        r.buffer (slot b.nelem tail i) := by
    intro i hi hne
    have hself : (r.setBuffer (slot b.nelem tail 0) _).buffer (slot b.nelem tail i) = _ :=
      setBuffer_of_ne hi b.nelem_pos hne { r.buffer tail with bufPkt := none }
    rwa [htail] at hself
  refine ⟨slot_lt b.nelem_pos _ _, by omega, ?_, ?_, by omega, fun {i c} hi => ?_,
    fun {i} hi hn => ?_⟩
  · show r.ringHead = _
    rw [h.head_eq, hcount, slot_slot]
  · rw [h.next_eq, slot_slot, Nat.add_sub_cancel' hsent]
  · -- the pieces behind those of the packet
    have hlt := (List.getElem?_eq_some_iff.mp hi).1
    have hi' : (pieces b skb ++ cs)[nds b skb + i]? = some c := by
      show (pieces b skb ++ cs)[(pieces b skb).length + i]? = some c
      rw [List.getElem?_append_right (Nat.le_add_right _ _), Nat.add_sub_cancel_left, hi]
    obtain ⟨hdesc, hfirst, hrest⟩ := h.used hi'
    rw [← hother (by omega) (by omega)] at hfirst hrest
    refine ⟨?_, fun h0 => ?_, fun h0 => ?_⟩
    · show r.desc _ = _
      rw [slot_slot, hdesc]
      congr 1
      rw [decide_eq_decide]
      omega
    · rw [slot_slot, hfirst h0, slot_slot, Nat.add_assoc]
    · rw [slot_slot]
      exact hrest h0
  · -- the free slots, and those of the packet
    by_cases hwrap : nds b skb + i < b.nelem
    · obtain ⟨hdesc, hbuffer⟩ := h.free (i := nds b skb + i) (by omega) hwrap
      refine ⟨?_, ?_⟩
      · show (r.desc _).isEmpty = true
        rw [slot_slot]
        exact hdesc
      · rw [slot_slot, hother hwrap (by omega)]
        exact hbuffer
    · have hslot : slot b.nelem tail (nds b skb + i) =
          slot b.nelem tail (nds b skb + i - b.nelem) := by
        rw [slot, slot, Nat.mod_eq_sub_mod (by omega)]
        congr 1
        omega
      have hk : nds b skb + i - b.nelem < nds b skb := by omega
      obtain ⟨c, hc⟩ : ∃ c, (pieces b skb)[nds b skb + i - b.nelem]? = some c :=
        ⟨_, List.getElem?_eq_getElem hk⟩
      have hc' : (pieces b skb ++ cs)[nds b skb + i - b.nelem]? = some c := by
        rw [List.getElem?_append_left hk, hc]
      obtain ⟨hdesc, -, hrest⟩ := h.used hc'
      refine ⟨?_, ?_⟩
      · show (r.desc _).isEmpty = true
        rw [slot_slot, hslot, hdesc, decide_eq_false (by omega)]
        rfl
      · rw [slot_slot, hslot]
        by_cases hzero : nds b skb + i - b.nelem = 0
        · rw [hzero, htail, setBuffer_self]
        · rw [hother (by omega) hzero]
          refine hrest fun h0 => hzero ?_
          exact ((piecesFrom_getElem? b _ 0 skb.len hc).2.1).mp h0

/-- The pieces of packets. -/
abbrev allPieces (b : Build) (skbs : List (Skb P)) : List (Piece P) := skbs.flatMap (pieces b)

/-- **The packets are freed in turn**, as far as their last pieces were sent. -/
theorem reapLoop_spec {next : Nat} : ∀ {k : Nat} {skbs : List (Skb P)} {r : TxRing P} {tail d : Nat}
    (freed : List (Skb P)), skbs.length < k → (∀ skb ∈ skbs, 0 < skb.len) →
    Layout b r tail next (allPieces b skbs) d →
    ∃ r' tail' gone rest d', reapLoop b k r tail freed = .ok (r', tail', freed ++ gone) ∧
      skbs = gone ++ rest ∧ Layout b r' tail' next (allPieces b rest) d' ∧
      ((allPieces b skbs).take d).filterMap Piece.last =
        gone ++ ((allPieces b rest).take d').filterMap Piece.last
  | 0, _, _, _, _, _, hk, _, _ => absurd hk (Nat.not_lt_zero _)
  | k + 1, [], r, tail, d, freed, _, _, h => by
      refine ⟨r, tail, [], [], d, ?_, rfl, h, rfl⟩
      rw [reapLoop, if_pos (h.head_eq_tail.mpr rfl), List.append_nil]
  | k + 1, skb :: skbs, r, tail, d, freed, hk, hlen, h => by
      have hstay : reapLoop b (k + 1) r tail freed = .ok (r, tail, freed) → ∃ r' tail' gone rest d',
          reapLoop b (k + 1) r tail freed = .ok (r', tail', freed ++ gone) ∧
          skb :: skbs = gone ++ rest ∧ Layout b r' tail' next (allPieces b rest) d' ∧
          ((allPieces b (skb :: skbs)).take d).filterMap Piece.last =
            gone ++ ((allPieces b rest).take d').filterMap Piece.last := fun hloop =>
        ⟨r, tail, [], skb :: skbs, d, by rw [hloop, List.append_nil], rfl, h, rfl⟩
      have hpos : 0 < skb.len := hlen skb List.mem_cons_self
      have hnds : 0 < nds b skb := length_piecesFrom_pos b skb _ hpos
      have hcs : allPieces b (skb :: skbs) = pieces b skb ++ allPieces b skbs := List.flatMap_cons
      rw [hcs] at h
      have hpiece : ∀ {i : Nat}, i < nds b skb → ∃ c, (pieces b skb)[i]? = some c ∧
          Holds b r tail i c (decide (d ≤ i)) := by
        intro i hi
        have hc : (pieces b skb)[i]? = some (pieces b skb)[i] := List.getElem?_eq_getElem hi
        exact ⟨_, hc, h.used (by rw [List.getElem?_append_left hi, hc])⟩
      have hne : tail ≠ r.ringHead := by
        intro heq
        have hnil := congrArg List.length (h.head_eq_tail.mp heq)
        rw [List.length_append] at hnil
        change nds b skb + _ = 0 at hnil
        omega
      rw [reapLoop, if_neg hne] at hstay ⊢
      obtain ⟨c, hc, hdesc, hfirst, -⟩ := hpiece hnds
      obtain ⟨hskb, hstart, -, -⟩ := piecesFrom_getElem? b _ 0 skb.len hc
      rw [slot_zero h.tail_lt] at hdesc hfirst
      rw [hfirst (hstart.mpr rfl), hskb, Nat.zero_add] at hstay ⊢
      obtain ⟨c', -, hlast, -, -⟩ := hpiece (i := nds b skb - 1) (by omega)
      by_cases hown : (r.desc tail).ownedByDma = true
      · rw [if_pos hown] at hstay ⊢
        exact hstay rfl
      rw [if_neg hown] at hstay ⊢
      dsimp only at hstay ⊢
      by_cases hownLast : (r.desc (slot b.nelem tail (nds b skb - 1))).ownedByDma = true
      · rw [if_pos hownLast] at hstay ⊢
        exact hstay rfl
      rw [if_neg hownLast, iterate_incr h.tail_lt]
      have hsent : nds b skb ≤ d := by
        by_contra hgt
        rw [hlast, decide_eq_true (by omega)] at hownLast
        exact hownLast rfl
      have hpop := h.pop hpos hsent
      have hbuffer : { r.buffer tail with bufPkt := none } =
          (⟨none, slot b.nelem tail (nds b skb - 1), nds b skb⟩ : Buffer P) := by
        rw [hfirst (hstart.mpr rfl), hskb, Nat.zero_add]
      rw [hbuffer] at hpop
      obtain ⟨r', tail', gone, rest, d', hloop, hsplit, hlayout, htake⟩ := reapLoop_spec
        (freed ++ [skb]) (Nat.lt_of_succ_lt_succ hk)
        (fun s hs => hlen s (List.mem_cons_of_mem _ hs)) hpop
      refine ⟨r', tail', skb :: gone, rest, d', ?_, by rw [hsplit, List.cons_append], hlayout, ?_⟩
      · rw [hloop, List.append_assoc, List.singleton_append]
      · rw [hcs, List.take_append, List.take_of_length_le hsent, List.filterMap_append, pieces,
          filterMap_last_piecesFrom b skb 0 skb.len hpos (Nat.zero_add _), List.singleton_append,
          List.cons_append]
        exact congrArg _ htake

/-! ### `ag7100_hard_start` -/

section Fill

variable {tail : Nat}

/-- **A descriptor the MAC does not own** is taken. -/
theorem getTxDs_ok {r : TxRing P} {u : Nat} (skb : Skb P) (start len : Nat) (hu : u < b.nelem)
    (hhead : r.ringHead = slot b.nelem tail u)
    (hfree : (r.desc (slot b.nelem tail u)).isEmpty = true) :
    getTxDs b r skb start len = .ok
      { r.setDesc (slot b.nelem tail u) ⟨true, true, lenThisDs b len, some (skb, start)⟩ with
        ringHead := slot b.nelem tail (u + 1) } := by
  have hown : (r.desc (slot b.nelem tail u)).ownedByDma = false := by
    rw [Desc.ownedByDma, hfree]
    rfl
  rw [getTxDs, hhead, hown, incr_slot (Nat.zero_lt_of_lt hu), hfree]
  rfl

/-- **The loop** gives a descriptor to the MAC for each piece. -/
theorem fillTxDs_spec (skb : Skb P) : ∀ start len, ∀ {r : TxRing P} {u k : Nat}, 0 < u →
    u + (piecesFrom b skb start len).length ≤ b.nelem → r.ringHead = slot b.nelem tail u →
    (∀ j, u ≤ j → j < u + (piecesFrom b skb start len).length →
      (r.desc (slot b.nelem tail j)).isEmpty = true) →
    ∃ r', fillTxDs b skb r start len (slot b.nelem tail (u - 1)) k =
        .ok (r', slot b.nelem tail (u + (piecesFrom b skb start len).length - 1),
          k + (piecesFrom b skb start len).length) ∧
      r'.ringHead = slot b.nelem tail (u + (piecesFrom b skb start len).length) ∧
      r'.ringTail = r.ringTail ∧ r'.buffer = r.buffer ∧
      (∀ {i : Nat} {c : Piece P}, (piecesFrom b skb start len)[i]? = some c →
        r'.desc (slot b.nelem tail (u + i)) = ⟨false, true, c.size, some (c.skb, c.start)⟩) ∧
      ∀ {j : Nat}, j < b.nelem → j < u ∨ u + (piecesFrom b skb start len).length ≤ j →
        r'.desc (slot b.nelem tail j) = r.desc (slot b.nelem tail j) := by
  refine piecesFrom_induction b (fun start r u k hu _ hhead _ => ?_)
    fun start len hlen ih r u k hu hroom hhead hfree => ?_
  · rw [piecesFrom_zero, fillTxDs, dif_pos rfl]
    exact ⟨r, rfl, hhead, rfl, rfl, fun {i c} hi => absurd hi (by simp), fun _ _ => rfl⟩
  · have hcount : ∀ k, k + (piecesFrom b skb start len).length =
        k + 1 + (piecesFrom b skb (start + lenThisDs b len) (len - lenThisDs b len)).length := by
      intro k
      rw [piecesFrom_pos b skb _ hlen, List.length_cons]
      omega
    simp only [hcount] at hroom hfree ⊢
    have hun : u < b.nelem := by omega
    have hget := getTxDs_ok skb start len hun hhead (hfree u (Nat.le_refl u) (by omega))
    have hother : ∀ {j : Nat}, j < b.nelem → j ≠ u → ∀ ds ds' : Desc P,
        ((r.setDesc (slot b.nelem tail u) ds).setDesc (slot b.nelem tail u) ds').desc
          (slot b.nelem tail j) = r.desc (slot b.nelem tail j) := fun hj hne ds ds' => by
      rw [setDesc_of_ne hj hun hne, setDesc_of_ne hj hun hne]
    rw [fillTxDs, dif_neg (Nat.ne_of_gt hlen), hget]
    dsimp only
    rw [TxRing.giveToDma, hhead]
    dsimp only
    rw [setDesc_self]
    obtain ⟨r', hloop, hhead', htail', hbuffer', hdesc', hsame'⟩ := ih
      (r := { (r.setDesc (slot b.nelem tail u)
          ⟨true, true, lenThisDs b len, some (skb, start)⟩).setDesc (slot b.nelem tail u)
            ⟨false, true, lenThisDs b len, some (skb, start)⟩ with
        ringHead := slot b.nelem tail (u + 1) }) (u := u + 1) (k := k + 1)
          (Nat.succ_pos u) hroom rfl
      (fun j hj hjn => by
        show (_ : Desc P).isEmpty = true
        rw [hother (by omega) (by omega)]
        exact hfree j (by omega) (by omega))
    rw [Nat.add_sub_cancel] at hloop
    refine ⟨r', ?_, hhead', htail', hbuffer', fun {i c} hi => ?_, fun {j} hj hout => ?_⟩
    · exact hloop
    · rw [piecesFrom_pos b skb _ hlen] at hi
      cases i with
      | zero =>
          obtain rfl := Option.some.inj hi
          rw [Nat.add_zero, hsame' hun (.inl (Nat.lt_succ_self u))]
          exact setDesc_self _ _
      | succ i =>
          rw [← Nat.add_assoc, Nat.add_right_comm]
          exact hdesc' hi
    · rw [hsame' hj (by omega)]
      exact hother hj (by omega) _ _

/-- **The last two stores**: nothing is behind the last piece, and the MAC owns the first. -/
theorem handOver_desc {r : TxRing P} {skb : Skb P} {u : Nat} (hpos : 0 < nds b skb)
    (hroom : u + nds b skb ≤ b.nelem)
    (hraw : ∀ {i : Nat} {c : Piece P}, (pieces b skb)[i]? = some c →
      r.desc (slot b.nelem tail (u + i)) = ⟨decide (i = 0), true, c.size, some (c.skb, c.start)⟩) :
    let r' := (r.noMore (slot b.nelem tail (u + (nds b skb - 1)))).giveToDma (slot b.nelem tail u)
    (∀ {i : Nat} {c : Piece P}, (pieces b skb)[i]? = some c →
      r'.desc (slot b.nelem tail (u + i)) = c.desc true) ∧
    ∀ {j : Nat}, j < b.nelem → j < u ∨ u + nds b skb ≤ j →
      r'.desc (slot b.nelem tail j) = r.desc (slot b.nelem tail j) := by
  have hun : u < b.nelem := by omega
  have hlast : u + (nds b skb - 1) < b.nelem := by omega
  refine ⟨fun {i c} hc => ?_, fun {j} hj hout => ?_⟩
  · have hi : i < nds b skb := (List.getElem?_eq_some_iff.mp hc).1
    have hmore : c.more = decide (i + 1 < nds b skb) :=
      (piecesFrom_getElem? b skb 0 skb.len hc).2.2.2
    rw [giveToDma_desc (by omega) hun, noMore_desc (by omega) hlast, hraw hc, Piece.desc, hmore]
    by_cases hi0 : i = 0 <;> by_cases hilast : i + 1 = nds b skb
    · rw [if_pos (by omega), if_pos (by omega), decide_eq_false (by omega : ¬i + 1 < nds b skb)]
      rfl
    · rw [if_pos (by omega), if_neg (by omega), decide_eq_true (by omega : i + 1 < nds b skb)]
      rfl
    · rw [if_neg (by omega), if_pos (by omega), decide_eq_false hi0,
        decide_eq_false (by omega : ¬i + 1 < nds b skb)]
      rfl
    · rw [if_neg (by omega), if_neg (by omega), decide_eq_false hi0,
        decide_eq_true (by omega : i + 1 < nds b skb)]
      rfl
  · rw [giveToDma_desc hj hun, if_neg (by omega), noMore_desc hj hlast, if_neg (by omega)]

/-- **`ag7100_hard_start`** puts the pieces into the slots from the head on. -/
theorem hardStartTx_spec {m : Mac P} {skb : Skb P} {u : Nat} (hlen : 4 < skb.len)
    (hroom : u + nds b skb ≤ b.nelem) (hhead : m.ring.ringHead = slot b.nelem tail u)
    (hfree : ∀ j, u ≤ j → j < u + nds b skb →
      (m.ring.desc (slot b.nelem tail j)).isEmpty = true) :
    ∃ r', (m.hardStartTx b skb =
        let m := { m with ring := r', queued := m.queued ++ [skb] }
        if m.ring.txRingFull b then m.handleTxFull else .ok m) ∧
      r'.ringHead = slot b.nelem tail (u + nds b skb) ∧ r'.ringTail = m.ring.ringTail ∧
      (∀ {i : Nat} {c : Piece P}, (pieces b skb)[i]? = some c →
        r'.desc (slot b.nelem tail (u + i)) = c.desc true) ∧
      (∀ {j : Nat}, j < b.nelem → j < u ∨ u + nds b skb ≤ j →
        r'.desc (slot b.nelem tail j) = m.ring.desc (slot b.nelem tail j)) ∧
      r'.buffer (slot b.nelem tail u) =
        ⟨some skb, slot b.nelem tail (u + (nds b skb - 1)), nds b skb⟩ ∧
      ∀ {j : Nat}, j < b.nelem → j ≠ u →
        r'.buffer (slot b.nelem tail j) = m.ring.buffer (slot b.nelem tail j) := by
  have hpos : 0 < skb.len := by omega
  have hnpos : 0 < nds b skb := length_piecesFrom_pos b skb 0 hpos
  have hun : u < b.nelem := by omega
  have hpieces := piecesFrom_pos b skb 0 hpos
  rw [Nat.zero_add] at hpieces
  have hnds : (piecesFrom b skb (lenThisDs b skb.len) (skb.len - lenThisDs b skb.len)).length + 1 =
      nds b skb := by
    rw [nds, pieces, hpieces, List.length_cons]
  -- the first descriptor, then the loop
  have hget := getTxDs_ok (r := m.ring.setBuffer (slot b.nelem tail u)
    { m.ring.buffer (slot b.nelem tail u) with bufPkt := some skb }) skb 0 skb.len hun hhead
    (hfree u (Nat.le_refl u) (by omega))
  obtain ⟨r₁, hfill, hhead₁, htail₁, hbuffer₁, hdesc₁, hsame₁⟩ := fillTxDs_spec skb
    (lenThisDs b skb.len) (skb.len - lenThisDs b skb.len)
    (r := { (m.ring.setBuffer (slot b.nelem tail u)
        { m.ring.buffer (slot b.nelem tail u) with bufPkt := some skb }).setDesc
          (slot b.nelem tail u) ⟨true, true, lenThisDs b skb.len, some (skb, 0)⟩ with
      ringHead := slot b.nelem tail (u + 1) }) (u := u + 1) (k := 1)
    (Nat.succ_pos _) (by omega) rfl (fun j hj hjn => by
      show ((_ : TxRing P).desc _).isEmpty = true
      rw [setDesc_of_ne (by omega) hun (by omega)]
      exact hfree j (by omega) (by omega))
  rw [Nat.add_right_comm, Nat.add_assoc, hnds] at hhead₁ hfill hsame₁
  rw [Nat.add_sub_cancel, Nat.add_comm 1, hnds, Nat.add_sub_assoc hnpos] at hfill
  have hraw : ∀ {i : Nat} {c : Piece P}, (pieces b skb)[i]? = some c →
      r₁.desc (slot b.nelem tail (u + i)) =
        ⟨decide (i = 0), true, c.size, some (c.skb, c.start)⟩ := by
    intro i c hc
    rw [pieces, hpieces] at hc
    cases i with
    | zero =>
        obtain rfl := Option.some.inj hc
        rw [Nat.add_zero, hsame₁ hun (.inl (Nat.lt_succ_self _))]
        exact setDesc_self _ _
    | succ i =>
        rw [← Nat.add_assoc, Nat.add_right_comm]
        exact hdesc₁ hc
  obtain ⟨hgiven, hkept⟩ := handOver_desc hnpos hroom hraw
  refine ⟨(((r₁.noMore (slot b.nelem tail (u + (nds b skb - 1)))).giveToDma
      (slot b.nelem tail u)).setBuffer (slot b.nelem tail u)
        ⟨some skb, slot b.nelem tail (u + (nds b skb - 1)), nds b skb⟩), ?_, hhead₁, htail₁, hgiven,
    fun {j} hj hout => ?_, setBuffer_self _ _, fun {j} hj hne => ?_⟩
  · have hbuf : (((r₁.noMore (slot b.nelem tail (u + (nds b skb - 1)))).giveToDma
        (slot b.nelem tail u)).buffer (slot b.nelem tail u)).bufPkt = some skb := by
      show (r₁.buffer _).bufPkt = some skb
      rw [hbuffer₁]
      show ((m.ring.setBuffer _ _).buffer _).bufPkt = some skb
      rw [setBuffer_self]
    rw [Mac.hardStartTx, hhead]
    dsimp only
    rw [if_neg (by omega), hget]
    dsimp only
    rw [hfill]
    dsimp only
    rw [hbuf]
  · rw [← setDesc_of_ne (r := m.ring) hj hun (by omega)
      ⟨true, true, lenThisDs b skb.len, some (skb, 0)⟩]
    exact (hkept hj hout).trans (hsame₁ hj (by omega))
  · rw [setBuffer_of_ne hj hun hne]
    show r₁.buffer _ = _
    rw [hbuffer₁]
    exact setBuffer_of_ne hj hun hne _

/-- **A packet more** in the ring. -/
theorem Layout.push {m : Mac P} {skb : Skb P} {d : Nat} {cs : List (Piece P)}
    (h : Layout b m.ring tail m.next cs d) (hlen : 4 < skb.len)
    (hroom : cs.length + nds b skb < b.nelem) :
    ∃ r', Layout b r' tail m.next (cs ++ pieces b skb) d ∧ r'.ringTail = m.ring.ringTail ∧
      m.hardStartTx b skb =
        let m := { m with ring := r', queued := m.queued ++ [skb] }
        if m.ring.txRingFull b then m.handleTxFull else .ok m := by
  obtain ⟨r', heq, hhead, htail, hdesc, hsame, hbuffer, hother⟩ := hardStartTx_spec hlen
    (Nat.le_of_lt hroom) h.head_eq fun j hj hjn => (h.free hj (hjn.trans hroom)).desc
  have hnpos : 0 < nds b skb := length_piecesFrom_pos b skb 0 (by omega)
  have hcount : (cs ++ pieces b skb).length = cs.length + nds b skb := List.length_append
  have hle := h.sent_le
  refine ⟨r', ⟨h.tail_lt, by omega, ?_, h.next_eq, by omega, fun {i c} hi => ?_,
    fun {i} hi hn => ?_⟩, htail, heq⟩
  · rw [hhead, hcount]
  · by_cases hold : i < cs.length
    · rw [List.getElem?_append_left hold] at hi
      obtain ⟨hd, hf, ho⟩ := h.used hi
      rw [← hother (by omega) (by omega)] at hf ho
      refine ⟨?_, hf, ho⟩
      rw [hsame (by omega) (.inl hold), hd]
    · rw [List.getElem?_append_right (Nat.le_of_not_lt hold)] at hi
      have hilt : i - cs.length < nds b skb := (List.getElem?_eq_some_iff.mp hi).1
      obtain ⟨hskb, hstart, -, -⟩ := piecesFrom_getElem? b skb 0 skb.len hi
      have hi' : cs.length + (i - cs.length) = i := Nat.add_sub_cancel' (Nat.le_of_not_lt hold)
      refine ⟨?_, fun h0 => ?_, fun h0 => ?_⟩
      · rw [← hi', hdesc hi, decide_eq_true (by omega)]
      · have hzero : i = cs.length := by
          have := hstart.mp h0
          omega
        rw [hzero, hbuffer, hskb]
      · rw [hother (by omega) fun hzero => h0 (hstart.mpr (by omega))]
        exact (h.free (by omega) (by omega)).buffer
  · have hi' : cs.length + nds b skb ≤ i := hcount ▸ hi
    obtain ⟨hd, hb⟩ := h.free (i := i) (by omega) hn
    refine ⟨?_, ?_⟩
    · rw [hsame hn (.inr (by omega))]
      exact hd
    · rw [hother hn (by omega)]
      exact hb

end Fill

/-! ### The invariant -/

/-- The packets `skbs` are in the ring, `d` of their pieces were sent, and a queue that is not
stopped has room for another packet. -/
structure Inv (b : Build) (m : Mac P) (skbs : List (Skb P)) (d : Nat) : Prop where
  layout : Layout b m.ring m.ring.ringTail m.next (allPieces b skbs) d
  pos : ∀ skb ∈ skbs, 0 < skb.len
  queued : m.queued = m.freed ++ skbs
  sent : m.sent = m.freed ++ ((allPieces b skbs).take d).filterMap Piece.last
  room : m.queueStopped = false → m.ring.txRingFull b = false
  runs : m.stop = none

namespace Inv

variable {m : Mac P} {skbs : List (Skb P)} {d : Nat}

/-- `ag7100_tx_ring_full` -/
theorem txRingFull (h : Layout b m.ring m.ring.ringTail m.next (allPieces b skbs) d) :
    m.ring.txRingFull b = false ↔
      (allPieces b skbs).length + (b.txMaxDescPerDsPkt + 2) ≤ b.nelem := by
  rw [TxRing.txRingFull, h.unused, decide_eq_false_iff_not]
  omega

theorem length_le (hpos : ∀ skb ∈ skbs, 0 < skb.len) : skbs.length ≤ (allPieces b skbs).length := by
  induction skbs with
  | nil => exact Nat.zero_le _
  | cons skb skbs ih =>
      have hone : 0 < (pieces b skb).length :=
        length_piecesFrom_pos b _ _ (hpos skb List.mem_cons_self)
      have hrest : skbs.length ≤ (skbs.flatMap (pieces b)).length :=
        ih fun s hs => hpos s (List.mem_cons_of_mem _ hs)
      rw [allPieces, List.flatMap_cons, List.length_append, List.length_cons]
      omega

/-- **`ag7100_tx_reap`** keeps the invariant. -/
theorem txReap (h : Inv b m skbs d) :
    ∃ m' skbs' d', m.txReap b = .ok m' ∧ Inv b m' skbs' d' ∧
      (m.queueStopped = false → m'.queueStopped = false) := by
  have hfew := length_le (b := b) h.pos
  have hbound := h.layout.bound
  obtain ⟨r', tail', gone, rest, d', hloop, hsplit, hlayout, htake⟩ :=
    reapLoop_spec (k := b.nelem + 1) m.freed (by omega) h.pos h.layout
  have hinv : ∀ {q : Bool},
      (q = false → TxRing.txRingFull b { r' with ringTail := tail' } = false) →
      Inv b { m with ring := { r' with ringTail := tail' }, freed := m.freed ++ gone,
                     queueStopped := q } rest d' := by
    intro q hq
    refine ⟨⟨hlayout.tail_lt, hlayout.bound, hlayout.head_eq, hlayout.next_eq, hlayout.sent_le,
      fun hi => ?_, fun hi hn => ?_⟩, fun s hs => h.pos s ?_, ?_, ?_, hq, h.runs⟩
    · obtain ⟨hdesc, hfirst, hother⟩ := hlayout.used hi
      exact ⟨hdesc, hfirst, hother⟩
    · obtain ⟨hdesc, hbuffer⟩ := hlayout.free hi hn
      exact ⟨hdesc, hbuffer⟩
    · rw [hsplit]
      exact List.mem_append_right _ hs
    · dsimp only
      rw [h.queued, hsplit, List.append_assoc]
    · dsimp only
      rw [h.sent, htake, List.append_assoc]
  have hunused : ndescUnused b.nelem r'.ringHead tail' = b.nelem - (allPieces b rest).length :=
    hlayout.unused
  rw [Mac.txReap, hloop]
  dsimp only
  by_cases hwake : m.queueStopped = true ∧
      b.txQstartThresh ≤ ndescUnused b.nelem r'.ringHead tail' ∧ m.carrier = true
  · rw [if_pos hwake]
    refine ⟨_, rest, d', rfl, hinv fun _ => ?_,
      fun hq => absurd (hq.symm.trans hwake.1) (by decide)⟩
    -- four packets have room where one has
    have hmax := b.txMaxDescPerDsPkt_pos
    have hthresh := hwake.2.1
    rw [TxRing.txRingFull, decide_eq_false_iff_not]
    dsimp only
    rw [Build.txQstartThresh] at hthresh
    omega
  · rw [if_neg hwake]
    refine ⟨_, rest, d', rfl, hinv fun hq => ?_, id⟩
    have hroom := (txRingFull h.layout).mp (h.room hq)
    have hless : (allPieces b skbs).length =
        (allPieces b gone).length + (allPieces b rest).length := by
      rw [hsplit, allPieces, List.flatMap_append, List.length_append]
    rw [TxRing.txRingFull, decide_eq_false_iff_not]
    dsimp only
    rw [hunused]
    omega

/-- **A packet** that needs a descriptor more than the others at most has room. -/
theorem hardStartTx (h : Inv b m skbs d) {skb : Skb P} (hlen : 4 < skb.len)
    (hfew : nds b skb ≤ b.txMaxDescPerDsPkt + 1) (hq : m.queueStopped = false) :
    ∃ m', m.hardStartTx b skb = .ok m' ∧ Inv b m' (skbs ++ [skb]) d := by
  have hroom := (txRingFull h.layout).mp (h.room hq)
  obtain ⟨r', hlayout, htail, heq⟩ := h.layout.push hlen (by omega)
  have hcs : allPieces b skbs ++ pieces b skb = allPieces b (skbs ++ [skb]) := by
    rw [allPieces, allPieces, List.flatMap_append, List.flatMap_singleton]
  rw [hcs, ← htail] at hlayout
  have hinv : ∀ {q : Bool}, (q = false → r'.txRingFull b = false) →
      Inv b { m with ring := r', queued := m.queued ++ [skb], queueStopped := q }
        (skbs ++ [skb]) d := by
    intro q hq
    refine ⟨hlayout, fun s hs => ?_, ?_, ?_, hq, h.runs⟩
    · rcases List.mem_append.mp hs with hs | hs
      · exact h.pos s hs
      · rw [List.mem_singleton.mp hs]
        omega
    · show m.queued ++ [skb] = m.freed ++ (skbs ++ [skb])
      rw [h.queued, List.append_assoc]
    · show m.sent = _
      rw [h.sent, ← hcs, List.take_append_of_le_length h.layout.sent_le]
  rw [heq]
  dsimp only
  by_cases hfull : r'.txRingFull b = true
  · rw [if_pos hfull, Mac.handleTxFull, hq, if_neg Bool.false_ne_true]
    exact ⟨_, rfl, hinv fun h => nomatch h⟩
  · rw [if_neg hfull]
    exact ⟨_, rfl, hinv fun _ => Bool.eq_false_iff.mpr hfull⟩

/-- **`ag7100_hard_start`** keeps the invariant. -/
theorem hardStart (h : Inv b m skbs d) {skb : Skb P} (hlen : 4 < skb.len)
    (hfew : nds b skb ≤ b.txMaxDescPerDsPkt + 1) (hq : m.queueStopped = false) :
    ∃ m' skbs' d', m.hardStart b skb = .ok m' ∧ Inv b m' skbs' d' := by
  rw [Mac.hardStart]
  split
  · exact ⟨_, skbs, d, rfl, ⟨h.layout, h.pos, h.queued, h.sent, h.room, h.runs⟩⟩
  split
  · obtain ⟨m', skbs', d', hreap, hinv, hstill⟩ := h.txReap
    obtain ⟨m'', hstart, hinv'⟩ := hinv.hardStartTx hlen hfew (hstill hq)
    rw [hreap]
    exact ⟨m'', _, d', hstart, hinv'⟩
  · obtain ⟨m', hstart, hinv⟩ := h.hardStartTx hlen hfew hq
    exact ⟨m', _, d, hstart, hinv⟩

/-- **A descriptor that is sent** keeps the invariant. -/
theorem complete (h : Inv b m skbs d) : ∃ d', Inv b (m.complete b) skbs d' := by
  obtain ⟨d', hlayout, hsent, hle⟩ := h.layout.complete
  have hsame : (m.complete b).ring.ringTail = m.ring.ringTail ∧
      (m.complete b).ring.ringHead = m.ring.ringHead ∧
      (m.complete b).queued = m.queued ∧ (m.complete b).freed = m.freed ∧
      (m.complete b).queueStopped = m.queueStopped ∧ (m.complete b).stop = m.stop := by
    unfold Mac.complete
    dsimp only
    split <;> exact ⟨rfl, rfl, rfl, rfl, rfl, rfl⟩
  obtain ⟨htail, hhead, hqueued, hfreed, hstopped, hstop⟩ := hsame
  refine ⟨d', by rwa [htail], h.pos, by rw [hqueued, hfreed, h.queued], ?_, ?_, hstop.trans h.runs⟩
  · have htake : (allPieces b skbs).take d' =
        (allPieces b skbs).take d ++ ((allPieces b skbs).take d').drop d := by
      conv_lhs => rw [← List.take_append_drop d ((allPieces b skbs).take d'), List.take_take,
        Nat.min_eq_left hle]
    rw [hsent, hfreed, h.sent, List.append_assoc, ← List.filterMap_append, ← htake]
  · rw [hstopped, TxRing.txRingFull, hhead, htail]
    exact h.room

end Inv

/-! ### Every run -/

/-- The packets that the buffers of the ring hold, from the tail on. -/
def Mac.held (b : Build) (m : Mac P) : List (Skb P) :=
  (view m.ring.buffer b.nelem m.ring.ringTail).filterMap (·.bufPkt)

/-- No assertion has failed, each packet was freed once or is held, those freed were sent before,
and the head is the tail where nothing is held. -/
structure Safe (b : Build) (m : Mac P) : Prop where
  runs : m.stop = none
  once : m.queued = m.freed ++ m.held b
  sent : m.freed <+: m.sent
  empty : m.ring.ringHead = m.ring.ringTail → m.held b = []

/-- The events of the stack and of the hardware: a packet has 5 bytes to the MTU and 18. -/
def Sends (b : Build) : Event P → Prop
  | .hardStart skb => 5 ≤ skb.len ∧ skb.len ≤ b.mtu + 18
  | .reap | .complete | .checkLink _ | .etherCtrl _ _ _ => True

/-- The link timer does not start the queue of a full ring, and an AR9100 gets no packet of more
than two pieces. -/
def Heeds (b : Build) (m : Mac P) : Event P → Prop
  | .hardStart skb => b.ar9100 = true → nds b skb ≤ 2
  | .checkLink status =>
    m.queueStopped = true → (m.checkLink status).queueStopped = false → m.ring.txRingFull b = false
  | .reap | .complete | .etherCtrl _ _ _ => True

/-- **The packets in the ring** are those its buffers hold. -/
theorem Inv.held_eq {m : Mac P} {skbs : List (Skb P)} {d : Nat} (h : Inv b m skbs d) :
    m.held b = skbs := by
  have hlayout := h.layout
  have hview : (view m.ring.buffer b.nelem m.ring.ringTail).map (·.bufPkt) =
      (allPieces b skbs).map Piece.first ++
        List.replicate (b.nelem - (allPieces b skbs).length) none := by
    refine List.ext_getElem? fun i => ?_
    have hbound := hlayout.bound
    by_cases hi : i < b.nelem
    · rw [List.getElem?_map, getElem?_view hi]
      by_cases hused : i < (allPieces b skbs).length
      · rw [List.getElem?_append_left (by rwa [List.length_map]), List.getElem?_map]
        obtain ⟨c, hc⟩ : ∃ c, (allPieces b skbs)[i]? = some c := ⟨_, List.getElem?_eq_getElem hused⟩
        obtain ⟨-, hfirst, hother⟩ := hlayout.used hc
        rw [hc, Option.map_some, Option.map_some, Piece.first]
        by_cases h0 : c.start = 0
        · rw [hfirst h0, if_pos h0]
        · rw [hother h0, if_neg h0]
      · rw [List.getElem?_append_right (by rw [List.length_map]; omega), List.length_map,
          List.getElem?_replicate, if_pos (by omega), Option.map_some,
          (hlayout.free (by omega) hi).buffer]
    · rw [List.getElem?_eq_none (by simpa using Nat.le_of_not_lt hi),
        List.getElem?_eq_none (by
          rw [List.length_append, List.length_map, List.length_replicate]
          omega)]
  have hfirst : ∀ {skbs : List (Skb P)}, (∀ skb ∈ skbs, 0 < skb.len) →
      (allPieces b skbs).filterMap Piece.first = skbs := by
    intro skbs hpos
    induction skbs with
    | nil => rfl
    | cons skb skbs ih =>
        have hlen := hpos skb List.mem_cons_self
        have hrest := filterMap_first_piecesFrom b skb (0 + lenThisDs b skb.len)
          (skb.len - lenThisDs b skb.len) (by have := lenThisDs_pos b hlen; omega)
        rw [allPieces, List.flatMap_cons, List.filterMap_append, pieces,
          piecesFrom_pos b skb 0 hlen, List.filterMap_cons, hrest]
        exact congrArg _ (ih fun s hs => hpos s (List.mem_cons_of_mem _ hs))
  have hid : (view m.ring.buffer b.nelem m.ring.ringTail).filterMap (·.bufPkt) =
      ((view m.ring.buffer b.nelem m.ring.ringTail).map (·.bufPkt)).filterMap id := by
    rw [List.filterMap_map]
    rfl
  rw [Mac.held, hid, hview, List.filterMap_append, List.filterMap_map]
  simp only [Function.id_comp, List.filterMap_replicate_of_none, id_eq, List.append_nil]
  exact hfirst h.pos

/-- **The invariant is safe.** -/
theorem Inv.safe {m : Mac P} {skbs : List (Skb P)} {d : Nat} (h : Inv b m skbs d) : Safe b m := by
  refine ⟨h.runs, by rw [h.held_eq, h.queued], ⟨_, h.sent.symm⟩, fun heq => ?_⟩
  have hnil := h.layout.head_eq_tail.mp heq.symm
  have hfew := Inv.length_le (b := b) h.pos
  rw [hnil] at hfew
  rw [h.held_eq, List.eq_nil_of_length_eq_zero (Nat.le_zero.mp hfew)]

/-- **Every event keeps the invariant** if it heeds the full ring. -/
theorem inv_step {m : Mac P} {skbs : List (Skb P)} {d : Nat} (h : Inv b m skbs d) (e : Event P)
    (hsends : Sends b e) (hheeds : Heeds b m e) : ∃ skbs' d', Inv b (step b m e) skbs' d' := by
  have hruns : m.stop.isSome = false := by rw [h.runs]; rfl
  unfold step
  rw [hruns, if_neg Bool.false_ne_true]
  cases e with
  | hardStart skb =>
      dsimp only
      by_cases hq : m.queueStopped = true
      · rw [if_pos hq]
        exact ⟨skbs, d, h⟩
      · have hfew : nds b skb ≤ b.txMaxDescPerDsPkt + 1 := by
          cases har : b.ar9100 with
          | true =>
              have hone := b.txMaxDescPerDsPkt_pos
              have htwo := hheeds har
              omega
          | false =>
              have hmtu := b.mtu_le
              have hlen : skb.len ≤ b.mtu + 18 := hsends.2
              exact Nat.le_succ_of_le (nds_le b skb har (by omega))
        obtain ⟨m', skbs', d', hstart, hinv⟩ := h.hardStart hsends.1 hfew (Bool.eq_false_iff.mpr hq)
        rw [if_neg hq, hstart]
        exact ⟨skbs', d', hinv⟩
  | reap =>
      obtain ⟨m', skbs', d', hreap, hinv, -⟩ := h.txReap
      dsimp only
      rw [hreap]
      exact ⟨skbs', d', hinv⟩
  | complete =>
      obtain ⟨d', hinv⟩ := h.complete
      exact ⟨skbs, d', hinv⟩
  | checkLink status =>
      have hsame : (m.checkLink status).ring = m.ring ∧ (m.checkLink status).next = m.next ∧
          (m.checkLink status).queued = m.queued ∧ (m.checkLink status).sent = m.sent ∧
          (m.checkLink status).freed = m.freed ∧ (m.checkLink status).stop = m.stop := by
        unfold Mac.checkLink
        cases status with
        | failed => exact ⟨rfl, rfl, rfl, rfl, rfl, rfl⟩
        | notConnected => exact ⟨rfl, rfl, rfl, rfl, rfl, rfl⟩
        | down =>
            dsimp only
            split <;> exact ⟨rfl, rfl, rfl, rfl, rfl, rfl⟩
        | up speed fdx =>
            dsimp only
            split
            · split <;> exact ⟨rfl, rfl, rfl, rfl, rfl, rfl⟩
            · split <;> exact ⟨rfl, rfl, rfl, rfl, rfl, rfl⟩
      obtain ⟨hring, hnext, hqueued, hsent, hfreed, hstop⟩ := hsame
      refine ⟨skbs, d,
        ⟨by rw [hring, hnext]; exact h.layout, h.pos, by rw [hqueued, hfreed, h.queued],
        by rw [hsent, hfreed, h.sent], fun hq => ?_, hstop.trans h.runs⟩⟩
      rw [hring]
      by_cases hold : m.queueStopped = true
      · exact hheeds hold hq
      · exact h.room (Bool.eq_false_iff.mpr hold)
  | etherCtrl ctrl speed duplex =>
      exact ⟨skbs, d, ⟨h.layout, h.pos, h.queued, h.sent, h.room, h.runs⟩⟩

section Runs

variable {queueStopped carrier : Bool} {macSpeed : PhySpeed} {macFdx : Bool} {ether : EtherCtrl}

theorem inv_txAlloc :
    Inv b (txAlloc queueStopped carrier macSpeed macFdx ether : Mac P) [] 0 := by
  have hpos := b.nelem_pos
  refine ⟨⟨hpos, hpos, (slot_zero hpos).symm, (slot_zero hpos).symm, Nat.le_refl 0,
    fun hi => absurd hi (by simp), fun _ _ => ⟨rfl, rfl⟩⟩, fun skb h => (nomatch h), rfl, rfl,
    fun _ => ?_, rfl⟩
  have hroom := b.add_two_le_nelem
  rw [TxRing.txRingFull, decide_eq_false_iff_not]
  show ¬ndescUnused b.nelem 0 0 < _
  rw [ndescUnused, if_neg (Nat.lt_irrefl 0)]
  omega

/-- **The ring is safe in every state** of a run whose events all heed the full ring. -/
theorem transmit_safe {as : List (Event P)}
    (h : Meets (step b) (fun m e => Sends b e ∧ Heeds b m e)
      (txAlloc queueStopped carrier macSpeed macFdx ether) as) :
    Safe b (runs (step b) (txAlloc queueStopped carrier macSpeed macFdx ether) as) := by
  obtain ⟨skbs, d, hinv⟩ := Meets.invariant (I := fun m => ∃ skbs d, Inv b m skbs d)
    (fun m e ⟨_, _, hm⟩ he => inv_step hm e he.1 he.2) ⟨[], 0, inv_txAlloc⟩ h
  exact hinv.safe

/-- A board with an AR9100, descriptors of 1536 bytes and a ring of 40. -/
def board : Build := ⟨true, 1536, 40, 1500, by decide, by decide⟩

/-- The link is up with 100 Mbps and half duplex. -/
def linked : Mac Nat := txAlloc false true .speed100TX false ⟨true, .speed100TX, false, 0⟩

/-- A packet, what the MAC does, and a packet behind a link that went down and up. -/
def flap : List (Event Nat) :=
  [.hardStart ⟨1, 1514⟩, .complete, .checkLink .down, .reap, .checkLink (.up .speed100TX true),
    .hardStart ⟨2, 60⟩, .complete, .reap]

/-- The ring is filled, and the queue started twice by a change of the duplex mode. -/
def overrun : List (Event Nat) :=
  (List.range 38).map (fun i => .hardStart ⟨i, 60⟩) ++
    [.checkLink (.up .speed100TX true), .hardStart ⟨38, 60⟩,
      .checkLink (.up .speed100TX false), .hardStart ⟨39, 60⟩]

instance Sends.decidable (b : Build) : ∀ e : Event P, Decidable (Sends b e)
  | .hardStart skb => inferInstanceAs (Decidable (5 ≤ skb.len ∧ skb.len ≤ b.mtu + 18))
  | .reap | .complete | .checkLink _ | .etherCtrl _ _ _ => .isTrue trivial

instance Heeds.decidable (b : Build) (m : Mac P) : ∀ e : Event P, Decidable (Heeds b m e)
  | .hardStart skb => inferInstanceAs (Decidable (b.ar9100 = true → nds b skb ≤ 2))
  | .checkLink status => inferInstanceAs (Decidable
      (m.queueStopped = true → (m.checkLink status).queueStopped = false →
        m.ring.txRingFull b = false))
  | .reap | .complete | .etherCtrl _ _ _ => .isTrue trivial

theorem transmit_safe_flap : Safe board (runs (step board) linked flap) :=
  transmit_safe (by decide +kernel)

/-- **The ring overruns** where the timer starts the queue of a full ring: the head meets the tail
with 40 packets outstanding. -/
theorem overrun_unsafe :
    (∀ e ∈ overrun, Sends board e) ∧ ¬Safe board (runs (step board) linked overrun) := by
  refine ⟨by decide, fun h => ?_⟩
  have hmeet : (runs (step board) linked overrun).ring.ringHead =
      (runs (step board) linked overrun).ring.ringTail := by decide +kernel
  have hheld : (runs (step board) linked overrun).held board ≠ [] := by decide +kernel
  exact hheld (h.empty hmeet)

end Runs

end Wap4410n.Ag7100.Tx
