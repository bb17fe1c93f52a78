import Wap4410n.Ag7100.TxInvariant

/-!
# Ag7100 — the descriptors of a packet

`ag7100_get_tx_ds` takes `tx_len_per_ds` bytes of a packet at a time, and four bytes less where one
to four bytes would be left for the last descriptor.  `ag7100_init` computes how many descriptors a
packet takes at most; on an AR9100 it is one, whatever the length of a descriptor.

* `segmented_iff`: the descriptors `ag7100_hard_start` fills cover the packet one behind the other,
  none of them is too short or too long, and they are as few as computed, just when the chip is no
  AR9100 or the packet fits into one descriptor.
-/

namespace Wap4410n.Ag7100.Tx

open CLib Ring

variable {P : Type} {b : Build}

/-! ### The descriptors of a packet -/

/-- The descriptors of the packet whose buffer is at `head`: `buf_nds` from there on. -/
def filled (b : Build) (r : TxRing P) (head : Nat) : List (Desc P) :=
  (List.range (r.buffer head).bufNds).map fun i => r.desc (slot b.nelem head i)

/-- From `start` on, each descriptor begins where the one before it ends, and the last one ends with
the packet. -/
def Covers (skb : Skb P) : Nat → List (Desc P) → Prop
  | start, [] => start = skb.len
  | start, ds :: dss => ds.pktStart = some (skb, start) ∧ Covers skb (start + ds.pktSize) dss

/-- The descriptors are those a packet is to be cut into. -/
structure Segmented (b : Build) (skb : Skb P) (dss : List (Desc P)) : Prop where
  covers : Covers skb 0 dss
  size : ∀ ds ∈ dss, 4 < ds.pktSize ∧ ds.pktSize ≤ b.txLenPerDs
  few : dss.length ≤ b.txMaxDescPerDsPkt

/-- `ag7100_hard_start` fills such descriptors. -/
def SendsSegmented (b : Build) (m : Mac P) (skb : Skb P) : Prop :=
  ∃ m', m.hardStartTx b skb = .ok m' ∧ Segmented b skb (filled b m'.ring m.ring.ringHead)

/-- The ring is not full: as many descriptors from the head on are free as a packet takes at most,
and the queue is not stopped. -/
structure Ready (b : Build) (m : Mac P) : Prop where
  head_lt : m.ring.ringHead < b.nelem
  queue : m.queueStopped = false
  free : ∀ j < b.txMaxDescPerDsPkt,
    (m.ring.desc (slot b.nelem m.ring.ringHead j)).isEmpty = true

/-! ### The pieces of a packet -/

section Pieces

variable (b) (skb : Skb P)

/-- **The pieces** cover the packet. -/
theorem covers_piecesFrom : ∀ start len, start + len = skb.len →
    Covers skb start ((piecesFrom b skb start len).map (·.desc true)) := by
  refine piecesFrom_induction b (fun start h => ?_) fun start len hlen ih h => ?_
  · rw [piecesFrom_zero]
    exact h
  · have hle := lenThisDs_le (b := b) len
    rw [piecesFrom_pos b skb _ hlen, List.map_cons]
    exact ⟨rfl, ih (by omega)⟩

/-- **No piece is tiny**: the remainder that a shorter one leaves is longer than four bytes
again. -/
theorem size_piecesFrom : ∀ start len, 4 < len →
    ∀ c ∈ piecesFrom b skb start len, 4 < c.size ∧ c.size ≤ b.txLenPerDs := by
  refine piecesFrom_induction b
    (fun _ h => absurd h (by decide)) fun start len hpos ih hlen c hc => ?_
  have hmin := b.txLenPerDs_ge
  have hthis : 4 < lenThisDs b len ∧ lenThisDs b len ≤ b.txLenPerDs ∧
      (lenThisDs b len = len ∨ 4 < len - lenThisDs b len) := by
    unfold lenThisDs
    split
    · split <;> omega
    · omega
  obtain ⟨hgt, hle, hrest⟩ := hthis
  rw [piecesFrom_pos b skb _ hpos] at hc
  rcases List.mem_cons.mp hc with rfl | hc
  · exact ⟨hgt, hle⟩
  · rcases hrest with hend | hrest
    · rw [hend, Nat.sub_self, piecesFrom_zero] at hc
      exact absurd hc List.not_mem_nil
    · exact ih hrest c hc

/-- A packet that fits into a descriptor is one piece, and any other more. -/
theorem nds_le_one_iff (h : 0 < skb.len) : nds b skb ≤ 1 ↔ skb.len ≤ b.txLenPerDs := by
  have hmin := b.txLenPerDs_ge
  rw [nds, pieces, piecesFrom_pos b skb 0 h, List.length_cons]
  by_cases hfit : skb.len ≤ b.txLenPerDs
  · have hone : lenThisDs b skb.len = skb.len := if_neg (Nat.not_lt.mpr hfit)
    rw [hone, Nat.sub_self, piecesFrom_zero]
    exact iff_of_true (Nat.le_refl 1) hfit
  · have hrest : 0 < skb.len - lenThisDs b skb.len := by
      unfold lenThisDs
      split
      · split <;> omega
      · omega
    have hmore := length_piecesFrom_pos b skb (0 + lenThisDs b skb.len) hrest
    exact iff_of_false (by omega) hfit

/-- As few as computed. -/
theorem nds_le_iff (hpos : 0 < skb.len) (hlen : skb.len ≤ 2048) :
    nds b skb ≤ b.txMaxDescPerDsPkt ↔ (b.ar9100 = true → skb.len ≤ b.txLenPerDs) := by
  cases har : b.ar9100 with
  | false => exact iff_of_true (nds_le b skb har hlen) (fun h => nomatch h)
  | true =>
      have hmax : b.txMaxDescPerDsPkt = 1 := if_pos har
      rw [hmax, nds_le_one_iff b skb hpos]
      exact ⟨fun h _ => h, fun h => h rfl⟩

end Pieces

/-! ### What `ag7100_hard_start` fills -/

/-- The loop counts the pieces. -/
theorem fillTxDs_count (skb : Skb P) : ∀ start len, ∀ {r r' : TxRing P} {ds ds' k n : Nat},
    fillTxDs b skb r start len ds k = .ok (r', ds', n) →
    n = k + (piecesFrom b skb start len).length := by
  refine piecesFrom_induction b (fun start r r' ds ds' k n h => ?_)
    fun start len hlen ih r r' ds ds' k n h => ?_
  · rw [fillTxDs, dif_pos rfl] at h
    cases h
    rw [piecesFrom_zero]
    rfl
  · rw [fillTxDs, dif_neg (Nat.ne_of_gt hlen)] at h
    cases hget : getTxDs b r skb start len with
    | error why =>
        rw [hget] at h
        cases h
    | ok r₁ =>
        rw [hget] at h
        rw [ih h, piecesFrom_pos b skb _ hlen, List.length_cons]
        omega

/-- What `ag7100_handle_tx_full` leaves of the ring. -/
theorem handleTxFull_ring {m m' : Mac P} (h : m.handleTxFull = .ok m') : m'.ring = m.ring := by
  unfold Mac.handleTxFull at h
  split at h
  · cases h
  · cases h
    rfl

/-- Where the call returns, the buffer has the number of the pieces. -/
theorem hardStartTx_nds {m m' : Mac P} {skb : Skb P} (h : m.hardStartTx b skb = .ok m') :
    (m'.ring.buffer m.ring.ringHead).bufNds = nds b skb := by
  unfold Mac.hardStartTx at h
  dsimp only at h
  by_cases hlen : skb.len ≤ 4
  · rw [if_pos hlen] at h
    cases h
  rw [if_neg hlen] at h
  have hpos : 0 < skb.len := by omega
  split at h
  · cases h
  · rename_i r₁ hget
    split at h
    · cases h
    · rename_i r₂ ds n hfill
      have hcount : n = nds b skb := by
        rw [fillTxDs_count skb _ _ hfill, nds, pieces, piecesFrom_pos b skb 0 hpos,
          List.length_cons, Nat.zero_add, Nat.add_comm]
      have hbuffer : ∀ r : TxRing P, ((r.setBuffer m.ring.ringHead
          { r.buffer m.ring.ringHead with bufLastds := ds, bufNds := n }).buffer
            m.ring.ringHead).bufNds = n := fun r => by
        rw [setBuffer_self]
      split at h
      · rw [handleTxFull_ring h, hbuffer, hcount]
      · cases h
        rw [hbuffer, hcount]

/-- **The descriptors filled** are the pieces, where they are free. -/
theorem filled_pieces {m : Mac P} {skb : Skb P} (hm : Ready b m) (hlen : 4 < skb.len)
    (hfew : nds b skb ≤ b.txMaxDescPerDsPkt) :
    ∃ m', m.hardStartTx b skb = .ok m' ∧
      filled b m'.ring m.ring.ringHead = (pieces b skb).map (·.desc true) := by
  have hroom := b.add_two_le_nelem
  have hslot := slot_zero hm.head_lt
  obtain ⟨r', hstart, -, -, hdesc, -, hbuffer, -⟩ :=
    hardStartTx_spec hlen (by omega) hslot.symm fun j _ hj => hm.free j (by omega)
  rw [hslot] at hbuffer
  have hfilled : filled b r' m.ring.ringHead = (pieces b skb).map (·.desc true) := by
    rw [filled, hbuffer]
    refine List.ext_getElem? fun i => ?_
    rw [List.getElem?_map, List.getElem?_map]
    by_cases hi : i < nds b skb
    · obtain ⟨c, hc⟩ : ∃ c, (pieces b skb)[i]? = some c := ⟨_, List.getElem?_eq_getElem hi⟩
      have hslot := hdesc hc
      rw [Nat.zero_add] at hslot
      rw [List.getElem?_range hi, hc, Option.map_some, Option.map_some, hslot]
    · rw [List.getElem?_eq_none (by rw [List.length_range]; exact Nat.le_of_not_lt hi),
        List.getElem?_eq_none (Nat.le_of_not_lt hi)]
      rfl
  rw [hstart]
  dsimp only
  split
  · refine ⟨_, if_neg ?_, hfilled⟩
    rw [hm.queue]
    exact Bool.false_ne_true
  · exact ⟨_, rfl, hfilled⟩

/-- **Segmentation is sound** just where the chip has more than one descriptor for a packet, or the
packet fits into one. -/
theorem segmented_iff (m : Mac P) (skb : Skb P) (hm : Ready b m) (hlen : 5 ≤ skb.len)
    (hmax : skb.len ≤ 2048) :
    SendsSegmented b m skb ↔ (b.ar9100 = true → skb.len ≤ b.txLenPerDs) := by
  rw [← nds_le_iff b skb (by omega) hmax]
  constructor
  · rintro ⟨m', hstart, hseg⟩
    have hfew := hseg.few
    rwa [filled, List.length_map, List.length_range, hardStartTx_nds hstart] at hfew
  · intro hfew
    obtain ⟨m', hstart, hfilled⟩ := filled_pieces hm hlen hfew
    refine ⟨m', hstart, ?_, ?_, ?_⟩
    · rw [hfilled]
      exact covers_piecesFrom b skb 0 skb.len (Nat.zero_add _)
    · rw [hfilled]
      intro ds hds
      obtain ⟨c, hc, rfl⟩ := List.mem_map.mp hds
      exact size_piecesFrom b skb 0 skb.len hlen c hc
    · rwa [hfilled, List.length_map]

/-- A board with an AR9100 whose descriptors are to take 512 bytes. -/
def shortBoard : Build := { board with givenLenPerDs := 512 }

/-- A ring as allocated is ready. -/
theorem ready_linked (b : Build) : Ready b linked := ⟨b.nelem_pos, rfl, fun _ _ => rfl⟩

theorem segmented_iff_short : SendsSegmented shortBoard linked ⟨1, 500⟩ :=
  (segmented_iff linked ⟨1, 500⟩ (ready_linked shortBoard) (by decide) (by decide)).mpr fun _ => by
    decide

/-- **One descriptor is computed, and two are filled.** -/
theorem short_not_segmented :
    Ready shortBoard linked ∧ ¬SendsSegmented shortBoard linked ⟨1, 600⟩ := by
  refine ⟨ready_linked shortBoard, ?_⟩
  rintro ⟨m', hstart, hseg⟩
  have hfew : nds shortBoard (⟨1, 600⟩ : Skb Nat) ≤ 1 := by
    have hlength := hseg.few
    rwa [filled, List.length_map, List.length_range, hardStartTx_nds hstart] at hlength
  have hfit := (nds_le_one_iff shortBoard _ (by decide)).mp hfew
  exact absurd hfit (by decide)

end Wap4410n.Ag7100.Tx
