import Wap4410n.Ag7100.Rx

/-!
# Ag7100 — the invariant of the receive ring

From the tail on the ring is slots without a buffer, then buffers with packets, then buffers of the
MAC (`Layout`).  A packet turns a slot of the third kind into one of the second, passing it up turns
that into one of the first, and a new buffer moves the tail on, with a slot of the third kind behind
all others.  A head that meets the tail is a ring with every buffer or with none: which of them is
said by the number of slots of the first kind, and that number is what every place of the driver
bounds (`Inv`).

* `inv_step`: every event keeps the invariant, unless the receive loop takes the last buffer of the
  ring with budget left.
* `recvPackets_last`: then the next turn meets a slot without a buffer.
* `safe_runs`: what holds in every state of a run.
-/

namespace Wap4410n.Ag7100

open CLib Ring

variable {P : Type} {chip : Chip} {m : Mac P}

theorem Chip.pos (chip : Chip) : 0 < chip.nelem := Nat.lt_of_lt_of_le Nat.two_pos chip.two_le

/-! ### Slots -/

namespace Slot

/-- No buffer. -/
def empty : Slot P := ⟨none, false⟩

/-- A buffer with a packet. -/
def filled (p : P) : Slot P := ⟨some (some p), false⟩

/-- A buffer of the MAC. -/
def given : Slot P := ⟨some none, true⟩

end Slot

/-- The slots from the tail on. -/
def slots (n k : Nat) (ps : List P) : List (Slot P) :=
  List.replicate k .empty ++ (ps.map .filled ++ List.replicate (n - k - ps.length) .given)

section Slots

variable {n k : Nat} {ps : List P}

theorem getElem?_slots_empty {i : Nat} (h : i < k) : (slots n k ps)[i]? = some .empty := by
  rw [slots, List.getElem?_append_left (by simpa using h)]
  simp [h]

theorem getElem?_slots_filled {i : Nat} {p : P} (h : ps[i]? = some p) :
    (slots n k ps)[k + i]? = some (.filled p) := by
  have hi : i < ps.length := (List.getElem?_eq_some_iff.mp h).1
  rw [slots, List.getElem?_append_right (by simp), List.length_replicate, Nat.add_sub_cancel_left,
    List.getElem?_append_left (by simpa using hi), List.getElem?_map, h, Option.map_some]

theorem getElem?_slots_given {i : Nat} (h : k + ps.length ≤ i) (hi : i < n) :
    (slots n k ps)[i]? = some .given := by
  rw [slots, List.getElem?_append_right (by simp; omega), List.length_replicate,
    List.getElem?_append_right (by simp; omega), List.length_map, List.getElem?_replicate,
    if_pos (by omega)]

/-- A packet is written into the first buffer of the MAC. -/
theorem slots_receive (h : k + ps.length < n) (p : P) :
    (slots n k ps).set (k + ps.length) (.filled p) = slots n k (ps ++ [p]) := by
  obtain ⟨j, hj⟩ : ∃ j, n - k - ps.length = j + 1 := ⟨n - k - ps.length - 1, by omega⟩
  have hj' : n - k - (ps ++ [p]).length = j := by
    rw [List.length_append, List.length_singleton]
    omega
  rw [slots, slots, hj, hj', List.set_append_right _ _ (by simp), List.length_replicate,
    Nat.add_sub_cancel_left, List.set_append_right _ _ (by simp), List.length_map, Nat.sub_self,
    List.replicate_succ, List.set_cons_zero, List.map_append, List.append_assoc]
  rfl

/-- The first buffer with a packet is taken. -/
theorem slots_take (p : P) :
    (slots n k (p :: ps)).set k .empty = slots n (k + 1) ps := by
  rw [slots, slots, List.set_append_right _ _ (by simp), List.length_replicate, Nat.sub_self,
    List.map_cons, List.cons_append, List.set_cons_zero, List.replicate_succ', List.append_assoc,
    List.length_cons, show n - k - (ps.length + 1) = n - (k + 1) - ps.length by omega]
  rfl

/-- A buffer is put into the first slot, and the slot goes behind the others. -/
theorem slots_replenish (h : k + 1 + ps.length ≤ n) :
    ((slots n (k + 1) ps).set 0 .given).tail ++ [.given] = slots n k ps := by
  rw [slots, slots, List.replicate_succ, List.cons_append, List.set_cons_zero, List.tail_cons,
    List.append_assoc, List.append_assoc,
    show n - k - ps.length = n - (k + 1) - ps.length + 1 by omega, List.replicate_succ']

theorem countP_slots (h : k + ps.length ≤ n) :
    (slots n k ps).countP (fun s => s.bufPkt.isSome) = n - k := by
  have hempty : (List.replicate k (Slot.empty : Slot P)).countP (fun s => s.bufPkt.isSome) = 0 := by
    simp [List.countP_replicate, Slot.empty]
  have hfilled : (ps.map (Slot.filled : P → Slot P)).countP (fun s => s.bufPkt.isSome) =
      ps.length := by
    rw [List.countP_map]
    exact List.countP_eq_length.mpr fun _ _ => rfl
  have hgiven : (List.replicate (n - k - ps.length) (Slot.given : Slot P)).countP
      (fun s => s.bufPkt.isSome) = n - k - ps.length := by
    simp [List.countP_replicate, Slot.given]
  rw [slots, List.countP_append, List.countP_append, hempty, hfilled, hgiven]
  omega

end Slots

/-! ### The layout of a ring -/

/-- The first slot with a buffer: `ring_head`, or the local of the loop. -/
def Mac.head (m : Mac P) : Nat :=
  match m.ctl with
  | .recv head _ _ => head
  | .idle | .scheduled | .oom | .replenish _ _ | .stopped _ => m.ring.ringHead

/-- The first slot to be replenished: `ring_tail`, or the local of the loop. -/
def Mac.tail (m : Mac P) : Nat :=
  match m.ctl with
  | .replenish tail _ => tail
  | .idle | .scheduled | .oom | .recv _ _ _ | .stopped _ => m.ring.ringTail

/-- `k` slots without a buffer, the packets `ps`, and the buffers of the MAC. -/
structure Layout (chip : Chip) (m : Mac P) (head tail k : Nat) (ps : List P) : Prop where
  tail_lt : tail < chip.nelem
  bound : k + ps.length ≤ chip.nelem
  head_eq : head = slot chip.nelem tail k
  next_eq : m.next = slot chip.nelem tail (k + ps.length)
  view_eq : view m.ring.slot chip.nelem tail = slots chip.nelem k ps
  received : m.received.map some = m.delivered ++ ps.map some

namespace Layout

variable {head tail k : Nat} {ps : List P}

theorem slot_eq (h : Layout chip m head tail k ps) {i : Nat} (hi : i < chip.nelem) {s : Slot P}
    (hs : (slots chip.nelem k ps)[i]? = some s) : m.ring.slot (slot chip.nelem tail i) = s := by
  rw [← h.view_eq, getElem?_view hi] at hs
  exact Option.some.inj hs

theorem pending (h : Layout chip m head tail k ps) : m.pending = true ↔ ps ≠ [] := by
  have hlen := congrArg List.length h.received
  rw [List.length_append, List.length_map, List.length_map] at hlen
  rw [Mac.pending, decide_eq_true_iff, hlen, ← List.length_pos_iff]
  omega

/-- The head is the tail where the ring has every buffer or none. -/
theorem head_eq_tail (h : Layout chip m head tail k ps) :
    head = tail ↔ k = 0 ∨ k = chip.nelem := by
  rw [h.head_eq]
  constructor
  · intro he
    by_contra hk
    obtain ⟨hzero, hfull⟩ := not_or.mp hk
    have hbound := h.bound
    have hinj : slot chip.nelem tail k = slot chip.nelem tail 0 := by rw [he, slot_zero h.tail_lt]
    exact hzero ((slot_inj (by omega) chip.pos).mp hinj)
  · rintro (rfl | rfl)
    · exact slot_zero h.tail_lt
    · exact slot_self h.tail_lt

/-- `ag7100_rx_ring_full` -/
theorem rxRingFull (h : Layout chip m m.ring.ringHead m.ring.ringTail k ps) :
    m.rxRingFull = true ↔ k = chip.nelem := by
  have hn := chip.two_le
  have htail : m.ring.slot m.ring.ringTail = m.ring.slot (slot chip.nelem m.ring.ringTail 0) := by
    rw [slot_zero h.tail_lt]
  rw [Mac.rxRingFull, Bool.and_eq_true, decide_eq_true_iff, h.head_eq_tail, htail]
  constructor
  · rintro ⟨rfl | hk, hnone⟩
    · exfalso
      cases ps with
      | nil =>
          rw [h.slot_eq chip.pos (getElem?_slots_given (Nat.zero_le 0) chip.pos)] at hnone
          cases hnone
      | cons p ps =>
          rw [h.slot_eq chip.pos (getElem?_slots_filled (k := 0) (i := 0) rfl)] at hnone
          cases hnone
    · exact hk
  · intro hk
    refine ⟨.inr hk, ?_⟩
    rw [h.slot_eq chip.pos (getElem?_slots_empty (by omega))]
    rfl

end Layout

/-! ### The invariant -/

/-- What the place of the driver says about the slots without a buffer. -/
def Bounds (n k : Nat) (ps : List P) (ringHead : Nat) : Control → Prop
  | .idle | .scheduled => k < n
  | .oom => k = n
  | .recv head quota iquota =>
    0 < iquota ∧ quota ≤ iquota ∧ (quota = iquota → head = ringHead) ∧ (0 < quota → k < n) ∧
      (k = 0 → quota = iquota ∨ (0 < quota ∧ ps ≠ []))
  | .replenish _ (.recv quota iquota) => 0 < k ∧ quota < iquota
  | .replenish _ .oomTimer => 0 < k
  | .stopped why => why = .quota ∨ why = .status

/-- The ring is laid out from the tail on, within the bounds of the place of the driver. -/
def Inv (chip : Chip) (m : Mac P) : Prop :=
  ∃ k ps, Layout chip m m.head m.tail k ps ∧ Bounds chip.nelem k ps m.ring.ringHead m.ctl

/-- The slots that hold a buffer. -/
def Mac.buffers (chip : Chip) (m : Mac P) : Nat :=
  (view m.ring.slot chip.nelem m.ring.ringTail).countP fun s => s.bufPkt.isSome

/-- The receive loop is about to take the last buffer of the ring, with budget left behind it. -/
def Exhausts (chip : Chip) (m : Mac P) : Prop :=
  match m.ctl with
  | .recv head quota _ =>
    1 < quota ∧ (m.ring.slot head).ownedByDma = false ∧ m.buffers chip = 1
  | .idle | .scheduled | .oom | .replenish _ _ | .stopped _ => False

/-- The event does not take the last buffer of the ring while budget is left. -/
def Spares (chip : Chip) (m : Mac P) : Event P → Prop
  | .turn _ _ => ¬ Exhausts chip m
  | .packet _ | .interrupt | .timer | .poll _ _ => True

theorem exhausts_recv {head quota iquota : Nat} (hctl : m.ctl = .recv head quota iquota) :
    Exhausts chip m ↔
      1 < quota ∧ (m.ring.slot head).ownedByDma = false ∧ m.buffers chip = 1 := by
  rw [Exhausts, hctl]

instance Exhausts.decidable (chip : Chip) (m : Mac P) : Decidable (Exhausts chip m) :=
  match h : m.ctl with
  | .recv _ _ _ => decidable_of_iff _ (exhausts_recv h).symm
  | .idle | .scheduled | .oom | .replenish _ _ | .stopped _ =>
    .isFalse (by rw [Exhausts, h]; exact id)

instance Spares.decidable (chip : Chip) (m : Mac P) : ∀ e : Event P, Decidable (Spares chip m e)
  | .turn _ _ => inferInstanceAs (Decidable (¬ Exhausts chip m))
  | .packet _ | .interrupt | .timer | .poll _ _ => .isTrue trivial

/-! ### What the loops do to the layout -/

namespace Layout

variable {head tail k : Nat} {p : P} {ps : List P}

/-- Only the slots, the MAC and the packets are laid out. -/
theorem congr {m' : Mac P} (h : Layout chip m head tail k ps) (hslot : m'.ring.slot = m.ring.slot)
    (hnext : m'.next = m.next) (hreceived : m'.received = m.received)
    (hdelivered : m'.delivered = m.delivered) : Layout chip m' head tail k ps where
  tail_lt := h.tail_lt
  bound := h.bound
  head_eq := h.head_eq
  next_eq := hnext.trans h.next_eq
  view_eq := by rw [hslot, h.view_eq]
  received := by rw [hreceived, hdelivered, h.received]

/-- A slot of the ring gets other contents. -/
theorem view_setSlot (h : Layout chip m head tail k ps) {i : Nat} (hi : i < chip.nelem)
    (s : Slot P) : view (m.setSlot (slot chip.nelem tail i) s).ring.slot chip.nelem tail =
      (slots chip.nelem k ps).set i s := by
  rw [← h.view_eq]
  exact view_update hi s

/-- The MAC fills its next buffer, if it has one. -/
theorem receive (h : Layout chip m head tail k ps) (p : P) :
    ∃ ps', Layout chip (m.receive chip p) head tail k ps' ∧ (ps ≠ [] → ps' ≠ []) := by
  have hbound := h.bound
  by_cases hfull : k + ps.length < chip.nelem
  · have hslot : m.ring.slot m.next = .given := by
      rw [h.next_eq]
      exact h.slot_eq hfull (getElem?_slots_given (Nat.le_refl _) hfull)
    refine ⟨ps ++ [p], ?_, fun _ => by simp⟩
    rw [Mac.receive, hslot]
    exact {
      tail_lt := h.tail_lt
      bound := by rw [List.length_append, List.length_singleton]; omega
      head_eq := h.head_eq
      next_eq := by
        change incr _ m.next = _
        rw [h.next_eq, incr_slot chip.pos, List.length_append, List.length_singleton, Nat.add_assoc]
      view_eq := by
        rw [h.next_eq]
        exact (h.view_setSlot hfull _).trans (slots_receive hfull p)
      received := by
        change (m.received ++ [p]).map some = _
        rw [List.map_append, List.map_append, h.received, List.append_assoc]
        rfl }
  · have hn : k + ps.length = chip.nelem := by omega
    have hnext : m.next = slot chip.nelem tail 0 := by
      rw [h.next_eq, hn, slot_self h.tail_lt, slot_zero h.tail_lt]
    have howned : (m.ring.slot m.next).ownedByDma = false := by
      rw [hnext]
      cases k with
      | zero =>
          obtain ⟨q, qs, rfl⟩ : ∃ q qs, ps = q :: qs := by
            refine List.exists_cons_of_ne_nil fun hnil => ?_
            have := chip.pos
            rw [hnil, List.length_nil] at hn
            omega
          rw [h.slot_eq chip.pos (getElem?_slots_filled (k := 0) (i := 0) rfl)]
          rfl
      | succ k =>
          rw [h.slot_eq chip.pos (getElem?_slots_empty (Nat.succ_pos k))]
          rfl
    refine ⟨ps, ?_, id⟩
    rw [Mac.receive, howned]
    exact h

/-- The receive loop passes the first packet up. -/
theorem take (h : Layout chip m head tail k (p :: ps)) {m' : Mac P}
    (hslot : m'.ring.slot = (m.setSlot head .empty).ring.slot) (hnext : m'.next = m.next)
    (hreceived : m'.received = m.received) (hdelivered : m'.delivered = m.delivered ++ [some p]) :
    Layout chip m' (incr chip.nelem head) tail (k + 1) ps := by
  have hbound := h.bound
  rw [List.length_cons] at hbound
  exact {
    tail_lt := h.tail_lt
    bound := by omega
    head_eq := by rw [h.head_eq, incr_slot chip.pos]
    next_eq := by rw [hnext, h.next_eq, List.length_cons, Nat.add_right_comm, Nat.add_assoc]
    view_eq := by
      rw [hslot, h.head_eq, h.view_setSlot (by omega), slots_take]
    received := by
      rw [hreceived, hdelivered, h.received, List.append_assoc]
      rfl }

/-- `ag7100_rx_replenish` puts a buffer into the first slot without one. -/
theorem replenish (h : Layout chip m head tail (k + 1) ps) :
    Layout chip (m.setSlot tail .given) head (incr chip.nelem tail) k ps := by
  have hbound := h.bound
  exact {
    tail_lt := incr_lt h.tail_lt
    bound := by omega
    head_eq := by rw [h.head_eq, slot_incr h.tail_lt]
    next_eq := by
      change m.next = _
      rw [h.next_eq, slot_incr h.tail_lt, Nat.add_right_comm]
    view_eq := by
      have hview := h.view_setSlot chip.pos Slot.given
      rw [slot_zero h.tail_lt] at hview
      have hself : (m.setSlot tail .given).ring.slot tail = .given := Function.update_self ..
      rw [view_incr h.tail_lt, hview, hself, slots_replenish (by omega)]
    received := h.received }

end Layout

/-! ### One event -/

variable {k : Nat} {ps : List P}

theorem Bounds.mono {n ringHead : Nat} {ps' : List P} {c : Control} (h : Bounds n k ps ringHead c)
    (hps : ps ≠ [] → ps' ≠ []) : Bounds n k ps' ringHead c := by
  cases c with
  | recv head quota iquota =>
      obtain ⟨hpos, hle, hhead, hlt, hzero⟩ := h
      exact ⟨hpos, hle, hhead, hlt, fun hk => (hzero hk).imp_right fun hq => ⟨hq.1, hps hq.2⟩⟩
  | idle | scheduled | oom | stopped => exact h
  | replenish tail caller => cases caller <;> exact h

theorem inv_receive (h : Inv chip m) (p : P) : Inv chip (m.receive chip p) := by
  obtain ⟨k, ps, hlayout, hbounds⟩ := h
  obtain ⟨ps', hlayout', hps⟩ := hlayout.receive p
  have hsame : (m.receive chip p).ctl = m.ctl ∧
      (m.receive chip p).ring.ringHead = m.ring.ringHead ∧
      (m.receive chip p).ring.ringTail = m.ring.ringTail := by
    rw [Mac.receive]
    split <;> exact ⟨rfl, rfl, rfl⟩
  obtain ⟨hctl, hhead, htail⟩ := hsame
  refine ⟨k, ps', ?_, ?_⟩
  · rw [Mac.head, Mac.tail, hctl, hhead, htail]
    exact hlayout'
  · rw [hctl, hhead]
    exact hbounds.mono hps

/-- Places of the driver where the ring is as `ring_head` and `ring_tail` say. -/
theorem inv_ctl {c : Control} (h : Layout chip m m.ring.ringHead m.ring.ringTail k ps)
    (hc : Bounds chip.nelem k ps m.ring.ringHead c)
    (hrecv : ∀ head quota iquota, c = .recv head quota iquota → head = m.ring.ringHead)
    (hreplenish : ∀ tail caller, c = .replenish tail caller → tail = m.ring.ringTail) :
    Inv chip { m with ctl := c } := by
  refine ⟨k, ps, ?_, hc⟩
  cases c with
  | recv head quota iquota =>
      obtain rfl := hrecv head quota iquota rfl
      exact h.congr rfl rfl rfl rfl
  | replenish tail caller =>
      obtain rfl := hreplenish tail caller rfl
      exact h.congr rfl rfl rfl rfl
  | idle | scheduled | oom | stopped => exact h.congr rfl rfl rfl rfl

theorem inv_full (h : Layout chip m m.ring.ringHead m.ring.ringTail k ps) {c : Control}
    (hc : c = .idle ∨ c = .scheduled) :
    Inv chip { m with ctl := if m.rxRingFull then .oom else c } := by
  have hbound := h.bound
  by_cases hfull : m.rxRingFull = true
  · rw [if_pos hfull]
    exact inv_ctl h (h.rxRingFull.mp hfull) nofun nofun
  · have hk : k < chip.nelem := by
      have := mt h.rxRingFull.mpr hfull
      omega
    rw [if_neg hfull]
    obtain rfl | rfl := hc <;> exact inv_ctl h hk nofun nofun

theorem inv_replenished (h : Layout chip m m.ring.ringHead m.ring.ringTail k ps) (shown : Bool)
    {caller : Caller} (hc : ∀ quota iquota, caller = .recv quota iquota → quota < iquota) :
    Inv chip (m.replenished shown caller) := by
  cases caller with
  | oomTimer => exact inv_full h (.inr rfl)
  | recv quota iquota =>
      have hlt := hc quota iquota rfl
      simp only [Mac.replenished]
      split
      · exact inv_full h (.inl rfl)
      · rename_i hmore
        split
        · exact inv_full h (.inr rfl)
        · rename_i hquota
          have hps : ps ≠ [] := by
            rw [Bool.not_eq_false, Bool.and_eq_true] at hmore
            exact h.pending.mp hmore.2
          have hbound := h.bound
          have hlen := List.length_pos_iff.mpr hps
          have hpos : 0 < quota := Nat.pos_of_ne_zero hquota
          refine inv_ctl h ⟨by omega, hlt.le, fun _ => rfl, fun _ => by omega, fun _ => ?_⟩
            (fun _ _ _ he => ?_) nofun
          · exact .inr ⟨hpos, hps⟩
          · cases he
            rfl

theorem inv_replenish {tail : Nat} (h : Layout chip m m.ring.ringHead tail k ps) (hk : 0 < k)
    (alloc shown : Bool) {caller : Caller}
    (hc : ∀ quota iquota, caller = .recv quota iquota → quota < iquota) :
    Inv chip (m.replenish chip alloc shown tail caller) := by
  obtain ⟨k, rfl⟩ : ∃ j, k = j + 1 := ⟨k - 1, by omega⟩
  have hempty : m.ring.slot tail = .empty := by
    have := h.slot_eq chip.pos (getElem?_slots_empty (Nat.succ_pos k))
    rwa [slot_zero h.tail_lt] at this
  have hnext := h.replenish
  unfold Mac.replenish
  dsimp only
  rw [hempty, if_neg (by exact Bool.false_ne_true), if_neg (by exact Bool.false_ne_true)]
  split
  · -- there is no buffer: the tail stays
    have hsame : Layout chip { m with ring := { m.ring with ringTail := tail } }
        m.ring.ringHead tail (k + 1) ps := h.congr rfl rfl rfl rfl
    exact inv_replenished hsame shown hc
  · split
    · rename_i hne
      refine ⟨k, ps, hnext.congr rfl rfl rfl rfl, ?_⟩
      have hpos : 0 < k := by
        have := mt hnext.head_eq_tail.mpr fun he => hne he.symm
        omega
      cases caller with
      | oomTimer => exact hpos
      | recv quota iquota => exact ⟨hpos, hc quota iquota rfl⟩
    · have hsame : Layout chip { m.setSlot tail .given with
          ring := { (m.setSlot tail .given).ring with ringTail := incr chip.nelem tail } }
          m.ring.ringHead (incr chip.nelem tail) k ps := hnext.congr rfl rfl rfl rfl
      exact inv_replenished hsame shown hc

theorem inv_recvDone {head quota iquota : Nat} (h : Layout chip m head m.ring.ringTail k ps)
    (hb : Bounds chip.nelem k ps m.ring.ringHead (.recv head quota iquota))
    (hq : k = 0 → quota = iquota) : Inv chip (m.recvDone head quota iquota) := by
  obtain ⟨hpos, hle, hhead, -, -⟩ := hb
  unfold Mac.recvDone
  split
  · rename_i heq
    obtain rfl := hhead heq.symm
    exact inv_ctl h (.inl rfl) nofun nofun
  · rename_i hne
    refine ⟨k, ps, h.congr rfl rfl rfl rfl, ?_, by omega⟩
    exact Nat.pos_of_ne_zero fun hk => hne (hq hk).symm

/-- **A turn of the receive loop**, unless it takes the last buffer with budget left. -/
theorem inv_recvPackets {head quota iquota : Nat} (hctl : m.ctl = .recv head quota iquota)
    (h : Inv chip m) (hspare : ¬ Exhausts chip m) :
    Inv chip (m.recvPackets chip head quota iquota) := by
  obtain ⟨k, ps, hlayout, hbounds⟩ := h
  rw [Mac.head, Mac.tail, hctl] at hlayout
  dsimp only at hlayout
  rw [hctl] at hbounds
  have hdone := inv_recvDone hlayout hbounds
  obtain ⟨hpos, hle, hhead, hlt, hzero⟩ := hbounds
  have hbound := hlayout.bound
  unfold Mac.recvPackets
  split
  · rename_i hquota
    refine hdone fun hk => (hzero hk).resolve_right fun hq => ?_
    omega
  · rename_i hquota
    have hk := hlt (Nat.pos_of_ne_zero hquota)
    cases ps with
    | nil =>
        have hgiven : m.ring.slot head = .given := by
          rw [hlayout.head_eq]
          exact hlayout.slot_eq hk (getElem?_slots_given (Nat.le_refl k) hk)
        rw [hgiven]
        dsimp only
        rw [if_pos (by rfl)]
        split
        · rename_i heq
          obtain rfl := hhead heq
          exact inv_ctl hlayout (.inl rfl) nofun nofun
        · exact hdone fun hk => (hzero hk).resolve_right fun hq => hq.2 rfl
    | cons p ps =>
        have hfilled : m.ring.slot head = .filled p := by
          rw [hlayout.head_eq]
          exact hlayout.slot_eq hk (getElem?_slots_filled (i := 0) rfl)
        rw [List.length_cons] at hbound
        rw [hfilled]
        dsimp only
        rw [if_neg (by exact Bool.false_ne_true)]
        refine ⟨k + 1, ps, hlayout.take rfl rfl rfl rfl, by omega, by omega, fun h => by omega,
          fun hq => ?_, nofun⟩
        by_contra hlast
        have hcount : m.buffers chip = 1 := by
          rw [Mac.buffers, hlayout.view_eq, countP_slots (by simpa using hlayout.bound)]
          omega
        refine hspare ((exhausts_recv hctl).mpr ⟨by omega, ?_, hcount⟩)
        rw [hfilled]
        rfl

/-- **One event.** -/
theorem inv_step (h : Inv chip m) (e : Event P) (hspare : Spares chip m e) :
    Inv chip (step chip m e) := by
  have hring : ∀ {m : Mac P}, Inv chip m → (m.ctl = .idle ∨ m.ctl = .scheduled ∨ m.ctl = .oom) →
      ∃ k ps, Layout chip m m.ring.ringHead m.ring.ringTail k ps ∧
        Bounds chip.nelem k ps m.ring.ringHead m.ctl := by
    rintro m ⟨k, ps, hlayout, hbounds⟩ hctl
    refine ⟨k, ps, ?_, hbounds⟩
    obtain hc | hc | hc := hctl <;> rw [Mac.head, Mac.tail, hc] at hlayout <;> exact hlayout
  cases e with
  | packet p => exact inv_receive h p
  | interrupt =>
      simp only [step]
      split
      · rename_i hctl
        obtain ⟨k, ps, hlayout, hbounds⟩ := hring h (.inl hctl)
        rw [hctl] at hbounds
        exact inv_ctl hlayout hbounds nofun nofun
      · exact h
  | timer =>
      simp only [step]
      split
      · rename_i hctl
        obtain ⟨k, ps, hlayout, hbounds⟩ := hring h (.inr (.inr hctl))
        rw [hctl] at hbounds
        have hk : 0 < k := by
          rw [show k = chip.nelem from hbounds]
          exact chip.pos
        exact inv_ctl hlayout hk nofun fun _ _ he => by cases he; rfl
      · exact h
  | poll quota shown =>
      simp only [step]
      split
      · rename_i hctl
        obtain ⟨hctl, hquota⟩ := hctl
        obtain ⟨k, ps, hlayout, hbounds⟩ := hring h (.inr (.inl hctl))
        rw [hctl] at hbounds
        unfold Mac.poll
        split
        · exact inv_ctl hlayout (.inr rfl) nofun nofun
        · exact inv_ctl hlayout ⟨hquota, Nat.le_refl _, fun _ => rfl, fun _ => hbounds,
            fun _ => .inl rfl⟩ (fun _ _ _ he => by cases he; rfl) nofun
      · exact h
  | turn alloc shown =>
      simp only [step]
      split
      · rename_i hctl
        exact inv_recvPackets hctl h hspare
      · rename_i tail caller hctl
        obtain ⟨k, ps, hlayout, hbounds⟩ := h
        rw [Mac.head, Mac.tail, hctl] at hlayout
        rw [hctl] at hbounds
        cases caller with
        | oomTimer => exact inv_replenish hlayout hbounds alloc shown nofun
        | recv quota iquota =>
            refine inv_replenish hlayout hbounds.1 alloc shown fun q iq he => ?_
            cases he
            exact hbounds.2
      all_goals exact h

/-! ### Every state of a run -/

/-- The ring between its cursors, and what was passed up. -/
structure Safe (chip : Chip) (m : Mac P) : Prop where
  /-- no slot without a buffer is received from, and none with a buffer is replenished -/
  met : m.ctl ≠ .stopped .skb ∧ m.ctl ≠ .stopped .bufPkt ∧ m.ctl ≠ .stopped .owned
  /-- from the tail up to the head there are no buffers, and from the head on there are only
  buffers -/
  slots : ∃ k, k ≤ chip.nelem ∧ m.head = slot chip.nelem m.tail k ∧
    (∀ i, i < k → (m.ring.slot (slot chip.nelem m.tail i)).bufPkt = none ∧
      (m.ring.slot (slot chip.nelem m.tail i)).ownedByDma = false) ∧
    ∀ i, k ≤ i → i < chip.nelem →
      (m.ring.slot (slot chip.nelem m.tail i)).bufPkt.isSome = true
  /-- the packets passed up are those received first, in order -/
  delivered : m.delivered = (m.received.take m.delivered.length).map some
  /-- the others are in the ring, from the head on -/
  held : ∀ i p, (m.received.drop m.delivered.length)[i]? = some p →
    m.ring.slot (slot chip.nelem m.head i) = .filled p

theorem Inv.safe (h : Inv chip m) : Safe chip m := by
  obtain ⟨k, ps, hlayout, hbounds⟩ := h
  have hbound := hlayout.bound
  have hlen : m.delivered.length ≤ m.received.length := by
    have := congrArg List.length hlayout.received
    simp only [List.length_append, List.length_map] at this
    omega
  have hdelivered : m.delivered = (m.received.take m.delivered.length).map some := by
    rw [List.map_take, hlayout.received, List.take_left]
  have hheld : m.received.drop m.delivered.length = ps := by
    have hmap : (m.received.drop m.delivered.length).map some = ps.map some := by
      rw [List.map_drop, hlayout.received, List.drop_left]
    exact List.map_injective_iff.mpr (Option.some_injective P) hmap
  refine ⟨?_, ⟨k, by omega, hlayout.head_eq, fun i hi => ?_, fun i hk hi => ?_⟩, hdelivered,
    fun i p hp => ?_⟩
  · refine ⟨fun hc => ?_, fun hc => ?_, fun hc => ?_⟩ <;> rw [hc] at hbounds <;>
      obtain h | h := hbounds <;> cases h
  · rw [hlayout.slot_eq (by omega) (getElem?_slots_empty hi)]
    exact ⟨rfl, rfl⟩
  · by_cases hlt : i < k + ps.length
    · obtain ⟨j, rfl⟩ := Nat.exists_eq_add_of_le hk
      have hj : ps[j]? = some ps[j] := List.getElem?_eq_getElem (by omega)
      rw [hlayout.slot_eq hi (getElem?_slots_filled hj)]
      rfl
    · rw [hlayout.slot_eq hi (getElem?_slots_given (Nat.le_of_not_lt hlt) hi)]
      rfl
  · rw [hheld] at hp
    have hi : i < ps.length := (List.getElem?_eq_some_iff.mp hp).1
    have hslot : slot chip.nelem m.head i = slot chip.nelem m.tail (k + i) := by
      rw [hlayout.head_eq, slot, slot, slot, Nat.mod_add_mod, Nat.add_assoc]
    rw [hslot, hlayout.slot_eq (by omega) (getElem?_slots_filled hp)]

/-- The ring as it is allocated. -/
theorem inv_rxAlloc (chip : Chip) : Inv chip (rxAlloc : Mac P) := by
  refine ⟨0, [], ?_, chip.pos⟩
  exact {
    tail_lt := chip.pos
    bound := Nat.zero_le _
    head_eq := (slot_zero chip.pos).symm
    next_eq := (slot_zero chip.pos).symm
    view_eq := by
      change (List.range chip.nelem).map (fun _ => Slot.given) = _
      rw [List.map_const', List.length_range]
      rfl
    received := rfl }

/-- **The receive ring** is sound in every state of a run in which the receive loop takes the last
buffer of the ring only with the last of its budget. -/
theorem safe_runs (chip : Chip) (es es' : List (Event P))
    (h : Meets (step chip) (Spares chip) rxAlloc (es ++ es')) :
    Safe chip (runs (step chip) rxAlloc es) := by
  have hinv : Inv chip (runs (step chip) rxAlloc es) :=
    Meets.invariant_prefix (I := Inv chip) (fun _ e hm => inv_step hm e) (inv_rxAlloc chip) h
  exact hinv.safe

/-- A turn that takes the last buffer with budget left leads to a slot without one. -/
theorem recvPackets_last {head quota iquota : Nat} (h : Inv chip m)
    (hctl : m.ctl = .recv head quota iquota) (hlast : Exhausts chip m) (alloc shown : Bool) :
    (runs (step chip) m [.turn alloc shown, .turn alloc shown]).ctl = .stopped .skb := by
  obtain ⟨k, ps, hlayout, hbounds⟩ := h
  obtain ⟨hquota, howned, hcount⟩ := (exhausts_recv hctl).mp hlast
  rw [Mac.head, Mac.tail, hctl] at hlayout
  dsimp only at hlayout
  have hbound := hlayout.bound
  have hk : k + 1 = chip.nelem := by
    rw [Mac.buffers, hlayout.view_eq, countP_slots hbound] at hcount
    omega
  have hslot : m.ring.slot head = m.ring.slot (slot chip.nelem m.ring.ringTail k) := by
    rw [hlayout.head_eq]
  cases ps with
  | nil =>
      rw [hslot, hlayout.slot_eq (by omega) (getElem?_slots_given (Nat.le_refl k) (by omega))]
        at howned
      cases howned
  | cons p ps =>
      have hfilled : m.ring.slot head = .filled p := by
        rw [hslot]
        exact hlayout.slot_eq (by omega) (getElem?_slots_filled (i := 0) rfl)
      have hfirst : ∃ m', step chip m (.turn alloc shown) = m' ∧
          m'.ctl = .recv (incr chip.nelem head) (quota - 1) iquota ∧
          Layout chip m' (incr chip.nelem head) m.ring.ringTail (k + 1) ps := by
        refine ⟨_, rfl, ?_, ?_⟩ <;> simp only [step, hctl, Mac.recvPackets, hfilled] <;>
          rw [if_neg (by omega), if_neg (by exact Bool.false_ne_true)]
        · rfl
        · refine hlayout.take ?_ ?_ ?_ ?_ <;> rfl
      obtain ⟨m', hstep, hctl', hlayout'⟩ := hfirst
      have hempty : m'.ring.slot (incr chip.nelem head) = .empty := by
        rw [hlayout'.head_eq, hk, slot_self hlayout'.tail_lt, ← slot_zero hlayout'.tail_lt]
        exact hlayout'.slot_eq chip.pos (getElem?_slots_empty (Nat.succ_pos k))
      rw [runs_cons, runs_cons, runs_nil, hstep]
      simp only [step, hctl', Mac.recvPackets, hempty]
      rw [if_neg (by omega), if_neg (by exact Bool.false_ne_true)]
      rfl

/-- Two slots of which one is not replenished, and a poll that may take two packets. -/
theorem recvPackets_no_buffer : ¬ Safe ⟨true, 2, Nat.le_refl 2⟩
    (runs (step ⟨true, 2, Nat.le_refl 2⟩) (rxAlloc : Mac Nat)
      [.packet 1, .interrupt, .poll 2 true, .turn true true, .turn true true, .turn false true,
        .packet 2, .interrupt, .poll 2 true, .turn true true, .turn true true]) :=
  fun h => h.met.1 (by decide)

/-- The same polls with a budget of one packet. -/
theorem safe_runs_one : Safe ⟨true, 2, Nat.le_refl 2⟩
    (runs (step ⟨true, 2, Nat.le_refl 2⟩) (rxAlloc : Mac Nat)
      [.packet 1, .interrupt, .poll 1 true, .turn true true, .turn true true, .turn false true,
        .packet 2, .interrupt, .poll 1 true, .turn true true, .turn true true]) :=
  safe_runs ⟨true, 2, Nat.le_refl 2⟩ _ [] (by decide)

end Wap4410n.Ag7100
