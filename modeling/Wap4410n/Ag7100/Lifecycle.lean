import Wap4410n.Ag7100.TxInvariant

/-!
# Ag7100 — the life of the transmit ring

The ring is allocated when the device is opened (`ag7100_open`) and freed when it is stopped
(`ag7100_stop`), with the packets that it still holds.  The watchdog of a stopped queue has the work
`ag7100_tx_timeout_task` scheduled, which stops the device and opens it again; it neither looks
whether the device was stopped meanwhile, nor whether it could be opened.

* `ringRelease_perm`: what `ag7100_ring_release` frees is what the ring holds.
* `conserves_runs`: over any number of lives, each packet of the stack is freed once or is held.
* `freedTwice_of_stopped`: the work that runs behind a stop frees the ring twice.
-/

namespace Wap4410n.Ag7100.Tx

open CLib CLib.Ring

variable {P : Type} {b : Build}

/-! ### The device -/

/-- The device over its lives.  `queued` and `freed` are those of the rings that were freed. -/
structure Device (P : Type) where
  mac : Mac P
  /-- `IFF_UP` -/
  up : Bool
  /-- `mac_tx_timeout` -/
  scheduled : Bool
  /-- the ring is allocated -/
  allocated : Bool
  queued : List (Skb P)
  freed : List (Skb P)
  /-- a ring was freed that was not allocated -/
  freedTwice : Bool

/-- What happens to the device. -/
inductive DeviceEvent (P : Type) where
  | mac (e : Event P)
  /-- the stack opens the device; `allocates` where memory for the rings is found -/
  | ifUp (allocates : Bool) (status : LinkStatus)
  | ifDown
  /-- `ag7100_tx_timeout` -/
  | txTimeout
  /-- `ag7100_tx_timeout_task` -/
  | txTimeoutTask (allocates : Bool) (status : LinkStatus)
deriving DecidableEq

/-- `ag7100_ring_release` of the transmit ring -/
def TxRing.ringRelease (b : Build) (r : TxRing P) : List (Skb P) :=
  (List.range b.nelem).filterMap fun i => (r.buffer i).bufPkt

/-- A file of `/proc` is there, too, when the device is not. -/
def Event.needsRing : Event P → Bool
  | .etherCtrl _ _ _ => false
  | .hardStart _ | .reap | .complete | .checkLink _ => true

namespace Device

variable (b) (d : Device P)

/-- `ag7100_stop` -/
def stop : Device P :=
  let mac := { d.mac with queueStopped := true, carrier := false }
  if d.allocated then
    { d with
      mac := mac
      allocated := false
      queued := d.queued ++ d.mac.queued
      freed := d.freed ++ (d.mac.freed ++ d.mac.ring.ringRelease b) }
  else { d with mac := mac, freedTwice := true }

/-- `ag7100_open`, with the first call of `ag7100_check_link`; without memory everything is freed
again. -/
def openRing (allocates : Bool) (status : LinkStatus) : Device P :=
  if allocates then
    { d with
      mac := (txAlloc d.mac.queueStopped d.mac.carrier d.mac.macSpeed d.mac.macFdx
        d.mac.ether).checkLink status
      allocated := true }
  else d

/-- One event; it does nothing where it cannot happen. -/
def step (e : DeviceEvent P) : Device P :=
  if d.mac.stop.isSome then d
  else
    match e with
    | .mac e => if e.needsRing ∧ ¬ d.allocated then d else { d with mac := Tx.step b d.mac e }
    | .ifUp allocates status =>
      if d.up then d
      else { d.openRing allocates status with up := allocates }
    | .ifDown => if d.up then { d.stop b with up := false } else d
    | .txTimeout =>
      if d.up ∧ d.mac.carrier ∧ d.mac.queueStopped then { d with scheduled := true } else d
    | .txTimeoutTask allocates status =>
      if d.scheduled then { (d.stop b).openRing allocates status with scheduled := false } else d

/-- The device before it is opened first. -/
def init (macSpeed : PhySpeed) (macFdx : Bool) (ether : EtherCtrl) : Device P where
  mac := txAlloc false false macSpeed macFdx ether
  up := false
  scheduled := false
  allocated := false
  queued := []
  freed := []
  freedTwice := false

/-- The packets that the ring holds. -/
def held : List (Skb P) := if d.allocated then d.mac.held b else []

/-- The packets that were put into a ring. -/
def allQueued : List (Skb P) := d.queued ++ if d.allocated then d.mac.queued else []

/-- The packets that were freed. -/
def allFreed : List (Skb P) := d.freed ++ if d.allocated then d.mac.freed else []

/-- No assertion has failed, no ring was freed twice, and each packet was freed once or is held. -/
structure Conserves : Prop where
  runs : d.mac.stop = none
  once : d.freedTwice = false
  packets : d.allQueued.Perm (d.allFreed ++ d.held b)

/-- The ring's events are those of a run that is safe, and the work finds the device open and opens
it again. -/
def Heeds : DeviceEvent P → Prop
  | .mac e => Sends b e ∧ (d.allocated = true → Tx.Heeds b d.mac e)
  | .txTimeoutTask allocates _ => d.scheduled = true → d.up = true ∧ allocates = true
  | .ifUp _ _ | .ifDown | .txTimeout => True

end Device

/-! ### Releasing the ring -/

/-- **What is freed with the ring** is what its buffers hold. -/
theorem ringRelease_perm {m : Mac P} (h : m.ring.ringTail < b.nelem) :
    (m.ring.ringRelease b).Perm (m.held b) := by
  have hview : m.ring.ringRelease b = (view m.ring.buffer b.nelem 0).filterMap (·.bufPkt) := by
    rw [view_zero, List.filterMap_map]
    rfl
  rw [hview]
  exact (perm_view h).symm.filterMap _

/-! ### The invariant -/

namespace Device

/-- An allocated ring is that of a safe run, and what is not in it was freed. -/
structure Inv (b : Build) (d : Device P) : Prop where
  runs : d.mac.stop = none
  ring : d.allocated = true → ∃ skbs sent, Tx.Inv b d.mac skbs sent
  up : d.up = d.allocated
  once : d.freedTwice = false
  past : d.queued.Perm d.freed

variable {d : Device P}

theorem Inv.conserves (h : d.Inv b) : d.Conserves b := by
  refine ⟨h.runs, h.once, ?_⟩
  rw [allQueued, allFreed, held]
  by_cases ha : d.allocated = true
  · obtain ⟨skbs, sent, hring⟩ := h.ring ha
    rw [if_pos ha, if_pos ha, if_pos ha, hring.safe.once, List.append_assoc]
    exact h.past.append_right _
  · rw [if_neg ha, if_neg ha, if_neg ha, List.append_nil, List.append_nil, List.append_nil]
    exact h.past

/-- Behind a stop every packet was freed. -/
theorem Inv.past_stop (h : d.Inv b) (ha : d.allocated = true) :
    (d.stop b).queued.Perm (d.stop b).freed := by
  obtain ⟨skbs, sent, hring⟩ := h.ring ha
  rw [Device.stop, if_pos ha]
  refine h.past.append ?_
  rw [hring.safe.once]
  exact (ringRelease_perm hring.layout.tail_lt).symm.append_left _

/-- A new ring has room, whatever the link. -/
theorem inv_checkLink_txAlloc (queueStopped carrier : Bool) (macSpeed : PhySpeed) (macFdx : Bool)
    (ether : EtherCtrl) (status : LinkStatus) : ∃ skbs sent,
      Tx.Inv b ((txAlloc queueStopped carrier macSpeed macFdx ether : Mac P).checkLink status)
      skbs sent := by
  have hnew : Tx.Inv b (txAlloc queueStopped carrier macSpeed macFdx ether : Mac P) [] 0 :=
    inv_txAlloc
  have hroom :
      (txAlloc queueStopped carrier macSpeed macFdx ether : Mac P).ring.txRingFull b = false :=
    (Tx.Inv.txRingFull hnew.layout).mpr
      (by have := b.add_two_le_nelem; simpa [allPieces] using this)
  exact inv_step hnew (.checkLink status) trivial fun _ _ => hroom

/-- A device with a new ring. -/
theorem Inv.openRing (h : d.Inv b) (hno : d.allocated = false) (allocates : Bool)
    (status : LinkStatus) :
    ({ d.openRing allocates status with up := allocates }).Inv b := by
  cases allocates with
  | false => exact ⟨h.runs, h.ring, hno.symm, h.once, h.past⟩
  | true =>
      obtain ⟨skbs, sent, hring⟩ := inv_checkLink_txAlloc (b := b) d.mac.queueStopped d.mac.carrier
        d.mac.macSpeed d.mac.macFdx d.mac.ether status
      exact ⟨hring.runs, fun _ => ⟨skbs, sent, hring⟩, rfl, h.once, h.past⟩

theorem inv_step {e : DeviceEvent P} (h : d.Inv b) (he : d.Heeds b e) : (d.step b e).Inv b := by
  have hruns : d.mac.stop.isSome = false := by rw [h.runs]; rfl
  unfold Device.step
  rw [hruns, if_neg Bool.false_ne_true]
  cases e with
  | mac e =>
      dsimp only
      by_cases ha : d.allocated = true
      · obtain ⟨skbs, sent, hring⟩ := h.ring ha
        obtain ⟨skbs', sent', hring'⟩ := Tx.inv_step hring e he.1 (he.2 ha)
        rw [if_neg fun hno => hno.2 ha]
        exact ⟨hring'.runs, fun _ => ⟨skbs', sent', hring'⟩, h.up, h.once, h.past⟩
      · -- only the file of `/proc` is left
        split
        · exact h
        · rename_i hno
          have hproc : e.needsRing = false := Bool.eq_false_iff.mpr fun hneeds => hno ⟨hneeds, ha⟩
          refine ⟨?_, fun ha' => absurd ha' ha, h.up, h.once, h.past⟩
          cases e with
          | etherCtrl ctrl speed duplex =>
              unfold Tx.step
              rw [hruns, if_neg Bool.false_ne_true]
              exact h.runs
          | _ => cases hproc
  | ifUp allocates status =>
      dsimp only
      split
      · exact h
      · rename_i hup
        have hno : d.allocated = false := h.up ▸ Bool.eq_false_iff.mpr hup
        exact h.openRing hno allocates status
  | ifDown =>
      dsimp only
      split
      · rename_i hup
        have ha : d.allocated = true := h.up ▸ hup
        have hpast := h.past_stop ha
        rw [Device.stop, if_pos ha] at hpast ⊢
        exact ⟨h.runs, fun hf => absurd hf Bool.false_ne_true, rfl, h.once, hpast⟩
      · exact h
  | txTimeout =>
      dsimp only
      split
      · exact ⟨h.runs, h.ring, h.up, h.once, h.past⟩
      · exact h
  | txTimeoutTask allocates status =>
      dsimp only
      split
      · rename_i hscheduled
        obtain ⟨hup, rfl⟩ := he hscheduled
        have ha : d.allocated = true := h.up ▸ hup
        have hpast := h.past_stop ha
        obtain ⟨skbs, sent, hring⟩ :=
          inv_checkLink_txAlloc (P := P) (b := b) true false d.mac.macSpeed
          d.mac.macFdx d.mac.ether status
        rw [Device.stop, if_pos ha] at hpast ⊢
        exact ⟨hring.runs, fun _ => ⟨skbs, sent, hring⟩, hup, h.once, hpast⟩
      · exact h

/-! ### Every run -/

variable {macSpeed : PhySpeed} {macFdx : Bool} {ether : EtherCtrl}

theorem inv_init : (init macSpeed macFdx ether : Device P).Inv b :=
  ⟨rfl, fun ha => absurd ha Bool.false_ne_true, rfl, rfl, .refl _⟩

/-- **No packet is lost, and none is freed twice**, over any number of lives of the ring. -/
theorem conserves_runs {es : List (DeviceEvent P)}
    (h : Meets (step b) (Heeds b) (init macSpeed macFdx ether) es) :
    (runs (step b) (init macSpeed macFdx ether) es).Conserves b :=
  (Meets.invariant (fun _ _ hd he => inv_step hd he) inv_init h).conserves

/-- The link is up with 100 Mbps. -/
def linkedUp : LinkStatus := .up .speed100TX true

/-- A queue that is stopped is looked after, and the device is stopped with a packet in the new
ring. -/
def hung : List (DeviceEvent Nat) :=
  .ifUp true linkedUp :: (List.range 38).map (fun i => .mac (.hardStart ⟨i, 60⟩)) ++
    [.mac .complete, .txTimeout, .txTimeoutTask true linkedUp, .mac (.hardStart ⟨38, 60⟩), .ifDown]

instance Heeds.decidable (b : Build) (d : Device P) : ∀ e : DeviceEvent P, Decidable (d.Heeds b e)
  | .mac e => inferInstanceAs (Decidable (Sends b e ∧ (d.allocated = true → Tx.Heeds b d.mac e)))
  | .txTimeoutTask allocates _ =>
    inferInstanceAs (Decidable (d.scheduled = true → d.up = true ∧ allocates = true))
  | .ifUp _ _ | .ifDown | .txTimeout => .isTrue trivial

theorem conserves_runs_hung :
    (runs (step board) (init .speed100TX false ⟨true, .speed100TX, false, 0⟩)
      hung).Conserves board :=
  conserves_runs (by decide +kernel)

/-- **Behind a stop the work frees the ring once more**, also where the stop was its own, and the
device could not be opened. -/
theorem freedTwice_of_stopped {d : Device P} (hruns : d.mac.stop = none)
    (hscheduled : d.scheduled = true)
    (hno : d.allocated = false) (allocates : Bool) (status : LinkStatus) :
    (d.step b (.txTimeoutTask allocates status)).freedTwice = true := by
  have hstop : d.mac.stop.isSome = false := by rw [hruns]; rfl
  unfold Device.step
  rw [hstop, if_neg Bool.false_ne_true]
  dsimp only
  rw [if_pos hscheduled, Device.stop, hno, if_neg Bool.false_ne_true]
  cases allocates with
  | false => rfl
  | true => rfl

end Device

end Wap4410n.Ag7100.Tx
