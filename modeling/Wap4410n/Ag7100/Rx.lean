import Wap4410n.Support.Ring
import Wap4410n.Support.Runs

/-!
# Ag7100 — the receive ring

The driver and the Ethernet MAC share a ring of descriptors with a buffer each.  The MAC fills the
next descriptor it owns and clears its ownership.  `ag7100_recv_packets` passes the buffers up from
`ring_head` on, until it meets a descriptor the MAC owns or its budget is spent;
`ag7100_rx_replenish` puts new buffers into the slots from `ring_tail` on, until it meets the head
or there is none to be had.  A poll goes on as long as the status register shows packets and budget
is left, and a ring without any buffer is left to a timer.

`step` is one event: a packet of the wire, an interrupt, a poll, the timer, or one turn of the loop
the driver is in.  An assertion that fails stops the driver, and so does a reset of the MAC.
-/

namespace Wap4410n.Ag7100

open CLib Ring

/-! ### The ring -/

/-- A slot: `ring_buffer[i].buf_pkt`, with what the MAC has written into the buffer, and
`ring_desc[i].is_empty`. -/
structure Slot (P : Type) where
  bufPkt : Option (Option P)
  isEmpty : Bool
deriving DecidableEq

/-- `ag7100_rx_owned_by_dma` -/
def Slot.ownedByDma {P : Type} (s : Slot P) : Bool := s.isEmpty

/-- `ag7100_ring_t` -/
structure RxRing (P : Type) where
  ringHead : Nat
  ringTail : Nat
  slot : Nat → Slot P

/-- A build for a chip (`CONFIG_AR9100`), and `ring_nelem`. -/
structure Chip where
  ar9100 : Bool
  nelem : Nat
  two_le : 2 ≤ nelem

/-! ### The driver -/

/-- What stops the driver. -/
inductive Stop where
  /-- `assert(skb)` -/
  | skb
  /-- `assert(!bf->buf_pkt)` -/
  | bufPkt
  /-- `assert(!ag7100_rx_owned_by_dma(ds))`, or `return -1` -/
  | owned
  /-- `assert(quota != iquota)`, or `AG7100_RX_DMA_HANG` -/
  | quota
  /-- `assert((status & AG7100_RX_STATUS_PKT_RCVD))` -/
  | status
deriving DecidableEq, Repr

/-- Who calls `ag7100_rx_replenish`. -/
inductive Caller where
  | recv (quota iquota : Nat)
  | oomTimer
deriving DecidableEq, Repr

/-- Where the driver is. -/
inductive Control where
  /-- interrupts are enabled -/
  | idle
  /-- a poll is scheduled -/
  | scheduled
  /-- `mac_oom_timer` runs -/
  | oom
  /-- at `while(quota)`, with the local `head` -/
  | recv (head quota iquota : Nat)
  /-- at the `do` of `ag7100_rx_replenish`, with the local `tail` -/
  | replenish (tail : Nat) (caller : Caller)
  | stopped (why : Stop)
deriving DecidableEq, Repr

/-- The driver, the MAC, what came in and what was passed up. -/
structure Mac (P : Type) where
  ring : RxRing P
  /-- the descriptor the MAC fills next -/
  next : Nat
  received : List P
  delivered : List (Option P)
  ctl : Control

/-- What happens. -/
inductive Event (P : Type) where
  /-- a packet comes in -/
  | packet (p : P)
  | interrupt
  | timer
  /-- `ag7100_poll`, with its budget, and whether the status register is up to date -/
  | poll (quota : Nat) (shown : Bool)
  /-- a turn of the loop: whether a buffer can be allocated, and whether the status register is up
  to date -/
  | turn (alloc shown : Bool)
deriving DecidableEq, Repr

section Step

variable {P : Type} (chip : Chip)

/-- `ag7100_rx_alloc`: every slot has a buffer and is given to the MAC. -/
def rxAlloc : Mac P where
  ring := { ringHead := 0, ringTail := 0, slot := fun _ => ⟨some none, true⟩ }
  next := 0
  received := []
  delivered := []
  ctl := .idle

namespace Mac

variable (m : Mac P)

/-- `mac->mac_rxring` with another slot. -/
def setSlot (i : Nat) (s : Slot P) : Mac P :=
  { m with ring := { m.ring with slot := Function.update m.ring.slot i s } }

/-- There are packets that were not passed up. -/
def pending : Bool := m.delivered.length < m.received.length

/-- `ag7100_rx_ring_full` -/
def rxRingFull : Bool :=
  m.ring.ringHead = m.ring.ringTail && (m.ring.slot m.ring.ringTail).bufPkt.isNone

/-- The MAC fills the descriptor, if it owns it. -/
def receive (p : P) : Mac P :=
  let s := m.ring.slot m.next
  if s.ownedByDma then
    { m.setSlot m.next ⟨s.bufPkt.map fun _ => some p, false⟩ with
      next := incr chip.nelem m.next
      received := m.received ++ [p] }
  else m

/-- `done:` of `ag7100_recv_packets`, and what `ag7100_poll` does with its status. -/
def done (notDone : Bool) : Mac P :=
  { m with ctl := if m.rxRingFull then .oom else if notDone then .scheduled else .idle }

/-- Behind `ag7100_rx_replenish`. -/
def replenished (shown : Bool) : Caller → Mac P
  | .recv quota iquota =>
    -- the status register counts the packets that were not passed up
    let morePkts := shown && m.pending
    if morePkts = false then m.done false
    else if quota = 0 then m.done true
    else { m with ctl := .recv m.ring.ringHead quota iquota }
  | .oomTimer => { m with ctl := if m.rxRingFull then .oom else .scheduled }

/-- A turn of the `do` loop of `ag7100_rx_replenish`. -/
def replenish (alloc shown : Bool) (tail : Nat) (caller : Caller) : Mac P :=
  let s := m.ring.slot tail
  let stored (m : Mac P) (tail : Nat) : Mac P :=
    { m with ring := { m.ring with ringTail := tail } }
  if s.ownedByDma then { m with ctl := .stopped .owned }
  else if s.bufPkt.isSome then { m with ctl := .stopped .bufPkt }
  else if alloc = false then (stored m tail).replenished shown caller
  else
    let m := m.setSlot tail ⟨some none, true⟩
    let tail := incr chip.nelem tail
    if tail ≠ m.ring.ringHead then { m with ctl := .replenish tail caller }
    else (stored m tail).replenished shown caller

/-- Behind the `while(quota)` loop. -/
def recvDone (head quota iquota : Nat) : Mac P :=
  if iquota = quota then { m with ctl := .stopped .quota }
  else
    { m with
      ring := { m.ring with ringHead := head }
      ctl := .replenish m.ring.ringTail (.recv quota iquota) }

/-- A turn of the `while(quota)` loop of `ag7100_recv_packets`. -/
def recvPackets (head quota iquota : Nat) : Mac P :=
  if quota = 0 then m.recvDone head quota iquota
  else
    let s := m.ring.slot head
    if s.ownedByDma then
      if quota = iquota then { m with ctl := .stopped .quota }
      else m.recvDone head quota iquota
    else
      match s.bufPkt with
      | none => { m with ctl := .stopped .skb }
      | some skb =>
        { m.setSlot head { s with bufPkt := none } with
          delivered := m.delivered ++ [skb]
          ctl := .recv (incr chip.nelem head) (quota - 1) iquota }

/-- `ag7100_poll` -/
def poll (quota : Nat) (shown : Bool) : Mac P :=
  if chip.ar9100 = false ∧ (shown && m.pending) = false then { m with ctl := .stopped .status }
  else { m with ctl := .recv m.ring.ringHead quota quota }

end Mac

/-- One event; it does nothing where it cannot happen. -/
def step (m : Mac P) : Event P → Mac P
  | .packet p => m.receive chip p
  | .interrupt => if m.ctl = .idle then { m with ctl := .scheduled } else m
  | .timer =>
    if m.ctl = .oom then { m with ctl := .replenish m.ring.ringTail .oomTimer } else m
  | .poll quota shown =>
    -- the budget of a poll is positive
    if m.ctl = .scheduled ∧ 0 < quota then m.poll chip quota shown else m
  | .turn alloc shown =>
    match m.ctl with
    | .recv head quota iquota => m.recvPackets chip head quota iquota
    | .replenish tail caller => m.replenish chip alloc shown tail caller
    | .idle | .scheduled | .oom | .stopped _ => m

end Step

end Wap4410n.Ag7100
