import Mathlib.Logic.Function.Iterate
import Wap4410n.Support.Ring
import Wap4410n.Support.Runs

/-!
# Ag7100 — the transmit ring

`ag7100_hard_start` cuts a packet into descriptors at `ring_head` and gives them to the MAC, which
sends them in order and takes its ownership back from each.  `ag7100_tx_reap` frees the packets from
`ring_tail` on whose first and last descriptor the MAC does not own.  The network stack does not
call `ag7100_hard_start` while the queue is stopped; the queue is stopped when a packet leaves too
few descriptors, started again by `ag7100_tx_reap`, and both stopped and started by
`ag7100_check_link`.

`step` is one event: a packet of the stack, a call of `ag7100_tx_reap`, a descriptor that is sent,
the link timer, or a write to the file of the link settings.  An assertion that fails stops the
driver, and so does a reset of the MAC.
-/

namespace Wap4410n.Ag7100.Tx

open CLib Ring

/-! ### The build -/

/-- A build of the driver and the MTU of the device, which `eth_change_mtu` keeps up to 1500. -/
structure Build where
  /-- `CONFIG_AR9100` -/
  ar9100 : Bool
  /-- `tx_len_per_ds` as given, or `CONFIG_AG7100_LEN_PER_TX_DS` -/
  givenLenPerDs : Nat
  /-- `CONFIG_AG7100_NUMBER_TX_PKTS` -/
  numberTxPkts : Nat
  mtu : Nat
  three_le : 3 ≤ numberTxPkts
  mtu_le : mtu ≤ 1500

/-- `ag7100_vet_tx_len_per_pkt` -/
def vetTxLenPerPkt (len : Nat) : Nat :=
  -- `l = *len & ~3`
  let l := len - len % 4
  if l < 128 then 128
  else if 1024 < l then
    if l < 1536 then 1536
    else if 2048 < l then 2048
    else l
  else l

namespace Build

variable (b : Build)

def txLenPerDs : Nat := vetTxLenPerPkt b.givenLenPerDs

def txMaxDescPerDsPkt : Nat :=
  if b.ar9100 then 1
  else 2048 / b.txLenPerDs + if 2048 % b.txLenPerDs ≠ 0 then 1 else 0

/-- `AG7100_TX_DESC_CNT`, the `ring_nelem` of the ring -/
def nelem : Nat := b.numberTxPkts * b.txMaxDescPerDsPkt

/-- `AG7100_TX_REAP_THRESH` -/
def txReapThresh : Nat := b.nelem / 2

/-- `AG7100_TX_QSTART_THRESH` -/
def txQstartThresh : Nat := 4 * b.txMaxDescPerDsPkt

end Build

theorem vetTxLenPerPkt_ge (len : Nat) : 128 ≤ vetTxLenPerPkt len := by
  unfold vetTxLenPerPkt
  dsimp only
  split
  · exact Nat.le_refl _
  split
  · split
    · decide
    split <;> omega
  · omega

theorem Build.txLenPerDs_ge (b : Build) : 128 ≤ b.txLenPerDs := vetTxLenPerPkt_ge _

/-! ### The ring -/

section Step

variable {P : Type}

/-- A packet of the stack, with `skb->len`. -/
structure Skb (P : Type) where
  pkt : P
  len : Nat
deriving DecidableEq

/-- `ag7100_desc_t`; `pkt_start_addr` is a place in a packet. -/
structure Desc (P : Type) where
  isEmpty : Bool
  more : Bool
  pktSize : Nat
  pktStart : Option (Skb P × Nat)
deriving DecidableEq

/-- `ag7100_tx_owned_by_dma` -/
def Desc.ownedByDma (ds : Desc P) : Bool := !ds.isEmpty

/-- `ag7100_buffer_t`; `buf_lastds` is an index of the ring. -/
structure Buffer (P : Type) where
  bufPkt : Option (Skb P)
  bufLastds : Nat
  bufNds : Nat
deriving DecidableEq

/-- `ag7100_ring_t` -/
structure TxRing (P : Type) where
  ringHead : Nat
  ringTail : Nat
  desc : Nat → Desc P
  buffer : Nat → Buffer P

/-- What stops the driver. -/
inductive Stop where
  /-- `assert(!ag7100_tx_owned_by_dma(ds))`, or `ag7100_dma_reset` -/
  | owned
  /-- `assert(len>4)` -/
  | len
  /-- `assert(bf->buf_pkt)` -/
  | bufPkt
  /-- `assert(!netif_queue_stopped(mac->mac_dev))` -/
  | queue
  /-- the loop of `ag7100_tx_reap` does not end -/
  | loop
deriving DecidableEq, Repr

inductive PhySpeed where
  | speed10T
  | speed100TX
  | speed1000T
deriving DecidableEq, Repr

/-- `ether_status`, `ether_speed`, `ether_duplex` and `ether_ctrl` -/
structure EtherCtrl where
  status : Bool
  speed : PhySpeed
  duplex : Bool
  ctrl : BitVec 32
deriving DecidableEq, Repr

/-- The driver, the queue of the device, the MAC, and what became of the packets. -/
structure Mac (P : Type) where
  ring : TxRing P
  /-- the descriptor the MAC sends next -/
  next : Nat
  queueStopped : Bool
  carrier : Bool
  macSpeed : PhySpeed
  macFdx : Bool
  ether : EtherCtrl
  /-- the packets put into the ring -/
  queued : List (Skb P)
  /-- the packets whose last descriptor was sent -/
  sent : List (Skb P)
  /-- the packets of the ring that were freed -/
  freed : List (Skb P)
  /-- the packets dropped for their length -/
  dropped : List (Skb P)
  stop : Option Stop

/-- What `ag7100_get_link_status` says. -/
inductive LinkStatus where
  | failed
  | down
  /-- `fdx` or `speed` is negative -/
  | notConnected
  | up (speed : PhySpeed) (fdx : Bool)
deriving DecidableEq, Repr

/-- What happens. -/
inductive Event (P : Type) where
  | hardStart (skb : Skb P)
  | reap
  /-- the MAC sends a descriptor -/
  | complete
  /-- the link timer -/
  | checkLink (status : LinkStatus)
  /-- `ethernet_status_write_proc` -/
  | etherCtrl (ctrl : BitVec 32) (speed : PhySpeed) (duplex : Bool)
deriving DecidableEq

variable (b : Build)

/-- `ag7100_ndesc_unused` -/
def ndescUnused (n head tail : Nat) : Nat := (if head < tail then 0 else n) + tail - head

namespace TxRing

variable (r : TxRing P)

/-- `ag7100_tx_reap_thresh` -/
def txReapThresh : Bool := ndescUnused b.nelem r.ringHead r.ringTail < b.txReapThresh

/-- `ag7100_tx_ring_full` -/
def txRingFull : Bool := ndescUnused b.nelem r.ringHead r.ringTail < b.txMaxDescPerDsPkt + 2

def setDesc (i : Nat) (ds : Desc P) : TxRing P :=
  { r with desc := Function.update r.desc i ds }

def setBuffer (i : Nat) (bf : Buffer P) : TxRing P :=
  { r with buffer := Function.update r.buffer i bf }

/-- `ag7100_tx_give_to_dma` -/
def giveToDma (i : Nat) : TxRing P := r.setDesc i { r.desc i with isEmpty := false }

/-- `ds->more = 0` -/
def noMore (i : Nat) : TxRing P := r.setDesc i { r.desc i with more := false }

end TxRing

/-- `len_this_ds` -/
def lenThisDs (len : Nat) : Nat :=
  if b.txLenPerDs < len then
    -- "force extra pkt if remainder less than 4 bytes"
    if len ≤ b.txLenPerDs + 4 then b.txLenPerDs - 4 else b.txLenPerDs
  else len

theorem lenThisDs_pos {len : Nat} (h : 0 < len) : 0 < lenThisDs b len := by
  have := b.txLenPerDs_ge
  unfold lenThisDs
  split
  · split <;> omega
  · exact h

/-- `ag7100_get_tx_ds`, at `start` in the packet -/
def getTxDs (r : TxRing P) (skb : Skb P) (start len : Nat) : Except Stop (TxRing P) :=
  let ds := r.desc r.ringHead
  if ds.ownedByDma then .error .owned
  else
    let ds : Desc P :=
      { ds with pktSize := lenThisDs b len, pktStart := some (skb, start), more := true }
    .ok { r.setDesc r.ringHead ds with ringHead := incr b.nelem r.ringHead }

/-- `while (len>0)` of `ag7100_hard_start`: the ring, the last `ds` and `nds_this_pkt`. -/
def fillTxDs (skb : Skb P) (r : TxRing P) (start len ds nds : Nat) :
    Except Stop (TxRing P × Nat × Nat) :=
  if _h : len = 0 then .ok (r, ds, nds)
  else
    match getTxDs b r skb start len with
    | .error why => .error why
    | .ok r' =>
      fillTxDs skb (r'.giveToDma r.ringHead) (start + lenThisDs b len) (len - lenThisDs b len)
        r.ringHead (nds + 1)
termination_by len
decreasing_by
  have := lenThisDs_pos b (Nat.pos_of_ne_zero _h)
  omega

/-- `while(tail != head)` of `ag7100_tx_reap`, in `k` turns at most: the ring, `tail`, and the
packets freed. -/
def reapLoop : Nat → TxRing P → Nat → List (Skb P) → Except Stop (TxRing P × Nat × List (Skb P))
  | 0, _, _, _ => .error .loop
  | k + 1, r, tail, freed =>
    if tail = r.ringHead then .ok (r, tail, freed)
    else if (r.desc tail).ownedByDma then .ok (r, tail, freed)
    else
      let bf := r.buffer tail
      match bf.bufPkt with
      | none => .error .bufPkt
      | some skb =>
        if (r.desc bf.bufLastds).ownedByDma then .ok (r, tail, freed)
        else
          reapLoop k (r.setBuffer tail { bf with bufPkt := none }) ((incr b.nelem)^[bf.bufNds] tail)
            (freed ++ [skb])

namespace Mac

variable (m : Mac P)

/-- `ag7100_tx_reap`; a turn frees the packet of a buffer, so that there are no more turns than
buffers but for the last one. -/
def txReap : Except Stop (Mac P) :=
  match reapLoop b (b.nelem + 1) m.ring m.ring.ringTail m.freed with
  | .error why => .error why
  | .ok (r, tail, freed) =>
    let m := { m with ring := { r with ringTail := tail }, freed := freed }
    let unused := ndescUnused b.nelem m.ring.ringHead m.ring.ringTail
    if m.queueStopped ∧ b.txQstartThresh ≤ unused ∧ m.carrier then
      .ok { m with queueStopped := false }
    else .ok m

/-- `ag7100_handle_tx_full` -/
def handleTxFull : Except Stop (Mac P) :=
  if m.queueStopped then .error .queue else .ok { m with queueStopped := true }

/-- `ag7100_hard_start` behind `ag7100_tx_reap` -/
def hardStartTx (skb : Skb P) : Except Stop (Mac P) :=
  let r := m.ring
  let bp := r.ringHead
  let r := r.setBuffer bp { r.buffer bp with bufPkt := some skb }
  if skb.len ≤ 4 then .error .len
  else
    match getTxDs b r skb 0 skb.len with
    | .error why => .error why
    | .ok r =>
      let first := lenThisDs b skb.len
      match fillTxDs b skb r first (skb.len - first) bp 1 with
      | .error why => .error why
      | .ok (r, ds, nds) =>
        let r := (r.noMore ds).giveToDma bp
        let r := r.setBuffer bp { r.buffer bp with bufLastds := ds, bufNds := nds }
        let m := { m with ring := r, queued := m.queued ++ [skb] }
        if m.ring.txRingFull b then m.handleTxFull else .ok m

/-- `ag7100_hard_start`; the headers and the VLAN tag make 18 bytes. -/
def hardStart (skb : Skb P) : Except Stop (Mac P) :=
  if skb.len = 0 ∨ b.mtu + 18 < skb.len then .ok { m with dropped := m.dropped ++ [skb] }
  else if m.ring.txReapThresh b then
    match m.txReap b with
    | .error why => .error why
    | .ok m => m.hardStartTx b skb
  else m.hardStartTx b skb

/-- The MAC sends the descriptor, if it owns it. -/
def complete : Mac P :=
  let ds := m.ring.desc m.next
  if ds.ownedByDma then
    { m with
      ring := m.ring.setDesc m.next { ds with isEmpty := true }
      next := incr b.nelem m.next
      sent := m.sent ++
        match ds.pktStart with
        | some (skb, start) => if start + ds.pktSize = skb.len then [skb] else []
        | none => [] }
  else m

/-- The end of `ag7100_check_link`: `ag7100_set_mac_from_link`, and the queue is started. -/
def linkUp (speed : PhySpeed) (fdx : Bool) : Mac P :=
  { m with macSpeed := speed, macFdx := fdx, carrier := true, queueStopped := false }

/-- `ag7100_check_link` -/
def checkLink : LinkStatus → Mac P
  | .failed | .notConnected => m
  | .down =>
    if m.carrier then
      { m with ether := { m.ether with status := false }, carrier := false, queueStopped := true }
    else m
  | .up speed fdx =>
    if m.ether.ctrl = 0 then
      if m.carrier ∧ speed = m.macSpeed ∧ fdx = m.macFdx then m
      else
        { m with ether := { m.ether with status := true, speed := speed, duplex := fdx } }.linkUp
          speed fdx
    else if m.carrier ∧ (m.ether.ctrl.getLsbD 0 = false ∨ m.ether.speed = m.macSpeed) ∧
        (m.ether.ctrl.getLsbD 1 = false ∨ m.ether.duplex = m.macFdx) then m
    else
      { m with ether := { m.ether with status := true } }.linkUp m.ether.speed m.ether.duplex

/-- The driver goes on, or it is stopped. -/
def goOn : Except Stop (Mac P) → Mac P
  | .ok m' => m'
  | .error why => { m with stop := some why }

end Mac

/-- One event; it does nothing where it cannot happen. -/
def step (m : Mac P) (e : Event P) : Mac P :=
  if m.stop.isSome then m
  else
    match e with
    | .hardStart skb => if m.queueStopped then m else m.goOn (m.hardStart b skb)
    | .reap => m.goOn (m.txReap b)
    | .complete => m.complete b
    | .checkLink status => m.checkLink status
    | .etherCtrl ctrl speed duplex =>
      { m with ether := { m.ether with ctrl := ctrl, speed := speed, duplex := duplex } }

/-- `ag7100_tx_alloc`, with the queue and the carrier as they are -/
def txAlloc (queueStopped carrier : Bool) (macSpeed : PhySpeed) (macFdx : Bool)
    (ether : EtherCtrl) :
    Mac P where
  ring :=
    { ringHead := 0
      ringTail := 0
      desc := fun _ => ⟨true, false, 0, none⟩
      buffer := fun _ => ⟨none, 0, 0⟩ }
  next := 0
  queueStopped := queueStopped
  carrier := carrier
  macSpeed := macSpeed
  macFdx := macFdx
  ether := ether
  queued := []
  sent := []
  freed := []
  dropped := []
  stop := none

end Step

end Wap4410n.Ag7100.Tx
