import Wap4410n.Support.Block
import Wap4410n.Support.Runs

/-!
# Ag7100 — register accesses of the switch

The registers of the switch are read and written by frames to it and its responses.  An access
clears `wait_flag`, sends a request and waits for the flag, three times at most;
`header_receive_skb` sets the flag for every response that comes in, stores what it takes for the
current one in `cmd_resp`, and wakes the process.

An access is made by a caller that learns from its result (`Prog`): reading and writing a register
switch the learning of the CPU port off and on by further accesses, which share one sequence number.

`step` is one event: a call, a step of the process, the end of a wait, a signal, or a response.  The
switch answers a request at most once, and when it likes; any other frame may come in, too.
-/

namespace Wap4410n.Athrs26

open CLib

/-! ### Frames -/

/-- A register, or its contents. -/
abbrev Word := BitVec 32

/-- The arguments of `__athrs26_header_read_reg` and `__athrs26_header_write_reg`, and
`in_interrupt()`. -/
structure Access where
  /-- `wr_flag`, which is set for a read -/
  wrFlag : Bool
  regAddr : Word
  cmdLen : Nat
  regData : Word
  seqNum : Nat
  inInterrupt : Bool
deriving DecidableEq, Repr

/-- `(reg_addr == 0)&&(reg_tmp[3]&0x80)` -/
def Access.isReset (a : Access) : Bool := a.regAddr = 0 && a.regData.getLsbD 31

/-- `skb->data` of a frame that came in. -/
structure Frame where
  data : List Byte
  long : 60 ≤ data.length

/-- `reg_tmp` -/
def regTmp (w : Word) : List Byte :=
  [.ofNat (w.toNat % 256), .ofNat (w.toNat / 256 % 256), .ofNat (w.toNat / 65536 % 256),
    .ofNat (w.toNat / 16777216 % 256)]

/-- `athrs26_header_config_reg`: the header of a request, and the value of a write. -/
def athrs26HeaderConfigReg (a : Access) : List Byte :=
  -- "only support 32bits register r/w"
  let cmdLen := min a.cmdLen 4
  -- `reg_addr&0x3FFFC`
  let regAddr := a.regAddr.toNat % 262144 / 4 * 4
  let header : List Byte :=
    [0x50, 0x05, .ofNat (regAddr % 256), .ofNat (regAddr / 256 % 256),
      .ofNat (regAddr / 65536 + cmdLen * 16), .ofNat (a.wrFlag.toNat * 16 + 0x5 * 32),
      .ofNat (a.seqNum % 128 * 2), .ofNat (a.seqNum / 128 % 256), .ofNat (a.seqNum / 32768 % 256),
      .ofNat (a.seqNum / 8388608 % 256)]
  header ++ if a.wrFlag then [] else (regTmp a.regData).take cmdLen

/-- `skb->data[4] >> 4` -/
def respLen (data : List Byte) : Nat := (data.getD 4 0).toNat / 16

/-- The sequence number of a frame. -/
def respSeq (data : List Byte) : Nat :=
  (data.getD 6 0).toNat / 2 + (data.getD 7 0).toNat * 128 + (data.getD 8 0).toNat * 32768 +
    (data.getD 9 0).toNat * 8388608

/-- `data[0] | (data[1] << 8) | (data[2] << 16) | (data[3] << 24)` -/
def word (data : List Byte) : Word :=
  .ofNat 32 ((data.getD 0 0).toNat + (data.getD 1 0).toNat * 256 + (data.getD 2 0).toNat * 65536 +
    (data.getD 3 0).toNat * 16777216)

/-! ### Callers -/

/-- What is left to do of a call: `atomic_inc(&seqcnt)`, an access, or to return. -/
inductive Prog where
  | done (regData : Word)
  | bump (k : Nat → Prog)
  | access (a : Access) (k : Option Word → Prog)

section Callers

variable (inInterrupt : Bool)

/-- `get_cpu_port_learn`; `reg_data` stays 0 if the read fails. -/
def getCpuPortLearn (k : Bool → Prog) : Prog :=
  .access ⟨true, 0x104, 4, 0, 0x7fffffff, inInterrupt⟩ fun r => k ((r.getD 0).getLsbD 14)

/-- `set_cpu_port_learn` -/
def setCpuPortLearn (flags : Bool) (k : Prog) : Prog :=
  .access ⟨true, 0x104, 4, 0, 0x7fffffff, inInterrupt⟩ fun r =>
    let regData := r.getD 0
    let regData := if flags then regData ||| 0x4000 else regData &&& ~~~0x4000
    .access ⟨false, 0x104, 4, regData, 0x7fffffff, inInterrupt⟩ fun _ => k

/-- `athrs26_header_write_reg` -/
def athrs26HeaderWriteReg (regAddr regData : Word) : Prog :=
  getCpuPortLearn inInterrupt fun flagsave =>
    let write := .bump fun seqcnt =>
      .access ⟨false, regAddr, 4, regData, seqcnt, inInterrupt⟩ fun _ =>
        if flagsave && !(regAddr = 0x104 && !regData.getLsbD 14) then
          setCpuPortLearn inInterrupt true (.done regData)
        else .done regData
    if flagsave then setCpuPortLearn inInterrupt false write else write

/-- `athrs26_header_read_reg`, with `reg_data` cleared as `athrs26_reg_read` does -/
def athrs26HeaderReadReg (regAddr : Word) : Prog :=
  getCpuPortLearn inInterrupt fun flagsave =>
    let read := .bump fun seqcnt =>
      .access ⟨true, regAddr, 4, 0, seqcnt, inInterrupt⟩ fun r =>
        let regData := r.getD 0
        let regData :=
          if regAddr = 0x104 then
            if flagsave then regData ||| 0x4000 else regData &&& ~~~0x4000
          else regData
        if flagsave then setCpuPortLearn inInterrupt true (.done regData) else .done regData
    if flagsave then setCpuPortLearn inInterrupt false read else read

end Callers

/-- A call, and whether it is made in an interrupt. -/
inductive Call where
  | readReg (inInterrupt : Bool) (regAddr : Word)
  | writeReg (inInterrupt : Bool) (regAddr regData : Word)

def Call.prog : Call → Prog
  | .readReg inInterrupt regAddr => athrs26HeaderReadReg inInterrupt regAddr
  | .writeReg inInterrupt regAddr regData => athrs26HeaderWriteReg inInterrupt regAddr regData

/-! ### The process and the switch -/

/-- `cmd_resp_t` -/
structure CmdResp where
  data : Block
  len : Nat
  seq : Nat

/-- What an access returns: -1, 0, or 0 with the data of a read. -/
inductive Ret where
  | fail
  | done
  | data (w : Word)
deriving DecidableEq, Repr

def Ret.regData : Ret → Option Word
  | .fail | .done => none
  | .data w => some w

/-- Where an access is. -/
inductive Phase where
  /-- at `wait_flag = 0` -/
  | clear
  /-- at `athrs26_header_config_reg` -/
  | send
  /-- at `if (!(condition))` of the wait -/
  | check
  /-- at `if (condition)` of its loop -/
  | look
  | asleep
  /-- behind `break` -/
  | broke
  /-- behind `while (i--)` -/
  | out
  /-- at the load of the data -/
  | load
deriving DecidableEq, Repr

/-- An access that goes on, the requests it has sent, their responses while it waited for them, and
what its caller does with the result. -/
structure Running where
  access : Access
  i : Int
  phase : Phase
  own : List Nat
  inTime : List (Nat × Frame)
  k : Option Word → Prog

/-- What a frame that comes in means to an access that goes on. -/
def Running.arrive (r : Running) (wakes : Bool) (id : Option Nat) (f : Frame) : Running :=
  { r with
    phase := if wakes && r.phase = .asleep then .look else r.phase
    inTime := match id with
      | none => r.inTime
      | some n => if n ∈ r.own ∧ r.phase ≠ .clear ∧ r.phase ≠ .out then r.inTime ++ [(n, f)]
        else r.inTime }

inductive Proc where
  | idle
  | next (p : Prog)
  | running (r : Running)

/-- An access that has returned. -/
structure Outcome where
  access : Access
  inTime : List (Nat × Frame)
  ret : Ret

/-- `wait_flag`, `cmd_resp`, `seqcnt`, the process, the requests sent so far and those of them
answered, and what was returned. -/
structure State where
  waitFlag : Bool
  resp : CmdResp
  seqcnt : Nat
  proc : Proc
  sent : List (List Byte)
  answered : List Nat
  log : List Outcome
  returned : List Word

/-- What happens. -/
inductive Event where
  | call (c : Call)
  /-- the process goes on -/
  | go
  /-- the time of a wait runs out -/
  | expire
  | signal
  /-- a frame comes in: the answer of a request, or another one -/
  | arrive (id : Option Nat) (f : Frame)

namespace State

variable (s : State)

/-- `header_receive_skb`: what it stores, and whether it wakes the process. -/
def headerReceiveSkb (data : List Byte) : State × Bool :=
  let s := { s with waitFlag := true, resp := { s.resp with len := respLen data } }
  if 10 < respLen data then (s, false)
  else
    let s := { s with resp := { s.resp with seq := respSeq data } }
    if respSeq data < s.seqcnt then (s, false)
    else
      let copied := s.resp.data.memcpy ((data.drop 10).take (respLen data))
      ({ s with resp := { s.resp with data := copied } }, true)

/-- An access returns. -/
def finish (a : Access) (inTime : List (Nat × Frame)) (ret : Ret) (k : Option Word → Prog) :
    State :=
  { s with log := s.log ++ [⟨a, inTime, ret⟩], proc := .next (k ret.regData) }

/-- The next sequence number; 0x7fffffff is reserved. -/
def nextSeqcnt (n : Nat) : Nat := if n = 0x7ffffffe then 0 else n + 1

/-- What the caller does next. -/
def goOn : Prog → State
  | .done regData => { s with proc := .idle, returned := s.returned ++ [regData] }
  | .bump k => { s with seqcnt := nextSeqcnt s.seqcnt, proc := .next (k (nextSeqcnt s.seqcnt)) }
  | .access a k =>
    -- `if (in_interrupt()) return -1;`
    if a.wrFlag && a.inInterrupt then s.finish a [] .fail k
    else { s with proc := .running ⟨a, 2, .clear, [], [], k⟩ }

/-- A step of an access. -/
def run (r : Running) : State :=
  let goto (s : State) (phase : Phase) : State :=
    { s with proc := .running { r with phase := phase } }
  match r.phase with
  | .clear => goto { s with waitFlag := false } .send
  | .send =>
    let r :=
      { r with
        own := r.own ++ [s.sent.length]
        phase := if r.access.inInterrupt then .broke else .check }
    { s with sent := s.sent ++ [athrs26HeaderConfigReg r.access], proc := .running r }
  | .check => goto s (if s.waitFlag then .broke else .look)
  | .look => goto s (if s.waitFlag then .broke else .asleep)
  | .asleep => s
  | .broke | .out =>
    if r.access.wrFlag then
      if r.i = 0 ∨ r.access.seqNum ≠ s.resp.seq ∨ r.access.cmdLen ≠ s.resp.len then
        s.finish r.access r.inTime .fail r.k
      else goto s .load
    else s.finish r.access r.inTime (if r.i = 0 then .fail else .done) r.k
  | .load => s.finish r.access r.inTime (.data (word s.resp.data.bytes)) r.k

/-- The time of a wait runs out. -/
def expire (r : Running) : State :=
  match r.phase with
  | .asleep =>
    -- "ignore reset write echo"
    if !r.access.wrFlag && r.access.isReset then
      { s with proc := .running { r with phase := .broke } }
    else if r.i = 0 then { s with proc := .running { r with i := -1, phase := .out } }
    else { s with proc := .running { r with i := r.i - 1, phase := .clear } }
  | _ => s

/-- A wait ends with `-ERESTARTSYS`, which is not 0. -/
def signal (r : Running) : State :=
  match r.phase with
  | .look | .asleep => { s with proc := .running { r with phase := .broke } }
  | _ => s

/-- The frame with the data answers the request `n`: it has its sequence number and length, and no
other frame answered it. -/
def Answers (n : Nat) (data : List Byte) : Prop :=
  n ∉ s.answered ∧
    ∃ req ∈ s.sent[n]?, respSeq data = respSeq req ∧ respLen data = respLen req

instance (n : Nat) (data : List Byte) : Decidable (s.Answers n data) :=
  inferInstanceAs (Decidable (_ ∧ _))

/-- A frame comes in. -/
def arrive (id : Option Nat) (f : Frame) : State :=
  let (s, wakes) := s.headerReceiveSkb f.data
  { s with
    answered := id.toList ++ s.answered
    proc := match s.proc with
      | .running r => .running (r.arrive wakes id f)
      | p => p }

/-- Before the first call. -/
def start : State :=
  { waitFlag := false, resp := ⟨.zeroed 10, 0, 0⟩, seqcnt := 0, proc := .idle, sent := []
    answered := [], log := [], returned := [] }

/-- One event; one that cannot happen changes nothing. -/
def step (s : State) : Event → State
  | .call c => match s.proc with
    | .idle => { s with proc := .next c.prog }
    | _ => s
  | .go => match s.proc with
    | .idle => s
    | .next p => s.goOn p
    | .running r => s.run r
  | .expire => match s.proc with
    | .running r => s.expire r
    | _ => s
  | .signal => match s.proc with
    | .running r => s.signal r
    | _ => s
  | .arrive none f => s.arrive none f
  | .arrive (some n) f => if s.Answers n f.data then s.arrive (some n) f else s

end State

end Wap4410n.Athrs26
