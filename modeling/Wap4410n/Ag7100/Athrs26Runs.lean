import Wap4410n.Ag7100.Athrs26

/-!
# Ag7100 — what the accesses of the switch return

`Reliable` is what an access is for: it fails just when no request of it was answered while it
waited, a read returns the data of an answer of its own, and nothing but an answer ends a wait.

It does not hold of every run: a write returns 0 behind three waits in vain, an answer to the third
request is taken for none, and a frame that is not an answer ends a wait that is about to begin.
`Heeds` leaves out the events that lead there.

* `inBounds_runs`: no frame overruns `cmd_resp.data`, in any run.
* `inv_step`: every event `Heeds` admits keeps the invariant, in which an access that was answered
  has another attempt left, and finds its answer in `cmd_resp` (`Got`).
* `reliable_runs`: what holds in every state of a run.
-/

namespace Wap4410n.Athrs26

open CLib State

/-! ### Sequence numbers and lengths of requests -/

theorem respLen_config (a : Access) : respLen (athrs26HeaderConfigReg a) = min a.cmdLen 4 := by
  have hget : (athrs26HeaderConfigReg a).getD 4 0 =
      .ofNat (a.regAddr.toNat % 262144 / 4 * 4 / 65536 + min a.cmdLen 4 * 16) := rfl
  rw [respLen, hget, UInt8.toNat_ofNat']
  omega

theorem respSeq_config {a : Access} (h : a.seqNum < 2147483648) :
    respSeq (athrs26HeaderConfigReg a) = a.seqNum := by
  have h6 : (athrs26HeaderConfigReg a).getD 6 0 = .ofNat (a.seqNum % 128 * 2) := rfl
  have h7 : (athrs26HeaderConfigReg a).getD 7 0 = .ofNat (a.seqNum / 128 % 256) := rfl
  have h8 : (athrs26HeaderConfigReg a).getD 8 0 = .ofNat (a.seqNum / 32768 % 256) := rfl
  have h9 : (athrs26HeaderConfigReg a).getD 9 0 = .ofNat (a.seqNum / 8388608 % 256) := rfl
  rw [respSeq, h6, h7, h8, h9]
  simp only [UInt8.toNat_ofNat']
  omega

/-- Only the first four bytes count. -/
theorem word_eq {as bs : List Byte} (h : as.take 4 = bs.take 4) : word as = word bs := by
  have hget : ∀ i < 4, as.getD i 0 = bs.getD i 0 := fun i hi => by
    rw [List.getD_eq_getElem?_getD, List.getD_eq_getElem?_getD, ← List.getElem?_take_of_lt hi, h,
      List.getElem?_take_of_lt hi]
  rw [word, word, hget 0 (by decide), hget 1 (by decide), hget 2 (by decide), hget 3 (by decide)]

/-! ### What is promised -/

/-- The frame carries the access's sequence number and length. -/
def Access.Fits (a : Access) (data : List Byte) : Prop :=
  respSeq data = a.seqNum ∧ respLen data = a.cmdLen

/-- What an access returned is right: `sent` are the requests. -/
structure Outcome.Right (sent : List (List Byte)) (o : Outcome) : Prop where
  /-- it failed just when no request of it was answered in time -/
  fail_iff : o.ret = .fail ↔ o.inTime = []
  /-- the answers, and the requests they are to, carry its number and length -/
  fits : ∀ p ∈ o.inTime, ∃ req ∈ sent[p.1]?, o.access.Fits req ∧ o.access.Fits p.2.data
  /-- a read that did not fail has the data of one of them -/
  data : o.access.wrFlag = true → o.ret ≠ .fail →
    ∃ p ∈ o.inTime, o.ret = .data (word (p.2.data.drop 10))

/-- **Reliable**. -/
structure Reliable (s : State) : Prop where
  inBounds : s.resp.data.InBounds
  right : ∀ o ∈ s.log, o.Right s.sent
  /-- what ends a wait is an answer -/
  ends : ∀ r, s.proc = .running r → r.phase = .broke → r.inTime ≠ []

/-! ### When it holds -/

/-- The frame is an answer to a request of the access. -/
def Running.Own (r : Running) (id : Option Nat) : Prop := ∃ n ∈ id, n ∈ r.own

instance (r : Running) (id : Option Nat) : Decidable (r.Own id) :=
  inferInstanceAs (Decidable (∃ n ∈ id, n ∈ r.own))

instance (a : Access) (data : List Byte) : Decidable (a.Fits data) :=
  inferInstanceAs (Decidable (_ ∧ _))

/-- The frames an access can bear: before the wait ends its own answers in an attempt before the
last, or, asleep, a frame that does not wake it; behind it its own answers, or, where no attempt
was answered, a frame that does not look like one. -/
def Running.Bears (r : Running) (seqcnt : Nat) (id : Option Nat) (f : Frame) : Prop :=
  match r.phase with
  | .clear => True
  | .send | .check | .look => r.Own id ∧ r.i ≠ 0
  | .asleep =>
    if r.Own id then r.i ≠ 0 else 10 < respLen f.data ∨ respSeq f.data < seqcnt
  | .broke | .load => r.Own id
  | .out => ¬r.access.Fits f.data

/-- A wait may run out for a read if another attempt is left or `cmd_resp` carries another number
or length, and for a write if another attempt is left and it does not reset the switch. -/
def Running.MayExpire (r : Running) (resp : CmdResp) : Prop :=
  r.phase = .asleep →
    if r.access.wrFlag then r.i = 0 → ¬(resp.seq = r.access.seqNum ∧ resp.len = r.access.cmdLen)
    else r.i ≠ 0 ∧ r.access.isReset = false

/-- The events that do no harm. -/
def Heeds (s : State) (e : Event) : Prop :=
  match e, s.proc with
  | .call (.writeReg inInterrupt _ _), _ => inInterrupt = false
  | .expire, .running r => r.MayExpire s.resp
  | .signal, .running r => r.phase ≠ .look ∧ r.phase ≠ .asleep
  | .arrive id f, .running r => r.Bears s.seqcnt id f
  | _, _ => True

/-! ### Frames that come in -/

namespace State

variable {s : State} {a : Access} {data : List Byte}

theorem headerReceiveSkb_fst (s : State) (data : List Byte) : (s.headerReceiveSkb data).1 =
    { s with waitFlag := true, resp := (s.headerReceiveSkb data).1.resp } := by
  unfold headerReceiveSkb
  dsimp only
  split
  · rfl
  · split <;> rfl

/-- An answer is stored, and wakes the process. -/
theorem headerReceiveSkb_of_fits (hlen : a.cmdLen = 4) (hseq : s.seqcnt ≤ a.seqNum)
    (h : a.Fits data) : s.headerReceiveSkb data =
      ({ s with
          waitFlag := true
          resp := ⟨s.resp.data.memcpy ((data.drop 10).take 4), 4, a.seqNum⟩ }, true) := by
  have hl : respLen data = 4 := h.2.trans hlen
  unfold headerReceiveSkb
  dsimp only
  rw [hl, h.1, if_neg (by decide), if_neg (Nat.not_lt.mpr hseq)]

theorem headerReceiveSkb_asleep (h : 10 < respLen data ∨ respSeq data < s.seqcnt) :
    (s.headerReceiveSkb data).2 = false := by
  unfold headerReceiveSkb
  dsimp only
  split
  · rfl
  · rename_i hlen
    rw [if_pos (h.resolve_left hlen)]

/-- What does not fit does not look like an answer. -/
theorem headerReceiveSkb_of_not_fits (hlen : a.cmdLen ≤ 10) (h : ¬a.Fits data) :
    ¬((s.headerReceiveSkb data).1.resp.seq = a.seqNum ∧
      (s.headerReceiveSkb data).1.resp.len = a.cmdLen) := by
  unfold headerReceiveSkb
  dsimp only
  split
  · rename_i hlong
    rintro ⟨-, hl⟩
    change respLen data = a.cmdLen at hl
    omega
  · split
    · exact fun hm => h hm
    · exact fun hm => h hm

/-! ### `cmd_resp.data` -/

/-- `cmd_resp.data` has ten bytes. -/
def Bounded (resp : CmdResp) : Prop := resp.data.size = 10 ∧ resp.data.InBounds

theorem Bounded.headerReceiveSkb (h : Bounded s.resp) (data : List Byte) :
    Bounded (s.headerReceiveSkb data).1.resp := by
  unfold State.headerReceiveSkb
  dsimp only
  split
  · exact h
  · rename_i hlen
    split
    · exact h
    · refine ⟨h.1, Block.inBounds_memcpy.mpr ⟨h.2, ?_⟩⟩
      have htake := List.length_take_le (respLen data) (data.drop 10)
      have hsize := h.1
      omega

/-- Only a frame changes `cmd_resp`. -/
theorem resp_step (s : State) (e : Event) :
    (step s e).resp = s.resp ∨ ∃ data, (step s e).resp = (s.headerReceiveSkb data).1.resp := by
  cases e with
  | call c =>
      left
      unfold step
      dsimp only
      split <;> rfl
  | go =>
      left
      unfold step
      dsimp only
      split
      · rfl
      · unfold goOn
        split
        · rfl
        · rfl
        · split <;> rfl
      · unfold run
        dsimp only
        split
        case h_6 =>
            split
            · split <;> rfl
            · rfl
        case h_7 =>
            split
            · split <;> rfl
            · rfl
        all_goals rfl
  | expire =>
      left
      unfold step
      dsimp only
      split
      · unfold expire
        split
        · split
          · rfl
          · split <;> rfl
        · rfl
      · rfl
  | signal =>
      left
      unfold step
      dsimp only
      split
      · unfold signal
        split <;> rfl
      · rfl
  | arrive id f =>
      cases id with
      | none => exact Or.inr ⟨f.data, rfl⟩
      | some n =>
          unfold step
          dsimp only
          split
          · exact Or.inr ⟨f.data, rfl⟩
          · exact Or.inl rfl

theorem bounded_step {e : Event} (h : Bounded s.resp) : Bounded (step s e).resp := by
  rcases resp_step s e with hsame | ⟨data, hframe⟩
  · rwa [hsame]
  · rw [hframe]
    exact h.headerReceiveSkb data

theorem bounded_runs {as : List Event} (h : Bounded s.resp) : Bounded (runs step s as).resp := by
  induction as generalizing s with
  | nil => exact h
  | cons e as ih => exact ih (bounded_step h)

theorem bounded_start : Bounded start.resp := ⟨rfl, Block.inBounds_zeroed 10⟩

/-- **No frame overruns `cmd_resp.data`**, whatever its length and sequence number. -/
theorem inBounds_runs (as : List Event) : (runs step start as).resp.data.InBounds :=
  (bounded_runs bounded_start).2

end State

/-! ### Callers -/

/-- A caller whose accesses have four bytes and carry the reserved number, or the counter's.  In an
interrupt it only reads, which fails. -/
def Prog.Ok : Prog → Nat → Prop
  | .done _, _ => True
  | .bump k, n => (k (nextSeqcnt n)).Ok (nextSeqcnt n)
  | .access a k, n =>
    a.cmdLen = 4 ∧ (a.seqNum = 0x7fffffff ∨ a.seqNum = n) ∧
      if a.inInterrupt then a.wrFlag = true ∧ (k none).Ok n else ∀ v, (k v).Ok n

theorem nextSeqcnt_le {n : Nat} (h : n ≤ 0x7ffffffe) : nextSeqcnt n ≤ 0x7ffffffe := by
  unfold nextSeqcnt
  split <;> omega

section Callers

variable {n : Nat}

theorem Prog.Ok.setCpuPortLearn {k : Prog} (flags : Bool) (h : k.Ok n) :
    (Athrs26.setCpuPortLearn false flags k).Ok n :=
  ⟨rfl, Or.inl rfl, fun _ => ⟨rfl, Or.inl rfl, fun _ => h⟩⟩

/-- The learning of the CPU port is switched off if it was on. -/
theorem Prog.Ok.getCpuPortLearn {p : Bool → Prog} (h : ∀ flagsave, (p flagsave).Ok n) :
    (Athrs26.getCpuPortLearn false fun flagsave =>
      if flagsave then Athrs26.setCpuPortLearn false false (p flagsave) else p flagsave).Ok n := by
  refine ⟨rfl, Or.inl rfl, fun v => ?_⟩
  dsimp only
  split
  · exact (h _).setCpuPortLearn false
  · exact h _

theorem ok_athrs26HeaderWriteReg (regAddr regData : Word) :
    (athrs26HeaderWriteReg false regAddr regData).Ok n := by
  refine Prog.Ok.getCpuPortLearn fun flagsave => ⟨rfl, Or.inr rfl, fun _ => ?_⟩
  split
  · exact Prog.Ok.setCpuPortLearn true trivial
  · trivial

theorem ok_athrs26HeaderReadReg (inInterrupt : Bool) (regAddr : Word) :
    (athrs26HeaderReadReg inInterrupt regAddr).Ok n := by
  cases inInterrupt with
  | true => exact ⟨rfl, Or.inl rfl, rfl, rfl, Or.inr rfl, rfl, trivial⟩
  | false =>
      refine Prog.Ok.getCpuPortLearn fun flagsave => ⟨rfl, Or.inr rfl, fun _ => ?_⟩
      dsimp only
      split
      · exact Prog.Ok.setCpuPortLearn true trivial
      · trivial

end Callers

/-! ### The invariant -/

/-- An access was answered, has another attempt left, and finds an answer in `cmd_resp`. -/
structure Got (a : Access) (i : Int) (inTime : List (Nat × Frame)) (resp : CmdResp) : Prop where
  left : i ≠ 0
  seq : resp.seq = a.seqNum
  len : resp.len = a.cmdLen
  data : ∃ p ∈ inTime, resp.data.bytes.take 4 = (p.2.data.drop 10).take 4

theorem Got.ne_nil {a : Access} {i : Int} {inTime : List (Nat × Frame)} {resp : CmdResp}
    (h : Got a i inTime resp) : inTime ≠ [] := by
  obtain ⟨p, hp, -⟩ := h.data
  exact List.ne_nil_of_mem hp

/-- What holds where an access is. -/
def Running.AtPhase (r : Running) (waitFlag : Bool) (resp : CmdResp) : Prop :=
  match r.phase with
  | .clear | .asleep => r.inTime = []
  | .send | .check | .look => if waitFlag then Got r.access r.i r.inTime resp else r.inTime = []
  | .broke | .load => Got r.access r.i r.inTime resp
  | .out =>
    r.inTime = [] ∧ r.access.wrFlag = true ∧
      ¬(resp.seq = r.access.seqNum ∧ resp.len = r.access.cmdLen)

/-- An access that goes on. -/
structure Running.Inv (s : State) (r : Running) : Prop where
  cmdLen : r.access.cmdLen = 4
  seqNum : r.access.seqNum = 0x7fffffff ∨ r.access.seqNum = s.seqcnt
  inProcess : r.access.inInterrupt = false
  own : ∀ n ∈ r.own, s.sent[n]? = some (athrs26HeaderConfigReg r.access)
  inTime : ∀ p ∈ r.inTime, p.1 ∈ r.own ∧ r.access.Fits p.2.data
  next : ∀ v, (r.k v).Ok s.seqcnt
  atPhase : r.AtPhase s.waitFlag s.resp

/-- The process. -/
def State.ProcInv (s : State) : Prop :=
  match s.proc with
  | .idle => True
  | .next p => p.Ok s.seqcnt
  | .running r => r.Inv s

/-- **The invariant**. -/
structure State.Inv (s : State) : Prop where
  seqcnt : s.seqcnt ≤ 0x7ffffffe
  right : ∀ o ∈ s.log, o.Right s.sent
  proc : s.ProcInv

/-- A request carries the access's number and length. -/
theorem Running.Inv.fits_config {s : State} {r : Running} (h : r.Inv s)
    (hs : s.seqcnt ≤ 0x7ffffffe) : r.access.Fits (athrs26HeaderConfigReg r.access) := by
  have hlt : r.access.seqNum < 2147483648 := by
    rcases h.seqNum with hr | hn <;> omega
  refine ⟨respSeq_config hlt, ?_⟩
  rw [respLen_config, h.cmdLen]
  rfl

/-- What an access returns is right if it fails just when it was not answered. -/
theorem Running.Inv.right {s : State} {r : Running} {ret : Ret} (h : r.Inv s)
    (hs : s.seqcnt ≤ 0x7ffffffe) (hfail : ret = .fail ↔ r.inTime = [])
    (hdata : r.access.wrFlag = true → ret ≠ .fail →
      ∃ p ∈ r.inTime, ret = .data (word (p.2.data.drop 10))) :
    Outcome.Right s.sent ⟨r.access, r.inTime, ret⟩ := by
  refine ⟨hfail, fun p hp => ?_, hdata⟩
  obtain ⟨hown, hfits⟩ := h.inTime p hp
  exact ⟨_, h.own p.1 hown, h.fits_config hs, hfits⟩

/-- Requests that are sent later change nothing. -/
theorem Outcome.Right.append {sent : List (List Byte)} {o : Outcome} (h : o.Right sent)
    (req : List Byte) : o.Right (sent ++ [req]) := by
  refine ⟨h.fail_iff, fun p hp => ?_, h.data⟩
  obtain ⟨old, hold, hfits⟩ := h.fits p hp
  obtain ⟨hlt, -⟩ := List.getElem?_eq_some_iff.mp hold
  exact ⟨old, (List.getElem?_append_left hlt).trans hold, hfits⟩

namespace State.Inv

variable {s : State}

/-- An access returns. -/
theorem finish {a : Access} {inTime : List (Nat × Frame)} {ret : Ret} {k : Option Word → Prog}
    (h : s.Inv) (hright : Outcome.Right s.sent ⟨a, inTime, ret⟩)
    (hk : (k ret.regData).Ok s.seqcnt) :
    (s.finish a inTime ret k).Inv := by
  refine ⟨h.seqcnt, fun o ho => ?_, hk⟩
  rcases List.mem_append.mp ho with ho | ho
  · exact h.right o ho
  · rw [List.mem_singleton.mp ho]
    exact hright

theorem goOn {p : Prog} (h : s.Inv) (hp : p.Ok s.seqcnt) : (s.goOn p).Inv := by
  cases p with
  | done regData => exact ⟨h.seqcnt, h.right, trivial⟩
  | bump k => exact ⟨nextSeqcnt_le h.seqcnt, h.right, hp⟩
  | access a k =>
      obtain ⟨hlen, hseq, hk⟩ := hp
      unfold State.goOn
      dsimp only
      by_cases hint : a.inInterrupt = true
      · rw [if_pos hint] at hk
        rw [hk.1, hint, Bool.and_self, if_pos rfl]
        exact h.finish ⟨iff_of_true rfl rfl, fun p hp => (nomatch hp), fun _ hne => absurd rfl hne⟩
          hk.2
      · rw [if_neg hint] at hk
        rw [Bool.eq_false_iff.mpr hint, Bool.and_false, if_neg Bool.false_ne_true]
        exact ⟨h.seqcnt, h.right, hlen, hseq, Bool.eq_false_iff.mpr hint, fun n hn => (nomatch hn),
          fun p hp => (nomatch hp), hk, rfl⟩

variable {r : Running}

/-- The access goes on at another place. -/
theorem goto (h : s.Inv) (hr : r.Inv s) (i : Int) (phase : Phase)
    (hat : ({ r with i := i, phase := phase } : Running).AtPhase s.waitFlag s.resp) :
    ({ s with proc := .running { r with i := i, phase := phase } } : State).Inv :=
  ⟨h.seqcnt, h.right,
    ⟨hr.cmdLen, hr.seqNum, hr.inProcess, hr.own, hr.inTime, hr.next, hat⟩⟩

theorem running (h : s.Inv) (hproc : s.proc = .running r) : r.Inv s := by
  have hp := h.proc
  rwa [ProcInv, hproc] at hp

/-- **A step of an access.** -/
theorem run (h : s.Inv) (hproc : s.proc = .running r) : (s.run r).Inv := by
  have hr := h.running hproc
  have hat := hr.atPhase
  unfold Running.AtPhase at hat
  unfold State.run
  dsimp only
  cases hphase : r.phase with
  | clear =>
      rw [hphase] at hat
      exact ⟨h.seqcnt, h.right, hr.cmdLen, hr.seqNum, hr.inProcess, hr.own, hr.inTime, hr.next, hat⟩
  | send =>
      rw [hphase] at hat
      dsimp only
      rw [hr.inProcess, if_neg Bool.false_ne_true]
      refine ⟨h.seqcnt, fun o ho => (h.right o ho).append _, hr.cmdLen, hr.seqNum, hr.inProcess,
        fun n hn => ?_, fun p hp => ⟨List.mem_append_left _ (hr.inTime p hp).1, (hr.inTime p hp).2⟩,
        hr.next, ?_⟩
      · rcases List.mem_append.mp hn with hold | hnew
        · obtain ⟨hlt, -⟩ := List.getElem?_eq_some_iff.mp (hr.own n hold)
          exact (List.getElem?_append_left hlt).trans (hr.own n hold)
        · rw [List.mem_singleton.mp hnew]
          exact List.getElem?_concat_length
      · exact hat
  | check =>
      rw [hphase] at hat
      dsimp only at hat ⊢
      split
      · rename_i hflag
        rw [if_pos hflag] at hat
        exact h.goto hr r.i .broke hat
      · rename_i hflag
        refine h.goto hr r.i .look ?_
        exact hat
  | look =>
      rw [hphase] at hat
      dsimp only at hat ⊢
      split
      · rename_i hflag
        rw [if_pos hflag] at hat
        exact h.goto hr r.i .broke hat
      · rename_i hflag
        rw [if_neg hflag] at hat
        exact h.goto hr r.i .asleep hat
  | asleep => exact h
  | broke =>
      rw [hphase] at hat
      dsimp only at hat ⊢
      split
      · rename_i hread
        rw [if_neg (by simp [hat.left, hat.seq, hat.len])]
        exact h.goto hr r.i .load hat
      · rename_i hwrite
        rw [if_neg hat.left]
        exact h.finish (hr.right h.seqcnt (iff_of_false (fun hd => nomatch hd) hat.ne_nil)
          fun hread => absurd hread hwrite) (hr.next _)
  | out =>
      rw [hphase] at hat
      obtain ⟨hnil, hread, hno⟩ := hat
      dsimp only
      have hfail : r.i = 0 ∨ r.access.seqNum ≠ s.resp.seq ∨ r.access.cmdLen ≠ s.resp.len := by
        by_contra hall
        simp only [not_or, not_not] at hall
        exact hno ⟨hall.2.1.symm, hall.2.2.symm⟩
      rw [if_pos hread, if_pos hfail]
      exact h.finish (hr.right h.seqcnt (iff_of_true rfl hnil) fun _ hne => absurd rfl hne)
        (hr.next _)
  | load =>
      rw [hphase] at hat
      obtain ⟨p, hp, hdata⟩ := hat.data
      refine h.finish (hr.right h.seqcnt (iff_of_false (fun hd => nomatch hd) hat.ne_nil)
        fun _ _ => ⟨p, hp, ?_⟩) (hr.next _)
      rw [word_eq hdata]

/-- **A wait runs out.** -/
theorem expire (h : s.Inv) (hproc : s.proc = .running r) (hm : r.MayExpire s.resp) :
    (s.expire r).Inv := by
  have hr := h.running hproc
  have hat := hr.atPhase
  unfold State.expire
  split
  · rename_i hphase
    rw [Running.AtPhase, hphase] at hat
    have hmay := hm hphase
    split at hmay
    · rename_i hread
      rw [hread, Bool.not_true, Bool.false_and, if_neg Bool.false_ne_true]
      split
      · rename_i hlast
        exact h.goto hr (-1) .out ⟨hat, hread, hmay hlast⟩
      · exact h.goto hr (r.i - 1) .clear hat
    · rw [hmay.2, Bool.and_false, if_neg Bool.false_ne_true, if_neg hmay.1]
      exact h.goto hr (r.i - 1) .clear hat
  · exact h

theorem signal (h : s.Inv) (hm : r.phase ≠ .look ∧ r.phase ≠ .asleep) : (s.signal r).Inv := by
  unfold State.signal
  split
  · rename_i hphase
    exact absurd hphase hm.1
  · rename_i hphase
    exact absurd hphase hm.2
  · exact h

end State.Inv

/-! ### A frame at an access -/

section Arrive

variable {s : State} {r : Running} {n : Nat} {f : Frame} {id : Option Nat} {wakes : Bool}

/-- Its own answer is in time unless the wait has not begun, or is over. -/
theorem Running.inTime_arrive_own (hn : n ∈ r.own) (hclear : r.phase ≠ .clear)
    (hout : r.phase ≠ .out) : (r.arrive wakes (some n) f).inTime = r.inTime ++ [(n, f)] :=
  if_pos ⟨hn, hclear, hout⟩

theorem Running.inTime_arrive (h : ¬r.Own id ∨ r.phase = .clear ∨ r.phase = .out) :
    (r.arrive wakes id f).inTime = r.inTime := by
  cases id with
  | none => rfl
  | some n =>
      refine if_neg fun hin => ?_
      rcases h with hown | hclear | hout
      · exact hown ⟨n, rfl, hin.1⟩
      · exact hin.2.1 hclear
      · exact hin.2.2 hout

theorem Running.phase_arrive (h : r.phase ≠ .asleep ∨ wakes = false) :
    (r.arrive wakes id f).phase = r.phase := by
  refine if_neg fun hin => ?_
  obtain ⟨hwakes, hasleep⟩ := Bool.and_eq_true_iff.mp hin
  rcases h with hphase | hno
  · exact hphase (of_decide_eq_true hasleep)
  · exact Bool.false_ne_true (hno.symm.trans hwakes)

/-- An answer to a request of the access carries its number and length. -/
theorem Running.Inv.fits_answer (h : r.Inv s) (hs : s.seqcnt ≤ 0x7ffffffe) (hn : n ∈ r.own)
    (ha : s.Answers n f.data) : r.access.Fits f.data := by
  obtain ⟨-, req, hreq, hseq, hlen⟩ := ha
  rw [h.own n hn, Option.mem_some_iff] at hreq
  obtain ⟨hseq', hlen'⟩ := h.fits_config hs
  rw [hreq] at hseq' hlen'
  exact ⟨hseq.trans hseq', hlen.trans hlen'⟩

theorem Running.Inv.mem_arrive (h : r.Inv s) (hs : s.seqcnt ≤ 0x7ffffffe)
    (ha : ∀ n ∈ id, s.Answers n f.data) :
    ∀ p ∈ (r.arrive wakes id f).inTime, p.1 ∈ r.own ∧ r.access.Fits p.2.data := by
  intro p hp
  by_cases hown : r.Own id
  · obtain ⟨n, hid, hn⟩ := hown
    cases hid
    by_cases htime : r.phase ≠ .clear ∧ r.phase ≠ .out
    · rw [Running.inTime_arrive_own hn htime.1 htime.2] at hp
      rcases List.mem_append.mp hp with hold | hnew
      · exact h.inTime p hold
      · rw [List.mem_singleton.mp hnew]
        exact ⟨hn, h.fits_answer hs hn (ha n rfl)⟩
    · rw [Running.inTime_arrive (Or.inr (by grind))] at hp
      exact h.inTime p hp
  · rw [Running.inTime_arrive (Or.inl hown)] at hp
    exact h.inTime p hp

/-- What was stored is there to be found. -/
theorem got_own {a : Access} {i : Int} {inTime : List (Nat × Frame)} (b : Block)
    (hlen : a.cmdLen = 4) (hi : i ≠ 0) :
    Got a i (inTime ++ [(n, f)]) ⟨b.memcpy ((f.data.drop 10).take 4), 4, a.seqNum⟩ := by
  refine ⟨hi, rfl, hlen.symm, (n, f), List.mem_append_right _ List.mem_cons_self, ?_⟩
  have hfour : ((f.data.drop 10).take 4).length = 4 := by
    have hlong := f.long
    rw [List.length_take, List.length_drop]
    omega
  rw [Block.memcpy, Block.store, splice_zero,
    List.take_append_of_le_length (Nat.le_of_eq hfour.symm), List.take_take, Nat.min_self]

/-- Where an access is behind its own answer. -/
theorem Running.Inv.atPhase_own (h : r.Inv s) (hs : s.seqcnt ≤ 0x7ffffffe) (hn : n ∈ r.own)
    (hb : r.Bears s.seqcnt (some n) f) (ha : s.Answers n f.data) :
    (r.arrive (s.headerReceiveSkb f.data).2 (some n) f).AtPhase true
      (s.headerReceiveSkb f.data).1.resp := by
  have hfits := h.fits_answer hs hn ha
  have hle : s.seqcnt ≤ r.access.seqNum := by
    rcases h.seqNum with hr | heq <;> omega
  have hown : r.Own (some n) := ⟨n, rfl, hn⟩
  have hat := h.atPhase
  rw [headerReceiveSkb_of_fits h.cmdLen hle hfits]
  unfold Running.Bears at hb
  unfold Running.AtPhase at hat ⊢
  have hgot : ∀ hi : r.i ≠ 0, r.phase ≠ .clear → r.phase ≠ .out →
      Got r.access r.i (r.arrive true (some n) f).inTime
        ⟨s.resp.data.memcpy ((f.data.drop 10).take 4), 4, r.access.seqNum⟩ :=
          fun hi hclear hout => by
    rw [Running.inTime_arrive_own hn hclear hout]
    exact got_own _ h.cmdLen hi
  cases hphase : r.phase with
  | asleep =>
      rw [hphase] at hb hgot
      have hlook : (r.arrive true (some n) f).phase = .look := by
        simp [Running.arrive, hphase]
      rw [hlook]
      dsimp only at hb
      rw [if_pos hown] at hb
      exact hgot hb (fun hc => nomatch hc) fun hc => nomatch hc
  | clear =>
      rw [Running.phase_arrive (Or.inl (by rw [hphase]; decide)), hphase]
      rw [hphase] at hat
      exact (Running.inTime_arrive (Or.inr (Or.inl hphase))).trans hat
  | out =>
      rw [hphase] at hb
      exact absurd hfits hb
  | send | check | look =>
      rw [Running.phase_arrive (Or.inl (by rw [hphase]; decide)), hphase]
      rw [hphase] at hb hgot
      exact hgot hb.2 (fun hc => nomatch hc) fun hc => nomatch hc
  | broke | load =>
      rw [Running.phase_arrive (Or.inl (by rw [hphase]; decide)), hphase]
      rw [hphase] at hat hgot
      exact hgot hat.left (fun hc => nomatch hc) fun hc => nomatch hc

/-- Where an access is behind another frame. -/
theorem Running.Inv.atPhase_other (h : r.Inv s) (hown : ¬r.Own id)
    (hb : r.Bears s.seqcnt id f) :
    (r.arrive (s.headerReceiveSkb f.data).2 id f).AtPhase true
      (s.headerReceiveSkb f.data).1.resp := by
  have hat := h.atPhase
  have hnil : (r.arrive (s.headerReceiveSkb f.data).2 id f).inTime = r.inTime :=
    Running.inTime_arrive (Or.inl hown)
  unfold Running.Bears at hb
  unfold Running.AtPhase at hat ⊢
  cases hphase : r.phase with
  | asleep =>
      rw [hphase] at hb hat
      dsimp only at hb
      rw [if_neg hown] at hb
      rw [Running.phase_arrive (Or.inr (headerReceiveSkb_asleep hb)), hphase]
      exact hnil.trans hat
  | clear =>
      rw [Running.phase_arrive (Or.inl (by rw [hphase]; decide)), hphase]
      rw [hphase] at hat
      exact hnil.trans hat
  | out =>
      rw [Running.phase_arrive (Or.inl (by rw [hphase]; decide)), hphase]
      rw [hphase] at hat hb
      exact ⟨hnil.trans hat.1, hat.2.1,
        headerReceiveSkb_of_not_fits (h.cmdLen ▸ by decide) hb⟩
  | send | check | look =>
      rw [hphase] at hb
      exact absurd hb.1 hown
  | broke | load =>
      rw [hphase] at hb
      exact absurd hb hown

/-- **A frame that does no harm** keeps the invariant. -/
theorem State.Inv.arrive (h : s.Inv) (hb : ∀ r, s.proc = .running r → r.Bears s.seqcnt id f)
    (ha : ∀ n ∈ id, s.Answers n f.data) : (s.arrive id f).Inv := by
  have hfst := headerReceiveSkb_fst s f.data
  have hproc := congrArg State.proc hfst
  have hsent := congrArg State.sent hfst
  have hseqcnt := congrArg State.seqcnt hfst
  have hlog := congrArg State.log hfst
  have hflag := congrArg State.waitFlag hfst
  refine ⟨hseqcnt.trans_le h.seqcnt, fun o ho => ?_, ?_⟩
  · change o ∈ (s.headerReceiveSkb f.data).1.log at ho
    change o.Right (s.headerReceiveSkb f.data).1.sent
    rw [hsent]
    rw [hlog] at ho
    exact h.right o ho
  · unfold State.ProcInv State.arrive
    dsimp only
    rw [hproc]
    cases hp : s.proc with
    | idle => trivial
    | next p =>
        have hok := h.proc
        rw [ProcInv, hp] at hok
        dsimp only
        rwa [hseqcnt]
    | running r =>
        have hr := h.running hp
        have hat : (r.arrive (s.headerReceiveSkb f.data).2 id f).AtPhase true
            (s.headerReceiveSkb f.data).1.resp := by
          by_cases hown : r.Own id
          · obtain ⟨n, hid, hn⟩ := hown
            cases hid
            exact hr.atPhase_own h.seqcnt hn (hb r hp) (ha n rfl)
          · exact hr.atPhase_other hown (hb r hp)
        refine ⟨hr.cmdLen, ?_, hr.inProcess, ?_, hr.mem_arrive h.seqcnt ha, ?_, ?_⟩
        · exact hseqcnt ▸ hr.seqNum
        · exact hsent ▸ hr.own
        · exact hseqcnt ▸ hr.next
        · exact hflag ▸ hat

end Arrive

/-! ### Runs -/

theorem inv_start : start.Inv :=
  ⟨Nat.zero_le _, fun _ ho => (nomatch ho), trivial⟩

/-- **Every event that does no harm keeps the invariant.** -/
theorem inv_step {s : State} {e : Event} (h : s.Inv) (he : Heeds s e) : (step s e).Inv := by
  unfold Heeds at he
  unfold step
  cases e with
  | call c =>
      dsimp only
      split
      · refine ⟨h.seqcnt, h.right, ?_⟩
        cases c with
        | readReg inInterrupt regAddr => exact ok_athrs26HeaderReadReg inInterrupt regAddr
        | writeReg inInterrupt regAddr regData =>
            change inInterrupt = false at he
            rw [he]
            exact ok_athrs26HeaderWriteReg regAddr regData
      · exact h
  | go =>
      dsimp only
      split
      · exact h
      · rename_i p hproc
        have hok := h.proc
        rw [ProcInv, hproc] at hok
        exact h.goOn hok
      · rename_i r hproc
        exact h.run hproc
  | expire =>
      dsimp only
      split
      · rename_i r hproc
        rw [hproc] at he
        exact h.expire hproc he
      · exact h
  | signal =>
      dsimp only
      split
      · rename_i r hproc
        rw [hproc] at he
        exact h.signal he
      · exact h
  | arrive id f =>
      have hb : ∀ r, s.proc = .running r → r.Bears s.seqcnt id f := fun r hproc => by
        rwa [hproc] at he
      cases id with
      | none => exact h.arrive hb fun n hn => (nomatch hn)
      | some n =>
          dsimp only
          split
          · rename_i ha
            refine h.arrive hb fun m hm => ?_
            rwa [← Option.mem_some_iff.mp hm]
          · exact h

/-- **The invariant is reliable.** -/
theorem State.Inv.reliable {s : State} (h : s.Inv) (hs : Bounded s.resp) : Reliable s := by
  refine ⟨hs.2, h.right, fun r hproc hphase => ?_⟩
  have hat := (h.running hproc).atPhase
  rw [Running.AtPhase, hphase] at hat
  exact hat.ne_nil

/-- **Register accesses are reliable** in every run whose events do no harm. -/
theorem reliable_runs {as : List Event} (h : Meets step Heeds start as) :
    Reliable (runs step start as) :=
  (Meets.invariant (fun _ _ => inv_step) inv_start h).reliable (bounded_runs bounded_start)

instance Running.decidableBears (seqcnt : Nat) (id : Option Nat) (f : Frame) :
    ∀ r : Running, Decidable (r.Bears seqcnt id f)
  | ⟨_, _, .clear, _, _, _⟩ => .isTrue trivial
  | ⟨_, i, .send, own, _, _⟩ | ⟨_, i, .check, own, _, _⟩ | ⟨_, i, .look, own, _, _⟩ =>
      inferInstanceAs (Decidable ((∃ n ∈ id, n ∈ own) ∧ i ≠ 0))
  | ⟨_, i, .asleep, own, _, _⟩ => inferInstanceAs (Decidable
      (if ∃ n ∈ id, n ∈ own then i ≠ 0 else 10 < respLen f.data ∨ respSeq f.data < seqcnt))
  | ⟨_, _, .broke, own, _, _⟩ | ⟨_, _, .load, own, _, _⟩ =>
      inferInstanceAs (Decidable (∃ n ∈ id, n ∈ own))
  | ⟨access, _, .out, _, _, _⟩ => inferInstanceAs (Decidable ¬access.Fits f.data)

instance Running.decidableMayExpire (r : Running) (resp : CmdResp) : Decidable (r.MayExpire resp) :=
  inferInstanceAs (Decidable (r.phase = .asleep →
    if r.access.wrFlag then r.i = 0 → ¬(resp.seq = r.access.seqNum ∧ resp.len = r.access.cmdLen)
    else r.i ≠ 0 ∧ r.access.isReset = false))

instance Heeds.decidable : ∀ (s : State) (e : Event), Decidable (Heeds s e)
  | _, .call (.readReg _ _) | _, .go => .isTrue trivial
  | _, .call (.writeReg inInterrupt _ _) => inferInstanceAs (Decidable (inInterrupt = false))
  | ⟨_, resp, _, .running r, _, _, _, _⟩, .expire => Running.decidableMayExpire r resp
  | ⟨_, _, _, .running r, _, _, _, _⟩, .signal =>
      inferInstanceAs (Decidable (r.phase ≠ .look ∧ r.phase ≠ .asleep))
  | ⟨_, _, seqcnt, .running r, _, _, _, _⟩, .arrive id f => Running.decidableBears seqcnt id f r
  | ⟨_, _, _, .idle, _, _, _, _⟩, .expire | ⟨_, _, _, .next _, _, _, _, _⟩, .expire
  | ⟨_, _, _, .idle, _, _, _, _⟩, .signal | ⟨_, _, _, .next _, _, _, _, _⟩, .signal
  | ⟨_, _, _, .idle, _, _, _, _⟩, .arrive _ _ | ⟨_, _, _, .next _, _, _, _, _⟩, .arrive _ _ =>
      .isTrue trivial

theorem long_padded (data : List Byte) : 60 ≤ (data ++ List.replicate 60 0).length := by
  rw [List.length_append, List.length_replicate]
  exact Nat.le_add_left _ _

/-- A frame, padded. -/
def frame (data : List Byte) : Frame := ⟨data ++ List.replicate 60 0, long_padded data⟩

/-- The answer to a request. -/
def answer (a : Access) (w : Word) : Frame :=
  frame ((athrs26HeaderConfigReg a).take 10 ++ regTmp w)

/-- An access begins, and its process goes to sleep. -/
def attempt : List Event := [.go, .go, .go, .go]

/-- A read: the answer to its first request for the learning of the CPU port comes behind the
second, and a frame of 15 bytes and the answer to an older request while it waits. -/
def polled : List Event :=
  [.call (.readReg false 0x10), .go] ++ attempt ++
    [.arrive none (frame [0x50, 0x06, 0, 0, 0xf0]), .expire] ++ attempt ++
    [.arrive (some 0) (answer ⟨true, 0x104, 4, 0, 0x7fffffff, false⟩ 0), .go, .go, .go, .go, .go] ++
    attempt ++
    [.arrive none (answer ⟨true, 0x10, 4, 0, 0, false⟩ 5),
      .arrive (some 2) (answer ⟨true, 0x10, 4, 0, 1, false⟩ 7), .go, .go, .go, .go]

theorem reliable_polled : Reliable (runs step start polled) :=
  reliable_runs (by decide +kernel)

/-- The time of three waits runs out. -/
def timeout : List Event := attempt ++ [.expire] ++ attempt ++ [.expire] ++ attempt ++ [.expire]

/-- A write to a switch that does not answer. -/
def unanswered : List Event :=
  [.call (.writeReg false 0x10 7), .go] ++ timeout ++ [.go, .go, .go] ++ timeout ++ [.go]

/-- **A write returns 0** although none of its requests was answered. -/
theorem unanswered_unreliable : ¬Reliable (runs step start unanswered) := by
  intro h
  have hlog : (true, Ret.done) ∈
      (runs step start unanswered).log.map fun o => (o.inTime.isEmpty, o.ret) := by decide +kernel
  obtain ⟨o, ho, heq⟩ := List.mem_map.mp hlog
  obtain ⟨hnil, hret⟩ := Prod.mk.inj heq
  have hfail := (h.right o ho).fail_iff.mpr (List.isEmpty_iff.mp hnil)
  rw [hret] at hfail
  exact nomatch hfail

end Wap4410n.Athrs26
