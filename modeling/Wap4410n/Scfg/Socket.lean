import Wap4410n.Support.Loop
import Wap4410n.Support.Stream
import Wap4410n.Nvram.Shadow

/-!
# Scfg — the messages of the configuration protocol

A message is a header (`SCM_MAGIC`, a command, a length) and as many bytes as the length says.
`socket_read` takes the header in one `read`, whatever that brings, and the payload in a loop whose
every `read` asks for the whole length again; a `read` that returns 0 is one more iteration.

* `readLoop_enough`, `readLoop_eof`, `readLoop_error`: the loop, by what the peer still sends.
* `readsMessage_iff`: a message is read as it was sent just when its header came in one piece and
  no piece that starts inside the payload runs past its end.
* `readsOrFails_iff`: the call returns, and −1 where the message is not complete, just when the
  peer does not close the connection inside a payload or a header.
-/

namespace Wap4410n.Scfg

open CLib
open Nvram (Sys)

/-! ### The header -/

/-- `SCM_MAGIC` -/
def scmMagic : UInt32 := 0x53634d4d

/-- `scfgmgr_header` -/
structure Header where
  magic : UInt32
  cmd : Int32
  len : UInt32
deriving DecidableEq

/-- `sizeof(scfgmgr_header)` -/
def headerSize : Nat := 12

/-- The header as it lies in memory. -/
def Header.mem (h : Header) : List Byte := be32 h.magic ++ (be32 h.cmd.toUInt32 ++ be32 h.len)

/-- The header that lies at `m`. -/
def Header.ofMem (m : List Byte) : Header where
  magic := ofBe32 m
  cmd := (ofBe32 (m.drop 4)).toInt32
  len := ofBe32 (m.drop 8)

@[simp] theorem Header.length_mem (h : Header) : h.mem.length = headerSize := rfl

theorem Header.ofMem_mem (h : Header) : Header.ofMem h.mem = h := by
  have e₁ : h.mem.drop 4 = be32 h.cmd.toUInt32 ++ (be32 h.len ++ []) := rfl
  have e₂ : h.mem.drop 8 = be32 h.len ++ [] := rfl
  have e₀ : h.mem = be32 h.magic ++ (be32 h.cmd.toUInt32 ++ be32 h.len) := rfl
  rw [Header.ofMem, e₁, e₂, e₀]
  simp only [ofBe32_be32]
  rfl

/-! ### `socket_read` -/

/-- What a call of `socket_read` leaves: its return value, what `*header` and `*data` point to
(`none` where that is NULL or was never assigned), and the stream. -/
structure ReadRun where
  ret : Int
  header : Option Header
  data : Option Block
  peer : Stream

/-- The state of the loop over the payload; `total` is also where `pt` points. -/
structure ReadState where
  total : Nat
  data : Block
  peer : Stream

/-- `while(total< (*header)->len)`.  A `read` that is not refused keeps `total` below 2^32. -/
def readBody (header : Header) (s : ReadState) : ReadState ⊕ ReadRun :=
  if s.total < header.len.toNat then
    match s.peer.read header.len.toNat with
    | (none, peer) => .inr ⟨-1, some header, some s.data, peer⟩
    | (some got, peer) => .inl ⟨s.total + got.length, s.data.store s.total got, peer⟩
  else .inr ⟨0, some header, some s.data, s.peer⟩

/-- `*header` after the first `read`: what it did not bring is what the memory held. -/
def headerRead (sys : Sys) (got : List Byte) : Header :=
  Header.ofMem (((Block.fresh headerSize).store 0 got).contents sys.junk headerSize)

/-- `socket_read` up to its loop: where it returns before, its result, else the header and the
stream behind it.  `rdata` says whether the caller gave an address for the payload. -/
def socketReadHeader (sys : Sys) (rdata : Bool) (peer : Stream) :
    Run Obj ReadRun ⊕ (Header × Stream) :=
  if !sys.malloc headerSize then .inl (.ok ⟨-1, none, none, peer⟩) else
  match peer.read headerSize with
  | (none, peer) => .inl (.ok ⟨-1, some (headerRead sys []), none, peer⟩)
  | (some got, peer) =>
    let header := headerRead sys got
    if header.magic ≠ scmMagic then .inl (.ok ⟨-1, some header, none, peer⟩)
    else if header.len = 0 then .inl (.ok ⟨0, some header, none, peer⟩)
    -- `*data=malloc(...)` stores through `data`
    else if !rdata then .inl (.error (.null .rdata))
    else if !sys.malloc header.len.toNat then .inl (.ok ⟨-1, some header, none, peer⟩)
    else .inr (header, peer)

/-- `socket_read` with at most `fuel` iterations of its loop: `none` where it has not returned by
then. -/
def socketRead (sys : Sys) (rdata : Bool) (peer : Stream) (fuel : Nat) :
    Option (Run Obj ReadRun) :=
  match socketReadHeader sys rdata peer with
  | .inl r => some r
  | .inr (header, peer) =>
    (Loop.run (readBody header) fuel ⟨0, .fresh header.len.toNat, peer⟩).map .ok

/-- `socket_read` returns, or stops at a fault. -/
def SocketReads (sys : Sys) (rdata : Bool) (peer : Stream) (r : Run Obj ReadRun) : Prop :=
  ∃ fuel, socketRead sys rdata peer fuel = some r

/-! ### The loop over the payload -/

section ReadLoop

variable {header : Header}

theorem readBody_done {s : ReadState} (h : header.len.toNat ≤ s.total) :
    readBody header s = .inr ⟨0, some header, some s.data, s.peer⟩ :=
  if_neg (Nat.not_lt.mpr h)

theorem readBody_some {s : ReadState} {got : List Byte} {peer : Stream}
    (h : s.total < header.len.toNat) (hr : s.peer.read header.len.toNat = (some got, peer)) :
    readBody header s = .inl ⟨s.total + got.length, s.data.store s.total got, peer⟩ := by
  rw [readBody, if_pos h, hr]

theorem readBody_none {s : ReadState} {peer : Stream} (h : s.total < header.len.toNat)
    (hr : s.peer.read header.len.toNat = (none, peer)) :
    readBody header s = .inr ⟨-1, some header, some s.data, peer⟩ := by
  rw [readBody, if_pos h, hr]

/-- **Enough bytes are sent**: the loop returns 0.  What it has read past the first `total` bytes
ends at the end of the payload just when a piece does. -/
theorem readLoop_enough (hmax : header.len.toNat ≤ intMax) {s : ReadState}
    (hdata : s.data.bytes.length = s.total) (hlt : s.total < header.len.toNat)
    (henough : header.len.toNat ≤ s.total + s.peer.rest.length) :
    ∃ got peer, Loop.Returns (readBody header) s
        ⟨0, some header, some ⟨s.data.size, s.data.bytes ++ got⟩, peer⟩ ∧
      s.peer.rest = got ++ peer.rest ∧ header.len.toNat ≤ s.total + got.length ∧
      (s.total + got.length = header.len.toNat ↔
        (s.total = 0 ∧ ¬ s.peer.CutWithin 0 header.len.toNat) ∨
          s.peer.Cut (header.len.toNat - s.total)) := by
  induction hn : s.peer.rest.length using Nat.strongRecOn generalizing s with
  | ind n ih =>
      have hpos : 0 < header.len.toNat := Nat.zero_lt_of_lt hlt
      rcases s.peer.read_cases hmax hpos with ⟨got, peer, hr, hne, hle, hrest, -⟩ | ⟨hnil, -⟩
      · have hstep := readBody_some hlt hr
        have hgot : 0 < got.length := List.length_pos_iff.mpr hne
        have hstore : s.data.store s.total got = ⟨s.data.size, s.data.bytes ++ got⟩ := by
          rw [← hdata]
          exact congrArg (Block.mk _) (Block.bytes_store_end _ _)
        have hlen : s.peer.rest.length = got.length + peer.rest.length := by
          rw [hrest, List.length_append]
        by_cases hdone : header.len.toNat ≤ s.total + got.length
        · -- the last read
          refine ⟨got, peer, ?_, hrest, hdone, ?_⟩
          · rw [Loop.returns_of_inl hstep, hstore, Loop.returns_of_inr (readBody_done hdone)]
          · constructor
            · intro hexact
              by_cases h₀ : s.total = 0
              · refine .inl ⟨h₀, fun ⟨p, hp, hpn, hcut⟩ => ?_⟩
                have := Stream.le_of_cut hr hne hp hcut
                omega
              · right
                have hc := Stream.cut_of_lt hr hne (by omega)
                rwa [show header.len.toNat - s.total = got.length by omega]
            · rintro (⟨h₀, -⟩ | hcut)
              · omega
              · have := Stream.le_of_cut hr hne (by omega) hcut
                omega
        · -- more to come
          have hmore := Nat.lt_of_not_le hdone
          obtain ⟨got', peer', hret, hrest', hge, hiff⟩ :=
            ih peer.rest.length (by omega)
              (s := ⟨s.total + got.length, s.data.store s.total got, peer⟩)
              (by rw [hstore, List.length_append, hdata]) hmore
              (by show _ ≤ s.total + got.length + peer.rest.length; omega) rfl
          have hge' : header.len.toNat ≤ s.total + got.length + got'.length := hge
          refine ⟨got ++ got', peer', ?_, ?_, ?_, ?_⟩
          · rw [Loop.returns_of_inl hstep]
            rw [hstore] at hret ⊢
            rwa [← List.append_assoc]
          · rw [hrest, hrest', List.append_assoc]
          · rw [List.length_append]
            omega
          · have hcut := Stream.cut_read (p := header.len.toNat - (s.total + got.length)) hr hne
              (by omega)
            rw [show got.length + (header.len.toNat - (s.total + got.length)) =
              header.len.toNat - s.total by omega] at hcut
            have h₀ : ¬ (s.total = 0 ∧ ¬ s.peer.CutWithin 0 header.len.toNat) := fun ⟨_, hw⟩ =>
              hw ⟨got.length, hgot, by omega, Stream.cut_of_lt hr hne (by omega)⟩
            have h₁ : s.total + got.length ≠ 0 := by omega
            rw [List.length_append, ← Nat.add_assoc, hiff, ← hcut, or_iff_right h₀,
              or_iff_right fun h => h₁ h.1]
      · rw [hnil] at henough
        simp at henough
        omega

/-- **Too few bytes, and the peer closes the connection**: the loop never returns. -/
theorem readLoop_eof (hmax : header.len.toNat ≤ intMax) {s : ReadState}
    (hfin : s.peer.fin = .eof) (hshort : s.total + s.peer.rest.length < header.len.toNat)
    (r : ReadRun) : ¬ Loop.Returns (readBody header) s r := by
  refine Loop.not_returns_of_invariant
    (I := fun s => s.peer.fin = .eof ∧ s.total + s.peer.rest.length < header.len.toNat)
    (fun s ⟨hfin, hshort⟩ => ?_) ⟨hfin, hshort⟩ r
  have hlt : s.total < header.len.toNat := by omega
  rcases s.peer.read_cases hmax (Nat.zero_lt_of_lt hlt) with
    ⟨got, peer, hr, -, -, hrest, hfin'⟩ | ⟨hnil, ⟨-, hr⟩ | ⟨herr, -⟩⟩
  · refine ⟨_, readBody_some hlt hr, hfin'.trans hfin, ?_⟩
    rw [hrest, List.length_append] at hshort
    show s.total + got.length + peer.rest.length < _
    omega
  · exact ⟨_, readBody_some hlt hr, hfin, hshort⟩
  · rw [hfin] at herr
    cases herr

/-- **Too few bytes, and the connection breaks**: the loop returns −1. -/
theorem readLoop_error (hmax : header.len.toNat ≤ intMax) {s : ReadState}
    (hfin : s.peer.fin = .error) (hshort : s.total + s.peer.rest.length < header.len.toNat) :
    ∃ r, Loop.Returns (readBody header) s r ∧ r.ret = -1 := by
  induction hn : s.peer.rest.length using Nat.strongRecOn generalizing s with
  | ind n ih =>
      have hlt : s.total < header.len.toNat := by omega
      rcases s.peer.read_cases hmax (Nat.zero_lt_of_lt hlt) with
        ⟨got, peer, hr, hne, -, hrest, hfin'⟩ | ⟨hnil, ⟨heof, -⟩ | ⟨-, hr⟩⟩
      · have hgot : 0 < got.length := List.length_pos_iff.mpr hne
        have hlen : s.peer.rest.length = got.length + peer.rest.length := by
          rw [hrest, List.length_append]
        obtain ⟨r, hret, hr'⟩ := ih peer.rest.length (by omega)
          (s := ⟨s.total + got.length, s.data.store s.total got, peer⟩) (hfin'.trans hfin)
          (by show s.total + got.length + peer.rest.length < _; omega) rfl
        exact ⟨r, (Loop.returns_of_inl (readBody_some hlt hr) r).mpr hret, hr'⟩
      · rw [hfin] at heof
        cases heof
      · exact ⟨_, (Loop.returns_of_inr (readBody_none hlt hr) _).mpr rfl, rfl⟩

/-- A length above `INT_MAX` is refused by the first `read`. -/
theorem readLoop_refused (hmax : intMax < header.len.toNat) {s : ReadState}
    (hlt : s.total < header.len.toNat) :
    Loop.Returns (readBody header) s ⟨-1, some header, some s.data, s.peer⟩ :=
  (Loop.returns_of_inr (readBody_none hlt (Stream.read_refused hmax)) _).mpr rfl

/-- Each iteration stores what it takes from the stream. -/
theorem readBody_inl {s s' : ReadState} (hdata : s.data.bytes.length = s.total)
    (h : readBody header s = .inl s') :
    s'.data.bytes.length = s'.total ∧
      s'.data.bytes.length + s'.peer.rest.length = s.data.bytes.length + s.peer.rest.length := by
  unfold readBody at h
  split at h
  · rename_i hlt
    by_cases hmax : header.len.toNat ≤ intMax
    · rcases s.peer.read_cases hmax (Nat.zero_lt_of_lt hlt) with
        ⟨got, peer, hr, -, -, hrest, -⟩ | ⟨-, ⟨-, hr⟩ | ⟨-, hr⟩⟩
      · rw [hr] at h
        cases h
        have hb := Block.bytes_store_end s.data got
        rw [hdata] at hb
        show (s.data.store s.total got).bytes.length = s.total + got.length ∧
          (s.data.store s.total got).bytes.length + peer.rest.length = _
        rw [hb, hrest, List.length_append, List.length_append, hdata]
        omega
      · rw [hr] at h
        cases h
        have hb := Block.bytes_store_end s.data []
        rw [hdata, List.append_nil] at hb
        show (s.data.store s.total []).bytes.length = s.total ∧
          (s.data.store s.total []).bytes.length + s.peer.rest.length = _
        rw [hb]
        exact ⟨hdata, rfl⟩
      · rw [hr] at h
        cases h
    · rw [Stream.read_refused (Nat.lt_of_not_le hmax)] at h
      cases h
  · cases h

/-- A loop that returns 0 has stored all it took. -/
theorem readLoop_consumed {s : ReadState} {run : ReadRun}
    (hdata : s.data.bytes.length = s.total) (hret : run.ret = 0)
    (hrun : Loop.Returns (readBody header) s run) :
    s.data.bytes.length + s.peer.rest.length =
      ((run.data.map Block.bytes).getD []).length + run.peer.rest.length := by
  obtain ⟨s', ⟨-, hsum⟩, hend⟩ := Loop.Returns.of_invariant
    (I := fun s' => s'.data.bytes.length = s'.total ∧
      s'.data.bytes.length + s'.peer.rest.length = s.data.bytes.length + s.peer.rest.length)
    (fun a b ⟨ha, hsum⟩ hstep =>
      ⟨(readBody_inl ha hstep).1, (readBody_inl ha hstep).2.trans hsum⟩)
    ⟨hdata, rfl⟩ hrun
  rw [← hsum]
  unfold readBody at hend
  split at hend
  · split at hend
    · cases hend
      cases hret
    · cases hend
  · cases hend
    rfl

end ReadLoop

/-! ### The call -/

section Call

variable {sys : Sys} {rdata : Bool} {peer peer' : Stream} {got : List Byte} {header : Header}

theorem socketReads_of_inl {r₀ : Run Obj ReadRun} (h : socketReadHeader sys rdata peer = .inl r₀)
    (r : Run Obj ReadRun) : SocketReads sys rdata peer r ↔ r = r₀ := by
  simp only [SocketReads, socketRead, h, Option.some.injEq, exists_const]
  exact eq_comm

theorem socketReads_of_inr (h : socketReadHeader sys rdata peer = .inr (header, peer'))
    (r : Run Obj ReadRun) : SocketReads sys rdata peer r ↔ ∃ run, r = .ok run ∧
      Loop.Returns (readBody header) ⟨0, .fresh header.len.toNat, peer'⟩ run := by
  simp only [SocketReads, socketRead, h, Option.map_eq_some_iff, Loop.Returns]
  constructor
  · rintro ⟨fuel, run, hrun, rfl⟩
    exact ⟨run, rfl, fuel, hrun⟩
  · rintro ⟨run, rfl, fuel, hrun⟩
    exact ⟨fuel, run, hrun, rfl⟩

/-- A call returns one result at most. -/
theorem SocketReads.unique {r r' : Run Obj ReadRun} (h : SocketReads sys rdata peer r)
    (h' : SocketReads sys rdata peer r') : r = r' := by
  cases hhead : socketReadHeader sys rdata peer with
  | inl r₀ => rw [(socketReads_of_inl hhead r).mp h, (socketReads_of_inl hhead r').mp h']
  | inr hp =>
      obtain ⟨run, rfl, hrun⟩ := (socketReads_of_inr hhead r).mp h
      obtain ⟨run', rfl, hrun'⟩ := (socketReads_of_inr hhead r').mp h'
      rw [hrun.unique hrun']

theorem socketReadHeader_noHeader (rdata : Bool) (peer : Stream)
    (hm : sys.malloc headerSize = false) :
    socketReadHeader sys rdata peer = .inl (.ok ⟨-1, none, none, peer⟩) := by
  rw [socketReadHeader, hm]
  rfl

theorem socketReadHeader_fails (rdata : Bool) (hm : sys.malloc headerSize = true)
    (hr : peer.read headerSize = (none, peer')) :
    socketReadHeader sys rdata peer =
      .inl (.ok ⟨-1, some (headerRead sys []), none, peer'⟩) := by
  rw [socketReadHeader, hm, hr]
  rfl

/-- Past its first `read`, `socket_read` looks at the header, then asks for memory. -/
theorem socketReadHeader_some (rdata : Bool) (hm : sys.malloc headerSize = true)
    (hr : peer.read headerSize = (some got, peer')) :
    socketReadHeader sys rdata peer =
      if (headerRead sys got).magic ≠ scmMagic then
        .inl (.ok ⟨-1, some (headerRead sys got), none, peer'⟩)
      else if (headerRead sys got).len = 0 then
        .inl (.ok ⟨0, some (headerRead sys got), none, peer'⟩)
      else if !rdata then .inl (.error (.null .rdata))
      else if !sys.malloc (headerRead sys got).len.toNat then
        .inl (.ok ⟨-1, some (headerRead sys got), none, peer'⟩)
      else .inr (headerRead sys got, peer') := by
  rw [socketReadHeader, hm, hr]
  rfl

end Call

/-! ### The call, by its result -/

section Result

variable {sys : Sys} {rdata : Bool} {peer : Stream} {h : Header}

/-- What the first `read` of `socket_read` brings. -/
def headerGot (peer : Stream) : List Byte := ((peer.read headerSize).1).getD []

/-- The stream behind it. -/
def behindHeader (peer : Stream) : Stream := (peer.read headerSize).2

/-- The header `socket_read` goes by. -/
def headerSeen (sys : Sys) (peer : Stream) : Header := headerRead sys (headerGot peer)

theorem headerSeen_eq (sys : Sys) (peer : Stream) :
    headerSeen sys peer = headerRead sys (headerGot peer) := rfl

/-- The first `read` fails on a connection that broke before any byte came, and on no other. -/
theorem read_header (peer : Stream) :
    (peer.rest = [] ∧ peer.fin = .error ∧ peer.read headerSize = (none, peer)) ∨
      (¬ (peer.rest = [] ∧ peer.fin = .error) ∧
        peer.read headerSize = (some (headerGot peer), behindHeader peer) ∧
        (behindHeader peer).fin = peer.fin) := by
  rcases peer.read_cases (show headerSize ≤ intMax by decide) (by decide) with
    ⟨got, peer', hr, hne, -, hrest, hfin⟩ | ⟨hnil, ⟨hfin, hr⟩ | ⟨hfin, hr⟩⟩
  · right
    have hg : headerGot peer = got := by rw [headerGot, hr]; rfl
    have hb : behindHeader peer = peer' := by rw [behindHeader, hr]
    rw [hg, hb]
    refine ⟨fun ⟨hnil, _⟩ => ?_, hr, hfin⟩
    rw [hrest] at hnil
    exact hne (List.append_eq_nil_iff.mp hnil).1
  · right
    have hg : headerGot peer = [] := by rw [headerGot, hr]; rfl
    have hb : behindHeader peer = peer := by rw [behindHeader, hr]
    rw [hg, hb]
    refine ⟨fun ⟨_, herr⟩ => ?_, hr, rfl⟩
    rw [hfin] at herr
    cases herr
  · exact .inl ⟨hnil, hfin, hr⟩

/-- `socket_read` returns −1. -/
def ReadFails (sys : Sys) (rdata : Bool) (peer : Stream) : Prop :=
  sys.malloc headerSize = false ∨ (peer.rest = [] ∧ peer.fin = .error) ∨
    (headerSeen sys peer).magic ≠ scmMagic ∨
    ((headerSeen sys peer).len ≠ 0 ∧ rdata = true ∧
      (sys.malloc (headerSeen sys peer).len.toNat = false ∨
        intMax < (headerSeen sys peer).len.toNat ∨
        ((behindHeader peer).rest.length < (headerSeen sys peer).len.toNat ∧ peer.fin = .error)))

/-- `socket_read` returns 0. -/
def ReadSucceeds (sys : Sys) (rdata : Bool) (peer : Stream) : Prop :=
  sys.malloc headerSize = true ∧ ¬ (peer.rest = [] ∧ peer.fin = .error) ∧
    (headerSeen sys peer).magic = scmMagic ∧
    ((headerSeen sys peer).len = 0 ∨
      (rdata = true ∧ sys.malloc (headerSeen sys peer).len.toNat = true ∧
        (headerSeen sys peer).len.toNat ≤ intMax ∧
        (headerSeen sys peer).len.toNat ≤ (behindHeader peer).rest.length))

/-- The loop over a payload that is not empty. -/
theorem socketReads_loop {peer' : Stream}
    (hhead : socketReadHeader sys rdata peer = .inr (h, peer')) (h₀ : h.len ≠ 0) :
    (intMax < h.len.toNat ∨ (peer'.rest.length < h.len.toNat ∧ peer'.fin = .error)) ∧
        (∃ run, SocketReads sys rdata peer (.ok run) ∧ run.ret = -1) ∨
      (h.len.toNat ≤ intMax ∧ h.len.toNat ≤ peer'.rest.length) ∧
        (∃ run, SocketReads sys rdata peer (.ok run) ∧ run.ret = 0 ∧ run.header = some h) ∨
      (h.len.toNat ≤ intMax ∧ peer'.rest.length < h.len.toNat ∧ peer'.fin = .eof) ∧
        ∀ run, ¬ SocketReads sys rdata peer (.ok run) := by
  have hpos : 0 < h.len.toNat :=
    Nat.pos_of_ne_zero fun e => h₀ (UInt32.toNat_inj.mp (by rw [e]; rfl))
  have hs := socketReads_of_inr hhead
  by_cases hmax : h.len.toNat ≤ intMax
  · by_cases henough : h.len.toNat ≤ peer'.rest.length
    · obtain ⟨got, p, hloop, -⟩ := readLoop_enough hmax
        (s := ⟨0, .fresh h.len.toNat, peer'⟩) rfl hpos
        (by show _ ≤ 0 + peer'.rest.length; omega)
      exact .inr (.inl ⟨⟨hmax, henough⟩, _, (hs _).mpr ⟨_, rfl, hloop⟩, rfl, rfl⟩)
    · have hshort := Nat.lt_of_not_le henough
      have hshort' : 0 + peer'.rest.length < h.len.toNat := by omega
      cases hfin : peer'.fin with
      | eof =>
          refine .inr (.inr ⟨⟨hmax, hshort, rfl⟩, fun run hrun => ?_⟩)
          obtain ⟨run', -, hloop⟩ := (hs _).mp hrun
          exact readLoop_eof hmax (s := ⟨0, .fresh h.len.toNat, peer'⟩) hfin hshort' run' hloop
      | error =>
          obtain ⟨run, hloop, hret⟩ := readLoop_error hmax
            (s := ⟨0, .fresh h.len.toNat, peer'⟩) hfin hshort'
          exact .inl ⟨.inr ⟨hshort, rfl⟩, run, (hs _).mpr ⟨_, rfl, hloop⟩, hret⟩
  · have hrefused := Nat.lt_of_not_le hmax
    have hloop := readLoop_refused hrefused (s := ⟨0, .fresh h.len.toNat, peer'⟩) hpos
    exact .inl ⟨.inl hrefused, _, (hs _).mpr ⟨_, rfl, hloop⟩, rfl⟩

/-- **`socket_read`** returns −1, or 0 with the header it goes by, or it does not return. -/
theorem socketReads_cases (sys : Sys) (rdata : Bool) (peer : Stream) :
    (ReadFails sys rdata peer ∧ ∃ run, SocketReads sys rdata peer (.ok run) ∧ run.ret = -1) ∨
      (¬ ReadFails sys rdata peer ∧ ReadSucceeds sys rdata peer ∧
        ∃ run, SocketReads sys rdata peer (.ok run) ∧ run.ret = 0 ∧
          run.header = some (headerSeen sys peer)) ∨
      (¬ ReadFails sys rdata peer ∧ ¬ ReadSucceeds sys rdata peer ∧
        ∀ run, ¬ SocketReads sys rdata peer (.ok run)) := by
  unfold ReadFails ReadSucceeds
  cases hm : sys.malloc headerSize with
  | false =>
      have hs := (socketReads_of_inl (socketReadHeader_noHeader rdata peer hm) _).mpr rfl
      exact .inl ⟨.inl rfl, _, hs, rfl⟩
  | true =>
      rcases read_header peer with ⟨hnil, hfin, hr⟩ | ⟨hbroken, hr, hfin⟩
      · have hs := (socketReads_of_inl (socketReadHeader_fails rdata hm hr) _).mpr rfl
        exact .inl ⟨.inr (.inl ⟨hnil, hfin⟩), _, hs, rfl⟩
      · have hhead := socketReadHeader_some rdata hm hr
        rw [← headerSeen_eq] at hhead
        by_cases hmagic : (headerSeen sys peer).magic ≠ scmMagic
        · rw [if_pos hmagic] at hhead
          have hs := (socketReads_of_inl hhead _).mpr rfl
          exact .inl ⟨.inr (.inr (.inl hmagic)), _, hs, rfl⟩
        · rw [if_neg hmagic] at hhead
          simp only [Bool.true_eq_false, hbroken, false_or, not_false_eq_true, true_and,
            not_not.mp hmagic, ne_eq, not_true_eq_false]
          by_cases h₀ : (headerSeen sys peer).len = 0
          · rw [if_pos h₀] at hhead
            have hs := (socketReads_of_inl hhead _).mpr rfl
            exact .inr (.inl ⟨fun h => h.1 h₀, .inl h₀, _, hs, rfl, rfl⟩)
          · rw [if_neg h₀] at hhead
            simp only [h₀, not_false_eq_true, true_and, false_or]
            cases hrdata : rdata with
            | false =>
                rw [hrdata] at hhead
                refine .inr (.inr ⟨by simp, by simp, fun run hrun => ?_⟩)
                cases (socketReads_of_inl hhead _).mp hrun
            | true =>
                rw [hrdata, if_neg (by simp)] at hhead
                cases hmem : sys.malloc (headerSeen sys peer).len.toNat with
                | false =>
                    rw [hmem] at hhead
                    have hs := (socketReads_of_inl hhead _).mpr rfl
                    exact .inl ⟨⟨rfl, .inl rfl⟩, _, hs, rfl⟩
                | true =>
                    rw [hmem] at hhead
                    have hloop := socketReads_loop hhead h₀
                    rw [hfin] at hloop
                    rcases hloop with ⟨hf, hrun⟩ | ⟨⟨hmax, hle⟩, hrun⟩ | ⟨⟨hmax, hlt, he⟩, hrun⟩
                    · exact .inl ⟨⟨rfl, .inr hf⟩, hrun⟩
                    · refine .inr (.inl ⟨?_, ⟨rfl, rfl, hmax, hle⟩, hrun⟩)
                      simp [Nat.not_lt.mpr hmax, Nat.not_lt.mpr hle]
                    · refine .inr (.inr ⟨?_, ?_, hrun⟩)
                      · simp [Nat.not_lt.mpr hmax, he]
                      · simp [hmax, Nat.not_le.mpr hlt]

end Result

/-! ### Messages -/

section Messages

variable {sys : Sys} {peer : Stream} {h : Header} {P R : List Byte}

/-- `socket_read` returns 0 with the header `h` and the payload `P`, stores nothing outside the
block it allocated for it, and leaves `R` unread. -/
def ReadsMessage (sys : Sys) (peer : Stream) (h : Header) (P R : List Byte) : Prop :=
  ∃ data peer', SocketReads sys true peer (.ok ⟨0, some h, data, peer'⟩) ∧
    (data.map Block.bytes).getD [] = P ∧ peer'.rest = R ∧
    ∀ b, data = some b → b.size = h.len.toNat ∧ b.InBounds

/-- A header that came whole is the one that was sent. -/
theorem headerRead_mem (sys : Sys) (h : Header) : headerRead sys h.mem = h := by
  have hb : ((Block.fresh headerSize).store 0 h.mem).bytes = h.mem :=
    Block.bytes_store_end (Block.fresh headerSize) _
  have hle : headerSize ≤ ((Block.fresh headerSize).store 0 h.mem).bytes.length := by
    rw [hb, Header.length_mem]
  rw [headerRead, Block.contents_of_le hle, hb, List.take_of_length_le (Nat.le_of_eq h.length_mem),
    Header.ofMem_mem]

/-- A call that returns 0 has taken from the stream the bytes of its first `read` and the payload,
no others. -/
theorem SocketReads.consumed {got : List Byte} {peer' : Stream} {run : ReadRun}
    (hm : sys.malloc headerSize = true) (hr : peer.read headerSize = (some got, peer'))
    (hret : run.ret = 0) (hrun : SocketReads sys true peer (.ok run)) :
    peer'.rest.length = ((run.data.map Block.bytes).getD []).length + run.peer.rest.length := by
  have hhead := socketReadHeader_some true hm hr
  split at hhead
  · cases (socketReads_of_inl hhead _).mp hrun
    cases hret
  · split at hhead
    · cases (socketReads_of_inl hhead _).mp hrun
      simp
    · rw [if_neg (by simp)] at hhead
      split at hhead
      · cases (socketReads_of_inl hhead _).mp hrun
        cases hret
      · obtain ⟨run', he, hloop⟩ := (socketReads_of_inr hhead _).mp hrun
        cases he
        simpa using readLoop_consumed rfl hret hloop

/-- Where the payload starts inside a piece or with one, the cuts inside it are those of the
stream behind the header. -/
theorem cutWithin_behind {got : List Byte} {peer' : Stream} {count n : Nat}
    (hr : peer.read count = (some got, peer')) (hne : got ≠ []) :
    peer'.CutWithin 0 n ↔ peer.CutWithin got.length (got.length + n) := by
  constructor
  · rintro ⟨p, hp, hpn, hcut⟩
    exact ⟨got.length + p, by omega, by omega, (Stream.cut_read hr hne hp).mp hcut⟩
  · rintro ⟨p, hp, hpn, hcut⟩
    obtain ⟨q, rfl⟩ := Nat.exists_eq_add_of_le (Nat.le_of_lt hp)
    exact ⟨q, by omega, by omega, (Stream.cut_read hr hne (by omega)).mpr hcut⟩

/-- A payload behind its header is read as it was sent where its first piece reaches its end, or
where a piece ends with it. -/
theorem readsPayload_iff {peer' : Stream}
    (hhead : socketReadHeader sys true peer = .inr (h, peer')) (hlen : h.len.toNat = P.length)
    (hP : P ≠ []) (hmax : P.length ≤ intMax) (hrest : peer'.rest = P ++ R) :
    ReadsMessage sys peer h P R ↔ ¬ peer'.CutWithin 0 P.length ∨ peer'.Cut P.length := by
  have hpos : 0 < h.len.toNat := hlen ▸ List.length_pos_iff.mpr hP
  obtain ⟨got, p, hloop, hsplit, -, hiff⟩ := readLoop_enough (hlen ▸ hmax)
    (s := ⟨0, .fresh h.len.toNat, peer'⟩) rfl hpos (by
      show _ ≤ 0 + peer'.rest.length
      rw [hrest, List.length_append]
      omega)
  have hs := (socketReads_of_inr hhead _).mpr ⟨_, rfl, hloop⟩
  simp only [Nat.zero_add, true_and, Nat.sub_zero, hlen] at hiff
  rw [← hiff]
  constructor
  · rintro ⟨data, p', hs', hdata, -⟩
    cases hs.unique hs'
    exact congrArg List.length hdata
  · intro hl
    obtain ⟨rfl, hR⟩ := List.append_inj (hsplit.symm.trans hrest) hl
    refine ⟨_, _, hs, rfl, hR, fun b hb => ?_⟩
    cases hb
    exact ⟨rfl, Nat.le_of_eq hlen.symm⟩

/-- **When a message is read as it was sent.**  The header has to come in one piece, since a second
`read` for it is never made; and since every `read` for the payload asks for all of it, a piece that
starts inside the payload must not run past its end. -/
theorem readsMessage_iff (hmagic : h.magic = scmMagic) (hlen : h.len.toNat = P.length)
    (hrest : peer.rest = h.mem ++ (P ++ R)) :
    ReadsMessage sys peer h P R ↔
      sys.malloc headerSize = true ∧ ¬ peer.CutWithin 0 headerSize ∧
        (P = [] ∨ sys.malloc P.length = true ∧ P.length ≤ intMax ∧
          (¬ peer.CutWithin headerSize (headerSize + P.length) ∨
            peer.Cut (headerSize + P.length))) := by
  have hfail : ∀ {r : ReadRun}, r.ret = -1 → SocketReads sys true peer (.ok r) →
      ¬ ReadsMessage sys peer h P R := fun hr hs ⟨_, _, hs', _⟩ => by
    cases hs.unique hs'
    cases hr
  cases hm : sys.malloc headerSize with
  | false =>
      have hhead := socketReadHeader_noHeader true peer hm
      exact iff_of_false (hfail rfl ((socketReads_of_inl hhead _).mpr rfl)) (by simp)
  | true =>
      rcases peer.read_cases (show headerSize ≤ intMax by decide) (by decide) with
        ⟨got, peer', hr, hne, hle, hsplit, -⟩ | ⟨hnil, -⟩
      · have hgot : 0 < got.length := List.length_pos_iff.mpr hne
        by_cases hwhole : got.length = headerSize
        · obtain ⟨rfl, hbehind⟩ := List.append_inj (hsplit.symm.trans hrest) hwhole
          have hhead := socketReadHeader_some true hm hr
          rw [headerRead_mem, if_neg (not_not.mpr hmagic), hlen] at hhead
          have hnc : ¬ peer.CutWithin 0 headerSize := fun ⟨p, hp, hpn, hc⟩ => by
            have := Stream.le_of_cut hr hne hp hc
            omega
          by_cases hP : P = []
          · subst hP
            have h₀ : h.len = 0 := UInt32.toNat_inj.mp hlen
            rw [if_pos h₀] at hhead
            exact iff_of_true ⟨none, peer', (socketReads_of_inl hhead _).mpr rfl, rfl, hbehind,
              fun b hb => by cases hb⟩ ⟨rfl, hnc, .inl rfl⟩
          · have hpos : 0 < P.length := List.length_pos_iff.mpr hP
            have h₀ : h.len ≠ 0 := fun e => by
              rw [e] at hlen
              exact absurd hlen (Nat.ne_of_lt hpos)
            rw [if_neg h₀, if_neg (by simp)] at hhead
            simp only [hnc, hP, not_false_eq_true, true_and, false_or]
            cases hmem : sys.malloc P.length with
            | false =>
                rw [hmem] at hhead
                exact iff_of_false (hfail rfl ((socketReads_of_inl hhead _).mpr rfl)) (by simp)
            | true =>
                rw [hmem] at hhead
                have hs := socketReads_of_inr hhead
                by_cases hmax : P.length ≤ intMax
                · have hcut := Stream.cut_read hr hne hpos
                  have hwithin := cutWithin_behind (n := P.length) hr hne
                  rw [Header.length_mem] at hcut hwithin
                  rw [readsPayload_iff hhead hlen hP hmax hbehind, hwithin, hcut]
                  simp [hmax]
                · have hloop := readLoop_refused (hlen ▸ Nat.lt_of_not_le hmax)
                    (s := ⟨0, .fresh h.len.toNat, peer'⟩) (hlen ▸ hpos)
                  exact iff_of_false (hfail rfl ((hs _).mpr ⟨_, rfl, hloop⟩)) (by simp [hmax])
        · -- the header is cut
          have hlt : got.length < headerSize := by omega
          have hcut : peer.CutWithin 0 headerSize :=
            ⟨got.length, hgot, hlt, Stream.cut_of_lt hr hne hlt⟩
          refine iff_of_false (fun ⟨data, p', hs, hdata, hR, _⟩ => ?_) fun ⟨_, hc, _⟩ => hc hcut
          have hcons := hs.consumed hm hr rfl
          have hl := congrArg List.length (hsplit.symm.trans hrest)
          simp only [List.length_append, Header.length_mem] at hl
          simp only [hdata, hR] at hcons
          omega
      · rw [hrest] at hnil
        have := congrArg List.length hnil
        simp [headerSize] at this

/-- A message that came in two pieces, the second of which ends with it. -/
theorem readsMessage_iff_two :
    ReadsMessage .ideal ⟨[(Header.mem ⟨scmMagic, 2, 2⟩) ++ [0x61], [0], [1]], .eof, by decide⟩
      ⟨scmMagic, 2, 2⟩ [0x61, 0] [1] :=
  (readsMessage_iff rfl rfl rfl).mpr
    ⟨rfl, fun ⟨p, hp, hlt, hcut⟩ => by
      have := ((Stream.cut_cons hp).mp hcut).1
      have hl : ((Header.mem ⟨scmMagic, 2, 2⟩) ++ [0x61]).length = 13 := rfl
      have : headerSize = 12 := rfl
      omega, .inr ⟨rfl, by decide, .inr ⟨2, rfl⟩⟩⟩

/-- Four payload bytes, two of them in one piece with two bytes of the next message. -/
def overrunPeer : Stream :=
  ⟨[(Header.mem ⟨scmMagic, 2, 4⟩), [0x61, 0x62], [0x63, 0, 0x53, 0x63]], .eof, by decide⟩

/-- All six are stored into the block of four, and none is left unread. -/
theorem not_readsMessage_overrun :
    ¬ ReadsMessage .ideal overrunPeer ⟨scmMagic, 2, 4⟩ [0x61, 0x62, 0x63, 0] [0x53, 0x63] := by
  rintro ⟨data, peer', hs, -, hR, -⟩
  have hrun : SocketReads .ideal true overrunPeer (.ok ⟨0, some ⟨scmMagic, 2, 4⟩,
      some ⟨4, [0x61, 0x62, 0x63, 0, 0x53, 0x63]⟩, ⟨[], .eof, by decide⟩⟩) := ⟨3, rfl⟩
  cases hrun.unique hs
  cases hR

/-! ### Peers that stop -/

/-- `socket_read` returns, and it returns −1 where fewer bytes come than its header announces. -/
def ReadsOrFails (sys : Sys) (peer : Stream) : Prop :=
  ∃ run, SocketReads sys true peer (.ok run) ∧
    ∀ header, run.header = some header →
      peer.rest.length < headerSize + header.len.toNat → run.ret = -1

theorem readsOrFails_fails {run : ReadRun} (hs : SocketReads sys true peer (.ok run))
    (hret : run.ret = -1) : ReadsOrFails sys peer :=
  ⟨run, hs, fun _ _ _ => hret⟩

theorem readsOrFails_succeeds {run : ReadRun} (hs : SocketReads sys true peer (.ok run))
    (hret : run.ret = 0) (hh : run.header = some h) :
    ReadsOrFails sys peer ↔ headerSize + h.len.toNat ≤ peer.rest.length := by
  constructor
  · rintro ⟨run', hs', hrun⟩
    cases hs.unique hs'
    refine Nat.le_of_not_lt fun hlt => ?_
    rw [hrun h hh hlt] at hret
    cases hret
  · intro hle
    refine ⟨run, hs, fun header he hlt => ?_⟩
    rw [hh] at he
    cases he
    exact absurd hle (Nat.not_le.mpr hlt)

/-- **When a call returns, and −1 on a message that is not complete.**  Closed by the peer inside
the payload, the connection gives 0 to every `read` and the loop goes on for ever; closed inside the
header, what the memory held completes it. -/
theorem readsOrFails_iff (sys : Sys) (peer : Stream) :
    ReadsOrFails sys peer ↔
      sys.malloc headerSize = false ∨ (peer.rest = [] ∧ peer.fin = .error) ∨
      (headerSeen sys peer).magic ≠ scmMagic ∨
      ((headerSeen sys peer).len = 0 ∧ headerSize ≤ peer.rest.length) ∨
      ((headerSeen sys peer).len ≠ 0 ∧
        (sys.malloc (headerSeen sys peer).len.toNat = false ∨
          intMax < (headerSeen sys peer).len.toNat ∨
          ((headerSeen sys peer).len.toNat ≤ (behindHeader peer).rest.length ∧
            headerSize + (headerSeen sys peer).len.toNat ≤ peer.rest.length) ∨
          ((behindHeader peer).rest.length < (headerSeen sys peer).len.toNat ∧
            peer.fin = .error))) := by
  rcases socketReads_cases sys true peer with
    ⟨hf, run, hs, hret⟩ | ⟨hnf, hsucc, run, hs, hret, hh⟩ | ⟨hnf, hns, hstuck⟩
  · refine iff_of_true (readsOrFails_fails hs hret) ?_
    rcases hf with h | h | h | ⟨h₀, -, h | h | h⟩
    · exact .inl h
    · exact .inr (.inl h)
    · exact .inr (.inr (.inl h))
    · exact .inr (.inr (.inr (.inr ⟨h₀, .inl h⟩)))
    · exact .inr (.inr (.inr (.inr ⟨h₀, .inr (.inl h)⟩)))
    · exact .inr (.inr (.inr (.inr ⟨h₀, .inr (.inr (.inr h))⟩)))
  · -- a call that returns 0 needs the whole message
    rw [readsOrFails_succeeds hs hret hh]
    constructor
    · intro hle
      by_cases h₀ : (headerSeen sys peer).len = 0
      · rw [h₀] at hle
        exact .inr (.inr (.inr (.inl ⟨h₀, hle⟩)))
      · obtain ⟨-, -, -, hbehind⟩ := hsucc.2.2.2.resolve_left h₀
        exact .inr (.inr (.inr (.inr ⟨h₀, .inr (.inr (.inl ⟨hbehind, hle⟩))⟩)))
    · rintro (h | h | h | ⟨h₀, h⟩ | ⟨h₀, h | h | ⟨-, h⟩ | h⟩)
      · exact absurd (.inl h) hnf
      · exact absurd (.inr (.inl h)) hnf
      · exact absurd (.inr (.inr (.inl h))) hnf
      · rw [h₀]
        exact h
      · exact absurd (.inr (.inr (.inr ⟨h₀, rfl, .inl h⟩))) hnf
      · exact absurd (.inr (.inr (.inr ⟨h₀, rfl, .inr (.inl h)⟩))) hnf
      · exact h
      · exact absurd (.inr (.inr (.inr ⟨h₀, rfl, .inr (.inr h)⟩))) hnf
  · -- a call that does not return has neither failed nor enough to read
    have hm : sys.malloc headerSize = true := by simpa using fun h => hnf (.inl h)
    have hbroken : ¬ (peer.rest = [] ∧ peer.fin = .error) := fun h => hnf (.inr (.inl h))
    have hmagic := not_not.mp fun h => hnf (.inr (.inr (.inl h)))
    refine iff_of_false (fun ⟨run, hs, _⟩ => hstuck run hs) ?_
    rintro (h | h | h | ⟨h₀, h⟩ | ⟨h₀, h | h | ⟨h, -⟩ | h⟩)
    · exact hnf (.inl h)
    · exact hbroken h
    · exact h hmagic
    · exact hns ⟨hm, hbroken, hmagic, .inl h₀⟩
    · exact hnf (.inr (.inr (.inr ⟨h₀, rfl, .inl h⟩)))
    · exact hnf (.inr (.inr (.inr ⟨h₀, rfl, .inr (.inl h)⟩)))
    · have hserved : sys.malloc (headerSeen sys peer).len.toNat = true := by
        simpa using fun h => hnf (.inr (.inr (.inr ⟨h₀, rfl, .inl h⟩)))
      have hmax := Nat.le_of_not_lt fun h => hnf (.inr (.inr (.inr ⟨h₀, rfl, .inr (.inl h)⟩)))
      exact hns ⟨hm, hbroken, hmagic, .inr ⟨rfl, hserved, hmax, h⟩⟩
    · exact hnf (.inr (.inr (.inr ⟨h₀, rfl, .inr (.inr h)⟩)))

/-- A peer that announces four bytes and closes the connection. -/
def closingPeer : Stream := ⟨[Header.mem ⟨scmMagic, 2, 4⟩], .eof, by decide⟩

/-- `socket_read` never returns to it. -/
theorem not_readsOrFails_closing : ¬ ReadsOrFails .ideal closingPeer := by
  have hhead : socketReadHeader .ideal true closingPeer =
      .inr (⟨scmMagic, 2, 4⟩, ⟨[], .eof, by decide⟩) := rfl
  rintro ⟨run, hs, -⟩
  obtain ⟨run', -, hloop⟩ := (socketReads_of_inr hhead _).mp hs
  exact readLoop_eof (by decide) rfl (by decide) run' hloop

end Messages

end Wap4410n.Scfg
