import Wap4410n.Nvram.Durability
import Wap4410n.Nvram.Overlay
import Wap4410n.Scfg.Report
import Wap4410n.Support.Persistent

/-!
# Scfg — the configuration behind the connections

`main` serves one connection at a time: it forks a child, which runs `scfg_run` as long as
`console_mode` says so, and waits for it.  A call of the library makes a connection of its own, so
that calls of several programs come one after the other.

* `Wire.reads`: a message that arrives by itself is read as it was sent, in however many pieces its
  payload comes.
* `Executes`, one theorem for each command: what the command does to the files, and what it answers.
* `exchanges_refine`: through the connections the device is a map and the copy of it that is kept
  (`Persistent`).  `scfgmgr_set` assigns in the map, `scfgmgr_get` reads in it, `SCFG_COMMIT` keeps
  it, and after a restart, whatever the shadow holds then, `SCFG_CFG_INIT` brings back what was
  kept.  This goes on until a shadow is committed that the flash has no room for.
-/

namespace Wap4410n.Scfg

open CLib CLib.Run
open Nvram (Sys Files Name Store Represents Header nvramSize nvramHeaderSize nvramMagic nvramSuccess
  nvramGet nvramSet nvramLoad nvramCommit encode effective flashHeader flashCommitted crcOf)

/-! ### The server -/

/-- What `socket_write` gets out. -/
def written (link : Link) (header : Scfg.Header) (data : List Byte) : List Byte :=
  if !link.sendsHeader then [] else
  header.mem ++
    if header.len.toNat ≤ intMax && link.sendsData then data.take header.len.toNat else []

/-- Nothing is stored behind an array of `scfg_run`. -/
def Locals.InBounds (l : Locals) : Prop := l.buf.InBounds ∧ l.tmp.InBounds ∧ l.filename.InBounds

instance (l : Locals) : Decidable l.InBounds := inferInstanceAs (Decidable (_ ∧ _ ∧ _))

/-- A call of `scfg_run`: what it has written, the files, `console_mode`, and what is still to be
read. -/
structure Turn where
  sent : List Byte
  files : Files
  consoleMode : Bool
  peer : Stream

/-- The command, once the request is read, and its reply. -/
def turnOn (env : Env) (link : Link) (fs : Files) (header : Scfg.Header) (payload : List Byte)
    (peer : Stream) : Run Obj Turn :=
  match scfgRun env fs (.carried header payload) with
  | (.error e, _) => .error e
  | (.ok exit, l) =>
    if l.InBounds then
      .ok ⟨written link (answer env exit l).1 (answer env exit l).2, l.files, l.consoleMode, peer⟩
    else .error (.outside .buf)

/-- `scfg_run` -/
def turn (env : Env) (link : Link) (fs : Files) (fuel : Nat) : Option (Run Obj Turn) :=
  (socketRead link.sys true link.peer fuel).map fun read => do
    let run ← read
    match run.header, run.data with
    -- `header->magic=SCM_MAGIC;`
    | none, _ => .error (.null .rhd)
    | some header, none =>
      if run.ret < 0 then return ⟨written link ⟨scmMagic, scfgErr, 0⟩ [], fs, false, run.peer⟩
      else turnOn env link fs header [] run.peer
    | some header, some data =>
      if ¬ data.InBounds then .error (.outside .payload)
      else if run.ret < 0 then return ⟨written link ⟨scmMagic, scfgErr, 0⟩ [], fs, false, run.peer⟩
      else turnOn env link fs header data.bytes run.peer

/-- The child of `main`, `while(console_mode) scfg_run(infd);`: what it writes to the connection in
all, and the files it leaves. -/
inductive Serves : (Nat → Env) → Link → Files → List Byte → Files → Prop where
  | last {env : Nat → Env} {link : Link} {fs : Files} {t : Turn} {fuel : Nat}
      (h : turn (env 0) link fs fuel = some (.ok t)) (hc : t.consoleMode = false) :
      Serves env link fs t.sent t.files
  | next {env : Nat → Env} {link : Link} {fs fs' : Files} {t : Turn} {fuel : Nat}
    {bytes : List Byte}
      (h : turn (env 0) link fs fuel = some (.ok t)) (hc : t.consoleMode = true)
      (hs : Serves (fun i => env (i + 1)) { link with peer := t.peer } t.files bytes fs') :
      Serves env link fs (t.sent ++ bytes) fs'

/-! ### A call and the connection it makes -/

/-- How bytes get through: in pieces, the first of which does not end inside the header. -/
structure Wire where
  carry : List Byte → Stream
  rest : ∀ bs, (carry bs).rest = bs
  whole : ∀ bs, headerSize ≤ bs.length → ¬ (carry bs).CutWithin 0 headerSize

/-- A call of the library, the connection it makes, and what the two sides meet. -/
structure Exchange where
  op : Persistent.Op Name CStr
  /-- what is in the shadow when the device has started again -/
  left : List Byte
  env : Nat → Env
  server : Sys
  client : Sys
  request : Wire
  reply : Wire

namespace Exchange

/-- The call.  On a start the saved configuration is loaded. -/
def call (x : Exchange) : Call :=
  match x.op with
  | .set n v => .set n.str v
  | .get n => .get n.str
  | .commit => .cmd Cmd.commit.code
  | .restart => .cmd Cmd.cfgInit.code

/-- The files the server finds. -/
def found (x : Exchange) (fs : Files) : Files :=
  match x.op with
  | .set _ _ | .get _ | .commit => fs
  | .restart => { fs with shadow := some x.left }

/-- The server's end of the connection. -/
def accepted (x : Exchange) : Link where
  connects := true
  sendsHeader := true
  sendsData := true
  sys := x.server
  peer := x.request.carry (x.call.header.mem ++ x.call.data.take x.call.header.len.toNat)

/-- The client's end. -/
def connected (x : Exchange) (bytes : List Byte) : Link where
  connects := true
  sendsHeader := true
  sendsData := true
  sys := x.client
  peer := x.reply.carry bytes

/-- **An exchange**: the server serves the request, and the call returns `ret` and leaves `value`
where its `rdata` points. -/
def Done (x : Exchange) (fs : Files) (ret : Int) (value : Option (List Byte)) (fs' : Files) :
    Prop :=
  ∃ bytes run, Serves x.env x.accepted (x.found fs) bytes fs' ∧
    SocketReads x.client x.call.rdata (x.reply.carry bytes) (.ok run) ∧
    Returns (x.connected bytes) x.call ret ∧ run.data.map Block.bytes = value ∧
      ∀ b, run.data = some b → b.InBounds

end Exchange

/-- Exchanges one after the other: `main` waits for its child before it accepts again. -/
inductive Exchanges : List Exchange → Files → List (Option (List Byte)) → Files → Prop where
  | nil (fs : Files) : Exchanges [] fs [] fs
  | cons {x : Exchange} {xs : List Exchange} {fs fs₁ fs₂ : Files} {value : Option (List Byte)}
      {values : List (Option (List Byte))} (h : x.Done fs 0 value fs₁)
        (hs : Exchanges xs fs₁ values fs₂) :
      Exchanges (x :: xs) fs (value :: values) fs₂

/-! ### Reading what was sent -/

section Reading

variable {sys : Sys} {h : Scfg.Header} {P : List Byte}

/-- **A message that arrives by itself is read as it was sent.** -/
theorem Wire.reads (w : Wire) (hm : ∀ n, 0 < n → sys.malloc n = true) (hmagic : h.magic = scmMagic)
    (hlen : h.len.toNat = P.length) (hmax : P.length ≤ intMax) {rdata : Bool}
    (hdata : rdata = true ∨ P = []) :
    ∃ data peer, SocketReads sys rdata (w.carry (h.mem ++ P)) (.ok ⟨0, some h, data, peer⟩) ∧
      data.map Block.bytes = (if P = [] then none else some P) ∧
      ∀ b, data = some b → b.InBounds := by
  have hrest : (w.carry (h.mem ++ P)).rest = h.mem ++ P := w.rest _
  have hhm := hm headerSize (by decide)
  have hlong : headerSize ≤ (h.mem ++ P).length := by
    rw [List.length_append, Header.length_mem]
    exact Nat.le_add_right _ _
  rcases (w.carry (h.mem ++ P)).read_cases (show headerSize ≤ intMax by decide) (by decide) with
    ⟨got, peer, hr, hne, hle, hsplit, -⟩ | ⟨hnil, -⟩
  · have hwhole : got.length = headerSize := by
      by_contra hne'
      have hlt : got.length < headerSize := by omega
      exact w.whole _ hlong
        ⟨got.length, List.length_pos_iff.mpr hne, hlt, Stream.cut_of_lt hr hne hlt⟩
    obtain ⟨rfl, hbehind⟩ := List.append_inj (hsplit.symm.trans hrest) hwhole
    have hhead := socketReadHeader_some rdata hhm hr
    rw [headerRead_mem, if_neg (not_not.mpr hmagic)] at hhead
    by_cases hP : P = []
    · have h₀ : h.len = 0 := UInt32.toNat_inj.mp (by rw [hlen, hP]; rfl)
      rw [if_pos h₀] at hhead
      exact ⟨none, peer, (socketReads_of_inl hhead _).mpr rfl, by rw [if_pos hP]; rfl, nofun⟩
    · have hpos : 0 < P.length := List.length_pos_iff.mpr hP
      have h₀ : h.len ≠ 0 := fun e => by
        rw [e] at hlen
        exact absurd hlen (Nat.ne_of_lt hpos)
      obtain rfl : rdata = true := hdata.resolve_right hP
      have hserved := hm P.length hpos
      rw [if_neg h₀, if_neg (by simp), hlen, hserved, if_neg (by simp)] at hhead
      have hbehind' : peer.rest = P ++ [] := by rw [hbehind, List.append_nil]
      have hend : peer.Cut P.length := ⟨peer.chunks.length, by
        rw [List.take_length, ← hbehind]
        rfl⟩
      obtain ⟨data, peer', hs, hbytes, -, hin⟩ :=
        (readsPayload_iff hhead hlen hP hmax hbehind').mpr (.inr hend)
      refine ⟨data, peer', hs, ?_, fun b hb => (hin b hb).2⟩
      cases data with
      | none => exact absurd hbytes.symm hP
      | some b => exact (congrArg some hbytes).trans (if_neg hP).symm
  · rw [hrest] at hnil
    exact absurd (congrArg List.length hnil) (by simp [headerSize])

end Reading

/-! ### What the device keeps -/

/-- The flash holds the image `S`. -/
structure Stands (flash : Device nvramSize) (S : List Byte) : Prop where
  fits : S.length + nvramHeaderSize ≤ nvramSize
  header : (flashHeader flash).magic = nvramMagic ∧
    (flashHeader flash).len = UInt32.ofNat S.length ∧ (flashHeader flash).crc = crcOf S
  data : flash.slice nvramHeaderSize S.length = S

/-- Every value fits the buffer of `scfg_run`. -/
def Short (m : Name → Option CStr) : Prop := ∀ n v, m n = some v → v.length < nvramSize

/-- The shadow holds the store `st`, the flash the store `sv`. -/
structure KeepsStores (dflt st sv : Store) (fs : Files) : Prop where
  hold : fs.Hold st dflt
  shadow : fs.shadow = some (encode st.recs)
  flash : Stands fs.flash (encode sv.recs)

/-- **What the device keeps**: the values in use are those of the shadow, and those kept are those
of the flash, each with the defaults behind them. -/
def Keeps (dflt : Store) (fs : Files) (s : Persistent Name CStr) : Prop :=
  ∃ st sv, KeepsStores dflt st sv fs ∧ s = ⟨effective st dflt, effective sv dflt⟩ ∧
    Short s.now ∧ Short s.kept

/-- The shadow is small enough for the flash. -/
def ShadowFits (fs : Files) : Prop := (fs.shadow.getD []).length + nvramHeaderSize ≤ nvramSize

section Commands

variable {sys : Sys} {fs : Files} {S : List Byte} {st sv dflt : Store}

/-- **A commit whose writes are complete.** -/
theorem nvramCommit_complete (fs : Files) (hs : sys.Serves)
    (hw : ∀ site, sys.writes site = .complete)
    (hf : fs.shadow = some S) (hS : S ≠ []) (hfit : S.length + nvramHeaderSize ≤ nvramSize) :
    nvramCommit sys fs = .ok (nvramSuccess, { fs with flash := flashCommitted sys fs.flash S }) ∧
      Stands (flashCommitted sys fs.flash S) S := by
  have hpos : 0 < S.length := List.length_pos_iff.mpr hS
  have hopens : Nvram.CommitOpens sys S.length :=
    ⟨hs.creates .flash, hs.opens .shadow, hs.malloc _ hpos, hs.reads .shadow⟩
  have hheader : Nvram.headerWritten sys = 16 := by rw [Nvram.headerWritten, hw]; rfl
  have hdata : Nvram.dataWritten sys S = S.length := by rw [Nvram.dataWritten, hw]; rfl
  refine ⟨Nvram.nvramCommit_eq hopens hf hS hfit, hfit, ?_, ?_⟩
  · refine (Nvram.flashHeader_committed fs.flash hfit).mpr fun j hk hj => ?_
    rw [hheader] at hk
    have hlen := List.length_take_le 12 (Nvram.commitHeader sys S (crcOf S)).mem
    omega
  · refine (Nvram.flashData_committed fs.flash hfit).mpr fun j hk hj => ?_
    rw [hdata] at hk
    exact absurd hj (Nat.not_lt.mpr hk)

/-- **A load of an image that stands on the flash.** -/
theorem nvramLoad_stands (fs : Files) (hs : sys.Serves) (h : Stands fs.flash S) :
    nvramLoad sys fs = .ok (nvramSuccess, { fs with shadow := some S }) := by
  obtain ⟨hfit, ⟨hmagic, hlen, hcrc⟩, hdata⟩ := h
  have hcap := Nvram.nvramCapacity
  have hsize : (flashHeader fs.flash).len.toNat = S.length := by
    rw [hlen, UInt32.toNat_ofNat']
    exact Nat.mod_eq_of_lt (by omega)
  have hl : Nvram.Loadable sys fs.flash := by
    refine ⟨by omega, .inr ?_⟩
    exact hs.malloc _ (Nat.succ_pos _)
  have hflash : Nvram.flashData fs.flash = S := by rw [Nvram.flashData, hsize, hdata]
  rw [Nvram.nvramLoad_loadable hs.toServesFiles hmagic hl, hflash, if_pos hcrc.symm]

variable {env : Env}

/-- A command is executed, with the reply `value`, and leaves files that `P` holds of. -/
def Executes (env : Env) (r : Served) (cmd : Int32) (value : Option (List Byte))
    (P : Files → Prop) :
    Prop :=
  ∃ exit l, r = (.ok exit, l) ∧ l.InBounds ∧ l.consoleMode = false ∧
    answer env exit l = (⟨scmMagic, cmd, .ofNat (value.getD []).length⟩, value.getD []) ∧ P l.files

/-- A command that leaves `buf_len` at 0. -/
theorem executes_plain {r : Served} {exit : Exit} {l : Locals} {P : Files → Prop} {cmd : Int32}
    (hr : r = (.ok exit, l)) (hin : l.InBounds) (hmode : l.consoleMode = false)
    (hlen : l.bufLen = 0)
    (hcmd : (answer env exit l).1.cmd = cmd) (hP : P l.files) :
    Executes env r cmd none P := by
  refine ⟨exit, l, hr, hin, hmode, ?_, hP⟩
  subst hcmd
  have hnone : l.buf.contents env.stack 0 = [] := by simp [Block.contents]
  unfold answer
  rw [hlen, hnone]
  rfl

theorem inBounds_start (fs : Files) : (Locals.start fs).InBounds :=
  ⟨Block.inBounds_fresh _, Block.inBounds_fresh _, Block.inBounds_fresh _⟩

theorem executes_set (hs : (env.sys 0).Serves) (h : KeepsStores dflt st sv fs) {n : Name} {v : CStr}
    (hfit : n.str.length + v.length + 2 ≤ setRoom) :
    Executes env (scfgRun env fs (setRequest n.str v)) scfgOk none
      (KeepsStores dflt (st.set n v) sv) := by
  obtain ⟨run, hrun, -, hshadow⟩ := Nvram.nvramSet_represents hs h.hold.shadow n v
  have hmem := mem_pt (payload_setRequest hfit)
  have hserved : scfgRun env fs (setRequest n.str v) = (.ok .ok,
      { Locals.start fs with buf := (Locals.start fs).buf.strcpy (Nvram.line n.str v) }.shadow
      run.shadow) := by
    show scfgSet env (setRequest n.str v).pt (.start fs) = _
    rw [scfgSet_assigns hmem (assigns_line n v), Locals.files_start, hrun]
    rfl
  refine executes_plain hserved ⟨?_, Block.inBounds_fresh _, Block.inBounds_fresh _⟩ rfl rfl rfl ?_
  · refine Block.inBounds_strcpy.mpr ⟨Block.inBounds_fresh _, ?_⟩
    have hline := Nvram.length_line n.str v
    have hroom : setRoom = 4500 := rfl
    show (Nvram.line n.str v).length + 1 ≤ 65536
    omega
  · refine ⟨⟨hshadow ▸ Represents.file _, fun e => ?_, h.hold.default, h.hold.default_ne⟩,
      hshadow, h.flash⟩
    exact Nvram.encode_ne_nil _ (Option.some.inj (hshadow.symm.trans e))

/-- A file that holds a store with a record. -/
theorem represents_some {f : Option (List Byte)} {n : Name} (h : Represents f st)
    (hn : st.get n ≠ none) : f = some (encode st.recs) := by
  cases h with
  | missing => exact absurd rfl hn
  | zeroLength => exact absurd rfl hn
  | file => rfl

/-- `nvram_get` leaves the flash as it is. -/
theorem nvramGet_flash {p : Ptr Obj} {value : Option (List Byte)} {fs' : Files}
    (h : nvramGet sys fs p = .ok (value, fs')) : fs'.flash = fs.flash := by
  obtain ⟨shadow, -, h⟩ := Run.bind_eq_ok.mp h
  cases shadow with
  | some pt =>
      cases h
      rfl
  | none =>
      obtain ⟨dflt, -, h⟩ := Run.bind_eq_ok.mp h
      cases dflt with
      | none =>
          cases h
          rfl
      | some pt =>
          obtain ⟨name, -, h⟩ := Run.bind_eq_ok.mp h
          obtain ⟨v, -, h⟩ := Run.bind_eq_ok.mp h
          obtain ⟨r, -, h⟩ := Run.bind_eq_ok.mp h
          cases h
          rfl

/-- A read keeps the stores, except that a default goes into the shadow. -/
theorem nvramGet_keeps (hs : sys.Serves) (h : KeepsStores dflt st sv fs) {p : Ptr Obj} {n : Name}
    (hp : p.Holds n.str) :
    ∃ fs' st', nvramGet sys fs p = .ok ((effective st dflt n).map CStr.mem, fs') ∧
      KeepsStores dflt st' sv fs' ∧ effective st' dflt = effective st dflt := by
  have hreturns :
      Nvram.Read.get.returns (effective st dflt n) = (effective st dflt n).map CStr.mem := by
    cases effective st dflt n <;> rfl
  by_cases hn : st.get n ≠ none ∨ dflt.get n = none
  · have hcall := Nvram.nvramRead_kept hs h.hold hp .get hn
    rw [hreturns] at hcall
    exact ⟨fs, st, hcall, h, rfl⟩
  · obtain ⟨hst, hd⟩ := not_or.mp hn
    obtain ⟨v, hv⟩ := Option.ne_none_iff_exists'.mp hd
    have hst := not_not.mp hst
    obtain ⟨fs', hcall, hhold⟩ := Nvram.nvramRead_default hs h.hold hp .get hst hv
    have hvalue : effective st dflt n = some v := by rw [effective, hst, hv]; rfl
    have hrec : (st.set n v).get n ≠ none := by simp [Store.get_set]
    refine ⟨fs', st.set n v, hvalue ▸ hcall, ⟨hhold, represents_some hhold.shadow hrec, ?_⟩,
      Nvram.effective_set_default hst hv⟩
    rw [nvramGet_flash hcall]
    exact h.flash

/-- **A `SCFG_GET`** answers the value in use, and what is in use stays so. -/
theorem executes_get (hs : (env.sys 0).Serves) (h : KeepsStores dflt st sv fs)
    (hshort : Short (effective st dflt)) {n : Name} (hn : n.str.length < intMax) :
    ∃ cmd, Executes env (scfgRun env fs (getRequest n.str)) cmd ((effective st dflt n).map CStr.mem)
      fun fs' => ∃ st', KeepsStores dflt st' sv fs' ∧ effective st' dflt = effective st dflt := by
  have hmem :=
    mem_pt (payload_getRequest (show n.str.length < 2 ^ 32 - 1 from hn.trans (by decide)))
  obtain ⟨fs', st', hcall, hkeeps, heff⟩ := nvramGet_keeps hs h ⟨[], hmem⟩
  have hget : scfgRun env fs (getRequest n.str) = scfgGet env (getRequest n.str).pt (.start fs) :=
    rfl
  rw [hget, scfgGet, Locals.files_start, hcall]
  cases hv : effective st dflt n with
  | none =>
      exact ⟨scfgErr, executes_plain (l := { Locals.start fs with files := fs' }) rfl
        (inBounds_start fs)
        rfl rfl rfl ⟨st', hkeeps, heff⟩⟩
  | some v =>
      have hlen : v.length < 65536 := hshort n v hv
      refine ⟨scfgOk, .ok, Locals.copy { Locals.start fs with files := fs' } v, ?_,
        ⟨?_, Block.inBounds_fresh _, Block.inBounds_fresh _⟩, rfl, ?_, st', hkeeps, heff⟩
      · show Locals.copyValue { Locals.start fs with files := fs' } v.mem = _
        rw [Locals.copyValue, stringAt_mem]
      · exact Block.inBounds_strcpy.mpr ⟨Block.inBounds_fresh _, hlen⟩
      · refine Prod.ext ?_ (answer_copy env fs .ok v)
        rw [Option.map_some, Option.getD_some, CStr.length_mem]
        rfl

/-- **A `SCFG_COMMIT`** of a shadow that fits the flash. -/
theorem executes_commit (hs : (env.sys 0).Serves) (hw : ∀ site, (env.sys 0).writes site = .complete)
    (h : KeepsStores dflt st sv fs) (hfits : ShadowFits fs) {req : Request}
    (hreq : req.cmd = Cmd.commit.code) :
    Executes env (scfgRun env fs req) scfgOk none (KeepsStores dflt st st) := by
  have hfits : (encode st.recs).length + nvramHeaderSize ≤ nvramSize := by
    rwa [ShadowFits, h.shadow] at hfits
  obtain ⟨hcommit, hstands⟩ := nvramCommit_complete fs hs hw h.shadow (Nvram.encode_ne_nil _) hfits
  have hserved : scfgRun env fs req = (.ok .ok, { Locals.start fs with
      files := { fs with flash := flashCommitted (env.sys 0) fs.flash (encode st.recs) } }) := by
    have hrun : scfgRun env fs req = scfgCommit env (.start fs) := by
      have hcmd : Cmd.ofCode req.header.cmd = some .commit := by
        rw [Request.header, hreq, Cmd.ofCode_code]
      rw [scfgRun, hcmd]
    rw [hrun, scfgCommit, Locals.files_start, hcommit]
    rfl
  exact executes_plain hserved (inBounds_start fs) rfl rfl rfl
    ⟨⟨h.hold.shadow, h.hold.shadow_ne, h.hold.default, h.hold.default_ne⟩, h.shadow, hstands⟩

/-- **A `SCFG_CFG_INIT`** loads what was committed, and commits it again. -/
theorem executes_cfgInit (hs : ∀ i, (env.sys i).Serves)
    (hw : ∀ site, (env.sys 1).writes site = .complete)
    (h : KeepsStores dflt st sv fs) (left : List Byte) {req : Request}
    (hreq : req.cmd = Cmd.cfgInit.code) :
    Executes env (scfgRun env { fs with shadow := some left } req) scfgOk none
      (KeepsStores dflt sv sv) := by
  have hload := nvramLoad_stands { fs with shadow := some left } (hs 0) h.flash
  obtain ⟨hcommit, hstands⟩ := nvramCommit_complete
    { fs with shadow := some (encode sv.recs) } (hs 1) hw rfl (Nvram.encode_ne_nil _) h.flash.fits
  have hserved : scfgRun env { fs with shadow := some left } req = (.ok .ok,
      { Locals.start fs with files := { fs with
        shadow := some (encode sv.recs)
        flash := flashCommitted (env.sys 1) fs.flash (encode sv.recs) } }) := by
    have hrun : scfgRun env { fs with shadow := some left } req =
        scfgCfgInit env (.start { fs with shadow := some left }) := by
      have hcmd : Cmd.ofCode req.header.cmd = some .cfgInit := by
        rw [Request.header, hreq, Cmd.ofCode_code]
      rw [scfgRun, hcmd]
    rw [hrun, scfgCfgInit, Locals.files_start, hload]
    dsimp only
    rw [hcommit]
    rfl
  refine executes_plain hserved (inBounds_start fs) rfl rfl rfl
    ⟨⟨.file _, fun e => ?_, h.hold.default, h.hold.default_ne⟩, rfl, hstands⟩
  exact Nvram.encode_ne_nil _ (Option.some.inj e)

end Commands

/-! ### One exchange -/

/-- A request is sent as its header says. -/
structure Call.Sends (c : Call) : Prop where
  magic : c.header.magic = scmMagic
  data : c.header.len.toNat ≤ c.data.length
  max : c.header.len.toNat ≤ intMax

theorem carried_take (h : Scfg.Header) (data : List Byte) :
    Request.carried h (data.take h.len.toNat) = .carried h data := by
  simp only [Request.carried, List.take_take, Nat.min_self]

section Step

variable {x : Exchange} {fs : Files}

/-- **The server's turn** on a request that is sent as its header says. -/
theorem Exchange.turn_eq (fs : Files) (hm : ∀ n, 0 < n → x.server.malloc n = true)
    (hc : x.call.Sends) :
    ∃ fuel peer, turn (x.env 0) x.accepted fs fuel =
      some (turnOn (x.env 0) x.accepted fs x.call.header x.call.data peer) := by
  have hlen : x.call.header.len.toNat = (x.call.data.take x.call.header.len.toNat).length := by
    rw [List.length_take, Nat.min_eq_left hc.data]
  obtain ⟨data, peer, ⟨fuel, hread⟩, hbytes, hin⟩ :=
    x.request.reads hm hc.magic hlen (hlen ▸ hc.max) (.inl rfl)
  refine ⟨fuel, peer, ?_⟩
  have hread' : socketRead x.accepted.sys true x.accepted.peer fuel =
      some (.ok ⟨0, some x.call.header, data, peer⟩) := hread
  rw [turn, hread']
  have hon (payload : List Byte) (hp : payload = x.call.data.take x.call.header.len.toNat) :
      turnOn (x.env 0) x.accepted fs x.call.header payload peer =
        turnOn (x.env 0) x.accepted fs x.call.header x.call.data peer := by
    unfold turnOn
    rw [hp, carried_take]
  cases data with
  | none =>
      have hnil : [] = x.call.data.take x.call.header.len.toNat := by
        by_contra hne
        rw [if_neg (Ne.symm hne)] at hbytes
        cases hbytes
      exact congrArg some (hon [] hnil)
  | some b =>
      have hb : b.bytes = x.call.data.take x.call.header.len.toNat := by
        by_cases hnil : x.call.data.take x.call.header.len.toNat = []
        · rw [if_pos hnil] at hbytes
          cases hbytes
        · rw [if_neg hnil] at hbytes
          exact Option.some.inj hbytes
      have hbin : b.InBounds := hin b rfl
      refine congrArg some (Eq.trans ?_ (hon b.bytes hb))
      exact if_neg (not_not.mpr hbin)

/-- The header of a reply. -/
def replyHeader (cmd : Int32) (value : Option (List Byte)) : Scfg.Header :=
  ⟨scmMagic, cmd, .ofNat (value.getD []).length⟩

/-- What is answered fits a message, and is not empty where there is an answer. -/
def Fit (value : Option (List Byte)) : Prop := ∀ bs, value = some bs → bs ≠ [] ∧ bs.length ≤ intMax

section Reply

variable {value : Option (List Byte)}

theorem Fit.max (h : Fit value) : (value.getD []).length ≤ intMax := by
  cases value with
  | none => exact Nat.zero_le _
  | some bs => exact (h bs rfl).2

theorem Fit.nil_iff (h : Fit value) : value.getD [] = [] ↔ value = none := by
  cases value with
  | none => exact iff_of_true rfl rfl
  | some bs => exact iff_of_false (h bs rfl).1 nofun

theorem Fit.len (h : Fit value) (cmd : Int32) :
    (replyHeader cmd value).len.toNat = (value.getD []).length := by
  rw [replyHeader, UInt32.toNat_ofNat']
  exact Nat.mod_eq_of_lt (h.max.trans_lt (by decide))

end Reply

variable {cmd : Int32} {value : Option (List Byte)} {P : Files → Prop}

/-- **The server** writes the reply, and its child ends. -/
theorem Exchange.serves_of_executes (hm : ∀ n, 0 < n → x.server.malloc n = true) (hc : x.call.Sends)
    (h : Executes (x.env 0) (scfgRun (x.env 0) (x.found fs) (.carried x.call.header x.call.data))
      cmd value P)
    (hvalue : Fit value) :
    ∃ fs', Serves x.env x.accepted (x.found fs) ((replyHeader cmd value).mem ++ value.getD [])
      fs' ∧ P fs' := by
  obtain ⟨exit, l, hrun, hin, hmode, hanswer, hP⟩ := h
  obtain ⟨fuel, peer, hturn⟩ := x.turn_eq (x.found fs) hm hc
  have hsent : written x.accepted (answer (x.env 0) exit l).1 (answer (x.env 0) exit l).2 =
      (replyHeader cmd value).mem ++ value.getD [] := by
    rw [hanswer]
    show _ ++ (if decide ((replyHeader cmd value).len.toNat ≤ intMax) && true then
      (value.getD []).take (replyHeader cmd value).len.toNat else []) = _
    rw [hvalue.len, decide_eq_true hvalue.max, List.take_length]
    rfl
  have hon : turn (x.env 0) x.accepted (x.found fs) fuel =
      some (.ok ⟨(replyHeader cmd value).mem ++ value.getD [], l.files, l.consoleMode, peer⟩) := by
    rw [hturn, turnOn, hrun, ← hsent]
    exact congrArg some (if_pos hin)
  exact ⟨l.files, .last hon hmode, hP⟩

/-- **The client** returns 0 where the reply it reads is no failure that it looks at. -/
theorem Exchange.returns_zero (hc : x.call.Sends) {bytes : List Byte} {h : Scfg.Header}
    {data : Option Block}
    {peer : Stream}
    (hreads : SocketReads x.client x.call.rdata (x.reply.carry bytes) (.ok ⟨0, some h, data, peer⟩))
    (hok : x.call.assigns = true → h.cmd ≠ scfgErr) : Returns (x.connected bytes) x.call 0 := by
  have hsent : Sent (x.connected bytes) x.call := by
    refine ⟨rfl, ?_⟩
    have hle : x.call.header.len.toNat ≤ intMax := hc.max
    unfold socketWrite
    by_cases h₀ : x.call.header.len = 0
    · simp [h₀, Exchange.connected]
    · simp [h₀, hle, Exchange.connected]
  refine (returns_iff _).mpr ⟨_, (connects_iff hsent _).mpr ⟨_, hreads, rfl⟩, ?_⟩
  refine (finish_zero _ _).trans (congrArg Except.ok (if_neg ?_))
  exact fun h => hok h.1 h.2

/-- **An exchange is done** where the server executes the command and the call gets the reply. -/
theorem Exchange.done_of_executes (hm : ∀ n, 0 < n → x.server.malloc n = true)
    (hm' : ∀ n, 0 < n → x.client.malloc n = true) (hc : x.call.Sends)
    (h : Executes (x.env 0) (scfgRun (x.env 0) (x.found fs) (.carried x.call.header x.call.data))
      cmd value P)
    (hok : x.call.assigns = true → cmd ≠ scfgErr) (hvalue : Fit value)
    (hrdata : x.call.rdata = true ∨ value = none) : ∃ fs', x.Done fs 0 value fs' ∧ P fs' := by
  obtain ⟨fs', hserves, hP⟩ := x.serves_of_executes hm hc h hvalue
  obtain ⟨data, peer, hreads, hdata, hdatain⟩ := x.reply.reads hm' rfl (hvalue.len cmd) hvalue.max
    (hrdata.imp_right hvalue.nil_iff.mpr)
  refine ⟨fs', ⟨_, _, hserves, hreads, x.returns_zero hc hreads hok, ?_, hdatain⟩, hP⟩
  rw [hdata]
  by_cases hv : value = none
  · rw [if_pos (hvalue.nil_iff.mpr hv), hv]
  · obtain ⟨bs, rfl⟩ := Option.ne_none_iff_exists'.mp hv
    exact if_neg fun h => hv (hvalue.nil_iff.mp h)

end Step

/-! ### Runs -/

/-- What the two sides meet is what they ask for: memory is served, the files open, and what is
written gets there; and the request fits the buffer of the client. -/
structure Exchange.Served (x : Exchange) : Prop where
  server : ∀ n, 0 < n → x.server.malloc n = true
  client : ∀ n, 0 < n → x.client.malloc n = true
  sys : ∀ i, ((x.env 0).sys i).Serves
  writes : ∀ i site, ((x.env 0).sys i).writes site = .complete
  fits : match x.op with
    | .set n v => n.str.length + v.length + 2 ≤ setRoom
    | .get n => n.str.length < intMax
    | .commit | .restart => True

section Run

variable {x : Exchange} {fs : Files} {dflt : Store} {s : Persistent Name CStr}

theorem Exchange.Served.sends (h : x.Served) : x.call.Sends := by
  obtain ⟨op, left, env, server, client, request, reply⟩ := x
  have hfits := h.fits
  cases op with
  | set n v =>
      have hroom : setRoom = 4500 := rfl
      have hfits : n.str.length + v.length + 2 ≤ setRoom := hfits
      have hlen : (setHeader n.str v).len.toNat = (Nvram.line n.str v).length + 1 := by
        show (UInt32.ofNat ((CStr.before (setTmp n.str v).bytes).length + 1)).toNat = _
        rw [before_setTmp, UInt32.toNat_ofNat', Nat.mod_eq_of_lt]
        rw [Nvram.length_line]
        omega
      have hline := Nvram.length_line n.str v
      refine ⟨rfl, ?_, ?_⟩
      · show (setHeader n.str v).len.toNat ≤ (setTmp n.str v).bytes.length
        rw [hlen, setTmp_bytes, List.length_append, CStr.length_mem]
        exact Nat.le_add_right _ _
      · show (setHeader n.str v).len.toNat ≤ 2 ^ 31 - 1
        omega
  | get n =>
      have hfits : n.str.length < 2 ^ 31 - 1 := hfits
      have hlen : (getHeader n.str).len.toNat = n.str.length + 1 := by
        show (UInt32.ofNat (n.str.length + 1)).toNat = _
        rw [UInt32.toNat_ofNat', Nat.mod_eq_of_lt (by omega)]
      refine ⟨rfl, ?_, ?_⟩
      · show (getHeader n.str).len.toNat ≤ n.str.mem.length
        rw [hlen, CStr.length_mem]
      · show (getHeader n.str).len.toNat ≤ 2 ^ 31 - 1
        omega
  | commit => exact ⟨rfl, Nat.le_refl 0, Nat.zero_le _⟩
  | restart => exact ⟨rfl, Nat.le_refl 0, Nat.zero_le _⟩

theorem Short.update {m : Name → Option CStr} (h : Short m) (n : Name) {v : CStr}
    (hv : v.length < nvramSize) :
    Short (Function.update m n (some v)) := by
  intro j w hj
  by_cases hjn : j = n
  · rw [hjn, Function.update_self] at hj
    cases hj
    exact hv
  · rw [Function.update_of_ne hjn] at hj
    exact h j w hj

/-- **One exchange** answers what the store with its saved copy answers, and leaves what that
leaves. -/
theorem Exchange.Served.done (h : x.Served) (hs : Keeps dflt fs s)
    (hfits : x.op = .commit → ShadowFits fs) :
    ∃ fs', x.Done fs 0 ((s.answer x.op).map CStr.mem) fs' ∧ Keeps dflt fs' (s.next x.op) := by
  have hc := h.sends
  obtain ⟨st, sv, hkeeps, rfl, hnow, hkept⟩ := hs
  obtain ⟨op, left, env, server, client, request, reply⟩ := x
  have hfit : Fit none := fun bs h => absurd h.symm (Option.some_ne_none bs)
  have hok : scfgOk ≠ scfgErr := by decide
  cases op with
  | set n v =>
      have hroom : n.str.length + v.length + 2 ≤ 4500 := h.fits
      have hsize : nvramSize = 65536 := rfl
      obtain ⟨fs', hdone, hP⟩ := done_of_executes h.server h.client hc
        (executes_set (h.sys 0) hkeeps h.fits) (fun _ => hok) hfit (.inr rfl)
      refine ⟨fs', hdone, st.set n v, sv, hP, ?_, hnow.update n (by omega), hkept⟩
      rw [Nvram.effective_set]
      rfl
  | get n =>
      obtain ⟨cmd, hexec⟩ := executes_get (h.sys 0) hkeeps hnow h.fits
      have hvalue : Fit ((effective st dflt n).map CStr.mem) := by
        intro bs hbs
        obtain ⟨v, hv, rfl⟩ := Option.map_eq_some_iff.mp hbs
        have hlen : v.length < 65536 := hnow n v hv
        refine ⟨by simp [CStr.mem], ?_⟩
        rw [CStr.length_mem]
        show _ ≤ 2 ^ 31 - 1
        omega
      obtain ⟨fs', hdone, st', hst', heff⟩ := done_of_executes h.server h.client hc hexec
        (fun h => absurd h Bool.false_ne_true) hvalue (.inl rfl)
      refine ⟨fs', hdone, st', sv, hst', ?_, hnow, hkept⟩
      rw [heff]
      rfl
  | commit =>
      obtain ⟨fs', hdone, hP⟩ := done_of_executes h.server h.client hc
        (executes_commit (h.sys 0) (h.writes 0) hkeeps (hfits rfl) rfl) (fun _ => hok)
          hfit (.inr rfl)
      exact ⟨fs', hdone, st, st, hP, rfl, hnow, hnow⟩
  | restart =>
      obtain ⟨fs', hdone, hP⟩ := done_of_executes h.server h.client hc
        (executes_cfgInit h.sys (h.writes 1) hkeeps left rfl) (fun _ => hok) hfit (.inr rfl)
      exact ⟨fs', hdone, sv, sv, hP, rfl, hkept, hkept⟩

/-- **A run of exchanges**, as far as every commit fits the flash. -/
theorem exchanges_refine {xs : List Exchange} (hxs : ∀ x ∈ xs, x.Served) (hs : Keeps dflt fs s) :
    ∃ ys zs fs', xs = ys ++ zs ∧
      Exchanges ys fs ((s.answers (ys.map Exchange.op)).map (Option.map CStr.mem)) fs' ∧
      Keeps dflt fs' (s.after (ys.map Exchange.op)) ∧
      ∀ z ∈ zs.head?, z.op = .commit ∧ ¬ ShadowFits fs' := by
  induction xs generalizing fs s with
  | nil => exact ⟨[], [], fs, rfl, .nil fs, hs, nofun⟩
  | cons x xs ih =>
      by_cases hfits : x.op = .commit → ShadowFits fs
      · obtain ⟨fs₁, hdone, hs₁⟩ := (hxs x List.mem_cons_self).done hs hfits
        obtain ⟨ys, zs, fs', rfl, hrun, hs', hz⟩ :=
          ih (fun y hy => hxs y (List.mem_cons_of_mem x hy)) hs₁
        exact ⟨x :: ys, zs, fs', rfl, .cons hdone hrun, hs', hz⟩
      · refine ⟨[], x :: xs, fs, rfl, .nil fs, hs, fun z hz => ?_⟩
        cases hz
        exact Classical.not_imp.mp hfits

/-- What is sent, in one piece. -/
def inOnePiece : List Byte → Stream
  | [] => ⟨[], .eof, fun _ h => absurd h List.not_mem_nil⟩
  | b :: bs => ⟨[b :: bs], .eof, fun _ h => List.mem_singleton.mp h ▸ List.cons_ne_nil b bs⟩

/-- A connection that brings everything at once. -/
def Wire.atOnce : Wire where
  carry := inOnePiece
  rest bs := by
    cases bs with
    | nil => rfl
    | cons b bs => exact List.flatten_singleton
  whole bs hlong := by
    rintro ⟨p, hp, hlt, k, hk⟩
    cases bs with
    | nil => exact absurd hlong (by decide)
    | cons b bs =>
        cases k with
        | zero =>
            simp [inOnePiece] at hk
            omega
        | succ k =>
            simp [inOnePiece] at hk
            rw [List.length_cons] at hlong
            omega

/-- An exchange in which everything goes well. -/
def Exchange.ideal (op : Persistent.Op Name CStr) : Exchange where
  op := op
  left := [0]
  env _ := .ideal
  server := .ideal
  client := .ideal
  request := .atOnce
  reply := .atOnce

/-- A device the empty configuration was committed on. -/
def blank : Files where
  flash := flashCommitted .ideal (.filled nvramSize 0xff) [0]
  shadow := some [0]
  default := none

theorem keeps_blank : Keeps .empty blank ⟨fun _ => none, fun _ => none⟩ := by
  obtain ⟨-, hstands⟩ := nvramCommit_complete ⟨.filled nvramSize 0xff, some [0], none⟩
    Nvram.Sys.serves_ideal (fun _ => rfl) rfl (by decide) (by decide)
  exact ⟨.empty, .empty, ⟨⟨.file .empty, by decide, .missing, by decide⟩, rfl, hstands⟩, rfl,
    nofun, nofun⟩

theorem exchanges_refine_restart :
    ∃ ys zs fs', [Exchange.ideal (.set (.lit ['a']) (.lit ['1'])), .ideal .commit,
        .ideal (.set (.lit ['a']) (.lit ['2'])), .ideal .restart, .ideal (.get (.lit ['a']))] =
          ys ++ zs ∧
      Exchanges ys blank (((⟨fun _ => none, fun _ => none⟩ : Persistent Name CStr).answers
        (ys.map Exchange.op)).map (Option.map CStr.mem)) fs' ∧
      Keeps .empty fs'
      ((⟨fun _ => none, fun _ => none⟩ : Persistent Name CStr).after (ys.map Exchange.op)) ∧
      ∀ z ∈ zs.head?, z.op = .commit ∧ ¬ ShadowFits fs' := by
  have hserved (op : Persistent.Op Name CStr) (hop : match op with
      | .set n v => n.str.length + v.length + 2 ≤ setRoom
      | .get n => n.str.length < intMax
      | .commit | .restart => True) : (Exchange.ideal op).Served :=
    ⟨fun _ _ => rfl, fun _ _ => rfl, fun _ => Nvram.Sys.serves_ideal, fun _ _ => rfl, hop⟩
  refine exchanges_refine ?_ keeps_blank
  simp only [List.forall_mem_cons, List.not_mem_nil, false_imp_iff, implies_true, and_true]
  exact ⟨hserved _ (by decide), hserved _ trivial, hserved _ (by decide), hserved _ trivial,
    hserved _ (by decide)⟩

end Run

end Wap4410n.Scfg
