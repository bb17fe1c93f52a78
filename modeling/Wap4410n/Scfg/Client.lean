import Wap4410n.Nvram.Set
import Wap4410n.Scfg.Commands

/-!
# Scfg — the client

Six calls send one request each and wait for the reply.  They differ in the request, in whether they
take the payload of the reply (`rdata` is NULL where they do not), and in whether they look at its
command: `scfgmgr_getall`, `scfgmgr_get` and `scfgmgr_console` free the reply without assigning `i`.

* `setTmp_bytes`: what `scfgmgr_set` sends is `name=value` and a NUL.
* `scfgmgrSet_agrees`: the server takes it for the same name and the same value, and a
  `SCFG_GET` of the name then answers the value.
-/

namespace Wap4410n.Scfg

open CLib CLib.Run
open Nvram (Sys Files Name Store Represents nvramSize nvramGet nvramSet nvramGetFun eqSign line)

/-! ### The calls -/

/-- What a call meets: whether `socket_connect` succeeds and the two `write`s of `socket_write` do,
the system, and what the server sends. -/
structure Link where
  connects : Bool
  sendsHeader : Bool
  sendsData : Bool
  sys : Sys
  peer : Stream

/-- `socket_write`: the bytes sent, or `none` for −1. -/
def socketWrite (link : Link) (header : Header) (data : List Byte) : Option (List Byte) :=
  if !link.sendsHeader then none
  else if header.len = 0 then some header.mem
  -- a count above `INT_MAX` is refused
  else if header.len.toNat ≤ intMax && link.sendsData then
    some (header.mem ++ data.take header.len.toNat)
  else none

/-- `scfgmgr_connect` with at most `fuel` iterations of the loop of `socket_read`: its return value
and `*rhd`.  `rdata` says whether the address of the payload is not NULL. -/
def scfgmgrConnect (link : Link) (shd : Header) (sdata : List Byte) (rdata : Bool) (fuel : Nat) :
    Option (Run Obj (Int × Option Header)) :=
  if !link.connects then some (.ok (-1, none))
  else if (socketWrite link shd sdata).isNone then some (.ok (-1, none))
  else (socketRead link.sys rdata link.peer fuel).map fun r =>
    (fun run => (if run.ret < 0 then -1 else 0, run.header)) <$> r

/-- `if(scfgmgr_connect(...)<0) return -1; i=rhd->cmd; free(rhd); return (i==SCFG_ERR)?-1:0;`, where
a call that does not assign `i` leaves it 0. -/
def finish (assigns : Bool) (connected : Int × Option Header) : Run Obj Int :=
  if connected.1 < 0 then .ok (-1)
  else if assigns then
    match connected.2 with
    | none => .error (.null .rhd)
    | some rhd => .ok (if rhd.cmd = scfgErr then -1 else 0)
  else .ok (if (0 : Int32) = scfgErr then -1 else 0)

/-- A call: the request, and what becomes of the reply. -/
def clientCall (assigns rdata : Bool) (shd : Header) (sdata : List Byte) (link : Link)
    (fuel : Nat) :
    Option (Run Obj Int) :=
  (scfgmgrConnect link shd sdata rdata fuel).map fun r => r >>= finish assigns

/-- `scfgmgr_cmd` -/
def scfgmgrCmd (cmd : Int32) : Link → Nat → Option (Run Obj Int) :=
  clientCall true true ⟨scmMagic, cmd, 0⟩ []

/-- The size of `tmp` in `scfgmgr_set`. -/
def setRoom : Nat := 4500

/-- `char tmp[4500]=""; sprintf(tmp,"%s=%s",name,data);` -/
def setTmp (name data : CStr) : Block :=
  (Block.mk setRoom (List.replicate setRoom 0)).store 0 (name.bytes ++ eqSign :: data.bytes ++ [0])

/-- The header of `scfgmgr_set`: `shd.len=strlen(tmp)+1;` -/
def setHeader (name data : CStr) : Header :=
  ⟨scmMagic, Cmd.set.code, .ofNat ((CStr.before (setTmp name data).bytes).length + 1)⟩

/-- `scfgmgr_set` -/
def scfgmgrSet (name data : CStr) : Link → Nat → Option (Run Obj Int) :=
  clientCall true false (setHeader name data) (setTmp name data).bytes

/-- `scfgmgr_sendfile` -/
def scfgmgrSendfile (data : List Byte) (len : Int32) : Link → Nat → Option (Run Obj Int) :=
  clientCall true false ⟨scmMagic, Cmd.receive.code, len.toUInt32⟩ data

/-- `scfgmgr_getall` -/
def scfgmgrGetall : Link → Nat → Option (Run Obj Int) :=
  clientCall false true ⟨scmMagic, Cmd.getall.code, 0⟩ []

/-- The header of `scfgmgr_get`. -/
def getHeader (data : CStr) : Header := ⟨scmMagic, Cmd.get.code, .ofNat (data.length + 1)⟩

/-- `scfgmgr_get` -/
def scfgmgrGet (data : CStr) : Link → Nat → Option (Run Obj Int) :=
  clientCall false true (getHeader data) data.mem

/-- `scfgmgr_console` -/
def scfgmgrConsole (data : CStr) : Link → Nat → Option (Run Obj Int) :=
  clientCall false true ⟨scmMagic, Cmd.console.code, .ofNat (data.length + 1)⟩ data.mem

/-- The six calls, with what they are given. -/
inductive Call where
  | cmd (code : Int32)
  | set (name data : CStr)
  | sendfile (data : List Byte) (len : Int32)
  | getall
  | get (data : CStr)
  | console (data : CStr)

namespace Call

def run : Call → Link → Nat → Option (Run Obj Int)
  | cmd code => scfgmgrCmd code
  | set name data => scfgmgrSet name data
  | sendfile data len => scfgmgrSendfile data len
  | getall => scfgmgrGetall
  | get data => scfgmgrGet data
  | console data => scfgmgrConsole data

/-- Whether `i` is assigned. -/
def assigns : Call → Bool
  | cmd _ | set _ _ | sendfile _ _ => true
  | getall | get _ | console _ => false

/-- Whether the caller's `rdata` is passed on. -/
def rdata : Call → Bool
  | set _ _ | sendfile _ _ => false
  | cmd _ | getall | get _ | console _ => true

/-- The header that is sent. -/
def header : Call → Header
  | cmd code => ⟨scmMagic, code, 0⟩
  | set name data => setHeader name data
  | sendfile _ len => ⟨scmMagic, Cmd.receive.code, len.toUInt32⟩
  | getall => ⟨scmMagic, Cmd.getall.code, 0⟩
  | get data => getHeader data
  | console data => ⟨scmMagic, Cmd.console.code, .ofNat (data.length + 1)⟩

/-- What is sent behind it. -/
def data : Call → List Byte
  | cmd _ | getall => []
  | set name data => (setTmp name data).bytes
  | sendfile data _ => data
  | get data | console data => data.mem

theorem run_eq (c : Call) : c.run = clientCall c.assigns c.rdata c.header c.data := by
  cases c <;> rfl

end Call

/-! ### The encoding of `SCFG_SET` -/

/-- What `scfg_run` is given where the request arrives as it was sent. -/
def Request.carried (shd : Header) (sdata : List Byte) : Request where
  cmd := shd.cmd
  payload := sdata.take shd.len.toNat
  size := Nat.lt_of_le_of_lt (List.length_take_le _ _) shd.len.toNat_lt

/-- The request of `scfgmgr_set`. -/
def setRequest (name data : CStr) : Request :=
  .carried (setHeader name data) (setTmp name data).bytes

/-- The request of `scfgmgr_get`. -/
def getRequest (name : CStr) : Request := .carried (getHeader name) name.mem

section Encoding

theorem setTmp_bytes (name data : CStr) :
    (setTmp name data).bytes =
      (line name data).mem ++ List.replicate (setRoom - ((line name data).length + 1)) 0 := by
  have hbytes : (setTmp name data).bytes =
      (line name data).mem ++ (List.replicate setRoom 0).drop (line name data).mem.length := by
    exact splice_zero _ _
  rw [hbytes, List.drop_replicate, CStr.length_mem]

theorem setTmp_inBounds {name data : CStr} :
    (setTmp name data).InBounds ↔ name.length + data.length + 2 ≤ setRoom := by
  show (setTmp name data).bytes.length ≤ setRoom ↔ _
  rw [setTmp_bytes, List.length_append, CStr.length_mem, List.length_replicate,
    Nvram.length_line]
  omega

/-- `strlen(tmp)` is the length of the text. -/
theorem before_setTmp (name data : CStr) :
    CStr.before (setTmp name data).bytes = line name data := by
  rw [setTmp_bytes, CStr.mem, List.append_assoc]
  exact CStr.before_append (line name data) _

/-- **What `scfgmgr_set` sends** is `name=value` and its NUL. -/
theorem payload_setRequest {name data : CStr} (h : name.length + data.length + 2 ≤ setRoom) :
    (setRequest name data).payload = (line name data).mem := by
  have hroom : setRoom = 4500 := rfl
  have hlen : (setHeader name data).len.toNat = (line name data).mem.length := by
    show (UInt32.ofNat ((CStr.before (setTmp name data).bytes).length + 1)).toNat = _
    rw [before_setTmp, CStr.length_mem, UInt32.toNat_ofNat', Nat.mod_eq_of_lt]
    rw [Nvram.length_line]
    omega
  show (setTmp name data).bytes.take (setHeader name data).len.toNat = _
  rw [hlen, setTmp_bytes, List.take_left]

theorem payload_getRequest {name : CStr} (h : name.length < 2 ^ 32 - 1) :
    (getRequest name).payload = name.mem := by
  have hlen : (getHeader name).len.toNat = name.mem.length := by
    show (UInt32.ofNat (name.length + 1)).toNat = _
    rw [CStr.length_mem, UInt32.toNat_ofNat', Nat.mod_eq_of_lt (by omega)]
  show name.mem.take (getHeader name).len.toNat = _
  rw [hlen, List.take_length]

/-- A payload that is a string. -/
theorem mem_pt {req : Request} {s : CStr} (h : req.payload = s.mem) :
    req.pt.mem = some (s.bytes ++ 0 :: []) := by
  have hne : req.payload ≠ [] := by
    rw [h]
    simp [CStr.mem]
  exact (if_neg hne : req.pt.mem = _).trans (congrArg some h)

/-- **The server reads back the name and the value**: `strtok` stops at the first `'='`, and the
second call takes all that is left; where nothing is left it returns NULL, which stands for the
empty value. -/
theorem assigns_line (n : Name) (v : CStr) : Assigns (line n.str v) n.str v := by
  refine ⟨by simp, v, ?_, ?_⟩
  · rw [CStr.strtok_eq_some]
    exact strtok_append n.ne_nil n.noEq
  · by_cases hv : v.bytes = []
    · have hnone : v.strtok [] = none := by
        cases h : v.strtok [] with
        | none => rfl
        | some t =>
            have := CStr.strtok_eq_some.mp h
            rw [hv] at this
            cases this
      rw [valueOf, hnone]
      exact CStr.ext hv
    · have hsome : v.strtok [] = some (v, .empty) := CStr.strtok_eq_some.mpr (strtok_nil hv)
      rw [valueOf, hsome]
      rfl

end Encoding

/-! ### A `SCFG_SET` and the `SCFG_GET` that follows it -/

section Agreement

variable {env : Env} {fs : Files} {n : Name} {v : CStr}

/-- The server executes `nvram_set` with the name and the value. -/
theorem scfgRun_setRequest (env : Env) (fs : Files)
    (hfit : n.str.length + v.length + 2 ≤ setRoom) :
    (scfgRun env fs (setRequest n.str v)).1 =
        (fun _ => Exit.ok) <$> nvramSet (env.sys 0) fs.shadow n.str v ∧
      ∀ run, nvramSet (env.sys 0) fs.shadow n.str v = .ok run →
        (scfgRun env fs (setRequest n.str v)).2.files = { fs with shadow := run.shadow } := by
  have hrun : scfgRun env fs (setRequest n.str v) =
      scfgSet env (setRequest n.str v).pt (.start fs) := rfl
  have hmem := mem_pt (payload_setRequest hfit)
  rw [hrun, scfgSet_assigns hmem (assigns_line n v), Locals.files_start]
  cases nvramSet (env.sys 0) fs.shadow n.str v with
  | error e => exact ⟨rfl, fun _ h => by cases h⟩
  | ok run =>
      refine ⟨rfl, fun run' h => ?_⟩
      cases h
      rfl

/-- A `SCFG_GET` of a name whose value the shadow holds. -/
theorem scfgRun_getRequest (env : Env) (fs : Files) (hn : n.str.length < 2 ^ 32 - 1)
    (hget : ∀ p : Ptr Obj, p.Holds n.str →
      nvramGetFun (env.sys 0) p .shadow fs.shadow = .ok (some v.mem)) :
    scfgRun env fs (getRequest n.str) = (.ok .ok, (Locals.start fs).copy v) := by
  have hmem := mem_pt (payload_getRequest hn)
  have hvalue : nvramGet (env.sys 0) fs (getRequest n.str).pt = .ok (some v.mem, fs) := by
    rw [nvramGet, hget _ ⟨[], hmem⟩]
    rfl
  have hrun : scfgRun env fs (getRequest n.str) = scfgGet env (getRequest n.str).pt (.start fs) :=
    rfl
  rw [hrun, scfgGet, Locals.files_start, hvalue]
  show (Locals.start fs).copyValue v.mem = _
  rw [Locals.copyValue, stringAt_mem]

/-- The reply to it. -/
theorem answer_copy (env : Env) (fs : Files) (exit : Exit) (v : CStr) :
    (answer env exit ((Locals.start fs).copy v)).2 = v.mem := by
  have hbytes : ((Locals.start fs).copy v).buf.bytes = v.mem := by
    show ((Block.fresh nvramSize).strcpy v).bytes = _
    rw [Block.bytes_strcpy, Block.bytes_fresh, List.drop_nil, List.append_nil]
  have hlen : ((Locals.start fs).copy v).bufLen = v.mem.length := (CStr.length_mem v).symm
  show ((Locals.start fs).copy v).buf.contents env.stack _ = _
  rw [hlen, Block.contents_of_le (by rw [hbytes]), hbytes, List.take_length]

/-- **Client and server agree on the encoding of `SCFG_SET`.**  For a name and a value that fit
`tmp`, the request stays inside it, the server executes `nvram_set` with exactly that name and that
value, and a `SCFG_GET` of the name then answers the value. -/
theorem scfgmgrSet_agrees (n : Name) (v : CStr) (hfit : n.str.length + v.length + 2 ≤ setRoom) :
    (setTmp n.str v).InBounds ∧
      (∀ env fs, (scfgRun env fs (setRequest n.str v)).1 =
          (fun _ => Exit.ok) <$> nvramSet (env.sys 0) fs.shadow n.str v ∧
        ∀ run, nvramSet (env.sys 0) fs.shadow n.str v = .ok run →
          (scfgRun env fs (setRequest n.str v)).2.files = { fs with shadow := run.shadow }) ∧
      ∀ env env' fs st, (env.sys 0).Serves → (env'.sys 0).Serves → Represents fs.shadow st →
        (scfgRun env fs (setRequest n.str v)).1 = .ok .ok ∧
          ∃ l, scfgRun env' (scfgRun env fs (setRequest n.str v)).2.files (getRequest n.str) =
              (.ok .ok, l) ∧ l.buf.InBounds ∧
            answer env' .ok l = (⟨scmMagic, scfgOk, .ofNat (v.length + 1)⟩, v.mem) := by
  have hroom : setRoom = 4500 := rfl
  refine ⟨setTmp_inBounds.mpr hfit, fun env fs => scfgRun_setRequest env fs hfit, ?_⟩
  intro env env' fs st hs hs' hf
  obtain ⟨hret, hfiles⟩ := scfgRun_setRequest env fs hfit
  obtain ⟨run, hrun, -, hshadow⟩ := Nvram.nvramSet_represents hs hf n v
  rw [hrun] at hret
  refine ⟨hret, ?_⟩
  have hget : ∀ p : Ptr Obj, p.Holds n.str →
      nvramGetFun (env'.sys 0) p .shadow run.shadow = .ok (some v.mem) := fun p hp => by
    rw [hshadow, Nvram.nvramGetFun_represents hs' (.file (st.set n v)) ?_ hp, Store.get_set,
      if_pos rfl]
    · rfl
    · simp [Nvram.encode_ne_nil]
  rw [hfiles run hrun]
  refine ⟨_, scfgRun_getRequest env' _ (by omega) hget, ?_, ?_⟩
  · exact Block.inBounds_strcpy.mpr ⟨Block.inBounds_fresh _, by
      show v.length + 1 ≤ 65536
      omega⟩
  · exact Prod.ext rfl (answer_copy env' _ .ok v)

/-- A value that starts with the separator. -/
theorem scfgmgrSet_agrees_eqSign :
    (scfgRun .ideal ⟨.filled nvramSize 0xff, none, none⟩
        (setRequest (.lit ['a']) (.lit ['=', 'x']))).1 = .ok .ok ∧
      ∃ l, scfgRun .ideal (scfgRun .ideal ⟨.filled nvramSize 0xff, none, none⟩
          (setRequest (.lit ['a']) (.lit ['=', 'x']))).2.files (getRequest (.lit ['a'])) =
            (.ok .ok, l) ∧ (answer .ideal .ok l).2 = [0x3d, 0x78, 0] := by
  obtain ⟨-, -, h⟩ := scfgmgrSet_agrees (.lit ['a']) (.lit ['=', 'x']) (by decide)
  obtain ⟨hset, l, hget, -, hans⟩ := h .ideal .ideal ⟨.filled nvramSize 0xff, none, none⟩ .empty
    Nvram.Sys.serves_ideal Nvram.Sys.serves_ideal .missing
  exact ⟨hset, l, hget, congrArg Prod.snd hans⟩

end Agreement

end Wap4410n.Scfg
