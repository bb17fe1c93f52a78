import Wap4410n.Support.Print
import Wap4410n.Nvram.Flash
import Wap4410n.Scfg.Socket

/-!
# Scfg — the server

`scfg_run` answers one request: a command and the payload `socket_read` returned, which is NULL
where the length is 0.  Each command works in `buf[NVRAM_SIZE]` on the stack; a command ends with
`break`, which answers `SCFG_OK`, or with `goto error` (`Exit`).  `Locals` is what a command has
made of the stack and of the files; it stands beside the result so that it is there after a fault
too, as it was before the call that stopped.

What other programs and the kernel decide is a parameter (`Env`).  `system`, `syslog` and the calls
that only close or free have no part in it.
-/

namespace Wap4410n.Scfg

open CLib
open Nvram (Sys Files nvramSize nvramGet nvramSet nvramLoad nvramCommit eqSign)

/-! ### Requests -/

/-- The commands `scfg_run` has a case for. -/
inductive Cmd where
  | getall
  | get
  | set
  | commit
  | test
  | adslStatus
  | console
  | receive
  | version
  | localIp
  | restore
  | checksum
  | cfgInit
deriving DecidableEq

/-- `SCFG_ERR` -/
def scfgErr : Int32 := -1

/-- `SCFG_OK` -/
def scfgOk : Int32 := 0

/-- `SCFG_GETALL` and those that follow it. -/
def Cmd.code : Cmd → Int32
  | .getall => 1
  | .get => 2
  | .set => 3
  | .commit => 4
  | .test => 5
  | .adslStatus => 6
  | .console => 7
  | .receive => 8
  | .version => 9
  | .localIp => 10
  | .restore => 11
  | .checksum => 12
  | .cfgInit => 13

/-- `switch(header->cmd)`; `default` is `none`. -/
def Cmd.ofCode (code : Int32) : Option Cmd :=
  [getall, get, set, commit, test, adslStatus, console, receive, version, localIp, restore,
    checksum, cfgInit].find? fun c => c.code = code

@[simp] theorem Cmd.ofCode_code (c : Cmd) : Cmd.ofCode c.code = some c := by
  cases c <;> rfl

/-- A request that passed `socket_read`: a command and as many bytes as its header says. -/
structure Request where
  cmd : Int32
  payload : List Byte
  size : payload.length < 2 ^ 32

/-- The header of the request. -/
def Request.header (req : Request) : Header := ⟨scmMagic, req.cmd, .ofNat req.payload.length⟩

/-- `payload` -/
def Request.pt (req : Request) : Ptr Obj :=
  ⟨.payload, if req.payload = [] then none else some req.payload⟩

/-! ### The environment -/

/-- What other programs and the kernel decide. -/
structure Env where
  /-- the system as each call of `libnv` finds it, in order -/
  sys : Nat → Sys
  /-- what `buf` holds where nothing was stored into it -/
  stack : Nat → Byte
  /-- what the smaller locals hold before they are assigned -/
  scratch : Nat → Byte
  /-- `/proc/avalanche/avsar_modem_stats`, where it opens -/
  stats : Option (List Byte)
  statsReads : Bool
  /-- the output of a command, where `popen` succeeds -/
  popen : CStr → Option (List Byte)
  /-- `mytmp` after `chdir(dir); getcwd(mytmp,1024);` -/
  mytmp : CStr → Nat → Byte
  /-- whether the two calls succeed -/
  changes : CStr → Bool
  /-- whether a file opens for `SCFG_RECEIVE`, by its name -/
  creates : List Byte → Bool
  /-- the `write` of `SCFG_RECEIVE` -/
  saves : WriteOutcome
  /-- what reading `/etc/version` delivers, where it opens -/
  version : Option (List Byte)
  /-- `/dev/mtdblock/0`, where it opens -/
  mtd : Option (List Byte)

/-- An environment in which every call of `libnv` succeeds, files are created and written whole, and
nothing else is there. -/
def Env.ideal : Env where
  sys _ := .ideal
  stack _ := 0
  scratch _ := 0
  stats := none
  statsReads := true
  popen _ := none
  mytmp _ _ := 0
  changes _ := true
  creates _ := true
  saves := .complete
  version := none
  mtd := none

/-- What `SCFG_RECEIVE` hands to `write`: the file, the bytes from `pt+1` to the end of the payload,
and the count. -/
structure Save where
  path : List Byte
  left : List Byte
  count : Nat

/-- The locals of `scfg_run`, the files, and what it has written for `SCFG_RECEIVE`. -/
structure Locals where
  files : Files
  buf : Block
  bufLen : Nat
  tmp : Block
  filename : Block
  saved : Option Save
  consoleMode : Bool

/-- The locals on entry. -/
def Locals.start (fs : Files) : Locals where
  files := fs
  buf := .fresh nvramSize
  bufLen := 0
  tmp := .fresh 128
  filename := .fresh 128
  saved := none
  consoleMode := false

@[simp] theorem Locals.files_start (fs : Files) : (Locals.start fs).files = fs := rfl

/-- `break` and `goto error`. -/
inductive Exit where
  | ok
  | error
deriving DecidableEq

/-- How a command ends, and the locals then. -/
abbrev Served := Run Obj Exit × Locals

/-- `strcpy(buf, s); buf_len=strlen(s)+1;` -/
def Locals.copy (l : Locals) (s : CStr) : Locals :=
  { l with buf := l.buf.strcpy s, bufLen := s.length + 1 }

/-- `sprintf(buf, ...); buf_len=strlen(buf)+1;`, where `text` is what is printed. -/
def Locals.sprintf (l : Locals) (text : List Byte) : Locals :=
  { l with buf := l.buf.store 0 (text ++ [0]), bufLen := (CStr.before text).length + 1 }

/-- The shadow replaced. -/
def Locals.shadow (l : Locals) (f : Option (List Byte)) : Locals :=
  { l with files := { l.files with shadow := f } }

/-- The string in `buf`. -/
def Locals.string (l : Locals) (env : Env) : Run Obj CStr :=
  stringAt .buf (l.buf.contents env.stack nvramSize)

/-- A text made of the string in `buf` is printed over it. -/
def Locals.rescan (l : Locals) (env : Env) (text : CStr → List Byte) : Served :=
  match l.string env with
  | .error e => (.error e, l)
  | .ok s => (.ok .ok, l.sprintf (text s))

/-- `strcpy(buf,value)` of what `nvram_get` has returned. -/
def Locals.copyValue (l : Locals) (value : List Byte) : Served :=
  match stringAt .value value with
  | .error e => (.error e, l)
  | .ok v => (.ok .ok, l.copy v)

/-! ### The commands -/

/-- `case SCFG_GETALL` -/
def scfgGetall (env : Env) (l : Locals) : Served :=
  match l.files.shadow with
  | none => (.ok .error, l)
  | some bytes =>
    if !(env.sys 0).opens .shadow then (.ok .error, l) else
    let l := { l with bufLen := bytes.length }
    if !(env.sys 0).reads .shadow then (.ok .error, l) else
    (.ok .ok, { l with buf := l.buf.store 0 bytes })

/-- `case SCFG_GET` -/
def scfgGet (env : Env) (payload : Ptr Obj) (l : Locals) : Served :=
  match nvramGet (env.sys 0) l.files payload with
  | .error e => (.error e, l)
  | .ok (none, fs) => (.ok .error, { l with files := fs })
  | .ok (some value, fs) => { l with files := fs }.copyValue value

/-- `value=(strtok(NULL,"")?:"")` -/
def valueOf (rest : CStr) : CStr := ((rest.strtok []).map Prod.fst).getD .empty

/-- `case SCFG_SET` -/
def scfgSet (env : Env) (payload : Ptr Obj) (l : Locals) : Served :=
  match payload.mem with
  -- `pt && ...` skips the test, and `strcpy` reads through NULL
  | none => (.error (.null .payload), l)
  | some m =>
    match strchrHas .payload eqSign m with
    | .error e => (.error e, l)
    | .ok false => (.ok .error, l)
    | .ok true =>
      match stringAt .payload m with
      | .error e => (.error e, l)
      | .ok s =>
        let l := { l with buf := l.buf.strcpy s }
        match s.strtok [eqSign] with
        | none => (.ok .error, l)
        | some (name, rest) =>
          match nvramSet (env.sys 0) l.files.shadow name (valueOf rest) with
          | .error e => (.error e, l)
          | .ok r => (.ok .ok, l.shadow r.shadow)

/-- `case SCFG_COMMIT` -/
def scfgCommit (env : Env) (l : Locals) : Served :=
  match nvramCommit (env.sys 0) l.files with
  | .error e => (.error e, l)
  | .ok (ret, fs) => (.ok (if ret < 0 then .error else .ok), { l with files := fs })

/-- The settings of `SCFG_TEST`. -/
def testSettings : List (CStr × CStr) :=
  [(.lit ['w', 'a', 'n', '_', 'm', 'o', 'd', 'e'],
      .lit ['b', 'r', 'i', 'd', 'g', 'e', 'd', 'o', 'n', 'l', 'y']),
    (.lit ['w', 'a', 'n', '_', 'e', 'n', 'c', 'a', 'p'], .lit ['0']),
    (.lit ['w', 'a', 'n', '_', 'v', 'p', 'i'], .lit ['8']),
    (.lit ['w', 'a', 'n', '_', 'v', 'c', 'i'], .lit ['8', '1'])]

/-- Calls of `nvram_set` whose result is not looked at, the first as the `i`-th call of `libnv`. -/
def setEach (env : Env) : Nat → List (CStr × CStr) → Option (List Byte) →
    Run Obj (Option (List Byte))
  | _, [], f => .ok f
  | i, (name, value) :: cs, f => do
    let r ← nvramSet (env.sys i) f name value
    setEach env (i + 1) cs r.shadow

/-- `case SCFG_TEST` -/
def scfgTest (env : Env) (l : Locals) : Served :=
  match setEach env 0 testSettings l.files.shadow with
  | .error e => (.error e, l)
  | .ok f => (.ok .ok, l.shadow f)

/-- `sscanf(pt,"%*[^:]: %d %*[^:]: %d",&upstream,&downstream);` -/
def scanStats (pt : List Byte) : Int32 × Int32 :=
  match (scanPast 0x3a pt).bind scanInt with
  | none => (0, 0)
  | some (upstream, s) =>
    match (scanPast 0x3a (s.dropWhile isSpace)).bind scanInt with
    | none => (upstream, 0)
    | some (downstream, _) => (upstream, downstream)

/-- `sprintf(buf,"%dKbps/%dKbps",downstream,upstream);` with the rates found in `buf` -/
def statsText (s : CStr) : List Byte :=
  let rates := ((strstr (ascii ['U', 'S']) s.bytes).map scanStats).getD (0, 0)
  printInt rates.2 ++ ascii ['K', 'b', 'p', 's', '/'] ++ printInt rates.1 ++
    ascii ['K', 'b', 'p', 's']

/-- `case SCFG_ADSL_STATUS` -/
def scfgAdslStatus (env : Env) (l : Locals) : Served :=
  let l := { l with consoleMode := true }
  match env.stats with
  | none => (.ok .error, l)
  | some bytes =>
    let l := { l with bufLen := bytes.length }
    if !env.statsReads then (.ok .error, l) else
    { l with buf := l.buf.store 0 bytes }.rescan env statsText

/-- The loop of `myPipe`: its return value, and `*output`, which is NULL where `realloc` failed. -/
def pipeLoop (sys : Sys) (len : Int) (output : CStr) (fp : List Byte) : Int × Option CStr :=
  match _h : fgets nvramSize fp with
  | none => (len, some output)
  | some (line, fp) =>
    let output := output.append (.before line)
    if sys.malloc (output.length + 1) then pipeLoop sys output.length output fp else (-1, none)
termination_by fp.length
decreasing_by exact (fgets_some (by decide) _h).2

/-- `myPipe` -/
def myPipe (env : Env) (command : Ptr Obj) : Run Obj (Int × Option CStr) := do
  -- `strcpy(*output, "")` on what `malloc(1)` returned
  if !(env.sys 0).malloc 1 then .error (.null .output) else
  match env.popen (← command.string) with
  | none => return (-1, some .empty)
  | some fp => return pipeLoop (env.sys 0) 0 .empty fp

/-- `strcmp(payload,"exit")==0 || strcmp(payload,"quit")==0 || strcmp(payload,"bye")==0` -/
def leaves (m : List Byte) : Run Obj Bool := do
  if ← strcmpEq .payload m (ascii ['e', 'x', 'i', 't']) then return true
  if ← strcmpEq .payload m (ascii ['q', 'u', 'i', 't']) then return true
  strcmpEq .payload m (ascii ['b', 'y', 'e'])

/-- `chdir(payload+3); getcwd(mytmp,1024); sprintf(buf,"cd %s",mytmp);` -/
def scfgCd (env : Env) (dir : CStr) (l : Locals) : Served :=
  match stringAt .mytmp ((List.range 1024).map (env.mytmp dir)) with
  | .error e => (.error e, l)
  | .ok cwd => (.ok .ok, l.sprintf (ascii ['c', 'd', ' '] ++ cwd.bytes))

/-- `myPipe(payload,&data); if(data!=NULL) ...` -/
def scfgPipe (env : Env) (payload : Ptr Obj) (l : Locals) : Served :=
  match myPipe env payload with
  | .error e => (.error e, l)
  | .ok (_, none) => (.ok .ok, l)
  | .ok (_, some data) => (.ok .ok, l.copy data)

/-- `case SCFG_CONSOLE` -/
def scfgConsole (env : Env) (payload : Ptr Obj) (l : Locals) : Served :=
  match payload.mem with
  | none => (.error (.null .payload), l)
  | some m =>
    match leaves m with
    | .error e => (.error e, l)
    | .ok true => (.ok .ok, { l with consoleMode := false })
    | .ok false =>
      let l := { l with consoleMode := true }
      match strncmpEq .payload m (ascii ['c', 'd', ' ']) with
      | .error e => (.error e, l)
      | .ok true =>
        match stringAt .payload (m.drop 3) with
        | .error e => (.error e, l)
        | .ok dir => scfgCd env dir l
      | .ok false => scfgPipe env payload l

/-- `while(*pt!='\0' && i <128) tmp[i++]=*pt++;` -/
def copyName : List Byte → Cursor → Run Obj (List Byte × Cursor)
  | [], _ => .error (.outside .payload)
  | b :: pt, tmp =>
    if b ≠ 0 ∧ tmp.pos < 128 then copyName pt (tmp.put b) else .ok (b :: pt, tmp)

/-- `"/tmp/"` -/
def tmpDir : List Byte := ascii ['/', 't', 'm', 'p', '/']

/-- `case SCFG_RECEIVE` -/
def scfgReceive (env : Env) (req : Request) (l : Locals) : Served :=
  match req.pt.mem with
  | none => (.error (.null .payload), l)
  | some m =>
    match copyName m (.start l.tmp) with
    | .error e => (.error e, l)
    | .ok (pt, tmp) =>
      let l := { l with tmp := (tmp.poke 0).block }
      match stringAt .tmp l.tmp.bytes with
      | .error e => (.error e, l)
      | .ok name =>
        let l := { l with filename := l.filename.store 0 (tmpDir ++ name.mem) }
        if !env.creates (tmpDir ++ name.bytes) then (.ok .error, l) else
        let count := req.header.len - .ofNat name.length - 1
        (.ok .ok, { l with saved := some ⟨tmpDir ++ name.bytes, pt.tail, count.toNat⟩ })

/-- `sscanf(buf,"%c%d.%d.%d",&annex,&a,&b,&c);` -/
def scanVersion (annex : Byte) : List Byte → Byte × Int32 × Int32 × Int32
  | [] => (annex, 0, 0, 0)
  | annex :: s =>
    match scanInt s with
    | none => (annex, 0, 0, 0)
    | some (a, s) =>
      match (scanChar 0x2e s).bind scanInt with
      | none => (annex, a, 0, 0)
      | some (b, s) =>
        match (scanChar 0x2e s).bind scanInt with
        | none => (annex, a, b, 0)
        | some (c, _) => (annex, a, b, c)

/-- `sprintf(buf,"%c.%02x%02x%02x",annex,a,b,c);` with the numbers found in `buf` -/
def versionText (annex : Byte) (s : CStr) : List Byte :=
  let v := scanVersion annex s.bytes
  v.1 :: 0x2e :: (printHex2 v.2.1.toUInt32 ++ printHex2 v.2.2.1.toUInt32 ++
    printHex2 v.2.2.2.toUInt32)

/-- `case SCFG_VERSION` -/
def scfgVersion (env : Env) (l : Locals) : Served :=
  let l := { l with consoleMode := true }
  match env.version with
  -- `fread` on what `fopen` returned
  | none => (.error (.null .stream), l)
  | some bytes =>
    { l with buf := l.buf.store 0 (bytes.take 128) }.rescan env (versionText (env.scratch 0))

/-- `"lan_ipaddr"` -/
def lanIpaddr : CStr := .lit ['l', 'a', 'n', '_', 'i', 'p', 'a', 'd', 'd', 'r']

/-- `case SCFG_LOCAL_IP` -/
def scfgLocalIp (env : Env) (l : Locals) : Served :=
  let l := { l with consoleMode := true }
  match nvramGet (env.sys 0) l.files (.ofString .constant lanIpaddr) with
  | .error e => (.error e, l)
  -- `strcpy` on what `nvram_get` returned
  | .ok (none, fs) => (.error (.null .value), { l with files := fs })
  | .ok (some value, fs) => { l with files := fs }.copyValue value

/-- `"restore_defaults"` -/
def restoreDefaults : CStr :=
  .lit ['r', 'e', 's', 't', 'o', 'r', 'e', '_', 'd', 'e', 'f', 'a', 'u', 'l', 't', 's']

/-- its value -/
abbrev restoreOn : CStr := .lit ['1']

/-- `case SCFG_RESTORE` -/
def scfgRestore (env : Env) (l : Locals) : Served :=
  let l := { l with consoleMode := true }
  match nvramSet (env.sys 0) l.files.shadow restoreDefaults restoreOn with
  | .error e => (.error e, l)
  | .ok r =>
    let l := l.shadow r.shadow
    match nvramCommit (env.sys 1) l.files with
    | .error e => (.error e, l)
    | .ok (_, fs) => (.ok .ok, { l with files := fs })

/-- `checksum` after the `fread`: two bytes, the fourth from the end of the device and the next. -/
def checksumOf (env : Env) (mtd : List Byte) : UInt32 :=
  let got := (mtd.drop (if 4 ≤ mtd.length then mtd.length - 4 else 0)).take 2
  ofBe32 ([0, 0] ++ ((Block.fresh 2).store 0 got).contents env.scratch 2)

/-- `case SCFG_CHECKSUM` -/
def scfgChecksum (env : Env) (l : Locals) : Served :=
  match env.mtd with
  | none => (.ok .error, l)
  | some mtd => (.ok .ok, { l with consoleMode := true }.sprintf (printHex (checksumOf env mtd)))

/-- `case SCFG_CFG_INIT` -/
def scfgCfgInit (env : Env) (l : Locals) : Served :=
  match nvramLoad (env.sys 0) l.files with
  | .error e => (.error e, l)
  | .ok (_, fs) =>
    match nvramCommit (env.sys 1) fs with
    | .error e => (.error e, { l with files := fs })
    | .ok (_, fs) => (.ok .ok, { l with files := fs })

/-! ### `scfg_run` -/

/-- The `switch` of `scfg_run`. -/
def scfgRun (env : Env) (fs : Files) (req : Request) : Served :=
  let l := Locals.start fs
  match Cmd.ofCode req.header.cmd with
  | some .getall => scfgGetall env l
  | some .get => scfgGet env req.pt l
  | some .set => scfgSet env req.pt l
  | some .commit => scfgCommit env l
  | some .test => scfgTest env l
  | some .adslStatus => scfgAdslStatus env l
  | some .console => scfgConsole env req.pt l
  | some .receive => scfgReceive env req l
  | some .version => scfgVersion env l
  | some .localIp => scfgLocalIp env l
  | some .restore => scfgRestore env l
  | some .checksum => scfgChecksum env l
  | some .cfgInit => scfgCfgInit env l
  | none => (.ok .error, l)

/-- The message `scfg_run` answers with: a header, and the first `buf_len` bytes of `buf`. -/
def answer (env : Env) (exit : Exit) (l : Locals) : Header × List Byte :=
  (⟨scmMagic, match exit with | .ok => scfgOk | .error => scfgErr, .ofNat l.bufLen⟩,
    l.buf.contents env.stack l.bufLen)

end Wap4410n.Scfg
