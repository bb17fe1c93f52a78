import Wap4410n.Support.File

/-!
# Nvram — the shadow file

`libnv` keeps the configuration in the file `NVRAM_TMP_PATH`, the shadow: records `name=value`,
each ended by a NUL, and a closing NUL.  `nvram_get_fun` scans it for a name; `nvram_set` rewrites
it whole through a buffer it allocates.  The definitions follow `libnv/nvram.c` pointer by pointer:
`s` is the list of bytes from `s` to the end of `bufspace`, and `sp` a cursor in `targetspace`.

What the C library and the kernel decide is a parameter (`Sys`): which requests `malloc` serves,
which files open, whether a read fails, how far a write gets, and what memory holds that nothing
was stored into.  Sizes are natural numbers: the objects they measure lie in memory together, so
no sum of them leaves a 32-bit word.
-/

namespace Wap4410n

open CLib

/-- The objects the code reads through a pointer. -/
inductive Obj where
  /-- the message payload -/
  | payload
  /-- a string constant -/
  | constant
  | bufspace
  | targetspace
  /-- a value `nvram_get` returned -/
  | value
  /-- the flash image `nvram_load` reads -/
  | data
  /-- where `socket_read` stores the pointer to the payload -/
  | rdata
  /-- the header of a reply -/
  | rhd
  /-- the write buffer of `scfg_run` -/
  | buf
  /-- the file name `SCFG_RECEIVE` copies -/
  | tmp
  /-- a `FILE *` -/
  | stream
  /-- the output `myPipe` collects -/
  | output
  /-- the working directory `getcwd` returns -/
  | mytmp
deriving DecidableEq, Repr

end Wap4410n

namespace Wap4410n.Nvram

open CLib

/-! ### The environment -/

/-- The files of `libnv`: `NVRAM_PATH`, `NVRAM_TMP_PATH`, `NVRAM_DEFAULT`. -/
inductive Path where
  | flash
  | shadow
  | default
deriving DecidableEq

/-- The calls of `write` in `libnv`: the flash header, the flash data, the shadow. -/
inductive Site where
  | header
  | data
  | shadow
deriving DecidableEq

/-- What the C library and the kernel decide. -/
structure Sys where
  /-- whether a request of this many bytes is served -/
  malloc : Nat → Bool
  /-- what memory nothing was stored into holds, by offset -/
  junk : Nat → Byte
  /-- whether an existing file opens for reading -/
  opens : Path → Bool
  /-- whether a file opens for writing -/
  creates : Path → Bool
  /-- whether a read from the file goes through -/
  reads : Path → Bool
  writes : Site → WriteOutcome

/-- Every file opens, reads go through and the shadow is written whole.  Memory and the two flash
writes stay free. -/
structure Sys.ServesFiles (sys : Sys) : Prop where
  opens : ∀ p, sys.opens p = true
  creates : ∀ p, sys.creates p = true
  reads : ∀ p, sys.reads p = true
  shadow : sys.writes .shadow = .complete

/-- Memory is served as well. -/
structure Sys.Serves (sys : Sys) : Prop extends sys.ServesFiles where
  malloc : ∀ n, 0 < n → sys.malloc n = true

/-- A system on which every call succeeds. -/
def Sys.ideal : Sys where
  malloc _ := true
  junk _ := 0
  opens _ := true
  creates _ := true
  reads _ := true
  writes _ := .complete

theorem Sys.serves_ideal : Sys.ideal.Serves :=
  ⟨⟨fun _ => rfl, fun _ => rfl, fun _ => rfl, rfl⟩, fun _ _ => rfl⟩

/-! ### Constants -/

/-- `END_SYMBOL` -/
abbrev endSymbol : Byte := 0x00

/-- `'='` -/
abbrev eqSign : Byte := 0x3d

/-- `NVRAM_SIZE` -/
def nvramSize : Nat := 0x10000

/-- `NVRAM_HEADER_SIZE` -/
def nvramHeaderSize : Nat := 40

def nvramSuccess : Int := 0
def nvramFlashErr : Int := 1
def nvramMagicErr : Int := 2
def nvramCrcErr : Int := 4
def nvramShadowErr : Int := 5

/-- The contents of the three files; a file that does not exist is `none`. -/
structure Files where
  flash : Device nvramSize
  shadow : Option (List Byte)
  default : Option (List Byte)

/-! ### Whole files -/

/-- `readFileBin`: the bytes of the file, or `none` where it returns −1. -/
def readFileBin (sys : Sys) (path : Path) (file : Option (List Byte)) : Option (List Byte) :=
  match file with
  | none => none
  | some bytes =>
    if sys.opens path && sys.malloc bytes.length && sys.reads path then some bytes else none

/-- `writeFileBin`: the shadow after it.  A count that is negative reaches `write` above `INT_MAX`
and is refused, after the file has been truncated. -/
def writeFileBin (sys : Sys) (file : Option (List Byte)) (data : List Byte) (len : Int) :
    Option (List Byte) :=
  if sys.creates .shadow then
    if len < 0 then some [] else some (data.take ((sys.writes .shadow).count len.toNat))
  else file

/-! ### Scanning -/

/-- `!strncmp(s, name, strlen(name)) && *(s+strlen(name))=='='` -/
def lineIs (name : CStr) (s : List Byte) : Run Obj Bool := do
  if ← strncmpEq .bufspace s name.bytes then
    return (← deref .bufspace (s.drop name.length)) == eqSign
  else return false

/-- `while(*(++s));`: from a byte of a record to the NUL that ends the record. -/
def toNul : List Byte → Run Obj (List Byte)
  | [] | [_] => .error (.outside .bufspace)
  | _ :: b :: s => if b = endSymbol then .ok (b :: s) else toNul (b :: s)

/-- `while(*s) *(sp++)=*(s++);` -/
def copyToNul : List Byte → Cursor → Run Obj (List Byte × Cursor)
  | [], _ => .error (.outside .bufspace)
  | b :: s, sp => if b = endSymbol then .ok (b :: s, sp) else copyToNul s (sp.put b)

theorem length_toNul : ∀ {s t : List Byte}, toNul s = .ok t → t.length < s.length
  | [], _, h | [_], _, h => by cases h
  | _ :: b :: s, t, h => by
      unfold toNul at h
      split at h
      · cases h; simp
      · have := length_toNul h; simp at this ⊢; omega

theorem length_copyToNul : ∀ {s t : List Byte} {sp sp' : Cursor}, copyToNul s sp = .ok (t, sp') →
    0 < t.length ∧ t.length ≤ s.length
  | [], _, _, _, h => by cases h
  | b :: s, t, _, _, h => by
      unfold copyToNul at h
      split at h
      · cases h; simp
      · have := length_copyToNul h; simp; omega

/-! ### `nvram_get_fun` -/

/-- `sp=malloc(strlen(s)-strlen(name)); memcpy(sp, s+strlen(name)+1, strlen(s)-strlen(name));` -/
def copyValue (sys : Sys) (name : CStr) (s : List Byte) : Run Obj (List Byte) := do
  let size := (← stringAt .bufspace s).length - name.length
  if sys.malloc size then .ok ((s.drop (name.length + 1)).take size) else .error (.null .value)

/-- `for (s = bufspace; *s; s++)` of `nvram_get_fun`. -/
def getLoop (sys : Sys) (name : Ptr Obj) (s : List Byte) : Run Obj (Option (List Byte)) :=
  match s with
  | [] => .error (.outside .bufspace)
  | b :: s =>
    if b = endSymbol then .ok none else
    match name.string with
    | .error e => .error e
    | .ok n =>
      match lineIs n (b :: s) with
      | .error e => .error e
      | .ok true => some <$> copyValue sys n (b :: s)
      | .ok false =>
        match _h : toNul (b :: s) with
        | .error e => .error e
        | .ok t => getLoop sys name t.tail
termination_by s.length
decreasing_by
  have := length_toNul _h
  simp at this ⊢
  omega

@[simp] theorem getLoop_end (sys : Sys) (name : Ptr Obj) (s : List Byte) :
    getLoop sys name (endSymbol :: s) = .ok none := by
  rw [getLoop, if_pos rfl]

/-- An iteration of the scan at a record that is not the one looked for. -/
theorem getLoop_miss {sys : Sys} {name : Ptr Obj} {n : CStr} {b : Byte} {s t : List Byte}
    (hb : b ≠ endSymbol) (hn : name.string = .ok n) (hl : lineIs n (b :: s) = .ok false)
    (ht : toNul (b :: s) = .ok t) : getLoop sys name (b :: s) = getLoop sys name t.tail := by
  rw [getLoop, if_neg hb]
  simp only [hn, hl]
  split
  · rename_i h; rw [ht] at h; cases h
  · rename_i h; rw [ht] at h; cases h; rfl

/-- An iteration of the scan at the record looked for. -/
theorem getLoop_hit {sys : Sys} {name : Ptr Obj} {n : CStr} {b : Byte} {s : List Byte}
    (hb : b ≠ endSymbol) (hn : name.string = .ok n) (hl : lineIs n (b :: s) = .ok true) :
    getLoop sys name (b :: s) = some <$> copyValue sys n (b :: s) := by
  rw [getLoop, if_neg hb]
  simp only [hn, hl]

/-- `nvram_get_fun`: the block it returns, or `none` for NULL. -/
def nvramGetFun (sys : Sys) (name : Ptr Obj) (path : Path) (file : Option (List Byte)) :
    Run Obj (Option (List Byte)) :=
  match readFileBin sys path file with
  | none => .ok none
  | some bufspace => getLoop sys name bufspace

/-! ### `nvram_set` -/

/-- What a call of `nvram_set` leaves: its return value, the bytes requested for `targetspace`, the
bytes stored through `sp`, and the shadow. -/
structure SetRun where
  ret : Int
  allocated : Nat
  stored : Nat
  shadow : Option (List Byte)

/-- `strcpy(sp, name); sp+=strlen(name); *(sp++)='='; strcpy(sp, value); sp+=strlen(value);` -/
def putLine (name value : CStr) (sp : Cursor) : Cursor :=
  let sp := ((sp.strcpy name).advance name.length).put eqSign
  (sp.strcpy value).advance value.length

/-- `for (s = bufspace; *s; s++)` of `nvram_set`: the flag `found` and `sp` after it. -/
def setLoop (name value : CStr) (s : List Byte) (found : Bool) (sp : Cursor) :
    Run Obj (Bool × Cursor) :=
  match s with
  | [] => .error (.outside .bufspace)
  | b :: s =>
    if b = endSymbol then .ok (found, sp) else
    match lineIs name (b :: s) with
    | .error e => .error e
    | .ok true =>
      match _h : toNul (b :: s) with
      | .error e => .error e
      | .ok t =>
        match _h' : copyToNul t (putLine name value sp) with
        | .error e => .error e
        | .ok (u, sp) => setLoop name value u.tail true (sp.put endSymbol)
    | .ok false =>
      match _h : copyToNul (b :: s) sp with
      | .error e => .error e
      | .ok (u, sp) => setLoop name value u.tail found (sp.put endSymbol)
termination_by s.length
decreasing_by
  · have := length_toNul _h
    have := length_copyToNul _h'
    simp at *
    omega
  · have := length_copyToNul _h
    simp at *
    omega

@[simp] theorem setLoop_end (name value : CStr) (s : List Byte) (found : Bool) (sp : Cursor) :
    setLoop name value (endSymbol :: s) found sp = .ok (found, sp) := by
  rw [setLoop, if_pos rfl]

/-- An iteration of the scan at a record that is replaced. -/
theorem setLoop_hit {name value : CStr} {b : Byte} {s t u : List Byte} {found : Bool}
    {sp sp' : Cursor} (hb : b ≠ endSymbol) (hl : lineIs name (b :: s) = .ok true)
    (ht : toNul (b :: s) = .ok t) (hu : copyToNul t (putLine name value sp) = .ok (u, sp')) :
    setLoop name value (b :: s) found sp =
      setLoop name value u.tail true (sp'.put endSymbol) := by
  rw [setLoop, if_neg hb]
  simp only [hl]
  split
  · rename_i h; rw [ht] at h; cases h
  · rename_i h
    rw [ht] at h
    cases h
    split
    · rename_i h; rw [hu] at h; cases h
    · rename_i h; rw [hu] at h; cases h; rfl

/-- An iteration of the scan at a record that is kept. -/
theorem setLoop_miss {name value : CStr} {b : Byte} {s u : List Byte} {found : Bool}
    {sp sp' : Cursor} (hb : b ≠ endSymbol) (hl : lineIs name (b :: s) = .ok false)
    (hu : copyToNul (b :: s) sp = .ok (u, sp')) :
    setLoop name value (b :: s) found sp =
      setLoop name value u.tail found (sp'.put endSymbol) := by
  rw [setLoop, if_neg hb]
  simp only [hl]
  split
  · rename_i h; rw [hu] at h; cases h
  · rename_i h; rw [hu] at h; cases h; rfl

/-- `nvram_set`. -/
def nvramSet (sys : Sys) (shadow : Option (List Byte)) (name value : CStr) : Run Obj SetRun := do
  -- `size > 0` where the file was read and is not empty
  let bufspace := (readFileBin sys .shadow shadow).getD []
  let request :=
    if 0 < bufspace.length then bufspace.length + name.length + value.length + 2
    else name.length + value.length + 2
  if !sys.malloc request then .error (.null .targetspace) else
  let sp := Cursor.start (Block.fresh request)
  let (found, sp) ←
    if 0 < bufspace.length then setLoop name value bufspace false sp else .ok (false, sp)
  let sp := if found then sp else (putLine name value sp).put endSymbol
  let sp := sp.poke endSymbol
  return {
    ret := nvramSuccess
    allocated := request
    stored := sp.block.bytes.length
    shadow := writeFileBin sys shadow sp.block.bytes (sp.pos + 1 : Nat) }

/-! ### `nvram_get` and `nvram_safe_get` -/

/-- `nvram_get`: a name the shadow lacks is taken from the default file, and then set. -/
def nvramGet (sys : Sys) (fs : Files) (name : Ptr Obj) : Run Obj (Option (List Byte) × Files) := do
  match ← nvramGetFun sys name .shadow fs.shadow with
  | some pt => return (some pt, fs)
  | none =>
    match ← nvramGetFun sys name .default fs.default with
    | some pt =>
      let r ← nvramSet sys fs.shadow (← name.string) (← stringAt .value pt)
      return (some pt, { fs with shadow := r.shadow })
    | none => return (none, fs)

/-- `nvram_safe_get`: as `nvram_get`, and `strdup("")` for a name neither file has. -/
def nvramSafeGet (sys : Sys) (fs : Files) (name : Ptr Obj) :
    Run Obj (Option (List Byte) × Files) := do
  match ← nvramGetFun sys name .shadow fs.shadow with
  | some pt => return (some pt, fs)
  | none =>
    match ← nvramGetFun sys name .default fs.default with
    | some pt =>
      let r ← nvramSet sys fs.shadow (← name.string) (← stringAt .value pt)
      return (some pt, { fs with shadow := r.shadow })
    | none => return (if sys.malloc 1 then some [endSymbol] else none, fs)

end Wap4410n.Nvram
