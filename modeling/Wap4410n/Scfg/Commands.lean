import Wap4410n.Scfg.Server

/-!
# Scfg — what a command comes to

One statement for each command that scans its payload, in terms of the bytes it is given.

* `payload_cases`: the payload is NULL, or has no NUL, or holds one string.
* `scfgSet_served`: `SCFG_SET` is served where the string assigns a value to a name.
* `myPipe_string`: the output of a command, by the memory that is served for it.
* `scfgReceive_eq`: the name and the bytes behind it.
-/

namespace Wap4410n.Scfg

open CLib CLib.Run
open Nvram (Sys Files nvramSize nvramSet eqSign)

/-! ### The payload as a string -/

/-- A payload is NULL, or it has no NUL, or it holds one string. -/
theorem payload_cases (req : Request) :
    (req.pt.mem = none ∧ ∀ s, ¬ req.pt.Holds s) ∨
      (req.pt.mem = some req.payload ∧ (0 : Byte) ∉ req.payload ∧ ∀ s, ¬ req.pt.Holds s) ∨
      ∃ s r, req.payload = s.bytes ++ 0 :: r ∧ req.pt.mem = some (s.bytes ++ 0 :: r) ∧
        ∀ s', req.pt.Holds s' ↔ s' = s := by
  by_cases hnil : req.payload = []
  · have hmem : req.pt.mem = none := if_pos hnil
    refine .inl ⟨hmem, fun s ⟨r, hr⟩ => ?_⟩
    rw [hmem] at hr
    cases hr
  · have hmem : req.pt.mem = some req.payload := if_neg hnil
    right
    cases hs : CStr.ofMem req.payload with
    | none =>
        have h₀ := CStr.ofMem_eq_none.mp hs
        refine .inl ⟨hmem, h₀, fun s ⟨r, hr⟩ => h₀ ?_⟩
        rw [hmem] at hr
        rw [Option.some.inj hr]
        simp
    | some s =>
        obtain ⟨r, hr⟩ := CStr.ofMem_eq_some.mp hs
        refine .inr ⟨s, r, hr, by rw [hmem, hr], fun s' => ⟨fun ⟨r', hr'⟩ => ?_, ?_⟩⟩
        · rw [hmem] at hr'
          have := CStr.ofMem_append s' r'
          rw [← Option.some.inj hr', hs] at this
          exact (Option.some.inj this).symm
        · rintro rfl
          exact ⟨r, by rw [hmem, hr]⟩

/-! ### `SCFG_SET` -/

/-- `strchr` finds an `'='` in the string, and the two calls of `strtok` the name and the value. -/
def Assigns (s name value : CStr) : Prop :=
  eqSign ∈ s.bytes ∧ ∃ rest, s.strtok [eqSign] = some (name, rest) ∧ value = valueOf rest

theorem Assigns.unique {s name name' value value' : CStr} (h : Assigns s name value)
    (h' : Assigns s name' value') : name = name' ∧ value = value' := by
  obtain ⟨-, rest, htok, rfl⟩ := h
  obtain ⟨-, rest', htok', rfl⟩ := h'
  rw [htok] at htok'
  cases htok'
  exact ⟨rfl, rfl⟩

section Set

variable {env : Env} {p : Ptr Obj} {l : Locals} {s name value : CStr} {r : List Byte}

/-- A string that assigns a value to a name is one call of `nvram_set`. -/
theorem scfgSet_assigns (hmem : p.mem = some (s.bytes ++ 0 :: r)) (h : Assigns s name value) :
    scfgSet env p l =
      match nvramSet (env.sys 0) l.files.shadow name value with
      | .error e => (.error e, { l with buf := l.buf.strcpy s })
      | .ok run => (.ok .ok, { l with buf := l.buf.strcpy s }.shadow run.shadow) := by
  have heq₀ : eqSign ≠ 0 := by decide
  obtain ⟨heq, rest, htok, rfl⟩ := h
  unfold scfgSet
  rw [hmem]
  cases hrun : nvramSet (env.sys 0) l.files.shadow name (valueOf rest)
  all_goals
    simp only [strchrHas_append heq₀ s.noNul, decide_eq_true heq, stringAt_append, htok, hrun]

/-- **`SCFG_SET` is served** just when the payload is a string that assigns a value to a name and
`nvram_set` returns. -/
theorem scfgSet_served (req : Request) : (scfgSet env req.pt l).1 = .ok .ok ↔
    ∃ s name value run, req.pt.Holds s ∧ Assigns s name value ∧
      nvramSet (env.sys 0) l.files.shadow name value = .ok run := by
  have heq₀ : eqSign ≠ 0 := by decide
  constructor
  · intro h
    rcases payload_cases req with ⟨hmem, -⟩ | ⟨hmem, h₀, -⟩ | ⟨s, r, -, hmem, hiff⟩
    · rw [scfgSet, hmem] at h
      cases h
    · rw [scfgSet, hmem] at h
      simp only [strchrHas_noNul h₀, stringAt_noNul h₀] at h
      by_cases heq : eqSign ∈ req.payload
      · simp only [if_pos heq] at h
        cases h
      · simp only [if_neg heq] at h
        cases h
    · by_cases heq : eqSign ∈ s.bytes
      · cases htok : s.strtok [eqSign] with
        | none =>
            rw [scfgSet, hmem] at h
            simp only [strchrHas_append heq₀ s.noNul, decide_eq_true heq, stringAt_append,
              htok] at h
            cases h
        | some t =>
            obtain ⟨name, rest⟩ := t
            have ha : Assigns s name (valueOf rest) := ⟨heq, rest, htok, rfl⟩
            rw [scfgSet_assigns hmem ha] at h
            cases hrun : nvramSet (env.sys 0) l.files.shadow name (valueOf rest) with
            | error e =>
                rw [hrun] at h
                cases h
            | ok run => exact ⟨s, name, valueOf rest, run, (hiff s).mpr rfl, ha, hrun⟩
      · rw [scfgSet, hmem] at h
        simp only [strchrHas_append heq₀ s.noNul, decide_eq_false heq] at h
        cases h
  · rintro ⟨s, name, value, run, ⟨r, hmem⟩, ha, hrun⟩
    rw [scfgSet_assigns hmem ha, hrun]

/-- It leaves what `nvram_set` leaves. -/
theorem files_scfgSet {run : Nvram.SetRun} (hs : p.Holds s) (h : Assigns s name value)
    (hrun : nvramSet (env.sys 0) l.files.shadow name value = .ok run) :
    (scfgSet env p l).2.files = { l.files with shadow := run.shadow } := by
  obtain ⟨r, hmem⟩ := hs
  rw [scfgSet_assigns hmem h, hrun]
  rfl

end Set

/-! ### `myPipe` -/

/-- What `*output` points to after each `fgets`. -/
def outputs (output : CStr) (fp : List Byte) : List CStr :=
  match _h : fgets nvramSize fp with
  | none => []
  | some (line, fp) => output.append (.before line) :: outputs (output.append (.before line)) fp
termination_by fp.length
decreasing_by exact (fgets_some (by decide) _h).2

/-- What a command prints: its lines, each up to its first NUL. -/
def outputOf (fp : List Byte) : CStr := (outputs .empty fp).getLastD .empty

/-- Memory is served for the output as it grows. -/
def Collects (sys : Sys) (output : CStr) (fp : List Byte) : Prop :=
  ∀ t ∈ outputs output fp, sys.malloc (t.length + 1) = true

section Pipe

variable {sys : Sys}

theorem outputs_none {output : CStr} {fp : List Byte} (h : fgets nvramSize fp = none) :
    outputs output fp = [] := by
  rw [outputs]
  split
  · rfl
  · rename_i h'
    rw [h] at h'
    cases h'

theorem outputs_some {output : CStr} {fp fp' line : List Byte}
    (h : fgets nvramSize fp = some (line, fp')) :
    outputs output fp = output.append (.before line) :: outputs
      (output.append (.before line)) fp' := by
  rw [outputs]
  split
  · rename_i h'
    rw [h] at h'
    cases h'
  · rename_i h'
    rw [h] at h'
    cases h'
    rfl

/-- **The loop of `myPipe`** collects the output, or stops with `*output` NULL. -/
theorem pipeLoop_eq (sys : Sys) (len : Int) (hlen : 0 ≤ len) (output : CStr) (fp : List Byte) :
    (Collects sys output fp ∧ ∃ ret, 0 ≤ ret ∧
        pipeLoop sys len output fp = (ret, some ((outputs output fp).getLastD output))) ∨
      (¬ Collects sys output fp ∧ pipeLoop sys len output fp = (-1, none)) := by
  fun_induction pipeLoop sys len output fp with
  | case1 len output fp h =>
      have hnil : outputs output fp = [] := outputs_none h
      refine .inl ⟨fun t ht => ?_, len, hlen, by rw [hnil]; rfl⟩
      rw [hnil] at ht
      cases ht
  | case2 len output fp line fp' h output' hm ih =>
      have hcons : outputs output fp = output' :: outputs output' fp' := outputs_some h
      have hcol : Collects sys output fp ↔ Collects sys output' fp' := by
        unfold Collects
        rw [hcons]
        exact List.forall_mem_cons.trans (and_iff_right hm)
      rw [hcol, hcons, List.getLastD_cons]
      exact ih (Int.natCast_nonneg _)
  | case3 len output fp line fp' h output' hm =>
      have hcons : outputs output fp = output' :: outputs output' fp' := outputs_some h
      exact .inr ⟨fun hc => hm (hc output' (by rw [hcons]; exact List.mem_cons_self)), rfl⟩

/-- **`myPipe` of a string.** -/
theorem myPipe_string {env : Env} {p : Ptr Obj} {s : CStr} (hs : p.Holds s) :
    myPipe env p =
      if (env.sys 0).malloc 1 = true then
        match env.popen s with
        | none => .ok (-1, some .empty)
        | some fp => .ok (pipeLoop (env.sys 0) 0 .empty fp)
      else .error (.null .output) := by
  unfold myPipe
  cases (env.sys 0).malloc 1 with
  | false => rfl
  | true =>
      rw [hs.string, ok_bind]
      cases env.popen s <;> rfl

end Pipe

/-! ### `SCFG_CONSOLE` -/

/-- `exit`, `quit` or `bye`. -/
def Leaves (s : CStr) : Prop :=
  s.bytes = ascii ['e', 'x', 'i', 't'] ∨ s.bytes = ascii ['q', 'u', 'i', 't'] ∨
    s.bytes = ascii ['b', 'y', 'e']

instance (s : CStr) : Decidable (Leaves s) := inferInstanceAs (Decidable (_ ∨ _ ∨ _))

section Console

variable {env : Env} {p : Ptr Obj} {l : Locals}

theorem leaves_append (s : CStr) (r : List Byte) :
    leaves (s.bytes ++ 0 :: r) = .ok (decide (Leaves s)) := by
  have h₁ : (0 : Byte) ∉ ascii ['e', 'x', 'i', 't'] := by decide
  have h₂ : (0 : Byte) ∉ ascii ['q', 'u', 'i', 't'] := by decide
  have h₃ : (0 : Byte) ∉ ascii ['b', 'y', 'e'] := by decide
  unfold leaves Leaves
  simp only [strcmpEq_append h₁ s.noNul, strcmpEq_append h₂ s.noNul, strcmpEq_append h₃ s.noNul,
    ok_bind, pure_eq]
  by_cases e₁ : s.bytes = ascii ['e', 'x', 'i', 't']
  · simp [e₁]
  · by_cases e₂ : s.bytes = ascii ['q', 'u', 'i', 't']
    · simp [e₂]
    · simp [e₁, e₂]

/-- Without a NUL none of the three words is found, and looking for them may leave the payload. -/
theorem leaves_noNul {m : List Byte} (h : (0 : Byte) ∉ m) :
    leaves m = .ok false ∨ leaves m = .error (.outside .payload) := by
  unfold leaves
  rcases strcmpEq_noNul (o := Obj.payload) h (ascii ['e', 'x', 'i', 't']) with e | e <;>
    rw [e]
  · rcases strcmpEq_noNul (o := Obj.payload) h (ascii ['q', 'u', 'i', 't']) with e | e <;>
      rw [ok_bind, e]
    · rcases strcmpEq_noNul (o := Obj.payload) h (ascii ['b', 'y', 'e']) with e | e <;>
        simp [e]
    · exact .inr rfl
  · exact .inr rfl

/-- **`SCFG_CONSOLE` of a string.** -/
theorem scfgConsole_string {s : CStr} {r : List Byte} (hmem : p.mem = some (s.bytes ++ 0 :: r)) :
    scfgConsole env p l =
      if Leaves s then (.ok .ok, { l with consoleMode := false })
      else if ascii ['c', 'd', ' '] <+: s.bytes then
        scfgCd env ⟨s.bytes.drop 3, fun h => s.noNul (List.mem_of_mem_drop h)⟩
          { l with consoleMode := true }
      else scfgPipe env p { l with consoleMode := true } := by
  have hcd₀ : (0 : Byte) ∉ ascii ['c', 'd', ' '] := by decide
  unfold scfgConsole
  rw [hmem]
  dsimp only
  rw [leaves_append]
  by_cases hl : Leaves s
  · rw [decide_eq_true hl, if_pos hl]
  · rw [decide_eq_false hl, if_neg hl]
    dsimp only
    rw [strncmpEq_append hcd₀]
    by_cases hcd : ascii ['c', 'd', ' '] <+: s.bytes
    · have hdir : stringAt Obj.payload ((s.bytes ++ 0 :: r).drop 3) =
          .ok ⟨s.bytes.drop 3, fun h => s.noNul (List.mem_of_mem_drop h)⟩ := by
        have hlen : 3 ≤ s.bytes.length := hcd.length_le
        rw [List.drop_append_of_le_length hlen]
        exact stringAt_append ⟨s.bytes.drop 3, _⟩ r
      rw [decide_eq_true hcd, if_pos hcd]
      dsimp only
      rw [hdir]
    · rw [decide_eq_false hcd, if_neg hcd]

theorem myPipe_noString {req : Request} (hno : ∀ s, ¬ req.pt.Holds s)
    (hm : (env.sys 0).malloc 1 = true) :
    ∃ e, myPipe env req.pt = .error e ∧ e.obj = .payload := by
  unfold myPipe
  rw [hm]
  rcases Ptr.string_error hno with h | h <;> exact ⟨_, by rw [h]; rfl, rfl⟩

/-- A payload without a NUL that is none of the words `SCFG_CONSOLE` looks for, and for which
`myPipe` gets no memory: it is not read to its end. -/
def Unread (env : Env) (req : Request) : Prop :=
  req.payload ≠ [] ∧ (0 : Byte) ∉ req.payload ∧ leaves req.payload = .ok false ∧
    strncmpEq Obj.payload req.payload (ascii ['c', 'd', ' ']) = .ok false ∧
    (env.sys 0).malloc 1 = false

/-- `SCFG_CONSOLE` of a payload without a NUL stops at a fault: there, unless it is not read. -/
theorem scfgConsole_noNul (env : Env) (l : Locals) {req : Request}
    (hmem : req.pt.mem = some req.payload)
    (hne : req.payload ≠ []) (h₀ : (0 : Byte) ∉ req.payload) (hno : ∀ s, ¬ req.pt.Holds s) :
    ∃ e mode, scfgConsole env req.pt l = (.error e, { l with consoleMode := mode }) ∧
      (e.obj = .payload ∧ ¬ Unread env req ∨ e.obj = .output ∧ Unread env req) := by
  unfold scfgConsole
  rw [hmem]
  dsimp only
  rcases leaves_noNul h₀ with hl | hl
  · rw [hl]
    dsimp only
    cases hcd : strncmpEq Obj.payload req.payload (ascii ['c', 'd', ' ']) with
    | error e =>
        refine ⟨e, true, rfl, .inl ⟨strncmpEq_faults _ _ e hcd, ?_⟩⟩
        rintro ⟨-, -, -, h, -⟩
        rw [hcd] at h
        cases h
    | ok b =>
        cases b with
        | true =>
            have hdrop : (0 : Byte) ∉ req.payload.drop 3 := fun h => h₀ (List.mem_of_mem_drop h)
            dsimp only
            rw [stringAt_noNul hdrop]
            refine ⟨_, true, rfl, .inl ⟨rfl, ?_⟩⟩
            rintro ⟨-, -, -, h, -⟩
            rw [hcd] at h
            cases h
        | false =>
            dsimp only
            cases hm : (env.sys 0).malloc 1 with
            | true =>
                obtain ⟨e, he, hobj⟩ := myPipe_noString hno hm
                rw [scfgPipe, he]
                refine ⟨e, true, rfl, .inl ⟨hobj, ?_⟩⟩
                rintro ⟨-, -, -, -, h⟩
                rw [hm] at h
                cases h
            | false =>
                have hpipe : myPipe env req.pt = .error (.null .output) := by
                  rw [myPipe, hm]
                  rfl
                rw [scfgPipe, hpipe]
                exact ⟨_, true, rfl, .inr ⟨rfl, hne, h₀, hl, hcd, hm⟩⟩
  · rw [hl]
    refine ⟨_, l.consoleMode, rfl, .inl ⟨rfl, ?_⟩⟩
    rintro ⟨-, -, h, -⟩
    rw [hl] at h
    cases h

end Console

/-! ### `SCFG_RECEIVE` -/

/-- The file name in a payload: what precedes its first NUL, 128 bytes at most. -/
def nameOf (payload : List Byte) : List Byte := (payload.takeWhile (· ≠ 0)).take 128

/-- What stands behind the name and the byte after it. -/
def contentOf (payload : List Byte) : List Byte := payload.drop ((nameOf payload).length + 1)

section Receive

theorem nameOf_noNul (payload : List Byte) : (0 : Byte) ∉ nameOf payload := fun h => by
  have := List.mem_takeWhile_imp (List.mem_of_mem_take h)
  simp at this

theorem nameOf_append_drop (payload : List Byte) :
    nameOf payload ++ payload.drop (nameOf payload).length = payload :=
  List.prefix_iff_eq_append.mp ((List.take_prefix _ _).trans (List.takeWhile_prefix _))

/-- The name in a payload that holds a string. -/
theorem nameOf_string {s : CStr} (r : List Byte) :
    nameOf (s.bytes ++ 0 :: r) = s.bytes.take 128 := by
  have hall : ∀ b ∈ s.bytes, decide (b ≠ 0) = true := fun b hb => by
    simpa using CStr.ne_zero hb
  rw [nameOf, List.takeWhile_append_of_pos hall]
  simp

/-- The byte the loop stops at is a NUL where there was room for another. -/
theorem drop_nameOf {payload : List Byte} {b : Byte} {pt : List Byte}
    (h : payload.drop (nameOf payload).length = b :: pt) (hroom : (nameOf payload).length < 128) :
    payload = nameOf payload ++ 0 :: pt := by
  have hwhole : nameOf payload = payload.takeWhile (· ≠ 0) := by
    refine List.take_of_length_le ?_
    rw [nameOf, List.length_take] at hroom
    omega
  have hsplit := List.takeWhile_append_dropWhile (p := fun b : Byte => b ≠ 0) (l := payload)
  rw [← hwhole] at hsplit
  have cut : ∀ {w t : List Byte}, w ++ t = payload → payload.drop w.length = t := fun e => by
    rw [← e, List.drop_left]
  have hdrop : payload.dropWhile (· ≠ 0) = b :: pt := (cut hsplit).symm.trans h
  have hb : b = 0 := by simpa using dropWhile_stop hdrop
  rw [hdrop, hb] at hsplit
  exact hsplit.symm

/-- **The loop that copies the name.** -/
theorem copyName_eq (m : List Byte) (tmp : Cursor) (h : tmp.pos ≤ 128) :
    copyName m tmp =
      match m.drop ((m.takeWhile (· ≠ 0)).take (128 - tmp.pos)).length with
      | [] => .error (.outside .payload)
      | b :: pt => .ok (b :: pt, tmp.putAll ((m.takeWhile (· ≠ 0)).take (128 - tmp.pos))) := by
  induction m generalizing tmp with
  | nil => simp [copyName]
  | cons b m ih =>
      by_cases hgo : b ≠ 0 ∧ tmp.pos < 128
      · obtain ⟨hb, hlt⟩ := hgo
        have htake : ((b :: m).takeWhile (· ≠ 0)).take (128 - tmp.pos) =
            b :: (m.takeWhile (· ≠ 0)).take (128 - (tmp.put b).pos) := by
          rw [List.takeWhile_cons_of_pos (by simpa using hb),
            show 128 - tmp.pos = 128 - (tmp.pos + 1) + 1 by omega, List.take_succ_cons]
          rfl
        rw [copyName, if_pos ⟨hb, hlt⟩, ih (tmp.put b) (by show tmp.pos + 1 ≤ 128; omega), htake]
        rfl
      · have htake : ((b :: m).takeWhile (· ≠ 0)).take (128 - tmp.pos) = [] := by
          rcases not_and_or.mp hgo with hb | hlt
          · rw [List.takeWhile_cons_of_neg (by simpa using hb), List.take_nil]
          · rw [show 128 - tmp.pos = 0 by omega, List.take_zero]
        rw [copyName, if_neg hgo, htake]
        rfl

theorem copyName_start (payload : List Byte) :
    copyName payload (.start (.fresh 128)) =
      match payload.drop (nameOf payload).length with
      | [] => .error (.outside .payload)
      | b :: pt => .ok (b :: pt, (Cursor.start (.fresh 128)).putAll (nameOf payload)) :=
  copyName_eq payload (.start (.fresh 128)) (Nat.zero_le _)

/-- `tmp` after the name has been copied into it. -/
theorem tmp_wrote (w : List Byte) :
    ((Cursor.start (.fresh 128)).putAll w |>.poke 0).block = ⟨128, w ++ [0]⟩ := by
  have hw := (Cursor.wrote_start 128).putAll w
  rw [List.nil_append] at hw
  have hb := hw.bytes_poke 0
  have hs : (((Cursor.start (.fresh 128)).putAll w).poke 0).block.size = 128 := by
    simp [Cursor.start]
  exact congrArg₂ Block.mk hs hb

/-- The count handed to `write` is the number of bytes behind the name and the byte after it. -/
theorem count_received {req : Request} {s : CStr} {b : Byte} {pt : List Byte}
    (hpay : req.payload = s.bytes ++ b :: pt) :
    (req.header.len - .ofNat s.length - 1).toNat = pt.length := by
  have hlen : req.payload.length = pt.length + 1 + s.length := by
    rw [hpay, List.length_append, List.length_cons]
    show s.bytes.length + (pt.length + 1) = pt.length + 1 + s.bytes.length
    omega
  have hsize := req.size
  have h : req.header.len = .ofNat pt.length + 1 + .ofNat s.length := by
    rw [show (1 : UInt32) = .ofNat 1 from rfl, ← UInt32.ofNat_add, ← UInt32.ofNat_add, ← hlen]
    rfl
  rw [h, UInt32.add_sub_cancel, UInt32.add_sub_cancel, UInt32.toNat_ofNat',
    Nat.mod_eq_of_lt (by omega)]

/-- **`SCFG_RECEIVE`** of a payload that is not empty. -/
theorem scfgReceive_eq {env : Env} {fs : Files} {req : Request} (hne : req.payload ≠ []) :
    scfgReceive env req (.start fs) =
      match req.payload.drop (nameOf req.payload).length with
      | [] => (.error (.outside .payload), .start fs)
      | _ :: pt =>
        let l := { Locals.start fs with
          tmp := ⟨128, nameOf req.payload ++ [0]⟩
          filename := (Block.fresh 128).store 0 (tmpDir ++ (nameOf req.payload ++ [0])) }
        if env.creates (tmpDir ++ nameOf req.payload) = true then
          (.ok .ok, { l with saved := some ⟨tmpDir ++ nameOf req.payload, pt, pt.length⟩ })
        else (.ok .error, l) := by
  have hmem : req.pt.mem = some req.payload := if_neg hne
  have hstart : (Locals.start fs).tmp = .fresh 128 := rfl
  unfold scfgReceive
  rw [hmem]
  dsimp only
  rw [hstart, copyName_start]
  cases hdrop : req.payload.drop (nameOf req.payload).length with
  | nil => rfl
  | cons b pt =>
      have hname : stringAt Obj.tmp (nameOf req.payload ++ [0]) =
          .ok ⟨nameOf req.payload, nameOf_noNul _⟩ := stringAt_append ⟨_, nameOf_noNul _⟩ []
      have hpay : req.payload = nameOf req.payload ++ b :: pt := by
        rw [← hdrop]
        exact (nameOf_append_drop req.payload).symm
      have hcount := count_received (s := ⟨_, nameOf_noNul req.payload⟩) hpay
      dsimp only
      rw [tmp_wrote]
      dsimp only
      rw [hname]
      dsimp only
      rw [hcount]
      cases env.creates (tmpDir ++ nameOf req.payload) <;> rfl

end Receive

end Wap4410n.Scfg
