import Wap4410n.Nvram.Flash

/-!
# Nvram — where `libnv` faults

A call of `libnv` that leaves an object leaves one of its own: the file it has read, the block it
has allocated, or the value it returns.  The name it is given is read only when the scan comes to a
record (`NameRead`), and then a pointer that holds no string is a fault at what it points into.

* `nvramGet_faults`, `nvramGet_faults_name`: `nvram_get`.
* `nvramSet_faults`, `nvramLoad_faults`, `nvramCommit_faults`: the other calls.
-/

namespace Wap4410n.Nvram

open CLib CLib.Run

/-- The objects of `libnv`. -/
def Own (o : Obj) : Prop := o = .bufspace ∨ o = .targetspace ∨ o = .value ∨ o = .data

theorem own_bufspace : ∀ o : Obj, o = .bufspace → Own o := fun _ h => .inl h

section Scans

variable {sys : Sys}

theorem lineIs_faults (name : CStr) (s : List Byte) : (lineIs name s).FaultsIn Own := by
  refine ((strncmpEq_faults s name.bytes).mono own_bufspace).bind fun b _ => ?_
  cases b with
  | true => exact ((deref_faults _).mono own_bufspace).bind fun _ _ => faultsIn_ok _
  | false => exact faultsIn_ok _

theorem toNul_faults : ∀ s : List Byte, (toNul s).FaultsIn Own
  | [] | [_] => faultsIn_error.mpr (.inl rfl)
  | _ :: b :: s => by
      unfold toNul
      split
      · exact faultsIn_ok _
      · exact toNul_faults (b :: s)

theorem copyToNul_faults : ∀ (s : List Byte) (sp : Cursor), (copyToNul s sp).FaultsIn Own
  | [], _ => faultsIn_error.mpr (.inl rfl)
  | b :: s, sp => by
      unfold copyToNul
      split
      · exact faultsIn_ok _
      · exact copyToNul_faults s (sp.put b)

theorem copyValue_faults (name : CStr) (s : List Byte) : (copyValue sys name s).FaultsIn Own := by
  refine ((stringAt_faults s).mono own_bufspace).bind fun t _ => ?_
  dsimp only
  split
  · exact faultsIn_ok _
  · exact faultsIn_error.mpr (.inr (.inr (.inl rfl)))

/-- The scan for a name that is a string. -/
theorem getLoop_faults {p : Ptr Obj} {n : CStr} (hp : p.Holds n) (s : List Byte) :
    (getLoop sys p s).FaultsIn Own := by
  fun_induction getLoop sys p s with
  | case1 => exact faultsIn_error.mpr (.inl rfl)
  | case2 => exact faultsIn_ok _
  | case3 b s hb e he => 
      rw [hp.string] at he
      cases he
  | case4 b s hb n' hn e he => exact faultsIn_error.mpr (lineIs_faults n' _ e he)
  | case5 b s hb n' hn hl => exact (copyValue_faults n' _).map
  | case6 b s hb n' hn hl e he => exact faultsIn_error.mpr (toNul_faults _ e he)
  | case7 b s hb n' hn hl t ht ih => exact ih

theorem setLoop_faults (name value : CStr) (s : List Byte) (found : Bool) (sp : Cursor) :
    (setLoop name value s found sp).FaultsIn Own := by
  fun_induction setLoop name value s found sp with
  | case1 => exact faultsIn_error.mpr (.inl rfl)
  | case2 => exact faultsIn_ok _
  | case3 s found sp b hb e he => exact faultsIn_error.mpr (lineIs_faults name _ e he)
  | case4 s found sp b hb hl e he => exact faultsIn_error.mpr (toNul_faults _ e he)
  | case5 s found sp b hb hl t ht e he => exact faultsIn_error.mpr (copyToNul_faults _ _ e he)
  | case6 s found sp b hb hl t ht u sp' hu ih => exact ih
  | case7 s found sp b hb hl e he => exact faultsIn_error.mpr (copyToNul_faults _ _ e he)
  | case8 s found sp b hb hl u sp' hu ih => exact ih

end Scans

/-! ### The calls -/

section Calls

variable {sys : Sys} {fs : Files}

theorem nvramSet_faults (shadow : Option (List Byte)) (name value : CStr) :
    (nvramSet sys shadow name value).FaultsIn Own := by
  unfold nvramSet
  refine .ite (fun _ => faultsIn_error.mpr (.inr (.inl rfl))) fun _ => ?_
  exact .ite (fun _ => FaultsIn.bind (setLoop_faults name value _ _ _) fun _ _ => faultsIn_ok _)
    fun _ => faultsIn_ok _

theorem crc32_faults (data : Option (List Byte)) (length : Int) :
    (crc32 ⟨.data, data⟩ length).FaultsIn Own := by
  unfold crc32
  split
  · exact faultsIn_ok _
  · cases data with
    | none => exact faultsIn_error.mpr (.inr (.inr (.inr rfl)))
    | some data =>
        simp only [Ptr.bytes, ok_bind, crcLoop_eq]
        split
        · exact faultsIn_ok _
        · exact faultsIn_error.mpr (.inr (.inr (.inr rfl)))

theorem nvramLoad_faults : (nvramLoad sys fs).FaultsIn Own := by
  unfold nvramLoad
  dsimp only
  split
  · exact faultsIn_ok _
  · split
    · exact faultsIn_ok _
    · refine (crc32_faults _ _).bind fun crc _ => ?_
      split <;> exact faultsIn_ok _

theorem nvramCommit_faults : (nvramCommit sys fs).FaultsIn Own := by
  unfold nvramCommit
  dsimp only
  split
  · exact faultsIn_ok _
  · split
    · exact faultsIn_ok _
    · refine (crc32_faults _ _).bind fun crc _ => (crc32_faults _ _).bind fun crc _ => ?_
      split <;> exact faultsIn_ok _

end Calls

/-! ### The name `nvram_get` is given -/

section Name

variable {sys : Sys} {p : Ptr Obj}

/-- The scan of a file comes to a record. -/
def Scans (sys : Sys) (path : Path) (file : Option (List Byte)) : Prop :=
  ∃ b s, readFileBin sys path file = some (b :: s) ∧ b ≠ endSymbol

/-- The scan of a file ends at once. -/
def Passes (sys : Sys) (path : Path) (file : Option (List Byte)) : Prop :=
  readFileBin sys path file = none ∨ ∃ s, readFileBin sys path file = some (endSymbol :: s)

/-- `nvram_get` reads the name it is given. -/
def NameRead (sys : Sys) (fs : Files) : Prop :=
  Scans sys .shadow fs.shadow ∨ Passes sys .shadow fs.shadow ∧ Scans sys .default fs.default

theorem nvramGetFun_faults {n : CStr} (hp : p.Holds n) (path : Path) (file : Option (List Byte)) :
    (nvramGetFun sys p path file).FaultsIn Own := by
  unfold nvramGetFun
  split
  · exact faultsIn_ok _
  · exact getLoop_faults hp _

/-- `nvram_get` of a string. -/
theorem nvramGet_faults {n : CStr} (sys : Sys) (fs : Files) (hp : p.Holds n) :
    (nvramGet sys fs p).FaultsIn Own := by
  unfold nvramGet
  refine (nvramGetFun_faults hp _ _).bind fun v _ => ?_
  cases v with
  | some v => exact faultsIn_ok _
  | none =>
      refine (nvramGetFun_faults hp _ _).bind fun v _ => ?_
      cases v with
      | none => exact faultsIn_ok _
      | some v =>
          rw [hp.string]
          exact ((stringAt_faults v).mono fun _ h => .inr (.inr (.inl h))).bind fun v _ =>
            (nvramSet_faults _ _ _).bind fun _ _ => faultsIn_ok _

/-- The scan of a file for what is no string faults there if it comes to a record, and else ends
at once or in the file. -/
theorem nvramGetFun_noString (sys : Sys) (hp : ∀ n, ¬ p.Holds n) (path : Path)
    (file : Option (List Byte)) :
    (Scans sys path file ∧ ∃ e, nvramGetFun sys p path file = .error e ∧ e.obj = p.obj) ∨
      (Passes sys path file ∧ nvramGetFun sys p path file = .ok none) ∨
      (¬ Scans sys path file ∧ ¬ Passes sys path file ∧
        nvramGetFun sys p path file = .error (.outside .bufspace)) := by
  unfold nvramGetFun
  cases hread : readFileBin sys path file with
  | none => exact .inr (.inl ⟨.inl hread, rfl⟩)
  | some bytes =>
      cases bytes with
      | nil =>
          refine .inr (.inr ⟨fun ⟨b, s, h, _⟩ => ?_, fun h => ?_, by simp [getLoop]⟩)
          · rw [hread] at h
            cases h
          · rcases h with h | ⟨s, h⟩ <;> rw [hread] at h <;> cases h
      | cons b s =>
          by_cases hb : b = endSymbol
          · subst hb
            exact .inr (.inl ⟨.inr ⟨s, hread⟩, getLoop_end sys p s⟩)
          · refine .inl ⟨⟨b, s, hread, hb⟩, ?_⟩
            have he : ∀ e, p.string = .error e → getLoop sys p (b :: s) = .error e := fun e he => by
              rw [getLoop, if_neg hb]
              simp only [he]
            rcases Ptr.string_error hp with h | h <;> exact ⟨_, he _ h, rfl⟩

/-- **`nvram_get` of what is no string faults there just when it reads the name.** -/
theorem nvramGet_faults_name (sys : Sys) (fs : Files) (hp : ∀ n, ¬ p.Holds n)
    (ho : p.obj ≠ .bufspace) :
    (nvramGet sys fs p).FaultsIn (· ≠ p.obj) ↔ ¬ NameRead sys fs := by
  have hout : (Fault.outside Obj.bufspace).obj ≠ p.obj := ho.symm
  have hboth : ∀ {path file}, Scans sys path file → ¬ Passes sys path file := by
    rintro path file ⟨b, s, h, hb⟩ (h' | ⟨s', h'⟩) <;> rw [h] at h'
    · cases h'
    · cases h'
      exact hb rfl
  unfold nvramGet
  rcases nvramGetFun_noString sys hp .shadow fs.shadow with
    ⟨hs, e, he, heo⟩ | ⟨hpass, he⟩ | ⟨hns, hnp, he⟩
  · rw [he]
    exact iff_of_false (fun h => faultsIn_error.mp h heo) (not_not.mpr (.inl hs))
  · have hns : ¬ Scans sys .shadow fs.shadow := fun h => hboth h hpass
    rw [he, ok_bind]
    rcases nvramGetFun_noString sys hp .default fs.default with
      ⟨hs, e, he, heo⟩ | ⟨hpass', he⟩ | ⟨hns', -, he⟩
    · dsimp only
      rw [he]
      exact iff_of_false (fun h => faultsIn_error.mp h heo) (not_not.mpr (.inr ⟨hpass, hs⟩))
    · dsimp only
      rw [he]
      refine iff_of_true (faultsIn_ok _) ?_
      rintro (h | ⟨-, h⟩)
      · exact hns h
      · exact hboth h hpass'
    · dsimp only
      rw [he]
      refine iff_of_true (faultsIn_error.mpr hout) ?_
      rintro (h | ⟨-, h⟩)
      · exact hns h
      · exact hns' h
  · rw [he]
    refine iff_of_true (faultsIn_error.mpr hout) ?_
    rintro (h | ⟨h, -⟩)
    · exact hns h
    · exact hnp h

end Name

end Wap4410n.Nvram
