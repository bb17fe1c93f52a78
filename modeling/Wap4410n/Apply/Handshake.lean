import Mathlib.Logic.Function.Basic
import Wap4410n.Apply.Tree
import Wap4410n.Support.Lines
import Wap4410n.Support.Print
import Wap4410n.Support.Runs

/-!
# Apply — setters and the applier

A setter appends the id of what it has changed to `APL_FLAG` (`apl_set_flag`); the applier takes the
ids out of it and walks the tree for them (`apl_do_apply`).  Any number of setters and appliers run
at once, one file operation at a time.  A file that is unlinked while it is open lives on without a
name, so that the name `APL_FLAG` and the file behind it are kept apart.

* `nothing_lost`: no id is lost in a run in which no setter appends between an applier's reading and
  its unlinking (`Apart`).
* `append_lost`: an id that is.
-/

namespace Wap4410n.Apply

open CLib Apcfg

/-! ### The file of ids -/

/-- `APL_*` -/
abbrev Id := Fin applyTable.length

/-- What a setter has appended. -/
structure Entry where
  setter : Nat
  id : Id
deriving DecidableEq, Repr

/-- The entries whose rows are flagged. -/
def flagged (es : List Entry) : List Entry := es.filter fun e => 0 < e.id.val

/-! ### Setters and appliers -/

/-- The next operation of `apl_set_flag`. -/
inductive SetterPhase where
  /-- `access(APL_CLOSED)` -/
  | start
  /-- `while(access(APL_PARSING,F_OK)==0);` -/
  | waiting
  /-- `fopen(APL_FLAG, "a+")` -/
  | opening
  /-- `fprintf` and `fclose`, of the open file -/
  | writing (file : Nat)
  | done
deriving DecidableEq, Repr

/-- The next operation of `apl_do_apply`. -/
inductive ApplierPhase where
  /-- `access(APL_FLAG)` -/
  | start
  /-- `access(APL_RUNNING)` -/
  | needed
  /-- `echo 1 > APL_PARSING` -/
  | parsing
  /-- `echo 1 > APL_RUNNING` -/
  | running
  /-- `fopen(APL_FLAG, "r")` -/
  | opening
  /-- `fgets`, of the open file -/
  | reading (file : Nat)
  /-- `unlink(APL_FLAG)` -/
  | unlinkFlag (es : List Entry)
  /-- `unlink(APL_PARSING)` -/
  | unlinkParsing (es : List Entry)
  /-- `apl_handleApplyTree(APL_ROOT)` -/
  | walking (es : List Entry)
  /-- `unlink(APL_PARSING)`, where `fopen` fails -/
  | absent
  /-- `unlink(APL_RUNNING)` -/
  | unlinkRunning
  | done
deriving DecidableEq, Repr

/-- The files, and where every process is. -/
structure State where
  /-- `APL_CLOSED` -/
  closed : Bool
  /-- `APL_PARSING` -/
  parsing : Bool
  /-- `APL_RUNNING` -/
  running : Bool
  /-- `APL_FLAG`: the file of this name -/
  flag : Option Nat
  file : Nat → List Entry
  fresh : Nat
  setters : Nat → SetterPhase
  appliers : Nat → ApplierPhase
  /-- what setters have written -/
  appended : List Entry
  /-- what was flagged in a walk -/
  handed : List Entry

/-- A process takes its next step. -/
inductive Proc where
  | setter (i : Nat)
  | applier (j : Nat)
deriving DecidableEq, Repr

namespace State

variable (s : State)

def setSetter (i : Nat) (phase : SetterPhase) : State :=
  { s with setters := Function.update s.setters i phase }

def setApplier (j : Nat) (phase : ApplierPhase) : State :=
  { s with appliers := Function.update s.appliers j phase }

/-- `APL_FLAG` is a new file. -/
def create : State := { s with flag := some s.fresh, fresh := s.fresh + 1 }

def append (file : Nat) (e : Entry) : State :=
  { s with
    file := Function.update s.file file (s.file file ++ [e])
    appended := s.appended ++ [e] }

def unlinkFlag : State := { s with flag := none }

def setParsing (parsing : Bool) : State := { s with parsing }

def setRunning (running : Bool) : State := { s with running }

def hand (es : List Entry) : State := { s with handed := s.handed ++ es }

/-- What is in `APL_FLAG`. -/
def pending : List Entry := (s.flag.map s.file).getD []

/-- `apl_set_flag(id)` -/
def setterStep (id : Id) (i : Nat) : State :=
  match s.setters i with
  | .start => s.setSetter i (if s.closed then .done else .waiting)
  | .waiting => if s.parsing then s else s.setSetter i .opening
  | .opening =>
    match s.flag with
    | some file => s.setSetter i (.writing file)
    | none => s.create.setSetter i (.writing s.fresh)
  | .writing file => (s.append file ⟨i, id⟩).setSetter i .done
  | .done => s

/-- `apl_do_apply` -/
def applierStep (j : Nat) : State :=
  match s.appliers j with
  | .start => s.setApplier j (if s.flag.isSome then .needed else .done)
  | .needed => s.setApplier j (if s.running then .done else .parsing)
  | .parsing => (s.setParsing true).setApplier j .running
  | .running => (s.setRunning true).setApplier j .opening
  | .opening =>
    match s.flag with
    | some file => s.setApplier j (.reading file)
    | none => s.setApplier j .absent
  | .reading file => s.setApplier j (.unlinkFlag (flagged (s.file file)))
  | .unlinkFlag es => s.unlinkFlag.setApplier j (.unlinkParsing es)
  | .unlinkParsing es => (s.setParsing false).setApplier j (.walking es)
  | .walking es => (s.hand es).setApplier j .unlinkRunning
  | .absent => (s.setParsing false).setApplier j .unlinkRunning
  | .unlinkRunning => (s.setRunning false).setApplier j .done
  | .done => s

theorem appliers_setApplier (j k : Nat) (phase : ApplierPhase) :
    (s.setApplier j phase).appliers k = if k = j then phase else s.appliers k :=
  Function.update_apply s.appliers j phase k

theorem file_append (file k : Nat) (e : Entry) :
    (s.append file e).file k = if k = file then s.file file ++ [e] else s.file k :=
  Function.update_apply s.file file (s.file file ++ [e]) k

theorem pending_none (h : s.flag = none) : s.pending = [] := by
  rw [pending, h]
  rfl

theorem pending_some {file : Nat} (h : s.flag = some file) : s.pending = s.file file := by
  rw [pending, h]
  rfl

end State

/-- One operation of one process; setter `i` sets `ids i`. -/
def step (ids : Nat → Id) (s : State) : Proc → State
  | .setter i => s.setterStep (ids i) i
  | .applier j => s.applierStep j

/-- No process has started. -/
def boot (closed : Bool) : State where
  closed
  parsing := false
  running := false
  flag := none
  file _ := []
  fresh := 0
  setters _ := .start
  appliers _ := .start
  appended := []
  handed := []

/-- No process is at work. -/
def State.Idle (s : State) : Prop :=
  (∀ i, s.setters i = .start ∨ s.setters i = .done) ∧
    ∀ j, s.appliers j = .start ∨ s.appliers j = .done

/-- What was appended was handed to a walk, or it is in `APL_FLAG`. -/
def State.Kept (s : State) : Prop := ∀ e ∈ s.appended, e ∈ s.handed ∨ e ∈ s.pending

/-- The condition of a step: an id is appended while no applier has read `APL_FLAG` and not unlinked
it yet, into the file that has this name; what is read is the file of this name, if there is one;
and `APL_ROOT` is not among the ids. -/
def Apart (ids : Nat → Id) (s : State) : Proc → Prop
  | .setter i =>
    match s.setters i with
    | .writing file => s.flag = some file ∧ 0 < (ids i).val ∧
        ∀ j es, s.appliers j ≠ .unlinkFlag es
    | _ => True
  | .applier j =>
    match s.appliers j with
    | .reading file => s.flag = none ∨ s.flag = some file
    | _ => True

/-! ### The invariant -/

/-- What an applier has read and not handed to a walk yet. -/
def ApplierPhase.held : ApplierPhase → List Entry
  | .unlinkFlag es | .unlinkParsing es | .walking es => es
  | _ => []

/-- What is appended is handed over, in `APL_FLAG`, or on its way; and what an applier is about to
unlink it has read. -/
structure Inv (s : State) : Prop where
  fresh : ∀ file, s.fresh ≤ file → s.file file = []
  flag_lt : ∀ file, s.flag = some file → file < s.fresh
  id_pos : ∀ file, ∀ e ∈ s.file file, 0 < e.id.val
  read : ∀ j es, s.appliers j = .unlinkFlag es → ∀ e ∈ s.pending, e ∈ es
  kept : ∀ e ∈ s.appended, e ∈ s.handed ∨ e ∈ s.pending ∨ ∃ j, e ∈ (s.appliers j).held

namespace Inv

variable {s : State}

theorem boot (closed : Bool) : Inv (boot closed) where
  fresh _ _ := rfl
  flag_lt _ h := by cases h
  id_pos _ e he := absurd he List.not_mem_nil
  read _ _ h := by cases h
  kept e he := absurd he List.not_mem_nil

/-- A setter moves on. -/
theorem setSetter (h : Inv s) (i : Nat) (phase : SetterPhase) : Inv (s.setSetter i phase) :=
  ⟨h.fresh, h.flag_lt, h.id_pos, h.read, h.kept⟩

theorem setParsing (h : Inv s) (parsing : Bool) : Inv (s.setParsing parsing) :=
  ⟨h.fresh, h.flag_lt, h.id_pos, h.read, h.kept⟩

theorem setRunning (h : Inv s) (running : Bool) : Inv (s.setRunning running) :=
  ⟨h.fresh, h.flag_lt, h.id_pos, h.read, h.kept⟩

/-- An applier moves on: it goes on holding what it holds or has handed it over, and it comes to
unlink the file only if it has read what is in it. -/
theorem setApplier (h : Inv s) {j : Nat} {phase : ApplierPhase}
    (hread : ∀ es, phase = .unlinkFlag es → ∀ e ∈ s.pending, e ∈ es)
    (hheld : ∀ e ∈ (s.appliers j).held, e ∈ s.handed ∨ e ∈ phase.held) :
    Inv (s.setApplier j phase) := by
  refine ⟨h.fresh, h.flag_lt, h.id_pos, ?_, ?_⟩
  · intro k es hk
    rw [State.appliers_setApplier] at hk
    split at hk
    · exact hread es hk
    · exact h.read k es hk
  · intro e he
    obtain hhanded | hpending | ⟨k, hk⟩ := h.kept e he
    · exact .inl hhanded
    · exact .inr (.inl hpending)
    · by_cases hkj : k = j
      · subst hkj
        obtain hhanded | hphase := hheld e hk
        · exact .inl hhanded
        · exact .inr (.inr ⟨k, by rwa [State.appliers_setApplier, if_pos rfl]⟩)
      · exact .inr (.inr ⟨k, by rwa [State.appliers_setApplier, if_neg hkj]⟩)

/-- An applier that does not come to unlink the file, and holds what it held. -/
theorem moveApplier (h : Inv s) {j : Nat} {before phase : ApplierPhase}
    (hj : s.appliers j = before) (hphase : ∀ es, phase ≠ .unlinkFlag es)
    (hheld : before.held = phase.held) : Inv (s.setApplier j phase) := by
  refine h.setApplier (fun es hes => absurd hes (hphase es)) fun e he => .inr ?_
  rwa [← hheld, ← hj]

/-- The new file is empty. -/
theorem create (h : Inv s) (hflag : s.flag = none) : Inv s.create := by
  have hempty : s.create.pending = [] := h.fresh s.fresh le_rfl
  refine ⟨fun file hfile => h.fresh file (Nat.le_of_succ_le hfile), ?_, h.id_pos, ?_, ?_⟩
  · rintro file ⟨⟩
    exact Nat.lt_succ_self s.fresh
  · intro j es _ e he
    rw [hempty] at he
    exact absurd he List.not_mem_nil
  · intro e he
    rw [hempty, ← s.pending_none hflag]
    exact h.kept e he

/-- An id is appended to `APL_FLAG` while no applier is about to unlink it. -/
theorem append (h : Inv s) {file : Nat} {e : Entry} (hflag : s.flag = some file)
    (hid : 0 < e.id.val) (hnone : ∀ j es, s.appliers j ≠ .unlinkFlag es) :
    Inv (s.append file e) := by
  have hpending : (s.append file e).pending = s.pending ++ [e] := by
    have hsame : (s.append file e).flag = some file := hflag
    rw [State.pending_some _ hsame, s.pending_some hflag, s.file_append, if_pos rfl]
  refine ⟨?_, h.flag_lt, ?_, fun j es hj => absurd hj (hnone j es), ?_⟩
  · intro k hk
    have hne : k ≠ file := (Nat.lt_of_lt_of_le (h.flag_lt file hflag) hk).ne'
    rw [s.file_append, if_neg hne]
    exact h.fresh k hk
  · intro k e' he'
    rw [s.file_append] at he'
    split at he'
    · obtain he' | he' := List.mem_append.mp he'
      · exact h.id_pos file e' he'
      · rw [List.mem_singleton.mp he']
        exact hid
    · exact h.id_pos k e' he'
  · intro e' he'
    rw [hpending]
    obtain he' | he' := List.mem_append.mp he'
    · obtain hhanded | hpend | hheld := h.kept e' he'
      · exact .inl hhanded
      · exact .inr (.inl (List.mem_append_left _ hpend))
      · exact .inr (.inr hheld)
    · exact .inr (.inl (List.mem_append_right _ he'))

/-- The file is unlinked by an applier that has read what is in it. -/
theorem unlinkFlag (h : Inv s) {j : Nat} {es : List Entry} (hj : s.appliers j = .unlinkFlag es) :
    Inv s.unlinkFlag := by
  refine ⟨h.fresh, ?_, h.id_pos, ?_, ?_⟩
  · rintro file ⟨⟩
  · intro k es' _ e he
    exact absurd he List.not_mem_nil
  · intro e he
    obtain hhanded | hpending | hheld := h.kept e he
    · exact .inl hhanded
    · refine .inr (.inr ⟨j, ?_⟩)
      change e ∈ (s.appliers j).held
      rw [hj]
      exact h.read j es hj e hpending
    · exact .inr (.inr hheld)

theorem hand (h : Inv s) (es : List Entry) : Inv (s.hand es) := by
  refine ⟨h.fresh, h.flag_lt, h.id_pos, h.read, fun e he => ?_⟩
  obtain hhanded | hrest := h.kept e he
  · exact .inl (List.mem_append_left _ hhanded)
  · exact .inr hrest

/-! ### Steps and runs -/

theorem setterStep (h : Inv s) {ids : Nat → Id} {i : Nat} (hapart : Apart ids s (.setter i)) :
    Inv (s.setterStep (ids i) i) := by
  unfold State.setterStep
  cases hi : s.setters i with
  | start => exact h.setSetter i _
  | waiting =>
      dsimp only
      split
      · exact h
      · exact h.setSetter i _
  | opening =>
      cases hflag : s.flag with
      | none => exact (h.create hflag).setSetter i _
      | some file => exact h.setSetter i _
  | writing file =>
      simp only [Apart, hi] at hapart
      obtain ⟨hflag, hid, hnone⟩ := hapart
      exact (h.append hflag hid hnone).setSetter i _
  | done => exact h

/-- All there is in the file is read. -/
theorem flagged_eq (h : Inv s) (file : Nat) : flagged (s.file file) = s.file file :=
  List.filter_eq_self.mpr fun e he => decide_eq_true (h.id_pos file e he)

theorem applierStep (h : Inv s) {ids : Nat → Id} {j : Nat} (hapart : Apart ids s (.applier j)) :
    Inv (s.applierStep j) := by
  unfold State.applierStep
  cases hj : s.appliers j with
  | start | needed =>
      dsimp only
      split
      · exact h.moveApplier hj nofun rfl
      · exact h.moveApplier hj nofun rfl
  | parsing => exact (h.setParsing true).moveApplier hj nofun rfl
  | running => exact (h.setRunning true).moveApplier hj nofun rfl
  | opening =>
      cases hflag : s.flag with
      | none => exact h.moveApplier hj nofun rfl
      | some file => exact h.moveApplier hj nofun rfl
  | reading file =>
      simp only [Apart, hj] at hapart
      refine h.setApplier ?_ ?_
      · rintro es ⟨⟩ e he
        rw [h.flagged_eq]
        obtain hflag | hflag := hapart
        · rw [s.pending_none hflag] at he
          exact absurd he List.not_mem_nil
        · rwa [s.pending_some hflag] at he
      · rw [hj]
        intro e he
        exact absurd he List.not_mem_nil
  | unlinkFlag es => exact (h.unlinkFlag hj).moveApplier hj nofun rfl
  | unlinkParsing es =>
      exact (h.setParsing false).moveApplier hj nofun rfl
  | walking es =>
      refine (h.hand es).setApplier nofun fun e he => .inl ?_
      change e ∈ (s.appliers j).held at he
      rw [hj] at he
      exact List.mem_append_right _ he
  | absent => exact (h.setParsing false).moveApplier hj nofun rfl
  | unlinkRunning => exact (h.setRunning false).moveApplier hj nofun rfl
  | done => exact h

/-- When every process is idle, nothing is on its way. -/
theorem kept_of_idle (h : Inv s) (hidle : s.Idle) : s.Kept := by
  intro e he
  obtain hhanded | hpending | ⟨j, hj⟩ := h.kept e he
  · exact .inl hhanded
  · exact .inr hpending
  · obtain hstart | hdone := hidle.2 j
    · rw [hstart] at hj
      exact absurd hj List.not_mem_nil
    · rw [hdone] at hj
      exact absurd hj List.not_mem_nil

end Inv

theorem step_inv {ids : Nat → Id} (s : State) (p : Proc) (h : Inv s) (hapart : Apart ids s p) :
    Inv (step ids s p) := by
  cases p with
  | setter i => exact h.setterStep hapart
  | applier j => exact h.applierStep hapart

/-- **No id is lost**, in whatever order the processes take their steps, as long as the steps keep
apart. -/
theorem nothing_lost {ids : Nat → Id} {closed : Bool} {ps : List Proc}
    (h : Meets (step ids) (Apart ids) (boot closed) ps)
    (hidle : (runs (step ids) (boot closed) ps).Idle) : (runs (step ids) (boot closed) ps).Kept :=
  (Meets.invariant step_inv (.boot closed) h).kept_of_idle hidle

/-- A setter runs, and then an applier. -/
def setThenApply : List Proc := List.replicate 4 (.setter 0) ++ List.replicate 10 (.applier 0)

/-- Every setter sets `APL_SYSNAME`. -/
def sysnames (_ : Nat) : Id := ⟨aplSysname, by decide⟩

theorem nothing_lost_setThenApply : (runs (step sysnames) (boot false) setThenApply).Kept := by
  have hm : Meets (step sysnames) (Apart sysnames) (boot false) setThenApply :=
    ⟨trivial, trivial, trivial, ⟨rfl, by decide, fun _ _ => nofun⟩, trivial, trivial, trivial,
      trivial, trivial, .inr rfl, trivial, trivial, trivial, trivial, trivial⟩
  refine nothing_lost hm ⟨?_, ?_⟩
  · rintro (_ | i)
    · exact .inr rfl
    · exact .inl rfl
  · rintro (_ | j)
    · exact .inr rfl
    · exact .inl rfl

/-- A second setter tests `APL_PARSING` before the applier creates it, and appends behind the
applier's reading. -/
def appendBehindRead : List Proc :=
  List.replicate 4 (.setter 0) ++ List.replicate 2 (.setter 1) ++ List.replicate 6 (.applier 0) ++
    List.replicate 2 (.setter 1) ++ List.replicate 4 (.applier 0)

/-- **An id that is lost.** -/
theorem append_lost :
    (runs (step sysnames) (boot false) appendBehindRead).Idle ∧
      ¬ (runs (step sysnames) (boot false) appendBehindRead).Kept := by
  refine ⟨⟨?_, ?_⟩, fun hkept => ?_⟩
  · rintro (_ | _ | i)
    · exact .inr rfl
    · exact .inr rfl
    · exact .inl rfl
  · rintro (_ | j)
    · exact .inr rfl
    · exact .inl rfl
  · have happended : (⟨1, sysnames 1⟩ : Entry) ∈
        (runs (step sysnames) (boot false) appendBehindRead).appended := by decide
    have hlost : (⟨1, sysnames 1⟩ : Entry) ∉
          (runs (step sysnames) (boot false) appendBehindRead).handed ∧
        (⟨1, sysnames 1⟩ : Entry) ∉
          (runs (step sysnames) (boot false) appendBehindRead).pending := by decide
    exact (hkept _ happended).elim hlost.1 hlost.2

end Wap4410n.Apply
