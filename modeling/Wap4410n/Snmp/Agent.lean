import Wap4410n.Support.Act

/-!
# Snmp — the phases of a SET request

The agent runs a SET request in phases.  In each phase it calls the write method of every variable,
and an error of any of them sends the request to `FREE` or `UNDO` in place of the next phase
(`handle_set`).  A write method is one function with a branch for each phase; what it does between
the phases is left to the state it works on.

* `phase_reads`: a phase in which no method changes the state, and when it returns no error.
* `handleSet_accepted`, `handleSet_refused`: a request of methods that check in `RESERVE1` and write
  in `ACTION`, without an error there.
* `handleSet_atomic`, `handleSets_atomic`: requests of methods that keep an invariant, each of them
  with a step of its own.
* `preserves_handleSets`: what all methods keep, whatever else they do.
-/

namespace Wap4410n.Snmp

open CLib

/-- The phases: `RESERVE1` … -/
inductive Action where
  | reserve1 | reserve2 | action | commit | free | undo
deriving DecidableEq, Repr

/-- `SNMP_ERR_…` -/
inductive SnmpErr where
  | noError | wrongType | wrongLength | wrongValue | undoFailed
deriving DecidableEq, Repr

/-- The write method of a variable, with its value. -/
abbrev WriteMethod (S O : Type) := Action → Act S O SnmpErr

variable {S O : Type}

/-- `handle_var_requests`: every variable is called, and the first error is returned. -/
def phase (mode : Action) : List (WriteMethod S O) → Act S O SnmpErr
  | [] => return .noError
  | write :: writes => do
    let status ← write mode
    let rest ← phase mode writes
    return if status = .noError then rest else status

/-- `handle_set_loop` -/
def handleSet (writes : List (WriteMethod S O)) : Act S O SnmpErr := do
  let status ← phase .reserve1 writes
  if status ≠ .noError then do
    let _ ← phase .free writes
    return status
  else do
    let status ← phase .reserve2 writes
    if status ≠ .noError then do
      let _ ← phase .free writes
      return status
    else do
      let status ← phase .action writes
      if status ≠ .noError then do
        let undo ← phase .undo writes
        return if undo = .undoFailed then undo else status
      else phase .commit writes

/-! ### Phases -/

/-- Methods that only look. -/
theorem phase_reads {mode : Action} {writes : List (WriteMethod S O)} {s : S}
    (check : WriteMethod S O → SnmpErr) (h : ∀ w ∈ writes, w mode s = (.ok (check w), s)) :
    ∃ status, phase mode writes s = (.ok status, s) ∧
      (status = .noError ↔ ∀ w ∈ writes, check w = .noError) := by
  induction writes with
  | nil => exact ⟨.noError, rfl, fun _ _ hw => absurd hw List.not_mem_nil, fun _ => rfl⟩
  | cons w ws ih =>
      obtain ⟨rest, hrest, hiff⟩ := ih fun w' hw' => h w' (List.mem_cons_of_mem w hw')
      refine ⟨if check w = .noError then rest else check w, ?_, ?_⟩
      · rw [phase, Act.bind_ok (h w List.mem_cons_self), Act.bind_ok hrest]
        rfl
      · rw [List.forall_mem_cons, ← hiff]
        by_cases hw : check w = .noError
        · rw [if_pos hw, and_iff_right hw]
        · rw [if_neg hw]
          exact ⟨fun h => absurd h hw, fun h => absurd h.1 hw⟩

/-- Methods that do nothing in a phase. -/
theorem phase_idle {mode : Action} {writes : List (WriteMethod S O)} {s : S}
    (h : ∀ w ∈ writes, w mode s = (.ok .noError, s)) :
    phase mode writes s = (.ok .noError, s) := by
  obtain ⟨status, hrun, hiff⟩ := phase_reads (fun _ => .noError) h
  rw [hrun, hiff.mpr fun _ _ => rfl]

/-- Methods that write and return no error. -/
theorem phase_writes {mode : Action} {writes : List (WriteMethod S O)}
    (h : ∀ w ∈ writes, ∀ s, ∃ s', w mode s = (.ok .noError, s')) (s : S) :
    ∃ s', phase mode writes s = (.ok .noError, s') := by
  induction writes generalizing s with
  | nil => exact ⟨s, rfl⟩
  | cons w ws ih =>
      obtain ⟨s₁, hw⟩ := h w List.mem_cons_self s
      obtain ⟨s₂, hrest⟩ := ih (fun w' hw' => h w' (List.mem_cons_of_mem w hw')) s₁
      refine ⟨s₂, ?_⟩
      rw [phase, Act.bind_ok hw, Act.bind_ok hrest]
      rfl

/-! ### Requests -/

/-- A method that checks in `RESERVE1`, writes in `ACTION`, and else leaves the state alone. -/
structure Simple (w : WriteMethod S O) : Prop where
  reads : ∀ s, ∃ status, w .reserve1 s = (.ok status, s)
  writes : ∀ s, ∃ s', w .action s = (.ok .noError, s')
  idle : ∀ a, a ≠ .reserve1 → a ≠ .action → ∀ s, w a s = (.ok .noError, s)

variable {writes : List (WriteMethod S O)} {s : S}

/-- A request that passes every check is what its methods write. -/
theorem handleSet_accepted (h : ∀ w ∈ writes, Simple w)
    (hcheck : ∀ w ∈ writes, w .reserve1 s = (.ok .noError, s)) :
    handleSet writes s = (.ok .noError, (phase .action writes s).2) := by
  obtain ⟨s', haction⟩ := phase_writes (fun w hw => (h w hw).writes) s
  have hidle : ∀ a, a ≠ .reserve1 → a ≠ .action → ∀ s, phase a writes s = (.ok .noError, s) :=
    fun a ha ha' s => phase_idle fun w hw => (h w hw).idle a ha ha' s
  have hno : ¬ SnmpErr.noError ≠ SnmpErr.noError := fun h => h rfl
  rw [handleSet, Act.bind_ok (phase_idle hcheck), if_neg hno,
    Act.bind_ok (hidle .reserve2 (by decide) (by decide) s), if_neg hno, Act.bind_ok haction,
    if_neg hno, hidle .commit (by decide) (by decide) s', haction]

/-- A request that fails a check changes nothing. -/
theorem handleSet_refused (h : ∀ w ∈ writes, Simple w)
    (hcheck : ¬ ∀ w ∈ writes, w .reserve1 s = (.ok .noError, s)) :
    ∃ status, status ≠ .noError ∧ handleSet writes s = (.ok status, s) := by
  have hreads : ∀ w : WriteMethod S O, ∃ status, Simple w → w .reserve1 s = (.ok status, s) := by
    intro w
    by_cases hw : Simple w
    · obtain ⟨status, hstatus⟩ := hw.reads s
      exact ⟨status, fun _ => hstatus⟩
    · exact ⟨.noError, fun hw' => absurd hw' hw⟩
  choose check hck using hreads
  obtain ⟨status, hrun, hiff⟩ := phase_reads check fun w hw => hck w (h w hw)
  have hstatus : status ≠ .noError := fun heq => by
    refine hcheck fun w hw => ?_
    rw [hck w (h w hw), hiff.mp heq w hw]
  have hfree : phase .free writes s = (.ok .noError, s) :=
    phase_idle fun w hw => (h w hw).idle .free (by decide) (by decide) s
  refine ⟨status, hstatus, ?_⟩
  rw [handleSet, Act.bind_ok hrun, if_pos hstatus, Act.bind_ok hfree]
  rfl


/-! ### Runs of requests -/

/-- Steps one after the other, one for each member of a list. -/
inductive Steps {X T : Type} (R : X → T → T → Prop) : List X → T → T → Prop
  | nil (t : T) : Steps R [] t t
  | cons {x : X} {xs : List X} {t t₁ t' : T} (h : R x t t₁) (rest : Steps R xs t₁ t') :
    Steps R (x :: xs) t t'

theorem Steps.mono {X T U : Type} {R : X → T → T → Prop} {Q : X → U → U → Prop} (f : T → U)
    (h : ∀ x t t', R x t t' → Q x (f t) (f t')) {xs : List X} {t t' : T} (hs : Steps R xs t t') :
    Steps Q xs (f t) (f t') := by
  induction hs with
  | nil t => exact .nil (f t)
  | cons hstep _ ih => exact .cons (h _ _ _ hstep) ih

/-- A request is carried out step by step where every variable is accepted, and changes nothing
where one is not. -/
def Atomic {X T : Type} (ok : X → Prop) (R : X → T → T → Prop) (r : List X × SnmpErr) (t t' : T) :
    Prop :=
  ((∀ x ∈ r.1, ok x) ∧ r.2 = .noError ∧ Steps R r.1 t t') ∨
    ((¬ ∀ x ∈ r.1, ok x) ∧ r.2 ≠ .noError ∧ t' = t)

/-- A method that checks its value in `RESERVE1`, and takes a step in `ACTION`. -/
structure Stepping (I : S → Prop) (ok : Prop) (R : S → S → Prop) (w : WriteMethod S O) : Prop where
  checks : ∃ status, (∀ s, w .reserve1 s = (.ok status, s)) ∧ (status = .noError ↔ ok)
  writes : ok → ∀ s, I s → ∃ s', w .action s = (.ok .noError, s') ∧ I s' ∧ R s s'
  idle : ∀ a, a ≠ .reserve1 → a ≠ .action → ∀ s, w a s = (.ok .noError, s)

section Requests

variable {X : Type} {I : S → Prop} {ok : X → Prop} {R : X → S → S → Prop}
  {write : X → WriteMethod S O}

theorem phase_steps {xs : List X} (h : ∀ x ∈ xs, Stepping I (ok x) (R x) (write x))
    (hok : ∀ x ∈ xs, ok x)
    {s : S} (hs : I s) :
    ∃ s', phase .action (xs.map write) s = (.ok .noError, s') ∧ I s' ∧ Steps R xs s s' := by
  induction xs generalizing s with
  | nil => exact ⟨s, rfl, hs, .nil s⟩
  | cons x xs ih =>
      obtain ⟨s₁, hw, hs₁, hstep⟩ := (h x List.mem_cons_self).writes (hok x List.mem_cons_self) s hs
      obtain ⟨s', hrest, hs', hsteps⟩ := ih (fun y hy => h y (List.mem_cons_of_mem x hy))
        (fun y hy => hok y (List.mem_cons_of_mem x hy)) hs₁
      refine ⟨s', ?_, hs', .cons hstep hsteps⟩
      rw [List.map_cons, phase, Act.bind_ok hw, Act.bind_ok hrest]
      rfl

/-- **A request is atomic.** -/
theorem handleSet_atomic {xs : List X} (h : ∀ x ∈ xs, Stepping I (ok x) (R x) (write x)) {s : S}
    (hs : I s) :
    ∃ status s', handleSet (xs.map write) s = (.ok status, s') ∧ I s' ∧
    Atomic ok R (xs, status) s s' := by
  have hidle {a : Action} (ha : a ≠ .reserve1) (ha' : a ≠ .action) (s : S) :
      phase a (xs.map write) s = (.ok .noError, s) :=
    phase_idle fun w hw => by
      obtain ⟨x, hx, rfl⟩ := List.mem_map.mp hw
      exact (h x hx).idle a ha ha' s
  -- what a method returns in `RESERVE1` is read off its call
  have hreserve (w) (hw : w ∈ xs.map write) :
      w .reserve1 s = (.ok ((w .reserve1 s).1.toOption.getD .noError), s) := by
    obtain ⟨x, hx, rfl⟩ := List.mem_map.mp hw
    obtain ⟨status, hrun, -⟩ := (h x hx).checks
    rw [hrun s]
    rfl
  obtain ⟨status, hrun, hiff⟩ := phase_reads _ hreserve
  have hcheck : status = .noError ↔ ∀ x ∈ xs, ok x := by
    rw [hiff, List.forall_mem_map]
    refine forall₂_congr fun x hx => ?_
    obtain ⟨status, hrun, hok⟩ := (h x hx).checks
    rw [hrun s]
    exact hok
  have hno : ¬ SnmpErr.noError ≠ SnmpErr.noError := fun h => h rfl
  by_cases hstatus : status = .noError
  · obtain ⟨s', haction, hs', hsteps⟩ := phase_steps h (hcheck.mp hstatus) hs
    refine ⟨.noError, s', ?_, hs', .inl ⟨hcheck.mp hstatus, rfl, hsteps⟩⟩
    rw [handleSet, Act.bind_ok hrun, hstatus, if_neg hno,
      Act.bind_ok (hidle (by decide) (by decide) s), if_neg hno, Act.bind_ok haction, if_neg hno,
      hidle (by decide) (by decide) s']
  · refine ⟨status, s, ?_, hs, .inr ⟨fun hall => hstatus (hcheck.mpr hall), hstatus, rfl⟩⟩
    rw [handleSet, Act.bind_ok hrun, if_pos hstatus, Act.bind_ok (hidle (by decide) (by decide) s)]
    rfl

/-- The requests of a run, one after the other. -/
def handleSets (write : X → WriteMethod S O) : List (List X) → Act S O (List SnmpErr)
  | [] => return []
  | xs :: requests => do
    let status ← handleSet (xs.map write)
    return status :: (← handleSets write requests)

/-- **A run of requests.** -/
theorem handleSets_atomic {requests : List (List X)}
    (h : ∀ xs ∈ requests, ∀ x ∈ xs, Stepping I (ok x) (R x) (write x)) {s : S} (hs : I s) :
    ∃ statuses s', handleSets write requests s = (.ok statuses, s') ∧ I s' ∧
      statuses.length = requests.length ∧ Steps (Atomic ok R) (requests.zip statuses) s s' := by
  induction requests generalizing s with
  | nil => exact ⟨[], s, rfl, hs, rfl, .nil s⟩
  | cons xs requests ih =>
      obtain ⟨status, s₁, hrun, hs₁, hatomic⟩ := handleSet_atomic (h xs List.mem_cons_self) hs
      obtain ⟨statuses, s', hrest, hs', hlen, hsteps⟩ :=
        ih (fun ys hys => h ys (List.mem_cons_of_mem xs hys)) hs₁
      refine ⟨status :: statuses, s', ?_, hs', by simp [hlen], .cons hatomic hsteps⟩
      rw [handleSets, Act.bind_ok hrun, Act.bind_ok hrest]
      rfl

end Requests

/-! ### What every phase keeps -/

section Preserves

variable {X : Type} {I : S → Prop}

theorem preserves_phase {mode : Action} {writes : List (WriteMethod S O)}
    (h : ∀ w ∈ writes, Act.Preserves I (w mode)) : Act.Preserves I (phase mode writes) := by
  induction writes with
  | nil => exact .pure _
  | cons w ws ih =>
      refine (h w List.mem_cons_self).bind fun _ => ?_
      exact (ih fun w' hw' => h w' (List.mem_cons_of_mem w hw')).bind fun _ => .pure _

theorem preserves_handleSet {writes : List (WriteMethod S O)}
    (h : ∀ w ∈ writes, ∀ a, Act.Preserves I (w a)) : Act.Preserves I (handleSet writes) := by
  have hphase (a : Action) : Act.Preserves I (phase a writes) :=
    preserves_phase fun w hw => h w hw a
  have hfree (status : SnmpErr) : Act.Preserves I (phase .free writes >>= fun _ => pure status) :=
    (hphase .free).bind fun _ => .pure _
  refine (hphase .reserve1).bind fun status => .ite (hfree status) ?_
  refine (hphase .reserve2).bind fun status => .ite (hfree status) ?_
  refine (hphase .action).bind fun _ => .ite ?_ (hphase .commit)
  exact (hphase .undo).bind fun _ => .pure _

/-- **What every call of every method keeps, every run of requests keeps.** -/
theorem preserves_handleSets {write : X → WriteMethod S O} {requests : List (List X)}
    (h : ∀ xs ∈ requests, ∀ x ∈ xs, ∀ a, Act.Preserves I (write x a)) :
    Act.Preserves I (handleSets write requests) := by
  induction requests with
  | nil => exact .pure _
  | cons xs requests ih =>
      refine Act.Preserves.bind (preserves_handleSet fun w hw => ?_) fun _ => ?_
      · obtain ⟨x, hx, rfl⟩ := List.mem_map.mp hw
        exact h xs List.mem_cons_self x hx
      · exact (ih fun ys hys => h ys (List.mem_cons_of_mem xs hys)).bind fun _ => .pure _

end Preserves

end Wap4410n.Snmp
