import Wap4410n.Support.CString

/-!
# Support — calls on a state

A call reads and writes a state and then returns a value, or it leaves an object (`Fault`): either
way there is a state behind it.  `Act S O A` is such a call, a monad.  `Spec P m Q E` is its triple:
from a state that satisfies `P` the call returns a value and a state related by `Q`, or faults in a
state that satisfies `E`.  The rules (`Spec.bind`, `Spec.ite`, `Spec.each`, `Spec.mono`) follow the
shape of the call, and `Spec.frame` carries along what the call preserves.

* `Returns`: no state makes the call fault; `Exact` says of a state just when it does not, and
  `Exact.bind` collects these conditions along a sequence.
* `Confined`: the objects the call may fault in, from any state.
* `Yields`: what the call may return, from any state.
* `Mirrors`: two calls that only read, from states that differ in what they make no use of.
* `Preserves`: an invariant, whether the call returns or faults; `Preserves.runAll` carries it over
  any sequence of calls.
-/

namespace CLib

/-- A call on a state: what it returns, or the fault that ends it, and the state left. -/
def Act (S O A : Type) : Type := S → Run O A × S

namespace Act

variable {S O A B : Type}

protected def pure (a : A) : Act S O A := fun s => (.ok a, s)

protected def bind (m : Act S O A) (f : A → Act S O B) : Act S O B := fun s =>
  match m s with
  | (.ok a, s') => f a s'
  | (.error e, s') => (.error e, s')

instance : Monad (Act S O) where
  pure := Act.pure
  bind := Act.bind

/-- The call leaves the object of `e`. -/
def fault (e : Fault O) : Act S O A := fun s => (.error e, s)

/-- What a pure function returns, or its fault. -/
def lift (r : Run O A) : Act S O A := fun s => (r, s)

/-- `if (p) m;` -/
def when (p : Prop) [Decidable p] (m : Act S O Unit) : Act S O Unit := if p then m else pure ()

/-- `for (x in xs) f(x);` -/
def each {X : Type} (f : X → Act S O Unit) : List X → Act S O Unit
  | [] => pure ()
  | x :: xs => f x >>= fun _ => each f xs

@[simp] theorem pure_apply (a : A) (s : S) : (pure a : Act S O A) s = (.ok a, s) := rfl

@[simp] theorem fault_apply (e : Fault O) (s : S) : (fault e : Act S O A) s = (.error e, s) := rfl

theorem bind_apply (m : Act S O A) (f : A → Act S O B) (s : S) :
    (m >>= f) s = match m s with
      | (.ok a, s') => f a s'
      | (.error e, s') => (.error e, s') := rfl

theorem bind_ok {m : Act S O A} {s s' : S} {a : A} (h : m s = (.ok a, s')) (f : A → Act S O B) :
    (m >>= f) s = f a s' := by
  rw [bind_apply, h]

theorem bind_error {m : Act S O A} {s s' : S} {e : Fault O} (h : m s = (.error e, s'))
    (f : A → Act S O B) : (m >>= f) s = (.error e, s') := by
  rw [bind_apply, h]

@[simp] theorem pure_bind (a : A) (f : A → Act S O B) : (pure a >>= f) = f a := rfl

theorem bind_assoc {C : Type} (m : Act S O A) (f : A → Act S O B) (g : B → Act S O C) :
    m >>= f >>= g = m >>= fun a => f a >>= g := by
  funext s
  simp only [bind_apply]
  rcases m s with ⟨_ | a, s'⟩ <;> rfl

theorem lift_bind {r : Run O A} {a : A} (h : r = .ok a) (f : A → Act S O B) :
    (lift r >>= f) = f a := by
  subst h
  rfl

/-- What is returned behind a call changes no state. -/
theorem bind_pure_snd (m : Act S O A) (f : A → B) (s : S) :
    ((m >>= fun a => pure (f a)) s).2 = (m s).2 := by
  rw [bind_apply]
  split
  · rename_i heq
    rw [heq, pure_apply]
  · rename_i heq
    rw [heq]

theorem when_apply (p : Prop) [Decidable p] (m : Act S O Unit) (s : S) :
    when p m s = if p then m s else (.ok (), s) := by
  unfold when
  split <;> rfl

theorem ite_apply (p : Prop) [Decidable p] (m m' : Act S O A) (s : S) :
    (if p then m else m') s = if p then m s else m' s := by
  split <;> rfl

/-! ### Triples -/

/-- From a state in `P` the call returns as `Q` says, or faults in a state in `E`. -/
def Spec (P : S → Prop) (m : Act S O A) (Q : A → S → Prop) (E : S → Prop) : Prop :=
  ∀ s, P s → (∃ a, (m s).1 = .ok a ∧ Q a (m s).2) ∨ (∃ e, (m s).1 = .error e ∧ E (m s).2)

section Spec

variable {P P' E E' : S → Prop} {m : Act S O A} {Q Q' : A → S → Prop} {R : B → S → Prop}

theorem Spec.mono (h : Spec P m Q E) (hP : ∀ s, P' s → P s) (hQ : ∀ a s, Q a s → Q' a s)
    (hE : ∀ s, E s → E' s) : Spec P' m Q' E' := by
  intro s hs
  obtain ⟨a, ha, hq⟩ | ⟨e, he, hf⟩ := h s (hP s hs)
  · exact .inl ⟨a, ha, hQ a _ hq⟩
  · exact .inr ⟨e, he, hE _ hf⟩

theorem Spec.pure {a : A} (h : ∀ s, P s → Q a s) : Spec P (pure a : Act S O A) Q E :=
  fun s hs => .inl ⟨a, rfl, h s hs⟩

theorem Spec.bind {f : A → Act S O B} (h : Spec P m Q E) (hf : ∀ a, Spec (Q a) (f a) R E) :
    Spec P (m >>= f) R E := by
  intro s hs
  obtain ⟨a, ha, hq⟩ | ⟨e, he, herr⟩ := h s hs
  · rw [bind_ok (Prod.ext ha rfl)]
    exact hf a _ hq
  · rw [bind_error (Prod.ext he rfl)]
    exact .inr ⟨e, rfl, herr⟩

theorem Spec.ite {p : Prop} [Decidable p] {m' : Act S O A} (h : p → Spec P m Q E)
    (h' : ¬ p → Spec P m' Q E) : Spec P (if p then m else m') Q E := by
  split
  · exact h ‹_›
  · exact h' ‹_›

theorem Spec.when {p : Prop} [Decidable p] {m : Act S O Unit} {Q : Unit → S → Prop}
    (h : p → Spec P m Q E) (h' : ¬ p → ∀ s, P s → Q () s) : Spec P (when p m) Q E :=
  Spec.ite h fun hp => Spec.pure (h' hp)

/-- The state is all a call without effect depends on. -/
theorem Spec.read {f : S → A} (hm : ∀ s, m s = (.ok (f s), s)) :
    Spec P m (fun a s => P s ∧ a = f s) E := by
  intro s hs
  rw [hm s]
  exact .inl ⟨f s, rfl, hs, rfl⟩

end Spec

/-! ### Invariants -/

/-- The call keeps `I`, whether it returns or faults. -/
def Preserves (I : S → Prop) (m : Act S O A) : Prop := ∀ s, I s → I (m s).2

theorem Spec.preserves {I : S → Prop} {m : Act S O A} {Q : A → S → Prop} (h : Spec I m Q I)
    (hQ : ∀ a s, Q a s → I s) : Preserves I m := by
  intro s hs
  obtain ⟨a, -, hq⟩ | ⟨e, -, he⟩ := h s hs
  · exact hQ a _ hq
  · exact he

theorem Preserves.spec {I : S → Prop} {m : Act S O A} (h : Preserves I m) :
    Spec I m (fun _ => I) I := by
  intro s hs
  cases hm : (m s).1 with
  | ok a => exact .inl ⟨a, rfl, h s hs⟩
  | error e => exact .inr ⟨e, rfl, h s hs⟩

section Preserves

variable {I : S → Prop} {m : Act S O A}

theorem Preserves.pure (a : A) : Preserves I (pure a : Act S O A) := fun _ hs => hs

theorem Preserves.bind {f : A → Act S O B} (h : Preserves I m) (hf : ∀ a, Preserves I (f a)) :
    Preserves I (m >>= f) :=
  (h.spec.bind fun a => (hf a).spec).preserves fun _ _ hs => hs

theorem Preserves.ite {p : Prop} [Decidable p] {m' : Act S O A} (h : Preserves I m)
    (h' : Preserves I m') : Preserves I (if p then m else m') := by
  split
  · exact h
  · exact h'

theorem Preserves.when {p : Prop} [Decidable p] {m : Act S O Unit} (h : Preserves I m) :
    Preserves I (when p m) :=
  Preserves.ite h (.pure ())

theorem Preserves.each {X : Type} {f : X → Act S O Unit} {xs : List X}
    (h : ∀ x ∈ xs, Preserves I (f x)) : Preserves I (each f xs) := by
  induction xs with
  | nil => exact .pure ()
  | cons x xs ih =>
      exact (h x List.mem_cons_self).bind fun _ => ih fun y hy => h y (List.mem_cons_of_mem x hy)

end Preserves

/-- **Frame.** -/
theorem Spec.frame {P J E : S → Prop} {m : Act S O A} {Q : A → S → Prop} (h : Spec P m Q E)
    (hj : Preserves J m) : Spec (fun s => P s ∧ J s) m (fun a s => Q a s ∧ J s) E := by
  rintro s ⟨hs, hjs⟩
  obtain ⟨a, ha, hq⟩ | he := h s hs
  · exact .inl ⟨a, ha, hq, hj s hjs⟩
  · exact .inr he

/-- A call that preserves `I` and leaves `K`. -/
theorem Preserves.establish {I K : S → Prop} {m : Act S O A} (h : Preserves I m)
    (hk : ∀ s, I s → K (m s).2) : Spec I m (fun _ s => I s ∧ K s) I := by
  intro s hs
  obtain ⟨a, ha, hi⟩ | he := h.spec s hs
  · exact .inl ⟨a, ha, hi, hk s hs⟩
  · exact .inr he

/-- What each step of a loop leaves, if no other step undoes it. -/
theorem Spec.each {X : Type} {I : S → Prop} {K : X → S → Prop} {f : X → Act S O Unit} {xs : List X}
    (h : ∀ x ∈ xs, Spec I (f x) (fun _ s => I s ∧ K x s) I)
    (hk : ∀ x, ∀ y ∈ xs, Preserves (K x) (f y)) :
    Spec I (each f xs) (fun _ s => I s ∧ ∀ x ∈ xs, K x s) I := by
  induction xs with
  | nil => exact Spec.pure fun s hs => ⟨hs, nofun⟩
  | cons x xs ih =>
      have hrest := ih (fun y hy => h y (List.mem_cons_of_mem x hy))
        fun y z hz => hk y z (List.mem_cons_of_mem x hz)
      have hkept : Preserves (K x) (Act.each f xs) :=
        .each fun y hy => hk x y (List.mem_cons_of_mem x hy)
      refine (h x List.mem_cons_self).bind fun _ => (hrest.frame hkept).mono (fun _ hs => hs) ?_
        fun _ he => he
      rintro _ s ⟨⟨hi, hall⟩, hx⟩
      exact ⟨hi, List.forall_mem_cons.mpr ⟨hx, hall⟩⟩

/-! ### Calls without faults -/

/-- The call returns from any state. -/
def Returns (m : Act S O A) : Prop := ∀ s, ∃ a, (m s).1 = .ok a

section Returns

variable {m : Act S O A}

theorem Returns.pure (a : A) : Returns (pure a : Act S O A) := fun _ => ⟨a, rfl⟩

theorem Returns.bind {f : A → Act S O B} (h : Returns m) (hf : ∀ a, Returns (f a)) :
    Returns (m >>= f) := by
  intro s
  obtain ⟨a, ha⟩ := h s
  rw [bind_ok (Prod.ext ha rfl)]
  exact hf a _

theorem Returns.ite {p : Prop} [Decidable p] {m' : Act S O A} (h : Returns m) (h' : Returns m') :
    Returns (if p then m else m') := by
  split
  · exact h
  · exact h'

theorem Returns.when {p : Prop} [Decidable p] {m : Act S O Unit} (h : Returns m) :
    Returns (when p m) :=
  Returns.ite h (.pure ())

end Returns

/-- `m;`, whatever it returns. -/
def ignore (m : Act S O A) : Act S O Unit := do let _ ← m

/-- `m₁; m₂; …` -/
def seq (ms : List (Act S O Unit)) : Act S O Unit := each id ms

/-! ### Exact triples -/

/-- From `s` the call returns just when `F` holds, and then as `Q` says. -/
def Exact (s : S) (F : Prop) (m : Act S O A) (Q : A → S → Prop) : Prop :=
  (F ∧ ∃ a, (m s).1 = .ok a ∧ Q a (m s).2) ∨ (¬ F ∧ ∃ e, (m s).1 = .error e)

section Exact

variable {s : S} {F G : Prop} {m : Act S O A} {Q Q' : A → S → Prop} {R : B → S → Prop}

theorem Exact.mono (h : Exact s F m Q) (hF : F ↔ G) (hQ : ∀ a s', Q a s' → Q' a s') :
    Exact s G m Q' := by
  obtain ⟨hf, a, ha, hq⟩ | ⟨hf, he⟩ := h
  · exact .inl ⟨hF.mp hf, a, ha, hQ a _ hq⟩
  · exact .inr ⟨fun hg => hf (hF.mpr hg), he⟩

theorem Exact.pure {a : A} (h : Q a s) : Exact s True (pure a : Act S O A) Q :=
  .inl ⟨trivial, a, rfl, h⟩

theorem Exact.bind {f : A → Act S O B} (h : Exact s F m Q)
    (hf : ∀ a s', Q a s' → Exact s' G (f a) R) : Exact s (F ∧ G) (m >>= f) R := by
  obtain ⟨hF, a, ha, hq⟩ | ⟨hF, e, he⟩ := h
  · obtain ⟨hG, b, hb, hr⟩ | ⟨hG, herr⟩ := hf a _ hq
    · refine .inl ⟨⟨hF, hG⟩, b, ?_, ?_⟩ <;> rw [bind_ok (Prod.ext ha rfl)]
      · exact hb
      · exact hr
    · refine .inr ⟨fun h => hG h.2, ?_⟩
      rw [bind_ok (Prod.ext ha rfl)]
      exact herr
  · refine .inr ⟨fun h => hF h.1, e, ?_⟩
    rw [bind_error (Prod.ext he rfl)]

/-- A call whose outcome is known. -/
theorem Exact.step {s' : S} {a : A} {f : A → Act S O B} (hm : m s = (.ok a, s'))
    (h : Exact s' F (f a) R) : Exact s F (m >>= f) R := by
  unfold Exact at h ⊢
  rw [bind_ok hm]
  exact h

/-- What is read from the state is known. -/
theorem Exact.read {a : A} {f : A → Act S O B} (hm : m s = (.ok a, s)) (h : Exact s F (f a) R) :
    Exact s F (m >>= f) R :=
  h.step hm

theorem Exact.ite {p : Prop} [Decidable p] {m' : Act S O A} (h : p → Exact s F m Q)
    (h' : ¬ p → Exact s F m' Q) : Exact s F (if p then m else m') Q := by
  split
  · exact h ‹_›
  · exact h' ‹_›

/-- What else the call is known to leave. -/
theorem Exact.and (h : Exact s F m Q) {P : S → Prop} (hP : F → P (m s).2) :
    Exact s F m (fun a s' => Q a s' ∧ P s') := by
  obtain ⟨hF, a, ha, hq⟩ | he := h
  · exact .inl ⟨hF, a, ha, hq, hP hF⟩
  · exact .inr he

/-- A call without faults. -/
theorem Returns.exact (h : Returns m) (s : S) : Exact s True m fun _ s' => s' = (m s).2 := by
  obtain ⟨a, ha⟩ := h s
  exact .inl ⟨trivial, a, ha, rfl⟩

/-- **What a call achieves** it achieves just when it returns and what it leaves is right. -/
theorem Exact.achieves (h : Exact s F m Q) {P : S → Prop} {C : Prop}
    (hP : ∀ a s', Q a s' → (P s' ↔ C)) :
    ((∃ a, (m s).1 = .ok a) ∧ P (m s).2) ↔ F ∧ C := by
  obtain ⟨hF, a, ha, hq⟩ | ⟨hF, e, he⟩ := h
  · exact ⟨fun h => ⟨hF, (hP a _ hq).mp h.2⟩, fun h => ⟨⟨a, ha⟩, (hP a _ hq).mpr h.2⟩⟩
  · refine ⟨fun ⟨⟨a, ha⟩, _⟩ => ?_, fun h => absurd h.1 hF⟩
    rw [he] at ha
    cases ha

end Exact

/-- The call returns from `s`. -/
def ReturnsAt (s : S) (m : Act S O A) : Prop := ∃ a, (m s).1 = .ok a

theorem returnsAt_pure (s : S) (a : A) : ReturnsAt s (pure a : Act S O A) := ⟨a, rfl⟩

theorem returnsAt_bind {s : S} {m : Act S O A} {f : A → Act S O B} :
    ReturnsAt s (m >>= f) ↔ ∃ a, (m s).1 = .ok a ∧ ReturnsAt (m s).2 (f a) := by
  rw [ReturnsAt, bind_apply]
  split
  · rename_i a s' hm
    simp [ReturnsAt, hm]
  · rename_i hm
    simp [hm]

/-! ### Where calls fault -/

/-- The call, with other names of the objects. -/
def relabel {O' : Type} (f : O → O') (m : Act S O A) : Act S O' A := fun s =>
  ((m s).1.mapError (Fault.map f), (m s).2)

/-- From any state the call faults in objects of `P` only. -/
def Confined (P : O → Prop) (m : Act S O A) : Prop := ∀ s, (m s).1.FaultsIn P

section Confined

variable {P : O → Prop} {m : Act S O A}

theorem Confined.pure (a : A) : Confined P (pure a : Act S O A) := fun _ => Run.faultsIn_ok a

theorem Confined.bind {f : A → Act S O B} (h : Confined P m) (hf : ∀ a, Confined P (f a)) :
    Confined P (m >>= f) := by
  intro s
  cases hm : (m s).1 with
  | ok a =>
      rw [bind_ok (Prod.ext hm rfl)]
      exact hf a _
  | error e =>
      rw [bind_error (Prod.ext hm rfl)]
      have he := h s
      rw [hm] at he
      exact Run.faultsIn_error.mpr (Run.faultsIn_error.mp he)

theorem Confined.ite {p : Prop} [Decidable p] {m' : Act S O A} (h : p → Confined P m)
    (h' : ¬ p → Confined P m') : Confined P (if p then m else m') := by
  split
  · exact h ‹_›
  · exact h' ‹_›

theorem Confined.ignore (h : Confined P m) : Confined P (ignore m) := h.bind fun _ => .pure ()

/-- Under other names a call faults in objects of these names. -/
theorem Confined.relabel {O' : Type} {f : O' → O} {m : Act S O' A} (h : ∀ o, P (f o)) :
    Confined P (relabel f m) := by
  intro s e he
  unfold Act.relabel at he
  cases hm : (m s).1 with
  | ok a =>
      rw [hm] at he
      cases he
  | error e' =>
      rw [hm] at he
      cases he
      rw [Fault.obj_map]
      exact h e'.obj

end Confined

/-- Whatever the call returns, from any state, is in `P`. -/
def Yields (P : A → Prop) (m : Act S O A) : Prop := ∀ s a, (m s).1 = .ok a → P a

section Yields

variable {P : A → Prop} {Q : B → Prop} {m : Act S O A}

theorem Yields.mono {P' : A → Prop} (h : Yields P m) (hP : ∀ a, P a → P' a) : Yields P' m :=
  fun s a ha => hP a (h s a ha)

theorem Yields.any : Yields (fun _ => True) m := fun _ _ _ => trivial

theorem Yields.pure {a : A} (h : P a) : Yields P (pure a : Act S O A) := by
  rintro s b ⟨⟩
  exact h

theorem Yields.bind {f : A → Act S O B} (h : Yields P m) (hf : ∀ a, P a → Yields Q (f a)) :
    Yields Q (m >>= f) := by
  intro s b hb
  rw [bind_apply] at hb
  cases hm : m s with
  | mk r s' =>
      rw [hm] at hb
      cases r with
      | error e => cases hb
      | ok a => exact hf a (h s a (by rw [hm])) s' b hb

/-- Nothing is known of what comes first. -/
theorem Yields.behind {f : A → Act S O B} (hf : ∀ a, Yields Q (f a)) : Yields Q (m >>= f) :=
  Yields.any.bind fun a _ => hf a

theorem Yields.ite {p : Prop} [Decidable p] {m' : Act S O A} (h : p → Yields P m)
    (h' : ¬p → Yields P m') : Yields P (if p then m else m') := by
  split
  · exact h ‹_›
  · exact h' ‹_›

end Yields

/-! ### Calls that only read -/

/-- Neither call changes the state, and from `h s` the second does what the first does from `s`, up
to `f`. -/
def Mirrors (h : S → S) (f : A → B) (m : Act S O A) (m' : Act S O B) : Prop :=
  ∀ s, (m s).2 = s ∧ m' (h s) = ((m s).1.map f, h s)

section Mirrors

variable {h : S → S} {f : A → B} {m : Act S O A} {m' : Act S O B}

theorem Mirrors.lift {r : Run O A} {r' : Run O B} (hr : r' = r.map f) :
    Mirrors h f (lift r) (lift r') := by
  intro s
  subst hr
  exact ⟨rfl, rfl⟩

theorem Mirrors.pure (a : A) :
    Mirrors h f (pure a : Act S O A) (pure (f a) : Act S O B) := fun _ => ⟨rfl, rfl⟩

theorem Mirrors.fault (e : Fault O) : Mirrors h f (fault e) (fault e) := fun _ => ⟨rfl, rfl⟩

theorem Mirrors.bind {A' B' : Type} {g : A' → B'} {k : A → Act S O A'} {k' : B → Act S O B'}
    (hm : Mirrors h f m m') (hk : ∀ a, Mirrors h g (k a) (k' (f a))) :
    Mirrors h g (m >>= k) (m' >>= k') := by
  intro s
  obtain ⟨hs, hm'⟩ := hm s
  cases hr : (m s).1 with
  | ok a =>
      have hfirst : m s = (.ok a, s) := Prod.ext hr hs
      rw [hr] at hm'
      rw [bind_ok hfirst, bind_ok hm']
      exact hk a s
  | error e =>
      have hfirst : m s = (.error e, s) := Prod.ext hr hs
      rw [hr] at hm'
      rw [bind_error hfirst, bind_error hm']
      exact ⟨rfl, rfl⟩

theorem Mirrors.ite {p : Prop} [Decidable p] {n : Act S O A} {n' : Act S O B}
    (hm : Mirrors h f m m') (hn : Mirrors h f n n') :
    Mirrors h f (if p then m else n) (if p then m' else n') := by
  split
  · exact hm
  · exact hn

end Mirrors

/-! ### Runs -/

/-- A sequence of calls, each from the state the one before it left. -/
def runAll (ms : List (Act S O A)) (s : S) : S := ms.foldl (fun s m => (m s).2) s

@[simp] theorem runAll_nil (s : S) : runAll ([] : List (Act S O A)) s = s := rfl

@[simp] theorem runAll_cons (m : Act S O A) (ms : List (Act S O A)) (s : S) :
    runAll (m :: ms) s = runAll ms (m s).2 := rfl

/-- **Invariants of calls are invariants of runs.** -/
theorem Preserves.runAll {I : S → Prop} {ms : List (Act S O A)} (h : ∀ m ∈ ms, Preserves I m)
    {s : S} (hs : I s) : I (runAll ms s) := by
  induction ms generalizing s with
  | nil => exact hs
  | cons m ms ih =>
      exact ih (fun m' hm' => h m' (List.mem_cons_of_mem m hm')) (h m List.mem_cons_self s hs)

end Act

end CLib
