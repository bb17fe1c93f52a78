import Mathlib.Data.List.Basic

/-!
# Support — runs under a condition

A system goes from state to state by a step function, and a run is a list of steps.  `Meets` says
that each step of a run meets a condition on the state it starts from.

* `Meets.invariant`: what holds of the first state, and is preserved by the steps that meet the
  condition, holds of the last.
* `Meets.append`: the condition of a run is that of its parts, so that the invariant holds of every
  state on the way.
-/

namespace CLib

variable {S A : Type} {step : S → A → S} {ok : S → A → Prop}

/-- The state after a run. -/
def runs (step : S → A → S) (s : S) (as : List A) : S := as.foldl step s

@[simp] theorem runs_nil (s : S) : runs step s [] = s := rfl

@[simp] theorem runs_cons (s : S) (a : A) (as : List A) :
    runs step s (a :: as) = runs step (step s a) as := rfl

/-- Each step of the run meets the condition where it is made. -/
def Meets (step : S → A → S) (ok : S → A → Prop) : S → List A → Prop
  | _, [] => True
  | s, a :: as => ok s a ∧ Meets step ok (step s a) as

namespace Meets

instance decidable [∀ s a, Decidable (ok s a)] :
    ∀ (as : List A) (s : S), Decidable (Meets step ok s as)
  | [], _ => inferInstanceAs (Decidable True)
  | a :: as, s =>
    have := decidable as (step s a)
    inferInstanceAs (Decidable (ok s a ∧ Meets step ok (step s a) as))

theorem append {as bs : List A} {s : S} :
    Meets step ok s (as ++ bs) ↔ Meets step ok s as ∧ Meets step ok (runs step s as) bs := by
  induction as generalizing s with
  | nil => exact ⟨fun h => ⟨trivial, h⟩, fun h => h.2⟩
  | cons a as ih =>
      change ok s a ∧ Meets step ok (step s a) (as ++ bs) ↔ _
      rw [ih, ← and_assoc]
      rfl

/-- **Invariants.** -/
theorem invariant {I : S → Prop} (hstep : ∀ s a, I s → ok s a → I (step s a)) {as : List A} {s : S}
    (hs : I s) (h : Meets step ok s as) : I (runs step s as) := by
  induction as generalizing s with
  | nil => exact hs
  | cons a as ih => exact ih (hstep s a hs h.1) h.2

/-- And of every state on the way. -/
theorem invariant_prefix {I : S → Prop} (hstep : ∀ s a, I s → ok s a → I (step s a))
    {as bs : List A} {s : S} (hs : I s) (h : Meets step ok s (as ++ bs)) : I (runs step s as) :=
  invariant hstep hs (append.mp h).1

end Meets

end CLib
