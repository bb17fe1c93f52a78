import Mathlib.Tactic.Common

/-!
# Support — loops

A `while` loop is its body: a step from a state either to the next state or out of the loop with a
result (`σ → σ ⊕ ρ`).  `run` iterates the body a bounded number of times, and the loop *returns*
`r` when some number of iterations reaches it (`Returns`).  A loop that never returns is one whose
runs are all unfinished.

* `Returns.unique`: a loop returns at most one result.
* `returns_of_inl`: an iteration leaves the result as it is.
* `not_returns_of_invariant`: a set of states the body never leaves and never ends from.
* `Returns.of_invariant`: what every iteration keeps holds where the loop ends.
* `run_of_variant`: a loop with a variant ends within as many iterations.
-/

namespace CLib.Loop

variable {σ ρ : Type} (step : σ → σ ⊕ ρ)

/-- At most `n` iterations; `none` when the loop has not ended by then. -/
def run : Nat → σ → Option ρ
  | 0, _ => none
  | n + 1, s =>
    match step s with
    | .inl s' => run n s'
    | .inr r => some r

/-- The loop entered at `s` ends with `r`. -/
def Returns (s : σ) (r : ρ) : Prop := ∃ n, run step n s = some r

variable {step}

/-- More iterations than needed change nothing. -/
theorem run_mono {r : ρ} : ∀ {n m : Nat} {s : σ}, n ≤ m → run step n s = some r →
    run step m s = some r
  | 0, _, _, _, h => by cases h
  | n + 1, 0, _, hle, _ => absurd hle (Nat.not_succ_le_zero n)
  | n + 1, m + 1, s, hle, h => by
      unfold run at h ⊢
      cases hs : step s with
      | inl s' => rw [hs] at h; exact run_mono (Nat.le_of_succ_le_succ hle) h
      | inr r' => rw [hs] at h; exact h

theorem Returns.unique {s : σ} {r r' : ρ} (h : Returns step s r) (h' : Returns step s r') :
    r = r' := by
  obtain ⟨n, hn⟩ := h
  obtain ⟨m, hm⟩ := h'
  have h₁ := run_mono (Nat.le_max_left n m) hn
  have h₂ := run_mono (Nat.le_max_right n m) hm
  exact Option.some.inj (h₁.symm.trans h₂)

theorem returns_of_inl {s s' : σ} (h : step s = .inl s') (r : ρ) :
    Returns step s r ↔ Returns step s' r := by
  constructor
  · rintro ⟨n, hn⟩
    cases n with
    | zero => cases hn
    | succ n => exact ⟨n, by simpa [run, h] using hn⟩
  · rintro ⟨n, hn⟩
    exact ⟨n + 1, by simpa [run, h] using hn⟩

theorem returns_of_inr {s : σ} {r₀ : ρ} (h : step s = .inr r₀) (r : ρ) :
    Returns step s r ↔ r = r₀ := by
  constructor
  · rintro ⟨n, hn⟩
    cases n with
    | zero => cases hn
    | succ n => simpa [run, h, eq_comm] using hn
  · rintro rfl
    exact ⟨1, by simp [run, h]⟩

/-- **Divergence.**  From a set of states the body never leaves, the loop never returns. -/
theorem not_returns_of_invariant {I : σ → Prop} (hI : ∀ s, I s → ∃ s', step s = .inl s' ∧ I s')
    {s : σ} (hs : I s) (r : ρ) : ¬ Returns step s r := by
  rintro ⟨n, hn⟩
  induction n generalizing s with
  | zero => cases hn
  | succ n ih =>
      obtain ⟨s', hs', hI'⟩ := hI s hs
      exact ih hI' (by simpa [run, hs'] using hn)

/-- **Partial correctness.**  What holds on entry and is kept by every iteration holds in the
state the loop ends from. -/
theorem Returns.of_invariant {I : σ → Prop} (hI : ∀ s s', I s → step s = .inl s' → I s')
    {s : σ} {r : ρ} (hs : I s) (h : Returns step s r) : ∃ s', I s' ∧ step s' = .inr r := by
  obtain ⟨n, hn⟩ := h
  induction n generalizing s with
  | zero => cases hn
  | succ n ih =>
      cases e : step s with
      | inl s' => exact ih (hI s s' hs e) (by simpa [run, e] using hn)
      | inr r' =>
          have : r' = r := by simpa [run, e] using hn
          exact ⟨s, hs, this ▸ e⟩

/-- **Total correctness.**  A loop that keeps an invariant, and makes a variant smaller, ends. -/
theorem run_of_variant {I : σ → Prop} {Q : ρ → Prop} (variant : σ → Nat)
    (hstep : ∀ s, I s → (∃ s', step s = .inl s' ∧ I s' ∧ variant s' < variant s) ∨
      ∃ r, step s = .inr r ∧ Q r)
    {n : Nat} {s : σ} (hs : I s) (hn : variant s < n) : ∃ r, run step n s = some r ∧ Q r := by
  induction n generalizing s with
  | zero => exact absurd hn (Nat.not_lt_zero _)
  | succ n ih =>
      unfold run
      rcases hstep s hs with ⟨s', hs', hI, hless⟩ | ⟨r, hr, hQ⟩
      · rw [hs']
        exact ih hI (Nat.lt_of_lt_of_le hless (Nat.le_of_lt_succ hn))
      · rw [hr]
        exact ⟨r, rfl, hQ⟩

end CLib.Loop
