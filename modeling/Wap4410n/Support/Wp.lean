import Wap4410n.Support.Act

/-!
# Support — weakest preconditions

`Act.Wp m Q s` says that the call returns from `s`, with a value and a state related by `Q`.  The
rules are equivalences, so that they make of a call the condition on `s` under which it does.
-/

namespace CLib.Act

variable {S O A B : Type}

/-- The call returns from `s`, and then as `Q` says. -/
def Wp (m : Act S O A) (Q : A → S → Prop) (s : S) : Prop := ∃ a, (m s).1 = .ok a ∧ Q a (m s).2

variable {m m' : Act S O A} {Q Q' : A → S → Prop} {s : S}

theorem wp_pure {a : A} : Wp (pure a : Act S O A) Q s ↔ Q a s := by
  constructor
  · rintro ⟨_, ⟨⟩, h⟩
    exact h
  · exact fun h => ⟨a, rfl, h⟩

theorem wp_fault {e : Fault O} : Wp (fault e : Act S O A) Q s ↔ False := by
  constructor
  · rintro ⟨_, ⟨⟩, -⟩
  · exact False.elim

theorem wp_lift {r : Run O A} : Wp (lift r) Q s ↔ ∃ a, r = .ok a ∧ Q a s := Iff.rfl

theorem wp_bind {f : A → Act S O B} {Q : B → S → Prop} :
    Wp (m >>= f) Q s ↔ Wp m (fun a s' => Wp (f a) Q s') s := by
  rw [Wp, Wp, bind_apply]
  split
  · rename_i a s' hm
    rw [hm]
    constructor
    · exact fun h => ⟨a, rfl, h⟩
    · rintro ⟨_, ⟨⟩, h⟩
      exact h
  · rename_i e s' hm
    rw [hm]
    constructor
    · rintro ⟨_, ⟨⟩, -⟩
    · rintro ⟨_, ⟨⟩, -⟩

theorem wp_ite {p : Prop} [Decidable p] :
    Wp (if p then m else m') Q s ↔ if p then Wp m Q s else Wp m' Q s := by
  split <;> rfl

theorem wp_congr (h : ∀ a s, Q a s ↔ Q' a s) : Wp m Q s ↔ Wp m Q' s :=
  exists_congr fun a => and_congr_right fun _ => h a _

theorem Wp.mono (h : Wp m Q s) (hQ : ∀ a s, Q a s → Q' a s) : Wp m Q' s := by
  obtain ⟨a, ha, hq⟩ := h
  exact ⟨a, ha, hQ a _ hq⟩

/-- What is known of all that the call returns. -/
theorem wp_and_yields {P : A → Prop} (h : Yields P m) :
    Wp m (fun a s' => P a ∧ Q a s') s ↔ Wp m Q s :=
  ⟨fun hw => hw.mono fun _ _ hq => hq.2, fun ⟨a, ha, hq⟩ => ⟨a, ha, h s a ha, hq⟩⟩

/-- What does not depend on what the call returns. -/
theorem wp_const_and {p : Prop} : Wp m (fun a s' => p ∧ Q a s') s ↔ p ∧ Wp m Q s :=
  ⟨fun ⟨a, ha, hp, hq⟩ => ⟨hp, a, ha, hq⟩, fun ⟨hp, a, ha, hq⟩ => ⟨a, ha, hp, hq⟩⟩

/-- **A call that only reads**: where what follows depends on what it returns only as far as that is
in `P`, it is a condition on `s`. -/
theorem wp_reading {P : A → Prop} {F G : Prop}
    (h : ∀ R : S → Prop, Wp m (fun a s' => P a ∧ R s') s ↔ F ∧ R s) (hQ : ∀ a, P a → (Q a s ↔ G)) :
    Wp m (fun a s' => P a ∧ Q a s') s ↔ F ∧ G := by
  have hleaves (hF : F) : Wp m (fun a s' => P a ∧ s' = s) s := (h (· = s)).mpr ⟨hF, rfl⟩
  constructor
  · rintro ⟨a, ha, hP, hq⟩
    have hF : F := ((h fun _ => True).mp ⟨a, ha, hP, trivial⟩).1
    obtain ⟨-, -, -, hs⟩ := hleaves hF
    rw [hs] at hq
    exact ⟨hF, (hQ a hP).mp hq⟩
  · rintro ⟨hF, hG⟩
    obtain ⟨a, ha, hP, hs⟩ := hleaves hF
    refine ⟨a, ha, hP, ?_⟩
    rw [hs]
    exact (hQ a hP).mpr hG

end CLib.Act
