import Mathlib.Logic.Function.Basic

/-!
# Support — a map and the copy of it that is kept

`Persistent` is a map in use and the copy of it that outlives a restart.  An assignment changes the
map in use, a commit makes it the copy, and a restart starts again from the copy.
-/

namespace CLib

/-- The map in use, and the copy. -/
structure Persistent (K V : Type) where
  now : K → Option V
  kept : K → Option V

namespace Persistent

/-- What is done to it. -/
inductive Op (K V : Type) where
  | set (k : K) (v : V)
  | get (k : K)
  | commit
  | restart

variable {K V : Type} [DecidableEq K]

def next (s : Persistent K V) : Op K V → Persistent K V
  | .set k v => { s with now := Function.update s.now k (some v) }
  | .get _ => s
  | .commit => { s with kept := s.now }
  | .restart => { s with now := s.kept }

/-- What is answered. -/
def answer (s : Persistent K V) : Op K V → Option V
  | .get k => s.now k
  | .set _ _ | .commit | .restart => none

/-- The map and the copy after a sequence of operations. -/
def after (s : Persistent K V) : List (Op K V) → Persistent K V
  | [] => s
  | o :: os => (s.next o).after os

/-- The answers to them. -/
def answers (s : Persistent K V) : List (Op K V) → List (Option V)
  | [] => []
  | o :: os => s.answer o :: (s.next o).answers os

end Persistent

end CLib
