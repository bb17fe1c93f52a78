import Mathlib.Data.List.Basic

/-!
# Support — rows in a flat array

Rows of `w` elements each, laid out one behind the other: the row `i` stands at `w * i`.  Reading
those `w` elements gives the row (`Width.row`), and overwriting them sets it (`Width.set`).
-/

namespace CLib.Flat

variable {α : Type} {w i : Nat} {rows : List (List α)}

/-- Every row has `w` elements. -/
def Width (w : Nat) (rows : List (List α)) : Prop := ∀ r ∈ rows, r.length = w

theorem Width.length (h : Width w rows) : rows.flatten.length = w * rows.length := by
  induction rows with
  | nil => rfl
  | cons r rows ih =>
      obtain ⟨hr, hrows⟩ := List.forall_mem_cons.mp h
      rw [List.flatten_cons, List.length_append, hr, ih hrows, List.length_cons, Nat.mul_succ,
        Nat.add_comm]

/-- The rows before the row `i`. -/
theorem Width.take (h : Width w rows) (i : Nat) :
    rows.flatten.take (w * i) = (rows.take i).flatten := by
  induction rows generalizing i with
  | nil => simp
  | cons r rows ih =>
      obtain ⟨hr, hrows⟩ := List.forall_mem_cons.mp h
      cases i with
      | zero => rfl
      | succ i =>
          have hlen : w * (i + 1) = r.length + w * i := by rw [hr, Nat.mul_succ, Nat.add_comm]
          rw [List.flatten_cons, hlen, List.take_length_add_append, ih hrows, List.take_succ_cons,
            List.flatten_cons]

/-- The rows from the row `i` on. -/
theorem Width.drop (h : Width w rows) (i : Nat) :
    rows.flatten.drop (w * i) = (rows.drop i).flatten := by
  have hsplit := List.take_append_drop (w * i) rows.flatten
  rw [h.take] at hsplit
  refine List.append_cancel_left (hsplit.trans ?_)
  rw [← List.flatten_append, List.take_append_drop]

/-- **Reading a row.** -/
theorem Width.row (h : Width w rows) (hi : i < rows.length) :
    (rows.flatten.drop (w * i)).take w = rows[i] := by
  have hr : rows[i].length = w := h _ (List.getElem_mem hi)
  rw [h.drop, List.drop_eq_getElem_cons hi, List.flatten_cons, List.take_left' hr]

/-- **Overwriting a row** sets it. -/
theorem Width.set (h : Width w rows) (hi : i < rows.length) (r : List α) :
    rows.flatten.take (w * i) ++ (r ++ rows.flatten.drop (w * i + w)) = (rows.set i r).flatten := by
  have hnext : w * i + w = w * (i + 1) := (Nat.mul_succ w i).symm
  rw [hnext, h.take, h.drop, List.set_eq_take_append_cons_drop, if_pos hi, List.flatten_append,
    List.flatten_cons]

end CLib.Flat
