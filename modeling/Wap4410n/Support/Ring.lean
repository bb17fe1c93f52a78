import Mathlib.Data.List.Basic
import Mathlib.Data.List.ReduceOption
import Mathlib.Data.Nat.ModEq

/-!
# Support — rings

An array of `n` slots whose index wraps to 0.  Seen from an index `a` it is the list of its slots
from `a` on (`view`): a store is then `List.set`, and moving `a` on by one takes the first slot of
the list to its end.

* `incr_slot`, `slot_incr`, `slot_inj`: the index `i` slots from `a`.
* `view_update`, `view_incr`, `view_push`: a store, the next index, and both.
* `perm_view`: the slots are the same, from whatever index.

Where a slot may be empty the ring is a queue: its entries are the full slots of the list, and a
scan from `a` finds the first of them (`scan_eq_none`, `scan_eq_some`).
-/

namespace CLib.Ring

variable {α : Type} {n a i j : Nat}

/-! ### Indices -/

/-- The index `i` slots from `a` on. -/
def slot (n a i : Nat) : Nat := (a + i) % n

/-- `if (++idx == n) idx = 0;` -/
def incr (n i : Nat) : Nat := if i + 1 = n then 0 else i + 1

theorem slot_lt (hn : 0 < n) (a i : Nat) : slot n a i < n := Nat.mod_lt _ hn

theorem slot_zero (ha : a < n) : slot n a 0 = a := Nat.mod_eq_of_lt ha

theorem slot_self (ha : a < n) : slot n a n = a := by
  rw [slot, Nat.add_mod_right, Nat.mod_eq_of_lt ha]

theorem incr_lt (ha : a < n) : incr n a < n := by
  unfold incr
  split <;> omega

theorem incr_eq_mod (ha : a < n) : incr n a = (a + 1) % n := by
  unfold incr
  split
  · rename_i h
    rw [h, Nat.mod_self]
  · rw [Nat.mod_eq_of_lt (by omega)]

/-- The slot behind the `i`-th from `a` is the next one from `a`. -/
theorem incr_slot (hn : 0 < n) (a i : Nat) : incr n (slot n a i) = slot n a (i + 1) := by
  rw [incr_eq_mod (slot_lt hn a i), slot, slot, Nat.mod_add_mod, Nat.add_assoc]

theorem slot_incr (ha : a < n) (i : Nat) : slot n (incr n a) i = slot n a (i + 1) := by
  rw [incr_eq_mod ha, slot, slot, Nat.mod_add_mod, Nat.add_assoc, Nat.add_comm 1 i]

theorem slot_inj (hi : i < n) (hj : j < n) : slot n a i = slot n a j ↔ i = j := by
  constructor
  · intro h
    have hmod : i ≡ j [MOD n] := Nat.ModEq.add_left_cancel' a h
    exact Nat.ModEq.eq_of_lt_of_lt hmod hi hj
  · rintro rfl
    rfl

/-! ### The slots from an index on -/

/-- The slots from `a` on. -/
def view (f : Nat → α) (n a : Nat) : List α := (List.range n).map fun i => f (slot n a i)

variable {f : Nat → α}

@[simp] theorem length_view (f : Nat → α) (n a : Nat) : (view f n a).length = n := by
  simp [view]

theorem getElem?_view (h : i < n) : (view f n a)[i]? = some (f (slot n a i)) := by
  simp [view, h]

/-- A store sets one element of the list. -/
theorem view_update (hi : i < n) (x : α) :
    view (Function.update f (slot n a i) x) n a = (view f n a).set i x := by
  refine List.ext_getElem? fun j => ?_
  by_cases hj : j < n
  · rw [getElem?_view hj, List.getElem?_set, getElem?_view hj, length_view]
    by_cases hij : i = j
    · subst hij
      rw [if_pos rfl, if_pos hi, Function.update_self]
    · rw [if_neg hij, Function.update_of_ne]
      intro h
      exact hij ((slot_inj hj hi).mp h).symm
  · rw [List.getElem?_eq_none (by simpa using Nat.le_of_not_lt hj),
      List.getElem?_eq_none (by simpa using Nat.le_of_not_lt hj)]

/-- From the next index on, the first slot is the last. -/
theorem view_incr (ha : a < n) : view f n (incr n a) = (view f n a).tail ++ [f a] := by
  obtain ⟨m, rfl⟩ : ∃ m, n = m + 1 := ⟨n - 1, by omega⟩
  have hlast : slot (m + 1) (incr (m + 1) a) m = a := by
    rw [slot_incr ha, slot_self ha]
  have hleft : view f (m + 1) (incr (m + 1) a) =
      ((List.range m).map fun i => f (slot (m + 1) a (i + 1))) ++ [f a] := by
    rw [view, List.range_succ, List.map_append, List.map_singleton, hlast]
    congr 1
    exact List.map_congr_left fun i _ => by rw [slot_incr ha]
  have hright : (view f (m + 1) a).tail =
      (List.range m).map fun i => f (slot (m + 1) a (i + 1)) := by
    rw [view, List.range_succ_eq_map, List.map_cons, List.tail_cons, List.map_map]
    rfl
  rw [hleft, hright]

theorem view_zero (f : Nat → α) (n : Nat) : view f n 0 = (List.range n).map f :=
  List.map_congr_left
    fun i hi => by rw [slot, Nat.zero_add, Nat.mod_eq_of_lt (List.mem_range.mp hi)]

/-- Seen from any index, the slots are the same. -/
theorem perm_view (ha : a < n) : (view f n a).Perm (view f n 0) := by
  induction a with
  | zero => exact .refl _
  | succ a ih =>
      have hincr : incr n a = a + 1 := if_neg (by omega)
      obtain ⟨x, xs, hview⟩ := List.exists_cons_of_length_pos (l := view f n a)
        (by rw [length_view]; exact Nat.zero_lt_of_lt ha)
      have hx : x = f a := by
        have hfirst := getElem?_view (f := f) (a := a) (Nat.zero_lt_of_lt ha)
        rw [hview, slot_zero (by omega)] at hfirst
        exact Option.some.inj hfirst
      rw [← hincr, view_incr (by omega), hview, List.tail_cons, ← hx]
      exact (List.perm_append_singleton x xs).trans (hview ▸ ih (by omega))

/-- A store at the index, which then moves on, drops the first slot and appends the new one. -/
theorem view_push (ha : a < n) (x : α) :
    view (Function.update f a x) n (incr n a) = (view f n a).tail ++ [x] := by
  have hstore := view_update (f := f) (n := n) (a := a) (i := 0) (by omega) x
  rw [slot_zero ha] at hstore
  rw [view_incr ha, hstore, Function.update_self]
  cases view f n a <;> rfl

/-- Pushing `ys` one after the other leaves the last `n` of the old slots and the values pushed. -/
theorem view_pushes {σ β : Type} (slots : σ → Nat → α) (idx : σ → Nat) (push : σ → β → σ)
    (val : β → α) (hslots : ∀ s y, slots (push s y) = Function.update (slots s) (idx s) (val y))
    (hidx : ∀ s y, idx (push s y) = (idx s + 1) % n) (ys : List β) {s : σ} (hs : idx s < n) :
    view (slots (ys.foldl push s)) n (idx (ys.foldl push s)) =
      (view (slots s) n (idx s) ++ ys.map val).drop ys.length := by
  induction ys generalizing s with
  | nil => simp
  | cons y ys ih =>
      have hlt : idx (push s y) < n := by
        rw [hidx]
        exact Nat.mod_lt _ (by omega)
      rw [List.foldl_cons, ih hlt, hidx, ← incr_eq_mod hs, hslots, view_push hs, List.length_cons]
      obtain ⟨x, l, hl⟩ : ∃ x l, view (slots s) n (idx s) = x :: l :=
        List.exists_cons_of_length_pos (by rw [length_view]; omega)
      simp [hl]

/-! ### Scanning for a full slot -/

/-- `for (i = 0; i < k; i++) { if (f[idx]) return idx; idx = (idx + 1) % n; }` -/
def scan (f : Nat → Option α) (n : Nat) : Nat → Nat → Option Nat
  | 0, _ => none
  | k + 1, idx => if (f idx).isSome then some idx else scan f n k ((idx + 1) % n)

variable {g : Nat → Option α}

/-- What a scan that starts `i` slots from `a` finds: the first full slot, if any. -/
theorem scan_slot (hn : 0 < n) (a : Nat) : ∀ k i, match scan g n k (slot n a i) with
    | none => ∀ j, i ≤ j → j < i + k → g (slot n a j) = none
    | some idx => ∃ j x, i ≤ j ∧ j < i + k ∧ idx = slot n a j ∧ g idx = some x ∧
        ∀ j', i ≤ j' → j' < j → g (slot n a j') = none := by
  intro k
  induction k with
  | zero =>
      intro i
      simp only [scan]
      omega
  | succ k ih =>
      intro i
      have hnext : (slot n a i + 1) % n = slot n a (i + 1) := by
        rw [← incr_slot hn, incr_eq_mod (slot_lt hn a i)]
      simp only [scan, hnext]
      cases hg : g (slot n a i) with
      | some x => exact ⟨i, x, le_refl i, by omega, rfl, hg, fun j' h h' => by omega⟩
      | none =>
          have hrest := ih (i + 1)
          simp only [Option.isSome_none, Bool.false_eq_true, if_false]
          split <;> rename_i hscan <;> rw [hscan] at hrest
          · intro j hij hj
            rcases hij.eq_or_lt with rfl | hlt
            · exact hg
            · exact hrest j hlt (by omega)
          · obtain ⟨j, x, hij, hj, hidx, hx, hbefore⟩ := hrest
            refine ⟨j, x, by omega, by omega, hidx, hx, fun j' h h' => ?_⟩
            rcases h.eq_or_lt with rfl | hlt
            · exact hg
            · exact hbefore j' hlt h'

/-- **An empty ring**: the scan fails where no slot is full. -/
theorem scan_eq_none (ha : a < n) (h : scan g n n a = none) : (view g n a).reduceOption = [] := by
  have hfound := scan_slot (g := g) (by omega : 0 < n) a n 0
  rw [slot_zero ha, h] at hfound
  have hall : view g n a = List.replicate n none := by
    refine List.eq_replicate_iff.mpr ⟨length_view g n a, fun b hb => ?_⟩
    obtain ⟨i, hi, rfl⟩ := List.mem_map.mp hb
    exact hfound i (Nat.zero_le i) (by simpa using List.mem_range.mp hi)
  rw [hall, List.reduceOption_replicate_none]

/-- **The first entry**: the slot the scan finds holds it, and emptying that slot leaves the
others. -/
theorem scan_eq_some (ha : a < n) {idx : Nat} (h : scan g n n a = some idx) :
    ∃ x, g idx = some x ∧
      (view g n a).reduceOption = x :: (view (Function.update g idx none) n a).reduceOption := by
  have hfound := scan_slot (g := g) (by omega : 0 < n) a n 0
  rw [slot_zero ha, h] at hfound
  obtain ⟨j, x, -, hj, rfl, hx, hbefore⟩ := hfound
  have hjn : j < n := by omega
  have hget : (view g n a)[j]? = some (some x) := by rw [getElem?_view hjn, hx]
  have hskip : ((view g n a).take j).reduceOption = [] := by
    have hnone : (view g n a).take j = List.replicate j none := by
      refine List.ext_getElem? fun j' => ?_
      by_cases hj' : j' < j
      · rw [List.getElem?_take_of_lt hj', getElem?_view (by omega), hbefore j' (Nat.zero_le j') hj',
          List.getElem?_replicate, if_pos hj']
      · rw [List.getElem?_eq_none (by simp; omega), List.getElem?_eq_none (by simp; omega)]
    rw [hnone, List.reduceOption_replicate_none]
  obtain ⟨hlt, hval⟩ := List.getElem?_eq_some_iff.mp hget
  refine ⟨x, hx, ?_⟩
  rw [view_update hjn, List.set_eq_take_append_cons_drop, if_pos hlt]
  conv_lhs => rw [← List.take_append_drop j (view g n a), List.drop_eq_getElem_cons hlt, hval]
  rw [List.reduceOption_append, List.reduceOption_append, hskip, List.reduceOption_cons_of_some,
    List.reduceOption_cons_of_none, List.nil_append, List.nil_append]

end CLib.Ring
