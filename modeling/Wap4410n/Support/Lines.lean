import Mathlib.Data.List.Basic
import Wap4410n.Support.CString

/-!
# Support — reading a text line by line

`fgets(buffer, n + 1, fp)` reads up to a line feed, which it keeps, or to `n` bytes: a longer line
comes in pieces.  `lines n s` is what the calls on a file return, one after the other, until it
ends.

* `lines_append`: a line that fits is read as it stands.
* `lines_concat`: behind a line feed reading starts anew.
* `lines_prefix`: the first piece of a text starts as the text does.
* `flatten_lines`: the pieces are the text.
* `lines_eq_cons`: the first piece, and what is left behind it.
* `exists_drop_of_cut`: cut behind a line feed, a sequence of lines leaves its last lines.
-/

namespace CLib

/-- The pieces of a text, the first of `k + 1` bytes at most and the others of `n + 1`. -/
def linesFrom (n : Nat) : Nat → List Byte → List (List Byte)
  | _, [] => []
  | 0, b :: s => [b] :: linesFrom n n s
  | k + 1, b :: s =>
    if b = 0x0a then [b] :: linesFrom n n s
    else
      match linesFrom n k s with
      | [] => [[b]]
      | l :: ls => (b :: l) :: ls

/-- What the calls of `fgets(buffer, n + 2, fp)` return. -/
def lines (n : Nat) (s : List Byte) : List (List Byte) := linesFrom n n s

@[simp] theorem lines_nil (n : Nat) : lines n [] = [] := rfl

theorem linesFrom_append {n : Nat} : ∀ {k : Nat} {l : List Byte}, 0x0a ∉ l → l.length ≤ k →
    ∀ s, linesFrom n k (l ++ 0x0a :: s) = (l ++ [0x0a]) :: lines n s
  | 0, [], _, _, s => rfl
  | k + 1, [], _, _, s => rfl
  | k + 1, b :: l, hl, hk, s => by
      have hb : b ≠ 0x0a := fun h => hl (by simp [h])
      have ih := linesFrom_append (n := n) (fun h => hl (List.mem_cons_of_mem b h))
        (Nat.le_of_succ_le_succ hk) s
      rw [List.cons_append, linesFrom, if_neg hb, ih]
      rfl

/-- **A line that fits is read as it stands.** -/
theorem lines_append {n : Nat} {l : List Byte} (hl : 0x0a ∉ l) (hn : l.length ≤ n)
    (s : List Byte) : lines n (l ++ 0x0a :: s) = (l ++ [0x0a]) :: lines n s :=
  linesFrom_append hl hn s

theorem linesFrom_ne_nil {n k : Nat} {s : List Byte} (h : s ≠ []) : linesFrom n k s ≠ [] := by
  cases s with
  | nil => exact absurd rfl h
  | cons b s =>
      cases k with
      | zero => exact List.cons_ne_nil _ _
      | succ k =>
          rw [linesFrom]
          split
          · exact List.cons_ne_nil _ _
          · split <;> exact List.cons_ne_nil _ _

theorem linesFrom_concat {n : Nat} : ∀ (k : Nat) (l s : List Byte),
    linesFrom n k (l ++ 0x0a :: s) = linesFrom n k (l ++ [0x0a]) ++ lines n s
  | 0, [], s => rfl
  | k + 1, [], s => rfl
  | 0, b :: l, s => by
      have ih := linesFrom_concat (n := n) n l s
      rw [List.cons_append, List.cons_append, linesFrom, linesFrom, ih]
      rfl
  | k + 1, b :: l, s => by
      rw [List.cons_append, List.cons_append, linesFrom, linesFrom]
      split
      · rw [linesFrom_concat n l s]
        rfl
      · rw [linesFrom_concat k l s]
        have hne : linesFrom n k (l ++ [0x0a]) ≠ [] := linesFrom_ne_nil (by simp)
        cases hl : linesFrom n k (l ++ [0x0a]) with
        | nil => exact absurd hl hne
        | cons l ls => rfl

/-- Behind a line feed reading starts anew. -/
theorem lines_concat (n : Nat) (l s : List Byte) :
    lines n (l ++ 0x0a :: s) = lines n (l ++ [0x0a]) ++ lines n s := linesFrom_concat n l s

theorem linesFrom_prefix {n : Nat} : ∀ {k : Nat} {l : List Byte}, 0x0a ∉ l → l.length ≤ k + 1 →
    ∀ {s : List Byte}, l ++ s ≠ [] → ∃ r ls, linesFrom n k (l ++ s) = (l ++ r) :: ls
  | 0, [], _, _, b :: s, _ => ⟨[b], linesFrom n n s, rfl⟩
  | k + 1, [], _, _, b :: s, _ => by
      rw [List.nil_append, linesFrom]
      split
      · exact ⟨[b], linesFrom n n s, rfl⟩
      · split
        · exact ⟨[b], [], rfl⟩
        · rename_i l ls _
          exact ⟨b :: l, ls, rfl⟩
  | 0, b :: l, _, hk, s, _ => by
      obtain rfl : l = [] := List.length_eq_zero_iff.mp (by simpa using hk)
      exact ⟨[], linesFrom n n s, rfl⟩
  | k + 1, b :: l, hl, hk, s, _ => by
      have hb : b ≠ 0x0a := fun h => hl (by simp [h])
      rw [List.cons_append, linesFrom, if_neg hb]
      by_cases hnil : l ++ s = []
      · obtain ⟨rfl, rfl⟩ := List.append_eq_nil_iff.mp hnil
        cases k <;> exact ⟨[], [], rfl⟩
      · obtain ⟨r, ls, h⟩ := linesFrom_prefix (n := n) (fun h => hl (List.mem_cons_of_mem b h))
          (Nat.le_of_succ_le_succ hk) hnil
        rw [h]
        exact ⟨r, ls, rfl⟩

/-- The first piece of a text starts as the text does. -/
theorem lines_prefix {n : Nat} {l s : List Byte} (hl : 0x0a ∉ l) (hn : l.length ≤ n + 1)
    (hs : l ++ s ≠ []) : ∃ r ls, lines n (l ++ s) = (l ++ r) :: ls :=
  linesFrom_prefix hl hn hs

theorem flatten_linesFrom (n : Nat) : ∀ (k : Nat) (s : List Byte), (linesFrom n k s).flatten = s
  | _, [] => by rw [linesFrom, List.flatten_nil]
  | 0, b :: s => by
      rw [linesFrom, List.flatten_cons, flatten_linesFrom n n s]
      rfl
  | k + 1, b :: s => by
      have ih := flatten_linesFrom n k s
      rw [linesFrom]
      split
      · rw [List.flatten_cons, flatten_linesFrom n n s]
        rfl
      · split
        · rename_i hnil
          rw [hnil] at ih
          rw [← ih]
          rfl
        · rename_i l ls hcons
          rw [hcons, List.flatten_cons] at ih
          rw [List.flatten_cons, List.cons_append, ih]

/-- The pieces are the text. -/
theorem flatten_lines (n : Nat) (s : List Byte) : (lines n s).flatten = s :=
  flatten_linesFrom n n s

/-- The first piece of a text, and what is left behind it: nothing, if the piece could be longer and
has no line feed at its end. -/
theorem linesFrom_eq_cons {n : Nat} : ∀ {k : Nat} {s l : List Byte} {ls : List (List Byte)},
    linesFrom n k s = l :: ls → l ≠ [] ∧ l.length ≤ k + 1 ∧ ∃ t, s = l ++ t ∧ ls = lines n t ∧
      (l.length < k + 1 → l.getLast? ≠ some 0x0a → t = [])
  | _, [], l, ls, h => by
      rw [linesFrom] at h
      cases h
  | 0, b :: s, l, ls, h => by
      obtain ⟨rfl, rfl⟩ := List.cons.inj h
      exact ⟨List.cons_ne_nil b [], Nat.le_refl 1, s, rfl, rfl, fun hlt => absurd hlt (lt_irrefl 1)⟩
  | k + 1, b :: s, l, ls, h => by
      rw [linesFrom] at h
      split at h
      · next hb =>
          obtain ⟨rfl, rfl⟩ := List.cons.inj h
          exact ⟨List.cons_ne_nil b [], Nat.succ_le_succ (Nat.zero_le _), s, rfl, rfl,
            fun _ hlast => absurd (congrArg some hb) hlast⟩
      · split at h
        · next hnil =>
            obtain ⟨rfl, rfl⟩ := List.cons.inj h
            obtain rfl : s = [] := by
              by_contra hne
              exact linesFrom_ne_nil hne hnil
            exact ⟨List.cons_ne_nil b [], Nat.succ_le_succ (Nat.zero_le _), [], rfl, rfl,
              fun _ _ => rfl⟩
        · next l' ls' hcons =>
            obtain ⟨rfl, rfl⟩ := List.cons.inj h
            obtain ⟨hne, hlen, t, rfl, ht, hend⟩ := linesFrom_eq_cons hcons
            refine ⟨List.cons_ne_nil b l', Nat.succ_le_succ hlen, t, rfl, ht, fun hlt hlast => ?_⟩
            refine hend (Nat.lt_of_succ_lt_succ hlt) fun hl' => hlast ?_
            obtain ⟨c, l'', rfl⟩ := List.exists_cons_of_ne_nil hne
            rwa [List.getLast?_cons_cons]

theorem lines_eq_cons {n : Nat} {s l : List Byte} {ls : List (List Byte)}
    (h : lines n s = l :: ls) :
    l ≠ [] ∧ l.length ≤ n + 1 ∧ ∃ t, s = l ++ t ∧ ls = lines n t ∧
      (l.length < n + 1 → l.getLast? ≠ some 0x0a → t = []) :=
  linesFrom_eq_cons h

/-! ### Sequences of lines -/

/-- One line: a single line feed, at its end. -/
def IsLine (l : List Byte) : Prop := ∃ t, (0x0a : Byte) ∉ t ∧ l = t ++ [0x0a]

/-- The line feed that ends a sequence of lines. -/
theorem flatten_eq_append {ls : List (List Byte)} (h : ∀ l ∈ ls, IsLine l) (hne : ls ≠ []) :
    ∃ t, ls.flatten = t ++ [0x0a] := by
  obtain ⟨ls', l, rfl⟩ := (List.eq_nil_or_concat' ls).resolve_left hne
  obtain ⟨t, -, ht⟩ := h l (by simp)
  exact ⟨ls'.flatten ++ t, by rw [List.flatten_append, List.flatten_singleton, ht,
    List.append_assoc]⟩

/-- **A cut behind a line feed** leaves the last of the lines. -/
theorem exists_drop_of_cut {ls : List (List Byte)} (h : ∀ l ∈ ls, IsLine l) {a b : List Byte}
    (he : ls.flatten = a ++ b) (ha : a = [] ∨ ∃ t, a = t ++ [0x0a]) :
    ∃ j, j ≤ ls.length ∧ b = (ls.drop j).flatten := by
  induction ls generalizing a with
  | nil =>
      obtain ⟨-, rfl⟩ := List.append_eq_nil_iff.mp he.symm
      exact ⟨0, le_refl 0, rfl⟩
  | cons l ls ih =>
      rcases ha with rfl | ⟨t, rfl⟩
      · exact ⟨0, Nat.zero_le _, he.symm⟩
      obtain ⟨u, hu, rfl⟩ := h l List.mem_cons_self
      rw [List.flatten_cons] at he
      rcases List.append_eq_append_iff.mp he with ⟨a', ha', hls⟩ | ⟨c, hc, -⟩
      · -- the cut lies behind the first line
        have hcut : a' = [] ∨ ∃ t', a' = t' ++ [0x0a] := by
          rcases List.eq_nil_or_concat' a' with rfl | ⟨t', x, rfl⟩
          · exact .inl rfl
          · rw [← List.append_assoc] at ha'
            obtain ⟨-, hx⟩ := List.append_inj' ha' rfl
            exact .inr ⟨t', by rw [List.cons.inj hx.symm |>.1]⟩
        obtain ⟨j, hj, hb⟩ := ih (fun l hl => h l (List.mem_cons_of_mem _ hl)) hls hcut
        exact ⟨j + 1, Nat.succ_le_succ hj, hb⟩
      · -- the cut lies in the first line, whose only line feed is its last byte
        rcases List.eq_nil_or_concat' c with rfl | ⟨c', x, rfl⟩
        · have htu : u ++ [0x0a] = t ++ [0x0a] := by simpa using hc
          rw [htu] at he
          exact ⟨1, by simp, (List.append_cancel_left he).symm⟩
        · rw [← List.append_assoc] at hc
          obtain ⟨hut, -⟩ := List.append_inj' hc rfl
          exact absurd (by simp [hut]) hu

end CLib
