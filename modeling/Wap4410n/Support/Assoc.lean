import Mathlib.Data.List.Nodup

/-!
# Support — finite maps kept as ordered lists

A list of pairs with distinct keys, read by `List.lookup`, is a finite map with an order.
`upsert` gives a key a value: in place where the key is present, at the end where it is not.

* `lookup_upsert`: the key reads the new value, every other key what it read before.
* `keys_upsert`, `nodup_upsert`: the order of the keys is kept, a new key comes last, and the keys
  stay distinct.
* `erase`: an entry is removed and the others keep their order.
* `upsertAll`: a sequence of updates; the last value given to a key is the one it reads
  (`lookup_upsertAll_last`), and a key given none keeps its own (`lookup_upsertAll_of_notMem`).
-/

namespace CLib.Assoc

variable {α β : Type} [DecidableEq α]

/-- The keys, in order. -/
def keys (l : List (α × β)) : List α := l.map Prod.fst

/-- `k` given the value `v`: in place, or at the end when `k` is new. -/
def upsert (k : α) (v : β) : List (α × β) → List (α × β)
  | [] => [(k, v)]
  | (a, b) :: l => if a = k then (a, v) :: l else (a, b) :: upsert k v l

/-- Updates, one after the other. -/
def upsertAll (l : List (α × β)) (cs : List (α × β)) : List (α × β) :=
  cs.foldl (fun l c => upsert c.1 c.2 l) l

omit [DecidableEq α] in
@[simp] theorem keys_nil : keys ([] : List (α × β)) = [] := rfl

omit [DecidableEq α] in
@[simp] theorem keys_cons (p : α × β) (l : List (α × β)) : keys (p :: l) = p.1 :: keys l := rfl

theorem lookup_cons_eq (a : α) (b : β) (l : List (α × β)) (j : α) :
    ((a, b) :: l).lookup j = if j = a then some b else l.lookup j := by
  by_cases h : j = a
  · simp [h]
  · rw [List.lookup_cons, beq_false_of_ne h, if_neg h]

theorem lookup_upsert (k : α) (v : β) (j : α) (l : List (α × β)) :
    (upsert k v l).lookup j = if j = k then some v else l.lookup j := by
  induction l with
  | nil => rw [upsert, lookup_cons_eq]
  | cons p l ih =>
      obtain ⟨a, b⟩ := p
      by_cases ha : a = k
      · subst ha
        by_cases h : j = a <;> simp [upsert, lookup_cons_eq, h]
      · by_cases h : j = a
        · subst h; simp [upsert, ha]
        · simp [upsert, ha, lookup_cons_eq, h, ih]

theorem keys_upsert (k : α) (v : β) (l : List (α × β)) :
    keys (upsert k v l) = if k ∈ keys l then keys l else keys l ++ [k] := by
  induction l with
  | nil => simp [upsert]
  | cons p l ih =>
      obtain ⟨a, b⟩ := p
      by_cases ha : a = k
      · simp [upsert, ha]
      · by_cases hk : k ∈ keys l
        · simp [upsert, ha, ih, hk]
        · simp [upsert, ha, ih, hk, Ne.symm ha]

theorem nodup_upsert {l : List (α × β)} (h : (keys l).Nodup) (k : α) (v : β) :
    (keys (upsert k v l)).Nodup := by
  rw [keys_upsert]
  split
  · exact h
  · rename_i hk
    exact List.nodup_append.mpr ⟨h, by simp, fun a ha b hb => by
      rw [List.mem_singleton.mp hb]; exact fun e => hk (e ▸ ha)⟩

/-- A key that is new is appended. -/
theorem upsert_of_notMem {l : List (α × β)} {k : α} (h : k ∉ keys l) (v : β) :
    upsert k v l = l ++ [(k, v)] := by
  induction l with
  | nil => rfl
  | cons p l ih =>
      obtain ⟨a, b⟩ := p
      simp only [keys_cons, List.mem_cons, not_or] at h
      simp [upsert, Ne.symm h.1, ih h.2]

omit [DecidableEq α] in
/-- A key with its value, split off the list: it stands nowhere before. -/
theorem exists_split {l : List (α × β)} {k : α} (h : k ∈ keys l) :
    ∃ pre v post, l = pre ++ (k, v) :: post ∧ k ∉ keys pre := by
  induction l with
  | nil => cases h
  | cons p l ih =>
      obtain ⟨a, b⟩ := p
      by_cases e : a = k
      · exact ⟨[], b, l, by rw [e]; rfl, by simp⟩
      · have hk : k ∈ keys l := by
          rcases List.mem_cons.mp h with h | h
          · exact absurd h.symm e
          · exact h
        obtain ⟨pre, v, post, rfl, hpre⟩ := ih hk
        exact ⟨(a, b) :: pre, v, post, rfl, by simp [hpre, Ne.symm e]⟩

/-- A key that is present is given its value in place. -/
theorem upsert_append {pre : List (α × β)} {k : α} (h : k ∉ keys pre) (v u : β)
    (post : List (α × β)) : upsert k v (pre ++ (k, u) :: post) = pre ++ (k, v) :: post := by
  induction pre with
  | nil => simp [upsert]
  | cons p pre ih =>
      obtain ⟨a, b⟩ := p
      simp only [keys_cons, List.mem_cons, not_or] at h
      simp [upsert, Ne.symm h.1, ih h.2]

theorem lookup_append_of_notMem {pre : List (α × β)} {k : α} (h : k ∉ keys pre)
    (l : List (α × β)) : (pre ++ l).lookup k = l.lookup k := by
  induction pre with
  | nil => rfl
  | cons p pre ih =>
      obtain ⟨a, b⟩ := p
      simp only [keys_cons, List.mem_cons, not_or] at h
      simp [lookup_cons_eq, h.1, ih h.2]

theorem lookup_eq_none {l : List (α × β)} {k : α} : l.lookup k = none ↔ k ∉ keys l := by
  induction l with
  | nil => simp
  | cons p l ih =>
      obtain ⟨a, b⟩ := p
      by_cases h : k = a <;> simp [lookup_cons_eq, h, ih]

/-! ### Removal -/

/-- `l` without the first entry of `k`. -/
def erase (k : α) (l : List (α × β)) : List (α × β) := l.eraseP (·.1 = k)

theorem erase_append {pre : List (α × β)} {k : α} (h : k ∉ keys pre) (v : β)
    (post : List (α × β)) : erase k (pre ++ (k, v) :: post) = pre ++ post := by
  have hpre : ∀ p ∈ pre, ¬ decide (p.1 = k) = true := fun p hp e =>
    h (List.mem_map.mpr ⟨p, hp, by simpa using e⟩)
  rw [erase, List.eraseP_append_right _ hpre, List.eraseP_cons_of_pos (by simp)]

/-- The others stay, in their order. -/
theorem keys_erase_sublist (k : α) (l : List (α × β)) : (keys (erase k l)).Sublist (keys l) :=
  List.Sublist.map _ List.eraseP_sublist

theorem nodup_erase {l : List (α × β)} (h : (keys l).Nodup) (k : α) : (keys (erase k l)).Nodup :=
  h.sublist (keys_erase_sublist k l)

/-! ### Sequences of updates -/

@[simp] theorem upsertAll_nil (l : List (α × β)) : upsertAll l [] = l := rfl

@[simp] theorem upsertAll_cons (l : List (α × β)) (c : α × β) (cs : List (α × β)) :
    upsertAll l (c :: cs) = upsertAll (upsert c.1 c.2 l) cs := rfl

theorem upsertAll_append (l cs ds : List (α × β)) :
    upsertAll l (cs ++ ds) = upsertAll (upsertAll l cs) ds :=
  List.foldl_append

theorem nodup_upsertAll {l : List (α × β)} (h : (keys l).Nodup) (cs : List (α × β)) :
    (keys (upsertAll l cs)).Nodup := by
  induction cs generalizing l with
  | nil => exact h
  | cons c cs ih => exact ih (nodup_upsert h c.1 c.2)

/-- A key no update names keeps its value. -/
theorem lookup_upsertAll_of_notMem {cs : List (α × β)} {j : α} (h : j ∉ keys cs)
    (l : List (α × β)) : (upsertAll l cs).lookup j = l.lookup j := by
  induction cs generalizing l with
  | nil => rfl
  | cons c cs ih =>
      simp only [keys_cons, List.mem_cons, not_or] at h
      rw [upsertAll_cons, ih h.2, lookup_upsert, if_neg h.1]

/-- A key reads the last value an update gave it. -/
theorem lookup_upsertAll_last (l pre post : List (α × β)) {k : α} {v : β} (h : k ∉ keys post) :
    (upsertAll l (pre ++ (k, v) :: post)).lookup k = some v := by
  rw [upsertAll_append, upsertAll_cons, lookup_upsertAll_of_notMem h, lookup_upsert, if_pos rfl]

/-- The keys keep their order; each new key comes last, in the order of the updates. -/
theorem keys_upsertAll (l cs : List (α × β)) :
    keys (upsertAll l cs) =
      (keys cs).foldl (fun ks k => if k ∈ ks then ks else ks ++ [k]) (keys l) := by
  induction cs generalizing l with
  | nil => rfl
  | cons c cs ih =>
      rw [upsertAll_cons, ih, keys_upsert]
      rfl

end CLib.Assoc
