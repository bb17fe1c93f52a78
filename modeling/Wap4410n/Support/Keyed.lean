import Mathlib.Data.List.Lex
import Mathlib.Order.Lattice

/-!
# Support — lists in the order of a key

A list whose elements are kept in the strict order of a key.  `place` puts an element into the place
of its key, where one of the same key makes way; `lookup` finds the first element of a key, and
`next` the first element behind a key; `Walk` is what a reader visits who asks for the next element
again and again until there is none.

* `increasing_place`, `lookup_place`: the order is kept, and one key reads something else.
* `lookup_placeAll`: of all the elements placed the last one of a key is found.
* `next_eq_some`: the next element is the least one behind the key.
* `walk_next`: a walk visits every element behind its start once, in order, and ends.
-/

namespace CLib.Keyed

variable {α κ : Type} [LinearOrder κ] (key : α → κ)

/-! ### Placing -/

/-- The keys are strictly increasing. -/
def Increasing (l : List α) : Prop := l.Pairwise fun x y => key x < key y

/-- The list with `x` in the place of its key. -/
def place (l : List α) (x : α) : List α :=
  l.filter (key · < key x) ++ x :: l.filter (key x < key ·)

/-- The first element of the key `k`. -/
def lookup (l : List α) (k : κ) : Option α := l.find? (key · = k)

/-- The elements placed one after the other. -/
def placeAll (l xs : List α) : List α := xs.foldl (place key) l

variable {key} {l : List α} {x y : α} {k : κ}

theorem increasing_nil : Increasing key [] := List.Pairwise.nil

theorem mem_place : y ∈ place key l x ↔ y = x ∨ y ∈ l ∧ key y ≠ key x := by
  rw [place, List.mem_append, List.mem_cons, List.mem_filter, List.mem_filter]
  simp only [decide_eq_true_iff, ne_iff_lt_or_gt]
  tauto

/-- **The order is kept.** -/
theorem increasing_place (h : Increasing key l) (x : α) : Increasing key (place key l x) := by
  refine List.pairwise_append.mpr ⟨h.filter _, List.pairwise_cons.mpr ⟨?_, h.filter _⟩, ?_⟩
  · intro y hy
    exact of_decide_eq_true (List.mem_filter.mp hy).2
  · intro y hy z hz
    have hyx : key y < key x := of_decide_eq_true (List.mem_filter.mp hy).2
    rcases List.mem_cons.mp hz with rfl | hz
    · exact hyx
    · exact hyx.trans (of_decide_eq_true (List.mem_filter.mp hz).2)

/-- What a list reads at a key that its filter leaves out, or keeps. -/
theorem lookup_filter {p : α → Bool} {b : Bool} (hp : ∀ y, key y = k → p y = b) :
    lookup key (l.filter p) k = if b then lookup key l k else none := by
  induction l with
  | nil => simp [lookup]
  | cons y l ih =>
      rw [lookup] at ih ⊢
      rw [List.filter_cons]
      by_cases hy : key y = k
      · have hpy := hp y hy
        cases b <;> simp_all [lookup]
      · split <;> simp_all [lookup]

/-- **One key reads the element placed**, and the others what they did. -/
theorem lookup_place (l : List α) (x : α) (k : κ) :
    lookup key (place key l x) k = if key x = k then some x else lookup key l k := by
  rw [place, lookup, List.find?_append, List.find?_cons, ← lookup, ← lookup]
  rcases lt_trichotomy k (key x) with h | rfl | h
  · rw [lookup_filter (b := true) (fun y hy => by simp [hy, h]), if_pos rfl,
      lookup_filter (b := false) (fun y hy => by simp [hy, h.le])]
    simp [h.ne']
  · rw [lookup_filter (b := false) (fun y hy => by simp [hy])]
    simp
  · rw [lookup_filter (b := false) (fun y hy => by simp [hy, h.le]),
      lookup_filter (b := true) (fun y hy => by simp [hy, h])]
    simp [h.ne]

/-- An element placed where a list is cut: those before it have smaller keys, those behind it
greater ones, and those of its own key go. -/
theorem place_cut (pre mid post : List α) (hpre : ∀ y ∈ pre, key y < key x)
    (hmid : ∀ y ∈ mid, key y = key x) (hpost : ∀ y ∈ post, key x < key y) :
    place key (pre ++ (mid ++ post)) x = pre ++ x :: post := by
  have hlow : (pre ++ (mid ++ post)).filter (key · < key x) = pre := by
    rw [List.filter_append, List.filter_append, List.filter_eq_self.mpr fun y hy => by
        simpa using hpre y hy,
      List.filter_eq_nil_iff.mpr fun y hy => by simp [hmid y hy],
      List.filter_eq_nil_iff.mpr fun y hy => by simpa using (hpost y hy).le]
    simp
  have hhigh : (pre ++ (mid ++ post)).filter (key x < key ·) = post := by
    rw [List.filter_append, List.filter_append, List.filter_eq_nil_iff.mpr fun y hy => by
        simpa using (hpre y hy).le,
      List.filter_eq_nil_iff.mpr fun y hy => by simp [hmid y hy],
      List.filter_eq_self.mpr fun y hy => by simpa using hpost y hy]
    simp
  rw [place, hlow, hhigh]

/-- Placing walks past the smaller keys, and takes the place of its own. -/
theorem place_cons (h : Increasing key (y :: l)) :
    place key (y :: l) x = if key y < key x then y :: place key l x
      else if key y = key x then x :: l else x :: y :: l := by
  obtain ⟨hy, -⟩ := List.pairwise_cons.mp h
  have hbehind : key x ≤ key y → ∀ z ∈ l, key x < key z := fun hle z hz => hle.trans_lt (hy z hz)
  split
  · rename_i hlt
    rw [place, List.filter_cons_of_pos (by simpa using hlt),
      List.filter_cons_of_neg (by simpa using hlt.le)]
    rfl
  · rename_i hge
    split
    · rename_i heq
      exact place_cut [] [y] l (fun _ h => nomatch h) (by simpa using heq)
        (hbehind heq.ge)
    · rename_i hne
      have hlt : key x < key y := lt_of_le_of_ne (not_lt.mp hge) (Ne.symm hne)
      exact place_cut [] [] (y :: l) (fun _ h => nomatch h) (fun _ h => nomatch h)
        (by simpa using ⟨hlt, hbehind hlt.le⟩)

/-- **The last one placed is found.** -/
theorem lookup_placeAll (l xs : List α) (k : κ) :
    lookup key (placeAll key l xs) k = (lookup key xs.reverse k).or (lookup key l k) := by
  induction xs generalizing l with
  | nil => rfl
  | cons x xs ih =>
      have hx : lookup key (xs.reverse ++ [x]) k =
          (lookup key xs.reverse k).or (if key x = k then some x else none) := by
        rw [lookup, List.find?_append, ← lookup, List.find?_singleton]
        simp
      rw [placeAll, List.foldl_cons, ← placeAll, ih, lookup_place, List.reverse_cons, hx,
        Option.or_assoc]
      congr 1
      split <;> rfl

/-- In an increasing list a key leads to one element. -/
theorem lookup_eq_some (h : Increasing key l) :
    lookup key l k = some x ↔ x ∈ l ∧ key x = k := by
  induction l with
  | nil => simp [lookup]
  | cons y l ih =>
      obtain ⟨hy, hl⟩ := List.pairwise_cons.mp h
      rw [lookup, List.find?_cons, ← lookup]
      by_cases hk : key y = k
      · simp only [hk, decide_true]
        constructor
        · intro e
          cases e
          exact ⟨List.mem_cons_self, hk⟩
        · rintro ⟨hx, hxk⟩
          rcases List.mem_cons.mp hx with rfl | hx
          · rfl
          · exact absurd (hk.trans hxk.symm) (hy x hx).ne
      · simp only [hk, decide_false]
        rw [ih hl, List.mem_cons]
        constructor
        · rintro ⟨hx, hxk⟩
          exact ⟨.inr hx, hxk⟩
        · rintro ⟨rfl | hx, hxk⟩
          · exact absurd hxk hk
          · exact ⟨hx, hxk⟩

/-! ### Walking -/

variable (key) in
/-- The first element behind the key `q`. -/
def next (l : List α) (q : κ) : Option α := l.find? (q < key ·)

variable (key) in
/-- The elements behind the key `q`. -/
def behind (l : List α) (q : κ) : List α := l.filter (q < key ·)

/-- **The next element** is the least one behind the key. -/
theorem next_eq_some (h : Increasing key l) {q : κ} :
    next key l q = some x ↔ x ∈ l ∧ q < key x ∧ ∀ y ∈ l, q < key y → key x ≤ key y := by
  induction l with
  | nil => simp [next]
  | cons z l ih =>
      obtain ⟨hz, hl⟩ := List.pairwise_cons.mp h
      rw [next, List.find?_cons]
      by_cases hq : q < key z
      · simp only [hq, decide_true, Option.some.injEq]
        constructor
        · rintro rfl
          refine ⟨List.mem_cons_self, hq, ?_⟩
          intro y hy _
          rcases List.mem_cons.mp hy with rfl | hy
          · exact le_rfl
          · exact (hz y hy).le
        · rintro ⟨hx, -, hle⟩
          rcases List.mem_cons.mp hx with rfl | hx
          · rfl
          · exact absurd (hz x hx) (not_lt_of_ge (hle z List.mem_cons_self hq))
      · simp only [hq, decide_false]
        rw [← next, ih hl]
        constructor
        · rintro ⟨hx, hqx, hle⟩
          refine ⟨List.mem_cons_of_mem z hx, hqx, ?_⟩
          intro y hy hqy
          rcases List.mem_cons.mp hy with rfl | hy
          · exact absurd hqy hq
          · exact hle y hy hqy
        · rintro ⟨hx, hqx, hle⟩
          rcases List.mem_cons.mp hx with rfl | hx
          · exact absurd hqx hq
          · exact ⟨hx, hqx, fun y hy => hle y (List.mem_cons_of_mem z hy)⟩

theorem next_eq_none {q : κ} : next key l q = none ↔ ∀ y ∈ l, ¬ q < key y := by
  simp [next]

variable (key) in
/-- The elements a reader visits from the key `q` on, with `step` for what an inquiry returns. -/
inductive Walk (step : κ → Option α) : κ → List α → Prop where
  | stop {q : κ} (h : step q = none) : Walk step q []
  | go {q : κ} {x : α} {xs : List α} (h : step q = some x) (t : Walk step (key x) xs) :
      Walk step q (x :: xs)

/-- **A walk** visits what lies behind its start, once and in order, and ends. -/
theorem walk_next (h : Increasing key l) (q : κ) :
    Walk key (next key l) q (behind key l q) := by
  -- on what lies behind the start
  generalize hn : (behind key l q).length = n
  induction n generalizing q with
  | zero =>
      have hnil := List.length_eq_zero_iff.mp hn
      rw [hnil]
      exact .stop (next_eq_none.mpr fun y hy => by
        simpa using List.filter_eq_nil_iff.mp hnil y hy)
  | succ n ih =>
      obtain ⟨x, xs, hx⟩ := List.exists_cons_of_length_eq_add_one hn
      have hfirst : next key l q = some x := by
        rw [next, ← List.head?_filter, ← behind, hx, List.head?_cons]
      obtain ⟨-, hqx, hle⟩ := (next_eq_some h).mp hfirst
      have hrest : behind key l (key x) = xs := by
        have hinc : Increasing key (x :: xs) := hx ▸ h.filter _
        have hsub : (behind key l q).filter (key x < key ·) = behind key l (key x) := by
          rw [behind, List.filter_filter]
          exact List.filter_congr fun y _ => by
            simpa using fun hy => hqx.trans hy
        rw [← hsub, hx, List.filter_cons_of_neg (by simp)]
        exact List.filter_eq_self.mpr fun y hy =>
          decide_eq_true ((List.pairwise_cons.mp hinc).1 y hy)
      rw [hx]
      refine .go hfirst ?_
      rw [← hrest]
      refine ih (key x) ?_
      rw [hx, List.length_cons] at hn
      rw [hrest]
      exact Nat.succ_injective hn

end CLib.Keyed
