import Mathlib.Data.List.Perm.Basic
import Wap4410n.Apcfg.Wlan

/-!
# Apcfg — the list of VLANs in use

`apCfgVlanListApply` sorts six ids with `scCompositor`, a quicksort in place, and prints each that
differs from the one before it.  A run of `scCompositor` is a derivation of `Compositor`, one call a
rule: the range of a call may be empty, with its right end before its left one.

* `compositor_sorts`: a call returns, and sorts its range.
* `Compositor.eq`: what is returned is that of the function with a depth.
* `apCfgVlanListApply_sorted`: the list that is stored.
-/

namespace Wap4410n.Apcfg

open CLib

/-! ### Runs of `scCompositor` -/

/-- The range around its pivot, and the index of the pivot. -/
def compositorPart (v : List Int) (left right : Nat) : List Int × Nat :=
  let r := compositorLoop left (List.range' (left + 1) (right - left))
    (scSwap v left ((left + right) / 2)) left
  (scSwap r.1 left r.2, r.2)

/-- `scCompositor(v, left, right)` leaves `w`. -/
inductive Compositor : List Int → Nat → Int → List Int → Prop where
  | done {v : List Int} {left : Nat} {right : Int} (h : right ≤ left) : Compositor v left right v
  | sort {v w w' : List Int} {left : Nat} {right : Int} (h : left < right)
      (hl : Compositor (compositorPart v left right.toNat).1 left
        ((compositorPart v left right.toNat).2 - 1) w)
      (hr : Compositor w ((compositorPart v left right.toNat).2 + 1) right w') :
      Compositor v left right w'

/-! ### Swaps -/

theorem scSwap_self (a : List Int) (x : Int) (b : List Int) :
    scSwap (a ++ x :: b) a.length a.length = a ++ x :: b := by
  simp [scSwap]

theorem scSwap_cut (a : List Int) (x : Int) (b : List Int) (y : Int) (c : List Int) :
    scSwap (a ++ x :: (b ++ y :: c)) a.length (a.length + 1 + b.length) =
      a ++ y :: (b ++ x :: c) := by
  have hsplit : ∀ z, a ++ z :: (b ++ y :: c) = (a ++ z :: b) ++ y :: c := fun z => by simp
  have hlen : ∀ z, a.length + 1 + b.length = (a ++ z :: b).length := fun z => by
    rw [List.length_append, List.length_cons]
    omega
  have hx : (a ++ x :: (b ++ y :: c)).getD a.length 0 = x := by simp
  have hy : (a ++ x :: (b ++ y :: c)).getD (a.length + 1 + b.length) 0 = y := by
    rw [hsplit, hlen x]
    simp
  rw [scSwap, hx, hy, List.set_append_right _ _ (Nat.le_refl _), Nat.sub_self, List.set_cons_zero,
    hsplit, hlen y, List.set_append_right _ _ (Nat.le_refl _), Nat.sub_self, List.set_cons_zero]
  simp

/-! ### The partition -/

section Partition

variable {pre post : List Int} {p : Int}

/-- **The loop** keeps what is below the pivot before `last`, and the others behind it. -/
theorem compositorLoop_spec : ∀ (rest : List Int) {lows highs : List Int}, (∀ x ∈ lows, x < p) →
    (∀ x ∈ highs, p ≤ x) → ∃ lows' highs',
      compositorLoop pre.length
          (List.range' (pre.length + 1 + (lows.length + highs.length)) rest.length)
          (pre ++ p :: (lows ++ (highs ++ (rest ++ post)))) (pre.length + lows.length) =
        (pre ++ p :: (lows' ++ (highs' ++ post)), pre.length + lows'.length) ∧
      (lows' ++ highs').Perm (lows ++ (highs ++ rest)) ∧
      (∀ x ∈ lows', x < p) ∧ ∀ x ∈ highs', p ≤ x
  | [], lows, highs, hlow, hhigh => ⟨lows, highs, by simp [compositorLoop], by simp, hlow, hhigh⟩
  | x :: rest, lows, highs, hlow, hhigh => by
      have hpivot :
          (pre ++ p :: (lows ++ (highs ++ (x :: rest ++ post)))).getD pre.length 0 = p := by
        simp
      have hcut : pre ++ p :: (lows ++ (highs ++ (x :: rest ++ post))) =
          (pre ++ p :: (lows ++ highs)) ++ x :: (rest ++ post) := by simp
      have hlen :
          pre.length + 1 + (lows.length + highs.length) = (pre ++ p :: (lows ++ highs)).length := by
        simp
        omega
      have hitem : (pre ++ p :: (lows ++ (highs ++ (x :: rest ++ post)))).getD
          (pre.length + 1 + (lows.length + highs.length)) 0 = x := by
        rw [hcut, hlen]
        simp
      rw [List.length_cons, List.range'_succ, compositorLoop, hpivot, hitem]
      by_cases hx : x < p
      · rw [if_pos hx]
        have hlow' : ∀ y ∈ lows ++ [x], y < p := fun y hy => by
          rcases List.mem_append.mp hy with hy | hy
          · exact hlow y hy
          · rwa [List.mem_singleton.mp hy]
        cases highs with
        | nil =>
            have hswap := scSwap_self (pre ++ p :: lows) x (rest ++ post)
            have hlast : (pre ++ p :: lows).length = pre.length + lows.length + 1 := by
              simp
              omega
            obtain ⟨lows', highs', hloop, hperm, hl, hh⟩ :=
              compositorLoop_spec rest hlow' hhigh
            refine ⟨lows', highs', ?_, by simpa using hperm, hl, hh⟩
            rw [← hloop]
            rw [hlast] at hswap
            simp only [List.append_assoc, List.cons_append, List.nil_append, List.length_nil,
              List.length_append, List.length_cons, Nat.add_zero, Nat.zero_add] at hswap ⊢
            rw [show pre.length + 1 + lows.length = pre.length + lows.length + 1 by omega, hswap,
              show pre.length + 1 + (lows.length + 1) = pre.length + lows.length + 1 + 1 by omega]
            rfl
        | cons h hs =>
            have hswap := scSwap_cut (pre ++ p :: lows) h hs x (rest ++ post)
            have hlast : (pre ++ p :: lows).length = pre.length + lows.length + 1 := by
              simp
              omega
            have hhigh' : ∀ y ∈ hs ++ [h], p ≤ y := fun y hy =>
              hhigh y ((List.perm_append_singleton h hs).mem_iff.mp hy)
            obtain ⟨lows', highs', hloop, hperm, hl, hh⟩ :=
              compositorLoop_spec rest hlow' hhigh'
            refine ⟨lows', highs', ?_, hperm.trans ?_, hl, hh⟩
            · rw [← hloop]
              rw [hlast] at hswap
              simp only [List.append_assoc, List.cons_append, List.nil_append, List.length_nil,
                List.length_append, List.length_cons, Nat.zero_add] at hswap ⊢
              rw [show pre.length + 1 + (lows.length + (hs.length + 1)) =
                pre.length + lows.length + 1 + 1 + hs.length by omega, hswap,
                show pre.length + 1 + (lows.length + 1 + (hs.length + 1)) =
                  pre.length + lows.length + 1 + 1 + hs.length + 1 by omega]
              rfl
            · rw [List.append_assoc]
              refine List.Perm.append_left lows ?_
              have hrotate : (x :: (hs ++ [h] ++ rest)).Perm (x :: (h :: hs ++ rest)) :=
                ((List.perm_append_singleton h hs).append_right rest).cons x
              exact hrotate.trans List.perm_middle.symm
      · rw [if_neg hx]
        have hhigh' : ∀ y ∈ highs ++ [x], p ≤ y := fun y hy => by
          rcases List.mem_append.mp hy with hy | hy
          · exact hhigh y hy
          · rw [List.mem_singleton.mp hy]
            omega
        obtain ⟨lows', highs', hloop, hperm, hl, hh⟩ :=
          compositorLoop_spec rest hlow hhigh'
        refine ⟨lows', highs', ?_, ?_, hl, hh⟩
        · rw [← hloop]
          simp [Nat.add_assoc]
        · simpa using hperm

/-- **The partition** of a range that is not empty. -/
theorem compositorPart_spec {mid : List Int} (pre post : List Int) (hne : mid ≠ []) :
    ∃ p lows highs,
      compositorPart (pre ++ (mid ++ post)) pre.length (pre.length + mid.length - 1) =
        (pre ++ (lows ++ p :: (highs ++ post)), pre.length + lows.length) ∧
      (lows ++ p :: highs).Perm mid ∧ (∀ x ∈ lows, x < p) ∧ ∀ x ∈ highs, p ≤ x := by
  -- the pivot is brought to the front
  have hfirst : ∃ p ms, scSwap (pre ++ (mid ++ post)) pre.length
      ((pre.length + (pre.length + mid.length - 1)) / 2) = pre ++ p :: (ms ++ post) ∧
      (p :: ms).Perm mid := by
    obtain ⟨x, ms, rfl⟩ := List.exists_cons_of_ne_nil hne
    obtain ⟨j, hj, hlt⟩ : ∃ j, (pre.length + (pre.length + (x :: ms).length - 1)) / 2 =
        pre.length + j ∧ j ≤ ms.length := by
      rw [List.length_cons]
      exact ⟨ms.length / 2, by omega, by omega⟩
    rw [hj]
    cases j with
    | zero => exact ⟨x, ms, scSwap_self pre x (ms ++ post), .refl _⟩
    | succ j =>
        obtain ⟨a, y, b, rfl, hlen⟩ : ∃ a y b, ms = a ++ y :: b ∧ a.length = j := by
          refine ⟨ms.take j, ms[j], ms.drop (j + 1), ?_, by rw [List.length_take]; omega⟩
          rw [List.getElem_cons_drop, List.take_append_drop]
        have hswap := scSwap_cut pre x a y (b ++ post)
        rw [hlen, Nat.add_assoc, Nat.add_comm 1] at hswap
        refine ⟨y, a ++ x :: b, by simpa using hswap, ?_⟩
        have hfront : (y :: (a ++ x :: b)).Perm (y :: x :: (a ++ b)) := List.perm_middle.cons y
        have hback : (x :: (a ++ y :: b)).Perm (x :: y :: (a ++ b)) := List.perm_middle.cons x
        exact hfront.trans ((List.Perm.swap x y (a ++ b)).trans hback.symm)
  obtain ⟨p, ms, hswap, hperm⟩ := hfirst
  have hms : ms.length + 1 = mid.length := by
    have := hperm.length_eq
    rwa [List.length_cons] at this
  obtain ⟨lows, highs, hloop, hparts, hl, hh⟩ :=
    @compositorLoop_spec pre post p ms [] []
      (fun _ h => (nomatch h)) fun _ h => (nomatch h)
  simp only [List.nil_append, List.length_nil, Nat.add_zero] at hloop hparts
  have hpart : compositorPart (pre ++ (mid ++ post)) pre.length (pre.length + mid.length - 1) =
      (scSwap (pre ++ p :: (lows ++ (highs ++ post))) pre.length (pre.length + lows.length),
        pre.length + lows.length) := by
    rw [compositorPart, hswap, show pre.length + mid.length - 1 - pre.length = ms.length by omega]
    simp only [hloop]
  rw [hpart]
  -- the pivot is swapped with the last of what is below it
  rcases List.eq_nil_or_concat lows with rfl | ⟨a, y, rfl⟩
  · refine ⟨p, [], highs, ?_, (hparts.cons p).trans hperm, hl, hh⟩
    have hself := scSwap_self pre p (highs ++ post)
    simpa using hself
  · have hcut := scSwap_cut pre p a y (highs ++ post)
    have hrotate : (y :: a).Perm (a.concat y) := by
      rw [List.concat_eq_append]
      exact (List.perm_append_singleton y a).symm
    refine ⟨p, y :: a, highs, ?_, ?_, fun x hx => hl x (hrotate.mem_iff.mp hx), hh⟩
    · rw [Nat.add_assoc, Nat.add_comm 1] at hcut
      simpa using hcut
    · have hmiddle : (y :: a ++ p :: highs).Perm (p :: (y :: a ++ highs)) := List.perm_middle
      exact hmiddle.trans ((((hrotate.append_right highs).trans hparts).cons p).trans hperm)

end Partition

/-! ### Sorted ranges -/

/-- **A range** is sorted by a run, whatever stands around it. -/
theorem exists_compositor (mid pre post : List Int) :
    ∃ mid', Compositor (pre ++ (mid ++ post)) pre.length (pre.length + mid.length - 1)
        (pre ++ (mid' ++ post)) ∧
      mid'.Perm mid ∧ mid'.Pairwise (· ≤ ·) := by
  by_cases hone : mid.length ≤ 1
  · refine ⟨mid, .done (by omega), .refl _, ?_⟩
    match mid, hone with
    | [], _ => exact .nil
    | [x], _ => exact List.pairwise_singleton _ x
  · have hne : mid ≠ [] := by
      rintro rfl
      exact hone (Nat.zero_le 1)
    obtain ⟨p, lows, highs, hpart, hperm, hlow, hhigh⟩ :=
      compositorPart_spec pre post hne
    have hlen : lows.length + (highs.length + 1) = mid.length := by
      rw [← hperm.length_eq, List.length_append, List.length_cons]
    -- both ranges are shorter: the pivot is in neither
    obtain ⟨lows', hl, hlperm, hlsorted⟩ :=
      exists_compositor lows pre (p :: (highs ++ post))
    obtain ⟨highs', hr, hrperm, hrsorted⟩ :=
      exists_compositor highs (pre ++ (lows' ++ [p])) post
    have hpre : (pre ++ (lows' ++ [p])).length = pre.length + lows.length + 1 := by
      simp only [List.length_append, List.length_singleton, hlperm.length_eq]
      omega
    have hright : ((pre.length : Int) + mid.length - 1).toNat = pre.length + mid.length - 1 := by
      omega
    refine ⟨lows' ++ p :: highs', .sort (w := pre ++ (lows' ++ p :: (highs ++ post)))
      (by omega) ?_ ?_, ?_, ?_⟩
    · rw [hright, hpart]
      simpa only [Int.natCast_add] using hl
    · rw [hright, hpart, ← hpre]
      have hend : ((pre ++ (lows' ++ [p])).length : Int) + highs.length - 1 =
          (pre.length : Int) + mid.length - 1 := by
        rw [hpre]
        omega
      rw [hend] at hr
      simpa using hr
    · exact (hlperm.append (hrperm.cons p)).trans hperm
    · refine List.pairwise_append.mpr ⟨hlsorted, List.pairwise_cons.mpr ⟨fun x hx => ?_, hrsorted⟩,
        fun x hx y hy => ?_⟩
      · exact hhigh x (hrperm.mem_iff.mp hx)
      · have hxp := hlow x (hlperm.mem_iff.mp hx)
        rcases List.mem_cons.mp hy with rfl | hy
        · omega
        · have hpy := hhigh y (hrperm.mem_iff.mp hy)
          omega
termination_by mid.length

/-- The loop stops at `right` at the latest. -/
theorem compositorLoop_last (left : Nat) : ∀ (is : List Nat) (v : List Int) (last : Nat),
    last ≤ (compositorLoop left is v last).2 ∧
      (compositorLoop left is v last).2 ≤ last + is.length
  | [], _, last => ⟨Nat.le_refl last, Nat.le_refl last⟩
  | i :: is, v, last => by
      rw [compositorLoop, List.length_cons]
      split
      · have ih := compositorLoop_last left is (scSwap v (last + 1) i) (last + 1)
        omega
      · have ih := compositorLoop_last left is v last
        omega

/-- The pivot stays in the range. -/
theorem compositorPart_last (v : List Int) {left right : Nat} (h : left ≤ right) :
    left ≤ (compositorPart v left right).2 ∧ (compositorPart v left right).2 ≤ right := by
  have hlast := compositorLoop_last left (List.range' (left + 1) (right - left))
    (scSwap v left ((left + right) / 2)) left
  rw [List.length_range'] at hlast
  exact ⟨hlast.1, by rw [compositorPart]; omega⟩

/-- A call of a range of two or more. -/
theorem scCompositor_succ (depth : Nat) (v : List Int) {left right : Nat} (h : left < right) :
    scCompositor (depth + 1) v left (right + 1 - left) =
      scCompositor depth
        (scCompositor depth (compositorPart v left right).1 left
          ((compositorPart v left right).2 - left))
        ((compositorPart v left right).2 + 1) (right - (compositorPart v left right).2) := by
  have hright : left + (right + 1 - left) - 1 = right := by omega
  have hlen : right + 1 - left - 1 = right - left := by omega
  rw [scCompositor, if_neg (by omega)]
  simp only [hright, hlen]
  rfl

/-- **What a run leaves** is what the function with a depth returns. -/
theorem Compositor.eq {v w : List Int} {left : Nat} {right : Int} (h : Compositor v left right w) :
    ∀ (depth : Nat), right - left < depth →
      scCompositor depth v left (right + 1 - left).toNat = w := by
  induction h with
  | done h =>
      intro depth _
      cases depth with
      | zero => rfl
      | succ depth => exact if_pos (by omega)
  | @sort v w w' left right h hl hr ihl ihr =>
      intro depth hdepth
      obtain ⟨depth, rfl⟩ : ∃ d, depth = d + 1 := ⟨depth - 1, by omega⟩
      obtain ⟨r, rfl⟩ : ∃ r : Nat, right = r := ⟨right.toNat, by omega⟩
      rw [Int.toNat_natCast] at hl hr ihl ihr
      have hlast := compositorPart_last v (show left ≤ r by omega)
      have hleft : ((compositorPart v left r).2 : Int) - 1 + 1 - left =
          ((compositorPart v left r).2 - left : Nat) := by omega
      have hrest : (r : Int) + 1 - ((compositorPart v left r).2 + 1 : Nat) =
          (r - (compositorPart v left r).2 : Nat) := by omega
      have hwhole : (r : Int) + 1 - left = (r + 1 - left : Nat) := by omega
      rw [hwhole, Int.toNat_natCast, scCompositor_succ depth v (by omega)]
      have hl' := ihl depth (by omega)
      have hr' := ihr depth (by omega)
      rw [hleft, Int.toNat_natCast] at hl'
      rw [hrest, Int.toNat_natCast] at hr'
      rw [hl', hr']

/-- `v[left..right]` -/
def slice (v : List Int) (left right : Nat) : List Int := (v.drop left).take (right + 1 - left)

/-- `w` is `v` with `v[left..right]` in ascending order. -/
structure Sorts (v : List Int) (left right : Nat) (w : List Int) : Prop where
  length : w.length = v.length
  before : w.take left = v.take left
  behind : w.drop (right + 1) = v.drop (right + 1)
  perm : (slice w left right).Perm (slice v left right)
  sorted : (slice w left right).Pairwise (· ≤ ·)

/-- **`scCompositor` returns**, and sorts its range. -/
theorem compositor_sorts {v : List Int} {left right : Nat} (hl : left < v.length)
    (hr : right < v.length) :
    ∃ w, Compositor v left right w ∧ (∀ w', Compositor v left right w' → w' = w) ∧
      Sorts v left right w := by
  have hunique : ∀ {w w'}, Compositor v left right w → Compositor v left right w' → w' = w :=
    fun h h' => (h'.eq (right + 1) (by omega)).symm.trans (h.eq (right + 1) (by omega))
  by_cases hempty : right < left
  · refine ⟨v, .done (by omega), fun w' h' => hunique (.done (by omega)) h', ?_⟩
    exact ⟨rfl, rfl, rfl, .refl _, by simp [slice, Nat.sub_eq_zero_of_le hempty]⟩
  -- the array is what stands before the range, the range and what stands behind it
  have hsplit : v = v.take left ++ (slice v left right ++ v.drop (right + 1)) := by
    have hdrop : v.drop (right + 1) = (v.drop left).drop (right + 1 - left) := by
      rw [List.drop_drop]
      congr 1
      omega
    rw [slice, hdrop, List.take_append_drop, List.take_append_drop]
  have hpre : (v.take left).length = left := by
    rw [List.length_take]
    omega
  have hmid : (slice v left right).length = right + 1 - left := by
    rw [slice, List.length_take, List.length_drop]
    omega
  obtain ⟨mid, hrun, hperm, hsorted⟩ :=
    exists_compositor (slice v left right) (v.take left) (v.drop (right + 1))
  have hend : (left : Int) + (right + 1 - left : Nat) - 1 = right := by omega
  rw [← hsplit, hpre, hmid, hend] at hrun
  have hlen : mid.length = right + 1 - left := hperm.length_eq.trans hmid
  have hslice : slice (v.take left ++ (mid ++ v.drop (right + 1))) left right = mid := by
    rw [slice, List.drop_left' hpre, List.take_left' hlen]
  refine ⟨_, hrun, fun w' h' => hunique hrun h', ?_, List.take_left' hpre, ?_, ?_, ?_⟩
  · conv_rhs => rw [hsplit]
    simp only [List.length_append, hlen, hmid]
  · rw [← List.append_assoc]
    refine List.drop_left' ?_
    rw [List.length_append, hpre, hlen]
    omega
  · rwa [hslice]
  · rwa [hslice]

/-- The whole of an array, sorted. -/
theorem scCompositor_sorts {v : List Int} (hne : v ≠ []) :
    (scCompositor v.length v 0 v.length).Perm v ∧
      (scCompositor v.length v 0 v.length).Pairwise (· ≤ ·) := by
  have hpos : 0 < v.length := List.length_pos_iff.mpr hne
  obtain ⟨w, hrun, -, hsorts⟩ := compositor_sorts hpos (show v.length - 1 < v.length by omega)
  have heq := hrun.eq v.length (by omega)
  have hwhole : ((v.length - 1 : Nat) : Int) + 1 - (0 : Nat) = (v.length : Nat) := by omega
  rw [hwhole, Int.toNat_natCast] at heq
  have hslice : ∀ {u : List Int}, u.length = v.length → slice u 0 (v.length - 1) = u := by
    intro u hu
    rw [slice, List.drop_zero, List.take_of_length_le (by omega)]
  have hperm := hsorts.perm
  have hsorted := hsorts.sorted
  rw [hslice hsorts.length, hslice rfl] at hperm
  rw [hslice hsorts.length] at hsorted
  rw [heq]
  exact ⟨hperm, hsorted⟩

/-! ### The text -/

/-- The ids in decimal, with a comma behind each. -/
def commaText (vs : List Int) : List Byte := vs.flatMap fun v => (CStr.ofInt v).bytes ++ [0x2c]

/-- **The ids of a sorted list** are printed once each, in order. -/
theorem exists_vlanStr : ∀ {l : List Int} (before : Option Int), l.Pairwise (· ≤ ·) →
    (∀ b, before = some b → ∀ x ∈ l, b ≤ x) →
    ∃ vs, (vlanStr before l).bytes = commaText vs ∧ vs.Pairwise (· < ·) ∧
      ∀ v, v ∈ vs ↔ v ∈ l ∧ before ≠ some v
  | [], _, _, _ => ⟨[], rfl, .nil, by simp⟩
  | d :: l, before, hsorted, hbefore => by
      obtain ⟨hd, hl⟩ := List.pairwise_cons.mp hsorted
      obtain ⟨vs, htext, hvs, hmem⟩ := exists_vlanStr (some d) hl fun b hb x hx => by
        obtain rfl := Option.some.inj hb
        exact hd x hx
      by_cases hrepeat : before = some d
      · refine ⟨vs, by rw [vlanStr, if_pos hrepeat, htext], hvs, fun v => ?_⟩
        rw [hmem, hrepeat, List.mem_cons]
        constructor
        · exact fun ⟨hv, hne⟩ => ⟨.inr hv, hne⟩
        · rintro ⟨rfl | hv, hne⟩
          · exact absurd rfl hne
          · exact ⟨hv, hne⟩
      · have hlt : ∀ x ∈ d :: l, before ≠ some x := by
          -- what was printed last is no greater than the first id, and not the same
          intro x hx hb
          have hle := hbefore x hb d List.mem_cons_self
          rcases List.mem_cons.mp hx with rfl | hx
          · exact hrepeat hb
          · have hdx := hd x hx
            exact hrepeat (hb.trans (congrArg some (Int.le_antisymm hle hdx)))
        refine ⟨d :: vs, ?_, List.pairwise_cons.mpr ⟨fun v hv => ?_, hvs⟩, fun v => ?_⟩
        · rw [vlanStr, if_neg hrepeat, CStr.bytes_append, CStr.bytes_append, htext]
          show _ = ((CStr.ofInt d).bytes ++ [0x2c]) ++ commaText vs
          rw [List.append_assoc]
          rfl
        · obtain ⟨hvl, hne⟩ := (hmem v).mp hv
          have hle := hd v hvl
          have hdv : d ≠ v := fun e => hne (congrArg some e)
          omega
        · rw [List.mem_cons, hmem]
          constructor
          · rintro (rfl | ⟨hv, -⟩)
            · exact ⟨List.mem_cons_self, hlt _ List.mem_cons_self⟩
            · exact ⟨List.mem_cons_of_mem d hv, hlt _ (List.mem_cons_of_mem d hv)⟩
          · rintro ⟨hv, -⟩
            by_cases hvd : v = d
            · exact .inl hvd
            · exact .inr
                ⟨(List.mem_cons.mp hv).resolve_left hvd, fun e => hvd (Option.some.inj e).symm⟩

/-- A VLAN id takes five characters with its comma. -/
theorem length_vlanStr_le : ∀ {l : List Int} (before : Option Int), (∀ v ∈ l, 1 ≤ v ∧ v ≤ 4094) →
    (vlanStr before l).length ≤ 5 * l.length
  | [], _, _ => Nat.zero_le _
  | d :: l, before, h => by
      obtain ⟨hlo, hhi⟩ := h d List.mem_cons_self
      have ih := length_vlanStr_le (some d) fun v hv => h v (List.mem_cons_of_mem d hv)
      have hcomma : (CStr.text ",").length = 1 := by decide
      have hdigits : (CStr.ofInt d).length ≤ 4 := by
        rw [CStr.length, bytes_ofInt (by omega) (by omega)]
        exact length_digits_lt (by omega)
      rw [vlanStr, List.length_cons]
      split
      · omega
      · rw [CStr.length_append, CStr.length_append, hcomma]
        omega

/-! ### `apCfgVlanListApply` -/

/-- The VLAN ids in use. -/
structure VlansInUse (unit : Nat) (c : Config) (native management : Int) (pvid : Nat → Int) :
    Prop where
  native : (apCfgNativeVlanIdGet c).1 = .ok native
  management : (apCfgManagementVlanIdGet c).1 = .ok management
  pvid : ∀ vap ∈ vaps, (apCfgVlanPvidGet unit vap c).1 = .ok (pvid vap)

/-- The PVIDs are read one by one. -/
theorem pvids_eq {unit : Nat} {c : Config} {pvid : Nat → Int} : ∀ {is : List Nat},
    (∀ vap ∈ is, (apCfgVlanPvidGet unit vap c).1 = .ok (pvid vap)) →
    pvids unit is c = (.ok (is.map pvid), c)
  | [], _ => rfl
  | vap :: is, h => by
      have hget : apCfgVlanPvidGet unit vap c = (.ok (pvid vap), c) := by
        have hread := h vap List.mem_cons_self
        unfold apCfgVlanPvidGet at hread ⊢
        rw [getNumber_eq] at hread ⊢
        exact Prod.ext hread rfl
      have ih := pvids_eq fun v hv => h v (List.mem_cons_of_mem vap hv)
      rw [pvids, Act.bind_ok hget, Act.bind_ok ih]
      rfl

/-- A list that is not that stored is stored. -/
theorem vlanListSet_get {c : Config} (p : CStr) (hfit : (c.get (.sys .vlanList)).length < 65) :
    ∃ c', vlanListSet p c = (.ok .ok, c') ∧ c'.get (.sys .vlanList) = p := by
  have hget : getText 65 (.sys .vlanList) c = (.ok (c.get (.sys .vlanList)), c) := by
    rw [getText_eq, if_pos hfit]
  by_cases hnew : p = c.get (.sys .vlanList)
  · refine ⟨c, ?_, hnew.symm⟩
    rw [vlanListSet, setNew, Act.bind_ok hget]
    simp only [Act.when, hnew, ne_eq, not_true_eq_false, if_false]
    rfl
  · refine ⟨(put (.sys .vlanList) p [aplVlan] c).2, ?_, ?_⟩
    · rw [vlanListSet, setNew, Act.bind_ok hget]
      simp only [Act.when, ne_eq, hnew, not_false_eq_true, if_true]
      rfl
    · have hflag : Keeps (.sys .vlanList) (Act.each aplSetFlag [aplVlan]) :=
        .each fun id _ => keeps_aplSetFlag id
      exact (hflag _).trans (Config.get_set_self c _ p)

/-- **`apCfgVlanListApply` stores** the different VLAN ids in use, in ascending order; the function
that sorts them returns for every array. -/
theorem apCfgVlanListApply_sorted {unit : Nat} {c : Config} {native management : Int}
    {pvid : Nat → Int} (huse : VlansInUse unit c native management pvid)
    (hids : ∀ v ∈ native :: management :: vaps.map pvid, 1 ≤ v ∧ v ≤ 4094)
    (hfit : (c.get (.sys .vlanList)).length < 65) :
    (∃ c' vs, apCfgVlanListApply unit c = (.ok .ok, c') ∧
      (c'.get (.sys .vlanList)).bytes = commaText vs ∧ vs.Pairwise (· < ·) ∧
      (∀ v, v ∈ vs ↔ v ∈ native :: management :: vaps.map pvid) ∧
      (c'.get (.sys .vlanList)).length < 65) ∧
    ∀ (v : List Int) (left right : Nat), left < v.length → right < v.length →
      ∃ w, Compositor v left right w ∧ (∀ w', Compositor v left right w' → w' = w) ∧
        Sorts v left right w := by
  refine ⟨?_, fun v left right hl hr => compositor_sorts hl hr⟩
  obtain ⟨hperm, hsorted⟩ := scCompositor_sorts (v := native :: management :: vaps.map pvid)
    (List.cons_ne_nil _ _)
  obtain ⟨vs, htext, hvs, hmem⟩ := exists_vlanStr none hsorted fun b hb => (nomatch hb)
  have hlen := length_vlanStr_le none fun v hv => hids v (hperm.mem_iff.mp hv)
  rw [hperm.length_eq] at hlen
  have hsix : (native :: management :: vaps.map pvid).length = 6 := rfl
  have hnative : apCfgNativeVlanIdGet c = (.ok native, c) := Prod.ext huse.native rfl
  have hmanagement : apCfgManagementVlanIdGet c = (.ok management, c) :=
    Prod.ext huse.management rfl
  have hpvids := pvids_eq huse.pvid
  obtain ⟨c', hset, hstored⟩ := vlanListSet_get (vlanStr none (scCompositor
    (native :: management :: vaps.map pvid).length (native :: management :: vaps.map pvid) 0
    (native :: management :: vaps.map pvid).length)) hfit
  refine ⟨c', vs, ?_, by rw [hstored, htext], hvs, fun v => ?_, by rw [hstored]; omega⟩
  · rw [apCfgVlanListApply, Act.bind_ok hnative, Act.bind_ok hmanagement, Act.bind_ok hpvids]
    have hstore := store_eq c .vlan 60 (vlanStr none (scCompositor
      (native :: management :: vaps.map pvid).length (native :: management :: vaps.map pvid) 0
      (native :: management :: vaps.map pvid).length))
    rw [if_pos (by omega)] at hstore
    exact (Act.bind_ok hstore _).trans (Act.bind_ok hset _)
  · rw [hmem, hperm.mem_iff]
    simp

/-- Four VLANs, of which two are in use twice. -/
def officeVlans : Config where
  get
    | .sys .vlanDefault => .text "1"
    | .sys .vlanManagement => .text "10"
    | .vap _ 1 .vid => .text "200"
    | .vap _ 2 .vid => .text "10"
    | .vap _ 3 .vid => .text "30"
    | .vap _ _ .vid => .text "1"
    | _ => .empty
  flags := []
  closed := false

theorem apCfgVlanListApply_sorted_office :
    ∃ c' vs, apCfgVlanListApply 0 officeVlans = (.ok .ok, c') ∧
      (c'.get (.sys .vlanList)).bytes = commaText vs ∧ vs.Pairwise (· < ·) ∧
      (∀ v, v ∈ vs ↔ v ∈ [1, 10, 1, 200, 10, 30]) ∧ (c'.get (.sys .vlanList)).length < 65 :=
  (@apCfgVlanListApply_sorted 0 officeVlans 1 10 (fun vap => [1, 200, 10, 30].getD vap 0)
    ⟨by decide, by decide, by decide⟩ (by decide) (by decide)).1

end Wap4410n.Apcfg
