import Mathlib.Data.List.Nodup
import Mathlib.Logic.Relation

/-!
# Support — forests by first child and next brother

A table of links holds a forest: each entry names its first child and its next brother.  `Forest ι`
is that shape as a tree of its own, and `Linked` says that the links of a table are those of a
forest.  `cut p` are the nodes a walk stops at which goes into the children of a node only where `p`
is false: in pre-order, and of each branch the first node with `p`.

* `mem_cut`: these are the nodes with `p` that have no proper ancestor with `p`.
* `cut_sublist`: in the order of the forest.
-/

namespace CLib

/-- A forest: no tree, or a node with its children and the brothers behind it. -/
inductive Forest (ι : Type) where
  | nil
  | node (i : ι) (children brothers : Forest ι)
deriving DecidableEq, Repr

namespace Forest

variable {ι : Type} {p : ι → Bool}

/-- A tree and no brother. -/
def leaf (i : ι) (brothers : Forest ι) : Forest ι := node i nil brothers

/-- The first node. -/
def root : Forest ι → Option ι
  | nil => none
  | node i _ _ => some i

def size : Forest ι → Nat
  | nil => 0
  | node _ cs bs => cs.size + bs.size + 1

/-- A node, its children, its brothers. -/
def preorder : Forest ι → List ι
  | nil => []
  | node i cs bs => i :: (cs.preorder ++ bs.preorder)

/-- The first nodes with `p` on the way down. -/
def cut (p : ι → Bool) : Forest ι → List ι
  | nil => []
  | node i cs bs => (if p i then [i] else cs.cut p) ++ bs.cut p

/-- `a` is a proper ancestor of `i`. -/
def Above (a i : ι) : Forest ι → Prop
  | nil => False
  | node j cs bs => a = j ∧ i ∈ cs.preorder ∨ cs.Above a i ∨ bs.Above a i

/-- The links are those of the forest, whose trees stand below `up`. -/
def Linked (parent child brother : ι → Option ι) (up : Option ι) : Forest ι → Prop
  | nil => True
  | node i cs bs => parent i = up ∧ child i = cs.root ∧ brother i = bs.root ∧
      cs.Linked parent child brother (some i) ∧ bs.Linked parent child brother up

section Decidable

variable [DecidableEq ι]

instance decidableAbove (a i : ι) : ∀ f : Forest ι, Decidable (f.Above a i)
  | nil => inferInstanceAs (Decidable False)
  | node j cs bs =>
    have := decidableAbove a i cs
    have := decidableAbove a i bs
    inferInstanceAs (Decidable (a = j ∧ i ∈ cs.preorder ∨ cs.Above a i ∨ bs.Above a i))

instance decidableLinked (parent child brother : ι → Option ι) :
    ∀ (up : Option ι) (f : Forest ι), Decidable (f.Linked parent child brother up)
  | _, nil => inferInstanceAs (Decidable True)
  | up, node i cs bs =>
    have := decidableLinked parent child brother (some i) cs
    have := decidableLinked parent child brother up bs
    inferInstanceAs (Decidable (parent i = up ∧ child i = cs.root ∧ brother i = bs.root ∧
      cs.Linked parent child brother (some i) ∧ bs.Linked parent child brother up))

end Decidable

/-! ### Ancestors -/

theorem Above.mem {a i : ι} {f : Forest ι} (h : f.Above a i) :
    a ∈ f.preorder ∧ i ∈ f.preorder := by
  induction f with
  | nil => exact h.elim
  | node j cs bs ihcs ihbs =>
      simp only [preorder, List.mem_cons, List.mem_append]
      obtain ⟨rfl, hi⟩ | h | h := h
      · exact ⟨.inl rfl, .inr (.inl hi)⟩
      · exact ⟨.inr (.inl (ihcs h).1), .inr (.inl (ihcs h).2)⟩
      · exact ⟨.inr (.inr (ihbs h).1), .inr (.inr (ihbs h).2)⟩

/-- The nodes of a forest without repetitions are in one of its three parts only. -/
theorem nodup_node {i : ι} {cs bs : Forest ι} (h : (node i cs bs).preorder.Nodup) :
    i ∉ cs.preorder ∧ i ∉ bs.preorder ∧ cs.preorder.Nodup ∧ bs.preorder.Nodup ∧
      ∀ j ∈ cs.preorder, j ∉ bs.preorder := by
  obtain ⟨hi, hrest⟩ := List.nodup_cons.mp h
  obtain ⟨hcs, hbs, hdisj⟩ := List.nodup_append.mp hrest
  exact ⟨fun h => hi (List.mem_append_left _ h), fun h => hi (List.mem_append_right _ h), hcs, hbs,
    fun j hj hj' => hdisj j hj j hj' rfl⟩

/-! ### The cut -/

theorem cut_sublist : ∀ f : Forest ι, (f.cut p).Sublist f.preorder
  | nil => List.Sublist.slnil
  | node i cs bs => by
      unfold cut preorder
      split
      · exact ((List.nil_sublist cs.preorder).append bs.cut_sublist).cons_cons i
      · exact (cs.cut_sublist.append bs.cut_sublist).cons i

/-- **The nodes a walk stops at.** -/
theorem mem_cut {i : ι} : ∀ {f : Forest ι}, f.preorder.Nodup →
    (i ∈ f.cut p ↔ i ∈ f.preorder ∧ p i = true ∧ ∀ a, f.Above a i → p a = false)
  | nil, _ => by simp [cut, preorder]
  | node j cs bs, h => by
      obtain ⟨hjcs, hjbs, hcs, hbs, hdisj⟩ := nodup_node h
      have ihcs := mem_cut (i := i) hcs
      have ihbs := mem_cut (i := i) hbs
      have hmem : i ∈ (node j cs bs).preorder ↔ i = j ∨ i ∈ cs.preorder ∨ i ∈ bs.preorder := by
        simp [preorder]
      have hcut : i ∈ (node j cs bs).cut p ↔
          (p j = true ∧ i = j ∨ p j = false ∧ i ∈ cs.cut p) ∨ i ∈ bs.cut p := by
        cases hj : p j <;> simp [cut, hj]
      rw [hmem, hcut]
      constructor
      · rintro ((⟨hj, rfl⟩ | ⟨hj, hi⟩) | hi)
        · refine ⟨.inl rfl, hj, fun a ha => ?_⟩
          obtain ⟨-, hi⟩ | ha | ha := ha
          · exact absurd hi hjcs
          · exact absurd ha.mem.2 hjcs
          · exact absurd ha.mem.2 hjbs
        · obtain ⟨hin, hp, hno⟩ := ihcs.mp hi
          refine ⟨.inr (.inl hin), hp, fun a ha => ?_⟩
          obtain ⟨rfl, -⟩ | ha | ha := ha
          · exact hj
          · exact hno a ha
          · exact absurd ha.mem.2 (hdisj i hin)
        · obtain ⟨hin, hp, hno⟩ := ihbs.mp hi
          refine ⟨.inr (.inr hin), hp, fun a ha => ?_⟩
          obtain ⟨-, hin'⟩ | ha | ha := ha
          · exact absurd hin (hdisj i hin')
          · exact absurd hin (hdisj i ha.mem.2)
          · exact hno a ha
      · rintro ⟨rfl | hin | hin, hp, hno⟩
        · exact .inl (.inl ⟨hp, rfl⟩)
        · exact .inl (.inr ⟨hno j (.inl ⟨rfl, hin⟩),
            ihcs.mpr ⟨hin, hp, fun a ha => hno a (.inr (.inl ha))⟩⟩)
        · exact .inr (ihbs.mpr ⟨hin, hp, fun a ha => hno a (.inr (.inr ha))⟩)

end Forest

end CLib
