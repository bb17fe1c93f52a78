import Wap4410n.Editcfg.Import

/-!
# Editcfg — what the parser recognises

`parseCFG` is in a group or between groups, and takes the lines one by one: between groups it looks
for a name in brackets, and in a group for an attribute, until a line starts with a bracket, which
it looks at once more for the name of the next group.  `readLine` is one line of this, `readAll` all
of them, and what they return are the names and the attributes with their values, in order.  The
parser does nothing but assign these (`parseLines_readAll`).

* `readAll_append`: what is read goes on from where the text before it left the parser.
* `inGroup_readAll`: the lines of a group.
* `parseLines_readAll`: the parser assigns what is recognised, and nothing else.
-/

namespace Wap4410n.Editcfg

open CLib Apcfg

/-- What the parser recognises: a name in brackets, or an attribute of a group. -/
inductive Item where
  | group (name : CStr)
  | attr (p : Group) (a : Attr)

/-- An item with its value. -/
abbrev Reading := Item × CStr

/-- A line between groups: the group it opens, and its name. -/
def readBetween (buffer : CStr) : List Reading × Option Group :=
  if (bracketed buffer).length = 0 then ([], none)
  else ([(.group (bracketed buffer), .empty)], matchGroup (bracketed buffer))

/-- A line in a group that does not start with a bracket. -/
def readAttr (p : Group) (buffer : CStr) : List Reading :=
  match splitLine buffer with
  | none => []
  | some (attr, value) =>
    match matchAttr attr p.attrs with
    | none => []
    | some a => [(.attr p a, value)]

/-- A line, in a group or between groups: what is recognised, and the group behind it. -/
def readLine : Option Group → CStr → List Reading × Option Group
  | none, buffer => readBetween buffer
  | some p, buffer =>
    if buffer.bytes.head? = some 0x5b then readBetween buffer else (readAttr p buffer, some p)

/-- The lines of a text. -/
def readAll : Option Group → List CStr → List Reading × Option Group
  | st, [] => ([], st)
  | st, buffer :: fp =>
    let (items, st) := readLine st buffer
    let (rest, st) := readAll st fp
    (items ++ rest, st)

theorem readAll_cons (st : Option Group) (buffer : CStr) (fp : List CStr) :
    readAll st (buffer :: fp) = ((readLine st buffer).1 ++ (readAll (readLine st buffer).2 fp).1,
      (readAll (readLine st buffer).2 fp).2) := rfl

/-- **What is read goes on** from where the text before it left the parser. -/
theorem readAll_append (st : Option Group) (fp fp' : List CStr) :
    readAll st (fp ++ fp') = ((readAll st fp).1 ++ (readAll (readAll st fp).2 fp').1,
      (readAll (readAll st fp).2 fp').2) := by
  induction fp generalizing st with
  | nil => rfl
  | cons buffer fp ih =>
      rw [List.cons_append, readAll_cons, readAll_cons, ih]
      simp only [List.append_assoc]

/-! ### The parser -/

/-- An item is assigned. -/
def assignItem (dev : Device) (g : Globals) : Reading → Run Buf Globals
  | (.group _, _) => .ok g
  | (.attr _ a, value) =>
    match a.assignfunc with
    | none => .ok g
    | some assignfunc =>
      if value.length ≠ 0 ∨ assignfunc.isNvAssignFunc then assignfunc.run dev value g else .ok g

/-- Items are assigned, one after the other. -/
def assignItems (dev : Device) : List Reading → Globals → Run Buf Globals
  | [], g => .ok g
  | item :: items, g => assignItem dev g item >>= assignItems dev items

theorem assignItems_append (dev : Device) (items items' : List Reading) (g : Globals) :
    assignItems dev (items ++ items') g = assignItems dev items g >>= assignItems dev items' := by
  induction items generalizing g with
  | nil => rfl
  | cons item items ih =>
      rw [List.cons_append, assignItems, assignItems]
      cases assignItem dev g item with
      | ok g' => exact ih g'
      | error e => rfl

/-- The lines of a group: what is recognised in them, and the lines behind them. -/
def inGroup (p : Group) : List CStr → List Reading × List CStr
  | [] => ([], [])
  | buffer :: fp =>
    if buffer.bytes.head? = some 0x5b then ([], buffer :: fp)
    else (readAttr p buffer ++ (inGroup p fp).1, (inGroup p fp).2)

/-- **The lines of a group**, and those behind them. -/
theorem inGroup_readAll (p : Group) (fp : List CStr) :
    (readAll (some p) fp).1 = (inGroup p fp).1 ++ (readAll none (inGroup p fp).2).1 := by
  induction fp with
  | nil => rfl
  | cons buffer fp ih =>
      rw [readAll_cons, inGroup, readLine]
      split
      · rw [readAll_cons]
        rfl
      · rw [ih, List.append_assoc]

theorem length_inGroup (p : Group) (fp : List CStr) : (inGroup p fp).2.length ≤ fp.length := by
  induction fp with
  | nil => exact Nat.le_refl _
  | cons buffer fp ih =>
      rw [inGroup]
      split
      · exact Nat.le_refl _
      · exact Nat.le_succ_of_le ih

section Parser

variable (dev : Device)

/-- The value of an attribute is assigned if the group has the attribute. -/
theorem assignAttr_readAttr {p : Group} {buffer attr value : CStr} (g : Globals)
    (h : splitLine buffer = some (attr, value)) : ∃ good : Bool,
      assignAttr dev p.attrs attr value g =
        (fun g' => (g', good)) <$> assignItems dev (readAttr p buffer) g := by
  rw [readAttr, h, assignAttr]
  dsimp only
  cases ha : matchAttr attr p.attrs with
  | none => exact ⟨false, rfl⟩
  | some a =>
      rw [Option.bind_some, assignItems, assignItem]
      cases hf : a.assignfunc with
      | none => exact ⟨false, rfl⟩
      | some f =>
          dsimp only
          split
          · refine ⟨true, ?_⟩
            cases f.run dev value g <;> rfl
          · exact ⟨false, rfl⟩

theorem parseNAssignValue_inGroup (p : Group) (fp : List CStr) {n : Nat} (hn : fp.length ≤ n)
    (g : Globals) (goodAttr : Bool) : ∃ good : Bool,
      parseNAssignValue dev p.attrs n fp g goodAttr =
        (fun g' => (good, (inGroup p fp).2, g')) <$> assignItems dev (inGroup p fp).1 g := by
  induction fp generalizing n g goodAttr with
  | nil => cases n <;> exact ⟨goodAttr, rfl⟩
  | cons buffer fp ih =>
      obtain ⟨n, rfl⟩ : ∃ m, n = m + 1 := ⟨n - 1, by
        rw [List.length_cons] at hn
        omega⟩
      rw [List.length_cons] at hn
      rw [inGroup]
      by_cases hbracket : buffer.bytes.head? = some 0x5b
      · rw [if_pos hbracket]
        refine ⟨goodAttr, ?_⟩
        rw [parseNAssignValue, getaAttr, if_pos hbracket]
        rfl
      · rw [if_neg hbracket]
        cases hsplit : splitLine buffer with
        | none =>
            obtain ⟨good, h⟩ := ih (n := n + 1) (by omega) g goodAttr
            have hnothing : readAttr p buffer = [] := by rw [readAttr, hsplit]
            have hskip : getaAttr (buffer :: fp) = getaAttr fp := by
              rw [getaAttr, if_neg hbracket, hsplit]
            refine ⟨good, ?_⟩
            rw [hnothing, List.nil_append, ← h, parseNAssignValue, hskip, parseNAssignValue]
        | some r =>
            obtain ⟨attr, value⟩ := r
            obtain ⟨good, h⟩ := assignAttr_readAttr dev (p := p) g hsplit
            have htake : getaAttr (buffer :: fp) = (some (attr, value), fp) := by
              rw [getaAttr, if_neg hbracket, hsplit]
            rw [parseNAssignValue, htake]
            dsimp only
            rw [h, assignItems_append]
            cases assignItems dev (readAttr p buffer) g with
            | ok g' => exact ih (by omega) g' (goodAttr || good)
            | error e => exact ⟨goodAttr, rfl⟩

theorem matchGroup_empty : matchGroup .empty = none := by
  decide +kernel

/-- `GetaGroup` reads up to the next name in brackets. -/
theorem getaGroup_readAll (fp : List CStr) :
    (getaGroup fp = (.empty, []) ∧ (readAll none fp).1 = []) ∨
    (getaGroup fp).2.length < fp.length ∧ (readAll none fp).1 =
      (.group (getaGroup fp).1, .empty) ::
        (readAll (matchGroup (getaGroup fp).1) (getaGroup fp).2).1 := by
  induction fp with
  | nil => exact .inl ⟨rfl, rfl⟩
  | cons buffer fp ih =>
      rw [getaGroup, readAll_cons, readLine, readBetween]
      split
      · rw [List.nil_append]
        obtain ⟨hend, hnone⟩ | ⟨hlt, hgroup⟩ := ih
        · exact .inl ⟨hend, hnone⟩
        · exact .inr ⟨Nat.lt_succ_of_lt hlt, hgroup⟩
      · exact .inr ⟨Nat.lt_succ_self _, rfl⟩

theorem parseGroups_readAll {n : Nat} {fp : List CStr} (hn : fp.length ≤ n) (g : Globals)
    (goodGroup : Nat) : ∃ good : Nat, parseGroups dev n fp g goodGroup =
      (fun g' => (good, g')) <$> assignItems dev (readAll none fp).1 g := by
  induction n generalizing fp g goodGroup with
  | zero =>
      obtain rfl : fp = [] := List.length_eq_zero_iff.mp (by omega)
      exact ⟨goodGroup, rfl⟩
  | succ n ih =>
      rw [parseGroups]
      obtain ⟨hend, hnone⟩ | ⟨hlt, hgroup⟩ := getaGroup_readAll fp
      · have hnil : (readAll none ([] : List CStr)).1 = [] := rfl
        have hend₀ : ([] : List CStr).length ≤ n := Nat.zero_le n
        obtain ⟨good, h⟩ := ih hend₀ g goodGroup
        rw [hnil] at h
        rw [hend, hnone]
        dsimp only
        rw [matchGroup_empty]
        exact ⟨good, h⟩
      · rw [hgroup]
        cases hget : getaGroup fp with
        | mk name rest => ?_
        rw [hget] at hlt hgroup
        dsimp only at hlt hgroup ⊢
        have hskip (items : List Reading) :
            assignItems dev ((.group name, .empty) :: items) g = assignItems dev items g := rfl
        rw [hskip]
        cases hp : matchGroup name with
        | none => exact ih (by omega) g goodGroup
        | some p =>
            obtain ⟨good, h⟩ :=
              parseNAssignValue_inGroup dev p rest (Nat.le_refl _) g false
            dsimp only at h ⊢
            rw [h, inGroup_readAll, assignItems_append]
            have hle := length_inGroup p rest
            cases assignItems dev (inGroup p rest).1 g with
            | ok g' =>
                have hfuel : (inGroup p rest).2.length ≤ n := by omega
                exact ih hfuel g' (goodGroup + good.toNat)
            | error e => exact ⟨goodGroup, rfl⟩

/-- **The parser assigns what is recognised**, and nothing else. -/
theorem parseLines_readAll (fp : List CStr) (g : Globals) : ∃ good : Nat,
    parseLines dev fp g = (fun g' => (good, g')) <$> assignItems dev (readAll none fp).1 g :=
  parseGroups_readAll dev (Nat.le_refl _) g 0

end Parser

end Wap4410n.Editcfg
