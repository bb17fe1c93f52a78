import Wap4410n.Apcfg.Vlan

/-!
# Apcfg — the VLAN list as a set

What the list is for: a set of VLAN ids, in the order they were added (`VlanOp.apply`).  The code
falls short of it in three ways.  The new list is printed into 8 bytes, and the id to delete into 5;
and what `apCfgVlanListDel` writes into the buffer is gone when `apCfgVlanListSet` compares, so that
only the first id of the list is deleted, for which nothing is written but the pointer moved.
`VlanOp.Meets` excludes all three.

* `vlanTokens_eq`, `vlanDelete_eq`: the loops, on the text of a list.
* `vlanOp_refines`: one call; `vlanList_refines`: any sequence of calls from the empty list.
* `vlanDel_second_lost`: the second id of a list is not deleted.
-/

namespace Wap4410n.Apcfg

open CLib

/-! ### The set -/

/-- A call on the list. -/
inductive VlanOp where
  | add (v : Int32)
  | del (v : Int32)
  | clear

namespace VlanOp

/-- What a call does to the set. -/
def apply : VlanOp → List Int → Status × List Int
  | add v, l =>
      if v.toInt < 1 ∨ 4094 < v.toInt ∨ v.toInt ∈ l then (.error, l) else (.ok, l ++ [v.toInt])
  | del v, l => (.ok, l.erase v.toInt)
  | clear, _ => (.ok, [])

/-- The set after a sequence of calls. -/
def applyAll (ops : List VlanOp) (l : List Int) : List Int :=
  ops.foldl (fun l op => (op.apply l).2) l

/-- The call as `libapcfg` makes it. -/
def run : VlanOp → Vlan Status
  | add v => apCfgVlanListAdd v.toInt
  | del v => apCfgVlanListDel v.toInt
  | clear => apCfgVlanListClear

/-- The configuration and the buffer after a sequence of calls. -/
def runAll (ops : List VlanOp) (s : VlanStore) : VlanStore := Act.runAll (ops.map run) s

end VlanOp

/-- The text of a list. -/
def vlanText : List Int → CStr
  | [] => .empty
  | v :: l => (CStr.ofInt v).append ((CStr.text ",").append (vlanText l))

/-- **When a call does as it should.**  An id that is added leaves room in `vlan[MAX_VLAN_LIST]`;
one that is to be deleted fits `vlan[5]`, and is absent or the first. -/
def VlanOp.Meets : VlanOp → List Int → Prop
  | add v, l => (v.toInt < 1 ∨ 4094 < v.toInt ∨ v.toInt ∈ l) ∨
      (vlanText l).length + (CStr.ofInt v.toInt).length + 1 < maxVlanList
  | del v, l => (CStr.ofInt v.toInt).length + 1 < 5 ∧ (v.toInt ∉ l ∨ l.head? = some v.toInt)
  | clear, _ => True

/-- The ids of a list. -/
structure VlanOk (l : List Int) : Prop where
  nodup : l.Nodup
  range : ∀ v ∈ l, 1 ≤ v ∧ v ≤ 4094
  length_lt : (vlanText l).length < maxVlanList

theorem VlanOk.nil : VlanOk [] := ⟨List.nodup_nil, nofun, by decide⟩

/-! ### The text of a list -/

theorem noComma_ofInt (v : Int) : 0x2c ∉ (CStr.ofInt v).bytes := by
  have hdigit : ∀ n, (0x2c : Byte) ∉ digits 10 10 n := fun n h => by
    have := isDigit_iff.mp (isDigit_digits h)
    simp at this
  simp only [CStr.ofInt, printInt]
  split <;> simp [hdigit]

theorem ofInt_ne_empty (v : Int) : (CStr.ofInt v).length ≠ 0 := by
  have hne := digits_ne_nil 9 (Int32.ofInt v).toInt.natAbs
  simp only [CStr.length, CStr.ofInt, printInt]
  split
  · simp
  · simpa using hne

theorem bytes_vlanText_cons (v : Int) (l : List Int) :
    (vlanText (v :: l)).bytes = (CStr.ofInt v).bytes ++ 0x2c :: (vlanText l).bytes := by
  have hcomma : (CStr.text ",").bytes = [0x2c] := by decide
  simp [vlanText, hcomma]

theorem mem_vlanText_cons (v : Int) (l : List Int) (rest : List Byte) :
    (vlanText (v :: l)).mem ++ rest =
      (CStr.ofInt v).bytes ++ 0x2c :: ((vlanText l).mem ++ rest) := by
  simp [CStr.mem, bytes_vlanText_cons]

theorem length_vlanText_cons (v : Int) (l : List Int) :
    (vlanText (v :: l)).length = (CStr.ofInt v).length + 1 + (vlanText l).length := by
  rw [CStr.length, bytes_vlanText_cons, List.length_append, List.length_cons, CStr.length,
    CStr.length]
  omega

theorem vlanText_append_singleton (l : List Int) (v : Int) :
    vlanText (l ++ [v]) = (vlanText l).append ((CStr.ofInt v).append (.text ",")) := by
  refine CStr.ext ?_
  induction l with
  | nil => rfl
  | cons d l ih =>
      rw [List.cons_append, bytes_vlanText_cons, ih, CStr.bytes_append,
        CStr.bytes_append (vlanText _), bytes_vlanText_cons, List.append_assoc, List.cons_append]

/-- A text up to its separator is a text up to its separator. -/
theorem take_separated {c : Byte} {t t' : List Byte} (ht : c ∉ t) (ht' : c ∉ t') (r : List Byte) :
    (t ++ c :: r).take (t' ++ [c]).length = t' ++ [c] ↔ t = t' := by
  constructor
  · intro h
    have hsplit := List.take_append_drop (t' ++ [c]).length (t ++ c :: r)
    rw [h, List.append_assoc, List.singleton_append] at hsplit
    rw [← takeWhile_separated ht r, ← hsplit, takeWhile_separated ht']
  · rintro rfl
    rw [show t ++ c :: r = (t ++ [c]) ++ r by simp, List.take_left]

/-- An id that is printed is read back. -/
theorem ofInt_inj {v w : Int} (hv : -2 ^ 31 ≤ v ∧ v < 2 ^ 31) (hw : -2 ^ 31 ≤ w ∧ w < 2 ^ 31) :
    (CStr.ofInt v).bytes = (CStr.ofInt w).bytes ↔ v = w := by
  refine ⟨fun h => ?_, fun h => h ▸ rfl⟩
  rw [← atoi_ofInt hv.1 hv.2, CStr.ext h, atoi_ofInt hw.1 hw.2]

/-! ### The loops -/

section Loops

variable (pre rest : List Byte)

/-- The text at an offset of the buffer. -/
theorem ofMem_drop (s : CStr) :
    CStr.ofMem ((pre ++ (s.mem ++ rest)).drop pre.length) = some s := by
  rw [List.drop_left, CStr.mem, List.append_assoc, List.singleton_append, CStr.ofMem_append]

theorem upTo_vlanText (d : Int) (l : List Int) :
    (vlanText (d :: l)).upTo 0x2c = .ofInt d :=
  CStr.ext (CStr.upTo_eq (bytes_vlanText_cons d l) (noComma_ofInt d))

theorem start_vlanText (d : Int) (l : List Int) :
    (vlanText (d :: l)).bytes.takeWhile (· = 0x2c) = [] := by
  have hne := ofInt_ne_empty d
  have hcomma := noComma_ofInt d
  rw [CStr.length] at hne
  rw [bytes_vlanText_cons]
  cases hbytes : (CStr.ofInt d).bytes with
  | nil => simp [hbytes] at hne
  | cons b bs =>
      have hb : b ≠ 0x2c := by
        rintro rfl
        simp [hbytes] at hcomma
      simp [hb]

/-- The loop of `apCfgVlanListAdd` finds the ids of the list. -/
theorem vlanTokens_eq {l : List Int} (hl : ∀ d ∈ l, 1 ≤ d ∧ d ≤ 4094) (v : Int) :
    ∃ value, vlanTokens v (pre ++ ((vlanText l).mem ++ rest)) pre.length =
        .ok (value, decide (v ∈ l)) ∧
      value.length = (pre ++ ((vlanText l).mem ++ rest)).length := by
  induction l generalizing pre with
  | nil =>
      refine ⟨_, ?_, rfl⟩
      rw [vlanTokens_text (ofMem_drop pre rest (vlanText [])) rfl rfl]
      rfl
  | cons d l ih =>
      obtain ⟨hd, hl⟩ := List.forall_mem_cons.mp hl
      have hatoi : atoi (.ofInt d) = d := atoi_ofInt (by omega) (by omega)
      have hvalue : pre ++ ((vlanText (d :: l)).mem ++ rest) =
          (pre ++ (CStr.ofInt d).bytes) ++ 0x2c :: ((vlanText l).mem ++ rest) := by
        rw [mem_vlanText_cons, List.append_assoc]
      have hstop : (pre ++ (CStr.ofInt d).bytes).length = pre.length + (CStr.ofInt d).length :=
        List.length_append
      have hcomma : (pre ++ ((vlanText (d :: l)).mem ++ rest))[pre.length +
          (CStr.ofInt d).length]? = some 0x2c := by
        rw [hvalue, ← hstop, List.getElem?_append_right (Nat.le_refl _)]
        simp
      have hset : (pre ++ ((vlanText (d :: l)).mem ++ rest)).set
          (pre.length + (CStr.ofInt d).length) 0 =
          (pre ++ (CStr.ofInt d).bytes ++ [0]) ++ ((vlanText l).mem ++ rest) := by
        rw [hvalue, ← hstop, List.set_append_right _ _ (Nat.le_refl _)]
        simp
      have hnext : (pre ++ (CStr.ofInt d).bytes ++ [0]).length =
          pre.length + (CStr.ofInt d).length + 1 := by
        rw [List.length_append, hstop, List.length_singleton]
      rw [vlanTokens_text (ofMem_drop pre rest _) (start_vlanText d l) (upTo_vlanText d l),
        if_neg (ofInt_ne_empty d), if_pos hcomma, hatoi]
      by_cases hv : v = d
      · rw [if_pos hv, decide_eq_true (List.mem_cons.mpr (.inl hv))]
        exact ⟨_, rfl, List.length_set⟩
      · obtain ⟨value, hrun, hlen⟩ := ih (pre ++ (CStr.ofInt d).bytes ++ [0]) hl
        rw [if_neg hv, hset, ← hnext, hrun]
        refine ⟨value, by simp [hv], ?_⟩
        rw [hlen, ← hset, List.length_set]

/-- `memcmp(p, vlan, len) == 0`, at the text of an id. -/
theorem memcmpEq_vlan {v d : Int} (hv : -2 ^ 31 ≤ v ∧ v < 2 ^ 31) (hd : 1 ≤ d ∧ d ≤ 4094)
    (l : List Int) (hrest : (CStr.ofInt v).length + 1 ≤ rest.length) :
    memcmpEq (ι := Buf) .value ((CStr.ofInt v).append (.text ",")).length
        ((vlanText (d :: l)).mem ++ rest) ((CStr.ofInt v).append (.text ",")).mem =
      .ok (decide (d = v)) := by
  have hcomma : (CStr.text ",").bytes = [0x2c] := by decide
  have hbytes : ((CStr.ofInt v).append (.text ",")).bytes = (CStr.ofInt v).bytes ++ [0x2c] := by
    rw [CStr.bytes_append, hcomma]
  have hlen : ((CStr.ofInt v).append (.text ",")).length = (CStr.ofInt v).length + 1 := by
    rw [CStr.length_append]
    rfl
  have hfits : ¬ (((vlanText (d :: l)).mem ++ rest).length < (CStr.ofInt v).length + 1 ∨
      ((CStr.ofInt v).append (.text ",")).mem.length < (CStr.ofInt v).length + 1) := by
    rw [CStr.length_mem, hlen, List.length_append]
    omega
  have htake : ((CStr.ofInt v).append (.text ",")).mem.take
      ((CStr.ofInt v).append (.text ",")).length = (CStr.ofInt v).bytes ++ [0x2c] := by
    rw [CStr.mem, CStr.length, List.take_left, hbytes]
  rw [memcmpEq, htake, hlen, if_neg hfits, mem_vlanText_cons]
  have hsame := take_separated (noComma_ofInt d) (noComma_ofInt v) ((vlanText l).mem ++ rest)
  rw [List.length_append, List.length_singleton] at hsame
  rw [CStr.length, decide_eq_decide.mpr (hsame.trans (ofInt_inj (by omega) hv))]

/-- A pass of the loop of `apCfgVlanListDel` at the text of an id. -/
theorem vlanDelete_cons {v d : Int} (hv : -2 ^ 31 ≤ v ∧ v < 2 ^ 31) (hd : 1 ≤ d ∧ d ≤ 4094)
    (l : List Int) (hrest : (CStr.ofInt v).length + 1 ≤ rest.length) :
    vlanDelete ((CStr.ofInt v).append (.text ",")) (pre ++ ((vlanText (d :: l)).mem ++ rest))
        pre.length =
      if d = v then
        if pre.length = 0 then .ok (pre ++ ((vlanText (d :: l)).mem ++ rest),
          ((CStr.ofInt v).append (.text ",")).length)
        else if ((vlanText (d :: l)).drop ((CStr.ofInt v).append (.text ",")).length).length = 0
        then .ok ((pre ++ ((vlanText (d :: l)).mem ++ rest)).set pre.length 0, 0)
        else .ok ((pre ++ ((vlanText (d :: l)).mem ++ rest)).take pre.length ++
          ((vlanText (d :: l)).bytes.drop ((CStr.ofInt v).append (.text ",")).length ++
            (pre ++ ((vlanText (d :: l)).mem ++ rest)).drop (pre.length +
              ((vlanText (d :: l)).length - ((CStr.ofInt v).append (.text ",")).length))), 0)
      else vlanDelete ((CStr.ofInt v).append (.text ","))
        ((pre ++ (CStr.ofInt d).bytes ++ [0x2c]) ++ ((vlanText l).mem ++ rest))
        (pre ++ (CStr.ofInt d).bytes ++ [0x2c]).length := by
  have hne : (vlanText (d :: l)).length ≠ 0 := by
    rw [length_vlanText_cons]
    omega
  have hcmp := memcmpEq_vlan rest hv hd l hrest
  have hvalue : pre ++ ((vlanText (d :: l)).mem ++ rest) =
      (pre ++ (CStr.ofInt d).bytes ++ [0x2c]) ++ ((vlanText l).mem ++ rest) := by
    rw [mem_vlanText_cons]
    simp
  have hnext : (pre ++ (CStr.ofInt d).bytes ++ [0x2c]).length =
      pre.length + (CStr.ofInt d).length + 1 := by
    simp [CStr.length]
    omega
  obtain ⟨e, hsep, -⟩ := CStr.exists_strchr (bytes_vlanText_cons d l) (noComma_ofInt d)
  rw [vlanDelete_text (ofMem_drop pre rest _), if_neg hne, List.drop_left, hcmp]
  by_cases h : d = v
  · rw [if_pos h, decide_eq_true h]
    rfl
  · rw [if_neg h, decide_eq_false h, hnext, ← hvalue, ← upTo_vlanText d l]
    simp only [hsep]
    rfl

/-- Behind the first id the loop of `apCfgVlanListDel` may edit the buffer, and no more. -/
theorem vlanDelete_behind {v : Int} (hv : -2 ^ 31 ≤ v ∧ v < 2 ^ 31) {l : List Int}
    (hl : ∀ d ∈ l, 1 ≤ d ∧ d ≤ 4094) (hpre : pre.length ≠ 0)
    (hrest : (CStr.ofInt v).length + 1 ≤ rest.length) :
    ∃ value, vlanDelete ((CStr.ofInt v).append (.text ",")) (pre ++ ((vlanText l).mem ++ rest))
        pre.length = .ok (value, 0) ∧
      value.length = (pre ++ ((vlanText l).mem ++ rest)).length := by
  induction l generalizing pre with
  | nil =>
      refine ⟨_, ?_, rfl⟩
      rw [vlanDelete_text (ofMem_drop pre rest (vlanText []))]
      rfl
  | cons d l ih =>
      obtain ⟨hd, hl⟩ := List.forall_mem_cons.mp hl
      have hvalue : pre ++ ((vlanText (d :: l)).mem ++ rest) =
          (pre ++ (CStr.ofInt d).bytes ++ [0x2c]) ++ ((vlanText l).mem ++ rest) := by
        rw [mem_vlanText_cons]
        simp
      rw [vlanDelete_cons pre rest hv hd l hrest]
      by_cases h : d = v
      · rw [if_pos h, if_neg hpre]
        split
        · exact ⟨_, rfl, List.length_set⟩
        · refine ⟨_, rfl, ?_⟩
          simp only [List.length_append, List.length_take, List.length_drop, CStr.length_mem,
            CStr.length]
          omega
      · obtain ⟨value, hrun, hlen⟩ := ih (pre ++ (CStr.ofInt d).bytes ++ [0x2c]) hl (by simp)
        rw [if_neg h]
        exact ⟨value, hrun, hlen.trans (congrArg List.length hvalue.symm)⟩

/-- **The first id of the list is deleted by moving the pointer behind it**; any other leaves the
pointer where it is. -/
theorem vlanDelete_eq {v : Int} (hv : -2 ^ 31 ≤ v ∧ v < 2 ^ 31) {l : List Int}
    (hl : ∀ d ∈ l, 1 ≤ d ∧ d ≤ 4094) (hrest : (CStr.ofInt v).length + 1 ≤ rest.length) :
    ∃ value off, vlanDelete ((CStr.ofInt v).append (.text ",")) ((vlanText l).mem ++ rest) 0 =
        .ok (value, off) ∧
      value.length = ((vlanText l).mem ++ rest).length ∧ off ≤ (vlanText l).length ∧
      (vlanText l).drop off = vlanText (if l.head? = some v then l.tail else l) := by
  cases l with
  | nil =>
      have htext : vlanDelete ((CStr.ofInt v).append (.text ",")) ((vlanText []).mem ++ rest) 0 =
          .ok ((vlanText []).mem ++ rest, 0) := vlanDelete_text (ofMem_drop [] rest (vlanText []))
      exact ⟨_, 0, htext, rfl, Nat.zero_le _, rfl⟩
  | cons d l =>
      obtain ⟨hd, hl⟩ := List.forall_mem_cons.mp hl
      have hpass := vlanDelete_cons [] rest hv hd l hrest
      rw [List.nil_append, List.length_nil] at hpass
      by_cases h : d = v
      · have hcomma : (CStr.text ",").bytes = [0x2c] := by decide
        have hlen : ((CStr.ofInt v).append (.text ",")).length = (CStr.ofInt v).length + 1 := by
          rw [CStr.length_append]
          rfl
        rw [if_pos h, if_pos rfl] at hpass
        refine ⟨_, _, hpass, rfl, ?_, ?_⟩
        · rw [hlen, length_vlanText_cons, h]
          omega
        · rw [List.head?_cons, if_pos (congrArg some h), List.tail_cons, ← h]
          refine CStr.ext ?_
          rw [CStr.bytes_drop, bytes_vlanText_cons, CStr.length, CStr.bytes_append, hcomma,
            show (CStr.ofInt d).bytes ++ 0x2c :: (vlanText l).bytes =
              ((CStr.ofInt d).bytes ++ [0x2c]) ++ (vlanText l).bytes by simp, List.drop_left]
      · obtain ⟨value, hrun, hlen⟩ := vlanDelete_behind ((CStr.ofInt d).bytes ++ [0x2c]) rest hv hl
          (by simp) hrest
        rw [if_neg h, List.nil_append, hrun] at hpass
        refine ⟨value, 0, hpass, ?_, Nat.zero_le _, ?_⟩
        · rw [hlen, mem_vlanText_cons]
          simp
        · rw [List.head?_cons, if_neg fun e => h (Option.some.inj e)]
          rfl

end Loops

/-! ### The getter and the setter -/

/-- The text that is stored. -/
abbrev stored (s : VlanStore) : CStr := s.config.get (.sys .vlanList)

theorem editValue_eq {A : Type} {f : List Byte → Run Buf (List Byte × A)} {s : VlanStore}
    {value : List Byte} {a : A} (h : f s.value = .ok (value, a)) (hlen : value.length = 65) :
    editValue f s = (.ok a, ⟨s.config, value, hlen⟩) := by
  rw [editValue, h]
  exact dif_pos hlen

/-- The getter fills the buffer with what is stored. -/
theorem apCfgVlanListGet_eq {s : VlanStore} (h : (stored s).length < 65) :
    ∃ s', apCfgVlanListGet s = (.ok (), s') ∧ s'.config = s.config ∧
      ∃ rest, s'.value = (stored s).mem ++ rest := by
  have hsize := s.size_eq
  have hread (f : CStr → Vlan Unit) :
      (onConfig (nvramSafeGet (.sys .vlanList)) >>= f) s = f (stored s) s := rfl
  have hlen : ((stored s).mem ++ s.value.drop ((stored s).length + 1)).length = 65 := by
    rw [List.length_append, CStr.length_mem, List.length_drop, hsize]
    omega
  refine ⟨⟨s.config, _, hlen⟩, ?_, rfl, _, rfl⟩
  unfold apCfgVlanListGet
  rw [hread]
  exact editValue_eq (if_pos (by omega)) hlen

theorem valueAt_eq {s : VlanStore} {t : CStr} {off : Nat} {rest : List Byte}
    (h : s.value.drop off = t.mem ++ rest) : valueAt off s = (.ok t, s) := by
  rw [valueAt, h, CStr.mem, List.append_assoc, List.singleton_append, stringAt_append]

/-- The text the setter stores: its own, or the stored one from an offset on. -/
def VlanText.read : VlanText → CStr → CStr
  | .own p, _ => p
  | .value off, t => t.drop off

/-- **The setter reads the buffer after the getter has filled it.** -/
theorem apCfgVlanListSet_eq {s : VlanStore} (h : (stored s).length < 65) {p : VlanText}
    (hp : ∀ off, p = .value off → off ≤ (stored s).length) :
    (apCfgVlanListSet p s).1 = .ok .ok ∧ stored (apCfgVlanListSet p s).2 = p.read (stored s) := by
  obtain ⟨s', hget, hconfig, rest, hvalue⟩ := apCfgVlanListGet_eq h
  have hstored : stored s' = stored s := congrArg (fun c => c.get (.sys .vlanList)) hconfig
  have hlist : valueAt 0 s' = (.ok (stored s), s') := valueAt_eq (by rw [List.drop_zero, hvalue])
  have hdrop : ∀ off, off ≤ (stored s).length →
      s'.value.drop off = ((stored s).drop off).mem ++ rest := by
    intro off hoff
    rw [hvalue, CStr.mem, CStr.mem, CStr.bytes_drop, List.append_assoc, List.append_assoc,
      List.drop_append_of_le_length hoff]
  have htext : p.text s' = (.ok (p.read (stored s)), s') := by
    cases p with
    | own p => rfl
    | value off => exact valueAt_eq (hdrop off (hp off rfl))
  unfold apCfgVlanListSet
  rw [Act.bind_ok hget, Act.bind_ok htext, Act.bind_ok hlist]
  by_cases hne : p.read (stored s) ≠ stored s
  · rw [Act.when, if_pos hne]
    exact ⟨rfl, (congrFun (Config.get_flag _ _) _).trans (s'.config.get_set_self _ _)⟩
  · rw [Act.when, if_neg hne]
    exact ⟨rfl, hstored.trans (not_not.mp hne).symm⟩

/-! ### One call -/

section Calls

variable {s : VlanStore} {l : List Int} (h : stored s = vlanText l) (hl : VlanOk l)

include h hl

theorem stored_lt : (stored s).length < 65 := by
  have := hl.length_lt
  rw [maxVlanList] at this
  rw [h]
  omega

/-- The getter, with the buffer it leaves. -/
theorem vlanGet_eq : ∃ s', apCfgVlanListGet s = (.ok (), s') ∧ stored s' = vlanText l ∧
    ∃ rest, s'.value = (vlanText l).mem ++ rest ∧ 57 ≤ rest.length := by
  obtain ⟨s', hget, hconfig, rest, hvalue⟩ := apCfgVlanListGet_eq (stored_lt h hl)
  rw [h] at hvalue
  refine ⟨s', hget, (congrArg (fun c => c.get (.sys .vlanList)) hconfig).trans h, rest, hvalue, ?_⟩
  have hsize := s'.size_eq
  have hlen := hl.length_lt
  rw [hvalue, List.length_append, CStr.length_mem] at hsize
  rw [maxVlanList] at hlen
  omega

theorem apCfgVlanListAdd_refines (v : Int32) (hm : (VlanOp.add v).Meets l) :
    ((VlanOp.add v).run s).1 = .ok ((VlanOp.add v).apply l).1 ∧
      stored ((VlanOp.add v).run s).2 = vlanText ((VlanOp.add v).apply l).2 := by
  have hrun : (VlanOp.add v).run s = apCfgVlanListAdd v.toInt s := rfl
  rw [hrun, VlanOp.apply]
  unfold apCfgVlanListAdd
  by_cases hrange : v.toInt < 1 ∨ 0x0FFE < v.toInt
  · rw [if_pos hrange, if_pos (hrange.imp_right .inl)]
    exact ⟨rfl, h⟩
  rw [if_neg hrange]
  obtain ⟨s₁, hget₁, hs₁, rest₁, hvalue₁, -⟩ := vlanGet_eq h hl
  obtain ⟨value, htokens, hlen⟩ := vlanTokens_eq [] rest₁ hl.range v.toInt
  rw [List.nil_append, List.length_nil, ← hvalue₁] at htokens
  have hsize : value.length = 65 := by rw [hlen, List.nil_append, ← hvalue₁, s₁.size_eq]
  rw [Act.bind_ok hget₁, Act.bind_ok (editValue_eq htokens hsize)]
  by_cases hmem : v.toInt ∈ l
  · rw [if_pos (decide_eq_true hmem), if_pos (.inr (.inr hmem))]
    exact ⟨rfl, hs₁⟩
  have hnot : ¬ (v.toInt < 1 ∨ 4094 < v.toInt ∨ v.toInt ∈ l) := fun hor =>
    hor.elim (fun h => hrange (.inl h)) fun hor => hor.elim (fun h => hrange (.inr h)) hmem
  have hfits := hm.resolve_left hnot
  rw [if_neg (by simp [hmem]), if_neg hnot]
  -- the second call of the getter fills the buffer again
  obtain ⟨s₃, hget₃, hs₃, rest₃, hvalue₃, -⟩ :=
    vlanGet_eq (s := ⟨s₁.config, value, hsize⟩) hs₁ hl
  have hlist : valueAt 0 s₃ = (.ok (vlanText l), s₃) :=
    valueAt_eq (by rw [List.drop_zero, hvalue₃])
  have hstore : store .vlan maxVlanList
      ((vlanText l).append ((CStr.ofInt v.toInt).append (.text ","))) =
        pure (vlanText (l ++ [v.toInt])) := by
    rw [← vlanText_append_singleton]
    refine store_fits ?_
    rw [vlanText_append_singleton, CStr.length_append, CStr.length_append]
    exact hfits
  have hprint : onConfig (pure (vlanText (l ++ [v.toInt]))) s₃ =
      (.ok (vlanText (l ++ [v.toInt])), s₃) := rfl
  rw [Act.bind_ok hget₃, Act.bind_ok hlist, hstore, Act.bind_ok hprint]
  exact apCfgVlanListSet_eq (stored_lt hs₃ hl) nofun

/-- Only the first id of the list is deleted. -/
theorem apCfgVlanListDel_eq (v : Int32) (hv : (CStr.ofInt v.toInt).length + 1 < 5) :
    (apCfgVlanListDel v.toInt s).1 = .ok .ok ∧ stored (apCfgVlanListDel v.toInt s).2 =
      vlanText (if l.head? = some v.toInt then l.tail else l) := by
  have hstore : store .vlan 5 ((CStr.ofInt v.toInt).append (.text ",")) =
      pure ((CStr.ofInt v.toInt).append (.text ",")) := by
    refine store_fits ?_
    rw [CStr.length_append]
    exact hv
  have hprint : onConfig (pure ((CStr.ofInt v.toInt).append (.text ","))) s =
      (.ok ((CStr.ofInt v.toInt).append (.text ",")), s) := rfl
  obtain ⟨s₁, hget, hs₁, rest, hvalue, hrest⟩ := vlanGet_eq h hl
  obtain ⟨value, off, hdelete, hlen, hoff, htext⟩ :=
    vlanDelete_eq rest ⟨v.le_toInt, v.toInt_lt⟩ hl.range (by omega)
  rw [← hvalue] at hdelete hlen
  have hsize : value.length = 65 := hlen.trans s₁.size_eq
  have hs₂ : stored ⟨s₁.config, value, hsize⟩ = vlanText l := hs₁
  have hset := apCfgVlanListSet_eq (p := .value off) (stored_lt hs₂ hl) (by
    rintro _ ⟨⟩
    rw [hs₂]
    exact hoff)
  unfold apCfgVlanListDel
  rw [hstore, Act.bind_ok hprint, Act.bind_ok hget, Act.bind_ok (editValue_eq hdelete hsize),
    ← htext]
  rw [hs₂] at hset
  exact hset

theorem vlanOp_refines (op : VlanOp) (hm : op.Meets l) :
    (op.run s).1 = .ok (op.apply l).1 ∧ stored (op.run s).2 = vlanText (op.apply l).2 := by
  cases op with
  | add v => exact apCfgVlanListAdd_refines h hl v hm
  | del v =>
      obtain ⟨hv, hfirst⟩ := hm
      obtain ⟨hret, hstored⟩ := apCfgVlanListDel_eq h hl v hv
      refine ⟨hret, hstored.trans (congrArg vlanText ?_)⟩
      obtain hmem | hhead := hfirst
      · have hhead : l.head? ≠ some v.toInt := fun e => hmem (List.mem_of_mem_head? e)
        rw [if_neg hhead]
        exact (List.erase_of_not_mem hmem).symm
      · rw [if_pos hhead]
        obtain ⟨d, l', rfl⟩ : ∃ d l', l = d :: l' := by
          cases l with
          | nil => cases hhead
          | cons d l' => exact ⟨d, l', rfl⟩
        rw [Option.some.inj hhead]
        exact (List.erase_cons_head ..).symm
  | clear => exact ⟨rfl, s.config.get_set_self _ _⟩

end Calls

/-- What is left of a list takes no more room. -/
theorem length_erase_le {l : List Int} {v : Int} (h : v ∉ l ∨ l.head? = some v) :
    (vlanText (l.erase v)).length ≤ (vlanText l).length := by
  obtain hmem | hhead := h
  · rw [List.erase_of_not_mem hmem]
  · cases l with
    | nil => cases hhead
    | cons d l =>
        rw [Option.some.inj hhead, List.erase_cons_head, length_vlanText_cons]
        omega

/-- Every call that meets the condition keeps the list as it should be. -/
theorem VlanOk.apply {l : List Int} (h : VlanOk l) {op : VlanOp} (hm : op.Meets l) :
    VlanOk (op.apply l).2 := by
  cases op with
  | add v =>
      simp only [VlanOp.apply]
      split
      · exact h
      · rename_i hnot
        have hfits := hm.resolve_left hnot
        obtain ⟨hlo, hhi, hmem⟩ : ¬ v.toInt < 1 ∧ ¬ 4094 < v.toInt ∧ v.toInt ∉ l := by
          simpa [not_or] using hnot
        refine ⟨?_, ?_, ?_⟩
        · exact List.nodup_append.mpr ⟨h.nodup, List.nodup_singleton _, fun a ha b hb => by
            rw [List.mem_singleton.mp hb]
            exact fun e => hmem (e ▸ ha)⟩
        · intro d hd
          obtain hd | hd := List.mem_append.mp hd
          · exact h.range d hd
          · rw [List.mem_singleton.mp hd]
            omega
        · rw [vlanText_append_singleton, CStr.length_append, CStr.length_append]
          exact hfits
  | del v =>
      obtain ⟨-, hfirst⟩ := hm
      refine ⟨h.nodup.erase _, fun d hd => h.range d (List.mem_of_mem_erase hd), ?_⟩
      exact Nat.lt_of_le_of_lt (length_erase_le hfirst) h.length_lt
  | clear => exact .nil

/-! ### Runs -/

/-- Each call of the sequence meets the condition where it is made. -/
def VlanOp.MeetsAll : List VlanOp → List Int → Prop
  | [], _ => True
  | op :: ops, l => op.Meets l ∧ MeetsAll ops (op.apply l).2

theorem VlanOp.meetsAll_append {pre post : List VlanOp} {l : List Int}
    (h : VlanOp.MeetsAll (pre ++ post) l) :
    VlanOp.MeetsAll pre l ∧ VlanOp.MeetsAll post (VlanOp.applyAll pre l) := by
  induction pre generalizing l with
  | nil => exact ⟨trivial, h⟩
  | cons op pre ih =>
      obtain ⟨hpre, hpost⟩ := ih h.2
      exact ⟨⟨h.1, hpre⟩, hpost⟩

/-- The text and the list after any sequence of calls. -/
theorem vlanRun {ops : List VlanOp} {s : VlanStore} {l : List Int} (h : stored s = vlanText l)
    (hl : VlanOk l) (hm : VlanOp.MeetsAll ops l) :
    stored (VlanOp.runAll ops s) = vlanText (VlanOp.applyAll ops l) ∧
      VlanOk (VlanOp.applyAll ops l) := by
  induction ops generalizing s l with
  | nil => exact ⟨h, hl⟩
  | cons op ops ih => exact ih (vlanOp_refines h hl op hm.1).2 (hl.apply hm.1) hm.2

/-- **The VLAN list is a set**, as long as every call meets the condition: the getter returns the
text of the ids added and not deleted since, each once, and every call returns what it should. -/
theorem vlanList_refines {ops : List VlanOp} {s : VlanStore} (h : stored s = .empty)
    (hm : VlanOp.MeetsAll ops []) (pre post : List VlanOp) (hsplit : ops = pre ++ post) :
    ((apCfgVlanListGet >>= fun _ => valueAt 0) (VlanOp.runAll pre s)).1 =
        .ok (vlanText (VlanOp.applyAll pre [])) ∧
      (VlanOp.applyAll pre []).Nodup ∧
      ∀ op rest, post = op :: rest →
        (op.run (VlanOp.runAll pre s)).1 = .ok (op.apply (VlanOp.applyAll pre [])).1 := by
  subst hsplit
  obtain ⟨hpre, hpost⟩ := VlanOp.meetsAll_append hm
  obtain ⟨hstored, hl⟩ := vlanRun h .nil hpre
  obtain ⟨s', hget, -, rest, hvalue, -⟩ := vlanGet_eq hstored hl
  refine ⟨?_, hl.nodup, ?_⟩
  · rw [Act.bind_ok hget, valueAt_eq (by rw [List.drop_zero, hvalue])]
  · rintro op post rfl
    exact (vlanOp_refines hstored hl op hpost.1).1

/-- No VLAN is listed. -/
def noVlan : VlanStore where
  config := { get := fun _ => .empty, flags := [], closed := false }
  value := List.replicate 65 0
  size_eq := List.length_replicate

theorem vlanList_refines_noVlan :
    ((apCfgVlanListGet >>= fun _ => valueAt 0)
        (VlanOp.runAll [.add 1, .add 20, .add 1, .del 1] noVlan)).1 = .ok (vlanText [20]) := by
  have hm : VlanOp.MeetsAll [.add 1, .add 20, .add 1, .del 1] [] :=
    ⟨.inr (by decide), .inr (by decide), .inl (by decide), ⟨by decide, .inr rfl⟩, trivial⟩
  exact (vlanList_refines (s := noVlan) rfl hm _ [] (List.append_nil _).symm).1

/-- **The second id of a list is not deleted.** -/
theorem vlanDel_second_lost :
    stored (VlanOp.runAll [.add 1, .add 2, .del 2] noVlan) = vlanText [1, 2] ∧
      VlanOp.applyAll [.add 1, .add 2, .del 2] [] = [1] := by
  have hm : VlanOp.MeetsAll [.add 1, .add 2] [] := ⟨.inr (by decide), .inr (by decide), trivial⟩
  obtain ⟨hstored, hl⟩ := vlanRun (s := noVlan) rfl .nil hm
  exact ⟨(apCfgVlanListDel_eq hstored hl 2 (by decide)).2, by decide⟩

end Wap4410n.Apcfg
