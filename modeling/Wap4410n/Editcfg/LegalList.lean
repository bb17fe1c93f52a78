import Wap4410n.Editcfg.Assign
import Wap4410n.Editcfg.Dump
import Wap4410n.Editcfg.Output
import Wap4410n.Editcfg.Export
import Wap4410n.Support.Runs

/-!
# Editcfg — the list of legal access points

`rogueApMacList` has two counters: `no`, the number of entries there should be, and `outNo`, the
number of those that an import has stored or an export has written.  An import sets `no` from the
text and counts `outNo` up to it; an export starts from what `outputCFGGet` leaves, and counts
`outNo` up to `no` as well.  `outputCFGGet` fills the list in monitor mode only, and the number of
the text is stored unsigned, whatever its sign.

* `outputMacs_exact`: the loop of `OutputScMacList` ends just when `outNo < no ≤ AC_NO`.
* `legalList_counters`: the counters over any sequence of operations.
* `negative_no`: a number below 0, and an export behind an import.
-/

namespace Wap4410n.Editcfg

open CLib Apcfg

/-! ### The counters -/

/-- The counters are in order. -/
structure Counters (p : RogueAPMacList) : Prop where
  outNo_le : p.outNo.toNat ≤ p.no.toNat
  no_le : p.no.toNat ≤ acNo

variable {p : RogueAPMacList} {g : Globals}

theorem toNat_succ {k : UInt16} (hk : k.toNat < acNo) : (k + 1).toNat = k.toNat + 1 := by
  have hk' : k.toNat < 256 := hk
  rw [UInt16.toNat_add]
  exact Nat.mod_eq_of_lt (by
    change k.toNat + 1 < _
    omega)

/-- **The loop of `OutputScMacList`** ends just when there are entries to write and they are in the
list. -/
theorem outputMacs_exact (temp : List Byte) : ∀ {n : Nat} {k : UInt16}, k.toNat + n = acNo →
    (k.toNat < p.no.toNat ∧ p.no.toNat ≤ acNo ∧ ∃ s, outputMacs p temp n k = .ok (s, p.no)) ∨
    (¬ (k.toNat < p.no.toNat ∧ p.no.toNat ≤ acNo) ∧
      outputMacs p temp n k = .error (.outside .variable))
  | 0, k, hn => by
      refine .inr ⟨fun h => ?_, rfl⟩
      have hk : k.toNat = acNo := hn
      exact absurd (hk ▸ h.1) (Nat.not_lt_of_le h.2)
  | n + 1, k, hn => by
      have hk : k.toNat < acNo := by omega
      have hsucc := toNat_succ hk
      rw [outputMacs]
      by_cases hlast : p.no = k + 1
      · rw [if_pos hlast, hlast, hsucc]
        exact .inl ⟨Nat.lt_succ_self _, hk, _, rfl⟩
      · rw [if_neg hlast]
        obtain ⟨hlt, hle, s, hs⟩ | ⟨hno, he⟩ :=
          outputMacs_exact temp (n := n) (k := k + 1) (by omega)
        · rw [hs]
          exact .inl ⟨by omega, hle, _, rfl⟩
        · rw [he]
          refine .inr ⟨fun h => hno ⟨?_, h.2⟩, rfl⟩
          have hne : p.no.toNat ≠ k.toNat + 1 := fun h => hlast (UInt16.toNat_inj.mp (by omega))
          omega

/-- What `OutputScMacList` leaves, behind a line that `temp` holds. -/
theorem outputScMacList_exact {buff : List Byte} (hbuff : (lineSoFar buff).length ≤ 80) :
    (g.rogueApMacList.no = 0 ∧ outputScMacList g buff = .ok ([], g)) ∨
    (g.rogueApMacList.outNo.toNat < g.rogueApMacList.no.toNat ∧
      g.rogueApMacList.no.toNat ≤ acNo ∧ ∃ s, outputScMacList g buff =
        .ok (s, g.setRogue { g.rogueApMacList with outNo := g.rogueApMacList.no })) ∨
    (g.rogueApMacList.no ≠ 0 ∧ ¬ (g.rogueApMacList.outNo.toNat < g.rogueApMacList.no.toNat ∧
        g.rogueApMacList.no.toNat ≤ acNo) ∧
      outputScMacList g buff = .error (.outside .variable)) := by
  unfold outputScMacList
  by_cases hno : g.rogueApMacList.no = 0
  · exact .inl ⟨hno, if_pos hno⟩
  · refine .inr ?_
    dsimp only
    rw [if_neg hno, if_neg (Nat.not_lt_of_le hbuff)]
    by_cases hout : g.rogueApMacList.outNo.toNat ≤ acNo
    · obtain ⟨hlt, hle, s, hs⟩ | ⟨hnot, he⟩ := outputMacs_exact (p := g.rogueApMacList)
        (lineSoFar buff) (Nat.add_sub_of_le hout)
      · rw [hs]
        exact .inl ⟨hlt, hle, s, rfl⟩
      · rw [he]
        exact .inr ⟨hno, hnot, rfl⟩
    · have hzero : acNo - g.rogueApMacList.outNo.toNat = 0 := by omega
      rw [hzero]
      exact .inr ⟨hno, fun h => hout (by omega), rfl⟩

theorem toNat_pred {k : UInt16} (hk : 0 < k.toNat) : (k - 1).toNat = k.toNat - 1 :=
  UInt16.toNat_sub_of_le _ _ (UInt16.le_iff_toNat_le.mpr hk)

/-- `AssignScMacList` stores an entry within the list, or none. -/
theorem assignScMacList_counters (value : CStr) (h : Counters g.rogueApMacList) :
    ∃ g', assignScMacList value g = .ok g' ∧ Counters g'.rogueApMacList := by
  have hle := h.no_le
  unfold assignScMacList
  dsimp only
  generalize (if value.length = 12 then scMacStr12ToStr17 value.bytes else value.bytes) = mac
  split
  · exact ⟨g, rfl, h⟩
  · rename_i hfull
    have hlt : g.rogueApMacList.outNo.toNat < g.rogueApMacList.no.toNat := by
      rwa [UInt16.le_iff_toNat_le, not_le] at hfull
    split
    · exact ⟨g, rfl, h⟩
    · split
      · exact ⟨g, rfl, h⟩
      · split
        · -- the entry is in the list already: there is one less to come
          have hpred := toNat_pred (Nat.zero_lt_of_lt hlt)
          refine ⟨_, rfl, ?_, ?_⟩
          · change g.rogueApMacList.outNo.toNat ≤ (g.rogueApMacList.no - 1).toNat
            omega
          · change (g.rogueApMacList.no - 1).toNat ≤ acNo
            omega
        · have hroom : g.rogueApMacList.outNo.toNat < acNo := Nat.lt_of_lt_of_le hlt hle
          rw [if_neg (Nat.not_le_of_lt hroom)]
          refine ⟨_, rfl, ?_, hle⟩
          change (g.rogueApMacList.outNo + 1).toNat ≤ g.rogueApMacList.no.toNat
          rw [toNat_succ hroom]
          exact hlt

/-! ### `outputCFGGet` -/

/-- The entries of a list take twelve characters each. -/
theorem legalMacs_length : ∀ {n : Nat} {s : CStr} {macs : List (List Byte)},
    legalMacs n s = .ok macs → 12 * macs.length ≤ s.length
  | 0, s, macs, h => by
      cases h
      exact Nat.zero_le _
  | n + 1, s, macs, h => by
      unfold legalMacs at h
      cases hs : s.strtok [0x2c] with
      | none =>
          rw [hs] at h
          cases h
          exact Nat.zero_le _
      | some tr =>
          obtain ⟨t, r⟩ := tr
          have htoken := strtok_length (CStr.strtok_eq_some.mp hs)
          rw [hs] at h
          dsimp only at h
          split at h
          · cases h
          · rename_i hlong
            cases hrest : legalMacs n r with
            | error e =>
                rw [hrest] at h
                cases h
            | ok rest =>
                rw [hrest] at h
                cases h
                have ih := legalMacs_length hrest
                unfold CStr.length at ih hlong ⊢
                rw [List.length_cons]
                omega

/-- An entry that is too short is read past its end. -/
theorem legalMacs_error : ∀ {n : Nat} {s : CStr} {e : Fault Buf},
    legalMacs n s = .error e → e = .outside .token
  | 0, _, _, h => by cases h
  | n + 1, s, e, h => by
      unfold legalMacs at h
      split at h
      · cases h
      · rename_i t r _
        split at h
        · cases h
          rfl
        · cases hrest : legalMacs n r with
          | error e' =>
              rw [hrest] at h
              cases h
              exact legalMacs_error hrest
          | ok rest =>
              rw [hrest] at h
              cases h

/-- A list that can be read is in order. -/
theorem legalList_inOrder {pList : CStr} {p' : RogueAPMacList} (h : legalList pList p = .ok p') :
    Counters p' := by
  unfold legalList at h
  split at h
  · cases h
    exact ⟨le_rfl, Nat.zero_le _⟩
  · split at h
    · cases h
    · cases hmacs : legalMacs pList.length pList with
      | error e =>
          rw [hmacs] at h
          cases h
      | ok macs =>
          rw [hmacs] at h
          dsimp only [Run.ok_bind] at h
          split at h
          · cases h
          · rename_i hle
            cases h
            refine ⟨Nat.zero_le _, ?_⟩
            exact Nat.le_trans (Nat.mod_le _ _) (Nat.le_of_not_lt hle)

/-- The entries of a text that fits the getter's buffer are within the list. -/
theorem legalList_fits {pList : CStr} (hlen : pList.length ≤ maxLegalaplist) :
    legalList pList p ≠ .error (.outside .variable) := by
  intro h
  unfold legalList at h
  split at h
  · cases h
  · split at h
    · cases h
    · cases hmacs : legalMacs pList.length pList with
      | error e =>
          rw [hmacs] at h
          have he := legalMacs_error hmacs
          rw [he] at h
          cases h
      | ok macs =>
          have hcount := legalMacs_length hmacs
          have hfew : ¬ acNo < macs.length := by
            unfold maxLegalaplist at hlen
            unfold acNo
            omega
          rw [hmacs] at h
          dsimp only [Run.ok_bind] at h
          rw [if_neg hfew] at h
          cases h

/-- The load leaves the counters in order. -/
def KeepsCounters (l : Load) : Prop :=
  ∀ g c g', Counters g.rogueApMacList → (l.run g c).1 = .ok g' → Counters g'.rogueApMacList

namespace KeepsCounters

variable {l l' : Load}

/-- It does not write the list. -/
theorem of_frame (h : l.writes.contains .rogueApMacList = false) : KeepsCounters l := by
  intro g c g' hg hrun
  have hsame : g.rogueApMacList = g'.rogueApMacList :=
    l.frame hrun .rogueApMacList (by simpa using h)
  rwa [← hsame]

theorem andThen (h : KeepsCounters l) (h' : KeepsCounters l') : KeepsCounters (l.andThen l') := by
  intro g c g' hg hrun
  obtain ⟨g₁, hfirst, hsecond⟩ := Load.andThen_ok l l' hrun
  exact h' g₁ _ g' (h g c g₁ hg hfirst) hsecond

theorem all : ∀ {loads : List Load}, (∀ l ∈ loads, KeepsCounters l) → KeepsCounters (.all loads)
  | [], _ => of_frame rfl
  | l :: _, h =>
    (h l List.mem_cons_self).andThen (all fun l' hl' => h l' (List.mem_cons_of_mem l hl'))

theorem ite {q : Globals → Bool} (h : KeepsCounters l) (h' : KeepsCounters l') :
    KeepsCounters (.ite q l l') := by
  intro g c g' hg hrun
  change ((if q g then l.run g else l'.run g) c).1 = .ok g' at hrun
  split at hrun
  · exact h g c g' hg hrun
  · exact h' g c g' hg hrun

theorem loadLegalAps : KeepsCounters loadLegalAps := by
  intro g c g' _ hrun
  cases hget : (scApCfgLegalApListGet c).1 with
  | error e =>
      have hbind : (Editcfg.loadLegalAps.run g c) = (.error e, (scApCfgLegalApListGet c).2) :=
        Act.bind_error (Prod.ext hget rfl) _
      rw [hbind] at hrun
      cases hrun
  | ok pList =>
      have hbind : (Editcfg.loadLegalAps.run g c).1 =
          (legalList pList g.rogueApMacList >>= fun l => .ok (g.setRogue l)) :=
        congrArg Prod.fst (Act.bind_ok (Prod.ext hget rfl) _)
      rw [hbind] at hrun
      cases hl : legalList pList g.rogueApMacList with
      | error e =>
          rw [hl] at hrun
          cases hrun
      | ok l =>
          rw [hl] at hrun
          cases hrun
          exact legalList_inOrder hl

/-- `outputCFGGet` fills the list in monitor mode, and leaves it alone else. -/
theorem outputCFGGet (dev : Device) : KeepsCounters (Editcfg.outputCFGGet dev) := by
  have hmode : KeepsCounters (.all (dumpApMode dev)) := by
    refine all fun l hl => ?_
    simp only [dumpApMode, List.mem_cons, List.not_mem_nil, or_false] at hl
    obtain rfl | rfl | rfl | rfl | rfl | rfl | rfl := hl
    case inr.inr.inr.inr.inr.inr =>
      refine ite (all fun l hl => ?_) (of_frame rfl)
      rw [List.mem_singleton.mp hl]
      exact loadLegalAps
    all_goals exact of_frame rfl
  change KeepsCounters (.all (dumpLoads dev))
  refine all fun l hl => ?_
  simp only [dumpLoads, List.mem_cons, List.not_mem_nil, or_false] at hl
  obtain rfl | rfl | rfl | rfl | rfl | rfl | rfl | rfl | rfl | rfl | rfl | rfl | rfl | rfl := hl
  case inr.inr.inr.inr.inr.inr.inr.inr.inr.inr.inr.inl => exact hmode
  all_goals exact of_frame rfl

end KeepsCounters

/-! ### Operations -/

/-- The operations on the list: the import of the number of entries and of an entry, the fill from a
configuration, and the export behind what is written already. -/
inductive ListOp where
  | entryNo (value : CStr)
  | entry (value : CStr)
  | get (c : Config)
  | output (front : List Byte)

/-- The row of the entries. -/
def legalAp : CStr := .text "Legal_AP"

namespace ListOp

variable (dev : Device)

/-- `Assign0To255`, `AssignScMacList`, `outputCFGGet` and `OutputScMacList` -/
def run (g : Globals) : ListOp → Run Buf Globals
  | entryNo value => Assign.run dev value g .rogueNo
  | entry value => Assign.run dev value g .scMacList
  | get c => ((outputCFGGet dev).run g c).1
  | output front => (Output.run (front ++ (crlf ++ outputAttr legalAp)) g .scMacList).map Prod.snd

/-- The variables behind an operation; one that leaves an object is not carried out. -/
def step (g : Globals) (op : ListOp) : Globals :=
  match op.run dev g with
  | .ok g' => g'
  | .error _ => g

/-- The condition of an operation: a number up to 255 has at most 256 in its low 16 bits, as it has
from 0 on, and an export starts with an empty list or with entries that are not counted yet. -/
def Regular (g : Globals) : ListOp → Prop
  | entryNo value => atoi value ≤ 255 → (UInt16.ofInt (atoi value)).toNat ≤ acNo
  | output _ => g.rogueApMacList.no = 0 ∨ g.rogueApMacList.outNo ≠ g.rogueApMacList.no
  | entry _ | get _ => True

/-- The operation ends, within `mac` and `temp`. -/
def Within (g : Globals) : ListOp → Prop
  | get c => ∀ pList, (scApCfgLegalApListGet c).1 = .ok pList →
      legalList pList g.rogueApMacList ≠ .error (.outside .variable)
  | op => ∃ g', op.run dev g = .ok g'

end ListOp

/-- A line so far is its attribute. -/
theorem length_lineSoFar (front : List Byte) {attr : List Byte} (hattr : 0x0a ∉ attr) :
    (lineSoFar (front ++ (crlf ++ (attr ++ [0x3d])))).length ≤ attr.length + 3 := by
  have hback : (front ++ (crlf ++ (attr ++ [0x3d]))).reverse =
      0x3d :: (attr.reverse ++ 0x0a :: 0x0d :: front.reverse) := by
    simp [crlf]
  have hfind : (attr.reverse ++ 0x0a :: 0x0d :: front.reverse).findIdx (· = 0x0a) =
      attr.length := by
    have hall : ∀ b ∈ attr.reverse, decide (b = 0x0a) = false := fun b hb =>
      decide_eq_false fun heq => hattr (heq ▸ List.mem_reverse.mp hb)
    rw [List.findIdx_append, List.findIdx_eq_length_of_false hall, if_neg (lt_irrefl _),
      List.findIdx_cons, List.length_reverse]
    exact Nat.zero_add _
  unfold lineSoFar
  dsimp only
  rw [hback, List.drop_succ_cons, List.drop_zero, hfind, List.length_reverse]
  exact List.length_take_le _ _

/-! ### Runs -/

variable {dev : Device}

theorem legalAp_line : outputAttr legalAp = legalAp.bytes ++ [0x3d] ∧ 0x0a ∉ legalAp.bytes ∧
    legalAp.bytes.length = 8 := by
  decide

theorem lineSoFar_legalAp (front : List Byte) :
    (lineSoFar (front ++ (crlf ++ outputAttr legalAp))).length ≤ 80 := by
  obtain ⟨hline, hfeed, hlen⟩ := legalAp_line
  have h := length_lineSoFar front hfeed
  rw [hline]
  omega

/-- **One operation**: under its condition it ends within the list, and leaves the counters in
order. -/
theorem ListOp.step_counters (g : Globals) (op : ListOp) (hg : Counters g.rogueApMacList)
    (hop : op.Regular g) : op.Within dev g ∧ Counters (op.step dev g).rogueApMacList := by
  cases op with
  | entryNo value =>
      refine ⟨⟨_, rfl⟩, Nat.zero_le _, ?_⟩
      change (if atoi value ≤ 255 then UInt16.ofInt (atoi value) else
        g.rogueApMacList.no).toNat ≤ acNo
      split
      · rename_i hle
        exact hop hle
      · exact hg.no_le
  | entry value =>
      obtain ⟨g', hrun, hg'⟩ := assignScMacList_counters value hg
      have hstep : (ListOp.entry value).run dev g = .ok g' := hrun
      rw [step, hstep]
      exact ⟨⟨g', hstep⟩, hg'⟩
  | get c =>
      constructor
      · intro pList hget
        refine legalList_fits (Nat.le_of_lt_succ ?_)
        have hstored := getText_eq (k := legalKey) (c := c) (maxLegalaplist + 1)
        rw [scApCfgLegalApListGet, hstored] at hget
        dsimp only at hget
        split at hget
        · rename_i hlt
          cases hget
          exact hlt
        · cases hget
      · unfold step
        cases hrun : (ListOp.get c).run dev g with
        | ok g' => exact KeepsCounters.outputCFGGet dev g c g' hg hrun
        | error e => exact hg
  | output front =>
      obtain ⟨-, hrun⟩ | ⟨-, hle, s, hrun⟩ | ⟨hno, hnot, -⟩ :=
        outputScMacList_exact (g := g) (lineSoFar_legalAp front)
      · have hstep : (ListOp.output front).run dev g = .ok g := congrArg (Except.map Prod.snd) hrun
        rw [step, hstep]
        exact ⟨⟨g, hstep⟩, hg⟩
      · have hstep : (ListOp.output front).run dev g =
            .ok (g.setRogue { g.rogueApMacList with outNo := g.rogueApMacList.no }) :=
          congrArg (Except.map Prod.snd) hrun
        rw [step, hstep]
        exact ⟨⟨_, hstep⟩, le_rfl, hle⟩
      · have hne : g.rogueApMacList.outNo ≠ g.rogueApMacList.no := hop.resolve_left hno
        refine absurd ⟨?_, hg.no_le⟩ hnot
        exact Nat.lt_of_le_of_ne hg.outNo_le fun h => hne (UInt16.toNat_inj.mp h)

/-- **The counters of the list** are in order in every state that operations reach, and the next
operation ends within the list, as long as no number is negative and no export starts behind the
last entry. -/
theorem legalList_counters {ops : List ListOp} {op : ListOp}
    (h : Meets (ListOp.step dev) ListOp.Regular Globals.initial (ops ++ [op])) :
    Counters (runs (ListOp.step dev) .initial ops).rogueApMacList ∧
      op.Within dev (runs (ListOp.step dev) .initial ops) := by
  have hinit : Counters Globals.initial.rogueApMacList := ⟨le_rfl, Nat.zero_le _⟩
  obtain ⟨hops, hop⟩ := Meets.append.mp h
  have hg : Counters (runs (ListOp.step dev) .initial ops).rogueApMacList :=
    Meets.invariant (I := fun g => Counters g.rogueApMacList)
      (fun g op hg hop => (ListOp.step_counters g op hg hop).2) hinit hops
  exact ⟨hg, (ListOp.step_counters _ op hg hop.1).1⟩

/-- Two entries are announced, and the list is written. -/
theorem legalList_counters_entryNo :
    (ListOp.output []).Within .bare
      (runs (ListOp.step .bare) .initial [ListOp.entryNo (.ofInt 2)]) := by
  have hm : Meets (ListOp.step .bare) ListOp.Regular .initial
      ([ListOp.entryNo (.ofInt 2)] ++ [ListOp.output []]) := by
    refine ⟨fun _ => ?_, Or.inr ?_, trivial⟩
    · rw [atoi_ofInt (by decide) (by decide)]
      decide
    · decide +kernel
  exact (legalList_counters hm).2

/-- `000000000000` -/
def zeros : CStr := ⟨List.replicate 12 0x30, by decide⟩

/-- What is announced as `v` and then stored. -/
theorem entry_zeros {v : Int} (h : -2 ^ 31 ≤ v) (h' : v ≤ 255)
    (hno : 0 < (UInt16.ofInt v).toNat) :
    (runs (ListOp.step .bare) .initial [ListOp.entryNo (.ofInt v)]).rogueApMacList.no =
        .ofInt v ∧
      (runs (ListOp.step .bare) .initial [ListOp.entryNo (.ofInt v),
        ListOp.entry zeros]).rogueApMacList.no = .ofInt v ∧
      (runs (ListOp.step .bare) .initial [ListOp.entryNo (.ofInt v),
        ListOp.entry zeros]).rogueApMacList.outNo = 1 := by
  let p : RogueAPMacList := { Globals.initial.rogueApMacList with no := .ofInt v, outNo := 0 }
  have hfirst : ListOp.step .bare .initial (.entryNo (.ofInt v)) = Globals.initial.setRogue p := by
    have hval : atoi (.ofInt v) = v := atoi_ofInt h (by omega)
    change assign0To255 (.ofInt v) .initial = _
    rw [assign0To255, hval, if_pos h']
  have hsecond : assignScMacList zeros (Globals.initial.setRogue p) =
      .ok ((Globals.initial.setRogue p).setRogue ⟨p.no, p.outNo + 1,
        Function.update p.mac p.outNo.toNat (scMacStr12ToStr17 zeros.bytes)⟩) := by
    have hopen : ¬ (Globals.initial.setRogue p).rogueApMacList.no ≤
        (Globals.initial.setRogue p).rogueApMacList.outNo := by
      rw [UInt16.le_iff_toNat_le, not_le]
      exact hno
    have hhex : isHexStr (decide (zeros.length = 17)) zeros.length 0 zeros.bytes = true := by
      simp [zeros, CStr.length, List.replicate, isHexStr, isHex]
    unfold assignScMacList
    dsimp only
    rw [if_neg hopen, if_neg (by decide), if_neg (not_not.mpr hhex)]
    rfl
  have hrun : (ListOp.entry zeros).run .bare (Globals.initial.setRogue p) = _ := hsecond
  refine ⟨?_, ?_⟩
  · rw [runs_cons, hfirst]
    rfl
  · rw [runs_cons, hfirst, runs_cons, ListOp.step, hrun]
    exact ⟨rfl, rfl⟩

/-- **A number below 0, and an export behind an import.** -/
theorem negative_no :
    ¬ Counters (runs (ListOp.step .bare) .initial
        [ListOp.entryNo (.ofInt (-1))]).rogueApMacList ∧
      (runs (ListOp.step .bare) .initial
        [ListOp.entryNo (.ofInt (-1)), ListOp.entry zeros]).rogueApMacList.outNo = 1 ∧
      ¬ (ListOp.output []).Within .bare (runs (ListOp.step .bare) .initial
        [ListOp.entryNo (.ofInt 1), ListOp.entry zeros]) := by
  obtain ⟨hno, -, hstored⟩ := entry_zeros (v := -1) (by decide) (by decide) (by decide)
  obtain ⟨-, hone, hout⟩ := entry_zeros (v := 1) (by decide) (by decide) (by decide)
  refine ⟨fun h => ?_, hstored, ?_⟩
  · have hle := h.no_le
    rw [hno] at hle
    exact absurd hle (by decide)
  · rintro ⟨g', hrun⟩
    obtain ⟨hzero, -⟩ | ⟨hlt, -, -, -⟩ | ⟨-, -, herr⟩ :=
      outputScMacList_exact (g := runs (ListOp.step .bare) .initial
        [ListOp.entryNo (.ofInt 1), ListOp.entry zeros]) (lineSoFar_legalAp [])
    · rw [hone] at hzero
      exact absurd hzero (by decide)
    · rw [hone, hout] at hlt
      exact absurd hlt (by decide)
    · have hfault := congrArg (Except.map Prod.snd) herr
      have hcontra := hfault.symm.trans hrun
      cases hcontra

end Wap4410n.Editcfg
