import Wap4410n.Snmp.Tables

/-!
# Snmp — walking over a table

A handler loads its table anew for every request and looks through the list for the row the request
is about.  `Table.var` is the handler of each table, on the lists as the requests before have left
them: a loader empties its list first, except that `loadvar_wlanRadiusTable` empties the list of
another table.

The result of this module is the walk: where the indices lie between 1 and 9999 the list holds one
row for each tuple of indices, in their order, and a reader who asks for the next instance again and
again is led through all of them and then told that there is none (`table_walk`).  It rests on the
numbers of the rows (`eachRow_numbered` for the loops over the VAPs), on what the requests before
may have left behind (`Reached.radius`), and on `addList` (`RowsInOrder.addList_all`).
-/

namespace Wap4410n.Snmp

open CLib Apcfg

/-! ### Tables and their handlers -/

/-- The tables, each named as in `loadvar_*` and `var_*`. -/
inductive Table where
  | wiredStatisticsTable
  | wlanAccessControlTable
  | wlanSettingTable
  | wirelessNetworkSSIDTable
  | wlanOperationTable
  | wlanWirelessClientListTable
  | wirelessStatisticsTable
  | vlanQOSTable
  | wlanSecurityTable
  | wlanRadiusTable
  | wlanAccessControlMACListTable
  | wlanLegalApListTable
  | wirelessNetworkTable
deriving DecidableEq, Repr

namespace Table

/-- The fields of a row besides `UID` and the indices. -/
abbrev Data : Table → Type
  | wiredStatisticsTable => WsTblData
  | wlanAccessControlTable => WacTblData
  | wlanSettingTable => WlasTblData
  | wirelessNetworkSSIDTable => WlnsTblData
  | wlanOperationTable => WloTblData
  | wlanWirelessClientListTable => WlclTblData
  | wirelessStatisticsTable => WlsTblData
  | vlanQOSTable => VqosTblData
  | wlanSecurityTable => LasTblData
  | wlanRadiusTable => WlarTblData
  | wlanAccessControlMACListTable => AcmlTblData
  | wlanLegalApListTable => LalTblData
  | wirelessNetworkTable => WlnwTblData

/-- How many indices a row has. -/
def width : Table → Nat
  | wiredStatisticsTable | wlanSettingTable | wlanOperationTable | wlanLegalApListTable
  | wirelessNetworkTable => 1
  | wlanAccessControlTable | wirelessNetworkSSIDTable | wirelessStatisticsTable | vlanQOSTable
  | wlanSecurityTable | wlanRadiusTable => 2
  | wlanWirelessClientListTable | wlanAccessControlMACListTable => 3

/-- `loadvar_*`: the rows that are added, with `nwlar` as it stands. -/
def loadvar (d : Device) (nwlar : Row WlarTblData) : (t : Table) → Cfg (List (Row t.Data))
  | wiredStatisticsTable => loadvarWiredStatisticsTable d
  | wlanAccessControlTable => loadvarWlanAccessControlTable
  | wlanSettingTable => loadvarWlanSettingTable
  | wirelessNetworkSSIDTable => loadvarWirelessNetworkSSIDTable d
  | wlanOperationTable => loadvarWlanOperationTable
  | wlanWirelessClientListTable => loadvarWlanWirelessClientListTable d
  | wirelessStatisticsTable => loadvarWirelessStatisticsTable d
  | vlanQOSTable => loadvarVlanQOSTable
  | wlanSecurityTable => loadvarWlanSecurityTable
  | wlanRadiusTable => loadvarWlanRadiusTable nwlar
  | wlanAccessControlMACListTable => loadvarWlanAccessControlMACListTable
  | wlanLegalApListTable => loadvarWlanLegalApListTable
  | wirelessNetworkTable => loadvarWirelessNetworkTable

/-- The table whose list the loader empties. -/
def flushed : Table → Table
  | wlanRadiusTable => wlanSecurityTable
  | t => t

end Table

/-- The lists, and the struct that is filled without having been cleared. -/
structure Lists where
  list : (t : Table) → List (Row t.Data)
  nwlar : Row WlarTblData

namespace Lists

/-- The lists as the agent starts. -/
def initial : Lists where
  list _ := []
  nwlar := .zeroed 2 {}

/-- `nwlar` behind a loader that has added `rows`. -/
def nwlarBehind (nwlar : Row WlarTblData) : (t : Table) → List (Row t.Data) → Row WlarTblData
  | .wlanRadiusTable, rows => rows.getLast?.getD nwlar
  | _, _ => nwlar

/-- What a loader that adds `rows` leaves. -/
def load (s : Lists) (t : Table) (rows : List (Row t.Data)) : Lists where
  list :=
    let flushed := Function.update s.list t.flushed (flushList (s.list t.flushed))
    Function.update flushed t (rows.foldl addList (flushed t))
  nwlar := nwlarBehind s.nwlar t rows

end Lists

/-- `var_*`: the new name and the row whose field is returned, or `NULL`, with the lists it leaves.
The getters that are called change no setting. -/
def Table.var (t : Table) (c : Config) (d : Device) (vpName name : Oid) (exact : Bool)
    (s : Lists) : Run Buf (Option (Oid × Row t.Data) × Lists) := do
  let rows ← (t.loadvar d s.nwlar c).1
  let s := s.load t rows
  return (varTable t.width (s.list t) vpName name exact, s)

/-- The lists that requests lead to, whatever the settings and the reports are. -/
inductive Reached : Lists → Prop where
  | start : Reached .initial
  | load {s : Lists} (h : Reached s) (t : Table) (c : Config) (d : Device)
      {rows : List (Row t.Data)} (hload : (t.loadvar d s.nwlar c).1 = .ok rows) :
      Reached (s.load t rows)

/-- GETNEXT requests one after the other, each for the instance behind the one before: the names
they return until one returns `NULL`. -/
inductive GetNexts (t : Table) (c : Config) (d : Device) (vpName : Oid) :
    Lists → Oid → List Oid → Prop where
  | stop {s s' : Lists} {name : Oid} (h : t.var c d vpName name false s = .ok (none, s')) :
      GetNexts t c d vpName s name []
  | go {s s' : Lists} {name n : Oid} {ns : List Oid} {r : Row t.Data}
      (h : t.var c d vpName name false s = .ok (some (n, r), s'))
      (rest : GetNexts t c d vpName s' n ns) : GetNexts t c d vpName s name (n :: ns)

/-! ### The numbers of the rows -/

section Numbered

variable {X α : Type} {k : Nat} {n : Row α}

/-- The row has the room of `k` indices. -/
def Row.Sized (k : Nat) (n : Row α) : Prop := ∃ is, is.length = k ∧ n.Holds is

theorem Row.sized_zeroed (k : Nat) (data : α) : (Row.zeroed k data).Sized k :=
  ⟨_, List.length_replicate, Row.holds_zeroed k data⟩

theorem Row.Sized.one (h : n.Sized 1) (a : Nat) : (n.setLong 0 a).Holds [a] := by
  obtain ⟨is, hlen, hn⟩ := h
  obtain ⟨i, rfl⟩ := List.length_eq_one_iff.mp hlen
  exact hn.setLong (by simp) a

theorem Row.Sized.two (h : n.Sized 2) (a b : Nat) : ((n.setLong 0 a).setLong 1 b).Holds [a, b] := by
  obtain ⟨is, hlen, hn⟩ := h
  obtain ⟨i, j, rfl⟩ := List.length_eq_two.mp hlen
  exact (hn.setLong (by simp) a).setLong (by simp) b

theorem Row.Sized.three (h : n.Sized 3) (a b c : Nat) :
    (((n.setLong 0 a).setLong 1 b).setLong 2 c).Holds [a, b, c] := by
  obtain ⟨is, hlen, hn⟩ := h
  obtain ⟨i, j, l, rfl⟩ := List.length_eq_three.mp hlen
  exact ((hn.setLong (by simp) a).setLong (by simp) b).setLong (by simp) c

/-- The rows are formed, and their indices are the tuples of `iss`. -/
def Numbered (k : Nat) (iss : List (List Nat)) (rows : List (Row α)) : Prop :=
  (∀ r ∈ rows, r.Formed k ∧ r.Sized k) ∧ rows.map (Row.indices k) = iss

/-- The row is one that indices were printed into. -/
def Printed (k : Nat) (is : List Nat) (r : Row α) : Prop :=
  ∃ m : Row α, m.Holds is ∧ r = m.sprintfUid k

theorem Printed.formed {is : List Nat} {r : Row α} (h : Printed k is r) (hlen : is.length = k)
    (hk : k ≤ 3) (hlt : ∀ i ∈ is, i < 10 ^ 4) :
    r.Formed k ∧ r.indices k = is ∧ r.Holds is := by
  obtain ⟨m, hm, rfl⟩ := h
  subst hlen
  obtain ⟨hformed, hindices⟩ := hm.formed hk hlt
  exact ⟨hformed, hindices, (hm.sprintfUid hk hlt).1⟩

/-- **A loop each turn of which prints the indices of its own row** numbers the rows as its
turns. -/
theorem eachRow_numbered {fill : X → Row α → Cfg (Row α)} {is : X → List Nat} (hk : k ≤ 3)
    (hfill : ∀ x n, n.Sized k → (fill x n).Yields (Printed k (is x))) {xs : List X}
    (his : ∀ x ∈ xs, (is x).length = k ∧ ∀ i ∈ is x, i < 10 ^ 4) (hn : n.Sized k) :
    (eachRow fill xs n).Yields (Numbered k (xs.map is)) := by
  induction xs generalizing n with
  | nil => exact .pure ⟨(fun _ h => nomatch h), rfl⟩
  | cons x xs ih =>
      obtain ⟨hlen, hlt⟩ := his x List.mem_cons_self
      refine .bind ((hfill x n hn).bind fun r hr => .pure
        (P := fun rows => ∃ r, Printed k (is x) r ∧ rows = [r]) ⟨r, hr, rfl⟩) ?_
      rintro _ ⟨r, hr, rfl⟩
      obtain ⟨hformed, hindices, hholds⟩ := hr.formed hlen hk hlt
      refine (ih (fun y hy => his y (List.mem_cons_of_mem x hy)) ⟨is x, hlen, hholds⟩).bind ?_
      rintro more ⟨hmore, hmap⟩
      refine .pure ⟨?_, ?_⟩
      · intro s hs
        rcases List.mem_cons.mp hs with rfl | hs
        · exact ⟨hformed, is x, hlen, hholds⟩
        · exact hmore s hs
      · rw [List.singleton_append, List.map_cons, List.map_cons, hindices, hmap]

end Numbered

/-- The indices of the rows of a radio. -/
def radioIndices : List (List Nat) := radios.map fun radio => [radio + 1]

/-- The indices of the rows of the VAPs. -/
def bssIndices : List (List Nat) := bsses.map fun bss => [bss.1 + 1, bss.2 + 1]

section Loaders

variable {d : Device} {α : Type} {n : Row α}

theorem Row.Sized.printed_one (h : n.Sized 1) (a : Nat) (f : α → α) :
    Printed 1 [a] (((n.setLong 0 a).assign f).sprintfUid 1) :=
  ⟨(n.setLong 0 a).assign f, h.one a, rfl⟩

theorem Row.Sized.printed_two (h : n.Sized 2) (a b : Nat) (f : α → α) :
    Printed 2 [a, b] ((((n.setLong 0 a).setLong 1 b).assign f).sprintfUid 2) :=
  ⟨((n.setLong 0 a).setLong 1 b).assign f, h.two a b, rfl⟩

theorem wiredStatisticsTable_numbered :
    (loadvarWiredStatisticsTable d).Yields (Numbered 1 [[1]]) := by
  show (loadvarWiredStatisticsTable d).Yields (Numbered 1 ([0].map fun lan => [lan + 1]))
  refine eachRow_numbered (by decide) ?_ (by decide) (Row.sized_zeroed 1 _)
  exact fun lan n hn => .behind fun _ => .behind fun _ => .pure (hn.printed_one _ _)

theorem wlanAccessControlTable_numbered :
    loadvarWlanAccessControlTable.Yields (Numbered 2 bssIndices) := by
  refine eachRow_numbered (by decide) ?_ (by decide) (Row.sized_zeroed 2 _)
  rintro ⟨radio, aclSSID⟩ n hn
  exact .behind fun _ => .behind fun _ => .pure (hn.printed_two _ _ _)

theorem wlanSettingTable_numbered :
    loadvarWlanSettingTable.Yields (Numbered 1 radioIndices) := by
  refine eachRow_numbered (by decide) (fun radio n hn => ?_) (by decide) (Row.sized_zeroed 1 _)
  iterate 12 refine .behind fun _ => ?_
  exact .pure (hn.printed_one _ _)

theorem wirelessNetworkSSIDTable_numbered :
    (loadvarWirelessNetworkSSIDTable d).Yields (Numbered 2 bssIndices) := by
  refine eachRow_numbered (by decide) ?_ (by decide) (Row.sized_zeroed 2 _)
  rintro ⟨radio, ssid⟩ n hn
  iterate 5 refine .behind fun _ => ?_
  exact .pure (hn.printed_two _ _ _)

theorem wlanOperationTable_numbered :
    loadvarWlanOperationTable.Yields (Numbered 1 radioIndices) := by
  refine eachRow_numbered (by decide) (fun radio n hn => ?_) (by decide) (Row.sized_zeroed 1 _)
  iterate 9 refine .behind fun _ => ?_
  exact .pure (hn.printed_one _ _)

theorem wirelessStatisticsTable_numbered :
    (loadvarWirelessStatisticsTable d).Yields (Numbered 2 bssIndices) := by
  refine eachRow_numbered (by decide) ?_ (by decide) (Row.sized_zeroed 2 _)
  rintro ⟨radio, ssid⟩ n hn
  iterate 9 refine .behind fun _ => ?_
  exact .pure (hn.printed_two _ _ _)

theorem vlanQOSTable_numbered : loadvarVlanQOSTable.Yields (Numbered 2 bssIndices) := by
  refine eachRow_numbered (by decide) ?_ (by decide) (Row.sized_zeroed 2 _)
  rintro ⟨radio, profileSSID⟩ n hn
  iterate 3 refine .behind fun _ => ?_
  exact .pure (hn.printed_two _ _ _)

theorem wlanSecurityTable_numbered :
    loadvarWlanSecurityTable.Yields (Numbered 2 bssIndices) := by
  refine eachRow_numbered (by decide) ?_ (by decide) (Row.sized_zeroed 2 _)
  rintro ⟨radio, wlanSSID⟩ n hn
  iterate 12 refine .behind fun _ => ?_
  exact .pure (hn.printed_two _ _ _)

theorem wlanRadiusTable_numbered {nwlar : Row WlarTblData} (hn : nwlar.Sized 2) :
    (loadvarWlanRadiusTable nwlar).Yields (Numbered 2 [[1, 1]]) := by
  show (loadvarWlanRadiusTable nwlar).Yields (Numbered 2
    ((radios.map fun radio => (radio, 0)).map fun radius => [radius.1 + 1, radius.2 + 1]))
  refine eachRow_numbered (by decide) ?_ (by decide) hn
  rintro ⟨radio, radius⟩ n hn
  iterate 6 refine .behind fun _ => ?_
  exact .pure (hn.printed_two _ _ _)

theorem wirelessNetworkTable_numbered :
    loadvarWirelessNetworkTable.Yields (Numbered 1 radioIndices) := by
  refine eachRow_numbered (by decide) (fun radio n hn => ?_) (by decide) (Row.sized_zeroed 1 _)
  iterate 3 refine .behind fun _ => ?_
  exact .pure (hn.printed_one _ _)

end Loaders

/-! ### Rows whose number is not bounded -/

section Counted

variable {α : Type} {n m r : Row α} {a b c : Nat}

/-- The indices that are read have four digits. -/
def Ranged (k : Nat) (rows : List (Row α)) : Prop := ∀ r ∈ rows, ∀ i ∈ r.indices k, i < 10 ^ 4

theorem Row.Holds.setLong_two (h : n.Holds [a, b, c]) (v : Nat) : (n.setLong 2 v).Holds [a, b, v] :=
  h.setLong (by simp) v

/-- The printing does not reach the third index. -/
theorem Row.Holds.long_two (h : m.Holds [a, b, c]) (ha : a < 10 ^ 4) (hb : b < 10 ^ 4) :
    (m.sprintfUid 3).long 2 = .ofNat c := by
  have hlong : ∀ i (hi : i < 3), m.long i = .ofNat ([a, b, c][i]) := fun i hi => h.long hi
  have hpad : ∀ v < 10 ^ 4, (printPadded 4 (UInt32.ofNat v).toInt32).length = 4 := by
    intro v hv
    have heq : printPadded 4 (UInt32.ofNat v).toInt32 = lastDigits 4 v :=
      printPadded_eq (by decide) (by decide) hv
    rw [heq, length_lastDigits]
  have htext : (((List.range 3).flatMap fun i => printPadded 4 (m.long i).toInt32) ++ [0]).length ≤
      Row.indexOffset + 2 * 4 := by
    have h2 := length_printPadded_le (w := 4) (by decide) (m.long 2).toInt32
    have h0 := hpad a ha
    have h1 := hpad b hb
    rw [show List.range 3 = [0, 1, 2] from rfl]
    simp only [List.flatMap_cons, List.flatMap_nil, List.length_append, List.length_singleton,
      List.append_nil]
    rw [hlong 0 (by decide), hlong 1 (by decide)]
    simp only [List.getElem_cons_zero, List.getElem_cons_succ, h0, h1, Row.indexOffset]
    omega
  have hdrop : (m.sprintfUid 3).mem.drop (Row.indexOffset + 2 * 4) =
      m.mem.drop (Row.indexOffset + 2 * 4) :=
    drop_splice (Nat.zero_le _) (by rwa [Nat.zero_add])
  rw [Row.long, hdrop, ← Row.long, hlong 2 (by decide)]
  rfl

/-- A row whose third index is of any size, where the indices that are read have four digits. -/
theorem Row.Holds.formed_of_ranged (h : m.Holds [a, b, c]) (ha : a < 10 ^ 4) (hb : b < 10 ^ 4)
    (hr : ∀ i ∈ (m.sprintfUid 3).indices 3, i < 10 ^ 4) :
    (m.sprintfUid 3).Formed 3 ∧ ∃ c', (m.sprintfUid 3).Holds [a, b, c'] := by
  have hc : c % 2 ^ 32 < 10 ^ 4 := by
    have hmem : ((m.sprintfUid 3).long 2).toNat ∈ (m.sprintfUid 3).indices 3 :=
      List.mem_map_of_mem (List.mem_range.mpr (by decide))
    have hlt := hr _ hmem
    rwa [h.long_two ha hb, UInt32.toNat_ofNat'] at hlt
  have hmod : m.Holds [a, b, c % 2 ^ 32] := by
    obtain ⟨u, hu, hm⟩ := h
    have hword : UInt32.ofNat c = UInt32.ofNat (c % 2 ^ 32) := by
      rw [← UInt32.toNat_inj, UInt32.toNat_ofNat', UInt32.toNat_ofNat', Nat.mod_mod]
    refine ⟨u, hu, hm.trans ?_⟩
    simp only [Row.image, List.flatMap_cons, hword]
  obtain ⟨hformed, -, hholds⟩ := Printed.formed ⟨m, hmod, rfl⟩ rfl (le_refl 3)
    (List.forall_mem_cons.mpr ⟨ha, List.forall_mem_cons.mpr ⟨hb, List.forall_mem_singleton.mpr hc⟩⟩)
  exact ⟨hformed, _, hholds⟩

end Counted

/-! ### The tables of three indices -/

section Three

variable {α : Type} {n : Row α} {a b c : Nat}

theorem ranged_cons {k : Nat} {r : Row α} {rows : List (Row α)} :
    Ranged k (r :: rows) ↔ (∀ i ∈ r.indices k, i < 10 ^ 4) ∧ Ranged k rows :=
  List.forall_mem_cons

theorem ranged_append {k : Nat} {rows more : List (Row α)} :
    Ranged k (rows ++ more) ↔ Ranged k rows ∧ Ranged k more :=
  List.forall_mem_append

/-- The rows are formed, and the struct is in `P` as the last one leaves it. -/
def FormedFrom (n : Row α) (P : Row α → Prop) (rows : List (Row α)) : Prop :=
  Ranged 3 rows → (∀ r ∈ rows, r.Formed 3) ∧ P (rows.getLast?.getD n)

variable {P Q : Row α → Prop}

theorem formedFrom_nil (h : P n) : FormedFrom n P [] := fun _ => ⟨(fun _ h => nomatch h), h⟩

theorem getLast?_cons_getD (r : Row α) (rows : List (Row α)) :
    (r :: rows).getLast?.getD n = rows.getLast?.getD r := by
  rw [List.getLast?_cons]
  rfl

theorem getLast?_append_getD (rows more : List (Row α)) :
    (rows ++ more).getLast?.getD n = more.getLast?.getD (rows.getLast?.getD n) := by
  rw [List.getLast?_append, Option.getD_or]

/-- A row more in front. -/
theorem formedFrom_cons {m : Row α} {rows : List (Row α)} (hm : m.Holds [a, b, c]) (ha : a < 10 ^ 4)
    (hb : b < 10 ^ 4) (h : ∀ c', (m.sprintfUid 3).Holds [a, b, c'] →
      FormedFrom (m.sprintfUid 3) P rows) : FormedFrom n P (m.sprintfUid 3 :: rows) := by
  intro hr
  obtain ⟨hfirst, hrest⟩ := ranged_cons.mp hr
  obtain ⟨hformed, c', hholds⟩ := hm.formed_of_ranged ha hb hfirst
  obtain ⟨hrows, hlast⟩ := h c' hholds hrest
  rw [getLast?_cons_getD]
  refine ⟨?_, hlast⟩
  intro r hmem
  rcases List.mem_cons.mp hmem with rfl | hmem
  · exact hformed
  · exact hrows r hmem

/-- Rows behind rows. -/
theorem formedFrom_append {rows more : List (Row α)} (h : FormedFrom n P rows)
    (h' : P (rows.getLast?.getD n) → FormedFrom (rows.getLast?.getD n) Q more) :
    FormedFrom n Q (rows ++ more) := by
  intro hr
  obtain ⟨hrows, hmore⟩ := ranged_append.mp hr
  obtain ⟨hformed, hlast⟩ := h hrows
  obtain ⟨hformed', hlast'⟩ := h' hlast hmore
  rw [getLast?_append_getD]
  refine ⟨?_, hlast'⟩
  intro r hmem
  rcases List.mem_append.mp hmem with hmem | hmem
  · exact hformed r hmem
  · exact hformed' r hmem

end Three

/-- **The rows of an access control list.** -/
theorem fillAcl_formedFrom {radio ssid : Nat} (hradio : radio + 1 < 10 ^ 4)
    (hssid : ssid + 1 < 10 ^ 4) (entries : List (CfgAclEntry × Nat)) {n : Row AcmlTblData}
    (hn : n.Sized 3) : (eachRow (fun entry n => return fillAcl radio ssid entry n) entries n).Yields
      (FormedFrom n (Row.Sized 3)) := by
  induction entries generalizing n with
  | nil => exact .pure (formedFrom_nil hn)
  | cons entry entries ih =>
      have hm : Row.Holds (((((n.setLong 0 (radio + 1)).setLong 1 (ssid + 1)).setLong 2
          (entry.2 + 1)).assign fun acml =>
            { aclMac := (acml.aclMac.memset 33).memcpy entry.1.mac.bytes })) _ :=
        hn.three (radio + 1) (ssid + 1) (entry.2 + 1)
      refine .bind (.pure (P := (· = [fillAcl radio ssid entry n])) rfl) ?_
      rintro _ rfl
      by_cases hr : ∀ i ∈ (fillAcl radio ssid entry n).indices 3, i < 10 ^ 4
      · obtain ⟨-, c, hholds⟩ := hm.formed_of_ranged hradio hssid hr
        refine (ih ⟨_, rfl, hholds⟩).bind ?_
        intro more hmore
        exact .pure (formedFrom_cons hm hradio hssid fun _ _ => hmore)
      · exact .behind fun more => .pure fun hall => absurd (ranged_cons.mp hall).1 hr

theorem wlanAccessControlMACListTable_formed : loadvarWlanAccessControlMACListTable.Yields
    fun rows => Ranged 3 rows → ∀ r ∈ rows, r.Formed 3 := by
  have hloop : ∀ xs : List (Nat × Nat), (∀ x ∈ xs, x.1 + 1 < 10 ^ 4 ∧ x.2 + 1 < 10 ^ 4) →
      ∀ n : Row AcmlTblData, n.Sized 3 → (eachRows (fun x n => do
        let pScAcl ← scAclBufGet x.1 x.2 false
        eachRow (fun entry n => return fillAcl x.1 x.2 entry n) (pScAcl.getD []).zipIdx n)
        xs n).Yields (FormedFrom n (Row.Sized 3)) := by
    intro xs
    induction xs with
    | nil => exact fun _ n hn => .pure (formedFrom_nil hn)
    | cons x xs ih =>
        intro hxs n hn
        obtain ⟨hradio, hssid⟩ := hxs x List.mem_cons_self
        refine .bind (.behind fun pScAcl => fillAcl_formedFrom hradio hssid _ hn) ?_
        intro rows hrows
        by_cases hr : Ranged 3 rows
        · refine (ih (fun y hy => hxs y (List.mem_cons_of_mem x hy)) _ (hrows hr).2).bind ?_
          intro more hmore
          exact .pure (formedFrom_append hrows fun _ => hmore)
        · exact .behind fun more => .pure fun hall => absurd (ranged_append.mp hall).1 hr
  exact (hloop bsses (by decide) _ (Row.sized_zeroed 3 _)).mono fun rows hrows hr => (hrows hr).1

/-! ### The client list -/

theorem fillClient_eq {n : Row WlclTblData} {a b c : Nat} (hn : n.Holds [a, b, c]) (count : Nat)
    (mac rate rssi status : CStr) :
    ∃ m : Row WlclTblData, m.Holds [a, b, count] ∧
      fillClient n count mac rate rssi status = m.sprintfUid 3 :=
  ⟨(n.setLong 2 count).assign _, hn.setLong_two count, rfl⟩

/-- **The rows of a file.** -/
theorem clientLines_formedFrom {A : Type} {parse : CStr → Parsed A}
    {fill : A → Row WlclTblData → Nat → Row WlclTblData} {a b : Nat} (ha : a < 10 ^ 4)
    (hb : b < 10 ^ 4) (hfill : ∀ x n c count, n.Holds [a, b, c] →
      ∃ m : Row WlclTblData, m.Holds [a, b, count] ∧ fill x n count = m.sprintfUid 3)
    (lines : List CStr) {n : Row WlclTblData} {c : Nat} (hn : n.Holds [a, b, c]) (count : Nat) :
    FormedFrom n (fun m => ∃ c, m.Holds [a, b, c]) (clientLines parse fill lines n count).1 := by
  induction lines generalizing n c count with
  | nil => exact formedFrom_nil ⟨c, hn⟩
  | cons line lines ih =>
      rw [clientLines]
      cases parse line with
      | skip => exact ih hn count
      | quit | overrun => exact formedFrom_nil ⟨c, hn⟩
      | row x =>
          obtain ⟨m, hm, heq⟩ := hfill x n c count hn
          simp only [heq]
          exact formedFrom_cons hm ha hb fun c' hc' => ih hc' (count + 1)

/-- The struct has the first two indices. -/
def OfVap (a b : Nat) (m : Row WlclTblData) : Prop := ∃ c, m.Holds [a, b, c]

theorem scstaRows_formedFrom {a b : Nat} (ha : a < 10 ^ 4) (hb : b < 10 ^ 4) (lines : List CStr)
    {n : Row WlclTblData} (hn : OfVap a b n) (count : Nat) :
    FormedFrom n (OfVap a b) (scstaRows lines n count).1 := by
  obtain ⟨c, hn⟩ := hn
  exact clientLines_formedFrom ha hb (fun _ _ _ count hn => fillClient_eq hn count _ _ _ _) lines hn
    count

theorem connectingRows_formedFrom {a b : Nat} (ha : a < 10 ^ 4) (hb : b < 10 ^ 4) (ssid : Nat)
    (lines : List CStr) {n : Row WlclTblData} (hn : OfVap a b n) (count : Nat) :
    FormedFrom n (OfVap a b) (connectingRows ssid lines n count).1 := by
  obtain ⟨c, hn⟩ := hn
  exact clientLines_formedFrom ha hb (fun _ _ _ count hn => fillClient_eq hn count _ _ _ _) lines hn
    count

theorem Ending.yields_behind {F : List (Row WlclTblData) → Prop} {rows : List (Row WlclTblData)}
    {more : Cfg (List (Row WlclTblData))} (ending : Ending) (hrows : F rows)
    (hmore : more.Yields fun rows' => F (rows ++ rows')) : (ending.behind rows more).Yields F := by
  cases ending with
  | eof => exact hmore.bind fun rows' h => .pure h
  | quit => exact .pure hrows
  | overrun => exact fun _ _ h => nomatch h

theorem clientVaps_formed {d : Device} {radio : Nat} (ssids : List Nat)
    (hssids : ∀ ssid ∈ ssids, ssid + 1 < 10 ^ 4) {n : Row WlclTblData} {a b : Nat}
    (ha : a < 10 ^ 4) (hn : OfVap a b n) (count : Nat) :
    (clientVaps d radio ssids n count).Yields fun rows =>
      Ranged 3 rows → ∀ r ∈ rows, r.Formed 3 := by
  induction ssids generalizing n b count with
  | nil => exact .pure fun _ _ h => nomatch h
  | cons ssid ssids ih =>
      have hb := hssids ssid List.mem_cons_self
      have hn' : OfVap a (ssid + 1) (n.setLong 1 (ssid + 1)) := by
        obtain ⟨c, hn⟩ := hn
        exact ⟨c, hn.setLong (by simp) (ssid + 1)⟩
      have hfirst := scstaRows_formedFrom ha hb ((d.aclOtherSta radio ssid).getD []) hn' count
      rw [clientVaps]
      refine .behind fun state => .ite (fun _ => .pure fun _ _ h => nomatch h) fun _ => ?_
      refine .behind fun active => .ite (fun _ => .pure fun _ _ h => nomatch h) fun _ => ?_
      generalize scstaRows ((d.aclOtherSta radio ssid).getD []) (n.setLong 1 (ssid + 1))
        count = first
        at hfirst
      obtain ⟨rows, ending⟩ := first
      dsimp only at hfirst ⊢
      have hsecond := fun hlast => connectingRows_formedFrom ha hb ssid
        (n := rows.getLast?.getD (n.setLong 1 (ssid + 1))) ((d.connectingCfb radio ssid).getD [])
        hlast (count + rows.length)
      generalize connectingRows ssid ((d.connectingCfb radio ssid).getD [])
        (rows.getLast?.getD (n.setLong 1 (ssid + 1))) (count + rows.length) = second at hsecond
      obtain ⟨rows', ending'⟩ := second
      have hboth := formedFrom_append hfirst hsecond
      refine Ending.yields_behind ending (fun hr => (hfirst hr).1) ?_
      refine Ending.yields_behind (F := fun more =>
        Ranged 3 (rows ++ more) → ∀ r ∈ rows ++ more, r.Formed 3) ending'
        (fun hr => (hboth hr).1) ?_
      simp only [← List.append_assoc]
      by_cases hr : Ranged 3 (rows ++ rows')
      · refine (ih (fun s hs => hssids s (List.mem_cons_of_mem ssid hs)) (hboth hr).2 _).mono ?_
        intro more hmore hall r hmem
        rcases List.mem_append.mp hmem with hmem | hmem
        · exact (hboth hr).1 r hmem
        · exact hmore (ranged_append.mp hall).2 r hmem
      · exact Act.Yields.any.mono fun more _ hall => absurd (ranged_append.mp hall).1 hr

theorem wlanWirelessClientListTable_formed {d : Device} :
    (loadvarWlanWirelessClientListTable d).Yields
      fun rows => Ranged 3 rows → ∀ r ∈ rows, r.Formed 3 := by
  have hzero := Row.holds_zeroed 3 ({} : WlclTblData)
  exact clientVaps_formed vaps (by decide) (by decide) ⟨0, hzero.setLong (by simp) 1⟩ 1

/-! ### The list of legal access points -/

/-- The rows are numbered from 1 on, up to the first that the text has no room for. -/
theorem legalApRows_numbered (p : CStr) {xs : List Nat} (hxs : ∀ x ∈ xs, x + 1 < 10 ^ 4)
    {n : Row LalTblData} (hn : n.Sized 1) :
    Numbered 1 ((xs.takeWhile fun x => (x + 1) * 13 ≤ p.length).map fun x => [x + 1])
      (legalApRows p xs n) := by
  induction xs generalizing n with
  | nil => exact ⟨(fun _ h => nomatch h), rfl⟩
  | cons x xs ih =>
      rw [legalApRows]
      split
      · rename_i hlt
        rw [List.takeWhile_cons_of_neg (by simpa using hlt)]
        exact ⟨(fun _ h => nomatch h), rfl⟩
      · rename_i hge
        have hx : ∀ i ∈ [x + 1], i < 10 ^ 4 := by simpa using hxs x List.mem_cons_self
        obtain ⟨hformed, hindices, hholds⟩ := (hn.printed_one (x + 1) fun lal =>
          { apMAC := lal.apMAC.memcpy ((p.bytes.drop (x * 13)).take 12) }).formed rfl (by decide) hx
        obtain ⟨hrows, hmap⟩ := ih (fun y hy => hxs y (List.mem_cons_of_mem x hy)) ⟨_, rfl, hholds⟩
        rw [List.takeWhile_cons_of_pos (by simpa using hge)]
        refine ⟨?_, ?_⟩
        · intro r hr
          rcases List.mem_cons.mp hr with rfl | hr
          · exact ⟨hformed, [x + 1], rfl, hholds⟩
          · exact hrows r hr
        · rw [List.map_cons, List.map_cons, hindices, hmap]

/-- The rows of a list that its getter has room for. -/
theorem wlanLegalApListTable_eq {c : Config} (h : (c.get legalKey).length < maxLegalaplist + 1) :
    loadvarWlanLegalApListTable c =
      (.ok (legalApRows (c.get legalKey) (List.range 11) (.zeroed 1 {})), c) := by
  have hget : scApCfgLegalApListGet c = (.ok (c.get legalKey), c) := by
    rw [scApCfgLegalApListGet, getText_eq, if_pos h]
  rw [loadvarWlanLegalApListTable, Act.bind_ok hget]
  rfl

theorem wlanLegalApListTable_formed :
    loadvarWlanLegalApListTable.Yields fun rows => ∀ r ∈ rows, r.Formed 1 :=
  .behind fun p => .pure fun r hr =>
    ((legalApRows_numbered p (by decide) (Row.sized_zeroed 1 _)).1 r hr).1

/-! ### What the requests leave -/

theorem Numbered.formed {α : Type} {k : Nat} {iss : List (List Nat)} {rows : List (Row α)}
    (h : Numbered k iss rows) : Ranged k rows → ∀ r ∈ rows, r.Formed k := fun _ r hr => (h.1 r hr).1

/-- **The rows of every table** are formed, where the indices that are read have four digits. -/
theorem Table.loadvar_formed (t : Table) {d : Device} {nwlar : Row WlarTblData}
    (hn : nwlar.Sized 2) :
    (t.loadvar d nwlar).Yields fun rows => Ranged t.width rows → ∀ r ∈ rows, r.Formed t.width := by
  cases t with
  | wiredStatisticsTable => exact wiredStatisticsTable_numbered.mono fun _ h => h.formed
  | wlanAccessControlTable => exact wlanAccessControlTable_numbered.mono fun _ h => h.formed
  | wlanSettingTable => exact wlanSettingTable_numbered.mono fun _ h => h.formed
  | wirelessNetworkSSIDTable => exact wirelessNetworkSSIDTable_numbered.mono fun _ h => h.formed
  | wlanOperationTable => exact wlanOperationTable_numbered.mono fun _ h => h.formed
  | wlanWirelessClientListTable => exact wlanWirelessClientListTable_formed
  | wirelessStatisticsTable => exact wirelessStatisticsTable_numbered.mono fun _ h => h.formed
  | vlanQOSTable => exact vlanQOSTable_numbered.mono fun _ h => h.formed
  | wlanSecurityTable => exact wlanSecurityTable_numbered.mono fun _ h => h.formed
  | wlanRadiusTable => exact (wlanRadiusTable_numbered hn).mono fun _ h => h.formed
  | wlanAccessControlMACListTable => exact wlanAccessControlMACListTable_formed
  | wlanLegalApListTable => exact wlanLegalApListTable_formed.mono fun _ h _ => h
  | wirelessNetworkTable => exact wirelessNetworkTable_numbered.mono fun _ h => h.formed

/-- What requests leave of the list that is not emptied, and of the struct that is not cleared. -/
structure RadiusKept (s : Lists) : Prop where
  inOrder : RowsInOrder 2 (s.list .wlanRadiusTable)
  indices : ∀ r ∈ s.list .wlanRadiusTable, r.indices 2 = [1, 1]
  sized : s.nwlar.Sized 2

theorem flushed_eq_self {t : Table} (ht : t ≠ .wlanRadiusTable) : t.flushed = t := by
  cases t <;> first | rfl | exact absurd rfl ht

theorem list_load_self (s : Lists) (t : Table) (rows : List (Row t.Data)) :
    (s.load t rows).list t = rows.foldl addList
      (Function.update s.list t.flushed (flushList (s.list t.flushed)) t) := Function.update_self ..

/-- A loader adds to the list it has emptied. -/
theorem list_load (s : Lists) {t : Table} (ht : t ≠ .wlanRadiusTable) (rows : List (Row t.Data)) :
    (s.load t rows).list t = rows.foldl addList [] := by
  have hflush : ∀ u, u = t → Function.update s.list u (flushList (s.list u)) t = [] := by
    rintro _ rfl
    exact Function.update_self ..
  rw [list_load_self, hflush _ (flushed_eq_self ht)]

/-- The list of the RADIUS servers is not emptied. -/
theorem list_load_radius (s : Lists) (rows : List (Row WlarTblData)) :
    (s.load .wlanRadiusTable rows).list .wlanRadiusTable =
      rows.foldl addList (s.list .wlanRadiusTable) := by
  have hne : Function.update s.list .wlanSecurityTable [] .wlanRadiusTable =
    s.list .wlanRadiusTable := Function.update_of_ne (by decide) ..
  exact (list_load_self s .wlanRadiusTable rows).trans (congrArg (rows.foldl addList) hne)

theorem list_load_ne (s : Lists) {t : Table} (ht : t ≠ .wlanRadiusTable)
    (rows : List (Row t.Data)) :
    (s.load t rows).list .wlanRadiusTable = s.list .wlanRadiusTable := by
  have hne : (s.load t rows).list .wlanRadiusTable = Function.update s.list t.flushed
    (flushList (s.list t.flushed)) .wlanRadiusTable := Function.update_of_ne ht.symm ..
  rw [hne]
  exact Function.update_of_ne (by rw [flushed_eq_self ht]; exact ht.symm) ..

theorem nwlar_load_ne (s : Lists) {t : Table} (ht : t ≠ .wlanRadiusTable)
    (rows : List (Row t.Data)) : (s.load t rows).nwlar = s.nwlar := by
  cases t <;> first | rfl | exact absurd rfl ht

/-- One row with the indices. -/
theorem Numbered.single {α : Type} {k : Nat} {is : List Nat} {rows : List (Row α)}
    (h : Numbered k [is] rows) : ∃ r, rows = [r] ∧ r.Formed k ∧ r.Sized k ∧ r.indices k = is := by
  obtain ⟨hformed, hmap⟩ := h
  obtain ⟨r, rfl⟩ : ∃ r, rows = [r] := List.length_eq_one_iff.mp (by
    rw [← List.length_map (Row.indices k), hmap]
    rfl)
  obtain ⟨hr, hsized⟩ := hformed r List.mem_cons_self
  exact ⟨r, rfl, hr, hsized, by simpa using hmap⟩

/-- Behind its own loader the list holds the row that was added. -/
theorem RadiusKept.list_radius {s : Lists} (h : RadiusKept s) {rows : List (Row WlarTblData)}
    (hrows : Numbered 2 [[1, 1]] rows) :
    (s.load .wlanRadiusTable rows).list .wlanRadiusTable = rows := by
  obtain ⟨r, rfl, hformed, -, hr⟩ := hrows.single
  have hadd : (s.load .wlanRadiusTable [r]).list .wlanRadiusTable =
      Keyed.place (Row.indices 2) (s.list .wlanRadiusTable) r :=
    (list_load_radius s [r]).trans (addList_eq_place hformed h.inOrder)
  have hcut : Keyed.place (Row.indices 2) ([] ++ (s.list .wlanRadiusTable ++ [])) r = [] ++ [r] :=
    Keyed.place_cut [] (s.list .wlanRadiusTable) [] (fun _ h => nomatch h)
      (fun y hy => (h.indices y hy).trans hr.symm) (fun _ h => nomatch h)
  rw [hadd]
  simpa using hcut

/-- **What the requests leave.** -/
theorem Reached.radius {s : Lists} (h : Reached s) : RadiusKept s := by
  induction h with
  | start => exact ⟨rowsInOrder_nil, (fun _ h => nomatch h), Row.sized_zeroed 2 _⟩
  | load h t c d hload ih =>
      rename_i s rows
      by_cases ht : t = .wlanRadiusTable
      · subst ht
        have hrows := wlanRadiusTable_numbered ih.sized c _ hload
        have hlist := ih.list_radius hrows
        obtain ⟨r, rfl, hformed, hsized, hr⟩ := hrows.single
        refine ⟨?_, ?_, hsized⟩
        · rw [hlist]
          exact ⟨by simpa using hformed, List.pairwise_singleton _ r⟩
        · rw [hlist]
          simpa using hr
      · refine ⟨?_, ?_, ?_⟩
        · rw [list_load_ne s ht]
          exact ih.inOrder
        · rw [list_load_ne s ht]
          exact ih.indices
        · rw [nwlar_load_ne s ht]
          exact ih.sized

/-! ### The walk -/

/-- **What a loader makes of the list**: it adds its rows to rows whose indices they have. -/
theorem Reached.list_eq {s : Lists} (hs : Reached s) {t : Table} {c : Config} {d : Device}
    {rows : List (Row t.Data)} (hload : (t.loadvar d s.nwlar c).1 = .ok rows) :
    ∃ l, RowsInOrder t.width l ∧ (∀ r ∈ l, ∃ x ∈ rows, x.indices t.width = r.indices t.width) ∧
      (s.load t rows).list t = rows.foldl addList l := by
  by_cases ht : t = .wlanRadiusTable
  · subst ht
    have hkept := hs.radius
    obtain ⟨x, rfl, -, -, hx⟩ := (wlanRadiusTable_numbered hkept.sized c _ hload).single
    refine ⟨s.list .wlanRadiusTable, hkept.inOrder, ?_, list_load_radius s _⟩
    exact fun r hr => ⟨x, List.mem_singleton_self x, hx.trans (hkept.indices r hr).symm⟩
  · exact ⟨[], rowsInOrder_nil, (fun _ h => nomatch h), list_load s ht rows⟩

/-- **The list behind a loader**, in order, with the last row of each tuple of indices. -/
theorem Reached.load_inOrder {s : Lists} (hs : Reached s) {t : Table} {c : Config} {d : Device}
    {rows : List (Row t.Data)} (hload : (t.loadvar d s.nwlar c).1 = .ok rows)
    (hr : Ranged t.width rows) : RowsInOrder t.width ((s.load t rows).list t) ∧
      ∀ r, r ∈ (s.load t rows).list t ↔
        Keyed.lookup (Row.indices t.width) rows.reverse (r.indices t.width) = some r := by
  obtain ⟨l, hl, hsub, hlist⟩ := hs.list_eq hload
  have hformed := t.loadvar_formed hs.radius.sized c rows hload hr
  obtain ⟨hplace, hinOrder⟩ := hl.addList_all hformed
  rw [hlist]
  refine ⟨hinOrder, fun r => ?_⟩
  have hmem : r ∈ rows.foldl addList l ↔
      Keyed.lookup (Row.indices t.width) (rows.foldl addList l) (r.indices t.width) = some r := by
    rw [Keyed.lookup_eq_some hinOrder.increasing, and_iff_left rfl]
  rw [hmem, hplace, Keyed.lookup_placeAll]
  cases hfind : Keyed.lookup (Row.indices t.width) rows.reverse (r.indices t.width) with
  | some x => rfl
  | none =>
      -- no row has the indices, and hence none of those that were left
      have hnone : Keyed.lookup (Row.indices t.width) l (r.indices t.width) = none := by
        rw [Keyed.lookup, List.find?_eq_none]
        intro y hy
        obtain ⟨x, hx, hxy⟩ := hsub y hy
        rw [← hxy]
        exact List.find?_eq_none.mp hfind x (List.mem_reverse.mpr hx)
      rw [hnone]
      rfl

theorem returnsAt_eachRow {X α : Type} {fill : X → Row α → Cfg (Row α)} {x : X} {n : Row α}
    {c : Config} : Act.ReturnsAt c (eachRow fill [x] n) ↔ Act.ReturnsAt c (fill x n) := by
  have hturn : ∀ s, Act.ReturnsAt s (fill x n) ↔
      ∃ rows, ((fill x n >>= fun r => pure [r]) s).1 = .ok rows := by
    intro s
    exact ⟨fun ⟨r, hr⟩ => Act.returnsAt_bind.mpr ⟨r, hr, Act.returnsAt_pure _ _⟩,
      fun h => (Act.returnsAt_bind.mp h).imp fun _ => And.left⟩
  rw [hturn, eachRow, eachRows, Act.returnsAt_bind]
  exact exists_congr fun rows => and_iff_left
    (Act.returnsAt_bind.mpr ⟨[], rfl, Act.returnsAt_pure _ _⟩)

/-- Whether the RADIUS servers are loaded does not depend on what was left of the struct. -/
theorem returnsAt_wlanRadiusTable (c : Config) (n n' : Row WlarTblData) :
    Act.ReturnsAt c (loadvarWlanRadiusTable n) ↔ Act.ReturnsAt c (loadvarWlanRadiusTable n') := by
  simp only [loadvarWlanRadiusTable, radios, List.map_cons, List.map_nil, returnsAt_eachRow,
    Act.returnsAt_bind, Act.returnsAt_pure]

/-- The settings and the reports give the table rows within range, and the tuples of their indices
are `iss`. -/
structure Serves (t : Table) (c : Config) (d : Device) (iss : List (List Nat)) (s : Lists) :
    Prop where
  reached : Reached s
  rows : ∃ rows, (t.loadvar d s.nwlar c).1 = .ok rows ∧ Ranged t.width rows ∧
    ((s.load t rows).list t).map (Row.indices t.width) = iss

/-- **What one request is given, the next is given as well.** -/
theorem Serves.load {t : Table} {c : Config} {d : Device} {iss : List (List Nat)} {s : Lists}
    (h : Serves t c d iss s) {rows : List (Row t.Data)}
    (hload : (t.loadvar d s.nwlar c).1 = .ok rows) : Serves t c d iss (s.load t rows) := by
  obtain ⟨hs, rows', hload', hranged, hindices⟩ := h
  cases hload.symm.trans hload'
  refine ⟨hs.load t c d hload, ?_⟩
  by_cases ht : t = .wlanRadiusTable
  · subst ht
    have hs' := hs.load .wlanRadiusTable c d hload
    obtain ⟨more, hmore⟩ := (returnsAt_wlanRadiusTable c _ _).mp ⟨rows, hload⟩
    have hrows := wlanRadiusTable_numbered hs.radius.sized c _ hload
    have hmore' := wlanRadiusTable_numbered hs'.radius.sized c _ hmore
    refine ⟨more, hmore, ?_, ?_⟩
    · obtain ⟨r, rfl, -, -, hr⟩ := hmore'.single
      have hone : ∀ i ∈ r.indices 2, i < 10 ^ 4 := by
        rw [hr]
        decide
      exact fun x hx => List.mem_singleton.mp hx ▸ hone
    · rw [hs.radius.list_radius hrows] at hindices
      rw [hs'.radius.list_radius hmore', ← hindices]
      exact hmore'.2.trans hrows.2.symm
  · refine ⟨rows, ?_, hranged, ?_⟩
    · rwa [nwlar_load_ne s ht]
    · rw [list_load _ ht, ← list_load s ht]
      exact hindices

theorem Table.var_eq {t : Table} {c : Config} {d : Device} {s : Lists} {rows : List (Row t.Data)}
    (hload : (t.loadvar d s.nwlar c).1 = .ok rows) (vpName name : Oid) (exact : Bool) :
    t.var c d vpName name exact s =
      .ok (varTable t.width ((s.load t rows).list t) vpName name exact, s.load t rows) := by
  rw [Table.var, hload]
  rfl

/-- A GETNEXT request finds the next tuple of indices. -/
theorem varTable_map_fst {α : Type} {k : Nat} (l : List (Row α)) (vpName name : Oid) :
    (varTable k l vpName name false).map Prod.fst =
      (Keyed.next (vpName ++ ·) (l.map (Row.indices k)) name).map (vpName ++ ·) := by
  rw [varTable_eq, if_neg Bool.false_ne_true, Keyed.next, Keyed.next, List.find?_map,
    Option.map_map, Option.map_map]
  rfl

/-- **The requests of a walk** return the names of the instances behind the start, and then
`NULL`. -/
theorem Serves.getNexts {t : Table} {c : Config} {d : Device} {iss xs : List (List Nat)}
    {vpName name : Oid} (hw : Keyed.Walk (vpName ++ ·) (Keyed.next (vpName ++ ·) iss) name xs)
    {s : Lists} (h : Serves t c d iss s) : GetNexts t c d vpName s name (xs.map (vpName ++ ·)) := by
  induction hw generalizing s with
  | @stop q hnext =>
      obtain ⟨hs, rows, hload, -, hindices⟩ := h
      have hfst := varTable_map_fst (k := t.width) ((s.load t rows).list t) vpName q
      rw [hindices, hnext] at hfst
      have hvar := Table.var_eq hload vpName q false
      rw [Option.map_eq_none_iff.mp hfst] at hvar
      exact .stop hvar
  | @go q x xs hnext _ ih =>
      obtain ⟨hs, rows, hload, -, hindices⟩ := id h
      have hfst := varTable_map_fst (k := t.width) ((s.load t rows).list t) vpName q
      rw [hindices, hnext] at hfst
      obtain ⟨⟨n, r⟩, hfound, rfl⟩ := Option.map_eq_some_iff.mp hfst
      have hvar := Table.var_eq hload vpName q false
      rw [hfound] at hvar
      exact .go hvar (ih (h.load hload))

/-- **Walks are complete, ordered and end.**  Where the indices of the rows a loader adds lie
between 1 and 9999, its list holds one row for each tuple of indices, the last one added, in the
order of the tuples.  For every column, an exact request then finds the row its OID names and no
other, a GETNEXT request finds the least instance behind its OID, and GETNEXT requests one after the
other lead through the instances behind the start, in their order, to `NULL`. -/
theorem table_walk (t : Table) (c : Config) (d : Device) {s : Lists} (hs : Reached s)
    {rows : List (Row t.Data)} (hload : (t.loadvar d s.nwlar c).1 = .ok rows)
    (hrange : ∀ r ∈ rows, ∀ i ∈ r.indices t.width, 1 ≤ i ∧ i ≤ 9999) :
    let list := (s.load t rows).list t
    Keyed.Increasing (Row.indices t.width) list ∧
    (∀ r, r ∈ list ↔
      Keyed.lookup (Row.indices t.width) rows.reverse (r.indices t.width) = some r) ∧
    ∀ vpName name : Oid,
      (∃ found, t.var c d vpName name true s = .ok (found, s.load t rows) ∧
        ∀ n r, found = some (n, r) ↔ r ∈ list ∧ r.oid vpName t.width = name ∧ n = name) ∧
      (∃ found, t.var c d vpName name false s = .ok (found, s.load t rows) ∧
        ∀ n r, found = some (n, r) ↔ r ∈ list ∧ n = r.oid vpName t.width ∧ name < n ∧
          ∀ x ∈ list, name < x.oid vpName t.width → n ≤ x.oid vpName t.width) ∧
      GetNexts t c d vpName s name
        ((Keyed.behind (Row.oid vpName t.width) list name).map (Row.oid vpName t.width)) := by
  have hranged : Ranged t.width rows := fun r hr i hi => Nat.lt_succ_of_le (hrange r hr i hi).2
  obtain ⟨hinOrder, hmem⟩ := hs.load_inOrder hload hranged
  refine ⟨hinOrder.increasing, hmem, fun vpName name => ⟨?_, ?_, ?_⟩⟩
  · exact ⟨_, Table.var_eq hload vpName name true,
      varTable_exact vpName hinOrder.increasing name⟩
  · exact ⟨_, Table.var_eq hload vpName name false,
      varTable_next vpName hinOrder.increasing name⟩
  · have hserves : Serves t c d (((s.load t rows).list t).map (Row.indices t.width)) s :=
      ⟨hs, rows, hload, hranged, rfl⟩
    have hinc : Keyed.Increasing (vpName ++ ·)
        (((s.load t rows).list t).map (Row.indices t.width)) :=
      List.pairwise_map.mpr (increasing_oid vpName hinOrder.increasing)
    have hgets := hserves.getNexts (Keyed.walk_next hinc name)
    rw [Keyed.behind, List.filter_map, List.map_map] at hgets
    exact hgets

/-- A configuration with two legal access points. -/
def twoLegalAps : Config where
  get k := if k = legalKey then .text "001122334455,00A0B0C0D0E0," else .empty
  flags := []
  closed := false

/-- A device that reports nothing. -/
def quietDevice : Device where
  mgtBrMac := .empty
  ethernetStatus := 0
  eth0 := ⟨0, 0, 0, 0, 0, 0⟩
  ifMac _ _ := .empty
  ifAdvInfo _ _ := ⟨0, 0, 0, 0, 0, 0⟩
  hasStations _ _ := false
  aclOtherSta _ _ := none
  connectingCfb _ _ := none
  libiconv _ _ := none

/-- The walk over the addresses of two legal access points. -/
theorem table_walk_legalAps :
    GetNexts .wlanLegalApListTable twoLegalAps quietDevice [2] .initial [2]
    [[2, 1], [2, 2]] := by
  have hload : (Table.wlanLegalApListTable.loadvar quietDevice Lists.initial.nwlar twoLegalAps).1 =
      .ok (legalApRows (twoLegalAps.get legalKey) (List.range 11) (.zeroed 1 {})) :=
    congrArg Prod.fst (wlanLegalApListTable_eq (c := twoLegalAps) (by decide +kernel))
  have hrange : ∀ r ∈ legalApRows (twoLegalAps.get legalKey) (List.range 11) (.zeroed 1 {}),
      ∀ i ∈ r.indices 1, 1 ≤ i ∧ i ≤ 9999 := by decide +kernel
  have hwalk := (table_walk _ _ _ .start hload hrange).2.2 [2] [2]
  have hnames : (Keyed.behind (Row.oid [2] 1)
      ((Lists.initial.load .wlanLegalApListTable (legalApRows (twoLegalAps.get legalKey)
        (List.range 11) (.zeroed 1 {}))).list .wlanLegalApListTable) [2]).map (Row.oid [2] 1) =
      [[2, 1], [2, 2]] := by decide +kernel
  exact hnames ▸ hwalk.2.2

end Wap4410n.Snmp
