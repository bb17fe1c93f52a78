import Wap4410n.Apcfg.AclMap
import Wap4410n.Snmp.Walk

/-!
# Snmp — what the tables show

Three loaders read a list that is kept, or reported, as text: the legal access points, the access
control list of each VAP, and the wireless clients.  `Table.Shows` says that the loader returns and
that its rows, one after the other, are those of a list: the fields they hold within their arrays,
and, while four digits number them, their indices and the list that a request finds.

The first loader stops at its eleventh row.  The last one returns where a VAP is switched off, and
at a line without the separators it looks for, from the whole function: the lines behind are lost.
A line of more than 129 characters of its second file overruns its buffer.  `items` is what it meets
one after the other, `clients` the lines of clients among them, and `upToQuit` those it comes to.

* `legalApTable_shows`, `aclTable_shows`, `clientTable_shows`: each table, and when.
* `listTables_show`: the three tables.
-/

namespace Wap4410n.Snmp

open CLib Apcfg

/-! ### Rows filled one after the other -/

section FillEach

variable {X Y α : Type}

/-- The rows of a loop that fills the struct once for each of `xs`, and adds it. -/
def fillEach (f : X → Row α → Row α) : List X → Row α → List (Row α)
  | [], _ => []
  | x :: xs, n => f x n :: fillEach f xs (f x n)

variable {f : X → Row α → Row α} {xs ys : List X} {n : Row α}

theorem fillEach_append (xs ys : List X) (n : Row α) :
    fillEach f (xs ++ ys) n =
      fillEach f xs n ++ fillEach f ys ((fillEach f xs n).getLast?.getD n) := by
  induction xs generalizing n with
  | nil => rfl
  | cons x xs ih =>
      rw [List.cons_append, fillEach, ih, fillEach, getLast?_cons_getD]
      rfl

theorem fillEach_map (g : Y → X) (ys : List Y) (n : Row α) :
    fillEach f (ys.map g) n = fillEach (fun y => f (g y)) ys n := by
  induction ys generalizing n with
  | nil => rfl
  | cons y ys ih => rw [List.map_cons, fillEach, ih, fillEach]

/-- **What each turn establishes**, and what it leaves of the struct for the next. -/
theorem fillEach_establishes (f : X → Row α → Row α) (xs : List X) {I : Row α → Prop}
    {P : X → Row α → Prop}
    (h : ∀ x ∈ xs, ∀ n, I n → I (f x n) ∧ P x (f x n)) (hn : I n) :
    List.Forall₂ P xs (fillEach f xs n) ∧ I ((fillEach f xs n).getLast?.getD n) := by
  induction xs generalizing n with
  | nil => exact ⟨.nil, hn⟩
  | cons x xs ih =>
      obtain ⟨hI, hP⟩ := h x List.mem_cons_self n hn
      obtain ⟨hrest, hlast⟩ := ih (fun y hy => h y (List.mem_cons_of_mem x hy)) hI
      rw [fillEach, getLast?_cons_getD]
      exact ⟨.cons hP hrest, hlast⟩

/-- A loop over rows none of which a setting is read for. -/
theorem eachRow_pure (xs : List X) (n : Row α) (c : Config) :
    eachRow (fun x n => return f x n) xs n c = (.ok (fillEach f xs n), c) := by
  induction xs generalizing n with
  | nil => rfl
  | cons x xs ih =>
      rw [eachRow, eachRows, ← eachRow]
      have hturn : ((do return [← (pure (f x n) : Cfg (Row α))]) : Cfg (List (Row α))) c =
          (.ok [f x n], c) := rfl
      rw [Act.bind_ok hturn, Act.bind_ok (ih _)]
      rfl

end FillEach

theorem map_eq_of_forall₂ {X Y β : Type} {g : X → β} {view : Y → β} {xs : List X} {ys : List Y}
    (h : List.Forall₂ (fun x y => view y = g x) xs ys) : ys.map view = xs.map g := by
  induction h with
  | nil => rfl
  | cons hxy _ ih => rw [List.map_cons, List.map_cons, hxy, ih]

theorem forall_mem_of_forall₂ {X Y : Type} {Q : Y → Prop} {xs : List X} {ys : List Y}
    (h : List.Forall₂ (fun _ y => Q y) xs ys) : ∀ y ∈ ys, Q y := by
  induction h with
  | nil => exact fun _ h => nomatch h
  | cons hy _ ih => exact List.forall_mem_cons.mpr ⟨hy, ih⟩

/-! ### What a table shows -/

/-- Rows in the order of their indices are added as they stand. -/
theorem RowsInOrder.foldl_addList {α : Type} {k : Nat} {l rows : List (Row α)}
    (h : RowsInOrder k (l ++ rows)) : rows.foldl Snmp.addList l = l ++ rows := by
  induction rows generalizing l with
  | nil => rw [List.append_nil]; rfl
  | cons r rows ih =>
      obtain ⟨hl, -, hlt⟩ := List.pairwise_append.mp h.increasing
      have hfront : RowsInOrder k l := ⟨fun x hx => h.formed x (List.mem_append_left _ hx), hl⟩
      have hr : r.Formed k := h.formed r (List.mem_append_right l List.mem_cons_self)
      have hplace : Keyed.place (Row.indices k) (l ++ ([] ++ [])) r = l ++ [r] :=
        Keyed.place_cut l [] [] (fun x hx => hlt x hx r List.mem_cons_self)
          (fun _ h => nomatch h) (fun _ h => nomatch h)
      rw [List.append_nil, List.append_nil] at hplace
      rw [List.foldl_cons, addList_eq_place hr hfront, hplace, ih (by simpa using h)]
      simp

/-- **The table shows `xs`**, the indices and the fields of its rows: the loader returns, the rows
it adds have these fields, and while four digits number them these indices as well, and they are the
list that it leaves. -/
def Table.Shows {β : Type} (t : Table) (read : Row t.Data → β) (c : Config) (d : Device)
    (xs : List (List Nat × β)) : Prop :=
  ∀ s : Lists, ∃ rows, (t.loadvar d s.nwlar c).1 = .ok rows ∧ rows.map read = xs.map Prod.snd ∧
    (rows.length < 10 ^ 4 → rows.map (Row.indices t.width) = xs.map Prod.fst ∧
      (s.load t rows).list t = rows)

theorem Table.shows_of {β : Type} {t : Table} (ht : t ≠ .wlanRadiusTable) {read : Row t.Data → β}
    {c : Config} {d : Device} {xs : List (List Nat × β)} {rows : List (Row t.Data)}
    (hload : ∀ nwlar, (t.loadvar d nwlar c).1 = .ok rows) (hread : rows.map read = xs.map Prod.snd)
    (hinc : Keyed.Increasing Prod.fst xs)
    (hrows : rows.length < 10 ^ 4 →
      (∀ r ∈ rows, r.Formed t.width) ∧ rows.map (Row.indices t.width) = xs.map Prod.fst) :
    t.Shows read c d xs := by
  intro s
  refine ⟨rows, hload s.nwlar, hread, fun hlen => ?_⟩
  obtain ⟨hformed, hindices⟩ := hrows hlen
  refine ⟨hindices, ?_⟩
  have hsorted : (xs.map Prod.fst).Pairwise (· < ·) := List.pairwise_map.mpr hinc
  rw [← hindices] at hsorted
  have hrowsInOrder : RowsInOrder t.width ([] ++ rows) := ⟨hformed, List.pairwise_map.mp hsorted⟩
  exact (list_load s ht rows).trans hrowsInOrder.foldl_addList

/-! ### The list of legal access points -/

/-- The addresses from the `i`-th on. -/
theorem drop_apText (l : List ApAddr) (i : Nat) :
    (apText l).bytes.drop (i * 13) = (apText (l.drop i)).bytes := by
  induction l generalizing i with
  | nil => rw [List.drop_nil]; exact List.drop_nil
  | cons a l ih =>
      cases i with
      | zero => rw [Nat.zero_mul]; rfl
      | succ i =>
          have ha : (a.text.bytes ++ [0x2c]).length = 13 := by
            rw [List.length_append, ← CStr.length, a.length_eq]
            rfl
          rw [bytes_apText_cons, List.append_cons, List.drop_succ_cons, ← ih, Nat.succ_mul,
            Nat.add_comm, ← List.drop_drop, ← ha, List.drop_left]

/-- The struct with an address in its place. -/
def fillLegal (a : ApAddr × Nat) (n : Row LalTblData) : Row LalTblData :=
  ((n.setLong 0 (a.2 + 1)).assign
    fun lal => { apMAC := lal.apMAC.memcpy a.1.text.bytes }).sprintfUid 1

/-- `k` turns from the `i`-th on show as many addresses as there are. -/
theorem legalApRows_eq (l : List ApAddr) (i k : Nat) (n : Row LalTblData) :
    legalApRows (apText l) (List.range' i k) n =
    fillEach fillLegal (((l.drop i).take k).zipIdx i) n := by
  induction k generalizing i n with
  | zero => rw [List.take_zero]; rfl
  | succ k ih =>
      rw [List.range'_succ, legalApRows, length_apText]
      cases hdrop : l.drop i with
      | nil =>
          have hle := List.drop_eq_nil_iff.mp hdrop
          rw [if_pos (by omega), List.take_nil]
          rfl
      | cons a rest =>
          have hlt : i < l.length := by
            by_contra hge
            rw [List.drop_eq_nil_of_le (Nat.not_lt.mp hge)] at hdrop
            cases hdrop
          have hrest : l.drop (i + 1) = rest := by
            rw [← List.drop_drop, hdrop]
            rfl
          have htake : ((apText l).bytes.drop (i * 13)).take 12 = a.text.bytes := by
            have ha : a.text.bytes.length = 12 := a.length_eq
            rw [drop_apText, hdrop, bytes_apText_cons, ← ha, List.take_left]
          have hturn := ih (i + 1) (fillLegal (a, i) n)
          rw [hrest] at hturn
          rw [if_neg (by omega), htake, List.take_succ_cons, List.zipIdx_cons, fillEach, ← hturn]
          rfl

/-- The array has its size, and is zero behind an address. -/
def LegalRoom (n : Row LalTblData) : Prop :=
  n.Sized 1 ∧ n.data.apMAC.size = 33 ∧ n.data.apMAC.bytes.drop 12 = List.replicate 21 0

/-- A row shows a member. -/
def MemberShown (a : ApAddr × Nat) (r : Row LalTblData) : Prop :=
  r.Formed 1 ∧ r.indices 1 = [a.2 + 1] ∧ r.data.apMAC.held = some a.1.text

theorem fillLegal_shows {a : ApAddr × Nat} (ha : a.2 + 1 < 10 ^ 4) {n : Row LalTblData}
    (hn : LegalRoom n) : LegalRoom (fillLegal a n) ∧ MemberShown a (fillLegal a n) := by
  obtain ⟨hsized, hsize, hzeros⟩ := hn
  have hlen : a.1.text.bytes.length = 12 := a.1.length_eq
  obtain ⟨hformed, hindices, hholds⟩ := (hsized.printed_one (a.2 + 1) fun lal =>
    { apMAC := lal.apMAC.memcpy a.1.text.bytes }).formed rfl (by decide)
      (List.forall_mem_singleton.mpr ha)
  refine ⟨⟨⟨_, rfl, hholds⟩, hsize, ?_⟩, hformed, hindices, ?_⟩
  · show ((n.data.apMAC.memcpy a.1.text.bytes).bytes).drop 12 = _
    rw [Block.memcpy, Block.store, splice_zero, hlen, ← hlen, List.drop_left, hlen]
    exact hzeros
  · refine Block.held_memcpy (r := List.replicate 20 0) ?_ ?_
    · rw [a.1.length_eq]
      exact hzeros
    · rw [a.1.length_eq]
      exact hsize ▸ by decide

/-- The rows of the members of a list, each with its index and its address. -/
def legalRows (l : List ApAddr) : List (List Nat × Option CStr) :=
  l.zipIdx.map fun a => ([a.2 + 1], some a.1.text)

theorem increasing_legalRows (l : List ApAddr) : Keyed.Increasing Prod.fst (legalRows l) := by
  refine List.pairwise_map.mpr ?_
  have hsnd : (l.zipIdx.map Prod.snd).Pairwise (· < ·) := by
    rw [List.zipIdx_map_snd]
    exact List.pairwise_lt_range' ..
  exact (List.pairwise_map.mp hsnd).imp fun h => List.Lex.rel (Nat.succ_lt_succ h)

/-- **The first eleven members are shown.** -/
theorem legalApTable_shows_take {c : Config} {l : List ApAddr} (h : c.get legalKey = apText l)
    (hlen : l.length ≤ 32) (d : Device) :
    Table.wlanLegalApListTable.Shows (fun r => r.data.apMAC.held) c d (legalRows (l.take 11)) := by
  have hfits : (c.get legalKey).length < maxLegalaplist + 1 := by
    rw [h, length_apText, maxLegalaplist]
    omega
  have hload : ∀ nwlar, (Table.wlanLegalApListTable.loadvar d nwlar c).1 =
      .ok (fillEach fillLegal (l.take 11).zipIdx (.zeroed 1 {})) := by
    intro nwlar
    rw [Table.loadvar, wlanLegalApListTable_eq hfits, h, List.range_eq_range', legalApRows_eq,
      List.drop_zero]
  have hroom : LegalRoom (.zeroed 1 {}) := ⟨Row.sized_zeroed 1 _, rfl, rfl⟩
  obtain ⟨hrows, -⟩ := fillEach_establishes fillLegal (l.take 11).zipIdx
    (P := MemberShown) (fun a ha n hn => fillLegal_shows (by
      have := List.snd_lt_of_mem_zipIdx ha
      rw [List.length_take] at this
      omega) hn) hroom
  refine Table.shows_of (by decide) hload ?_ (increasing_legalRows _) fun _ => ⟨?_, ?_⟩
  · rw [legalRows, List.map_map]
    exact map_eq_of_forall₂ (hrows.imp fun _ _ h => h.2.2)
  · exact forall_mem_of_forall₂ (hrows.imp fun _ _ h => h.1)
  · rw [legalRows, List.map_map]
    exact map_eq_of_forall₂ (hrows.imp fun _ _ h => h.2.1)

/-- A loader reads one list of fields. -/
theorem Table.Shows.fields_unique {β : Type} {t : Table} {read : Row t.Data → β} {c : Config}
    {d : Device} {xs ys : List (List Nat × β)} (h : t.Shows read c d xs)
    (h' : t.Shows read c d ys) :
    xs.map Prod.snd = ys.map Prod.snd := by
  obtain ⟨rows, hload, hxs, -⟩ := h .initial
  obtain ⟨rows', hload', hys, -⟩ := h' .initial
  cases hload.symm.trans hload'
  exact hxs.symm.trans hys

/-- **The list of legal access points is shown** just where it has eleven members at most. -/
theorem legalApTable_shows {c : Config} {l : List ApAddr} (h : c.get legalKey = apText l)
    (hlen : l.length ≤ 32) (d : Device) :
    Table.wlanLegalApListTable.Shows (fun r => r.data.apMAC.held) c d (legalRows l) ↔
      l.length ≤ 11 := by
  have hfirst := legalApTable_shows_take h hlen d
  constructor
  · intro hall
    have hlens := congrArg List.length (hall.fields_unique hfirst)
    simp only [legalRows, List.length_map, List.length_zipIdx, List.length_take] at hlens
    omega
  · intro hle
    rwa [List.take_of_length_le hle] at hfirst

/-! ### The access control lists -/

/-- The entries of the VAPs one after the other, each with its VAP and its number. -/
def aclEntries (a : Nat → AclList) : List (Nat × (Mac × AclName × Bool) × Nat) :=
  vaps.flatMap fun ssid => (a ssid).zipIdx.map fun e => (ssid, e)

/-- The rows of the entries. -/
def aclRows (a : Nat → AclList) : List (List Nat × Option CStr) :=
  (aclEntries a).map fun e => ([1, e.1 + 1, e.2.2 + 1], some e.2.1.1.text)

/-- The struct with an entry in its place. -/
def fillEntry (e : Nat × (Mac × AclName × Bool) × Nat) (n : Row AcmlTblData) : Row AcmlTblData :=
  fillAcl 0 e.1 (aclEntry e.2.1, e.2.2) n

/-- The entries of one VAP. -/
theorem aclVap_eq {c : Config} {ssid : Nat} {l : AclList} (h : c.get (aclKey 0 ssid) = render l)
    (n : Row AcmlTblData) : (do
      let pScAcl ← scAclBufGet 0 ssid false
      eachRow (fun entry n => return fillAcl 0 ssid entry n) (pScAcl.getD []).zipIdx n :
        Cfg (List (Row AcmlTblData))) c =
      (.ok (fillEach fillEntry (l.zipIdx.map fun e => (ssid, e)) n), c) := by
  have hget : scAclBufGet 0 ssid false c = (.ok (some (l.map aclEntry)), c) := by
    rw [scAclBufGet, if_neg (by decide), if_neg (by decide)]
    show (Act.lift (aclDecode (c.get (aclKey 0 ssid))) >>= fun entries => pure (some entries) :
      Cfg (Option (List CfgAclEntry))) c = _
    rw [h, aclDecode_render]
    rfl
  rw [Act.bind_ok hget, eachRow_pure, Option.getD_some, List.zipIdx_map, fillEach_map, fillEach_map]
  rfl

/-- The loop over the VAPs. -/
theorem aclVaps_eq {c : Config} {a : Nat → AclList} {ssids : List Nat}
    (h : ∀ ssid ∈ ssids, c.get (aclKey 0 ssid) = render (a ssid)) (n : Row AcmlTblData) :
    eachRows (fun x n => do
      let pScAcl ← scAclBufGet x.1 x.2 false
      eachRow (fun entry n => return fillAcl x.1 x.2 entry n) (pScAcl.getD []).zipIdx n)
      (ssids.map fun ssid => (0, ssid)) n c =
    (.ok (fillEach fillEntry (ssids.flatMap fun ssid => (a ssid).zipIdx.map fun e => (ssid, e)) n),
      c) := by
  induction ssids generalizing n with
  | nil => rfl
  | cons ssid ssids ih =>
      rw [List.map_cons, eachRows, Act.bind_ok (aclVap_eq (h ssid List.mem_cons_self) n),
        Act.bind_ok (ih (fun s hs => h s (List.mem_cons_of_mem ssid hs)) _), List.flatMap_cons,
        fillEach_append]
      rfl

/-- The array has its size. -/
def AclRoom (n : Row AcmlTblData) : Prop := n.Sized 3 ∧ n.data.aclMac.size = 33

/-- A row shows an entry. -/
def EntryShown (e : Nat × (Mac × AclName × Bool) × Nat) (r : Row AcmlTblData) : Prop :=
  r.Formed 3 ∧ r.indices 3 = [1, e.1 + 1, e.2.2 + 1] ∧ r.data.aclMac.held = some e.2.1.1.text

theorem fillEntry_shows {e : Nat × (Mac × AclName × Bool) × Nat} (hssid : e.1 + 1 < 10 ^ 4)
    (hnumber : e.2.2 + 1 < 10 ^ 4) {n : Row AcmlTblData} (hn : AclRoom n) :
    AclRoom (fillEntry e n) ∧ EntryShown e (fillEntry e n) := by
  obtain ⟨hsized, hsize⟩ := hn
  have hprinted : Printed 3 [1, e.1 + 1, e.2.2 + 1] (fillEntry e n) :=
    ⟨(((n.setLong 0 1).setLong 1 (e.1 + 1)).setLong 2 (e.2.2 + 1)).assign _,
      hsized.three 1 (e.1 + 1) (e.2.2 + 1), rfl⟩
  obtain ⟨hformed, hindices, hholds⟩ := hprinted.formed rfl (le_refl 3)
    (List.forall_mem_cons.mpr ⟨by decide, List.forall_mem_cons.mpr
      ⟨hssid, List.forall_mem_singleton.mpr hnumber⟩⟩)
  refine ⟨⟨⟨_, rfl, hholds⟩, hsize⟩, hformed, hindices, ?_⟩
  have hlen : (aclEntry e.2.1).mac.length = 17 := e.2.1.1.length_eq
  refine Block.held_memcpy (r := List.replicate 15 0 ++ n.data.aclMac.bytes.drop 33) ?_ ?_
  · rw [hlen, Block.memset, Block.store, splice_zero, List.length_replicate]
    rfl
  · show (aclEntry e.2.1).mac.length < n.data.aclMac.size
    rw [hlen, hsize]
    decide

theorem increasing_aclRows (a : Nat → AclList) : Keyed.Increasing Prod.fst (aclRows a) := by
  have hvaps : vaps.Pairwise (· < ·) := by decide
  refine List.pairwise_map.mpr (List.pairwise_flatMap.mpr ⟨?_, hvaps.imp ?_⟩)
  · intro ssid _
    refine List.pairwise_map.mpr ?_
    have hsnd : ((a ssid).zipIdx.map Prod.snd).Pairwise (· < ·) := by
      rw [List.zipIdx_map_snd]
      exact List.pairwise_lt_range' ..
    exact (List.pairwise_map.mp hsnd).imp fun h =>
      .cons (.cons (.rel (Nat.succ_lt_succ h)))
  · intro ssid ssid' hlt x hx y hy
    obtain ⟨e, -, rfl⟩ := List.mem_map.mp hx
    obtain ⟨e', -, rfl⟩ := List.mem_map.mp hy
    exact .cons (.rel (Nat.succ_lt_succ hlt))

/-- **The access control lists are shown.** -/
theorem aclTable_shows {c : Config} {a : Nat → AclList}
    (h : ∀ ssid ∈ vaps, c.get (aclKey 0 ssid) = render (a ssid) ∧ AclOk (a ssid)) (d : Device) :
    Table.wlanAccessControlMACListTable.Shows (fun r => r.data.aclMac.held) c d (aclRows a) := by
  have hload : ∀ nwlar, (Table.wlanAccessControlMACListTable.loadvar d nwlar c).1 =
      .ok (fillEach fillEntry (aclEntries a) (.zeroed 3 {})) := by
    intro nwlar
    have hvaps := aclVaps_eq (fun ssid hs => (h ssid hs).1) (.zeroed 3 {})
    rw [Table.loadvar, loadvarWlanAccessControlMACListTable]
    exact congrArg Prod.fst hvaps
  have hdigits : ∀ e ∈ aclEntries a, e.1 + 1 < 10 ^ 4 ∧ e.2.2 + 1 < 10 ^ 4 := by
    intro e he
    obtain ⟨ssid, hssid, he⟩ := List.mem_flatMap.mp he
    obtain ⟨e', he', rfl⟩ := List.mem_map.mp he
    have hvaps : ∀ s ∈ vaps, s + 1 < 10 ^ 4 := by decide
    have hlen : (a ssid).length ≤ 20 := (h ssid hssid).2.length_le
    have hlt := List.snd_lt_of_mem_zipIdx he'
    exact ⟨hvaps ssid hssid, by show e'.2 + 1 < 10 ^ 4; omega⟩
  have hroom : AclRoom (.zeroed 3 {}) := ⟨Row.sized_zeroed 3 _, rfl⟩
  obtain ⟨hrows, -⟩ := fillEach_establishes fillEntry (aclEntries a) (P := EntryShown)
    (fun e he n hn => fillEntry_shows (hdigits e he).1 (hdigits e he).2 hn) hroom
  refine Table.shows_of (by decide) hload ?_ (increasing_aclRows a) fun _ => ⟨?_, ?_⟩
  · rw [aclRows, List.map_map]
    exact map_eq_of_forall₂ (hrows.imp fun _ _ h => h.2.2)
  · exact forall_mem_of_forall₂ (hrows.imp fun _ _ h => h.1)
  · rw [aclRows, List.map_map]
    exact map_eq_of_forall₂ (hrows.imp fun _ _ h => h.2.1)

/-! ### Items one after the other -/

namespace Parsed

variable {A B : Type}

/-- The same with another content. -/
def map (g : A → B) : Parsed A → Parsed B
  | skip => skip
  | quit => quit
  | overrun => overrun
  | row a => row (g a)

/-- The content of a row. -/
def row? : Parsed A → Option A
  | row a => some a
  | skip | quit | overrun => none

/-- Those that are rows. -/
def rows (items : List (Parsed A)) : List A := items.filterMap row?

/-- Those that a loader comes to, which ends at `quit` and at `overrun`. -/
def upToQuit : List (Parsed A) → List A
  | [] => []
  | skip :: items => upToQuit items
  | quit :: _ | overrun :: _ => []
  | row a :: items => a :: upToQuit items

/-- Where a loader ends. -/
def ending : List (Parsed A) → Ending
  | [] => .eof
  | skip :: items | row _ :: items => ending items
  | quit :: _ => .quit
  | overrun :: _ => .overrun

variable {items more : List (Parsed A)}

theorem rows_append : rows (items ++ more) = rows items ++ rows more := List.filterMap_append

theorem upToQuit_append (items more : List (Parsed A)) : upToQuit (items ++ more) =
    if ending items = .eof then upToQuit items ++ upToQuit more else upToQuit items := by
  induction items with
  | nil => rfl
  | cons x items ih =>
      cases x with
      | skip => exact ih
      | quit | overrun => rfl
      | row a =>
          refine (congrArg (a :: ·) ih).trans ?_
          rw [apply_ite (a :: ·)]
          rfl

theorem ending_append (items more : List (Parsed A)) : ending (items ++ more) =
    if ending items = .eof then ending more else ending items := by
  induction items with
  | nil => rfl
  | cons x items ih =>
      cases x with
      | skip | row a => exact ih
      | quit | overrun => rfl

theorem upToQuit_isPrefix (items : List (Parsed A)) : upToQuit items <+: rows items := by
  induction items with
  | nil => exact List.prefix_rfl
  | cons x items ih =>
      cases x with
      | skip => exact ih
      | quit | overrun => exact List.nil_prefix
      | row a => exact List.cons_prefix_cons.mpr ⟨rfl, ih⟩

/-- The buffer is overrun where an `overrun` is the first to end the loader. -/
theorem ending_ne_overrun_iff : ending items ≠ .overrun ↔
    ∀ pre post, items = pre ++ overrun :: post → quit ∈ pre := by
  induction items with
  | nil => exact ⟨fun _ pre post h => by simp at h, fun _ h => by cases h⟩
  | cons x items ih =>
      have hpass : x ≠ quit → x ≠ overrun →
          ((∀ pre post, x :: items = pre ++ overrun :: post → quit ∈ pre) ↔
            ∀ pre post, items = pre ++ overrun :: post → quit ∈ pre) := by
        intro hquit hover
        refine ⟨fun h pre post e => ?_, fun h pre post e => ?_⟩
        · exact (List.mem_cons.mp (h (x :: pre) post (congrArg (x :: ·) e))).resolve_left hquit.symm
        · cases pre with
          | nil => exact absurd (List.cons.inj e).1 hover
          | cons y pre => exact List.mem_cons_of_mem y (h pre post (List.cons.inj e).2)
      cases x with
      | skip | row a =>
          rw [hpass (fun h => by cases h) (fun h => by cases h), ← ih]
          rfl
      | quit =>
          refine iff_of_true (fun h => by cases h) fun pre post e => ?_
          cases pre with
          | nil => cases (List.cons.inj e).1
          | cons y pre =>
              rw [← (List.cons.inj e).1]
              exact List.mem_cons_self
      | overrun =>
          exact iff_of_false (fun h => h rfl) fun h => List.not_mem_nil (h [] items rfl)

/-- **Nothing is lost** where no row stands behind a `quit`. -/
theorem upToQuit_eq_iff (hending : ending items ≠ .overrun) : upToQuit items = rows items ↔
    ∀ pre post, items = pre ++ quit :: post → rows post = [] := by
  induction items with
  | nil => exact ⟨fun _ pre post h => by simp at h, fun _ => rfl⟩
  | cons x items ih =>
      have hbehind : (∀ pre post, items = pre ++ quit :: post → rows post = []) ↔
          ∀ pre post, x :: items = x :: pre ++ quit :: post → rows post = [] := by
        simp only [List.cons_append, List.cons.injEq, true_and]
      cases x with
      | skip =>
          rw [show upToQuit (skip :: items) = rows (skip :: items) ↔
            upToQuit items = rows items from
            Iff.rfl, ih hending, hbehind]
          refine ⟨fun h pre post e => ?_, fun h pre post e => h _ post e⟩
          cases pre with
          | nil => cases e
          | cons y pre =>
              obtain ⟨rfl, e'⟩ := List.cons.inj e
              exact h pre post e
      | quit =>
          rw [show upToQuit (quit :: items) = rows (quit :: items) ↔ [] = rows items from Iff.rfl]
          refine ⟨fun h pre post e => ?_, fun h => (h [] items rfl).symm⟩
          cases pre with
          | nil =>
              cases e
              exact h.symm
          | cons y pre =>
              obtain ⟨-, rfl⟩ := List.cons.inj e
              have hsplit : rows (pre ++ quit :: post) = rows pre ++ rows post := rows_append
              rw [List.append_eq, hsplit] at h
              exact (List.append_eq_nil_iff.mp h.symm).2
      | overrun => exact absurd rfl hending
      | row a =>
          rw [show upToQuit (row a :: items) = rows (row a :: items) ↔
            a :: upToQuit items = a :: rows items from Iff.rfl, List.cons.injEq,
            and_iff_right rfl, ih hending, hbehind]
          refine ⟨fun h pre post e => ?_, fun h pre post e => h _ post e⟩
          cases pre with
          | nil => cases e
          | cons y pre =>
              obtain ⟨rfl, e'⟩ := List.cons.inj e
              exact h pre post e

end Parsed

/-! ### The clients -/

/-- What a row of the client list says. -/
structure Client where
  ssid : Nat
  mac : CStr
  rate : CStr
  rssi : CStr
  status : CStr
deriving DecidableEq

namespace Client

/-- The texts fit the arrays of a row. -/
def Fits (x : Client) : Prop :=
  x.mac.length < 33 ∧ x.rate.length < 16 ∧ x.rssi.length < 16 ∧ x.status.length < 32

instance (x : Client) : Decidable x.Fits := inferInstanceAs (Decidable (_ ∧ _))

/-- The fields of its row. -/
def fields (x : Client) : Option CStr × Option CStr × Option CStr × Option CStr :=
  (some x.mac, some x.rate, some x.rssi, some x.status)

/-- What arrays of their sizes hold of them. -/
def held (x : Client) : Option CStr × Option CStr × Option CStr × Option CStr :=
  (if x.mac.length < 33 then some x.mac else none,
    if x.rate.length < 16 then some x.rate else none,
    if x.rssi.length < 16 then some x.rssi else none,
    if x.status.length < 32 then some x.status else none)

theorem held_eq_fields {x : Client} : x.held = x.fields ↔ x.Fits := by
  simp only [held, fields, Fits, Prod.mk.injEq, ite_eq_left_iff, reduceCtorEq, imp_false, not_not]

end Client

/-- The fields of a row of the client list. -/
def Row.client (r : Row WlclTblData) : Option CStr × Option CStr × Option CStr × Option CStr :=
  (r.data.clientMacAddress.held, r.data.clientRate.held, r.data.clientRssi.held,
    r.data.clientStatus.held)

/-- A client of `/tmp/aclOtherSta`. -/
def scstaClient (ssid : Nat) (a : CStr × Int × Int) : Client where
  ssid
  mac := a.1
  rate := (CStr.ofInt a.2.1).append (.text " Mbps")
  rssi := (CStr.ofInt a.2.2).append (.text " dBm")
  status := .text "Connected"

/-- A client of `/tmp/connecting_cfb`. -/
def connectingClient (ssid : Nat) (a : CStr × Int) : Client where
  ssid
  mac := a.1
  rate := .text " "
  rssi := .text " "
  status := .text (if a.2 = 0 then "Connecting" else "Associating")

/-- The lines of a VAP, in the order in which they are read. -/
def fileItems (d : Device) (ssid : Nat) : List (Parsed Client) :=
  ((d.aclOtherSta 0 ssid).getD []).map (fun line => (parseScsta line).map (scstaClient ssid)) ++
    ((d.connectingCfb 0 ssid).getD []).map fun line =>
      (parseConnecting ssid line).map (connectingClient ssid)

/-- The VAP is switched on, and its radio. -/
def VapActive (c : Config) (ssid : Nat) : Prop :=
  flagOf (c.get (.radio 0 .state)) ≠ 0 ∧ flagOf (c.get (.vap 0 ssid .state)) ≠ 0

instance (c : Config) (ssid : Nat) : Decidable (VapActive c ssid) :=
  inferInstanceAs (Decidable (_ ∧ _))

/-- What the loader meets at a VAP. -/
def vapItems (c : Config) (d : Device) (ssid : Nat) : List (Parsed Client) :=
  if VapActive c ssid then fileItems d ssid else [.quit]

/-- What the loader would meet at all of them. -/
def items (c : Config) (d : Device) : List (Parsed Client) := vaps.flatMap (vapItems c d)

/-- **The clients**: the lines of clients of every active VAP. -/
def clients (c : Config) (d : Device) : List Client :=
  vaps.flatMap fun ssid => if VapActive c ssid then Parsed.rows (fileItems d ssid) else []

theorem rows_items (c : Config) (d : Device) : Parsed.rows (items c d) = clients c d := by
  rw [Parsed.rows, items, List.filterMap_flatMap, clients]
  refine congrArg (vaps.flatMap ·) (funext fun ssid => ?_)
  rw [vapItems]
  split <;> rfl

/-! ### What the loader makes of them -/

/-- The struct with a client in its place, and its number. -/
def fillNumbered (x : Client × Nat) (n : Row WlclTblData) : Row WlclTblData :=
  fillClient n x.2 x.1.mac x.1.rate x.1.rssi x.1.status

theorem length_fillEach {X α : Type} (f : X → Row α → Row α) (xs : List X) (n : Row α) :
    (fillEach f xs n).length = xs.length := by
  induction xs generalizing n with
  | nil => rfl
  | cons x xs ih => rw [fillEach, List.length_cons, ih, List.length_cons]

/-- **The rows of a file.** -/
theorem clientLines_eq {A : Type} {parse : CStr → Parsed A}
    {fill : A → Row WlclTblData → Nat → Row WlclTblData} (client : A → Client)
    (h : ∀ a n count, fill a n count = fillNumbered (client a, count) n) (lines : List CStr)
    (n : Row WlclTblData) (count : Nat) :
    let items := lines.map fun line => (parse line).map client
    clientLines parse fill lines n count =
      (fillEach fillNumbered ((Parsed.upToQuit items).zipIdx count) n, Parsed.ending items) := by
  induction lines generalizing n count with
  | nil => rfl
  | cons line lines ih =>
      rw [clientLines, List.map_cons]
      cases parse line with
      | skip => exact ih n count
      | quit | overrun => rfl
      | row a =>
          simp only [h, ih]
          rfl

theorem scstaRows_eq (ssid : Nat) (lines : List CStr) (n : Row WlclTblData) (count : Nat) :
    let items := lines.map fun line => (parseScsta line).map (scstaClient ssid)
    scstaRows lines n count =
      (fillEach fillNumbered ((Parsed.upToQuit items).zipIdx count) n, Parsed.ending items) :=
  clientLines_eq (scstaClient ssid) (fun _ _ _ => rfl) lines n count

theorem connectingRows_eq (ssid : Nat) (lines : List CStr) (n : Row WlclTblData) (count : Nat) :
    let items := lines.map fun line => (parseConnecting ssid line).map (connectingClient ssid)
    connectingRows ssid lines n count =
      (fillEach fillNumbered ((Parsed.upToQuit items).zipIdx count) n, Parsed.ending items) :=
  clientLines_eq (connectingClient ssid) (fun _ _ _ => rfl) lines n count

/-- The clients of a VAP that the loader comes to. -/
def vapShown (c : Config) (d : Device) (ssid : Nat) : List Client :=
  Parsed.upToQuit (vapItems c d ssid)

/-- The rows of a VAP. -/
def vapRows (c : Config) (d : Device) (ssid : Nat) (n : Row WlclTblData) (count : Nat) :
    List (Row WlclTblData) :=
  fillEach fillNumbered ((vapShown c d ssid).zipIdx count) (n.setLong 1 (ssid + 1))

theorem Ending.behind_behind (rows rows' : List (Row WlclTblData))
    (more : Cfg (List (Row WlclTblData))) (e e' : Ending) :
    e.behind rows (e'.behind rows' more) = (if e = .eof then e' else e).behind
      (if e = .eof then rows ++ rows' else rows) more := by
  cases e with
  | quit | overrun => rfl
  | eof =>
      cases e' with
      | quit | overrun => rfl
      | eof =>
          simp only [if_pos, behind, Act.bind_assoc, Act.pure_bind, List.append_assoc]

theorem Ending.behind_of_ne {ending : Ending} (h : ending ≠ .eof) (rows : List (Row WlclTblData))
    (more more' : Cfg (List (Row WlclTblData))) :
    ending.behind rows more = ending.behind rows more' := by
  cases ending with
  | eof => exact absurd rfl h
  | quit | overrun => rfl

/-- **One VAP**: its rows, and those of the VAPs behind it unless the loader ends. -/
theorem clientVaps_cons (d : Device) (c : Config) (ssid : Nat) (ssids : List Nat)
    (n : Row WlclTblData) (count : Nat) :
    clientVaps d 0 (ssid :: ssids) n count c =
      (Parsed.ending (vapItems c d ssid)).behind (vapRows c d ssid n count)
        (clientVaps d 0 ssids
          ((vapRows c d ssid n count).getLast?.getD (n.setLong 1 (ssid + 1)))
          (count + (vapRows c d ssid n count).length)) c := by
  have hstate : apCfgWlanStateGet 0 c = (.ok (flagOf (c.get (.radio 0 .state))), c) := rfl
  have hactive : apCfgActiveModeGet 0 ssid c = (.ok (flagOf (c.get (.vap 0 ssid .state))), c) := rfl
  rw [clientVaps, Act.bind_ok hstate, vapRows, vapShown, vapItems]
  by_cases hon : flagOf (c.get (.radio 0 .state)) = 0
  · rw [if_pos hon, if_neg fun h : VapActive c ssid => h.1 hon]
    rfl
  rw [if_neg hon, Act.bind_ok hactive]
  by_cases hvap : flagOf (c.get (.vap 0 ssid .state)) = 0
  · rw [if_pos hvap, if_neg fun h : VapActive c ssid => h.2 hvap]
    rfl
  rw [if_neg hvap, if_pos (show VapActive c ssid from ⟨hon, hvap⟩), fileItems]
  simp only [scstaRows_eq ssid, connectingRows_eq]
  generalize ((d.aclOtherSta 0 ssid).getD []).map _ = first
  generalize ((d.connectingCfb 0 ssid).getD []).map _ = second
  rw [Ending.behind_behind, Parsed.ending_append, Parsed.upToQuit_append]
  by_cases hfirst : Parsed.ending first = .eof
  · simp only [if_pos hfirst, List.zipIdx_append, fillEach_append, length_fillEach,
      List.length_zipIdx]
  · simp only [if_neg hfirst]
    rw [Ending.behind_of_ne hfirst]

/-- The arrays have their sizes. -/
def ClientRoom (n : Row WlclTblData) : Prop :=
  n.data.clientMacAddress.size = 33 ∧ n.data.clientRate.size = 16 ∧ n.data.clientRssi.size = 16 ∧
    n.data.clientStatus.size = 32

theorem fillNumbered_reads (x : Client × Nat) {n : Row WlclTblData} (hn : ClientRoom n) :
    ClientRoom (fillNumbered x n) ∧ (fillNumbered x n).client = x.1.held := by
  obtain ⟨hmac, hrate, hrssi, hstatus⟩ := hn
  refine ⟨⟨hmac, hrate, hrssi, hstatus⟩, ?_⟩
  show ((n.data.clientMacAddress.strcpy x.1.mac).held, (n.data.clientRate.strcpy x.1.rate).held,
    (n.data.clientRssi.strcpy x.1.rssi).held, (n.data.clientStatus.strcpy x.1.status).held) = _
  rw [Block.held_strcpy, Block.held_strcpy, Block.held_strcpy, Block.held_strcpy, hmac,
    hrate, hrssi, hstatus]
  rfl

/-- A row has the indices of a client. -/
def ClientNumbered (x : Client × Nat) (r : Row WlclTblData) : Prop :=
  r.Formed 3 ∧ r.indices 3 = [1, x.1.ssid + 1, x.2]

theorem fillNumbered_numbers {x : Client × Nat} (hssid : x.1.ssid + 1 < 10 ^ 4) (hx : x.2 < 10 ^ 4)
    {n : Row WlclTblData} (hn : OfVap 1 (x.1.ssid + 1) n) :
    OfVap 1 (x.1.ssid + 1) (fillNumbered x n) ∧ ClientNumbered x (fillNumbered x n) := by
  obtain ⟨c, hn⟩ := hn
  obtain ⟨m, hm, heq⟩ := fillClient_eq hn x.2 x.1.mac x.1.rate x.1.rssi x.1.status
  obtain ⟨hformed, hindices, hholds⟩ := Printed.formed ⟨m, hm, heq⟩ rfl (le_refl 3)
    (List.forall_mem_cons.mpr ⟨by decide, List.forall_mem_cons.mpr
      ⟨hssid, List.forall_mem_singleton.mpr hx⟩⟩)
  exact ⟨⟨x.2, hholds⟩, hformed, hindices⟩

theorem ssid_of_mem {d : Device} {ssid : Nat} {x : Client}
    (h : x ∈ Parsed.rows (fileItems d ssid)) :
    x.ssid = ssid := by
  have hrow : ∀ {A : Type} {g : A → Client} (p : Parsed A), (∀ a, (g a).ssid = ssid) →
      (p.map g).row? = some x → x.ssid = ssid := by
    intro A g p hg hp
    cases p with
    | skip | quit | overrun => cases hp
    | row a =>
        cases hp
        exact hg a
  obtain ⟨item, hitem, hx⟩ := List.mem_filterMap.mp h
  rcases List.mem_append.mp hitem with hitem | hitem
  · obtain ⟨line, -, rfl⟩ := List.mem_map.mp hitem
    exact hrow _ (fun _ => rfl) hx
  · obtain ⟨line, -, rfl⟩ := List.mem_map.mp hitem
    exact hrow _ (fun _ => rfl) hx

theorem ssid_of_mem_vapShown {c : Config} {d : Device} {ssid : Nat} {x : Client}
    (h : x ∈ vapShown c d ssid) : x.ssid = ssid := by
  rw [vapShown, vapItems] at h
  split at h
  · exact ssid_of_mem ((Parsed.upToQuit_isPrefix _).subset h)
  · exact nomatch h

section Vap

variable (c : Config) (d : Device) {ssid : Nat} (count : Nat) {n : Row WlclTblData}

theorem vapRows_reads (ssid : Nat) (hn : ClientRoom n) :
    (vapRows c d ssid n count).map Row.client = (vapShown c d ssid).map Client.held ∧
      ClientRoom ((vapRows c d ssid n count).getLast?.getD (n.setLong 1 (ssid + 1))) := by
  obtain ⟨hreads, hroom⟩ := fillEach_establishes fillNumbered ((vapShown c d ssid).zipIdx count)
    (I := ClientRoom) (P := fun x r => r.client = x.1.held)
      (fun x _ _ hn => fillNumbered_reads x hn)
    (n := n.setLong 1 (ssid + 1)) hn
  refine ⟨(map_eq_of_forall₂ hreads).trans ?_, hroom⟩
  have hfst : ((vapShown c d ssid).zipIdx count).map Prod.fst = vapShown c d ssid :=
    List.zipIdx_map_fst ..
  calc ((vapShown c d ssid).zipIdx count).map (fun x => x.1.held)
      = (((vapShown c d ssid).zipIdx count).map Prod.fst).map Client.held := by
        rw [List.map_map]
        rfl
    _ = (vapShown c d ssid).map Client.held := by rw [hfst]

theorem vapRows_numbered (hssid : ssid + 1 < 10 ^ 4)
    (hcount : count + (vapShown c d ssid).length ≤ 10 ^ 4) (hn : ∃ b, OfVap 1 b n) :
    (∀ r ∈ vapRows c d ssid n count, r.Formed 3) ∧
      (vapRows c d ssid n count).map (Row.indices 3) =
        ((vapShown c d ssid).zipIdx count).map (fun x => [1, x.1.ssid + 1, x.2]) ∧
      OfVap 1 (ssid + 1) ((vapRows c d ssid n count).getLast?.getD (n.setLong 1 (ssid + 1))) := by
  obtain ⟨b, a, hn⟩ := hn
  have hof : OfVap 1 (ssid + 1) (n.setLong 1 (ssid + 1)) := ⟨a, hn.setLong (by simp) (ssid + 1)⟩
  obtain ⟨hnumbered, hlast⟩ := fillEach_establishes fillNumbered ((vapShown c d ssid).zipIdx count)
    (I := OfVap 1 (ssid + 1)) (P := ClientNumbered) (fun x hx n hn => by
      have hvap : x.1.ssid = ssid := ssid_of_mem_vapShown (List.fst_mem_of_mem_zipIdx hx)
      have hlt := List.snd_lt_add_of_mem_zipIdx hx
      rw [← hvap] at hn hssid ⊢
      exact fillNumbered_numbers hssid (by omega) hn) hof
  exact ⟨forall_mem_of_forall₂ (hnumbered.imp fun _ _ h => h.1),
    map_eq_of_forall₂ (hnumbered.imp fun _ _ h => h.2), hlast⟩

end Vap

/-- **The rows of the client list** where no line overruns the buffer: what they read, and while
four digits number them, their indices. -/
theorem clientVaps_eq (c : Config) (d : Device) (ssids : List Nat)
    (hssids : ∀ s ∈ ssids, s + 1 < 10 ^ 4) {n : Row WlclTblData} (hn : ClientRoom n) (count : Nat)
    (hending : Parsed.ending (ssids.flatMap (vapItems c d)) ≠ .overrun) :
    let shown := Parsed.upToQuit (ssids.flatMap (vapItems c d))
    ∃ rows, clientVaps d 0 ssids n count c = (.ok rows, c) ∧
      rows.map Row.client = shown.map Client.held ∧
      (count + rows.length ≤ 10 ^ 4 → (∃ b, OfVap 1 b n) → (∀ r ∈ rows, r.Formed 3) ∧
        rows.map (Row.indices 3) = (shown.zipIdx count).map fun x => [1, x.1.ssid + 1, x.2]) := by
  induction ssids generalizing n count with
  | nil => exact ⟨[], rfl, rfl, fun _ _ => ⟨(fun _ h => nomatch h), rfl⟩⟩
  | cons ssid ssids ih =>
      intro shown
      have hvap := clientVaps_cons d c ssid ssids n count
      obtain ⟨hreads, hroom⟩ := vapRows_reads c d count ssid hn
      have hlen : (vapRows c d ssid n count).length = (vapShown c d ssid).length := by
        rw [← List.length_map Row.client, hreads, List.length_map]
      have hssid := hssids ssid List.mem_cons_self
      have hshown : shown = if Parsed.ending (vapItems c d ssid) = .eof then
          vapShown c d ssid ++ Parsed.upToQuit (ssids.flatMap (vapItems c d))
          else vapShown c d ssid :=
        Parsed.upToQuit_append ..
      rw [List.flatMap_cons, Parsed.ending_append] at hending
      cases hend : Parsed.ending (vapItems c d ssid) with
      | overrun =>
          rw [hend, if_neg (by decide)] at hending
          exact absurd rfl hending
      | quit =>
          rw [hend, if_neg (by decide)] at hshown
          rw [hend] at hvap
          rw [hshown]
          refine ⟨_, hvap, hreads, fun hle hof => ?_⟩
          rw [hlen] at hle
          obtain ⟨hformed, hindices, -⟩ := vapRows_numbered c d count hssid hle hof
          exact ⟨hformed, hindices⟩
      | eof =>
          rw [hend, if_pos rfl] at hshown hending
          obtain ⟨more, hload, hmore, hnumbered⟩ :=
            ih (fun s hs => hssids s (List.mem_cons_of_mem ssid hs)) hroom
              (count + (vapRows c d ssid n count).length) hending
          rw [hend, Ending.behind, Act.bind_ok hload] at hvap
          rw [hshown]
          refine ⟨_, hvap, ?_, fun hle hof => ?_⟩
          · rw [List.map_append, hreads, hmore, List.map_append]
          · rw [List.length_append] at hle
            have hcount : count + (vapShown c d ssid).length ≤ 10 ^ 4 := by
              rw [← hlen]
              omega
            obtain ⟨hformed, hindices, hlast⟩ := vapRows_numbered c d count hssid hcount hof
            obtain ⟨hformed', hindices'⟩ := hnumbered (by omega) ⟨_, hlast⟩
            refine ⟨List.forall_mem_append.mpr ⟨hformed, hformed'⟩, ?_⟩
            rw [List.map_append, hindices, hindices', hlen, List.zipIdx_append, List.map_append]

/-- **Nothing is returned** where a line overruns the buffer. -/
theorem clientVaps_overrun (c : Config) (d : Device) (ssids : List Nat) (n : Row WlclTblData)
    (count : Nat) (h : Parsed.ending (ssids.flatMap (vapItems c d)) = .overrun) :
    clientVaps d 0 ssids n count c = (.error (.outside .array), c) := by
  induction ssids generalizing n count with
  | nil => cases h
  | cons ssid ssids ih =>
      rw [List.flatMap_cons, Parsed.ending_append] at h
      rw [clientVaps_cons]
      split at h
      · rename_i hend
        rw [hend, Ending.behind, Act.bind_error (ih _ _ h)]
      · rw [h]
        rfl

/-! ### When the clients are shown -/

/-- The rows of the clients. -/
def clientRows (c : Config) (d : Device) :
    List (List Nat × (Option CStr × Option CStr × Option CStr × Option CStr)) :=
  (clients c d).zipIdx.map fun x => ([1, x.1.ssid + 1, x.2 + 1], x.1.fields)

/-- The texts of the clients fit, no line that is come to overruns the buffer, and no client stands
behind a VAP that is switched off or a line that the loader returns at. -/
structure ClientsReached (c : Config) (d : Device) : Prop where
  fits : ∀ x ∈ clients c d, x.Fits
  inBuffer : ∀ pre post, items c d = pre ++ .overrun :: post → .quit ∈ pre
  none_behind : ∀ pre post, items c d = pre ++ .quit :: post → Parsed.rows post = []

theorem map_snd_clientRows (c : Config) (d : Device) :
    (clientRows c d).map Prod.snd = (clients c d).map Client.fields := by
  have hfst : (clients c d).zipIdx.map Prod.fst = clients c d := List.zipIdx_map_fst ..
  rw [clientRows, List.map_map]
  calc (clients c d).zipIdx.map (fun x => x.1.fields)
      = ((clients c d).zipIdx.map Prod.fst).map Client.fields := by
        rw [List.map_map]
        rfl
    _ = (clients c d).map Client.fields := by rw [hfst]

/-- The clients stand in the order of the VAPs. -/
theorem ssids_ordered (c : Config) (d : Device) :
    (clients c d).Pairwise fun x y => x.ssid ≤ y.ssid := by
  have hmem : ∀ {ssid : Nat} {x : Client},
      x ∈ (if VapActive c ssid then Parsed.rows (fileItems d ssid) else []) → x.ssid = ssid := by
    intro ssid x hx
    split at hx
    · exact ssid_of_mem hx
    · exact nomatch hx
  have hvaps : vaps.Pairwise (· < ·) := by decide
  refine List.pairwise_flatMap.mpr
    ⟨fun ssid _ => ?_, hvaps.imp fun {ssid ssid'} hlt x hx y hy => ?_⟩
  · exact List.pairwise_of_forall_mem_list fun x hx y hy => (hmem hx).trans (hmem hy).symm |>.le
  · rw [hmem hx, hmem hy]
    exact hlt.le

theorem increasing_clientRows (c : Config) (d : Device) :
    Keyed.Increasing Prod.fst (clientRows c d) := by
  have hzip : ∀ (xs : List Client) (k : Nat), xs.Pairwise (fun x y => x.ssid ≤ y.ssid) →
      (xs.zipIdx k).Pairwise fun x y => x.1.ssid ≤ y.1.ssid ∧ x.2 < y.2 := by
    intro xs
    induction xs with
    | nil => exact fun _ _ => .nil
    | cons x xs ih =>
        intro k h
        obtain ⟨hx, hxs⟩ := List.pairwise_cons.mp h
        refine List.pairwise_cons.mpr ⟨fun y hy => ?_, ih (k + 1) hxs⟩
        exact ⟨hx y.1 (List.fst_mem_of_mem_zipIdx hy), List.le_snd_of_mem_zipIdx hy⟩
  refine List.pairwise_map.mpr ((hzip _ 0 (ssids_ordered c d)).imp ?_)
  rintro x y ⟨hle, hlt⟩
  rcases hle.lt_or_eq with hlt' | heq
  · exact .cons (.rel (Nat.succ_lt_succ hlt'))
  · rw [heq]
    exact .cons (.cons (.rel (Nat.succ_lt_succ hlt)))

/-- **The clients are shown** just where the loader comes to all of them, within its buffer, and
their texts fit. -/
theorem clientTable_shows (c : Config) (d : Device) :
    Table.wlanWirelessClientListTable.Shows Row.client c d (clientRows c d) ↔
    ClientsReached c d := by
  have hroom : ClientRoom ((Row.zeroed 3 ({} : WlclTblData)).setLong 0 1) := ⟨rfl, rfl, rfl, rfl⟩
  by_cases hending : Parsed.ending (items c d) = .overrun
  · refine iff_of_false (fun h => ?_) fun h =>
      Parsed.ending_ne_overrun_iff.mpr h.inBuffer hending
    obtain ⟨rows, hload, -⟩ := h .initial
    have hfault := clientVaps_overrun c d vaps ((Row.zeroed 3 {}).setLong 0 1) 1 hending
    cases (congrArg Prod.fst hfault).symm.trans hload
  obtain ⟨rows, hload, hreads, hnumbered⟩ := clientVaps_eq c d vaps (by decide) hroom 1 hending
  have hloaded : ∀ nwlar, (Table.wlanWirelessClientListTable.loadvar d nwlar c).1 = .ok rows :=
    fun _ => congrArg Prod.fst hload
  have hfirst := Parsed.upToQuit_isPrefix (items c d)
  rw [rows_items] at hfirst
  constructor
  · intro h
    obtain ⟨rows', hload', hfields, -⟩ := h .initial
    cases (hloaded _).symm.trans hload'
    rw [map_snd_clientRows] at hfields
    have hheld : (Parsed.upToQuit (items c d)).map Client.held =
        (clients c d).map Client.fields :=
      hreads.symm.trans hfields
    have hlen := congrArg List.length hheld
    rw [List.length_map, List.length_map] at hlen
    have hall : Parsed.upToQuit (items c d) = clients c d := hfirst.eq_of_length hlen
    rw [hall] at hheld
    refine ⟨fun x hx => Client.held_eq_fields.mp (List.map_inj_left.mp hheld x hx),
      Parsed.ending_ne_overrun_iff.mp hending, ?_⟩
    exact (Parsed.upToQuit_eq_iff hending).mp (hall.trans (rows_items c d).symm)
  · rintro ⟨hfits, -, hbehind⟩
    have hall : Parsed.upToQuit (items c d) = clients c d :=
      ((Parsed.upToQuit_eq_iff hending).mpr hbehind).trans (rows_items c d)
    have hheld : rows.map Row.client = (clients c d).map Client.fields := by
      rw [hreads, ← items, hall]
      exact List.map_inj_left.mpr fun x hx => Client.held_eq_fields.mpr (hfits x hx)
    refine Table.shows_of (by decide) hloaded (hheld.trans (map_snd_clientRows c d).symm)
      (increasing_clientRows c d) fun hlt => ?_
    have hof : OfVap 1 0 ((Row.zeroed 3 ({} : WlclTblData)).setLong 0 1) :=
      ⟨0, (Row.holds_zeroed 3 ({} : WlclTblData)).setLong (by simp) 1⟩
    obtain ⟨hformed, hindices⟩ := hnumbered (by omega) ⟨0, hof⟩
    refine ⟨hformed, hindices.trans ?_⟩
    rw [← items, hall, clientRows, List.map_map, List.zipIdx_succ, List.map_map]
    rfl

/-! ### The three tables -/

/-- **The tables show what is stored**, and the clients of the active VAPs, just where the list of
legal access points has eleven members at most, the texts of the clients fit, no line that the
loader comes to overruns its buffer, and no client stands behind a VAP that is switched off or a
line at which it returns. -/
theorem listTables_show (c : Config) (d : Device) {l : List ApAddr} {a : Nat → AclList}
    (hl : c.get legalKey = apText l) (hlen : l.length ≤ 32)
    (ha : ∀ ssid ∈ vaps, c.get (aclKey 0 ssid) = render (a ssid) ∧ AclOk (a ssid)) :
    (Table.wlanLegalApListTable.Shows (fun r => r.data.apMAC.held) c d (legalRows l) ∧
      Table.wlanAccessControlMACListTable.Shows (fun r => r.data.aclMac.held) c d (aclRows a) ∧
      Table.wlanWirelessClientListTable.Shows Row.client c d (clientRows c d)) ↔
    l.length ≤ 11 ∧ ClientsReached c d := by
  rw [legalApTable_shows hl hlen d, clientTable_shows, and_iff_right (aclTable_shows ha d)]

/-- The settings with a list of legal access points, the radio switched on and one VAP. -/
def oneVap (l : List ApAddr) (ssid : Nat) : Config where
  get k :=
    if k = legalKey then apText l
    else if k = .radio 0 .state ∨ k = .vap 0 ssid .state then enable
    else .empty
  flags := []
  closed := false

theorem oneVap_aclKey (l : List ApAddr) (ssid ssid' : Nat) :
    (oneVap l ssid).get (aclKey 0 ssid') = render [] := by
  simp [oneVap, render]

/-- A client is connected to the VAP. -/
def oneClient (ssid : Nat) : Device where
  mgtBrMac := .empty
  ethernetStatus := 0
  eth0 := ⟨0, 0, 0, 0, 0, 0⟩
  ifMac _ _ := .empty
  ifAdvInfo _ _ := ⟨0, 0, 0, 0, 0, 0⟩
  hasStations _ vap := vap = ssid
  aclOtherSta _ vap := if vap = ssid then some [.text "00:1c:10:aa:bb:cc,54,40\n"] else none
  connectingCfb _ _ := none
  libiconv _ _ := none

/-- Two legal access points, and a client of the first VAP. -/
theorem listTables_show_oneClient :
    Table.wlanLegalApListTable.Shows (fun r => r.data.apMAC.held) (oneVap (fullList.take 2) 0)
      (oneClient 0) (legalRows (fullList.take 2)) ∧
    Table.wlanAccessControlMACListTable.Shows (fun r => r.data.aclMac.held)
      (oneVap (fullList.take 2) 0) (oneClient 0) (aclRows fun _ => []) ∧
    Table.wlanWirelessClientListTable.Shows Row.client (oneVap (fullList.take 2) 0) (oneClient 0)
      (clientRows (oneVap (fullList.take 2) 0) (oneClient 0)) := by
  have hacl :
      ∀ ssid ∈ vaps, (oneVap (fullList.take 2) 0).get (aclKey 0 ssid) = render [] ∧ AclOk [] :=
    fun ssid _ => ⟨oneVap_aclKey _ 0 ssid, .nil⟩
  have hending : Parsed.ending (items (oneVap (fullList.take 2) 0) (oneClient 0)) ≠ .overrun := by
    decide +kernel
  refine (listTables_show _ _ (l := fullList.take 2) rfl (by decide) hacl).mpr
    ⟨by decide, ?_, Parsed.ending_ne_overrun_iff.mp hending, ?_⟩
  · decide +kernel
  · refine (Parsed.upToQuit_eq_iff hending).mp ?_
    decide +kernel

/-- **Of 32 legal access points eleven are shown, and no client of the second VAP** where the first
is switched off. -/
theorem rows_missing :
    (fullList.length = 32 ∧ ¬Table.wlanLegalApListTable.Shows (fun r => r.data.apMAC.held)
      (oneVap fullList 1) (oneClient 1) (legalRows fullList)) ∧
    (clients (oneVap fullList 1) (oneClient 1)).length = 1 ∧
      ¬Table.wlanWirelessClientListTable.Shows Row.client (oneVap fullList 1) (oneClient 1)
        (clientRows (oneVap fullList 1) (oneClient 1)) := by
  refine ⟨⟨by decide, ?_⟩, by decide +kernel, ?_⟩
  · rw [legalApTable_shows rfl (by decide)]
    decide
  · rw [clientTable_shows]
    rintro ⟨-, -, h⟩
    have hlost := (Parsed.upToQuit_eq_iff (by decide +kernel)).mpr h
    revert hlost
    decide +kernel

end Wap4410n.Snmp
