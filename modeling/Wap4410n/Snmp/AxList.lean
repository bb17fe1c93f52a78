import Wap4410n.Support.Block
import Wap4410n.Support.File
import Wap4410n.Support.Keyed
import Wap4410n.Support.Padded

/-!
# Snmp — the rows of a table

The rows of a MIB table are structs on a linked list.  A struct starts with its `UID`, a text made
of its indices, and `addList` puts it in the order of these texts: the row that has the `UID`
already makes way, and otherwise it goes before the first row with a greater one.  A handler walks
over the list and compares the OIDs its rows stand for, whose last components are the indices as
numbers.

`UID` has room for eight characters.  Where three indices are printed into it, the twelve
characters go on into the three bytes of padding behind it and the NUL into the leading byte of the
first index, on a machine that has a `long` in four bytes, the leading byte first.  A `Row` keeps
this part of the struct as the bytes it consists of.

* `formed_sprintfUid`: an index below 10000 survives the printing, and the text is that of its row.
* `addList_eq_place`: on rows in order, `addList` puts a row into the place of its indices.
* `varTable_exact`, `varTable_next`: what a handler finds.
-/

namespace Wap4410n.Snmp

open CLib

/-! ### Rows -/

/-- A row of a table: its struct. -/
structure Row (α : Type) where
  /-- from the beginning to the end of the indices: `UID`, three bytes of padding, and a `long` for
  each index -/
  mem : List Byte
  /-- the other fields -/
  data : α

namespace Row

variable {α : Type}

/-- Where the first index lies. -/
def indexOffset : Nat := 12

/-- `memset((char *)&row, 0, sizeof(row));`, of a row with `k` indices -/
def zeroed (k : Nat) (data : α) : Row α := ⟨List.replicate (indexOffset + k * 4) 0, data⟩

/-- An index. -/
def long (r : Row α) (i : Nat) : UInt32 := ofBe32 (r.mem.drop (indexOffset + i * 4))

/-- An index is assigned. -/
def setLong (r : Row α) (i v : Nat) : Row α :=
  { r with mem := splice r.mem (indexOffset + i * 4) (be32 (.ofNat v)) }

/-- The indices. -/
def indices (k : Nat) (r : Row α) : List Nat := (List.range k).map fun i => (r.long i).toNat

/-- `sprintf(row.UID, "%04ld…", …);`, with all indices -/
def sprintfUid (k : Nat) (r : Row α) : Row α :=
  let text := (List.range k).flatMap fun i => printPadded 4 (r.long i).toInt32
  { r with mem := splice r.mem 0 (text ++ [0]) }

/-- The string at `UID`. -/
def uid (r : Row α) : CStr := .before r.mem

/-- A row whose text is that of its indices, each of four digits. -/
def Formed (k : Nat) (r : Row α) : Prop :=
  (∀ i ∈ r.indices k, i < 10 ^ 4) ∧ r.uid.bytes = tuple 4 (r.indices k)

end Row

/-! ### `addList` -/

section List

variable {α : Type}

/-- `// this deals with UIDs that match` -/
def replaceMatch (newNode : Row α) : List (Row α) → Option (List (Row α))
  | [] => none
  | np :: l =>
    if strncmp newNode.uid.length newNode.uid.bytes np.uid.bytes = .eq then some (newNode :: l)
    else (replaceMatch newNode l).map (np :: ·)

/-- `// this deals with inserting a new UID in the list`; behind the last row it
`// needs to go on the end of the list` -/
def insertBefore (newNode : Row α) : List (Row α) → List (Row α)
  | [] => [newNode]
  | np :: l =>
    if strncmp newNode.uid.length np.uid.bytes newNode.uid.bytes = .gt then newNode :: np :: l
    else np :: insertBefore newNode l

/-- `addList` -/
def addList (list : List (Row α)) (newNode : Row α) : List (Row α) :=
  match list with
  | [] => [newNode]
  | _ :: _ => (replaceMatch newNode list).getD (insertBefore newNode list)

/-- `flushList` -/
def flushList (_ : List (Row α)) : List (Row α) := []

end List

/-! ### Handlers -/

/-- An object identifier. -/
abbrev Oid := List Nat

/-- `snmp_oid_compare` -/
def snmpOidCompare : Oid → Oid → Ordering
  | [], [] => .eq
  | [], _ :: _ => .lt
  | _ :: _, [] => .gt
  | a :: as, b :: bs => if a ≠ b then (if a < b then .lt else .gt) else snmpOidCompare as bs

/-- `rName`: the name of the column, and the indices behind it -/
def Row.oid {α : Type} (vpName : Oid) (k : Nat) (r : Row α) : Oid := vpName ++ r.indices k

/-- The handler of a table whose rows have `k` indices: the new name, and the row whose field is
returned, or `NULL`. -/
def varTable {α : Type} (k : Nat) (list : List (Row α)) (vpName name : Oid) (exact : Bool) :
    Option (Oid × Row α) :=
  (list.find? fun np =>
    (exact && snmpOidCompare (np.oid vpName k) name = .eq) ||
      (!exact && snmpOidCompare (np.oid vpName k) name = .gt)).map fun np => (np.oid vpName k, np)

/-! ### What is read from a struct -/

namespace Row

variable {α : Type} {r : Row α} {is : List Nat}

/-- The indices as they lie in memory. -/
def image (is : List Nat) : List Byte := is.flatMap fun i => be32 (.ofNat i)

@[simp] theorem length_image (is : List Nat) : (image is).length = is.length * 4 := by
  induction is with
  | nil => rfl
  | cons i is ih =>
      rw [image, List.flatMap_cons, List.length_append, ← image, ih, List.length_cons, length_be32]
      omega

theorem image_append (is js : List Nat) : image (is ++ js) = image is ++ image js :=
  List.flatMap_append

/-- The indices of the row are `is`. -/
def Holds (r : Row α) (is : List Nat) : Prop := ∃ u, u.length = indexOffset ∧ r.mem = u ++ image is

theorem holds_zeroed (k : Nat) (data : α) : (zeroed k data).Holds (List.replicate k 0) := by
  refine ⟨List.replicate indexOffset 0, List.length_replicate, ?_⟩
  have himage : image (List.replicate k 0) = List.replicate (k * 4) 0 := by
    induction k with
    | zero => rfl
    | succ k ih =>
        rw [List.replicate_succ, image, List.flatMap_cons, ← image, ih, Nat.succ_mul, Nat.add_comm,
          List.replicate_add]
        rfl
  rw [himage, zeroed, List.replicate_add]

theorem Holds.setLong (h : r.Holds is) {i : Nat} (hi : i < is.length) (v : Nat) :
    (r.setLong i v).Holds (is.set i v) := by
  obtain ⟨u, hu, hm⟩ := h
  obtain ⟨as, a, bs, rfl, rfl⟩ : ∃ as a bs, is = as ++ a :: bs ∧ as.length = i :=
    ⟨is.take i, is[i], is.drop (i + 1), by simp, by simp [hi.le]⟩
  refine ⟨u, hu, ?_⟩
  have hoff : (u ++ image as).length = indexOffset + as.length * 4 := by simp [hu]
  have hcons : ∀ b : Nat, image (as ++ b :: bs) = image as ++ (be32 (.ofNat b) ++ image bs) :=
    fun b => image_append as (b :: bs)
  have hset : (as ++ a :: bs).set as.length v = as ++ v :: bs := by simp
  show splice r.mem _ _ = _
  rw [hm, hset, hcons, hcons, ← List.append_assoc u, splice, ← hoff, List.take_left,
    ← List.drop_drop, List.drop_left, length_be32, ← length_be32 (.ofNat a), List.drop_left]
  simp

theorem Holds.long (h : r.Holds is) {i : Nat} (hi : i < is.length) :
    r.long i = .ofNat is[i] := by
  obtain ⟨u, hu, hm⟩ := h
  have hoff : (u ++ image (is.take i)).length = indexOffset + i * 4 := by
    simp [hu, Nat.min_eq_left hi.le]
  have hsplit :
      image is = image (is.take i) ++ (be32 (.ofNat is[i]) ++ image (is.drop (i + 1))) := by
    conv_lhs => rw [← List.take_append_drop i is, image_append, List.drop_eq_getElem_cons hi]
    rfl
  rw [Row.long, hm, hsplit, ← List.append_assoc, ← hoff, List.drop_left, ofBe32_be32]

theorem Holds.indices (h : r.Holds is) (hlt : ∀ i ∈ is, i < 2 ^ 32) :
    r.indices is.length = is := by
  refine List.ext_getElem (by simp [Row.indices]) fun i hi hi' => ?_
  simp only [Row.indices, List.getElem_map, List.getElem_range, h.long hi', UInt32.toNat_ofNat']
  exact Nat.mod_eq_of_lt (hlt _ (List.getElem_mem hi'))

/-- What is printed of the indices. -/
theorem Holds.printed (h : r.Holds is) (hlt : ∀ i ∈ is, i < 10 ^ 4) :
    ((List.range is.length).flatMap fun i => printPadded 4 (r.long i).toInt32) = tuple 4 is := by
  have hlong : ∀ i (hi : i < is.length), printPadded 4 (r.long i).toInt32 = lastDigits 4 is[i] := by
    intro i hi
    have hi4 := hlt _ (List.getElem_mem hi)
    rw [h.long hi, ← printPadded_eq (w := 4) (by decide) (by decide) hi4]
    rfl
  have hmap : ((List.range is.length).map fun i => printPadded 4 (r.long i).toInt32) =
      is.map (lastDigits 4) := by
    refine List.ext_getElem (by simp) fun i hi hi' => ?_
    rw [List.getElem_map, List.getElem_range, List.getElem_map]
    exact hlong i (by simpa using hi')
  rw [List.flatMap_def, hmap, ← List.flatMap_def]
  rfl

/-- **The printing leaves the indices**: what it writes past `UID` is padding, and the NUL falls on
the leading byte of an index below 2^24. -/
theorem Holds.sprintfUid (h : r.Holds is) (hlen : is.length ≤ 3) (hlt : ∀ i ∈ is, i < 10 ^ 4) :
    (r.sprintfUid is.length).Holds is ∧ (r.sprintfUid is.length).uid.bytes = tuple 4 is := by
  obtain ⟨u, hu, hm⟩ := id h
  have hmem : (r.sprintfUid is.length).mem = tuple 4 is ++ 0 :: (u ++ image is).drop
      (is.length * 4 + 1) := by
    show splice r.mem 0 _ = _
    rw [h.printed hlt, splice_zero, hm]
    simp
  constructor
  · by_cases h3 : is.length = 3
    · obtain ⟨i, is, rfl⟩ := List.exists_cons_of_length_eq_add_one h3
      have hi : i < 10 ^ 4 := hlt i List.mem_cons_self
      have hbe : be32 (.ofNat i) = 0 :: (be32 (.ofNat i)).tail := by
        rw [be32, List.tail_cons, UInt32.toNat_ofNat', Nat.mod_eq_of_lt (by omega),
          Nat.div_eq_of_lt (by omega)]
        rfl
      refine ⟨tuple 4 (i :: is), by simp [h3, indexOffset], ?_⟩
      rw [hmem, h3, image, List.flatMap_cons, hbe, List.drop_append, hu]
      rw [List.drop_eq_nil_of_le (by simp [hu, indexOffset])]
      rfl
    · refine ⟨tuple 4 is ++ 0 :: u.drop (is.length * 4 + 1), ?_, ?_⟩
      · simp [hu, indexOffset]
        omega
      · rw [hmem, List.drop_append_of_le_length (by rw [hu, indexOffset]; omega)]
        simp
  · rw [uid, hmem]
    exact congrArg CStr.bytes (CStr.before_append ⟨tuple 4 is, noNul_tuple 4 is⟩ _)

/-- **A row behind the printing** is formed, with its indices as they were. -/
theorem Holds.formed (h : r.Holds is) (hlen : is.length ≤ 3) (hlt : ∀ i ∈ is, i < 10 ^ 4) :
    (r.sprintfUid is.length).Formed is.length ∧
    (r.sprintfUid is.length).indices is.length = is := by
  obtain ⟨hholds, huid⟩ := h.sprintfUid hlen hlt
  have hindices := hholds.indices fun i hi => (hlt i hi).trans (by decide)
  refine ⟨⟨?_, ?_⟩, hindices⟩
  · rwa [hindices]
  · rw [huid, hindices]

end Row

/-! ### What `addList` does -/

section List

variable {α : Type} {k : Nat} {x : Row α} {l : List (Row α)}

/-- The rows of a list are formed, and in the order of their indices. -/
structure RowsInOrder (k : Nat) (l : List (Row α)) : Prop where
  formed : ∀ r ∈ l, r.Formed k
  increasing : Keyed.Increasing (Row.indices k) l

theorem rowsInOrder_nil : RowsInOrder k ([] : List (Row α)) :=
  ⟨(fun _ h => nomatch h), Keyed.increasing_nil⟩

theorem RowsInOrder.tail {y : Row α} (h : RowsInOrder k (y :: l)) : RowsInOrder k l :=
  ⟨fun r hr => h.formed r (List.mem_cons_of_mem y hr), (List.pairwise_cons.mp h.increasing).2⟩

theorem Row.length_indices (k : Nat) (r : Row α) : (r.indices k).length = k := by
  simp [Row.indices]

/-- The texts of two rows compare as their indices. -/
theorem Row.Formed.strncmp {y : Row α} (hx : x.Formed k) (hy : y.Formed k) :
    (strncmp x.uid.length x.uid.bytes y.uid.bytes = .eq ↔ y.indices k = x.indices k) ∧
      (strncmp x.uid.length y.uid.bytes x.uid.bytes = .gt ↔ x.indices k < y.indices k) := by
  have hlen : x.uid.length = (x.indices k).length * 4 := by
    rw [CStr.length, hx.2, length_tuple]
  have hxy : (x.indices k).length = (y.indices k).length := by
    rw [Row.length_indices, Row.length_indices]
  constructor
  · rw [hlen, hx.2, hy.2, (strncmp_tuple hxy hx.1 hy.1).1, eq_comm]
  · rw [hlen, hxy, hx.2, hy.2, (strncmp_tuple hxy.symm hy.1 hx.1).2]

theorem insertBefore_eq (hx : x.Formed k) (h : RowsInOrder k l)
    (hne : ∀ y ∈ l, y.indices k ≠ x.indices k) :
    insertBefore x l = Keyed.place (Row.indices k) l x := by
  induction l with
  | nil => rfl
  | cons y l ih =>
      have hy := h.formed y List.mem_cons_self
      rw [insertBefore, Keyed.place_cons h.increasing, if_neg (hne y List.mem_cons_self),
        ih h.tail fun z hz => hne z (List.mem_cons_of_mem y hz)]
      simp only [(hx.strncmp hy).2]
      split
      · rename_i hlt
        rw [if_neg hlt.not_gt]
      · rename_i hge
        rw [if_pos (lt_of_le_of_ne (not_lt.mp hge) (hne y List.mem_cons_self))]

theorem replaceMatch_eq (hx : x.Formed k) (h : RowsInOrder k l) :
    replaceMatch x l = if ∃ y ∈ l, y.indices k = x.indices k
      then some (Keyed.place (Row.indices k) l x) else none := by
  induction l with
  | nil => simp [replaceMatch]
  | cons y l ih =>
      have hy := h.formed y List.mem_cons_self
      have hlt : ∀ z ∈ l, y.indices k < z.indices k := (List.pairwise_cons.mp h.increasing).1
      rw [replaceMatch, Keyed.place_cons h.increasing, ih h.tail]
      simp only [(hx.strncmp hy).1]
      by_cases heq : y.indices k = x.indices k
      · rw [if_pos heq, if_pos ⟨y, List.mem_cons_self, heq⟩, if_neg heq.not_lt, if_pos heq]
      · rw [if_neg heq, if_neg heq]
        by_cases hex : ∃ z ∈ l, z.indices k = x.indices k
        · obtain ⟨z, hz, hzx⟩ := id hex
          rw [if_pos hex, if_pos ⟨z, List.mem_cons_of_mem y hz, hzx⟩, if_pos (hzx ▸ hlt z hz)]
          rfl
        · have hnone : ¬∃ z ∈ y :: l, z.indices k = x.indices k := by
            rintro ⟨z, hz, hzx⟩
            rcases List.mem_cons.mp hz with rfl | hz
            · exact heq hzx
            · exact hex ⟨z, hz, hzx⟩
          rw [if_neg hex, if_neg hnone]
          rfl

/-- **`addList` on rows in order** puts the row into the place of its indices. -/
theorem addList_eq_place (hx : x.Formed k) (h : RowsInOrder k l) :
    addList l x = Keyed.place (Row.indices k) l x := by
  have hmatch : (replaceMatch x l).getD (insertBefore x l) = Keyed.place (Row.indices k) l x := by
    rw [replaceMatch_eq hx h]
    split
    · rfl
    · rename_i hne
      exact insertBefore_eq hx h fun y hy heq => hne ⟨y, hy, heq⟩
  cases l with
  | nil => rfl
  | cons y l => exact hmatch

theorem RowsInOrder.addList (h : RowsInOrder k l) (hx : x.Formed k) :
    RowsInOrder k (addList l x) := by
  rw [addList_eq_place hx h]
  refine ⟨fun r hr => ?_, Keyed.increasing_place h.increasing x⟩
  rcases Keyed.mem_place.mp hr with rfl | ⟨hr, -⟩
  · exact hx
  · exact h.formed r hr

/-- **Rows added one after the other** are placed one after the other, and stay in order. -/
theorem RowsInOrder.addList_all (h : RowsInOrder k l) {rows : List (Row α)}
    (hrows : ∀ r ∈ rows, r.Formed k) :
    rows.foldl Snmp.addList l = Keyed.placeAll (Row.indices k) l rows ∧
      RowsInOrder k (rows.foldl Snmp.addList l) := by
  induction rows generalizing l with
  | nil => exact ⟨rfl, h⟩
  | cons r rows ih =>
      have hr := hrows r List.mem_cons_self
      have hl := ih (h.addList hr) fun s hs => hrows s (List.mem_cons_of_mem r hs)
      rw [addList_eq_place hr h] at hl
      rw [List.foldl_cons, addList_eq_place hr h]
      exact hl

end List

/-! ### What a handler finds -/

theorem snmpOidCompare_eq_iff : ∀ {a b : Oid}, snmpOidCompare a b = .eq ↔ a = b
  | [], [] => by simp [snmpOidCompare]
  | [], _ :: _ => by simp [snmpOidCompare]
  | _ :: _, [] => by simp [snmpOidCompare]
  | a :: as, b :: bs => by
      rw [snmpOidCompare, List.cons_eq_cons]
      by_cases h : a = b
      · rw [if_neg (not_not.mpr h), and_iff_right h]
        exact snmpOidCompare_eq_iff
      · rw [if_pos h]
        refine iff_of_false ?_ fun e => h e.1
        split <;> exact nofun

/-- **`snmp_oid_compare` is the lexicographic order.** -/
theorem snmpOidCompare_gt_iff : ∀ {a b : Oid}, snmpOidCompare a b = .gt ↔ b < a
  | [], [] => by simp [snmpOidCompare]
  | [], _ :: _ => by simp [snmpOidCompare]
  | _ :: _, [] => by simp [snmpOidCompare]
  | a :: as, b :: bs => by
      rw [snmpOidCompare, List.cons_lt_cons_iff]
      rcases lt_trichotomy a b with h | h | h
      · rw [if_pos h.ne, if_pos h]
        exact iff_of_false nofun (by omega)
      · rw [if_neg (not_not.mpr h), snmpOidCompare_gt_iff]
        exact ⟨fun hlt => .inr ⟨h.symm, hlt⟩,
          fun hor => hor.elim (fun hlt => absurd h hlt.ne') (·.2)⟩
      · rw [if_pos h.ne', if_neg h.not_gt]
        exact iff_of_true rfl (.inl h)

section Handler

variable {α : Type} {k : Nat} {l : List (Row α)} (vpName : Oid)

theorem append_lt_append_iff {a b : Oid} : vpName ++ a < vpName ++ b ↔ a < b := by
  induction vpName with
  | nil => rfl
  | cons c vpName ih => simp [ih]

/-- Behind the name of a column the rows are in the order of their OIDs. -/
theorem increasing_oid (h : Keyed.Increasing (Row.indices k) l) :
    Keyed.Increasing (Row.oid vpName k) l :=
  h.imp fun hlt => (append_lt_append_iff vpName).mpr hlt

theorem varTable_eq (name : Oid) (exact : Bool) :
    varTable k l vpName name exact =
      (if exact then Keyed.lookup (Row.oid vpName k) l name
        else Keyed.next (Row.oid vpName k) l name).map fun np => (np.oid vpName k, np) := by
  rw [varTable]
  congr 1
  cases exact
  · rw [if_neg Bool.false_ne_true]
    simp only [Bool.false_and, Bool.not_false, Bool.true_and, Bool.false_or, snmpOidCompare_gt_iff]
    exact congrArg (l.find? ·) (funext fun np => decide_eq_decide.mpr Iff.rfl)
  · rw [if_pos rfl]
    simp only [Bool.true_and, Bool.not_true, Bool.false_and, Bool.or_false, snmpOidCompare_eq_iff]
    exact congrArg (l.find? ·) (funext fun np => decide_eq_decide.mpr Iff.rfl)

/-- **An exact request** finds the row that its OID names. -/
theorem varTable_exact (h : Keyed.Increasing (Row.indices k) l) (name n : Oid) (r : Row α) :
    varTable k l vpName name true = some (n, r) ↔ r ∈ l ∧ r.oid vpName k = name ∧ n = name := by
  rw [varTable_eq, if_pos rfl, Option.map_eq_some_iff]
  constructor
  · rintro ⟨np, hfind, hnp⟩
    obtain ⟨hmem, hoid⟩ := (Keyed.lookup_eq_some (increasing_oid vpName h)).mp hfind
    cases hnp
    exact ⟨hmem, hoid, hoid⟩
  · rintro ⟨hmem, hoid, rfl⟩
    exact ⟨r, (Keyed.lookup_eq_some (increasing_oid vpName h)).mpr ⟨hmem, hoid⟩, by rw [hoid]⟩

/-- **A GETNEXT request** finds the least row behind its OID. -/
theorem varTable_next (h : Keyed.Increasing (Row.indices k) l) (name n : Oid) (r : Row α) :
    varTable k l vpName name false = some (n, r) ↔ r ∈ l ∧ n = r.oid vpName k ∧ name < n ∧
      ∀ y ∈ l, name < y.oid vpName k → n ≤ y.oid vpName k := by
  rw [varTable_eq, if_neg Bool.false_ne_true, Option.map_eq_some_iff]
  constructor
  · rintro ⟨np, hnext, hnp⟩
    obtain ⟨hmem, hlt, hle⟩ := (Keyed.next_eq_some (increasing_oid vpName h)).mp hnext
    cases hnp
    exact ⟨hmem, rfl, hlt, hle⟩
  · rintro ⟨hmem, rfl, hlt, hle⟩
    exact ⟨r, (Keyed.next_eq_some (increasing_oid vpName h)).mpr ⟨hmem, hlt, hle⟩, rfl⟩

end Handler

end Wap4410n.Snmp
