import Mathlib.Data.List.Chain
import Mathlib.Data.List.GetD
import Wap4410n.Editcfg.Assign

/-!
# Utility — netmasks

`scValidIpMask` looks up each octet of a netmask in a table, from the first on, and stops at the
first one that is not found: what follows has to be zero.  An octet below 255 does not end the
search.  `AssignMask` of the import reads four numbers and goes by the first one that is not 255.

* `scValidIpMask_contiguous`: the function accepts the contiguous masks, and corrects to one, just
  where the octets it finds descend from 255 to zero.
* `assignMask_agrees`: the masks on which the two functions agree.
-/

namespace Wap4410n.Utility

open CLib Editcfg

/-! ### `scValidIpMask` -/

/-- `scIpMaskTable` -/
def scIpMaskTable : List Nat := [0, 128, 192, 224, 240, 248, 252, 254, 255]

/-- `scIpMaskRange` -/
def scIpMaskRange : List (Nat × Nat) := [(2, 8), (0, 8), (0, 8), (0, 7)]

/-- `scIpSeparateTo4`; `netstr` has 20 bytes, an address is 15 characters at most -/
def scIpSeparateTo4 (ipAddress : InAddr) : Option (Nat × Nat × Nat × Nat) :=
  scanOctets (inetNtoa ipAddress)

/-- `found`, for the octet `mask[i]` -/
def maskFound (i octet : Nat) : Bool :=
  let range := scIpMaskRange.getD i (0, 0)
  (List.range' range.1 (range.2 + 1 - range.1)).any fun j =>
    (octet ≠ 0 || i = 3) && octet = scIpMaskTable.getD j 0

/-- `sprintf(netstr, "%d.%d.%d.%d", mask[0], mask[1], mask[2], mask[3]);` -/
def maskStr (mask : List Nat) : CStr :=
  let octet := fun i => CStr.ofInt (mask.getD i 0 : Nat)
  (octet 0).append <| (CStr.text ".").append <| (octet 1).append <| (CStr.text ".").append <|
    (octet 2).append <| (CStr.text ".").append (octet 3)

/-- The loop over the octets, with those found so far, and `*pValidIpMask`. -/
def maskLoop (ipMask : InAddr) (found : List Nat) : List Nat → Bool × InAddr
  | [] => (true, ipMask)
  | octet :: mask =>
    if maskFound found.length octet then maskLoop ipMask (found ++ [octet]) mask
    else ((octet :: mask).all fun o => o = 0,
      inetAddr (maskStr (found ++ (octet :: mask).map fun _ => 0)))

/-- `scValidIpMask`, and `*pValidIpMask` where it is stored -/
def scValidIpMask (ipMask : InAddr) : Bool × Option InAddr :=
  match scIpSeparateTo4 ipMask with
  | none => (false, none)
  | some (a, b, c, d) =>
      ((maskLoop ipMask [] [a, b, c, d]).1, some (maskLoop ipMask [] [a, b, c, d]).2)

/-! ### Octets -/

/-- The octets, as numbers. -/
def numbers (m : InAddr) : List Nat := m.octets.map UInt8.toNat

/-- The address of some octets, the others zero. -/
def ofNumbers (l : List Nat) : InAddr where
  a := .ofNat (l.getD 0 0)
  b := .ofNat (l.getD 1 0)
  c := .ofNat (l.getD 2 0)
  d := .ofNat (l.getD 3 0)

/-- The octets that are found, up to the first that is not. -/
def foundRun (i : Nat) : List Nat → List Nat
  | [] => []
  | octet :: mask => if maskFound i octet then octet :: foundRun (i + 1) mask else []

/-- The leading run of octets of the table. -/
def leadingRun (m : InAddr) : List Nat := foundRun 0 (numbers m)

/-- The leading run, and zeros. -/
def corrected (m : InAddr) : InAddr := ofNumbers (leadingRun m)

@[simp] theorem length_numbers (m : InAddr) : (numbers m).length = 4 := rfl

theorem numbers_lt {m : InAddr} {o : Nat} (h : o ∈ numbers m) : o < 256 := by
  obtain ⟨b, -, rfl⟩ := List.mem_map.mp h
  exact b.toNat_lt

@[simp] theorem ofNumbers_numbers (m : InAddr) : ofNumbers (numbers m) = m := by
  simp [ofNumbers, numbers, InAddr.octets]

theorem numbers_ofNumbers {l : List Nat} (hlen : l.length = 4) (hlt : ∀ o ∈ l, o < 256) :
    numbers (ofNumbers l) = l := by
  obtain ⟨a, b, c, d, rfl⟩ := List.length_eq_four.mp hlen
  simp only [List.mem_cons, List.not_mem_nil, or_false, forall_eq_or_imp, forall_eq] at hlt
  simp only [numbers, ofNumbers, InAddr.octets, List.map_cons, List.map_nil, UInt8.toNat_ofNat',
    List.getD_cons_zero, List.getD_cons_succ]
  rw [Nat.mod_eq_of_lt hlt.1, Nat.mod_eq_of_lt hlt.2.1, Nat.mod_eq_of_lt hlt.2.2.1,
    Nat.mod_eq_of_lt hlt.2.2.2]

theorem getD_append_zeros (l mask : List Nat) (i : Nat) :
    (l ++ mask.map fun _ => 0).getD i 0 = l.getD i 0 := by
  by_cases hi : i < l.length
  · exact List.getD_append _ _ _ _ hi
  · rw [List.getD_append_right _ _ _ _ (by omega), List.getD_eq_default l 0 (by omega)]
    by_cases hz : i - l.length < mask.length
    · rw [List.getD_eq_getElem _ _ (by simpa using hz), List.getElem_map]
    · exact List.getD_eq_default _ _ (by simpa using hz)

/-- Zeros at the end change nothing. -/
theorem ofNumbers_zeros (l mask : List Nat) :
    ofNumbers (l ++ mask.map fun _ => 0) = ofNumbers l := by
  simp only [ofNumbers, getD_append_zeros]

theorem lt_append_zeros {l mask : List Nat} (h : ∀ o ∈ l, o < 256) :
    ∀ o ∈ l ++ mask.map fun _ => 0, o < 256 := by
  intro o ho
  rcases List.mem_append.mp ho with ho | ho
  · exact h o ho
  · obtain ⟨-, -, rfl⟩ := List.mem_map.mp ho
    decide

/-- **Octets are the whole address** exactly where the others are zero. -/
theorem ofNumbers_eq_append {l mask : List Nat} (hlen : (l ++ mask).length = 4)
    (hlt : ∀ o ∈ l ++ mask, o < 256) :
    ofNumbers l = ofNumbers (l ++ mask) ↔ ∀ o ∈ mask, o = 0 := by
  have hzeros : ∀ o ∈ l ++ mask.map fun _ => 0, o < 256 :=
    lt_append_zeros fun o ho => hlt o (List.mem_append_left _ ho)
  rw [← ofNumbers_zeros l mask]
  constructor
  · intro h o ho
    have hnumbers := congrArg numbers h
    rw [numbers_ofNumbers (by simpa using hlen) hzeros, numbers_ofNumbers hlen hlt] at hnumbers
    rw [← List.append_cancel_left hnumbers] at ho
    obtain ⟨-, -, rfl⟩ := List.mem_map.mp ho
    rfl
  · intro h
    rw [List.map_congr_left (g := id) fun o ho => (h o ho).symm, List.map_id]

/-- What is printed is read back. -/
theorem inetAddr_maskStr {l : List Nat} (hlt : ∀ o ∈ l, o < 256) :
    inetAddr (maskStr l) = ofNumbers l := by
  have hoctet : ∀ i, (UInt8.ofNat (l.getD i 0)).toNat = l.getD i 0 := by
    intro i
    rw [UInt8.toNat_ofNat', Nat.mod_eq_of_lt]
    by_cases hi : i < l.length
    · rw [List.getD_eq_getElem _ _ hi]
      exact hlt _ (List.getElem_mem hi)
    · rw [List.getD_eq_default _ _ (by omega)]
      decide
  have hprint : maskStr l = inetNtoa (ofNumbers l) := by
    simp only [maskStr, inetNtoa, octet, ofNumbers, hoctet]
  rw [hprint, inetAddr_inetNtoa]

/-! ### Dotted quads -/

/-- An octet in decimal, with zeros before it or not. -/
def OctetText (ds : List Byte) (b : Byte) : Prop :=
  ds ≠ [] ∧ (∀ c ∈ ds, isDigit c = true) ∧ decimal ds = b.toNat

/-- The text is that of the address. -/
def DottedQuad (value : CStr) (m : InAddr) : Prop :=
  ∃ a b c d, OctetText a m.a ∧ OctetText b m.b ∧ OctetText c m.c ∧ OctetText d m.d ∧
    value.bytes = a ++ 0x2e :: (b ++ 0x2e :: (c ++ 0x2e :: d))

theorem octetText_octet (b : Byte) : OctetText (octet b).bytes b := by
  have hb := b.toNat_lt
  rw [bytes_octet]
  exact ⟨digits_ne_nil 9 _, fun c hc => isDigit_digits hc, decimal_digits (by omega)⟩

theorem dottedQuad_inetNtoa (m : InAddr) : DottedQuad (inetNtoa m) m :=
  ⟨_, _, _, _, octetText_octet m.a, octetText_octet m.b, octetText_octet m.c,
    octetText_octet m.d, rfl⟩

/-- An octet is scanned up to what is not a digit. -/
theorem OctetText.scanInt {ds t : List Byte} {b : Byte} (h : OctetText ds b)
    (ht : t.head?.all fun c => !isDigit c) : scanInt (ds ++ t) = some (.ofInt b.toNat, t) := by
  obtain ⟨hne, hds, hvalue⟩ := h
  rw [CLib.scanInt, scanNumber_decimal hne hds ht, hvalue]
  rfl

/-- **The octets of a dotted quad** are scanned. -/
theorem scanOctets_quad {value : CStr} {m : InAddr} (h : DottedQuad value m) :
    scanOctets value = some (m.a.toNat, m.b.toNat, m.c.toNat, m.d.toNat) := by
  obtain ⟨a, b, c, d, ha, hb, hc, hd, hbytes⟩ := h
  have hoctet : ∀ o : Byte, (Int32.ofInt (o.toNat : Int)).toUInt32.toNat = o.toNat :=
    forall_byte (by decide)
  have hlast := hd.scanInt (t := []) rfl
  rw [List.append_nil] at hlast
  rw [scanOctets, hbytes, ha.scanInt rfl]
  simp only [Option.bind_eq_bind, Option.bind_some, scanChar, List.head?_cons, if_true,
    List.tail_cons]
  rw [hb.scanInt rfl]
  simp only [Option.bind_some, List.head?_cons, if_true, List.tail_cons]
  rw [hc.scanInt rfl]
  simp only [Option.bind_some, List.head?_cons, if_true, List.tail_cons]
  rw [hlast]
  simp only [Option.bind_some, Option.pure_def, hoctet]

/-! ### What is returned, and what is corrected -/

/-- **The loop** corrects to the octets found, and returns whether that is the mask. -/
theorem maskLoop_eq : ∀ (found mask : List Nat), (found ++ mask).length = 4 →
    (∀ o ∈ found ++ mask, o < 256) →
    let c := ofNumbers (found ++ foundRun found.length mask)
    maskLoop (ofNumbers (found ++ mask)) found mask = (decide (c = ofNumbers (found ++ mask)), c)
  | found, [], _, _ => by
      simp [maskLoop, foundRun]
  | found, octet :: mask, hlen, hlt => by
      cases hfound : maskFound found.length octet with
      | true =>
          have hassoc : found ++ octet :: mask = found ++ [octet] ++ mask := by simp
          have ih := maskLoop_eq (found ++ [octet]) mask (hassoc ▸ hlen) (hassoc ▸ hlt)
          simp only [maskLoop, foundRun, hfound, if_true]
          rw [hassoc, ih]
          simp
      | false =>
          have hzeros : ∀ o ∈ found ++ (octet :: mask).map fun _ => 0, o < 256 :=
            lt_append_zeros fun o ho => hlt o (List.mem_append_left _ ho)
          simp only [maskLoop, foundRun, hfound, Bool.false_eq_true, if_false, List.append_nil]
          rw [inetAddr_maskStr hzeros, ofNumbers_zeros]
          refine Prod.ext ?_ rfl
          rw [Bool.eq_iff_iff, List.all_eq_true, decide_eq_true_iff, ofNumbers_eq_append hlen hlt]
          simp

/-- **`scValidIpMask`** accepts a mask that it does not have to correct. -/
theorem scValidIpMask_eq (m : InAddr) :
    scValidIpMask m = (decide (corrected m = m), some (corrected m)) := by
  have hloop := maskLoop_eq [] (numbers m) rfl fun o ho => numbers_lt ho
  simp only [List.nil_append, ofNumbers_numbers] at hloop
  rw [scValidIpMask, scIpSeparateTo4, scanOctets_quad (dottedQuad_inetNtoa m)]
  show ((maskLoop m [] (numbers m)).1, some (maskLoop m [] (numbers m)).2) = _
  rw [hloop]
  rfl

theorem scValidIpMask_fst (m : InAddr) : (scValidIpMask m).1 = true ↔ corrected m = m := by
  rw [scValidIpMask_eq]
  exact decide_eq_true_iff

/-! ### Contiguous masks -/

/-- The mask of a prefix length. -/
def prefixMask (n : Nat) : InAddr := .ofNat (0xffffffff - 0xffffffff >>> n)

/-- A mask of a prefix length from 2 to 31. -/
def Contiguous (m : InAddr) : Prop := ∃ n, 2 ≤ n ∧ n ≤ 31 ∧ m = prefixMask n

/-- An octet below 255 has a zero behind it. -/
def Descends (l : List Nat) : Prop := l.IsChain fun x y => x = 255 ∨ y = 0

/-- The octets of the leading run descend. -/
def Stepped (m : InAddr) : Prop := Descends (leadingRun m)

/-- What stands behind the leading run is zero. -/
def EndsZero (m : InAddr) : Prop := ∀ o ∈ (numbers m).drop (leadingRun m).length, o = 0

/-- Every octet is zero or of the table. -/
def Drawn (i : Nat) (l : List Nat) : Prop :=
  ∀ j, l.getD j 0 = 0 ∨ maskFound (i + j) (l.getD j 0) = true

instance (m : InAddr) : Decidable (Contiguous m) :=
  decidable_of_iff (∃ n ∈ List.range' 2 30, m = prefixMask n) (by
    simp only [List.mem_range'_1, Contiguous]
    refine exists_congr fun n => ?_
    rw [← and_assoc, Nat.lt_succ_iff])

instance (l : List Nat) : Decidable (Descends l) := inferInstanceAs (Decidable (List.IsChain _ _))

instance (m : InAddr) : Decidable (Stepped m) := inferInstanceAs (Decidable (Descends _))

theorem foundRun_isPrefixOf (i : Nat) (l : List Nat) : foundRun i l <+: l := by
  induction l generalizing i with
  | nil => exact List.nil_prefix
  | cons o l ih =>
      unfold foundRun
      split
      · exact List.cons_prefix_cons.mpr ⟨rfl, ih (i + 1)⟩
      · exact List.nil_prefix

theorem drawn_foundRun (i : Nat) (l : List Nat) : Drawn i (foundRun i l) := by
  induction l generalizing i with
  | nil => exact fun j => .inl rfl
  | cons o l ih =>
      intro j
      unfold foundRun
      split
      · rename_i hfound
        cases j with
        | zero => exact .inr hfound
        | succ j =>
            rw [List.getD_cons_succ, show i + (j + 1) = i + 1 + j by omega]
            exact ih (i + 1) j
      · exact .inl rfl

/-- The first octet of a run is found. -/
theorem found_head {i : Nat} {l : List Nat} (h : foundRun i l ≠ []) :
    maskFound i ((foundRun i l).getD 0 0) = true := by
  cases l with
  | nil => exact absurd rfl h
  | cons o l =>
      unfold foundRun at h ⊢
      split at h
      · rename_i hfound
        rwa [if_pos hfound]
      · exact absurd rfl h

/-- Zeros may follow. -/
theorem Descends.append_zeros {l : List Nat} (h : Descends l) (mask : List Nat) :
    Descends (l ++ mask.map fun _ => 0) := by
  have hzeros : Descends (mask.map fun _ => 0) := by
    induction mask with
    | nil => exact .nil
    | cons x mask ih =>
        cases mask with
        | nil => exact .singleton _
        | cons y mask => exact .cons_cons (.inr rfl) ih
  refine h.append hzeros fun x _ y hy => .inr ?_
  obtain ⟨-, -, rfl⟩ := List.mem_map.mp (List.mem_of_mem_head? hy)
  rfl

/-- Behind a zero there are zeros. -/
theorem Descends.zero {l : List Nat} (h : Descends (0 :: l)) : ∀ o ∈ l, o = 0 := by
  induction l with
  | nil => exact fun o ho => nomatch ho
  | cons x l ih =>
      obtain ⟨hx, hrest⟩ := List.isChain_cons_cons.mp h
      obtain rfl : x = 0 := hx.resolve_left (by decide)
      intro o ho
      rcases List.mem_cons.mp ho with rfl | ho
      · rfl
      · exact ih hrest o ho

/-- **Octets that descend** are zero where they are found no more. -/
theorem Descends.drop_foundRun {i : Nat} {l : List Nat} (hd : Drawn i l) (h : Descends l) :
    ∀ o ∈ l.drop (foundRun i l).length, o = 0 := by
  induction l generalizing i with
  | nil => simp
  | cons x l ih =>
      cases hfound : maskFound i x with
      | true =>
          have hrest : Drawn (i + 1) l := by
            intro j
            have hj := hd (j + 1)
            rwa [List.getD_cons_succ, show i + (j + 1) = i + 1 + j by omega] at hj
          rw [foundRun, hfound, if_pos rfl]
          exact ih hrest (List.IsChain.of_cons h)
      | false =>
          obtain rfl : x = 0 := (hd 0).resolve_right (by simp [hfound])
          rw [foundRun, hfound, if_neg Bool.false_ne_true]
          intro o ho
          rcases List.mem_cons.mp ho with rfl | ho
          · rfl
          · exact h.zero o ho

/-- **A contiguous mask** is one of descending octets of the table, the first of them not zero. -/
theorem contiguous_iff (m : InAddr) :
    Contiguous m ↔ m.a ≠ 0 ∧ Drawn 0 (numbers m) ∧ Descends (numbers m) := by
  constructor
  · rintro ⟨n, hlo, hhi, rfl⟩
    have hall : ∀ n ∈ List.range' 2 30, (prefixMask n).a ≠ 0 ∧
        (∀ j ∈ List.range 4, (numbers (prefixMask n)).getD j 0 = 0 ∨
          maskFound (0 + j) ((numbers (prefixMask n)).getD j 0) = true) ∧
        Descends (numbers (prefixMask n)) := by decide +kernel
    obtain ⟨hne, hdrawn, hdescends⟩ := hall n (List.mem_range'_1.mpr (by omega))
    refine ⟨hne, fun j => ?_, hdescends⟩
    by_cases hj : j < 4
    · exact hdrawn j (List.mem_range.mpr hj)
    · exact .inl (List.getD_eq_default _ _ (by simpa using hj))
  · rintro ⟨hne, hdrawn, hdescends⟩
    obtain ⟨a, b, c, d⟩ := m
    have hfull : ∀ {x y : Byte}, x.toNat = 255 ∨ y.toNat = 0 → y ≠ 0 → x = 255 := fun h hy =>
      UInt8.toNat_inj.mp (h.resolve_right fun e => hy (UInt8.toNat_inj.mp e))
    have hzero : ∀ {x y : Byte}, x.toNat = 255 ∨ y.toNat = 0 → x = 0 → y = 0 := fun h hx =>
      UInt8.toNat_inj.mp (h.resolve_left (by rw [hx]; decide))
    have hfound : ∀ {x : Byte} {j : Nat}, x.toNat = 0 ∨ maskFound (0 + j) x.toNat = true → x ≠ 0 →
        maskFound j x.toNat = true := by
      intro x j h hx
      rw [Nat.zero_add] at h
      exact h.resolve_left fun e => hx (UInt8.toNat_inj.mp e)
    obtain ⟨hab, hbcd⟩ := List.isChain_cons_cons.mp hdescends
    obtain ⟨hbc, hcd⟩ := List.isChain_cons_cons.mp hbcd
    obtain ⟨hcd, -⟩ := List.isChain_cons_cons.mp hcd
    have hfourth : ∀ d : Byte, maskFound 3 d.toNat = true → Contiguous ⟨255, 255, 255, d⟩ :=
      forall_byte (by decide)
    have hthird : ∀ c : Byte, maskFound 2 c.toNat = true → Contiguous ⟨255, 255, c, 0⟩ :=
      forall_byte (by decide)
    have hsecond : ∀ b : Byte, maskFound 1 b.toNat = true → Contiguous ⟨255, b, 0, 0⟩ :=
      forall_byte (by decide)
    have hfirst : ∀ a : Byte, maskFound 0 a.toNat = true → Contiguous ⟨a, 0, 0, 0⟩ :=
      forall_byte (by decide)
    -- the last octet that is not zero has only full ones before it
    by_cases hb : b = 0
    · obtain rfl := hb
      obtain rfl := hzero hbc rfl
      obtain rfl := hzero hcd rfl
      exact hfirst a (hfound (hdrawn 0) hne)
    obtain rfl := hfull hab hb
    by_cases hc : c = 0
    · obtain rfl := hc
      obtain rfl := hzero hcd rfl
      exact hsecond b (hfound (hdrawn 1) hb)
    obtain rfl := hfull hbc hc
    by_cases hd : d = 0
    · obtain rfl := hd
      exact hthird c (hfound (hdrawn 2) hc)
    obtain rfl := hfull hcd hd
    exact hfourth d (hfound (hdrawn 3) hd)

/-! ### What is accepted -/

theorem leadingRun_append (m : InAddr) :
    leadingRun m ++ (numbers m).drop (leadingRun m).length = numbers m :=
  List.prefix_iff_eq_append.mp (foundRun_isPrefixOf 0 (numbers m))

theorem numbers_corrected (m : InAddr) : numbers (corrected m) =
    leadingRun m ++ ((numbers m).drop (leadingRun m).length).map fun _ => 0 := by
  have hsplit := leadingRun_append m
  have hlen := congrArg List.length hsplit
  rw [corrected, ← ofNumbers_zeros _ ((numbers m).drop (leadingRun m).length)]
  refine numbers_ofNumbers ?_ (lt_append_zeros fun o ho => numbers_lt (m := m) ?_)
  · rw [List.length_append] at hlen ⊢
    rw [List.length_map, hlen, length_numbers]
  · rw [← hsplit]
    exact List.mem_append_left _ ho

/-- Nothing is corrected where zeros stand behind the octets found. -/
theorem corrected_eq_iff (m : InAddr) : corrected m = m ↔ EndsZero m := by
  have hsplit := leadingRun_append m
  have h := ofNumbers_eq_append (l := leadingRun m)
    (by rw [hsplit, length_numbers]) fun o ho => numbers_lt (m := m) (hsplit ▸ ho)
  rwa [hsplit, ofNumbers_numbers] at h

/-- Zero is not found as the first octet. -/
theorem corrected_ne_zero {m : InAddr} (h : leadingRun m ≠ []) : (corrected m).a ≠ 0 := by
  intro hzero
  have hfound : maskFound 0 ((leadingRun m).getD 0 0) = true := found_head h
  have hhead : (numbers (corrected m)).getD 0 0 = 0 := congrArg UInt8.toNat hzero
  rw [numbers_corrected, getD_append_zeros] at hhead
  rw [hhead] at hfound
  exact absurd hfound (by decide)

/-- **What is corrected to** is contiguous where the octets found descend. -/
theorem contiguous_corrected (m : InAddr) :
    Contiguous (corrected m) ↔ leadingRun m ≠ [] ∧ Stepped m := by
  have hnumbers := numbers_corrected m
  rw [contiguous_iff]
  constructor
  · rintro ⟨hne, -, hdescends⟩
    rw [hnumbers] at hdescends
    refine ⟨fun hnil => hne ?_, hdescends.left_of_append⟩
    rw [corrected, hnil]
    rfl
  · rintro ⟨hne, hstepped⟩
    have hget : ∀ j, (numbers (corrected m)).getD j 0 = (leadingRun m).getD j 0 := fun j => by
      rw [hnumbers, getD_append_zeros]
    refine ⟨corrected_ne_zero hne, fun j => ?_, ?_⟩
    · rw [hget]
      exact drawn_foundRun 0 (numbers m) j
    · rw [hnumbers]
      exact hstepped.append_zeros _

/-- A contiguous mask is accepted. -/
theorem Contiguous.corrected {m : InAddr} (h : Contiguous m) : corrected m = m :=
  have ⟨_, hdrawn, hdescends⟩ := (contiguous_iff m).mp h
  (corrected_eq_iff m).mpr (hdescends.drop_foundRun hdrawn)

/-- What the function is for: it accepts the contiguous masks, and corrects to one or to zero, and
to the leading run of octets of the table. -/
def DecidesContiguous (m : InAddr) : Prop :=
  ((scValidIpMask m).1 = true ↔ Contiguous m) ∧
    ∃ c, (scValidIpMask m).2 = some c ∧ (Contiguous c ∨ c = .zero) ∧ leadingRun m <+: numbers c

/-- **`scValidIpMask` decides** whether a mask is contiguous just where its leading octets descend
from 255 to zero, `0.0.0.0` apart. -/
theorem scValidIpMask_contiguous (m : InAddr) : DecidesContiguous m ↔ m ≠ .zero ∧ Stepped m := by
  have hfst := scValidIpMask_fst m
  have hsnd : (scValidIpMask m).2 = some (corrected m) := by rw [scValidIpMask_eq]
  have hrun : leadingRun m = [] → corrected m = .zero := fun hnil => by
    rw [corrected, hnil]
    rfl
  constructor
  · rintro ⟨haccepts, c, hc, hcontiguous, -⟩
    obtain rfl : corrected m = c := Option.some.inj (hsnd.symm.trans hc)
    refine ⟨fun hzero => ?_, ?_⟩
    · obtain rfl := hzero
      exact absurd (haccepts.mp (hfst.mpr (by decide))) (by decide)
    · by_cases hnil : leadingRun m = []
      · rw [Stepped, hnil]
        exact .nil
      · have hzero : corrected m ≠ .zero := fun e =>
          corrected_ne_zero hnil (by rw [e]; rfl)
        exact ((contiguous_corrected m).mp (hcontiguous.resolve_right hzero)).2
  · rintro ⟨hne, hstepped⟩
    refine ⟨hfst.trans ⟨fun heq => ?_, Contiguous.corrected⟩, _, hsnd, ?_, ?_⟩
    · refine heq ▸ (contiguous_corrected m).mpr ⟨fun hnil => hne ?_, hstepped⟩
      rw [← heq, hrun hnil]
    · by_cases hnil : leadingRun m = []
      · exact .inr (hrun hnil)
      · exact .inl ((contiguous_corrected m).mpr ⟨hnil, hstepped⟩)
    · rw [numbers_corrected]
      exact List.prefix_append _ _

/-- **A mask with a hole** is accepted. -/
theorem scValidIpMask_hole : ¬DecidesContiguous ⟨192, 192, 0, 0⟩ := fun h =>
  absurd (h.1.mp (by rw [scValidIpMask_eq]; decide)) (by decide)

/-! ### `AssignMask` -/

/-- What `AssignMask` accepts is contiguous, and not the longest prefix. -/
theorem validMask_iff (m : InAddr) :
    validMask m.a.toNat m.b.toNat m.c.toNat m.d.toNat = true ↔
      Contiguous m ∧ m ≠ ⟨255, 255, 255, 254⟩ := by
  constructor
  · intro h
    obtain ⟨a, b, c, d⟩ := m
    have hfourth : ∀ d : Byte, validMask 255 255 255 d.toNat = true →
        Contiguous ⟨255, 255, 255, d⟩ ∧ d ≠ 254 := forall_byte (by decide)
    have hthird : ∀ c : Byte, validMask 255 255 c.toNat 0 = true → Contiguous ⟨255, 255, c, 0⟩ :=
      forall_byte (by decide)
    have hsecond : ∀ b : Byte, validMask 255 b.toNat 0 0 = true → Contiguous ⟨255, b, 0, 0⟩ :=
      forall_byte (by decide)
    have hfirst : ∀ a : Byte, validMask a.toNat 0 0 0 = true → Contiguous ⟨a, 0, 0, 0⟩ :=
      forall_byte (by decide)
    have hrest := h
    unfold validMask at hrest
    have hz : ∀ {x : Byte}, x.toNat = 0 → x = 0 := fun e => UInt8.toNat_inj.mp e
    have hf : ∀ {x : Byte}, ¬x.toNat ≠ 255 → x = 255 := fun e =>
      UInt8.toNat_inj.mp (Decidable.not_not.mp e)
    -- the first octet that is not full has zeros behind it
    split at hrest
    · simp only [Bool.decide_and, Bool.and_eq_true, decide_eq_true_eq] at hrest
      obtain ⟨hb, hc, hd, -⟩ := hrest
      obtain ⟨rfl, rfl, rfl⟩ := And.intro (hz hb) (And.intro (hz hc) (hz hd))
      exact ⟨hfirst a h, by simp [InAddr.mk.injEq]⟩
    · rename_i ha
      obtain rfl := hf ha
      split at hrest
      · simp only [Bool.decide_and, Bool.and_eq_true, decide_eq_true_eq] at hrest
        obtain ⟨hc, hd, -⟩ := hrest
        obtain ⟨rfl, rfl⟩ := And.intro (hz hc) (hz hd)
        exact ⟨hsecond b h, by simp [InAddr.mk.injEq]⟩
      · rename_i hb
        obtain rfl := hf hb
        split at hrest
        · simp only [Bool.decide_and, Bool.and_eq_true, decide_eq_true_eq] at hrest
          obtain rfl := hz hrest.1
          exact ⟨hthird c h, by simp [InAddr.mk.injEq]⟩
        · rename_i hc
          obtain rfl := hf hc
          obtain ⟨hcontiguous, hne⟩ := hfourth d h
          exact ⟨hcontiguous, fun e => hne (congrArg InAddr.d e)⟩
  · rintro ⟨⟨n, hlo, hhi, rfl⟩, hne⟩
    have hall : ∀ n ∈ List.range' 2 30, prefixMask n ≠ ⟨255, 255, 255, 254⟩ →
        validMask (prefixMask n).a.toNat (prefixMask n).b.toNat (prefixMask n).c.toNat
          (prefixMask n).d.toNat = true := by decide +kernel
    exact hall n (List.mem_range'_1.mpr (by omega)) hne

/-- `AssignMask` stores the mask of the text. -/
def StoresMask (value : CStr) (v : AddrVar) (m : InAddr) : Prop :=
  ∀ g : Globals, assignMask value g v = g.setAddr v m

/-- A dotted quad is stored where its octets are accepted. -/
theorem storesMask_iff {value : CStr} {m : InAddr} (v : AddrVar) (h : DottedQuad value m) :
    StoresMask value v m ↔ validMask m.a.toNat m.b.toNat m.c.toNat m.d.toNat = true := by
  have hassign : ∀ g : Globals, assignMask value g v =
      if validMask m.a.toNat m.b.toNat m.c.toNat m.d.toNat then g.setAddr v m else g := by
    intro g
    rw [assignMask, scanOctets_quad h]
    simp only [UInt8.ofNat_toNat]
  constructor
  · intro hstores
    by_contra hnot
    -- another mask would stay where it is
    obtain ⟨x, hx⟩ : ∃ x : InAddr, x ≠ m := by
      by_cases hm : m = .zero
      · exact ⟨.none, fun e => absurd (e.trans hm) (by decide)⟩
      · exact ⟨.zero, fun e => hm e.symm⟩
    have hsame := (hassign (Globals.initial.setAddr v x)).symm.trans (hstores _)
    rw [if_neg hnot] at hsame
    have haddr := congrArg (fun g => g.addr v) hsame
    simp only [Globals.addr_setAddr_self] at haddr
    exact hx haddr
  · intro hvalid g
    rw [hassign, if_pos hvalid]

/-- **The two functions agree** on the masks other than `0.0.0.0` and `255.255.255.254` whose
octets descend where only zeros stand behind them. -/
theorem assignMask_agrees {value : CStr} {m : InAddr} (v : AddrVar) (h : DottedQuad value m) :
    (StoresMask value v m ↔ (scValidIpMask m).1 = true) ↔
      m ≠ .zero ∧ m ≠ ⟨255, 255, 255, 254⟩ ∧ (EndsZero m → Stepped m) := by
  rw [storesMask_iff v h, validMask_iff, scValidIpMask_fst]
  constructor
  · intro hagree
    have hne : m ≠ .zero := by
      rintro rfl
      exact absurd (hagree.mpr (by decide)).1 (by decide)
    have hlast : m ≠ ⟨255, 255, 255, 254⟩ := by
      rintro rfl
      exact (hagree.mpr (by decide)).2 rfl
    refine ⟨hne, hlast, fun hends => ?_⟩
    have heq := (corrected_eq_iff m).mpr hends
    exact ((contiguous_corrected m).mp (heq.symm ▸ (hagree.mpr heq).1)).2
  · rintro ⟨hne, hlast, hstepped⟩
    refine ⟨fun hcontiguous => hcontiguous.1.corrected, fun heq => ⟨?_, hlast⟩⟩
    refine heq ▸ (contiguous_corrected m).mpr ⟨fun hnil => hne ?_, ?_⟩
    · rw [← heq, corrected, hnil]
      rfl
    · exact hstepped ((corrected_eq_iff m).mp heq)

/-- A class C mask, as the import reads it. -/
theorem assignMask_agrees_classC :
    (StoresMask (inetNtoa ⟨255, 255, 255, 0⟩) .subnet4 ⟨255, 255, 255, 0⟩ ↔
      (scValidIpMask ⟨255, 255, 255, 0⟩).1 = true) :=
  (assignMask_agrees .subnet4 (dottedQuad_inetNtoa _)).mpr
    ⟨by decide, by decide, fun _ => by decide⟩

/-- **The longest prefix** is accepted by one of the two only. -/
theorem assignMask_refuses :
    DottedQuad (inetNtoa ⟨255, 255, 255, 254⟩) ⟨255, 255, 255, 254⟩ ∧
    ¬(StoresMask (inetNtoa ⟨255, 255, 255, 254⟩) .subnet4 ⟨255, 255, 255, 254⟩ ↔
      (scValidIpMask ⟨255, 255, 255, 254⟩).1 = true) := by
  have hquad := dottedQuad_inetNtoa ⟨255, 255, 255, 254⟩
  refine ⟨hquad, fun h => ?_⟩
  rw [storesMask_iff .subnet4 hquad, scValidIpMask_eq] at h
  exact absurd (h.mpr (by decide)) (by decide)

end Wap4410n.Utility
