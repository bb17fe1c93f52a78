import Wap4410n.Apcfg.Acl

/-!
# Apcfg — the access control list as an ordered map

What the list is for: a map from MAC addresses to a name and a flag that keeps the order in which
the addresses were added (`AclOp.apply`, on `AclList`).  The string of a list is its entries, one
after the other (`render`); a walk over it stops at the entry of the address, or counts them
(`aclScan_found`, `aclScan_absent`), and decoding gives the entries back (`aclDecode_render`).

* `aclOp_refines`: one call takes the string of a list to the string of the next.
* `aclList_refines`: any sequence of calls from the empty list.
-/

namespace Wap4410n.Apcfg

open CLib

/-! ### The map -/

/-- A MAC address as text. -/
@[ext] structure Mac where
  text : CStr
  length_eq : text.length = 17
  noEnd : 0x3b ∉ text.bytes
deriving DecidableEq

/-- The name of an entry. -/
structure AclName where
  text : CStr
  length_le : text.length ≤ 15
  noComma : 0x2c ∉ text.bytes
  noEnd : 0x3b ∉ text.bytes

/-- The entries in order: an address with its name and flag. -/
abbrev AclList := List (Mac × AclName × Bool)

theorem end_of_toUpper {b : Byte} (h : toUpper b = 0x3b) : b = 0x3b := by
  unfold toUpper at h
  grind

/-- The address in upper case. -/
def Mac.upper (m : Mac) : Mac where
  text := scToUppers m.text
  length_eq := by
    rw [CStr.length, scToUppers, List.length_map]
    exact m.length_eq
  noEnd h := by
    obtain ⟨b, hb, e⟩ := List.mem_map.mp h
    exact m.noEnd (end_of_toUpper e ▸ hb)

/-- `"00:00:00:00:00:00"` -/
def zeroMac : CStr := .text "00:00:00:00:00:00"

/-- A call on the list. -/
inductive AclOp where
  | add (mac : Mac) (name : AclName) (used : Bool)
  | del (mac : Mac)
  | clear

/-- What a call does to the map. -/
def AclOp.apply : AclOp → AclList → Status × AclList
  | .add mac name used, l =>
      if mac.text = zeroMac then (.error, l)
      else if mac.upper ∈ Assoc.keys l ∨ l.length < cfgMaxAclLinksys then
        (.ok, Assoc.upsert mac.upper (name, used) l)
      else (.noMemory, l)
  | .del mac, l =>
      if mac.upper ∈ Assoc.keys l then (.ok, Assoc.erase mac.upper l) else (.enoent, l)
  | .clear, _ => (.ok, [])

/-- The map after a sequence of calls. -/
def AclOp.applyAll (ops : List AclOp) (l : AclList) : AclList :=
  ops.foldl (fun l op => (op.apply l).2) l

/-- The call as `libapcfg` makes it. -/
def AclOp.run (unit bss : Nat) : AclOp → Cfg Status
  | .add mac name used => apCfgAclAdd unit bss mac.text name.text (if used then 1 else 0)
  | .del mac => apCfgAclDel unit bss mac.text
  | .clear => do
    apCfgAclClear unit bss
    return .ok

/-! ### The string of a list -/

/-- `mac,name,used` -/
def aclRecord (e : Mac × AclName × Bool) : CStr :=
  aclUnit e.1.text e.2.1.text (if e.2.2 then 1 else 0)

/-- The string of a list. -/
def render : AclList → CStr
  | [] => .empty
  | e :: l => (aclRecord e).append ((CStr.text ";").append (render l))

/-- The entry `scAclBufGet` makes of a record. -/
def aclEntry (e : Mac × AclName × Bool) : CfgAclEntry := ⟨e.1.text, e.2.1.text, e.2.2⟩

theorem bytes_aclRecord (e : Mac × AclName × Bool) :
    (aclRecord e).bytes =
      e.1.text.bytes ++ 0x2c :: (e.2.1.text.bytes ++ [0x2c, if e.2.2 then 0x31 else 0x30]) := by
  obtain ⟨mac, name, used⟩ := e
  have hdigit : (CStr.ofInt (if used then 1 else 0)).bytes = [if used then 0x31 else 0x30] := by
    cases used <;> decide
  have hcomma : (CStr.text ",").bytes = [0x2c] := by decide
  simp [aclRecord, aclUnit, hdigit, hcomma]

theorem length_aclRecord (e : Mac × AclName × Bool) : (aclRecord e).length ≤ 35 := by
  have hmac := e.1.length_eq
  have hname := e.2.1.length_le
  rw [CStr.length] at hmac hname ⊢
  rw [bytes_aclRecord]
  simp
  omega

theorem noEnd_aclRecord (e : Mac × AclName × Bool) : 0x3b ∉ (aclRecord e).bytes := by
  have hmac := e.1.noEnd
  have hname := e.2.1.noEnd
  rw [bytes_aclRecord]
  cases e.2.2 <;> simp [hmac, hname]

theorem bytes_render_cons (e : Mac × AclName × Bool) (l : AclList) :
    (render (e :: l)).bytes = (aclRecord e).bytes ++ 0x3b :: (render l).bytes := by
  have hend : (CStr.text ";").bytes = [0x3b] := by decide
  simp [render, hend]

theorem render_append (l l' : AclList) : render (l ++ l') = (render l).append (render l') := by
  refine CStr.ext ?_
  induction l with
  | nil => rfl
  | cons e l ih =>
      rw [List.cons_append, bytes_render_cons, ih, CStr.bytes_append, CStr.bytes_append,
        bytes_render_cons, List.append_assoc, List.cons_append]

theorem length_render (l : AclList) : (render l).length ≤ 36 * l.length := by
  induction l with
  | nil => exact Nat.zero_le _
  | cons e l ih =>
      have h := length_aclRecord e
      rw [CStr.length] at h ih ⊢
      rw [bytes_render_cons, List.length_append, List.length_cons, List.length_cons]
      omega

theorem render_cons_ne (e : Mac × AclName × Bool) (l : AclList) : (render (e :: l)).length ≠ 0 := by
  rw [CStr.length, bytes_render_cons]
  simp

/-! ### Walks -/

section Walks

variable (noEnd : Nat → Run Buf AclScan) (mac : Mac) (before : CStr) (n : Nat)

/-- One unit: it is the address's, or the walk goes on behind it. -/
theorem aclScan_cons (e : Mac × AclName × Bool) (l : AclList) :
    aclScan noEnd mac.text before (render (e :: l)) n =
      if e.1 = mac then .ok (.found before ((CStr.text ";").append (render l)))
      else aclScan noEnd mac.text (before.append (render [e])) (render l) (n + 1) := by
  have hsep : (CStr.text ";").bytes = [0x3b] := by decide
  have hend : (render (e :: l)).strchr 0x3b = some ((CStr.text ";").append (render l)) :=
    CStr.strchr_eq (bytes_render_cons e l) (noEnd_aclRecord e) (by simp [hsep])
  have hupto : ((render (e :: l)).upTo 0x3b).append (.text ";") = render [e] := by
    refine CStr.ext ?_
    rw [CStr.bytes_append, CStr.upTo_eq (bytes_render_cons e l) (noEnd_aclRecord e),
      bytes_render_cons, hsep]
    rfl
  have hrest : ((CStr.text ";").append (render l)).drop 1 = render l := by
    refine CStr.ext ?_
    rw [CStr.bytes_drop, CStr.bytes_append, hsep]
    rfl
  have hmac (m : Mac) (r : List Byte) : (m.text.bytes ++ r).take 17 = m.text.bytes := by
    rw [← m.length_eq, CStr.length, List.take_left]
  have hcmp : memcmpEq (ι := Buf) .fullValue 17 (render (e :: l)).mem mac.text.mem =
      .ok (decide (e.1 = mac)) := by
    have hlen : ¬ ((render (e :: l)).mem.length < 17 ∨ mac.text.mem.length < 17) := by
      have h₁ := e.1.length_eq
      have h₂ := mac.length_eq
      rw [CStr.length] at h₁
      rw [CStr.length_mem, CStr.length_mem, CStr.length, bytes_render_cons, bytes_aclRecord]
      simp
      omega
    have htake : (render (e :: l)).mem.take 17 = e.1.text.bytes := by
      rw [CStr.mem, bytes_render_cons, bytes_aclRecord, List.append_assoc, List.append_assoc, hmac]
    rw [memcmpEq, if_neg hlen, htake, CStr.mem, hmac]
    simp [Mac.ext_iff, CStr.ext_iff]
  rw [aclScan, if_neg (render_cons_ne e l)]
  split
  · rename_i hnone
    rw [hend] at hnone
    cases hnone
  · rename_i unitEnd hsome
    rw [hend] at hsome
    cases hsome
    rw [hcmp, hupto, hrest]
    by_cases h : e.1 = mac
    · simp [h]
    · simp [h]

/-- The address is not in the list: its units are counted. -/
theorem aclScan_absent {l : AclList} (h : mac ∉ Assoc.keys l) :
    aclScan noEnd mac.text before (render l) n = .ok (.absent (n + l.length)) := by
  induction l generalizing before n with
  | nil =>
      rw [aclScan]
      rfl
  | cons e l ih =>
      obtain ⟨hne, hl⟩ := List.ne_and_not_mem_of_not_mem_cons h
      rw [aclScan_cons, if_neg (Ne.symm hne), ih _ _ hl]
      simp only [List.length_cons]
      congr 2
      omega

/-- The address is in the list: the walk stops at its first unit. -/
theorem aclScan_found {pre : AclList} (h : mac ∉ Assoc.keys pre) (v : AclName × Bool)
    (post : AclList) (done : AclList) :
    aclScan noEnd mac.text (render done) (render (pre ++ (mac, v) :: post)) n =
      .ok (.found (render (done ++ pre)) ((CStr.text ";").append (render post))) := by
  induction pre generalizing done n with
  | nil => rw [List.nil_append, List.append_nil, aclScan_cons, if_pos rfl]
  | cons e pre ih =>
      obtain ⟨hne, hpre⟩ := List.ne_and_not_mem_of_not_mem_cons h
      rw [List.cons_append, aclScan_cons, if_neg (Ne.symm hne), ← render_append, ih _ hpre,
        List.append_assoc, List.singleton_append]

end Walks

/-- **Decoding gives the entries back.** -/
theorem aclDecode_render (l : AclList) : aclDecode (render l) = .ok (l.map aclEntry) := by
  induction l with
  | nil =>
      rw [aclDecode]
      rfl
  | cons e l ih =>
      have hmac : e.1.text.bytes.length = 17 := e.1.length_eq
      have hname : e.2.1.text.bytes.length ≤ 15 := e.2.1.length_le
      obtain ⟨digit, hdigit⟩ : ∃ d : Byte, d = if e.2.2 then 0x31 else 0x30 := ⟨_, rfl⟩
      have hbytes : (render (e :: l)).bytes =
          (e.1.text.bytes ++ [0x2c]) ++
            (e.2.1.text.bytes ++ 0x2c :: digit :: 0x3b :: (render l).bytes) := by
        rw [bytes_render_cons, bytes_aclRecord, hdigit]
        simp
      have hdrop : ((render (e :: l)).drop 18).bytes =
          e.2.1.text.bytes ++ 0x2c :: digit :: 0x3b :: (render l).bytes := by
        rw [CStr.bytes_drop, hbytes, List.drop_left' (by simp [hmac])]
      have htake : (render (e :: l)).take 17 = e.1.text := by
        refine CStr.ext ?_
        rw [CStr.bytes_take, hbytes, List.append_assoc, List.take_left' hmac]
      have hname' : ((render (e :: l)).drop 18).upTo 0x2c = e.2.1.text :=
        CStr.ext (CStr.upTo_eq hdrop e.2.1.noComma)
      have hlen : ¬ (render (e :: l)).length < 18 := by
        rw [CStr.length, hbytes]
        simp
        omega
      obtain ⟨pSep, hsep, hrest⟩ := CStr.exists_strchr hdrop e.2.1.noComma
      have hdigitHead : (pSep.drop 1).mem.head? = some digit := by
        rw [CStr.mem, CStr.bytes_drop, hrest]
        rfl
      have hback : (pSep.drop 1).drop 2 = render l := by
        refine CStr.ext ?_
        rw [CStr.bytes_drop, CStr.bytes_drop, hrest]
        rfl
      have hlong : ¬ (pSep.drop 1).length < 2 := by
        rw [CStr.length, CStr.bytes_drop, hrest]
        simp
      have hflag : decide ((pSep.drop 1).mem.head? = some 0x31) = e.2.2 := by
        rw [hdigitHead, hdigit]
        cases e.2.2 <;> decide
      rw [aclDecode, if_neg (render_cons_ne e l), if_neg hlen]
      split
      · rename_i hnone
        rw [hsep] at hnone
        cases hnone
      · rename_i pSep' hsome
        rw [hsep] at hsome
        cases hsome
        simp only [hname', if_neg (show ¬ 16 < e.2.1.text.length by have := e.2.1.length_le; omega),
          if_neg hlong, hback, ih, hflag, htake]
        rfl

/-! ### One call -/

/-- The invariant of the list. -/
structure AclOk (l : AclList) : Prop where
  nodup : (Assoc.keys l).Nodup
  length_le : l.length ≤ cfgMaxAclLinksys

theorem AclOk.nil : AclOk [] := ⟨List.nodup_nil, Nat.zero_le _⟩

theorem length_keys (l : AclList) : (Assoc.keys l).length = l.length := List.length_map _

/-- Every call keeps it. -/
theorem AclOk.apply {l : AclList} (h : AclOk l) (op : AclOp) : AclOk (op.apply l).2 := by
  cases op with
  | add mac name used =>
      simp only [AclOp.apply]
      split
      · exact h
      · split
        · rename_i hroom
          refine ⟨Assoc.nodup_upsert h.nodup _ _, ?_⟩
          rw [← length_keys, Assoc.keys_upsert]
          split
          · rw [length_keys]
            exact h.length_le
          · rename_i hnew
            rw [List.length_append, length_keys]
            exact hroom.resolve_left hnew
        · exact h
  | del mac =>
      simp only [AclOp.apply]
      split
      · refine ⟨Assoc.nodup_erase h.nodup _, ?_⟩
        have hsub : (Assoc.erase mac.upper l).length ≤ l.length := List.eraseP_sublist.length_le
        exact hsub.trans h.length_le
      · exact h
  | clear => exact .nil

theorem room (l : AclList) (h : AclOk l) : (render l).length ≤ 720 := by
  have hlen := length_render l
  have hmax := h.length_le
  rw [cfgMaxAclLinksys] at hmax
  omega

/-- Text of two lists at most fits `finalValue`. -/
theorem store_finalValue {p : CStr} (h : p.length ≤ 1440) :
    store .finalValue finalValueSize p = pure p :=
  store_fits (by rw [finalValueSize, sizeofCfgAclEntry]; omega)

/-- The address that is refused. -/
theorem memcmpEq_zeroMac (mac : Mac) :
    memcmpEq (ι := Buf) .value 17 mac.text.mem (CStr.text "00:00:00:00:00:00").mem =
      .ok (decide (mac.text = zeroMac)) := by
  have hmac : mac.text.bytes.length = 17 := mac.length_eq
  have hzero : (CStr.text "00:00:00:00:00:00").bytes.length = 17 := by decide
  rw [memcmpEq, if_neg (by simp [CStr.mem, hmac, hzero]), CStr.mem, CStr.mem, List.take_left' hmac,
    List.take_left' hzero]
  simp [CStr.ext_iff, zeroMac]

section Calls

variable {unit bss : Nat} {c : Config} {l : AclList} (h : c.get (aclKey unit bss) = render l)
  (hl : AclOk l)

include h hl

theorem apCfgAclDel_refines (mac : Mac) :
    (apCfgAclDel unit bss mac.text c).1 = .ok ((AclOp.del mac).apply l).1 ∧
      (apCfgAclDel unit bss mac.text c).2.get (aclKey unit bss) =
        render ((AclOp.del mac).apply l).2 := by
  have hread (f : CStr → Cfg Status) :
      (nvramSafeGet (aclKey unit bss) >>= f) c = f (render l) c := by
    rw [← h]
    rfl
  unfold apCfgAclDel
  rw [hread]
  by_cases hk : mac.upper ∈ Assoc.keys l
  · obtain ⟨pre, v, post, rfl, hpre⟩ := Assoc.exists_split hk
    have hscan := aclScan_found (fun count => .ok (.absent count)) mac.upper 0 hpre v post []
    have hfinal : (render ([] ++ pre)).append (((CStr.text ";").append (render post)).drop 1) =
        render (pre ++ post) := by
      refine CStr.ext ?_
      rw [List.nil_append, render_append]
      rfl
    have hroom : (render (pre ++ post)).length ≤ 1440 := by
      have hlen := room _ hl
      rw [render_append, CStr.length_append] at hlen ⊢
      rw [CStr.length, CStr.length, bytes_render_cons] at hlen
      simp only [List.length_append, List.length_cons] at hlen
      rw [CStr.length, CStr.length]
      omega
    rw [Act.lift_bind (a := .found _ _) hscan]
    simp only [hfinal, store_finalValue hroom, AclOp.apply, if_pos hk,
      Assoc.erase_append hpre v post]
    refine ⟨rfl, ?_⟩
    exact (congrFun (Config.get_flag _ _) _).trans (c.get_set_self _ _)
  · have hscan := aclScan_absent (fun count => .ok (.absent count)) mac.upper .empty 0 hk
    rw [Act.lift_bind (a := .absent _) hscan]
    simp only [AclOp.apply, if_neg hk]
    exact ⟨rfl, h⟩

theorem apCfgAclAdd_refines (mac : Mac) (name : AclName) (used : Bool) :
    ((AclOp.add mac name used).run unit bss c).1 = .ok ((AclOp.add mac name used).apply l).1 ∧
      ((AclOp.add mac name used).run unit bss c).2.get (aclKey unit bss) =
        render ((AclOp.add mac name used).apply l).2 := by
  have hread (f : CStr → Cfg Status) :
      (nvramSafeGet (aclKey unit bss) >>= f) c = f (render l) c := by
    rw [← h]
    rfl
  have hunit : store .unitValue sizeofCfgAclEntry
      (aclUnit (scToUppers mac.text) name.text (if used then 1 else 0)) =
        pure (aclRecord (mac.upper, name, used)) := by
    have hlen := length_aclRecord (mac.upper, name, used)
    exact store_fits (Nat.lt_of_le_of_lt hlen (by decide))
  have hstored (v : CStr) : ((c.set (aclKey unit bss) v).flag (aplVap unit bss)).get
      (aclKey unit bss) = v :=
    (congrFun (Config.get_flag _ _) _).trans (c.get_set_self _ _)
  have hzero := memcmpEq_zeroMac mac
  have hrun : (AclOp.add mac name used).run unit bss =
      apCfgAclAdd unit bss mac.text name.text (if used then 1 else 0) := rfl
  rw [hrun]
  unfold apCfgAclAdd
  rw [Act.lift_bind hzero]
  by_cases hz : mac.text = zeroMac
  · simp only [hz, decide_true, if_true, AclOp.apply]
    exact ⟨rfl, h⟩
  · simp only [hz, decide_false, Bool.false_eq_true, if_false, AclOp.apply]
    rw [hread]
    by_cases hk : mac.upper ∈ Assoc.keys l
    · obtain ⟨pre, v, post, rfl, hpre⟩ := Assoc.exists_split hk
      have hscan := aclScan_found (fun _ => .error (.null .fullValue)) mac.upper 0 hpre v post []
      have hfinal : (render ([] ++ pre)).append ((aclRecord (mac.upper, name, used)).append
          ((CStr.text ";").append (render post))) =
          render (pre ++ (mac.upper, name, used) :: post) := by
        rw [List.nil_append, render_append]
        rfl
      have hroom : (render (pre ++ (mac.upper, name, used) :: post)).length ≤ 1440 := by
        have hlen := length_render (pre ++ (mac.upper, name, used) :: post)
        have hmax := hl.length_le
        rw [cfgMaxAclLinksys] at hmax
        simp only [List.length_append, List.length_cons] at hlen hmax
        omega
      rw [Act.lift_bind (a := .found _ _) hscan]
      simp only [hunit, Act.pure_bind, hfinal, store_finalValue hroom, if_pos (Or.inl hk),
        Assoc.upsert_append hpre]
      exact ⟨rfl, hstored _⟩
    · have hscan := aclScan_absent (fun _ => .error (.null .fullValue)) mac.upper .empty 0 hk
      rw [Act.lift_bind (a := .absent _) hscan, Nat.zero_add]
      by_cases hfull : l.length < cfgMaxAclLinksys
      · have hfinal : (if 0 < (render l).length then
            (render l).append ((aclRecord (mac.upper, name, used)).append (.text ";"))
            else (aclRecord (mac.upper, name, used)).append (.text ";")) =
            render (l ++ [(mac.upper, name, used)]) := by
          refine CStr.ext ?_
          rw [render_append, CStr.bytes_append, bytes_render_cons]
          split
          · rfl
          · rename_i hempty
            rw [CStr.length_eq_zero.mp (Nat.eq_zero_of_not_pos hempty)]
            rfl
        have hroom : (render (l ++ [(mac.upper, name, used)])).length ≤ 1440 := by
          have hlen := length_render (l ++ [(mac.upper, name, used)])
          rw [cfgMaxAclLinksys] at hfull
          simp only [List.length_append, List.length_cons, List.length_nil] at hlen
          omega
        rw [if_pos (Or.inr hfull), Assoc.upsert_of_notMem hk]
        simp only [if_neg (Nat.not_le.mpr hfull), hunit, Act.pure_bind, hfinal,
          store_finalValue hroom]
        exact ⟨rfl, hstored _⟩
      · rw [if_neg (not_or.mpr ⟨hk, hfull⟩)]
        simp only [if_pos (Nat.not_lt.mp hfull)]
        exact ⟨rfl, h⟩

/-- **One call** takes the string of a list to the string of the next. -/
theorem aclOp_refines (op : AclOp) :
    (op.run unit bss c).1 = .ok (op.apply l).1 ∧
      (op.run unit bss c).2.get (aclKey unit bss) = render (op.apply l).2 := by
  cases op with
  | add mac name used => exact apCfgAclAdd_refines h hl mac name used
  | del mac => exact apCfgAclDel_refines h hl mac
  | clear => exact ⟨rfl, (congrFun (Config.get_flag _ _) _).trans (c.get_set_self _ _)⟩

end Calls

/-! ### Runs -/

/-- The string and the list after any sequence of calls. -/
theorem aclRun {unit bss : Nat} {c : Config} {l : AclList}
    (h : c.get (aclKey unit bss) = render l) (hl : AclOk l) (ops : List AclOp) :
    (Act.runAll (ops.map (AclOp.run unit bss)) c).get (aclKey unit bss) =
        render (AclOp.applyAll ops l) ∧ AclOk (AclOp.applyAll ops l) := by
  induction ops generalizing c l with
  | nil => exact ⟨h, hl⟩
  | cons op ops ih => exact ih (aclOp_refines h hl op).2 (hl.apply op)

/-- **The access control list is an ordered map.**  From an empty list, after any sequence of calls,
decoding gives the entries of the map; its addresses are distinct, and the next call returns what
the map says. -/
theorem aclList_refines (unit : Fin 2) (bss : Fin 4) (c : Config) (ops : List AclOp) :
    (scAclBufGet unit bss false (Act.runAll (ops.map (AclOp.run unit bss))
        (c.set (aclKey unit bss) .empty))).1 =
      .ok (some ((AclOp.applyAll ops []).map aclEntry)) ∧
    (Assoc.keys (AclOp.applyAll ops [])).Nodup ∧
    (AclOp.applyAll ops []).length ≤ cfgMaxAclLinksys ∧
    ∀ op : AclOp, (op.run unit bss (Act.runAll (ops.map (AclOp.run unit bss))
        (c.set (aclKey unit bss) .empty))).1 = .ok (op.apply (AclOp.applyAll ops [])).1 := by
  obtain ⟨hstring, hl⟩ := aclRun (c.get_set_self (aclKey unit bss) .empty) AclOk.nil ops
  refine ⟨?_, hl.nodup, hl.length_le, fun op => (aclOp_refines hstring hl op).1⟩
  have hunit : ¬ 1 < (unit : Nat) := by omega
  have hread (f : CStr → Cfg (Option (List CfgAclEntry))) (c : Config) :
      (nvramSafeGet (aclKey unit bss) >>= f) c = f (c.get (aclKey unit bss)) c := rfl
  unfold scAclBufGet
  rw [if_neg hunit, if_neg Bool.false_ne_true, hread, hstring,
    Act.lift_bind (aclDecode_render _)]
  rfl

end Wap4410n.Apcfg
