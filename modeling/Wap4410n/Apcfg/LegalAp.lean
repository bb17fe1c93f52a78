import Wap4410n.Apcfg.Config

/-!
# Apcfg — the list of legal access points

The list is a text of addresses of 12 characters, each followed by `,`.  An address is searched for
as a text anywhere in the list; since an address holds no `,` it is found at the start of an entry
and nowhere else (`strstr_apText`).  `scApCfgLegalApListAdd` prints the new list into
`newList[MAX_LEGALAPLIST]`, which 32 entries fill, and only then asks whether it was too long: a
33rd address is written past the end (`LegalOp.Meets`).

* `legalOp_refines`: one call on the text of a list.
* `legalApList_refines`: any sequence of calls from the empty list.
* `legalApListAdd_overflows`: the 33rd address.
-/

namespace Wap4410n.Apcfg

open CLib

/-! ### Calls -/

/-- `MAX_LEGALAPLIST` -/
def maxLegalaplist : Nat := 32 * 13 + 1

/-- `legal_ap_list` -/
abbrev legalKey : Setting := .sys .legalApList

/-- `scApCfgLegalApListGet` -/
def scApCfgLegalApListGet : Cfg CStr := getText (maxLegalaplist + 1) legalKey

/-- `scApCfgLegalApListSet` -/
def scApCfgLegalApListSet (p : CStr) : Cfg Status := do
  if maxLegalaplist < p.length then return .error else
  let old ← scApCfgLegalApListGet
  Act.when (p ≠ old) do
    scfgmgrSet legalKey p
    aplSetFlag aplRogueap
  return .ok

/-- `scApCfgLegalApListAdd` -/
def scApCfgLegalApListAdd (pAddr : CStr) : Cfg Status := do
  let pList ← scApCfgLegalApListGet
  if (strstr pAddr.bytes pList.bytes).isSome then return .error else
  let newList ← store .newList maxLegalaplist (pList.append (pAddr.append (.text ",")))
  if newList.length < maxLegalaplist then do
    let _ ← scApCfgLegalApListSet newList
    return .ok
  else return .error

/-- The text behind an entry that starts at `off`; the last entry has none behind it. -/
def behind (pList : CStr) (off : Nat) : Cfg CStr :=
  if off + 13 < pList.length then
    match (pList.drop off).strchr 0x2c with
    | some sep => pure (sep.drop 1)
    | none => Act.fault (.null .value)
  else pure .empty

/-- `scApCfgLegalApListDel` -/
def scApCfgLegalApListDel (pAddr : CStr) : Cfg Status := do
  let pList ← scApCfgLegalApListGet
  match strstr pAddr.bytes pList.bytes with
  | none => return .error
  | some pValue => do
    let off := pList.length - pValue.length
    let rest ← behind pList off
    let newList ← store .newList maxLegalaplist ((pList.take off).append rest)
    let _ ← scApCfgLegalApListSet newList
    return .ok

/-- `scApCfgLegalApListClear` -/
def scApCfgLegalApListClear : Cfg Status := do
  scfgmgrSet legalKey .empty
  aplSetFlag aplRogueap
  return .ok

/-! ### The set -/

/-- An address, or the front of one padded with `*`. -/
@[ext] structure ApAddr where
  text : CStr
  length_eq : text.length = 12
  noComma : 0x2c ∉ text.bytes
deriving DecidableEq

/-- A call on the list. -/
inductive LegalOp where
  | add (addr : ApAddr)
  | del (addr : ApAddr)
  | clear

namespace LegalOp

/-- What a call does to the set. -/
def apply : LegalOp → List ApAddr → Status × List ApAddr
  | add addr, l =>
      if addr ∈ l then (.error, l) else if l.length < 32 then (.ok, l ++ [addr]) else (.error, l)
  | del addr, l => if addr ∈ l then (.ok, l.erase addr) else (.error, l)
  | clear, _ => (.ok, [])

/-- The set after a sequence of calls. -/
def applyAll (ops : List LegalOp) (l : List ApAddr) : List ApAddr :=
  ops.foldl (fun l op => (op.apply l).2) l

/-- The call as `libapcfg` makes it. -/
def run : LegalOp → Cfg Status
  | add addr => scApCfgLegalApListAdd addr.text
  | del addr => scApCfgLegalApListDel addr.text
  | clear => scApCfgLegalApListClear

/-- The configuration after a sequence of calls. -/
def runAll (ops : List LegalOp) (c : Config) : Config := Act.runAll (ops.map run) c

/-- **When a call does as it should.**  A new address finds room. -/
def Meets : LegalOp → List ApAddr → Prop
  | add addr, l => addr ∈ l ∨ l.length < 32
  | del _, _ | clear, _ => True

/-- Each call of the sequence meets the condition where it is made. -/
def MeetsAll : List LegalOp → List ApAddr → Prop
  | [], _ => True
  | op :: ops, l => op.Meets l ∧ MeetsAll ops (op.apply l).2

end LegalOp

/-- The text of a list. -/
def apText : List ApAddr → CStr
  | [] => .empty
  | a :: l => a.text.append ((CStr.text ",").append (apText l))

/-- The list as it should be. -/
structure LegalOk (l : List ApAddr) : Prop where
  nodup : l.Nodup
  length_le : l.length ≤ 32

/-! ### The text of a list -/

theorem bytes_apText_cons (a : ApAddr) (l : List ApAddr) :
    (apText (a :: l)).bytes = a.text.bytes ++ 0x2c :: (apText l).bytes := by
  have hcomma : (CStr.text ",").bytes = [0x2c] := by decide
  simp [apText, hcomma]

theorem apText_append (l l' : List ApAddr) : apText (l ++ l') = (apText l).append (apText l') := by
  refine CStr.ext ?_
  induction l with
  | nil => rfl
  | cons a l ih =>
      rw [List.cons_append, bytes_apText_cons, ih, CStr.bytes_append, CStr.bytes_append (apText _),
        bytes_apText_cons, List.append_assoc, List.cons_append]

theorem apText_singleton (a : ApAddr) : apText [a] = a.text.append (.text ",") := CStr.ext rfl

theorem length_apText (l : List ApAddr) : (apText l).length = 13 * l.length := by
  induction l with
  | nil => rfl
  | cons a l ih =>
      have ha := a.length_eq
      rw [CStr.length] at ha ih ⊢
      rw [bytes_apText_cons, List.length_append, List.length_cons, List.length_cons, ha, ih]
      omega

/-- One entry: it is the address, or the search goes on behind it. -/
theorem strstr_apText_cons (addr a : ApAddr) (l : List ApAddr) :
    strstr addr.text.bytes (apText (a :: l)).bytes =
      if a = addr then some (apText (a :: l)).bytes
      else strstr addr.text.bytes (apText l).bytes := by
  have hlen : a.text.bytes.length = addr.text.bytes.length :=
    (a.length_eq : a.text.bytes.length = 12).trans addr.length_eq.symm
  have hne : addr.text.bytes ≠ [] := by
    intro e
    have h := addr.length_eq
    rw [CStr.length, e] at h
    cases h
  rw [bytes_apText_cons, strstr_word addr.noComma hlen hne]
  by_cases h : a = addr
  · rw [if_pos h, if_pos (congrArg (fun a => a.text.bytes) h)]
  · rw [if_neg h, if_neg fun e => h (ApAddr.ext (CStr.ext e))]

/-- An address that is not in the list is not found. -/
theorem strstr_apText_absent {addr : ApAddr} {l : List ApAddr} (h : addr ∉ l) :
    strstr addr.text.bytes (apText l).bytes = none := by
  induction l with
  | nil =>
      refine if_neg fun e => ?_
      have h := addr.length_eq
      rw [CStr.length, e] at h
      cases h
  | cons a l ih =>
      obtain ⟨hne, hl⟩ := List.ne_and_not_mem_of_not_mem_cons h
      rw [strstr_apText_cons, if_neg (Ne.symm hne), ih hl]

/-- **An address in the list is found where its entry starts.** -/
theorem strstr_apText_found {addr : ApAddr} {pre : List ApAddr} (h : addr ∉ pre)
    (post : List ApAddr) :
    strstr addr.text.bytes (apText (pre ++ addr :: post)).bytes =
      some (apText (addr :: post)).bytes := by
  induction pre with
  | nil => rw [List.nil_append, strstr_apText_cons, if_pos rfl]
  | cons a pre ih =>
      obtain ⟨hne, hpre⟩ := List.ne_and_not_mem_of_not_mem_cons h
      rw [List.cons_append, strstr_apText_cons, if_neg (Ne.symm hne), ih hpre]

/-- Behind an entry stands the text of the rest. -/
theorem behind_apText (pre post : List ApAddr) (addr : ApAddr) :
    behind (apText (pre ++ addr :: post)) (apText pre).length = pure (apText post) := by
  have hdrop : (apText (pre ++ addr :: post)).drop (apText pre).length = apText (addr :: post) := by
    refine CStr.ext ?_
    rw [CStr.bytes_drop, apText_append, CStr.bytes_append]
    exact List.drop_left
  obtain ⟨sep, hsep, hbytes⟩ := CStr.exists_strchr (bytes_apText_cons addr post) addr.noComma
  have hsepDrop : sep.drop 1 = apText post := by
    refine CStr.ext ?_
    rw [CStr.bytes_drop, hbytes]
    rfl
  rw [behind, hdrop, hsep, length_apText, length_apText, List.length_append, List.length_cons]
  cases post with
  | nil =>
      rw [if_neg (by rw [List.length_nil]; omega)]
      rfl
  | cons a post =>
      rw [if_pos (by rw [List.length_cons]; omega)]
      exact congrArg pure hsepDrop

/-! ### One call -/

section Calls

variable {c : Config} {l : List ApAddr} (h : c.get legalKey = apText l) (hl : LegalOk l)

include h hl

theorem legalGet_eq : scApCfgLegalApListGet c = (.ok (apText l), c) := by
  have hfits : (c.get legalKey).length < maxLegalaplist + 1 := by
    have := hl.length_le
    rw [h, length_apText, maxLegalaplist]
    omega
  rw [scApCfgLegalApListGet, getText_fits c _ hfits, h]

/-- A list that fits is stored. -/
theorem legalSet_eq {l' : List ApAddr} (hl' : l'.length ≤ 32) :
    (scApCfgLegalApListSet (apText l') c).1 = .ok .ok ∧
      (scApCfgLegalApListSet (apText l') c).2.get legalKey = apText l' := by
  have hfits : ¬ maxLegalaplist < (apText l').length := by
    rw [length_apText, maxLegalaplist]
    omega
  have hcompare := compare_eq (legalGet_eq h hl) (apText l')
    (w := do scfgmgrSet legalKey (apText l'); aplSetFlag aplRogueap) fun _ => rfl
  unfold scApCfgLegalApListSet
  rw [if_neg hfits, hcompare]
  refine ⟨rfl, ?_⟩
  by_cases hne : apText l' ≠ apText l
  · rw [if_pos hne]
    exact (congrFun (Config.get_flag _ _) _).trans (c.get_set_self _ _)
  · rw [if_neg hne, h]
    exact (not_not.mp hne).symm

/-- What the calls do once they have printed the new list. -/
theorem legalStore_eq {l' : List ApAddr} (hl' : l'.length ≤ 32) :
    ((scApCfgLegalApListSet (apText l') >>= fun _ => pure Status.ok : Cfg Status) c).1 =
        .ok .ok ∧
      ((scApCfgLegalApListSet (apText l') >>= fun _ => pure Status.ok : Cfg Status) c).2.get
        legalKey = apText l' := by
  obtain ⟨hret, hget⟩ := legalSet_eq h hl hl'
  rw [Act.bind_ok (Prod.ext hret rfl)]
  exact ⟨rfl, hget⟩

theorem scApCfgLegalApListAdd_refines (addr : ApAddr) (hm : (LegalOp.add addr).Meets l) :
    ((LegalOp.add addr).run c).1 = .ok ((LegalOp.add addr).apply l).1 ∧
      ((LegalOp.add addr).run c).2.get legalKey = apText ((LegalOp.add addr).apply l).2 := by
  have hrun : (LegalOp.add addr).run c = scApCfgLegalApListAdd addr.text c := rfl
  rw [hrun, LegalOp.apply]
  unfold scApCfgLegalApListAdd
  rw [Act.bind_ok (legalGet_eq h hl)]
  by_cases hmem : addr ∈ l
  · obtain ⟨pre, post, hpre, hsplit, -⟩ := List.exists_erase_eq hmem
    have hfound := strstr_apText_found hpre post
    rw [← hsplit] at hfound
    rw [hfound, if_pos hmem, if_pos (Option.isSome_some)]
    exact ⟨rfl, h⟩
  · have hroom := hm.resolve_left hmem
    have hnext : (apText l).append (addr.text.append (.text ",")) = apText (l ++ [addr]) := by
      rw [apText_append, apText_singleton]
    have hlen : (apText (l ++ [addr])).length < maxLegalaplist := by
      rw [length_apText, List.length_append, List.length_singleton, maxLegalaplist]
      omega
    rw [if_neg hmem, if_pos hroom, strstr_apText_absent hmem, if_neg (by decide), hnext,
      store_fits hlen, Act.pure_bind, if_pos hlen]
    exact legalStore_eq h hl (by rw [List.length_append, List.length_singleton]; omega)

theorem scApCfgLegalApListDel_refines (addr : ApAddr) :
    ((LegalOp.del addr).run c).1 = .ok ((LegalOp.del addr).apply l).1 ∧
      ((LegalOp.del addr).run c).2.get legalKey = apText ((LegalOp.del addr).apply l).2 := by
  have hrun : (LegalOp.del addr).run c = scApCfgLegalApListDel addr.text c := rfl
  rw [hrun, LegalOp.apply]
  unfold scApCfgLegalApListDel
  rw [Act.bind_ok (legalGet_eq h hl)]
  by_cases hmem : addr ∈ l
  · obtain ⟨pre, post, hpre, hsplit, herase⟩ := List.exists_erase_eq hmem
    have hfound := strstr_apText_found hpre post
    subst hsplit
    have hoff : (apText (pre ++ addr :: post)).length - (apText (addr :: post)).bytes.length =
        (apText pre).length := by
      rw [apText_append, CStr.length_append]
      exact Nat.add_sub_cancel ..
    have htake : (apText (pre ++ addr :: post)).take (apText pre).length = apText pre := by
      refine CStr.ext ?_
      rw [CStr.bytes_take, apText_append, CStr.bytes_append]
      exact List.take_left
    have hlen : (apText (pre ++ post)).length < maxLegalaplist := by
      have hmax := hl.length_le
      rw [List.length_append, List.length_cons] at hmax
      rw [length_apText, List.length_append, maxLegalaplist]
      omega
    have hmax : (pre ++ post).length ≤ 32 := by
      rw [← herase]
      exact (List.length_erase_le ..).trans hl.length_le
    rw [if_pos hmem, herase, hfound]
    simp only [hoff, behind_apText, Act.pure_bind, htake, ← apText_append, store_fits hlen]
    exact legalStore_eq h hl hmax
  · rw [strstr_apText_absent hmem, if_neg hmem]
    exact ⟨rfl, h⟩

/-- **One call** that meets the condition. -/
theorem legalOp_refines (op : LegalOp) (hm : op.Meets l) :
    (op.run c).1 = .ok (op.apply l).1 ∧ (op.run c).2.get legalKey = apText (op.apply l).2 := by
  cases op with
  | add addr => exact scApCfgLegalApListAdd_refines h hl addr hm
  | del addr => exact scApCfgLegalApListDel_refines h hl addr
  | clear => exact ⟨rfl, (congrFun (Config.get_flag _ _) _).trans (c.get_set_self _ _)⟩

/-- A new address that finds no room is written past the end of `newList`. -/
theorem scApCfgLegalApListAdd_overflows (addr : ApAddr) (hm : ¬ (LegalOp.add addr).Meets l) :
    (LegalOp.add addr).run c = (.error (.outside .newList), c) := by
  obtain ⟨hmem, hfull⟩ := not_or.mp hm
  have hrun : (LegalOp.add addr).run c = scApCfgLegalApListAdd addr.text c := rfl
  have hlong : ¬ ((apText l).append (addr.text.append (.text ","))).length < maxLegalaplist := by
    rw [CStr.length_append, length_apText, maxLegalaplist]
    have := addr.length_eq
    rw [CStr.length_append]
    omega
  rw [hrun]
  unfold scApCfgLegalApListAdd
  rw [Act.bind_ok (legalGet_eq h hl), strstr_apText_absent hmem, if_neg (by decide), store,
    if_neg hlong]
  rfl

end Calls

theorem LegalOk.nil : LegalOk [] := ⟨List.nodup_nil, Nat.zero_le _⟩

/-- Every call keeps the list as it should be. -/
theorem LegalOk.apply {l : List ApAddr} (h : LegalOk l) (op : LegalOp) :
    LegalOk (op.apply l).2 := by
  cases op with
  | add addr =>
      simp only [LegalOp.apply]
      split
      · exact h
      · split
        · rename_i hmem hroom
          refine ⟨List.nodup_append.mpr ⟨h.nodup, List.nodup_singleton _, fun a ha b hb => ?_⟩, ?_⟩
          · rw [List.mem_singleton.mp hb]
            exact fun e => hmem (e ▸ ha)
          · rw [List.length_append, List.length_singleton]
            omega
        · exact h
  | del addr =>
      simp only [LegalOp.apply]
      split
      · exact ⟨h.nodup.erase _, (List.length_erase_le ..).trans h.length_le⟩
      · exact h
  | clear => exact .nil

/-! ### Runs -/

theorem LegalOp.meetsAll_append {pre post : List LegalOp} {l : List ApAddr}
    (h : LegalOp.MeetsAll (pre ++ post) l) :
    LegalOp.MeetsAll pre l ∧ LegalOp.MeetsAll post (LegalOp.applyAll pre l) := by
  induction pre generalizing l with
  | nil => exact ⟨trivial, h⟩
  | cons op pre ih =>
      obtain ⟨hpre, hpost⟩ := ih h.2
      exact ⟨⟨h.1, hpre⟩, hpost⟩

/-- The text and the list after any sequence of calls. -/
theorem legalRun {ops : List LegalOp} {c : Config} {l : List ApAddr}
    (h : c.get legalKey = apText l) (hl : LegalOk l) (hm : LegalOp.MeetsAll ops l) :
    (LegalOp.runAll ops c).get legalKey = apText (LegalOp.applyAll ops l) ∧
      LegalOk (LegalOp.applyAll ops l) := by
  induction ops generalizing c l with
  | nil => exact ⟨h, hl⟩
  | cons op ops ih => exact ih (legalOp_refines h hl op hm.1).2 (hl.apply op) hm.2

/-- **The list is a bounded ordered set**, as long as no new address is added to a full one: what is
stored is the text of its members, at most 32 and distinct, and every call returns what it
should. -/
theorem legalApList_refines {ops : List LegalOp} {c : Config} (h : c.get legalKey = .empty)
    (hm : LegalOp.MeetsAll ops []) (pre post : List LegalOp) (hsplit : ops = pre ++ post) :
    (LegalOp.runAll pre c).get legalKey = apText (LegalOp.applyAll pre []) ∧
      (LegalOp.applyAll pre []).Nodup ∧ (LegalOp.applyAll pre []).length ≤ 32 ∧
      ∀ op rest, post = op :: rest →
        (op.run (LegalOp.runAll pre c)).1 = .ok (op.apply (LegalOp.applyAll pre [])).1 := by
  subst hsplit
  obtain ⟨hpre, hpost⟩ := LegalOp.meetsAll_append hm
  obtain ⟨hstored, hl⟩ := legalRun h .nil hpre
  refine ⟨hstored, hl.nodup, hl.length_le, ?_⟩
  rintro op post rfl
  exact (legalOp_refines hstored hl op hpost.1).1

/-- The configuration without a list. -/
def noLegalAp : Config where
  get _ := .empty
  flags := []
  closed := false

/-- The address of ten `0` and the number `n`. -/
def apAddr (n : Fin 33) : ApAddr where
  text := ⟨List.replicate 10 0x30 ++ [0x30 + UInt8.ofNat (n / 10), 0x30 + UInt8.ofNat (n % 10)],
    by revert n; decide⟩
  length_eq := rfl
  noComma := by revert n; decide

theorem legalApList_refines_noLegalAp :
    (LegalOp.runAll [.add (apAddr 7), .add (apAddr 3), .add (apAddr 7), .del (apAddr 7)]
      noLegalAp).get legalKey = apText [apAddr 3] := by
  have hm : LegalOp.MeetsAll
      [.add (apAddr 7), .add (apAddr 3), .add (apAddr 7), .del (apAddr 7)] [] :=
    ⟨.inr (by decide), .inr (by decide), .inl (by decide), trivial, trivial⟩
  exact (legalApList_refines (c := noLegalAp) rfl hm _ [] (List.append_nil _).symm).1

/-- New addresses are added in order while there is room. -/
theorem LegalOp.applyAll_add {new l : List ApAddr} (hnew : (l ++ new).Nodup)
    (hlen : (l ++ new).length ≤ 32) :
    LegalOp.MeetsAll (new.map .add) l ∧ LegalOp.applyAll (new.map .add) l = l ++ new := by
  induction new generalizing l with
  | nil => exact ⟨trivial, (List.append_nil l).symm⟩
  | cons a new ih =>
      have hmem : a ∉ l := fun ha =>
        (List.nodup_append.mp hnew).2.2 a ha a List.mem_cons_self rfl
      have hroom : l.length < 32 := by
        rw [List.length_append, List.length_cons] at hlen
        omega
      have hstep : ((LegalOp.add a).apply l).2 = l ++ [a] := by
        rw [LegalOp.apply, if_neg hmem, if_pos hroom]
      have hcons : l ++ a :: new = (l ++ [a]) ++ new := List.append_cons l a new
      rw [hcons] at hnew hlen ⊢
      obtain ⟨hmeets, happly⟩ := ih hnew hlen
      rw [← hstep] at hmeets happly ⊢
      exact ⟨⟨.inr hroom, hmeets⟩, happly⟩

/-- A full list. -/
def fullList : List ApAddr := ((List.finRange 33).take 32).map apAddr

/-- **The 33rd address is written past the end of `newList`.** -/
theorem legalApListAdd_overflows :
    (LegalOp.applyAll (fullList.map .add) []).length = 32 ∧
      (LegalOp.add (apAddr 32)).apply (LegalOp.applyAll (fullList.map .add) []) =
        (.error, LegalOp.applyAll (fullList.map .add) []) ∧
      ((LegalOp.add (apAddr 32)).run (LegalOp.runAll (fullList.map .add) noLegalAp)).1 =
        .error (.outside .newList) := by
  have hmem : apAddr 32 ∉ fullList := by decide
  have hlen : fullList.length = 32 := by decide
  have hnodup : ([] ++ fullList).Nodup := by decide
  obtain ⟨hmeets, happly⟩ := LegalOp.applyAll_add hnodup hlen.le
  obtain ⟨hstored, hl⟩ := legalRun (c := noLegalAp) rfl .nil hmeets
  rw [happly, List.nil_append] at hstored hl ⊢
  have hroom : ¬ fullList.length < 32 := by rw [hlen]; exact Nat.lt_irrefl _
  refine ⟨hlen, ?_, ?_⟩
  · rw [LegalOp.apply, if_neg hmem, if_neg hroom]
  · rw [scApCfgLegalApListAdd_overflows hstored hl _ (not_or.mpr ⟨hmem, hroom⟩)]

end Wap4410n.Apcfg
