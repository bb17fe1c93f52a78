import Wap4410n.Nvram.Set

/-!
# Nvram — how the shadow grows

`nvram_set` has no bound on what it writes.  A call replaces one record or adds one, so the file
grows by the difference (`length_encode_set`).  The system may cut the write short, refuse it, or
fail to bring the file that is there: what calls can leave is a file that holds a store, or the
front of one (`Kept`).

* `setLoop_torn`: the scan of a file that was cut runs past its end.
* `nvramSet_kept`: what a call leaves, on any system, is again of this kind.
-/

namespace Wap4410n.Nvram

open CLib CLib.Assoc

/-! ### Sizes -/

/-- The bytes of the record of a name; none where it has no value. -/
def Store.recordSize (st : Store) (n : Name) : Nat :=
  match st.get n with
  | none => 0
  | some v => n.str.length + v.length + 2

theorem Store.recordSize_none {st : Store} {n : Name} (h : st.get n = none) :
    st.recordSize n = 0 := by
  rw [Store.recordSize, h]

theorem Store.recordSize_some {st : Store} {n : Name} {v : CStr} (h : st.get n = some v) :
    st.recordSize n = n.str.length + v.length + 2 := by
  rw [Store.recordSize, h]

theorem length_encode (l : List (Name × CStr)) :
    (encode l).length = (encodeRecs l).length + 1 := by
  simp [encode]

theorem length_encodeRecs_cons (r : Name × CStr) (l : List (Name × CStr)) :
    (encodeRecs (r :: l)).length =
      r.1.str.length + r.2.length + 2 + (encodeRecs l).length := by
  rw [encodeRecs_cons, List.length_append, CStr.length_mem, length_line]

theorem length_encode_singleton (n : Name) (v : CStr) :
    (encode [(n, v)]).length = n.str.length + v.length + 3 := by
  rw [length_encode, length_encodeRecs_cons]
  simp [encodeRecs]

/-- The record of a name stands in the file, before the closing NUL. -/
theorem recordSize_lt (st : Store) (n : Name) : st.recordSize n < (encode st.recs).length := by
  obtain ⟨recs, hd⟩ := st
  show _ < (encode recs).length
  rw [length_encode]
  by_cases hn : n ∈ keys recs
  · obtain ⟨pre, u, post, rfl, hpre⟩ := exists_split hn
    have hget : Store.get ⟨pre ++ (n, u) :: post, hd⟩ n = some u := by
      rw [Store.get, lookup_append_of_notMem hpre, lookup_cons_eq, if_pos rfl]
    rw [Store.recordSize_some hget, encodeRecs_append, List.length_append, length_encodeRecs_cons]
    dsimp only
    omega
  · have hget : Store.get ⟨recs, hd⟩ n = none := lookup_eq_none.mpr hn
    rw [Store.recordSize_none hget]
    omega

/-- **The file grows by the new record, less the one it replaces.** -/
theorem length_encode_set (st : Store) (n : Name) (v : CStr) :
    (encode (st.set n v).recs).length + st.recordSize n =
      (encode st.recs).length + n.str.length + v.length + 2 := by
  obtain ⟨recs, hd⟩ := st
  show (encode (upsert n v recs)).length + _ = (encode recs).length + _ + _ + 2
  by_cases hn : n ∈ keys recs
  · obtain ⟨pre, u, post, rfl, hpre⟩ := exists_split hn
    have hget : Store.get ⟨pre ++ (n, u) :: post, hd⟩ n = some u := by
      rw [Store.get, lookup_append_of_notMem hpre, lookup_cons_eq, if_pos rfl]
    rw [Store.recordSize_some hget, upsert_append hpre, length_encode, length_encode,
      encodeRecs_append, encodeRecs_append, List.length_append, List.length_append,
      length_encodeRecs_cons, length_encodeRecs_cons]
    dsimp only
    omega
  · have hget : Store.get ⟨recs, hd⟩ n = none := lookup_eq_none.mpr hn
    rw [Store.recordSize_none hget, upsert_of_notMem hn, length_encode, length_encode,
      encodeRecs_append, List.length_append, length_encodeRecs_cons]
    simp only [encodeRecs, List.flatMap_nil, List.length_nil]
    omega

/-! ### Files that were cut -/

/-- What calls of `nvram_set` leave: a file that holds a store, or the front of one. -/
inductive Kept : Option (List Byte) → Prop where
  | store {f : Option (List Byte)} {st : Store} (h : Represents f st) : Kept f
  | torn {l : List (Name × CStr)} {k : Nat} (h : k < (encode l).length) :
      Kept (some ((encode l).take k))

section Torn

variable {m : List Byte}

theorem toNul_noNul : ∀ {m : List Byte}, (0 : Byte) ∉ m → ∃ e, toNul m = .error e
  | [], _ | [_], _ => ⟨_, rfl⟩
  | _ :: b :: s, h => by
      have hb : b ≠ endSymbol := fun e => h (by simp [e])
      rw [toNul, if_neg hb]
      exact toNul_noNul fun h' => h (List.mem_cons_of_mem _ h')

theorem copyToNul_noNul : ∀ {m : List Byte} (sp : Cursor), (0 : Byte) ∉ m →
    ∃ e, copyToNul m sp = .error e
  | [], _, _ => ⟨_, rfl⟩
  | b :: s, sp, h => by
      have hb : b ≠ endSymbol := fun e => h (by simp [e])
      rw [copyToNul, if_neg hb]
      exact copyToNul_noNul _ fun h' => h (List.mem_cons_of_mem _ h')

theorem setLoop_noNul (name value : CStr) (h : (0 : Byte) ∉ m) (found : Bool) (sp : Cursor) :
    ∃ e, setLoop name value m found sp = .error e := by
  cases m with
  | nil => exact ⟨.outside .bufspace, by rw [setLoop]⟩
  | cons b s =>
      have hb : b ≠ endSymbol := fun e => h (by simp [e])
      cases hr : setLoop name value (b :: s) found sp with
      | error e => exact ⟨e, rfl⟩
      | ok r =>
          obtain ⟨e₁, h₁⟩ := toNul_noNul h
          obtain ⟨e₂, h₂⟩ := copyToNul_noNul sp h
          rw [setLoop, if_neg hb] at hr
          split at hr
          · cases hr
          · split at hr
            · cases hr
            · rename_i ht
              rw [h₁] at ht
              cases ht
          · split at hr
            · cases hr
            · rename_i ht
              rw [h₂] at ht
              cases ht

/-- **The scan of a file that was cut** does not come to its closing NUL. -/
theorem setLoop_torn (name value : CStr) (l : List (Name × CStr)) :
    ∀ {k : Nat}, k < (encode l).length → ∀ (found : Bool) (sp : Cursor),
      ∃ e, setLoop name value ((encode l).take k) found sp = .error e := by
  induction l with
  | nil =>
      intro k hk found sp
      obtain rfl : k = 0 := by simpa using hk
      exact setLoop_noNul name value (by simp) found sp
  | cons r l ih =>
      intro k hk found sp
      rw [encode_cons] at hk ⊢
      by_cases hcut : k ≤ (text r).bytes.length
      · -- inside the record
        rw [List.take_append_of_le_length hcut]
        exact setLoop_noNul name value (fun h => (text r).noNul (List.mem_of_mem_take h)) found sp
      · -- behind its NUL
        obtain ⟨k', rfl⟩ : ∃ k', k = (text r).bytes.length + (k' + 1) :=
          ⟨k - (text r).bytes.length - 1, by omega⟩
        have hk' : k' < (encode l).length := by
          rw [List.length_append, List.length_cons] at hk
          omega
        rw [List.take_length_add_append, List.take_succ_cons, setLoop_record]
        split
        · exact ih hk' _ _
        · exact ih hk' _ _

end Torn

/-! ### What a call leaves -/

section Calls

variable {sys : Sys} {f : Option (List Byte)} {n : Name} {v : CStr} {run : SetRun}

theorem readFileBin_some {p : Path} {bytes : List Byte} (h : readFileBin sys p f = some bytes) :
    f = some bytes := by
  unfold readFileBin at h
  split at h
  · cases h
  · split at h
    · exact h
    · cases h

/-- A call that returns has read nothing, or a store. -/
theorem nvramSet_read (hf : Kept f) (h : nvramSet sys f n.str v = .ok run) :
    (readFileBin sys .shadow f).getD [] = [] ∨
      ∃ st, Represents f st ∧ (readFileBin sys .shadow f).getD [] = encode st.recs := by
  cases hread : readFileBin sys .shadow f with
  | none => exact .inl rfl
  | some bytes =>
      have hfb := readFileBin_some hread
      by_cases hne : bytes = []
      · exact .inl hne
      · right
        cases hf with
        | store hst =>
            rename_i st
            rcases hst.getD with ⟨he, -⟩ | he
            · rw [hfb] at he
              exact absurd he hne
            · rw [hfb] at he
              exact ⟨st, hst, Option.some.inj he⟩
        | torn hk =>
            rename_i l k
            obtain rfl := Option.some.inj hfb
            exfalso
            have hlen : 0 < ((encode l).take k).length := List.length_pos_iff.mpr hne
            obtain ⟨e, he⟩ := setLoop_torn n.str v l hk false (Cursor.start (Block.fresh
              (((encode l).take k).length + n.str.length + v.length + 2)))
            unfold nvramSet at h
            simp only [hread, Option.getD_some, hlen, if_true, he, Run.error_bind] at h
            split at h <;> cases h

/-- What the system makes of the write. -/
theorem writeFileBin_cases (sys : Sys) (f : Option (List Byte)) (data : List Byte) :
    writeFileBin sys f data data.length = f ∨
      ∃ k, k ≤ data.length ∧ writeFileBin sys f data data.length = some (data.take k) := by
  unfold writeFileBin
  split
  · have h : ¬ ((data.length : Int) < 0) := by omega
    rw [if_neg h]
    exact .inr ⟨_, WriteOutcome.count_le _ _, rfl⟩
  · exact .inl rfl

theorem kept_take {l : List (Name × CStr)} (hd : (keys l).Nodup) {k : Nat}
    (hk : k ≤ (encode l).length) : Kept (some ((encode l).take k)) := by
  rcases Nat.lt_or_eq_of_le hk with hlt | rfl
  · exact .torn hlt
  · rw [List.take_length]
    exact .store (.file ⟨l, hd⟩)

/-- **What a call leaves**: the file that was there, or the front of one that holds a single record
or the updated store. -/
theorem nvramSet_kept (hf : Kept f) (h : nvramSet sys f n.str v = .ok run) :
    run.shadow = f ∨ ∃ (st : Store) (k : Nat), (st = .empty ∨ Represents f st) ∧
      k ≤ (encode (st.set n v).recs).length ∧
      run.shadow = some ((encode (st.set n v).recs).take k) := by
  obtain ⟨st, hst, hread⟩ : ∃ st : Store, (st = .empty ∨ Represents f st) ∧
      ((readFileBin sys .shadow f).getD [] = [] ∧ st.recs = [] ∨
        (readFileBin sys .shadow f).getD [] = encode st.recs) := by
    rcases nvramSet_read hf h with he | ⟨st, hst, he⟩
    · exact ⟨.empty, .inl rfl, .inl ⟨he, rfl⟩⟩
    · exact ⟨st, .inr hst, .inr he⟩
  rw [nvramSet_image sys hread, image_name n v st.distinct] at h
  split at h
  · cases h
    rcases writeFileBin_cases sys f (encode (upsert n v st.recs)) with hw | ⟨k, hk, hw⟩
    · exact .inl hw
    · exact .inr ⟨st, k, hst, hk, hw⟩
  · cases h

end Calls

end Wap4410n.Nvram
