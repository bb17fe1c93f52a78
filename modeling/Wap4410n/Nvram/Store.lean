import Wap4410n.Nvram.Shadow
import Wap4410n.Support.Assoc

/-!
# Nvram — the store a shadow file holds

Abstractly the configuration is a finite map with an order: a list of (name, value) pairs with
distinct names (`Store`).  A `Name` is non-empty and free of `'='` and NUL, a value free of NUL, so
that every pair can be written as a record and read back.  `encode` is the file of a store, and
`Represents f st` says that the file `f` holds the store `st`; a missing file and an empty one hold
the empty store.

A file determines its store (`Represents.unique`).
-/

namespace Wap4410n.Nvram

open CLib CLib.Assoc

/-- The name of a setting. -/
@[ext] structure Name where
  str : CStr
  ne_nil : str.bytes ≠ []
  noEq : eqSign ∉ str.bytes
deriving DecidableEq

/-- A constant name. -/
def Name.lit (cs : List Char) (h₀ : (0 : Byte) ∉ ascii cs := by decide)
    (h₁ : ascii cs ≠ [] := by decide) (h₂ : eqSign ∉ ascii cs := by decide) : Name :=
  ⟨.lit cs h₀, h₁, h₂⟩

/-- The text `name=value`. -/
def line (name value : CStr) : CStr where
  bytes := name.bytes ++ eqSign :: value.bytes
  noNul := by
    have h₁ := name.noNul
    have h₂ := value.noNul
    have h₀ : (0 : Byte) ≠ eqSign := by decide
    simp [h₀, h₁, h₂]

/-- The text of a record. -/
abbrev text (r : Name × CStr) : CStr := line r.1.str r.2

/-- The records of a file, without the closing NUL. -/
def encodeRecs (l : List (Name × CStr)) : List Byte := l.flatMap fun r => (text r).mem

/-- The file of a list of records. -/
def encode (l : List (Name × CStr)) : List Byte := encodeRecs l ++ [endSymbol]

/-- A finite map from names to values, with an order on its names. -/
@[ext] structure Store where
  recs : List (Name × CStr)
  distinct : (keys recs).Nodup

namespace Store

def empty : Store := ⟨[], List.nodup_nil⟩

/-- The value of a name. -/
def get (st : Store) (n : Name) : Option CStr := st.recs.lookup n

/-- The names, in order. -/
def names (st : Store) : List Name := keys st.recs

/-- The store with `n` set to `v`: in place, or appended. -/
def set (st : Store) (n : Name) (v : CStr) : Store :=
  ⟨upsert n v st.recs, nodup_upsert st.distinct n v⟩

/-- The store after a sequence of sets. -/
def setAll (st : Store) (cs : List (Name × CStr)) : Store :=
  ⟨upsertAll st.recs cs, nodup_upsertAll st.distinct cs⟩

@[simp] theorem setAll_nil (st : Store) : st.setAll [] = st := rfl

@[simp] theorem setAll_cons (st : Store) (c : Name × CStr) (cs : List (Name × CStr)) :
    st.setAll (c :: cs) = (st.set c.1 c.2).setAll cs := rfl

theorem get_set (st : Store) (n : Name) (v : CStr) (j : Name) :
    (st.set n v).get j = if j = n then some v else st.get j :=
  lookup_upsert n v j st.recs

end Store

/-- The file `f` holds the store `st`. -/
inductive Represents : Option (List Byte) → Store → Prop where
  | missing : Represents none .empty
  | zeroLength : Represents (some []) .empty
  | file (st : Store) : Represents (some (encode st.recs)) st

/-! ### Lines -/

@[simp] theorem bytes_line (name value : CStr) :
    (line name value).bytes = name.bytes ++ eqSign :: value.bytes := rfl

@[simp] theorem length_line (name value : CStr) :
    (line name value).length = name.length + value.length + 1 := by
  simp [CStr.length]
  omega

/-- The name of a line is what precedes its first `'='`. -/
theorem takeWhile_line (n : Name) (v : CStr) (r : List Byte) :
    ((line n.str v).bytes ++ r).takeWhile (· ≠ eqSign) = n.str.bytes := by
  have h : ∀ b ∈ n.str.bytes, decide (b ≠ eqSign) = true := fun b hb => by
    have : b ≠ eqSign := fun e => n.noEq (e ▸ hb)
    simpa using this
  rw [bytes_line, List.append_assoc, List.takeWhile_append_of_pos h]
  simp

theorem text_inj {r r' : Name × CStr} (h : text r = text r') : r = r' := by
  obtain ⟨n, v⟩ := r
  obtain ⟨n', v'⟩ := r'
  have hb : (line n.str v).bytes = (line n'.str v').bytes := congrArg CStr.bytes h
  have hn : n.str.bytes = n'.str.bytes := by
    have := takeWhile_line n v []
    rw [hb, takeWhile_line n' v' []] at this
    exact this.symm
  obtain rfl : n = n' := Name.ext (CStr.ext hn)
  rw [bytes_line, bytes_line, List.append_cancel_left_eq] at hb
  exact Prod.ext rfl (CStr.ext (List.cons.inj hb).2)

/-! ### Files -/

@[simp] theorem encode_nil : encode [] = [endSymbol] := rfl

theorem encode_cons (r : Name × CStr) (l : List (Name × CStr)) :
    encode (r :: l) = (text r).bytes ++ endSymbol :: encode l := by
  simp [encode, encodeRecs, CStr.mem]

theorem encodeRecs_cons (r : Name × CStr) (l : List (Name × CStr)) :
    encodeRecs (r :: l) = (text r).mem ++ encodeRecs l := by
  simp [encodeRecs]

theorem encodeRecs_append (l l' : List (Name × CStr)) :
    encodeRecs (l ++ l') = encodeRecs l ++ encodeRecs l' := by
  simp [encodeRecs]

theorem encode_ne_nil (l : List (Name × CStr)) : encode l ≠ [] := by
  simp [encode]

/-- The first byte of a record is not NUL, so the scan enters it. -/
theorem text_eq_cons (r : Name × CStr) : ∃ b t, (text r).bytes = b :: t ∧ b ≠ endSymbol := by
  obtain ⟨b, t, hb⟩ := List.exists_cons_of_ne_nil r.1.ne_nil
  refine ⟨b, t ++ eqSign :: r.2.bytes, by rw [bytes_line, hb]; rfl, ?_⟩
  exact CStr.ne_zero (s := r.1.str) (by rw [hb]; exact List.mem_cons_self)

theorem encode_inj {l l' : List (Name × CStr)} (h : encode l = encode l') : l = l' := by
  induction l generalizing l' with
  | nil =>
      cases l' with
      | nil => rfl
      | cons r l' =>
          obtain ⟨b, t, hb, hne⟩ := text_eq_cons r
          rw [encode_nil, encode_cons, hb] at h
          exact absurd (List.cons.inj h).1.symm hne
  | cons r l ih =>
      cases l' with
      | nil =>
          obtain ⟨b, t, hb, hne⟩ := text_eq_cons r
          rw [encode_nil, encode_cons, hb] at h
          exact absurd (List.cons.inj h).1 hne
      | cons r' l' =>
          rw [encode_cons, encode_cons] at h
          have ht : text r = text r' := by
            have := CStr.ofMem_append (text r) (encode l)
            rw [h, CStr.ofMem_append] at this
            exact (Option.some.inj this).symm
          obtain rfl := text_inj ht
          rw [List.append_cancel_left_eq] at h
          rw [ih (List.cons.inj h).2]

/-- A file holds at most one store. -/
theorem Represents.unique {f : Option (List Byte)} {st st' : Store} (h : Represents f st)
    (h' : Represents f st') : st = st' := by
  cases h with
  | missing => cases h'; rfl
  | zeroLength =>
      generalize hf : (some [] : Option (List Byte)) = f at h'
      cases h' with
      | missing => cases hf
      | zeroLength => rfl
      | file st' => exact absurd (Option.some.inj hf).symm (encode_ne_nil _)
  | file =>
      generalize hf : some (encode st.recs) = f at h'
      cases h' with
      | missing => cases hf
      | zeroLength => exact absurd (Option.some.inj hf) (encode_ne_nil _)
      | file st' => exact Store.ext (encode_inj (Option.some.inj hf))

/-- The bytes of a file that holds a store are none, or those of its records. -/
theorem Represents.getD {f : Option (List Byte)} {st : Store} (h : Represents f st) :
    (f.getD [] = [] ∧ st = .empty) ∨ f = some (encode st.recs) := by
  cases h with
  | missing | zeroLength => exact .inl ⟨rfl, rfl⟩
  | file => exact .inr rfl

end Wap4410n.Nvram
