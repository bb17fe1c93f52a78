import Mathlib.Algebra.Group.Nat.Defs
import Mathlib.Data.List.TakeWhile
import Mathlib.Tactic.Common

/-!
# Support — C strings and pointers

A C string is the run of bytes before the first NUL of the memory it starts in (`CStr`,
`CStr.ofMem`).  A pointer to read through (`Ptr`) is the list of bytes from where it points to the
end of its object; reading past that end, and reading through NULL, is a `Fault` that names the
object.  The string functions of the C library are those lists' functions: each reads no further
than the library function does, so that a `Fault` is raised exactly where the C call would leave
the object.
-/

namespace CLib

abbrev Byte := UInt8

/-- A text of ASCII characters, as bytes. -/
def ascii (cs : List Char) : List Byte := cs.map fun c => UInt8.ofNat c.toNat

/-- What holds of every byte is checked for each, by its two digits in base 16. -/
theorem forall_byte {P : Byte → Prop} (h : ∀ i j : Fin 16, P (UInt8.ofNat (16 * i + j)))
    (b : Byte) : P b := by
  have hb := b.toNat_lt
  have hij := h ⟨b.toNat / 16, by omega⟩ ⟨b.toNat % 16, by omega⟩
  rwa [Nat.div_add_mod, UInt8.ofNat_toNat] at hij

/-- What stops a `dropWhile` does not have the property. -/
theorem dropWhile_stop {p : Byte → Bool} {l t : List Byte} {b : Byte} (h : l.dropWhile p = b :: t) :
    p b = false := by
  have hhead := List.head?_dropWhile_not p l
  rwa [h] at hhead

theorem head?_dropWhile_all (p : Byte → Bool) (l : List Byte) :
    (l.dropWhile p).head?.all fun b => !p b := by
  cases h : l.dropWhile p with
  | nil => rfl
  | cons b t => exact congrArg Bool.not (dropWhile_stop h)

/-! ### C strings -/

/-- A C string: the bytes before its terminating NUL. -/
@[ext] structure CStr where
  bytes : List Byte
  noNul : (0 : Byte) ∉ bytes
deriving DecidableEq

namespace CStr

/-- A string constant. -/
def lit (cs : List Char) (h : (0 : Byte) ∉ ascii cs := by decide) : CStr := ⟨ascii cs, h⟩

/-- `""` -/
abbrev empty : CStr := .lit []

/-- `strlen`. -/
def length (s : CStr) : Nat := s.bytes.length

/-- The string as it lies in memory, its NUL included. -/
def mem (s : CStr) : List Byte := s.bytes ++ [0]

/-- The C string that the memory `m` starts with, if a NUL ends it inside `m`. -/
def ofMem (m : List Byte) : Option CStr :=
  if (0 : Byte) ∈ m then
    some ⟨m.takeWhile (· ≠ 0), fun h => by simpa using List.mem_takeWhile_imp h⟩
  else none

/-- The string that ends at the first NUL of `m`, or with `m`. -/
def before (m : List Byte) : CStr :=
  ⟨m.takeWhile (· ≠ 0), fun h => by simpa using List.mem_takeWhile_imp h⟩

/-- A string constant, from its source text. -/
def text (s : String) : CStr := before (ascii s.toList)

/-- `strcat`. -/
def append (s t : CStr) : CStr := ⟨s.bytes ++ t.bytes, by simp [s.noNul, t.noNul]⟩

@[simp] theorem length_mem (s : CStr) : s.mem.length = s.length + 1 := by simp [mem, length]

theorem ne_zero {s : CStr} {b : Byte} (h : b ∈ s.bytes) : b ≠ 0 := fun e => s.noNul (e ▸ h)

theorem before_append (s : CStr) (r : List Byte) : before (s.bytes ++ 0 :: r) = s := by
  have h : ∀ b ∈ s.bytes, (decide (b ≠ 0)) = true := fun b hb => by simpa using ne_zero hb
  refine CStr.ext ?_
  show List.takeWhile _ _ = _
  rw [List.takeWhile_append_of_pos h]
  simp

theorem bytes_before {l : List Byte} (h : (0 : Byte) ∉ l) : (before l).bytes = l :=
  List.takeWhile_eq_self_iff.mpr fun _ hb => decide_eq_true fun h₀ => h (h₀ ▸ hb)

@[simp] theorem before_bytes (s : CStr) : before s.bytes = s := CStr.ext (bytes_before s.noNul)

theorem ofMem_append (s : CStr) (r : List Byte) : ofMem (s.bytes ++ 0 :: r) = some s := by
  unfold ofMem
  rw [if_pos (by simp)]
  exact congrArg some (before_append s r)

@[simp] theorem ofMem_mem (s : CStr) : ofMem s.mem = some s := ofMem_append s []

/-- A NUL behind the bytes ends the string, if none of them does. -/
theorem ofMem_before (l r : List Byte) : ofMem (l ++ 0 :: r) = some (before l) := by
  have hwhile : (l ++ 0 :: r).takeWhile (· ≠ 0) = l.takeWhile (· ≠ 0) := by
    induction l with
    | nil => simp
    | cons b l ih =>
        rw [List.cons_append, List.takeWhile_cons, List.takeWhile_cons, ih]
  unfold ofMem
  rw [if_pos (by simp)]
  exact congrArg some (CStr.ext hwhile)

/-- A NUL among the bytes ends the string, whatever stands behind them. -/
theorem ofMem_append_of_mem {l : List Byte} (h : (0 : Byte) ∈ l) (r : List Byte) :
    ofMem (l ++ r) = some (before l) := by
  obtain ⟨a, b, rfl⟩ := List.append_of_mem h
  have hl : ofMem (a ++ 0 :: b) = some (before (a ++ 0 :: b)) := if_pos h
  rw [List.append_assoc, List.cons_append, ofMem_before, ← hl, ofMem_before]

theorem ofMem_eq_none {m : List Byte} : ofMem m = none ↔ (0 : Byte) ∉ m := by
  unfold ofMem
  split <;> simp [*]

/-- The string is what precedes the first NUL. -/
theorem ofMem_eq_some {m : List Byte} {s : CStr} :
    ofMem m = some s ↔ ∃ r, m = s.bytes ++ 0 :: r := by
  constructor
  · intro h
    unfold ofMem at h
    split at h
    · rename_i h0
      cases h
      have hne : m.dropWhile (· ≠ 0) ≠ [] := by
        intro e
        rw [List.dropWhile_eq_nil_iff] at e
        simpa using e 0 h0
      obtain ⟨b, u, e⟩ := List.exists_cons_of_ne_nil hne
      have e0 : b = 0 := by simpa using dropWhile_stop e
      refine ⟨u, ?_⟩
      calc m = m.takeWhile (· ≠ 0) ++ m.dropWhile (· ≠ 0) := List.takeWhile_append_dropWhile.symm
        _ = m.takeWhile (· ≠ 0) ++ 0 :: u := by rw [e, e0]
    · cases h
  · rintro ⟨r, rfl⟩
    exact ofMem_append s r

end CStr

/-! ### Faults -/

/-- An access outside what the program may read: through NULL, or at a byte that lies past the
end of the object `o` or was never stored into it. -/
inductive Fault (ι : Type) where
  | null (o : ι)
  | outside (o : ι)
deriving DecidableEq, Repr

/-- The object an access misses. -/
def Fault.obj {ι : Type} : Fault ι → ι
  | .null o => o
  | .outside o => o

/-- The fault under another name of its object. -/
def Fault.map {ι κ : Type} (f : ι → κ) : Fault ι → Fault κ
  | .null o => .null (f o)
  | .outside o => .outside (f o)

theorem Fault.obj_map {ι κ : Type} (f : ι → κ) (e : Fault ι) : (e.map f).obj = f e.obj := by
  cases e <;> rfl

/-- A computation that may stop at a fault. -/
abbrev Run (ι α : Type) := Except (Fault ι) α

namespace Run

variable {ι α β : Type}

@[simp] theorem ok_bind (a : α) (f : α → Run ι β) : ((Except.ok a : Run ι α) >>= f) = f a := rfl

@[simp] theorem error_bind (e : Fault ι) (f : α → Run ι β) :
    ((Except.error e : Run ι α) >>= f) = .error e := rfl

@[simp] theorem pure_eq (a : α) : (pure a : Run ι α) = .ok a := rfl

/-- A sequence returns where both calls do. -/
theorem bind_eq_ok {x : Run ι α} {f : α → Run ι β} {b : β} :
    (x >>= f) = .ok b ↔ ∃ a, x = .ok a ∧ f a = .ok b := by
  cases x with
  | ok a =>
      constructor
      · exact fun h => ⟨a, rfl, h⟩
      · rintro ⟨a', ha, h⟩
        cases ha
        exact h
  | error e =>
      constructor
      · intro h
        cases h
      · rintro ⟨a, ha, -⟩
        cases ha

@[simp] theorem map_ok (f : α → β) (a : α) : (f <$> (Except.ok a : Run ι α)) = .ok (f a) := rfl

@[simp] theorem map_error (f : α → β) (e : Fault ι) :
    (f <$> (Except.error e : Run ι α)) = .error e := rfl

/-- Where the computation stops at a fault, it is at an object with `P`. -/
def FaultsIn (P : ι → Prop) (x : Run ι α) : Prop := ∀ e, x = .error e → P e.obj

section FaultsIn

variable {P Q : ι → Prop} {x : Run ι α}

theorem faultsIn_ok (a : α) : FaultsIn P (.ok a : Run ι α) := fun _ h => by cases h

theorem faultsIn_error {e : Fault ι} : FaultsIn P (.error e : Run ι α) ↔ P e.obj :=
  ⟨fun h => h e rfl, fun h e' he => by cases he; exact h⟩

/-- Whatever would have been computed. -/
theorem faultsIn_error_congr {e : Fault ι} :
    FaultsIn P (.error e : Run ι α) ↔ FaultsIn P (.error e : Run ι β) := by
  rw [faultsIn_error, faultsIn_error]

theorem FaultsIn.mono (h : FaultsIn P x) (hPQ : ∀ o, P o → Q o) : FaultsIn Q x :=
  fun e he => hPQ _ (h e he)

/-- A sequence stops where its parts do. -/
theorem FaultsIn.bind {f : α → Run ι β} (h : FaultsIn P x)
    (hf : ∀ a, x = .ok a → FaultsIn P (f a)) : FaultsIn P (x >>= f) := by
  cases x with
  | ok a => exact hf a rfl
  | error e => exact faultsIn_error.mpr (h e rfl)

theorem FaultsIn.ite {c : Prop} [Decidable c] {y : Run ι α} (h : c → FaultsIn P x)
    (h' : ¬ c → FaultsIn P y) : FaultsIn P (if c then x else y) := by
  split
  · exact h ‹c›
  · exact h' ‹¬ c›

theorem FaultsIn.map {f : α → β} (h : FaultsIn P x) : FaultsIn P (f <$> x) := by
  cases x with
  | ok a => exact faultsIn_ok _
  | error e => exact faultsIn_error.mpr (h e rfl)

end FaultsIn

end Run

/-! ### Reading a list of bytes -/

section Reads

variable {ι : Type} (o : ι)

/-- `*p`. -/
def deref : List Byte → Run ι Byte
  | [] => .error (.outside o)
  | b :: _ => .ok b

/-- `strncmp(p, s, strlen(s)) == 0`: the reads stop at the first byte that differs. -/
def strncmpEq : List Byte → List Byte → Run ι Bool
  | _, [] => .ok true
  | [], _ :: _ => .error (.outside o)
  | b :: m, c :: s => if b = c then strncmpEq m s else .ok false

/-- `strcmp(p, s) == 0`: the reads stop at the first byte that differs or at the NUL. -/
def strcmpEq : List Byte → List Byte → Run ι Bool
  | [], _ => .error (.outside o)
  | b :: _, [] => .ok (b == 0)
  | b :: m, c :: s => if b = c then strcmpEq m s else .ok false

/-- `strchr(p, c) != NULL`, for a byte `c` that is not NUL. -/
def strchrHas (c : Byte) : List Byte → Run ι Bool
  | [] => .error (.outside o)
  | b :: m => if b = c then .ok true else if b = 0 then .ok false else strchrHas c m

/-- The string at `p`. -/
def stringAt (m : List Byte) : Run ι CStr :=
  match CStr.ofMem m with
  | some s => .ok s
  | none => .error (.outside o)

variable {o}

theorem deref_faults (m : List Byte) : (deref o m).FaultsIn (· = o) := by
  cases m with
  | nil => exact Run.faultsIn_error.mpr rfl
  | cons b m => exact Run.faultsIn_ok b

theorem strncmpEq_faults : ∀ m s : List Byte, (strncmpEq o m s).FaultsIn (· = o)
  | m, [] => by cases m <;> exact Run.faultsIn_ok _
  | [], _ :: _ => Run.faultsIn_error.mpr rfl
  | b :: m, c :: s => by
      unfold strncmpEq
      split
      · exact strncmpEq_faults m s
      · exact Run.faultsIn_ok _

theorem stringAt_faults (m : List Byte) : (stringAt o m).FaultsIn (· = o) := by
  unfold stringAt
  split
  · exact Run.faultsIn_ok _
  · exact Run.faultsIn_error.mpr rfl

@[simp] theorem deref_cons (b : Byte) (m : List Byte) : deref o (b :: m) = .ok b := rfl

/-- Within a terminated string the comparison stays inside it and says whether `s` is a prefix
of it. -/
theorem strncmpEq_append {s : List Byte} (hs : (0 : Byte) ∉ s) :
    ∀ (t r : List Byte), strncmpEq o (t ++ 0 :: r) s = .ok (decide (s <+: t)) := by
  induction s with
  | nil => intro t r; cases t <;> simp [strncmpEq]
  | cons c s ih =>
      intro t r
      have hc : c ≠ 0 := fun e => hs (by simp [e])
      have hs' : (0 : Byte) ∉ s := fun h => hs (by simp [h])
      cases t with
      | nil => simp [strncmpEq, Ne.symm hc]
      | cons b t =>
          simp only [List.cons_append, strncmpEq]
          split
          · rename_i e; subst e; rw [ih hs' t r]; simp [List.cons_prefix_cons]
          · rename_i e; simp [List.cons_prefix_cons, Ne.symm e]

theorem strchrHas_append {c : Byte} (hc : c ≠ 0) {t : List Byte} (ht : (0 : Byte) ∉ t)
    (r : List Byte) : strchrHas o c (t ++ 0 :: r) = .ok (decide (c ∈ t)) := by
  induction t with
  | nil => simp [strchrHas, Ne.symm hc]
  | cons b t ih =>
      have hb : b ≠ 0 := fun e => ht (by simp [e])
      have ht' : (0 : Byte) ∉ t := fun h => ht (by simp [h])
      simp only [List.cons_append, strchrHas]
      by_cases e : b = c
      · simp [e]
      · rw [if_neg e, if_neg hb, ih ht']; simp [Ne.symm e]

theorem strchrHas_noNul {c : Byte} {t : List Byte} (ht : (0 : Byte) ∉ t) :
    strchrHas o c t = if c ∈ t then .ok true else .error (.outside o) := by
  induction t with
  | nil => rfl
  | cons b t ih =>
      have hb : b ≠ 0 := fun e => ht (by simp [e])
      have ht' : (0 : Byte) ∉ t := fun h => ht (by simp [h])
      simp only [strchrHas]
      by_cases e : b = c
      · simp [e]
      · rw [if_neg e, if_neg hb, ih ht']; simp [Ne.symm e]

theorem strcmpEq_append {s : List Byte} (hs : (0 : Byte) ∉ s) :
    ∀ {t : List Byte} (_ : (0 : Byte) ∉ t) (r : List Byte),
      strcmpEq o (t ++ 0 :: r) s = .ok (decide (t = s)) := by
  induction s with
  | nil =>
      intro t ht r
      cases t with
      | nil => rfl
      | cons b t =>
          have hb : b ≠ 0 := fun e => ht (by simp [e])
          simp [strcmpEq, hb]
  | cons c s ih =>
      intro t ht r
      have hc : c ≠ 0 := fun e => hs (by simp [e])
      have hs' : (0 : Byte) ∉ s := fun h => hs (by simp [h])
      cases t with
      | nil => simp [strcmpEq, Ne.symm hc]
      | cons b t =>
          have ht' : (0 : Byte) ∉ t := fun h => ht (by simp [h])
          simp only [List.cons_append, strcmpEq]
          split
          · rename_i e; subst e; rw [ih hs' ht' r]; simp
          · rename_i e; simp [e]

/-- Without a NUL the comparison differs, or leaves the object. -/
theorem strcmpEq_noNul {m : List Byte} (hm : (0 : Byte) ∉ m) : ∀ s : List Byte,
    strcmpEq o m s = .ok false ∨ strcmpEq o m s = .error (.outside o) := by
  induction m with
  | nil => exact fun s => .inr (by cases s <;> rfl)
  | cons b m ih =>
      intro s
      have hb : b ≠ 0 := fun e => hm (by simp [e])
      cases s with
      | nil => exact .inl (by simp [strcmpEq, hb])
      | cons c s =>
          unfold strcmpEq
          split
          · exact ih (fun h => hm (by simp [h])) s
          · exact .inl rfl

theorem stringAt_noNul {m : List Byte} (hm : (0 : Byte) ∉ m) :
    stringAt o m = .error (.outside o) := by
  rw [stringAt, CStr.ofMem_eq_none.mpr hm]

@[simp] theorem stringAt_append (s : CStr) (r : List Byte) :
    stringAt o (s.bytes ++ 0 :: r) = .ok s := by
  simp [stringAt, CStr.ofMem_append]

@[simp] theorem stringAt_mem (s : CStr) : stringAt o s.mem = .ok s := stringAt_append s []

end Reads

/-! ### Pointers -/

/-- A pointer to read through: the object it points into and, unless it is NULL, the bytes from
where it points to the end of that object. -/
structure Ptr (ι : Type) where
  obj : ι
  mem : Option (List Byte)

namespace Ptr

variable {ι : Type}

/-- The bytes from the pointer on; NULL has none. -/
def bytes (p : Ptr ι) : Run ι (List Byte) :=
  match p.mem with
  | none => .error (.null p.obj)
  | some m => .ok m

/-- The C string at the pointer. -/
def string (p : Ptr ι) : Run ι CStr := do stringAt p.obj (← p.bytes)

/-- A pointer to a string in memory of its own. -/
def ofString (o : ι) (s : CStr) : Ptr ι := ⟨o, some s.mem⟩

/-- `p` points to the string `s`: `s` and a NUL lie there. -/
def Holds (p : Ptr ι) (s : CStr) : Prop := ∃ r, p.mem = some (s.bytes ++ 0 :: r)

theorem holds_ofString (o : ι) (s : CStr) : (ofString o s).Holds s := ⟨[], rfl⟩

/-- A pointer holds one string at most. -/
theorem Holds.unique {p : Ptr ι} {s t : CStr} (hs : p.Holds s) (ht : p.Holds t) : s = t := by
  obtain ⟨r, hr⟩ := hs
  obtain ⟨u, hu⟩ := ht
  rw [hr] at hu
  have := CStr.ofMem_append s r
  rw [Option.some.inj hu, CStr.ofMem_append] at this
  exact (Option.some.inj this).symm

theorem Holds.string {p : Ptr ι} {s : CStr} (h : p.Holds s) : p.string = .ok s := by
  obtain ⟨r, hr⟩ := h
  simp [Ptr.string, Ptr.bytes, hr]

@[simp] theorem string_ofString (o : ι) (s : CStr) : (ofString o s).string = .ok s :=
  (holds_ofString o s).string

/-- A pointer that holds no string faults when its string is read, at its own object. -/
theorem string_error {p : Ptr ι} (h : ∀ s, ¬ p.Holds s) :
    p.string = .error (.null p.obj) ∨ p.string = .error (.outside p.obj) := by
  obtain ⟨o, m⟩ := p
  cases m with
  | none => exact .inl rfl
  | some m =>
      cases e : CStr.ofMem m with
      | none => exact .inr (by simp [Ptr.string, Ptr.bytes, stringAt, e])
      | some s =>
          obtain ⟨r, rfl⟩ := CStr.ofMem_eq_some.mp e
          exact absurd ⟨r, rfl⟩ (h s)

end Ptr

/-! ### Slices of a string -/

section Separated

variable {c : Byte} {t : List Byte}

theorem ne_of_separated (hc : c ∉ t) : ∀ b ∈ t, decide (b ≠ c) = true := fun b hb => by
  have : b ≠ c := fun e => hc (e ▸ hb)
  simpa using this

/-- What stands before the first separator. -/
theorem takeWhile_separated (hc : c ∉ t) (r : List Byte) : (t ++ c :: r).takeWhile (· ≠ c) = t := by
  rw [List.takeWhile_append_of_pos (ne_of_separated hc), List.takeWhile_cons_of_neg (by simp),
    List.append_nil]

theorem dropWhile_separated (hc : c ∉ t) (r : List Byte) :
    (t ++ c :: r).dropWhile (· ≠ c) = c :: r := by
  rw [List.dropWhile_append_of_pos (ne_of_separated hc), List.dropWhile_cons_of_neg (by simp)]

end Separated

namespace CStr

/-- The first `n` characters. -/
def take (n : Nat) (s : CStr) : CStr :=
  ⟨s.bytes.take n, fun h => s.noNul (List.mem_of_mem_take h)⟩

/-- `s + n`, for `n` characters at most. -/
def drop (n : Nat) (s : CStr) : CStr :=
  ⟨s.bytes.drop n, fun h => s.noNul (List.mem_of_mem_drop h)⟩

/-- The characters before the first `c`. -/
def upTo (c : Byte) (s : CStr) : CStr :=
  ⟨s.bytes.takeWhile (· ≠ c), fun h => s.noNul ((List.takeWhile_sublist _).subset h)⟩

/-- `strchr(s, c)`: the text from the first `c` on. -/
def strchr (c : Byte) (s : CStr) : Option CStr :=
  if c ∈ s.bytes then
    some ⟨s.bytes.dropWhile (· ≠ c), fun h => s.noNul ((List.dropWhile_sublist _).subset h)⟩
  else none

@[simp] theorem bytes_take (n : Nat) (s : CStr) : (s.take n).bytes = s.bytes.take n := rfl

@[simp] theorem bytes_drop (n : Nat) (s : CStr) : (s.drop n).bytes = s.bytes.drop n := rfl

@[simp] theorem bytes_append (s t : CStr) : (s.append t).bytes = s.bytes ++ t.bytes := rfl

@[simp] theorem length_drop (n : Nat) (s : CStr) : (s.drop n).length = s.length - n := by
  simp [length]

@[simp] theorem length_append (s t : CStr) : (s.append t).length = s.length + t.length := by
  simp [length]

theorem length_eq_zero {s : CStr} : s.length = 0 ↔ s = empty := by
  rw [length, List.length_eq_zero_iff]
  exact ⟨fun h => CStr.ext h, fun h => h ▸ rfl⟩

section Slices

variable {s e : CStr} {c : Byte} {t r : List Byte}

/-- The separator found is the first. -/
theorem exists_strchr (h : s.bytes = t ++ c :: r) (hc : c ∉ t) :
    ∃ e, s.strchr c = some e ∧ e.bytes = c :: r := by
  refine ⟨_, if_pos (by simp [h]), ?_⟩
  show s.bytes.dropWhile (· ≠ c) = c :: r
  rw [h, dropWhile_separated hc]

theorem strchr_eq (h : s.bytes = t ++ c :: r) (hc : c ∉ t) (he : e.bytes = c :: r) :
    s.strchr c = some e := by
  obtain ⟨e', hsome, hbytes⟩ := exists_strchr h hc
  rw [hsome, CStr.ext (hbytes.trans he.symm)]

theorem upTo_eq (h : s.bytes = t ++ c :: r) (hc : c ∉ t) : (s.upTo c).bytes = t := by
  show s.bytes.takeWhile (· ≠ c) = t
  rw [h, takeWhile_separated hc]

/-- What `strchr` finds starts with the separator and is no longer than the text. -/
theorem strchr_length (h : s.strchr c = some e) : 0 < e.length ∧ e.length ≤ s.length := by
  unfold strchr at h
  split at h
  · rename_i hc
    cases h
    refine ⟨List.length_pos_iff.mpr fun hnil => ?_, (List.dropWhile_sublist _).length_le⟩
    rw [List.dropWhile_eq_nil_iff] at hnil
    simpa using hnil c hc
  · cases h

end Slices

end CStr

/-- `memcmp(m, m', n) == 0` -/
def memcmpEq {ι : Type} (o : ι) (n : Nat) (m m' : List Byte) : Run ι Bool :=
  if m.length < n ∨ m'.length < n then .error (.outside o) else .ok (m.take n = m'.take n)

/-! ### `strtok` -/

/-- `strtok(s, delim)`: the delimiters at the front are skipped; at the end of the text there is
no token; else the token runs to the next delimiter, which is overwritten, and the text after it
is what the next call starts from. -/
def strtok (delim s : List Byte) : Option (List Byte × List Byte) :=
  match s.dropWhile (· ∈ delim) with
  | [] => none
  | t => some (t.takeWhile (· ∉ delim), (t.dropWhile (· ∉ delim)).tail)

/-- With no delimiter the token is the whole text. -/
theorem strtok_nil {s : List Byte} (hs : s ≠ []) : strtok [] s = some (s, []) := by
  have hd : s.dropWhile (fun b => decide (b ∈ ([] : List Byte))) = s := by
    cases s <;> simp
  unfold strtok
  rw [hd]
  cases s with
  | nil => exact absurd rfl hs
  | cons b s => simp [List.takeWhile_eq_self_iff.mpr, List.dropWhile_eq_nil_iff.mpr]

/-- A non-empty token free of the delimiter, at the front of the text. -/
theorem strtok_append {c : Byte} {t r : List Byte} (ht : t ≠ []) (hc : c ∉ t) :
    strtok [c] (t ++ c :: r) = some (t, r) := by
  cases t with
  | nil => exact absurd rfl ht
  | cons b t =>
      have hb : b ≠ c := fun e => hc (by simp [e])
      have hall : ∀ a ∈ b :: t, (decide (a ∉ [c])) = true := fun a ha => by
        have : a ≠ c := fun e => hc (e ▸ ha)
        simpa using this
      have hd : (b :: t ++ c :: r).dropWhile (fun a => decide (a ∈ [c])) = b :: t ++ c :: r := by
        simp [hb]
      unfold strtok
      rw [hd]
      show some _ = _
      rw [List.takeWhile_append_of_pos hall, List.dropWhile_append_of_pos hall]
      simp

/-- A text free of the delimiter is the last token. -/
theorem strtok_last {c : Byte} {t : List Byte} (ht : t ≠ []) (hc : c ∉ t) :
    strtok [c] t = some (t, []) := by
  obtain ⟨b, u, rfl⟩ := List.exists_cons_of_ne_nil ht
  have hb : b ≠ c := fun e => hc (by simp [e])
  have hall : ∀ a ∈ b :: u, (decide (a ∉ [c])) = true := fun a ha => by
    have : a ≠ c := fun e => hc (e ▸ ha)
    simpa using this
  have hd : (b :: u).dropWhile (fun a => decide (a ∈ [c])) = b :: u := by
    simp [hb]
  unfold strtok
  rw [hd]
  show some _ = _
  rw [List.takeWhile_eq_self_iff.mpr hall, List.dropWhile_eq_nil_iff.mpr hall]
  rfl

/-- A text that does not begin with the delimiter begins with a token. -/
theorem strtok_front {c : Byte} {s t r : List Byte} (h : strtok [c] s = some (t, r))
    (hs : s.head? ≠ some c) : t = s.takeWhile (· ≠ c) := by
  cases s with
  | nil => cases h
  | cons b s =>
      have hb : b ≠ c := fun e => hs (by rw [e]; rfl)
      have hd : (b :: s).dropWhile (fun a => decide (a ∈ [c])) = b :: s := by
        simp [hb]
      unfold strtok at h
      rw [hd] at h
      obtain ⟨rfl, -⟩ := Prod.mk.inj (Option.some.inj h)
      simp only [List.mem_singleton]

/-- A text without a token is delimiters. -/
theorem strtok_eq_none {c : Byte} {s : List Byte} : strtok [c] s = none ↔ ∀ b ∈ s, b = c := by
  have hdrop : s.dropWhile (fun a => decide (a ∈ [c])) = [] ↔ ∀ b ∈ s, b = c := by
    simp [List.dropWhile_eq_nil_iff]
  rw [← hdrop]
  unfold strtok
  split
  · rename_i hnil
    exact iff_of_true rfl hnil
  · rename_i hne
    exact iff_of_false (fun h => nomatch h) hne

/-- A token never holds a delimiter, and it is never empty. -/
theorem strtok_token {delim s t r : List Byte} (h : strtok delim s = some (t, r)) :
    t ≠ [] ∧ ∀ b ∈ t, b ∉ delim := by
  unfold strtok at h
  split at h
  · cases h
  · rename_i hne
    cases h
    refine ⟨fun e => ?_, fun b hb => by simpa using List.mem_takeWhile_imp hb⟩
    obtain ⟨b, u, e'⟩ := List.exists_cons_of_ne_nil hne
    have hhead := of_decide_eq_false (dropWhile_stop e')
    rw [e'] at e
    simp [hhead] at e

/-- The bytes of a token, and those behind it, are bytes of the text. -/
theorem strtok_subset {delim s t r : List Byte} (h : strtok delim s = some (t, r)) :
    t ⊆ s ∧ r ⊆ s := by
  unfold strtok at h
  split at h
  · cases h
  · cases h
    have hd : s.dropWhile (· ∈ delim) ⊆ s := (List.dropWhile_sublist _).subset
    exact ⟨List.Subset.trans (List.takeWhile_sublist _).subset hd,
      List.Subset.trans ((List.tail_sublist _).trans (List.dropWhile_sublist _)).subset hd⟩

theorem strtok_length {delim s t r : List Byte} (h : strtok delim s = some (t, r)) :
    t.length + r.length ≤ s.length := by
  unfold strtok at h
  split at h
  · cases h
  · cases h
    have hdrop := (List.dropWhile_sublist (l := s) fun b => decide (b ∈ delim)).length_le
    have hsplit := congrArg List.length (List.takeWhile_append_dropWhile
      (p := fun b => decide (b ∉ delim)) (l := s.dropWhile fun b => decide (b ∈ delim)))
    rw [List.length_append] at hsplit
    rw [List.length_tail]
    omega

theorem strtok_cons_self (c : Byte) (s : List Byte) : strtok [c] (c :: s) = strtok [c] s := by
  have hdrop : (c :: s).dropWhile (fun a => decide (a ∈ [c])) =
      s.dropWhile fun a => decide (a ∈ [c]) := List.dropWhile_cons_of_pos (by simp)
  unfold strtok
  rw [hdrop]

/-- The fields of a text: what stands between separators `c`, where that is not empty. -/
def fields (c : Byte) (s : List Byte) : List (List Byte) := (s.splitOn c).filter (· ≠ [])

/-- **`strtok` takes the fields of a text one after the other.** -/
theorem fields_eq (c : Byte) (s : List Byte) :
    fields c s = match strtok [c] s with
      | none => []
      | some (t, r) => t :: fields c r := by
  induction s with
  | nil => rfl
  | cons b s ih =>
      by_cases hb : b = c
      · subst hb
        have hskip : fields b (b :: s) = fields b s := by
          rw [fields, List.splitOn_cons_eq_if_modifyHead, if_pos (beq_self_eq_true b),
            List.filter_cons_of_neg (by simp), fields]
        rw [hskip, ih, strtok_cons_self]
      · by_cases hc : c ∈ b :: s
        · obtain ⟨t, r, hs, ht⟩ := List.eq_append_cons_of_mem hc
          have hne : t ≠ [] := by
            rintro rfl
            exact hb (List.cons.inj hs).1
          rw [hs, strtok_append hne ht, fields, List.splitOn_append_cons_self_of_not_mem ht,
            List.filter_cons_of_pos (by simpa using hne)]
          rfl
        · have hne : b :: s ≠ [] := List.cons_ne_nil b s
          rw [strtok_last hne hc, fields, List.splitOn_eq_singleton hc,
            List.filter_cons_of_pos (by simp)]
          rfl

/-- `strtok` on a string: the token and the text behind it are strings. -/
def CStr.strtok (delim : List Byte) (s : CStr) : Option (CStr × CStr) :=
  match h : CLib.strtok delim s.bytes with
  | none => none
  | some (t, r) => some (⟨t, fun h₀ => s.noNul ((strtok_subset h).1 h₀)⟩,
      ⟨r, fun h₀ => s.noNul ((strtok_subset h).2 h₀)⟩)

theorem CStr.strtok_eq_none {delim : List Byte} {s : CStr} :
    s.strtok delim = none ↔ CLib.strtok delim s.bytes = none := by
  unfold CStr.strtok
  split
  · rename_i h
    simp [h]
  · rename_i h
    simp [h]

theorem CStr.strtok_eq_some {delim : List Byte} {s t r : CStr} :
    s.strtok delim = some (t, r) ↔ CLib.strtok delim s.bytes = some (t.bytes, r.bytes) := by
  unfold CStr.strtok
  split
  · rename_i h
    simp [h]
  · rename_i h
    simp [h, CStr.ext_iff]

theorem CStr.length_before_le (m : List Byte) : (before m).length ≤ m.length :=
  (List.takeWhile_prefix _).length_le

end CLib
