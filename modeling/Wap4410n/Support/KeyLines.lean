import Mathlib.Data.List.Basic
import Wap4410n.Support.Print

/-!
# Support — texts of keyed lines

A text of lines, some of which start with a key (`LineKey`).  What a key stands for is the rest of
the first line that starts with it (`lineValue`).  A program that searches the text for the key with
`strstr` takes what stands behind its first occurrence (`valueBehind`), be it at the start of a line
or inside one.

* `valueBehind_eq_lineValue`: the two are the same, unless the first occurrence of the key stands
  inside a line.
* `strstrIn_append`, `upTo_append`: the search and the copy in memory, where a NUL ends the text.
-/

namespace CLib

/-! ### Searching in memory -/

section Memory

variable {ι : Type} (o : ι)

/-- `strstr(p, key)` in the memory from `p` on. -/
def strstrIn (key : List Byte) : List Byte → Run ι (Option (List Byte))
  | [] => .error (.outside o)
  | b :: m => do
      if ← strncmpEq o (b :: m) key then return some (b :: m)
      if b = 0 then return none
      strstrIn key m

/-- `for (; *p != c && *p != '\0'; p++)`: the bytes passed. -/
def upTo (c : Byte) : List Byte → Run ι (List Byte)
  | [] => .error (.outside o)
  | b :: m => if b = c ∨ b = 0 then .ok [] else (b :: ·) <$> upTo c m

/-- In a text that a NUL ends, the search is the search in the text. -/
theorem strstrIn_append {key : List Byte} (hkey : key ≠ []) (h : (0 : Byte) ∉ key) (r : List Byte) :
    ∀ {s : List Byte}, (0 : Byte) ∉ s →
      strstrIn o key (s ++ 0 :: r) = .ok ((strstr key s).map (· ++ 0 :: r))
  | [], _ => by
      have hcmp := strncmpEq_append (o := o) h [] r
      rw [List.nil_append] at hcmp
      have hno : ¬ key <+: [] := fun hp => hkey (List.prefix_nil.mp hp)
      rw [List.nil_append, strstrIn, hcmp, decide_eq_false hno, strstr, if_neg hkey]
      rfl
  | b :: s, hs => by
      have hb : b ≠ 0 := fun e => hs (e ▸ List.mem_cons_self)
      have ih := strstrIn_append hkey h r fun hm => hs (List.mem_cons_of_mem b hm)
      have hcmp := strncmpEq_append (o := o) h (b :: s) r
      rw [List.cons_append] at hcmp
      rw [List.cons_append, strstrIn, hcmp, strstr]
      by_cases hp : key <+: b :: s
      · rw [decide_eq_true hp, if_pos hp]
        rfl
      · rw [decide_eq_false hp, if_neg hp, ← ih, Run.ok_bind, if_neg hb]
        rfl

/-- In a text that a NUL ends, the copy ends with the text. -/
theorem upTo_append (c : Byte) (r : List Byte) : ∀ {s : List Byte}, (0 : Byte) ∉ s →
    upTo o c (s ++ 0 :: r) = .ok (s.takeWhile (· ≠ c))
  | [], _ => if_pos (.inr rfl)
  | b :: s, hs => by
      have hb : b ≠ 0 := fun e => hs (e ▸ List.mem_cons_self)
      rw [List.cons_append, upTo, List.takeWhile_cons]
      by_cases hc : b = c
      · rw [if_pos (.inl hc), if_neg (by simp [hc])]
      · rw [if_neg (by simp [hc, hb]), if_pos (by simp [hc]),
          upTo_append c r fun hm => hs (List.mem_cons_of_mem b hm), Run.map_ok]

end Memory

/-! ### Keys and lines -/

/-- A key: some bytes, none of which ends a line or the text. -/
structure LineKey where
  bytes : List Byte
  isKey : bytes ≠ [] ∧ (0 : Byte) ∉ bytes ∧ (0x0a : Byte) ∉ bytes

/-- A key given as a string constant. -/
def LineKey.lit (s : String) (h : ascii s.toList ≠ [] ∧ (0 : Byte) ∉ ascii s.toList ∧
    (0x0a : Byte) ∉ ascii s.toList := by decide) : LineKey :=
  ⟨ascii s.toList, h⟩

/-- What stands behind the first occurrence of a key, up to the end of its line. -/
def valueBehind (k : LineKey) (t : List Byte) : List Byte :=
  match strstr k.bytes t with
  | some r => (r.drop k.bytes.length).takeWhile (· ≠ 0x0a)
  | none => []

theorem valueBehind_none {k : LineKey} {t : List Byte} (h : strstr k.bytes t = none) :
    valueBehind k t = [] := by
  rw [valueBehind, h]

theorem valueBehind_some {k : LineKey} {t r : List Byte} (h : strstr k.bytes t = some r) :
    valueBehind k t = (r.drop k.bytes.length).takeWhile (· ≠ 0x0a) := by
  rw [valueBehind, h]

/-- What stands behind a key in the first line that starts with it. -/
def lineValue (k : LineKey) (t : List Byte) : List Byte :=
  match (t.splitOn 0x0a).find? k.bytes.isPrefixOf with
  | some l => l.drop k.bytes.length
  | none => []

/-- The first occurrence of a key stands inside a line. -/
def FoundInside (k : LineKey) (t : List Byte) : Prop :=
  ∃ pre r, t = pre ++ r ∧ strstr k.bytes t = some r ∧ pre ≠ [] ∧ pre.getLast? ≠ some 0x0a

section Lines

variable {key t r : List Byte}

/-- What is found begins with the key, and the key does not stand in what precedes it. -/
theorem strstr_eq_some (hkey : key ≠ []) : ∀ {t : List Byte}, strstr key t = some r →
    ∃ pre, t = pre ++ r ∧ key <+: r ∧ ¬ key <:+: pre
  | [], h => by
      rw [strstr, if_neg hkey] at h
      cases h
  | b :: s, h => by
      rw [strstr] at h
      split at h
      · next hp =>
          cases h
          exact ⟨[], rfl, hp, fun hi => hkey (List.infix_nil.mp hi)⟩
      · next hp =>
          obtain ⟨pre, rfl, hr, hno⟩ := strstr_eq_some hkey h
          refine ⟨b :: pre, rfl, hr, fun hi => ?_⟩
          rcases List.infix_cons_iff.mp hi with hi | hi
          · exact hp (hi.trans (List.prefix_append (b :: pre) r))
          · exact hno hi

theorem strstr_eq_none : ∀ {t : List Byte}, strstr key t = none → ¬ key <:+: t
  | [], h => by
      rw [strstr] at h
      split at h
      · cases h
      · next hkey => exact fun hi => hkey (List.infix_nil.mp hi)
  | b :: s, h => by
      rw [strstr] at h
      split at h
      · cases h
      · next hp => exact fun hi => (List.infix_cons_iff.mp hi).elim hp (strstr_eq_none h)

/-- A line stands in its text. -/
theorem infix_of_mem_splitOn {c : Byte} {l : List Byte} (t : List Byte) (h : l ∈ t.splitOn c) :
    l <:+: t := by
  by_cases hc : c ∈ t
  · obtain ⟨u, v, ht, hu⟩ := List.eq_append_cons_of_mem hc
    have hlt : v.length < t.length := by
      rw [ht, List.length_append, List.length_cons]
      omega
    rw [ht, List.splitOn_append_cons_self_of_not_mem hu] at h
    rw [ht]
    rcases List.mem_cons.mp h with rfl | hv
    · exact (List.prefix_append l (c :: v)).isInfix
    · exact (infix_of_mem_splitOn v hv).trans
        ((List.suffix_cons c v).trans (List.suffix_append u (c :: v))).isInfix
  · rw [List.splitOn_eq_singleton hc, List.mem_singleton] at h
    exact h ▸ List.infix_refl t
termination_by t.length

/-- No line starts with a key that does not stand in the text. -/
theorem find?_splitOn_eq_none (h : ¬ key <:+: t) :
    (t.splitOn 0x0a).find? key.isPrefixOf = none :=
  List.find?_eq_none.mpr fun _ hl hp =>
    h ((List.isPrefixOf_iff_prefix.mp hp).isInfix.trans (infix_of_mem_splitOn t hl))

variable {k : LineKey}

/-- A text that begins with the key. -/
theorem lineValue_of_prefix (w : List Byte) :
    lineValue k (k.bytes ++ w) = w.takeWhile (· ≠ 0x0a) := by
  have hnl := k.isKey.2.2
  have hline : ∀ u : List Byte, k.bytes.isPrefixOf (k.bytes ++ u) = true := fun u =>
    List.isPrefixOf_iff_prefix.mpr (List.prefix_append k.bytes u)
  by_cases hw : (0x0a : Byte) ∈ w
  · obtain ⟨u, v, rfl, hu⟩ := List.eq_append_cons_of_mem hw
    have hku : (0x0a : Byte) ∉ k.bytes ++ u := fun hm => (List.mem_append.mp hm).elim hnl hu
    rw [lineValue, ← List.append_assoc, List.splitOn_append_cons_self_of_not_mem hku,
      List.find?_cons_of_pos (hline u)]
    have hall : ∀ b ∈ u, decide (b ≠ 0x0a) = true := fun b hb =>
      decide_eq_true fun e => hu (e ▸ hb)
    rw [List.takeWhile_append_of_pos hall, List.takeWhile_cons_of_neg (by simp), List.append_nil]
    exact List.drop_left
  · have hkw : (0x0a : Byte) ∉ k.bytes ++ w := fun hm => (List.mem_append.mp hm).elim hnl hw
    rw [lineValue, List.splitOn_eq_singleton hkw, List.find?_cons_of_pos (hline w)]
    have hall : w.takeWhile (· ≠ 0x0a) = w :=
      List.takeWhile_eq_self_iff.mpr fun b hb => decide_eq_true fun e => hw (e ▸ hb)
    exact List.drop_left.trans hall.symm

/-- Lines that do not start with the key are passed over. -/
theorem lineValue_append {p : List Byte} (hp : ¬ k.bytes <:+: p) (s : List Byte) :
    lineValue k (p ++ 0x0a :: s) = lineValue k s := by
  rw [lineValue, List.splitOn_append_cons_self, List.find?_append, find?_splitOn_eq_none hp,
    Option.none_or, lineValue]

/-- **A key that is found at the start of a line** stands for what is found behind it, and one that
is not found for nothing. -/
theorem valueBehind_eq_lineValue (h : ¬ FoundInside k t) : valueBehind k t = lineValue k t := by
  cases hfind : strstr k.bytes t with
  | none =>
      rw [valueBehind_none hfind, lineValue, find?_splitOn_eq_none (strstr_eq_none hfind)]
  | some r =>
      obtain ⟨pre, ht, ⟨w, rfl⟩, hno⟩ := strstr_eq_some k.isKey.1 hfind
      have hvalue : valueBehind k t = lineValue k (k.bytes ++ w) := by
        rw [valueBehind_some hfind, lineValue_of_prefix]
        exact congrArg _ List.drop_left
      rw [hvalue, ht]
      rcases List.eq_nil_or_concat' pre with rfl | ⟨p, b, rfl⟩
      · rfl
      · by_cases hb : b = 0x0a
        · subst hb
          have hp : ¬ k.bytes <:+: p := fun hi =>
            hno (hi.trans (List.prefix_append p [0x0a]).isInfix)
          rw [List.append_assoc, List.singleton_append, lineValue_append hp]
        · refine absurd ⟨_, _, ht, hfind, by simp, ?_⟩ h
          rw [List.getLast?_concat]
          exact fun e => hb (Option.some.inj e)

/-- What stands behind a key has no NUL, if the text has none. -/
theorem noNul_valueBehind (k : LineKey) (h : (0 : Byte) ∉ t) : (0 : Byte) ∉ valueBehind k t := by
  cases hfind : strstr k.bytes t with
  | none =>
      rw [valueBehind_none hfind]
      exact List.not_mem_nil
  | some r =>
      obtain ⟨pre, rfl, -, -⟩ := strstr_eq_some k.isKey.1 hfind
      rw [valueBehind_some hfind]
      exact fun hm => h (List.mem_append_right pre
        (List.mem_of_mem_drop ((List.takeWhile_sublist _).mem hm)))

end Lines

end CLib
