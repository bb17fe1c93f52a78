import Wap4410n.Support.Print
import Wap4410n.Support.Shell

/-!
# Utility — texts made safe

`libutility` rewrites a text character by character before it goes into a page (`sgml_encode`) or
between the double quotes of a command (`scConversionSSID`).

* `sgmlEncode_safe`: what is encoded holds no character of the markup and is decoded to what it was.
* `essidLine_safe`: the shell reads an SSID as it is just where no `$` in it starts an expansion;
  `scConversionSSID` leaves the `$` as it stands.
-/

namespace Wap4410n.Utility

open CLib

/-! ### Characters replaced by words -/

section Code

variable {code : Byte → List Byte} {m : Byte}

/-- **A character that only starts words** starts one wherever it is met. -/
theorem mark_flatMap (h : ∀ b, m ∉ (code b).tail) {s pre post : List Byte}
    (hs : s.flatMap code = pre ++ m :: post) : ∃ b ∈ s, (code b).head? = some m ∧
      code b <+: m :: post := by
  induction s generalizing pre with
  | nil => simp at hs
  | cons b s ih =>
      rw [List.flatMap_cons] at hs
      obtain ⟨a, hpre, hrest⟩ | ⟨c, hcode, hpost⟩ := List.append_eq_append_iff.mp hs
      · obtain ⟨b', hb', hword⟩ := ih hrest
        exact ⟨b', List.mem_cons_of_mem b hb', hword⟩
      · cases c with
        | nil =>
            rw [List.append_nil] at hcode
            obtain ⟨b', hb', hword⟩ := ih (show s.flatMap code = [] ++ m :: post from hpost.symm)
            exact ⟨b', List.mem_cons_of_mem b hb', hword⟩
        | cons x c =>
            obtain ⟨rfl, hpost⟩ := List.cons.inj hpost
            cases pre with
            | nil => exact ⟨b, List.mem_cons_self, by rw [hcode]; rfl, by
                rw [hcode, hpost]
                exact List.cons_prefix_cons.mpr ⟨rfl, List.prefix_append c _⟩⟩
            | cons y pre =>
                refine absurd ?_ (h b)
                rw [hcode]
                simp

/-- The words are no longer than `n` characters, and so is not the text than as many times as it
was. -/
theorem length_flatMap_le {n : Nat} (h : ∀ b, (code b).length ≤ n) (s : List Byte) :
    (s.flatMap code).length ≤ n * s.length := by
  induction s with
  | nil => exact Nat.zero_le _
  | cons b s ih =>
      have hb := h b
      rw [List.flatMap_cons, List.length_append, List.length_cons, Nat.mul_succ]
      omega

end Code

/-! ### `sgml_encode` -/

/-- `switch(*pSrc)` -/
def sgmlEntity (readOnly : Bool) (b : Byte) : List Byte :=
  if b = 0x26 then ascii "&#38;".toList
  else if b = 0x22 then ascii "&#34;".toList
  else if b = 0x3c then ascii "&#60;".toList
  else if b = 0x3e then ascii "&#62;".toList
  else if b = 0x28 then ascii "&#40;".toList
  else if b = 0x29 then ascii "&#41;".toList
  else if b = 39 then ascii "&#39;".toList
  else if b = 0x20 then ascii (if readOnly then "&nbsp;" else "&#32;").toList
  else [b]

theorem noNul_sgmlEntity (readOnly : Bool) (b : Byte) :
    b ≠ 0 → (0 : Byte) ∉ sgmlEntity readOnly b := by
  revert b
  cases readOnly <;> exact forall_byte (by decide)

/-- `sgml_encode` -/
def sgmlEncode (readOnly : Bool) (s : CStr) : CStr where
  bytes := s.bytes.flatMap (sgmlEntity readOnly)
  noNul := fun h => by
    obtain ⟨b, hb, h0⟩ := List.mem_flatMap.mp h
    exact noNul_sgmlEntity readOnly b (CStr.ne_zero hb) h0

/-- The characters an entity stands for. -/
def markup : List Byte := [0x26, 0x22, 0x3c, 0x3e, 0x28, 0x29, 39, 0x20]

/-- The entities with their characters; `&nbsp;` is read as a space. -/
def entities : List (List Byte × Byte) :=
  markup.map (fun b => (sgmlEntity false b, b)) ++ [(sgmlEntity true 0x20, 0x20)]

/-- A page is read: each entity as its character.  The first `skip` characters have been read. -/
def sgmlDecode : Nat → List Byte → List Byte
  | _, [] => []
  | skip + 1, _ :: s => sgmlDecode skip s
  | 0, b :: s =>
    match entities.find? (fun e => e.1.isPrefixOf (b :: s)) with
    | some e => e.2 :: sgmlDecode (e.1.length - 1) s
    | none => b :: sgmlDecode 0 s

section Decode

variable (readOnly : Bool)

/-- An entity is read as its character. -/
theorem sgmlDecode_entity {b : Byte} (hb : b ∈ markup) (s : List Byte) :
    sgmlDecode 0 (sgmlEntity readOnly b ++ s) = b :: sgmlDecode 0 s := by
  simp only [markup, List.mem_cons, List.not_mem_nil, or_false] at hb
  cases readOnly <;> rcases hb with rfl | rfl | rfl | rfl | rfl | rfl | rfl | rfl <;> rfl

/-- Any other character is left as it is. -/
theorem sgmlEntity_of_notMem (b : Byte) : b ∉ markup → sgmlEntity readOnly b = [b] := by
  revert b
  cases readOnly <;> exact forall_byte (by decide)

/-- A character that starts no entity is read as itself. -/
theorem sgmlDecode_other {b : Byte} (hb : b ∉ markup) (s : List Byte) :
    sgmlDecode 0 (b :: s) = b :: sgmlDecode 0 s := by
  have hamp : b ≠ 0x26 := fun h => hb (h ▸ List.mem_cons_self)
  have hhead : ∀ e ∈ entities, e.1.head? = some 0x26 := by decide
  have hnone : entities.find? (fun e => e.1.isPrefixOf (b :: s)) = none := by
    refine List.find?_eq_none.mpr fun e he hpre => ?_
    obtain ⟨t, ht⟩ := List.isPrefixOf_iff_prefix.mp hpre
    have hfirst := hhead e he
    cases hw : e.1 with
    | nil =>
        rw [hw] at hfirst
        cases hfirst
    | cons x w =>
        rw [hw] at hfirst ht
        cases hfirst
        exact hamp (List.cons.inj ht).1.symm
  rw [sgmlDecode, hnone]

/-- **What is encoded is decoded to what it was.** -/
theorem sgmlDecode_encode (s : List Byte) :
    sgmlDecode 0 (s.flatMap (sgmlEntity readOnly)) = s := by
  induction s with
  | nil => rfl
  | cons b s ih =>
      rw [List.flatMap_cons]
      by_cases hb : b ∈ markup
      · rw [sgmlDecode_entity readOnly hb, ih]
      · rw [sgmlEntity_of_notMem readOnly b hb, List.singleton_append, sgmlDecode_other hb, ih]

/-- Of the characters of the markup only `&` is written, and only to start an entity. -/
theorem markup_sgmlEntity (b : Byte) :
    (∀ c ∈ markup, c ∈ sgmlEntity readOnly b → c = 0x26) ∧ 0x26 ∉ (sgmlEntity readOnly b).tail ∧
      ((sgmlEntity readOnly b).head? = some 0x26 → b ∈ markup) ∧
      (sgmlEntity readOnly b).length ≤ 6 := by
  have hmarkup : ∀ b, (markup.all fun c => c ∉ sgmlEntity readOnly b ∨ c = 0x26) = true := by
    cases readOnly <;> exact forall_byte (by decide)
  have hrest : ∀ b, 0x26 ∉ (sgmlEntity readOnly b).tail ∧
      ((sgmlEntity readOnly b).head? = some 0x26 → b ∈ markup) ∧
      (sgmlEntity readOnly b).length ≤ 6 := by
    cases readOnly <;> exact forall_byte (by decide)
  refine ⟨fun c hc hmem => ?_, hrest b⟩
  exact (of_decide_eq_true (List.all_eq_true.mp (hmarkup b) c hc)).resolve_left (not_not.mpr hmem)

end Decode

/-- **A text is encoded safely**: no character of the markup is left but the `&` of an entity, the
entities are decoded to what it was, so that no two texts are encoded alike, and it grows to six
times its length at most. -/
theorem sgmlEncode_safe (readOnly : Bool) (s : CStr) :
    (∀ c ∈ [(0x3c : Byte), 0x3e, 0x22, 39, 0x28, 0x29, 0x20], c ∉ (sgmlEncode readOnly s).bytes) ∧
    (∀ pre post, (sgmlEncode readOnly s).bytes = pre ++ 0x26 :: post →
      ∃ b ∈ markup, sgmlEntity readOnly b <+: 0x26 :: post) ∧
    sgmlDecode 0 (sgmlEncode readOnly s).bytes = s.bytes ∧
    (∀ t : CStr, sgmlEncode readOnly t = sgmlEncode readOnly s → t = s) ∧
    (sgmlEncode readOnly s).length ≤ 6 * s.length := by
  have hdecode : ∀ t : CStr, sgmlDecode 0 (sgmlEncode readOnly t).bytes = t.bytes :=
    fun t => sgmlDecode_encode readOnly t.bytes
  refine ⟨fun c hc hmem => ?_, fun pre post h => ?_, hdecode s, fun t h => ?_, ?_⟩
  · obtain ⟨b, -, hword⟩ := List.mem_flatMap.mp hmem
    have hmarkup : ∀ c ∈ [(0x3c : Byte), 0x3e, 0x22, 39, 0x28, 0x29, 0x20], c ∈ markup ∧
        c ≠ 0x26 := by
      decide +kernel
    exact (hmarkup c hc).2 ((markup_sgmlEntity readOnly b).1 c (hmarkup c hc).1 hword)
  · obtain ⟨b, -, hhead, hword⟩ := mark_flatMap (fun b => (markup_sgmlEntity readOnly b).2.1) h
    exact ⟨b, (markup_sgmlEntity readOnly b).2.2.1 hhead, hword⟩
  · rw [CStr.ext_iff, ← hdecode t, h, hdecode s]
  · exact length_flatMap_le (fun b => (markup_sgmlEntity readOnly b).2.2.2) s.bytes

/-! ### `scConversionSSID` -/

/-- `if(*p == '\"' || *p == '\\' || *p == '`') *dest++ = '\\'; *dest++ = *p++;` -/
def conversion (b : Byte) : List Byte :=
  if b = 0x22 ∨ b = 0x5c ∨ b = 0x60 then [0x5c, b] else [b]

/-- `scConversionSSID` -/
def scConversionSSID (src : CStr) : CStr where
  bytes := src.bytes.flatMap conversion
  noNul := fun h => by
    obtain ⟨b, hb, h0⟩ := List.mem_flatMap.mp h
    have hne : ∀ b, b ≠ 0 → (0 : Byte) ∉ conversion b := forall_byte (by decide)
    exact hne b (CStr.ne_zero hb) h0

/-- `sprintf(vapStr,"ath%d%d",unit,vap);` -/
def vapStr (unit vap : Nat) : CStr :=
  (CStr.text "ath").append ((CStr.ofInt unit).append (.ofInt vap))

/-- The line that `wlanSecurityApply` and `wlanNoApSecurityApply` add to the script for an SSID. -/
def essidLine (unit vap : Nat) (ssid : CStr) : CStr :=
  (CStr.text "iwconfig ").append ((vapStr unit vap).append ((CStr.text " essid \"").append
    ((scConversionSSID ssid).append (.text "\" > /dev/null 2>&1"))))

/-- No `$` of the SSID starts an expansion. -/
def NoExpansion (ssid : CStr) : Prop :=
  ∀ pre c post, ssid.bytes = pre ++ 0x24 :: c :: post → Shell.expands c = false

/-! ### What the shell makes of it -/

/-- Whether no `$` of a text starts an expansion, character by character. -/
def noExpansion : List Byte → Bool
  | [] => true
  | b :: s => !(b = 0x24 && s.head?.any Shell.expands) && noExpansion s

theorem noExpansion_iff {s : List Byte} : noExpansion s = true ↔
    ∀ pre c post, s = pre ++ 0x24 :: c :: post → Shell.expands c = false := by
  induction s with
  | nil => exact ⟨fun _ pre c post h => by simp at h, fun _ => rfl⟩
  | cons b s ih =>
      rw [noExpansion, Bool.and_eq_true, ih]
      constructor
      · rintro ⟨hb, hs⟩ pre c post h
        cases pre with
        | nil =>
            obtain ⟨rfl, rfl⟩ := List.cons.inj h
            simpa using hb
        | cons x pre => exact hs pre c post (List.cons.inj h).2
      · intro h
        refine ⟨?_, fun pre c post hs => h (b :: pre) c post (by rw [hs]; rfl)⟩
        by_cases hb : b = 0x24
        · cases s with
          | nil => simp
          | cons c s =>
              have hc := h [] c s (by rw [hb]; rfl)
              simp [hc]
        · simp [hb]

/-- What follows a character in the command does not start an expansion where it did not in the
SSID. -/
theorem expands_behind (s : List Byte) (rest : List Byte) :
    ∃ c t, s.flatMap conversion ++ 0x22 :: rest = c :: t ∧
      Shell.expands c = s.head?.any Shell.expands := by
  cases s with
  | nil => exact ⟨0x22, rest, rfl, rfl⟩
  | cons b s =>
      rw [List.flatMap_cons, conversion]
      split
      · rename_i hb
        refine ⟨0x5c, _, rfl, ?_⟩
        rcases hb with rfl | rfl | rfl <;> rfl
      · exact ⟨b, _, rfl, rfl⟩

/-- **Between the quotes** the SSID is read as it is, or expanded. -/
theorem word_conversion (s rest : List Byte) :
    Shell.word true (s.flatMap conversion ++ 0x22 :: rest) =
      if noExpansion s then (Shell.word false rest).map fun r => (s ++ r.1, r.2) else none := by
  induction s with
  | nil =>
      rw [List.flatMap_nil, List.nil_append, Shell.word_unquoted, noExpansion, if_pos rfl]
      simp
  | cons b s ih =>
      have hmap : ∀ o : Option (List Byte × List Byte),
          ((o.map fun r => (s ++ r.1, r.2)).map fun r => (b :: r.1, r.2)) =
            o.map fun r => (b :: s ++ r.1, r.2) := fun o => by
        rw [Option.map_map]
        rfl
      rw [List.flatMap_cons, List.append_assoc, conversion, noExpansion]
      by_cases hb : b = 0x22 ∨ b = 0x5c ∨ b = 0x60
      · have hescapable : Shell.escapable b = true ∧ b ≠ 0x24 := by
          rcases hb with rfl | rfl | rfl <;> decide
        rw [if_pos hb, List.cons_append, List.singleton_append, Shell.word_escaped hescapable.1, ih]
        simp only [hescapable.2, decide_false, Bool.false_and, Bool.not_false, Bool.true_and]
        split
        · exact hmap _
        · rfl
      · obtain ⟨c, t, htext, hexpands⟩ := expands_behind s rest
        obtain ⟨hquote, hslash, hback⟩ : b ≠ 0x22 ∧ b ≠ 0x5c ∧ b ≠ 0x60 :=
          ⟨fun h => hb (.inl h), fun h => hb (.inr (.inl h)), fun h => hb (.inr (.inr h))⟩
        rw [if_neg hb, List.singleton_append, htext, Shell.word_quoted hquote hback hslash,
          ← htext, ih, hexpands]
        by_cases hdollar : b = 0x24 ∧ s.head?.any Shell.expands = true
        · rw [if_pos hdollar]
          simp [hdollar]
        · rw [if_neg hdollar]
          have hgo : (!(decide (b = 0x24) && s.head?.any Shell.expands)) = true := by
            by_cases hb : b = 0x24
            · simpa [hb] using hdollar
            · simp [hb]
          rw [hgo, Bool.true_and]
          split
          · exact hmap _
          · rfl

/-- The name of the interface is plain. -/
theorem plain_vapStr (unit vap : Nat) : ∀ b ∈ (vapStr unit vap).bytes, Shell.isPlain b = true := by
  have hdigit : ∀ b, isDigit b = true → Shell.isPlain b = true := forall_byte (by decide)
  have hint : ∀ v : Int, ∀ b ∈ (CStr.ofInt v).bytes, Shell.isPlain b = true := by
    intro v b hb
    simp only [CStr.ofInt, printInt] at hb
    split at hb
    · rcases List.mem_cons.mp hb with rfl | hb
      · decide
      · exact hdigit b (isDigit_digits hb)
    · exact hdigit b (isDigit_digits hb)
  have hath : ∀ b ∈ (CStr.text "ath").bytes, Shell.isPlain b = true := by decide +kernel
  intro b hb
  rcases List.mem_append.mp hb with hb | hb
  · exact hath b hb
  · rcases List.mem_append.mp hb with hb | hb
    · exact hint _ b hb
    · exact hint _ b hb

/-- **The words of the line.** -/
theorem simpleCommand_essidLine (unit vap : Nat) (ssid : CStr) :
    Shell.simpleCommand (essidLine unit vap ssid).bytes =
      if noExpansion ssid.bytes then
        some [(CStr.text "iwconfig").bytes, (vapStr unit vap).bytes,
          (CStr.text "essid").bytes, ssid.bytes]
      else none := by
  let redirection := (CStr.text "> /dev/null 2>&1").bytes
  have hline : (essidLine unit vap ssid).bytes = (CStr.text "iwconfig").bytes ++
      0x20 :: ((vapStr unit vap).bytes ++ 0x20 :: ((CStr.text "essid").bytes ++
        0x20 :: 0x22 :: (ssid.bytes.flatMap conversion ++ 0x22 :: 0x20 :: redirection))) := rfl
  obtain ⟨n, hn⟩ : ∃ n, (essidLine unit vap ssid).bytes.length = n + 4 := by
    have hfirst : (CStr.text "iwconfig").bytes.length = 8 := by decide
    refine ⟨(essidLine unit vap ssid).bytes.length - 4, ?_⟩
    rw [hline, List.length_append, hfirst]
    omega
  have hquoted :
      Shell.word false (0x22 :: (ssid.bytes.flatMap conversion ++ 0x22 :: 0x20 :: redirection)) =
      if noExpansion ssid.bytes then some (ssid.bytes, 0x20 :: redirection) else none := by
    rw [Shell.word, if_pos rfl, word_conversion, Shell.word_blank (by decide)]
    simp
  have hend : Shell.words (n + 1) (0x20 :: redirection) = some [] := rfl
  rw [Shell.simpleCommand, hn, hline, Shell.words_plain (by decide +kernel) (by decide),
    Shell.words_plain (plain_vapStr unit vap) (List.cons_ne_nil _ _),
    Shell.words_plain (by decide +kernel) (by decide)]
  cases hsafe : noExpansion ssid.bytes with
  | true =>
      rw [hsafe, if_pos rfl] at hquoted
      rw [Shell.words_cons (by decide) (by decide) hquoted, hend, if_pos rfl]
      rfl
  | false =>
      rw [hsafe, if_neg Bool.false_ne_true] at hquoted
      rw [Shell.words_none (by decide) (by decide) hquoted, if_neg Bool.false_ne_true]
      rfl

/-- **An SSID is one word of the command, as it is**, and takes twice its length at most, just where
no `$` of it starts an expansion. -/
theorem essidLine_safe (unit vap : Nat) (ssid : CStr) :
    (Shell.simpleCommand (essidLine unit vap ssid).bytes =
        some [(CStr.text "iwconfig").bytes, (vapStr unit vap).bytes, (CStr.text "essid").bytes,
          ssid.bytes] ∧
      (scConversionSSID ssid).length + 1 ≤ 2 * ssid.length + 1) ↔ NoExpansion ssid := by
  have hlen : (scConversionSSID ssid).length ≤ 2 * ssid.length :=
    length_flatMap_le (forall_byte (by decide)) ssid.bytes
  rw [simpleCommand_essidLine, NoExpansion, ← noExpansion_iff]
  cases noExpansion ssid.bytes with
  | true => simpa using hlen
  | false => simp

/-- **An SSID runs a command.** -/
theorem essidLine_runs :
    (CStr.text "$(reboot)").length ≤ 32 ∧
    Shell.simpleCommand (essidLine 0 0 (.text "$(reboot)")).bytes ≠
      some [(CStr.text "iwconfig").bytes, (CStr.text "ath00").bytes, (CStr.text "essid").bytes,
        (CStr.text "$(reboot)").bytes] := by
  refine ⟨by decide, ?_⟩
  rw [simpleCommand_essidLine]
  decide

end Wap4410n.Utility
