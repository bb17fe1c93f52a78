import Wap4410n.Editcfg.Blocks
import Wap4410n.Editcfg.Recognise

/-!
# Editcfg — the rows of the tables

What the names, the values and the comments of the tables are like, so far as it matters for what
their lines are read as.  A name has nothing that ends a line or a name, and no other attribute of
its group has it.  A value that is a number or an address is short, and the lines of the comment
behind it are read as nothing.

* `sound_cfgData`, `cfgData_nodup`, `attrs_nodup`: the tables.
* `matchAttr_ssid`: no attribute is called `SSID`, without a number behind it.
* `matchGroup_self`, `matchAttr_self`: a name finds its group and its attribute.
* `values_short`: the bytes of a number or an address.
-/

namespace Wap4410n.Editcfg

open CLib Apcfg

/-! ### Rows -/

/-- The bytes of a number or an address, at most. -/
def Output.width : Output → Option Nat
  | byte _ => some 3
  | word _ | rogueNo => some 5
  | percent _ => some 8
  | ip _ => some 15
  | mac _ => some 17
  | str _ | pass _ | scMacList => none

/-- The numbers of the countries with a comment of their own, and of the others. -/
def countries : List Int := [36, 76, 156, 276, 484, 410, 840]

/-- A line that is not read. -/
def Attr.isTitle (a : Attr) : Bool := a.attr.bytes.head? = some 0x3b

/-- What may stand behind a value. -/
def Attr.comments (a : Attr) : List (List Byte) :=
  if ascii "Country_Region".toList <+: a.attr.bytes then countries.map countryComment
  else [a.comment]

/-- A line that is read as nothing, in every group. -/
def Silent (buffer : CStr) : Prop := buffer.bytes.head? ≠ some 0x5b ∧ splitLine buffer = none

/-- What is written from a comment on, behind the front of a line with `n` bytes at most: the line
is short, and the others are read as nothing. -/
def QuietBehind (n : Nat) (s : List Byte) : Prop :=
  0x0a ∈ s ∧ n + (s.takeWhile (· ≠ 0x0a)).length ≤ 127 ∧
    ∀ q ∈ buffers ((s.dropWhile (· ≠ 0x0a)).drop 1), Silent q

/-- The name of an attribute with a value. -/
def Attr.Named (a : Attr) : Prop :=
  a.attr.bytes ≠ [] ∧ a.attr.length ≤ 100 ∧
    ∀ b ∈ a.attr.bytes, b ∉ ([0x0a, 0x20, 0x3b, 0x3d, 0x5b] : List Byte)

/-- A line that is not an attribute. -/
def Attr.Titled (a : Attr) : Prop :=
  a.attr.bytes.head? = some 0x3b ∧ a.attr.length ≤ 100 ∧ 0x0a ∉ a.attr.bytes ∧
    a.comments = [[]] ∧ splitLine (.before (a.attr.bytes ++ crlf)) = none

/-- A row of the tables. -/
def Attr.Sound (a : Attr) : Prop :=
  match a.outputfunc with
  | none => a.Titled
  | some f => a.Named ∧ f.Plain = true ∧ (f = .scMacList → a.comments = [[]]) ∧
      (f ≠ .str .timeZone → ∀ comment ∈ a.comments, comment.length ≤ 300) ∧
      ∀ n ∈ f.width, ∀ comment ∈ a.comments,
        QuietBehind (a.attr.length + 1 + n) (outputComment comment)

instance (buffer : CStr) : Decidable (Silent buffer) := inferInstanceAs (Decidable (_ ∧ _))

instance (n : Nat) (s : List Byte) : Decidable (QuietBehind n s) :=
  inferInstanceAs (Decidable (_ ∧ _ ∧ _))

instance (a : Attr) : Decidable a.Named :=
  -- along the name, not over all bytes
  have : Decidable (∀ b ∈ a.attr.bytes, b ∉ ([0x0a, 0x20, 0x3b, 0x3d, 0x5b] : List Byte)) :=
    List.decidableBAll _ _
  inferInstanceAs (Decidable (_ ∧ _ ∧ _))

instance (a : Attr) : Decidable a.Titled := inferInstanceAs (Decidable (_ ∧ _ ∧ _ ∧ _ ∧ _))

instance (a : Attr) : Decidable a.Sound :=
  match h : a.outputfunc with
  | none => decidable_of_iff a.Titled (by rw [Attr.Sound, h])
  | some f => decidable_of_iff (a.Named ∧ f.Plain = true ∧ (f = .scMacList → a.comments = [[]]) ∧
      (f ≠ .str .timeZone → ∀ comment ∈ a.comments, comment.length ≤ 300) ∧
      ∀ n ∈ f.width, ∀ comment ∈ a.comments,
        QuietBehind (a.attr.length + 1 + n) (outputComment comment)) (by rw [Attr.Sound, h])

/-! ### The tables, row by row -/

theorem toList_lit {s : String} {l : List Char} (h : s = String.ofList l) : s.toList = l := by
  rw [h, String.toList_ofList]

theorem toList_append {s t : String} {l m : List Char} (hs : s.toList = l) (ht : t.toList = m) :
    (s ++ t).toList = l ++ m := by
  rw [String.toList_append, hs, ht]

/-- Rows that are sound, with names that have not been seen. -/
structure Checked (seen : List CStr) (l : List Attr) : Prop where
  sound : ∀ a ∈ l, a.Sound
  nodup : (l.map (·.attr)).Nodup
  fresh : ∀ a ∈ l, a.attr ∉ seen

namespace Checked

variable {seen : List CStr} {l : List Attr}

theorem nil : Checked seen [] :=
  ⟨List.forall_mem_nil _, List.nodup_nil, List.forall_mem_nil _⟩

theorem cons {a : Attr} (h : a.Sound ∧ a.attr ∉ seen) (hl : Checked (a.attr :: seen) l) :
    Checked seen (a :: l) := by
  refine ⟨List.forall_mem_cons.mpr ⟨h.1, hl.sound⟩, ?_, ?_⟩
  · rw [List.map_cons, List.nodup_cons]
    refine ⟨fun hmem => ?_, hl.nodup⟩
    obtain ⟨b, hb, heq⟩ := List.mem_map.mp hmem
    exact hl.fresh b hb (heq ▸ List.mem_cons_self)
  · refine List.forall_mem_cons.mpr ⟨h.2, fun b hb hmem => ?_⟩
    exact hl.fresh b hb (List.mem_cons_of_mem _ hmem)

/-- A row of the source text, whose name and comment are the characters `n` and `c`. -/
theorem row {name comment : String} {n c : List Char} {f : Assign} {o : Output}
    (hn : name.toList = n) (hc : comment.toList = c)
    (h : Attr.Sound ⟨.before (ascii n), some f, some o, ascii c⟩ ∧ .before (ascii n) ∉ seen)
    (hl : Checked (.before (ascii n) :: seen) l) :
    Checked seen (Editcfg.row name f o comment :: l) := by
  have hrow : Editcfg.row name f o comment = ⟨.before (ascii n), some f, some o, ascii c⟩ := by
    rw [Editcfg.row, CStr.text, hn, hc]
  rw [hrow]
  exact .cons h hl

end Checked

/-- Rows that were checked, with their checks; no attribute is called `SSID`. -/
def Rows : Type :=
  { l : List Attr // Checked [.lit ['S', 'S', 'I', 'D']] l }

def basicRows : Rows where
  val := basic
  property := by
    unfold basic
    repeat refine .row (toList_lit rfl) (toList_lit rfl) (by decide +kernel) ?_
    exact .nil

def timeRows : Rows where
  val := time
  property := by
    unfold time
    iterate 3 refine .row (toList_lit rfl) (toList_lit rfl) (by decide +kernel) ?_
    -- the time zones are not looked at
    refine .cons (by decide +kernel) ?_
    repeat refine .row (toList_lit rfl) (toList_lit rfl) (by decide +kernel) ?_
    exact .nil

def setupAdvRows : Rows where
  val := setupAdv
  property := by
    unfold setupAdv
    repeat refine .row (toList_lit rfl) (toList_lit rfl) (by decide +kernel) ?_
    exact .nil

def wlanBasicRows : Rows where
  val := wlanBasic
  property := by
    unfold wlanBasic
    repeat refine .row (toList_lit rfl) (toList_lit rfl) (by decide +kernel) ?_
    exact .nil

def radiusServerRows : Rows where
  val := radiusServer
  property := by
    unfold radiusServer
    repeat refine .row (toList_lit rfl) (toList_lit rfl) (by decide +kernel) ?_
    exact .nil

def wlanSecRows : Rows × Rows × Rows × Rows := by
  refine ⟨⟨wlanSec1, ?_⟩, ⟨wlanSec2, ?_⟩, ⟨wlanSec3, ?_⟩, ⟨wlanSec4, ?_⟩⟩
  all_goals
    refine .cons (by decide +kernel) ?_
    refine .cons (by decide +kernel) ?_
    refine .row (toList_lit rfl) (toList_lit rfl) (by decide +kernel) ?_
    refine .row (toList_lit rfl) (toList_append (toList_append (toList_lit rfl) (toList_lit rfl))
      (toList_lit rfl)) (by decide +kernel) ?_
    repeat refine .row (toList_lit rfl) (toList_lit rfl) (by decide +kernel) ?_
    exact .nil

def wlanConnControlRows : Rows × Rows × Rows × Rows := by
  refine ⟨⟨wlanConnControl1, ?_⟩, ⟨wlanConnControl2, ?_⟩, ⟨wlanConnControl3, ?_⟩,
    ⟨wlanConnControl4, ?_⟩⟩
  all_goals
    refine .cons (by decide +kernel) ?_
    repeat refine .row (toList_lit rfl) (toList_lit rfl) (by decide +kernel) ?_
    exact .nil

def vlanQoSRows : Rows where
  val := vlanQoS
  property := by
    unfold vlanQoS
    iterate 5 refine .row (toList_lit rfl) (toList_lit rfl) (by decide +kernel) ?_
    refine .row (toList_lit rfl) (toList_append (toList_lit rfl) (toList_lit rfl))
      (by decide +kernel) ?_
    repeat refine .row (toList_lit rfl) (toList_lit rfl) (by decide +kernel) ?_
    exact .nil

/-- The comment of a country, of which the characters are `c`. -/
theorem country_cons {k : Int} {ks : List Int} {c : List Char}
    (hk : countryComment k = ascii c)
    (h : (ascii c).length ≤ 300 ∧ QuietBehind 20 (outputComment (ascii c)))
    (hks : ∀ comment ∈ ks.map countryComment,
      comment.length ≤ 300 ∧ QuietBehind 20 (outputComment comment)) :
    ∀ comment ∈ (k :: ks).map countryComment,
      comment.length ≤ 300 ∧ QuietBehind 20 (outputComment comment) := by
  rw [List.map_cons, List.forall_mem_cons, hk]
  exact ⟨h, hks⟩

theorem country_quiet : ∀ comment ∈ countries.map countryComment,
    comment.length ≤ 300 ∧ QuietBehind 20 (outputComment comment) := by
  unfold countries
  refine country_cons (congrArg ascii (toList_lit rfl)) (by decide +kernel) ?_
  refine country_cons (congrArg ascii (toList_lit rfl)) (by decide +kernel) ?_
  refine country_cons (congrArg ascii (toList_lit rfl)) (by decide +kernel) ?_
  refine country_cons (congrArg ascii (toList_append (toList_append (toList_lit rfl)
    (toList_lit rfl)) (toList_lit rfl))) (by decide +kernel) ?_
  refine country_cons (congrArg ascii (toList_lit rfl)) (by decide +kernel) ?_
  refine country_cons (congrArg ascii (toList_lit rfl)) (by decide +kernel) ?_
  refine country_cons (congrArg ascii (toList_lit rfl)) (by decide +kernel) ?_
  exact List.forall_mem_nil _

/-- The row of the country, whose comment is not that of the table. -/
theorem sound_country :
    (row "Country_Region" (.country .countryCode) (.word .countryCode) "").Sound := by
  have hprefix : ascii "Country_Region".toList <+: (CStr.text "Country_Region").bytes := by
    decide +kernel
  have hcomments : (row "Country_Region" (.country .countryCode) (.word .countryCode) "").comments =
      countries.map countryComment := if_pos hprefix
  have hlen : (CStr.text "Country_Region").length + 1 + 5 = 20 := by
    decide +kernel
  refine ⟨by decide +kernel, rfl, nofun, fun _ comment hc => ?_, fun n hn comment hc => ?_⟩
  · rw [hcomments] at hc
    exact (country_quiet comment hc).1
  · rw [hcomments] at hc
    cases hn
    have hquiet := (country_quiet comment hc).2
    rwa [← hlen] at hquiet

def wlanAdvRows : Rows where
  val := wlanAdv
  property := by
    unfold wlanAdv
    refine .row (toList_lit rfl) (toList_lit rfl) (by decide +kernel) ?_
    refine .cons ⟨sound_country, by decide +kernel⟩ ?_
    repeat refine .row (toList_lit rfl) (toList_lit rfl) (by decide +kernel) ?_
    exact .nil

def apModeRows : Rows where
  val := apMode
  property := by
    unfold apMode
    repeat refine .row (toList_lit rfl) (toList_lit rfl) (by decide +kernel) ?_
    exact .nil

def managementRows : Rows where
  val := management
  property := by
    unfold management
    repeat refine .row (toList_lit rfl) (toList_lit rfl) (by decide +kernel) ?_
    exact .nil

def logRows : Rows where
  val := log
  property := by
    unfold log
    repeat refine .row (toList_lit rfl) (toList_lit rfl) (by decide +kernel) ?_
    exact .nil

theorem checked_cfgData : ∀ p ∈ cfgData, Checked [.lit ['S', 'S', 'I', 'D']] p.attrs := by
  simp only [cfgData, List.forall_mem_cons]
  exact ⟨basicRows.2, timeRows.2, setupAdvRows.2, wlanBasicRows.2, radiusServerRows.2,
    wlanSecRows.1.2, wlanSecRows.2.1.2, wlanSecRows.2.2.1.2, wlanSecRows.2.2.2.2,
    wlanConnControlRows.1.2, wlanConnControlRows.2.1.2, wlanConnControlRows.2.2.1.2,
    wlanConnControlRows.2.2.2.2, vlanQoSRows.2, wlanAdvRows.2, apModeRows.2, managementRows.2,
    logRows.2, List.forall_mem_nil _⟩

theorem sound_cfgData : ∀ p ∈ cfgData, ∀ a ∈ p.attrs, a.Sound :=
  fun p hp => (checked_cfgData p hp).sound

/-- The names of the attributes of a group. -/
theorem attrs_nodup : ∀ p ∈ cfgData, (p.attrs.map (·.attr)).Nodup :=
  fun p hp => (checked_cfgData p hp).nodup

/-- No group has an attribute `SSID`. -/
theorem matchAttr_ssid : ∀ p ∈ cfgData, matchAttr (.text "SSID") p.attrs = none := by
  intro p hp
  have htext : CStr.text "SSID" = .lit ['S', 'S', 'I', 'D'] := by decide +kernel
  rw [matchAttr, List.find?_eq_none, htext]
  intro a ha hname
  exact (checked_cfgData p hp).fresh a ha (List.mem_singleton.mpr (of_decide_eq_true hname))

/-- The names of the groups. -/
theorem cfgData_nodup : (cfgData.map (·.group)).Nodup := by
  decide +kernel

/-- Only the first row of a group is a line without a value. -/
theorem attrs_tail : ∀ p ∈ cfgData, ∀ a ∈ p.attrs.tail, a.outputfunc ≠ none := by
  decide +kernel

theorem groups_named : ∀ p ∈ cfgData, p.group.length ≠ 0 ∧ p.group.length ≤ 100 ∧
    0x0a ∉ p.group.bytes ∧ 0x5d ∉ p.group.bytes := by
  decide +kernel

/-! ### Comments -/

theorem countryComment_mem (defaultCountry : Int) :
    countryComment defaultCountry ∈ countries.map countryComment := by
  by_cases h : defaultCountry ∈ countries
  · exact List.mem_map_of_mem h
  · have hother : countryComment defaultCountry = countryComment 840 := by
      simp only [countries, List.mem_cons, List.not_mem_nil, or_false, not_or] at h
      obtain ⟨h₁, h₂, h₃, h₄, h₅, h₆, -⟩ := h
      rw [countryComment, if_neg h₁, if_neg h₂, if_neg h₃, if_neg h₄, if_neg h₅, if_neg h₆]
      rfl
    rw [hother]
    exact List.mem_map_of_mem (by decide)

/-- What stands behind a value. -/
theorem commentOf_mem (dev : Device) (a : Attr) : commentOf dev a ∈ a.comments := by
  unfold commentOf Attr.comments
  split
  · exact countryComment_mem dev.defaultCountry
  · exact List.mem_singleton_self _

/-! ### Values -/

theorem decimalText_short {k n : Nat} (h : n < 10 ^ (k + 1)) (hn : n < 65536) :
    (decimalText n).length ≤ k + 1 ∧ 0x0a ∉ decimalText n := by
  rw [decimalText, bytes_ofInt (by omega) (by omega), Int.toNat_natCast]
  exact ⟨length_digits_lt h, fun hlf => absurd (isDigit_digits hlf) (by decide)⟩

theorem octet_line (b : Byte) : 0x0a ∉ (octet b).bytes := by
  have hb := b.toNat_lt
  exact (decimalText_short (k := 2) (n := b.toNat) (by omega) (by omega)).2

theorem hexDigit_line {n : Nat} (h : n < 16) : 0x0a ≠ hexDigit n := by
  have hall : ∀ n : Fin 16, 0x0a ≠ hexDigit n := by decide
  exact hall ⟨n, h⟩

theorem hexText_line (b : Byte) : 0x0a ∉ hexText b := by
  have hb := b.toNat_lt
  have hhigh : 0x0a ≠ hexDigit (b.toNat / 16) := hexDigit_line (by omega)
  have hlow : 0x0a ≠ hexDigit (b.toNat % 16) := hexDigit_line (Nat.mod_lt _ (by decide))
  simp [hexText, hhigh, hlow]

theorem macBytes_line (m : MacAddr) : 0x0a ∉ macBytes m := by
  simp [macBytes, hexText_line]

theorem length_macBytes (m : MacAddr) : (macBytes m).length = 17 := rfl

theorem twoDigits_short {n : Nat} (h : n < 100) :
    (twoDigits n).length ≤ 2 ∧ 0x0a ∉ (twoDigits n).bytes := by
  have hzero : (CStr.text "0").bytes = [0x30] := by decide
  unfold twoDigits
  split
  · rename_i hlt
    obtain ⟨hlen, hline⟩ := decimalText_short (k := 0) (n := n) (by omega) (by omega)
    have hbytes : ((CStr.text "0").append (.ofInt n)).bytes = 0x30 :: decimalText n :=
      congrArg (· ++ decimalText n) hzero
    rw [CStr.length, hbytes, List.length_cons, List.mem_cons, not_or]
    exact ⟨Nat.succ_le_succ hlen, by decide, hline⟩
  · exact decimalText_short (k := 1) (by omega) (by omega)

theorem outputIP_short (g : Globals) (v : AddrVar) :
    (outputIP g v).length ≤ 15 ∧ 0x0a ∉ outputIP g v := by
  unfold outputIP
  split
  · exact ⟨Nat.zero_le _, List.not_mem_nil⟩
  · have hdot : (0x0a : Byte) ∉ (CStr.text ".").bytes := by decide
    refine ⟨length_inetNtoa_le _, ?_⟩
    simp only [inetNtoa, CStr.append, List.mem_append, octet_line, hdot, or_self, not_false_eq_true]

theorem outputMac_short (g : Globals) (v : MacVar) :
    (outputMac g v).length ≤ 17 ∧ 0x0a ∉ outputMac g v := by
  unfold outputMac
  split
  · exact ⟨Nat.zero_le _, List.not_mem_nil⟩
  · exact ⟨(length_macBytes _).le, macBytes_line _⟩

theorem outputPercent_short (g : Globals) (v : WordVar) :
    (outputPercent g v).length ≤ 8 ∧ 0x0a ∉ outputPercent g v := by
  have ha := (g.word v).toNat_lt
  have hend : (ascii " %".toList).length = 2 ∧ (0x0a : Byte) ∉ ascii " %".toList := by decide
  obtain ⟨hlen, hline⟩ := decimalText_short (k := 2) (n := (g.word v).toNat / 100) (by omega)
    (by omega)
  obtain ⟨hlen', hline'⟩ := twoDigits_short (n := (g.word v).toNat % 100) (Nat.mod_lt _ (by decide))
  unfold outputPercent
  dsimp only
  split
  · exact ⟨Nat.zero_le _, List.not_mem_nil⟩
  · constructor
    · rw [List.length_append, List.length_cons, List.length_append, hend.1]
      rw [CStr.length] at hlen'
      omega
    · simp only [List.mem_append, List.mem_cons, hline, hline', hend.2, or_false, false_or]
      decide

/-- **A number or an address** is short and stands in one line. -/
theorem values_short {f : Output} {n : Nat} (hf : f.width = some n) {g : Globals}
    {value : List Byte} (h : value ∈ f.values g) : value.length ≤ n ∧ 0x0a ∉ value := by
  have hbyte (v : ByteVar) := (g.byte v).toNat_lt
  have hword (w : UInt16) := w.toNat_lt
  cases f with
  | byte v =>
      cases hf
      rw [List.mem_singleton.mp h]
      exact decimalText_short (k := 2) (by have := hbyte v; omega) (by have := hbyte v; omega)
  | word v =>
      cases hf
      rw [List.mem_singleton.mp h]
      exact decimalText_short (k := 4) (by have := hword (g.word v); omega) (hword (g.word v))
  | rogueNo =>
      cases hf
      rw [List.mem_singleton.mp h]
      exact decimalText_short (k := 4) (by have := hword g.rogueApMacList.no; omega)
        (hword g.rogueApMacList.no)
  | ip v =>
      cases hf
      rw [List.mem_singleton.mp h]
      exact outputIP_short g v
  | mac v =>
      cases hf
      rw [List.mem_singleton.mp h]
      exact outputMac_short g v
  | percent v =>
      cases hf
      rw [List.mem_singleton.mp h]
      exact outputPercent_short g v
  | str v => cases hf
  | pass v => cases hf
  | scMacList => cases hf

/-! ### Names -/

/-- Where no two entries have the same key, the search for a key finds its entry. -/
theorem find?_key {α β : Type} [DecidableEq β] {key : α → β} {l : List α}
    (h : (l.map key).Nodup) {a : α} (ha : a ∈ l) :
    l.find? (fun x => decide (key x = key a)) = some a := by
  induction l with
  | nil => cases ha
  | cons b l ih =>
      rw [List.map_cons, List.nodup_cons] at h
      obtain rfl | ha := List.mem_cons.mp ha
      · exact List.find?_cons_of_pos (by simp)
      · have hne : key b ≠ key a := fun he => h.1 (he ▸ List.mem_map_of_mem ha)
        rw [List.find?_cons_of_neg (by simpa using hne)]
        exact ih h.2 ha

/-- A name is what stands before the `=`. -/
theorem findEQ_append {i : Nat} {l : List Byte} (h : ∀ b ∈ l, b ≠ 0x20 ∧ b ≠ 0x3d) (s : List Byte) :
    findEQ i (l ++ 0x3d :: s) = i + l.length := by
  induction l generalizing i with
  | nil => rfl
  | cons b l ih =>
      obtain ⟨hb, hl⟩ := List.forall_mem_cons.mp h
      rw [List.cons_append, findEQ, if_neg hb.1, if_neg hb.2, ih hl, List.length_cons]
      omega

section Names

variable {p : Group} {a : Attr}

theorem Attr.Named.not_title (h : a.Named) : a.isTitle = false := by
  obtain ⟨hne, -, hall⟩ := h
  obtain ⟨b, l, hl⟩ := List.exists_cons_of_ne_nil hne
  have hb := hall b (hl ▸ List.mem_cons_self)
  simp only [List.mem_cons, not_or] at hb
  rw [Attr.isTitle, hl, List.head?_cons]
  exact decide_eq_false fun hhead => hb.2.2.1 (Option.some.inj hhead)

theorem Attr.Named.front (h : a.Named) : outputAttr a.attr = a.attr.bytes ++ [0x3d] :=
  if_neg (of_decide_eq_false h.not_title)

theorem Attr.Named.line (h : a.Named) : 0x0a ∉ a.attr.bytes ++ [0x3d] := by
  rw [List.mem_append, not_or]
  exact ⟨fun hlf => h.2.2 _ hlf (by decide), by decide⟩

theorem Attr.Named.front_line (h : a.Named) : 0x0a ∉ outputAttr a.attr := by
  rw [h.front]
  exact h.line

theorem written_cfgData (dev : Device) : ∀ p ∈ cfgData, ∀ a ∈ p.attrs, a.Written dev := by
  intro p hp a ha
  have hsound := sound_cfgData p hp a ha
  unfold Attr.Sound at hsound
  cases hf : a.outputfunc with
  | none =>
      rw [hf] at hsound
      obtain ⟨hhead, -, hline, -, -⟩ := hsound
      have hfront : outputAttr a.attr = a.attr.bytes := if_pos hhead
      refine ⟨?_, ?_, ?_, ?_⟩
      · intro hnil
        rw [← hfront, hnil] at hhead
        cases hhead
      · rwa [hfront]
      · rw [hf]
        exact nofun
      · rw [hf]
        exact nofun
  | some f =>
      rw [hf] at hsound
      obtain ⟨hnamed, hplain, hlist, -⟩ := hsound
      refine ⟨?_, hnamed.front_line, ?_, ?_⟩
      · rw [hnamed.front]
        exact List.append_ne_nil_of_right_ne_nil _ (List.cons_ne_nil _ _)
      · rintro f' hf'
        obtain rfl : f = f' := Option.some.inj (hf.symm.trans hf')
        exact hplain
      · intro hf'
        have hmem := commentOf_mem dev a
        rw [hlist (Option.some.inj (hf.symm.trans hf')), List.mem_singleton] at hmem
        exact hmem

theorem matchGroup_self (hp : p ∈ cfgData) : matchGroup p.group = some p :=
  find?_key cfgData_nodup hp

theorem matchAttr_self (hp : p ∈ cfgData) (ha : a ∈ p.attrs) : matchAttr a.attr p.attrs = some a :=
  find?_key (attrs_nodup p hp) ha

theorem before_append_bytes (s : CStr) (t : List Byte) :
    (CStr.before (s.bytes ++ t)).bytes = s.bytes ++ (CStr.before t).bytes :=
  List.takeWhile_append_of_pos fun _ hb => decide_eq_true (CStr.ne_zero hb)

/-- **The line of an attribute** is cut into its name and a value. -/
theorem splitLine_attr (ha : a.Named) (s : List Byte) :
    (CStr.before (a.attr.bytes ++ 0x3d :: s)).bytes.head? ≠ some 0x5b ∧
      ∃ value, splitLine (.before (a.attr.bytes ++ 0x3d :: s)) = some (a.attr, value) := by
  obtain ⟨hne, -, hall⟩ := ha
  have hbytes : (CStr.before (a.attr.bytes ++ 0x3d :: s)).bytes =
      a.attr.bytes ++ 0x3d :: (CStr.before s).bytes := before_append_bytes a.attr (0x3d :: s)
  obtain ⟨b, l, hl⟩ := List.exists_cons_of_ne_nil hne
  have hhead : (a.attr.bytes ++ 0x3d :: (CStr.before s).bytes).head? = some b := by rw [hl]; rfl
  have hb : b ∉ ([0x0a, 0x20, 0x3b, 0x3d, 0x5b] : List Byte) := hall b (hl ▸ List.mem_cons_self)
  have hname : ∀ b ∈ a.attr.bytes, b ≠ 0x20 ∧ b ≠ 0x3d := fun c hc => by
    have hno := hall c hc
    simp only [List.mem_cons, not_or] at hno
    exact ⟨hno.2.1, hno.2.2.2.1⟩
  have hfind : findEQ 0 (a.attr.bytes ++ 0x3d :: (CStr.before s).bytes) = a.attr.bytes.length := by
    rw [findEQ_append hname, Nat.zero_add]
  refine ⟨?_, ?_⟩
  · rw [hbytes, hhead]
    intro h
    cases h
    exact hb (by decide)
  · have hstart : ¬ (some b = none ∨ some b = some (0x20 : Byte)) := by
      rintro (h | h)
      · cases h
      · cases h
        exact hb (by decide)
    have hpos : ¬ a.attr.bytes.length = 0 := fun h => hne (List.length_eq_zero_iff.mp h)
    have htake : (CStr.before (a.attr.bytes ++ 0x3d :: s)).take a.attr.bytes.length = a.attr := by
      ext1
      change (CStr.before (a.attr.bytes ++ 0x3d :: s)).bytes.take _ = _
      rw [hbytes, List.take_left]
    unfold splitLine
    rw [hbytes, hhead, if_neg hstart, hfind]
    dsimp only
    rw [if_neg hpos, htake]
    exact ⟨_, rfl⟩

end Names

/-! ### Lines -/

/-- A text in lines, behind the front of its first line. -/
theorem lines_quietBehind {n : Nat} {l s : List Byte} (hl : 0x0a ∉ l) (hn : l.length ≤ n)
    (h : QuietBehind n s) : ∃ q, buffers (l ++ s) =
      q :: buffers ((s.dropWhile (· ≠ 0x0a)).drop 1) := by
  obtain ⟨hlf, hlen, -⟩ := h
  obtain ⟨t, r, rfl, ht⟩ := List.eq_append_cons_of_mem hlf
  rw [takeWhile_separated ht] at hlen
  rw [dropWhile_separated ht, List.drop_one, List.tail_cons, ← List.append_assoc, buffers,
    lines_append]
  · exact ⟨_, rfl⟩
  · rw [List.mem_append, not_or]
    exact ⟨hl, ht⟩
  · rw [List.length_append]
    omega

end Wap4410n.Editcfg
