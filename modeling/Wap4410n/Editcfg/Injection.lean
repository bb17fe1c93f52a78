import Wap4410n.Editcfg.Length

/-!
# Editcfg — what an exported text is read back as

A value is written as it is, and the text is read in pieces of 128 bytes at most: what stands behind
a line feed in a value, or behind the first piece of a long line, is a line of its own to the
parser. Where such a line starts with a bracket or is an attribute of the group, part of a value is
read as another attribute or as the name of a group.

The text is read as it is written if each block of it is: the name of a group as this name, the
lines of an attribute as the attribute, and as nothing else (`ReadAsWritten`).  The attributes of
numbers and addresses always are; a text is if no line of it behind the first is one that the parser
takes for something (`Inert`).  Behind the last attribute of a group the parser may leave the group,
since the name of the next group follows (`Quiet`).

* `readBlocks_group`: a group, block by block.
* `textBlocks_readAsWritten`: when the blocks are read as they are written.
* `outputCFG_readBack`: when a text is read back as it was written.
* `hostName_injects`: a host name with a line feed.
-/

namespace Wap4410n.Editcfg

open CLib Apcfg

/-! ### Blocks -/

/-- A part of the text, and what it is written as. -/
structure Block where
  items : List Item
  text : List Byte

/-- An attribute with a value. -/
def attrBlock (dev : Device) (p : Group) (a : Attr) (value : List Byte) : Block where
  items := if a.isTitle then [] else [.attr p a]
  text := attrText dev a value

/-- The attributes of a group with their values, as they are written. -/
def written (g : Globals) (p : Group) : List (Attr × List Byte) :=
  p.attrs.flatMap fun a => (a.values g).map fun value => (a, value)

/-- The name and the attributes of a group. -/
def groupBlocks (dev : Device) (g : Globals) (p : Group) : List Block :=
  ⟨[.group p.group], outputGroup p.group⟩ ::
    (written g p).map fun r => attrBlock dev p r.1 r.2

/-- The title and the groups. -/
def textBlocks (dev : Device) (g : Globals) (sum : List Byte) : List Block :=
  ⟨[], titleText dev g sum⟩ :: cfgData.flatMap (groupBlocks dev g)

/-- What is read in each block. -/
def readBlocks : Option Group → List Block → List (List Item)
  | _, [] => []
  | st, b :: bs =>
    (readAll st (buffers b.text)).1.map Prod.fst :: readBlocks (readAll st (buffers b.text)).2 bs

/-- The blocks are read as what they are written as. -/
def ReadAsWritten (bs : List Block) : Prop := readBlocks none bs = bs.map Block.items

/-! ### Lines behind the first -/

/-- The parser takes the line for nothing. -/
def Inert (p : Group) (buffer : CStr) : Prop :=
  buffer.bytes.head? ≠ some 0x5b ∧ readAttr p buffer = []

/-- The parser takes the lines for nothing, though it may leave the group. -/
def Quiet (p : Group) : List CStr → Prop
  | [] => True
  | buffer :: fp =>
    if buffer.bytes.head? = some 0x5b then
      ∀ b ∈ buffer :: fp, (bracketed b).length = 0
    else readAttr p buffer = [] ∧ Quiet p fp

theorem readBetween_nil {buffer : CStr} :
    (readBetween buffer).1 = [] ↔ (bracketed buffer).length = 0 := by
  unfold readBetween
  split
  · rename_i h
    exact iff_of_true rfl h
  · rename_i h
    exact iff_of_false (List.cons_ne_nil _ _) h

theorem readBetween_none {buffer : CStr} (h : (bracketed buffer).length = 0) :
    readBetween buffer = ([], none) := if_pos h

/-- Between groups, lines without a name in brackets. -/
theorem readAll_none_nil (fp : List CStr) :
    (readAll none fp).1 = [] ↔ ∀ b ∈ fp, (bracketed b).length = 0 := by
  induction fp with
  | nil => exact iff_of_true rfl nofun
  | cons buffer fp ih =>
      rw [readAll_cons, readLine, List.append_eq_nil_iff, readBetween_nil, List.forall_mem_cons]
      refine and_congr_right fun h => ?_
      rw [readBetween_none h]
      exact ih

theorem readAll_none_state {fp : List CStr} (h : ∀ b ∈ fp, (bracketed b).length = 0) :
    (readAll none fp).2 = none := by
  induction fp with
  | nil => rfl
  | cons buffer fp ih =>
      obtain ⟨hb, hfp⟩ := List.forall_mem_cons.mp h
      rw [readAll_cons, readLine, readBetween_none hb]
      exact ih hfp

/-- Lines in a group that are taken for nothing. -/
theorem readAll_quiet (p : Group) (fp : List CStr) :
    (readAll (some p) fp).1 = [] ↔ Quiet p fp := by
  induction fp with
  | nil => exact iff_of_true rfl trivial
  | cons buffer fp ih =>
      rw [readAll_cons, readLine, Quiet]
      split
      · rw [List.forall_mem_cons, List.append_eq_nil_iff, readBetween_nil]
        refine and_congr_right fun h => ?_
        rw [readBetween_none h, readAll_none_nil]
      · rw [List.append_eq_nil_iff]
        exact and_congr_right fun _ => ih

/-- Behind them the parser is in the group, or between groups. -/
theorem readAll_quiet_state {p : Group} {fp : List CStr} (h : (readAll (some p) fp).1 = []) :
    (readAll (some p) fp).2 = some p ∨ (readAll (some p) fp).2 = none := by
  induction fp with
  | nil => exact .inl rfl
  | cons buffer fp ih =>
      rw [readAll_cons, readLine] at h ⊢
      split at h
      · rename_i hbracket
        obtain ⟨hnone, hrest⟩ := List.append_eq_nil_iff.mp h
        rw [readBetween_none (readBetween_nil.mp hnone)] at hrest
        rw [if_pos hbracket, readBetween_none (readBetween_nil.mp hnone)]
        exact .inr (readAll_none_state ((readAll_none_nil fp).mp hrest))
      · rename_i hbracket
        rw [if_neg hbracket]
        exact ih (List.append_eq_nil_iff.mp h).2

/-- Lines in a group that are taken for nothing and do not end it. -/
theorem readAll_inert (p : Group) (fp : List CStr) :
    (readAll (some p) fp).1 = [] ∧ (readAll (some p) fp).2 = some p ↔ ∀ b ∈ fp, Inert p b := by
  induction fp with
  | nil => exact iff_of_true ⟨rfl, rfl⟩ nofun
  | cons buffer fp ih =>
      rw [List.forall_mem_cons, ← ih, readAll_cons, readLine]
      by_cases hbracket : buffer.bytes.head? = some 0x5b
      · rw [if_pos hbracket, List.append_eq_nil_iff, readBetween_nil]
        refine iff_of_false ?_ fun h => h.1.1 hbracket
        rintro ⟨⟨hnone, hrest⟩, hstate⟩
        rw [readBetween_none hnone] at hrest hstate
        rw [readAll_none_state ((readAll_none_nil fp).mp hrest)] at hstate
        cases hstate
      · rw [if_neg hbracket, List.append_eq_nil_iff, Inert, and_iff_right hbracket]
        exact and_assoc

theorem Quiet.of_inert {p : Group} {fp : List CStr} (h : ∀ b ∈ fp, Inert p b) : Quiet p fp :=
  (readAll_quiet p fp).mp ((readAll_inert p fp).mpr h).1

/-! ### Groups -/

/-- The lines of a block behind the first. -/
def Block.rest (b : Block) : List CStr := (buffers b.text).tail

/-- A block whose first line is read in the group as the block. -/
structure Opens (p : Group) (b : Block) : Prop where
  first : ∃ q value, buffers b.text = q :: b.rest ∧
    readLine (some p) q = (b.items.map fun i => (i, value), some p)

/-- A block that is an attribute of the group. -/
structure IsAttr (p : Group) (b : Block) : Prop extends Opens p b where
  attr : ∃ a, b.items = [.attr p a]

theorem map_fst_items {items : List Item} {value : CStr} :
    (items.map fun i => ((i, value) : Reading)).map Prod.fst = items := by
  rw [List.map_map]
  exact List.map_id _

theorem readAll_opens {p : Group} {b : Block} (h : Opens p b) :
    (readAll (some p) (buffers b.text)).1.map Prod.fst =
        b.items ++ (readAll (some p) b.rest).1.map Prod.fst ∧
      (readAll (some p) (buffers b.text)).2 = (readAll (some p) b.rest).2 := by
  obtain ⟨q, value, hlines, hfirst⟩ := h.first
  rw [hlines, readAll_cons, hfirst]
  exact ⟨by rw [List.map_append, map_fst_items], rfl⟩

/-- Between groups a name in brackets comes first. -/
theorem readAll_none_head (fp : List CStr) : (readAll none fp).1 = [] ∨
    ∃ name items, (readAll none fp).1 = (.group name, .empty) :: items := by
  induction fp with
  | nil => exact .inl rfl
  | cons buffer fp ih =>
      rw [readAll_cons, readLine, readBetween]
      split
      · exact ih
      · exact .inr ⟨_, _, rfl⟩

/-- Between groups no attribute is read. -/
theorem readAll_none_attr {p : Group} {b : Block} (h : IsAttr p b) :
    (readAll none (buffers b.text)).1.map Prod.fst ≠ b.items := by
  obtain ⟨a, ha⟩ := h.attr
  rw [ha]
  obtain hnil | ⟨name, items, hcons⟩ := readAll_none_head (buffers b.text)
  · rw [hnil]
    exact nofun
  · rw [hcons]
    intro heq
    cases heq

/-- What the lines of a group behind the first of each block have to be. -/
structure GroupSpared (p : Group) (bs : List Block) : Prop where
  inert : ∀ b ∈ bs.dropLast, ∀ q ∈ b.rest, Inert p q
  quiet : ∀ b ∈ bs.getLast?, Quiet p b.rest

/-- **A group, block by block**: each is read as it is written if the lines behind the first are
taken for nothing. -/
theorem readBlocks_group {p : Group} {bs : List Block} (hopens : ∀ b ∈ bs, Opens p b)
    (hattrs : ∀ b ∈ bs.tail, IsAttr p b) :
    readBlocks (some p) bs = bs.map Block.items ↔ GroupSpared p bs := by
  induction bs with
  | nil => exact iff_of_true rfl ⟨nofun, nofun⟩
  | cons b bs ih =>
      obtain ⟨hitems, hstate⟩ := readAll_opens (hopens b List.mem_cons_self)
      have hown : b.items ++ (readAll (some p) b.rest).1.map Prod.fst = b.items ↔
          (readAll (some p) b.rest).1 = [] := by
        rw [List.append_right_eq_self, List.map_eq_nil_iff]
      rw [readBlocks, List.map_cons, List.cons.injEq, hitems, hstate, hown]
      cases bs with
      | nil =>
          rw [readAll_quiet]
          constructor
          · rintro ⟨hquiet, -⟩
            refine ⟨nofun, fun b' hb' => ?_⟩
            cases hb'
            exact hquiet
          · intro h
            exact ⟨h.quiet b rfl, rfl⟩
      | cons b' bs =>
          have hattr : IsAttr p b' := hattrs b' List.mem_cons_self
          have ih := ih (fun b hb => hopens b (List.mem_cons_of_mem _ hb))
            (fun b hb => hattrs b (List.mem_cons_of_mem _ hb))
          constructor
          · rintro ⟨hnone, hrest⟩
            -- the attribute behind is read, so that the group has not ended
            have hstay : (readAll (some p) b.rest).2 = some p := by
              refine (readAll_quiet_state hnone).resolve_right fun hleft => ?_
              rw [hleft, readBlocks, List.map_cons, List.cons.injEq] at hrest
              exact readAll_none_attr hattr hrest.1
            rw [hstay] at hrest
            have hspared := ih.mp hrest
            have hinert := (readAll_inert p b.rest).mp ⟨hnone, hstay⟩
            refine ⟨fun c hc => ?_, fun c hc => hspared.quiet c (by simpa using hc)⟩
            rw [List.dropLast_cons_cons, List.mem_cons] at hc
            obtain rfl | hc := hc
            · exact hinert
            · exact hspared.inert c hc
          · intro h
            have hinert := h.inert b (by simp)
            obtain ⟨hnone, hstay⟩ := (readAll_inert p b.rest).mpr hinert
            refine ⟨hnone, ?_⟩
            rw [hstay, ih]
            exact ⟨fun b hb => h.inert b (by simp [hb]), fun b hb => h.quiet b (by simpa using hb)⟩

/-! ### The groups -/

/-- A group of the tables: its name is read as it is written, and finds the group. -/
structure Group.Named (p : Group) : Prop where
  name_ne : p.group.length ≠ 0
  line : 0x0a ∉ p.group.bytes
  bracket : 0x5d ∉ p.group.bytes
  short : p.group.length ≤ 100
  found : matchGroup p.group = some p

/-- **The name of a group** is read as it is written, wherever the parser is. -/
theorem readAll_outputGroup {p : Group} (hp : p.Named) (st : Option Group) :
    readAll st (buffers (outputGroup p.group)) = ([(.group p.group, .empty)], some p) := by
  have hlen : p.group.bytes.length ≤ 100 := hp.short
  have hline : (0x0a : Byte) ∉ 0x5b :: (p.group.bytes ++ [0x5d, 0x0d]) := by
    simp [hp.line]
  have htext : outputGroup p.group =
      [0x0d] ++ 0x0a :: ((0x5b :: (p.group.bytes ++ [0x5d, 0x0d])) ++ 0x0a :: []) := by
    simp [outputGroup, crlf]
  have hlines : lines 127 (outputGroup p.group) =
      [[0x0d, 0x0a], (0x5b :: (p.group.bytes ++ [0x5d, 0x0d])) ++ [0x0a]] := by
    rw [htext, lines_append (by decide) (by decide), lines_append hline]
    · rfl
    · simp
      omega
  have hbytes : (CStr.before (0x5b :: (p.group.bytes ++ [0x5d, 0x0d]) ++ [0x0a])).bytes =
      0x5b :: (p.group.bytes ++ 0x5d :: [0x0d, 0x0a]) := by
    rw [CStr.bytes_before]
    · simp
    · simp [p.group.noNul]
  have hname : bracketed (.before (0x5b :: (p.group.bytes ++ [0x5d, 0x0d]) ++ [0x0a])) =
      p.group := by
    have hdrop : (0x5b :: (p.group.bytes ++ 0x5d :: [0x0d, 0x0a])).dropWhile (· ≠ 0x5b) =
        0x5b :: (p.group.bytes ++ 0x5d :: [0x0d, 0x0a]) := rfl
    rw [bracketed, hbytes, hdrop]
    dsimp only
    rw [if_pos (by simp), takeWhile_separated hp.bracket]
    exact CStr.before_bytes _
  have hbetween : readBetween (.before (0x5b :: (p.group.bytes ++ [0x5d, 0x0d]) ++ [0x0a])) =
      ([(.group p.group, .empty)], some p) := by
    rw [readBetween, hname, if_neg hp.name_ne, hp.found]
  have hsecond (st : Option Group) :
      readLine st (.before (0x5b :: (p.group.bytes ++ [0x5d, 0x0d]) ++ [0x0a])) =
        ([(.group p.group, .empty)], some p) := by
    cases st with
    | none => exact hbetween
    | some q =>
        rw [readLine, hbytes, List.head?_cons, if_pos rfl]
        exact hbetween
  have hfirst : readLine st (.before [0x0d, 0x0a]) = ([], st) := by
    cases st with
    | none => rfl
    | some q =>
        have hnothing : splitLine (.before [0x0d, 0x0a]) = none := by decide
        rw [readLine, if_neg (by decide), readAttr, hnothing]
  rw [buffers, hlines, List.map_cons, List.map_cons, readAll_cons, hfirst, readAll_cons, hsecond]
  rfl

/-! ### The text, block by block -/

theorem length_readBlocks (st : Option Group) (bs : List Block) :
    (readBlocks st bs).length = bs.length := by
  induction bs generalizing st with
  | nil => rfl
  | cons b bs ih => rw [readBlocks, List.length_cons, List.length_cons, ih]

/-- Where the blocks leave the parser. -/
def stateBehind : Option Group → List Block → Option Group
  | st, [] => st
  | st, b :: bs => stateBehind (readAll st (buffers b.text)).2 bs

theorem readBlocks_append (st : Option Group) (bs bs' : List Block) :
    readBlocks st (bs ++ bs') = readBlocks st bs ++ readBlocks (stateBehind st bs) bs' := by
  induction bs generalizing st with
  | nil => rfl
  | cons b bs ih => rw [List.cons_append, readBlocks, ih, readBlocks, stateBehind, List.cons_append]

theorem append_eq_append_iff {α : Type} {l₁ l₂ m₁ m₂ : List α} (h : l₁.length = m₁.length) :
    l₁ ++ l₂ = m₁ ++ m₂ ↔ l₁ = m₁ ∧ l₂ = m₂ :=
  ⟨fun heq => List.append_inj heq h, fun ⟨h₁, h₂⟩ => by rw [h₁, h₂]⟩

/-- **The groups are read one by one**, since each name is read. -/
theorem readBlocks_groups {dev : Device} {g : Globals} {ps : List Group}
    (hps : ∀ p ∈ ps, p.Named) (st : Option Group) :
    readBlocks st (ps.flatMap (groupBlocks dev g)) =
        (ps.flatMap (groupBlocks dev g)).map Block.items ↔
      ∀ p ∈ ps, readBlocks (some p) ((written g p).map fun r => attrBlock dev p r.1 r.2) =
        ((written g p).map fun r => attrBlock dev p r.1 r.2).map Block.items := by
  induction ps generalizing st with
  | nil => exact iff_of_true rfl nofun
  | cons p ps ih =>
      have hname := readAll_outputGroup (hps p List.mem_cons_self) st
      have hrest := ih fun q hq => hps q (List.mem_cons_of_mem _ hq)
      rw [List.forall_mem_cons, List.flatMap_cons, groupBlocks, List.cons_append, readBlocks,
        hname, readBlocks_append]
      simp only [List.map_cons, List.map_append, List.map_nil]
      rw [List.cons.injEq, and_iff_right rfl, append_eq_append_iff (by
        simp only [length_readBlocks, List.length_map]), hrest]

/-! ### Rows -/

theorem Group.named {p : Group} (hp : p ∈ cfgData) : p.Named := by
  obtain ⟨hne, hshort, hline, hbracket⟩ := groups_named p hp
  exact {
    name_ne := hne
    line := hline
    bracket := hbracket
    short := hshort
    found := matchGroup_self hp }

/-- An attribute whose value is a text. -/
def Attr.IsText (a : Attr) : Prop := ∃ f ∈ a.outputfunc, f.width = none

section Rows

variable {dev : Device} {p : Group} {a : Attr} {g : Globals} {value : List Byte}

/-- The row of a line without a value. -/
theorem Attr.Titled.opens (h : a.Titled) (hvalue : value = []) :
    Opens p (attrBlock dev p a value) ∧ (attrBlock dev p a value).rest = [] := by
  obtain ⟨hhead, hshort, hline, hcomment, hsplit⟩ := h
  have hno : commentOf dev a = [] := by
    have hmem := commentOf_mem dev a
    rwa [hcomment, List.mem_singleton] at hmem
  have htext : attrText dev a value = (a.attr.bytes ++ [0x0d]) ++ 0x0a :: [] := by
    rw [attrText, outputAttr, if_pos hhead, hvalue, hno]
    simp [outputComment, crlf]
  have hlines : buffers (attrText dev a value) = [.before (a.attr.bytes ++ crlf)] := by
    rw [htext, buffers, lines_append]
    · simp [crlf]
    · simp [hline]
    · rw [List.length_append, List.length_singleton]
      rw [CStr.length] at hshort
      omega
  have hstart : (CStr.before (a.attr.bytes ++ crlf)).bytes.head? = some 0x3b := by
    obtain ⟨b, l, hl⟩ := List.exists_cons_of_ne_nil (l := a.attr.bytes) fun hnil => by
      rw [hnil] at hhead
      cases hhead
    rw [hl] at hhead
    rw [before_append_bytes, hl]
    exact hhead
  have hitems : (attrBlock dev p a value).items = [] := if_pos (decide_eq_true hhead)
  have hrest : (attrBlock dev p a value).rest = [] := by
    rw [Block.rest, attrBlock, hlines]
    rfl
  refine ⟨⟨_, .empty, by rw [hrest]; exact hlines, ?_⟩, hrest⟩
  rw [hitems, readLine, hstart, if_neg (by decide), readAttr, hsplit]
  rfl

/-- The row of an attribute. -/
theorem Attr.Named.opens (h : a.Named) (hp : p ∈ cfgData) (ha : a ∈ p.attrs) :
    IsAttr p (attrBlock dev p a value) := by
  have hitems : (attrBlock dev p a value).items = [.attr p a] :=
    if_neg (by rw [h.not_title]; decide)
  have hshort : (a.attr.bytes ++ [0x3d]).length ≤ 128 := by
    have hlen := h.2.1
    rw [CStr.length] at hlen
    rw [List.length_append, List.length_singleton]
    omega
  obtain ⟨r, ls, hlines⟩ := lines_prefix (n := 127) h.line hshort
    (s := value ++ outputComment (commentOf dev a)) (by simp)
  rw [← h.front, ← attrText, h.front, List.append_assoc] at hlines
  obtain ⟨hbracket, v, hsplit⟩ := splitLine_attr h r
  have hbuffers : buffers (attrBlock dev p a value).text =
      .before (a.attr.bytes ++ 0x3d :: r) :: ls.map .before := by
    rw [buffers, attrBlock, hlines]
    rfl
  refine ⟨⟨.before (a.attr.bytes ++ 0x3d :: r), v, ?_, ?_⟩, a, hitems⟩
  · rw [Block.rest, hbuffers]
    rfl
  · rw [hitems, readLine, if_neg hbracket, readAttr, hsplit]
    dsimp only
    rw [matchAttr_self hp ha]
    rfl

/-- Behind a number or an address the lines of the comment are taken for nothing. -/
theorem Attr.Named.rest_inert (h : a.Named) {f : Output} {n : Nat} (hn : f.width = some n)
    (hquiet : ∀ comment ∈ a.comments, QuietBehind (a.attr.length + 1 + n) (outputComment comment))
    (hvalue : value ∈ f.values g) : ∀ q ∈ (attrBlock dev p a value).rest, Inert p q := by
  have hcomment := hquiet _ (commentOf_mem dev a)
  obtain ⟨hlen, hline⟩ := values_short hn hvalue
  have hfront : 0x0a ∉ outputAttr a.attr ++ value := by
    rw [h.front, List.mem_append, not_or]
    exact ⟨h.line, hline⟩
  have hshort : (outputAttr a.attr ++ value).length ≤ a.attr.length + 1 + n := by
    rw [h.front, List.length_append, List.length_append, List.length_singleton]
    exact Nat.add_le_add_left hlen _
  obtain ⟨q, hlines⟩ := lines_quietBehind hfront hshort hcomment
  intro b hb
  rw [Block.rest, attrBlock, attrText, ← List.append_assoc, hlines, List.tail_cons] at hb
  obtain ⟨hbracket, hsplit⟩ := hcomment.2.2 b hb
  exact ⟨hbracket, by rw [readAttr, hsplit]⟩

theorem mem_written {r : Attr × List Byte} (hr : r ∈ written g p) :
    r.1 ∈ p.attrs ∧ r.2 ∈ r.1.values g := by
  obtain ⟨a, ha, hr⟩ := List.mem_flatMap.mp hr
  obtain ⟨value, hvalue, rfl⟩ := List.mem_map.mp hr
  exact ⟨ha, hvalue⟩

/-- **The lines of a row**: the first is the row, and the others are taken for nothing where the
value is not a text. -/
theorem written_opens (hp : p ∈ cfgData) {r : Attr × List Byte} (hr : r ∈ written g p) :
    Opens p (attrBlock dev p r.1 r.2) ∧
      (¬ r.1.IsText → ∀ q ∈ (attrBlock dev p r.1 r.2).rest, Inert p q) := by
  obtain ⟨a, value⟩ := r
  obtain ⟨ha, hvalue⟩ := mem_written hr
  have hsound := sound_cfgData p hp a ha
  unfold Attr.Sound at hsound
  dsimp only at ha hvalue ⊢
  unfold Attr.values at hvalue
  cases hf : a.outputfunc with
  | none =>
      rw [hf] at hsound hvalue
      have hopens : Opens p (attrBlock dev p a value) ∧ (attrBlock dev p a value).rest = [] :=
        hsound.opens (List.mem_singleton.mp hvalue)
      refine ⟨hopens.1, fun _ q hq => ?_⟩
      rw [hopens.2] at hq
      cases hq
  | some f =>
      rw [hf] at hsound hvalue
      obtain ⟨hnamed, -, -, -, hquiet⟩ := hsound
      refine ⟨(hnamed.opens hp ha).toOpens, fun hno => ?_⟩
      cases hn : f.width with
      | none => exact absurd ⟨f, hf, hn⟩ hno
      | some n => exact hnamed.rest_inert hn (hquiet n hn) hvalue

/-- Behind the first row of a group stand attributes only. -/
theorem written_tail (hp : p ∈ cfgData) :
    ∀ r ∈ (written g p).tail, IsAttr p (attrBlock dev p r.1 r.2) := by
  have hattr : ∀ a ∈ p.attrs, a.outputfunc ≠ none →
      ∀ value, IsAttr p (attrBlock dev p a value) := by
    intro a ha hf value
    have hsound := sound_cfgData p hp a ha
    unfold Attr.Sound at hsound
    cases hout : a.outputfunc with
    | none => exact absurd hout hf
    | some f =>
        rw [hout] at hsound
        exact hsound.1.opens hp ha
  have htail := attrs_tail p hp
  intro r hr
  cases has : p.attrs with
  | nil =>
      rw [written, has] at hr
      cases hr
  | cons a as =>
      rw [has, List.tail_cons] at htail
      have hbehind : ∀ r ∈ as.flatMap fun a => (a.values g).map fun value => (a, value),
          IsAttr p (attrBlock dev p r.1 r.2) := by
        intro r hr
        obtain ⟨a', ha', hr⟩ := List.mem_flatMap.mp hr
        obtain ⟨value, -, rfl⟩ := List.mem_map.mp hr
        exact hattr a' (has ▸ List.mem_cons_of_mem a ha') (htail a' ha') value
      cases hf : a.outputfunc with
      | none =>
          have hone : written g p =
              (a, []) :: as.flatMap fun a => (a.values g).map fun value => (a, value) := by
            rw [written, has, List.flatMap_cons, Attr.values, hf]
            rfl
          rw [hone, List.tail_cons] at hr
          exact hbehind r hr
      | some f =>
          obtain ⟨hmem, -⟩ := mem_written (List.mem_of_mem_tail hr)
          refine hattr r.1 hmem ?_ r.2
          rw [has] at hmem
          obtain hfirst | hmem := List.mem_cons.mp hmem
          · rw [hfirst, hf]
            exact nofun
          · exact htail r.1 hmem

end Rows

/-! ### The condition -/

/-- The lines of the texts of a group, behind the first line of each, are taken for nothing. -/
structure RowsSpared (dev : Device) (p : Group) (rows : List (Attr × List Byte)) : Prop where
  inert : ∀ r ∈ rows.dropLast, r.1.IsText →
    ∀ q ∈ (buffers (attrText dev r.1 r.2)).tail, Inert p q
  quiet : ∀ r ∈ rows.getLast?, r.1.IsText → Quiet p (buffers (attrText dev r.1 r.2)).tail

/-- **Nothing is injected**: no line of the title has a name in brackets, and no line of a text
behind its first is taken for something. -/
structure Uninjected (dev : Device) (g : Globals) : Prop where
  title : ∀ q ∈ buffers (titleLines dev g), (bracketed q).length = 0
  rows : ∀ p ∈ cfgData, RowsSpared dev p (written g p)

theorem groupSpared_iff {dev : Device} {p : Group} {g : Globals} (hp : p ∈ cfgData) :
    GroupSpared p ((written g p).map fun r => attrBlock dev p r.1 r.2) ↔
      RowsSpared dev p (written g p) := by
  have hfixed {r : Attr × List Byte} (hr : r ∈ written g p) (htext : ¬ r.1.IsText) :
      ∀ q ∈ (attrBlock dev p r.1 r.2).rest, Inert p q := (written_opens hp hr).2 htext
  constructor
  · rintro ⟨hinert, hquiet⟩
    rw [← List.map_dropLast] at hinert
    rw [List.getLast?_map] at hquiet
    exact {
      inert := fun r hr _ => hinert _ (List.mem_map_of_mem hr)
      quiet := fun r hr _ => hquiet _ (Option.mem_map_of_mem _ hr) }
  · rintro ⟨hinert, hquiet⟩
    constructor
    · rw [← List.map_dropLast]
      intro b hb
      obtain ⟨r, hr, rfl⟩ := List.mem_map.mp hb
      by_cases htext : r.1.IsText
      · exact hinert r hr htext
      · exact hfixed (List.dropLast_subset _ hr) htext
    · rw [List.getLast?_map]
      intro b hb
      obtain ⟨r, hr, rfl⟩ := Option.map_eq_some_iff.mp hb
      by_cases htext : r.1.IsText
      · exact hquiet r hr htext
      · exact .of_inert (hfixed (List.mem_of_getLast? hr) htext)

/-! ### The text -/

/-- Behind a line feed reading starts anew. -/
theorem buffers_append (l s : List Byte) :
    buffers (l ++ [0x0a] ++ s) = buffers (l ++ [0x0a]) ++ buffers s := by
  rw [buffers, List.append_assoc, List.singleton_append, lines_concat, List.map_append]
  rfl

/-- **Blocks that end with a line feed** are read one after the other. -/
theorem readAll_blocks {bs : List Block} (hbs : ∀ b ∈ bs, ∃ l, b.text = l ++ [0x0a])
    (st : Option Group) :
    (readAll st (buffers (bs.flatMap Block.text))).1.map Prod.fst =
      (readBlocks st bs).flatten := by
  induction bs generalizing st with
  | nil => rfl
  | cons b bs ih =>
      obtain ⟨l, hl⟩ := hbs b List.mem_cons_self
      rw [List.flatMap_cons, hl, buffers_append, ← hl, readAll_append, List.map_append,
        ih fun b hb => hbs b (List.mem_cons_of_mem _ hb)]
      rfl

section Text

variable {dev : Device} {g : Globals}

theorem groupBlocks_text (p : Group) :
    (groupBlocks dev g p).flatMap Block.text = groupText dev g p := by
  have hrows : ((written g p).map fun r => attrBlock dev p r.1 r.2).flatMap Block.text =
      p.attrs.flatMap (rowText dev g) := by
    rw [List.flatMap_map, written, List.flatMap_assoc]
    congr 1
    funext a
    rw [List.flatMap_map]
    rfl
  rw [groupBlocks, List.flatMap_cons, hrows]
  rfl

theorem titleLines_line (dev : Device) (g : Globals) : ∃ l, titleLines dev g = l ++ [0x0a] := by
  refine List.getLast?_eq_some_iff.mp ?_
  simp only [titleLines, List.getLast?_append, List.getLast?_cons, List.getLast?_nil,
    Option.some_or, Option.getD_none, Option.getD_some]

/-- The text is that of the blocks. -/
theorem textBlocks_text (sum : List Byte) : (textBlocks dev g sum).flatMap Block.text =
    titleText dev g sum ++ cfgData.flatMap (groupText dev g) := by
  rw [textBlocks, List.flatMap_cons, List.flatMap_assoc]
  congr 2
  funext p
  exact groupBlocks_text p

theorem textBlocks_lines (sum : List Byte) :
    ∀ b ∈ textBlocks dev g sum, ∃ l, b.text = l ++ [0x0a] := by
  intro b hb
  obtain rfl | hb := List.mem_cons.mp hb
  · refine ⟨titleLines dev g ++ (checksumLine ++ sum), ?_⟩
    simp only [titleText, List.append_assoc]
  · obtain ⟨p, -, hb⟩ := List.mem_flatMap.mp hb
    obtain rfl | hb := List.mem_cons.mp hb
    · refine ⟨crlf ++ 0x5b :: (p.group.bytes ++ [0x5d, 0x0d]), ?_⟩
      simp [outputGroup, crlf]
    · obtain ⟨r, -, rfl⟩ := List.mem_map.mp hb
      obtain ⟨l, hl⟩ := attrText_crlf dev r.1 r.2
      refine ⟨l ++ [0x0d], ?_⟩
      rw [attrBlock, hl]
      simp [crlf]

theorem bracketed_none {q : CStr} (h : 0x5b ∉ q.bytes) : (bracketed q).length = 0 := by
  have hdrop : q.bytes.dropWhile (· ≠ 0x5b) = [] :=
    List.dropWhile_eq_nil_iff.mpr fun _ hb => decide_eq_true fun he => h (he ▸ hb)
  rw [bracketed, hdrop]
  rfl

/-- The lines of a text without a bracket. -/
theorem buffers_bracketed {s : List Byte} (h : 0x5b ∉ s) :
    ∀ q ∈ buffers s, (bracketed q).length = 0 := by
  intro q hq
  obtain ⟨l, hl, rfl⟩ := List.mem_map.mp hq
  refine bracketed_none fun hb => h ?_
  rw [← flatten_lines 127 s]
  exact List.mem_flatten.mpr ⟨l, hl, (List.takeWhile_sublist _).subset hb⟩

/-- The sum is written in digits and spaces. -/
theorem checksum_bracket {body sum : List Byte} (h : checksum body = .ok sum) : 0x5b ∉ sum := by
  unfold checksum at h
  dsimp only at h
  split at h
  · cases h
  · cases h
    rw [List.mem_append, not_or]
    exact ⟨fun hb => absurd (isDigit_digits hb) (by decide),
      fun hb => absurd (List.eq_of_mem_replicate hb) (by decide)⟩

/-- **When the text is read as it is written.** -/
theorem textBlocks_readAsWritten {sum : List Byte} (hsum : 0x5b ∉ sum) :
    ReadAsWritten (textBlocks dev g sum) ↔ Uninjected dev g := by
  have hgroups : (∀ p ∈ cfgData, readBlocks (some p)
        ((written g p).map fun r => attrBlock dev p r.1 r.2) =
          ((written g p).map fun r => attrBlock dev p r.1 r.2).map Block.items) ↔
      ∀ p ∈ cfgData, RowsSpared dev p (written g p) := by
    refine forall_congr' fun p => forall_congr' fun hp => ?_
    rw [← groupSpared_iff hp]
    refine readBlocks_group (fun b hb => ?_) fun b hb => ?_
    · obtain ⟨r, hr, rfl⟩ := List.mem_map.mp hb
      exact (written_opens hp hr).1
    · rw [← List.map_tail] at hb
      obtain ⟨r, hr, rfl⟩ := List.mem_map.mp hb
      exact written_tail hp r hr
  have hlast : 0x5b ∉ checksumLine ++ (sum ++ [0x0a]) := by
    have hline : 0x5b ∉ checksumLine := by decide
    simp [hline, hsum]
  have htitle : (readAll none (buffers (titleText dev g sum))).1.map Prod.fst = [] ↔
      ∀ q ∈ buffers (titleLines dev g), (bracketed q).length = 0 := by
    obtain ⟨l, hl⟩ := titleLines_line dev g
    rw [List.map_eq_nil_iff, readAll_none_nil, titleText, hl, buffers_append,
      List.forall_mem_append]
    exact and_iff_left (buffers_bracketed hlast)
  rw [ReadAsWritten, textBlocks, readBlocks, List.map_cons, List.cons.injEq, htitle,
    readBlocks_groups (fun p hp => Group.named hp), hgroups]
  exact ⟨fun h => ⟨h.1, h.2⟩, fun h => ⟨h.title, h.rows⟩⟩

end Text

/-! ### Reading back -/

/-- What the parser recognises in a text. -/
def recognised (text : List Byte) : List Item := (readAll none (buffers text)).1.map Prod.fst

/-- The groups and the rows that are written, in order. -/
def rowsWritten (g : Globals) : List Item :=
  cfgData.flatMap fun p => .group p.group ::
    (written g p).flatMap fun r => if r.1.isTitle then [] else [.attr p r.1]

/-- A text is read as the rows it was written from, and each of its rows as this row alone. -/
structure ReadBack (dev : Device) (g : Globals) (text : List Byte) : Prop where
  items : recognised text = rowsWritten g
  blocks : ∃ sum, text = (textBlocks dev g sum).flatMap Block.text ∧
    ReadAsWritten (textBlocks dev g sum)

theorem textBlocks_items (dev : Device) (g : Globals) (sum : List Byte) :
    ((textBlocks dev g sum).map Block.items).flatten = rowsWritten g := by
  rw [← List.flatMap_def, textBlocks, List.flatMap_cons, List.flatMap_assoc, List.nil_append,
    rowsWritten]
  congr 1
  funext p
  rw [groupBlocks, List.flatMap_cons, List.flatMap_map]
  rfl

/-- A text whose blocks are read as they are written. -/
theorem readBack_iff {dev : Device} {g : Globals} {sum : List Byte} (hsum : 0x5b ∉ sum) :
    ReadBack dev g ((textBlocks dev g sum).flatMap Block.text) ↔ Uninjected dev g := by
  constructor
  · rintro ⟨-, sum', htext, hblocks⟩
    rw [textBlocks_text, textBlocks_text] at htext
    have hsame : sum = sum' := by
      have hbody := List.append_cancel_right htext
      simpa [titleText] using hbody
    rw [← hsame] at hblocks
    exact (textBlocks_readAsWritten hsum).mp hblocks
  · intro h
    have hblocks := (textBlocks_readAsWritten hsum).mpr h
    refine ⟨?_, sum, rfl, hblocks⟩
    rw [recognised, readAll_blocks (textBlocks_lines sum), hblocks, textBlocks_items]

/-- **A text is read back as it was written** if and only if nothing is injected. -/
theorem outputCFG_readBack {dev : Device} {g₀ g g' : Globals} {c : Config} {text : List Byte}
    (hget : ((outputCFGGet dev).run g₀ c).1 = .ok g)
    (hrun : (outputCFG dev g₀ c).1 = .ok (text, g')) : ReadBack dev g text ↔ Uninjected dev g := by
  have hpair : (outputCFGGet dev).run g₀ c = (.ok g, ((outputCFGGet dev).run g₀ c).2) :=
    Prod.ext hget rfl
  rw [outputCFG, Act.bind_ok hpair] at hrun
  obtain ⟨sum, hsum, rfl⟩ := writeText_blocks (written_cfgData dev) hrun
  rw [← textBlocks_text]
  exact readBack_iff (checksum_bracket hsum)

/-! ### A host name with a line feed -/

/-- Where the variables are filled and there are no legal access points, a text is written. -/
theorem outputCFG_ok (dev : Device) {g₀ g : Globals} {c : Config}
    (hversion : dev.version.length < 20) (hlist : g.rogueApMacList.no = 0)
    (hget : ((outputCFGGet dev).run g₀ c).1 = .ok g) : ∃ w, (outputCFG dev g₀ c).1 = .ok w := by
  have hpair : (outputCFGGet dev).run g₀ c = (.ok g, ((outputCFGGet dev).run g₀ c).2) :=
    Prod.ext hget rfl
  rw [outputCFG, Act.bind_ok hpair]
  exact writeText_ok hversion hlist

/-- Settings of which the RADIUS servers alone are set. -/
def fewSettings : Config where
  get k :=
    if k = .vap 0 0 .radiusServer ∨ k = .vap 0 0 .backupRadiusServer then .text "0.0.0.0"
    else .empty
  flags := []
  closed := false

theorem outputCFG_readBack_fewSettings :
    ∃ g w, ((outputCFGGet Device.bare).run .initial fewSettings).1 = .ok g ∧
      (outputCFG Device.bare .initial fewSettings).1 = .ok w ∧
      (ReadBack Device.bare g w.1 ↔ Uninjected Device.bare g) := by
  have hfilled : ((outputCFGGet Device.bare).run .initial fewSettings).1.toOption.any
      (fun g => decide (g.rogueApMacList.no = 0)) = true := by
    decide +kernel
  cases hget : ((outputCFGGet Device.bare).run .initial fewSettings).1 with
  | error e =>
      rw [hget] at hfilled
      cases hfilled
  | ok g =>
      rw [hget] at hfilled
      have hlist : g.rogueApMacList.no = 0 := of_decide_eq_true hfilled
      obtain ⟨w, hw⟩ := outputCFG_ok Device.bare (by decide) hlist hget
      exact ⟨g, w, rfl, hw, outputCFG_readBack hget hw⟩

/-- A host name with the line of another attribute. -/
def lineInName : CStr := .text "x\nLanguage=1"

/-- The settings with this host name. -/
def namedSettings : Config := (apCfgSysNameSet lineInName fewSettings).2

theorem not_uninjected {dev : Device} {g : Globals} (h : g.text .apName = lineInName) :
    ¬ Uninjected dev g := by
  intro hspared
  let basicGroup : Group := ⟨.text "BASIC", basic⟩
  let hostName : Attr := row "Host_Name" (.assignStr40 .apName) (.str .apName) ""
  have hfirst : (hostName, lineInName.bytes) ∈ (written g basicGroup).dropLast := by
    have hcons : ∃ r rest, written g basicGroup = (hostName, lineInName.bytes) :: r :: rest := by
      rw [← h]
      exact ⟨_, _, rfl⟩
    obtain ⟨r, rest, hcons⟩ := hcons
    rw [hcons, List.dropLast_cons_cons]
    exact List.mem_cons_self
  have hinert := (hspared.rows basicGroup (.head _)).inert _ hfirst ⟨_, rfl, rfl⟩
  have hcomment : commentOf dev hostName = [] := by
    have hother : ¬ ascii "Country_Region".toList <+: (CStr.text "Host_Name").bytes := by
      decide +kernel
    exact if_neg hother
  have hread : ∃ q ∈ (buffers (outputAttr hostName.attr ++ (lineInName.bytes ++
      outputComment []))).tail, (readAttr basicGroup q).length = 1 := by
    decide +kernel
  obtain ⟨q, hq, hlen⟩ := hread
  have hq' : q ∈ (buffers (attrText dev hostName lineInName.bytes)).tail := by
    rw [attrText, hcomment]
    exact hq
  rw [(hinert q hq').2] at hlen
  cases hlen

/-- **The line in the host name** is read as an attribute of its own. -/
theorem hostName_injects : (apCfgSysNameSet lineInName fewSettings).1 = .ok .ok ∧
    ∃ g w, ((outputCFGGet Device.bare).run .initial namedSettings).1 = .ok g ∧
      (outputCFG Device.bare .initial namedSettings).1 = .ok w ∧
      ¬ ReadBack Device.bare g w.1 := by
  have hstored : (apCfgSysNameSet lineInName fewSettings).1 = .ok .ok := by
    decide +kernel
  have hfilled : ((outputCFGGet Device.bare).run .initial namedSettings).1.toOption.any
      (fun g => decide (g.rogueApMacList.no = 0 ∧ g.text .apName = lineInName)) = true := by
    decide +kernel
  refine ⟨hstored, ?_⟩
  cases hget : ((outputCFGGet Device.bare).run .initial namedSettings).1 with
  | error e =>
      rw [hget] at hfilled
      cases hfilled
  | ok g =>
      rw [hget] at hfilled
      obtain ⟨hlist, hname⟩ :
          g.rogueApMacList.no = 0 ∧ g.text .apName = lineInName := of_decide_eq_true hfilled
      obtain ⟨⟨text, g'⟩, hw⟩ := outputCFG_ok Device.bare (by decide) hlist hget
      refine ⟨g, (text, g'), rfl, hw, fun hback => ?_⟩
      have hpair : (outputCFGGet Device.bare).run .initial namedSettings =
          (.ok g, ((outputCFGGet Device.bare).run .initial namedSettings).2) := Prod.ext hget rfl
      rw [outputCFG, Act.bind_ok hpair] at hw
      obtain ⟨sum, hsum, rfl⟩ := writeText_blocks (written_cfgData Device.bare) hw
      rw [← textBlocks_text] at hback
      exact not_uninjected hname ((readBack_iff (checksum_bracket hsum)).mp hback)

end Wap4410n.Editcfg
