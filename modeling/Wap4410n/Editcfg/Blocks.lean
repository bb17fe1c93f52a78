import Wap4410n.Editcfg.LegalList
import Wap4410n.Editcfg.Secrets

/-!
# Editcfg — the text in blocks

The text is a sequence of blocks: the title, a line with the name for each group, and for each
attribute its name, its value and its comment.  A block ends with a line feed.  The values are those
of the variables as the text is begun (`Output.values`): what is overwritten while it is written,
secrets by stars and the counter of the list of legal access points, is not read again (`Kept`).

* `run_values`: what a function writes.
* `writeText_blocks`: the text is that of its blocks.
-/

namespace Wap4410n.Editcfg

open CLib Apcfg

/-! ### Blocks -/

/-- The entries of the list of legal access points that are to be written. -/
def RogueAPMacList.entries (p : RogueAPMacList) : List (List Byte) :=
  (List.range' p.outNo.toNat (p.no.toNat - p.outNo.toNat)).map p.mac

/-- The values a variable is written with: one, and one for each entry of the list. -/
def Output.values (g : Globals) : Output → List (List Byte)
  | byte v => [decimalText (g.byte v).toNat]
  | word v => [decimalText (g.word v).toNat]
  | ip v => [outputIP g v]
  | mac v => [outputMac g v]
  | str v => [(g.text v).bytes]
  | pass v => [if g.byte .secShow ≠ 0 then (stars (g.text v)).bytes else (g.text v).bytes]
  | percent v => [outputPercent g v]
  | rogueNo => [decimalText g.rogueApMacList.no.toNat]
  | scMacList => if g.rogueApMacList.no = 0 then [[]] else g.rogueApMacList.entries

/-- The values an attribute is written with. -/
def Attr.values (g : Globals) (a : Attr) : List (List Byte) :=
  match a.outputfunc with
  | none => [[]]
  | some outputfunc => outputfunc.values g

/-- The lines of an attribute with a value. -/
def attrText (dev : Device) (a : Attr) (value : List Byte) : List Byte :=
  outputAttr a.attr ++ (value ++ outputComment (commentOf dev a))

/-- The lines of an attribute. -/
def rowText (dev : Device) (g : Globals) (a : Attr) : List Byte :=
  (a.values g).flatMap (attrText dev a)

/-- The lines of a group. -/
def groupText (dev : Device) (g : Globals) (p : Group) : List Byte :=
  outputGroup p.group ++ p.attrs.flatMap (rowText dev g)

/-- The lines of the title. -/
def titleText (dev : Device) (g : Globals) (sum : List Byte) : List Byte :=
  titleLines dev g ++ (checksumLine ++ (sum ++ [0x0a]))

/-! ### What is written -/

/-- The variables that are overwritten with stars. -/
def TextVar.Passed : TextVar → Bool
  | loginPasswd | authSSecret1 | authSSecret2 | key _ _ | preShared _ => true
  | _ => false

/-- A function that shows no variable that may have been overwritten. -/
def Output.Plain : Output → Bool
  | str v => !v.Passed
  | pass v => v.Passed
  | _ => true

/-- What the variables keep while they are written. -/
structure Kept (g g' : Globals) : Prop where
  byte : g'.byte = g.byte
  word : g'.word = g.word
  addr : g'.addr = g.addr
  mac : g'.mac = g.mac
  no : g'.rogueApMacList.no = g.rogueApMacList.no
  list : g'.rogueApMacList.mac = g.rogueApMacList.mac
  outNo : g'.rogueApMacList.outNo = g.rogueApMacList.outNo ∨
    g'.rogueApMacList.outNo = g.rogueApMacList.no
  text : ∀ v, v.Passed = false → g'.text v = g.text v
  passed : ∀ v, g'.text v = g.text v ∨
    g.byte .secShow ≠ 0 ∧ g'.text v = stars (g.text v)

theorem Kept.refl (g : Globals) : Kept g g :=
  ⟨rfl, rfl, rfl, rfl, rfl, rfl, .inl rfl, fun _ _ => rfl, fun _ => .inl rfl⟩

section Write

variable {g g' g'' : Globals}

/-- A secret is written, and overwritten with stars. -/
theorem outputPass_kept (h : Kept g g') {v : TextVar} (hv : v.Passed = true) :
    (Output.pass v).values g = [(outputPass g' v).1] ∧ Kept g (outputPass g' v).2 := by
  unfold Output.values outputPass
  dsimp only
  rw [h.byte]
  by_cases hshow : g.byte .secShow = 0
  · have htext : g'.text v = g.text v :=
      (h.passed v).resolve_right fun hstar => hstar.1 hshow
    rw [if_neg (not_not_intro hshow), if_neg (not_not_intro hshow), htext]
    exact ⟨rfl, h⟩
  · have hstar : stars (g'.text v) = stars (g.text v) := by
      obtain htext | ⟨-, htext⟩ := h.passed v
      · rw [htext]
      · rw [htext, stars_stars]
    rw [if_pos hshow, if_pos hshow, Globals.text_setText_self]
    refine ⟨congrArg (fun s => [CStr.bytes s]) hstar.symm, ?_⟩
    have hother (w : TextVar) (hw : w ≠ v) :
        (g'.setText v (g'.held v).star).text w = g'.text w := by
      simp [Globals.text, Globals.setText, hw]
    exact {
      byte := h.byte
      word := h.word
      addr := h.addr
      mac := h.mac
      no := h.no
      list := h.list
      outNo := h.outNo
      text := by
        intro w hw
        have hne : w ≠ v := by
          rintro rfl
          rw [hv] at hw
          cases hw
        rw [hother w hne]
        exact h.text w hw
      passed := by
        intro w
        by_cases hne : w = v
        · subst hne
          rw [Globals.text_setText_self]
          exact .inr ⟨hshow, hstar⟩
        · rw [hother w hne]
          exact h.passed w }

/-- The line that is being written, behind a line that has ended. -/
theorem lineSoFar_append (b : List Byte) {t : List Byte} (ht : 0x0a ∉ t) (hne : t ≠ []) :
    lineSoFar (b ++ (crlf ++ t)) = crlf ++ t := by
  have hback : (b ++ (crlf ++ t)).reverse = t.reverse ++ 0x0a :: 0x0d :: b.reverse := by
    simp [crlf]
  have hpos : 0 < t.length := List.length_pos_iff.mpr hne
  have hdrop : (t.reverse ++ 0x0a :: 0x0d :: b.reverse).drop 1 =
      t.reverse.drop 1 ++ 0x0a :: 0x0d :: b.reverse :=
    List.drop_append_of_le_length (by
      rw [List.length_reverse]
      exact hpos)
  have hidx : (t.reverse.drop 1 ++ 0x0a :: 0x0d :: b.reverse).findIdx (· = 0x0a) =
      t.length - 1 := by
    have hnone : ∀ b ∈ t.reverse.drop 1, decide (b = 0x0a) = false := fun b hb =>
      decide_eq_false fun h => ht (h ▸ List.mem_reverse.mp (List.mem_of_mem_drop hb))
    rw [List.findIdx_append, List.findIdx_eq_length_of_false hnone, if_neg (Nat.lt_irrefl _)]
    simp [List.findIdx_cons]
  unfold lineSoFar
  dsimp only
  rw [hback, hdrop, hidx]
  have hlen : t.length - 1 + 3 = t.reverse.length + 2 := by
    rw [List.length_reverse]
    omega
  rw [hlen, List.take_length_add_append]
  simp [crlf]

/-- The addresses, each behind the front of its line. -/
theorem outputMacs_lines {p : RogueAPMacList} {t : List Byte} : ∀ {n : Nat} {k : UInt16},
    k.toNat + n = acNo → ∀ {s : List Byte} {last : UInt16},
    outputMacs p (crlf ++ t) n k = .ok (s, last) →
      t ++ (s ++ crlf) =
        ((List.range' k.toNat (p.no.toNat - k.toNat)).map p.mac).flatMap fun e => t ++ (e ++ crlf)
  | 0, k, _, s, last, h => by cases h
  | n + 1, k, hn, s, last, h => by
      have hk : k.toNat < acNo := by omega
      have hsucc := toNat_succ hk
      rw [outputMacs] at h
      split at h
      · rename_i hlast
        cases h
        have hcount : p.no.toNat - k.toNat = 1 := by
          rw [hlast, hsucc]
          omega
        rw [hcount]
        simp
      · obtain ⟨⟨rest, l⟩, hrest, h⟩ := Run.bind_eq_ok.mp h
        cases h
        obtain ⟨hlt, -, -⟩ | ⟨-, he⟩ := outputMacs_exact (p := p) (crlf ++ t) (n := n) (k := k + 1)
          (by omega)
        · have ih := outputMacs_lines (n := n) (k := k + 1) (by omega) hrest
          have hcount : p.no.toNat - k.toNat = (p.no.toNat - (k.toNat + 1)) + 1 := by omega
          rw [hsucc] at ih
          rw [hcount, List.range'_succ, List.map_cons, List.flatMap_cons, ← ih]
          simp [List.append_assoc]
        · rw [he] at hrest
          cases hrest

/-- The list of legal access points is written, a line for each entry. -/
theorem outputScMacList_kept (h : Kept g g') (b : List Byte) {t : List Byte} (ht : 0x0a ∉ t)
    (hne : t ≠ []) {s : List Byte}
    (hrun : outputScMacList g' (b ++ (crlf ++ t)) = .ok (s, g'')) :
    Kept g g'' ∧ t ++ (s ++ crlf) =
      (Output.scMacList.values g).flatMap fun e => t ++ (e ++ crlf) := by
  unfold outputScMacList at hrun
  rw [lineSoFar_append b ht hne] at hrun
  dsimp only at hrun
  rw [Output.values]
  split at hrun
  · rename_i hno
    cases hrun
    rw [h.no] at hno
    rw [if_pos hno]
    exact ⟨h, (List.flatMap_singleton _ _).symm⟩
  · rename_i hno
    rw [h.no] at hno
    rw [if_neg hno]
    split at hrun
    · cases hrun
    · obtain ⟨⟨s', last⟩, hmacs, hrun⟩ := Run.bind_eq_ok.mp hrun
      cases hrun
      by_cases hout : g'.rogueApMacList.outNo.toNat ≤ acNo
      · have hsum := Nat.add_sub_of_le hout
        have hlines := outputMacs_lines hsum hmacs
        obtain ⟨hlt, -, s₁, hs₁⟩ | ⟨-, he⟩ := outputMacs_exact (p := g'.rogueApMacList)
          (crlf ++ t) hsum
        · rw [hs₁] at hmacs
          cases hmacs
          have hfirst : g'.rogueApMacList.outNo = g.rogueApMacList.outNo := by
            refine h.outNo.resolve_right fun hdone => ?_
            rw [hdone, h.no] at hlt
            exact Nat.lt_irrefl _ hlt
          refine ⟨⟨h.byte, h.word, h.addr, h.mac, h.no, h.list, .inr h.no, h.text, h.passed⟩, ?_⟩
          rw [hlines, hfirst, h.no, h.list]
          rfl
        · rw [he] at hmacs
          cases hmacs
      · rw [Nat.sub_eq_zero_of_le (by omega)] at hmacs
        cases hmacs

/-- **What a function writes**, behind the front of its line. -/
theorem run_values (h : Kept g g') {f : Output} (hf : f.Plain = true) (b : List Byte)
    {t : List Byte} (ht : 0x0a ∉ t) (hne : t ≠ []) {s : List Byte}
    (hrun : f.run (b ++ (crlf ++ t)) g' = .ok (s, g'')) :
    Kept g g'' ∧ (f = .scMacList ∧ t ++ (s ++ crlf) =
        (f.values g).flatMap (fun e => t ++ (e ++ crlf)) ∨ f.values g = [s]) := by
  cases f with
  | scMacList =>
      obtain ⟨hkept, hlines⟩ := outputScMacList_kept h b ht hne hrun
      exact ⟨hkept, .inl ⟨rfl, hlines⟩⟩
  | pass v =>
      obtain ⟨hvalue, hkept⟩ := outputPass_kept h (v := v) hf
      cases hrun
      exact ⟨hkept, .inr hvalue⟩
  | str v =>
      have htext := h.text v (by simpa [Output.Plain] using hf)
      cases hrun
      exact ⟨h, .inr (congrArg (fun s => [CStr.bytes s]) htext.symm)⟩
  | byte v =>
      cases hrun
      exact ⟨h, .inr (by rw [Output.values, h.byte])⟩
  | word v =>
      cases hrun
      exact ⟨h, .inr (by rw [Output.values, h.word])⟩
  | ip v =>
      cases hrun
      exact ⟨h, .inr (by rw [Output.values, outputIP, outputIP, h.addr])⟩
  | mac v =>
      cases hrun
      exact ⟨h, .inr (by rw [Output.values, outputMac, outputMac, h.mac])⟩
  | percent v =>
      cases hrun
      exact ⟨h, .inr (by rw [Output.values, outputPercent, outputPercent, h.word])⟩
  | rogueNo =>
      cases hrun
      exact ⟨h, .inr (by rw [Output.values, h.no])⟩

/-! ### The text -/

/-- An attribute of the tables: its name has no line feed, it shows no variable that may have been
overwritten, and the list of legal access points has no comment. -/
structure Attr.Written (dev : Device) (a : Attr) : Prop where
  name_ne : outputAttr a.attr ≠ []
  name_line : 0x0a ∉ outputAttr a.attr
  plain : ∀ f ∈ a.outputfunc, f.Plain = true
  comment : a.outputfunc = some .scMacList → commentOf dev a = []

theorem outputComment_crlf (comment : List Byte) : ∃ b, outputComment comment = b ++ crlf := by
  unfold outputComment
  split
  · exact ⟨[], rfl⟩
  · exact ⟨0x20 :: comment, rfl⟩

theorem attrText_crlf (dev : Device) (a : Attr) (value : List Byte) :
    ∃ b, attrText dev a value = b ++ crlf := by
  obtain ⟨b, hb⟩ := outputComment_crlf (commentOf dev a)
  refine ⟨outputAttr a.attr ++ (value ++ b), ?_⟩
  rw [attrText, hb]
  simp [List.append_assoc]

/-- An attribute is written behind a line that has ended. -/
theorem writeAttr_blocks {dev : Device} {a : Attr} (ha : a.Written dev) (h : Kept g g')
    (b : List Byte) {w : Written} (hw : writeAttr dev a (b ++ crlf, g') = .ok w) :
    Kept g w.2 ∧ w.1 = b ++ crlf ++ rowText dev g a ∧ ∃ b', w.1 = b' ++ crlf := by
  have hend (w₁ : List Byte) (value : List Byte) :
      ∃ b', w₁ ++ attrText dev a value = b' ++ crlf := by
    obtain ⟨b', hb'⟩ := attrText_crlf dev a value
    exact ⟨w₁ ++ b', by rw [hb', List.append_assoc]⟩
  unfold writeAttr at hw
  unfold rowText Attr.values
  cases hf : a.outputfunc with
  | none =>
      rw [hf] at hw
      cases hw
      have hlines : b ++ crlf ++ outputAttr a.attr ++ ([] ++ outputComment (commentOf dev a)) =
          b ++ crlf ++ attrText dev a [] := by
        rw [attrText, List.append_assoc]
      refine ⟨h, ?_, ?_⟩
      · rw [List.flatMap_singleton]
        exact hlines
      · rw [hlines]
        exact hend _ []
  | some f =>
      rw [hf] at hw
      dsimp only at hw ⊢
      obtain ⟨⟨s, g₁⟩, hrun, hw⟩ := Run.bind_eq_ok.mp hw
      cases hw
      rw [List.append_assoc] at hrun
      obtain ⟨hkept, ⟨rfl, hlines⟩ | hvalue⟩ :=
        run_values h (ha.plain f hf) b ha.name_line ha.name_ne hrun
      · -- a line for each entry of the list
        have hcomment : outputComment (commentOf dev a) = crlf := by
          rw [ha.comment hf]
          rfl
        have htext : attrText dev a = fun value => outputAttr a.attr ++ (value ++ crlf) := by
          funext value
          rw [attrText, hcomment]
        have hall : b ++ crlf ++ outputAttr a.attr ++ (s ++ outputComment (commentOf dev a)) =
            b ++ crlf ++ (Output.scMacList.values g).flatMap (attrText dev a) := by
          rw [hcomment, htext, List.append_assoc, hlines]
        have hone : b ++ crlf ++ outputAttr a.attr ++ (s ++ outputComment (commentOf dev a)) =
            b ++ crlf ++ attrText dev a s := by
          rw [hcomment, htext, List.append_assoc]
        refine ⟨hkept, hall, ?_⟩
        dsimp only
        rw [hone]
        exact hend _ s
      · have hlines : b ++ crlf ++ outputAttr a.attr ++ (s ++ outputComment (commentOf dev a)) =
            b ++ crlf ++ attrText dev a s := by
          rw [attrText, List.append_assoc]
        refine ⟨hkept, ?_, ?_⟩
        · rw [hvalue, List.flatMap_singleton]
          exact hlines
        · rw [hlines]
          exact hend _ s

theorem writeAttrs_blocks {dev : Device} {as : List Attr} (has : ∀ a ∈ as, a.Written dev)
    (h : Kept g g') (b : List Byte) {w : Written} (hw : writeAttrs dev as (b ++ crlf, g') = .ok w) :
    Kept g w.2 ∧ w.1 = b ++ crlf ++ as.flatMap (rowText dev g) := by
  induction as generalizing g' b with
  | nil =>
      cases hw
      exact ⟨h, (List.append_nil _).symm⟩
  | cons a as ih =>
      rw [writeAttrs] at hw
      obtain ⟨⟨w₁, g₁⟩, hone, hw⟩ := Run.bind_eq_ok.mp hw
      obtain ⟨hkept, htext, b', hb'⟩ := writeAttr_blocks (has a List.mem_cons_self) h b hone
      dsimp only at hkept htext hb'
      rw [hb'] at hw
      obtain ⟨hkept', hrest⟩ := ih (fun a ha => has a (List.mem_cons_of_mem _ ha)) hkept b' hw
      refine ⟨hkept', ?_⟩
      rw [hrest, ← hb', htext, List.flatMap_cons, List.append_assoc]

theorem writeGroups_blocks {dev : Device} {ps : List Group}
    (hps : ∀ p ∈ ps, ∀ a ∈ p.attrs, a.Written dev) (h : Kept g g') (buff : List Byte) {w : Written}
    (hw : writeGroups dev ps (buff, g') = .ok w) :
    Kept g w.2 ∧ w.1 = buff ++ ps.flatMap (groupText dev g) := by
  induction ps generalizing g' buff with
  | nil =>
      cases hw
      exact ⟨h, (List.append_nil _).symm⟩
  | cons p ps ih =>
      rw [writeGroups] at hw
      obtain ⟨⟨w₁, g₁⟩, hone, hw⟩ := Run.bind_eq_ok.mp hw
      have hgroup : buff ++ outputGroup p.group =
          buff ++ crlf ++ 0x5b :: (p.group.bytes ++ [0x5d]) ++ crlf := by
        simp [outputGroup, List.append_assoc]
      dsimp only at hone
      rw [hgroup] at hone
      obtain ⟨hkept, htext⟩ := writeAttrs_blocks (hps p List.mem_cons_self) h _ hone
      rw [← hgroup] at htext
      dsimp only at hkept htext
      obtain ⟨hkept', hrest⟩ := ih (fun q hq => hps q (List.mem_cons_of_mem _ hq)) hkept w₁ hw
      refine ⟨hkept', ?_⟩
      rw [hrest, htext, List.flatMap_cons, groupText]
      simp only [List.append_assoc]

theorem Kept.titleLines (h : Kept g g') (dev : Device) :
    titleLines dev g' = titleLines dev g := by
  rw [Editcfg.titleLines, Editcfg.titleLines, h.mac, h.text .apPin rfl]

/-- **The text is that of its blocks.** -/
theorem writeText_blocks {dev : Device} (hall : ∀ p ∈ cfgData, ∀ a ∈ p.attrs, a.Written dev)
    {text : List Byte} (hw : writeText dev g = .ok (text, g')) :
    ∃ sum, checksum (cfgData.flatMap (groupText dev g)) = .ok sum ∧
      text = titleText dev g sum ++ cfgData.flatMap (groupText dev g) := by
  unfold writeText at hw
  obtain ⟨head, -, hw⟩ := Run.bind_eq_ok.mp hw
  obtain ⟨⟨buff, g₁⟩, hgroups, hw⟩ := Run.bind_eq_ok.mp hw
  dsimp only at hw
  obtain ⟨sum, hsum, hw⟩ := Run.bind_eq_ok.mp hw
  cases hw
  obtain ⟨hkept, hbuff⟩ := writeGroups_blocks hall (Kept.refl g) head hgroups
  dsimp only at hkept hbuff
  rw [hbuff, List.drop_left] at hsum ⊢
  refine ⟨sum, hsum, ?_⟩
  rw [hkept.titleLines, titleText]
  simp only [List.append_assoc, List.cons_append, List.nil_append]

end Write

end Wap4410n.Editcfg
