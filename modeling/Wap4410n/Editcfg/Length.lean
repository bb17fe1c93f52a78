import Wap4410n.Editcfg.Rows

/-!
# Editcfg — how long the text is

The rows of the tables are short, but for the one of the time zone, whose comment lists 75 zones.
So the sum of the bytes has eight digits at most, and nothing stops `OutputCFG` but a list of legal
access points that does not fit.

* `length_values_le`, `length_comments_le`: the parts of a row.
* `length_groups_le`: the text without its title.
* `writeText_ok`: without legal access points the text is written.
-/

namespace Wap4410n.Editcfg

open CLib Apcfg

/-! ### Bounds -/

/-- The sum of a bound over a list. -/
def total {α : Type} (bound : α → Nat) (l : List α) : Nat := l.foldr (fun a n => bound a + n) 0

theorem length_flatMap_le {α : Type} {f : α → List Byte} {bound : α → Nat} {l : List α}
    (h : ∀ a ∈ l, (f a).length ≤ bound a) : (l.flatMap f).length ≤ total bound l := by
  induction l with
  | nil => exact Nat.le_refl 0
  | cons a l ih =>
      obtain ⟨ha, hl⟩ := List.forall_mem_cons.mp h
      rw [List.flatMap_cons, List.length_append]
      exact Nat.add_le_add ha (ih hl)

theorem foldl_add_le (l : List Byte) (n : Nat) :
    l.foldl (fun n b => n + b.toNat) n ≤ n + 255 * l.length := by
  induction l generalizing n with
  | nil => exact Nat.le_refl n
  | cons b l ih =>
      have hb := b.toNat_lt
      have hrest := ih (n + b.toNat)
      rw [List.foldl_cons, List.length_cons]
      omega

/-- The sum of a text below a limit has eight digits at most. -/
theorem checksum_ok {body : List Byte} (h : body.length ≤ 392156) :
    ∃ sum, checksum body = .ok sum := by
  have hsum := foldl_add_le body 0
  have hmod : body.foldl (fun n b => n + b.toNat) 0 % UInt32.size < 10 ^ (7 + 1) := by
    refine Nat.lt_of_le_of_lt (Nat.mod_le _ _) ?_
    omega
  have hshort : (digits 10 10 _).length ≤ 7 + 1 := length_digits_lt hmod
  unfold checksum
  dsimp only
  rw [if_neg (Nat.not_lt.mpr hshort)]
  exact ⟨_, rfl⟩

/-! ### Comments -/

theorem length_le_of_lit {s : String} {l : List Char} (h : s = String.ofList l) {n : Nat}
    (hn : l.length ≤ n) : s.length ≤ n := by
  rw [h, String.length_ofList]
  exact hn

theorem length_timeZoneLines : ∀ l ∈ timeZoneLines, l.length ≤ 75 := by
  simp only [timeZoneLines, List.forall_mem_cons]
  repeat' apply And.intro
  all_goals first | exact length_le_of_lit rfl (by decide) | exact nofun

theorem length_timeZoneStr : (ascii timeZoneStr.toList).length ≤ 5775 := by
  have hjoin (ls : List String) (h : ∀ l ∈ ls, l.length ≤ 75) :
      ((ls.map fun l => "\r\n" ++ l).map String.length).sum ≤ 77 * ls.length := by
    induction ls with
    | nil => exact Nat.le_refl 0
    | cons l ls ih =>
        obtain ⟨hl, hls⟩ := List.forall_mem_cons.mp h
        have hcrlf : "\r\n".length = 2 := rfl
        have hrest := ih hls
        rw [List.map_cons, List.map_cons, List.sum_cons, String.length_append, List.length_cons,
          hcrlf]
        omega
  rw [ascii, List.length_map, String.length_toList, timeZoneStr, String.length_join]
  exact hjoin timeZoneLines length_timeZoneLines

/-! ### Rows -/

section Rows

variable {dev : Device} {g : Globals}

theorem TextVar.size_le (v : TextVar) : v.size ≤ 257 := by
  unfold TextVar.size
  split <;> decide

theorem length_text_le (g : Globals) (v : TextVar) : (g.text v).length ≤ 257 :=
  (g.held v).fits.le.trans v.size_le

/-- Without legal access points a function writes one value. -/
theorem values_one (hlist : g.rogueApMacList.no = 0) (f : Output) :
    ∃ value, f.values g = [value] ∧ value.length ≤ 257 := by
  have hshort {n : Nat} (hn : f.width = some n) (hle : n ≤ 257) {value : List Byte}
      (h : f.values g = [value]) : value.length ≤ 257 :=
    (values_short hn (h ▸ List.mem_singleton_self value)).1.trans hle
  cases f with
  | str v => exact ⟨_, rfl, length_text_le g v⟩
  | pass v =>
      refine ⟨_, rfl, ?_⟩
      split
      · change (stars (g.text v)).length ≤ 257
        rw [length_stars]
        exact length_text_le g v
      · exact length_text_le g v
  | scMacList => exact ⟨[], if_pos hlist, Nat.zero_le _⟩
  | byte v => exact ⟨_, rfl, hshort rfl (by decide) rfl⟩
  | word v => exact ⟨_, rfl, hshort rfl (by decide) rfl⟩
  | ip v => exact ⟨_, rfl, hshort rfl (by decide) rfl⟩
  | mac v => exact ⟨_, rfl, hshort rfl (by decide) rfl⟩
  | percent v => exact ⟨_, rfl, hshort rfl (by decide) rfl⟩
  | rogueNo => exact ⟨_, rfl, hshort rfl (by decide) rfl⟩

/-- The bytes of a row, at most. -/
def Attr.bound (a : Attr) : Nat := if a.outputfunc = some (.str .timeZone) then 6200 else 700

/-- The row of the time zone. -/
def timeZoneRow : Attr := row "Time_zone" (.timeZone .timeZone) (.str .timeZone) timeZoneStr

set_option maxRecDepth 20000 in
theorem timeZone_rows : (cfgData.flatMap (·.attrs)).filter
    (fun a => a.outputfunc = some (.str .timeZone)) = [timeZoneRow] := rfl

theorem timeZoneRow_comments : timeZoneRow.comments = [ascii timeZoneStr.toList] := by
  have hother : ¬ ascii "Country_Region".toList <+: (CStr.text "Time_zone").bytes := by
    decide +kernel
  unfold Attr.comments timeZoneRow row
  dsimp only
  rw [if_neg hother]

theorem length_outputComment_le (comment : List Byte) :
    (outputComment comment).length ≤ comment.length + 3 := by
  unfold outputComment
  split
  · exact Nat.le_add_left 2 _
  · simp [crlf]

theorem length_outputAttr_le (attr : CStr) : (outputAttr attr).length ≤ attr.length + 1 := by
  unfold outputAttr
  split
  · exact Nat.le_succ _
  · simp [CStr.length]

/-- The comment of a row of the tables. -/
theorem length_commentOf_le (dev : Device) {p : Group} (hp : p ∈ cfgData) {a : Attr}
    (ha : a ∈ p.attrs) :
    a.attr.length ≤ 100 ∧ (commentOf dev a).length ≤
      if a.outputfunc = some (.str .timeZone) then 5775 else 300 := by
  have hsound := sound_cfgData p hp a ha
  have hmem := commentOf_mem dev a
  unfold Attr.Sound at hsound
  cases hf : a.outputfunc with
  | none =>
      rw [hf] at hsound
      obtain ⟨-, hshort, -, hcomment, -⟩ := hsound
      rw [hcomment, List.mem_singleton] at hmem
      rw [hmem]
      exact ⟨hshort, Nat.zero_le _⟩
  | some f =>
      rw [hf] at hsound
      obtain ⟨hnamed, -, -, hcomment, -⟩ := hsound
      refine ⟨hnamed.2.1, ?_⟩
      by_cases hzone : f = .str .timeZone
      · have hrow : a ∈ (cfgData.flatMap (·.attrs)).filter
            (fun a => a.outputfunc = some (.str .timeZone)) :=
          List.mem_filter.mpr ⟨List.mem_flatMap.mpr ⟨p, hp, ha⟩, by rw [hf, hzone]; rfl⟩
        rw [timeZone_rows, List.mem_singleton] at hrow
        rw [if_pos (congrArg some hzone)]
        rw [hrow, timeZoneRow_comments, List.mem_singleton] at hmem
        rw [hrow, hmem]
        exact length_timeZoneStr
      · rw [if_neg fun h => hzone (Option.some.inj h)]
        exact hcomment hzone _ hmem

theorem length_rowText_le (hlist : g.rogueApMacList.no = 0) {p : Group} (hp : p ∈ cfgData)
    {a : Attr} (ha : a ∈ p.attrs) : (rowText dev g a).length ≤ a.bound := by
  obtain ⟨hname, hcomment⟩ := length_commentOf_le dev hp ha
  have hone : ∃ value, a.values g = [value] ∧ value.length ≤ 257 := by
    unfold Attr.values
    cases a.outputfunc with
    | none => exact ⟨[], rfl, Nat.zero_le _⟩
    | some f => exact values_one hlist f
  obtain ⟨value, hvalue, hlen⟩ := hone
  have hfront := length_outputAttr_le a.attr
  have hend := length_outputComment_le (commentOf dev a)
  rw [rowText, hvalue, List.flatMap_singleton, attrText, List.length_append, List.length_append,
    Attr.bound]
  split at hcomment
  · rename_i hzone
    rw [if_pos hzone]
    omega
  · rename_i hzone
    rw [if_neg hzone]
    omega

/-- The bytes of a group, at most. -/
def Group.bound (p : Group) : Nat := 110 + total Attr.bound p.attrs

/-- **The text without its title** is short. -/
theorem length_groups_le (dev : Device) (hlist : g.rogueApMacList.no = 0) :
    (cfgData.flatMap (groupText dev g)).length ≤ 392156 := by
  have hgroup : ∀ p ∈ cfgData, (groupText dev g p).length ≤ p.bound := by
    intro p hp
    have hname : p.group.bytes.length ≤ 100 := (groups_named p hp).2.1
    have hrows : (p.attrs.flatMap (rowText dev g)).length ≤ total Attr.bound p.attrs :=
      length_flatMap_le fun a ha => length_rowText_le hlist hp ha
    have hlines : (outputGroup p.group).length = p.group.bytes.length + 6 := by
      simp [outputGroup, crlf]
    rw [groupText, List.length_append, hlines, Group.bound]
    omega
  have htotal : total Group.bound cfgData ≤ 392156 := by
    decide +kernel
  exact (length_flatMap_le hgroup).trans htotal

end Rows

/-! ### Writing -/

section Write

variable {dev : Device} {g g' : Globals}

theorem writeAttr_ok (dev : Device) (a : Attr) (h : g.rogueApMacList.no = 0) (b : List Byte) :
    ∃ w : Written, writeAttr dev a (b, g) = .ok w ∧ w.2.rogueApMacList.no = 0 := by
  unfold writeAttr
  cases a.outputfunc with
  | none => exact ⟨_, rfl, h⟩
  | some f =>
      cases f with
      | pass v =>
          refine ⟨_, rfl, ?_⟩
          change (if g.byte .secShow ≠ 0 then g.setText v (g.held v).star
            else g).rogueApMacList.no = 0
          split <;> exact h
      | scMacList =>
          have hnone : outputScMacList g (b ++ outputAttr a.attr) = .ok ([], g) := by
            unfold outputScMacList
            exact if_pos h
          dsimp only
          rw [Output.run, hnone]
          exact ⟨_, rfl, h⟩
      | byte | word | ip | mac | str | percent | rogueNo => exact ⟨_, rfl, h⟩

theorem writeAttrs_ok (dev : Device) (as : List Attr) {w : Written}
    (h : w.2.rogueApMacList.no = 0) :
    ∃ w', writeAttrs dev as w = .ok w' ∧ w'.2.rogueApMacList.no = 0 := by
  induction as generalizing w with
  | nil => exact ⟨w, rfl, h⟩
  | cons a as ih =>
      obtain ⟨w₁, hone, h₁⟩ := writeAttr_ok dev a h w.1
      rw [writeAttrs, hone]
      exact ih h₁

theorem writeGroups_ok (dev : Device) (ps : List Group) {w : Written}
    (h : w.2.rogueApMacList.no = 0) :
    ∃ w', writeGroups dev ps w = .ok w' ∧ w'.2.rogueApMacList.no = 0 := by
  induction ps generalizing w with
  | nil => exact ⟨w, rfl, h⟩
  | cons p ps ih =>
      obtain ⟨w₁, hone, h₁⟩ := writeAttrs_ok dev p.attrs (w := (w.1 ++ outputGroup p.group, w.2)) h
      rw [writeGroups, hone]
      exact ih h₁

/-- **Without legal access points the text is written.** -/
theorem writeText_ok (hversion : dev.version.length < 20) (h : g.rogueApMacList.no = 0) :
    ∃ w, writeText dev g = .ok w := by
  have hhead : outputTitle dev g =
      .ok (titleLines dev g ++ (checksumLine ++ (List.replicate 8 0x30 ++ [0x0a]))) :=
    if_neg (Nat.not_le.mpr hversion)
  obtain ⟨⟨buff, g'⟩, hgroups, -⟩ := writeGroups_ok dev cfgData
    (w := (titleLines dev g ++ (checksumLine ++ (List.replicate 8 0x30 ++ [0x0a])), g)) h
  obtain ⟨-, hbuff⟩ := writeGroups_blocks (written_cfgData dev) (Kept.refl g) _ hgroups
  obtain ⟨sum, hsum⟩ := checksum_ok (length_groups_le dev h)
  unfold writeText
  rw [hhead, Run.ok_bind, hgroups, Run.ok_bind]
  dsimp only at hbuff ⊢
  rw [hbuff, List.drop_left, hsum]
  exact ⟨_, rfl⟩

end Write

end Wap4410n.Editcfg
