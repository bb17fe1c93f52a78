import Wap4410n.Editcfg.Rows
import Wap4410n.Editcfg.Tokenizer

/-!
# Editcfg — the file and its lines

What the loops of `parseCFG` do with a file, its position and its arrays is what `parseLines` does
with the lines of the file.  One thing is not in the lines: behind an attribute `SSID` the code asks
for `attribute[5]`, which is then what the array held before.  Its value may differ for that
(`SameAttr`); but no group has an attribute of this name.

* `getaGroup_lines`, `getaAttr_lines`: the two functions take the lines they are said to take.
* `parseCFG_lines`: the loops return, with what `parseLines` returns.
* `parseCFG_readAll`: the file is assigned what is recognised in it, and nothing else.
-/

namespace Wap4410n.Editcfg.Tokenizer

open CLib Apcfg

/-! ### Where a file is -/

/-- What is left of a file is these lines. -/
structure AtLines (fp : InFile) (ls : List CStr) : Prop where
  exhausted : fp.Exhausted
  lines : buffers fp.rest = ls

variable {fp fp' : InFile} {ls : List CStr}

theorem atLines_fopen (content : List Byte) : AtLines (.fopen content) (buffers content) :=
  ⟨InFile.exhausted_fopen content, rfl⟩

theorem AtLines.of_eof (h : AtLines fp ls) (heof : fp.eof = true) : ls = [] := by
  rw [← h.lines, h.exhausted heof]
  rfl

/-- A line is read, or an empty buffer behind the last. -/
theorem AtLines.read (h : AtLines fp ls) :
    (ls = [] ∧ CStr.before (fp.chunk 127) = .empty ∧ AtLines (fp.afterChunk 127) []) ∨
      ∃ ls', ls = .before (fp.chunk 127) :: ls' ∧ AtLines (fp.afterChunk 127) ls' := by
  have hend : (fp.afterChunk 127).Exhausted := h.exhausted.afterChunk 127
  by_cases hrest : fp.rest = []
  · have hnil := InFile.rest_afterChunk_nil 127 fp hrest
    refine .inl ⟨?_, ?_, hend, ?_⟩
    · rw [← h.lines, hrest]
      rfl
    · rw [InFile.chunk_nil 127 fp hrest]
      rfl
    · rw [hnil]
      rfl
  · refine .inr ⟨_, ?_, hend, rfl⟩
    rw [← h.lines, buffers, InFile.lines_afterChunk 127 fp hrest]
    rfl

/-- A loop that returned did so from where its turns keep it. -/
theorem loop_from {σ ρ : Type} {step : σ → σ ⊕ Tok ρ} {I : σ → Prop}
    (hstep : ∀ s s', I s → step s = .inl s' → I s') {fuel : Nat} {s : σ} {r : ρ} (hs : I s)
    (h : loop step fuel s = .ok r) : ∃ s', I s' ∧ step s' = .inr (.ok r) := by
  rw [loop] at h
  cases hrun : Loop.run step fuel s with
  | none =>
      rw [hrun] at h
      cases h
  | some x =>
      rw [hrun] at h
      obtain rfl : x = .ok r := h
      exact Loop.Returns.of_invariant hstep hs ⟨fuel, hrun⟩

/-! ### `GetaGroup` and `GetaAttr` -/

/-- **`GetaGroup` on the lines.** -/
theorem getaGroup_lines {fuel : Nat} {group : CStr} (h : AtLines fp ls)
    (hr : getaGroup fuel fp = .ok (group, fp')) :
    group = (Editcfg.getaGroup ls).1 ∧ AtLines fp' (Editcfg.getaGroup ls).2 := by
  have hturn : ∀ s s', (∃ ls₁, AtLines s ls₁ ∧ Editcfg.getaGroup ls₁ = Editcfg.getaGroup ls) →
      getaGroupTurn s = .inl s' →
      ∃ ls₁, AtLines s' ls₁ ∧ Editcfg.getaGroup ls₁ = Editcfg.getaGroup ls := by
    rintro s s' ⟨ls₁, hat, hsame⟩ hs
    by_cases heof : s.eof = true
    · rw [getaGroupTurn, if_pos heof] at hs
      cases hs
    · obtain ⟨hname, hnext⟩ | ⟨-, hname⟩ := getaGroupTurn_cases (Bool.eq_false_iff.mpr heof)
      · obtain rfl := Sum.inl.inj (hnext.symm.trans hs)
        obtain ⟨rfl, -, hat'⟩ | ⟨ls₂, rfl, hat'⟩ := hat.read
        · exact ⟨[], hat', hsame⟩
        · rw [Editcfg.getaGroup, if_pos hname] at hsame
          exact ⟨ls₂, hat', hsame⟩
      · rw [hname] at hs
        cases hs
  obtain ⟨s, ⟨ls₁, hat, hsame⟩, hs⟩ := loop_from hturn ⟨ls, h, rfl⟩ hr
  rw [← hsame]
  by_cases heof : s.eof = true
  · rw [getaGroupTurn, if_pos heof] at hs
    obtain ⟨rfl, rfl⟩ := Prod.mk.inj (Except.ok.inj (Sum.inr.inj hs))
    obtain rfl := hat.of_eof heof
    exact ⟨rfl, hat⟩
  · obtain ⟨-, hnext⟩ | ⟨hname, hfound⟩ := getaGroupTurn_cases (Bool.eq_false_iff.mpr heof)
    · rw [hnext] at hs
      cases hs
    · rw [hfound] at hs
      obtain ⟨rfl, rfl⟩ := Prod.mk.inj (Except.ok.inj (Sum.inr.inj hs))
      obtain ⟨-, hempty, -⟩ | ⟨ls₂, rfl, hat'⟩ := hat.read
      · rw [hempty] at hname
        exact absurd rfl hname
      · rw [Editcfg.getaGroup, if_neg hname]
        exact ⟨rfl, hat'⟩

/-- **`GetaAttr` on the lines.** -/
theorem getaAttr_lines {fuel : Nat} {arr arr' : Chars} {r : Option (CStr × CStr)}
    (h : AtLines fp ls) (hr : getaAttr fuel fp arr = .ok (r, fp', arr')) :
    Option.Rel SameAttr r (Editcfg.getaAttr ls).1 ∧ AtLines fp' (Editcfg.getaAttr ls).2 := by
  have hturn : ∀ s s' : InFile × Chars,
      (∃ ls₁, AtLines s.1 ls₁ ∧ Editcfg.getaAttr ls₁ = Editcfg.getaAttr ls) →
      getaAttrTurn s = .inl s' →
      ∃ ls₁, AtLines s'.1 ls₁ ∧ Editcfg.getaAttr ls₁ = Editcfg.getaAttr ls := by
    rintro ⟨fp₁, arr₁⟩ s' ⟨ls₁, hat, hsame⟩ hs
    by_cases heof : fp₁.eof = true
    · rw [getaAttrTurn, if_pos heof] at hs
      cases hs
    · obtain ⟨arr₂, ⟨-, hback⟩ | ⟨hbracket, ⟨hnone, hnext⟩ | ⟨r, _, -, -, hfound⟩⟩⟩ :=
        getaAttrTurn_cases (Bool.eq_false_iff.mpr heof) arr₁
      · rw [hback] at hs
        cases hs
      · obtain rfl := Sum.inl.inj (hnext.symm.trans hs)
        obtain ⟨rfl, -, hat'⟩ | ⟨ls₂, rfl, hat'⟩ := hat.read
        · exact ⟨[], hat', hsame⟩
        · rw [Editcfg.getaAttr, if_neg hbracket, hnone] at hsame
          exact ⟨ls₂, hat', hsame⟩
      · rw [hfound] at hs
        cases hs
  obtain ⟨⟨fp₁, arr₁⟩, ⟨ls₁, hat, hsame⟩, hs⟩ := loop_from (s := (fp, arr)) hturn ⟨ls, h, rfl⟩ hr
  rw [← hsame]
  by_cases heof : fp₁.eof = true
  · rw [getaAttrTurn, if_pos heof] at hs
    cases hs
    obtain rfl := hat.of_eof heof
    exact ⟨.none, hat⟩
  · obtain ⟨arr₂, ⟨hbracket, hback⟩ | ⟨hbracket, ⟨-, hnext⟩ | ⟨r, r', hline, hattr, hfound⟩⟩⟩ :=
      getaAttrTurn_cases (Bool.eq_false_iff.mpr heof) arr₁
    · rw [hback] at hs
      cases hs
      obtain ⟨-, hempty, -⟩ | ⟨ls₂, rfl, -⟩ := hat.read
      · rw [hempty] at hbracket
        cases hbracket
      · rw [Editcfg.getaAttr, if_pos hbracket]
        exact ⟨.none, hat⟩
    · rw [hnext] at hs
      cases hs
    · rw [hfound] at hs
      cases hs
      obtain ⟨-, hempty, -⟩ | ⟨ls₂, rfl, hat'⟩ := hat.read
      · rw [hempty] at hline
        cases hline
      · rw [Editcfg.getaAttr, if_neg hbracket, hline]
        exact ⟨.some hattr, hat'⟩

/-! ### What a turn of the loops does -/

section Turns

variable {γ σ : Type} {fuel : Nat}

theorem parseAttrsTurn_inl {assign : CStr → CStr → σ → σ × Bool} {s s' : Attrs σ}
    (h : parseAttrsTurn fuel assign s = .inl s') : ∃ attr value fp' arr',
      getaAttr fuel s.fp s.arr = .ok (some (attr, value), fp', arr') ∧
        s' = ⟨fp', arr', (assign attr value s.globals).1,
          s.goodAttr || (assign attr value s.globals).2⟩ := by
  rw [parseAttrsTurn] at h
  split at h
  · cases h
  · split at h
    · cases h
    · cases h
    · next attr value fp' arr' hattr => exact ⟨attr, value, fp', arr', hattr, (Sum.inl.inj h).symm⟩

theorem parseAttrsTurn_ok {assign : CStr → CStr → σ → σ × Bool} {s r : Attrs σ}
    (h : parseAttrsTurn fuel assign s = .inr (.ok r)) :
    s.fp.eof = true ∧ r = s ∨
      ∃ fp' arr', getaAttr fuel s.fp s.arr = .ok (none, fp', arr') ∧
        r = { s with fp := fp', arr := arr' } := by
  rw [parseAttrsTurn] at h
  split at h
  · next heof => exact .inl ⟨heof, (Except.ok.inj (Sum.inr.inj h)).symm⟩
  · split at h
    · cases h
    · next fp' arr' hattr => exact .inr ⟨fp', arr', hattr, (Except.ok.inj (Sum.inr.inj h)).symm⟩
    · cases h

variable {matchGroup : CStr → Option γ} {assign : γ → CStr → CStr → σ → σ × Bool}
  {attr : Nat → Chars}

theorem parseGroupsTurn_inl {s s' : Groups σ}
    (h : parseGroupsTurn fuel matchGroup assign attr s = .inl s') : ∃ group fp',
      getaGroup fuel s.fp = .ok (group, fp') ∧
        (matchGroup group = none ∧ s' = { s with fp := fp', scans := s.scans ++ [s.fp.pos] } ∨
          ∃ p r, matchGroup group = some p ∧
            parseNAssignValue fuel (assign p) (attr fp'.pos) fp' s.globals = .ok r ∧
            s' = ⟨r.fp, r.globals, s.goodGroup + r.goodAttr.toNat, s.scans ++ [s.fp.pos]⟩) := by
  rw [parseGroupsTurn] at h
  split at h
  · cases h
  · dsimp only at h
    split at h
    · cases h
    · next group fp' hgroup =>
        refine ⟨group, fp', hgroup, ?_⟩
        split at h
        · next hp => exact .inl ⟨hp, (Sum.inl.inj h).symm⟩
        · next p hp =>
            split at h
            · cases h
            · next r hr => exact .inr ⟨p, r, hp, hr, (Sum.inl.inj h).symm⟩

theorem parseGroupsTurn_ok {s r : Groups σ}
    (h : parseGroupsTurn fuel matchGroup assign attr s = .inr (.ok r)) :
    s.fp.eof = true ∧ r = s := by
  rw [parseGroupsTurn] at h
  split at h
  · next heof => exact ⟨heof, (Except.ok.inj (Sum.inr.inj h)).symm⟩
  · dsimp only at h
    split at h
    · cases h
    · split at h
      · cases h
      · split at h <;> cases h

end Turns

/-! ### The loops over attributes and groups -/

/-- A value is assigned; behind a fault the file is read on, and nothing is assigned. -/
def assignRun (dev : Device) (p : Group) (attr value : CStr) :
    Run Buf Globals → Run Buf Globals × Bool
  | .error e => (.error e, false)
  | .ok g =>
    match assignAttr dev p.attrs attr value g with
    | .error e => (.error e, false)
    | .ok (g, good) => (.ok g, good)

variable (dev : Device)

/-- What is behind an assignment sees what was assigned, and whether it counts. -/
theorem bind_assignRun {A : Type} (p : Group) (attr value : CStr) (globals : Run Buf Globals)
    (f : Globals → Bool → Run Buf A) :
    (globals >>= fun g => assignAttr dev p.attrs attr value g >>= fun r => f r.1 r.2) =
      (assignRun dev p attr value globals).1 >>= fun g =>
        f g (assignRun dev p attr value globals).2 := by
  cases globals with
  | error e => rfl
  | ok g =>
      change (assignAttr dev p.attrs attr value g >>= fun r => f r.1 r.2) = _
      rw [assignRun]
      cases assignAttr dev p.attrs attr value g <;> rfl

variable {dev} in
/-- What is assigned to an attribute the group has not does not matter. -/
theorem assignRun_same {p : Group} (hp : matchAttr (.text "SSID") p.attrs = none)
    {r r' : CStr × CStr} (h : SameAttr r r') (globals : Run Buf Globals) :
    assignRun dev p r.1 r.2 globals = assignRun dev p r'.1 r'.2 globals := by
  obtain ⟨attr, value⟩ := r
  obtain ⟨attr', value'⟩ := r'
  obtain ⟨rfl, hvalue⟩ := h
  by_cases hssid : attr = .text "SSID"
  · subst hssid
    cases globals with
    | error e => rfl
    | ok g => simp only [assignRun, assignAttr, hp, Option.bind_none]
  · obtain rfl : value = value' := hvalue hssid
    rfl

/-- What is found was read. -/
theorem length_getaAttr (ls : List CStr) : (Editcfg.getaAttr ls).2.length ≤ ls.length ∧
    ((Editcfg.getaAttr ls).1 ≠ none → (Editcfg.getaAttr ls).2.length < ls.length) := by
  induction ls with
  | nil => exact ⟨Nat.le_refl 0, fun h => absurd rfl h⟩
  | cons buffer ls ih =>
      rw [Editcfg.getaAttr]
      split
      · exact ⟨Nat.le_refl _, fun h => absurd rfl h⟩
      · split
        · exact ⟨Nat.le_succ _, fun _ => Nat.lt_succ_self _⟩
        · exact ⟨Nat.le_succ_of_le ih.1, fun h => Nat.lt_succ_of_lt (ih.2 h)⟩

theorem parseNAssignValue_none {p : List Attr} {ls' : List CStr}
    (h : Editcfg.getaAttr ls = (none, ls'))
    {n : Nat} (hn : ls.length ≤ n) (g : Globals) (good : Bool) :
    Editcfg.parseNAssignValue dev p n ls g good = .ok (good, ls', g) := by
  cases n with
  | zero =>
      obtain rfl : ls = [] := List.length_eq_zero_iff.mp (Nat.le_zero.mp hn)
      obtain rfl : [] = ls' := congrArg Prod.snd h
      rfl
  | succ n => rw [Editcfg.parseNAssignValue, h]

/-- In its loop, `ParseNAssignValue` has some of the lines before it, which make `target` of what
was assigned. -/
def AttrsOn (p : Group) (ls : List CStr) (target : Run Buf (Bool × List CStr × Globals))
    (s : Attrs (Run Buf Globals)) : Prop :=
  ∃ ls₁ n, AtLines s.fp ls₁ ∧ ls₁.length ≤ ls.length ∧ ls₁.length ≤ n ∧
    (s.globals >>= fun g => Editcfg.parseNAssignValue dev p.attrs n ls₁ g s.goodAttr) = target

section Attrs

variable {dev} {fuel : Nat} {p : Group} {target : Run Buf (Bool × List CStr × Globals)}
  {s s' r : Attrs (Run Buf Globals)}

theorem AttrsOn.turn (hp : matchAttr (.text "SSID") p.attrs = none) (h : AttrsOn dev p ls target s)
    (hs : parseAttrsTurn fuel (assignRun dev p) s = .inl s') : AttrsOn dev p ls target s' := by
  obtain ⟨ls₁, n, hat, hle, hn, hsame⟩ := h
  obtain ⟨attr, value, fp', arr', hattr, rfl⟩ := parseAttrsTurn_inl hs
  obtain ⟨hfound, hat'⟩ := getaAttr_lines hat hattr
  cases hget : Editcfg.getaAttr ls₁ with
  | mk found ls₂ => ?_
  rw [hget] at hfound hat'
  cases hfound with
  | some hr => ?_
  rename_i r
  have hless := (length_getaAttr ls₁).2 (by rw [hget]; exact Option.some_ne_none _)
  rw [hget] at hless
  cases n with
  | zero => exact absurd (Nat.lt_of_lt_of_le hless hn) (Nat.not_lt_zero _)
  | succ n =>
      refine ⟨ls₂, n, hat', (Nat.le_of_lt hless).trans hle,
        Nat.le_of_lt_succ (Nat.lt_of_lt_of_le hless hn), ?_⟩
      have hassign : assignRun dev p attr value s.globals = assignRun dev p r.1 r.2 s.globals :=
        assignRun_same hp hr s.globals
      rw [← hsame, hassign]
      simp only [Editcfg.parseNAssignValue, hget]
      exact (bind_assignRun dev p r.1 r.2 s.globals
        fun g good => Editcfg.parseNAssignValue dev p.attrs n ls₂ g (s.goodAttr || good)).symm

theorem AttrsOn.returns (h : AttrsOn dev p ls target s)
    (hs : parseAttrsTurn fuel (assignRun dev p) s = .inr (.ok r)) :
    ∃ ls', AtLines r.fp ls' ∧ ls'.length ≤ ls.length ∧
      target = (fun g => (r.goodAttr, ls', g)) <$> r.globals := by
  obtain ⟨ls₁, n, hat, hle, hn, hsame⟩ := h
  have hreturns {ls' : List CStr} (hget : Editcfg.getaAttr ls₁ = (none, ls')) :
      target = (fun g => (s.goodAttr, ls', g)) <$> s.globals := by
    rw [← hsame]
    simp only [parseNAssignValue_none dev hget hn]
    cases s.globals <;> rfl
  rcases parseAttrsTurn_ok hs with ⟨heof, rfl⟩ | ⟨fp', arr', hattr, rfl⟩
  · obtain rfl := hat.of_eof heof
    exact ⟨[], hat, hle, hreturns rfl⟩
  · obtain ⟨hnone, hat'⟩ := getaAttr_lines hat hattr
    refine ⟨_, hat', (length_getaAttr ls₁).1.trans hle, hreturns (Prod.ext ?_ rfl)⟩
    generalize (Editcfg.getaAttr ls₁).1 = found at hnone
    cases hnone
    rfl

/-- **`ParseNAssignValue` on the lines.** -/
theorem parseNAssignValue_lines {attr : Chars} {globals : Run Buf Globals} (h : AtLines fp ls)
    (hp : matchAttr (.text "SSID") p.attrs = none)
    (hr : parseNAssignValue fuel (assignRun dev p) attr fp globals = .ok r) :
    ∃ ls', AtLines r.fp ls' ∧ ls'.length ≤ ls.length ∧
      (globals >>= fun g => Editcfg.parseNAssignValue dev p.attrs ls.length ls g false) =
        (fun g => (r.goodAttr, ls', g)) <$> r.globals := by
  have hstart : AttrsOn dev p ls
      (globals >>= fun g => Editcfg.parseNAssignValue dev p.attrs ls.length ls g false)
      ⟨fp, attr, globals, false⟩ :=
    ⟨ls, ls.length, h, Nat.le_refl _, Nat.le_refl _, rfl⟩
  obtain ⟨s, hon, hs⟩ := loop_from (fun _ _ hon hs => AttrsOn.turn hp hon hs) hstart hr
  exact hon.returns hs

end Attrs

/-! ### The file -/

theorem parseGroups_skip {name : CStr} {ls' : List CStr} (hget : Editcfg.getaGroup ls = (name, ls'))
    (hp : matchGroup name = none) (n : Nat) (g : Globals) (goodGroup : Nat) :
    parseGroups dev (n + 1) ls g goodGroup = parseGroups dev n ls' g goodGroup := by
  rw [parseGroups, hget]
  dsimp only
  rw [hp]

theorem parseGroups_group {name : CStr} {ls' : List CStr} {p : Group}
    (hget : Editcfg.getaGroup ls = (name, ls')) (hp : matchGroup name = some p) (n : Nat)
    (g : Globals)
    (goodGroup : Nat) : parseGroups dev (n + 1) ls g goodGroup =
      Editcfg.parseNAssignValue dev p.attrs ls'.length ls' g false >>= fun r =>
        parseGroups dev n r.2.1 r.2.2 (goodGroup + r.1.toNat) := by
  rw [parseGroups, hget]
  dsimp only
  rw [hp]

theorem parseGroups_end (h : Editcfg.getaGroup ls = (.empty, [])) (n : Nat) (g : Globals)
    (goodGroup : Nat) : parseGroups dev n ls g goodGroup = .ok (goodGroup, g) := by
  induction n generalizing ls with
  | zero => rfl
  | succ n ih => exact (parseGroups_skip dev h matchGroup_empty n g goodGroup).trans (ih rfl)

theorem parseGroups_nil (n : Nat) (g : Globals) (goodGroup : Nat) :
    parseGroups dev n [] g goodGroup = .ok (goodGroup, g) := parseGroups_end dev rfl n g goodGroup

/-- In its loop, `parseCFG` has lines before it, which make `target` of what was assigned. -/
def GroupsOn (target : Run Buf (Nat × Globals)) (s : Groups (Run Buf Globals)) : Prop :=
  ∃ ls n, AtLines s.fp ls ∧ ls.length ≤ n ∧
    (s.globals >>= fun g => parseGroups dev n ls g s.goodGroup) = target

section Groups

variable {dev} {fuel : Nat} {attr : Nat → Chars} {target : Run Buf (Nat × Globals)}
  {s s' r : Groups (Run Buf Globals)}

theorem GroupsOn.turn (h : GroupsOn dev target s)
    (hs : parseGroupsTurn fuel matchGroup (assignRun dev) attr s = .inl s') :
    GroupsOn dev target s' := by
  obtain ⟨ls, n, hat, hn, hsame⟩ := h
  obtain ⟨group, fp', hgroup, hs'⟩ := parseGroupsTurn_inl hs
  obtain ⟨hname, hat'⟩ := getaGroup_lines hat hgroup
  cases hget : Editcfg.getaGroup ls with
  | mk name ls' => ?_
  rw [hget] at hname hat'
  obtain rfl : group = name := hname
  obtain ⟨hend, -⟩ | ⟨hless, -⟩ := getaGroup_readAll ls
  · -- no name is left in the lines, and none of the groups is nameless
    obtain ⟨rfl, rfl⟩ := Prod.mk.inj (hget.symm.trans hend)
    obtain ⟨-, rfl⟩ | ⟨p, r, hp, -⟩ := hs'
    · refine ⟨[], n, hat', Nat.zero_le _, ?_⟩
      rw [← hsame]
      simp only [parseGroups_end dev hend, parseGroups_nil]
    · exact absurd (matchGroup_empty.symm.trans hp) nofun
  · rw [hget] at hless
    cases n with
    | zero => exact absurd (Nat.lt_of_lt_of_le hless hn) (Nat.not_lt_zero _)
    | succ n =>
        have hn' : ls'.length ≤ n := Nat.le_of_lt_succ (Nat.lt_of_lt_of_le hless hn)
        obtain ⟨hp, rfl⟩ | ⟨p, r, hp, hr, rfl⟩ := hs'
        · refine ⟨ls', n, hat', hn', ?_⟩
          rw [← hsame]
          simp only [parseGroups_skip dev hget hp]
        · have hssid := matchAttr_ssid p (List.mem_of_find?_eq_some hp)
          obtain ⟨ls₂, hat₂, hle, hattrs⟩ := parseNAssignValue_lines hat' hssid hr
          refine ⟨ls₂, n, hat₂, hle.trans hn', ?_⟩
          rw [← hsame]
          simp only [parseGroups_group dev hget hp]
          rw [← bind_assoc, hattrs, bind_map_left]

theorem GroupsOn.returns (h : GroupsOn dev target s)
    (hs : parseGroupsTurn fuel matchGroup (assignRun dev) attr s = .inr (.ok r)) :
    target = (fun g => (r.goodGroup, g)) <$> r.globals := by
  obtain ⟨ls, n, hat, -, hsame⟩ := h
  obtain ⟨heof, rfl⟩ := parseGroupsTurn_ok hs
  obtain rfl := hat.of_eof heof
  rw [← hsame]
  simp only [parseGroups_nil]
  cases r.globals <;> rfl

end Groups

/-- **`parseCFG` on the lines**: its loops return what `parseLines` returns. -/
theorem parseCFG_lines (attr : Nat → Chars) (content : List Byte) (g : Globals) {fuel : Nat}
    (hfuel : 2 * content.length + 1 < fuel) :
    ∃ r, parseCFG fuel matchGroup (assignRun dev) attr content (.ok g) = .ok r ∧
      parseLines dev (buffers content) g = (fun g => (r.goodGroup, g)) <$> r.globals := by
  obtain ⟨r, hr, -⟩ :=
    parseGroups_returns fuel matchGroup (assignRun dev) attr content (.ok g) hfuel
  have hstart : GroupsOn dev (parseLines dev (buffers content) g) ⟨.fopen content, .ok g, 0, []⟩ :=
    ⟨buffers content, _, atLines_fopen content, Nat.le_refl _, rfl⟩
  obtain ⟨s, hon, hs⟩ := loop_from (fun _ _ hon hs => GroupsOn.turn hon hs) hstart hr
  exact ⟨r, hr, hon.returns hs⟩

/-- **What is recognised in a file** is assigned, and nothing else. -/
theorem parseCFG_readAll (attr : Nat → Chars) (content : List Byte) (g : Globals) {fuel : Nat}
    (hfuel : 2 * content.length + 1 < fuel) :
    ∃ r, parseCFG fuel matchGroup (assignRun dev) attr content (.ok g) = .ok r ∧
      r.globals = assignItems dev (readAll none (buffers content)).1 g := by
  obtain ⟨r, hr, hlines⟩ := parseCFG_lines dev attr content g hfuel
  obtain ⟨good, hitems⟩ := parseLines_readAll dev (buffers content) g
  refine ⟨r, hr, ?_⟩
  have hsame := congrArg (Prod.snd <$> ·) (hlines.symm.trans hitems)
  simpa only [Functor.map_map, id_map'] using hsame

theorem parseCFG_readAll_language :
    ∃ r, parseCFG 100 matchGroup (assignRun .bare) (fun _ _ => 0x3d)
        (ascii "[BASIC]\r\nLanguage=1\r\n".toList) (.ok .initial) = .ok r ∧
      r.globals = assignItems .bare
        (readAll none (buffers (ascii "[BASIC]\r\nLanguage=1\r\n".toList))).1 .initial :=
  parseCFG_readAll .bare (fun _ _ => 0x3d) _ .initial (by decide)

end Wap4410n.Editcfg.Tokenizer
