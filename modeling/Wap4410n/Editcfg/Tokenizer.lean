import Mathlib.Logic.Function.Basic
import Wap4410n.Editcfg.Import
import Wap4410n.Support.Loop
import Wap4410n.Support.Stdio

/-!
# Editcfg — reading the file

The loops of `parseCFG` on the file itself, with its position and the end that `fgets` sees, and
with the arrays a name and a value are copied into.  A line that begins with `[` ends a group; it is
given back with `fseek`, which forgets the end of the file.

Each loop is allowed a number of turns.  What `ParseNAssignValue` does with an attribute is up to
`assign`, and which names are groups to `matchGroup`.

* `getaGroup_returns`, `getaAttr_returns`: the two functions return, and store into their arrays.
* `parseCFG_returns`: so do the loops over the groups and attributes, and no group is looked for
  twice from one position.
-/

namespace Wap4410n.Editcfg.Tokenizer

open CLib Function

/-! ### The arrays -/

/-- The arrays of 128 bytes. -/
inductive Array128 where
  | group
  | attr
  | value
deriving DecidableEq, Repr

/-- Why there is no result: a byte is stored behind an array, or a loop goes on. -/
inductive Stop where
  | outside (a : Array128)
  | running
deriving DecidableEq, Repr

abbrev Tok (A : Type) := Except Stop A

/-- The bytes before the index `i`, and the one at it, are stored. -/
def store (a : Array128) (i : Nat) : Tok Unit := if i < 128 then .ok () else .error (.outside a)

/-- A loop of `fuel` turns at most. -/
def loop {σ ρ : Type} (step : σ → σ ⊕ Tok ρ) (fuel : Nat) (s : σ) : Tok ρ :=
  (Loop.run step fuel s).getD (.error .running)

/-- An array of characters. -/
abbrev Chars := Nat → Byte

/-- The array with bytes stored at its front. -/
def Chars.store (a : Chars) (bs : List Byte) : Chars := fun i => (bs[i]?).getD (a i)

/-! ### `GetaGroup` -/

/-- A turn of `while(l==0)` of `GetaGroup` -/
def getaGroupTurn (fp : InFile) : InFile ⊕ Tok (CStr × InFile) :=
  if fp.eof then .inr (.ok (.empty, fp))
  else
    let (chunk, fp) := fp.fgets 127
    let group := bracketed (.before chunk)
    if group.length = 0 then .inl fp
    else .inr (do
      store .group group.length
      return (group, fp))

/-- `GetaGroup` -/
def getaGroup (fuel : Nat) (fp : InFile) : Tok (CStr × InFile) := loop getaGroupTurn fuel fp

/-! ### `GetaAttr` -/

/-- Whether a value goes on with a character; `attribute[5]`, in `arr`, may lie behind the NUL. -/
def goesOn (arr : Chars) (attr : CStr) (c : Byte) : Bool :=
  if 0x20 < c ∧ c < 0x7f then true
  else if c = 0x20 ∧ attr.bytes.take 4 = ascii "SSID".toList ∧ arr 5 = 0x3d then true
  else attr ∈ [.text "SSID1", .text "SSID2", .text "SSID3", .text "SSID4"] ∧ c ≠ 0x0d

/-- `for(i=j+1;buffer[i];i++)`, and the NUL behind the value. -/
def copyValue (goesOn : Byte → Bool) : List Byte → List Byte → Tok (List Byte)
  | value, [] => do
    store .value value.length
    return value
  | value, c :: buffer => do
    store .value value.length
    if goesOn c then copyValue goesOn (value ++ [c]) buffer else return value

/-- A turn of `while(l==0)` of `GetaAttr`; `attribute` is `arr`, an array of the caller. -/
def getaAttrTurn : InFile × Chars →
    (InFile × Chars) ⊕ Tok (Option (CStr × CStr) × InFile × Chars)
  | (fp, arr) =>
    if fp.eof then .inr (.ok (none, fp, arr))
    else
      let arr := arr.store [0]
      let pos := fp.pos
      let (chunk, fp) := fp.fgets 127
      let buffer := CStr.before chunk
      if buffer.bytes.head? = some 0x5b then .inr (.ok (none, fp.fseek pos, arr))
      else if buffer.bytes.head? = none ∨ buffer.bytes.head? = some 0x20 then .inl (fp, arr)
      else
        let j := findEQ 0 buffer.bytes
        if j = 0 then .inl (fp, arr)
        else .inr (do
          store .attr j
          let attr := buffer.take j
          let arr := arr.store attr.mem
          let value ← copyValue (goesOn arr attr) [] (buffer.bytes.drop (j + 1))
          return (some (attr, .before value), fp, arr))

/-- `GetaAttr` -/
def getaAttr (fuel : Nat) (fp : InFile) (arr : Chars) :
    Tok (Option (CStr × CStr) × InFile × Chars) := loop getaAttrTurn fuel (fp, arr)

/-! ### The loops over attributes and groups -/

section Parse

variable {γ σ : Type}

/-- `while(!feof(fp))` of `ParseNAssignValue`: the file, the array
`attr`, what was assigned, and `goodAttr`. -/
structure Attrs (σ : Type) where
  fp : InFile
  arr : Chars
  globals : σ
  goodAttr : Bool

/-- A turn of it; `assign` also tells whether the attribute counts. -/
def parseAttrsTurn (fuel : Nat) (assign : CStr → CStr → σ → σ × Bool) (s : Attrs σ) :
    Attrs σ ⊕ Tok (Attrs σ) :=
  if s.fp.eof then .inr (.ok s)
  else
    match getaAttr fuel s.fp s.arr with
    | .error e => .inr (.error e)
    | .ok (none, fp, arr) => .inr (.ok { s with fp := fp, arr := arr })
    | .ok (some (attr, value), fp, arr) =>
      let (globals, good) := assign attr value s.globals
      .inl ⟨fp, arr, globals, s.goodAttr || good⟩

/-- `ParseNAssignValue`; `attr` is not initialised. -/
def parseNAssignValue (fuel : Nat) (assign : CStr → CStr → σ → σ × Bool) (attr : Chars)
    (fp : InFile) (globals : σ) : Tok (Attrs σ) :=
  loop (parseAttrsTurn fuel assign) fuel ⟨fp, attr, globals, false⟩

/-- `while(!feof(fp))` of `parseCFG`: the file, what was assigned, `goodGroup`, and the positions
from which a group was looked for. -/
structure Groups (σ : Type) where
  fp : InFile
  globals : σ
  goodGroup : Nat
  scans : List Nat

/-- A turn of it; `matchGroup` answers for the groups of the type that is read. -/
def parseGroupsTurn (fuel : Nat) (matchGroup : CStr → Option γ)
    (assign : γ → CStr → CStr → σ → σ × Bool) (attr : Nat → Chars) (s : Groups σ) :
    Groups σ ⊕ Tok (Groups σ) :=
  if s.fp.eof then .inr (.ok s)
  else
    let scans := s.scans ++ [s.fp.pos]
    match getaGroup fuel s.fp with
    | .error e => .inr (.error e)
    | .ok (group, fp) =>
      match matchGroup group with
      | none => .inl { s with fp := fp, scans := scans }
      | some p =>
        match parseNAssignValue fuel (assign p) (attr fp.pos) fp s.globals with
        | .error e => .inr (.error e)
        | .ok r => .inl ⟨r.fp, r.globals, s.goodGroup + r.goodAttr.toNat, scans⟩

/-- `parseCFG`, up to the end of its loop; `attr p` is what `ParseNAssignValue` finds in its array
when it is called with the file at `p`. -/
def parseCFG (fuel : Nat) (matchGroup : CStr → Option γ) (assign : γ → CStr → CStr → σ → σ × Bool)
    (attr : Nat → Chars) (content : List Byte) (globals : σ) : Tok (Groups σ) :=
  loop (parseGroupsTurn fuel matchGroup assign attr) fuel ⟨.fopen content, globals, 0, []⟩

end Parse

/-! ### Reading on -/

/-- A read that did not begin at the end went on: there is less left to do, and the position is a
later one or the end was seen. -/
structure ReadOn (fp fp' : InFile) : Prop where
  eof : fp.eof = false
  left : fp'.left < fp.left
  pos : fp.pos < fp'.pos ∨ fp'.eof = true

/-- The file is where it was, or was read on. -/
def Reaches (fp fp' : InFile) : Prop := fp' = fp ∨ ReadOn fp fp'

variable {fp fp' fp'' : InFile}

theorem readOn_afterChunk (n : Nat) (h : fp.eof = false) : ReadOn fp (fp.afterChunk n) :=
  have hforward := fp.afterChunk_forward n h
  ⟨h, hforward.1, hforward.2⟩

theorem ReadOn.trans (h : ReadOn fp fp') (h' : ReadOn fp' fp'') : ReadOn fp fp'' := by
  have hpos : fp.pos < fp'.pos :=
    h.pos.resolve_right fun he => absurd (h'.eof.symm.trans he) (by decide)
  exact ⟨h.eof, h'.left.trans h.left, h'.pos.imp_left hpos.trans⟩

theorem Reaches.readOn (h : Reaches fp fp') (h' : ReadOn fp' fp'') : ReadOn fp fp'' := by
  rcases h with rfl | h
  · exact h'
  · exact h.trans h'

theorem Reaches.trans (h : Reaches fp fp') (h' : Reaches fp' fp'') : Reaches fp fp'' := by
  rcases h' with rfl | h'
  · exact h
  · exact .inr (h.readOn h')

theorem ReadOn.reaches (h : ReadOn fp fp') (h' : Reaches fp' fp'') : ReadOn fp fp'' := by
  rcases h' with rfl | h'
  · exact h
  · exact h.trans h'

theorem Reaches.left_le (h : Reaches fp fp') : fp'.left ≤ fp.left := by
  rcases h with rfl | h
  · exact Nat.le_refl _
  · exact Nat.le_of_lt h.left

/-- A line that is given back was not read. -/
theorem fseek_afterChunk (n : Nat) (h : fp.eof = false) : (fp.afterChunk n).fseek fp.pos = fp := by
  obtain ⟨content, pos, eof⟩ := fp
  obtain rfl : eof = false := h
  rfl

/-- **A loop** with a variant ends, if it is allowed as many turns. -/
theorem loop_returns {σ ρ : Type} {step : σ → σ ⊕ Tok ρ} {I : σ → Prop} {Q : ρ → Prop}
    (variant : σ → Nat)
    (hstep : ∀ s, I s → (∃ s', step s = .inl s' ∧ I s' ∧ variant s' < variant s) ∨
      ∃ r, step s = .inr (.ok r) ∧ Q r)
    {fuel : Nat} {s : σ} (hs : I s) (hn : variant s < fuel) :
    ∃ r, loop step fuel s = .ok r ∧ Q r := by
  obtain ⟨x, hx, r, rfl, hr⟩ := Loop.run_of_variant (Q := fun x => ∃ r, x = .ok r ∧ Q r) variant
    (fun s hs => (hstep s hs).imp_right fun ⟨r, hr, hq⟩ => ⟨_, hr, r, rfl, hq⟩) hs hn
  exact ⟨r, by rw [loop, hx]; rfl, hr⟩

/-! ### The arrays are large enough -/

/-- A buffer is shorter than an array by one. -/
theorem length_buffer_le (fp : InFile) : (CStr.before (fp.chunk 127)).length ≤ 128 :=
  (List.takeWhile_prefix _).length_le.trans (fp.length_chunk_le 127)

/-- A name in brackets is shorter than its buffer. -/
theorem length_bracketed_lt {buffer : CStr} (h : (bracketed buffer).length ≠ 0) :
    (bracketed buffer).length < buffer.length := by
  rw [bracketed] at h ⊢
  cases hrest : buffer.bytes.dropWhile (· ≠ 0x5b) with
  | nil =>
      rw [hrest] at h
      exact absurd rfl h
  | cons b rest =>
      have hsuffix : (b :: rest).length ≤ buffer.length :=
        hrest ▸ (List.dropWhile_suffix _).length_le
      have hname : (CStr.before (rest.takeWhile (· ≠ 0x5d))).length ≤ rest.length :=
        (List.takeWhile_prefix _).length_le.trans (List.takeWhile_prefix _).length_le
      dsimp only
      split
      · exact Nat.lt_of_le_of_lt hname hsuffix
      · exact Nat.lt_of_lt_of_le (Nat.succ_pos _) hsuffix

/-- The `=` is in the buffer. -/
theorem findEQ_lt {i : Nat} {s : List Byte} (h : findEQ i s ≠ 0) : findEQ i s < i + s.length := by
  induction s generalizing i with
  | nil => exact absurd rfl h
  | cons c s ih =>
      rw [findEQ] at h ⊢
      by_cases hblank : c = 0x20
      · exact absurd (if_pos hblank) h
      · rw [if_neg hblank] at h ⊢
        by_cases heq : c = 0x3d
        · rw [if_pos heq]
          exact Nat.lt_add_of_pos_right (Nat.succ_pos _)
        · rw [if_neg heq] at h ⊢
          have hrest := ih h
          rw [List.length_cons]
          omega

theorem store_returns (a : Array128) {i : Nat} (h : i < 128) : store a i = .ok () := if_pos h

/-- A value is copied that fits with its NUL. -/
theorem copyValue_returns (goesOn : Byte → Bool) {value buffer : List Byte}
    (h : value.length + buffer.length < 128) :
    copyValue goesOn value buffer = .ok (value ++ buffer.takeWhile goesOn) := by
  induction buffer generalizing value with
  | nil =>
      have hvalue : value.length < 128 := h
      rw [copyValue, store_returns .value hvalue, List.takeWhile_nil, List.append_nil]
      rfl
  | cons c buffer ih =>
      have hfits : (value ++ [c]).length + buffer.length < 128 := by
        rw [List.length_append, List.length_singleton]
        rw [List.length_cons] at h
        omega
      rw [copyValue, store_returns .value (Nat.lt_of_le_of_lt (Nat.le_add_right _ _) h)]
      by_cases hc : goesOn c = true
      · have hvalue := ih hfits
        rw [List.append_assoc] at hvalue
        rw [List.takeWhile_cons_of_pos hc]
        exact (if_pos hc).trans hvalue
      · rw [List.takeWhile_cons_of_neg hc, List.append_nil]
        exact if_neg hc

/-! ### A turn -/

/-- A turn of `GetaGroup`, of a file whose end was not seen. -/
theorem getaGroupTurn_cases (h : fp.eof = false) :
    (bracketed (.before (fp.chunk 127))).length = 0 ∧ getaGroupTurn fp = .inl (fp.afterChunk 127) ∨
      (bracketed (.before (fp.chunk 127))).length ≠ 0 ∧
        getaGroupTurn fp = .inr (.ok (bracketed (.before (fp.chunk 127)), fp.afterChunk 127)) := by
  have hlen := length_buffer_le fp
  rw [getaGroupTurn, if_neg (Bool.eq_false_iff.mp h)]
  dsimp only [InFile.fgets]
  generalize CStr.before (fp.chunk 127) = buffer at hlen ⊢
  by_cases hname : (bracketed buffer).length = 0
  · exact .inl ⟨hname, if_pos hname⟩
  · refine .inr ⟨hname, (if_neg hname).trans ?_⟩
    rw [store_returns .group (Nat.lt_of_lt_of_le (length_bracketed_lt hname) hlen)]
    rfl

/-- A name ends before the `=`. -/
theorem not_mem_take_findEQ (i : Nat) (s : List Byte) :
    (0x3d : Byte) ∉ s.take (findEQ i s - i) := by
  induction s generalizing i with
  | nil => simp
  | cons c s ih =>
      rw [findEQ]
      split
      · rw [Nat.zero_sub, List.take_zero]
        exact List.not_mem_nil
      · split
        · rw [Nat.sub_self, List.take_zero]
          exact List.not_mem_nil
        · next hc =>
            cases hj : findEQ (i + 1) s - i with
            | zero => exact List.not_mem_nil
            | succ j =>
                have hrest : findEQ (i + 1) s - (i + 1) = j := by omega
                rw [List.take_succ_cons, ← hrest]
                exact List.not_mem_cons_of_ne_of_not_mem (Ne.symm hc) (ih (i + 1))

section Behind

variable {arr : Chars} {attr : CStr}

/-- The same attribute, with the same value unless it is `SSID`. -/
def SameAttr (r r' : CStr × CStr) : Prop := r.1 = r'.1 ∧ (r.1 ≠ .text "SSID" → r.2 = r'.2)

/-- A value ends where that of a line does, unless `attribute[5]` lies behind the NUL of `SSID`. -/
theorem goesOn_eq_inValue (hattr : 0x3d ∉ attr.bytes) (hname : attr ≠ .text "SSID") :
    goesOn (arr.store attr.mem) attr = inValue attr := by
  have hmem : attr.mem[5]? ≠ some 0x3d := by
    intro h5
    rcases List.mem_append.mp (List.mem_of_getElem? h5) with h | h
    · exact hattr h
    · exact absurd (List.mem_singleton.mp h) (by decide)
  have hfive : ¬(attr.bytes.take 4 = ascii "SSID".toList ∧ arr.store attr.mem 5 = 0x3d) := by
    rintro ⟨hfront, h5⟩
    rw [Chars.store] at h5
    cases hat : attr.mem[5]? with
    | some c =>
        rw [hat] at h5
        exact hmem (hat.trans (congrArg some h5))
    | none =>
        have hle : attr.bytes.length + 1 ≤ 5 := by
          have hlen := List.getElem?_eq_none_iff.mp hat
          rwa [CStr.mem, List.length_append, List.length_singleton] at hlen
        rw [List.take_of_length_le (Nat.le_of_succ_le_succ hle)] at hfront
        exact hname (CStr.ext (hfront.trans (by decide)))
  funext c
  simp only [goesOn, inValue, hmem, hfive, and_false]

end Behind

/-- **A turn of `GetaAttr`**, of a file whose end was not seen.  It finds what `splitLine` finds. -/
theorem getaAttrTurn_cases (h : fp.eof = false) (arr : Chars) :
    ∃ arr' : Chars, (CStr.before (fp.chunk 127)).bytes.head? = some 0x5b ∧
        getaAttrTurn (fp, arr) = .inr (.ok (none, fp, arr')) ∨
      (CStr.before (fp.chunk 127)).bytes.head? ≠ some 0x5b ∧
        (splitLine (.before (fp.chunk 127)) = none ∧
            getaAttrTurn (fp, arr) = .inl (fp.afterChunk 127, arr') ∨
          ∃ r r', splitLine (.before (fp.chunk 127)) = some r' ∧ SameAttr r r' ∧
            getaAttrTurn (fp, arr) = .inr (.ok (some r, fp.afterChunk 127, arr'))) := by
  have hlen := length_buffer_le fp
  rw [getaAttrTurn, if_neg (Bool.eq_false_iff.mp h)]
  dsimp only [InFile.fgets]
  rw [fseek_afterChunk 127 h]
  generalize CStr.before (fp.chunk 127) = buffer at hlen ⊢
  by_cases hbracket : buffer.bytes.head? = some 0x5b
  · exact ⟨arr.store [0], .inl ⟨hbracket, if_pos hbracket⟩⟩
  rw [if_neg hbracket, splitLine]
  by_cases hskip : buffer.bytes.head? = none ∨ buffer.bytes.head? = some 0x20
  · exact ⟨arr.store [0], .inr ⟨hbracket, .inl ⟨if_pos hskip, if_pos hskip⟩⟩⟩
  rw [if_neg hskip, if_neg hskip]
  by_cases hj : findEQ 0 buffer.bytes = 0
  · exact ⟨arr.store [0], .inr ⟨hbracket, .inl ⟨if_pos hj, if_pos hj⟩⟩⟩
  rw [if_neg hj, if_neg hj]
  have hlt := findEQ_lt hj
  rw [Nat.zero_add] at hlt
  have hrest :
      ([] : List Byte).length + (buffer.bytes.drop (findEQ 0 buffer.bytes + 1)).length < 128 := by
    rw [List.length_drop, List.length_nil]
    have hb : buffer.bytes.length ≤ 128 := hlen
    omega
  have hname : (0x3d : Byte) ∉ (buffer.take (findEQ 0 buffer.bytes)).bytes :=
    not_mem_take_findEQ 0 buffer.bytes
  dsimp only
  generalize buffer.take (findEQ 0 buffer.bytes) = attr at hname ⊢
  rw [store_returns .attr (Nat.lt_of_lt_of_le hlt hlen), copyValue_returns _ hrest]
  refine ⟨_, .inr ⟨hbracket, .inr ⟨(attr, _), _, rfl, ?_, rfl⟩⟩⟩
  refine ⟨rfl, fun hssid => ?_⟩
  rw [goesOn_eq_inValue hname hssid]
  rfl

/-! ### The functions return -/

/-- **`GetaGroup` returns.** -/
theorem getaGroup_returns {fuel : Nat} (hfuel : fp.left < fuel) :
    ∃ group fp', getaGroup fuel fp = .ok (group, fp') ∧ (fp.eof = false → ReadOn fp fp') := by
  have hturn : ∀ fp₁, Reaches fp fp₁ →
      (∃ fp₂, getaGroupTurn fp₁ = .inl fp₂ ∧ Reaches fp fp₂ ∧ fp₂.left < fp₁.left) ∨
        ∃ r, getaGroupTurn fp₁ = .inr (.ok r) ∧ (fp.eof = false → ReadOn fp r.2) := by
    intro fp₁ hreach
    by_cases heof : fp₁.eof = true
    · refine .inr ⟨(.empty, fp₁), if_pos heof, fun hstart => hreach.resolve_left ?_⟩
      rintro rfl
      exact absurd (hstart.symm.trans heof) Bool.false_ne_true
    · have hopen := Bool.eq_false_iff.mpr heof
      have hread := readOn_afterChunk 127 hopen
      rcases getaGroupTurn_cases hopen with ⟨-, hnext⟩ | ⟨-, hname⟩
      · exact .inl ⟨_, hnext, .inr (hreach.readOn hread), hread.left⟩
      · exact .inr ⟨_, hname, fun _ => hreach.readOn hread⟩
  obtain ⟨⟨group, fp'⟩, hloop, hpast⟩ := loop_returns InFile.left hturn (.inl rfl) hfuel
  exact ⟨group, fp', hloop, hpast⟩

/-- **`GetaAttr` returns**, and has read what it returns. -/
theorem getaAttr_returns {fuel : Nat} (arr : Chars) (hfuel : fp.left < fuel) :
    ∃ r fp' arr', getaAttr fuel fp arr = .ok (r, fp', arr') ∧ Reaches fp fp' ∧
      (r ≠ none → ReadOn fp fp') := by
  have hturn : ∀ s : InFile × Chars, Reaches fp s.1 →
      (∃ s', getaAttrTurn s = .inl s' ∧ Reaches fp s'.1 ∧ s'.1.left < s.1.left) ∨
        ∃ r, getaAttrTurn s = .inr (.ok r) ∧ Reaches fp r.2.1 ∧ (r.1 ≠ none → ReadOn fp r.2.1) := by
    rintro ⟨fp₁, arr⟩ hreach
    by_cases heof : fp₁.eof = true
    · exact .inr ⟨(none, fp₁, arr), if_pos heof, hreach, fun h => absurd rfl h⟩
    · have hopen := Bool.eq_false_iff.mpr heof
      have hread := readOn_afterChunk 127 hopen
      have hgoes : ReadOn fp (fp₁.afterChunk 127) := hreach.readOn hread
      obtain ⟨arr', ⟨-, hback⟩ | ⟨-, ⟨-, hnext⟩ | ⟨r, _, -, -, hfound⟩⟩⟩ :=
        getaAttrTurn_cases hopen arr
      · exact .inr ⟨_, hback, hreach, fun h => absurd rfl h⟩
      · exact .inl ⟨_, hnext, .inr hgoes, hread.left⟩
      · exact .inr ⟨_, hfound, .inr hgoes, fun _ => hgoes⟩
  obtain ⟨⟨r, fp', arr'⟩, hloop, hreach, hpast⟩ :=
    loop_returns (fun s : InFile × Chars => s.1.left) hturn (s := (fp, arr)) (.inl rfl) hfuel
  exact ⟨r, fp', arr', hloop, hreach, hpast⟩

section Parse

variable {γ σ : Type}

/-- **`ParseNAssignValue` returns.** -/
theorem parseNAssignValue_returns {fuel : Nat} (assign : CStr → CStr → σ → σ × Bool) (attr : Chars)
    (globals : σ) (hfuel : fp.left < fuel) :
    ∃ r, parseNAssignValue fuel assign attr fp globals = .ok r ∧ Reaches fp r.fp := by
  have hturn : ∀ s : Attrs σ, Reaches fp s.fp →
      (∃ s', parseAttrsTurn fuel assign s = .inl s' ∧ Reaches fp s'.fp ∧ s'.fp.left < s.fp.left) ∨
        ∃ r, parseAttrsTurn fuel assign s = .inr (.ok r) ∧ Reaches fp r.fp := by
    intro s hreach
    rw [parseAttrsTurn]
    split
    · exact .inr ⟨s, rfl, hreach⟩
    · obtain ⟨r, fp', arr', hattr, hgoes, hpast⟩ :=
        getaAttr_returns s.arr (Nat.lt_of_le_of_lt hreach.left_le hfuel)
      rw [hattr]
      cases r with
      | none => exact .inr ⟨_, rfl, hreach.trans hgoes⟩
      | some pair =>
          have hread := hpast (Option.some_ne_none pair)
          exact .inl ⟨_, rfl, hreach.trans hgoes, hread.left⟩
  exact loop_returns (fun s : Attrs σ => s.fp.left) hturn (.inl rfl) hfuel

/-- The groups were looked for from one position after the other. -/
structure Ascending (s : Groups σ) : Prop where
  scans : s.scans.Pairwise (· < ·)
  before : s.fp.eof = false → ∀ p ∈ s.scans, p < s.fp.pos

/-- The next one is looked for from where the file is. -/
theorem Ascending.next {s s' : Groups σ} (h : Ascending s) (hread : ReadOn s.fp s'.fp)
    (hscans : s'.scans = s.scans ++ [s.fp.pos]) : Ascending s' := by
  have hbefore := h.before hread.eof
  refine ⟨?_, fun hopen p hp => ?_⟩
  · rw [hscans]
    exact List.pairwise_append.mpr ⟨h.scans, List.pairwise_singleton _ _, fun p hp q hq =>
      List.mem_singleton.mp hq ▸ hbefore p hp⟩
  · have hpos : s.fp.pos < s'.fp.pos := hread.pos.resolve_right (Bool.eq_false_iff.mp hopen)
    rw [hscans] at hp
    rcases List.mem_append.mp hp with hp | hp
    · exact (hbefore p hp).trans hpos
    · exact List.mem_singleton.mp hp ▸ hpos

/-- **The loop of `parseCFG` returns**, and looks for a group from a position once at most. -/
theorem parseGroups_returns (fuel : Nat) (matchGroup : CStr → Option γ)
    (assign : γ → CStr → CStr → σ → σ × Bool) (attr : Nat → Chars) (content : List Byte)
    (globals : σ)
    (hfuel : 2 * content.length + 1 < fuel) :
    ∃ r, parseCFG fuel matchGroup assign attr content globals = .ok r ∧ Ascending r := by
  have hturn : ∀ s : Groups σ, s.fp.left < fuel ∧ Ascending s →
      (∃ s', parseGroupsTurn fuel matchGroup assign attr s = .inl s' ∧
          (s'.fp.left < fuel ∧ Ascending s') ∧ s'.fp.left < s.fp.left) ∨
        ∃ r, parseGroupsTurn fuel matchGroup assign attr s = .inr (.ok r) ∧ Ascending r := by
    rintro s ⟨hleft, hasc⟩
    rw [parseGroupsTurn]
    by_cases heof : s.fp.eof = true
    · exact .inr ⟨s, if_pos heof, hasc⟩
    · rw [if_neg heof]
      obtain ⟨group, fp', hgroup, hpast⟩ := getaGroup_returns hleft
      have hread := hpast (Bool.eq_false_iff.mpr heof)
      rw [hgroup]
      dsimp only
      cases matchGroup group with
      | none => exact .inl ⟨_, rfl, ⟨hread.left.trans hleft, hasc.next hread rfl⟩, hread.left⟩
      | some p =>
          obtain ⟨r, hr, hreach⟩ := parseNAssignValue_returns (assign p) (attr fp'.pos) s.globals
            (hread.left.trans hleft)
          have hgoes := hread.reaches hreach
          dsimp only
          rw [hr]
          exact .inl ⟨_, rfl, ⟨hgoes.left.trans hleft, hasc.next hgoes rfl⟩, hgoes.left⟩
  have hstart : (InFile.fopen content).left = 2 * content.length + 1 := rfl
  exact loop_returns (fun s : Groups σ => s.fp.left) hturn
    ⟨by simpa [hstart] using hfuel, List.Pairwise.nil, fun _ p hp => absurd hp List.not_mem_nil⟩
    (by simpa [hstart] using hfuel)

/-- **The loops return**, within a turn for each byte and its end, whatever the file holds, and
store into their arrays alone; a group is looked for from a position once at most. -/
theorem parseCFG_returns (matchGroup : CStr → Option γ) (assign : γ → CStr → CStr → σ → σ × Bool)
    (attr : Nat → Chars) (content : List Byte) (globals : σ) (k : Nat) :
    (∀ fp, ∃ r, getaGroup (fp.left + 1 + k) fp = .ok r) ∧
      (∀ fp arr, ∃ r, getaAttr (fp.left + 1 + k) fp arr = .ok r) ∧
      (∀ fp arr p, ∃ r, parseNAssignValue (fp.left + 1 + k) (assign p) arr fp globals = .ok r) ∧
      ∃ r, parseCFG (2 * content.length + 2 + k) matchGroup assign attr content globals = .ok r ∧
        ∀ p, r.scans.count p ≤ 1 := by
  have hfuel : ∀ n, n < n + 1 + k :=
    fun n => Nat.lt_of_lt_of_le (Nat.lt_succ_self n) (Nat.le_add_right _ k)
  refine ⟨fun fp => ?_, fun fp arr => ?_, fun fp arr p => ?_, ?_⟩
  · obtain ⟨group, fp', h, -⟩ := getaGroup_returns (hfuel fp.left)
    exact ⟨_, h⟩
  · obtain ⟨r, fp', arr', h, -⟩ := getaAttr_returns arr (hfuel fp.left)
    exact ⟨_, h⟩
  · obtain ⟨r, h, -⟩ := parseNAssignValue_returns (assign p) arr globals (hfuel fp.left)
    exact ⟨r, h⟩
  · obtain ⟨r, h, hasc⟩ :=
      parseGroups_returns _ matchGroup assign attr content globals (hfuel (2 * content.length + 1))
    exact ⟨r, h, fun p => List.nodup_iff_count_le_one.mp (hasc.scans.imp Nat.ne_of_lt) p⟩

end Parse

end Wap4410n.Editcfg.Tokenizer
