import Wap4410n.Support.Block
import Wap4410n.Support.Ring

/-!
# CLI — tokens

`sccli_parser` lays its arguments one behind the other in `buf`, each with its NUL, cuts `buf` at
the NULs again and pushes a pointer to each piece that is not empty.  The pointers go into a ring
of `MAX_TOKEN` slots whose empty slots are NULL; a pop scans the ring from the index of the next
push for the first slot that is full, and empties it.

* `sccliParser_buf`, `sccliParser_left`: `buf` holds the arguments, and the ring the last
  `MAX_TOKEN` of those that are not empty.
* `pops_eq`: pops of both kinds answer the pointers left in the ring, in order, and then NULL.
* `sccliParser_lossless_iff`: every argument comes back, and no store leaves its array, just when
  the arguments fit into `buf` and at most `MAX_TOKEN` of them are not empty.
-/

namespace LinksysCli

open CLib

def maxToken : Nat := 50

def cliInbuf : Nat := 512

/-- `CLI`: the virtual AP selected, the token ring, whose pointers are offsets into the parser's
`buf`, and `ibuf`. -/
structure Cli where
  securityCheck : Bool
  vap : Int
  token : Nat → Option Nat
  tokenIdx : Nat
  tokenLvl : Nat
  ibuf : Block

/-- What `sccli_Init` allocates and clears. -/
def sccliInit : Cli := ⟨true, 0, fun _ => none, 0, 0, Block.zeroed cliInbuf⟩

namespace Cli

def sccliTokenInit (c : Cli) : Cli :=
  { c with token := fun _ => none, tokenIdx := 0, tokenLvl := 0 }

/-- `pCli->token[pCli->tokenIdx] = p; pCli->tokenIdx = (pCli->tokenIdx + 1) % MAX_TOKEN;` -/
def sccliTokenPush (c : Cli) (p : Nat) : Cli :=
  { c with
    token := Function.update c.token c.tokenIdx (some p)
    tokenIdx := (c.tokenIdx + 1) % maxToken }

/-- The counting loop of `sccli_tokenCount`, `n` slots before its end. -/
def countFrom (token : Nat → Option Nat) : Nat → Nat → Nat
  | 0, _ => 0
  | n + 1, idx =>
      (if (token idx).isSome then 1 else 0) + countFrom token n ((idx + 1) % maxToken)

def sccliTokenCount (c : Cli) : Nat := countFrom c.token maxToken c.tokenIdx

/-- The token the two pops find, and what they leave: its slot is emptied. -/
def take (c : Cli) : Option Nat × Cli :=
  match Ring.scan c.token maxToken maxToken c.tokenIdx with
  | none => (none, c)
  | some idx => (c.token idx, { c with token := Function.update c.token idx none })

/-- The string at the offset `p` of `buf`. -/
def tokenAt (buf : Block) (p : Nat) : CStr := .before (buf.bytes.drop p)

def sccliTokenPop (buf : Block) (c : Cli) : Option CStr × Cli :=
  match c.take with
  | (none, c) => (none, c)
  | (some p, c) => (some (tokenAt buf p), c)

/-- `if (isupper(ch)) *pBuf = ch - 'A' + 'a';` -/
def tolower (ch : Byte) : Byte := if 65 ≤ ch ∧ ch ≤ 90 then ch - 65 + 97 else ch

/-- The token is copied into `ibuf` in lower case; the answer points there. -/
def sccliTokenPopWoCase (buf : Block) (c : Cli) : Option CStr × Cli :=
  match c.take with
  | (none, c) => (none, c)
  | (some p, c) =>
      let t := ((Cursor.start c.ibuf).putAll ((tokenAt buf p).bytes.map tolower)).poke 0
      (some (.before t.block.bytes), { c with ibuf := t.block })

end Cli

/-! ### `sccli_parser` -/

/-- `length += sprintf(p+length, "%s", argv[i]); *(p+length) = 0; length++;` -/
def layArgument (b : Block × Nat) (arg : CStr) : Block × Nat :=
  ((b.1.store b.2 arg.mem).store (b.2 + arg.length) [0], b.2 + arg.length + 1)

/-- The cutting loop over the bytes of `buf` from the `i`-th on, with `pToken` as it stands. -/
def cutTokens : List Byte → Nat → Option Nat → Cli → Cli
  | [], _, _, c => c
  | ch :: bs, i, pToken, c =>
      if ch ≠ 0 then cutTokens bs (i + 1) (some (pToken.getD i)) c
      else
        match pToken with
        | some p => cutTokens bs (i + 1) none (c.sccliTokenPush p)
        | none => cutTokens bs (i + 1) none c

/-- `sccli_parser` up to its call of `sccli_tokenParser`: `buf`, and the tokens pushed. -/
def sccliParser (c : Cli) (argv : List CStr) : Block × Cli :=
  let (buf, length) := argv.foldl layArgument (Block.fresh cliInbuf, 0)
  (buf, cutTokens (buf.bytes.take length) 0 none c.sccliTokenInit)

/-! ### Sequences of pops -/

/-- The two ways to pop a token. -/
inductive Pop where
  | pop
  | popWoCase
deriving DecidableEq

def Pop.run (buf : Block) : Pop → Cli → Option CStr × Cli
  | .pop => Cli.sccliTokenPop buf
  | .popWoCase => Cli.sccliTokenPopWoCase buf

/-- The results of pops one after the other, and the state they leave. -/
def pops (buf : Block) : List Pop → Cli → List (Option CStr) × Cli
  | [], c => ([], c)
  | k :: ks, c =>
      let (r, c) := k.run buf c
      let (rs, c) := pops buf ks c
      (r :: rs, c)

def lowered (s : CStr) : CStr :=
  ⟨s.bytes.map Cli.tolower, by
    rw [List.mem_map]
    rintro ⟨b, hb, h⟩
    have hne := CStr.ne_zero hb
    unfold Cli.tolower at h
    split at h
    · rename_i hup
      have h₁ := UInt8.le_iff_toNat_le.mp hup.1
      have h₂ := UInt8.le_iff_toNat_le.mp hup.2
      have := congrArg UInt8.toNat h
      simp [UInt8.toNat_add, UInt8.toNat_sub] at this h₁ h₂
      omega
    · exact hne h⟩

/-- What a pop of the given kind answers for an argument. -/
def Pop.answer : Pop → CStr → CStr
  | .pop => id
  | .popWoCase => lowered

/-- The answers to pops from a queue of arguments: each in its turn, and then NULL. -/
def answers : List Pop → List CStr → List (Option CStr)
  | [], _ => []
  | _ :: ks, [] => none :: answers ks []
  | k :: ks, a :: as => some (k.answer a) :: answers ks as

/-- The arguments that are not empty. -/
def words (argv : List CStr) : List CStr := argv.filter fun a => 0 < a.length

/-- `ibuf` is the array that `sccli_Init` allocated, whatever earlier commands left in it. -/
def Cli.Allocated (c : Cli) : Prop := c.ibuf.size = cliInbuf ∧ c.ibuf.InBounds

/-- Nothing is lost and nothing overrun: the arguments lie in `buf`, and pops of either kind, in
every order, answer the arguments that are not empty and then NULL, without leaving `ibuf`. -/
def Lossless (argv : List CStr) : Prop :=
  ∀ c : Cli, c.Allocated →
    let (buf, c') := sccliParser c argv
    buf.InBounds ∧ ∀ ks : List Pop,
      (pops buf ks c').1 = answers ks (words argv) ∧ (pops buf ks c').2.ibuf.InBounds

/-! ### The ring -/

namespace Cli

/-- The tokens in the ring, in the order they are popped. -/
def left (c : Cli) : List Nat := (Ring.view c.token maxToken c.tokenIdx).reduceOption

variable {c : Cli}

theorem take_nil (hc : c.tokenIdx < maxToken) (h : c.left = []) : c.take = (none, c) := by
  unfold take
  split
  · rfl
  · rename_i idx hscan
    obtain ⟨x, -, hleft⟩ := Ring.scan_eq_some hc hscan
    rw [left, hleft] at h
    cases h

theorem take_cons (hc : c.tokenIdx < maxToken) {p : Nat} {ps : List Nat} (h : c.left = p :: ps) :
    ∃ c', c.take = (some p, c') ∧ c'.left = ps ∧ c'.tokenIdx = c.tokenIdx ∧ c'.ibuf = c.ibuf := by
  unfold take
  split
  · rename_i hscan
    rw [left, Ring.scan_eq_none hc hscan] at h
    cases h
  · rename_i idx hscan
    obtain ⟨x, hx, hleft⟩ := Ring.scan_eq_some hc hscan
    rw [left, hleft] at h
    obtain ⟨rfl, rfl⟩ := List.cons.inj h
    exact ⟨{ c with token := Function.update c.token idx none }, by rw [hx], rfl, rfl, rfl⟩

/-- Counting from `i` slots behind the index on. -/
theorem countFrom_slot (token : Nat → Option Nat) (a : Nat) : ∀ k i,
    countFrom token k (Ring.slot maxToken a i) =
      ((List.range' i k).map fun j => token (Ring.slot maxToken a j)).reduceOption.length := by
  intro k
  induction k with
  | zero =>
      intro i
      rfl
  | succ k ih =>
      intro i
      have hpos : 0 < maxToken := by decide
      have hnext : (Ring.slot maxToken a i + 1) % maxToken = Ring.slot maxToken a (i + 1) := by
        rw [← Ring.incr_slot hpos, Ring.incr_eq_mod (Ring.slot_lt hpos a i)]
      rw [countFrom, hnext, ih, List.range'_succ, List.map_cons]
      cases token (Ring.slot maxToken a i) with
      | none => simp [List.reduceOption_cons_of_none]
      | some x => simp [List.reduceOption_cons_of_some, Nat.add_comm]

theorem sccliTokenCount_eq (hc : c.tokenIdx < maxToken) :
    c.sccliTokenCount = c.left.length := by
  have h := countFrom_slot c.token c.tokenIdx maxToken 0
  rw [Ring.slot_zero hc, ← List.range_eq_range'] at h
  exact h

theorem tokenIdx_push (c : Cli) (p : Nat) : (c.sccliTokenPush p).tokenIdx < maxToken :=
  Nat.mod_lt _ (by decide)

theorem tokenIdx_pushes (ps : List Nat) (hc : c.tokenIdx < maxToken) :
    (ps.foldl sccliTokenPush c).tokenIdx < maxToken := by
  induction ps generalizing c with
  | nil => exact hc
  | cons p ps ih => exact ih (tokenIdx_push c p)

theorem ibuf_pushes (ps : List Nat) (c : Cli) : (ps.foldl sccliTokenPush c).ibuf = c.ibuf := by
  induction ps generalizing c with
  | nil => rfl
  | cons p ps ih => exact ih _

/-- Pushed into an empty ring, the last `MAX_TOKEN` tokens stay. -/
theorem left_pushes (ps : List Nat) (c : Cli) :
    (ps.foldl sccliTokenPush c.sccliTokenInit).left = ps.drop (ps.length - maxToken) := by
  have hview := Ring.view_pushes Cli.token Cli.tokenIdx sccliTokenPush some (fun _ _ => rfl)
    (fun _ _ => rfl) ps (s := c.sccliTokenInit) (show 0 < maxToken by decide)
  have hempty : Ring.view c.sccliTokenInit.token maxToken c.sccliTokenInit.tokenIdx =
      List.replicate maxToken none :=
    List.eq_replicate_iff.mpr ⟨Ring.length_view .., fun b hb => by
      obtain ⟨i, -, rfl⟩ := List.mem_map.mp hb
      rfl⟩
  have hfull : ∀ qs : List Nat, (qs.map some).reduceOption = qs := fun qs => by
    simp [List.reduceOption]
  rw [left, hview, hempty, List.drop_append, List.drop_replicate, List.length_replicate,
    List.reduceOption_append, List.reduceOption_replicate_none, List.nil_append, ← List.map_drop,
    hfull]

end Cli

/-! ### `buf` -/

/-- An argument laid at the end of the bytes stored, with its NUL. -/
theorem layArgument_eq {b : Block} {length : Nat} (h : b.bytes.length = length) (arg : CStr) :
    (layArgument (b, length) arg).1.bytes = b.bytes ++ arg.mem ∧
      (layArgument (b, length) arg).1.size = b.size ∧
      (layArgument (b, length) arg).2 = (b.bytes ++ arg.mem).length := by
  subst h
  refine ⟨?_, rfl, by simp [layArgument, Nat.add_assoc]⟩
  have hlen : b.bytes.length + arg.length = (b.bytes ++ arg.bytes).length := by simp [CStr.length]
  simp only [layArgument, Block.store]
  rw [splice_length, CStr.mem, ← List.append_assoc, hlen, splice, List.take_left]
  simp [Nat.add_assoc]

/-- `buf` holds the arguments one behind the other, and `length` is where they end. -/
theorem layArguments_eq (argv : List CStr) (b : Block) (length : Nat)
    (h : b.bytes.length = length) :
    (argv.foldl layArgument (b, length)).1.bytes = b.bytes ++ argv.flatMap CStr.mem ∧
      (argv.foldl layArgument (b, length)).1.size = b.size ∧
      (argv.foldl layArgument (b, length)).2 = (b.bytes ++ argv.flatMap CStr.mem).length := by
  induction argv generalizing b length with
  | nil => exact ⟨by simp, rfl, by simp [h]⟩
  | cons arg argv ih =>
      obtain ⟨hbytes, hsize, hlength⟩ := layArgument_eq h arg
      obtain ⟨hb, hs, hl⟩ := ih _ _ (hlength.trans (by rw [hbytes])).symm
      rw [hbytes, List.append_assoc] at hb hl
      exact ⟨hb, hs.trans hsize, hl⟩

/-! ### The cuts -/

/-- Where the pieces of `buf` that are not empty begin, from the offset `i` on. -/
def offsets : Nat → List CStr → List Nat
  | _, [] => []
  | i, a :: as =>
      if 0 < a.length then i :: offsets (i + a.length + 1) as else offsets (i + a.length + 1) as

/-- Inside a piece nothing is pushed before its NUL. -/
theorem cutTokens_inside {bs : List Byte} (hbs : (0 : Byte) ∉ bs) (r : List Byte) (p : Nat) :
    ∀ (i : Nat) (c : Cli), cutTokens (bs ++ 0 :: r) i (some p) c =
      cutTokens r (i + bs.length + 1) none (c.sccliTokenPush p) := by
  induction bs with
  | nil =>
      intro i c
      simp [cutTokens]
  | cons b bs ih =>
      intro i c
      obtain ⟨hb, hrest⟩ := not_or.mp (mt List.mem_cons.mpr hbs)
      rw [List.cons_append, cutTokens, if_pos (Ne.symm hb), Option.getD_some, ih hrest,
        List.length_cons]
      congr 1
      omega

theorem cutTokens_arguments (argv : List CStr) (i : Nat) (c : Cli) :
    cutTokens (argv.flatMap CStr.mem) i none c = (offsets i argv).foldl Cli.sccliTokenPush c := by
  induction argv generalizing i c with
  | nil => rfl
  | cons a argv ih =>
      obtain ⟨bs, hbs⟩ := a
      rw [List.flatMap_cons, CStr.mem, List.append_assoc, offsets]
      cases bs with
      | nil => simpa [cutTokens, CStr.length] using ih (i + 1) c
      | cons b bs =>
          obtain ⟨hb, hrest⟩ := not_or.mp (mt List.mem_cons.mpr hbs)
          rw [List.cons_append, cutTokens, if_pos (Ne.symm hb), Option.getD_none,
            List.singleton_append, cutTokens_inside hrest, ih,
            if_pos (by simp [CStr.length])]
          simp only [CStr.length, List.length_cons, List.foldl_cons]
          congr 2
          omega

/-- The pieces are the arguments that are not empty. -/
theorem map_tokenAt_offsets {buf : Block} (argv : List CStr) {w : List Byte}
    (h : buf.bytes = w ++ argv.flatMap CStr.mem) :
    (offsets w.length argv).map (Cli.tokenAt buf) = words argv := by
  induction argv generalizing w with
  | nil => rfl
  | cons a argv ih =>
      have hrest := ih (w := w ++ a.mem) (by rw [h, List.flatMap_cons, List.append_assoc])
      rw [List.length_append, CStr.length_mem, ← Nat.add_assoc] at hrest
      have hat : Cli.tokenAt buf w.length = a := by
        rw [Cli.tokenAt, h, List.drop_left, List.flatMap_cons, CStr.mem, List.append_assoc]
        exact CStr.before_append a _
      rw [offsets, words, List.filter_cons]
      by_cases ha : 0 < a.length
      · rw [if_pos ha, if_pos (by simpa using ha), List.map_cons, hat, hrest]
        rfl
      · rw [if_neg ha, if_neg (by simpa using ha), hrest]
        rfl

/-- **The state `sccli_tokenParser` is called in**: `buf` holds the arguments, and the ring the
last `MAX_TOKEN` of those that are not empty. -/
theorem sccliParser_buf (c : Cli) (argv : List CStr) :
    (sccliParser c argv).1.bytes = argv.flatMap CStr.mem ∧
      (sccliParser c argv).1.size = cliInbuf := by
  obtain ⟨hb, hs, -⟩ := layArguments_eq argv (Block.fresh cliInbuf) 0 rfl
  exact ⟨hb, hs⟩

theorem sccliParser_cli (c : Cli) (argv : List CStr) :
    (sccliParser c argv).2 = (offsets 0 argv).foldl Cli.sccliTokenPush c.sccliTokenInit := by
  obtain ⟨hb, -, hl⟩ := layArguments_eq argv (Block.fresh cliInbuf) 0 rfl
  have hbytes : (argv.foldl layArgument (Block.fresh cliInbuf, 0)).1.bytes.take
      (argv.foldl layArgument (Block.fresh cliInbuf, 0)).2 = argv.flatMap CStr.mem := by
    rw [hl, hb, List.take_length, Block.bytes_fresh, List.nil_append]
  rw [← cutTokens_arguments, ← hbytes]
  rfl

theorem sccliParser_left (c : Cli) (argv : List CStr) :
    (sccliParser c argv).2.left.map (Cli.tokenAt (sccliParser c argv).1) =
      (words argv).drop ((words argv).length - maxToken) := by
  have hwords : (offsets 0 argv).map (Cli.tokenAt (sccliParser c argv).1) = words argv :=
    map_tokenAt_offsets (w := []) argv (sccliParser_buf c argv).1
  have hlength : (offsets 0 argv).length = (words argv).length := by rw [← hwords, List.length_map]
  rw [sccliParser_cli, Cli.left_pushes, List.map_drop, hwords, hlength]

theorem sccliParser_tokenIdx (c : Cli) (argv : List CStr) :
    (sccliParser c argv).2.tokenIdx < maxToken := by
  rw [sccliParser_cli]
  exact Cli.tokenIdx_pushes _ (show 0 < maxToken by decide)

theorem sccliParser_ibuf (c : Cli) (argv : List CStr) : (sccliParser c argv).2.ibuf = c.ibuf := by
  rw [sccliParser_cli, Cli.ibuf_pushes]
  rfl

/-! ### Pops -/

section Pops

variable {buf : Block} {c : Cli}

/-- A token with room in `ibuf` is copied there. -/
theorem copied {t : CStr} {b : Block} (hsize : b.size = cliInbuf) (hb : b.InBounds)
    (ht : t.length + 1 ≤ cliInbuf) :
    let b' := (((Cursor.start b).putAll (t.bytes.map Cli.tolower)).poke 0).block
    b'.size = cliInbuf ∧ b'.InBounds ∧ CStr.before b'.bytes = lowered t := by
  intro b'
  have hstore : b' = b.store 0 (lowered t).mem := Cursor.poke_putAll_start b _
  have hlen : (lowered t).mem.length = t.length + 1 := by simp [lowered, CStr.length]
  rw [hstore]
  refine ⟨hsize, ?_, ?_⟩
  · rw [Block.inBounds_store (Nat.zero_le _), hlen, hsize]
    exact ⟨hb, by omega⟩
  · rw [Block.store, splice_zero, CStr.mem, List.append_assoc]
    exact CStr.before_append _ _

/-- **One pop** from a ring that holds `p` first. -/
theorem Pop.run_cons (k : Pop) (hc : c.Allocated) (hidx : c.tokenIdx < maxToken) {p : Nat}
    {ps : List Nat} (h : c.left = p :: ps) (hp : (Cli.tokenAt buf p).length + 1 ≤ cliInbuf) :
    (k.run buf c).1 = some (k.answer (Cli.tokenAt buf p)) ∧ (k.run buf c).2.left = ps ∧
      (k.run buf c).2.Allocated ∧ (k.run buf c).2.tokenIdx < maxToken := by
  obtain ⟨c', htake, hleft, hidx', hibuf⟩ := Cli.take_cons hidx h
  have hc' : c'.Allocated := by
    unfold Cli.Allocated
    rwa [hibuf]
  cases k with
  | pop =>
      simp only [Pop.run, Cli.sccliTokenPop, htake]
      exact ⟨rfl, hleft, hc', hidx'.trans_lt hidx⟩
  | popWoCase =>
      obtain ⟨hs, hb, htext⟩ := copied hc'.1 hc'.2 hp
      simp only [Pop.run, Cli.sccliTokenPopWoCase, htake]
      exact ⟨congrArg some htext, hleft, ⟨hs, hb⟩, hidx'.trans_lt hidx⟩

theorem Pop.run_nil (k : Pop) (hidx : c.tokenIdx < maxToken) (h : c.left = []) :
    k.run buf c = (none, c) := by
  cases k <;> simp only [Pop.run, Cli.sccliTokenPop, Cli.sccliTokenPopWoCase, Cli.take_nil hidx h]

/-- **Pops in any order** answer what the ring holds, and then NULL; `ibuf` is not overrun where
it has room for every token. -/
theorem pops_eq (ks : List Pop) {c : Cli} (hc : c.Allocated) (hidx : c.tokenIdx < maxToken)
    (hfit : ∀ p ∈ c.left, (Cli.tokenAt buf p).length + 1 ≤ cliInbuf) :
    (pops buf ks c).1 = answers ks (c.left.map (Cli.tokenAt buf)) ∧
      (pops buf ks c).2.ibuf.InBounds := by
  induction ks generalizing c with
  | nil => exact ⟨rfl, hc.2⟩
  | cons k ks ih =>
      cases h : c.left with
      | nil =>
          obtain ⟨hrs, hb⟩ := ih hc hidx hfit
          simp only [pops, Pop.run_nil k hidx h, List.map_nil, answers]
          rw [h] at hrs
          exact ⟨congrArg _ hrs, hb⟩
      | cons p ps =>
          rw [h] at hfit
          obtain ⟨hr, hleft, hc', hidx'⟩ := k.run_cons hc hidx h (hfit p List.mem_cons_self)
          obtain ⟨hrs, hb⟩ := ih hc' hidx' (by
            rw [hleft]
            exact fun q hq => hfit q (List.mem_cons_of_mem _ hq))
          rw [hleft] at hrs
          simp only [pops, hr, List.map_cons, answers, hrs]
          exact ⟨trivial, hb⟩

/-- Two queues that answer all pops alike are the same. -/
theorem answers_inj {as bs : List CStr} (h : ∀ ks, answers ks as = answers ks bs) : as = bs := by
  induction as generalizing bs with
  | nil =>
      cases bs with
      | nil => rfl
      | cons b bs => simpa [answers] using h [.pop]
  | cons a as ih =>
      cases bs with
      | nil => simpa [answers] using h [.pop]
      | cons b bs =>
          have hab : a = b := by simpa [answers, Pop.answer] using h [.pop]
          rw [hab, ih fun ks => by simpa [answers, hab] using h (.pop :: ks)]

end Pops

/-- An argument that is not empty fits where all of them do. -/
theorem length_word {argv : List CStr} {a : CStr} (h : a ∈ words argv) :
    a.length + 1 ≤ (argv.flatMap CStr.mem).length := by
  obtain ⟨s, t, rfl⟩ := List.append_of_mem (List.mem_of_mem_filter h)
  simp only [List.flatMap_append, List.flatMap_cons, List.length_append, CStr.length_mem]
  omega

theorem allocated_sccliInit : sccliInit.Allocated := ⟨rfl, Block.inBounds_zeroed _⟩

theorem sccliParser_inBounds (c : Cli) (argv : List CStr) :
    (sccliParser c argv).1.InBounds ↔ (argv.flatMap CStr.mem).length ≤ cliInbuf := by
  obtain ⟨hbytes, hsize⟩ := sccliParser_buf c argv
  rw [Block.InBounds, hbytes, hsize]

/-- What pops answer where `buf` is not overrun. -/
theorem pops_sccliParser {c : Cli} (hc : c.Allocated) {argv : List CStr}
    (hfit : (argv.flatMap CStr.mem).length ≤ cliInbuf) (ks : List Pop) :
    (pops (sccliParser c argv).1 ks (sccliParser c argv).2).1 =
        answers ks ((words argv).drop ((words argv).length - maxToken)) ∧
      (pops (sccliParser c argv).1 ks (sccliParser c argv).2).2.ibuf.InBounds := by
  have hc' : (sccliParser c argv).2.Allocated := by
    unfold Cli.Allocated
    rwa [sccliParser_ibuf]
  have hleft := sccliParser_left c argv
  rw [← hleft]
  refine pops_eq ks hc' (sccliParser_tokenIdx c argv) fun p hp => ?_
  have hmem : Cli.tokenAt (sccliParser c argv).1 p ∈ words argv := by
    refine List.mem_of_mem_drop (i := (words argv).length - maxToken) ?_
    rw [← hleft]
    exact List.mem_map_of_mem hp
  exact (length_word hmem).trans hfit

/-- Where nothing is lost, there was room for everything. -/
theorem Lossless.fits {argv : List CStr} (h : Lossless argv) :
    (argv.flatMap CStr.mem).length ≤ cliInbuf ∧ (words argv).length ≤ maxToken := by
  have hc := allocated_sccliInit
  obtain ⟨hb, hks⟩ : (sccliParser sccliInit argv).1.InBounds ∧ _ := h _ hc
  have hfit := (sccliParser_inBounds _ _).mp hb
  -- the ring holds the last tokens only, and the answers tell two queues apart
  have hall : words argv = (words argv).drop ((words argv).length - maxToken) :=
    answers_inj fun ks => (hks ks).1.symm.trans (pops_sccliParser hc hfit ks).1
  have hlength := congrArg List.length hall
  rw [List.length_drop] at hlength
  exact ⟨hfit, by omega⟩

/-- **Tokenization is lossless** just when the arguments, each with its NUL, fit into `buf` and at
most `MAX_TOKEN` of them are not empty. -/
theorem sccliParser_lossless_iff (argv : List CStr) :
    Lossless argv ↔
      (argv.flatMap CStr.mem).length ≤ cliInbuf ∧ (words argv).length ≤ maxToken := by
  refine ⟨Lossless.fits, ?_⟩
  rintro ⟨hfit, hcount⟩ c hc
  have hall : (words argv).drop ((words argv).length - maxToken) = words argv := by
    rw [Nat.sub_eq_zero_of_le hcount, List.drop_zero]
  refine ⟨(sccliParser_inBounds c argv).mpr hfit, fun ks => ?_⟩
  have hpops := pops_sccliParser hc hfit ks
  rwa [hall] at hpops

/-- One token too many: the last of 51 overwrites the first. -/
theorem sccliParser_loses_token : ¬ ∀ argv : List CStr, Lossless argv := by
  intro h
  have hcount := (h (List.replicate 51 (.text "a"))).fits.2
  have hwords : words (List.replicate 51 (.text "a")) = List.replicate 51 (.text "a") := by
    rw [words, List.filter_replicate, if_pos (by decide)]
  rw [hwords, List.length_replicate] at hcount
  exact absurd hcount (by decide)

end LinksysCli
