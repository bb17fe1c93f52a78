import Wap4410n.Nvram.Set
import Wap4410n.Scfg.Server

/-!
# Scfg — the multiple get

Where the server is built with `MULTI_GET`, the payload of a `SCFG_GET` is a list of names closed by
an empty one, and the reply should list `name=value` for each.  The reply grows by `sprintf` of
`buf` into itself: `%s` copies the string in `buf`, and a NUL and the new pair come behind it, while
`buf_len` counts all of them.

`Listing` is the text of such a reply, and `Gets` says what the calls of `nvram_get` return.

* `sprintfPair_behind`: a pair is printed behind the first, over the pairs that stood there.
* `multiGet_behind`: a run of the loop leaves the first pair and, behind it, the last.
* `scfgRunMulti_reply`: the reply, whatever stands behind the first pair.
* `multiGet_listsAll_iff`: it lists the pairs for one name and for two, and for no longer list.
-/

namespace Wap4410n.Scfg

open CLib CLib.Run
open Nvram (Sys Files Name Store Represents nvramSize nvramGet nvramGetFun endSymbol line)

/-! ### The command -/

/-- `sprintf(buf,"%s=%s",pt,value)` for the first pair; `sprintf(buf,"%s%c%s=%s%c",buf,token,pt,
value,token)` for the others, where the string in `buf` is copied to where it stands. -/
def Locals.sprintfPair (l : Locals) (env : Env) (pair : CStr × CStr) : Run Obj Locals :=
  let count := l.bufLen + (pair.2.length + pair.1.length + 2)
  if l.bufLen = 0 then
    .ok { l with buf := l.buf.store 0 (line pair.1 pair.2).mem, bufLen := count }
  else do
    let s ← l.string env
    let text := s.bytes ++ endSymbol :: (line pair.1 pair.2).bytes ++ [endSymbol]
    return { l with buf := l.buf.store 0 (text ++ [0]), bufLen := count }

/-- `while(pt && *pt){ ... }`, which makes the `i`-th call of `libnv` next. -/
def multiGet (env : Env) (i : Nat) : List Byte → Locals → Served
  | [], l => (.error (.outside .payload), l)
  | b :: pt, l =>
    if b = endSymbol then (.ok .ok, l) else
    match nvramGet (env.sys i) l.files ⟨.payload, some (b :: pt)⟩ with
    | .error e => (.error e, l)
    | .ok (none, fs) => (.ok .error, { l with files := fs })
    | .ok (some value, fs) =>
      let l := { l with files := fs }
      -- `v_len=strlen(value)` and `n_len=strlen(pt)`
      match stringAt .value value, stringAt .payload (b :: pt) with
      | .error e, _ => (.error e, l)
      | .ok _, .error e => (.error e, l)
      | .ok v, .ok n =>
        match l.sprintfPair env (n, v) with
        | .error e => (.error e, l)
        | .ok l => multiGet env (i + 1) (pt.drop n.length) l
termination_by pt => pt.length
decreasing_by simp only [List.length_drop, List.length_cons]; omega

/-- The locals with every byte of `buf` as the stack has it. -/
def Locals.onStack (l : Locals) (env : Env) : Locals :=
  { l with buf := ⟨nvramSize, l.buf.contents env.stack nvramSize⟩ }

/-- `buf[buf_len++]=END_SYMBOL;` -/
def Locals.close (l : Locals) : Locals :=
  { l with buf := l.buf.store l.bufLen [endSymbol], bufLen := l.bufLen + 1 }

/-- `case SCFG_GET`, where `MULTI_GET` is defined. -/
def scfgGetMulti (env : Env) (payload : Ptr Obj) (l : Locals) : Served :=
  let l := l.onStack env
  let looped : Served := match payload.mem with
    | none => (.ok .ok, l)
    | some pt => multiGet env 0 pt l
  match looped with
  | (.ok .ok, l) => (.ok .ok, l.close)
  | stopped => stopped

/-- `scfg_run`, where `MULTI_GET` is defined. -/
def scfgRunMulti (env : Env) (fs : Files) (req : Request) : Served :=
  match Cmd.ofCode req.header.cmd with
  | some .get => scfgGetMulti env req.pt (.start fs)
  | _ => scfgRun env fs req

/-! ### Requests and replies -/

/-- The names, each with its NUL, and an empty one. -/
def nameList (names : List CStr) : List Byte := names.flatMap CStr.mem ++ [endSymbol]

/-- `name=value` and a NUL for each pair. -/
def pairText (pairs : List (CStr × CStr)) : List Byte := pairs.flatMap fun r => (line r.1 r.2).mem

/-- What a reply should be. -/
def Listing (pairs : List (CStr × CStr)) : List Byte := pairText pairs ++ [endSymbol]

/-- The calls of `nvram_get` for the names, from the `i`-th on, return the values, none of them
NULL; a call may move a value from the default file into the shadow. -/
inductive Gets (env : Env) : Nat → Files → List (CStr × CStr) → Files → Prop where
  | nil (i : Nat) (fs : Files) : Gets env i fs [] fs
  | cons {i : Nat} {fs fs₁ fs₂ : Files} {r : CStr × CStr} {rs : List (CStr × CStr)}
      {value : List Byte}
      (hget : ∀ p : Ptr Obj, p.Holds r.1 → nvramGet (env.sys i) fs p = .ok (some value, fs₁))
      (hvalue : stringAt Obj.value value = .ok r.2) (hrs : Gets env (i + 1) fs₁ rs fs₂) :
      Gets env i fs (r :: rs) fs₂

/-- The reply lists the pairs, and its header gives its length. -/
def ListsAll (env : Env) (fs : Files) (req : Request) (pairs : List (CStr × CStr)) : Prop :=
  ∃ l, scfgRunMulti env fs req = (.ok .ok, l) ∧ l.buf.InBounds ∧
    (answer env .ok l).2 = Listing pairs ∧
    (answer env .ok l).1.len.toNat = (Listing pairs).length

section Text

theorem pairText_cons (r : CStr × CStr) (rs : List (CStr × CStr)) :
    pairText (r :: rs) = (line r.1 r.2).mem ++ pairText rs := List.flatMap_cons

theorem nameList_cons (n : CStr) (ns : List CStr) : nameList (n :: ns) = n.mem ++ nameList ns := by
  simp [nameList]

/-- What `buf_len` is increased by is the length of the pair with its NUL. -/
theorem length_mem_line (r : CStr × CStr) :
    (line r.1 r.2).mem.length = r.2.length + r.1.length + 2 := by
  rw [CStr.length_mem, Nvram.length_line]
  omega

end Text

/-! ### The loop -/

section Loop

variable {env : Env}

/-- An iteration at a name whose value is found. -/
theorem multiGet_cons {i : Nat} {l : Locals} {fs₁ : Files} {r : CStr × CStr} {value : List Byte}
    (hne : r.1 ≠ .empty)
    (hget : ∀ p : Ptr Obj, p.Holds r.1 → nvramGet (env.sys i) l.files p = .ok (some value, fs₁))
    (hvalue : stringAt Obj.value value = .ok r.2) {l₁ : Locals}
    (hprint : { l with files := fs₁ }.sprintfPair env r = .ok l₁) (rest : List Byte) :
    multiGet env i (r.1.mem ++ rest) l = multiGet env (i + 1) rest l₁ := by
  obtain ⟨b, t, hbt⟩ := List.exists_cons_of_ne_nil fun h => hne (CStr.ext h)
  have hb : b ≠ endSymbol := CStr.ne_zero (hbt ▸ List.mem_cons_self)
  have hpt : r.1.mem ++ rest = b :: (t ++ 0 :: rest) := by
    rw [CStr.mem, hbt]
    simp
  have hmem : b :: (t ++ 0 :: rest) = r.1.bytes ++ 0 :: rest := by rw [hbt]; rfl
  have hdrop : (t ++ 0 :: rest).drop r.1.length = rest := by
    have hlen : (t ++ [(0 : Byte)]).length = r.1.length := by
      rw [CStr.length, hbt]
      simp
    rw [List.append_cons, ← hlen, List.drop_left]
  have hstring : stringAt Obj.payload (b :: (t ++ 0 :: rest)) = .ok r.1 := by
    rw [hmem, stringAt_append]
  rw [hpt, multiGet, if_neg hb, hget _ ⟨rest, congrArg some hmem⟩]
  simp only [hvalue, hstring]
  rw [hprint]
  simp only [hdrop]

/-- The buffer holds `first` and its NUL, with `tail` behind them, and `buf_len` counts them. -/
structure Holding (first : CStr) (tail : List Byte) (l : Locals) : Prop where
  bytes_eq : l.buf.bytes = first.mem ++ tail
  whole : l.buf.bytes.length = nvramSize
  size_eq : l.buf.size = nvramSize
  counted : first.length + 1 ≤ l.bufLen

/-- What `sprintf` prints at the front of the buffer stays inside it. -/
theorem holding_store {first : CStr} {l : Locals} (text : List Byte) (count : Nat)
    (hwhole : l.buf.bytes.length = nvramSize) (hsize : l.buf.size = nvramSize)
    (hroom : (first.mem ++ text).length ≤ nvramSize) (hcount : first.length + 1 ≤ count) :
    ∃ u, Holding first (text ++ u)
      { l with buf := l.buf.store 0 (first.mem ++ text), bufLen := count } := by
  refine ⟨_, by rw [Block.store, splice_zero, List.append_assoc], ?_, hsize, hcount⟩
  rw [Block.store, length_splice (Nat.zero_le _), hwhole, Nat.zero_add]
  exact Nat.max_eq_left hroom

/-- **A pair behind others.**  The string in the buffer is the first pair, so that the pair comes
where the second stood; `buf_len` counts it behind all of them. -/
theorem sprintfPair_behind (env : Env) {first : CStr} {tail : List Byte} {l : Locals}
    (h : Holding first tail l) (r : CStr × CStr)
    (hroom : l.bufLen + (line r.1 r.2).mem.length + 1 ≤ nvramSize) :
    ∃ u l₁, l.sprintfPair env r = .ok l₁ ∧ Holding first ((line r.1 r.2).mem ++ 0 :: u) l₁ ∧
      l₁.files = l.files ∧ l₁.bufLen = l.bufLen + (line r.1 r.2).mem.length := by
  have hcounted := h.counted
  have hstring : l.string env = .ok first := by
    have hmem : l.buf.bytes = first.bytes ++ 0 :: tail := by
      rw [h.bytes_eq, CStr.mem, List.append_assoc]
      rfl
    rw [Locals.string, Block.contents_of_le (Nat.le_of_eq h.whole.symm), ← h.whole,
      List.take_length, hmem, stringAt_append]
  have htext : first.bytes ++ endSymbol :: (line r.1 r.2).bytes ++ [endSymbol] ++ [0] =
      first.mem ++ ((line r.1 r.2).mem ++ [0]) := by
    simp [CStr.mem, endSymbol]
  have hlen : (first.mem ++ ((line r.1 r.2).mem ++ [0])).length ≤ nvramSize := by
    rw [List.length_append, List.length_append, CStr.length_mem first, List.length_singleton]
    omega
  obtain ⟨u, hu⟩ := holding_store _ (l.bufLen + (r.2.length + r.1.length + 2)) h.whole
    h.size_eq hlen (by omega)
  rw [List.append_assoc, List.singleton_append] at hu
  refine ⟨u, _, ?_, hu, rfl, by rw [length_mem_line]⟩
  rw [← htext, Locals.sprintfPair, if_neg (by omega), hstring]
  rfl

/-- The first pair. -/
theorem sprintfPair_first (env : Env) {l : Locals} (hcount : l.bufLen = 0)
    (hwhole : l.buf.bytes.length = nvramSize) (hsize : l.buf.size = nvramSize) (r : CStr × CStr)
    (hroom : (line r.1 r.2).mem.length ≤ nvramSize) :
    ∃ u l₁, l.sprintfPair env r = .ok l₁ ∧ Holding (line r.1 r.2) u l₁ ∧ l₁.files = l.files ∧
      l₁.bufLen = (line r.1 r.2).mem.length := by
  have hlen := length_mem_line r
  obtain ⟨u, hu⟩ := holding_store [] (r.2.length + r.1.length + 2) hwhole hsize
    (by rwa [List.append_nil]) (by rw [← CStr.length_mem]; omega)
  rw [List.append_nil] at hu
  refine ⟨u, _, ?_, hu, rfl, hlen.symm⟩
  rw [Locals.sprintfPair, if_pos hcount, hcount, Nat.zero_add]

/-- What stands behind the first pair after the others have been printed where `tail` stood. -/
def Shown (tail : List Byte) : List (CStr × CStr) → List Byte → Prop
  | [], m => m = tail
  | r :: rs, m => ∃ u, Shown ((line r.1 r.2).mem ++ 0 :: u) rs m

/-- It is the last of them. -/
theorem Shown.last {tail m : List Byte} {r : CStr × CStr} {rs : List (CStr × CStr)}
    (h : Shown tail (r :: rs) m) : ∃ (s : CStr) (u : List Byte), m = s.bytes ++ 0 :: 0 :: u := by
  induction rs generalizing tail r with
  | nil =>
      obtain ⟨u, rfl⟩ := h
      exact ⟨line r.1 r.2, u, by simp [CStr.mem]⟩
  | cons q rs ih =>
      obtain ⟨u, hu⟩ := h
      exact ih hu

/-- **The loop behind the first pair.**  All the pairs are counted, and the last is shown. -/
theorem multiGet_behind {first : CStr} {rs : List (CStr × CStr)} {i : Nat} {fs fs' : Files}
    (hget : Gets env i fs rs fs') {tail : List Byte} {l : Locals} (hfiles : l.files = fs)
    (h : Holding first tail l) (hne : ∀ r ∈ rs, r.1 ≠ .empty)
    (hroom : l.bufLen + (pairText rs).length + 1 ≤ nvramSize) :
    ∃ m l', multiGet env i (nameList (rs.map Prod.fst)) l = (.ok .ok, l') ∧
      Holding first m l' ∧ Shown tail rs m ∧ l'.bufLen = l.bufLen + (pairText rs).length := by
  induction hget generalizing tail l with
  | nil i fs => exact ⟨tail, l, by simp [nameList, multiGet], h, rfl, rfl⟩
  | @cons i fs fs₁ fs₂ r rs value hcall hvalue _ ih =>
      subst hfiles
      rw [pairText_cons, List.length_append] at hroom ⊢
      have h₁ : Holding first tail { l with files := fs₁ } :=
        ⟨h.bytes_eq, h.whole, h.size_eq, h.counted⟩
      obtain ⟨u, l₁, hprint, hholds, hfiles, hcount⟩ := sprintfPair_behind env h₁ r (by
        show l.bufLen + _ + 1 ≤ _
        omega)
      obtain ⟨m, l', hrun, hm, hshown, hlen⟩ := ih hfiles hholds
        (fun q hq => hne q (List.mem_cons_of_mem _ hq)) (by
          rw [hcount]
          show l.bufLen + _ + _ + 1 ≤ _
          omega)
      refine ⟨m, l', ?_, hm, ⟨u, hshown⟩, ?_⟩
      · rw [List.map_cons, nameList_cons,
          multiGet_cons (hne r List.mem_cons_self) hcall hvalue hprint, hrun]
      · rw [hlen, hcount, Nat.add_assoc]

end Loop

/-! ### The reply -/

section Reply

variable {env : Env} {fs fs' : Files} {req : Request} {r : CStr × CStr} {rs : List (CStr × CStr)}

/-- **The reply**: the first pair, as much of what stands behind it as the other pairs are long, and
a NUL. -/
theorem scfgRunMulti_reply (hcmd : req.cmd = Cmd.get.code)
    (hpayload : req.payload = nameList ((r :: rs).map Prod.fst))
    (hget : Gets env 0 fs (r :: rs) fs') (hne : ∀ q ∈ r :: rs, q.1 ≠ .empty)
    (hfit : (Listing (r :: rs)).length ≤ nvramSize) :
    ∃ l tail m, scfgRunMulti env fs req = (.ok .ok, l) ∧ l.buf.InBounds ∧ Shown tail rs m ∧
      answer env .ok l = (⟨scmMagic, scfgOk, .ofNat (Listing (r :: rs)).length⟩,
        (line r.1 r.2).mem ++ m.take (pairText rs).length ++ [endSymbol]) := by
  have hlen : (Listing (r :: rs)).length =
      (line r.1 r.2).mem.length + (pairText rs).length + 1 := by
    rw [Listing, pairText_cons, List.length_append, List.length_append, List.length_singleton]
  rw [hlen] at hfit ⊢
  cases hget with
  | @cons _ _ fs₁ _ _ _ value hcall hvalue hrs =>
    let l₀ : Locals := (Locals.start fs).onStack env
    have hwhole : l₀.buf.bytes.length = nvramSize := Block.length_contents _ _ _
    obtain ⟨u, l₁, hprint, hholds, hfiles, hcount⟩ := sprintfPair_first env
      (l := { l₀ with files := fs₁ }) rfl hwhole rfl r (by omega)
    obtain ⟨m, l', hrun, hm, hshown, hcount'⟩ := multiGet_behind hrs hfiles hholds
      (fun q hq => hne q (List.mem_cons_of_mem _ hq)) (by rw [hcount]; omega)
    rw [hcount] at hcount'
    have hpt : req.pt.mem = some (nameList ((r :: rs).map Prod.fst)) := by
      rw [← hpayload]
      refine if_neg fun h => ?_
      rw [hpayload] at h
      simp [nameList] at h
    have hloop : multiGet env 0 (nameList ((r :: rs).map Prod.fst)) l₀ = (.ok .ok, l') := by
      rw [List.map_cons, nameList_cons, multiGet_cons (hne r List.mem_cons_self) hcall
        hvalue hprint, hrun]
    have hserved : scfgRunMulti env fs req = (.ok .ok, l'.close) := by
      have hcode : Cmd.ofCode req.header.cmd = some .get := by
        show Cmd.ofCode req.cmd = _
        rw [hcmd, Cmd.ofCode_code]
      unfold scfgRunMulti
      rw [hcode]
      unfold scfgGetMulti
      simp only [hpt]
      rw [hloop]
    have hle : l'.bufLen ≤ l'.buf.bytes.length := by rw [hm.whole]; omega
    have hin : l'.close.buf.InBounds := by
      refine (Block.inBounds_store hle).mpr ⟨?_, ?_⟩
      · exact Nat.le_of_eq (hm.whole.trans hm.size_eq.symm)
      · rw [hm.size_eq, List.length_singleton]
        omega
    refine ⟨l'.close, u, m, hserved, hin, hshown, ?_⟩
    have hshort : l'.bufLen + 1 ≤ l'.close.buf.bytes.length := by
      show _ ≤ (splice _ _ _).length
      rw [length_splice hle]
      exact Nat.le_max_right _ _
    have hreply : l'.close.buf.contents env.stack (l'.bufLen + 1) =
        (line r.1 r.2).mem ++ m.take (pairText rs).length ++ [endSymbol] := by
      have htake : (splice l'.buf.bytes l'.bufLen [endSymbol]).take
          (l'.bufLen + [endSymbol].length) = l'.buf.bytes.take l'.bufLen ++ [endSymbol] :=
        take_splice hle
      rw [Block.contents_of_le hshort]
      refine htake.trans ?_
      rw [hm.bytes_eq, hcount', List.take_length_add_append]
    show (Header.mk _ _ (.ofNat (l'.bufLen + 1)), _) = _
    rw [← hcount']
    exact Prod.ext rfl hreply

/-- A list of pairs that is what stands behind the first. -/
theorem shown_pairText {tail m : List Byte} (h : Shown tail rs m) (hne : ∀ q ∈ rs, q.1 ≠ .empty) :
    m.take (pairText rs).length = pairText rs ↔ rs.length ≤ 1 := by
  cases rs with
  | nil => simp [pairText]
  | cons p rs =>
      cases rs with
      | nil =>
          obtain ⟨u, hu⟩ := h
          rw [hu, pairText_cons, pairText, List.flatMap_nil, List.append_nil, List.take_left]
          exact iff_of_true rfl (Nat.le_refl _)
      | cons q rs =>
          refine iff_of_false (fun htake => ?_) (by simp)
          -- both sides begin with a string; behind it one has a NUL, the other a name
          obtain ⟨s, u, hm⟩ := h.last
          obtain ⟨b, t, hbt⟩ := List.exists_cons_of_ne_nil fun h =>
            hne q (List.mem_cons_of_mem _ List.mem_cons_self) (CStr.ext h)
          have hb : b ≠ 0 := CStr.ne_zero (hbt ▸ List.mem_cons_self)
          have hlist : pairText (p :: q :: rs) =
              (line p.1 p.2).bytes ++
              0 :: b :: (t ++ Nvram.eqSign :: (q.2.mem ++ pairText rs)) := by
            simp [pairText, CStr.mem, hbt]
          have hsplit := List.take_append_drop (pairText (p :: q :: rs)).length m
          rw [htake, hlist, List.append_assoc, List.cons_append, List.cons_append, hm] at hsplit
          have hs : line p.1 p.2 = s := by
            have := congrArg CStr.before hsplit
            rwa [CStr.before_append, CStr.before_append] at this
          rw [hs] at hsplit
          exact hb (List.cons.inj (List.cons.inj (List.append_cancel_left hsplit)).2).1

/-- The reply is right where what stands behind the first pair is the others. -/
theorem listsAll_iff_length (hcmd : req.cmd = Cmd.get.code)
    (hpayload : req.payload = nameList ((r :: rs).map Prod.fst))
    (hget : Gets env 0 fs (r :: rs) fs') (hne : ∀ q ∈ r :: rs, q.1 ≠ .empty)
    (hfit : (Listing (r :: rs)).length ≤ nvramSize) :
    ListsAll env fs req (r :: rs) ↔ rs.length ≤ 1 := by
  obtain ⟨l, tail, m, hrun, hin, hshown, hans⟩ :=
    scfgRunMulti_reply hcmd hpayload hget hne hfit
  rw [← shown_pairText hshown fun q hq => hne q (List.mem_cons_of_mem _ hq)]
  have hsize : nvramSize < 2 ^ 32 := by decide
  have hlen : (UInt32.ofNat (Listing (r :: rs)).length).toNat = (Listing (r :: rs)).length := by
    rw [UInt32.toNat_ofNat', Nat.mod_eq_of_lt (Nat.lt_of_le_of_lt hfit hsize)]
  have hreply : (line r.1 r.2).mem ++ m.take (pairText rs).length ++ [endSymbol] =
      Listing (r :: rs) ↔ m.take (pairText rs).length = pairText rs := by
    rw [Listing, pairText_cons, List.append_left_inj, List.append_right_inj]
  rw [← hreply]
  constructor
  · rintro ⟨l', hrun', -, hlist, -⟩
    rw [hrun] at hrun'
    obtain rfl := (Prod.mk.inj hrun').2
    rw [hans] at hlist
    exact hlist
  · intro hlist
    refine ⟨l, hrun, hin, ?_, ?_⟩
    · rw [hans]
      exact hlist
    · rw [hans]
      exact hlen

/-- **The multiple get lists what was asked for up to two names.**  For every payload of names that
are all defined, with a reply that fits, the reply is the pairs in the order of the request and a
NUL, with its length in the header, just when there are no more than two. -/
theorem multiGet_listsAll_iff {pairs : List (CStr × CStr)} (hpairs : pairs ≠ [])
    (hcmd : req.cmd = Cmd.get.code) (hpayload : req.payload = nameList (pairs.map Prod.fst))
    (hget : Gets env 0 fs pairs fs') (hne : ∀ q ∈ pairs, q.1 ≠ .empty)
    (hfit : (Listing pairs).length ≤ nvramSize) :
    ListsAll env fs req pairs ↔ pairs.length ≤ 2 := by
  obtain ⟨r, rs, rfl⟩ := List.exists_cons_of_ne_nil hpairs
  rw [listsAll_iff_length hcmd hpayload hget hne hfit, List.length_cons, Nat.add_le_add_iff_right]

end Reply

/-! ### Names of the shadow -/

/-- The pairs of a store are defined where every call is served. -/
theorem gets_represents {env : Env} (hs : ∀ i, (env.sys i).Serves) {fs : Files} {st : Store}
    (hf : Represents fs.shadow st) (hne : fs.shadow ≠ some []) (pairs : List (Name × CStr))
    (hst : ∀ r ∈ pairs, st.get r.1 = some r.2) (i : Nat) :
    Gets env i fs (pairs.map fun r => (r.1.str, r.2)) fs := by
  induction pairs generalizing i with
  | nil => exact .nil i fs
  | cons r rs ih =>
      have hvalue : stringAt Obj.value r.2.mem = .ok r.2 := stringAt_mem r.2
      refine .cons (fun p hp => ?_) hvalue
        (ih (fun q hq => hst q (List.mem_cons_of_mem _ hq)) (i + 1))
      rw [nvramGet, Nvram.nvramGetFun_represents (hs i) hf hne hp, hst r List.mem_cons_self]
      rfl

theorem noNul_one : (0 : Byte) ∉ ascii ['1'] := by decide

/-- A store of three names. -/
def threeNames : Store :=
  ⟨[(.lit ['x'], .lit ['1'] noNul_one), (.lit ['y'], .lit ['2']), (.lit ['z'], .lit ['3'])],
    by decide⟩

/-- The first `k` of them with their values. -/
def firstPairs (k : Nat) : List (CStr × CStr) :=
  (threeNames.recs.take k).map fun r => (r.1.str, r.2)

/-- The shadow that holds them. -/
def threeFiles : Files := ⟨.filled nvramSize 0xff, some (Nvram.encode threeNames.recs), none⟩

theorem gets_firstPairs (k : Nat) : Gets .ideal 0 threeFiles (firstPairs k) threeFiles := by
  refine gets_represents (fun _ => Nvram.Sys.serves_ideal) (.file threeNames)
    (by decide) _ (fun r hr => ?_) 0
  have hall : ∀ r ∈ threeNames.recs, threeNames.get r.1 = some r.2 := by decide
  exact hall r (List.mem_of_mem_take hr)

/-- The two pairs are listed. -/
theorem multiGet_listsAll_iff_two :
    ListsAll .ideal threeFiles ⟨Cmd.get.code, nameList ((firstPairs 2).map Prod.fst), by decide⟩
      (firstPairs 2) :=
  (multiGet_listsAll_iff (by decide) rfl rfl (gets_firstPairs 2) (by decide) (by decide)).mpr
    (by decide)

/-- `x`, `y` and `z` are defined, their pairs would fit, and the reply does not list them. -/
theorem three_not_listed :
    Gets .ideal 0 threeFiles (firstPairs 3) threeFiles ∧
      (∀ q ∈ firstPairs 3, q.1 ≠ .empty) ∧ (Listing (firstPairs 3)).length ≤ nvramSize ∧
      ¬ ListsAll .ideal threeFiles
        ⟨Cmd.get.code, nameList ((firstPairs 3).map Prod.fst), by decide⟩ (firstPairs 3) := by
  refine ⟨gets_firstPairs 3, by decide, by decide, fun h => ?_⟩
  have hlen := (listsAll_iff_length rfl rfl (gets_firstPairs 3) (by decide) (by decide)).mp h
  exact absurd hlen (by decide)

end Wap4410n.Scfg
