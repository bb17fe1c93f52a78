import Mathlib.Data.List.Find
import Wap4410n.Cli.Tokens

/-!
# CLI — command words

`sccli_tokenParser` pops a token in lower case and looks for the row of a parse table that it
names.  A row of the same name is taken at once.  Otherwise the rows are compared with the token
column by column, each counting in `abbrevMatchCnt` how far it agrees from its first byte on, and
the first row that agrees furthest is called if the token abbreviates it.

* `resolve_eq`: the row called is the first of the token's name or, failing that, the leading row
  if the token abbreviates it.
* `sccliTokenParser_resolves_iff`: that is the row the token means just when the leading row does
  not mislead (`Clear`).
-/

namespace LinksysCli

open CLib

/-! ### The return codes -/

def cliParseOk : Int := 0
def cliParseError : Int := -1
def cliParseNoValue : Int := 2
def cliParseTooFew : Int := 3
def cliParseUnknown : Int := 5
def cliParseInvalidParameter : Int := 7

/-! ### Parse tables -/

/-- `struct parse_token_s`: a handler takes the word it is called by, with its own next table
already applied, and acts on the CLI and on the rest of the device. -/
structure Row (σ : Type) where
  pCmd : CStr
  pProtected : Option CStr
  fHandler : CStr → Cli → σ → Int × Cli × σ

variable {σ : Type}

def cliSuperuser : CStr := .text "superuser"

def cliHiddencmd : CStr := .text "."

def sccliIsSuperUser : Bool := true

def sccliTokenIsValidOpMode (_c : Cli) (_r : Row σ) : Bool := true

def sccliTokenIsProtected (r : Row σ) : Bool := r.pProtected = some cliSuperuser

def sccliTokenIsHidden (r : Row σ) : Bool := r.pProtected = some cliHiddencmd

/-- `*(s + k)`: the NUL, and what lies behind it, as 0. -/
def charAt (s : CStr) (k : Nat) : Byte := s.bytes.getD k 0

/-- `sccli_tokencmp(p1, p2, len) == 0` -/
def sccliTokencmp (p1 p2 : CStr) (len : Nat) : Bool :=
  (List.range len).all fun i => Cli.tolower (charAt p1 i) = Cli.tolower (charAt p2 i)

/-! ### The marks of a table -/

/-- A row with its `abbrevMatchCnt`, which every parse sets to 0 first. -/
abbrev Mark (σ : Type) : Type := Row σ × Nat

/-- The first row of the same name is marked, and `match` is set. -/
def markExact (c : Cli) (p : CStr) : List (Mark σ) → List (Mark σ) × Nat
  | [] => ([], 0)
  | (r, n) :: ms =>
      if p.length = r.pCmd.length && sccliTokenIsValidOpMode c r &&
          sccliTokencmp p r.pCmd p.length then
        ((r, p.length) :: ms, 1)
      else
        let (ms', m) := markExact c p ms
        ((r, n) :: ms', m)

/-- The rows that abbreviations pass over. -/
def skipped (c : Cli) (r : Row σ) : Bool :=
  (c.securityCheck && sccliTokenIsProtected r && !sccliIsSuperUser) ||
    sccliTokenIsHidden r || !sccliTokenIsValidOpMode c r

/-- `*(p+k) && *(pTblx->pCmd+k) && *(p+k) == *(pTblx->pCmd+k)` -/
def agrees (p : CStr) (k : Nat) (r : Row σ) : Bool :=
  charAt p k ≠ 0 && charAt r.pCmd k ≠ 0 && charAt p k = charAt r.pCmd k

/-- The `k`-th column of all rows, and `match` so far. -/
def column (c : Cli) (p : CStr) (k : Nat) : List (Mark σ) → Nat → List (Mark σ) × Nat
  | [], m => ([], m)
  | (r, n) :: ms, m =>
      if !skipped c r && agrees p k r then
        let (ms', m') := column c p k ms (if k = 0 then m + 1 else m)
        ((r, if k = n then n + 1 else n) :: ms', m')
      else
        let (ms', m') := column c p k ms m
        ((r, n) :: ms', m')

/-- The columns below the `n`-th. -/
def columns (c : Cli) (p : CStr) (n : Nat) (ms : List (Mark σ)) : List (Mark σ) × Nat :=
  (List.range n).foldl (fun s k => column c p k s.1 s.2) (ms, 0)

/-! ### The row called -/

/-- `!pCli->securityCheck || sccli_IsSuperUser() == 1 || sccli_tokenIsProtected(pTblx) == 0` -/
def callable (c : Cli) (r : Row σ) : Bool :=
  !c.securityCheck || sccliIsSuperUser || !sccliTokenIsProtected r

/-- `len <= strlen(pTblx->pCmd) && sccli_tokencmp(p, pTblx->pCmd, len) == 0` -/
def abbreviates (p : CStr) (r : Row σ) : Bool :=
  p.length ≤ r.pCmd.length && sccliTokencmp p r.pCmd p.length

/-- `match == 1`: the first row with a mark that `p` abbreviates. -/
def callSingle (c : Cli) (p : CStr) (ms : List (Mark σ)) : Option (Row σ) :=
  (ms.find? fun m => m.2 ≠ 0 && abbreviates p m.1 && callable c m.1).map Prod.fst

/-- `cnt`, the highest mark. -/
def highest (ms : List (Mark σ)) : Nat :=
  ms.foldl (fun cnt m => if m.2 ≠ 0 && m.2 > cnt then m.2 else cnt) (ms.head?.elim 0 Prod.snd)

/-- `match`, counted again over the rows whose mark is `cnt`. -/
def ties (p : CStr) (cnt : Nat) : List (Mark σ) → Nat → Nat
  | [], m => m
  | (r, n) :: ms, m =>
      if n = cnt then
        if cnt = p.length && cnt = r.pCmd.length then 1 else ties p cnt ms (m + 1)
      else ties p cnt ms m

/-- Several matches: the first row with the highest mark, if `p` abbreviates it. -/
def callHighest (c : Cli) (p : CStr) (ms : List (Mark σ)) : Option (Row σ) :=
  if ties p (highest ms) ms 0 ≠ 0 then
    match ms.find? fun m => m.2 = highest ms with
    | some (r, _) => if abbreviates p r && callable c r then some r else none
    | none => none
  else none

/-- How the row called was found: the return codes are translated accordingly. -/
inductive Way where
  | single
  | highest
deriving DecidableEq

/-- The row whose handler is called. -/
def resolve (c : Cli) (p : CStr) (tbl : List (Row σ)) : Option (Way × Row σ) :=
  let (ms, m) := markExact c p (tbl.map fun r => (r, 0))
  let (ms, m) := if m = 0 then columns c p p.length ms else (ms, m)
  if m = 1 then (callSingle c p ms).map (Way.single, ·)
  else if m ≠ 0 then (callHighest c p ms).map (Way.highest, ·)
  else none

/-! ### `sccli_tokenParser` -/

/-- The return code of a handler, as the parser passes it on. -/
def translate : Way → Int → Int
  | .single, rc =>
      if rc = cliParseNoValue then cliParseTooFew
      else if rc = cliParseUnknown ∨ rc = cliParseInvalidParameter then cliParseError
      else rc
  | .highest, rc => if rc = cliParseNoValue then cliParseTooFew else rc

/-- `while ((p = sccli_tokenPop(pCli)) != NULL)`, at most `n` times. -/
def drain : Nat → Cli → Cli
  | 0, c => c
  | n + 1, c =>
      match c.take with
      | (none, c) => c
      | (some _, c) => drain n c

/-- What a parse did: the row it called, its return code, and what it left. -/
structure Parsed (σ : Type) where
  called : Option (Row σ)
  rc : Int
  cli : Cli
  world : σ

def sccliTokenParser (buf : Block) (tbl : List (Row σ)) (c : Cli) (w : σ) : Parsed σ :=
  let c := { c with tokenLvl := c.tokenLvl + 1 }
  match c.sccliTokenPopWoCase buf with
  | (none, c) => ⟨none, cliParseOk, c, w⟩
  | (some p, c) =>
      match resolve c p tbl with
      | some (way, r) =>
          let (rc, c, w) := r.fHandler p c w
          ⟨some r, translate way rc, c, w⟩
      | none =>
          ⟨none, if c.tokenLvl ≤ 2 then cliParseUnknown else cliParseInvalidParameter,
            drain maxToken c, w⟩

/-! ### What a word means -/

/-- The row's name is `w`, ignoring case. -/
def Row.Named (w : CStr) (r : Row σ) : Prop := lowered r.pCmd = lowered w

/-- The row's name has `w` as a prefix, ignoring case. -/
def Row.StartsWith (w : CStr) (r : Row σ) : Prop := (lowered w).bytes <+: (lowered r.pCmd).bytes

instance (w : CStr) : DecidablePred (Row.Named (σ := σ) w) := fun _ =>
  inferInstanceAs (Decidable (_ = _))

instance (w : CStr) : DecidablePred (Row.StartsWith (σ := σ) w) := fun _ =>
  inferInstanceAs (Decidable (_ <+: _))

/-- The row a word means: the one of that name or, failing that, the only one it abbreviates. -/
def meant (tbl : List (Row σ)) (w : CStr) : Option (Row σ) :=
  match tbl.find? (Row.Named w ·) with
  | some r => some r
  | none =>
      match tbl.filter (Row.StartsWith w ·) with
      | [r] => some r
      | _ => none

/-- The bytes two texts share from their beginning. -/
def shared : List Byte → List Byte → Nat
  | a :: as, b :: bs => if a = b then shared as bs + 1 else 0
  | _, _ => 0

/-- The bytes a row's name shares with a word in lower case. -/
def sharedWith (w : CStr) (r : Row σ) : Nat := shared (lowered w).bytes r.pCmd.bytes

/-- The leading row for a word: the first of those whose names share the longest run of bytes, and
not none, with the word in lower case. -/
def leading (tbl : List (Row σ)) (w : CStr) : Option (Row σ) :=
  tbl.find? fun r => 0 < sharedWith w r && tbl.all fun q => sharedWith w q ≤ sharedWith w r

/-- The leading row does not mislead: there is a row of the word's name, or none that it
abbreviates, or one only, which leads, or several, of which none leads. -/
def Clear (tbl : List (Row σ)) (w : CStr) : Prop :=
  (∃ r ∈ tbl, r.Named w) ∨ (∀ r ∈ tbl, ¬ r.StartsWith w) ∨
    (∃ r, tbl.filter (Row.StartsWith w ·) = [r] ∧ leading tbl w = some r) ∨
    (2 ≤ (tbl.filter (Row.StartsWith w ·)).length ∧
      ∀ r, leading tbl w = some r → ¬ r.StartsWith w)

/-- No security filtering: the check is off, and no row is protected or hidden. -/
def Unfiltered (c : Cli) (tbl : List (Row σ)) : Prop :=
  c.securityCheck = false ∧
    ∀ r ∈ tbl, sccliTokenIsProtected r = false ∧ sccliTokenIsHidden r = false

/-! ### Letter case -/

theorem tolower_tolower (b : Byte) : Cli.tolower (Cli.tolower b) = Cli.tolower b := by
  unfold Cli.tolower
  by_cases h : 65 ≤ b ∧ b ≤ 90
  · have h₁ := UInt8.le_iff_toNat_le.mp h.1
    have h₂ := UInt8.le_iff_toNat_le.mp h.2
    have hup : ¬ (65 ≤ b - 65 + 97 ∧ b - 65 + 97 ≤ 90) := by
      rintro ⟨-, h'⟩
      have h₃ := UInt8.le_iff_toNat_le.mp h'
      simp [UInt8.toNat_add, UInt8.toNat_sub] at h₁ h₂ h₃
      omega
    rw [if_pos h, if_neg hup]
  · rw [if_neg h, if_neg h]

@[simp] theorem lowered_lowered (s : CStr) : lowered (lowered s) = lowered s := by
  refine CStr.ext ?_
  simp [lowered, tolower_tolower]

@[simp] theorem length_lowered (s : CStr) : (lowered s).length = s.length := by
  simp [lowered, CStr.length]

/-- Comparing as many bytes as `p` has is comparing `p` with a prefix. -/
theorem sccliTokencmp_iff {p q : CStr} (h : p.length ≤ q.length) :
    sccliTokencmp p q p.length = true ↔ (lowered p).bytes <+: (lowered q).bytes := by
  have hget : ∀ i, i < p.length → (Cli.tolower (charAt p i) = Cli.tolower (charAt q i) ↔
      (lowered p).bytes[i]? = (lowered q).bytes[i]?) := by
    intro i hi
    have hp : p.bytes[i]? = some p.bytes[i] := List.getElem?_eq_getElem hi
    have hq : q.bytes[i]? = some (q.bytes.get ⟨i, hi.trans_le h⟩) := List.getElem?_eq_getElem _
    simp [charAt, lowered, List.getD_eq_getElem?_getD, hp, hq]
  rw [sccliTokencmp, List.all_eq_true, List.prefix_iff_getElem?]
  constructor
  · intro hall i hi
    have hlt : i < p.length := by simpa [lowered, CStr.length] using hi
    have := (hget i hlt).mp (by simpa using hall i (List.mem_range.mpr hlt))
    rw [← this, List.getElem?_eq_getElem hi]
  · intro hall i hi
    have hlt := List.mem_range.mp hi
    have hlt' : i < (lowered p).bytes.length := by simpa [lowered, CStr.length] using hlt
    refine decide_eq_true ((hget i hlt).mpr ?_)
    rw [hall i hlt', List.getElem?_eq_getElem hlt']

theorem abbreviates_iff {w : CStr} {r : Row σ} :
    abbreviates (lowered w) r = true ↔ r.StartsWith w := by
  unfold abbreviates Row.StartsWith
  rw [Bool.and_eq_true, decide_eq_true_iff]
  constructor
  · rintro ⟨hle, h⟩
    rwa [sccliTokencmp_iff hle, lowered_lowered] at h
  · intro h
    have hle : (lowered w).length ≤ r.pCmd.length := by
      have := h.length_le
      simpa [lowered, CStr.length] using this
    refine ⟨hle, ?_⟩
    rwa [sccliTokencmp_iff hle, lowered_lowered]

theorem named_iff {w : CStr} {r : Row σ} :
    (w.length = r.pCmd.length ∧ r.StartsWith w) ↔ r.Named w := by
  constructor
  · rintro ⟨hlen, h⟩
    refine CStr.ext (h.eq_of_length ?_).symm
    simpa [lowered, CStr.length] using hlen
  · intro h
    refine ⟨?_, ?_⟩
    · rw [← length_lowered w, ← length_lowered r.pCmd, h]
    · unfold Row.StartsWith
      exact ⟨[], (List.append_nil _).trans (congrArg CStr.bytes (Eq.symm h))⟩

/-! ### The exact match -/

variable {c : Cli} {tbl : List (Row σ)} {w : CStr}

theorem callable_eq_true (c : Cli) (r : Row σ) : callable c r = true := by
  simp [callable, sccliIsSuperUser]

theorem exact_test (c : Cli) (w : CStr) (r : Row σ) :
    ((lowered w).length = r.pCmd.length && sccliTokenIsValidOpMode c r &&
      sccliTokencmp (lowered w) r.pCmd (lowered w).length) = decide (r.Named w) := by
  rw [Bool.eq_iff_iff, decide_eq_true_iff, ← named_iff, ← abbreviates_iff]
  simp only [abbreviates, sccliTokenIsValidOpMode, length_lowered, Bool.and_eq_true,
    decide_eq_true_iff, and_true]
  constructor
  · rintro ⟨hlen, h⟩
    exact ⟨hlen, hlen.le, h⟩
  · rintro ⟨hlen, -, h⟩
    exact ⟨hlen, h⟩

/-- **The exact match**: the first row of the word's name, if there is one, is called. -/
theorem markExact_eq (hw : 0 < w.length) (tbl : List (Row σ)) :
    match tbl.find? (Row.Named w ·) with
    | some r => (markExact c (lowered w) (tbl.map fun r => (r, 0))).2 = 1 ∧
        callSingle c (lowered w) (markExact c (lowered w) (tbl.map fun r => (r, 0))).1 = some r
    | none => markExact c (lowered w) (tbl.map fun r => (r, 0)) = (tbl.map fun r => (r, 0), 0) := by
  induction tbl with
  | nil => rfl
  | cons q tbl ih =>
      rw [List.find?_cons, List.map_cons, markExact, exact_test]
      by_cases hq : q.Named w
      · have hstart : abbreviates (lowered w) q = true := abbreviates_iff.mpr (named_iff.mpr hq).2
        have hne : w.length ≠ 0 := by omega
        simp only [hq, decide_true, if_true]
        refine ⟨trivial, ?_⟩
        rw [callSingle, List.find?_cons_of_pos (by simp [hne, hstart, callable_eq_true])]
        rfl
      · simp only [hq, decide_false, Bool.false_eq_true, if_false]
        cases hfind : tbl.find? (Row.Named w ·) with
        | some r =>
            rw [hfind] at ih
            refine ⟨ih.1, ?_⟩
            rw [callSingle, List.find?_cons_of_neg (by simp)]
            exact ih.2
        | none =>
            rw [hfind] at ih
            simp only [ih]

/-! ### The columns -/

theorem shared_le_left : ∀ as bs : List Byte, shared as bs ≤ as.length
  | [], _ => by simp [shared]
  | _ :: _, [] => by simp [shared]
  | a :: as, b :: bs => by
      have := shared_le_left as bs
      simp only [shared, List.length_cons]
      split <;> omega

/-- The run reaches behind its first `k` bytes where the next ones agree too. -/
theorem lt_shared_iff : ∀ {as bs : List Byte} {k : Nat}, k ≤ shared as bs →
    (k < shared as bs ↔ ∃ x, as[k]? = some x ∧ bs[k]? = some x)
  | [], _, k, _ => by simp [shared]
  | _ :: _, [], k, _ => by simp [shared]
  | a :: as, b :: bs, k, h => by
      simp only [shared] at h ⊢
      cases k with
      | zero =>
          by_cases hab : a = b
          · simp [hab]
          · simp [hab, Ne.symm hab]
      | succ k =>
          by_cases hab : a = b
          · rw [if_pos hab] at h ⊢
            simpa using lt_shared_iff (Nat.le_of_succ_le_succ h)
          · rw [if_neg hab] at h
            omega

theorem agrees_iff {p : CStr} {k : Nat} {r : Row σ} :
    agrees p k r = true ↔ ∃ x, p.bytes[k]? = some x ∧ r.pCmd.bytes[k]? = some x := by
  simp only [agrees, charAt, List.getD_eq_getElem?_getD, Bool.and_eq_true, decide_eq_true_iff]
  constructor
  · rintro ⟨⟨hp, hr⟩, heq⟩
    cases hpk : p.bytes[k]? with
    | none => simp [hpk] at hp
    | some x =>
        cases hrk : r.pCmd.bytes[k]? with
        | none => simp [hrk] at hr
        | some y =>
            rw [hpk, hrk] at heq
            exact ⟨x, rfl, congrArg some heq.symm⟩
  · rintro ⟨x, hp, hr⟩
    have hx : x ≠ 0 := CStr.ne_zero (List.mem_of_getElem? hp)
    simp [hp, hr, hx]

/-- One column marks the rows that agree in it and in all before it. -/
theorem column_eq (c : Cli) (p : CStr) (k : Nat) (f : Row σ → Nat)
    (hskip : ∀ r ∈ tbl, skipped c r = false) (m : Nat) :
    column c p k (tbl.map fun r => (r, f r)) m =
      (tbl.map fun r => (r, if agrees p k r ∧ k = f r then f r + 1 else f r),
        if k = 0 then m + tbl.countP (agrees p k) else m) := by
  induction tbl generalizing m with
  | nil => simp [column]
  | cons r tbl ih =>
      have hrest := ih fun q hq => hskip q (List.mem_cons_of_mem r hq)
      simp only [List.map_cons, column, hskip r List.mem_cons_self, Bool.not_false, Bool.true_and]
      by_cases hr : agrees p k r = true
      · rw [if_pos hr, hrest, List.countP_cons_of_pos hr]
        simp only [hr, true_and]
        by_cases hk : k = 0
        · simp [hk]
          omega
        · simp [hk]
      · rw [if_neg hr, hrest, List.countP_cons_of_neg hr]
        simp [hr]

/-- **The marks** after the first `n` columns, and the rows matched. -/
theorem columns_eq (hskip : ∀ r ∈ tbl, skipped c r = false) (w : CStr) :
    ∀ n, n ≤ w.length → columns c (lowered w) n (tbl.map fun r => (r, 0)) =
      (tbl.map fun r => (r, min n (sharedWith w r)),
        if n = 0 then 0 else tbl.countP fun r => 0 < sharedWith w r) := by
  intro n
  induction n with
  | zero =>
      intro _
      simp [columns]
  | succ n ih =>
      intro hn
      have hstep : columns c (lowered w) (n + 1) (tbl.map fun r => (r, 0)) =
          column c (lowered w) n (columns c (lowered w) n (tbl.map fun r => (r, 0))).1
            (columns c (lowered w) n (tbl.map fun r => (r, 0))).2 := by
        rw [columns, List.range_succ, List.foldl_append]
        rfl
      have hmark : ∀ r : Row σ, (if agrees (lowered w) n r = true ∧ n = min n (sharedWith w r) then
          min n (sharedWith w r) + 1 else min n (sharedWith w r)) =
            min (n + 1) (sharedWith w r) := by
        intro r
        by_cases hle : n ≤ sharedWith w r
        · have hlt : n < sharedWith w r ↔ agrees (lowered w) n r = true :=
            (lt_shared_iff hle).trans agrees_iff.symm
          rw [min_eq_left hle]
          by_cases h : n < sharedWith w r
          · rw [if_pos ⟨hlt.mp h, rfl⟩, min_eq_left (show n + 1 ≤ sharedWith w r from h)]
          · rw [if_neg fun hr => h (hlt.mpr hr.1), min_eq_right (by omega)]
            omega
        · rw [if_neg (by omega)]
          omega
      have hfirst : (agrees (lowered w) 0 : Row σ → Bool) =
          fun r => decide (0 < sharedWith w r) := by
        funext r
        rw [Bool.eq_iff_iff, decide_eq_true_iff, agrees_iff]
        exact (lt_shared_iff (Nat.zero_le _)).symm
      rw [hstep, ih (by omega), column_eq c (lowered w) n _ hskip]
      refine Prod.ext ?_ ?_
      · exact List.map_congr_left fun r _ => Prod.ext rfl (hmark r)
      · by_cases hn0 : n = 0
        · subst hn0
          simp [hfirst]
        · simp [hn0]

/-! ### The row that leads -/

/-- The table as the columns leave it: every row with the length of its shared run. -/
def marks (w : CStr) (tbl : List (Row σ)) : List (Mark σ) := tbl.map fun r => (r, sharedWith w r)

theorem highest_foldl (ms : List (Mark σ)) (cnt : Nat) :
    let hi := ms.foldl (fun cnt m => if m.2 ≠ 0 && m.2 > cnt then m.2 else cnt) cnt
    cnt ≤ hi ∧ (∀ m ∈ ms, m.2 ≤ hi) ∧ (hi = cnt ∨ ∃ m ∈ ms, m.2 = hi) := by
  induction ms generalizing cnt with
  | nil => exact ⟨le_refl cnt, fun m hm => (List.not_mem_nil hm).elim, .inl rfl⟩
  | cons m ms ih =>
      intro hi
      have hstep : (if (m.2 ≠ 0 && m.2 > cnt) = true then m.2 else cnt) = max cnt m.2 := by
        split <;> simp_all <;> omega
      obtain ⟨hle, hall, hex⟩ := ih (max cnt m.2)
      have hhi : hi = ms.foldl (fun cnt m => if m.2 ≠ 0 && m.2 > cnt then m.2 else cnt)
          (max cnt m.2) := by
        rw [← hstep]
        rfl
      rw [← hhi] at hle hall hex
      refine ⟨by omega, List.forall_mem_cons.mpr ⟨by omega, hall⟩, ?_⟩
      rcases hex with h | ⟨m', hm', h⟩
      · rcases max_choice cnt m.2 with hmax | hmax
        · exact .inl (h.trans hmax)
        · exact .inr ⟨m, List.mem_cons_self, (h.trans hmax).symm⟩
      · exact .inr ⟨m', List.mem_cons_of_mem m hm', h⟩

/-- `cnt` is the greatest of the marks. -/
theorem highest_marks (htbl : tbl ≠ []) (w : CStr) :
    (∀ r ∈ tbl, sharedWith w r ≤ highest (marks w tbl)) ∧
      ∃ r ∈ tbl, sharedWith w r = highest (marks w tbl) := by
  obtain ⟨q, tbl', rfl⟩ := List.exists_cons_of_ne_nil htbl
  obtain ⟨-, hall, hex⟩ := highest_foldl (marks w (q :: tbl')) (sharedWith w q)
  refine ⟨fun r hr => hall _ (List.mem_map_of_mem hr), ?_⟩
  rcases hex with h | ⟨m, hm, h⟩
  · exact ⟨q, List.mem_cons_self, h.symm⟩
  · obtain ⟨r, hr, rfl⟩ := List.mem_map.mp hm
    exact ⟨r, hr, h⟩

theorem ties_ne_zero_of_pos (p : CStr) (cnt : Nat) {ms : List (Mark σ)} {m : Nat} (hm : m ≠ 0) :
    ties p cnt ms m ≠ 0 := by
  induction ms generalizing m with
  | nil => exact hm
  | cons x ms ih =>
      obtain ⟨r, n⟩ := x
      simp only [ties]
      split
      · split
        · exact one_ne_zero
        · exact ih (Nat.succ_ne_zero m)
      · exact ih hm

/-- The second count is never 0: it finds the row that has the highest mark. -/
theorem ties_ne_zero (p : CStr) {cnt : Nat} {ms : List (Mark σ)} (h : ∃ x ∈ ms, x.2 = cnt)
    (m : Nat) : ties p cnt ms m ≠ 0 := by
  induction ms generalizing m with
  | nil =>
      obtain ⟨x, hx, -⟩ := h
      cases hx
  | cons x ms ih =>
      obtain ⟨r, n⟩ := x
      simp only [ties]
      split
      · split
        · exact one_ne_zero
        · exact ties_ne_zero_of_pos p cnt (Nat.succ_ne_zero m)
      · rename_i hn
        refine ih ?_ m
        obtain ⟨y, hy, hcnt⟩ := h
        rcases List.mem_cons.mp hy with rfl | hy
        · exact absurd hcnt hn
        · exact ⟨y, hy, hcnt⟩

theorem find?_leading_of_unique {r : Row σ}
    (h : tbl.filter (fun q => decide (0 < sharedWith w q)) = [r]) : leading tbl w = some r := by
  have hmem : ∀ q ∈ tbl, 0 < sharedWith w q → q = r := fun q hq hpos => by
    have : q ∈ tbl.filter fun q => decide (0 < sharedWith w q) :=
      List.mem_filter.mpr ⟨hq, decide_eq_true hpos⟩
    rw [h] at this
    exact List.mem_singleton.mp this
  have hfind : leading tbl w =
      (tbl.filter fun q => decide (0 < sharedWith w q)).find? fun q =>
        tbl.all fun q' => sharedWith w q' ≤ sharedWith w q := by
    rw [List.find?_filter]
    exact List.find?_congr fun q _ => by
      rw [Bool.eq_iff_iff, decide_eq_true_iff, Bool.and_eq_true]
  rw [hfind, h, List.find?_cons_of_pos]
  refine List.all_eq_true.mpr fun q hq => decide_eq_true ?_
  rcases Nat.eq_zero_or_pos (sharedWith w q) with h0 | hpos
  · omega
  · rw [hmem q hq hpos]

/-- **A single match** is the leading row. -/
theorem callSingle_marks {r : Row σ}
    (h : tbl.filter (fun q => decide (0 < sharedWith w q)) = [r]) :
    callSingle c (lowered w) (marks w tbl) = (leading tbl w).filter (Row.StartsWith w ·) := by
  have hfind : callSingle c (lowered w) (marks w tbl) =
      (tbl.filter fun q => decide (0 < sharedWith w q)).find? (Row.StartsWith w ·) := by
    rw [callSingle, marks, List.find?_map, List.find?_filter, Option.map_map]
    simp only [Function.comp_def, callable_eq_true, Bool.and_true, Option.map_id']
    refine List.find?_congr fun q _ => ?_
    have hstart : abbreviates (lowered w) q = decide (q.StartsWith w) := by
      rw [Bool.eq_iff_iff, decide_eq_true_iff, abbreviates_iff]
    simp [hstart, Nat.pos_iff_ne_zero]
  rw [hfind, find?_leading_of_unique h, h]
  by_cases hr : r.StartsWith w <;> simp [hr, Option.filter]

/-- **Of several matches** the leading row is the first with the highest mark. -/
theorem callHighest_marks (h : 0 < tbl.countP fun q => decide (0 < sharedWith w q)) :
    callHighest c (lowered w) (marks w tbl) = (leading tbl w).filter (Row.StartsWith w ·) := by
  obtain ⟨q, hq, hpos⟩ := List.countP_pos_iff.mp h
  have htbl : tbl ≠ [] := List.ne_nil_of_mem hq
  obtain ⟨hall, r, hr, hhi⟩ := highest_marks htbl w
  have hhipos : 0 < highest (marks w tbl) :=
    (of_decide_eq_true hpos).trans_le (hall q hq)
  have hfind : (marks w tbl).find? (fun m => decide (m.2 = highest (marks w tbl))) =
      (leading tbl w).map fun r => (r, sharedWith w r) := by
    conv_lhs => rw [marks, List.find?_map]
    refine congrArg _ (List.find?_congr fun q' hq' => ?_)
    rw [Bool.eq_iff_iff, Bool.and_eq_true, decide_eq_true_iff]
    simp only [Function.comp_apply, List.all_eq_true, decide_eq_true_iff]
    constructor
    · intro e
      change sharedWith w q' = highest (marks w tbl) at e
      rw [e]
      exact ⟨hhipos, hall⟩
    · rintro ⟨-, hmax⟩
      exact le_antisymm (hall q' hq') (hhi ▸ hmax r hr)
  have hties : ties (lowered w) (highest (marks w tbl)) (marks w tbl) 0 ≠ 0 :=
    ties_ne_zero _ ⟨_, List.mem_map_of_mem hr, hhi⟩ 0
  rw [callHighest, if_pos hties, hfind]
  cases hlead : leading tbl w with
  | none => rfl
  | some r' =>
      simp only [Option.map_some, callable_eq_true, Bool.and_true, abbreviates_iff]
      by_cases hs : r'.StartsWith w <;> simp [hs, Option.filter]

/-- **The row called**: the first of the word's name or, failing that, the leading row if the word
abbreviates it. -/
theorem resolve_eq (h : Unfiltered c tbl) (hw : 0 < w.length) :
    (resolve c (lowered w) tbl).map Prod.snd =
      match tbl.find? (Row.Named w ·) with
      | some r => some r
      | none => (leading tbl w).filter (Row.StartsWith w ·) := by
  have hskip : ∀ r ∈ tbl, skipped c r = false := fun r hr => by
    simp [skipped, h.1, (h.2 r hr).2, sccliTokenIsValidOpMode]
  have hexact := markExact_eq (c := c) hw tbl
  cases hfind : tbl.find? (Row.Named w ·) with
  | some r =>
      rw [hfind] at hexact
      obtain ⟨hm, hcall⟩ := hexact
      simp only [resolve, hm, one_ne_zero, if_false, if_true, hcall, Option.map_some]
  | none =>
      rw [hfind] at hexact
      have hcols : columns c (lowered w) (lowered w).length (tbl.map fun r => (r, 0)) =
          (marks w tbl, tbl.countP fun q => decide (0 < sharedWith w q)) := by
        rw [length_lowered, columns_eq hskip w _ (le_refl _), if_neg (by omega)]
        refine Prod.ext (List.map_congr_left fun r _ => Prod.ext rfl (min_eq_right ?_)) rfl
        exact (shared_le_left _ _).trans (length_lowered w).le
      simp only [resolve, hexact, if_true, hcols]
      split
      · rename_i h1
        rw [List.countP_eq_length_filter] at h1
        obtain ⟨r, hr⟩ := List.length_eq_one_iff.mp h1
        rw [callSingle_marks hr, Option.map_map]
        exact Option.map_id' ..
      · split
        · rename_i h1 h0
          rw [callHighest_marks (Nat.pos_of_ne_zero h0), Option.map_map]
          exact Option.map_id' ..
        · rename_i h1 h0
          have hzero : ∀ q ∈ tbl, ¬ 0 < sharedWith w q := fun q hq hpos =>
            absurd (not_not.mp h0) (Nat.pos_iff_ne_zero.mp
              (List.countP_pos_iff.mpr ⟨q, hq, decide_eq_true hpos⟩))
          have hnone : leading tbl w = none := List.find?_eq_none.mpr fun q hq => by
            simp [hzero q hq]
          rw [hnone]
          rfl

/-! ### `sccli_tokenParser` resolves words -/

theorem leading_mem {r : Row σ} (h : leading tbl w = some r) : r ∈ tbl :=
  List.mem_of_find?_eq_some h

/-- Where no row has the word's name, what is called is what is meant just when the table is
clear. -/
theorem leading_filter_eq_iff (hnamed : ∀ r ∈ tbl, ¬ r.Named w) :
    (leading tbl w).filter (Row.StartsWith w ·) =
        (match tbl.filter (Row.StartsWith w ·) with
          | [r] => some r
          | _ => none) ↔ Clear tbl w := by
  have hmem : ∀ {r}, r ∈ tbl.filter (Row.StartsWith w ·) ↔ r ∈ tbl ∧ r.StartsWith w := by
    simp
  have hnone : (leading tbl w).filter (Row.StartsWith w ·) = none ↔
      ∀ r, leading tbl w = some r → ¬ r.StartsWith w := by
    simp [Option.filter_eq_none_iff]
  have hsome : ∀ {r}, (leading tbl w).filter (Row.StartsWith w ·) = some r ↔
      leading tbl w = some r ∧ r.StartsWith w := by
    simp [Option.filter_eq_some_iff]
  have hno : ¬ ∃ r ∈ tbl, r.Named w := fun ⟨r, hr, h⟩ => hnamed r hr h
  unfold Clear
  rw [or_iff_right hno]
  match hF : tbl.filter (Row.StartsWith w ·) with
  | [] =>
      have hall : ∀ r ∈ tbl, ¬ r.StartsWith w := fun r hr h => by
        have := hmem.mpr ⟨hr, h⟩
        rw [hF] at this
        cases this
      refine iff_of_true ?_ (.inl hall)
      exact hnone.mpr fun r hr => hall r (leading_mem hr)
  | [r] =>
      have hr : r ∈ tbl ∧ r.StartsWith w := by
        rw [← hmem, hF]
        exact List.mem_singleton_self r
      rw [hsome]
      constructor
      · rintro ⟨hlead, -⟩
        exact .inr (.inl ⟨r, rfl, hlead⟩)
      · rintro (hall | ⟨r', heq, hlead⟩ | ⟨htwo, -⟩)
        · exact absurd hr.2 (hall r hr.1)
        · obtain ⟨rfl, -⟩ := List.cons.inj heq
          exact ⟨hlead, hr.2⟩
        · simp at htwo
  | r :: r' :: rs =>
      have hr : r ∈ tbl ∧ r.StartsWith w := by
        rw [← hmem, hF]
        exact List.mem_cons_self
      simp only [hnone]
      constructor
      · intro h
        exact .inr (.inr ⟨by simp, h⟩)
      · rintro (hall | ⟨r'', heq, -⟩ | ⟨-, h⟩)
        · exact absurd hr.2 (hall r hr.1)
        · cases heq
        · exact h

/-- The pop does not read the level, nor change the security check. -/
theorem sccliTokenPopWoCase_level (buf : Block) (c : Cli) (n : Nat) :
    (Cli.sccliTokenPopWoCase buf { c with tokenLvl := n }).1 = (c.sccliTokenPopWoCase buf).1 ∧
      (Cli.sccliTokenPopWoCase buf { c with tokenLvl := n }).2.securityCheck = c.securityCheck := by
  simp only [Cli.sccliTokenPopWoCase, Cli.take]
  cases Ring.scan c.token maxToken maxToken c.tokenIdx with
  | none => exact ⟨rfl, rfl⟩
  | some idx =>
      cases h : c.token idx with
      | none => simp [h]
      | some p => simp [h]

/-- The row a parse calls is the one its token resolves to. -/
theorem sccliTokenParser_called {buf : Block} (st : σ) (h : Unfiltered c tbl)
    (hpop : (c.sccliTokenPopWoCase buf).1 = some (lowered w)) (hw : 0 < w.length) :
    (sccliTokenParser buf tbl c st).called =
      match tbl.find? (Row.Named w ·) with
      | some r => some r
      | none => (leading tbl w).filter (Row.StartsWith w ·) := by
  obtain ⟨hfirst, hcheck⟩ := sccliTokenPopWoCase_level buf c (c.tokenLvl + 1)
  rw [hpop] at hfirst
  obtain ⟨c', hc'⟩ : ∃ c', Cli.sccliTokenPopWoCase buf { c with tokenLvl := c.tokenLvl + 1 } =
      (some (lowered w), c') := ⟨_, Prod.ext hfirst rfl⟩
  rw [hc'] at hcheck
  rw [← resolve_eq (c := c') ⟨hcheck.trans h.1, h.2⟩ hw]
  simp only [sccliTokenParser, hc']
  cases resolve c' (lowered w) tbl with
  | none => rfl
  | some x => rfl

/-- **Words are resolved to the row they mean** just where the table is clear. -/
theorem sccliTokenParser_resolves_iff (buf : Block) (st : σ) (h : Unfiltered c tbl)
    (hpop : (c.sccliTokenPopWoCase buf).1 = some (lowered w)) (hw : 0 < w.length) :
    (sccliTokenParser buf tbl c st).called = meant tbl w ↔ Clear tbl w := by
  rw [sccliTokenParser_called st h hpop hw]
  unfold meant
  cases hfind : tbl.find? (Row.Named w ·) with
  | some r =>
      have hr : r.Named w := by simpa using List.find?_some hfind
      exact iff_of_true rfl (.inl ⟨r, List.mem_of_find?_eq_some hfind, hr⟩)
  | none =>
      refine leading_filter_eq_iff fun r hr => ?_
      simpa using List.find?_eq_none.mp hfind r hr

/-- Three rows of `getCmdTbl`, with a handler that reports success. -/
def getRows : List (Row Unit) :=
  ["ssh", "ssid", "ssidbroadcast"].map fun s => ⟨.text s, none, fun _ c st => (cliParseOk, c, st)⟩

/-- The state in which a one-word command is parsed, with the security check off. -/
def parsing (s : String) : Block × Cli :=
  sccliParser { sccliInit with securityCheck := false } [.text s]

set_option maxRecDepth 4000 in
/-- `ssi` abbreviates two rows, and the first of them is called. -/
theorem sccliTokenParser_calls_ambiguous :
    ¬ ∀ (buf : Block) (tbl : List (Row Unit)) (c : Cli) (w : CStr), Unfiltered c tbl →
      (c.sccliTokenPopWoCase buf).1 = some (lowered w) → 0 < w.length →
      (sccliTokenParser buf tbl c ()).called = meant tbl w := by
  intro h
  have hcalled := h (parsing "ssi").1 getRows (parsing "ssi").2 (.text "ssi")
    ⟨rfl, by decide⟩ (by decide +kernel) (by decide)
  have hname := congrArg (Option.map Row.pCmd) hcalled
  have hnot : ((sccliTokenParser (parsing "ssi").1 getRows (parsing "ssi").2 ()).called.map
      Row.pCmd) ≠ (meant getRows (.text "ssi")).map Row.pCmd := by
    decide +kernel
  exact hnot hname

set_option maxRecDepth 4000 in
theorem sccliTokenParser_resolves_ssh :
    (sccliTokenParser (parsing "SSH").1 getRows (parsing "SSH").2 ()).called =
        meant getRows (.text "SSH") ↔ Clear getRows (.text "SSH") :=
  sccliTokenParser_resolves_iff _ _ ⟨rfl, by decide⟩ (by decide +kernel) (by decide)

end LinksysCli
