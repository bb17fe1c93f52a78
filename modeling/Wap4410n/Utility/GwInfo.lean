import Wap4410n.Support.Block
import Wap4410n.Support.Ipv6

/-!
# Utility — the address of the IPv6 gateway

`getIP6GwInfo` looks for the gateway of an interface in the routing table of the kernel, whose lines
give an address as 32 digits.  It copies the digits into `addr6[40]` with a colon behind each group
of four and hands the text to `inet_pton`.

`Denotes` is what the text should be: eight groups of four digits with colons between them, which
are the same number as the digits.

* `spread_groups`: the loop puts a colon behind the last group too, where the NUL should stand.
* `getIP6GwInfo_never`: for no line with 32 digits is there a text in the array.
-/

namespace Wap4410n.Utility

open CLib Ipv6

/-! ### A line of the routing table -/

/-- `%ns`: a word of at most `n` characters behind white space, and what follows it. -/
def scanWord (n : Nat) (s : List Byte) : Option (List Byte × List Byte) :=
  let t := s.dropWhile isSpace
  let word := (t.take n).takeWhile fun b => !isSpace b
  if word = [] then none else some (word, t.drop word.length)

/-- The value of a run of hexadecimal digits. -/
def hexNumber (ds : List Byte) : Nat := ds.foldl (fun n b => 16 * n + (digitValue b).getD 0) 0

/-- What follows a sign. -/
def pastSign (t : List Byte) : List Byte :=
  if t.head? = some 0x2d ∨ t.head? = some 0x2b then t.tail else t

/-- What follows `0x`. -/
def pastBase (t : List Byte) : List Byte :=
  if t.take 2 = [0x30, 0x78] ∨ t.take 2 = [0x30, 0x58] then t.drop 2 else t

/-- `%x`: a number behind white space, a sign and `0x`, and what follows it. -/
def scanHexInt (s : List Byte) : Option (UInt32 × List Byte) :=
  let t := s.dropWhile isSpace
  let v := pastBase (pastSign t)
  let ds := v.takeWhile isHexDigit
  let x := UInt32.ofNat (hexNumber ds)
  if ds = [] then none else some (if t.head? = some 0x2d then -x else x, v.dropWhile isHexDigit)

/-- What `fscanf` assigns: `addr6x`, `addr6x+40`, the numbers and `iface`. -/
structure Route6 where
  dest : List Byte
  prefixLen : UInt32
  slen : UInt32
  nextHop : List Byte
  metric : UInt32
  use : UInt32
  refcnt : UInt32
  iflags : UInt32
  iface : List Byte
deriving DecidableEq

/-- `fscanf(fp, "%32s%x%*s%x%32s%x%x%x%x%s\n", ...)`; `none` where it does not return 9. -/
def scanRoute6 (s : List Byte) : Option (Route6 × List Byte) := do
  let (dest, s) ← scanWord 32 s
  let (prefixLen, s) ← scanHexInt s
  let (_, s) ← scanWord s.length s
  let (slen, s) ← scanHexInt s
  let (nextHop, s) ← scanWord 32 s
  let (metric, s) ← scanHexInt s
  let (use, s) ← scanHexInt s
  let (refcnt, s) ← scanHexInt s
  let (iflags, s) ← scanHexInt s
  let (iface, s) ← scanWord s.length s
  return (⟨dest, prefixLen, slen, nextHop, metric, use, refcnt, iflags, iface⟩,
    s.dropWhile isSpace)

theorem scanWord_length {n : Nat} {s w r : List Byte} (h : scanWord n s = some (w, r)) :
    r.length < s.length := by
  have hdrop := (List.dropWhile_sublist (l := s) isSpace).length_le
  unfold scanWord at h
  dsimp only at h
  split at h
  · cases h
  · rename_i hne
    obtain ⟨rfl, rfl⟩ := Prod.mk.inj (Option.some.inj h)
    have hpos := List.length_pos_iff.mpr hne
    have hword := (List.takeWhile_sublist (l := (s.dropWhile isSpace).take n)
      fun b => !isSpace b).length_le
    rw [List.length_take] at hword
    rw [List.length_drop]
    omega

theorem length_pastSign_le (t : List Byte) : (pastSign t).length ≤ t.length := by
  unfold pastSign
  split
  · exact (List.tail_sublist t).length_le
  · exact Nat.le_refl _

theorem length_pastBase_le (t : List Byte) : (pastBase t).length ≤ t.length := by
  unfold pastBase
  split
  · exact (List.drop_sublist 2 t).length_le
  · exact Nat.le_refl _

theorem scanHexInt_length {s r : List Byte} {x : UInt32} (h : scanHexInt s = some (x, r)) :
    r.length ≤ s.length := by
  unfold scanHexInt at h
  dsimp only at h
  split at h
  · cases h
  · obtain ⟨-, rfl⟩ := Prod.mk.inj (Option.some.inj h)
    have hdrop := (List.dropWhile_sublist (l := s) isSpace).length_le
    have hsign := length_pastSign_le (s.dropWhile isSpace)
    have hbase := length_pastBase_le (pastSign (s.dropWhile isSpace))
    have hdigits := (List.dropWhile_sublist
      (l := pastBase (pastSign (s.dropWhile isSpace))) isHexDigit).length_le
    omega

/-- A line is not empty. -/
theorem scanRoute6_length {s rest : List Byte} {r : Route6} (h : scanRoute6 s = some (r, rest)) :
    rest.length < s.length := by
  simp only [scanRoute6, Option.bind_eq_bind, Option.bind_eq_some_iff, Option.pure_def,
    Option.some.injEq, Prod.mk.injEq, Prod.exists] at h
  obtain ⟨_, s₁, h₁, _, s₂, h₂, _, s₃, h₃, _, s₄, h₄, _, s₅, h₅, _, s₆, h₆, _, s₇, h₇, _, s₈, h₈,
    _, s₉, h₉, _, s₁₀, h₁₀, -, rfl⟩ := h
  have hfirst := scanWord_length h₁
  have hrest := (List.dropWhile_sublist (l := s₁₀) isSpace).length_le
  have := scanHexInt_length h₂
  have := scanWord_length h₃
  have := scanHexInt_length h₄
  have := scanWord_length h₅
  have := scanHexInt_length h₆
  have := scanHexInt_length h₇
  have := scanHexInt_length h₈
  have := scanHexInt_length h₉
  have := scanWord_length h₁₀
  omega

/-! ### `getIP6GwInfo` -/

/-- The arrays of `getIP6GwInfo`. -/
inductive GwArray where
  | addr6
  | addr6x
  | iface
deriving DecidableEq

/-- What the kernel and the library decide: the bytes on the stack in `addr6x` and in `inaddr6`,
`inet_pton` and `inet_ntop`. -/
structure GwEnv where
  stack : Nat → Byte
  inaddr6 : List Byte
  inetPton : CStr → Option (List Byte)
  inetNtop : List Byte → CStr

/-- `addr6x` after the words of the line are stored in it. -/
def Route6.store (r : Route6) (addr6x : Block) : Block :=
  (addr6x.store 0 (r.dest ++ [0])).store 40 (r.nextHop ++ [0])

/-- `strncmp(iface, ifname, strlen(ifname)) == 0 && (metric == 1)` -/
def Route6.matches (r : Route6) (ifname : CStr) : Run GwArray Bool := do
  let same ← strncmpEq .iface (r.iface ++ [0]) ifname.bytes
  return same && r.metric == 1

/-- `do{ addr6[i++] = *p++; if (!((i+1)%5)) addr6[i++] = ':'; }while(i < 40);` -/
def spread : List Byte → Cursor → Run GwArray Cursor
  | [], _ => .error (.outside .addr6x)
  | b :: p, addr6 =>
    let addr6 := addr6.put b
    let addr6 := if (addr6.pos + 1) % 5 = 0 then addr6.put 0x3a else addr6
    if addr6.pos < 40 then spread p addr6 else .ok addr6

/-- `while ( 1 )`, up to the end of the loop over the digits: the line that is chosen, and `addr6`;
or `none`, where the function returns −1. -/
def gatewayLine (ifname : CStr) (addr6x : Block) (text : List Byte) :
    Run GwArray (Option (Route6 × Block)) :=
  match _h : scanRoute6 text with
  | none => .ok none
  | some (r, rest) =>
    let addr6x := r.store addr6x
    -- `char iface[16];`
    if 16 ≤ r.iface.length then .error (.outside .iface) else do
    if ← r.matches ifname then
      let addr6 ← spread addr6x.bytes (.start (.fresh 40))
      return some (r, addr6.block)
    else gatewayLine ifname addr6x rest
termination_by text.length
decreasing_by exact scanRoute6_length _h

/-- `addr6x[80]` on entry. -/
def GwEnv.addr6x (env : GwEnv) : Block := ⟨80, (List.range 80).map env.stack⟩

/-- `getIP6GwInfo`: what it returns, and `gw` where it is written.  The table is NULL where it does
not open. -/
def getIP6GwInfo (env : GwEnv) (ifname : CStr) (table : Option (List Byte)) :
    Run GwArray (Int × Option CStr) :=
  match table with
  | none => .ok (-1, none)
  | some text => do
    match ← gatewayLine ifname env.addr6x text with
    | none => return (-1, none)
    | some (r, addr6) =>
      let s ← stringAt .addr6 (addr6.bytes.take addr6.size)
      let inaddr6 := (env.inetPton s).getD env.inaddr6
      let gw := (env.inetNtop inaddr6).append (.lit ['/'])
      return (0, some (gw.append (.ofInt r.prefixLen.toInt32.toInt)))

/-! ### The text in the array -/

section Spread

variable {u : Cursor}

/-- A digit that does not end a group. -/
theorem spread_digit (b : Byte) (p : List Byte) (h : (u.pos + 2) % 5 ≠ 0) (hroom : u.pos + 1 < 40) :
    spread (b :: p) u = spread p (u.put b) := by
  have hcolon : ¬ (u.put b).pos % 5 + 1 = 5 := by
    show ¬ (u.pos + 1) % 5 + 1 = 5
    omega
  have hnext : ¬ ((u.put b).pos + 1) % 5 = 0 := by omega
  rw [spread]
  rw [if_neg hnext]
  exact if_pos hroom

/-- A digit that ends a group, and the colon behind it. -/
theorem spread_colon (b : Byte) (p : List Byte) (h : (u.pos + 2) % 5 = 0) :
    spread (b :: p) u =
      if u.pos + 2 < 40 then spread p (u.putAll [b, 0x3a]) else .ok (u.putAll [b, 0x3a]) := by
  have hnext : ((u.put b).pos + 1) % 5 = 0 := h
  rw [spread]
  rw [if_pos hnext]
  rfl

/-- A group. -/
theorem spread_group {g p : List Byte} (hg : g.length = 4) (hpos : u.pos % 5 = 0)
    (hroom : u.pos + 5 ≤ 40) :
    spread (g ++ p) u =
      if u.pos + 5 < 40 then spread p (u.putAll (g ++ [0x3a]))
      else .ok (u.putAll (g ++ [0x3a])) := by
  obtain ⟨a, b, c, d, rfl⟩ : ∃ a b c d, g = [a, b, c, d] := by
    match g, hg with
    | [a, b, c, d], _ => exact ⟨a, b, c, d, rfl⟩
  have hput : ∀ (t : Cursor) (x : Byte), (t.put x).pos = t.pos + 1 := fun _ _ => rfl
  simp only [List.cons_append, List.nil_append]
  rw [spread_digit a _ (by omega) (by omega),
    spread_digit b _ (by rw [hput]; omega) (by rw [hput]; omega),
    spread_digit c _ (by rw [hput, hput]; omega) (by rw [hput, hput]; omega),
    spread_colon d _ (by rw [hput, hput, hput]; omega)]
  rfl

/-- **The loop over eight groups** puts a colon behind each of them, the last one too, and then the
array is full. -/
theorem spread_groups {gs : List (List Byte)} (hgs : ∀ g ∈ gs, g.length = 4) (hne : gs ≠ [])
    {t : Cursor} (ht : t.pos + 5 * gs.length = 40) (p : List Byte) :
    spread (gs.flatten ++ p) t = .ok (t.putAll (gs.flatMap fun g => g ++ [0x3a])) := by
  induction gs generalizing t with
  | nil => exact absurd rfl hne
  | cons g gs ih =>
      have hg := hgs g List.mem_cons_self
      rw [List.length_cons] at ht
      rw [List.flatten_cons, List.append_assoc, spread_group hg (by omega) (by omega),
        List.flatMap_cons]
      have hput : (t.putAll (g ++ [0x3a])).pos = t.pos + 5 := by
        rw [Cursor.pos_putAll, List.length_append, hg]
        rfl
      by_cases hnil : gs = []
      · subst hnil
        rw [if_neg (by rw [List.length_nil] at ht; omega), List.flatMap_nil, List.append_nil]
      · have hpos := List.length_pos_iff.mpr hnil
        rw [if_pos (by omega), ih (fun q hq => hgs q (List.mem_cons_of_mem _ hq)) hnil
          (by rw [hput]; omega), Cursor.putAll_append _ (g ++ [0x3a])]

/-- Digits come in groups of four. -/
theorem exists_groups (k : Nat) {ds : List Byte} (h : ds.length = 4 * k) :
    ∃ gs : List (List Byte), gs.length = k ∧ (∀ g ∈ gs, g.length = 4) ∧ gs.flatten = ds := by
  induction k generalizing ds with
  | zero =>
      obtain rfl := List.length_eq_zero_iff.mp h
      exact ⟨[], rfl, by simp, rfl⟩
  | succ k ih =>
      obtain ⟨gs, hlen, hgs, hflat⟩ := @ih (ds.drop 4) (by rw [List.length_drop]; omega)
      refine ⟨ds.take 4 :: gs, by rw [List.length_cons, hlen], ?_, ?_⟩
      · intro g hg
        rcases List.mem_cons.mp hg with rfl | hg
        · rw [List.length_take]
          omega
        · exact hgs g hg
      · rw [List.flatten_cons, hflat, List.take_append_drop]

end Spread

/-! ### The text that is meant -/

/-- Eight groups of four digits with colons between them, which are the number `ds` is. -/
def Denotes (s ds : List Byte) : Prop :=
  ∃ (g : List Byte) (gs : List (List Byte)), gs.length = 7 ∧
    (∀ p ∈ g :: gs, IsGroup p ∧ p.length = 4) ∧ s = g ++ restText (gs.map (Prod.mk false)) ∧
    hexNumber (g :: gs).flatten = hexNumber ds

/-! ### The line of the gateway -/

/-- `r` is the first line of the table for the interface with the metric 1. -/
inductive Selects (ifname : CStr) : List Byte → Route6 → Prop where
  | here {text rest : List Byte} {r : Route6} (hscan : scanRoute6 text = some (r, rest))
      (hiface : r.iface.length < 16) (hr : r.matches ifname = .ok true) : Selects ifname text r
  | next {text rest : List Byte} {q r : Route6} (hscan : scanRoute6 text = some (q, rest))
      (hiface : q.iface.length < 16) (hq : q.matches ifname = .ok false)
      (hrest : Selects ifname rest r) : Selects ifname text r

/-- The line leaves a text in `addr6` that denotes its digits. -/
def Yields (env : GwEnv) (ifname : CStr) (table : List Byte) (r : Route6) : Prop :=
  ∃ addr6 s, gatewayLine ifname env.addr6x table = .ok (some (r, addr6)) ∧ addr6.held = some s ∧
    Denotes s.bytes r.dest

section Never

variable {env : GwEnv} {ifname : CStr} {table : List Byte} {r : Route6}

/-- The words that are stored leave the array as long as it was, or longer. -/
theorem length_store (r : Route6) {addr6x : Block} (hx : 40 ≤ addr6x.bytes.length) :
    40 ≤ (addr6x.store 0 (r.dest ++ [0])).bytes.length ∧ 40 ≤ (r.store addr6x).bytes.length := by
  have hfirst : 40 ≤ (addr6x.store 0 (r.dest ++ [0])).bytes.length := by
    rw [Block.store, length_splice (Nat.zero_le _)]
    omega
  refine ⟨hfirst, ?_⟩
  show 40 ≤ (splice _ _ _).length
  rw [length_splice hfirst]
  omega

/-- The digits stand at the front of the array. -/
theorem bytes_store {addr6x : Block} (hx : 40 ≤ addr6x.bytes.length) (hlen : r.dest.length ≤ 39) :
    ∃ p, (r.store addr6x).bytes = r.dest ++ p := by
  have htake : (r.store addr6x).bytes.take r.dest.length = r.dest := by
    show (splice _ _ _).take _ = _
    rw [take_splice_of_le (length_store r hx).1 (by omega), Block.store, splice_zero,
      List.append_assoc, List.take_left]
  have hsplit := List.take_append_drop r.dest.length (r.store addr6x).bytes
  rw [htake] at hsplit
  exact ⟨_, hsplit.symm⟩

/-- A turn of the loop, at a line whose interface fits. -/
theorem gatewayLine_line {text rest : List Byte} (hscan : scanRoute6 text = some (r, rest))
    (hiface : r.iface.length < 16) (addr6x : Block) :
    gatewayLine ifname addr6x text = (do
      if ← r.matches ifname then
        let addr6 ← spread (r.store addr6x).bytes (.start (.fresh 40))
        return some (r, addr6.block)
      else gatewayLine ifname (r.store addr6x) rest) := by
  rw [gatewayLine]
  split
  · rename_i h
    rw [hscan] at h
    cases h
  · rename_i h
    rw [hscan] at h
    obtain ⟨rfl, rfl⟩ := Prod.mk.inj (Option.some.inj h)
    rw [if_neg (by omega)]

/-- **What a line of 32 digits leaves in `addr6`**: eight groups, each with a colon behind it. -/
theorem gatewayLine_selects (hsel : Selects ifname table r) (hlen : r.dest.length = 32)
    {addr6x : Block} (hx : 40 ≤ addr6x.bytes.length) :
    ∃ (gs : List (List Byte)) (addr6 : Block), gs.flatten = r.dest ∧
      addr6.bytes = gs.flatMap (fun g => g ++ [0x3a]) ∧
      gatewayLine ifname addr6x table = .ok (some (r, addr6)) := by
  induction hsel generalizing addr6x with
  | @here text rest r hscan hiface hr =>
      obtain ⟨gs, hcount, hgs, hflat⟩ := @exists_groups 8 r.dest (by rw [hlen])
      obtain ⟨p, hp⟩ := bytes_store (r := r) hx (by omega)
      have hne : gs ≠ [] := List.ne_nil_of_length_eq_add_one hcount
      have hspread := spread_groups (t := .start (.fresh 40)) hgs hne (by rw [hcount]; rfl) p
      rw [hflat, ← hp] at hspread
      refine ⟨gs, ((Cursor.start (.fresh 40)).putAll (gs.flatMap fun g => g ++ [0x3a])).block,
        hflat, ?_, ?_⟩
      · rw [Cursor.putAll_eq (Nat.zero_le _)]
        show splice [] 0 _ = _
        rw [splice_zero, List.drop_nil, List.append_nil]
      · rw [gatewayLine_line hscan hiface, hr]
        simp only [Run.ok_bind, if_true, hspread]
        rfl
  | @next text rest q r hscan hiface hq _ ih =>
      obtain ⟨gs, addr6, hflat, hbytes, hrun⟩ := ih hlen (length_store q hx).2
      refine ⟨gs, addr6, hflat, hbytes, ?_⟩
      rw [gatewayLine_line hscan hiface, hq, Run.ok_bind, if_neg (by decide)]
      exact hrun

/-- **No text**: there is no NUL in the array. -/
theorem addr6_unterminated (env : GwEnv) (hsel : Selects ifname table r) (hlen : r.dest.length = 32)
    (hhex : ∀ b ∈ r.dest, isHexDigit b = true) :
    ∃ addr6, gatewayLine ifname env.addr6x table = .ok (some (r, addr6)) ∧
      (0 : Byte) ∉ addr6.bytes := by
  have hx : 40 ≤ env.addr6x.bytes.length := by simp [GwEnv.addr6x]
  obtain ⟨gs, addr6, hflat, hbytes, hrun⟩ := gatewayLine_selects hsel hlen hx
  refine ⟨addr6, hrun, fun h => ?_⟩
  rw [hbytes] at h
  obtain ⟨g, hg, hmem⟩ := List.mem_flatMap.mp h
  rcases List.mem_append.mp hmem with hmem | hmem
  · have hdigit := hhex 0 (hflat ▸ List.mem_flatten_of_mem hg hmem)
    exact absurd hdigit (by decide)
  · simp at hmem

/-- Without a NUL the array holds no string. -/
theorem not_yields {addr6 : Block}
    (hrun : gatewayLine ifname env.addr6x table = .ok (some (r, addr6)))
    (hnul : (0 : Byte) ∉ addr6.bytes) : ¬ Yields env ifname table r := by
  rintro ⟨addr6', s, hrun', hheld, -⟩
  rw [hrun] at hrun'
  obtain rfl := (Prod.mk.inj (Option.some.inj (Except.ok.inj hrun'))).2
  have htake : (0 : Byte) ∉ addr6.bytes.take addr6.size := fun h => hnul (List.mem_of_mem_take h)
  rw [Block.held, CStr.ofMem_eq_none.mpr htake] at hheld
  cases hheld

/-- **The reader of the gateway never has an address.**  For every line of 32 digits that it chooses
in a routing table, `addr6` holds no text, and `inet_pton` reads past its end. -/
theorem getIP6GwInfo_never (hsel : Selects ifname table r) (hlen : r.dest.length = 32)
    (hhex : ∀ b ∈ r.dest, isHexDigit b = true) :
    ¬ Yields env ifname table r ∧
      getIP6GwInfo env ifname (some table) = .error (.outside .addr6) := by
  obtain ⟨addr6, hrun, hnul⟩ := addr6_unterminated env hsel hlen hhex
  have htake : (0 : Byte) ∉ addr6.bytes.take addr6.size := fun h => hnul (List.mem_of_mem_take h)
  refine ⟨not_yields hrun hnul, ?_⟩
  rw [getIP6GwInfo]
  simp only [hrun, Run.ok_bind]
  rw [stringAt_noNul htake]
  rfl

end Never

/-! ### A table -/

/-- A route of `br0` to `2001:db8::1` with the metric 1. -/
def sampleTable : List Byte :=
  ascii "20010db8000000000000000000000001 40 ".toList ++
    ascii "00000000000000000000000000000000 00 ".toList ++
    ascii "fe800000000000000000000000000001 ".toList ++
    ascii "00000001 00000000 00000000 00000003 br0\n".toList

/-- What is scanned of it. -/
def sampleRoute : Route6 where
  dest := ascii "20010db8000000000000000000000001".toList
  prefixLen := 0x40
  slen := 0
  nextHop := ascii "fe800000000000000000000000000001".toList
  metric := 1
  use := 0
  refcnt := 0
  iflags := 3
  iface := ascii "br0".toList

/-- An environment whose stack is zero. -/
def zeroEnv : GwEnv where
  stack _ := 0
  inaddr6 := List.replicate 16 0
  inetPton _ := none
  inetNtop _ := .text "::"

theorem selects_sample : Selects (.text "br0") sampleTable sampleRoute := by
  have hscan : scanRoute6 sampleTable = some (sampleRoute, []) := by
    simp only [sampleTable, sampleRoute, String.reduceToList]
    decide +kernel
  exact .here hscan (by decide +kernel) (by decide +kernel)

/-- The sample's interface is found, and the array holds no text. -/
theorem getIP6GwInfo_never_sample :
    ¬ Yields zeroEnv (.text "br0") sampleTable sampleRoute ∧
      getIP6GwInfo zeroEnv (.text "br0") (some sampleTable) = .error (.outside .addr6) :=
  getIP6GwInfo_never selects_sample (by decide +kernel) (by decide +kernel)

/-- No address is read from the sample. -/
theorem sample_not_yields : ¬ Yields zeroEnv (.text "br0") sampleTable sampleRoute := by
  obtain ⟨addr6, hrun, hnul⟩ := addr6_unterminated zeroEnv selects_sample
    (by decide +kernel) (by decide +kernel)
  exact not_yields hrun hnul

end Wap4410n.Utility
