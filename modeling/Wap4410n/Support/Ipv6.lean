import Wap4410n.Support.Inet

/-!
# Support — IPv6 addresses as text

The text of an IPv6 address is pieces with `:` or `::` between them.  A piece is a group of one to
four hexadecimal digits, and the last one may be a dotted quad, which stands for two groups; the
piece before or behind a `::` at an end of the text is empty.

* `Text.ext_of_eq`: a text has one reading.
* `IsAddress`: the addresses, of eight groups, or of fewer and one `::`.
-/

namespace CLib.Ipv6

/-! ### Pieces -/

def isHexDigit (b : Byte) : Bool :=
  isDigit b || (0x41 ≤ b && b ≤ 0x46) || (0x61 ≤ b && b ≤ 0x66)

/-- One to four hexadecimal digits. -/
def IsGroup (p : List Byte) : Prop := p ≠ [] ∧ p.length ≤ 4 ∧ ∀ b ∈ p, isHexDigit b = true

/-- A run of digits. -/
def IsNumeral (ds : List Byte) : Prop := ds ≠ [] ∧ ∀ b ∈ ds, isDigit b = true

/-- A decimal number up to 255, of `n` digits at most. -/
def IsOctet (n : Nat) (ds : List Byte) : Prop :=
  ds ≠ [] ∧ ds.length ≤ n ∧ (∀ b ∈ ds, isDigit b = true) ∧ decimal ds ≤ 255

/-- Four numbers with dots between them. -/
def quadText (a b c d : List Byte) : List Byte := a ++ 0x2e :: (b ++ 0x2e :: (c ++ 0x2e :: d))

/-- A dotted quad, its last number of `n` digits at most. -/
def IsQuad (n : Nat) (p : List Byte) : Prop :=
  ∃ a b c d, p = quadText a b c d ∧ IsOctet 3 a ∧ IsOctet 3 b ∧ IsOctet 3 c ∧ IsOctet n d

/-- `255.255.255.255` -/
def IsOnes (p : List Byte) : Prop :=
  ∃ a b c d, p = quadText a b c d ∧ (IsNumeral a ∧ IsNumeral b ∧ IsNumeral c ∧ IsNumeral d) ∧
    decimal a = 255 ∧ decimal b = 255 ∧ decimal c = 255 ∧ decimal d = 255

/-! ### Texts -/

/-- The pieces behind the first one, each with whether `::` stands before it. -/
abbrev Rest := List (Bool × List Byte)

/-- The separators and the pieces. -/
def restText : Rest → List Byte
  | [] => []
  | (gap, p) :: rest => (if gap then [0x3a, 0x3a] else [0x3a]) ++ (p ++ restText rest)

/-- The number of `::`. -/
def gaps (rest : Rest) : Nat := rest.countP (·.1)

/-- The groups a piece stands for. -/
def weight (p : List Byte) : Nat := if p = [] then 0 else if 0x2e ∈ p then 2 else 1

/-- The groups of all of them. -/
def weights : Rest → Nat
  | [] => 0
  | (_, p) :: rest => weight p + weights rest

/-- The last piece. -/
def last (p : List Byte) : Rest → List Byte
  | [] => p
  | (_, q) :: rest => last q rest

/-- A piece with what follows it, `::` before it or not. -/
def Follows (n : Nat) : Bool → List Byte → Rest → Prop
  | gap, p, [] => IsGroup p ∨ IsQuad n p ∨ gap = true ∧ p = []
  | _, p, (gap, q) :: rest => IsGroup p ∧ Follows n gap q rest

/-- Two pieces or more. -/
structure Text where
  first : List Byte
  gap : Bool
  second : List Byte
  rest : Rest

namespace Text

variable (x : Text)

/-- The pieces behind the first. -/
def tail : Rest := (x.gap, x.second) :: x.rest

def text : List Byte := x.first ++ restText x.tail

/-- The pieces are groups but for a quad at the end and nothing at the end of a `::`. -/
def Reads (n : Nat) : Prop :=
  (IsGroup x.first ∨ x.gap = true ∧ x.first = []) ∧ Follows n x.gap x.second x.rest

/-- The groups. -/
def groups : Nat := weight x.first + weights x.tail

/-- The last piece. -/
def lastPiece : List Byte := last x.second x.rest

/-- Eight groups, or fewer with one `::`. -/
def Counts : Prop := gaps x.tail = 0 ∧ x.groups = 8 ∨ gaps x.tail = 1 ∧ x.groups ≤ 7

end Text

/-- The text of an IPv6 address. -/
def IsAddress (s : List Byte) : Prop := ∃ x : Text, x.text = s ∧ x.Reads 3 ∧ x.Counts

/-- A prefix length. -/
def IsPrefixLength (t : List Byte) : Prop :=
  t ≠ [] ∧ (∀ b ∈ t, isDigit b = true) ∧ decimal t ≤ 128

/-- The text of an address with its prefix length. -/
def IsPrefixed (s : List Byte) : Prop :=
  ∃ a t, s = a ++ 0x2f :: t ∧ IsAddress a ∧ IsPrefixLength t

/-! ### Characters of the pieces -/

theorem isHexDigit_of_isDigit {b : Byte} (h : isDigit b = true) : isHexDigit b = true := by
  rw [isHexDigit, h]
  rfl

/-- A hexadecimal digit is no separator. -/
theorem isHexDigit_ne {b : Byte} (h : isHexDigit b = true) : b ≠ 0x3a ∧ b ≠ 0x2e ∧ b ≠ 0x2f := by
  have hall : ∀ b, isHexDigit b = true → b ≠ 0x3a ∧ b ≠ 0x2e ∧ b ≠ 0x2f :=
    forall_byte (by decide)
  exact hall b h

theorem IsOctet.mono {n m : Nat} {ds : List Byte} (h : IsOctet n ds) (hnm : n ≤ m) : IsOctet m ds :=
  ⟨h.1, Nat.le_trans h.2.1 hnm, h.2.2⟩

theorem IsQuad.mono {n m : Nat} {p : List Byte} (h : IsQuad n p) (hnm : n ≤ m) : IsQuad m p := by
  obtain ⟨a, b, c, d, hp, ha, hb, hc, hd⟩ := h
  exact ⟨a, b, c, d, hp, ha, hb, hc, hd.mono hnm⟩

theorem Follows.mono {n m : Nat} (hnm : n ≤ m) : ∀ {rest : Rest} {gap : Bool} {p : List Byte},
    Follows n gap p rest → Follows m gap p rest
  | [], _, _, h => h.imp_right fun h => h.imp_left fun h => h.mono hnm
  | _ :: _, _, _, h => ⟨h.1, Follows.mono hnm h.2⟩

theorem Text.Reads.mono {x : Text} {n m : Nat} (h : x.Reads n) (hnm : n ≤ m) : x.Reads m :=
  ⟨h.1, Follows.mono hnm h.2⟩

/-- A quad has neither colon nor slash. -/
theorem IsQuad.chars {n : Nat} {p : List Byte} (h : IsQuad n p) :
    p ≠ [] ∧ 0x2e ∈ p ∧ ∀ b ∈ p, b ≠ 0x3a ∧ b ≠ 0x2f := by
  obtain ⟨a, b, c, d, rfl, ha, hb, hc, hd⟩ := h
  have hne : ∀ {n : Nat} {ds : List Byte}, IsOctet n ds → ∀ x ∈ ds, x ≠ 0x3a ∧ x ≠ 0x2f :=
    fun h x hx =>
      have ⟨hcolon, _, hslash⟩ := isHexDigit_ne (isHexDigit_of_isDigit (h.2.2.1 x hx))
      ⟨hcolon, hslash⟩
  refine ⟨by simp [quadText], by simp [quadText], fun x hx => ?_⟩
  simp only [quadText, List.mem_append, List.mem_cons] at hx
  rcases hx with hx | rfl | hx | rfl | hx | rfl | hx
  · exact hne ha x hx
  · decide
  · exact hne hb x hx
  · decide
  · exact hne hc x hx
  · decide
  · exact hne hd x hx

theorem IsGroup.chars {p : List Byte} (h : IsGroup p) :
    p ≠ [] ∧ 0x2e ∉ p ∧ ∀ b ∈ p, b ≠ 0x3a ∧ b ≠ 0x2f := by
  obtain ⟨hne, -, hhex⟩ := h
  refine ⟨hne, fun hdot => (isHexDigit_ne (hhex _ hdot)).2.1 rfl, fun b hb => ?_⟩
  have ⟨hcolon, _, hslash⟩ := isHexDigit_ne (hhex b hb)
  exact ⟨hcolon, hslash⟩

/-! ### One reading -/

/-- A piece ends at the first separator. -/
theorem piece_ext {c : Byte} {p q r t : List Byte} (hp : ∀ b ∈ p, b ≠ c) (hq : ∀ b ∈ q, b ≠ c)
    (hr : r.head?.all (· = c)) (ht : t.head?.all (· = c)) (h : p ++ r = q ++ t) :
    p = q ∧ r = t := by
  have htake : ∀ {u v : List Byte}, (∀ b ∈ u, b ≠ c) → v.head?.all (· = c) →
      (u ++ v).takeWhile (· ≠ c) = u := by
    intro u v hu hv
    rw [List.takeWhile_append_of_pos fun b hb => by simpa using hu b hb]
    cases v with
    | nil => simp
    | cons b v =>
        obtain rfl : b = c := by simpa using hv
        simp
  have hpq : p = q := by
    have hsame := congrArg (List.takeWhile (· ≠ c)) h
    rwa [htake hp hr, htake hq ht] at hsame
  subst hpq
  exact ⟨rfl, List.append_cancel_left h⟩

theorem head_restText (rest : Rest) : (restText rest).head?.all (· = 0x3a) := by
  cases rest with
  | nil => rfl
  | cons x rest =>
      obtain ⟨gap, p⟩ := x
      cases gap <;> rfl

/-- A piece holds no separator, and is empty behind a `::` at the end only. -/
theorem Follows.chars {n : Nat} {gap : Bool} {p : List Byte} {rest : Rest}
    (h : Follows n gap p rest) :
    (∀ b ∈ p, b ≠ 0x3a ∧ b ≠ 0x2f) ∧ (p = [] → gap = true ∧ rest = []) := by
  cases rest with
  | nil =>
      rcases h with h | h | ⟨hgap, rfl⟩
      · exact ⟨h.chars.2.2, fun hp => absurd hp h.chars.1⟩
      · exact ⟨h.chars.2.2, fun hp => absurd hp h.chars.1⟩
      · exact ⟨fun b hb => (nomatch hb), fun _ => ⟨hgap, rfl⟩⟩
  | cons x rest => exact ⟨h.1.chars.2.2, fun hp => absurd hp h.1.chars.1⟩

/-- Behind a single colon there is no other. -/
theorem Follows.head_ne {n : Nat} {p : List Byte} {rest : Rest} (h : Follows n false p rest)
    (t : List Byte) : p ++ restText rest ≠ 0x3a :: t := by
  intro heq
  obtain ⟨hchars, hempty⟩ := h.chars
  cases p with
  | nil => exact absurd (hempty rfl).1 Bool.false_ne_true
  | cons b p => exact (hchars b List.mem_cons_self).1 (List.cons.inj heq).1

theorem sep_ext {n m : Nat} {rest rest' : Rest} {gap gap' : Bool} {p p' : List Byte}
    (h : Follows n gap p rest) (h' : Follows m gap' p' rest')
    (heq : restText ((gap, p) :: rest) = restText ((gap', p') :: rest')) :
    gap = gap' ∧ p ++ restText rest = p' ++ restText rest' := by
  cases gap <;> cases gap'
  · exact ⟨rfl, List.append_cancel_left heq⟩
  · exact absurd (List.cons.inj heq).2 (h.head_ne _)
  · exact absurd (List.cons.inj heq).2.symm (h'.head_ne _)
  · exact ⟨rfl, List.append_cancel_left heq⟩

/-- A piece and what follows it have one reading. -/
theorem follows_ext {n m : Nat} : ∀ {rest rest' : Rest} {gap gap' : Bool} {p p' : List Byte},
    Follows n gap p rest → Follows m gap' p' rest' →
    p ++ restText rest = p' ++ restText rest' → p = p' ∧ rest = rest'
  | rest, rest', gap, gap', p, p', h, h', heq => by
      obtain ⟨hp, hrest⟩ :=
        piece_ext (fun b hb => (h.chars.1 b hb).1) (fun b hb => (h'.chars.1 b hb).1)
        (head_restText rest) (head_restText rest') heq
      refine ⟨hp, ?_⟩
      match rest, rest', h, h', hrest with
      | [], [], _, _, _ => rfl
      | [], (g, _) :: _, _, _, hrest => cases g <;> cases hrest
      | (g, _) :: _, [], _, _, hrest => cases g <;> cases hrest
      | (g, q) :: rest, (g', q') :: rest', h, h', hrest =>
          obtain ⟨hgap, htext⟩ := sep_ext h.2 h'.2 hrest
          obtain ⟨hq, hrest⟩ := follows_ext h.2 h'.2 htext
          rw [hgap, hq, hrest]

/-- **A text has one reading.** -/
theorem Text.ext_of_eq {n m : Nat} {x y : Text} (hx : x.Reads n) (hy : y.Reads m)
    (h : x.text = y.text) : x = y := by
  have hchars : ∀ {n : Nat} {x : Text}, x.Reads n → ∀ b ∈ x.first, b ≠ 0x3a := by
    rintro n x ⟨hgroup | ⟨-, hnil⟩, -⟩ b hb
    · exact (hgroup.chars.2.2 b hb).1
    · rw [hnil] at hb
      cases hb
  obtain ⟨hfirst, htail⟩ := piece_ext (hchars hx) (hchars hy) (head_restText x.tail)
    (head_restText y.tail) h
  obtain ⟨hgap, htext⟩ := sep_ext hx.2 hy.2 htail
  obtain ⟨hsecond, hrest⟩ := follows_ext hx.2 hy.2 htext
  obtain ⟨first, gap, second, rest⟩ := x
  obtain ⟨first', gap', second', rest'⟩ := y
  dsimp only at hfirst hgap hsecond hrest
  rw [hfirst, hgap, hsecond, hrest]

/-- The text of an address has no slash. -/
theorem Follows.noSlash {n : Nat} : ∀ {rest : Rest} {gap : Bool} {p : List Byte},
    Follows n gap p rest → (0x2f : Byte) ∉ p ++ restText rest
  | [], _, p, h => by
      rw [restText, List.append_nil]
      exact fun hmem => (h.chars.1 _ hmem).2 rfl
  | (gap, q) :: rest, _, p, h => by
      have ih := Follows.noSlash h.2
      intro hmem
      rcases List.mem_append.mp hmem with hmem | hmem
      · exact (h.chars.1 _ hmem).2 rfl
      · cases gap <;> simp [restText] at hmem ih <;> tauto

theorem Text.Reads.noSlash {x : Text} {n : Nat} (h : x.Reads n) : (0x2f : Byte) ∉ x.text := by
  have hrest := h.2.noSlash
  intro hmem
  rcases List.mem_append.mp hmem with hmem | hmem
  · rcases h.1 with hgroup | ⟨-, hnil⟩
    · exact (hgroup.chars.2.2 _ hmem).2 rfl
    · rw [hnil] at hmem
      cases hmem
  · rw [tail] at hmem
    obtain ⟨first, gap, second, rest⟩ := x
    cases gap <;> simp [restText] at hmem hrest <;> tauto

/-- **A text with something behind a slash** has one reading, too. -/
theorem Text.append_ext {n m : Nat} {x y : Text} {e f : List Byte} (hx : x.Reads n)
    (hy : y.Reads m) (he : e.head?.all (· = 0x2f)) (hf : f.head?.all (· = 0x2f))
    (h : x.text ++ e = y.text ++ f) : x = y ∧ e = f := by
  obtain ⟨htext, hend⟩ := piece_ext (c := 0x2f) (fun b hb hslash => hx.noSlash (hslash ▸ hb))
    (fun b hb hslash => hy.noSlash (hslash ▸ hb)) he hf h
  exact ⟨Text.ext_of_eq hx hy htext, hend⟩

/-- Without a quad the length of its numbers is no matter. -/
theorem Follows.of_noQuad {n m : Nat} : ∀ {rest : Rest} {gap : Bool} {p : List Byte},
    Follows n gap p rest → (0x2e : Byte) ∉ last p rest → Follows m gap p rest
  | [], _, _, h, hdot =>
      h.imp_right fun h => .inr (h.resolve_left fun h => hdot h.chars.2.1)
  | _ :: _, _, _, h, hdot => ⟨h.1, Follows.of_noQuad h.2 hdot⟩

/-! ### Counts -/

/-- A quad counts twice. -/
def quads (p : List Byte) : Nat := if 0x2e ∈ p then 1 else 0

/-- Nothing counts for nothing. -/
def empties (p : List Byte) : Nat := if p = [] then 1 else 0

theorem IsGroup.weight {p : List Byte} (h : IsGroup p) : weight p = 1 := by
  rw [Ipv6.weight, if_neg h.chars.1, if_neg h.chars.2.1]

/-- **The groups behind a separator** are as many as the pieces, but for the last one. -/
theorem Follows.weight {n : Nat} : ∀ {rest : Rest} {gap : Bool} {p : List Byte},
    Follows n gap p rest →
    Ipv6.weight p + weights rest + empties (last p rest) = rest.length + 1 + quads (last p rest)
  | [], _, p, h => by
      rcases h with h | h | ⟨-, rfl⟩
      · rw [h.weight, last, empties, quads, if_neg h.chars.1, if_neg h.chars.2.1]
        rfl
      · rw [Ipv6.weight, last, empties, quads, if_neg h.chars.1, if_pos h.chars.2.1,
          if_neg h.chars.1, if_pos h.chars.2.1]
        rfl
      · rfl
  | (gap, q) :: rest, _, p, h => by
      have ih := Follows.weight h.2
      rw [h.1.weight, weights, last, List.length_cons]
      omega

/-- A piece that is empty stands behind a `::`. -/
theorem Follows.last_eq_nil {n : Nat} : ∀ {rest : Rest} {gap : Bool} {p : List Byte},
    Follows n gap p rest → last p rest = [] → rest = [] ∧ gap = true ∨ 1 ≤ gaps rest
  | [], _, _, h, hlast => .inl ⟨rfl, (h.chars.2 hlast).1⟩
  | (gap, q) :: rest, _, p, h, hlast => by
      right
      rcases Follows.last_eq_nil h.2 hlast with ⟨-, rfl⟩ | hgaps
      · simp [gaps]
      · cases gap <;> simp [gaps] at hgaps ⊢
        omega

namespace Text

variable {x : Text} {n : Nat}

/-- A quad at the end of the text. -/
def HasQuad (x : Text) : Prop := 0x2e ∈ x.lastPiece

theorem groups_eq (h : x.Reads n) :
    x.groups + empties x.first + empties x.lastPiece = x.tail.length + 1 + quads x.lastPiece := by
  have hrest := h.2.weight
  have hfirst : weight x.first + empties x.first = 1 := by
    rcases h.1 with hgroup | ⟨-, hnil⟩
    · rw [hgroup.weight, empties, if_neg hgroup.chars.1]
    · rw [hnil]
      rfl
  rw [groups, tail, weights, List.length_cons, lastPiece]
  omega

/-- Without `::` every piece counts. -/
theorem groups_of_noGap (h : x.Reads n) (hgaps : gaps x.tail = 0) :
    x.groups = x.tail.length + 1 + quads x.lastPiece := by
  have heq := groups_eq h
  have hgap : x.gap = false := by
    rw [tail] at hgaps
    cases hg : x.gap with
    | false => rfl
    | true => simp [gaps, hg] at hgaps
  have hfirst : empties x.first = 0 := by
    rcases h.1 with hgroup | ⟨htrue, -⟩
    · exact if_neg hgroup.chars.1
    · exact absurd (hgap.symm.trans htrue) (by decide)
  have hlast : empties x.lastPiece = 0 := by
    refine if_neg fun hnil => ?_
    rcases h.2.last_eq_nil hnil with ⟨-, htrue⟩ | hrest
    · exact absurd (hgap.symm.trans htrue) (by decide)
    · have hle : gaps x.rest ≤ gaps x.tail := by
        rw [tail, gaps, gaps, List.countP_cons]
        omega
      omega
  omega

/-- With one `::` there are as many groups as separators at least, but for the text `::`. -/
theorem tail_le_groups (h : x.Reads n) (hgaps : gaps x.tail = 1) :
    x.tail.length ≤ x.groups ∨ x.tail.length = 1 := by
  have heq := groups_eq h
  by_cases hfirst : x.first = []
  · by_cases hlast : x.lastPiece = []
    · right
      have hgap : x.gap = true := (h.1.resolve_left fun hg => hg.chars.1 hfirst).1
      rcases h.2.last_eq_nil hlast with ⟨hnil, -⟩ | hrest
      · rw [tail, hnil]
        rfl
      · rw [tail, gaps, List.countP_cons] at hgaps
        rw [gaps] at hrest
        simp only [hgap, if_true] at hgaps
        omega
    · rw [empties, empties, if_pos hfirst, if_neg hlast] at heq
      omega
  · rw [empties, if_neg hfirst] at heq
    have hone : empties x.lastPiece ≤ 1 := by
      unfold empties
      split <;> omega
    omega

end Text

/-! ### Quads as `inet_aton` reads them -/

theorem IsOctet.numeral {n : Nat} {ds : List Byte} (h : IsOctet n ds) : IsNumeral ds :=
  ⟨h.1, h.2.2.1⟩

theorem atonPart_eq_some {s t : List Byte} {x : Byte} (h : atonPart s = some (x, t)) :
    ∃ ds, s = ds ++ t ∧ IsNumeral ds ∧ decimal ds ≤ 255 ∧ x = .ofNat (decimal ds) ∧
      t.head?.all (fun c => !isDigit c) := by
  unfold atonPart at h
  dsimp only at h
  split at h
  · cases h
  · rename_i hne
    obtain ⟨hx, ht⟩ := Prod.mk.inj (Option.some.inj h)
    refine ⟨s.takeWhile isDigit, ?_, ⟨fun e => hne (.inl e), fun b hb => List.mem_takeWhile_imp hb⟩,
      Nat.not_lt.mp fun e => hne (.inr e), hx.symm, ?_⟩
    · rw [← ht, List.takeWhile_append_dropWhile]
    · rw [← ht]
      exact head?_dropWhile_all isDigit s

theorem atonPart_numeral {ds t : List Byte} (h : IsNumeral ds) (hle : decimal ds ≤ 255)
    (ht : t.head?.all fun c => !isDigit c) :
    atonPart (ds ++ t) = some (.ofNat (decimal ds), t) := by
  obtain ⟨hrun, hrest⟩ := run_digits h.2 ht
  rw [atonPart, hrun, hrest]
  exact if_neg fun e => e.elim h.1 (Nat.not_lt.mpr hle)

/-- **What `inet_aton` reads** is four numbers up to 255, with nothing behind them or white
space. -/
theorem inetAton_eq_some {s : CStr} {x : InAddr} (h : inetAton s = some x) :
    ∃ a b c d w, s.bytes = quadText a b c d ++ w ∧
      (IsNumeral a ∧ IsNumeral b ∧ IsNumeral c ∧ IsNumeral d) ∧
      (decimal a ≤ 255 ∧ decimal b ≤ 255 ∧ decimal c ≤ 255 ∧ decimal d ≤ 255) ∧
      w.head?.all isSpace ∧
      x = ⟨.ofNat (decimal a), .ofNat (decimal b), .ofNat (decimal c), .ofNat (decimal d)⟩ := by
  have hdot : ∀ {u v : List Byte}, scanChar 0x2e u = some v → u = 0x2e :: v := by
    intro u v hu
    unfold scanChar at hu
    split at hu
    · rename_i hhead
      cases u with
      | nil => cases hhead
      | cons b u =>
          obtain rfl := Option.some.inj hhead
          exact congrArg _ (Option.some.inj hu)
    · cases hu
  unfold inetAton at h
  simp only [Option.bind_eq_bind, Option.bind_eq_some_iff, Prod.exists] at h
  obtain ⟨xa, ta, ha, ub, hub, xb, tb, hb, uc, huc, xc, tc, hc, ud, hud, xd, td, hd, hlast⟩ := h
  obtain ⟨a, hsa, hna, hla, rfl, -⟩ := atonPart_eq_some ha
  obtain ⟨b, hsb, hnb, hlb, rfl, -⟩ := atonPart_eq_some hb
  obtain ⟨c, hsc, hnc, hlc, rfl, -⟩ := atonPart_eq_some hc
  obtain ⟨d, hsd, hnd, hld, rfl, -⟩ := atonPart_eq_some hd
  split at hlast
  · rename_i hspace
    refine ⟨a, b, c, d, td, ?_, ⟨hna, hnb, hnc, hnd⟩, ⟨hla, hlb, hlc, hld⟩, hspace,
      (Option.some.inj hlast).symm⟩
    rw [hsa, hdot hub, hsb, hdot huc, hsc, hdot hud, hsd]
    simp [quadText]
  · cases hlast

/-- Four numbers up to 255 are read, with white space behind them. -/
theorem inetAton_quad_append {s : CStr} {a b c d w : List Byte}
    (hs : s.bytes = quadText a b c d ++ w)
    (hn : IsNumeral a ∧ IsNumeral b ∧ IsNumeral c ∧ IsNumeral d)
    (hle : decimal a ≤ 255 ∧ decimal b ≤ 255 ∧ decimal c ≤ 255 ∧ decimal d ≤ 255)
    (hw : w.head?.all isSpace) :
    inetAton s =
      some ⟨.ofNat (decimal a), .ofNat (decimal b), .ofNat (decimal c), .ofNat (decimal d)⟩ := by
  have hno : ∀ b : Byte, isSpace b = true → (!isDigit b) = true := forall_byte (by decide)
  have hends : w.head?.all fun c => !isDigit c := by
    cases w with
    | nil => rfl
    | cons c w => exact hno c (by simpa using hw)
  have htext : s.bytes = a ++ 0x2e :: (b ++ 0x2e :: (c ++ 0x2e :: (d ++ w))) := by
    rw [hs]
    simp [quadText]
  rw [inetAton, htext, atonPart_numeral hn.1 hle.1 rfl]
  simp only [Option.bind_eq_bind, Option.bind_some, scanChar, List.head?_cons, if_true,
    List.tail_cons]
  rw [atonPart_numeral hn.2.1 hle.2.1 rfl]
  simp only [Option.bind_some, List.head?_cons, if_true, List.tail_cons]
  rw [atonPart_numeral hn.2.2.1 hle.2.2.1 rfl]
  simp only [Option.bind_some, List.head?_cons, if_true, List.tail_cons]
  rw [atonPart_numeral hn.2.2.2 hle.2.2.2 hends]
  exact if_pos hw

/-- **Four numbers up to 255** are read. -/
theorem inetAton_quad {s : CStr} {a b c d : List Byte} (hs : s.bytes = quadText a b c d)
    (hn : IsNumeral a ∧ IsNumeral b ∧ IsNumeral c ∧ IsNumeral d)
    (hle : decimal a ≤ 255 ∧ decimal b ≤ 255 ∧ decimal c ≤ 255 ∧ decimal d ≤ 255) :
    inetAton s =
      some ⟨.ofNat (decimal a), .ofNat (decimal b), .ofNat (decimal c), .ofNat (decimal d)⟩ :=
  inetAton_quad_append (by rw [hs, List.append_nil]) hn hle rfl

/-- A run of digits ends where it ends. -/
theorem numeral_ext {a b t u : List Byte} (ha : IsNumeral a) (hb : IsNumeral b)
    (ht : t.head?.all fun c => !isDigit c) (hu : u.head?.all fun c => !isDigit c)
    (h : a ++ t = b ++ u) : a = b ∧ t = u := by
  have hsame := congrArg (List.takeWhile isDigit) h
  rw [(run_digits ha.2 ht).1, (run_digits hb.2 hu).1] at hsame
  subst hsame
  exact ⟨rfl, List.append_cancel_left h⟩

/-- **A quad has one reading.** -/
theorem quadText_ext {a b c d a' b' c' d' : List Byte}
    (h : IsNumeral a ∧ IsNumeral b ∧ IsNumeral c ∧ IsNumeral d)
    (h' : IsNumeral a' ∧ IsNumeral b' ∧ IsNumeral c' ∧ IsNumeral d')
    (heq : quadText a b c d = quadText a' b' c' d') : a = a' ∧ b = b' ∧ c = c' ∧ d = d' := by
  obtain ⟨rfl, h1⟩ := numeral_ext h.1 h'.1 rfl rfl heq
  obtain ⟨rfl, h2⟩ := numeral_ext h.2.1 h'.2.1 rfl rfl (List.cons.inj h1).2
  obtain ⟨rfl, h3⟩ := numeral_ext h.2.2.1 h'.2.2.1 rfl rfl (List.cons.inj h2).2
  exact ⟨rfl, rfl, rfl, (List.cons.inj h3).2⟩

end CLib.Ipv6
