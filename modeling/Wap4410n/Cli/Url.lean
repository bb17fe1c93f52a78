import Wap4410n.Cli.Handlers
import Wap4410n.Support.Ipv6
import Wap4410n.Utility.IpMask

/-!
# CLI — URLs

`scValidUrl` looks behind the scheme for dots, for characters it refuses and for a text of digits
and dots, but it hands the text as a whole to `scIsIpAddress`.  So an address is accepted without a
scheme only.  The text is copied before it is looked at.

* `dottedQuad_iff`: the texts without white space that `inet_aton` reads are the dotted quads.
* `scValidUrl_apply`: what the validator returns.
* `urlLaw_iff`: the texts it judges alike with and without a scheme, and in bounds.
-/

namespace LinksysCli

open CLib CLib.Ipv6
open Wap4410n.Apcfg (Config)
open Wap4410n.Utility (OctetText DottedQuad)

/-! ### Dotted quads -/

theorem octetText_iff {ds : List Byte} {b : Byte} :
    OctetText ds b ↔ IsNumeral ds ∧ decimal ds ≤ 255 ∧ UInt8.ofNat (decimal ds) = b := by
  constructor
  · rintro ⟨hne, hds, hvalue⟩
    have hb := b.toNat_lt
    exact ⟨⟨hne, hds⟩, by omega, by rw [hvalue, UInt8.ofNat_toNat]⟩
  · rintro ⟨⟨hne, hds⟩, hle, rfl⟩
    exact ⟨hne, hds, by rw [UInt8.toNat_ofNat', Nat.mod_eq_of_lt (by omega)]⟩

/-- **A dotted quad is read** as its address. -/
theorem inetAton_dottedQuad {u : CStr} {m : InAddr} (h : DottedQuad u m) : inetAton u = some m := by
  obtain ⟨a, b, c, d, ha, hb, hc, hd, hu⟩ := h
  obtain ⟨ha, hla, hma⟩ := octetText_iff.mp ha
  obtain ⟨hb, hlb, hmb⟩ := octetText_iff.mp hb
  obtain ⟨hc, hlc, hmc⟩ := octetText_iff.mp hc
  obtain ⟨hd, hld, hmd⟩ := octetText_iff.mp hd
  rw [inetAton_quad hu ⟨ha, hb, hc, hd⟩ ⟨hla, hlb, hlc, hld⟩, hma, hmb, hmc, hmd]

/-- **Without white space** nothing else is read. -/
theorem dottedQuad_iff {u : CStr} {m : InAddr} (hspace : ∀ b ∈ u.bytes, isSpace b = false) :
    DottedQuad u m ↔ inetAton u = some m := by
  refine ⟨inetAton_dottedQuad, fun h => ?_⟩
  obtain ⟨a, b, c, d, w, hu, ⟨ha, hb, hc, hd⟩, ⟨hla, hlb, hlc, hld⟩, hw, rfl⟩ := inetAton_eq_some h
  have hnil : w = [] := by
    cases w with
    | nil => rfl
    | cons x w =>
        have hx := hspace x (by rw [hu]; simp)
        rw [List.head?_cons, Option.all_some, hx] at hw
        exact absurd hw Bool.false_ne_true
  rw [hnil, List.append_nil] at hu
  exact ⟨a, b, c, d, octetText_iff.mpr ⟨ha, hla, rfl⟩, octetText_iff.mpr ⟨hb, hlb, rfl⟩,
    octetText_iff.mpr ⟨hc, hlc, rfl⟩, octetText_iff.mpr ⟨hd, hld, rfl⟩, hu⟩

/-- A text that is read begins with a digit. -/
theorem inetAton_eq_none {u : CStr} (h : u.bytes.head?.all fun b => !isDigit b) :
    inetAton u = none := by
  have hpart : atonPart u.bytes = none := by
    have hrun : u.bytes.takeWhile isDigit = [] := by
      revert h
      cases u.bytes with
      | nil => exact fun _ => rfl
      | cons b l =>
          intro h
          exact List.takeWhile_cons_of_neg (by simpa using h)
    rw [atonPart, hrun]
    exact if_pos (.inl rfl)
  rw [inetAton, hpart]
  rfl

/-! ### What is returned -/

/-- The text behind the scheme. -/
def behindScheme (u : CStr) : CStr :=
  if beginsNoCase u (.text "http://") then u.drop 7
  else if beginsNoCase u (.text "https://") then u.drop 8
  else u

/-- What becomes of a text that is `pt` behind the scheme. -/
def judgeUrl (whole pt : CStr) : Bool :=
  if pt.bytes.count 0x2e = 0 then false
  else if pt.bytes.count 0x2e = 3 ∧ scIsIpAddress whole then true
  else if pt.bytes.any fun ch => ch ∈ validstr.bytes then false
  else !scIsAllnumber pt

/-- **The validator** copies the text, and judges the copy. -/
theorem scValidUrl_apply (u : CStr) (c : Config) :
    (scValidUrl u c).1 =
      if u.length < 129 then .ok (judgeUrl u (behindScheme u)) else .error (.outside .tempUrl) := by
  have hjudge : u.length < 129 → scValidUrl u = pure (judgeUrl u (behindScheme u)) := by
    intro h
    unfold scValidUrl
    rw [strcpy_eq h, Act.pure_bind]
    unfold judgeUrl behindScheme
    simp only [apply_ite (pure : Bool → Call Bool)]
  split
  · next h =>
      rw [hjudge h]
      rfl
  · next h =>
      unfold scValidUrl
      rw [strcpy_fault h]
      rfl

/-! ### The scheme -/

/-- The schemes. -/
def schemes : List CStr := [.text "http://", .text "https://"]

/-- The text begins with a scheme. -/
def HasScheme (u : CStr) : Prop := ∃ s ∈ schemes, beginsNoCase u s = true

instance (u : CStr) : Decidable (HasScheme u) :=
  inferInstanceAs (Decidable (∃ s ∈ schemes, beginsNoCase u s = true))

theorem behindScheme_self {u : CStr} (h : ¬HasScheme u) : behindScheme u = u := by
  have hno : ∀ s ∈ schemes, ¬beginsNoCase u s = true := fun s hs hb => h ⟨s, hs, hb⟩
  rw [behindScheme, if_neg (hno _ (by simp [schemes])), if_neg (hno _ (by simp [schemes]))]

/-- **A scheme is skipped.** -/
theorem behindScheme_append {s : CStr} (hs : s ∈ schemes) (u : CStr) :
    behindScheme (s.append u) = u := by
  rcases List.mem_pair.mp hs with rfl | rfl
  · have hhttp : beginsNoCase ((CStr.text "http://").append u) (.text "http://") = true := rfl
    rw [behindScheme, if_pos hhttp]
    rfl
  · have hhttp : ¬beginsNoCase ((CStr.text "https://").append u) (.text "http://") = true :=
      Bool.false_ne_true
    have hhttps : beginsNoCase ((CStr.text "https://").append u) (.text "https://") = true := rfl
    rw [behindScheme, if_neg hhttp, if_pos hhttps]
    rfl

/-- The addresses between `1.0.0.1` and `254.255.255.254`. -/
def InRange (m : InAddr) : Prop :=
  InAddr.toNat ⟨1, 0, 0, 1⟩ ≤ m.toNat ∧ m.toNat ≤ InAddr.toNat ⟨254, 255, 255, 254⟩

theorem scIsIpAddress_iff {u : CStr} : scIsIpAddress u = true ↔ InRange (inetAddr u) := by
  have hmix : inetAddr (.text "1.0.0.1") = ⟨1, 0, 0, 1⟩ := by decide
  have hmax : inetAddr (.text "254.255.255.254") = ⟨254, 255, 255, 254⟩ := by decide
  rw [scIsIpAddress, hmix, hmax]
  simp only [Bool.and_eq_true, decide_eq_true_eq, InRange]

theorem not_inRange_none : ¬InRange .none := by
  rintro ⟨-, h⟩
  exact absurd h (by decide)

/-- A text with a scheme is no address. -/
theorem scIsIpAddress_append {s : CStr} (hs : s ∈ schemes) (u : CStr) :
    ¬scIsIpAddress (s.append u) = true := by
  have hhead : (s.append u).bytes.head? = some 0x68 := by
    rcases List.mem_pair.mp hs with rfl | rfl
    · rfl
    · rfl
  have hnone : inetAddr (s.append u) = .none := by
    rw [inetAddr, inetAton_eq_none (by rw [hhead]; rfl)]
    rfl
  rw [scIsIpAddress_iff, hnone]
  exact not_inRange_none

/-- The text is accepted as an address, and refused as anything else. -/
def AddressOnly (u : CStr) : Prop :=
  u.bytes.count 0x2e = 3 ∧ scIsIpAddress u = true ∧
    ((∃ ch ∈ u.bytes, ch ∈ validstr.bytes) ∨ scIsAllnumber u = true)

instance (u : CStr) : Decidable (AddressOnly u) := inferInstanceAs (Decidable (_ ∧ _ ∧ (_ ∨ _)))

/-- **With a scheme** a text is judged as without it, if it is not accepted as an address only. -/
theorem judgeUrl_append {s : CStr} (hs : s ∈ schemes) (u : CStr) :
    judgeUrl (s.append u) u = judgeUrl u u ↔ ¬AddressOnly u := by
  have hprefixed : ¬(u.bytes.count 0x2e = 3 ∧ scIsIpAddress (s.append u) = true) := fun h =>
    scIsIpAddress_append hs u h.2
  rw [judgeUrl, judgeUrl, if_neg hprefixed]
  by_cases hdots : u.bytes.count 0x2e = 0
  · rw [if_pos hdots, if_pos hdots]
    exact iff_of_true rfl fun h => absurd (hdots.symm.trans h.1) (by decide)
  · rw [if_neg hdots, if_neg hdots]
    by_cases haddr : u.bytes.count 0x2e = 3 ∧ scIsIpAddress u = true
    · rw [if_pos haddr]
      have hother : (if u.bytes.any (fun ch => ch ∈ validstr.bytes) then false
          else !scIsAllnumber u) = true ↔
          ¬((∃ ch ∈ u.bytes, ch ∈ validstr.bytes) ∨ scIsAllnumber u = true) := by
        simp
      rw [hother, AddressOnly, ← and_assoc]
      exact ⟨fun h h' => h h'.2, fun h h' => h ⟨haddr, h'⟩⟩
    · rw [if_neg haddr]
      exact iff_of_true rfl fun h => haddr ⟨h.1, h.2.1⟩

/-! ### Addresses -/

/-- Digits and dots. -/
def DigitsAndDots (u : CStr) : Prop := ∀ b ∈ u.bytes, isDigit b = true ∨ b = 0x2e

/-- A dotted quad has three dots. -/
theorem count_dots {u : CStr} {m : InAddr} (h : DottedQuad u m) : u.bytes.count 0x2e = 3 := by
  obtain ⟨a, b, c, d, ha, hb, hc, hd, hu⟩ := h
  have hnone : ∀ {ds : List Byte} {o : Byte}, OctetText ds o → ds.count 0x2e = 0 := by
    intro ds o hds
    refine List.count_eq_zero.mpr fun hmem => ?_
    exact absurd (hds.2.1 _ hmem) (by decide)
  rw [hu]
  simp [hnone ha, hnone hb, hnone hc, hnone hd]

/-- Digits and dots are no scheme, and no text the validator accepts. -/
theorem not_hasScheme_digits {u : CStr} (h : DigitsAndDots u) : ¬HasScheme u := by
  have hletter : ∀ b : Byte, Cli.tolower b = 0x68 → ¬(isDigit b = true ∨ b = 0x2e) :=
    forall_byte (by decide)
  rintro ⟨s, hs, hbegins⟩
  have hhead : s.bytes.head? = some 0x68 := by
    rcases List.mem_pair.mp hs with rfl | rfl
    · rfl
    · rfl
  have htake := of_decide_eq_true hbegins
  cases hu : u.bytes with
  | nil =>
      rw [hu, List.take_nil, List.map_nil] at htake
      rw [← htake] at hhead
      cases hhead
  | cons b l =>
      have hlen : s.length ≠ 0 := by
        rcases List.mem_pair.mp hs with rfl | rfl <;> decide
      obtain ⟨n, hn⟩ := Nat.exists_eq_succ_of_ne_zero hlen
      rw [hu, hn, List.take_succ_cons, List.map_cons] at htake
      rw [← htake] at hhead
      exact hletter b (Option.some.inj hhead) (h b (hu ▸ List.mem_cons_self))

theorem scIsAllnumber_digits {u : CStr} (h : DigitsAndDots u) : scIsAllnumber u = true := by
  have hnumStr : ∀ b : Byte, isDigit b = true ∨ b = 0x2e → b ∈ (CStr.text "0123456789.").bytes :=
    forall_byte (by decide)
  exact List.all_eq_true.mpr fun b hb => decide_eq_true (hnumStr b (h b hb))

/-- **Digits and dots** are accepted where they are an address in the range. -/
theorem judgeUrl_digits {u : CStr} (h : DigitsAndDots u) :
    judgeUrl u (behindScheme u) = true ↔ ∃ m, DottedQuad u m ∧ InRange m := by
  have hspace : ∀ b ∈ u.bytes, isSpace b = false := by
    have hno : ∀ b : Byte, isDigit b = true ∨ b = 0x2e → isSpace b = false :=
      forall_byte (by decide)
    exact fun b hb => hno b (h b hb)
  rw [behindScheme_self (not_hasScheme_digits h), judgeUrl]
  constructor
  · intro hjudge
    have haddr : u.bytes.count 0x2e = 3 ∧ scIsIpAddress u = true := by
      by_contra hno
      rw [if_neg hno, scIsAllnumber_digits h] at hjudge
      revert hjudge
      split
      · exact Bool.false_ne_true
      · split <;> exact Bool.false_ne_true
    have hrange := scIsIpAddress_iff.mp haddr.2
    cases haton : inetAton u with
    | none =>
        rw [inetAddr, haton] at hrange
        exact absurd hrange not_inRange_none
    | some m =>
        rw [inetAddr, haton] at hrange
        exact ⟨m, (dottedQuad_iff hspace).mpr haton, hrange⟩
  · rintro ⟨m, hquad, hrange⟩
    have hcount := count_dots hquad
    have haddr : scIsIpAddress u = true := by
      rw [scIsIpAddress_iff, inetAddr, inetAton_dottedQuad hquad]
      exact hrange
    rw [if_neg (by rw [hcount]; decide), if_pos ⟨hcount, haddr⟩]

/-! ### The law -/

/-- What is to hold of a text. -/
structure UrlLaw (u : CStr) (c : Config) : Prop where
  inBounds : ∃ valid, (scValidUrl u c).1 = .ok valid
  scheme : ¬HasScheme u → ∀ s ∈ schemes, (scValidUrl (s.append u) c).1 = (scValidUrl u c).1
  address : DigitsAndDots u →
    ((scValidUrl u c).1 = .ok true ↔ ∃ m, DottedQuad u m ∧ InRange m)

/-- **The law holds** just of the texts that fit, with a scheme too if they have none, and are not
accepted as an address only. -/
theorem urlLaw_iff (u : CStr) (c : Config) :
    UrlLaw u c ↔ u.length ≤ 128 ∧ (¬HasScheme u → u.length ≤ 120 ∧ ¬AddressOnly u) := by
  constructor
  · rintro ⟨⟨valid, hvalid⟩, hscheme, -⟩
    have hlen : u.length < 129 := by
      rw [scValidUrl_apply] at hvalid
      by_contra hlong
      rw [if_neg hlong] at hvalid
      cases hvalid
    refine ⟨Nat.le_of_lt_succ hlen, fun hno => ?_⟩
    have hsame :
        ∀ s ∈ schemes, (s.append u).length < 129 ∧ judgeUrl (s.append u) u = judgeUrl u u := by
      intro s hs
      have h := hscheme hno s hs
      rw [scValidUrl_apply, scValidUrl_apply, if_pos hlen, behindScheme_append hs,
        behindScheme_self hno] at h
      split at h
      · next hfit => exact ⟨hfit, Except.ok.inj h⟩
      · cases h
    obtain ⟨hfit, hjudge⟩ := hsame (.text "https://") (by simp [schemes])
    have height : (CStr.text "https://").length = 8 := by decide
    rw [CStr.length_append, height] at hfit
    exact ⟨by omega, (judgeUrl_append (by simp [schemes]) u).mp hjudge⟩
  · rintro ⟨hlen, hplain⟩
    have happly : ∀ {v : CStr}, v.length ≤ 128 →
        (scValidUrl v c).1 = .ok (judgeUrl v (behindScheme v)) := fun hv => by
      rw [scValidUrl_apply, if_pos (Nat.lt_succ_of_le hv)]
    refine ⟨⟨_, happly hlen⟩, fun hno s hs => ?_, fun hdigits => ?_⟩
    · obtain ⟨hfit, hother⟩ := hplain hno
      have hshort : s.length ≤ 8 := by
        rcases List.mem_pair.mp hs with rfl | rfl <;> decide
      have hlong : (s.append u).length ≤ 128 := by
        rw [CStr.length_append]
        omega
      rw [happly hlong, happly hlen, behindScheme_append hs, behindScheme_self hno,
        (judgeUrl_append hs u).mpr hother]
    · rw [happly hlen, ← judgeUrl_digits hdigits]
      exact Except.ok.injEq .. |>.to_iff

/-- **An address with a scheme** is refused. -/
theorem address_not_urlLaw : ¬UrlLaw (.text "192.168.1.1") ⟨fun _ => .empty, [], false⟩ := by
  rintro ⟨-, hscheme, -⟩
  have hsame := hscheme (by decide) (.text "http://") (by simp [schemes])
  rw [scValidUrl_apply, scValidUrl_apply, if_pos (by decide), if_pos (by decide)] at hsame
  exact absurd (Except.ok.inj hsame) (by decide)

end LinksysCli
