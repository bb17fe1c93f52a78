import Wap4410n.Nvram.Set

/-!
# Nvram — reads through the defaults

`nvram_get` and `nvram_safe_get` look a name up in the shadow and then in the default file, and a
value found there is set in the shadow.  What they return is the *effective* value of the name:
its value in the shadow if the shadow has it, else its default.  A read writes the shadow, yet the
effective values are an invariant of it, because `nvram_set` is one update of the store and the
update writes the value the name already had.

* `nvramRead_overlay`: one read returns the effective value and keeps every effective value.
* `reads_overlay`: so does any sequence of reads, in any order, and a second read of a name
  changes no file.
* `calls_overlay`: reads interleaved with sets: a set changes the effective value of its name only.
-/

namespace Wap4410n.Nvram

open CLib CLib.Assoc

/-- The effective value of a name. -/
def effective (st dflt : Store) (n : Name) : Option CStr := (st.get n).or (dflt.get n)

/-- The shadow and the default file are well formed: each is missing, or holds a store and its
closing NUL. -/
structure Files.Hold (fs : Files) (st dflt : Store) : Prop where
  shadow : Represents fs.shadow st
  shadow_ne : fs.shadow ≠ some []
  default : Represents fs.default dflt
  default_ne : fs.default ≠ some []

/-- A read of the configuration. -/
inductive Read where
  /-- `nvram_get` -/
  | get
  /-- `nvram_safe_get` -/
  | safeGet
deriving DecidableEq, Repr

namespace Read

/-- The call. -/
def call (r : Read) (sys : Sys) (fs : Files) (name : Ptr Obj) :
    Run Obj (Option (List Byte) × Files) :=
  match r with
  | .get => nvramGet sys fs name
  | .safeGet => nvramSafeGet sys fs name

/-- What it returns for a value: the string, NULL for none or, from `nvram_safe_get`, `""`. -/
def returns (r : Read) (v : Option CStr) : Option (List Byte) :=
  match r, v with
  | _, some v => some v.mem
  | .get, none => none
  | .safeGet, none => some CStr.empty.mem

end Read

/-! ### One read -/

theorem effective_set_default {st dflt : Store} {n : Name} {v : CStr} (hn : st.get n = none)
    (hv : dflt.get n = some v) : effective (st.set n v) dflt = effective st dflt := by
  funext j
  rw [effective, effective, Store.get_set]
  split
  · rename_i h
    subst h
    rw [hn, hv]
    rfl
  · rfl

theorem effective_set (st dflt : Store) (n : Name) (v : CStr) :
    effective (st.set n v) dflt = Function.update (effective st dflt) n (some v) := by
  funext j
  rw [effective, Store.get_set]
  by_cases h : j = n
  · subst h
    simp
  · rw [if_neg h, Function.update_of_ne h]
    rfl

section Read

variable {sys : Sys} {fs : Files} {st dflt : Store} {p : Ptr Obj} {n : Name}

/-- A set keeps the files well formed. -/
theorem Files.Hold.set (hs : sys.Serves) (h : fs.Hold st dflt) (n : Name) (v : CStr) :
    ∃ r, nvramSet sys fs.shadow n.str v = .ok r ∧
      Files.Hold { fs with shadow := r.shadow } (st.set n v) dflt := by
  obtain ⟨r, hr, -, hsh⟩ := nvramSet_represents hs h.shadow n v
  refine ⟨r, hr, ?_, ?_, h.default, h.default_ne⟩
  · exact hsh ▸ Represents.file _
  · exact fun e => encode_ne_nil _ (Option.some.inj (hsh.symm.trans e))

/-- A read of a name the shadow has, or neither file has, changes no file. -/
theorem nvramRead_kept (hs : sys.Serves) (h : fs.Hold st dflt) (hp : p.Holds n.str) (r : Read)
    (hn : st.get n ≠ none ∨ dflt.get n = none) :
    r.call sys fs p = .ok (r.returns (effective st dflt n), fs) := by
  have hshadow := nvramGetFun_represents hs h.shadow h.shadow_ne hp .shadow
  have hdefault := nvramGetFun_represents hs h.default h.default_ne hp .default
  cases hst : st.get n with
  | some v =>
      rw [hst] at hshadow
      cases r <;> simp [Read.call, Read.returns, nvramGet, nvramSafeGet, effective, hshadow, hst]
  | none =>
      have hd : dflt.get n = none := hn.resolve_left fun hne => hne hst
      rw [hst] at hshadow
      rw [hd] at hdefault
      have hm := hs.malloc 1 Nat.one_pos
      cases r <;>
        simp [Read.call, Read.returns, nvramGet, nvramSafeGet, effective, hshadow, hdefault, hst,
          hd, hm, CStr.mem, ascii, CStr.lit]

/-- A read of a name only the default file has sets the default. -/
theorem nvramRead_default (hs : sys.Serves) (h : fs.Hold st dflt) (hp : p.Holds n.str) (r : Read)
    (hn : st.get n = none) {v : CStr} (hv : dflt.get n = some v) :
    ∃ fs', r.call sys fs p = .ok (some v.mem, fs') ∧ fs'.Hold (st.set n v) dflt := by
  obtain ⟨run, hrun, hhold⟩ := h.set hs n v
  have hshadow := nvramGetFun_represents hs h.shadow h.shadow_ne hp .shadow
  have hdefault := nvramGetFun_represents hs h.default h.default_ne hp .default
  rw [hn] at hshadow
  rw [hv] at hdefault
  refine ⟨_, ?_, hhold⟩
  cases r <;>
    simp [Read.call, nvramGet, nvramSafeGet, hshadow, hdefault, hp.string, hrun]

/-- **One read returns the effective value and keeps every effective value.** -/
theorem nvramRead_overlay (hs : sys.Serves) (h : fs.Hold st dflt) (hp : p.Holds n.str) (r : Read) :
    ∃ fs' st', r.call sys fs p = .ok (r.returns (effective st dflt n), fs') ∧
      fs'.Hold st' dflt ∧ effective st' dflt = effective st dflt ∧
      (st'.get n ≠ none ∨ dflt.get n = none) := by
  by_cases hn : st.get n ≠ none ∨ dflt.get n = none
  · exact ⟨fs, st, nvramRead_kept hs h hp r hn, h, rfl, hn⟩
  · obtain ⟨hst, hd⟩ := not_or.mp hn
    obtain ⟨v, hv⟩ := Option.ne_none_iff_exists'.mp hd
    have hst := not_not.mp hst
    obtain ⟨fs', hcall, hhold⟩ := nvramRead_default hs h hp r hst hv
    have hret : r.returns (effective st dflt n) = some v.mem := by
      rw [effective, hst, hv]
      cases r <;> rfl
    refine ⟨fs', st.set n v, by rw [hcall, hret], hhold, effective_set_default hst hv, .inl ?_⟩
    simp [Store.get_set]

end Read

/-! ### Sequences of calls -/

/-- A pointer to the string of a name. -/
structure NamePtr where
  ptr : Ptr Obj
  name : Name
  holds : ptr.Holds name.str

/-- A call on the configuration. -/
inductive Call where
  | read (r : Read) (p : NamePtr)
  /-- `nvram_set` -/
  | set (n : Name) (v : CStr)

/-- Calls, one after the other: what the reads return, and the files left. -/
def calls (sys : Sys) : Files → List Call → Run Obj (List (Option (List Byte)) × Files)
  | fs, [] => .ok ([], fs)
  | fs, .read r p :: cs => do
    let (a, fs) ← r.call sys fs p.ptr
    let (as, fs) ← calls sys fs cs
    return (a :: as, fs)
  | fs, .set n v :: cs => do
    let run ← nvramSet sys fs.shadow n.str v
    calls sys { fs with shadow := run.shadow } cs

/-- What the reads return where every name has its effective value, and the effective values
after the calls. -/
def overlay (e : Name → Option CStr) : List Call → List (Option (List Byte)) × (Name → Option CStr)
  | [] => ([], e)
  | .read r p :: cs => (r.returns (e p.name) :: (overlay e cs).1, (overlay e cs).2)
  | .set n v :: cs => overlay (Function.update e n (some v)) cs

/-- A sequence of reads. -/
def readAll (rs : List (Read × NamePtr)) : List Call := rs.map fun r => .read r.1 r.2

@[simp] theorem readAll_nil : readAll [] = [] := rfl

@[simp] theorem readAll_cons (r : Read × NamePtr) (rs : List (Read × NamePtr)) :
    readAll (r :: rs) = .read r.1 r.2 :: readAll rs := rfl

/-- Reads return the effective values and keep them. -/
theorem overlay_readAll (e : Name → Option CStr) (rs : List (Read × NamePtr)) :
    overlay e (readAll rs) = (rs.map fun r => r.1.returns (e r.2.name), e) := by
  induction rs with
  | nil => rfl
  | cons r rs ih => rw [readAll_cons, overlay, ih, List.map_cons]

section Run

variable {sys : Sys} {fs : Files} {st dflt : Store}

/-- **Reads interleaved with sets** are reads and updates of the effective values. -/
theorem calls_overlay (hs : sys.Serves) (cs : List Call) :
    ∀ {fs : Files} {st : Store}, fs.Hold st dflt →
      ∃ fs' st', calls sys fs cs = .ok ((overlay (effective st dflt) cs).1, fs') ∧
        fs'.Hold st' dflt ∧ effective st' dflt = (overlay (effective st dflt) cs).2 := by
  induction cs with
  | nil => exact fun {fs st} h => ⟨fs, st, rfl, h, rfl⟩
  | cons c cs ih =>
      intro fs st h
      cases c with
      | read r p =>
          obtain ⟨fs₁, st₁, hcall, h₁, heff, -⟩ := nvramRead_overlay hs h p.holds r
          obtain ⟨fs', st', hcs, h', heff'⟩ := ih h₁
          rw [heff] at hcs heff'
          refine ⟨fs', st', ?_, h', heff'⟩
          simp only [calls, hcall, Run.ok_bind, hcs, overlay, Run.pure_eq]
      | set n v =>
          obtain ⟨run, hrun, h₁⟩ := h.set hs n v
          obtain ⟨fs', st', hcs, h', heff'⟩ := ih h₁
          rw [effective_set] at hcs heff'
          exact ⟨fs', st', by simp only [calls, hrun, Run.ok_bind, hcs, overlay], h', heff'⟩

/-- **Any sequence of reads, in any order, returns the effective values and keeps them**, so what
a read returns depends on its name alone; and after a read of a name a second one returns the same
and changes no file. -/
theorem reads_overlay (hs : sys.Serves) (h : fs.Hold st dflt) :
    (∀ rs : List (Read × NamePtr), ∃ fs' st',
      calls sys fs (readAll rs) =
        .ok (rs.map fun r => r.1.returns (effective st dflt r.2.name), fs') ∧
      fs'.Hold st' dflt ∧ effective st' dflt = effective st dflt) ∧
    (∀ r r' : Read, ∀ p : NamePtr, ∃ fs',
      calls sys fs (readAll [(r, p)]) = .ok ([r.returns (effective st dflt p.name)], fs') ∧
      calls sys fs (readAll [(r, p), (r', p)]) =
        .ok
        ([r.returns (effective st dflt p.name), r'.returns (effective st dflt p.name)], fs')) := by
  refine ⟨fun rs => ?_, fun r r' p => ?_⟩
  · obtain ⟨fs', st', hcs, h', heff⟩ := calls_overlay hs (readAll rs) h
    rw [overlay_readAll] at hcs heff
    exact ⟨fs', st', hcs, h', heff⟩
  · obtain ⟨fs', st', hcall, h', heff, hkept⟩ := nvramRead_overlay hs h p.holds r
    have hagain := nvramRead_kept hs h' p.holds r' hkept
    rw [heff] at hagain
    refine ⟨fs', ?_, ?_⟩ <;>
      simp [calls, hcall, hagain]

/-- A default file with `a=1` under no shadow: `a` reads `1` twice, and the shadow then has it; `b`
reads `""`. -/
theorem reads_overlay_default :
    ∃ fs', calls .ideal ⟨.filled nvramSize 0xff, none, some (encode [(.lit ['a'], .lit ['1'])])⟩
        (readAll [(.get, ⟨.ofString .payload (.lit ['a']), .lit ['a'], Ptr.holds_ofString _ _⟩),
          (.safeGet, ⟨.ofString .payload (.lit ['b']), .lit ['b'], Ptr.holds_ofString _ _⟩),
          (.safeGet, ⟨.ofString .payload (.lit ['a']), .lit ['a'], Ptr.holds_ofString _ _⟩)]) =
      .ok ([some (CStr.lit ['1']).mem, some CStr.empty.mem, some (CStr.lit ['1']).mem], fs') := by
  have hold : Files.Hold ⟨.filled nvramSize 0xff, none, some (encode [(.lit ['a'], .lit ['1'])])⟩
      .empty ⟨[(.lit ['a'], .lit ['1'])], by decide⟩ :=
    ⟨.missing, nofun, .file ⟨[(.lit ['a'], .lit ['1'])], by decide⟩,
      fun e => encode_ne_nil _ (Option.some.inj e)⟩
  obtain ⟨fs', -, hcs, -⟩ := (reads_overlay Sys.serves_ideal hold).1
    [(.get, ⟨.ofString .payload (.lit ['a']), .lit ['a'], Ptr.holds_ofString _ _⟩),
      (.safeGet, ⟨.ofString .payload (.lit ['b']), .lit ['b'], Ptr.holds_ofString _ _⟩),
      (.safeGet, ⟨.ofString .payload (.lit ['a']), .lit ['a'], Ptr.holds_ofString _ _⟩)]
  exact ⟨fs', hcs⟩

end Run

end Wap4410n.Nvram
