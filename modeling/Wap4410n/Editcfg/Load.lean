import Wap4410n.Editcfg.Globals

/-!
# Editcfg — loads

A part of `outputCFGGet` fills variables from the settings.  It carries the variables it writes and
leaves the others as they are (`Load.frame`).  Loads are put together as the statements of the
source are (`Load.all`, `Load.ite`, `Load.ifSet`), and most of them store what one getter returns
into one variable (`loadByte`, `loadWord`, `loadText`, `loadAddr`).
-/

namespace Wap4410n.Editcfg

open CLib Apcfg

/-! ### Loads -/

/-- A part of `outputCFGGet`, with the variables it writes: it leaves the others as they are. -/
structure Load where
  run : Globals → Cfg Globals
  writes : List Var
  frame : ∀ {g c g'}, (run g c).1 = .ok g' → ∀ x ∉ writes, g.Same g' x

namespace Load

/-- Nothing. -/
def skip : Load where
  run g := pure g
  writes := []
  frame h _ _ := by
    cases h
    exact .refl

/-- One after the other. -/
def andThen (l l' : Load) : Load where
  run g := l.run g >>= l'.run
  writes := l.writes ++ l'.writes
  frame {g c g'} h x hx := by
    rw [List.mem_append, not_or] at hx
    cases hl : (l.run g c).1 with
    | ok g₁ =>
        rw [Act.bind_ok (Prod.ext hl rfl)] at h
        exact (l.frame hl x hx.1).trans (l'.frame h x hx.2)
    | error e =>
        rw [Act.bind_error (Prod.ext hl rfl)] at h
        cases h

/-- Both parts have returned. -/
theorem andThen_ok (l l' : Load) {g g' : Globals} {c : Config}
    (h : ((l.andThen l').run g c).1 = .ok g') :
    ∃ g₁, (l.run g c).1 = .ok g₁ ∧ (l'.run g₁ (l.run g c).2).1 = .ok g' := by
  change ((l.run g >>= l'.run) c).1 = .ok g' at h
  cases hl : (l.run g c).1 with
  | ok g₁ =>
      rw [Act.bind_ok (Prod.ext hl rfl)] at h
      exact ⟨g₁, rfl, h⟩
  | error e =>
      rw [Act.bind_error (Prod.ext hl rfl)] at h
      cases h

/-- A sequence. -/
def all : List Load → Load
  | [] => skip
  | l :: ls => l.andThen (all ls)

/-- `if(p) … else …`, on a variable that is loaded -/
def ite (p : Globals → Bool) (l l' : Load) : Load where
  run g := if p g then l.run g else l'.run g
  writes := l.writes ++ l'.writes
  frame {g c g'} h x hx := by
    rw [List.mem_append, not_or] at hx
    rw [Act.ite_apply] at h
    split at h
    · exact l.frame h x hx.1
    · exact l'.frame h x hx.2

/-- `if(p) { … }` -/
def «if» (p : Globals → Bool) (ls : List Load) : Load := ite p (all ls) skip

/-- `if(get()) { … }` -/
def ifSet (get : Cfg Int) (ls : List Load) : Load where
  run g := do if (← get) ≠ 0 then (all ls).run g else pure g
  writes := (all ls).writes
  frame {g c g'} h x hx := by
    cases hget : (get c).1 with
    | ok i =>
        rw [Act.bind_ok (Prod.ext hget rfl), Act.ite_apply] at h
        split at h
        · exact (all ls).frame h x hx
        · cases h
          exact .refl
    | error e =>
        rw [Act.bind_error (Prod.ext hget rfl)] at h
        cases h

/-- `f(get());` -/
def put {A : Type} (get : Cfg A) (f : A → Globals → Run Buf Globals) (writes : List Var)
    (hf : ∀ {a g g'}, f a g = .ok g' → ∀ x ∉ writes, g.Same g' x) : Load where
  run g := do Act.lift (f (← get) g)
  writes
  frame {g c g'} h x hx := by
    cases hget : (get c).1 with
    | ok a =>
        rw [Act.bind_ok (Prod.ext hget rfl)] at h
        exact hf h x hx
    | error e =>
        rw [Act.bind_error (Prod.ext hget rfl)] at h
        cases h

end Load

/-- `v = get();` -/
def loadByte (v : ByteVar) (get : Cfg Int) : Load :=
  .put get (fun i g => .ok (g.setByte v (.ofInt i))) [.byte v] fun h x hx => by
    cases h
    exact Globals.same_setByte v _ (by simpa using hx)

/-- `v = get();` -/
def loadWord (v : WordVar) (get : Cfg Int) : Load :=
  .put get (fun i g => .ok (g.setWord v (.ofInt i))) [.word v] fun h x hx => by
    cases h
    exact Globals.same_setWord v _ (by simpa using hx)

theorem same_copy {v : TextVar} {p : CStr} {g g' : Globals} (h : copy v p g = .ok g') {x : Var}
    (hx : x ≠ .text v) : g.Same g' x := by
  obtain ⟨hp, rfl⟩ := copy_ok h
  exact Globals.same_setText v _ hx

/-- `strcpy(v, get());` -/
def loadText (v : TextVar) (get : Cfg CStr) : Load :=
  .put get (copy v) [.text v] fun h x hx => same_copy h (by simpa using hx)

/-- `ipAddress=get(); memcpy(v, &ipAddress, 4);` -/
def loadAddr (v : AddrVar) (get : Cfg InAddr) : Load :=
  .put get (fun a g => .ok (g.setAddr v a)) [.addr v] fun h x hx => by
    cases h
    exact Globals.same_setAddr v _ (by simpa using hx)

/-- `v = m;` -/
def loadMac (v : MacVar) (m : MacAddr) : Load :=
  .put (pure m) (fun m g => .ok (g.setMac v m)) [.mac v] fun h x hx => by
    cases h
    exact Globals.same_setMac v _ (by simpa using hx)

end Wap4410n.Editcfg
