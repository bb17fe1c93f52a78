import Wap4410n.Editcfg.Export

/-!
# Editcfg — what a masked text shows

With secrets not shown, `OutputPass` overwrites the variable of a secret with stars before it writes
it.  So the text depends on the secrets by their lengths only.  It is the text of the configuration
whose secrets are stars (`Config.hide`): a getter of another setting returns the same in both
(`Blind`), a load leaves the variables alike but for the secrets (`Load.Hides`), and what is written
of the variables is written of the hidden ones too.

* `outputCFGGet_hides`, `writeText_hides`: the two halves of `OutputCFG`.
* `outputCFG_eq_of_apart`: the texts of two configurations that differ in their secrets only.
-/

namespace Wap4410n.Editcfg

open CLib Apcfg

/-! ### Secrets -/

/-- The settings that are secrets: the login password, the secrets of the RADIUS servers, the WEP
keys and the pre-shared keys. -/
def Secret : Setting → Bool
  | .sys .loginPassword => true
  | .vap _ _ .radiusKey | .vap _ _ .backupRadiusKey | .vap _ _ (.key _)
  | .vap _ _ .passphrase => true
  | _ => false

/-- Their variables. -/
def TextVar.Secret : TextVar → Bool
  | loginPasswd | authSSecret1 | authSSecret2 | key _ _ | preShared _ => true
  | _ => false

/-- The configuration with stars for its secrets. -/
def hide (c : Config) : Config where
  get k := if Secret k then stars (c.get k) else c.get k
  flags := []
  closed := false

namespace Globals

/-- The variables with stars for the secrets. -/
def hide (g : Globals) : Globals :=
  { g with held := fun v => if v.Secret then (g.held v).star else g.held v }

variable (g : Globals)

theorem hide_setText {v : TextVar} (hv : v.Secret = false) (x : Held v.size) :
    (g.setText v x).hide = g.hide.setText v x := by
  have hheld : (g.setText v x).hide.held = (g.hide.setText v x).held := by
    funext w
    by_cases hw : w = v
    · subst hw
      simp [hide, setText, hv]
    · simp [hide, setText, hw]
  exact Globals.ext rfl rfl hheld rfl rfl rfl

theorem hide_setText_secret {v : TextVar} (hv : v.Secret = true) (x : Held v.size) :
    (g.setText v x).hide = g.hide.setText v x.star := by
  have hheld : (g.setText v x).hide.held = (g.hide.setText v x.star).held := by
    funext w
    by_cases hw : w = v
    · subst hw
      simp [hide, setText, hv]
    · simp [hide, setText, hw]
  exact Globals.ext rfl rfl hheld rfl rfl rfl

end Globals

/-! ### Getters -/

/-- The call reads no secret. -/
def Blind {A : Type} (m : Cfg A) : Prop := Act.Mirrors hide id m m

section Blind

variable {A B : Type} {k : Setting}

theorem Blind.pure (a : A) : Blind (pure a : Cfg A) := Act.Mirrors.pure a

theorem Blind.bind {m : Cfg A} {f : A → Cfg B} (h : Blind m) (hf : ∀ a, Blind (f a)) :
    Blind (m >>= f) := Act.Mirrors.bind h hf

theorem Blind.map {m : Cfg A} (h : Blind m) (f : A → B) : Blind (do return f (← m)) :=
  h.bind fun a => .pure (f a)

theorem Blind.ite {p : Prop} [Decidable p] {m m' : Cfg A} (h : Blind m) (h' : Blind m') :
    Blind (if p then m else m') := Act.Mirrors.ite h h'

theorem Blind.lift (r : Run Buf A) : Blind (Act.lift r) := by
  refine Act.Mirrors.lift ?_
  cases r <;> rfl

theorem blind_nvramSafeGet (hk : Secret k = false) : Blind (nvramSafeGet k) := by
  intro c
  refine ⟨rfl, ?_⟩
  simp [nvramSafeGet, hide, hk, Except.map]

theorem blind_store (buf : Buf) (size : Nat) (p : CStr) : Blind (store buf size p) :=
  .ite (.pure p) (Act.Mirrors.fault _)

theorem blind_getText (size : Nat) (hk : Secret k = false) : Blind (getText size k) :=
  (blind_nvramSafeGet hk).bind fun p => blind_store .value size p

theorem blind_getNumber (size : Nat) (hk : Secret k = false) : Blind (getNumber size k) :=
  (blind_getText size hk).map atoi

theorem blind_getFlag (hk : Secret k = false) : Blind (getFlag k) :=
  (blind_nvramSafeGet hk).map _

theorem blind_getEnum (t : Texts) (hk : Secret k = false) : Blind (getEnum t k) :=
  (blind_nvramSafeGet hk).map t.decode

theorem blind_getAtoi (hk : Secret k = false) : Blind (getAtoi k) :=
  (blind_nvramSafeGet hk).map atoi

theorem blind_getAddr (hk : Secret k = false) : Blind (getAddr k) :=
  (blind_nvramSafeGet hk).map inetAddr

/-- The getter of a secret returns as many stars. -/
theorem mirrors_getText (size : Nat) (hk : Secret k = true) :
    Act.Mirrors hide stars (getText size k) (getText size k) := by
  intro c
  rw [getText_eq, getText_eq]
  have hget : (hide c).get k = stars (c.get k) := by simp [hide, hk]
  rw [hget, length_stars]
  split
  · exact ⟨rfl, rfl⟩
  · exact ⟨rfl, rfl⟩

end Blind

/-! ### Loads -/

/-- Under hidden secrets the load leaves hidden variables. -/
def Load.Hides (l : Load) : Prop := ∀ g, Act.Mirrors hide Globals.hide (l.run g) (l.run g.hide)

namespace Load

variable {l l' : Load} {ls : List Load}

theorem hides_skip : skip.Hides := fun g => .pure g

theorem Hides.andThen (h : l.Hides) (h' : l'.Hides) : (l.andThen l').Hides :=
  fun g => (h g).bind h'

theorem hides_all (h : ∀ l ∈ ls, l.Hides) : (all ls).Hides := by
  induction ls with
  | nil => exact hides_skip
  | cons l ls ih =>
      exact (h l List.mem_cons_self).andThen (ih fun l' hl' => h l' (List.mem_cons_of_mem l hl'))

theorem Hides.ite {p : Globals → Bool} (hp : ∀ g : Globals, p g.hide = p g) (h : l.Hides)
    (h' : l'.Hides) : (Load.ite p l l').Hides := by
  intro g
  change Act.Mirrors hide Globals.hide (if p g then l.run g else l'.run g)
    (if p g.hide then l.run g.hide else l'.run g.hide)
  rw [hp]
  exact (h g).ite (h' g)

theorem hides_if {p : Globals → Bool} (hp : ∀ g : Globals, p g.hide = p g)
    (h : ∀ l ∈ ls, l.Hides) : (Load.if p ls).Hides := (hides_all h).ite hp hides_skip

theorem hides_ifSet {get : Cfg Int} (hget : Blind get) (h : ∀ l ∈ ls, l.Hides) :
    (ifSet get ls).Hides :=
  fun g => Act.Mirrors.bind hget fun _ => (hides_all h g).ite (.pure g)

/-- A load that stores what a getter returns. -/
theorem hides_put {A : Type} {get : Cfg A} (f : A → Globals → Run Buf Globals)
    (hl : ∀ g, l.run g = do Act.lift (f (← get) g)) {view : A → A}
    (hget : Act.Mirrors hide view get get)
    (h : ∀ a g, f (view a) g.hide = (f a g).map Globals.hide) : l.Hides := by
  intro g
  rw [hl, hl]
  exact hget.bind fun a => .lift (h a g)

end Load

section Loads

theorem hides_loadByte {v : ByteVar} {get : Cfg Int} (h : Blind get) : (loadByte v get).Hides :=
  Load.hides_put (fun i g => .ok (g.setByte v (.ofInt i))) (fun _ => rfl) h fun _ _ => rfl

theorem hides_loadWord {v : WordVar} {get : Cfg Int} (h : Blind get) : (loadWord v get).Hides :=
  Load.hides_put (fun i g => .ok (g.setWord v (.ofInt i))) (fun _ => rfl) h fun _ _ => rfl

theorem hides_loadAddr {v : AddrVar} {get : Cfg InAddr} (h : Blind get) :
    (loadAddr v get).Hides :=
  Load.hides_put (fun a g => .ok (g.setAddr v a)) (fun _ => rfl) h fun _ _ => rfl

theorem hides_loadMac (v : MacVar) (m : MacAddr) : (loadMac v m).Hides :=
  Load.hides_put (fun m g => .ok (g.setMac v m)) (fun _ => rfl) (Blind.pure m) fun _ _ => rfl

theorem hides_loadIp {v : AddrVar} {get : Cfg CStr} (h : Blind get) : (loadIp v get).Hides :=
  hides_loadAddr (h.bind fun _ => .lift _)

theorem copy_hide {v : TextVar} (hv : v.Secret = false) (p : CStr) (g : Globals) :
    copy v p g.hide = (copy v p g).map Globals.hide := by
  unfold copy
  split
  · exact congrArg Except.ok (g.hide_setText hv _).symm
  · rfl

theorem hides_loadText {v : TextVar} (hv : v.Secret = false) {get : Cfg CStr} (h : Blind get) :
    (loadText v get).Hides := Load.hides_put (copy v) (fun _ => rfl) h (copy_hide hv)

theorem copy_stars {v : TextVar} (hv : v.Secret = true) (p : CStr) (g : Globals) :
    copy v (stars p) g.hide = (copy v p g).map Globals.hide := by
  by_cases h : p.length < v.size
  · rw [copy_fits h, copy_fits (by rwa [length_stars])]
    exact congrArg Except.ok (g.hide_setText_secret hv ⟨p, h⟩).symm
  · rw [copy, copy, dif_neg h, dif_neg (by rwa [length_stars])]
    rfl

/-- The variable of a secret. -/
theorem hides_loadSecret {v : TextVar} (hv : v.Secret = true) {k : Setting} (hk : Secret k = true)
    (size : Nat) : (loadText v (getText size k)).Hides :=
  Load.hides_put (copy v) (fun _ => rfl) (mirrors_getText size hk) (copy_stars hv)

theorem setRemote_hide (dev : Device) (v : MacVar) (remotemac : CStr) (g : Globals) :
    setRemote dev v remotemac g.hide = (setRemote dev v remotemac g).map Globals.hide := by
  unfold setRemote
  split
  · rfl
  · cases scHexs2Chars (dev.unset 0) remotemac <;> rfl

theorem hides_loadRemote {dev : Device} {v : MacVar} {get : Cfg CStr} (h : Blind get) :
    (loadRemote dev v get).Hides :=
  Load.hides_put (setRemote dev v) (fun _ => rfl) h (setRemote_hide dev v)

theorem setAclMacs_hide (dev : Device) (vap : Nat) : ∀ (count : Nat) (es : List CfgAclEntry)
    (g : Globals), setAclMacs dev vap count es g.hide =
      (setAclMacs dev vap count es g).map Globals.hide
  | _, [], _ => rfl
  | count, e :: es, g => by
      unfold setAclMacs
      split
      · cases scHexs2Chars (dev.unset 0) e.mac with
        | ok m => exact setAclMacs_hide dev vap (count + 1) es (g.setMac (.aclMac vap count) m)
        | error e => rfl
      · rfl

theorem setIpv6_hide (buf : CStr) (g : Globals) :
    setIpv6 buf g.hide = (setIpv6 buf g).map Globals.hide := by
  unfold setIpv6
  split
  · rfl
  · rename_i pt s _
    rw [copy_hide rfl]
    cases copy .ipAddress6 pt g with
    | ok g₁ =>
        dsimp only [Except.map, Run.ok_bind]
        split
        · rfl
        · rfl
    | error e => rfl

end Loads

/-! ### The parts -/

section Parts

variable (dev : Device)

theorem hides_loadIpv6 : ∀ l ∈ loadIpv6 dev, l.Hides := by
  have hgateway : Blind (gateway6Text dev) :=
    (blind_getFlag rfl).bind fun _ => .ite (.pure _) ((blind_getText 47 rfl).map some)
  have hbuf : Blind (ipv6Buf dev) := (blind_getFlag rfl).bind fun _ =>
    .ite (.ite (Act.Mirrors.fault _) (blind_store _ 45 _))
      ((blind_getText 47 rfl).bind fun p => blind_store _ 45 p)
  simp only [loadIpv6, List.forall_mem_cons]
  refine ⟨?_, hides_loadText rfl (blind_getText 47 rfl), hides_loadText rfl (blind_getText 47 rfl),
    ?_, nofun⟩
  · refine Load.hides_put (fun p g => p.elim (.ok g) (copy .gateway6 · g)) (fun _ => rfl) hgateway
      fun p g => ?_
    cases p with
    | none => rfl
    | some p => exact copy_hide rfl p g
  · exact Load.hides_put setIpv6 (fun _ => rfl) hbuf setIpv6_hide

theorem hides_dumpBasic : ∀ l ∈ dumpBasic dev, l.Hides := by
  simp only [dumpBasic, List.forall_mem_cons]
  exact ⟨hides_loadByte (blind_getAtoi rfl), hides_loadMac _ _,
    hides_loadText rfl (blind_getText 9 rfl), hides_loadText rfl (blind_getText 40 rfl),
    hides_loadText rfl (blind_getText 40 rfl), hides_loadText rfl (blind_getText 40 rfl),
    hides_loadByte (blind_getFlag rfl), hides_loadByte (blind_getFlag rfl),
    hides_loadAddr (blind_getAddr rfl), hides_loadAddr (blind_getAddr rfl),
    hides_loadAddr (blind_getAddr rfl), hides_loadText rfl (blind_getText 33 rfl),
    hides_loadText rfl (blind_getText 33 rfl), hides_loadByte (blind_getFlag rfl),
    Load.hides_if (fun _ => rfl) (hides_loadIpv6 dev), nofun⟩

theorem hides_dumpTime : ∀ l ∈ dumpTime dev, l.Hides := by
  simp only [dumpTime, List.forall_mem_cons]
  exact ⟨hides_loadByte ((blind_getFlag rfl).map _), hides_loadText rfl (.pure _),
    hides_loadText rfl (.pure _), hides_loadText rfl (blind_getText 13 rfl),
    hides_loadByte (blind_getAtoi rfl), hides_loadByte (blind_getFlag rfl),
    hides_loadText rfl (blind_getText 33 rfl), nofun⟩

theorem hides_dumpSetupAdv : ∀ l ∈ dumpSetupAdv, l.Hides := by
  have hspeed : Blind apCfgPortspeedGet := (blind_getAtoi rfl).map _
  simp only [dumpSetupAdv, List.forall_mem_cons]
  refine ⟨hides_loadByte (blind_getFlag rfl), hides_loadByte (blind_getFlag rfl),
    hides_loadByte ((blind_getAtoi rfl).map _), hides_loadByte hspeed,
    hides_loadByte ((blind_getAtoi rfl).map _), hides_loadByte (blind_getFlag rfl),
    Load.hides_if (fun _ => rfl) ?_, hides_loadByte (blind_getFlag rfl),
    Load.hides_if (fun _ => rfl) ?_, nofun⟩
  · simp only [List.forall_mem_cons]
    exact ⟨hides_loadText rfl (blind_getText 129 rfl), nofun⟩
  · simp only [List.forall_mem_cons]
    exact ⟨hides_loadByte (blind_getFlag rfl), hides_loadText rfl (blind_getText 64 rfl),
      hides_loadText rfl (blind_getText 64 rfl), nofun⟩

theorem hides_dumpWlanBasic : ∀ l ∈ dumpWlanBasic, l.Hides := by
  simp only [dumpWlanBasic, List.forall_mem_cons]
  refine ⟨hides_loadByte ?_, hides_loadByte ?_, hides_loadByte (blind_getFlag rfl), nofun⟩
  · exact (blind_getFlag rfl).bind fun _ => (blind_getEnum _ rfl).map _
  · exact (blind_getFlag rfl).bind fun _ => .ite (.pure _) (blind_getNumber 60 rfl)

theorem hides_loadAclMacs (vap : Nat) : (loadAclMacs dev vap).Hides := by
  have hget : Blind (scAclBufGet 0 vap false) :=
    (blind_nvramSafeGet rfl).bind fun _ => (Blind.lift _).map _
  exact Load.hides_put (fun es g => setAclMacs dev vap 0 (es.getD []) g) (fun _ => rfl) hget
    fun es => setAclMacs_hide dev vap 0 (es.getD [])

theorem hides_dumpActiveVap (vap : Nat) : ∀ l ∈ dumpActiveVap dev vap, l.Hides := by
  have hauth : Blind (apCfgAuthTypeGet 0 vap) := blind_getEnum _ rfl
  simp only [dumpActiveVap, List.forall_mem_cons]
  refine ⟨hides_loadText rfl (blind_getText 64 rfl), hides_loadByte ((blind_getFlag rfl).map _),
    hides_loadByte (blind_getFlag rfl), hides_loadByte (hauth.map _), hides_loadByte (hauth.map _),
    Load.hides_if (fun _ => rfl) ?_, Load.hides_if (fun _ => rfl) ?_,
    hides_loadByte (blind_getNumber 60 rfl), hides_loadSecret rfl rfl 32,
    hides_loadSecret rfl rfl 32, hides_loadSecret rfl rfl 32, hides_loadSecret rfl rfl 32,
    hides_loadSecret rfl rfl 32, hides_loadWord (blind_getNumber 60 rfl),
    hides_loadByte (blind_getEnum _ rfl), hides_loadByte (blind_getEnum _ rfl),
    hides_loadAclMacs dev vap, Load.hides_ifSet (blind_getFlag rfl) ?_,
    hides_loadByte (blind_getFlag rfl), Load.hides_ifSet (blind_getFlag rfl) ?_, nofun⟩
  · simp only [List.forall_mem_cons]
    exact ⟨hides_loadByte ((blind_getNumber 60 rfl).map _), nofun⟩
  · simp only [List.forall_mem_cons]
    exact ⟨hides_loadByte ((blind_getEnum _ rfl).map _), nofun⟩
  · simp only [List.forall_mem_cons]
    exact ⟨hides_loadWord (blind_getNumber 32 rfl), hides_loadByte (blind_getNumber 60 rfl), nofun⟩
  · simp only [List.forall_mem_cons]
    exact ⟨hides_loadWord (blind_getNumber 60 rfl), nofun⟩

theorem hides_dumpVap (vap : Nat) : (dumpVap dev vap).Hides :=
  Load.hides_ifSet (blind_getFlag rfl) (hides_dumpActiveVap dev vap)

theorem hides_dumpRadius : ∀ l ∈ dumpRadius, l.Hides := by
  simp only [dumpRadius, List.forall_mem_cons]
  exact ⟨hides_loadIp (blind_getText 32 rfl), hides_loadWord (blind_getNumber 60 rfl),
    hides_loadSecret rfl rfl 32, hides_loadIp (blind_getText 32 rfl),
    hides_loadWord (blind_getNumber 60 rfl), hides_loadSecret rfl rfl 32, nofun⟩

theorem hides_dumpVlan : ∀ l ∈ dumpVlan, l.Hides := by
  simp only [dumpVlan, List.forall_mem_cons]
  refine ⟨hides_loadByte (blind_getFlag rfl), Load.hides_if (fun _ => rfl) ?_, nofun⟩
  simp only [List.forall_mem_cons]
  exact ⟨hides_loadWord (blind_getAtoi rfl), hides_loadWord (blind_getAtoi rfl),
    hides_loadByte (blind_getFlag rfl), hides_loadByte (blind_getFlag rfl),
    hides_loadText rfl (blind_getText 21 rfl), nofun⟩

theorem hides_dumpWlanAdv : ∀ l ∈ dumpWlanAdv, l.Hides := by
  simp only [dumpWlanAdv, List.forall_mem_cons]
  exact ⟨hides_loadByte (blind_getFlag rfl), hides_loadWord (blind_getAtoi rfl),
    hides_loadByte ((blind_getEnum _ rfl).map _), hides_loadByte ((blind_getEnum _ rfl).map _),
    hides_loadByte (blind_getAtoi rfl), hides_loadWord (blind_getAtoi rfl),
    hides_loadByte (blind_getNumber 60 rfl), hides_loadWord (blind_getNumber 60 rfl),
    hides_loadWord (blind_getNumber 60 rfl), hides_loadByte (blind_getFlag rfl), nofun⟩

theorem hides_loadBridge (i : Nat) : (loadBridge dev i).Hides := by
  have hget : Blind (apCfgRemoteWbrMacAddrGet 0 i) := (blind_nvramSafeGet rfl).bind fun _ =>
    .bind (.ite (.pure _) (Act.Mirrors.fault _)) fun _ => .pure _
  exact Load.hides_put
    (fun remotemac g => setRemote dev (.pxpMac i) remotemac (g.setMac (.pxpMac i) .zero))
    (fun _ => rfl) hget
    fun remotemac g => setRemote_hide dev _ remotemac (g.setMac (.pxpMac i) .zero)

theorem hides_loadRemotes : (loadRemotes dev).Hides := by
  have hremote : ∀ k, Secret k = false →
      Blind (do store .remoteMac 20 (← nvramSafeGet k) : Cfg CStr) := fun _ hk =>
    (blind_nvramSafeGet hk).bind fun p => blind_store _ 20 p
  have hssid : Blind (perfssidText dev) := (blind_getText 64 rfl).bind fun _ =>
    (blind_getAtoi rfl).map _
  refine .ite (fun _ => rfl) (Load.hides_all ?_) (.ite (fun _ => rfl)
    (hides_loadRemote (hremote _ rfl)) (Load.hides_if (fun _ => rfl) ?_))
  · simp only [List.forall_mem_cons]
    exact ⟨hides_loadBridge dev 0, hides_loadBridge dev 1, hides_loadBridge dev 2,
      hides_loadBridge dev 3, nofun⟩
  · simp only [List.forall_mem_cons]
    exact ⟨hides_loadText rfl hssid, hides_loadRemote (hremote _ rfl), nofun⟩

theorem hides_loadLegalAps : loadLegalAps.Hides := by
  have hget : Blind scApCfgLegalApListGet := blind_getText _ rfl
  refine Load.hides_put
    (fun pList g => do return g.setRogue (← legalList pList g.rogueApMacList)) (fun _ => rfl) hget
    fun pList g => ?_
  change (do return g.hide.setRogue (← legalList pList g.rogueApMacList)) = _
  cases legalList pList g.rogueApMacList <;> rfl

theorem hides_dumpApMode : ∀ l ∈ dumpApMode dev, l.Hides := by
  have hmode : Blind (apCfgOpModeGet 0) := blind_getEnum _ rfl
  have hrogue : Blind scApCfgRogueApTypeGet := (blind_getAtoi rfl).map _
  simp only [dumpApMode, List.forall_mem_cons]
  refine ⟨hides_loadByte (hmode.map _), hides_loadByte (hmode.map _), hides_loadByte (hmode.map _),
    hides_loadRemotes dev, hides_loadByte (hrogue.map _), hides_loadByte (hrogue.map _),
    Load.hides_if (fun _ => rfl) ?_, nofun⟩
  simp only [List.forall_mem_cons]
  exact ⟨hides_loadLegalAps, nofun⟩

theorem hides_dumpManagement : ∀ l ∈ dumpManagement, l.Hides := by
  simp only [dumpManagement, List.forall_mem_cons]
  refine ⟨hides_loadText rfl (blind_getText 64 rfl), hides_loadSecret rfl rfl 64,
    hides_loadByte (blind_getFlag rfl), hides_loadByte (blind_getFlag rfl),
    hides_loadByte (blind_getFlag rfl), hides_loadByte (blind_getFlag rfl),
    Load.hides_if (fun _ => rfl) ?_, nofun⟩
  simp only [List.forall_mem_cons]
  exact ⟨hides_loadText rfl (blind_getText 33 rfl), hides_loadText rfl (blind_getText 33 rfl),
    hides_loadText rfl (blind_getText 40 rfl), hides_loadText rfl (blind_getText 33 rfl),
    hides_loadText rfl (blind_getText 33 rfl), hides_loadText rfl (blind_getText 33 rfl),
    hides_loadByte (blind_getFlag rfl), hides_loadAddr (blind_getAddr rfl),
    hides_loadByte ((blind_getAddr rfl).map _), hides_loadAddr (blind_getAddr rfl), nofun⟩

theorem hides_dumpLog : ∀ l ∈ dumpLog, l.Hides := by
  simp only [dumpLog, List.forall_mem_cons]
  refine ⟨hides_loadByte (blind_getFlag rfl), Load.hides_if (fun _ => rfl) ?_,
    hides_loadByte (blind_getFlag rfl), hides_loadAddr ((blind_getText 33 rfl).map _),
    hides_loadByte (blind_getFlag rfl), hides_loadByte (blind_getFlag rfl),
    hides_loadByte (blind_getFlag rfl), hides_loadByte (blind_getFlag rfl), nofun⟩
  simp only [List.forall_mem_cons]
  exact ⟨hides_loadText rfl (blind_getText 65 rfl), hides_loadText rfl (blind_getText 65 rfl),
    hides_loadWord (blind_getAtoi rfl), hides_loadWord (blind_getAtoi rfl), nofun⟩

/-- **The variables of a configuration with hidden secrets are the hidden variables.** -/
theorem outputCFGGet_hides : (outputCFGGet dev).Hides := by
  refine Load.hides_all ?_
  simp only [dumpLoads, List.forall_mem_cons]
  exact ⟨Load.hides_all (hides_dumpBasic dev), Load.hides_all (hides_dumpTime dev),
    Load.hides_all hides_dumpSetupAdv, Load.hides_all hides_dumpWlanBasic, hides_dumpVap dev 0,
    hides_dumpVap dev 1, hides_dumpVap dev 2, hides_dumpVap dev 3,
    Load.hides_all hides_dumpRadius, Load.hides_all hides_dumpVlan,
    Load.hides_all hides_dumpWlanAdv, Load.hides_all (hides_dumpApMode dev),
    Load.hides_all hides_dumpManagement, Load.hides_all hides_dumpLog, nofun⟩

end Parts

/-! ### Writing -/

/-- What is written, and the hidden variables. -/
def Written.hide (w : Written) : Written := (w.1, w.2.hide)

@[simp] theorem stars_stars (s : CStr) : stars (stars s) = stars s := by
  ext1
  change List.replicate (stars s).length 0x2a = List.replicate s.length 0x2a
  rw [length_stars]

@[simp] theorem Held.star_star {n : Nat} (x : Held n) : x.star.star = x.star := by
  obtain ⟨s, hs⟩ := x
  unfold Held.star
  simp

/-- A function that writes no secret as it is. -/
def Output.Masks : Output → Bool
  | str v => !v.Secret
  | _ => true

section Write

variable {dev : Device} {g : Globals}

/-- `OutputScMacList` reads and writes the list of addresses only. -/
theorem outputScMacList_setRogue (g : Globals) (buff : List Byte) :
    ∃ r : Run Buf (List Byte × RogueAPMacList), ∀ g' : Globals,
      g'.rogueApMacList = g.rogueApMacList →
        outputScMacList g' buff = r.map fun r => (r.1, g'.setRogue r.2) := by
  let p := g.rogueApMacList
  refine ⟨if p.no = 0 then .ok ([], p) else if 80 < (lineSoFar buff).length then
    .error (.outside .string) else (outputMacs p (lineSoFar buff) (acNo - p.outNo.toNat)
      p.outNo).map fun r => (r.1, { p with outNo := r.2 }), fun g' hg' => ?_⟩
  unfold outputScMacList
  dsimp only
  rw [hg']
  split
  · change _ = Except.ok ([], g'.setRogue g.rogueApMacList)
    rw [← hg']
    rfl
  · split
    · rfl
    · change _ = ((outputMacs g.rogueApMacList (lineSoFar buff)
        (acNo - g.rogueApMacList.outNo.toNat) g.rogueApMacList.outNo).map _).map _
      cases outputMacs g.rogueApMacList (lineSoFar buff)
        (acNo - g.rogueApMacList.outNo.toNat) g.rogueApMacList.outNo <;> rfl

/-- No function touches the flag that hides the secrets. -/
theorem Output.byte_run {f : Output} {buff : List Byte} {w : Written}
    (h : f.run buff g = .ok w) : w.2.byte = g.byte := by
  cases f with
  | pass v =>
      cases h
      change (if g.byte .secShow ≠ 0 then g.setText v (g.held v).star else g).byte = g.byte
      split <;> rfl
  | scMacList =>
      obtain ⟨r, hr⟩ := outputScMacList_setRogue g buff
      change outputScMacList g buff = .ok w at h
      rw [hr g rfl] at h
      cases r with
      | ok r =>
          cases h
          rfl
      | error e => cases h
  | byte | word | ip | mac | str | percent | rogueNo =>
      cases h
      rfl

theorem outputPass_hide (h : g.byte .secShow ≠ 0) (v : TextVar) :
    outputPass g.hide v = Written.hide (outputPass g v) := by
  have hmask : g.hide.byte .secShow ≠ 0 := h
  have hstar : (g.hide.held v).star = (g.held v).star := by
    by_cases hv : v.Secret = true
    · simp [Globals.hide, hv]
    · simp [Globals.hide, hv]
  have hleft : (g.setText v (g.held v).star).hide = g.hide.setText v (g.held v).star := by
    by_cases hv : v.Secret = true
    · rw [g.hide_setText_secret hv, Held.star_star]
    · exact g.hide_setText (by simpa using hv) _
  simp only [outputPass, if_pos h, if_pos hmask, hstar]
  exact Prod.ext (by simp [Written.hide]) hleft.symm

theorem Output.run_hide {f : Output} (hf : f.Masks = true) (h : g.byte .secShow ≠ 0)
    (buff : List Byte) : f.run buff g.hide = (f.run buff g).map Written.hide := by
  cases f with
  | str v =>
      have hv : v.Secret = false := by simpa [Masks] using hf
      have htext : g.hide.text v = g.text v := by simp [Globals.hide, Globals.text, hv]
      exact congrArg Except.ok (Prod.ext (congrArg CStr.bytes htext) rfl)
  | pass v => exact congrArg Except.ok (outputPass_hide h v)
  | scMacList =>
      obtain ⟨r, hr⟩ := outputScMacList_setRogue g buff
      change outputScMacList g.hide buff = (outputScMacList g buff).map Written.hide
      rw [hr g rfl, hr g.hide rfl]
      cases r <;> rfl
  | byte | word | ip | mac | percent | rogueNo => rfl

/-- The functions of a list of attributes write no secret as it is. -/
def Masking (as : List Attr) : Bool := as.all fun a => a.outputfunc.all Output.Masks

theorem masking_cfgData : ∀ p ∈ cfgData, Masking p.attrs = true := by
  have hall : cfgData.all (fun p => Masking p.attrs) = true := rfl
  exact List.all_eq_true.mp hall

theorem writeAttr_hide (dev : Device) {a : Attr} (ha : a.outputfunc.all Output.Masks = true)
    {w : Written}
    (h : w.2.byte .secShow ≠ 0) :
    writeAttr dev a w.hide = (writeAttr dev a w).map Written.hide ∧
      ∀ w', writeAttr dev a w = .ok w' → w'.2.byte = w.2.byte := by
  obtain ⟨buff, g⟩ := w
  unfold writeAttr
  cases hf : a.outputfunc with
  | none => exact ⟨rfl, fun w' hw => by cases hw; rfl⟩
  | some f =>
      rw [hf] at ha
      have hhide := Output.run_hide (f := f) ha h (buff ++ outputAttr a.attr)
      dsimp only [Written.hide] at hhide ⊢
      rw [hhide]
      cases hrun : f.run (buff ++ outputAttr a.attr) g with
      | ok r =>
          refine ⟨rfl, fun w' hw => ?_⟩
          cases hw
          have hbyte : r.2.byte = g.byte := Output.byte_run hrun
          exact hbyte
      | error e => exact ⟨rfl, nofun⟩

theorem writeAttrs_hide (dev : Device) {as : List Attr} (ha : Masking as = true) {w : Written}
    (h : w.2.byte .secShow ≠ 0) :
    writeAttrs dev as w.hide = (writeAttrs dev as w).map Written.hide ∧
      ∀ w', writeAttrs dev as w = .ok w' → w'.2.byte = w.2.byte := by
  induction as generalizing w with
  | nil => exact ⟨rfl, fun w' hw => by cases hw; rfl⟩
  | cons a as ih =>
      obtain ⟨hhead, htail⟩ := Bool.and_eq_true_iff.mp ha
      obtain ⟨hone, hbyte⟩ := writeAttr_hide dev hhead h
      unfold writeAttrs
      rw [hone]
      cases hw : writeAttr dev a w with
      | ok w₁ =>
          have hsame := hbyte w₁ hw
          obtain ⟨hrest, hbytes⟩ := ih htail (w := w₁) (by rw [hsame]; exact h)
          exact ⟨hrest, fun w' hw' => (hbytes w' hw').trans hsame⟩
      | error e => exact ⟨rfl, nofun⟩

theorem writeGroups_hide (dev : Device) {ps : List Group} (hps : ∀ p ∈ ps, Masking p.attrs = true)
    {w : Written}
    (h : w.2.byte .secShow ≠ 0) :
    writeGroups dev ps w.hide = (writeGroups dev ps w).map Written.hide := by
  induction ps generalizing w with
  | nil => rfl
  | cons p ps ih =>
      obtain ⟨hone, hbyte⟩ := writeAttrs_hide dev (hps p List.mem_cons_self)
        (w := (w.1 ++ outputGroup p.group, w.2)) h
      change (writeAttrs dev p.attrs (w.1 ++ outputGroup p.group, w.2.hide) >>= _) =
        (writeAttrs dev p.attrs (w.1 ++ outputGroup p.group, w.2) >>= _).map _
      dsimp only [Written.hide] at hone
      rw [hone]
      cases hw : writeAttrs dev p.attrs (w.1 ++ outputGroup p.group, w.2) with
      | ok w₁ =>
          exact ih (fun q hq => hps q (List.mem_cons_of_mem p hq)) (by rw [hbyte w₁ hw]; exact h)
      | error e => rfl

/-- **The hidden variables are written as the variables are.** -/
theorem writeText_hides (h : g.byte .secShow ≠ 0) :
    writeText dev g.hide = (writeText dev g).map Written.hide := by
  have htitle : titleLines dev g.hide = titleLines dev g := rfl
  have hhead : outputTitle dev g.hide = outputTitle dev g := rfl
  unfold writeText
  rw [hhead]
  cases hh : outputTitle dev g with
  | error e => rfl
  | ok head =>
      have hgroups := writeGroups_hide dev masking_cfgData (w := (head, g)) h
      dsimp only [Run.ok_bind, Written.hide] at hgroups ⊢
      rw [hgroups]
      cases hw : writeGroups dev cfgData (head, g) with
      | error e => rfl
      | ok w =>
          change (checksum (w.1.drop head.length) >>= _) =
            (checksum (w.1.drop head.length) >>= _).map _
          cases checksum (w.1.drop head.length) <;> rfl

end Write

/-! ### The text -/

/-- Secrets are not shown: `secShow` is not zero. -/
def Masked (c : Config) : Prop := UInt8.ofInt (atoi (c.get (.sys .secretMask))) ≠ 0

/-- The configurations differ in the values of secrets only, and these are of equal length. -/
def Apart (c c' : Config) : Prop :=
  (∀ k, Secret k = false → c.get k = c'.get k) ∧
    ∀ k, Secret k = true → (c.get k).length = (c'.get k).length

theorem stars_eq {s s' : CStr} (h : s.length = s'.length) : stars s = stars s' := by
  ext1
  change List.replicate s.length 0x2a = List.replicate s'.length 0x2a
  rw [h]

theorem hide_eq_of_apart {c c' : Config} (h : Apart c c') : hide c = hide c' := by
  have hget : (hide c).get = (hide c').get := by
    funext k
    cases hk : Secret k with
    | false => simpa [hide, hk] using h.1 k hk
    | true => simpa [hide, hk] using stars_eq (h.2 k hk)
  exact Config.ext hget rfl rfl

set_option maxRecDepth 4000 in
/-- The flag is loaded first, and no other load writes it. -/
theorem byte_secShow {dev : Device} {g g' : Globals} {c : Config}
    (h : ((outputCFGGet dev).run g c).1 = .ok g') :
    g'.byte .secShow = UInt8.ofInt (atoi (c.get (.sys .secretMask))) := by
  let basic := Load.all (dumpBasic dev).tail
  let others := Load.all (dumpLoads dev).tail
  obtain ⟨g₂, hbasic, hrest⟩ := Load.andThen_ok (.all (dumpBasic dev)) others h
  obtain ⟨g₁, hfirst, hbasic⟩ :=
    Load.andThen_ok (loadByte .secShow apCfgSecMaskGet) basic hbasic
  have hg₁ : g₁ = g.setByte .secShow (.ofInt (atoi (c.get (.sys .secretMask)))) := by
    cases hfirst
    rfl
  have hnot : basic.writes.contains (.byte .secShow) = false := rfl
  have hnot' : others.writes.contains (.byte .secShow) = false := rfl
  have hsame : g₁.byte .secShow = g₂.byte .secShow :=
    basic.frame hbasic (.byte .secShow) (by simpa using hnot)
  have hsame' : g₂.byte .secShow = g'.byte .secShow :=
    others.frame hrest (.byte .secShow) (by simpa using hnot')
  rw [← hsame', ← hsame, hg₁, Globals.byte_setByte_self]

/-- The text of a configuration is that of the configuration with hidden secrets. -/
theorem outputCFG_hide {dev : Device} {g : Globals} {c : Config} (h : Masked c) :
    ((outputCFG dev g c).1.map Prod.fst) = ((outputCFG dev g.hide (hide c)).1.map Prod.fst) := by
  obtain ⟨hkeep, hhide⟩ := outputCFGGet_hides dev g c
  cases hload : ((outputCFGGet dev).run g c).1 with
  | error e =>
      have hleft : (outputCFGGet dev).run g c = (.error e, c) := Prod.ext hload hkeep
      rw [hload] at hhide
      unfold outputCFG
      rw [Act.bind_error hleft, Act.bind_error hhide]
  | ok g₁ =>
      have hleft : (outputCFGGet dev).run g c = (.ok g₁, c) := Prod.ext hload hkeep
      have hmask : g₁.byte .secShow ≠ 0 := by rwa [byte_secShow hload]
      rw [hload] at hhide
      unfold outputCFG
      rw [Act.bind_ok hleft, Act.bind_ok hhide]
      change (writeText dev g₁).map Prod.fst = (writeText dev g₁.hide).map Prod.fst
      rw [writeText_hides hmask]
      cases writeText dev g₁ <;> rfl

/-- **A masked text shows of the secrets their lengths only.** -/
theorem outputCFG_eq_of_apart {dev : Device} (g : Globals) {c c' : Config} (hc : Masked c)
    (h : Apart c c') :
    (outputCFG dev g c).1.map Prod.fst = (outputCFG dev g c').1.map Prod.fst := by
  have hc' : Masked c' := by
    have hflag := h.1 (.sys .secretMask) rfl
    rwa [Masked, ← hflag]
  rw [outputCFG_hide hc, outputCFG_hide hc', hide_eq_of_apart h]

/-- Settings of which the RADIUS servers and the password are set, with secrets not shown. -/
def maskedSettings (password : CStr) : Config where
  get k :=
    if k = .sys .secretMask then .text "1"
    else if k = .sys .loginPassword then password
    else if k = .vap 0 0 .radiusServer then .text "0.0.0.0"
    else if k = .vap 0 0 .backupRadiusServer then .text "0.0.0.0"
    else .empty
  flags := []
  closed := false

/-- Two passwords of five characters. -/
theorem outputCFG_eq_passwords :
    (outputCFG .bare .initial (maskedSettings (.text "admin"))).1.map Prod.fst =
      (outputCFG .bare .initial (maskedSettings (.text "12345"))).1.map Prod.fst := by
  have hmasked : Masked (maskedSettings (.text "admin")) := by
    unfold Masked
    decide
  refine outputCFG_eq_of_apart .initial hmasked ⟨fun k hk => ?_, fun k hk => ?_⟩
  · have hne : k ≠ .sys .loginPassword := fun h => by
      subst h
      cases hk
    simp [maskedSettings, hne]
  · by_cases h : k = .sys .loginPassword
    · subst h
      decide
    · simp [maskedSettings, h]

end Wap4410n.Editcfg
