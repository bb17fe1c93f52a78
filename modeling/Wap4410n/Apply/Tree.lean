import Wap4410n.Support.Act
import Wap4410n.Support.Forest
import Wap4410n.Apcfg.Wlan

/-!
# Apply — the tree of what has to be applied

What has to be applied is flagged in a table.  Its rows form a tree: a handler applies all that
stands below its row, so that `apl_handleApplyTree` calls the handler of a flagged row and goes into
the children of a row that is not flagged.  Each row names its first child and its next brother.

The names the log prints (`idString`) are a table of their own, which ends a row before
`applyTable` does.

* `applyTable_linked`: the links are those of the documented tree.
* `applyItems_exact`: what the walk does along a list of brothers, for any set of flags.
* `applyTree_iff`: when it calls each handler that is needed, once, and no other.
* `autoreboot_outside`: the last row is not one the log has a name for.
-/

namespace Wap4410n.Apply

open CLib Apcfg

/-! ### The table -/

def aplRoot : Nat := 0
def aplTelnet : Nat := 4
def aplStp : Nat := 8
def aplLltd : Nat := 9
def aplFtp : Nat := 27
def aplEthDatarate : Nat := 28
def aplAutoreboot : Nat := 33

/-- The handlers. -/
inductive Handler where
  | reboot | sysname | login | telnet | ssh | httpd | vlan | stp | lltd | ipv4 | ipv6 | ethsup
  | wlan | vap | ntp | snmp | log | ftp | balance | redirect | rogueap | autoreboot | bonjour
  | ethDatarate | force100m
deriving DecidableEq, Repr

/-- `APPLY_TABLE`; `none` is `NO_ACC`. -/
structure Row where
  id : Nat
  handler : Option Handler
  unit : Int
  vap : Int
  parent : Option Nat
  child : Option Nat
  rbrother : Option Nat
deriving DecidableEq, Repr

/-- `applyTable` -/
def applyTable : List Row := [
  ⟨aplRoot, none, -1, -1, none, aplReboot, none⟩,
  ⟨aplReboot, some .reboot, -1, -1, aplRoot, aplSysname, none⟩,
  ⟨aplSysname, some .sysname, -1, -1, aplReboot, none, aplLogin⟩,
  ⟨aplLogin, some .login, -1, -1, aplReboot, aplTelnet, aplVlan⟩,
  ⟨aplTelnet, some .telnet, -1, -1, aplLogin, none, aplSsh⟩,
  ⟨aplSsh, some .ssh, -1, -1, aplLogin, none, aplHttpd⟩,
  ⟨aplHttpd, some .httpd, -1, -1, aplLogin, none, none⟩,
  ⟨aplVlan, some .vlan, -1, -1, aplReboot, aplStp, aplNtp⟩,
  ⟨aplStp, some .stp, -1, -1, aplVlan, none, aplLltd⟩,
  ⟨aplLltd, some .lltd, -1, -1, aplVlan, none, aplIpv4⟩,
  ⟨aplIpv4, some .ipv4, -1, -1, aplVlan, none, aplIpv6⟩,
  ⟨aplIpv6, some .ipv6, -1, -1, aplVlan, none, aplEthsup⟩,
  ⟨aplEthsup, some .ethsup, -1, -1, aplVlan, none, aplBalance⟩,
  ⟨aplBalance, some .balance, 0, -1, aplVlan, none, aplWlan 0⟩,
  ⟨aplWlan 0, some .wlan, 0, -1, aplVlan, aplVap 0 0, aplWlan 1⟩,
  ⟨aplVap 0 0, some .vap, 0, 0, aplWlan 0, none, aplVap 0 1⟩,
  ⟨aplVap 0 1, some .vap, 0, 1, aplWlan 0, none, aplVap 0 2⟩,
  ⟨aplVap 0 2, some .vap, 0, 2, aplWlan 0, none, aplVap 0 3⟩,
  ⟨aplVap 0 3, some .vap, 0, 3, aplWlan 0, none, none⟩,
  ⟨aplWlan 1, some .wlan, 1, -1, aplVlan, aplVap 1 0, none⟩,
  ⟨aplVap 1 0, some .vap, 1, 0, aplWlan 1, none, aplVap 1 1⟩,
  ⟨aplVap 1 1, some .vap, 1, 1, aplWlan 1, none, aplVap 1 2⟩,
  ⟨aplVap 1 2, some .vap, 1, 2, aplWlan 1, none, aplVap 1 3⟩,
  ⟨aplVap 1 3, some .vap, 1, 3, aplWlan 1, none, none⟩,
  ⟨aplNtp, some .ntp, -1, -1, aplReboot, none, aplSnmp⟩,
  ⟨aplSnmp, some .snmp, -1, -1, aplReboot, none, aplLog⟩,
  ⟨aplLog, some .log, -1, -1, aplReboot, none, aplFtp⟩,
  ⟨aplFtp, some .ftp, -1, -1, aplReboot, none, aplEthDatarate⟩,
  ⟨aplEthDatarate, some .ethDatarate, -1, -1, aplReboot, none, aplForce100m⟩,
  ⟨aplForce100m, some .force100m, -1, -1, aplReboot, none, aplHttpredirect⟩,
  ⟨aplHttpredirect, some .redirect, -1, -1, aplReboot, none, aplRogueap⟩,
  ⟨aplRogueap, some .rogueap, -1, -1, aplReboot, none, aplBonjour⟩,
  ⟨aplBonjour, some .bonjour, -1, -1, aplReboot, none, aplAutoreboot⟩,
  ⟨aplAutoreboot, some .autoreboot, -1, -1, aplReboot, none, none⟩]

/-- `idString` -/
def idString : List String := [
  "APL_ROOT", "APL_REBOOT", "APL_SYSNAME", "APL_LOGIN", "APL_TELNET", "APL_SSH", "APL_HTTPD",
  "APL_VLAN", "APL_STP", "APL_LLTD", "APL_IPv4", "APL_IPv6", "APL_ETHSUP", "APL_BALANCE",
  "APL_WLAN0", "APL_WLAN0_VAP0", "APL_WLAN0_VAP1", "APL_WLAN0_VAP2", "APL_WLAN0_VAP3",
  "APL_WLAN1", "APL_WLAN1_VAP0", "APL_WLAN1_VAP1", "APL_WLAN1_VAP2", "APL_WLAN1_VAP3", "APL_NTP",
  "APL_SNMP", "APL_LOG", "APL_FTP", "APL_ETH_DATARATE", "APL_FORCE100M", "APL_HTTPREDIRECT",
  "APL_ROGUEAP", "APL_BONJOUR"]

/-! ### The walk -/

/-- The two tables. -/
inductive Buf where
  | applyTable
  | idString
deriving DecidableEq, Repr

/-- The flags of the table, and what a walk has done. -/
structure Applying where
  flag : Nat → Bool
  /-- `mdns_stopped` -/
  mdnsStopped : Bool
  /-- the rows whose handlers were called, in order -/
  calls : List Row

/-- `t[index]` -/
def entry {A : Type} (buf : Buf) (t : List A) (index : Nat) : Act Applying Buf A :=
  match t[index]? with
  | some a => pure a
  | none => Act.fault (.outside buf)

/-- Bonjour is stopped first where it or its address is about to change; `dhcp` is what
`apCfgDhcpEnableGet` returns. -/
def stopMdns (dhcp : Bool) : Act Applying Buf Unit := fun s =>
  (.ok (), if s.mdnsStopped = false ∧ (s.flag aplBonjour ∨ dhcp ∧ s.flag aplIpv4) then
    { s with mdnsStopped := true } else s)

/-- `applyTable[index].handler(applyTable[index].unit, applyTable[index].vap)` -/
def callHandler (result : Handler → Int → Int → Int) (row : Row) (handler : Handler) :
    Act Applying Buf Int := fun s =>
  (.ok (result handler row.unit row.vap), { s with calls := s.calls ++ [row] })

/-- `do … while(1)` of `apl_handleApplyTree` from `index` on; `none` is a walk that is not done
after `n` rows -/
def applyItems (result : Handler → Int → Int → Int) (dhcp : Bool) :
    Nat → Nat → Int → Act Applying Buf (Option Int)
  | 0, _, _ => return none
  | n + 1, index, ret => do
    let row ← entry .applyTable applyTable index
    let next := fun ret : Int => match row.rbrother with
      | none => return some ret
      | some index => applyItems result dhcp n index ret
    let flag : Bool ← fun s => (.ok (s.flag index), s)
    if flag then do
      let _ ← entry .idString idString index
      match row.handler with
      | none => next ret
      | some handler => do
        let ret ← callHandler result row handler
        if ret ≠ 0 then return some ret else next ret
    else
      match row.child with
      | none => next ret
      | some child => do
        stopMdns dhcp
        match ← applyItems result dhcp n child 0 with
        | none => return none
        | some ret => next ret

/-- `apl_handleApplyTree` -/
def aplHandleApplyTree (result : Handler → Int → Int → Int) (dhcp : Bool) (n id : Nat) :
    Act Applying Buf (Option Int) := do
  stopMdns dhcp
  applyItems result dhcp n id 0

/-! ### The documented tree -/

/-- The apply tree. -/
def applyTree : Forest Nat :=
  .node aplRoot
    (.node aplReboot
      (.leaf aplSysname <|
        .node aplLogin (.leaf aplTelnet <| .leaf aplSsh <| .leaf aplHttpd .nil) <|
        .node aplVlan
          (.leaf aplStp <| .leaf aplLltd <| .leaf aplIpv4 <| .leaf aplIpv6 <| .leaf aplEthsup <|
            .leaf aplBalance <|
            .node (aplWlan 0) (.leaf (aplVap 0 0) <| .leaf (aplVap 0 1) <| .leaf (aplVap 0 2) <|
              .leaf (aplVap 0 3) .nil) <|
            .node (aplWlan 1) (.leaf (aplVap 1 0) <| .leaf (aplVap 1 1) <| .leaf (aplVap 1 2) <|
              .leaf (aplVap 1 3) .nil) .nil) <|
        .leaf aplNtp <| .leaf aplSnmp <| .leaf aplLog <| .leaf aplFtp <| .leaf aplEthDatarate <|
        .leaf aplForce100m <| .leaf aplHttpredirect <| .leaf aplRogueap <| .leaf aplBonjour <|
        .leaf aplAutoreboot .nil)
      .nil)
    .nil

/-- The links of the table. -/
def parentOf (id : Nat) : Option Nat := (applyTable[id]?).bind Row.parent

def childOf (id : Nat) : Option Nat := (applyTable[id]?).bind Row.child

def brotherOf (id : Nat) : Option Nat := (applyTable[id]?).bind Row.rbrother

/-- **The links of the table are those of the tree**, whose nodes are the rows in order. -/
theorem applyTable_linked :
    applyTree.Linked parentOf childOf brotherOf none ∧
      applyTree.preorder = List.range applyTable.length ∧
      applyTable.map Row.id = List.range applyTable.length := by
  decide

/-! ### The walk along brothers -/

/-- The handlers return 0. -/
def succeed : Handler → Int → Int → Int := fun _ _ _ => 0

/-- The row has a handler. -/
def called (id : Nat) : Option Row := (applyTable[id]?).filter (·.handler.isSome)

/-- What a walk over the forest leaves. -/
def Walked (s : Applying) (f : Forest Nat) (r : Option Int) (s' : Applying) : Prop :=
  r = some 0 ∧ s'.flag = s.flag ∧ s'.calls = s.calls ++ (f.cut s.flag).filterMap called

/-- The log has a name for every row at which the walk stops. -/
def Named (s : Applying) (f : Forest Nat) : Prop := ∀ id ∈ f.cut s.flag, id < idString.length

section Walk

variable (dhcp : Bool)

theorem stopMdns_flag (s : Applying) :
    ∃ s', stopMdns dhcp s = (.ok (), s') ∧ s'.flag = s.flag ∧ s'.calls = s.calls := by
  refine ⟨_, rfl, ?_, ?_⟩ <;> split <;> rfl

/-- **The walk.**  From a row of the tree on, with rows enough. -/
theorem applyItems_exact : ∀ {f : Forest Nat} {up : Option Nat} {n i : Nat} (s : Applying),
    f.root = some i → f.Linked parentOf childOf brotherOf up →
    (∀ j ∈ f.preorder, j < applyTable.length) → f.size ≤ n →
    Act.Exact s (Named s f) (applyItems succeed dhcp n i 0) (Walked s f)
  | .node i cs bs, _, 0, _, _, _, _, _, hn => absurd hn (Nat.not_succ_le_zero _)
  | .node i cs bs, _, n + 1, _, s, rfl, hlinked, hin, hn => by
      obtain ⟨-, hchild, hbrother, hcs, hbs⟩ := hlinked
      have hi : i < applyTable.length := hin i List.mem_cons_self
      have hinc : ∀ j ∈ cs.preorder, j < applyTable.length := fun j hj =>
        hin j (List.mem_cons_of_mem i (List.mem_append_left _ hj))
      have hinb : ∀ j ∈ bs.preorder, j < applyTable.length := fun j hj =>
        hin j (List.mem_cons_of_mem i (List.mem_append_right _ hj))
      have hsize : cs.size ≤ n ∧ bs.size ≤ n := by
        change cs.size + bs.size + 1 ≤ n + 1 at hn
        omega
      let row := applyTable[i]
      have hrow : applyTable[i]? = some row := List.getElem?_eq_getElem hi
      have hrowc : row.child = cs.root := by rw [← hchild, childOf, hrow]; rfl
      have hrowb : row.rbrother = bs.root := by rw [← hbrother, brotherOf, hrow]; rfl
      -- the brothers, from any state with these flags
      have hnext : ∀ s₁ : Applying, Act.Exact s₁ (Named s₁ bs) (match row.rbrother with
          | none => (return some 0 : Act Applying Buf (Option Int))
          | some index => applyItems succeed dhcp n index 0) (Walked s₁ bs) := by
        intro s₁
        rw [hrowb]
        cases bs with
        | nil =>
            refine (Act.Exact.pure (a := some (0 : Int)) ⟨rfl, rfl, ?_⟩).mono ?_ fun _ _ h => h
            · exact ⟨fun _ _ hid => absurd hid List.not_mem_nil, fun _ => trivial⟩
            · exact (List.append_nil _).symm
        | node j cs' bs' => exact applyItems_exact s₁ rfl hbs hinb hsize.2
      unfold applyItems
      refine Act.Exact.read (a := row) (by rw [entry, hrow]; rfl) ?_
      refine Act.Exact.read (a := s.flag i) rfl ?_
      cases hflag : s.flag i with
      | true =>
          have hcut : (Forest.node i cs bs).cut s.flag = i :: bs.cut s.flag := by
            simp [Forest.cut, hflag]
          rw [if_pos rfl]
          by_cases hname : i < idString.length
          · refine Act.Exact.read (a := idString[i]) ?_ ?_
            · rw [entry, List.getElem?_eq_getElem hname]
              rfl
            · cases hh : row.handler with
              | none =>
                  have hcalled : called i = none := by simp [called, hrow, hh]
                  refine (hnext s).mono ?_ ?_
                  · simp [Named, hcut, hname]
                  · rintro r s' ⟨hr, hf, hc⟩
                    refine ⟨hr, hf, ?_⟩
                    rw [hcut, List.filterMap_cons, hcalled]
                    exact hc
              | some handler =>
                  have hcalled : called i = some row := by simp [called, hrow, hh]
                  have hstep : callHandler succeed row handler s =
                      (.ok 0, { s with calls := s.calls ++ [row] }) := rfl
                  unfold Act.Exact
                  dsimp only
                  rw [Act.bind_ok hstep, if_neg (by decide)]
                  refine (hnext { s with calls := s.calls ++ [row] }).mono ?_ ?_
                  · simp [Named, hcut, hname]
                  · rintro r s' ⟨hr, hf, hc⟩
                    refine ⟨hr, hf, ?_⟩
                    rw [hcut, List.filterMap_cons, hcalled]
                    rw [hc, List.append_assoc]
                    rfl
          · refine .inr ⟨fun h => hname (h i (by rw [hcut]; exact List.mem_cons_self)), ?_⟩
            refine ⟨.outside .idString, ?_⟩
            have hfault : entry .idString idString i s = (.error (.outside .idString), s) := by
              rw [entry, List.getElem?_eq_none (Nat.le_of_not_lt hname)]
              rfl
            rw [Act.bind_error hfault]
      | false =>
          have hcut : (Forest.node i cs bs).cut s.flag = cs.cut s.flag ++ bs.cut s.flag := by
            simp [Forest.cut, hflag]
          rw [if_neg (by decide), hrowc]
          cases cs with
          | nil =>
              have hnil : (Forest.nil : Forest Nat).cut s.flag = [] := rfl
              refine (hnext s).mono ?_ ?_
              · simp [Named, hcut, hnil]
              · rintro r s' ⟨hr, hf, hc⟩
                refine ⟨hr, hf, ?_⟩
                rw [hcut]
                exact hc
          | node j cs' bs' =>
              obtain ⟨s₁, hstop, hflag₁, hcalls₁⟩ := stopMdns_flag dhcp s
              have hinner := applyItems_exact s₁ rfl hcs hinc hsize.1
              have hall : Act.Exact s₁ (Named s₁ (.node j cs' bs') ∧ Named s bs) _ _ :=
                hinner.bind (f := fun r => match r with
                  | none => (return none : Act Applying Buf (Option Int))
                  | some ret => match row.rbrother with
                    | none => return some ret
                    | some index => applyItems succeed dhcp n index ret)
                  (R := Walked s (.node i (.node j cs' bs') bs)) (G := Named s bs) ?_
              · unfold Act.Exact
                dsimp only [Forest.root]
                rw [Act.bind_ok hstop]
                refine hall.mono ?_ fun _ _ h => h
                simp [Named, hcut, hflag₁, or_imp, forall_and]
              · rintro r s₂ ⟨rfl, hflag₂, hcalls₂⟩
                have hflags : s₂.flag = s.flag := hflag₂.trans hflag₁
                refine (hnext s₂).mono ?_ ?_
                · simp [Named, hflags]
                · rintro r s' ⟨hr, hf, hc⟩
                  refine ⟨hr, hf.trans hflags, ?_⟩
                  rw [hc, hcalls₂, hcalls₁, hflags, hflag₁, hcut, List.filterMap_append,
                    List.append_assoc]

end Walk

/-! ### The walk of the tree -/

/-- The handler is needed: the row is flagged, and no handler above it does its work. -/
def Needed (flag : Nat → Bool) (id : Nat) : Prop :=
  flag id = true ∧ ∀ a, applyTree.Above a id → flag a = false

/-- The walk from the root returns 0 and has called the handlers that are needed: each once, in the
order of the tree. -/
def AppliesOnce (dhcp : Bool) (s : Applying) : Prop :=
  ∃ rows : List Row,
    (∀ n, applyTree.size ≤ n → ∃ s', s'.calls = s.calls ++ rows ∧
      aplHandleApplyTree succeed dhcp n aplRoot s = (.ok (some 0), s')) ∧
    (rows.map Row.id).Sublist applyTree.preorder ∧
    ∀ row, row ∈ rows ↔ row ∈ applyTable ∧ row.handler.isSome ∧ Needed s.flag row.id

theorem applyTree_nodup : applyTree.preorder.Nodup := by
  rw [applyTable_linked.2.1]
  exact List.nodup_range

/-- The row of an id. -/
theorem called_eq_some {id : Nat} {row : Row} :
    called id = some row ↔ row ∈ applyTable ∧ row.handler.isSome ∧ row.id = id := by
  have hids : ∀ i : Fin applyTable.length, applyTable[i].id = i := by decide
  rw [called, Option.filter_eq_some_iff, List.getElem?_eq_some_iff]
  constructor
  · rintro ⟨⟨hid, rfl⟩, hh⟩
    exact ⟨List.getElem_mem hid, hh, hids ⟨id, hid⟩⟩
  · rintro ⟨hmem, hh, rfl⟩
    obtain ⟨i, hi, rfl⟩ := List.getElem_of_mem hmem
    have hii := hids ⟨i, hi⟩
    dsimp only [Fin.getElem_fin] at hii
    exact ⟨⟨by rw [hii]; exact hi, by simp only [hii]⟩, hh⟩

/-- The rows called at a list of ids are the rows of these ids. -/
theorem map_id_called (l : List Nat) : ((l.filterMap called).map Row.id).Sublist l := by
  induction l with
  | nil => exact List.Sublist.slnil
  | cons id l ih =>
      rw [List.filterMap_cons]
      cases hid : called id with
      | none => exact ih.cons id
      | some row =>
          rw [List.map_cons, (called_eq_some.mp hid).2.2]
          exact ih.cons_cons id

/-- The rows above the last one. -/
theorem above_autoreboot (a : Nat) :
    applyTree.Above a aplAutoreboot ↔ a = aplRoot ∨ a = aplReboot := by
  constructor
  · intro h
    have hin : a ∈ List.range applyTable.length := by
      rw [← applyTable_linked.2.1]
      exact h.mem.1
    have hall : ∀ a ∈ List.range applyTable.length,
        applyTree.Above a aplAutoreboot → a = aplRoot ∨ a = aplReboot := by decide
    exact hall a hin h
  · rintro (rfl | rfl) <;> decide

/-- A walk stops at a row without a name only where it stops at the last one. -/
theorem named_iff (s : Applying) : Named s applyTree ↔ ¬ Needed s.flag aplAutoreboot := by
  have hmem : ∀ id, id ∈ applyTree.cut s.flag ↔ id ∈ applyTree.preorder ∧ Needed s.flag id :=
    fun id => Forest.mem_cut applyTree_nodup
  have hlen : applyTable.length = idString.length + 1 := rfl
  unfold Named
  simp only [hmem, applyTable_linked.2.1, List.mem_range, hlen]
  constructor
  · intro hnamed hneeded
    exact absurd (hnamed aplAutoreboot ⟨by decide, hneeded⟩) (by decide)
  · rintro hnot id ⟨hid, hneeded⟩
    refine Nat.lt_of_le_of_ne (Nat.le_of_lt_succ hid) fun heq => hnot ?_
    have hlast : id = aplAutoreboot := heq
    rwa [← hlast]

/-- The walk of the whole tree. -/
theorem aplHandleApplyTree_exact (dhcp : Bool) (s : Applying) {n : Nat} (hn : applyTree.size ≤ n) :
    Act.Exact s (¬ Needed s.flag aplAutoreboot) (aplHandleApplyTree succeed dhcp n aplRoot)
      (Walked s applyTree) := by
  obtain ⟨s₁, hstop, hflag, hcalls⟩ := stopMdns_flag dhcp s
  have hin : ∀ j ∈ applyTree.preorder, j < applyTable.length := by
    rw [applyTable_linked.2.1]
    exact fun j hj => List.mem_range.mp hj
  have hwalk := applyItems_exact dhcp s₁ rfl applyTable_linked.1 hin hn
  unfold Act.Exact aplHandleApplyTree
  rw [Act.bind_ok hstop]
  refine hwalk.mono ?_ ?_
  · rw [named_iff, hflag]
  · rintro r s' ⟨hr, hf, hc⟩
    exact ⟨hr, hf.trans hflag, by rw [hc, hcalls, hflag]⟩

/-- **Every set of flags is applied** as the tree says, but for those that leave the last row to
itself: the log has no name for it. -/
theorem applyTree_iff (dhcp : Bool) (s : Applying) :
    AppliesOnce dhcp s ↔
      (s.flag aplAutoreboot = true → s.flag aplReboot = true ∨ s.flag aplRoot = true) := by
  have hcond : (s.flag aplAutoreboot = true → s.flag aplReboot = true ∨ s.flag aplRoot = true) ↔
      ¬ Needed s.flag aplAutoreboot := by
    simp only [Needed, above_autoreboot, forall_eq_or_imp, forall_eq]
    cases s.flag aplAutoreboot <;> cases s.flag aplReboot <;> cases s.flag aplRoot <;> simp
  rw [hcond]
  constructor
  · rintro ⟨rows, hwalk, -⟩ hneeded
    obtain ⟨s', -, hrun⟩ := hwalk applyTree.size le_rfl
    obtain ⟨hnot, -⟩ | ⟨-, e, he⟩ := aplHandleApplyTree_exact dhcp s (le_refl applyTree.size)
    · exact hnot hneeded
    · rw [hrun] at he
      cases he
  · intro hnot
    refine ⟨(applyTree.cut s.flag).filterMap called, fun n hn => ?_, ?_, fun row => ?_⟩
    · obtain ⟨-, r, hr, rfl, -, hcalls⟩ | ⟨hno, -⟩ := aplHandleApplyTree_exact dhcp s hn
      · exact ⟨_, hcalls, Prod.ext hr rfl⟩
      · exact absurd hnot hno
    · exact (map_id_called _).trans (Forest.cut_sublist applyTree)
    · simp only [List.mem_filterMap, called_eq_some, Forest.mem_cut applyTree_nodup]
      constructor
      · rintro ⟨id, ⟨-, hneeded⟩, hrow, hh, rfl⟩
        exact ⟨hrow, hh, hneeded⟩
      · rintro ⟨hrow, hh, hneeded⟩
        refine ⟨row.id, ⟨?_, hneeded⟩, hrow, hh, rfl⟩
        rw [applyTable_linked.2.1, ← applyTable_linked.2.2]
        exact List.mem_map_of_mem hrow

/-- Only the automatic reboot has changed. -/
def autorebootFlagged : Applying :=
  { flag := fun id => decide (id = aplAutoreboot), mdnsStopped := false, calls := [] }

theorem autoreboot_outside :
    ¬ AppliesOnce false autorebootFlagged ∧
      (aplHandleApplyTree succeed false applyTree.size aplRoot autorebootFlagged).1 =
        .error (.outside .idString) := by
  have hrun : (aplHandleApplyTree succeed false applyTree.size aplRoot autorebootFlagged).1 =
      .error (.outside .idString) := by decide +kernel
  refine ⟨?_, hrun⟩
  rintro ⟨rows, hwalk, -⟩
  obtain ⟨s', -, hok⟩ := hwalk applyTree.size le_rfl
  have hcontra := (congrArg Prod.fst hok).symm.trans hrun
  cases hcontra

end Wap4410n.Apply
