import PhxQueue.Comm.Utils
import PhxQueue.Lib.Run
import Mathlib.Data.Int.CardIntervalMod

/-!
# The homes of paxos groups

`KeepMasterThread` of `store/keepmasterthread.cpp` and of `lock/keepmasterthread.cpp`, which do the same,
and what `Execute` of `StoreSM` and `LockSM` does with the master that a value names.  A replica drops a
group if its master rate is too low for it, and proposes itself as master of the groups whose number gives
its place in the list of addresses; a replica that executes such a value of another one drops the group.

* `startRound`, `keep`    `AdjustMasterRate` and `KeepMaster`, one paxos group at a time;
* `execute`               the part of `Execute`;
* `replicas`              the replicas of a store or a lock, with what phxpaxos does by itself;
* `home`                  the address whose place a group gives;
* `home_stays`            **once it is master, the home of a group remains so**;
* `count_home`            the groups are spread evenly.
-/

set_option linter.unusedSectionVars false

namespace PhxQueue.Comm.KeepMasterThread
open Lib Lib.Machine

/-- A round of `KeepMaster`: the place of the address in the list, the length of the list, and the group
it has come to. -/
structure Round where
  idx : ℕ
  size : ℕ
  group : ℕ
deriving DecidableEq

/-- A replica; `started` says if `GetNode()` gives a node, and `next` is what it executes next. -/
structure Node where
  masterRate : ℤ := 0
  started : Bool := false
  next : ℕ → ℕ := fun _ => 0
  round : Option Round := none

/-- The replicas, the masters that the chosen values of each group name, those that have been proposed,
and what phxpaxos keeps: the master of each group, and who has been told to drop it. -/
structure World where
  node : ProtoAddr → Node := fun _ => {}
  log : ℕ → List (Option ProtoAddr) := fun _ => []
  proposed : List (ℕ × ProtoAddr) := []
  master : ℕ → Option ProtoAddr := fun _ => none
  dropping : ProtoAddr → ℕ → Bool := fun _ _ => false

inductive Event
  /-- A round begins: what `AdjustMasterRate` and then `KeepMaster` read. -/
  | startRound (a : ProtoAddr) (rate : Option ℤ) (addrs : Option (List ProtoAddr))
  /-- The round goes on with its next group; `needDrop` is what `NeedDropMaster` returns. -/
  | keep (a : ProtoAddr) (needDrop : Bool)
  /-- A master that has been proposed is chosen, however late. -/
  | choose (g : ℕ) (a : ProtoAddr)
  | chooseOther (g : ℕ)
  | execute (a : ProtoAddr) (g : ℕ)
  /-- The process restarts, to execute from `next` on; `GetNode()` gives no node yet. -/
  | restart (a : ProtoAddr) (rate : ℤ) (next : ℕ → ℕ)
  | start (a : ProtoAddr)
  /-- phxpaxos makes a replica master. -/
  | elect (g : ℕ) (a : ProtoAddr)
  /-- The lease of a master ends, which has not renewed it. -/
  | lapse (g : ℕ)
  /-- A replica that has been told to drop a group may become master again. -/
  | resume (a : ProtoAddr) (g : ℕ)

namespace World

def setNode (w : World) (a : ProtoAddr) (x : Node) : World :=
  { w with node := Function.update w.node a x }

/-- `DropMaster`. -/
def drop (w : World) (a : ProtoAddr) (g : ℕ) : World :=
  { w with dropping := Function.update w.dropping a (Function.update (w.dropping a) g true) }

def propose (w : World) (a : ProtoAddr) (g : ℕ) : World := { w with proposed := (g, a) :: w.proposed }

def append (w : World) (g : ℕ) (v : Option ProtoAddr) : World :=
  { w with log := Function.update w.log g (w.log g ++ [v]) }

def setMaster (w : World) (g : ℕ) (m : Option ProtoAddr) : World :=
  { w with master := Function.update w.master g m }

/-- `AdjustMasterRate`, and `KeepMaster` up to its loop. -/
def startRound (w : World) (a : ProtoAddr) (rate : Option ℤ) (addrs : Option (List ProtoAddr)) : World :=
  let x := w.node a
  if x.started ∧ x.round = none then
    w.setNode a { x with
      masterRate := rate.getD x.masterRate
      round := addrs.bind fun addrs => (addrs.idxOf? a).map fun idx => ⟨idx, addrs.length, 0⟩ }
  else w

/-- The loop body of `KeepMaster`; `tooLow` compares the percentage of a group with the rate. -/
def keep (ngroup : ℕ) (tooLow : ℕ → ℤ → Bool) (w : World) (a : ProtoAddr) (needDrop : Bool) : World :=
  let x := w.node a
  match x.round with
  | none => w
  | some r =>
    if r.group < ngroup then
      let w := w.setNode a { x with round := some { r with group := r.group + 1 } }
      if tooLow r.group x.masterRate then w.drop a r.group
      else if needDrop then w.drop a r.group
      else if w.master r.group = some a then w
      else if r.idx ≠ r.group % r.size then w
      else w.propose a r.group
    else w.setNode a { x with round := none }

/-- What `Execute` does with the next instance of a group. -/
def execute (w : World) (a : ProtoAddr) (g : ℕ) : World :=
  let x := w.node a
  match (w.log g)[x.next g]? with
  | none => w
  | some v =>
    let w := w.setNode a { x with next := Function.update x.next g (x.next g + 1) }
    match v with
    | none => w
    | some m => if a ≠ m ∧ x.started then w.drop a g else w

/-- One step; an event that is not due changes nothing. -/
def step (ngroup : ℕ) (tooLow : ℕ → ℤ → Bool) (w : World) : Event → World
  | .startRound a rate addrs => w.startRound a rate addrs
  | .keep a needDrop => w.keep ngroup tooLow a needDrop
  | .choose g a => if (g, a) ∈ w.proposed then w.append g (some a) else w
  | .chooseOther g => w.append g none
  | .execute a g => w.execute a g
  | .restart a rate next => w.setNode a { masterRate := rate, next }
  | .start a => w.setNode a { w.node a with started := true }
  | .elect g a => w.setMaster g (some a)
  | .lapse g => w.setMaster g none
  | .resume a g =>
    if w.master g = some a then w
    else { w with dropping := Function.update w.dropping a (Function.update (w.dropping a) g false) }

end World

/-- The replicas of a store or a lock with so many paxos groups. -/
def replicas (ngroup : ℕ) (tooLow : ℕ → ℤ → Bool) : Machine World Event where
  init := {}
  step := World.step ngroup tooLow

/-! ## Homes -/

/-- The address whose place in the list the group gives. -/
def home (addrs : List ProtoAddr) (g : ℕ) : Option ProtoAddr := addrs[g % addrs.length]?

/-- Rounds read one list of addresses, if they can. -/
def OneList (addrs : List ProtoAddr) : Event → Prop
  | .startRound _ _ read => ∀ l ∈ read, l = addrs
  | _ => True

/-- phxpaxos makes a replica master only where there is none, and not one that is not running or has been
told to drop the group. -/
def OneMaster (w : World) : Event → Prop
  | .elect g a => w.master g = none ∧ (w.node a).started = true ∧ w.dropping a g = false
  | _ => True

/-- A master renews its lease, unless it has been told to drop the group or is not running. -/
def Renews (w : World) : Event → Prop
  | .lapse g => ∀ m ∈ w.master g, w.dropping m g = true ∨ (w.node m).started = false
  | _ => True

/-- The replica goes on running, and its rounds do not drop the group. -/
def KeepsGroup (tooLow : ℕ → ℤ → Bool) (a : ProtoAddr) (g : ℕ) (w : World) : Event → Prop
  | .keep a' needDrop => a' = a → ∀ r ∈ (w.node a).round, r.group = g →
      tooLow g (w.node a).masterRate = false ∧ needDrop = false
  | .restart a' _ _ => a' ≠ a
  | _ => True

/-- Whoever proposes itself for a group is the home of the group. -/
structure Inv (addrs : List ProtoAddr) (w : World) : Prop where
  rounds : ∀ a r, (w.node a).round = some r → addrs[r.idx]? = some a ∧ r.size = addrs.length
  proposed : ∀ g a, (g, a) ∈ w.proposed → home addrs g = some a
  log : ∀ g a, some a ∈ w.log g → home addrs g = some a

/-- The home is master, and nobody has told it to drop the group. -/
structure Stays (addrs : List ProtoAddr) (a : ProtoAddr) (g : ℕ) (w : World) : Prop where
  inv : Inv addrs w
  master : w.master g = some a
  kept : w.dropping a g = false
  started : (w.node a).started = true

section
variable {ngroup : ℕ} {tooLow : ℕ → ℤ → Bool} {addrs : List ProtoAddr} {w : World} {a b : ProtoAddr}
  {g g' : ℕ}

/-! ## The parts of the state -/

namespace World

lemma setNode_node (x : Node) : (w.setNode b x).node a = if a = b then x else w.node a :=
  Function.update_apply _ _ _ _

@[simp] lemma setNode_log (x : Node) : (w.setNode b x).log = w.log := rfl

@[simp] lemma setNode_proposed (x : Node) : (w.setNode b x).proposed = w.proposed := rfl

@[simp] lemma setNode_master (x : Node) : (w.setNode b x).master = w.master := rfl

@[simp] lemma setNode_dropping (x : Node) : (w.setNode b x).dropping = w.dropping := rfl

@[simp] lemma drop_node : (w.drop b g').node = w.node := rfl

@[simp] lemma drop_master : (w.drop b g').master = w.master := rfl

lemma drop_dropping (hne : ¬ (b = a ∧ g' = g)) : (w.drop b g').dropping a g = w.dropping a g := by
  show Function.update w.dropping b (Function.update (w.dropping b) g' true) a g = _
  by_cases hb : a = b
  · subst hb
    rw [Function.update_self, Function.update_of_ne]
    rintro rfl
    exact hne ⟨rfl, rfl⟩
  · rw [Function.update_of_ne hb]

lemma mem_append {v : Option ProtoAddr} {m : Option ProtoAddr} (hm : m ∈ (w.append g' v).log g) :
    m ∈ w.log g ∨ (m = v ∧ g = g') := by
  change m ∈ Function.update w.log g' (w.log g' ++ [v]) g at hm
  by_cases hg : g = g'
  · subst hg
    rw [Function.update_self, List.mem_append, List.mem_singleton] at hm
    exact hm.imp_right fun hm => ⟨hm, rfl⟩
  · rw [Function.update_of_ne hg] at hm
    exact .inl hm

end World

/-! ## Proposals -/

namespace Inv

lemma init : Inv addrs (replicas ngroup tooLow).init where
  rounds a r h := by cases h
  proposed g a h := by cases h
  log g a h := by cases h

lemma of_same {w' : World} (h : Inv addrs w) (hnode : w'.node = w.node)
    (hproposed : w'.proposed = w.proposed) (hlog : w'.log = w.log) : Inv addrs w' where
  rounds := hnode ▸ h.rounds
  proposed := hproposed ▸ h.proposed
  log := hlog ▸ h.log

lemma setNode (h : Inv addrs w) {x : Node}
    (hx : ∀ r, x.round = some r → addrs[r.idx]? = some b ∧ r.size = addrs.length) :
    Inv addrs (w.setNode b x) where
  rounds a r hr := by
    rw [World.setNode_node] at hr
    split at hr
    · rename_i heq
      subst heq
      exact hx r hr
    · exact h.rounds a r hr
  proposed := h.proposed
  log := h.log

lemma append (h : Inv addrs w) {v : Option ProtoAddr} (hv : ∀ a ∈ v, home addrs g = some a) :
    Inv addrs (w.append g v) where
  rounds := h.rounds
  proposed := h.proposed
  log g₁ a ha := by
    rcases World.mem_append ha with hold | ⟨hnew, rfl⟩
    · exact h.log g₁ a hold
    · exact hv a hnew.symm

lemma startRound (h : Inv addrs w) {rate : Option ℤ} {read : Option (List ProtoAddr)}
    (hread : ∀ l ∈ read, l = addrs) : Inv addrs (w.startRound b rate read) := by
  unfold World.startRound
  dsimp only
  split
  · refine h.setNode fun r hr => ?_
    obtain ⟨l, hl, hplace⟩ := Option.bind_eq_some_iff.mp hr
    obtain ⟨idx, hidx, rfl⟩ := Option.map_eq_some_iff.mp hplace
    obtain rfl := hread l hl
    obtain ⟨hlt, heq, -⟩ := List.idxOf?_eq_some_iff.mp hidx
    exact ⟨List.getElem?_eq_some_iff.mpr ⟨hlt, heq⟩, rfl⟩
  · exact h

lemma keep (h : Inv addrs w) (needDrop : Bool) : Inv addrs (w.keep ngroup tooLow b needDrop) := by
  unfold World.keep
  dsimp only
  split
  · exact h
  · rename_i r hround
    have hr := h.rounds b r hround
    split
    · have hnext : Inv addrs (w.setNode b
          { w.node b with round := some { r with group := r.group + 1 } }) := by
        refine h.setNode fun r' hr' => ?_
        cases hr'
        exact hr
      split_ifs with hlow hdrop hmaster hplace
      · exact hnext.of_same rfl rfl rfl
      · exact hnext.of_same rfl rfl rfl
      · exact hnext
      · exact hnext
      · refine ⟨hnext.rounds, fun g a hmem => ?_, hnext.log⟩
        rcases List.mem_cons.mp hmem with heq | hmem
        · -- its place is the one that the group gives
          cases heq
          unfold home
          rw [← hr.2, ← not_not.mp hplace]
          exact hr.1
        · exact h.proposed g a hmem
    · exact h.setNode fun r' hr' => by cases hr'

lemma execute (h : Inv addrs w) : Inv addrs (w.execute b g) := by
  unfold World.execute
  dsimp only
  split
  · exact h
  · have hnext : Inv addrs (w.setNode b { w.node b with
        next := Function.update (w.node b).next g ((w.node b).next g + 1) }) :=
      h.setNode (h.rounds b)
    split
    · exact hnext
    · split
      · exact hnext.of_same rfl rfl rfl
      · exact hnext

theorem step (h : Inv addrs w) {e : Event} (he : OneList addrs e) :
    Inv addrs (w.step ngroup tooLow e) := by
  cases e with
  | startRound a rate read => exact h.startRound he
  | keep a needDrop => exact h.keep needDrop
  | choose g a =>
    show Inv addrs (if (g, a) ∈ w.proposed then w.append g (some a) else w)
    split
    · rename_i hmem
      refine h.append fun a' ha' => ?_
      cases ha'
      exact h.proposed g a hmem
    · exact h
  | chooseOther g => exact h.append fun a ha => by cases ha
  | execute a g => exact h.execute
  | restart a rate next => exact h.setNode fun r hr => by cases hr
  | start a => exact h.setNode (h.rounds a)
  | elect g a => exact h.of_same rfl rfl rfl
  | lapse g => exact h.of_same rfl rfl rfl
  | resume a g =>
    show Inv addrs (if _ then w else _)
    split
    · exact h
    · exact h.of_same rfl rfl rfl

end Inv

/-! ## The home -/

namespace Stays

lemma of_same {w' : World} (h : Stays addrs a g w) (hinv : Inv addrs w')
    (hmaster : w'.master g = w.master g) (hkept : w'.dropping a g = w.dropping a g)
    (hstarted : (w.node a).started → (w'.node a).started = true) : Stays addrs a g w' :=
  ⟨hinv, hmaster.trans h.master, hkept.trans h.kept, hstarted h.started⟩

lemma setNode (h : Stays addrs a g w) {x : Node} (hinv : Inv addrs (w.setNode b x))
    (hx : a = b → x.started = true) : Stays addrs a g (w.setNode b x) := by
  refine h.of_same hinv rfl rfl fun hstarted => ?_
  rw [World.setNode_node]
  split
  · rename_i heq
    exact hx heq
  · exact hstarted

lemma keep (h : Stays addrs a g w) {needDrop : Bool}
    (he : b = a → ∀ r ∈ (w.node a).round, r.group = g →
      tooLow g (w.node a).masterRate = false ∧ needDrop = false) :
    Stays addrs a g (w.keep ngroup tooLow b needDrop) := by
  have hinv : Inv addrs (w.keep ngroup tooLow b needDrop) := h.inv.keep needDrop
  unfold World.keep at hinv ⊢
  dsimp only at hinv ⊢
  split at hinv
  · exact h
  · rename_i r hround
    split at hinv
    · rename_i hlt
      rw [if_pos hlt]
      have hnode (x : Node) (hx : x.started = (w.node b).started) :
          (w.node a).started → ((w.setNode b x).node a).started = true := by
        intro hstarted
        rw [World.setNode_node]
        split
        · rename_i heq
          subst heq
          exact hx.trans hstarted
        · exact hstarted
      -- the home does not drop the group
      have hother (hcause : tooLow r.group (w.node b).masterRate = true ∨ needDrop = true) :
          ¬ (b = a ∧ r.group = g) := by
        rintro ⟨rfl, rfl⟩
        obtain ⟨hlow, hdrop⟩ := he rfl r hround rfl
        rw [hlow, hdrop] at hcause
        rcases hcause with hcause | hcause <;> cases hcause
      split_ifs at hinv ⊢ with hlow hdrop hmaster hplace
      · exact h.of_same hinv rfl (World.drop_dropping (hother (.inl hlow))) (hnode _ rfl)
      · exact h.of_same hinv rfl (World.drop_dropping (hother (.inr hdrop))) (hnode _ rfl)
      · exact h.of_same hinv rfl rfl (hnode _ rfl)
      · exact h.of_same hinv rfl rfl (hnode _ rfl)
      · exact h.of_same hinv rfl rfl (hnode _ rfl)
    · rename_i hlt
      rw [if_neg hlt]
      exact h.setNode hinv fun heq => heq ▸ h.started

/-- A value that names another master than the home is not of this group. -/
lemma execute (hhome : home addrs g = some a) (h : Stays addrs a g w) :
    Stays addrs a g (w.execute b g') := by
  have hinv : Inv addrs (w.execute b g') := h.inv.execute
  unfold World.execute at hinv ⊢
  dsimp only at hinv ⊢
  split at hinv
  · exact h
  · rename_i v hv
    have hnext : Stays addrs a g (w.setNode b { w.node b with
        next := Function.update (w.node b).next g' ((w.node b).next g' + 1) }) :=
      h.setNode (h.inv.setNode (h.inv.rounds b)) fun heq => heq ▸ h.started
    split
    · exact hnext
    · rename_i m
      split
      · rename_i hother
        refine hnext.of_same (hnext.inv.of_same rfl rfl rfl) rfl (World.drop_dropping ?_) fun hs => hs
        rintro ⟨rfl, rfl⟩
        have hm := h.inv.log g' m (List.mem_of_getElem? hv)
        rw [hhome] at hm
        exact hother.1 (Option.some.inj hm)
      · exact hnext

theorem step (hhome : home addrs g = some a) (h : Stays addrs a g w) {e : Event}
    (hlist : OneList addrs e) (hone : OneMaster w e) (hrenews : Renews w e)
    (he : KeepsGroup tooLow a g w e) :
    Stays addrs a g (w.step ngroup tooLow e) := by
  have hinv : Inv addrs (w.step ngroup tooLow e) := h.inv.step hlist
  cases e with
  | startRound b rate read =>
    show Stays addrs a g (w.startRound b rate read)
    change Inv addrs (w.startRound b rate read) at hinv
    unfold World.startRound at hinv ⊢
    dsimp only at hinv ⊢
    split at hinv
    · rename_i hcond
      rw [if_pos hcond]
      exact h.setNode hinv fun heq => heq ▸ h.started
    · rename_i hcond
      rw [if_neg hcond]
      exact h
  | keep b needDrop => exact h.keep he
  | choose g' b =>
    show Stays addrs a g (if (g', b) ∈ w.proposed then w.append g' (some b) else w)
    change Inv addrs (if (g', b) ∈ w.proposed then w.append g' (some b) else w) at hinv
    split at hinv
    · rename_i hmem
      rw [if_pos hmem]
      exact h.of_same hinv rfl rfl fun hs => hs
    · rename_i hmem
      rw [if_neg hmem]
      exact h
  | chooseOther g' => exact h.of_same hinv rfl rfl fun hs => hs
  | execute b g' => exact h.execute hhome
  | restart b rate next => exact h.setNode hinv fun heq => absurd heq.symm he
  | start b => exact h.setNode hinv fun _ => rfl
  | elect g' b =>
    refine h.of_same hinv ?_ rfl fun hs => hs
    refine Function.update_of_ne ?_ _ _
    rintro rfl
    -- there is a master
    have hnone := hone.1
    rw [h.master] at hnone
    cases hnone
  | lapse g' =>
    refine h.of_same hinv ?_ rfl fun hs => hs
    refine Function.update_of_ne ?_ _ _
    rintro rfl
    -- the home renews its lease
    rcases hrenews a h.master with hdrop | hstop
    · rw [h.kept] at hdrop
      cases hdrop
    · rw [h.started] at hstop
      cases hstop
  | resume b g' =>
    show Stays addrs a g (if _ then w else _)
    split
    · exact h
    · refine h.of_same (h.inv.of_same rfl rfl rfl) rfl ?_ fun hs => hs
      show Function.update w.dropping b (Function.update (w.dropping b) g' false) a g = w.dropping a g
      by_cases hb : a = b
      · subst hb
        rw [Function.update_self]
        by_cases hg : g = g'
        · subst hg
          rw [Function.update_self, h.kept]
        · rw [Function.update_of_ne hg]
      · rw [Function.update_of_ne hb]

end Stays

end

/-- **Once it is master, the home of a group remains so.**  The replicas have made any rounds, with one list
of addresses.  The home of a group has become master, and has not been told to drop the group.  As long as
it goes on running and its own rounds do not drop the group, it stays master, whatever the other replicas
propose, whatever is chosen, however late, and whoever executes it.  Of phxpaxos this needs `OneMaster` and
`Renews`. -/
theorem home_stays (ngroup : ℕ) (tooLow : ℕ → ℤ → Bool) (addrs : List ProtoAddr)
    (before after : List Event) (hlists : ∀ e ∈ before ++ after, OneList addrs e) (a : ProtoAddr) (g : ℕ)
    (hhome : home addrs g = some a) (w : World)
    (hw : w = (replicas ngroup tooLow).exec (replicas ngroup tooLow).init before)
    (hmaster : w.master g = some a) (hkept : w.dropping a g = false)
    (hstarted : (w.node a).started = true)
    (hone : (replicas ngroup tooLow).Along OneMaster w after)
    (hrenews : (replicas ngroup tooLow).Along Renews w after)
    (hkeeps : (replicas ngroup tooLow).Along (KeepsGroup tooLow a g) w after) :
    ((replicas ngroup tooLow).exec w after).master g = some a ∧
      ((replicas ngroup tooLow).exec w after).dropping a g = false := by
  have hinv (w : World) (e : Event) (h : Inv addrs w) (he : OneList addrs e ∧ True) :
      Inv addrs ((replicas ngroup tooLow).step w e) := h.step he.1
  have hlists₁ : (replicas ngroup tooLow).Along (fun _ e => OneList addrs e ∧ True)
      (replicas ngroup tooLow).init before :=
    (along_of_forall (fun _ _ => trivial) _ before).and_labels fun e he =>
      hlists e (List.mem_append_left _ he)
  have hbefore : Inv addrs w := hw ▸ (Always.of_inv hinv Inv.init hlists₁).last
  have hstep (w : World) (e : Event) (h : Stays addrs a g w)
      (he : OneList addrs e ∧ OneMaster w e ∧ Renews w e ∧ KeepsGroup tooLow a g w e) :
      Stays addrs a g ((replicas ngroup tooLow).step w e) :=
    h.step hhome he.1 he.2.1 he.2.2.1 he.2.2.2
  have hlists₂ : ∀ e ∈ after, OneList addrs e := fun e he => hlists e (List.mem_append_right _ he)
  have hstart : Stays addrs a g w := ⟨hbefore, hmaster, hkept, hstarted⟩
  have hafter : Stays addrs a g ((replicas ngroup tooLow).exec w after) :=
    (Always.of_inv hstep hstart ((hone.and (hrenews.and hkeeps)).and_labels hlists₂)).last
  exact ⟨hafter.master, hafter.kept⟩

/-- Of two replicas, the home of group 0 gets it back from the other one, and keeps it. -/
theorem home_stays_two :
    let a : ProtoAddr := ⟨⟨10, 0, 0, 1⟩, 100, 101⟩
    let b : ProtoAddr := ⟨⟨10, 0, 0, 2⟩, 100, 101⟩
    let M := replicas 2 fun g rate => decide (2 * 2 * rate < 200 * (g : ℤ) + 2)
    let before := [Event.start a, .start b, .elect 0 b, .startRound a (some 100) (some [a, b]), .keep a false,
      .choose 0 a, .execute b 0, .lapse 0, .elect 0 a]
    let after := [Event.resume b 0, .startRound b (some 100) (some [a, b]), .keep b false, .execute a 0,
      .keep a false, .keep a false, .startRound a none (some [a, b]), .keep a false, .elect 1 b]
    (M.exec (M.exec M.init before) after).master 0 = some a ∧
      (M.exec (M.exec M.init before) after).dropping a 0 = false :=
  home_stays 2 (fun g rate => decide (2 * 2 * rate < 200 * (g : ℤ) + 2))
    [⟨⟨10, 0, 0, 1⟩, 100, 101⟩, ⟨⟨10, 0, 0, 2⟩, 100, 101⟩] _ _
    (by simp [OneList]) ⟨⟨10, 0, 0, 1⟩, 100, 101⟩ 0 rfl _ rfl (by decide) (by decide) (by decide)
    ⟨trivial, trivial, trivial, trivial, trivial, trivial, trivial, trivial,
      ⟨by decide, by decide, by decide⟩, trivial⟩
    ⟨trivial, trivial, trivial, trivial, trivial, trivial, trivial, trivial, trivial, trivial⟩
    ⟨trivial, trivial, fun h => absurd h (by decide), trivial, fun _ => by decide, fun _ => by decide,
      trivial, fun _ => by decide, trivial, trivial⟩

/-- **The groups are spread evenly**: of the homes of any two replicas, one has at most one more. -/
theorem count_home {addrs : List ProtoAddr} (hnodup : addrs.Nodup) {idx : ℕ} (hidx : idx < addrs.length)
    (ngroup : ℕ) :
    Nat.count (fun g => home addrs g = some addrs[idx]) ngroup =
      ngroup / addrs.length + if idx < ngroup % addrs.length then 1 else 0 := by
  have hpos : 0 < addrs.length := idx.zero_le.trans_lt hidx
  have hplace (g : ℕ) : home addrs g = some addrs[idx] ↔ g ≡ idx [MOD addrs.length] := by
    have hlt : g % addrs.length < addrs.length := Nat.mod_lt g hpos
    unfold home Nat.ModEq
    rw [List.getElem?_eq_getElem hlt, Nat.mod_eq_of_lt hidx, Option.some.injEq, hnodup.getElem_inj_iff]
  calc Nat.count (fun g => home addrs g = some addrs[idx]) ngroup
      = Nat.count (fun g => g ≡ idx [MOD addrs.length]) ngroup := by simp only [hplace]
    _ = ngroup / addrs.length + if idx % addrs.length < ngroup % addrs.length then 1 else 0 :=
        Nat.count_modEq_card ngroup hpos idx
    _ = _ := by rw [Nat.mod_eq_of_lt hidx]

end PhxQueue.Comm.KeepMasterThread
