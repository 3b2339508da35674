import PhxQueue.Comm.FindMaster

/-!
# Checking the master

`CheckMaster` of `store/store.cpp` and of `lock/lock.cpp`, which do the same, and the calls of a client to
the replicas of a store or a lock, one after another, with what is cached.  In a configuration whose checks
pass, a replica and its clients look at the same list of addresses.

* `getById`, `getByAddr`   the lookups of `config/storeconfig.cpp` and of `config/lockconfig.cpp`;
* `checkMaster`     what a replica answers, by what its node says of the group;
* `Settled`         one replica is master, and the others that answer name it or nobody;
* `answer_cases`    then whoever is not master redirects to the master, or not at all;
* `calls_served`    **every call of a client is served, whatever it had cached, and all but the first and
                    those that find an expired entry by one RPC**.
-/

set_option linter.unusedSectionVars false

namespace PhxQueue.Comm.CheckMaster

/-! ## Addresses -/

/-- `comm::proto::Addr`, with its paxos port. -/
structure PaxosAddr extends Addr where
  paxosPort : ℤ := 0
deriving DecidableEq

/-- `config::proto::Store` or `config::proto::Lock`, as far as it is read. -/
structure Place where
  id : ℤ
  addrs : List PaxosAddr
deriving DecidableEq

/-- The errors of the lookups, `RET_ERR_RANGE_ADDR` and `RET_ERR_RANGE_STORE` or `RET_ERR_RANGE_LOCK`. -/
structure RangeErrors where
  addr : RetCode
  id : RetCode

section
variable (errs : RangeErrors) (places : List Place)

/-- `GetStoreByStoreID` and `GetLockByLockID`; the first entry of an id counts, and id 0 is not read. -/
def getById (id : ℤ) : Except RetCode Place :=
  match places.find? fun p => p.id ≠ 0 ∧ p.id = id with
  | none => .error errs.id
  | some p => .ok p

/-- `GetStoreByAddr` and `GetLockByAddr`; the first entry of an address counts. -/
def getByAddr (addr : PaxosAddr) : Except RetCode Place :=
  match places.find? fun p => p.id ≠ 0 ∧ addr ∈ p.addrs with
  | none => .error errs.addr
  | some p => getById errs places p.id

/-- What `Rebuild` asserts of the addresses. -/
def Checked : Prop := ((places.filter fun p => p.id ≠ 0).flatMap Place.addrs).Nodup

end

/-- No two replicas listen at one port. -/
structure Place.Ports (p : Place) : Prop where
  port : ∀ a ∈ p.addrs, ∀ b ∈ p.addrs, a.toAddr = b.toAddr → a = b
  paxosPort : ∀ a ∈ p.addrs, ∀ b ∈ p.addrs, a.ip = b.ip → a.paxosPort = b.paxosPort → a = b

/-! ## Answers -/

/-- `phxpaxos::NodeInfo`. -/
structure NodeInfo where
  ip : String := ""
  port : ℤ := 0
deriving DecidableEq

/-- What the node of a replica says of a group: `IsIMMaster` and `GetMaster`. -/
structure View where
  isIMMaster : Bool := false
  master : NodeInfo := {}
deriving DecidableEq

/-- `GetMaster` has found no master. -/
def NodeInfo.nobody (n : NodeInfo) : Prop := n.ip = "" ∨ n.port = 0 ∨ n.ip = "0.0.0.0"

instance (n : NodeInfo) : Decidable n.nobody := inferInstanceAs (Decidable (_ ∨ _ ∨ _))

/-- `CheckMaster` of the replica at an address; `config` is what `GetStoreConfig` or `GetLockConfig` gives. -/
def checkMaster (errs : RangeErrors) (config : Except RetCode (List Place)) (addr : PaxosAddr)
    (view : View) : RpcReply :=
  if view.isIMMaster then { ret := .ok }
  else if view.master.nobody then { ret := .errNoMaster }
  else match config with
  | .error ret => { ret }
  | .ok places =>
    match getByAddr errs places addr with
    | .error ret => { ret }
    | .ok place =>
      match place.addrs.find? fun a => a.ip = view.master.ip ∧ a.paxosPort = view.master.port with
      | some a => { ret := .errNotMaster, redirect := a.toAddr }
      | none => { ret := errs.addr }

/-- What a client gets from an address for a request that the master serves, where the replicas can read the
configuration; `silent` is what it gets where no replica answers. -/
def answer (errs : RangeErrors) (places : List Place) (place : Place) (view : PaxosAddr → Option View)
    (silent : Addr → RetCode) (x : Addr) : RpcReply :=
  match place.addrs.find? fun a => a.toAddr = x with
  | none => { ret := silent x }
  | some a =>
    match view a with
    | none => { ret := silent x }
    | some v => checkMaster errs (.ok places) a v

/-- One replica is master, and each other that answers names it or nobody. -/
structure Settled (place : Place) (view : PaxosAddr → Option View) (m : PaxosAddr) : Prop where
  mem : m ∈ place.addrs
  master : ∃ v, view m = some v ∧ v.isIMMaster = true
  others : ∀ a ∈ place.addrs, a ≠ m → ∀ v ∈ view a, v.isIMMaster = false ∧
    (v.master.nobody ∨ v.master = ⟨m.ip, m.paxosPort⟩)

/-- A call of a client: the random number that it uses, and if the entry of the cache has run out of time. -/
structure Turn where
  rand : ℕ
  expired : Bool := false

/-- The calls of a client, and what is cached before the first. -/
def calls (reply : Addr → RpcReply) (addrs : List Addr) : Option Addr → List Turn → List ClientState
  | _, [] => []
  | cached, turn :: turns =>
    -- `GetAddrFromCache`
    let cached := if turn.expired then none else cached
    let s := clientCall (fixedReplies reply addrs cached turn.rand)
    s :: calls reply addrs s.cache turns

/-! ## One list of addresses -/

section
variable {errs : RangeErrors} {places : List Place} {place : Place} {view : PaxosAddr → Option View}
  {m : PaxosAddr}

theorem getByAddr_eq (hchecked : Checked places) {id : ℤ} (hplace : getById errs places id = .ok place)
    {a : PaxosAddr} (ha : a ∈ place.addrs) : getByAddr errs places a = .ok place := by
  obtain ⟨hid, hmem⟩ : (place.id ≠ 0 ∧ place.id = id) ∧ place ∈ places := by
    unfold getById at hplace
    split at hplace
    · cases hplace
    · rename_i p hp
      cases hplace
      have hid := List.find?_some hp
      exact ⟨of_decide_eq_true hid, List.mem_of_find?_eq_some hp⟩
  have hread {p : Place} (hp : p ∈ places) (h0 : p.id ≠ 0) :
      p ∈ places.filter fun p => p.id ≠ 0 := List.mem_filter.mpr ⟨hp, decide_eq_true h0⟩
  unfold getByAddr
  split
  · rename_i hnone
    have hno := List.find?_eq_none.mp hnone place hmem
    exact absurd (decide_eq_true ⟨hid.1, ha⟩) hno
  · rename_i p hp
    have hin := List.find?_some hp
    obtain ⟨h0, hap⟩ := of_decide_eq_true hin
    -- the address is in one entry only
    have heq : p = place := by
      by_contra hne
      have hsymm : Std.Symm (Function.onFun List.Disjoint Place.addrs) := ⟨fun _ _ h => h.symm⟩
      have hdisj := (List.nodup_flatMap.mp hchecked).2.forall
        (hread (List.mem_of_find?_eq_some hp) h0) (hread hmem hid.1) hne
      exact hdisj hap ha
    rw [heq, hid.2]
    exact hplace

/-! ## Settled replicas -/

lemma checkMaster_of_nobody {a : PaxosAddr} {v : View} (hv : v.isIMMaster = false)
    (hno : v.master.nobody) : checkMaster errs (.ok places) a v = { ret := .errNoMaster } := by
  unfold checkMaster
  rw [hv, if_neg Bool.false_ne_true, if_pos hno]

lemma checkMaster_of_named (hports : place.Ports) (hm : m ∈ place.addrs) {a : PaxosAddr}
    (hfound : getByAddr errs places a = .ok place) {v : View} (hv : v.isIMMaster = false)
    (hyes : ¬ v.master.nobody) (hnames : v.master = ⟨m.ip, m.paxosPort⟩) :
    checkMaster errs (.ok places) a v = { ret := .errNotMaster, redirect := m.toAddr } := by
  unfold checkMaster
  rw [hv, if_neg Bool.false_ne_true, if_neg hyes]
  dsimp only
  rw [hfound]
  dsimp only
  split
  · rename_i b hb
    have hat := List.find?_some hb
    obtain ⟨hip, hport⟩ := of_decide_eq_true hat
    rw [hnames] at hip hport
    have heq : b = m := hports.paxosPort b (List.mem_of_find?_eq_some hb) m hm hip hport
    rw [heq]
  · rename_i hnone
    have hno := List.find?_eq_none.mp hnone m hm
    rw [hnames] at hno
    exact absurd (decide_eq_true ⟨rfl, rfl⟩) hno

variable (silent : Addr → RetCode)

theorem answer_cases (hports : place.Ports) (hfound : ∀ a ∈ place.addrs, getByAddr errs places a = .ok place)
    (hsettled : Settled place view m) (x : Addr) (hx : x ≠ m.toAddr) :
    answer errs places place view silent x = { ret := silent x } ∨
      answer errs places place view silent x = { ret := .errNoMaster } ∨
      answer errs places place view silent x = { ret := .errNotMaster, redirect := m.toAddr } := by
  unfold answer
  split
  · exact .inl rfl
  · rename_i a ha
    have hmem : a ∈ place.addrs := List.mem_of_find?_eq_some ha
    have hat := List.find?_some ha
    have hne : a ≠ m := by
      rintro rfl
      exact hx (of_decide_eq_true hat).symm
    split
    · exact .inl rfl
    · rename_i v hv
      obtain ⟨himm, hnames⟩ := hsettled.others a hmem hne v hv
      by_cases hno : v.master.nobody
      · exact .inr (.inl (checkMaster_of_nobody himm hno))
      · exact .inr (.inr (checkMaster_of_named hports hsettled.mem (hfound a hmem) himm hno
          (hnames.resolve_left hno)))

/-- The replicas and the other addresses serve the requests of a client by one master. -/
lemma oneMaster_answer (hports : place.Ports)
    (hfound : ∀ a ∈ place.addrs, getByAddr errs places a = .ok place) (hsettled : Settled place view m)
    (hsilent : ∀ x, silent x = .errSys ∨ silent x = .errSvrBlock) :
    OneMaster (answer errs places place view silent) (place.addrs.map PaxosAddr.toAddr) m.toAddr where
  mem := List.mem_map_of_mem hsettled.mem
  serves := by
    obtain ⟨v, hv, himm⟩ := hsettled.master
    unfold answer
    split
    · rename_i hnone
      have hno := List.find?_eq_none.mp hnone m hsettled.mem
      exact absurd (decide_eq_true rfl) hno
    · rename_i a ha
      have hat := List.find?_some ha
      have heq : a = m := hports.port a (List.mem_of_find?_eq_some ha) m hsettled.mem
        (of_decide_eq_true hat)
      rw [heq, hv]
      dsimp only
      unfold checkMaster
      rw [if_pos himm]
  others x hx := by
    rcases answer_cases silent hports hfound hsettled x hx with heq | heq | heq
    · rw [heq]
      rcases hsilent x with hret | hret
      · exact .inr (.inr (.inr hret))
      · exact .inr (.inr (.inl hret))
    · rw [heq]
      exact .inr (.inl rfl)
    · rw [heq]
      exact .inl rfl

lemma redirectOf_answer (hports : place.Ports)
    (hfound : ∀ a ∈ place.addrs, getByAddr errs places a = .ok place) (hsettled : Settled place view m)
    (hsilent : ∀ x, silent x = .errSys ∨ silent x = .errSvrBlock) (x r : Addr)
    (hr : redirectOf (answer errs places place view silent) x = some r) : r = m.toAddr := by
  have hred : (answer errs places place view silent x).redirects := by
    by_contra hno
    rw [redirectOf_eq_none.mpr hno] at hr
    cases hr
  rw [redirectOf_of_redirects hred] at hr
  cases hr
  have hone := oneMaster_answer silent hports hfound hsettled hsilent
  by_cases hx : x = m.toAddr
  · have hret := hred.1
    rw [hx, hone.serves] at hret
    cases hret
  rcases answer_cases silent hports hfound hsettled x hx with heq | heq | heq
  · have hret := hred.1
    rw [heq] at hret
    rcases hsilent x with hs | hs
    · rw [hs] at hret
      cases hret
    · rw [hs] at hret
      cases hret
  · have hret := hred.1
    rw [heq] at hret
    cases hret
  · rw [heq]

/-! ## Calls -/

lemma callLoop_cache {reply : Addr → RpcReply} {addrs : List Addr} {master : Addr}
    (h : OneMaster reply addrs master) {cached : Option Addr} {rand : ℕ} (n i : ℕ) (a : Addr)
    (s : ClientState) (hs : 0 < n ∨ s.ret ≠ .ok)
    (hok : (callLoop (fixedReplies reply addrs cached rand) addrs n i a s).ret = .ok) :
    (callLoop (fixedReplies reply addrs cached rand) addrs n i a s).cache = some master := by
  induction n generalizing i a s with
  | zero => exact absurd hok (hs.resolve_left (Nat.lt_irrefl 0))
  | succ n ih =>
    unfold callLoop at hok ⊢
    dsimp only at hok ⊢
    rw [rpc_fixedReplies] at hok ⊢
    by_cases ha : a = master
    · subst ha
      rw [if_pos h.serves]
    have hno := h.ret_ne_ok ha
    rw [if_neg hno] at hok ⊢
    split at hok
    · rename_i hred
      rw [if_pos hred]
      exact ih _ _ _ (.inr hno) hok
    · rename_i hred
      rw [if_neg hred]
      rw [if_pos (h.others a ha)] at hok ⊢
      exact ih _ _ _ (.inr hno) hok

lemma callLoop_rets (env : CallEnv) (addrs : List Addr) (n i : ℕ) (a : Addr) (s : ClientState) :
    (callLoop env addrs n i a s).rets.length ≤ s.rets.length + n := by
  induction n generalizing i a s with
  | zero => exact le_refl _
  | succ n ih =>
    have hone : (s.rets ++ [(env.rpc s.rets.length a).ret]).length = s.rets.length + 1 :=
      List.length_append
    unfold callLoop
    dsimp only
    split
    · show (s.rets ++ [(env.rpc s.rets.length a).ret]).length ≤ _
      omega
    split
    · refine (ih _ _ _).trans ?_
      show (s.rets ++ [(env.rpc s.rets.length a).ret]).length + n ≤ _
      omega
    split
    · refine (ih _ _ _).trans ?_
      show (s.rets ++ [(env.rpc s.rets.length a).ret]).length + n ≤ _
      omega
    · show (s.rets ++ [(env.rpc s.rets.length a).ret]).length ≤ _
      omega

lemma callCached_rets (env : CallEnv) : (callCached env).rets.length ≤ 1 := by
  unfold callCached
  cases env.cached with
  | none => exact Nat.zero_le 1
  | some c =>
    dsimp only
    split_ifs <;> exact le_refl 1

/-- A call asks the cached address, and then no more addresses than there are candidates. -/
lemma clientCall_rets (env : CallEnv) : (clientCall env).rets.length ≤ env.candidates.2.length + 1 := by
  have hcached := callCached_rets env
  unfold clientCall
  dsimp only
  split_ifs
  · exact hcached.trans (Nat.le_add_left 1 _)
  · exact hcached.trans (Nat.le_add_left 1 _)
  · exact hcached.trans (Nat.le_add_left 1 _)
  · refine (callLoop_rets env _ _ _ _ _).trans ?_
    omega

def oneRpc (master : Addr) : ClientState :=
  { ret := .ok, cache := some master, rets := [.ok], returned := true }

/-- A call with the master in the cache asks nobody else. -/
lemma clientCall_master {reply : Addr → RpcReply} {addrs : List Addr} {master : Addr}
    (h : OneMaster reply addrs master) (rand : ℕ) :
    clientCall (fixedReplies reply addrs (some master) rand) = oneRpc master := by
  have hattempt : callCached (fixedReplies reply addrs (some master) rand) = oneRpc master := by
    rw [callCached_some]
    unfold cachedAttempt
    dsimp only
    rw [if_pos h.serves, h.serves]
    rfl
  unfold clientCall
  rw [hattempt]
  rfl

/-- A call that is served leaves the master in the cache. -/
lemma clientCall_cache {reply : Addr → RpcReply} {addrs : List Addr} {master : Addr}
    (h : OneMaster reply addrs master) (cached : Option Addr) (rand : ℕ)
    (hok : (clientCall (fixedReplies reply addrs cached rand)).ret = .ok) :
    (clientCall (fixedReplies reply addrs cached rand)).cache = some master := by
  by_cases hc : cached = some master
  · rw [hc, clientCall_master h]
    rfl
  have hgoes : (callCached (fixedReplies reply addrs cached rand)).returned = false := by
    cases cached with
    | none => rfl
    | some c => exact (cachedAttempt_spec h fun heq => hc (congrArg some heq)).1
  have hnil : addrs ≠ [] := List.ne_nil_of_mem h.mem
  have hcand : ¬ (fixedReplies reply addrs cached rand).candidates.1 ≠ .ok := fun hne => hne rfl
  unfold clientCall at hok ⊢
  dsimp only at hok ⊢
  rw [hgoes, if_neg Bool.false_ne_true, if_neg hcand,
    if_neg (show ¬ (fixedReplies reply addrs cached rand).candidates.2 = [] from hnil)] at hok ⊢
  exact callLoop_cache h _ _ _ _ (.inl (List.length_pos_of_ne_nil hnil)) hok

/-- The calls are all served if each of them is, whatever is cached. -/
lemma calls_ok {reply : Addr → RpcReply} {addrs : List Addr}
    (hok : ∀ cached rand, (clientCall (fixedReplies reply addrs cached rand)).ret = .ok)
    (cached : Option Addr) (turns : List Turn) : ∀ s ∈ calls reply addrs cached turns, s.ret = .ok := by
  induction turns generalizing cached with
  | nil => exact fun s hs => (List.not_mem_nil hs).elim
  | cons turn turns ih =>
    intro s hs
    unfold calls at hs
    dsimp only at hs
    rcases List.mem_cons.mp hs with rfl | hs
    · exact hok _ _
    · exact ih _ s hs

/-- After a call that was served, each takes one RPC, until the entry runs out of time. -/
lemma calls_rets {reply : Addr → RpcReply} {addrs : List Addr} {master : Addr}
    (h : OneMaster reply addrs master)
    (hok : ∀ cached rand, (clientCall (fixedReplies reply addrs cached rand)).ret = .ok)
    (turns : List Turn) :
    ((calls reply addrs (some master) turns).map fun s => s.rets.length).sum ≤
      turns.length + addrs.length * turns.countP Turn.expired := by
  induction turns with
  | nil => exact Nat.zero_le _
  | cons turn turns ih =>
    unfold calls
    dsimp only
    rw [clientCall_cache h _ _ (hok _ _), List.map_cons, List.sum_cons, List.length_cons,
      List.countP_cons]
    cases turn.expired with
    | false =>
      rw [if_neg Bool.false_ne_true, clientCall_master h, if_neg Bool.false_ne_true]
      show 1 + _ ≤ turns.length + 1 + addrs.length * turns.countP Turn.expired
      omega
    | true =>
      have hrets := clientCall_rets (fixedReplies reply addrs none turn.rand)
      change _ ≤ addrs.length + 1 at hrets
      rw [if_pos rfl, if_pos rfl, Nat.mul_add, Nat.mul_one]
      omega

end

/-- **Every call of a client is served, and all but a few by one RPC.**  The replicas of a store or a lock
have a master, which each of the others that answers names, or nobody.  Whatever a client has cached before,
an address that is not theirs any more among it, its calls all succeed, and `n` calls take at most `n` RPCs
and as many more as there are replicas, once for the first and once for each entry of the cache that has run
out of time. -/
theorem calls_served (errs : RangeErrors) (places : List Place) (hchecked : Checked places) (id : ℤ)
    (place : Place) (hplace : getById errs places id = .ok place) (hports : place.Ports)
    (view : PaxosAddr → Option View) (m : PaxosAddr) (hsettled : Settled place view m)
    (silent : Addr → RetCode) (hsilent : ∀ x, silent x = .errSys ∨ silent x = .errSvrBlock)
    (cached : Option Addr) (turns : List Turn) :
    let served := calls (answer errs places place view silent) (place.addrs.map PaxosAddr.toAddr) cached turns
    (∀ s ∈ served, s.ret = .ok) ∧
    (served.map fun s => s.rets.length).sum ≤
      turns.length + place.addrs.length * (1 + turns.countP Turn.expired) := by
  have hfound (a : PaxosAddr) (ha : a ∈ place.addrs) : getByAddr errs places a = .ok place :=
    getByAddr_eq hchecked hplace ha
  have hone := oneMaster_answer silent hports hfound hsettled hsilent
  have hok := clientCall_ok_of_redirects hone (redirectOf_answer silent hports hfound hsettled hsilent)
  refine ⟨calls_ok hok cached turns, ?_⟩
  cases turns with
  | nil => exact Nat.zero_le _
  | cons turn turns =>
    have hfirst := clientCall_rets (fixedReplies (answer errs places place view silent)
      (place.addrs.map PaxosAddr.toAddr) (if turn.expired then none else cached) turn.rand)
    have hrest := calls_rets hone hok turns
    have hexpired : turns.countP Turn.expired ≤ (turn :: turns).countP Turn.expired := by
      rw [List.countP_cons]
      exact Nat.le_add_right _ _
    change _ ≤ (place.addrs.map PaxosAddr.toAddr).length + 1 at hfirst
    rw [List.length_map] at hfirst hrest
    unfold calls
    dsimp only
    rw [clientCall_cache hone _ _ (hok _ _), List.map_cons, List.sum_cons, List.length_cons, Nat.mul_add,
      Nat.mul_one]
    have hmul := Nat.mul_le_mul_left place.addrs.length hexpired
    omega

/-- Two replicas, and a client that has cached one that is gone. -/
theorem calls_served_two :
    let a : PaxosAddr := { ip := "10.0.0.1", port := 100, paxosPort := 101 }
    let b : PaxosAddr := { ip := "10.0.0.2", port := 100, paxosPort := 101 }
    let place : Place := ⟨1, [a, b]⟩
    let view (x : PaxosAddr) : Option View :=
      if x = b then some { isIMMaster := true } else some { master := ⟨"10.0.0.2", 101⟩ }
    let gone : Addr := { ip := "10.0.0.3", port := 100 }
    let served := calls (answer ⟨.errRangeQueue, .errRangeStore⟩ [place] place view fun _ => .errSys)
      [a.toAddr, b.toAddr] (some gone) [⟨0, false⟩, ⟨5, false⟩, ⟨7, true⟩]
    (∀ s ∈ served, s.ret = .ok) ∧ (served.map fun s => s.rets.length).sum ≤ 7 :=
  calls_served ⟨.errRangeQueue, .errRangeStore⟩ _ (by unfold Checked; decide) 1
    ⟨1, [{ ip := "10.0.0.1", port := 100, paxosPort := 101 },
      { ip := "10.0.0.2", port := 100, paxosPort := 101 }]⟩ rfl ⟨by decide, by decide⟩ _
    { ip := "10.0.0.2", port := 100, paxosPort := 101 }
    ⟨by decide, ⟨_, rfl, rfl⟩, by decide⟩ (fun _ => .errSys) (fun _ => .inl rfl) _
    [⟨0, false⟩, ⟨5, false⟩, ⟨7, true⟩]

end PhxQueue.Comm.CheckMaster
