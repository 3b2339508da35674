import PhxQueue.Comm.MasterClient
import Mathlib.Data.List.GetD

/-!
# Finding the master

`ClientCall` among servers that answer every call in the same way: one candidate serves the request,
and all other addresses refuse it, some with a redirect.  A redirect is followed and costs an
attempt, and there are as many attempts as candidates.

* `Leads`             redirects lead from an address to another one;
* `Route`             how the master is found: the redirects that are followed from each address;
* `callLoop_ok_iff`   the loop finds the master by a route that is short enough;
* `clientCall_ok_iff` **so a call succeeds exactly when the master is in the cache or the route to
                      it has no more addresses than there are candidates**;
* `clientCall_ok_of_redirects`   it has, when every redirect is to the master;
* `deadRedirect_not_ok`   but not when a server redirects to one that is gone.
-/

set_option linter.unusedSectionVars false

namespace PhxQueue.Comm

section
variable (reply : Addr → RpcReply) (addrs : List Addr) (master : Addr)

/-- One candidate serves the request, and every other address refuses it. -/
structure OneMaster : Prop where
  mem : master ∈ addrs
  serves : (reply master).ret = .ok
  others : ∀ a, a ≠ master → (reply a).ret = .errNotMaster ∨ (reply a).ret = .errNoMaster ∨
    (reply a).ret = .errSvrBlock ∨ (reply a).ret = .errSys

lemma OneMaster.ret_ne_ok {reply : Addr → RpcReply} {addrs : List Addr} {master : Addr}
    (h : OneMaster reply addrs master) {a : Addr} (ha : a ≠ master) : (reply a).ret ≠ .ok := by
  rcases h.others a ha with hret | hret | hret | hret <;>
  · rw [hret]
    decide

/-- What a call meets when the servers always answer in the same way. -/
def fixedReplies (cached : Option Addr) (rand : ℕ) : CallEnv where
  cached := cached
  candidates := (.ok, addrs)
  rand := rand
  rpc := fun _ a => reply a

def redirectOf (a : Addr) : Option Addr :=
  if (reply a).redirects then some (reply a).redirect else none

/-- `k` redirects lead from `a` to `b`. -/
def Leads (b : Addr) : Addr → ℕ → Prop
  | a, 0 => a = b
  | a, k + 1 => ∃ r, redirectOf reply a = some r ∧ Leads b r k

/-- `k` redirects lead from `a` to an address that redirects no further. -/
def DeadEnd (a : Addr) (k : ℕ) : Prop :=
  ∃ b, Leads reply b a k ∧ b ≠ master ∧ redirectOf reply b = none

/-- A route from `a`, which stands for candidate `i`, to the master: the numbers of redirects from
`a` and from the candidates after it, all to dead ends but the last. -/
def Route : ℕ → Addr → List ℕ → Prop
  | _, _, [] => False
  | _, a, [k] => Leads reply master a k
  | i, a, k :: ks => DeadEnd reply master a k ∧
      Route ((i + 1) % addrs.length) (addrs.getD ((i + 1) % addrs.length) {}) ks

def routeLength (ks : List ℕ) : ℕ := ks.length + ks.sum

/-- The first address after the cached one, and the candidate it stands for: where the cached one
redirects to, or a random candidate, but not the cached one. -/
def startAt (cached : Option Addr) (rand : ℕ) : ℕ × Addr :=
  match cached.bind (redirectOf reply) with
  | some r => (if r ∈ addrs then addrs.idxOf r else 0, r)
  | none =>
    let i := rand % addrs.length
    let i := if addrs.getD i {} = cached.getD {} then (i + 1) % addrs.length else i
    (i, addrs.getD i {})

variable {reply addrs master}

/-! ## Routes -/

lemma redirectOf_eq_none {a : Addr} : redirectOf reply a = none ↔ ¬ (reply a).redirects := by
  unfold redirectOf
  split <;> simp_all

lemma redirectOf_of_redirects {a : Addr} (h : (reply a).redirects) :
    redirectOf reply a = some (reply a).redirect := if_pos h

lemma leads_of_redirect {a b r : Addr} (h : redirectOf reply a = some r) {k : ℕ} :
    Leads reply b a (k + 1) ↔ Leads reply b r k := by
  constructor
  · rintro ⟨r', hr', hleads⟩
    rw [h] at hr'
    cases hr'
    exact hleads
  · intro hleads
    exact ⟨r, h, hleads⟩

lemma leads_of_none {a b : Addr} (h : redirectOf reply a = none) {k : ℕ} :
    Leads reply b a k ↔ k = 0 ∧ a = b := by
  cases k with
  | zero => exact (and_iff_right rfl).symm
  | succ k =>
    constructor
    · rintro ⟨r, hr, _⟩
      rw [h] at hr
      cases hr
    · rintro ⟨hk, _⟩
      cases hk

lemma deadEnd_of_redirect {a r : Addr} (h : redirectOf reply a = some r) {k : ℕ} :
    DeadEnd reply master a k ↔ ∃ k', k = k' + 1 ∧ DeadEnd reply master r k' := by
  constructor
  · rintro ⟨b, hleads, hb, hnone⟩
    cases k with
    | zero =>
      cases hleads
      rw [h] at hnone
      cases hnone
    | succ k => exact ⟨k, rfl, b, (leads_of_redirect h).mp hleads, hb, hnone⟩
  · rintro ⟨k', rfl, b, hleads, hb, hnone⟩
    exact ⟨b, (leads_of_redirect h).mpr hleads, hb, hnone⟩

lemma deadEnd_of_none {a : Addr} (h : redirectOf reply a = none) (ha : a ≠ master) {k : ℕ} :
    DeadEnd reply master a k ↔ k = 0 := by
  constructor
  · rintro ⟨b, hleads, _⟩
    exact ((leads_of_none h).mp hleads).1
  · rintro rfl
    exact ⟨a, rfl, ha, h⟩

lemma route_of_redirect {i : ℕ} {a r : Addr} (h : redirectOf reply a = some r) (ha : a ≠ master)
    {k : ℕ} {ks : List ℕ} : Route reply addrs master i a (k :: ks) ↔
      ∃ k', k = k' + 1 ∧ Route reply addrs master i r (k' :: ks) := by
  cases ks with
  | nil =>
    show Leads reply master a k ↔ ∃ k', k = k' + 1 ∧ Leads reply master r k'
    cases k with
    | zero =>
      refine iff_of_false ha ?_
      rintro ⟨k', hk', _⟩
      cases hk'
    | succ k =>
      rw [leads_of_redirect h]
      constructor
      · intro hleads
        exact ⟨k, rfl, hleads⟩
      · rintro ⟨k', hk', hleads⟩
        cases hk'
        exact hleads
  | cons k₁ ks =>
    show DeadEnd reply master a k ∧ _ ↔ ∃ k', k = k' + 1 ∧ DeadEnd reply master r k' ∧ _
    rw [deadEnd_of_redirect h]
    constructor
    · rintro ⟨⟨k', hk', hdead⟩, hroute⟩
      exact ⟨k', hk', hdead, hroute⟩
    · rintro ⟨k', hk', hdead, hroute⟩
      exact ⟨⟨k', hk', hdead⟩, hroute⟩

/-- From an address that refuses without a redirect a route goes on with the next candidate. -/
lemma route_of_none {i : ℕ} {a : Addr} (h : redirectOf reply a = none) (ha : a ≠ master) {k : ℕ}
    {ks : List ℕ} : Route reply addrs master i a (k :: ks) ↔ k = 0 ∧
      Route reply addrs master ((i + 1) % addrs.length)
        (addrs.getD ((i + 1) % addrs.length) {}) ks := by
  cases ks with
  | nil =>
    show Leads reply master a k ↔ k = 0 ∧ False
    rw [leads_of_none h]
    exact iff_of_false (fun hk => ha hk.2) (fun hk => hk.2)
  | cons k₁ ks =>
    show DeadEnd reply master a k ∧ _ ↔ k = 0 ∧ _
    rw [deadEnd_of_none h ha]

lemma exists_cons_of_route {i : ℕ} {a : Addr} {ks : List ℕ}
    (h : Route reply addrs master i a ks) : ∃ k ks', ks = k :: ks' := by
  cases ks with
  | nil => exact h.elim
  | cons k ks => exact ⟨k, ks, rfl⟩

lemma routeLength_cons (k : ℕ) (ks : List ℕ) :
    routeLength (k :: ks) = routeLength ks + k + 1 := by
  unfold routeLength
  rw [List.length_cons, List.sum_cons]
  omega

/-! ## The loop -/

lemma rpc_fixedReplies (cached : Option Addr) (rand n : ℕ) (a : Addr) :
    (fixedReplies reply addrs cached rand).rpc n a = reply a := rfl

/-- **The loop finds the master by a route with no more addresses than it has attempts.** -/
theorem callLoop_ok_iff (h : OneMaster reply addrs master) {cached : Option Addr} {rand : ℕ}
    (n i : ℕ) (a : Addr) (s : ClientState) (hs : 0 < n ∨ s.ret ≠ .ok) :
    (callLoop (fixedReplies reply addrs cached rand) addrs n i a s).ret = .ok ↔
      ∃ ks, Route reply addrs master i a ks ∧ routeLength ks ≤ n := by
  induction n generalizing i a s with
  | zero =>
    refine iff_of_false (hs.resolve_left (Nat.lt_irrefl 0)) ?_
    rintro ⟨ks, hroute, hlen⟩
    obtain ⟨k, ks, rfl⟩ := exists_cons_of_route hroute
    rw [routeLength_cons] at hlen
    omega
  | succ n ih =>
    unfold callLoop
    dsimp only
    rw [rpc_fixedReplies]
    by_cases ha : a = master
    · subst ha
      rw [if_pos h.serves]
      refine iff_of_true h.serves ⟨[0], rfl, ?_⟩
      rw [routeLength_cons]
      exact Nat.succ_le_succ (Nat.zero_le n)
    have hret := h.others a ha
    have hno := h.ret_ne_ok ha
    rw [if_neg hno]
    by_cases hred : (reply a).redirects
    · have hr := redirectOf_of_redirects hred
      rw [if_pos hred]
      refine (ih _ _ _ (.inr hno)).trans ?_
      constructor
      · rintro ⟨ks, hroute, hlen⟩
        obtain ⟨k, ks, rfl⟩ := exists_cons_of_route hroute
        refine ⟨(k + 1) :: ks, (route_of_redirect hr ha).mpr ⟨k, rfl, hroute⟩, ?_⟩
        rw [routeLength_cons] at hlen ⊢
        omega
      · rintro ⟨ks, hroute, hlen⟩
        obtain ⟨k, ks, rfl⟩ := exists_cons_of_route hroute
        obtain ⟨k', rfl, hroute'⟩ := (route_of_redirect hr ha).mp hroute
        refine ⟨k' :: ks, hroute', ?_⟩
        rw [routeLength_cons] at hlen ⊢
        omega
    · have hnone := redirectOf_eq_none.mpr hred
      rw [if_neg hred, if_pos hret]
      refine (ih _ _ _ (.inr hno)).trans ?_
      constructor
      · rintro ⟨ks, hroute, hlen⟩
        refine ⟨0 :: ks, (route_of_none hnone ha).mpr ⟨rfl, hroute⟩, ?_⟩
        rw [routeLength_cons]
        omega
      · rintro ⟨ks, hroute, hlen⟩
        obtain ⟨k, ks, rfl⟩ := exists_cons_of_route hroute
        obtain ⟨rfl, hroute'⟩ := (route_of_none hnone ha).mp hroute
        refine ⟨ks, hroute', ?_⟩
        rw [routeLength_cons] at hlen
        omega

/-! ## The call -/

/-- The attempt at the cached address, when the servers always answer in the same way. -/
def cachedAttempt (c : Addr) (r : RpcReply) : ClientState :=
  let s : ClientState := { ret := r.ret, cache := some c, rets := [r.ret] }
  if r.ret = .ok then { s with returned := true }
  else if r.redirects then { s with cache := some r.redirect }
  else if r.ret = .errNotMaster ∨ r.ret = .errNoMaster ∨ r.ret = .errSvrBlock then
    { s with cache := none }
  else if r.ret = .errSys then s
  else { s with returned := true }

lemma callCached_some (c : Addr) (rand : ℕ) :
    callCached (fixedReplies reply addrs (some c) rand) = cachedAttempt c (reply c) := rfl

/-- An attempt at a cached address that is not the master goes on, and keeps the redirect. -/
lemma cachedAttempt_spec (h : OneMaster reply addrs master) {c : Addr} (hc : c ≠ master) :
    (cachedAttempt c (reply c)).returned = false ∧ (cachedAttempt c (reply c)).ret ≠ .ok ∧
      (if (cachedAttempt c (reply c)).ret = .errNotMaster
        then (cachedAttempt c (reply c)).cache else none) = redirectOf reply c := by
  have hret := h.others c hc
  have hno := h.ret_ne_ok hc
  unfold cachedAttempt redirectOf
  dsimp only
  rw [if_neg hno]
  by_cases hred : (reply c).redirects
  · rw [if_pos hred, if_pos hred, if_pos hred.1]
    exact ⟨rfl, hno, rfl⟩
  rw [if_neg hred, if_neg hred]
  by_cases hsys : (reply c).ret = .errNotMaster ∨ (reply c).ret = .errNoMaster ∨
      (reply c).ret = .errSvrBlock
  · rw [if_pos hsys]
    exact ⟨rfl, hno, ite_self _⟩
  · have hsys' : (reply c).ret = .errSys := by tauto
    rw [if_neg hsys, if_pos hsys', if_neg (fun heq => hsys (Or.inl heq))]
    exact ⟨rfl, hno, rfl⟩

lemma firstAddr_eq (h : OneMaster reply addrs master) {cached : Option Addr}
    (hc : cached ≠ some master) (rand : ℕ) :
    firstAddr (fixedReplies reply addrs cached rand)
      (callCached (fixedReplies reply addrs cached rand)) addrs =
        startAt reply addrs cached rand := by
  have hstart : (if (callCached (fixedReplies reply addrs cached rand)).ret = .errNotMaster
      then (callCached (fixedReplies reply addrs cached rand)).cache else none) =
      cached.bind (redirectOf reply) := by
    cases cached with
    | none => rfl
    | some c => exact (cachedAttempt_spec h (fun heq => hc (congrArg some heq))).2.2
  unfold firstAddr startAt
  rw [hstart]
  cases cached.bind (redirectOf reply) with
  | some r => rfl
  | none =>
    show (if addrs.getD (rand % addrs.length) {} = cached.getD {} then _ else _ : ℕ × Addr) = _
    dsimp only
    split <;> rfl

/-- **A call succeeds exactly when the master is in the cache, or the route to it has no more
addresses than there are candidates.** -/
theorem clientCall_ok_iff (h : OneMaster reply addrs master) (cached : Option Addr) (rand : ℕ) :
    (clientCall (fixedReplies reply addrs cached rand)).ret = .ok ↔
      cached = some master ∨
        ∃ ks, Route reply addrs master (startAt reply addrs cached rand).1
          (startAt reply addrs cached rand).2 ks ∧ routeLength ks ≤ addrs.length := by
  have hloop (hreturned : (callCached (fixedReplies reply addrs cached rand)).returned = false)
      (hc : cached ≠ some master) : (clientCall (fixedReplies reply addrs cached rand)).ret = .ok ↔
        ∃ ks, Route reply addrs master (startAt reply addrs cached rand).1
          (startAt reply addrs cached rand).2 ks ∧ routeLength ks ≤ addrs.length := by
    have hnil : addrs ≠ [] := List.ne_nil_of_mem h.mem
    have hcand : ¬ (fixedReplies reply addrs cached rand).candidates.1 ≠ .ok := fun hne => hne rfl
    unfold clientCall
    dsimp only
    rw [if_neg (by rw [hreturned]; exact Bool.false_ne_true), if_neg hcand,
      if_neg (show ¬ (fixedReplies reply addrs cached rand).candidates.2 = [] from hnil)]
    show (callLoop _ addrs addrs.length (firstAddr _ _ addrs).1 (firstAddr _ _ addrs).2 _).ret
      = .ok ↔ _
    rw [firstAddr_eq h hc]
    exact callLoop_ok_iff h _ _ _ _ (.inl (List.length_pos_of_ne_nil hnil))
  cases cached with
  | none =>
    rw [hloop rfl (fun heq => nomatch heq)]
    exact (or_iff_right (fun heq => nomatch heq)).symm
  | some c =>
    by_cases hc : c = master
    · subst hc
      refine iff_of_true ?_ (Or.inl rfl)
      have hattempt : cachedAttempt c (reply c) =
          { ret := (reply c).ret, cache := some c, rets := [(reply c).ret], returned := true } :=
        if_pos h.serves
      unfold clientCall
      dsimp only
      rw [callCached_some, hattempt, if_pos rfl]
      exact h.serves
    · have hne : some c ≠ some master := fun heq => hc (Option.some.inj heq)
      rw [hloop (cachedAttempt_spec h hc).1 hne]
      exact (or_iff_right hne).symm

/-- A route from a candidate to the master, `d` candidates on, when every redirect is to the
master. -/
lemma exists_route (hred : ∀ a r, redirectOf reply a = some r → r = master) (d i : ℕ)
    (hi : i < addrs.length) (hd : addrs.getD ((i + d) % addrs.length) {} = master) :
    ∃ ks, Route reply addrs master i (addrs.getD i {}) ks ∧ routeLength ks ≤ d + 1 := by
  induction d generalizing i with
  | zero =>
    rw [Nat.add_zero, Nat.mod_eq_of_lt hi] at hd
    exact ⟨[0], hd, le_refl 1⟩
  | succ d ih =>
    by_cases ha : addrs.getD i {} = master
    · exact ⟨[0], ha, Nat.le_add_left 1 (d + 1)⟩
    cases hr : redirectOf reply (addrs.getD i {}) with
    | some r =>
      -- the redirect saves the candidates in between
      refine ⟨[1], ⟨r, hr, hred _ _ hr⟩, ?_⟩
      exact Nat.le_add_left 2 d
    | none =>
      have hpos : 0 < addrs.length := Nat.zero_lt_of_lt hi
      obtain ⟨ks, hroute, hlen⟩ := ih ((i + 1) % addrs.length) (Nat.mod_lt _ hpos) (by
        rw [Nat.mod_add_mod]
        rwa [Nat.add_right_comm i 1 d])
      refine ⟨0 :: ks, (route_of_none hr ha).mpr ⟨rfl, hroute⟩, ?_⟩
      rw [routeLength_cons]
      omega

theorem clientCall_ok_of_redirects (h : OneMaster reply addrs master)
    (hred : ∀ a r, redirectOf reply a = some r → r = master) (cached : Option Addr) (rand : ℕ) :
    (clientCall (fixedReplies reply addrs cached rand)).ret = .ok := by
  have hpos : 0 < addrs.length := List.length_pos_of_mem h.mem
  -- a start at a candidate: the master is less than a whole turn away
  have hturn (i : ℕ) (hi : i < addrs.length) :
      ∃ ks, Route reply addrs master i (addrs.getD i {}) ks ∧ routeLength ks ≤ addrs.length := by
    obtain ⟨j, hj, hjm⟩ := List.mem_iff_getElem.mp h.mem
    have hat : addrs.getD j {} = master := by rw [List.getD_eq_getElem _ _ hj, hjm]
    obtain ⟨d, hd, hmod⟩ : ∃ d, d < addrs.length ∧ (i + d) % addrs.length = j := by
      rcases Nat.le_total i j with hij | hij
      · exact ⟨j - i, by omega, by rw [Nat.add_sub_of_le hij, Nat.mod_eq_of_lt hj]⟩
      · rcases Nat.eq_or_lt_of_le hij with rfl | hlt
        · exact ⟨0, hpos, by rw [Nat.add_zero, Nat.mod_eq_of_lt hi]⟩
        · refine ⟨addrs.length + j - i, by omega, ?_⟩
          rw [show i + (addrs.length + j - i) = addrs.length + j by omega, Nat.add_mod_left,
            Nat.mod_eq_of_lt hj]
    obtain ⟨ks, hroute, hlen⟩ := exists_route hred d i hi (by rw [hmod, hat])
    exact ⟨ks, hroute, by omega⟩
  refine (clientCall_ok_iff h cached rand).mpr (.inr ?_)
  unfold startAt
  cases hr : cached.bind (redirectOf reply) with
  | some r =>
    obtain ⟨c, _, hc⟩ := Option.bind_eq_some_iff.mp hr
    exact ⟨[0], hred c r hc, hpos⟩
  | none =>
    dsimp only
    split
    · exact hturn _ (Nat.mod_lt _ hpos)
    · exact hturn _ (Nat.mod_lt _ hpos)

end

/-! ## A redirect to a server that is gone -/

def staleServer : Addr := { ip := "10.0.0.1", port := 100 }

def liveServer : Addr := { ip := "10.0.0.2", port := 100 }

def goneServer : Addr := { ip := "10.0.0.3", port := 100 }

def staleReplies (a : Addr) : RpcReply :=
  if a = liveServer then { ret := .ok }
  else if a = staleServer then { ret := .errNotMaster, redirect := goneServer }
  else { ret := .errSys }

lemma oneMaster_staleReplies :
    OneMaster staleReplies [staleServer, liveServer] liveServer where
  mem := by decide
  serves := by decide
  others := by
    intro a ha
    unfold staleReplies
    rw [if_neg ha]
    split
    · exact .inl rfl
    · exact .inr (.inr (.inr rfl))

/-- **The redirect to a server that is gone takes the attempt that would have reached the
master.** -/
theorem deadRedirect_not_ok : ¬ ∀ (reply : Addr → RpcReply) (addrs : List Addr) (master : Addr)
    (cached : Option Addr) (rand : ℕ), OneMaster reply addrs master →
      (clientCall (fixedReplies reply addrs cached rand)).ret = .ok := by
  intro h
  exact absurd (h staleReplies [staleServer, liveServer] liveServer none 0 oneMaster_staleReplies)
    (by decide)

/-- Among these servers a call succeeds when it starts with the master. -/
theorem clientCall_ok_iff_staleReplies :
    OneMaster staleReplies [staleServer, liveServer] liveServer ∧
      (clientCall (fixedReplies staleReplies [staleServer, liveServer] none 1)).ret = .ok :=
  ⟨oneMaster_staleReplies,
    (clientCall_ok_iff oneMaster_staleReplies none 1).mpr (.inr ⟨[0], rfl, by decide⟩)⟩

end PhxQueue.Comm
