import PhxQueue.Comm
import Mathlib.Tactic

/-!
# Calling a master

`MasterClient::ClientCall` of `comm/masterclient.h`: a request is sent to the address in the cache,
and then to the candidates, until one of them serves it.

* `clientCall`     the code, with the replies of the servers given;
* `clientCall_ok`  it succeeds only if some server has.
-/

set_option linter.unusedSectionVars false

namespace PhxQueue.Comm

/-- `comm::proto::Addr`. -/
structure Addr where
  ip : String := ""
  port : ℤ := 0
deriving DecidableEq

/-- What `rpc_func` returns, with the `redirect_addr` of the response. -/
structure RpcReply where
  ret : RetCode
  redirect : Addr := {}
deriving DecidableEq

/-- What a call meets: the cached address, the candidates, a random number and the reply to the
`n`-th attempt. -/
structure CallEnv where
  cached : Option Addr := none
  candidates : RetCode × List Addr
  rand : ℕ := 0
  rpc : ℕ → Addr → RpcReply

/-- The variables of a call; `rets` is what `rpc_func` has returned so far. -/
structure ClientState where
  ret : RetCode := .ok
  cache : Option Addr := none
  rets : List RetCode := []
  returned : Bool := false
deriving DecidableEq

section
variable (env : CallEnv)

def RpcReply.redirects (r : RpcReply) : Prop :=
  r.ret = .errNotMaster ∧ r.redirect.ip ≠ "" ∧ r.redirect.port ≠ 0

instance (r : RpcReply) : Decidable r.redirects := inferInstanceAs (Decidable (_ ∧ _ ∧ _))

def callCached : ClientState :=
  match env.cached with
  | none => {}
  | some addr =>
    let r := env.rpc 0 addr
    let s : ClientState := { ret := r.ret, cache := env.cached, rets := [r.ret] }
    if r.ret = .ok then { s with returned := true }
    else if r.redirects then { s with cache := some r.redirect }
    else if r.ret = .errNotMaster ∨ r.ret = .errNoMaster ∨ r.ret = .errSvrBlock then
      { s with cache := none }
    else if r.ret = .errSys then s
    else { s with returned := true }

/-- The candidate to start with: the redirected one, or a random one that has not been tried. -/
def firstAddr (s : ClientState) (addrs : List Addr) : ℕ × Addr :=
  match (if s.ret = .errNotMaster then s.cache else none) with
  | some addr => (if addr ∈ addrs then addrs.idxOf addr else 0, addr)
  | none =>
    let i := env.rand % addrs.length
    if addrs.getD i {} = env.cached.getD {} then
      ((i + 1) % addrs.length, addrs.getD ((i + 1) % addrs.length) {})
    else (i, addrs.getD i {})

/-- The loop over the candidates, `n` attempts at most. -/
def callLoop (addrs : List Addr) : ℕ → ℕ → Addr → ClientState → ClientState
  | 0, _, _, s => s
  | n + 1, i, addr, s =>
    let r := env.rpc s.rets.length addr
    let s := { s with ret := r.ret, rets := s.rets ++ [r.ret] }
    if r.ret = .ok then { s with cache := some addr }
    else if r.redirects then
      callLoop addrs n i r.redirect { s with cache := some r.redirect }
    else if r.ret = .errNotMaster ∨ r.ret = .errNoMaster ∨ r.ret = .errSvrBlock ∨
        r.ret = .errSys then
      callLoop addrs n ((i + 1) % addrs.length) (addrs.getD ((i + 1) % addrs.length) {}) s
    else s

def clientCall : ClientState :=
  let s := callCached env
  if s.returned then s else
  if env.candidates.1 ≠ .ok then { s with ret := env.candidates.1 } else
  let addrs := env.candidates.2
  if addrs = [] then { s with ret := .errLogic } else
  let first := firstAddr env s addrs
  callLoop env addrs addrs.length first.1 first.2 s

variable {env}

lemma callCached_ok (h : (callCached env).returned) (hret : (callCached env).ret = .ok) :
    .ok ∈ (callCached env).rets := by
  unfold callCached at h hret ⊢
  cases hc : env.cached with
  | none =>
    rw [hc] at h
    cases h
  | some addr =>
    rw [hc] at hret
    dsimp only at hret ⊢
    by_cases hok : (env.rpc 0 addr).ret = .ok
    · rw [if_pos hok, hok]
      exact List.mem_cons_self
    · exfalso
      rw [if_neg hok] at hret
      split at hret
      · exact hok hret
      split at hret
      · exact hok hret
      split at hret <;> exact hok hret

/-- After an attempt the return code is one that a server has given. -/
lemma callLoop_mem (addrs : List Addr) (n i : ℕ) (addr : Addr) (s : ClientState)
    (h : 0 < n ∨ s.ret ∈ s.rets) :
    (callLoop env addrs n i addr s).ret ∈ (callLoop env addrs n i addr s).rets := by
  induction n generalizing i addr s with
  | zero => exact h.resolve_left (Nat.lt_irrefl 0)
  | succ n ih =>
    have hmem : (env.rpc s.rets.length addr).ret ∈
        s.rets ++ [(env.rpc s.rets.length addr).ret] :=
      List.mem_append_right _ List.mem_cons_self
    unfold callLoop
    dsimp only
    split
    · exact hmem
    split
    · exact ih _ _ _ (.inr hmem)
    split
    · exact ih _ _ _ (.inr hmem)
    · exact hmem

theorem clientCall_ok (h : (clientCall env).ret = .ok) : .ok ∈ (clientCall env).rets := by
  unfold clientCall at h ⊢
  dsimp only at h ⊢
  by_cases hret : (callCached env).returned
  · rw [if_pos hret] at h ⊢
    exact callCached_ok hret h
  rw [if_neg hret] at h ⊢
  by_cases hcand : env.candidates.1 ≠ .ok
  · rw [if_pos hcand] at h
    exact absurd h hcand
  rw [if_neg hcand] at h ⊢
  by_cases hnil : env.candidates.2 = []
  · rw [if_pos hnil] at h
    cases h
  rw [if_neg hnil] at h ⊢
  have hmem := @callLoop_mem env env.candidates.2 env.candidates.2.length
    (firstAddr env (callCached env) env.candidates.2).1
    (firstAddr env (callCached env) env.candidates.2).2 (callCached env)
    (.inl (List.length_pos_of_ne_nil hnil))
  rwa [h] at hmem

end

end PhxQueue.Comm
