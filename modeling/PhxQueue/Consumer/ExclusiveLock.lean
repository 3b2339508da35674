import PhxQueue.Lib.Lease
import PhxQueue.Consumer.HeartBeatLock

/-!
# One worker to a queue

The lease of a key ends with the expiry of its record.  A worker takes over another's record only
after its overdue time; that is after the expiry when the worker observed this very record, on its
own key and at a sample no earlier than the record.

* `Ledger`           the records, the instance ids and the clock;
* `RequestOk`, `WorkerOk`   the invariant of a request and of a worker;
* `World.Inv`        the invariant of the runs that keep to `OwnObservation`;
* `exclusive_run`    **in these runs no two workers believe they hold one queue**;
* `switchedKey_not_exclusive`   a run with two.
-/

set_option linter.unusedSectionVars false

namespace PhxQueue.Consumer
open Comm Lib Lock

lemma Config.leaseTimeMs_lt (cfg : Config) : cfg.leaseTimeMs < 2 ^ 41 := by
  have h := cfg.leaseTimeS_lt
  unfold Config.leaseTimeMs
  rw [wrap64_of_lt (by omega)]
  omega

lemma lockKey_ne (cfg : Config) (q : Queue) : lockKey cfg q ≠ "" := by
  intro h
  have hlen := congrArg String.length h
  simp [lockKey] at hlen

structure Ledger where
  clock : ℕ
  record : String → Option LocalRecordInfo
  lastInstance : String → ℕ

section
variable {ι : Type} [DecidableEq ι] (cfg : Config) (clientId : ι ↪ String)

def World.ledger (w : World ι) : Ledger :=
  ⟨w.clock, w.record cfg, fun k => w.lastInstance (cfg.paxosGroupId k)⟩

/-! ## The invariant -/

/-- A request that is safe to execute at any time: where its version passes, the lease of another
is over. -/
structure RequestOk (L : Ledger) (req : Request ι) : Prop where
  key_ne : req.lockKey ≠ ""
  lease : req.leaseTimeMs = cfg.leaseTimeMs
  version_le : req.version ≤ L.lastInstance req.lockKey
  other : ∀ r, L.record req.lockKey = some r → r.version = req.version →
    r.value ≠ clientId req.client → r.expireTimeMs ≤ L.clock

/-- What the worker's call knows, `version` being its static and `seen` the key it is from. -/
def PhaseOk (L : Ledger) (j : ι) (version : ℕ) (seen : String) : Phase ι → Prop
  | .idle => True
  | .releasing _ => False
  | .sampled key now => key ≠ "" ∧ now ≤ L.clock
  | .informed key now (.ok info) => key ≠ "" ∧ now ≤ L.clock ∧
      info.version ≤ L.lastInstance key ∧
      ∀ r, L.record key = some r → r.version = info.version →
        info.clientId = r.value ∧ info.leaseTimeMs = r.leaseTimeMs ∧
          (r.value ≠ clientId j → if r.version = version then seen = key
            else r.expireTimeMs ≤ now + r.leaseTimeMs)
  | .informed key now (.error _) => key ≠ "" ∧ now ≤ L.clock
  | .acquiring req => RequestOk cfg clientId L req

structure WorkerOk (L : Ledger) (j : ι) (seen : String) (s : Worker ι) : Prop where
  /-- The key to release is never remembered. -/
  lastLockKey : s.lastLockKey = ""
  version_le : s.version ≤ L.lastInstance seen
  overdue : ∀ r, L.record seen = some r → r.version = s.version → r.value ≠ clientId j →
    r.expireTimeMs ≤ s.overdueTimeMs
  phase : PhaseOk cfg clientId L j s.version seen s.phase

structure RecordOk (L : Ledger) (key : String) (r : LocalRecordInfo) : Prop where
  version_pos : 0 < r.version
  version_le : r.version ≤ L.lastInstance key
  lease : r.leaseTimeMs = cfg.leaseTimeMs
  expire : r.expireTimeMs ≤ L.clock + cfg.leaseTimeMs

def World.terms (w : World ι) (key c : String) (e : ℕ) : Prop :=
  ∃ j, clientId j = c ∧ e = w.believed j key

/-- The lease of a key as its record has it. -/
def Ledger.holder (L : Ledger) (key : String) : Option (Holder String) :=
  (L.record key).map fun r => ⟨r.value, r.expireTimeMs⟩

structure World.Inv (w : World ι) : Prop where
  clock_lt : w.clock < 2 ^ 63
  record : ∀ key r, w.record cfg key = some r → RecordOk cfg (w.ledger cfg) key r
  worker : ∀ j, WorkerOk cfg clientId (w.ledger cfg) j (w.seenKey j) (w.worker j)
  network : ∀ req ∈ w.network, RequestOk cfg clientId (w.ledger cfg) req
  guarded : ∀ key, Lease.Guarded w.clock ((w.ledger cfg).holder key) (w.terms clientId key)

/-! ## What happens to the ledger -/

/-- Between two ledgers time passes and a record stays, goes, or is written under a version nobody
has seen in its paxos group. -/
structure Ledger.Follows (L L' : Ledger) : Prop where
  clock_le : L.clock ≤ L'.clock
  lastInstance_le : ∀ key, L.lastInstance key ≤ L'.lastInstance key
  record : ∀ key r, L'.record key = some r →
    L.record key = some r ∨ L.lastInstance key < r.version

variable {cfg clientId}
variable {L L' : Ledger}

/-- A record under a version that was seen before has not changed. -/
lemma Ledger.Follows.same (hf : L.Follows L') {key : String} {r : LocalRecordInfo}
    (hr : L'.record key = some r) (hv : r.version ≤ L.lastInstance key) :
    L.record key = some r := by
  rcases hf.record key r hr with hr' | hlt
  · exact hr'
  · omega

lemma RequestOk.follows (hf : L.Follows L') {req : Request ι}
    (h : RequestOk cfg clientId L req) : RequestOk cfg clientId L' req where
  key_ne := h.key_ne
  lease := h.lease
  version_le := h.version_le.trans (hf.lastInstance_le _)
  other := by
    intro r hr hv hne
    have hr' := hf.same hr (hv.trans_le h.version_le)
    exact (h.other r hr' hv hne).trans hf.clock_le

lemma WorkerOk.follows (hf : L.Follows L') {j : ι} {seen : String} {s : Worker ι}
    (h : WorkerOk cfg clientId L j seen s) : WorkerOk cfg clientId L' j seen s where
  lastLockKey := h.lastLockKey
  version_le := h.version_le.trans (hf.lastInstance_le _)
  overdue := by
    intro r hr hv hne
    exact h.overdue r (hf.same hr (hv.trans_le h.version_le)) hv hne
  phase := by
    have hp := h.phase
    cases hph : s.phase with
    | idle => trivial
    | releasing key =>
      rw [hph] at hp
      exact hp
    | sampled key now =>
      rw [hph] at hp
      exact ⟨hp.1, hp.2.trans hf.clock_le⟩
    | informed key now reply =>
      rw [hph] at hp
      cases reply with
      | error e => exact ⟨hp.1, hp.2.trans hf.clock_le⟩
      | ok info =>
        obtain ⟨hkey, hnow, hv, hrec⟩ := hp
        refine ⟨hkey, hnow.trans hf.clock_le, hv.trans (hf.lastInstance_le _), ?_⟩
        intro r hr hver
        exact hrec r (hf.same hr (hver.trans_le hv)) hver
    | acquiring req =>
      rw [hph] at hp
      exact RequestOk.follows hf hp

/-! ## The code of a call -/

/-- What the statics know after a reply about `key`: the version and the end of its lease. -/
lemma WorkerOk.observe {j : ι} {seen key : String} {s : Worker ι} {now : ℕ} {info : LockInfo}
    (h : WorkerOk cfg clientId L j seen s)
    (hrec : ∀ r, L.record key = some r → RecordOk cfg L key r)
    (hnow : now < 2 ^ 63) (hver : info.version ≤ L.lastInstance key)
    (hinfo : ∀ r, L.record key = some r → r.version = info.version →
      info.leaseTimeMs = r.leaseTimeMs ∧ (r.value ≠ clientId j →
        if r.version = s.version then seen = key else r.expireTimeMs ≤ now + r.leaseTimeMs)) :
    (Consumer.observe s now info).version = info.version ∧
      WorkerOk cfg clientId L j
        (if (Consumer.observe s now info).version ≠ s.version then key else seen)
        { Consumer.observe s now info with phase := .idle } ∧
      ∀ r, L.record key = some r → r.version = info.version → r.value ≠ clientId j →
        r.expireTimeMs ≤ (Consumer.observe s now info).overdueTimeMs := by
  by_cases hv : s.version ≠ info.version
  · have heq : Consumer.observe s now info =
        { s with version := info.version, overdueTimeMs := wrap64 (now + info.leaseTimeMs) } :=
      if_pos hv
    have hover : ∀ r, L.record key = some r → r.version = info.version → r.value ≠ clientId j →
        r.expireTimeMs ≤ wrap64 (now + info.leaseTimeMs) := by
      intro r hr hrv hne
      obtain ⟨hlease, hfirst⟩ := hinfo r hr hrv
      have hle := hfirst hne
      rw [if_neg fun h => hv (h.symm.trans hrv)] at hle
      have hmax := cfg.leaseTimeMs_lt
      have hl := (hrec r hr).lease
      rw [wrap64_of_lt (by omega)]
      omega
    have hne : (Consumer.observe s now info).version ≠ s.version := by
      rw [heq]
      exact hv.symm
    rw [if_pos hne, heq]
    exact ⟨rfl, ⟨h.lastLockKey, hver, hover, trivial⟩, hover⟩
  · have heq : Consumer.observe s now info = s := if_neg hv
    have hv := not_not.mp hv
    rw [heq, if_neg (not_not.mpr rfl)]
    refine ⟨hv, ⟨h.lastLockKey, h.version_le, h.overdue, trivial⟩, ?_⟩
    intro r hr hrv hne
    have hseen := (hinfo r hr hrv).2 hne
    rw [if_pos (hrv.trans hv.symm)] at hseen
    subst hseen
    exact h.overdue r hr (hrv.trans hv.symm) hne

/-- **The decision.**  From an observation of its own the worker learns when another's lease is
over, and the request it may send is safe. -/
lemma WorkerOk.handleLockInfo {j : ι} {seen key : String} {s : Worker ι} {now : ℕ}
    {reply : Except RetCode LockInfo} (h : WorkerOk cfg clientId L j seen s)
    (hph : s.phase = .informed key now reply)
    (hrec : ∀ r, L.record key = some r → RecordOk cfg L key r) (hclock : L.clock < 2 ^ 63) :
    WorkerOk cfg clientId L j
      (if (handleLockInfo cfg clientId j s key now reply).version ≠ s.version then key else seen)
      (handleLockInfo cfg clientId j s key now reply) := by
  have hp := h.phase
  rw [hph] at hp
  -- the message the code reads, and what it says of the record
  have hread : ∀ info, lockInfoOf reply = some info → key ≠ "" ∧ now ≤ L.clock ∧
      info.version ≤ L.lastInstance key ∧
      ∀ r, L.record key = some r → r.version = info.version →
        info.clientId = r.value ∧ info.leaseTimeMs = r.leaseTimeMs ∧
          (r.value ≠ clientId j → if r.version = s.version then seen = key
            else r.expireTimeMs ≤ now + r.leaseTimeMs) := by
    intro info hinfo
    cases reply with
    | ok info' =>
      cases hinfo
      exact hp
    | error e =>
      have hzero : info.version = 0 := by
        unfold lockInfoOf at hinfo
        dsimp only at hinfo
        split at hinfo
        · cases hinfo
        · cases hinfo
          rfl
      refine ⟨hp.1, hp.2, hzero.trans_le (Nat.zero_le _), ?_⟩
      intro r hr hv
      have := (hrec r hr).version_pos
      omega
  unfold Consumer.handleLockInfo
  cases hinfo : lockInfoOf reply with
  | none =>
    show WorkerOk cfg clientId L j (if s.version ≠ s.version then key else seen) _
    rw [if_neg (not_not.mpr rfl)]
    exact ⟨h.lastLockKey, h.version_le, h.overdue, trivial⟩
  | some info =>
    obtain ⟨hkey, hnow, hver, hr⟩ := hread info hinfo
    obtain ⟨hv, hok, hover⟩ := h.observe hrec (hnow.trans_lt hclock) hver
      fun r hrr hrv => (hr r hrr hrv).2
    dsimp only
    split
    · rename_i hgo
      show WorkerOk cfg clientId L j
        (if (Consumer.observe s now info).version ≠ s.version then key else seen) _
      refine ⟨hok.lastLockKey, hok.version_le, hok.overdue, hkey, rfl, hv.trans_le hver, ?_⟩
      intro r hrr hrv hne
      have hrv : r.version = info.version := Eq.trans hrv hv
      rcases hgo with hgo | hgo
      · have hval := (hr r hrr hrv).1
        exact absurd (hgo.trans hval).symm hne
      · have := hover r hrr hrv hne
        omega
    · show WorkerOk cfg clientId L j
        (if (Consumer.observe s now info).version ≠ s.version then key else seen) _
      exact ⟨hok.lastLockKey, hok.version_le, hok.overdue, trivial⟩

lemma WorkerOk.idle {j : ι} {seen : String} {s : Worker ι}
    (h : WorkerOk cfg clientId L j seen s) :
    WorkerOk cfg clientId L j seen { s with phase := .idle } :=
  ⟨h.lastLockKey, h.version_le, h.overdue, trivial⟩

/-- Without a remembered key `DoLock` goes straight to the sample. -/
lemma WorkerOk.beginLock {j : ι} {seen : String} {s : Worker ι}
    (h : WorkerOk cfg clientId L j seen s) (q : Queue) :
    (beginLock cfg j s L.clock q).2 = none ∧
      WorkerOk cfg clientId L j seen (beginLock cfg j s L.clock q).1 := by
  unfold Consumer.beginLock
  split
  · exact ⟨rfl, h⟩
  split
  · exact ⟨rfl, h⟩
  · rw [if_neg fun hlast => hlast.1 h.lastLockKey]
    exact ⟨rfl, h.lastLockKey, h.version_le, h.overdue, lockKey_ne cfg q, le_rfl⟩

/-! ## One step -/

section
variable {w : World ι}

lemma World.Inv.setSeen (h : w.Inv cfg clientId) {j : ι} {s : Worker ι} {seen : ι → String}
    (hseen : ∀ k, k ≠ j → seen k = w.seenKey k)
    (hs : WorkerOk cfg clientId (w.ledger cfg) j (seen j) s) :
    ({ w.set j s with seenKey := seen } : World ι).Inv cfg clientId where
  clock_lt := h.clock_lt
  record := h.record
  worker := by
    intro k
    show WorkerOk cfg clientId (w.ledger cfg) k (seen k) (Function.update w.worker j s k)
    by_cases hk : k = j
    · subst hk
      rw [Function.update_self]
      exact hs
    · rw [Function.update_of_ne hk, hseen k hk]
      exact h.worker k
  network := h.network
  guarded := h.guarded

lemma World.Inv.set (h : w.Inv cfg clientId) {j : ι} {s : Worker ι}
    (hs : WorkerOk cfg clientId (w.ledger cfg) j (w.seenKey j) s) :
    (w.set j s).Inv cfg clientId := h.setSeen (fun _ _ => rfl) hs

lemma World.Inv.send (h : w.Inv cfg clientId) {req : Request ι}
    (hreq : RequestOk cfg clientId (w.ledger cfg) req) : (w.send req).Inv cfg clientId where
  clock_lt := h.clock_lt
  record := h.record
  worker := h.worker
  network := by
    intro a ha
    rcases List.mem_cons.mp ha with rfl | ha
    · exact hreq
    · exact h.network a ha
  guarded := h.guarded

lemma World.Inv.dropRequest (h : w.Inv cfg clientId) (n : ℕ) :
    ({ w with network := w.network.eraseIdx n } : World ι).Inv cfg clientId :=
  ⟨h.clock_lt, h.record, h.worker, fun a ha => h.network a (List.mem_of_mem_eraseIdx ha),
    h.guarded⟩

lemma World.Inv.tick (h : w.Inv cfg clientId) {d : ℕ} (hd : w.clock + d < 2 ^ 63) :
    ({ w with clock := w.clock + d } : World ι).Inv cfg clientId := by
  have hf : (w.ledger cfg).Follows ⟨w.clock + d, w.record cfg,
      fun k => w.lastInstance (cfg.paxosGroupId k)⟩ :=
    ⟨Nat.le_add_right _ _, fun _ => le_rfl, fun _ _ hr => .inl hr⟩
  refine ⟨hd, ?_, fun j => (h.worker j).follows hf, fun a ha => (h.network a ha).follows hf,
    fun key => (h.guarded key).tick (Nat.le_add_right _ _)⟩
  intro key r hr
  have hok := h.record key r hr
  exact ⟨hok.version_pos, hok.version_le, hok.lease,
    hok.expire.trans (Nat.add_le_add_right (Nat.le_add_right _ _) _)⟩

/-- A paxos group of the lock service moves: the record of `key` becomes `rec`, every other
record stays. -/
lemma World.Inv.groupStep (h : w.Inv cfg clientId) {key : String} {g : GroupData} {i : ℕ}
    (believed : ι → String → ℕ) (rec : Option LocalRecordInfo)
    (hi : w.lastInstance (cfg.paxosGroupId key) < i)
    (hother : ∀ k, k ≠ key → g.map[k]? = (w.groups (cfg.paxosGroupId key)).map[k]?)
    (hkey : g.map[key]? = rec)
    (hrec : ∀ r, rec = some r → w.record cfg key = some r ∨
      (r.version = i ∧ r.leaseTimeMs = cfg.leaseTimeMs ∧
        r.expireTimeMs ≤ w.clock + cfg.leaseTimeMs))
    (hbelieved : ∀ j k, k ≠ key → believed j k = w.believed j k)
    (hguarded : Lease.Guarded w.clock (rec.map fun r => ⟨r.value, r.expireTimeMs⟩)
      fun c e => ∃ j, clientId j = c ∧ e = believed j key) :
    ({ w with
      groups := Function.update w.groups (cfg.paxosGroupId key) g
      lastInstance := Function.update w.lastInstance (cfg.paxosGroupId key) i
      believed := believed } : World ι).Inv cfg clientId := by
  -- the new records and instance ids
  have hrecord : ∀ k, (Function.update w.groups (cfg.paxosGroupId key) g
      (cfg.paxosGroupId k)).map[k]? = if k = key then rec else w.record cfg k := by
    intro k
    by_cases hk : k = key
    · subst hk
      rw [Function.update_self, hkey, if_pos rfl]
    · rw [if_neg hk]
      by_cases hn : cfg.paxosGroupId k = cfg.paxosGroupId key
      · rw [hn, Function.update_self, hother k hk, ← hn]
        rfl
      · rw [Function.update_of_ne hn]
        rfl
  have hlast : ∀ k, w.lastInstance (cfg.paxosGroupId k) ≤
      Function.update w.lastInstance (cfg.paxosGroupId key) i (cfg.paxosGroupId k) := by
    intro k
    by_cases hn : cfg.paxosGroupId k = cfg.paxosGroupId key
    · rw [hn, Function.update_self]
      exact hi.le
    · rw [Function.update_of_ne hn]
  have hlastKey : Function.update w.lastInstance (cfg.paxosGroupId key) i
      (cfg.paxosGroupId key) = i := Function.update_self _ _ _
  have hf : (w.ledger cfg).Follows ⟨w.clock,
      fun k => (Function.update w.groups (cfg.paxosGroupId key) g (cfg.paxosGroupId k)).map[k]?,
      fun k => Function.update w.lastInstance (cfg.paxosGroupId key) i (cfg.paxosGroupId k)⟩ := by
    refine ⟨le_rfl, hlast, fun k r hr => ?_⟩
    have hr : (Function.update w.groups (cfg.paxosGroupId key) g
      (cfg.paxosGroupId k)).map[k]? = some r := hr
    rw [hrecord] at hr
    by_cases hk : k = key
    · subst hk
      rw [if_pos rfl] at hr
      rcases hrec r hr with hr | ⟨rfl, _⟩
      · exact .inl hr
      · exact .inr hi
    · rw [if_neg hk] at hr
      exact .inl hr
  refine ⟨h.clock_lt, ?_, fun j => (h.worker j).follows hf,
    fun a ha => (h.network a ha).follows hf, ?_⟩
  · intro k r hr
    have hr' : (Function.update w.groups (cfg.paxosGroupId key) g
      (cfg.paxosGroupId k)).map[k]? = some r := hr
    rw [hrecord] at hr'
    have hold : w.record cfg k = some r → RecordOk cfg ⟨w.clock,
        fun k => (Function.update w.groups (cfg.paxosGroupId key) g
          (cfg.paxosGroupId k)).map[k]?,
        fun k => Function.update w.lastInstance (cfg.paxosGroupId key) i
          (cfg.paxosGroupId k)⟩ k r := by
      intro hr
      have hok := h.record k r hr
      exact ⟨hok.version_pos, hok.version_le.trans (hlast k), hok.lease, hok.expire⟩
    by_cases hk : k = key
    · subst hk
      rw [if_pos rfl] at hr'
      rcases hrec r hr' with hr | ⟨hv, hl, he⟩
      · exact hold hr
      · exact ⟨by omega, (hv.trans hlastKey.symm).le, hl, he⟩
    · rw [if_neg hk] at hr'
      exact hold hr'
  · intro k
    show Lease.Guarded w.clock (((Function.update w.groups (cfg.paxosGroupId key) g
      (cfg.paxosGroupId k)).map[k]?).map _) _
    rw [hrecord]
    by_cases hk : k = key
    · subst hk
      rw [if_pos rfl]
      exact hguarded
    · rw [if_neg hk]
      intro c e hce
      obtain ⟨j, hj, rfl⟩ := hce
      refine h.guarded k c _ ⟨j, hj, ?_⟩
      exact hbelieved j k hk

lemma renewBelief_self (believed : ι → String → ℕ) (j : ι) (key : String) (e : ℕ) :
    renewBelief believed j key e j key = e := by
  unfold renewBelief
  rw [Function.update_self, Function.update_self]

lemma renewBelief_of_client_ne (believed : ι → String → ℕ) {j k : ι} (hk : k ≠ j)
    (key : String) (e : ℕ) : renewBelief believed j key e k = believed k := by
  unfold renewBelief
  rw [Function.update_of_ne hk]

lemma renewBelief_of_key_ne (believed : ι → String → ℕ) (j k : ι) {key key' : String}
    (hk : key' ≠ key) (e : ℕ) : renewBelief believed j key e k key' = believed k key' := by
  by_cases hj : k = j
  · subst hj
    unfold renewBelief
    rw [Function.update_self, Function.update_of_ne hk]
  · rw [renewBelief_of_client_ne _ hj]

theorem World.Inv.serve (h : w.Inv cfg clientId) {req : Request ι}
    (hreq : RequestOk cfg clientId (w.ledger cfg) req) {i : ℕ}
    (hi : w.lastInstance (cfg.paxosGroupId req.lockKey) < i) :
    (w.serve cfg clientId req i).Inv cfg clientId := by
  have hk : (lockInfo clientId req).lockKey = req.lockKey := rfl
  have hlt := cfg.leaseTimeMs_lt
  have hclock := h.clock_lt
  have hlease := hreq.lease
  unfold World.serve
  dsimp only
  by_cases hpass : ∀ r, w.record cfg req.lockKey = some r → r.version = req.version
  · have hmax : (lockInfo clientId req).leaseTimeMs ≠ uint64Max := by
      show req.leaseTimeMs ≠ uint64Max
      unfold uint64Max
      omega
    have hret := (serveAcquire_pass hreq.key_ne hk w.clock i hpass).1
    have hmap := serveAcquire_record hreq.key_ne hk w.clock i hpass hmax
    rw [if_pos hret]
    have hother : ∀ x, (w.ledger cfg).holder req.lockKey = some x →
        x.owner ≠ clientId req.client → x.bound ≤ w.clock := by
      intro x hx hne
      obtain ⟨r, hr, rfl⟩ := Option.map_eq_some_iff.mp hx
      exact hreq.other r hr (hpass r hr) hne
    have hself : ∀ x, (w.ledger cfg).holder req.lockKey = some x →
        x.bound ≤ w.clock + req.leaseTimeMs := by
      intro x hx
      obtain ⟨r, hr, rfl⟩ := Option.map_eq_some_iff.mp hx
      rw [hlease]
      exact (h.record _ r hr).expire
    refine h.groupStep (renewBelief w.believed req.client req.lockKey
      (w.clock + req.leaseTimeMs)) _ hi (fun k hne => (hmap k).trans (if_pos hne))
      ((hmap req.lockKey).trans (if_neg (not_not.mpr rfl))) ?_
      (fun j k hne => renewBelief_of_key_ne _ _ _ hne _) ?_
    · intro r hr
      split at hr
      · cases hr
      · cases hr
        refine .inr ⟨rfl, hlease, ?_⟩
        show wrap64 (w.clock + req.leaseTimeMs) ≤ _
        rw [hlease, wrap64_of_lt (by omega)]
    · split
      · rename_i hzero
        have hzero : req.leaseTimeMs = 0 := hzero
        refine ((h.guarded req.lockKey).vacate fun x hx => ?_).extend ?_
        · have := hself x hx
          omega
        · rintro c e ⟨j, hj, rfl⟩
          by_cases hjc : j = req.client
          · subst hjc
            rw [renewBelief_self, hzero]
            exact .inr (.inl le_rfl)
          · rw [renewBelief_of_client_ne _ hjc]
            exact .inl ⟨j, hj, rfl⟩
      · have hend : wrap64 (w.clock + req.leaseTimeMs) = w.clock + req.leaseTimeMs :=
          wrap64_of_lt (by omega)
        show Lease.Guarded w.clock
          (some ⟨clientId req.client, wrap64 (w.clock + req.leaseTimeMs)⟩) _
        rw [hend]
        refine ((h.guarded req.lockKey).grant hother fun x hx _ => hself x hx).extend ?_
        rintro c e ⟨j, rfl, rfl⟩
        by_cases hjc : j = req.client
        · subst hjc
          rw [renewBelief_self]
          exact .inr (Lease.covered_self _ _)
        · rw [renewBelief_of_client_ne _ hjc]
          exact .inl ⟨j, rfl, rfl⟩
  · obtain ⟨r, hr, hne⟩ : ∃ r, w.record cfg req.lockKey = some r ∧ r.version ≠ req.version := by
      by_contra hn
      exact hpass fun r hr => not_not.mp fun hne => hn ⟨r, hr, hne⟩
    rw [serveAcquire_fail hreq.key_ne hk w.clock i hr hne, if_neg fun h => nomatch h]
    exact h.groupStep w.believed _ hi (fun _ _ => rfl) rfl (fun r hr => .inl hr) (fun _ _ _ => rfl)
      (h.guarded req.lockKey)

theorem World.Inv.clean (h : w.Inv cfg clientId) {key : String} (hkey : key ≠ "")
    {sampled i : ℕ} (hs : sampled ≤ w.clock) (hi : w.lastInstance (cfg.paxosGroupId key) < i) :
    ({ w with
      groups := Function.update w.groups (cfg.paxosGroupId key)
        (serveClean (w.groups (cfg.paxosGroupId key)) sampled w.clock i key)
      lastInstance := Function.update w.lastInstance (cfg.paxosGroupId key) i } :
      World ι).Inv cfg clientId := by
  have hcases := serveClean_cases (g := w.groups (cfg.paxosGroupId key)) hkey sampled w.clock i
  rcases hcases with hsame | ⟨r, hr, _, hexp, hmap⟩
  · rw [hsame]
    exact h.groupStep w.believed _ hi (fun _ _ => rfl) rfl (fun r hr => .inl hr) (fun _ _ _ => rfl)
      (h.guarded key)
  · refine h.groupStep w.believed none hi ?_ ?_ (fun r hr => (nomatch hr)) (fun _ _ _ => rfl)
      ((h.guarded key).vacate fun x hx => ?_)
    · intro k hne
      rw [hmap, Std.ExtTreeMap.getElem?_erase, if_neg (by simpa using hne.symm)]
    · rw [hmap, Std.ExtTreeMap.getElem?_erase_self]
    · obtain ⟨r', hr', rfl⟩ := Option.map_eq_some_iff.mp hx
      rw [show (w.ledger cfg).record key = some r from hr] at hr'
      cases hr'
      exact hexp.le.trans hs

lemma World.Inv.init : (world cfg clientId).init.Inv cfg clientId := by
  have hnone : ∀ key, (world cfg clientId).init.record cfg key = none :=
    fun _ => Std.ExtTreeMap.getElem?_empty
  refine ⟨Nat.two_pow_pos 63, ?_, ?_, fun a ha => (nomatch ha), ?_⟩
  · intro key r hr
    rw [hnone] at hr
    cases hr
  · intro j
    refine ⟨rfl, le_rfl, ?_, trivial⟩
    intro r hr
    have hr : (world cfg clientId).init.record cfg "" = some r := hr
    rw [hnone] at hr
    cases hr
  · rintro key c e ⟨j, _, rfl⟩
    exact .inl le_rfl

theorem World.Inv.step (h : w.Inv cfg clientId) {e : Event ι}
    (ho : OwnObservation cfg clientId w e) : (w.step cfg clientId e).Inv cfg clientId := by
  cases e with
  | tick d =>
    dsimp only [World.step]
    split
    · rename_i hd
      exact h.tick hd
    · exact h
  | begin j q =>
    dsimp only [World.step]
    split
    · obtain ⟨hnone, hok⟩ := (h.worker j).beginLock q
      have hnone : (beginLock cfg j (w.worker j) w.clock q).2 = none := hnone
      rw [hnone]
      exact h.set hok
    · exact h
  | released j =>
    dsimp only [World.step]
    split
    · rename_i key hph
      have hp := (h.worker j).phase
      rw [hph] at hp
      exact False.elim hp
    · exact h
  | getLockInfo j fault =>
    dsimp only [World.step]
    split
    · rename_i key now hph
      have hw := h.worker j
      obtain ⟨hkey, hnow⟩ : key ≠ "" ∧ now ≤ w.clock := by
        have hp := hw.phase
        rwa [hph] at hp
      refine h.set ⟨hw.lastLockKey, hw.version_le, hw.overdue, ?_⟩
      cases fault with
      | some ret => exact ⟨hkey, hnow⟩
      | none =>
        dsimp only
        rw [getLockInfo_eq hkey]
        cases hr : (w.groups (cfg.paxosGroupId key)).map[key]? with
        | none => exact ⟨hkey, hnow⟩
        | some r =>
          refine ⟨hkey, hnow, (h.record key r hr).version_le, ?_⟩
          intro r' hr' _
          rw [show (w.ledger cfg).record key = some r from hr] at hr'
          cases hr'
          refine ⟨rfl, rfl, fun hne => ?_⟩
          have hsample : (key, now) ∈ (w.worker j).phase.sample? := by
            rw [hph]
            rfl
          exact ho _ hsample r hr hne
    · exact h
  | decide j =>
    dsimp only [World.step]
    split
    · rename_i key now reply hph
      have hok := (h.worker j).handleLockInfo hph (h.record key) h.clock_lt
      unfold World.decide
      dsimp only
      have hset : ({ w.set j (handleLockInfo cfg clientId j (w.worker j) key now reply) with
          seenKey := if (handleLockInfo cfg clientId j (w.worker j) key now reply).version ≠
            (w.worker j).version then Function.update w.seenKey j key else w.seenKey } :
          World ι).Inv cfg clientId := by
        refine h.setSeen ?_ ?_
        · intro k hk
          split
          · rw [Function.update_of_ne hk]
          · rfl
        · by_cases hv : (handleLockInfo cfg clientId j (w.worker j) key now reply).version ≠
              (w.worker j).version
          · rw [if_pos hv] at hok ⊢
            rwa [Function.update_self]
          · rw [if_neg hv] at hok ⊢
            exact hok
      split
      · rename_i req hreq
        have hp := hok.phase
        rw [hreq] at hp
        exact hset.send hp
      · exact hset
    · exact h
  | resend j =>
    dsimp only [World.step]
    split
    · rename_i req hph
      have hp := (h.worker j).phase
      rw [hph] at hp
      exact h.send hp
    · exact h
  | finish j =>
    dsimp only [World.step]
    split
    · exact h.set (h.worker j).idle
    · exact h
  | execute n i =>
    dsimp only [World.step]
    split
    · rename_i req hreq
      split
      · rename_i hi
        exact (h.serve (h.network req (List.mem_of_getElem? hreq)) hi).dropRequest n
      · exact h
    · exact h
  | lose n => exact h.dropRequest n
  | clean key sampled i =>
    dsimp only [World.step]
    split
    · rename_i hs
      exact h.clean hs.1 hs.2.1 hs.2.2
    · exact h

lemma World.Inv.exclusive (h : w.Inv cfg clientId) : Exclusive cfg w := by
  intro q i j hi hj
  have hterm : ∀ k, w.terms clientId (lockKey cfg q) (clientId k) (w.believed k (lockKey cfg q)) :=
    fun k => ⟨k, rfl, rfl⟩
  exact clientId.injective ((h.guarded _).exclusive (hterm i) (hterm j) hi hj)

end

variable (cfg clientId)

end

/-! ## Two workers -/

/-- Two keys in two paxos groups, and the default lease of 30 seconds. -/
def twoGroups : Config :=
  ⟨1, 30, fun _ => false, fun key => if key = "1-1-1-0" then 0 else 1, by decide⟩

def twoClients : Bool ↪ String := ⟨fun b => if b then "10.0.0.2-0" else "10.0.0.1-0", by decide⟩

/-- A call of `DoLock` by `j` that runs without delay and acquires, as instance `i`. -/
def lockCall (j : Bool) (queueId i : ℕ) : List (Event Bool) :=
  [.begin j ⟨lockItemMagic, 1, 1, queueId⟩, .getLockInfo j none, .decide j, .execute 0 i, .finish j]

/-- A worker has version 1 from one key and asks for another, whose record another worker has
just written as instance 1 of its own paxos group.  The old overdue time counts, and it acquires
the lock from its holder. -/
def switchedKey : List (Event Bool) :=
  [.tick 1] ++ lockCall false 0 1 ++ lockCall false 0 2 ++ [.tick 30001] ++ lockCall true 1 1 ++
    lockCall false 1 2

end PhxQueue.Consumer
