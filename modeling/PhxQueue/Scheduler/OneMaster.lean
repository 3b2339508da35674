import PhxQueue.Lib.Lease
import PhxQueue.Scheduler.KeepMaster

/-!
# One scheduler master

The lease of the lock counts from the sample of the round that wrote the record.  A scheduler that
acquires another's record waited a whole lease from its own sample, which ends the master's term
only when that sample is no earlier than the master's.

* `Ledger`           what the rounds rely on: the record, its sample, the samples taken;
* `RequestOk`, `ClientOk`   the invariant of a request and of a scheduler;
* `World.Inv`        the invariant of the runs that keep to `TimelySample`;
* `oneMaster_run`    **in these runs at most one scheduler is master**;
* `delayedGetLockInfo_not_oneMaster`   a run with two.
-/

set_option linter.unusedSectionVars false

namespace PhxQueue.Scheduler
open Comm Lib Lock

lemma Config.leaseTimeMs_lt (cfg : Config) : cfg.leaseTimeMs < 2 ^ 41 := by
  have h := cfg.leaseTimeS_lt
  unfold Config.leaseTimeMs
  rw [wrap64_of_lt (by omega)]
  omega

structure Ledger (ι : Type) where
  record : Option LocalRecordInfo
  holderSample : ℕ
  lastInstance : ℕ
  lastSample : ι → ℕ

section
variable {ι : Type} [DecidableEq ι] (cfg : Config) (ip : ι ↪ String)

def World.ledger (w : World ι) : Ledger ι :=
  ⟨w.record cfg, w.holderSample, w.lastInstance, w.lastSample⟩

/-! ## The invariant -/

/-- A request that is safe to execute at any time: where its version passes, the lease of another
is over, and the sample of its own record is no later. -/
structure RequestOk (L : Ledger ι) (a : Acquire ι) : Prop where
  sample_le : a.now ≤ L.lastSample a.client
  version_le : a.version ≤ L.lastInstance
  own : ∀ r, L.record = some r → r.version = a.version → r.value = ip a.client →
    L.holderSample ≤ a.now
  other : ∀ r, L.record = some r → r.version = a.version → r.value ≠ ip a.client →
    L.holderSample + cfg.leaseTimeMs < a.now

/-- What the scheduler's round knows, `version` being its static. -/
def PhaseOk (L : Ledger ι) (j : ι) (version : ℕ) : Phase → Prop
  | .idle => True
  | .sampled now => now = L.lastSample j
  | .informed now (.ok info) => now = L.lastSample j ∧ info.version ≤ L.lastInstance ∧
      ∀ r, L.record = some r → r.version = info.version →
        info.clientId = r.value ∧ info.leaseTimeMs = r.leaseTimeMs ∧
          (r.value ≠ ip j → r.version ≠ version → L.holderSample ≤ now)
  | .informed now (.error _) => now = L.lastSample j
  | .acquiring now v => RequestOk cfg ip L ⟨j, now, v⟩
  | .acquired now _ => now ≤ L.lastSample j

structure ClientOk (L : Ledger ι) (j : ι) (s : Scheduler) : Prop where
  version_le : s.version ≤ L.lastInstance
  overdue : ∀ r, L.record = some r → r.version = s.version → r.value ≠ ip j →
    L.holderSample + cfg.leaseTimeMs ≤ s.overdueTimeMs
  phase : PhaseOk cfg ip L j s.version s.phase

structure RecordOk (L : Ledger ι) (r : LocalRecordInfo) : Prop where
  version_pos : 0 < r.version
  version_le : r.version ≤ L.lastInstance
  lease : r.leaseTimeMs = cfg.leaseTimeMs
  owner : ∀ j, r.value = ip j → L.holderSample ≤ L.lastSample j
  expire : L.holderSample + cfg.leaseTimeMs ≤ r.expireTimeMs

/-- `s` is master until `e`, or is about to be. -/
def Believes (s : Scheduler) (e : ℕ) : Prop :=
  e = s.masterExpireTimeMs ∨ ∃ now, s.phase = .acquired now .ok ∧ e = now + cfg.leaseTimeMs

def World.terms (w : World ι) (c : String) (e : ℕ) : Prop :=
  ∃ j, ip j = c ∧ Believes cfg (w.sched j) e

/-- The lease as the record has it: the term of its owner ends a lease after its sample. -/
def Ledger.holder (L : Ledger ι) : Option (Holder String) :=
  L.record.map fun r => ⟨r.value, L.holderSample + cfg.leaseTimeMs⟩

structure World.Inv (w : World ι) : Prop where
  clock_lt : w.clock < 2 ^ 63
  sample_le : ∀ j, w.lastSample j ≤ w.clock
  record : ∀ r, w.record cfg = some r → RecordOk cfg ip (w.ledger cfg) r
  client : ∀ j, ClientOk cfg ip (w.ledger cfg) j (w.sched j)
  orphan : ∀ a ∈ w.orphans, RequestOk cfg ip (w.ledger cfg) a
  guarded : Lease.Guarded w.clock ((w.ledger cfg).holder cfg) (w.terms cfg ip)

/-! ## What happens to the ledger -/

/-- Between two ledgers the record stays, goes, or is written under a version nobody has seen. -/
structure Ledger.Follows (L L' : Ledger ι) : Prop where
  lastInstance_le : L.lastInstance ≤ L'.lastInstance
  lastSample_le : ∀ j, L.lastSample j ≤ L'.lastSample j
  record : ∀ r, L'.record = some r →
    (L.record = some r ∧ L'.holderSample = L.holderSample) ∨ L.lastInstance < r.version

variable {cfg ip}
variable {L L' : Ledger ι}

lemma RequestOk.follows (hf : L.Follows L') {a : Acquire ι} (h : RequestOk cfg ip L a) :
    RequestOk cfg ip L' a where
  sample_le := h.sample_le.trans (hf.lastSample_le _)
  version_le := h.version_le.trans hf.lastInstance_le
  own := by
    intro r hr hv hown
    rcases hf.record r hr with ⟨hr', hs⟩ | hlt
    · rw [hs]
      exact h.own r hr' hv hown
    · have := h.version_le
      omega
  other := by
    intro r hr hv hne
    rcases hf.record r hr with ⟨hr', hs⟩ | hlt
    · rw [hs]
      exact h.other r hr' hv hne
    · have := h.version_le
      omega

/-- A scheduler that took no sample is as well off after the step. -/
lemma ClientOk.follows (hf : L.Follows L') {j : ι} (hj : L'.lastSample j = L.lastSample j)
    {s : Scheduler} (h : ClientOk cfg ip L j s) : ClientOk cfg ip L' j s where
  version_le := h.version_le.trans hf.lastInstance_le
  overdue := by
    intro r hr hv hne
    rcases hf.record r hr with ⟨hr', hs⟩ | hlt
    · rw [hs]
      exact h.overdue r hr' hv hne
    · have := h.version_le
      omega
  phase := by
    have hp := h.phase
    cases hph : s.phase with
    | idle => trivial
    | sampled now =>
      rw [hph] at hp
      exact (show now = _ from hp).trans hj.symm
    | informed now reply =>
      rw [hph] at hp
      cases reply with
      | error e => exact (show now = _ from hp).trans hj.symm
      | ok info =>
        obtain ⟨hnow, hv, hrec⟩ := hp
        refine ⟨hnow.trans hj.symm, hv.trans hf.lastInstance_le, ?_⟩
        intro r hr hver
        rcases hf.record r hr with ⟨hr', hs⟩ | hlt
        · rw [hs]
          exact hrec r hr' hver
        · omega
    | acquiring now v =>
      rw [hph] at hp
      exact RequestOk.follows hf hp
    | acquired now ret =>
      rw [hph] at hp
      exact (show now ≤ _ from hp).trans (hf.lastSample_le j)

/-! ## The code of a round -/

/-- **The decision.**  From a timely reply the scheduler learns when another's lease is over, and
the request it may make is safe. -/
lemma ClientOk.handleLockInfo {j : ι} {s : Scheduler} {now : ℕ} {reply : Except RetCode LockInfo}
    (h : ClientOk cfg ip L j s) (hph : s.phase = .informed now reply)
    (hrec : ∀ r, L.record = some r → RecordOk cfg ip L r) (hnow : now < 2 ^ 63) :
    ClientOk cfg ip L j (handleLockInfo (ip j) s now reply) := by
  have hp := h.phase
  rw [hph] at hp
  cases reply with
  | error e =>
    have hidle : ClientOk cfg ip L j { s with phase := .idle } :=
      ⟨h.version_le, h.overdue, trivial⟩
    by_cases he : e = .errKeyNotExist
    · -- no record has version 0, so the request passes on a free lock only
      subst he
      have hno : ∀ r, L.record = some r → r.version ≠ 0 := fun r hr =>
        Nat.pos_iff_ne_zero.mp (hrec r hr).version_pos
      have hle : now ≤ L.lastSample j := le_of_eq hp
      exact ⟨Nat.zero_le _, fun r hr hv => absurd hv (hno r hr), hle, Nat.zero_le _,
        fun r hr hv => absurd hv (hno r hr), fun r hr hv => absurd hv (hno r hr)⟩
    · unfold Scheduler.handleLockInfo
      split
      · rename_i heq
        cases heq
        exact absurd rfl he
      · exact hidle
      · rename_i heq
        cases heq
  | ok info =>
    obtain ⟨hsample, hver, hinfo⟩ := hp
    -- the statics after the reply
    obtain ⟨s', hs', hs'ok, hs'v⟩ : ∃ s' : Scheduler,
        s' = (if s.version ≠ info.version then
          { s with version := info.version, overdueTimeMs := wrap64 (now + info.leaseTimeMs) }
          else s) ∧
        (∀ r, L.record = some r → r.version = s'.version → r.value ≠ ip j →
          L.holderSample + cfg.leaseTimeMs ≤ s'.overdueTimeMs) ∧ s'.version = info.version := by
      refine ⟨_, rfl, ?_⟩
      by_cases hv : s.version ≠ info.version
      · rw [if_pos hv]
        refine ⟨?_, rfl⟩
        intro r hr hrv hne
        obtain ⟨_, hlease, hfirst⟩ := hinfo r hr hrv
        have hle := hfirst hne fun h => hv (h.symm.trans hrv)
        have hmax := cfg.leaseTimeMs_lt
        rw [(hrec r hr).lease] at hlease
        show _ ≤ wrap64 (now + info.leaseTimeMs)
        rw [hlease, wrap64_of_lt (by omega)]
        omega
      · rw [if_neg hv]
        exact ⟨h.overdue, not_not.mp hv⟩
    have heq : Scheduler.handleLockInfo (ip j) s now (.ok info) =
        if ip j = info.clientId ∨ now > s'.overdueTimeMs then
          { s' with phase := .acquiring now s'.version } else { s' with phase := .idle } := by
      rw [hs']
      rfl
    have hver' : s'.version ≤ L.lastInstance := by rwa [hs'v]
    rw [heq]
    by_cases hgo : ip j = info.clientId ∨ now > s'.overdueTimeMs
    · rw [if_pos hgo]
      refine ⟨hver', hs'ok, le_of_eq hsample, hver', ?_, ?_⟩
      · intro r hr _ hown
        exact ((hrec r hr).owner j hown).trans (le_of_eq hsample.symm)
      · intro r hr hrv hne
        have hrv : r.version = s'.version := hrv
        rcases hgo with hgo | hgo
        · have hval := (hinfo r hr (hrv.trans hs'v)).1
          exact absurd (hgo.trans hval).symm hne
        · exact lt_of_le_of_lt (hs'ok r hr hrv hne) hgo
    · rw [if_neg hgo]
      exact ⟨hver', hs'ok, trivial⟩

@[simp] lemma handleLockInfo_expire (clientId : String) (s : Scheduler) (now : ℕ)
    (reply : Except RetCode LockInfo) :
    (handleLockInfo clientId s now reply).masterExpireTimeMs = s.masterExpireTimeMs := by
  unfold handleLockInfo
  split
  · rfl
  · rfl
  · dsimp only
    split <;> split <;> rfl

lemma handleLockInfo_phase (clientId : String) (s : Scheduler) (now : ℕ)
    (reply : Except RetCode LockInfo) (now' : ℕ) (ret : RetCode) :
    (handleLockInfo clientId s now reply).phase ≠ .acquired now' ret := by
  unfold handleLockInfo
  split
  · exact fun h => nomatch h
  · exact fun h => nomatch h
  · dsimp only
    split <;> split <;> exact fun h => nomatch h

/-! ## One step -/

section
variable {w : World ι}

/-- One scheduler moves, to variables as sound and to no term that is not covered. -/
lemma World.Inv.set (h : w.Inv cfg ip) {j : ι} {s : Scheduler}
    (hc : ClientOk cfg ip (w.ledger cfg) j s)
    (hb : ∀ e, Believes cfg s e → Believes cfg (w.sched j) e ∨
      Lease.Covered w.clock ((w.ledger cfg).holder cfg) (ip j) e) :
    (w.set j s).Inv cfg ip where
  clock_lt := h.clock_lt
  sample_le := h.sample_le
  record := h.record
  client := by
    intro k
    show ClientOk cfg ip (w.ledger cfg) k (Function.update w.sched j s k)
    by_cases hk : k = j
    · subst hk
      rw [Function.update_self]
      exact hc
    · rw [Function.update_of_ne hk]
      exact h.client k
  orphan := h.orphan
  guarded := by
    refine h.guarded.extend ?_
    rintro c e ⟨k, rfl, he⟩
    have he : Believes cfg (Function.update w.sched j s k) e := he
    by_cases hk : k = j
    · subst hk
      rw [Function.update_self] at he
      rcases hb e he with he | he
      · exact .inl ⟨k, rfl, he⟩
      · exact .inr he
    · rw [Function.update_of_ne hk] at he
      exact .inl ⟨k, rfl, he⟩

/-- A scheduler moves to a phase in which no new mastership is coming. -/
lemma World.Inv.setPhase (h : w.Inv cfg ip) {j : ι} {p : Phase}
    (hp : PhaseOk cfg ip (w.ledger cfg) j (w.sched j).version p)
    (hne : ∀ now, p ≠ .acquired now .ok) : (w.setPhase j p).Inv cfg ip := by
  refine h.set ⟨(h.client j).version_le, (h.client j).overdue, hp⟩ ?_
  rintro e (rfl | ⟨now, hph, _⟩)
  · exact .inl (.inl rfl)
  · exact absurd hph (hne now)

lemma World.Inv.tick (h : w.Inv cfg ip) {d : ℕ} (hd : w.clock + d < 2 ^ 63) :
    ({ w with clock := w.clock + d } : World ι).Inv cfg ip :=
  ⟨hd, fun j => (h.sample_le j).trans (Nat.le_add_right _ _), h.record, h.client, h.orphan,
    h.guarded.tick (Nat.le_add_right _ _)⟩

/-- The lock service moves: the record and the pending lease are replaced by sound ones. -/
lemma World.Inv.serviceStep (h : w.Inv cfg ip) {g : GroupData} {i s : ℕ}
    (hf : (w.ledger cfg).Follows ⟨g.map[cfg.lockKey]?, s, i, w.lastSample⟩)
    (hrec : ∀ r, g.map[cfg.lockKey]? = some r →
      RecordOk cfg ip ⟨g.map[cfg.lockKey]?, s, i, w.lastSample⟩ r)
    (hg : Lease.Guarded w.clock
      ((⟨g.map[cfg.lockKey]?, s, i, w.lastSample⟩ : Ledger ι).holder cfg) (w.terms cfg ip)) :
    ({ w with g := g, lastInstance := i, holderSample := s } : World ι).Inv cfg ip :=
  ⟨h.clock_lt, h.sample_le, hrec, fun j => (h.client j).follows hf rfl,
    fun a ha => (h.orphan a ha).follows hf, hg⟩

lemma holder_some {r : LocalRecordInfo} {s i : ℕ} {f : ι → ℕ} {x : Holder String}
    (hx : Ledger.holder cfg ⟨some r, s, i, f⟩ = some x) :
    x = ⟨r.value, s + cfg.leaseTimeMs⟩ := (Option.some.inj hx).symm

lemma World.serve_pass {a : Acquire ι} (i : ℕ)
    (hpass : ∀ r, w.record cfg = some r → r.version = a.version) :
    (serveAcquire w.g w.clock i (request cfg ip a)).1 = .ok ∧
      (serveAcquire w.g w.clock i (request cfg ip a)).2.map[cfg.lockKey]? =
        if cfg.leaseTimeMs = 0 then none
        else some ⟨i, ip a.client, cfg.leaseTimeMs, wrap64 (w.clock + cfg.leaseTimeMs)⟩ := by
  have hk : (request cfg ip a).lockKey = cfg.lockKey := rfl
  have hmax : (request cfg ip a).leaseTimeMs ≠ uint64Max := by
    have hlt : (request cfg ip a).leaseTimeMs < 2 ^ 41 := cfg.leaseTimeMs_lt
    unfold uint64Max
    omega
  refine ⟨(serveAcquire_pass cfg.lockKey_ne hk w.clock i hpass).1, ?_⟩
  rw [serveAcquire_record cfg.lockKey_ne hk w.clock i hpass hmax, if_neg (not_not.mpr rfl)]
  rfl

theorem World.Inv.serve (h : w.Inv cfg ip) {a : Acquire ι} (ha : RequestOk cfg ip (w.ledger cfg) a)
    {i : ℕ} (hi : w.lastInstance < i) :
    (w.serve cfg ip a i).Inv cfg ip ∧
      ((serveAcquire w.g w.clock i (request cfg ip a)).1 = .ok →
        Lease.Covered w.clock (((w.serve cfg ip a i).ledger cfg).holder cfg) (ip a.client)
          (a.now + cfg.leaseTimeMs)) := by
  have hclock : a.now ≤ w.clock := ha.sample_le.trans (h.sample_le _)
  by_cases hpass : ∀ r, w.record cfg = some r → r.version = a.version
  · obtain ⟨hret, hmap⟩ := World.serve_pass i hpass
    have hother : ∀ x, (w.ledger cfg).holder cfg = some x → x.owner ≠ ip a.client →
        x.bound ≤ w.clock := by
      intro x hx hne
      obtain ⟨r, hr, rfl⟩ := Option.map_eq_some_iff.mp hx
      have := ha.other r hr (hpass r hr) hne
      show _ + _ ≤ _
      omega
    have hself : ∀ x, (w.ledger cfg).holder cfg = some x → x.owner = ip a.client →
        x.bound ≤ a.now + cfg.leaseTimeMs := by
      intro x hx hown
      obtain ⟨r, hr, rfl⟩ := Option.map_eq_some_iff.mp hx
      exact Nat.add_le_add_right (ha.own r hr (hpass r hr) hown) _
    have hmaxLease := cfg.leaseTimeMs_lt
    have hclockLt := h.clock_lt
    unfold World.serve
    rw [if_pos hret]
    by_cases hl : cfg.leaseTimeMs = 0
    · rw [if_pos hl] at hmap
      constructor
      · refine h.serviceStep ⟨hi.le, fun _ => le_rfl, ?_⟩ ?_ ?_
        · intro r hr
          rw [hmap] at hr
          cases hr
        · intro r hr
          rw [hmap] at hr
          cases hr
        · rw [hmap]
          refine h.guarded.vacate fun x hx => ?_
          by_cases hown : x.owner = ip a.client
          · exact (hself x hx hown).trans (by omega)
          · exact hother x hx hown
      · intro _
        exact .inl (by omega)
    · rw [if_neg hl] at hmap
      constructor
      · refine h.serviceStep ⟨hi.le, fun _ => le_rfl, ?_⟩ ?_ ?_
        · intro r hr
          rw [hmap] at hr
          cases hr
          exact .inr hi
        · intro r hr
          rw [hmap] at hr
          cases hr
          refine ⟨Nat.zero_lt_of_lt hi, le_rfl, rfl, ?_, ?_⟩
          · intro j hj
            rw [← ip.injective hj]
            exact ha.sample_le
          · show a.now + _ ≤ wrap64 _
            rw [wrap64_of_lt (by omega)]
            omega
        · rw [hmap]
          exact h.guarded.grant hother hself
      · intro _
        show Lease.Covered _ (Option.map _ (serveAcquire _ _ _ _).2.map[cfg.lockKey]?) _ _
        rw [hmap]
        exact Lease.covered_self _ _
  · obtain ⟨r, hr, hne⟩ : ∃ r, w.record cfg = some r ∧ r.version ≠ a.version := by
      by_contra hn
      exact hpass fun r hr => not_not.mp fun hne => hn ⟨r, hr, hne⟩
    have hk : (request cfg ip a).lockKey = cfg.lockKey := rfl
    have hfail := serveAcquire_fail cfg.lockKey_ne hk w.clock i hr hne
    have hret : (serveAcquire w.g w.clock i (request cfg ip a)).1 ≠ .ok := by
      rw [hfail]
      exact fun h => nomatch h
    refine ⟨?_, fun hok => absurd hok hret⟩
    unfold World.serve
    rw [if_neg hret, hfail]
    refine h.serviceStep ⟨hi.le, fun _ => le_rfl, fun r hr => .inl ⟨hr, rfl⟩⟩ ?_ h.guarded
    intro r hr
    have hok := h.record r hr
    exact ⟨hok.version_pos, hok.version_le.trans hi.le, hok.lease, hok.owner, hok.expire⟩

theorem World.Inv.clean (h : w.Inv cfg ip) {sampled i : ℕ} (hs : sampled ≤ w.clock)
    (hi : w.lastInstance < i) :
    ({ w with g := serveClean w.g sampled w.clock i cfg.lockKey, lastInstance := i } :
      World ι).Inv cfg ip := by
  have hcases := serveClean_cases (g := w.g) cfg.lockKey_ne sampled w.clock i
  rcases hcases with hsame | ⟨r, hr, _, hexp, hmap⟩
  · rw [hsame]
    refine h.serviceStep ⟨hi.le, fun _ => le_rfl, fun r hr => .inl ⟨hr, rfl⟩⟩ ?_ h.guarded
    intro r hr
    have hok := h.record r hr
    exact ⟨hok.version_pos, hok.version_le.trans hi.le, hok.lease, hok.owner, hok.expire⟩
  · have hnone : (serveClean w.g sampled w.clock i cfg.lockKey).map[cfg.lockKey]? = none := by
      rw [hmap, Std.ExtTreeMap.getElem?_erase_self]
    refine h.serviceStep ⟨hi.le, fun _ => le_rfl, ?_⟩ ?_ ?_
    · intro r hr
      rw [hnone] at hr
      cases hr
    · intro r hr
      rw [hnone] at hr
      cases hr
    · rw [hnone]
      refine h.guarded.vacate fun x hx => ?_
      have hx' : Ledger.holder cfg ⟨w.record cfg, w.holderSample, w.lastInstance, w.lastSample⟩
          = some x := hx
      rw [show w.record cfg = some r from hr] at hx'
      have hbound := (h.record r hr).expire
      rw [holder_some hx']
      exact (hbound.trans hexp.le).trans hs

lemma World.Inv.init : (world cfg ip).init.Inv cfg ip := by
  have hnone : (world cfg ip).init.record cfg = none := Std.ExtTreeMap.getElem?_empty
  refine ⟨Nat.two_pow_pos 63, fun _ => le_rfl, ?_, ?_, fun a ha => (nomatch ha), ?_⟩
  · intro r hr
    rw [hnone] at hr
    cases hr
  · intro j
    refine ⟨le_rfl, ?_, trivial⟩
    intro r hr
    have hr : (world cfg ip).init.record cfg = some r := hr
    rw [hnone] at hr
    cases hr
  · rintro c e ⟨j, _, rfl | ⟨now, hph, _⟩⟩
    · exact .inl le_rfl
    · cases hph

/-- **Every step that keeps to timely samples keeps the invariant.** -/
theorem World.Inv.step (h : w.Inv cfg ip) {e : Event ι} (ht : TimelySample cfg ip w e) :
    (w.step cfg ip e).Inv cfg ip := by
  cases e with
  | tick d =>
    dsimp only [World.step]
    split
    · rename_i hd
      exact h.tick hd
    · exact h
  | sample j =>
    dsimp only [World.step]
    split
    · rename_i hph
      have hf : (w.ledger cfg).Follows
          ⟨w.record cfg, w.holderSample, w.lastInstance,
            Function.update w.lastSample j w.clock⟩ := by
        refine ⟨le_rfl, fun k => ?_, fun r hr => .inl ⟨hr, rfl⟩⟩
        show w.lastSample k ≤ Function.update w.lastSample j w.clock k
        by_cases hk : k = j
        · subst hk
          rw [Function.update_self]
          exact h.sample_le k
        · rw [Function.update_of_ne hk]
      refine ⟨h.clock_lt, ?_, ?_, ?_, fun a ha => (h.orphan a ha).follows hf, ?_⟩
      · intro k
        show Function.update w.lastSample j w.clock k ≤ w.clock
        by_cases hk : k = j
        · subst hk
          rw [Function.update_self]
        · rw [Function.update_of_ne hk]
          exact h.sample_le k
      · intro r hr
        have hok := h.record r hr
        exact ⟨hok.version_pos, hok.version_le, hok.lease,
          fun k hk => (hok.owner k hk).trans (hf.lastSample_le k), hok.expire⟩
      · intro k
        show ClientOk cfg ip _ k (Function.update w.sched j _ k)
        by_cases hk : k = j
        · subst hk
          rw [Function.update_self]
          have hc := h.client k
          refine ⟨hc.version_le, hc.overdue, ?_⟩
          show w.clock = Function.update w.lastSample k w.clock k
          rw [Function.update_self]
        · rw [Function.update_of_ne hk]
          exact (h.client k).follows hf (Function.update_of_ne hk _ _)
      · refine h.guarded.extend ?_
        rintro c e ⟨k, rfl, he⟩
        have he : Believes cfg (Function.update w.sched j _ k) e := he
        by_cases hk : k = j
        · subst hk
          rw [Function.update_self] at he
          rcases he with he | ⟨now, hp, _⟩
          · exact .inl ⟨k, rfl, .inl he⟩
          · cases hp
        · rw [Function.update_of_ne hk] at he
          exact .inl ⟨k, rfl, he⟩
    · exact h
  | getLockInfo j =>
    dsimp only [World.step]
    split
    · rename_i now hph
      have hnow : now = w.lastSample j := by
        have hp := (h.client j).phase
        rwa [hph] at hp
      refine h.setPhase ?_ fun _ => fun hp => nomatch hp
      rw [getLockInfo_eq cfg.lockKey_ne]
      cases hr : w.g.map[cfg.lockKey]? with
      | none => exact hnow
      | some r =>
        refine ⟨hnow, (h.record r hr).version_le, ?_⟩
        intro r' hr' _
        have hr' : w.record cfg = some r' := hr'
        rw [show w.record cfg = some r from hr] at hr'
        cases hr'
        refine ⟨rfl, rfl, fun hne hv => ?_⟩
        have hsample : now ∈ (w.sched j).phase.sample? := by
          rw [hph]
          rfl
        exact ht now hsample r hr hne hv
    · exact h
  | decide j =>
    dsimp only [World.step]
    split
    · rename_i now reply hph
      have hnow : now = w.lastSample j := by
        have hp := (h.client j).phase
        rw [hph] at hp
        cases reply with
        | error e => exact hp
        | ok info => exact hp.1
      have hlt : now < 2 ^ 63 := by
        have := h.sample_le j
        have := h.clock_lt
        omega
      refine h.set ((h.client j).handleLockInfo hph h.record hlt) ?_
      rintro e (rfl | ⟨now', hp, _⟩)
      · exact .inl (.inl (handleLockInfo_expire ..))
      · exact (handleLockInfo_phase _ _ _ _ _ _ hp).elim
    · exact h
  | acquire j i =>
    dsimp only [World.step]
    split
    · rename_i now version hph
      split
      · rename_i hi
        have hreq : RequestOk cfg ip (w.ledger cfg) ⟨j, now, version⟩ := by
          have hp := (h.client j).phase
          rwa [hph] at hp
        obtain ⟨hserve, hcov⟩ := h.serve hreq hi
        refine hserve.set ?_ ?_
        · have hc := hserve.client j
          exact ⟨hc.version_le, hc.overdue, hreq.sample_le⟩
        · rintro e (rfl | ⟨now', hp, rfl⟩)
          · exact .inl (.inl rfl)
          · obtain ⟨rfl, hret⟩ := Phase.acquired.inj hp
            exact .inr (hcov hret)
      · exact h
    · exact h
  | finish j =>
    dsimp only [World.step]
    split
    · rename_i now ret hph
      have hc := h.client j
      have hlt : now + cfg.leaseTimeMs < 2 ^ 64 := by
        have hp := hc.phase
        rw [hph] at hp
        have hp : now ≤ w.lastSample j := hp
        have := h.sample_le j
        have := h.clock_lt
        have := cfg.leaseTimeMs_lt
        omega
      refine h.set ?_ ?_
      · unfold handleAcquire
        split
        · exact ⟨hc.version_le, hc.overdue, trivial⟩
        · exact ⟨hc.version_le, hc.overdue, trivial⟩
      · intro e he
        unfold handleAcquire at he
        split at he
        · rename_i hok
          subst hok
          rcases he with rfl | ⟨_, hp, _⟩
          · exact .inl (.inr ⟨now, hph, wrap64_of_lt hlt⟩)
          · cases hp
        · rcases he with rfl | ⟨_, hp, _⟩
          · exact .inl (.inl rfl)
          · cases hp
    · exact h
  | giveUp j =>
    dsimp only [World.step, World.giveUp]
    have hidle := h.setPhase (j := j) (p := .idle) trivial fun _ => fun hp => nomatch hp
    split
    · rename_i now version hph
      have hreq : RequestOk cfg ip (w.ledger cfg) ⟨j, now, version⟩ := by
        have hp := (h.client j).phase
        rwa [hph] at hp
      refine ⟨hidle.clock_lt, hidle.sample_le, hidle.record, hidle.client, ?_, hidle.guarded⟩
      intro a ha
      rcases List.mem_cons.mp ha with rfl | ha
      · exact hreq
      · exact h.orphan a ha
    · exact hidle
  | orphan n i =>
    dsimp only [World.step]
    split
    · rename_i a ha
      split
      · rename_i hi
        have hserve := (h.serve (h.orphan a (List.mem_of_getElem? ha)) hi).1
        exact ⟨hserve.clock_lt, hserve.sample_le, hserve.record, hserve.client,
          fun b hb => hserve.orphan b (List.mem_of_mem_eraseIdx hb), hserve.guarded⟩
      · exact h
    · exact h
  | clean sampled i =>
    dsimp only [World.step]
    split
    · rename_i hs
      exact h.clean hs.1 hs.2
    · exact h

lemma World.Inv.oneMaster (h : w.Inv cfg ip) : OneMaster w := by
  intro i j hi hj
  have hterm : ∀ k, w.terms cfg ip (ip k) (w.sched k).masterExpireTimeMs :=
    fun k => ⟨k, rfl, .inl rfl⟩
  exact ip.injective (h.guarded.exclusive (hterm i) (hterm j) hi hj)

end

variable (cfg ip)

end

/-! ## Two schedulers -/

def defaultConfig : Config := ⟨"scheduler", 20, by decide, by decide⟩

def twoIps : Bool ↪ String := ⟨fun b => if b then "10.0.0.2" else "10.0.0.1", by decide⟩

/-- A round of `j` that runs without delay, its proposal chosen as instance `i`. -/
def round (j : Bool) (i : ℕ) : List (Event Bool) :=
  [.sample j, .getLockInfo j, .decide j, .acquire j i, .finish j]

/-- A scheduler samples, and asks for the lock when another has acquired it at a later sample.
Its overdue time is too early by the delay, and it acquires the lock from a master. -/
def delayedGetLockInfo : List (Event Bool) :=
  [.sample false, .tick 100] ++ round true 1 ++ [.getLockInfo false, .decide false] ++
    [.tick 19901] ++ round false 2

end PhxQueue.Scheduler
