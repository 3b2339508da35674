import PhxQueue.Lib.Run
import PhxQueue.Lock.Service

/-!
# Keeping the scheduler master

The keep-master step of `scheduler/keepmasterthread.cpp`, run by any number of schedulers against
one lock.  A round samples the clock, asks for the lock, decides, tries to acquire, and on success
counts its mastership from the sample; requests and replies take any time and may be lost.

* `handleLockInfo`, `handleAcquire`, `isMaster`   the code of a round;
* `World`, `world`   the schedulers, the lock service and the requests of abandoned rounds;
* `OneMaster`        at most one scheduler is master;
* `TimelySample`     a scheduler that first sees another's record sampled its clock no earlier
                     than the round that wrote the record.
-/

set_option linter.unusedSectionVars false
set_option linter.dupNamespace false

namespace PhxQueue.Scheduler
open Comm Lib Lock

/-- `scheduler_lock_key` and `scheduler_lock_lease_time_s`, a time in an `int32`. -/
structure Config where
  lockKey : String
  leaseTimeS : ℕ
  lockKey_ne : lockKey ≠ ""
  leaseTimeS_lt : leaseTimeS < 2 ^ 31

def Config.leaseTimeMs (cfg : Config) : ℕ := wrap64 (cfg.leaseTimeS * 1000)

inductive Phase
  | idle
  /-- The clock has been sampled. -/
  | sampled (now : ℕ)
  /-- The reply to `GetLockInfo` is under way. -/
  | informed (now : ℕ) (reply : Except RetCode LockInfo)
  /-- `AcquireLock` is under way. -/
  | acquiring (now version : ℕ)
  /-- The reply to `AcquireLock` is under way. -/
  | acquired (now : ℕ) (ret : RetCode)

/-- The variables of one scheduler: the two statics of `KeepMaster`, and the manager's. -/
structure Scheduler where
  version : ℕ := 0
  overdueTimeMs : ℕ := 0
  masterExpireTimeMs : ℕ := 0
  phase : Phase := .idle

/-- The middle of `KeepMaster`: the reply to `GetLockInfo` and the decision. -/
def handleLockInfo (clientId : String) (s : Scheduler) (now : ℕ)
    (reply : Except RetCode LockInfo) : Scheduler :=
  match reply with
  | .error .errKeyNotExist =>
    { s with version := 0, overdueTimeMs := now, phase := .acquiring now 0 }
  | .error _ => { s with phase := .idle }
  | .ok info =>
    let s := if s.version ≠ info.version then
        { s with version := info.version, overdueTimeMs := wrap64 (now + info.leaseTimeMs) }
      else s
    if clientId = info.clientId ∨ now > s.overdueTimeMs then
      { s with phase := .acquiring now s.version }
    else { s with phase := .idle }

/-- The end of `KeepMaster`, with `RenewMaster`. -/
def handleAcquire (cfg : Config) (s : Scheduler) (now : ℕ) (ret : RetCode) : Scheduler :=
  if ret = .ok then
    { s with masterExpireTimeMs := wrap64 (now + cfg.leaseTimeMs), phase := .idle }
  else { s with phase := .idle }

def isMaster (clock : ℕ) (s : Scheduler) : Prop := clock < s.masterExpireTimeMs

/-- An `AcquireLock` request. -/
structure Acquire (ι : Type) where
  client : ι
  now : ℕ
  version : ℕ

/-- The schedulers and the lock service, on one clock.  `holderSample` is the sample of the round
that wrote the record, `lastSample` the latest sample of each scheduler. -/
structure World (ι : Type) where
  clock : ℕ := 0
  g : GroupData := {}
  lastInstance : ℕ := 0
  sched : ι → Scheduler := fun _ => {}
  orphans : List (Acquire ι) := []
  holderSample : ℕ := 0
  lastSample : ι → ℕ := fun _ => 0

inductive Event (ι : Type)
  | tick (d : ℕ)
  | sample (j : ι)
  | getLockInfo (j : ι)
  | decide (j : ι)
  /-- The request is executed, its proposal chosen as instance `i`. -/
  | acquire (j : ι) (i : ℕ)
  | finish (j : ι)
  /-- The round ends without the reply; a request under way may still arrive. -/
  | giveUp (j : ι)
  | orphan (n i : ℕ)
  /-- The clean thread, which read the clock at `sampled`. -/
  | clean (sampled i : ℕ)

section
variable {ι : Type} [DecidableEq ι] (cfg : Config) (ip : ι ↪ String)

namespace World

def set (w : World ι) (j : ι) (s : Scheduler) : World ι :=
  { w with sched := Function.update w.sched j s }

def setPhase (w : World ι) (j : ι) (p : Phase) : World ι := w.set j { w.sched j with phase := p }

/-- What `AcquireLock` asks for. -/
def request (a : Acquire ι) : LockInfo :=
  { lockKey := cfg.lockKey, version := a.version, clientId := ip a.client,
    leaseTimeMs := cfg.leaseTimeMs }

def serve (w : World ι) (a : Acquire ι) (i : ℕ) : World ι :=
  { w with
    g := (serveAcquire w.g w.clock i (request cfg ip a)).2
    lastInstance := i
    holderSample := if (serveAcquire w.g w.clock i (request cfg ip a)).1 = .ok then a.now
      else w.holderSample }

def giveUp (w : World ι) (j : ι) : World ι :=
  match (w.sched j).phase with
  | .acquiring now version =>
    { w.setPhase j .idle with orphans := ⟨j, now, version⟩ :: w.orphans }
  | _ => w.setPhase j .idle

/-- One step; an event that is not due changes nothing.  Instance numbers increase from 1 on, and
the clock, milliseconds since 1970, stays below `2 ^ 63`. -/
def step (w : World ι) : Event ι → World ι
  | .tick d => if w.clock + d < 2 ^ 63 then { w with clock := w.clock + d } else w
  | .sample j =>
    match (w.sched j).phase with
    | .idle => { w.setPhase j (.sampled w.clock) with
        lastSample := Function.update w.lastSample j w.clock }
    | _ => w
  | .getLockInfo j =>
    match (w.sched j).phase with
    | .sampled now => w.setPhase j (.informed now (getLockInfo w.g cfg.lockKey))
    | _ => w
  | .decide j =>
    match (w.sched j).phase with
    | .informed now reply => w.set j (handleLockInfo (ip j) (w.sched j) now reply)
    | _ => w
  | .acquire j i =>
    match (w.sched j).phase with
    | .acquiring now version =>
      if w.lastInstance < i then
        (w.serve cfg ip ⟨j, now, version⟩ i).setPhase j (.acquired now
          (serveAcquire w.g w.clock i (request cfg ip ⟨j, now, version⟩)).1)
      else w
    | _ => w
  | .finish j =>
    match (w.sched j).phase with
    | .acquired now ret => w.set j (handleAcquire cfg (w.sched j) now ret)
    | _ => w
  | .giveUp j => w.giveUp j
  | .orphan n i =>
    match w.orphans[n]? with
    | some a =>
      if w.lastInstance < i then
        { w.serve cfg ip a i with orphans := w.orphans.eraseIdx n }
      else w
    | none => w
  | .clean sampled i =>
    if sampled ≤ w.clock ∧ w.lastInstance < i then
      { w with g := serveClean w.g sampled w.clock i cfg.lockKey, lastInstance := i }
    else w

def record (w : World ι) : Option LocalRecordInfo := w.g.map[cfg.lockKey]?

end World

/-- Any number of schedulers with distinct addresses, and a free lock. -/
def world : Machine (World ι) (Event ι) where
  init := {}
  step := World.step cfg ip

def OneMaster (w : World ι) : Prop :=
  ∀ i j, isMaster w.clock (w.sched i) → isMaster w.clock (w.sched j) → i = j

/-- The sample of a round that is about to ask for the lock. -/
def Phase.sample? : Phase → Option ℕ
  | .sampled now => some now
  | _ => none

/-- A scheduler that is told of a version it has not seen, in another's record, sampled its clock
no earlier than the round that wrote the record. -/
def TimelySample (w : World ι) : Event ι → Prop
  | .getLockInfo j => ∀ now ∈ (w.sched j).phase.sample?, ∀ r ∈ w.record cfg,
      r.value ≠ ip j → r.version ≠ (w.sched j).version → w.holderSample ≤ now
  | _ => True

instance (clock : ℕ) (s : Scheduler) : Decidable (isMaster clock s) :=
  inferInstanceAs (Decidable (clock < _))

instance (w : World ι) : ∀ e, Decidable (TimelySample cfg ip w e)
  | .getLockInfo j => inferInstanceAs (Decidable (∀ now ∈ (w.sched j).phase.sample?,
      ∀ r ∈ w.record cfg, _ → _ → _))
  | .tick _ | .sample _ | .decide _ | .acquire _ _ | .finish _ | .giveUp _ | .orphan _ _
  | .clean _ _ => inferInstanceAs (Decidable True)

end

end PhxQueue.Scheduler
