import PhxQueue.Lib.Run
import PhxQueue.Lock.Service

/-!
# Locking a queue

`DoLock` of `consumer/hblock.cpp`, run by any number of worker processes against the lock service,
whose keys are spread over paxos groups with their own instance ids.  A worker keeps one version
and one overdue time for all the keys it ever asks for.

* `beginLock`, `handleLockInfo`   the code of a call of `DoLock`;
* `World`, `world`     the workers, the lock service and the requests in the network;
* `Exclusive`          at most one worker believes it holds a queue;
* `OwnObservation`     a worker that is told of another's record either has its version from the
                       record's own key, or sampled its clock no earlier than the record.
-/

set_option linter.unusedSectionVars false

namespace PhxQueue.Consumer
open Comm Lib Lock

/-- What the workers share: the topic, its `consumer_lock_lease_time_s` (a time in an `int32`), the
consumer groups with `skip_lock`, and the paxos group of a lock key,
`HashUi32(lock_key) % nr_group`. -/
structure Config where
  topicId : ℕ
  leaseTimeS : ℕ
  skipLock : ℕ → Bool
  paxosGroupId : String → ℕ
  leaseTimeS_lt : leaseTimeS < 2 ^ 31

def Config.leaseTimeMs (cfg : Config) : ℕ := wrap64 (cfg.leaseTimeS * 1000)

def lockItemMagic : ℕ := 889735

/-- `Queue_t`. -/
structure Queue where
  magic : ℕ := lockItemMagic
  consumerGroupId : ℕ
  storeId : ℕ
  queueId : ℕ

def lockKey (cfg : Config) (q : Queue) : String :=
  toString cfg.topicId ++ "-" ++ toString q.consumerGroupId ++ "-" ++ toString q.storeId ++ "-" ++
    toString q.queueId

/-- An `AcquireLock` request. -/
structure Request (ι : Type) where
  client : ι
  lockKey : String
  version : ℕ
  leaseTimeMs : ℕ

/-- Where a call of `DoLock` stands. -/
inductive Phase (ι : Type)
  | idle
  /-- The release of the last key is under way; `key` is the new one. -/
  | releasing (key : String)
  /-- The clock has been sampled. -/
  | sampled (key : String) (now : ℕ)
  /-- The reply to `GetLockInfo` is under way. -/
  | informed (key : String) (now : ℕ) (reply : Except RetCode LockInfo)
  /-- `AcquireLock` is under way. -/
  | acquiring (req : Request ι)

/-- The statics of `DoLock` in one worker process. -/
structure Worker (ι : Type) where
  lastLockKey : String := ""
  version : ℕ := 0
  overdueTimeMs : ℕ := 0
  phase : Phase ι := .idle

section
variable {ι : Type} [DecidableEq ι] (cfg : Config) (clientId : ι ↪ String)

/-- The start of `DoLock`, up to the clock sample or the release of the last key. -/
def beginLock (j : ι) (s : Worker ι) (clock : ℕ) (q : Queue) : Worker ι × Option (Request ι) :=
  if q.magic ≠ lockItemMagic then (s, none) else
  if cfg.skipLock q.consumerGroupId then (s, none) else
  if s.lastLockKey ≠ "" ∧ s.lastLockKey ≠ lockKey cfg q then
    ({ s with phase := .releasing (lockKey cfg q) }, some ⟨j, s.lastLockKey, s.version, 0⟩)
  else ({ s with phase := .sampled (lockKey cfg q) clock }, none)

def afterRelease (clock : ℕ) (key : String) : Worker ι :=
  ⟨key, 0, 0, .sampled key clock⟩

/-- What `DoLock` reads of a reply: a positive return code leaves the default message. -/
def lockInfoOf : Except RetCode LockInfo → Option LockInfo
  | .ok info => some info
  | .error ret => if ret.asInteger < 0 then none else some ⟨"", 0, "", 0⟩

def observe (s : Worker ι) (now : ℕ) (info : LockInfo) : Worker ι :=
  if s.version ≠ info.version then
    { s with version := info.version, overdueTimeMs := wrap64 (now + info.leaseTimeMs) }
  else s

/-- The middle of `DoLock`: the reply to `GetLockInfo` and the decision. -/
def handleLockInfo (j : ι) (s : Worker ι) (key : String) (now : ℕ)
    (reply : Except RetCode LockInfo) : Worker ι :=
  match lockInfoOf reply with
  | none => { s with phase := .idle }
  | some info =>
    let s := observe s now info
    if clientId j = info.clientId ∨ now > s.overdueTimeMs then
      { s with phase := .acquiring ⟨j, key, s.version, cfg.leaseTimeMs⟩ }
    else { s with phase := .idle }

/-- The workers, the lock service and the network, on one clock.  `believed j k` is when `j` stops
to believe it holds `k`; `seenKey j` is the key `j` has its version from. -/
structure World (ι : Type) where
  clock : ℕ := 0
  groups : ℕ → GroupData := fun _ => {}
  lastInstance : ℕ → ℕ := fun _ => 0
  worker : ι → Worker ι := fun _ => {}
  network : List (Request ι) := []
  believed : ι → String → ℕ := fun _ _ => 0
  seenKey : ι → String := fun _ => ""

/-- The belief of a client in a key is replaced. -/
def renewBelief (believed : ι → String → ℕ) (j : ι) (key : String) (e : ℕ) : ι → String → ℕ :=
  Function.update believed j (Function.update (believed j) key e)

inductive Event (ι : Type)
  | tick (d : ℕ)
  | begin (j : ι) (q : Queue)
  | released (j : ι)
  /-- The call succeeds at the lock service, or fails with `fault`. -/
  | getLockInfo (j : ι) (fault : Option RetCode)
  | decide (j : ι)
  /-- `MasterClient` sends the request once more. -/
  | resend (j : ι)
  /-- `DoLock` returns, with the reply to `AcquireLock` or without. -/
  | finish (j : ι)
  /-- A request in the network is executed, its proposal chosen as instance `i`. -/
  | execute (n i : ℕ)
  | lose (n : ℕ)
  /-- The clean thread at a key of the map, having read the clock at `sampled`. -/
  | clean (key : String) (sampled i : ℕ)

namespace World

def record (w : World ι) (key : String) : Option LocalRecordInfo :=
  (w.groups (cfg.paxosGroupId key)).map[key]?

def set (w : World ι) (j : ι) (s : Worker ι) : World ι :=
  { w with worker := Function.update w.worker j s }

def setPhase (w : World ι) (j : ι) (p : Phase ι) : World ι :=
  w.set j { w.worker j with phase := p }

def send (w : World ι) (req : Request ι) : World ι := { w with network := req :: w.network }

def lockInfo (req : Request ι) : LockInfo :=
  ⟨req.lockKey, req.version, clientId req.client, req.leaseTimeMs⟩

/-- The lock service executes a request; a successful one renews its client's belief, or with a
lease of 0 ends it. -/
def serve (w : World ι) (req : Request ι) (i : ℕ) : World ι :=
  let n := cfg.paxosGroupId req.lockKey
  let r := serveAcquire (w.groups n) w.clock i (lockInfo clientId req)
  { w with
    groups := Function.update w.groups n r.2
    lastInstance := Function.update w.lastInstance n i
    believed := if r.1 = .ok then
        renewBelief w.believed req.client req.lockKey (w.clock + req.leaseTimeMs)
      else w.believed }

/-- A worker decides; `seenKey` follows its version. -/
def decide (w : World ι) (j : ι) (key : String) (now : ℕ) (reply : Except RetCode LockInfo) :
    World ι :=
  let s := handleLockInfo cfg clientId j (w.worker j) key now reply
  let w' := { w.set j s with
    seenKey := if s.version ≠ (w.worker j).version then Function.update w.seenKey j key
      else w.seenKey }
  match s.phase with
  | .acquiring req => w'.send req
  | _ => w'

/-- One step; an event that is not due changes nothing.  In each paxos group instance numbers
increase from 1 on, and the clock, milliseconds since boot, stays below `2 ^ 63`. -/
def step (w : World ι) : Event ι → World ι
  | .tick d => if w.clock + d < 2 ^ 63 then { w with clock := w.clock + d } else w
  | .begin j q =>
    match (w.worker j).phase with
    | .idle =>
      let r := beginLock cfg j (w.worker j) w.clock q
      match r.2 with
      | some req => (w.set j r.1).send req
      | none => w.set j r.1
    | _ => w
  | .released j =>
    match (w.worker j).phase with
    | .releasing key => w.set j (afterRelease w.clock key)
    | _ => w
  | .getLockInfo j fault =>
    match (w.worker j).phase with
    | .sampled key now => w.setPhase j (.informed key now
        (match fault with
          | some ret => .error ret
          | none => Lock.getLockInfo (w.groups (cfg.paxosGroupId key)) key))
    | _ => w
  | .decide j =>
    match (w.worker j).phase with
    | .informed key now reply => w.decide cfg clientId j key now reply
    | _ => w
  | .resend j =>
    match (w.worker j).phase with
    | .acquiring req => w.send req
    | _ => w
  | .finish j =>
    match (w.worker j).phase with
    | .acquiring _ => w.setPhase j .idle
    | _ => w
  | .execute n i =>
    match w.network[n]? with
    | some req =>
      if w.lastInstance (cfg.paxosGroupId req.lockKey) < i then
        { w.serve cfg clientId req i with network := w.network.eraseIdx n }
      else w
    | none => w
  | .lose n => { w with network := w.network.eraseIdx n }
  | .clean key sampled i =>
    let n := cfg.paxosGroupId key
    if key ≠ "" ∧ sampled ≤ w.clock ∧ w.lastInstance n < i then
      { w with
        groups := Function.update w.groups n (serveClean (w.groups n) sampled w.clock i key)
        lastInstance := Function.update w.lastInstance n i }
    else w

end World

/-- Any number of worker processes with distinct client ids, and free locks. -/
def world : Machine (World ι) (Event ι) where
  init := {}
  step := World.step cfg clientId

def Believes (w : World ι) (j : ι) (q : Queue) : Prop := w.clock < w.believed j (lockKey cfg q)

def Exclusive (w : World ι) : Prop :=
  ∀ q i j, Believes cfg w i q → Believes cfg w j q → i = j

/-- The key and sample of a call that is about to ask for the lock. -/
def Phase.sample? : Phase ι → Option (String × ℕ)
  | .sampled key now => some (key, now)
  | _ => none

/-- A worker that is told of another's record either has the version of that record from the same
key, or has another version and sampled its clock no earlier than the record was written. -/
def OwnObservation (w : World ι) : Event ι → Prop
  | .getLockInfo j none => ∀ x ∈ (w.worker j).phase.sample?, ∀ r ∈ w.record cfg x.1,
      r.value ≠ clientId j →
        if r.version = (w.worker j).version then w.seenKey j = x.1
        else r.expireTimeMs ≤ x.2 + r.leaseTimeMs
  | _ => True

instance (w : World ι) (j : ι) (q : Queue) : Decidable (Believes cfg w j q) :=
  inferInstanceAs (Decidable (w.clock < _))

instance (w : World ι) : ∀ e, Decidable (OwnObservation cfg clientId w e)
  | .getLockInfo j none => inferInstanceAs (Decidable (∀ x ∈ (w.worker j).phase.sample?,
      ∀ r ∈ w.record cfg x.1, _ → ite _ _ _))
  | .tick _ | .begin _ _ | .released _ | .getLockInfo _ (some _) | .decide _ | .resend _
  | .finish _ | .execute _ _ | .lose _ | .clean _ _ _ => inferInstanceAs (Decidable True)

end

end PhxQueue.Consumer
