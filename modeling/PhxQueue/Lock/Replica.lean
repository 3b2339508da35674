import PhxQueue.Lib.Run
import PhxQueue.Lock.LockSM

/-!
# A lock replica with crashes

One replica of a lock group over a fixed log of chosen instances.  Paxos executes the instances in
order on the map, replays them behind on leveldb, the clean thread writes the restart checkpoint
in five steps, and a crash leaves a prefix of the writes of leveldb from which `Init` restarts.

* `Entry`               what instance `i` of the log carries;
* `Cleaner`             where `WriteRestartCheckpoint` of `lock/cleanthread.cpp` stands;
* `Replica`, `replica`  the state and the machine;
* `StorageOk`           no leveldb call of an instance fails, and the bytes it reads parse;
* `isStorageError_iff`  an instance meets a storage error exactly when that is not so.
-/

set_option linter.unusedSectionVars false

namespace PhxQueue.Lock
open Comm Lib

/-- A chosen instance carries a value for the lock state machine (`none` if it does not parse), or
one for another state machine of the group, such as a master election. -/
inductive Entry
  | other
  | lock (args : Option LockPaxosArgs)

/-- Where `WriteRestartCheckpoint` stands: it has read the instance id of paxos, then the memory
checkpoint; past the comparison it flushes leveldb, and it writes. -/
inductive Cleaner
  | idle
  | readNow (nowInstanceId : ℕ)
  | readMemory (nowInstanceId memoryCheckpoint : ℕ)
  | flush (nowInstanceId : ℕ)
  | write (nowInstanceId : ℕ)

/-- The comparison of `WriteRestartCheckpoint`. -/
def restartNeeded (nowInstanceId memoryCheckpoint lastInstanceId : ℕ) : Bool :=
  decide (lastInstanceId = memoryCheckpoint) &&
    decide (nowInstanceId > wrap64 (memoryCheckpoint + 1)) &&
    decide (nowInstanceId ≠ noCheckpoint)

/-- The replica: the group, the next instance for the map and for leveldb, the clean thread.
`failed` records the instances whose last execution on leveldb met a storage error. -/
structure Replica where
  g : GroupData := {}
  mapNext : ℕ := 0
  diskNext : ℕ := 0
  cleaner : Cleaner := .idle
  failed : List ℕ := []

inductive ReplicaEvent
  /-- `Execute` of the next instance. -/
  | execute (now : ℕ)
  /-- `ExecuteForCheckpoint` of the next instance. -/
  | replay (io : DiskIO) (lastSyncMs now : ℕ)
  /-- The reads of the clean thread; paxos may report an instance it has already executed. -/
  | readNow (nowInstanceId : ℕ)
  | readMemory
  | readLast
  | flush (putOk : Bool)
  | write (io : DiskIO)
  /-- Crash and `Init`. -/
  | restart (keep : ℕ) (io restartIo : DiskIO) (now : ℕ)

/-- An outcome of `DoExecute` that is none of the state machine's own. -/
def isStorageError : Option RetCode → Bool
  | none | some .ok | some .errVersionNotEqual | some .errKeyNotExist => false
  | _ => true

namespace Replica

section
variable (opt : LockOption) (log : ℕ → Entry)

def execute (s : Replica) (now : ℕ) : Replica :=
  if s.mapNext < noCheckpoint then
    match log s.mapNext with
    | .other => { s with mapNext := s.mapNext + 1 }
    | .lock args =>
      let r := Lock.execute s.g now s.mapNext args
      if r.1 then { s with g := r.2.1, mapNext := s.mapNext + 1 } else s
  else s

/-- The result that `DoExecute` computes within `ExecuteForCheckpoint` and does not return. -/
def replayResult (s : Replica) (io : DiskIO) (lastSyncMs now : ℕ) (args : Option LockPaxosArgs) :
    Option RetCode :=
  match args with
  | none => none
  | some args =>
    if opt.noLeveldb then none else
    (doExecute .leveldb s.g io now s.diskNext args
      (needSync opt lastSyncMs now s.g s.diskNext)).2.2

def replay (s : Replica) (io : DiskIO) (lastSyncMs now : ℕ) : Replica :=
  if s.diskNext < s.mapNext then
    match log s.diskNext with
    | .other => { s with diskNext := s.diskNext + 1 }
    | .lock args =>
      let r := executeForCheckpoint opt lastSyncMs s.g io now s.diskNext args
      let failed :=
        if isStorageError (s.replayResult opt io lastSyncMs now args) then s.diskNext :: s.failed
        else s.failed.filter (· ≠ s.diskNext)
      if r.1 then
        { s with g := r.2, diskNext := s.diskNext + 1, failed := failed }
      else { s with g := r.2, failed := failed }
  else s

/-- The instance paxos starts from: the one after the checkpoint. -/
def firstInstance (g : GroupData) : ℕ :=
  if g.diskCheckpoint = noCheckpoint then 0 else g.diskCheckpoint + 1

def started (g : GroupData) (failed : List ℕ) : Replica where
  g := g
  mapNext := firstInstance g
  diskNext := firstInstance g
  cleaner := .idle
  failed := failed

/-- Crash and recovery; where an assertion of `Init` fails the replica does not come back. -/
def restart (s : Replica) (keep : ℕ) (io restartIo : DiskIO) (now : ℕ) : Replica :=
  match init io restartIo now (s.g.leveldb.crash keep) with
  | none => s
  | some g => started g s.failed

def step (s : Replica) : ReplicaEvent → Replica
  | .execute now => s.execute log now
  | .replay io lastSyncMs now => s.replay opt log io lastSyncMs now
  | .readNow nowInstanceId =>
    if nowInstanceId ≤ s.mapNext then { s with cleaner := .readNow nowInstanceId } else s
  | .readMemory =>
    match s.cleaner with
    | .readNow n => { s with cleaner := .readMemory n s.g.memoryCheckpoint }
    | _ => s
  | .readLast =>
    match s.cleaner with
    | .readMemory n m =>
      { s with cleaner := if restartNeeded n m s.g.lastInstanceId then .flush n else .idle }
    | _ => s
  | .flush putOk =>
    match s.cleaner with
    | .flush n => { s with
        g := { s.g with leveldb := (s.g.leveldb.sync putOk).2 }, cleaner := .write n }
    | _ => s
  | .write io =>
    match s.cleaner with
    | .write n => { s with g := (s.g.writeRestartCheckpoint io (n - 1)).2, cleaner := .idle }
    | _ => s
  | .restart keep io restartIo now => s.restart keep io restartIo now

end

end Replica

/-- A replica over the log, from its first start. -/
def replica (opt : LockOption) (log : ℕ → Entry) : Machine Replica ReplicaEvent where
  init := {}
  step := Replica.step opt log

/-! ## Storage errors -/

def VersionPasses (db : LevelDb) (force : Bool) (ki : RecordKeyInfo) : Prop :=
  ∀ x r, db.get ki.key = some x → x.parse = some r →
    (force = true ∧ ki.version = uint64Max) ∨ r.version = ki.version

/-- The leveldb calls of the instance succeed: its key is not empty, the read succeeds and finds
a record if anything, and, where the write goes through, it succeeds and so does the write of the
checkpoint that follows a synchronous one. -/
def StorageOk (db : LevelDb) (io : DiskIO) (sync : Bool) (instanceId : ℕ) (force : Bool)
    (ki : RecordKeyInfo) : Prop :=
  ki.key ≠ "" ∧ io.getOk = true ∧ (∀ x, db.get ki.key = some x → x.parse ≠ none) ∧
    (VersionPasses db force ki →
      io.putOk = true ∧ (sync = true → instanceId ≠ noCheckpoint → io.cpOk = true))

lemma leaseWrite_leveldb_ret (db : LevelDb) (io : DiskIO) (now : Nat) {k : String} (hk : k ≠ "")
    (v : LocalRecordInfo) (sync : Bool) :
    (leaseWrite "" db io now k v sync).1 = if io.putOk then .ok else .errLeveldb := by
  unfold leaseWrite deleteUser setUser
  rw [if_neg hk, if_neg hk, String.empty_append]
  split
  · show (diskDelete db io.putOk k sync).1 = _
    unfold diskDelete
    rw [if_neg hk]
    split <;> rfl
  · show (diskSet db io.putOk k _ sync).1 = _
    unfold diskSet
    rw [if_neg hk]
    split <;> rfl

lemma getUser_leveldb (db : LevelDb) (io : DiskIO) {k : String} (hk : k ≠ "") :
    getUser "" db io k =
      if io.getOk then
        match db.get k with
        | none => .error .errKeyNotExist
        | some x => match x.parse with
          | none => .error .errProtobufParse
          | some r => .ok r
      else .error .errLeveldb := by
  unfold getUser
  rw [if_neg hk, String.empty_append]
  show (diskGet db io k >>= _) = _
  unfold diskGet
  rw [if_neg hk]
  by_cases hg : io.getOk = true
  · rw [if_pos hg, if_pos hg]
    cases db.get k <;> rfl
  · rw [if_neg hg, if_neg hg]
    rfl

/-- What the code of a conditional write says about its leveldb calls. -/
inductive WriteOutcome (db : LevelDb) (io : DiskIO) (force : Bool) (ki : RecordKeyInfo) :
    RetCode → Prop
  | ok (hread : ki.key ≠ "" ∧ io.getOk = true ∧ ∀ x, db.get ki.key = some x → x.parse ≠ none)
      (hpass : VersionPasses db force ki) (hput : io.putOk = true) : WriteOutcome db io force ki .ok
  | versionNotEqual
      (hread : ki.key ≠ "" ∧ io.getOk = true ∧ ∀ x, db.get ki.key = some x → x.parse ≠ none)
      (hpass : ¬ VersionPasses db force ki) : WriteOutcome db io force ki .errVersionNotEqual
  | error (ret : RetCode) (hret : isStorageError (some ret) = true)
      (hnot : ∀ sync i, ¬ StorageOk db io sync i force ki) : WriteOutcome db io force ki ret

lemma writeOutcome_lease (force : Bool) {db : LevelDb} {io : DiskIO} (now : Nat)
    {ki : RecordKeyInfo} (v : LocalRecordInfo) (sync : Bool)
    (hread : ki.key ≠ "" ∧ io.getOk = true ∧ ∀ x, db.get ki.key = some x → x.parse ≠ none)
    (hpass : VersionPasses db force ki) :
    WriteOutcome db io force ki (leaseWrite "" db io now ki.key v sync).1 := by
  rw [leaseWrite_leveldb_ret db io now hread.1]
  by_cases hp : io.putOk = true
  · rw [if_pos hp]
    exact .ok hread hpass hp
  · rw [if_neg hp]
    exact .error _ rfl fun sync i h => hp (h.2.2.2 hpass).1

lemma writeOutcome (force : Bool) (db : LevelDb) (io : DiskIO) (now : Nat) (ki : RecordKeyInfo)
    (v : LocalRecordInfo) (sync : Bool) :
    WriteOutcome db io force ki (conditionalWrite "" force db io now ki v sync).1 := by
  by_cases hk : ki.key = ""
  · rw [conditionalWrite_empty force db io now hk]
    exact .error _ rfl fun sync i h => h.1 hk
  unfold conditionalWrite
  rw [getUser_leveldb db io hk]
  by_cases hg : io.getOk = true
  · rw [if_pos hg]
    cases hget : db.get ki.key with
    | none =>
      refine writeOutcome_lease force now v sync ⟨hk, hg, fun x hx => ?_⟩ fun x r hx => ?_
      · rw [hget] at hx
        cases hx
      · rw [hget] at hx
        cases hx
    | some x =>
      have hx' : ∀ y, db.get ki.key = some y → y = x := by
        intro y hy
        rw [hget] at hy
        exact (Option.some.inj hy).symm
      dsimp only
      cases hx : x.parse with
      | none => exact .error _ rfl fun sync i h => h.2.2.1 x hget hx
      | some r =>
        have hread : ki.key ≠ "" ∧ io.getOk = true ∧
            ∀ y, db.get ki.key = some y → y.parse ≠ none := by
          refine ⟨hk, hg, fun y hy => ?_⟩
          rw [hx' y hy, hx]
          exact fun h => nomatch h
        have hpass : VersionPasses db force ki ↔
            (force = true ∧ ki.version = uint64Max) ∨ r.version = ki.version := by
          constructor
          · intro h
            exact h x r hget hx
          · intro h y r' hy hr'
            rw [hx' y hy, hx] at hr'
            cases hr'
            exact h
        by_cases hv : ¬ (force = true ∧ ki.version = uint64Max) ∧ r.version ≠ ki.version
        · dsimp only
          rw [if_pos hv]
          exact .versionNotEqual hread fun h => (hpass.mp h).elim hv.1 hv.2
        · dsimp only
          rw [if_neg hv]
          exact writeOutcome_lease force now v sync hread
            (hpass.mpr (by by_contra hcon; exact hv (not_or.mp hcon)))
  · rw [if_neg hg]
    exact .error _ rfl fun sync i h => hg h.2.1

/-- **An instance meets a storage error exactly when one of its leveldb calls fails**, its key is
empty, or what it reads is no record. -/
theorem isStorageError_iff {g : GroupData} {io : DiskIO} {now i : Nat} {args : LockPaxosArgs}
    {sync : Bool} {force : Bool} {ki : RecordKeyInfo} {v : LocalRecordInfo}
    (hw : args.write i = some (force, ki, v)) :
    isStorageError (doExecute .leveldb g io now i args sync).2.2 = true ↔
      ¬ StorageOk g.leveldb io sync i force ki := by
  have hres : (doExecute .leveldb g io now i args sync).2.2 =
      some (executeOn .leveldb g io i sync
        (fun db => conditionalWrite "" force db io now ki v sync)
        (fun db => conditionalWrite "" force db io now ki v sync)).1 := by
    rw [doExecute_eq, hw]
  rw [hres]
  unfold executeOn
  dsimp only
  have hout := writeOutcome force g.leveldb io now ki v sync
  generalize conditionalWrite "" force g.leveldb io now ki v sync = r at hout
  obtain ⟨ret, db⟩ := r
  dsimp only at hout ⊢
  cases hout with
  | ok hread hpass hput =>
    have hne : keyIgnoreCheckpoint ≠ "" := by decide
    have hiff : ¬ StorageOk g.leveldb io sync i force ki ↔
        (sync = true ∧ i ≠ noCheckpoint ∧ io.cpOk ≠ true) := by
      constructor
      · intro h
        by_contra hcon
        refine h ⟨hread.1, hread.2.1, hread.2.2, fun _ => ⟨hput, fun hs hi => ?_⟩⟩
        by_contra hcp
        exact hcon ⟨hs, hi, hcp⟩
      · rintro ⟨hs, hi, hcp⟩ h
        exact hcp ((h.2.2.2 hpass).2 hs hi)
    rw [hiff, if_pos rfl]
    by_cases hs : sync = true
    · rw [if_pos hs]
      unfold GroupData.writeDiskCheckpoint diskSet
      by_cases hi : i = noCheckpoint
      · simp [hi, isStorageError]
      · by_cases hcp : io.cpOk = true
        · simp [hi, hcp, hne, isStorageError]
        · simp [hi, hcp, hne, hs, isStorageError]
    · rw [if_neg hs]
      simp [hs, isStorageError]
  | versionNotEqual hread hpass =>
    have hok : StorageOk g.leveldb io sync i force ki :=
      ⟨hread.1, hread.2.1, hread.2.2, fun h => absurd h hpass⟩
    simp [hok, isStorageError]
  | error _ hret hnot =>
    rw [if_neg fun h => by rw [h] at hret; cases hret]
    exact ⟨fun _ => hnot sync i, fun _ => hret⟩

lemma replayResult_error_iff (opt : LockOption) (s : Replica) (io : DiskIO) (lastSyncMs now : ℕ)
    (args : Option LockPaxosArgs) :
    isStorageError (s.replayResult opt io lastSyncMs now args) = true ↔
      opt.noLeveldb = false ∧ ∃ a force ki v, args = some a ∧
        a.write s.diskNext = some (force, ki, v) ∧
        ¬ StorageOk s.g.leveldb io (needSync opt lastSyncMs now s.g s.diskNext) s.diskNext
          force ki := by
  unfold Replica.replayResult
  cases args with
  | none =>
    constructor
    · intro h
      cases h
    · rintro ⟨_, a, _, _, _, ha, _⟩
      cases ha
  | some a =>
    by_cases hopt : opt.noLeveldb = true
    · simp [hopt, isStorageError]
    · have hopt' : opt.noLeveldb = false := Bool.eq_false_iff.mpr hopt
      dsimp only
      rw [if_neg hopt]
      cases hw : a.write s.diskNext with
      | none =>
        rw [doExecute_eq, hw]
        constructor
        · intro h
          cases h
        · rintro ⟨_, a', _, _, _, ha, hw', _⟩
          cases ha
          rw [hw] at hw'
          cases hw'
      | some w =>
        obtain ⟨force, ki, v⟩ := w
        rw [isStorageError_iff hw]
        constructor
        · intro h
          exact ⟨hopt', a, force, ki, v, rfl, hw, h⟩
        · rintro ⟨_, a', force', ki', v', ha, hw', h⟩
          cases ha
          rw [hw] at hw'
          cases hw'
          exact h

end PhxQueue.Lock
