import PhxQueue.Lock.Replica
import PhxQueue.Lock.Log

/-!
# User keys and internal keys

Leveldb holds the records of users and the checkpoints of the lock manager under one set of keys.
A reserved prefix tells them apart where leveldb is scanned, but no handler refuses a request on a
key with that prefix.

* `Request`              the requests of clients, what they check and what they propose;
* `ownWrites`            the checkpoints alone, as if no user had written;
* `KeysApart`            checkpoints read as the lock manager wrote them, user records recovered;
* `Refused`              the conditional write of a request fails;
* `keysApart_run`        **the keys stay apart while requests on reserved keys are refused**;
* `checkpointString_not_keysApart`   one that is not.
-/

set_option linter.unusedSectionVars false

namespace PhxQueue.Lock
open Comm Lib

/-! ## Requests -/

inductive Request
  | setString (stringInfo : StringInfo)
  | deleteString (key : String) (version : ℕ)
  | acquireLock (lockInfo : LockInfo)

namespace Request

def key : Request → String
  | setString stringInfo => stringInfo.key
  | deleteString key _ => key
  | acquireLock lockInfo => lockInfo.lockKey

/-- What the three handlers say before they propose; `masterRet` is what `CheckMaster` says.
`AcquireLock` also compares versions, which is done again when the instance is executed. -/
def check (req : Request) (masterRet : RetCode) : RetCode :=
  if req.key = "" then .errKey else masterRet

/-- The value they propose; `PaxosDeleteString` sets a string without value and lease. -/
def args : Request → LockPaxosArgs
  | setString stringInfo => { setStringReq := some stringInfo }
  | deleteString key version => { setStringReq := some ⟨key, version, "", 0⟩ }
  | acquireLock lockInfo => { acquireLockReq := some lockInfo }

end Request

/-- The log of the requests that are accepted, in the order in which they are chosen. -/
def requestLog (reqs : List Request) (masterRet : RetCode) (i : ℕ) : Entry :=
  match (reqs.filter fun req => req.check masterRet = .ok)[i]? with
  | some req => .lock (some req.args)
  | none => .other

/-! ## Keys -/

def isText : Option DiskValue → Bool
  | some (.text _) => true
  | _ => false

/-- What leveldb would hold had the lock manager alone written to it: the checkpoints. -/
def ownWrites (db : LevelDb) : LevelDb :=
  ⟨db.writes.filter fun e => isText e.2, db.durable⟩

def readDisk (db : LevelDb) : RetCode × ℕ :=
  readCheckpointKey db {} keyIgnoreCheckpoint keyIgnoreCheckpointDeprecated

def readRestart (db : LevelDb) : RetCode × ℕ :=
  readCheckpointKey db {} keyIgnoreRestartCheckpoint keyIgnoreRestartCheckpointDeprecated

/-- Both checkpoints read as the lock manager wrote them, and `Init` finds every user record. -/
def DbApart (db : LevelDb) : Prop :=
  readDisk db = readDisk (ownWrites db) ∧ readRestart db = readRestart (ownWrites db) ∧
    ∀ now, ∃ g, init {} {} now db = some g ∧
      ∀ k r, db.get k = some (.record r) → recordAt g.map k = .ok (some r.view)

def KeysApart (s : Replica) : Prop := ∀ keep, DbApart (s.g.leveldb.crash keep)

/-- The conditional write fails: its read does, or the version of the record is another one. -/
def Refused (db : LevelDb) (io : DiskIO) (force : Bool) (ki : RecordKeyInfo) : Prop :=
  ¬ (io.getOk = true ∧ (∀ x, db.get ki.key = some x → x.parse ≠ none) ∧ VersionPasses db force ki)

/-- Requests on reserved keys are refused where they are executed on leveldb. -/
def ReservedRefused (log : ℕ → Entry) (s : Replica) : ReplicaEvent → Prop
  | .replay io _ _ => ∀ args force ki v, log s.diskNext = .lock (some args) →
      args.write s.diskNext = some (force, ki, v) → isIgnoreKey ki.key = true →
      Refused s.g.leveldb io force ki
  | _ => True

/-! ## The invariant -/

/-- Under a reserved key the lock manager writes checkpoints, or triggers a sync; under the others
requests write records and deletions. -/
def ApartWrite (k : String) (v : Option DiskValue) : Prop :=
  (isIgnoreKey k = true → (∃ n, v = some (.text n)) ∨
    (k = keyIgnoreSyncTrigger ∧ v = some .empty)) ∧
  (isIgnoreKey k = false → k ≠ "" ∧ (v = none ∨ ∃ r, v = some (.record r)))

lemma apartWrite_user {k : String} (hk : k ≠ "") (hi : isIgnoreKey k = false)
    {v : Option DiskValue} (hv : v = none ∨ ∃ r, v = some (.record r)) : ApartWrite k v := by
  refine ⟨fun h => ?_, fun _ => ⟨hk, hv⟩⟩
  rw [hi] at h
  cases h

lemma apartWrite_text {k : String} (hi : isIgnoreKey k = true) (n : ℕ) :
    ApartWrite k (some (.text n)) := by
  refine ⟨fun _ => .inl ⟨n, rfl⟩, fun h => ?_⟩
  rw [hi] at h
  cases h

lemma apartWrite_sync : ApartWrite keyIgnoreSyncTrigger (some .empty) := by
  have hi : isIgnoreKey keyIgnoreSyncTrigger = true := by decide
  refine ⟨fun _ => .inr ⟨rfl, rfl⟩, fun h => ?_⟩
  rw [hi] at h
  cases h

section
variable {db : LevelDb}

lemma get_ownWrites (h : WriteLog.All ApartWrite db) {k : String} (hi : isIgnoreKey k = true)
    (hk : k ≠ keyIgnoreSyncTrigger) : (ownWrites db).get k = db.get k := by
  refine WriteLog.lookup_filter fun e he hek => ?_
  subst hek
  rcases (h e he).1 hi with ⟨n, hv⟩ | ⟨hsync, _⟩
  · rw [hv]
    rfl
  · exact absurd hsync hk

lemma readCheckpointKey_congr {db db' : LevelDb} {key deprecated : String}
    (hkey : db.get key = db'.get key) (hdep : db.get deprecated = db'.get deprecated) :
    readCheckpointKey db {} key deprecated = readCheckpointKey db' {} key deprecated := by
  unfold readCheckpointKey diskGet
  rw [hkey, hdep]

lemma readable_of_apart (h : WriteLog.All ApartWrite db) : Readable db := by
  intro e he hi x hx
  rcases ((h e he).2 hi).2 with hv | ⟨r, hv⟩
  · rw [hv] at hx
    cases hx
  · rw [hv] at hx
    cases hx
    exact fun hp => nomatch hp

lemma userKey_of_record (h : WriteLog.All ApartWrite db) {k : String} {r : LocalRecordInfo}
    (hr : db.get k = some (.record r)) : UserKey k := by
  have hw := h.get hr
  cases hi : isIgnoreKey k with
  | true =>
    rcases hw.1 hi with ⟨n, hv⟩ | ⟨_, hv⟩
    · cases hv
    · cases hv
  | false => exact ⟨(hw.2 hi).1, hi⟩

lemma overwriteCheckpoint_map (g : GroupData) (io : DiskIO) (restart : ℕ) :
    (g.overwriteCheckpoint io restart).map = g.map := by
  unfold GroupData.overwriteCheckpoint
  split
  · exact writeDiskCheckpoint_map _ _ _
  · rfl

lemma readCheckpointKey_ret (db : LevelDb) {key deprecated : String} (hkey : key ≠ "")
    (hdep : deprecated ≠ "") : (readCheckpointKey db {} key deprecated).1 = .ok ∨
      (readCheckpointKey db {} key deprecated).1 = .errKeyNotExist := by
  unfold readCheckpointKey diskGet
  rw [if_neg hkey, if_pos rfl, if_neg hdep]
  cases db.get key with
  | some x => exact .inl rfl
  | none =>
    rw [if_pos rfl]
    cases db.get deprecated with
    | some y => exact .inl rfl
    | none => exact .inr rfl

/-- `Init` succeeds, and its map holds the user records. -/
lemma init_apart (h : WriteLog.All ApartWrite db) (now : ℕ) :
    ∃ g, init {} {} now db = some g ∧
      ∀ k r, db.get k = some (.record r) → recordAt g.map k = .ok (some r.view) := by
  obtain ⟨m, hm, hrec⟩ := recoverMap_contents now (readable_of_apart h)
  have hret := @readCheckpointKey_ret db keyIgnoreCheckpoint keyIgnoreCheckpointDeprecated
    (by decide) (by decide)
  have hinit : ∃ g, init {} {} now db = some g ∧ g.map = m := by
    unfold init recoverCheckpoints
    rw [hm]
    dsimp only
    rw [if_neg]
    · exact ⟨_, rfl, overwriteCheckpoint_map _ _ _⟩
    · rintro ⟨hok, hmissing⟩
      exact hret.elim hok hmissing
  obtain ⟨g, hg, hmap⟩ := hinit
  refine ⟨g, hg, fun k r hr => ?_⟩
  obtain ⟨hk, hi⟩ := userKey_of_record h hr
  rw [hmap, hrec k hk hi, LevelDb.recordAt_eq db hk, hr]
  rfl

theorem dbApart_of_all (h : WriteLog.All ApartWrite db) : DbApart db := by
  have hget : ∀ k, isIgnoreKey k = true → k ≠ keyIgnoreSyncTrigger →
      db.get k = (ownWrites db).get k := fun k hi hk => (get_ownWrites h hi hk).symm
  refine ⟨readCheckpointKey_congr (hget _ (by decide) (by decide))
    (hget _ (by decide) (by decide)), readCheckpointKey_congr (hget _ (by decide) (by decide))
    (hget _ (by decide) (by decide)), init_apart h⟩

end

/-! ## The steps -/

section
variable {log : ℕ → Entry} {s : Replica}

lemma conditionalWrite_refused {db : LevelDb} {io : DiskIO} {force : Bool} {ki : RecordKeyInfo}
    (h : Refused db io force ki) (now : ℕ) (v : LocalRecordInfo) (sync : Bool) :
    (conditionalWrite "" force db io now ki v sync).2 = db := by
  rcases wrote_conditionalWrite force db io now ki v sync with ⟨_, hdb⟩ | ⟨hok, _⟩
  · exact hdb
  · have hout := writeOutcome force db io now ki v sync
    rw [hok] at hout
    cases hout with
    | ok hread hpass hput => exact absurd ⟨hread.2.1, hread.2.2, hpass⟩ h
    | error _ hret hnot => cases hret

lemma all_conditionalWrite {db : LevelDb} (h : WriteLog.All ApartWrite db) {io : DiskIO}
    {force : Bool} {ki : RecordKeyInfo} (hki : isIgnoreKey ki.key = true → Refused db io force ki)
    (now : ℕ) (v : LocalRecordInfo) (sync : Bool) :
    WriteLog.All ApartWrite (conditionalWrite "" force db io now ki v sync).2 := by
  by_cases hk : ki.key = ""
  · rw [conditionalWrite_empty force db io now hk]
    exact h
  cases hi : isIgnoreKey ki.key with
  | true =>
    rw [conditionalWrite_refused (hki hi)]
    exact h
  | false =>
    rcases wrote_conditionalWrite force db io now ki v sync with ⟨_, hdb⟩ | ⟨_, x, hx, hdb⟩
    · rw [hdb]
      exact h
    · rw [hdb]
      exact h.write (apartWrite_user hk hi hx) sync

lemma all_doExecute {g : GroupData} (h : WriteLog.All ApartWrite g.leveldb) {io : DiskIO}
    (now i : ℕ) {args : LockPaxosArgs} (sync : Bool)
    (hargs : ∀ force ki v, args.write i = some (force, ki, v) → isIgnoreKey ki.key = true →
      Refused g.leveldb io force ki) :
    WriteLog.All ApartWrite (doExecute .leveldb g io now i args sync).2.1.leveldb := by
  rw [doExecute_eq]
  cases hw : args.write i with
  | none => exact h
  | some w =>
    obtain ⟨force, ki, v⟩ := w
    have hall := all_conditionalWrite h (hargs force ki v hw) now v sync
    show WriteLog.All ApartWrite (executeOn .leveldb g io i sync _ _).2.leveldb
    unfold executeOn
    dsimp only
    split
    · split
      · exact WriteLog.All.writeDiskCheckpoint hall io (apartWrite_text isIgnoreKey_checkpoint i)
      · exact hall
    · exact hall

lemma all_replay (h : WriteLog.All ApartWrite s.g.leveldb) (opt : LockOption) {io : DiskIO}
    {lastSyncMs now : ℕ} (hok : ReservedRefused log s (.replay io lastSyncMs now)) :
    WriteLog.All ApartWrite (s.replay opt log io lastSyncMs now).g.leveldb := by
  unfold Replica.replay
  split
  · split
    · exact h
    · rename_i args hlog
      have hexec : WriteLog.All ApartWrite
          (executeForCheckpoint opt lastSyncMs s.g io now s.diskNext args).2.leveldb := by
        unfold executeForCheckpoint
        split
        · exact h
        · cases args with
          | none => exact h
          | some args =>
            exact all_doExecute h now s.diskNext _ fun force ki v => hok args force ki v hlog
      dsimp only
      split <;> exact hexec
  · exact h

lemma all_diskSet_text {db : LevelDb} (h : WriteLog.All ApartWrite db) {k : String}
    (hk : isIgnoreKey k = true) (ok : Bool) (n : ℕ) (sync : Bool) :
    WriteLog.All ApartWrite (diskSet db ok k (.text n) sync).2 := by
  unfold diskSet
  split
  · exact h
  · split
    · exact h.write (apartWrite_text hk n) sync
    · exact h

/-- `Init` writes at most a checkpoint. -/
lemma all_init {db : LevelDb} (h : WriteLog.All ApartWrite db) {io restartIo : DiskIO} {now : ℕ}
    {g : GroupData} (hg : init io restartIo now db = some g) :
    WriteLog.All ApartWrite g.leveldb := by
  unfold init at hg
  split at hg
  · cases hg
  · unfold recoverCheckpoints at hg
    dsimp only at hg
    split at hg
    · cases hg
    · cases hg
      show WriteLog.All ApartWrite (GroupData.overwriteCheckpoint _ io _).leveldb
      unfold GroupData.overwriteCheckpoint
      split
      · exact WriteLog.All.writeDiskCheckpoint h io (apartWrite_text isIgnoreKey_checkpoint _)
      · exact h

/-- **Every step keeps the keys apart**, given that requests on reserved keys are refused. -/
theorem all_step (h : WriteLog.All ApartWrite s.g.leveldb) (opt : LockOption) {e : ReplicaEvent}
    (hok : ReservedRefused log s e) : WriteLog.All ApartWrite (s.step opt log e).g.leveldb := by
  cases e with
  | execute now =>
    show WriteLog.All ApartWrite (s.execute log now).g.leveldb
    unfold Replica.execute
    split
    · split
      · exact h
      · rename_i args hlog
        cases args with
        | none => exact h
        | some args =>
          have hdb : (Lock.execute s.g now s.mapNext (some args)).2.1.leveldb = s.g.leveldb :=
            doExecute_map_leveldb s.g {} now s.mapNext args false
          dsimp only
          split
          · rw [hdb]
            exact h
          · exact h
    · exact h
  | replay io lastSyncMs now => exact all_replay h opt hok
  | readNow n =>
    dsimp only [Replica.step]
    split <;> exact h
  | readMemory =>
    dsimp only [Replica.step]
    split <;> exact h
  | readLast =>
    dsimp only [Replica.step]
    split <;> exact h
  | flush putOk =>
    dsimp only [Replica.step]
    split
    · show WriteLog.All ApartWrite (s.g.leveldb.sync putOk).2
      unfold LevelDb.sync
      split
      · exact h.write apartWrite_sync true
      · exact h
    · exact h
  | write io =>
    dsimp only [Replica.step]
    split
    · show WriteLog.All ApartWrite (s.g.writeRestartCheckpoint io _).2.leveldb
      unfold GroupData.writeRestartCheckpoint
      split
      · exact h
      · exact all_diskSet_text h (by decide) _ _ _
    · exact h
  | restart keep io restartIo now =>
    show WriteLog.All ApartWrite (s.restart keep io restartIo now).g.leveldb
    unfold Replica.restart
    split
    · exact h
    · rename_i g hg
      exact all_init (h.crash keep) hg

end

lemma reservedRefused_requestLog {reqs : List Request} {masterRet : RetCode}
    (h : ∀ req ∈ reqs, isIgnoreKey req.key = false) (s : Replica) (e : ReplicaEvent) :
    ReservedRefused (requestLog reqs masterRet) s e := by
  cases e with
  | replay io lastSyncMs now =>
    intro args force ki v hlog hw hi
    unfold requestLog at hlog
    split at hlog
    · rename_i req hreq
      cases hlog
      have hfalse := h req (List.mem_of_mem_filter (List.mem_of_getElem? hreq))
      have hkey : ki.key = req.key := by
        cases req with
        | setString stringInfo =>
          cases hw
          rfl
        | deleteString key version =>
          cases hw
          rfl
        | acquireLock lockInfo =>
          cases hw
          rfl
      rw [hkey, hfalse] at hi
      cases hi
    · cases hlog
  | _ => trivial

/-- **User keys and internal keys stay apart.**  In a run of a replica with crashes in which every
request on a reserved key is refused, the checkpoints read as the lock manager wrote them and
`Init` recovers every user record, in every state. -/
theorem keysApart_run (opt : LockOption) (log : ℕ → Entry) (es : List ReplicaEvent)
    (h : (replica opt log).Along (ReservedRefused log) (replica opt log).init es) :
    (replica opt log).Always KeysApart (replica opt log).init es := by
  have hstep : ∀ s e, WriteLog.All ApartWrite s.g.leveldb → ReservedRefused log s e →
      WriteLog.All ApartWrite ((replica opt log).step s e).g.leveldb :=
    fun s e hs hok => all_step hs opt hok
  have hinit : WriteLog.All ApartWrite (replica opt log).init.g.leveldb := WriteLog.all_empty
  exact (Machine.Always.of_inv hstep hinit h).mono fun s hs keep => dbApart_of_all (hs.crash keep)

/-- A lock and a string are set, executed on leveldb, and recovered after a crash. -/
theorem keysApart_lockAndString :
    (replica { checkpointInterval := 1 } (requestLog
        [.acquireLock ⟨"lock", 0, "a", 10⟩, .setString ⟨"string", 0, "x", uint64Max⟩] .ok)).Always
      KeysApart {} [.execute 0, .execute 0, .replay {} 0 0, .replay {} 0 0, .restart 0 {} {} 5] :=
  keysApart_run _ _ _ (Machine.along_of_forall (reservedRefused_requestLog (by decide)) _ _)

/-- A string is set under the key of the disk checkpoint. -/
def checkpointString : List Request :=
  [.setString ⟨keyIgnoreCheckpoint, 0, "x", uint64Max⟩]

/-- Executed on leveldb, its record is read as checkpoint 0. -/
theorem checkpointString_not_keysApart :
    ¬ (replica {} (requestLog checkpointString .ok)).Always KeysApart {}
      [.execute 0, .replay {} 0 0] := by
  intro h
  have hlast := (h.last 1).1
  revert hlast
  decide

end PhxQueue.Lock
