import PhxQueue.Lock.LockMgr

/-!
# LockSM

The lock state machine of `lock/locksm.cpp`: what executing one chosen instance does to the map
and, when paxos builds its checkpoint, to leveldb.

* `doExecute`             `DoExecute` for both storage types;
* `execute`, `executeForCheckpoint`   the two entry points paxos calls;
* `LockPaxosArgs.op`      the compare-and-set operation an instance carries;
* `doExecute_map`, `doExecute_leveldb`   **executing an instance applies its operation**, to the
                          map and to leveldb alike.
-/

set_option linter.unusedSectionVars false

namespace PhxQueue.Lock
open Comm Lib

/-- `proto::LockInfo`. -/
structure LockInfo where
  lockKey : String
  version : Nat
  clientId : String
  leaseTimeMs : Nat
deriving DecidableEq, Repr

/-- `proto::StringInfo`. -/
structure StringInfo where
  key : String
  version : Nat
  value : String
  leaseTimeMs : Nat
deriving DecidableEq, Repr

/-- `proto::LockPaxosArgs`: the requests the state machine looks at. -/
structure LockPaxosArgs where
  acquireLockReq : Option LockInfo := none
  setStringReq : Option StringInfo := none
deriving DecidableEq, Repr

inductive StorageType
  | map
  | leveldb
deriving DecidableEq, Repr

/-- The record an instance writes; its version is the instance number. -/
def localRecordInfo (instanceId : Nat) (value : String) (leaseTimeMs : Nat) : LocalRecordInfo :=
  { version := instanceId, value := value, leaseTimeMs := leaseTimeMs }

/-- The update of one storage and of the group's instance numbers, the same for both requests. -/
def executeOn (storage : StorageType) (g : GroupData) (io : DiskIO) (instanceId : Nat)
    (sync : Bool) (onMap : LockMap → RetCode × LockMap)
    (onLeveldb : LevelDb → RetCode × LevelDb) : RetCode × GroupData :=
  match storage with
  | .map =>
    let r := onMap g.map
    (r.1, { g with map := r.2, lastInstanceId := instanceId })
  | .leveldb =>
    let r := onLeveldb g.leveldb
    let g := { g with leveldb := r.2 }
    if r.1 = .ok then
      if sync then g.writeDiskCheckpoint io instanceId
      else (.ok, { g with memoryCheckpoint := instanceId })
    else (r.1, g)

/-- `DoExecute`: what it returns, the group, and the result left in the context of the proposer. -/
def doExecute (storage : StorageType) (g : GroupData) (io : DiskIO) (now instanceId : Nat)
    (args : LockPaxosArgs) (sync : Bool) : Bool × GroupData × Option RetCode :=
  match args.acquireLockReq with
  | some lockInfo =>
    let ki : RecordKeyInfo := ⟨lockInfo.version, lockInfo.lockKey⟩
    let v := localRecordInfo instanceId lockInfo.clientId lockInfo.leaseTimeMs
    let r := executeOn storage g io instanceId sync
      (fun db => acquireLock db io now ki v sync) (fun db => acquireLock db io now ki v sync)
    (true, r.2, some r.1)
  | none =>
    match args.setStringReq with
    | some stringInfo =>
      let ki : RecordKeyInfo := ⟨stringInfo.version, stringInfo.key⟩
      let v := localRecordInfo instanceId stringInfo.value stringInfo.leaseTimeMs
      let r := executeOn storage g io instanceId sync
        (fun db => versionSetString db io now ki v sync)
        (fun db => versionSetString db io now ki v sync)
      (true, r.2, some r.1)
    | none => (true, g, none)

/-- `LockSM::Execute`; `none` is a value that does not parse. -/
def execute (g : GroupData) (now instanceId : Nat) (args : Option LockPaxosArgs) :
    Bool × GroupData × Option RetCode :=
  match args with
  | none => (false, g, none)
  | some args => doExecute .map g {} now instanceId args false

/-- The options of the lock server that execution reads. -/
structure LockOption where
  noLeveldb : Bool := false
  checkpointInterval : Nat := 100
deriving Repr

/-- Whether this instance is written synchronously; `lastSyncMs` is shared by the groups. -/
def needSync (opt : LockOption) (lastSyncMs now : Nat) (g : GroupData) (instanceId : Nat) : Bool :=
  decide (opt.checkpointInterval ≤ wrap64 (instanceId + 2 ^ 64 - g.diskCheckpoint)) ||
    decide (now > wrap64 (lastSyncMs + 60000))

def executeForCheckpoint (opt : LockOption) (lastSyncMs : Nat) (g : GroupData) (io : DiskIO)
    (now instanceId : Nat) (args : Option LockPaxosArgs) : Bool × GroupData :=
  if opt.noLeveldb then (true, g) else
  match args with
  | none => (false, g)
  | some args =>
    let r := doExecute .leveldb g io now instanceId args (needSync opt lastSyncMs now g instanceId)
    (r.1, r.2.1)

/-! ## The operation of an instance -/

def LockPaxosArgs.write (args : LockPaxosArgs) (instanceId : Nat) :
    Option (Bool × RecordKeyInfo × LocalRecordInfo) :=
  match args.acquireLockReq, args.setStringReq with
  | some l, _ => some (false, ⟨l.version, l.lockKey⟩,
      localRecordInfo instanceId l.clientId l.leaseTimeMs)
  | none, some s => some (true, ⟨s.version, s.key⟩,
      localRecordInfo instanceId s.value s.leaseTimeMs)
  | none, none => none

/-- The compare-and-set operation it is; an empty key is refused. -/
def LockPaxosArgs.op (args : LockPaxosArgs) (instanceId : Nat) :
    Option (Cas.Op String (String × ℕ)) :=
  match args.write instanceId with
  | some (force, ki, v) => if ki.key = "" then none else some (writeOp force ki v)
  | none => none

lemma doExecute_eq (storage : StorageType) (g : GroupData) (io : DiskIO) (now instanceId : Nat)
    (args : LockPaxosArgs) (sync : Bool) :
    doExecute storage g io now instanceId args sync =
      match args.write instanceId with
      | none => (true, g, none)
      | some (force, ki, v) =>
        let r := executeOn storage g io instanceId sync
          (fun db => conditionalWrite "" force db io now ki v sync)
          (fun db => conditionalWrite "" force db io now ki v sync)
        (true, r.2, some r.1) := by
  obtain ⟨al, ss⟩ := args
  cases al with
  | some l => rfl
  | none => cases ss <;> rfl

/-- `DoExecute` reports success whatever happened. -/
lemma doExecute_fst (storage : StorageType) (g : GroupData) (io : DiskIO) (now instanceId : Nat)
    (args : LockPaxosArgs) (sync : Bool) :
    (doExecute storage g io now instanceId args sync).1 = true := by
  rw [doExecute_eq]
  cases args.write instanceId <;> rfl

lemma LockPaxosArgs.write_version {args : LockPaxosArgs} {i : Nat}
    {w : Bool × RecordKeyInfo × LocalRecordInfo} (h : args.write i = some w) :
    w.2.2.version = i := by
  obtain ⟨al, ss⟩ := args
  cases al with
  | some l =>
    cases h
    rfl
  | none =>
    cases ss with
    | some s =>
      cases h
      rfl
    | none => cases h

def LockPaxosArgs.cell (args : LockPaxosArgs) (i : Nat) (k : String)
    (c : Cas.Cell (String × ℕ)) : Cas.Cell (String × ℕ) :=
  match args.op i with
  | none => c
  | some op => if op.key = k then op.cell i c else c

lemma conditionalWrite_empty {S : Type} [RecordStore S] (force : Bool) (db : S) (io : DiskIO)
    (now : Nat) {ki : RecordKeyInfo} (hk : ki.key = "") (v : LocalRecordInfo) (sync : Bool) :
    conditionalWrite "" force db io now ki v sync = (.errKey, db) := by
  unfold conditionalWrite getUser
  rw [if_pos hk]

/-- A conditional write leaves every other key as it was, whether it succeeds or not. -/
lemma recordAt_conditionalWrite_ne {S : Type} [RecordStore S] [LawfulRecordStore S] (force : Bool)
    (db : S) (now : Nat) {ki : RecordKeyInfo} (v : LocalRecordInfo) (sync : Bool) {k : String}
    (hk : k ≠ "") (hne : ki.key ≠ k) :
    recordAt (conditionalWrite "" force db {} now ki v sync).2 k = recordAt db k := by
  by_cases hkey : ki.key = ""
  · rw [conditionalWrite_empty force db {} now hkey]
  have hlease : recordAt (leaseWrite "" db {} now ki.key v sync).2 k = recordAt db k := by
    rw [recordAt_leaseWrite db now hkey hk force, if_neg hne]
  unfold conditionalWrite
  split
  · exact hlease
  · rfl
  · split
    · rfl
    · exact hlease

theorem recordAt_write {S : Type} [RecordStore S] [LawfulRecordStore S] {db : S} {i : Nat}
    {args : LockPaxosArgs} {force : Bool} {ki : RecordKeyInfo} {v : LocalRecordInfo}
    (hw : args.write i = some (force, ki, v)) (now : Nat) (sync : Bool) {k : String}
    (hk : k ≠ "") {c : Cas.Cell (String × ℕ)} (hc : recordAt db k = .ok c) :
    recordAt (conditionalWrite "" force db {} now ki v sync).2 k = .ok (args.cell i k c) := by
  have hver : v.version = i := LockPaxosArgs.write_version hw
  unfold LockPaxosArgs.cell LockPaxosArgs.op
  rw [hw]
  by_cases hkk : ki.key = k
  · subst hkk
    rw [recordAt_conditionalWrite force now hk v sync hc hk, if_pos rfl, hver]
    simp only [hk, if_false]
    show _ = Except.ok (if ki.key = ki.key then _ else c)
    rw [if_pos rfl]
  · rw [recordAt_conditionalWrite_ne force db now v sync hk hkk, hc]
    by_cases hkey : ki.key = ""
    · simp only [hkey, if_true]
    · simp only [hkey, if_false]
      show _ = Except.ok (if ki.key = k then _ else c)
      rw [if_neg hkk]

/-! ## Execution applies the operation -/

lemma isIgnoreKey_checkpoint : isIgnoreKey keyIgnoreCheckpoint = true := by decide

lemma ne_of_isIgnoreKey {k k' : String} (hk : isIgnoreKey k = false) (hk' : isIgnoreKey k' = true) :
    k' ≠ k := by
  rintro rfl
  rw [hk] at hk'
  cases hk'

lemma recordAt_diskSet_ne (db : LevelDb) {k k' : String} (v : DiskValue) (ok sync : Bool)
    (hk : k ≠ "") (hne : k' ≠ k) : recordAt (diskSet db ok k' v sync).2 k = recordAt db k := by
  unfold diskSet
  split
  · rfl
  · split
    · rw [LevelDb.recordAt_eq _ hk, LevelDb.recordAt_eq _ hk, WriteLog.get_write_ne hne]
    · rfl

lemma recordAt_writeDiskCheckpoint (g : GroupData) (io : DiskIO) (cp : Nat) {k : String}
    (hk : k ≠ "") (hi : isIgnoreKey k = false) :
    recordAt (g.writeDiskCheckpoint io cp).2.leveldb k = recordAt g.leveldb k := by
  have hne := ne_of_isIgnoreKey hi isIgnoreKey_checkpoint
  have hset := recordAt_diskSet_ne g.leveldb (.text cp) io.cpOk true hk hne
  unfold GroupData.writeDiskCheckpoint
  split
  · rfl
  · dsimp only
    split <;> exact hset

lemma LockPaxosArgs.cell_of_write_none {args : LockPaxosArgs} {i : Nat}
    (h : args.write i = none) (k : String) (c : Cas.Cell (String × ℕ)) : args.cell i k c = c := by
  unfold LockPaxosArgs.cell LockPaxosArgs.op
  rw [h]

theorem doExecute_map (g : GroupData) (now i : Nat) (args : LockPaxosArgs) (sync : Bool)
    {k : String} (hk : k ≠ "") {c : Cas.Cell (String × ℕ)} (hc : recordAt g.map k = .ok c) :
    recordAt (doExecute .map g {} now i args sync).2.1.map k = .ok (args.cell i k c) := by
  rw [doExecute_eq]
  cases hw : args.write i with
  | none =>
    rw [LockPaxosArgs.cell_of_write_none hw]
    exact hc
  | some w =>
    obtain ⟨force, ki, v⟩ := w
    exact recordAt_write hw now sync hk hc

/-- **Executing an instance on leveldb applies its operation to every user key**, whether the write
of the checkpoint after it succeeds or not. -/
theorem doExecute_leveldb (g : GroupData) (now i : Nat) (args : LockPaxosArgs) (sync : Bool)
    {cpOk : Bool} {k : String} (hk : k ≠ "") (hi : isIgnoreKey k = false)
    {c : Cas.Cell (String × ℕ)} (hc : recordAt g.leveldb k = .ok c) :
    recordAt (doExecute .leveldb g { cpOk := cpOk } now i args sync).2.1.leveldb k =
      .ok (args.cell i k c) := by
  rw [doExecute_eq]
  cases hw : args.write i with
  | none =>
    rw [LockPaxosArgs.cell_of_write_none hw]
    exact hc
  | some w =>
    obtain ⟨force, ki, v⟩ := w
    have hrec := recordAt_write hw now sync hk hc
    show recordAt (executeOn .leveldb g { cpOk := cpOk } i sync
      (fun db => conditionalWrite "" force db {} now ki v sync)
      (fun db => conditionalWrite "" force db {} now ki v sync)).2.leveldb k = _
    unfold executeOn
    dsimp only
    split
    · split
      · rw [recordAt_writeDiskCheckpoint _ _ _ hk hi]
        exact hrec
      · exact hrec
    · exact hrec

lemma doExecute_map_leveldb (g : GroupData) (io : DiskIO) (now i : Nat) (args : LockPaxosArgs)
    (sync : Bool) : (doExecute .map g io now i args sync).2.1.leveldb = g.leveldb := by
  rw [doExecute_eq]
  cases args.write i <;> rfl

lemma writeDiskCheckpoint_map (g : GroupData) (io : DiskIO) (cp : Nat) :
    (g.writeDiskCheckpoint io cp).2.map = g.map := by
  unfold GroupData.writeDiskCheckpoint
  split
  · rfl
  · dsimp only
    split <;> rfl

lemma doExecute_leveldb_map (g : GroupData) (io : DiskIO) (now i : Nat) (args : LockPaxosArgs)
    (sync : Bool) : (doExecute .leveldb g io now i args sync).2.1.map = g.map := by
  rw [doExecute_eq]
  cases args.write i with
  | none => rfl
  | some w =>
    show (executeOn .leveldb g io i sync _ _).2.map = g.map
    unfold executeOn
    dsimp only
    split
    · split
      · exact writeDiskCheckpoint_map _ _ _
      · rfl
    · rfl

/-! ## What execution writes to leveldb -/

/-- The outcome of a record write on leveldb: it fails and changes nothing, or it appends one
record or deletion. -/
def Wrote (db : LevelDb) (k : String) (sync : Bool) (r : RetCode × LevelDb) : Prop :=
  (r.1 ≠ .ok ∧ r.2 = db) ∨
    (r.1 = .ok ∧ ∃ x : Option DiskValue, (x = none ∨ ∃ v, x = some (.record v)) ∧
      r.2 = db.write k x sync)

lemma wrote_error {db : LevelDb} {k : String} {sync : Bool} {ret : RetCode} (h : ret ≠ .ok) :
    Wrote db k sync (ret, db) := .inl ⟨h, rfl⟩

lemma wrote_diskSet (db : LevelDb) (ok : Bool) {k : String} (hk : k ≠ "") (v : LocalRecordInfo)
    (sync : Bool) : Wrote db k sync (diskSet db ok k (.record v) sync) := by
  unfold diskSet
  rw [if_neg hk]
  split
  · exact .inr ⟨rfl, some (.record v), .inr ⟨v, rfl⟩, rfl⟩
  · exact wrote_error (fun h => nomatch h)

lemma wrote_diskDelete (db : LevelDb) (ok : Bool) {k : String} (hk : k ≠ "") (sync : Bool) :
    Wrote db k sync (diskDelete db ok k sync) := by
  unfold diskDelete
  rw [if_neg hk]
  split
  · exact .inr ⟨rfl, none, .inl rfl, rfl⟩
  · exact wrote_error (fun h => nomatch h)

lemma wrote_leaseWrite (db : LevelDb) (io : DiskIO) (now : Nat) {k : String} (hk : k ≠ "")
    (v : LocalRecordInfo) (sync : Bool) : Wrote db k sync (leaseWrite "" db io now k v sync) := by
  unfold leaseWrite deleteUser setUser
  rw [if_neg hk, if_neg hk, String.empty_append]
  by_cases hl : v.leaseTimeMs = 0
  · rw [if_pos hl]
    exact wrote_diskDelete db io.putOk hk sync
  · rw [if_neg hl]
    exact wrote_diskSet db io.putOk hk _ sync

lemma getRecord_leveldb_ne_ok (db : LevelDb) (io : DiskIO) (k : String) :
    getRecord db io k ≠ .error .ok := by
  show (diskGet db io k >>= _) ≠ _
  unfold diskGet
  split
  · rintro ⟨⟩
  · split
    · cases db.get k with
      | none => rintro ⟨⟩
      | some v =>
        dsimp only [bind, Except.bind]
        split
        · rintro ⟨⟩
        · rintro ⟨⟩
    · rintro ⟨⟩

lemma wrote_conditionalWrite (force : Bool) (db : LevelDb) (io : DiskIO) (now : Nat)
    (ki : RecordKeyInfo) (v : LocalRecordInfo) (sync : Bool) :
    Wrote db ki.key sync (conditionalWrite "" force db io now ki v sync) := by
  by_cases hk : ki.key = ""
  · rw [conditionalWrite_empty force db io now hk]
    exact wrote_error (fun h => nomatch h)
  have hlease := wrote_leaseWrite db io now hk v sync
  have hget : getUser "" db io ki.key = getRecord db io ki.key := by
    unfold getUser
    rw [if_neg hk, String.empty_append]
  unfold conditionalWrite
  split
  · exact hlease
  · rename_i ret _ hret
    rw [hget] at hret
    exact wrote_error fun h => getRecord_leveldb_ne_ok db io ki.key (h ▸ hret)
  · split
    · exact wrote_error (fun h => nomatch h)
    · exact hlease

/-- A property of writes that records and deletions have. -/
structure RecordWrites (p : String → Option DiskValue → Prop) : Prop where
  delete : ∀ k, p k none
  record : ∀ k r, p k (some (.record r))

lemma RecordWrites.conditionalWrite {p : String → Option DiskValue → Prop} (hp : RecordWrites p)
    {db : LevelDb} (h : WriteLog.All p db) (force : Bool) (io : DiskIO) (now : Nat)
    (ki : RecordKeyInfo) (v : LocalRecordInfo) (sync : Bool) :
    WriteLog.All p (conditionalWrite "" force db io now ki v sync).2 := by
  rcases wrote_conditionalWrite force db io now ki v sync with ⟨_, heq⟩ | ⟨_, x, hx, heq⟩
  · rw [heq]
    exact h
  · rw [heq]
    refine h.write ?_ sync
    rcases hx with rfl | ⟨r, rfl⟩
    · exact hp.delete _
    · exact hp.record _ r

lemma WriteLog.All.writeDiskCheckpoint {p : String → Option DiskValue → Prop} {g : GroupData}
    (h : WriteLog.All p g.leveldb) (io : DiskIO) {cp : Nat}
    (hcp : p keyIgnoreCheckpoint (some (.text cp))) :
    WriteLog.All p (g.writeDiskCheckpoint io cp).2.leveldb := by
  have hset : WriteLog.All p (diskSet g.leveldb io.cpOk keyIgnoreCheckpoint (.text cp) true).2 := by
    unfold diskSet
    split
    · exact h
    · split
      · exact h.write hcp true
      · exact h
  unfold GroupData.writeDiskCheckpoint
  split
  · exact h
  · dsimp only
    split <;> exact hset

/-- Execution on leveldb writes records, deletions and its own number as a checkpoint. -/
lemma RecordWrites.doExecute {p : String → Option DiskValue → Prop} (hp : RecordWrites p)
    {g : GroupData} (h : WriteLog.All p g.leveldb) (io : DiskIO) (now i : Nat)
    (args : LockPaxosArgs) (sync : Bool) (hcp : p keyIgnoreCheckpoint (some (.text i))) :
    WriteLog.All p (doExecute .leveldb g io now i args sync).2.1.leveldb := by
  rw [doExecute_eq]
  cases args.write i with
  | none => exact h
  | some w =>
    obtain ⟨force, ki, v⟩ := w
    have hw := hp.conditionalWrite h force io now ki v sync
    show WriteLog.All p (executeOn .leveldb g io i sync _ _).2.leveldb
    unfold executeOn
    dsimp only
    split
    · split
      · exact WriteLog.All.writeDiskCheckpoint hw io hcp
      · exact hw
    · exact hw

end PhxQueue.Lock
