import PhxQueue.Comm
import PhxQueue.Lib.Cas
import PhxQueue.Lib.WriteLog

/-!
# LockDb

The two storages of `lock/lockdb.cpp` behind one interface, and the conditional writes that the
lock state machine runs on them.

* `RecordStore`        `GetRecord`, `SetRecord`, `DeleteRecord` of one storage type;
* `LockMap`, `LevelDb` the storage types `MAP` and `LEVELDB`;
* `acquireLock`, `versionSetString`   the conditional writes;
* `LawfulRecordStore`  what reading after a successful write gives, for both storages;
* `recordAt_acquireLock`, `recordAt_versionSetString`   the conditional writes, key by key.

A leveldb call may fail: `DiskIO` says which calls of one operation succeed.
-/

set_option linter.unusedSectionVars false

namespace PhxQueue.Lock
open Comm Lib

/-- `proto::LocalRecordInfo`. -/
structure LocalRecordInfo where
  version : Nat := 0
  value : String := ""
  leaseTimeMs : Nat := 0
  expireTimeMs : Nat := 0
deriving DecidableEq, Repr

/-- `proto::RecordKeyInfo`. -/
structure RecordKeyInfo where
  version : Nat
  key : String
deriving DecidableEq, Repr

/-- What recovery and replication compare of a record: version, value and lease time. -/
def LocalRecordInfo.view (r : LocalRecordInfo) : ℕ × String × ℕ :=
  (r.version, r.value, r.leaseTimeMs)

/-- Which leveldb calls of one operation succeed: the read, the record write and the checkpoint
write. -/
structure DiskIO where
  getOk : Bool := true
  putOk : Bool := true
  cpOk : Bool := true
deriving DecidableEq, Repr

/-! ## Storages -/

/-- The record operations of one storage type. -/
class RecordStore (S : Type) where
  getRecord : S → DiskIO → String → Except RetCode LocalRecordInfo
  setRecord : S → DiskIO → String → LocalRecordInfo → Bool → RetCode × S
  deleteRecord : S → DiskIO → String → Bool → RetCode × S

export RecordStore (getRecord setRecord deleteRecord)

/-- Storage type `MAP`. -/
abbrev LockMap := Std.ExtTreeMap String LocalRecordInfo

instance : RecordStore LockMap where
  getRecord m _ k :=
    if k = "" then .error .errKey else
    match m[k]? with
    | none => .error .errKeyNotExist
    | some r => .ok r
  setRecord m _ k v _ := if k = "" then (.errKey, m) else (.ok, m.insert k v)
  deleteRecord m _ k _ := if k = "" then (.errKey, m) else (.ok, m.erase k)

/-- The bytes the lock server stores in leveldb: a serialised record, a decimal number, or the
empty string. -/
inductive DiskValue
  | record (r : LocalRecordInfo)
  | text (n : Nat)
  | empty
deriving DecidableEq, Repr

/-- Storage type `LEVELDB`. -/
abbrev LevelDb := WriteLog String DiskValue

/-- Whether a decimal number, read as wire format, is a sequence of unknown fields: the digits
are tags of field 6 (`0x30..0x37`) and field 7 (`0x38`, `0x39`), `depth` counts open groups. -/
def unknownFields : (fuel depth : Nat) → List Nat → Bool
  | 0, _, _ => false
  | _ + 1, depth, [] => depth = 0
  | fuel + 1, depth, d :: ds =>
    match d with
    | 0 | 8 => !ds.isEmpty && unknownFields fuel depth (ds.drop 1)
    | 1 | 9 => decide (8 ≤ ds.length) && unknownFields fuel depth (ds.drop 8)
    | 2 => match ds with
      | [] => false
      | n :: ds => decide (48 + n ≤ ds.length) && unknownFields fuel depth (ds.drop (48 + n))
    | 3 => unknownFields fuel (depth + 1) ds
    | 4 => decide (0 < depth) && unknownFields fuel (depth - 1) ds
    | 5 => decide (4 ≤ ds.length) && unknownFields fuel depth (ds.drop 4)
    | _ => false

/-- `LocalRecordInfo::ParseFromString`. -/
def DiskValue.parse : DiskValue → Option LocalRecordInfo
  | .record r => some r
  | .text n =>
    let ds := (Nat.toDigits 10 n).map fun c => c.toNat - 48
    if unknownFields (ds.length + 1) 0 ds then some {} else none
  | .empty => some {}

/-- `strtoul`: a serialised record starts with the tag byte `0x08`, which is no digit. -/
def DiskValue.strtoul : DiskValue → Nat
  | .text n => n
  | _ => 0

def diskGet (db : LevelDb) (io : DiskIO) (k : String) : Except RetCode DiskValue :=
  if k = "" then .error .errKey else
  if io.getOk then
    match db.get k with
    | none => .error .errKeyNotExist
    | some v => .ok v
  else .error .errLeveldb

def diskSet (db : LevelDb) (putOk : Bool) (k : String) (v : DiskValue) (sync : Bool) :
    RetCode × LevelDb :=
  if k = "" then (.errKey, db) else
  if putOk then (.ok, db.write k (some v) sync) else (.errLeveldb, db)

/-- `leveldb::DB::Delete` reports success for a missing key too. -/
def diskDelete (db : LevelDb) (putOk : Bool) (k : String) (sync : Bool) : RetCode × LevelDb :=
  if k = "" then (.errKey, db) else
  if putOk then (.ok, db.write k none sync) else (.errLeveldb, db)

instance : RecordStore LevelDb where
  getRecord db io k := do
    let v ← diskGet db io k
    match v.parse with
    | none => .error .errProtobufParse
    | some r => .ok r
  setRecord db io k v sync := diskSet db io.putOk k (.record { v with expireTimeMs := 0 }) sync
  deleteRecord db io k sync := diskDelete db io.putOk k sync

def keyIgnoreSyncTrigger : String := "__ignore__:__sync_trigger__"

/-- `LockDb::Sync` of the `LEVELDB` storage. -/
def LevelDb.sync (db : LevelDb) (putOk : Bool) : RetCode × LevelDb :=
  if putOk then (.ok, db.write keyIgnoreSyncTrigger (some .empty) true) else (.errLeveldb, db)

def keyIgnorePrefix : String := "__ignore__"

/-- `DataType::IGNORE`: the key starts with the reserved prefix. -/
def isIgnoreKey (k : String) : Bool := keyIgnorePrefix.toList.isPrefixOf k.toList

/-! ## Strings and locks -/

section
variable {S : Type} [RecordStore S]

def keyUserStringPrefix : String := ""

def keyUserLockPrefix : String := ""

def getUser (pre : String) (db : S) (io : DiskIO) (k : String) :
    Except RetCode LocalRecordInfo :=
  if k = "" then .error .errKey else getRecord db io (pre ++ k)

def setUser (pre : String) (db : S) (io : DiskIO) (k : String) (v : LocalRecordInfo)
    (sync : Bool) : RetCode × S :=
  if k = "" then (.errKey, db) else setRecord db io (pre ++ k) v sync

def deleteUser (pre : String) (db : S) (io : DiskIO) (k : String) (sync : Bool) : RetCode × S :=
  if k = "" then (.errKey, db) else deleteRecord db io (pre ++ k) sync

def getString : S → DiskIO → String → Except RetCode LocalRecordInfo :=
  getUser keyUserStringPrefix

def getLock : S → DiskIO → String → Except RetCode LocalRecordInfo := getUser keyUserLockPrefix

def deleteLock : S → DiskIO → String → Bool → RetCode × S := deleteUser keyUserLockPrefix

/-- The record that is stored: the lease counts from `now`, except for a lease of `-1`. -/
def expiring (now : Nat) (v : LocalRecordInfo) : LocalRecordInfo :=
  { version := v.version, value := v.value, leaseTimeMs := v.leaseTimeMs,
    expireTimeMs := if v.leaseTimeMs = uint64Max then 0 else wrap64 (now + v.leaseTimeMs) }

/-- The end of both conditional writes: a lease of 0 deletes. -/
def leaseWrite (pre : String) (db : S) (io : DiskIO) (now : Nat) (k : String)
    (v : LocalRecordInfo) (sync : Bool) : RetCode × S :=
  if v.leaseTimeMs = 0 then deleteUser pre db io k sync
  else setUser pre db io k (expiring now v) sync

/-- The shared body of `VersionSetString` and `AcquireLock`; `force` says whether the version
`UINT64_MAX` overrides the check. -/
def conditionalWrite (pre : String) (force : Bool) (db : S) (io : DiskIO) (now : Nat)
    (ki : RecordKeyInfo) (v : LocalRecordInfo) (sync : Bool) : RetCode × S :=
  match getUser pre db io ki.key with
  | .error .errKeyNotExist => leaseWrite pre db io now ki.key v sync
  | .error ret => (ret, db)
  | .ok localv =>
    if ¬ (force ∧ ki.version = uint64Max) ∧ localv.version ≠ ki.version then
      (.errVersionNotEqual, db)
    else leaseWrite pre db io now ki.key v sync

def versionSetString : S → DiskIO → (now : Nat) → RecordKeyInfo → LocalRecordInfo →
    (sync : Bool) → RetCode × S :=
  conditionalWrite keyUserStringPrefix true

def acquireLock : S → DiskIO → (now : Nat) → RecordKeyInfo → LocalRecordInfo →
    (sync : Bool) → RetCode × S :=
  conditionalWrite keyUserLockPrefix false

end

/-! ## Reading after writing -/

section
variable {S : Type} [RecordStore S]

/-- The view of a readable record, `none` for a missing key. -/
def recordAt (db : S) (k : String) : Except RetCode (Cas.Cell (String × ℕ)) :=
  match getRecord db {} k with
  | .ok r => .ok (some r.view)
  | .error .errKeyNotExist => .ok none
  | .error e => .error e

lemma recordAt_of_ok {db : S} {k : String} {r : LocalRecordInfo}
    (h : getRecord db {} k = .ok r) : recordAt db k = .ok (some r.view) := by
  unfold recordAt
  rw [h]

lemma recordAt_of_missing {db : S} {k : String}
    (h : getRecord db {} k = .error .errKeyNotExist) : recordAt db k = .ok none := by
  unfold recordAt
  rw [h]

lemma recordAt_of_error {db : S} {k : String} {e : RetCode} (he : e ≠ .errKeyNotExist)
    (h : getRecord db {} k = .error e) : recordAt db k = .error e := by
  unfold recordAt
  rw [h]
  cases e <;> first | rfl | exact absurd rfl he

end

/-- Both storages answer a read by the last successful write of the key. -/
class LawfulRecordStore (S : Type) [RecordStore S] : Prop where
  setRecord_ok : ∀ (db : S) (k : String) (v : LocalRecordInfo) (sync : Bool),
    k ≠ "" → (setRecord db {} k v sync).1 = .ok
  deleteRecord_ok : ∀ (db : S) (k : String) (sync : Bool),
    k ≠ "" → (deleteRecord db {} k sync).1 = .ok
  recordAt_set : ∀ (db : S) (k : String) (v : LocalRecordInfo) (sync : Bool) (k' : String),
    k ≠ "" → k' ≠ "" → recordAt (setRecord db {} k v sync).2 k' =
      if k = k' then .ok (some v.view) else recordAt db k'
  recordAt_delete : ∀ (db : S) (k : String) (sync : Bool) (k' : String),
    k ≠ "" → k' ≠ "" → recordAt (deleteRecord db {} k sync).2 k' =
      if k = k' then .ok none else recordAt db k'

lemma LockMap.recordAt_eq (m : LockMap) {k : String} (hk : k ≠ "") :
    recordAt m k = .ok (m[k]?.map LocalRecordInfo.view) := by
  have hget : getRecord m {} k = match m[k]? with
      | none => .error .errKeyNotExist
      | some r => .ok r := if_neg hk
  cases hm : m[k]? with
  | none =>
    rw [hm] at hget
    exact recordAt_of_missing hget
  | some r =>
    rw [hm] at hget
    exact recordAt_of_ok hget

def diskView : Option DiskValue → Except RetCode (Cas.Cell (String × ℕ))
  | none => .ok none
  | some v => match v.parse with
    | none => .error .errProtobufParse
    | some r => .ok (some r.view)

lemma LevelDb.recordAt_eq (db : LevelDb) {k : String} (hk : k ≠ "") :
    recordAt db k = diskView (db.get k) := by
  have hdisk : diskGet db {} k = match db.get k with
      | none => .error .errKeyNotExist
      | some v => .ok v := if_neg hk
  cases hv : db.get k with
  | none =>
    refine recordAt_of_missing ?_
    show (diskGet db {} k >>= _) = _
    rw [hdisk, hv]
    rfl
  | some v =>
    have hget : getRecord db {} k = match v.parse with
        | none => .error .errProtobufParse
        | some r => .ok r := by
      show (diskGet db {} k >>= _) = _
      rw [hdisk, hv]
      rfl
    cases hp : v.parse with
    | none =>
      rw [hp] at hget
      rw [recordAt_of_error (by decide) hget]
      simp only [diskView, hp]
    | some r =>
      rw [hp] at hget
      rw [recordAt_of_ok hget]
      simp only [diskView, hp]

instance : LawfulRecordStore LockMap where
  setRecord_ok := by
    intro db k v sync hk
    simp [setRecord, hk]
  deleteRecord_ok := by
    intro db k sync hk
    simp [deleteRecord, hk]
  recordAt_set := by
    intro db k v sync k' hk hk'
    have hset : (setRecord db {} k v sync).2 = db.insert k v := by simp [setRecord, hk]
    rw [hset, LockMap.recordAt_eq _ hk', LockMap.recordAt_eq _ hk',
      Std.ExtTreeMap.getElem?_insert]
    by_cases h : k = k' <;> simp [h]
  recordAt_delete := by
    intro db k sync k' hk hk'
    have hdel : (deleteRecord db {} k sync).2 = db.erase k := by simp [deleteRecord, hk]
    rw [hdel, LockMap.recordAt_eq _ hk', LockMap.recordAt_eq _ hk',
      Std.ExtTreeMap.getElem?_erase]
    by_cases h : k = k' <;> simp [h]

instance : LawfulRecordStore LevelDb where
  setRecord_ok := by
    intro db k v sync hk
    simp [setRecord, diskSet, hk]
  deleteRecord_ok := by
    intro db k sync hk
    simp [deleteRecord, diskDelete, hk]
  recordAt_set := by
    intro db k v sync k' hk hk'
    have hset : (setRecord db {} k v sync).2
        = db.write k (some (.record { v with expireTimeMs := 0 })) sync := by
      simp [setRecord, diskSet, hk]
    rw [hset, LevelDb.recordAt_eq _ hk', LevelDb.recordAt_eq _ hk', WriteLog.get_write]
    by_cases h : k = k'
    · rw [if_pos h, if_pos h]
      rfl
    · rw [if_neg h, if_neg h]
  recordAt_delete := by
    intro db k sync k' hk hk'
    have hdel : (deleteRecord db {} k sync).2 = db.write k none sync := by
      simp [deleteRecord, diskDelete, hk]
    rw [hdel, LevelDb.recordAt_eq _ hk', LevelDb.recordAt_eq _ hk', WriteLog.get_write]
    by_cases h : k = k'
    · rw [if_pos h, if_pos h]
      rfl
    · rw [if_neg h, if_neg h]

/-! ## The conditional writes as compare-and-set operations -/

section
variable {S : Type} [RecordStore S] [LawfulRecordStore S]

/-- The operation a conditional write of `v` is. -/
def writeOp (force : Bool) (ki : RecordKeyInfo) (v : LocalRecordInfo) :
    Cas.Op String (String × ℕ) where
  key := ki.key
  guard := if force ∧ ki.version = uint64Max then none else some ki.version
  put := if v.leaseTimeMs = 0 then none else some (v.value, v.leaseTimeMs)

lemma writeOp_takes_some (force : Bool) (ki : RecordKeyInfo) (v : LocalRecordInfo) (n : ℕ)
    (a : String × ℕ) : (writeOp force ki v).Takes (some (n, a)) ↔
      (force ∧ ki.version = uint64Max) ∨ n = ki.version := by
  show ((writeOp force ki v).guard = none ∨ (writeOp force ki v).guard = some n) ↔ _
  unfold writeOp
  by_cases h : force ∧ ki.version = uint64Max
  · simp [h]
  · rw [if_neg h]
    constructor
    · rintro (hn | hn)
      · cases hn
      · exact .inr (Option.some.inj hn).symm
    · rintro (hn | rfl)
      · exact absurd hn h
      · exact .inr rfl

lemma leaseWrite_delete (db : S) (now : Nat) {k : String} (hk : k ≠ "") {v : LocalRecordInfo}
    (hl : v.leaseTimeMs = 0) (sync : Bool) :
    leaseWrite "" db {} now k v sync = deleteRecord db {} k sync := by
  unfold leaseWrite deleteUser
  rw [if_pos hl, if_neg hk, String.empty_append]

lemma leaseWrite_set (db : S) (now : Nat) {k : String} (hk : k ≠ "") {v : LocalRecordInfo}
    (hl : v.leaseTimeMs ≠ 0) (sync : Bool) :
    leaseWrite "" db {} now k v sync = setRecord db {} k (expiring now v) sync := by
  unfold leaseWrite setUser
  rw [if_neg hl, if_neg hk, String.empty_append]

lemma leaseWrite_ok (db : S) (now : Nat) {k : String} (hk : k ≠ "") (v : LocalRecordInfo)
    (sync : Bool) : (leaseWrite "" db {} now k v sync).1 = .ok := by
  by_cases hl : v.leaseTimeMs = 0
  · rw [leaseWrite_delete db now hk hl]
    exact LawfulRecordStore.deleteRecord_ok _ _ _ hk
  · rw [leaseWrite_set db now hk hl]
    exact LawfulRecordStore.setRecord_ok _ _ _ _ hk

lemma recordAt_leaseWrite (db : S) (now : Nat) {ki : RecordKeyInfo} {k' : String}
    (hk : ki.key ≠ "") (hk' : k' ≠ "") (force : Bool) (v : LocalRecordInfo) (sync : Bool) :
    recordAt (leaseWrite "" db {} now ki.key v sync).2 k' =
      if ki.key = k' then .ok ((writeOp force ki v).result v.version) else recordAt db k' := by
  by_cases hl : v.leaseTimeMs = 0
  · have hres : (writeOp force ki v).result v.version = none := by
      simp [writeOp, Cas.Op.result, hl]
    rw [leaseWrite_delete db now hk hl, LawfulRecordStore.recordAt_delete _ _ _ _ hk hk', hres]
  · have hres : (writeOp force ki v).result v.version = some v.view := by
      simp [writeOp, Cas.Op.result, hl, LocalRecordInfo.view]
    rw [leaseWrite_set db now hk hl, LawfulRecordStore.recordAt_set _ _ _ _ _ hk hk', hres]
    rfl

lemma getRecord_of_recordAt_none {db : S} {k : String} (h : recordAt db k = .ok none) :
    getRecord db {} k = .error .errKeyNotExist := by
  cases hg : getRecord db {} k with
  | ok r =>
    rw [recordAt_of_ok hg] at h
    cases h
  | error e =>
    by_cases he : e = .errKeyNotExist
    · rw [he]
    · rw [recordAt_of_error he hg] at h
      cases h

lemma getRecord_of_recordAt_some {db : S} {k : String} {n : ℕ} {a : String × ℕ}
    (h : recordAt db k = .ok (some (n, a))) :
    ∃ r, getRecord db {} k = .ok r ∧ r.version = n := by
  cases hg : getRecord db {} k with
  | ok r =>
    rw [recordAt_of_ok hg] at h
    simp only [Except.ok.injEq, Option.some.injEq, LocalRecordInfo.view, Prod.mk.injEq] at h
    exact ⟨r, rfl, h.1⟩
  | error e =>
    by_cases he : e = .errKeyNotExist
    · subst he
      rw [recordAt_of_missing hg] at h
      cases h
    · rw [recordAt_of_error he hg] at h
      cases h

/-- A conditional write that takes effect ends in its lease write, any other changes nothing. -/
lemma conditionalWrite_eq {db : S} (force : Bool) (now : Nat) {ki : RecordKeyInfo}
    (hk : ki.key ≠ "") (v : LocalRecordInfo) (sync : Bool) {c : Cas.Cell (String × ℕ)}
    (hc : recordAt db ki.key = .ok c) :
    conditionalWrite "" force db {} now ki v sync =
      if (writeOp force ki v).Takes c then leaseWrite "" db {} now ki.key v sync
      else (.errVersionNotEqual, db) := by
  have hget : getUser "" db {} ki.key = getRecord db {} ki.key := by
    unfold getUser
    rw [if_neg hk, String.empty_append]
  unfold conditionalWrite
  rw [hget]
  cases c with
  | none =>
    rw [getRecord_of_recordAt_none hc, if_pos (Cas.Op.takes_none _)]
  | some r =>
    obtain ⟨n, a⟩ := r
    obtain ⟨r, hr, rfl⟩ := getRecord_of_recordAt_some hc
    rw [hr]
    by_cases ht : (writeOp force ki v).Takes (some (r.version, a))
    · have hv := (writeOp_takes_some force ki v r.version a).mp ht
      rw [if_pos ht]
      show (if _ then _ else _) = _
      rw [if_neg fun h => hv.elim h.1 h.2]
    · have hv := (writeOp_takes_some force ki v r.version a).not.mp ht
      rw [if_neg ht]
      show (if _ then _ else _) = _
      rw [if_pos (not_or.mp hv)]

/-- **A conditional write is a compare-and-set**: what every key reads afterwards. -/
theorem recordAt_conditionalWrite {db : S} (force : Bool) (now : Nat) {ki : RecordKeyInfo}
    (hk : ki.key ≠ "") (v : LocalRecordInfo) (sync : Bool) {c : Cas.Cell (String × ℕ)}
    (hc : recordAt db ki.key = .ok c) {k' : String} (hk' : k' ≠ "") :
    recordAt (conditionalWrite "" force db {} now ki v sync).2 k' =
      if ki.key = k' then .ok ((writeOp force ki v).cell v.version c) else recordAt db k' := by
  rw [conditionalWrite_eq force now hk v sync hc]
  by_cases ht : (writeOp force ki v).Takes c
  · rw [if_pos ht, recordAt_leaseWrite db now hk hk' force, Cas.Op.cell_of_takes ht]
  · rw [if_neg ht, Cas.Op.cell_of_not_takes ht]
    by_cases h : ki.key = k'
    · rw [if_pos h, ← h, hc]
    · rw [if_neg h]

theorem conditionalWrite_ret {db : S} (force : Bool) (now : Nat) {ki : RecordKeyInfo}
    (hk : ki.key ≠ "") (v : LocalRecordInfo) (sync : Bool) {c : Cas.Cell (String × ℕ)}
    (hc : recordAt db ki.key = .ok c) :
    (conditionalWrite "" force db {} now ki v sync).1 =
      if (writeOp force ki v).Takes c then .ok else .errVersionNotEqual := by
  rw [conditionalWrite_eq force now hk v sync hc]
  by_cases ht : (writeOp force ki v).Takes c
  · rw [if_pos ht, if_pos ht, leaseWrite_ok db now hk]
  · rw [if_neg ht, if_neg ht]

end

end PhxQueue.Lock
