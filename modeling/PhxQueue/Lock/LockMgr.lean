import PhxQueue.Lock.LockDb

/-!
# LockMgr

The state a lock server keeps for one paxos group, its checkpoints on disk, and the recovery of
both from leveldb (`lock/lockmgr.cpp`).

* `GroupData`                the map, the leveldb and the three instance numbers;
* `readDiskCheckpoint`, `writeDiskCheckpoint`, `readRestartCheckpoint`,
  `writeRestartCheckpoint`   the checkpoint keys;
* `init`                     `LockMgr::Init` for one group, `none` where an assertion fails;
* `init_map`                 the recovered map holds the user records of leveldb.
-/

set_option linter.unusedSectionVars false

namespace PhxQueue.Lock
open Comm Lib

def noCheckpoint : Nat := uint64Max

structure GroupData where
  map : LockMap := ∅
  leveldb : LevelDb := {}
  lastInstanceId : Nat := noCheckpoint
  memoryCheckpoint : Nat := noCheckpoint
  diskCheckpoint : Nat := noCheckpoint

def keyIgnoreCheckpoint : String := "__ignore__:__checkpoint__"
def keyIgnoreCheckpointDeprecated : String := "__ignore__.__checkpoint__"
def keyIgnoreRestartCheckpoint : String := "__ignore__:__restart_checkpoint__"
def keyIgnoreRestartCheckpointDeprecated : String := "__ignore__.__restart_checkpoint__"

/-- A checkpoint read under its key, else under its deprecated key. -/
def readCheckpointKey (db : LevelDb) (io : DiskIO) (key deprecated : String) : RetCode × Nat :=
  match diskGet db io key with
  | .error .errKeyNotExist =>
    match diskGet db io deprecated with
    | .error ret => (ret, noCheckpoint)
    | .ok vstr => (.ok, vstr.strtoul)
  | .error ret => (ret, noCheckpoint)
  | .ok vstr => (.ok, vstr.strtoul)

namespace GroupData

def readDiskCheckpoint (g : GroupData) (io : DiskIO) : RetCode × GroupData :=
  let r := readCheckpointKey g.leveldb io keyIgnoreCheckpoint keyIgnoreCheckpointDeprecated
  (r.1, { g with diskCheckpoint := r.2, memoryCheckpoint := r.2 })

def writeDiskCheckpoint (g : GroupData) (io : DiskIO) (cp : Nat) : RetCode × GroupData :=
  if cp = noCheckpoint then (.ok, g) else
  let r := diskSet g.leveldb io.cpOk keyIgnoreCheckpoint (.text cp) true
  let g := { g with leveldb := r.2 }
  if r.1 = .ok then (.ok, { g with diskCheckpoint := cp, memoryCheckpoint := cp })
  else (r.1, g)

def readRestartCheckpoint (g : GroupData) (io : DiskIO) : RetCode × Nat :=
  readCheckpointKey g.leveldb io keyIgnoreRestartCheckpoint keyIgnoreRestartCheckpointDeprecated

def writeRestartCheckpoint (g : GroupData) (io : DiskIO) (cp : Nat) : RetCode × GroupData :=
  if cp = noCheckpoint then (.ok, g) else
  let r := diskSet g.leveldb io.cpOk keyIgnoreRestartCheckpoint (.text cp) true
  (r.1, { g with leveldb := r.2 })

end GroupData

/-- The lease of a recovered record counts from the restart. -/
def restamp (now : Nat) (r : LocalRecordInfo) : LocalRecordInfo :=
  { r with expireTimeMs := wrap64 (now + r.leaseTimeMs) }

/-- The loop of `Init` over the leveldb records; `none` when a user record does not parse. -/
def recoverMap (now : Nat) : List (String × DiskValue) → LockMap → Option LockMap
  | [], m => some m
  | (k, v) :: kvs, m =>
    if isIgnoreKey k then recoverMap now kvs m else
    match v.parse with
    | none => none
    | some r => recoverMap now kvs (setRecord m {} k (restamp now r) true).2

/-- A restart checkpoint above the disk checkpoint overwrites it. -/
def GroupData.overwriteCheckpoint (g : GroupData) (io : DiskIO) (restart : Nat) : GroupData :=
  if restart ≠ noCheckpoint ∧ (g.diskCheckpoint = noCheckpoint ∨ restart > g.diskCheckpoint) then
    (g.writeDiskCheckpoint io restart).2
  else g

/-- The second half of `Init`: the checkpoints and the last instance id. -/
def recoverCheckpoints (io restartIo : DiskIO) (g : GroupData) : Option GroupData :=
  let r := g.readDiskCheckpoint io
  if r.1 ≠ .ok ∧ r.1 ≠ .errKeyNotExist then none else
  let g := r.2.overwriteCheckpoint io (r.2.readRestartCheckpoint restartIo).2
  some { g with lastInstanceId := g.diskCheckpoint }

/-- `LockMgr::Init` for one group; `io` covers the read of the disk checkpoint and the write that
may follow, `restartIo` the read of the restart checkpoint. -/
def init (io restartIo : DiskIO) (now : Nat) (db : LevelDb) : Option GroupData :=
  match recoverMap now db.contents.toList ∅ with
  | none => none
  | some map => recoverCheckpoints io restartIo { map := map, leveldb := db }

/-! ## The recovered map -/

def Readable : LevelDb → Prop :=
  WriteLog.All fun k v => isIgnoreKey k = false → ∀ x, v = some x → x.parse ≠ none

lemma Readable.parse {db : LevelDb} (h : Readable db) {k : String} (hk : isIgnoreKey k = false)
    {x : DiskValue} (hx : db.get k = some x) : ∃ r, x.parse = some r := by
  have hp := h.get hx hk x rfl
  exact Option.ne_none_iff_exists'.mp hp

lemma recoverMap_ne {now : Nat} {k : String} {kvs : List (String × DiskValue)} {m m' : LockMap}
    (hm : recoverMap now kvs m = some m') (hk : ∀ e ∈ kvs, e.1 = k → isIgnoreKey k = true) :
    m'[k]? = m[k]? := by
  induction kvs generalizing m with
  | nil =>
    cases hm
    rfl
  | cons e kvs ih =>
    obtain ⟨k', v⟩ := e
    have hrest : ∀ e ∈ kvs, e.1 = k → isIgnoreKey k = true :=
      fun e he => hk e (List.mem_cons_of_mem _ he)
    unfold recoverMap at hm
    by_cases hi : isIgnoreKey k' = true
    · rw [if_pos hi] at hm
      exact ih hm hrest
    · rw [if_neg hi] at hm
      have hne : k' ≠ k := fun h => hi (h ▸ hk _ List.mem_cons_self h)
      cases hv : v.parse with
      | none => simp [hv] at hm
      | some r =>
        rw [hv] at hm
        rw [ih hm hrest]
        by_cases he : k' = ""
        · simp [setRecord, he]
        · simp [setRecord, he, Std.ExtTreeMap.getElem?_insert, hne]

lemma recoverMap_mem {now : Nat} {k : String} {v : DiskValue} {r : LocalRecordInfo}
    {kvs : List (String × DiskValue)} {m m' : LockMap} (hm : recoverMap now kvs m = some m')
    (hd : kvs.Pairwise fun a b => a.1 ≠ b.1) (hkv : (k, v) ∈ kvs) (hk : k ≠ "")
    (hi : isIgnoreKey k = false) (hr : v.parse = some r) : m'[k]? = some (restamp now r) := by
  induction kvs generalizing m with
  | nil => cases hkv
  | cons e kvs ih =>
    obtain ⟨hne, hd'⟩ := List.pairwise_cons.mp hd
    unfold recoverMap at hm
    rcases List.mem_cons.mp hkv with rfl | hin
    · simp only [hi, Bool.false_eq_true, if_false, hr] at hm
      rw [recoverMap_ne hm fun e he hek => absurd hek.symm (hne e he)]
      simp [setRecord, hk]
    · obtain ⟨k', v'⟩ := e
      by_cases hi' : isIgnoreKey k' = true
      · rw [if_pos hi'] at hm
        exact ih hm hd' hin
      · rw [if_neg hi'] at hm
        cases hv : v'.parse with
        | none => simp [hv] at hm
        | some r' =>
          rw [hv] at hm
          exact ih hm hd' hin

lemma recoverMap_isSome (now : Nat) {kvs : List (String × DiskValue)} (m : LockMap)
    (h : ∀ e ∈ kvs, isIgnoreKey e.1 = false → ∃ r, e.2.parse = some r) :
    ∃ m', recoverMap now kvs m = some m' := by
  induction kvs generalizing m with
  | nil => exact ⟨m, rfl⟩
  | cons e kvs ih =>
    obtain ⟨k, v⟩ := e
    have hrest := fun m => ih m fun e he => h e (List.mem_cons_of_mem _ he)
    unfold recoverMap
    by_cases hi : isIgnoreKey k = true
    · rw [if_pos hi]
      exact hrest m
    · obtain ⟨r, hr⟩ := h (k, v) List.mem_cons_self (Bool.eq_false_iff.mpr hi)
      rw [if_neg hi, show v.parse = some r from hr]
      exact hrest _

theorem recoverMap_contents (now : Nat) {db : LevelDb} (h : Readable db) :
    ∃ m, recoverMap now db.contents.toList ∅ = some m ∧
      ∀ k, k ≠ "" → isIgnoreKey k = false → recordAt m k = recordAt db k := by
  have hmem : ∀ e ∈ db.contents.toList, db.get e.1 = some e.2 := by
    intro e he
    rw [← WriteLog.contents_getElem?]
    exact Std.ExtTreeMap.mem_toList_iff_getElem?_eq_some.mp he
  have hd : db.contents.toList.Pairwise fun a b => a.1 ≠ b.1 :=
    Std.ExtTreeMap.distinct_keys_toList.imp fun hab heq => hab (by rw [heq]; simp)
  have hparse : ∀ e ∈ db.contents.toList, isIgnoreKey e.1 = false → ∃ r, e.2.parse = some r :=
    fun e he hi => h.parse hi (hmem e he)
  obtain ⟨m, hm⟩ := recoverMap_isSome now ∅ hparse
  refine ⟨m, hm, fun k hk hi => ?_⟩
  rw [LockMap.recordAt_eq m hk, LevelDb.recordAt_eq db hk]
  cases hv : db.get k with
  | none =>
    have hne : ∀ e ∈ db.contents.toList, e.1 = k → isIgnoreKey k = true := by
      rintro e he rfl
      rw [hmem e he] at hv
      cases hv
    rw [recoverMap_ne hm hne]
    rfl
  | some v =>
    obtain ⟨r, hr⟩ := h.parse hi hv
    have hkv : (k, v) ∈ db.contents.toList :=
      Std.ExtTreeMap.mem_toList_iff_getElem?_eq_some.mpr
        ((WriteLog.contents_getElem? db k).trans hv)
    rw [recoverMap_mem hm hd hkv hk hi hr]
    simp only [diskView, hr]
    rfl

end PhxQueue.Lock
