import PhxQueue.Lib.Replayed
import PhxQueue.Lock.Replica
import PhxQueue.Lock.Log

/-!
# Checkpoint safety of the lock group

An instance at or below a checkpoint is not executed again, so whatever it changed in the map has to
be in leveldb.  A replica crashes and comes up any number of times here, and each time executes the
instances above its checkpoint again, from what leveldb kept.

* `Recorded`, `recorded`     the replica, with every change of a record in its map;
* `KeptUpTo`                 what the instances up to a checkpoint changed is in leveldb, or what
                             replaced it;
* `CheckpointsSafe`          that, of the restart checkpoint on disk and of the disk checkpoint;
* `Replica.Inv`              the invariant; `Replica.Inv.step` its step lemma;
* `checkpointsSafe_run`      **checkpoint safety of the runs without requests on reserved keys**;
* `reservedAcquire_not_safe` a lock under a reserved key that leveldb refuses.
-/

set_option linter.unusedSectionVars false

namespace PhxQueue.Lock
open Comm Lib

/-! ## What an instance does to a record -/

def LockMap.cell (m : LockMap) (k : String) : Cas.Cell (String × ℕ) :=
  m[k]?.map LocalRecordInfo.view

def Entry.key? (e : Entry) (i : ℕ) : Option String :=
  match e with
  | .lock (some args) => (args.write i).map fun w => w.2.1.key
  | _ => none

def Entry.cell (e : Entry) (i : ℕ) (k : String) (c : Cas.Cell (String × ℕ)) :
    Cas.Cell (String × ℕ) :=
  match e with
  | .lock (some args) => args.cell i k c
  | _ => c

/-- The instances of a log as steps of the records. -/
def cellStep (log : ℕ → Entry) (i : ℕ) : String → Cas.Cell (String × ℕ) → Cas.Cell (String × ℕ) :=
  (log i).cell i

abbrev RecordChange := Change String (Cas.Cell (String × ℕ))

/-- What instance `i` changed: the record of its key, if it is another one now. -/
def changesOf (i : ℕ) (key : Option String) (m m' : LockMap) : List RecordChange :=
  match key with
  | none => []
  | some k => if m'.cell k = m.cell k then [] else [⟨i, k, m'.cell k⟩]

/-- The replica, and what executing instances has changed in its map, over all restarts, newest
first. -/
structure Recorded where
  replica : Replica := {}
  changes : List RecordChange := []

section
variable (opt : LockOption) (log : ℕ → Entry)

def Recorded.step (s : Recorded) (e : ReplicaEvent) : Recorded :=
  let replica := s.replica.step opt log e
  match e with
  | .execute _ =>
    let i := s.replica.mapNext
    ⟨replica, changesOf i ((log i).key? i) s.replica.g.map replica.g.map ++ s.changes⟩
  | _ => ⟨replica, s.changes⟩

/-- A replica over the log, from its first start. -/
def recorded : Machine Recorded ReplicaEvent where
  init := {}
  step := Recorded.step opt log

/-- What the instances up to `cp` changed is in leveldb, or what a later change of the same key
left. -/
def Recorded.KeptUpTo (s : Recorded) (cp : ℕ) : Prop :=
  ∀ later e earlier, s.changes = later ++ e :: earlier → e.index ≤ cp →
    ∃ c, recordAt s.replica.g.leveldb e.key = .ok c ∧ e.Stands later c

/-- The restart checkpoint on disk and the disk checkpoint in force are no higher than what leveldb
holds. -/
def CheckpointsSafe (s : Recorded) : Prop :=
  (∀ cp, s.replica.g.readRestartCheckpoint {} = (.ok, cp) → cp ≠ noCheckpoint → s.KeptUpTo cp) ∧
    (s.replica.g.diskCheckpoint ≠ noCheckpoint → s.KeptUpTo s.replica.g.diskCheckpoint)

/-- No leveldb call of the step fails, but for the checkpoint write of a replay: the replica may
crash between the record and the checkpoint. -/
def NoFault : ReplicaEvent → Prop
  | .replay io _ _ => ∃ cpOk, io = { cpOk := cpOk }
  | .flush putOk => putOk = true
  | .write io => io = {}
  | .restart _ io restartIo _ => io = {} ∧ restartIo = {}
  | _ => True

/-- An instance that is executed is not about a reserved key. -/
def Unreserved (s : Recorded) : ReplicaEvent → Prop
  | .execute _ => ∀ k ∈ (log s.replica.mapNext).key? s.replica.mapNext, isIgnoreKey k = false
  | _ => True

instance (s : Recorded) : DecidablePred (Unreserved log s) := fun e =>
  match e with
  | .execute _ => inferInstanceAs
      (Decidable (∀ k ∈ (log s.replica.mapNext).key? s.replica.mapNext, isIgnoreKey k = false))
  | .replay .. | .readNow _ | .readMemory | .readLast | .flush _ | .write _ | .restart .. =>
    inferInstanceAs (Decidable True)

/-- Instance `i` carries a request for the lock state machine. -/
def Carries (i : ℕ) : Prop := (log i).key? i ≠ none

/-- No instance from `n` on and below `m` carries a request. -/
def Idle (n m : ℕ) : Prop := ∀ i, n ≤ i → i < m → ¬ Carries log i

variable {log}

lemma cellStep_of_ne {i : ℕ} {k : String} (h : (log i).key? i ≠ some k)
    (c : Cas.Cell (String × ℕ)) : cellStep log i k c = c := by
  unfold cellStep Entry.cell
  unfold Entry.key? at h
  split
  · rename_i args hlog
    rw [hlog] at h
    have hkey : (args.write i).map (fun w => w.2.1.key) ≠ some k := h
    unfold LockPaxosArgs.cell LockPaxosArgs.op
    cases hw : args.write i with
    | none => rfl
    | some w =>
      obtain ⟨force, ki, v⟩ := w
      have hne : ki.key ≠ k := by
        intro hk
        rw [hw] at hkey
        exact hkey (congrArg some hk)
      by_cases hempty : ki.key = ""
      · simp only [hempty, if_true]
      · simp only [hempty, if_false]
        exact if_neg hne
  · rfl

lemma cellStep_of_refused {i : ℕ} (h : (log i).key? i = some "") (k : String)
    (c : Cas.Cell (String × ℕ)) : cellStep log i k c = c := by
  by_cases hk : k = ""
  · subst hk
    unfold cellStep Entry.cell
    unfold Entry.key? at h
    split
    · rename_i args hlog
      rw [hlog] at h
      have hkey : (args.write i).map (fun w => w.2.1.key) = some "" := h
      obtain ⟨w, hw, hwk⟩ := Option.map_eq_some_iff.mp hkey
      unfold LockPaxosArgs.cell LockPaxosArgs.op
      rw [hw]
      dsimp only
      rw [if_pos hwk]
    · rfl
  · refine cellStep_of_ne (fun heq => hk ?_) c
    rw [h] at heq
    exact (Option.some.inj heq).symm

lemma cellStep_of_not_carries {i : ℕ} (h : ¬ Carries log i) (k : String)
    (c : Cas.Cell (String × ℕ)) : cellStep log i k c = c :=
  cellStep_of_ne (fun hk => h fun hnone => by rw [hnone] at hk; cases hk) c

lemma Idle.quiet {n m : ℕ} (h : Idle log n m) : Quiet (cellStep log) n m :=
  fun i hn hm k c => cellStep_of_not_carries (h i hn hm) k c

lemma Idle.mono {n n' m m' : ℕ} (h : Idle log n m) (hn : n ≤ n') (hm : m' ≤ m) :
    Idle log n' m' := fun i hi him => h i (hn.trans hi) (him.trans_le hm)

lemma idle_of_le {n m : ℕ} (h : m ≤ n) : Idle log n m :=
  fun _ hi him => absurd (hi.trans_lt him) (Nat.not_lt_of_le h)

end

/-! ## What one step does -/

/-- `Execute` of an instance: nothing, an instance without a request, or one that applies its
operation to the map. -/
inductive Executes (log : ℕ → Entry) (s : Replica) : Replica → Prop
  | stays : Executes log s s
  | passes (lt : s.mapNext < noCheckpoint) (idle : ¬ Carries log s.mapNext) :
      Executes log s { s with mapNext := s.mapNext + 1 }
  | takes (lt : s.mapNext < noCheckpoint) (k : String)
      (key : (log s.mapNext).key? s.mapNext = some k) (m : LockMap)
      (cells : ∀ k', k' ≠ "" → m.cell k' = cellStep log s.mapNext k' (s.g.map.cell k'))
      (empty : k = "" → m = s.g.map) :
      Executes log s { s with
        g := { s.g with map := m, lastInstanceId := s.mapNext }, mapNext := s.mapNext + 1 }

lemma executes (log : ℕ → Entry) (s : Replica) (now : ℕ) : Executes log s (s.execute log now) := by
  unfold Replica.execute
  split
  · rename_i hlt
    split
    · rename_i hlog
      refine .passes hlt fun hc => hc ?_
      rw [hlog]
      rfl
    · rename_i args hlog
      cases args with
      | none => exact .stays
      | some args =>
        have hmap : ∀ k', k' ≠ "" → ∀ c, recordAt s.g.map k' = .ok c →
            recordAt (doExecute .map s.g {} now s.mapNext args false).2.1.map k' =
              .ok (args.cell s.mapNext k' c) :=
          fun k' hk' c hc => doExecute_map s.g now s.mapNext args false hk' hc
        have hcell : ∀ k' c, cellStep log s.mapNext k' c = args.cell s.mapNext k' c := by
          intro k' c
          unfold cellStep Entry.cell
          rw [hlog]
        dsimp only [Lock.execute]
        rw [doExecute_fst, if_pos rfl]
        rw [doExecute_eq] at hmap ⊢
        cases hw : args.write s.mapNext with
        | none =>
          refine .passes hlt fun hc => hc ?_
          rw [hlog]
          show (args.write s.mapNext).map _ = none
          rw [hw]
          rfl
        | some w =>
          obtain ⟨force, ki, v⟩ := w
          rw [hw] at hmap
          refine .takes hlt ki.key ?_ _ (fun k' hk' => ?_) fun hk => ?_
          · rw [hlog]
            show (args.write s.mapNext).map _ = some ki.key
            rw [hw]
            rfl
          · have hrec := hmap k' hk' _ (LockMap.recordAt_eq s.g.map hk')
            rw [LockMap.recordAt_eq _ hk'] at hrec
            rw [hcell]
            exact Except.ok.inj hrec
          · show (conditionalWrite "" force s.g.map {} now ki v false).2 = s.g.map
            rw [conditionalWrite_empty force s.g.map {} now hk]
  · exact .stays

/-- What an instance about the key `k` does to the group when it is executed on leveldb: nothing; a
record is written, and the memory checkpoint may follow; both checkpoints follow. -/
inductive DiskOutcome (g : GroupData) (i : ℕ) (k : String) : GroupData → Prop
  | same : DiskOutcome g i k g
  | record (x : Option DiskValue) (hx : x = none ∨ ∃ v, x = some (.record v)) (sync : Bool) (cp : ℕ)
      (hcp : cp = g.memoryCheckpoint ∨ cp = i) :
      DiskOutcome g i k { g with leveldb := g.leveldb.write k x sync, memoryCheckpoint := cp }
  | disk (x : Option DiskValue) (hx : x = none ∨ ∃ v, x = some (.record v)) :
      DiskOutcome g i k { g with
        leveldb := (g.leveldb.write k x true).write keyIgnoreCheckpoint (some (.text i)) true
        memoryCheckpoint := i
        diskCheckpoint := i }

lemma writeDiskCheckpoint_eq (g : GroupData) (io : DiskIO) {cp : ℕ} (hcp : cp ≠ noCheckpoint) :
    (g.writeDiskCheckpoint io cp).2 = if io.cpOk then { g with
      leveldb := g.leveldb.write keyIgnoreCheckpoint (some (.text cp)) true
      diskCheckpoint := cp
      memoryCheckpoint := cp } else g := by
  have hne : keyIgnoreCheckpoint ≠ "" := by decide
  unfold GroupData.writeDiskCheckpoint diskSet
  by_cases hio : io.cpOk = true
  · simp [hcp, hne, hio]
  · simp [hcp, hne, hio]

lemma diskOutcome (g : GroupData) (io : DiskIO) (now : ℕ) {i : ℕ} (hi : i ≠ noCheckpoint)
    {args : LockPaxosArgs} {force : Bool} {ki : RecordKeyInfo} {v : LocalRecordInfo}
    (hw : args.write i = some (force, ki, v)) (sync : Bool) :
    DiskOutcome g i ki.key (doExecute .leveldb g io now i args sync).2.1 := by
  rw [doExecute_eq, hw]
  show DiskOutcome g i ki.key (executeOn .leveldb g io i sync _ _).2
  unfold executeOn
  dsimp only
  rcases wrote_conditionalWrite force g.leveldb io now ki v sync with
    ⟨hret, hdb⟩ | ⟨hret, x, hx, hdb⟩
  · rw [if_neg hret, hdb]
    exact .same
  · rw [if_pos hret, hdb]
    by_cases hs : sync = true
    · subst hs
      rw [if_pos rfl, writeDiskCheckpoint_eq _ _ hi]
      split
      · exact .disk x hx
      · exact .record x hx true g.memoryCheckpoint (.inl rfl)
    · rw [if_neg hs]
      exact .record x hx sync i (.inr rfl)

/-- `ExecuteForCheckpoint` of an instance: nothing, an instance that leveldb does not see, or one
that applies its operation to the user records of leveldb. -/
inductive Replays (opt : LockOption) (log : ℕ → Entry) (s : Replica) : Replica → Prop
  | stays (failed : List ℕ) : Replays opt log s { s with failed := failed }
  | passes (lt : s.diskNext < s.mapNext) (idle : opt.noLeveldb = false → ¬ Carries log s.diskNext)
      (failed : List ℕ) : Replays opt log s { s with diskNext := s.diskNext + 1, failed := failed }
  | takes (lt : s.diskNext < s.mapNext) (stored : opt.noLeveldb = false) (k : String)
      (key : (log s.diskNext).key? s.diskNext = some k) (g : GroupData)
      (outcome : DiskOutcome s.g s.diskNext k g)
      (cells : ∀ k', UserKey k' → ∀ c, recordAt s.g.leveldb k' = .ok c →
        recordAt g.leveldb k' = .ok (cellStep log s.diskNext k' c)) (failed : List ℕ) :
      Replays opt log s { s with g := g, diskNext := s.diskNext + 1, failed := failed }

lemma replays (opt : LockOption) (log : ℕ → Entry) {s : Replica} (hle : s.mapNext ≤ noCheckpoint)
    (cpOk : Bool) (lastSyncMs now : ℕ) :
    Replays opt log s (s.replay opt log { cpOk := cpOk } lastSyncMs now) := by
  unfold Replica.replay
  split
  · rename_i hlt
    split
    · rename_i hlog
      refine .passes hlt (fun _ hc => hc ?_) s.failed
      rw [hlog]
      rfl
    · rename_i args hlog
      dsimp only
      generalize (if isStorageError (s.replayResult opt { cpOk := cpOk } lastSyncMs now args) then
        s.diskNext :: s.failed else s.failed.filter (· ≠ s.diskNext)) = failed
      unfold executeForCheckpoint
      by_cases hopt : opt.noLeveldb = true
      · simp only [hopt, if_true]
        exact .passes hlt (fun hopt' => by rw [hopt] at hopt'; cases hopt') failed
      · have hopt' : opt.noLeveldb = false := Bool.eq_false_iff.mpr hopt
        cases args with
        | none =>
          simp only [hopt', Bool.false_eq_true, if_false]
          exact .stays failed
        | some args =>
          simp only [hopt', Bool.false_eq_true, if_false, doExecute_fst, if_true]
          have hcells : ∀ k', UserKey k' → ∀ c, recordAt s.g.leveldb k' = .ok c →
              recordAt (doExecute .leveldb s.g { cpOk := cpOk } now s.diskNext args
                (needSync opt lastSyncMs now s.g s.diskNext)).2.1.leveldb k' =
                .ok (args.cell s.diskNext k' c) :=
            fun k' hk' c hc => doExecute_leveldb s.g now s.diskNext args _ hk'.1 hk'.2 hc
          cases hw : args.write s.diskNext with
          | none =>
            have hg : (doExecute .leveldb s.g { cpOk := cpOk } now s.diskNext args
                (needSync opt lastSyncMs now s.g s.diskNext)).2.1 = s.g := by
              rw [doExecute_eq, hw]
            rw [hg]
            refine .passes hlt (fun _ hc => hc ?_) failed
            rw [hlog]
            show (args.write s.diskNext).map _ = none
            rw [hw]
            rfl
          | some w =>
            obtain ⟨force, ki, v⟩ := w
            refine .takes hlt hopt' ki.key ?_ _
              (diskOutcome s.g { cpOk := cpOk } now (hlt.trans_le hle).ne hw _) (fun k' hk' c hc => ?_)
              failed
            · rw [hlog]
              show (args.write s.diskNext).map _ = some ki.key
              rw [hw]
              rfl
            · unfold cellStep Entry.cell
              rw [hlog]
              exact hcells k' hk' c hc
  · exact .stays s.failed

/-! ## The invariant -/

/-- Every request from instance `n` on is above the checkpoint. -/
def CheckpointOk (log : ℕ → Entry) (n cp : ℕ) : Prop :=
  cp = noCheckpoint ∨ (cp < noCheckpoint ∧ Idle log n (cp + 1))

/-- The checkpoints of a leveldb that has executed the instances below `n`; the deprecated keys are
never written. -/
structure Checkpoints (log : ℕ → Entry) (n : ℕ) (ws : List (String × Option DiskValue)) : Prop where
  disk : ∀ x, WriteLog.lookup keyIgnoreCheckpoint ws = some x →
    x.strtoul < noCheckpoint ∧ Idle log n (x.strtoul + 1)
  restart : ∀ x, WriteLog.lookup keyIgnoreRestartCheckpoint ws = some x →
    x.strtoul < noCheckpoint ∧ Idle log n (x.strtoul + 1)
  noDisk : WriteLog.lookup keyIgnoreCheckpointDeprecated ws = none
  noRestart : WriteLog.lookup keyIgnoreRestartCheckpointDeprecated ws = none

/-- The history of a leveldb that has executed the instances below `n`, in the life of the replica
that started with the records `r` before instance `first`. -/
structure At (log : ℕ → Entry) (first : ℕ) (r : String → Cas.Cell (String × ℕ)) (n : ℕ)
    (ws : List (String × Option DiskValue)) : Prop where
  records : ∀ k, UserKey k →
    diskView (WriteLog.lookup k ws) = .ok (valuesAt (cellStep log) first r n k)
  checkpoints : Checkpoints log n ws

/-- The last instance id is that of the last request executed on the map, or the checkpoint the
replica started from. -/
def LastOk (log : ℕ → Entry) (mapNext last : ℕ) : Prop :=
  (last = noCheckpoint → ∀ i < mapNext, ¬ Carries log i) ∧
    (last ≠ noCheckpoint → ∀ i < mapNext, Carries log i → i ≤ last)

/-- What the clean thread has read is no later than the replica. -/
def CleanerOk (log : ℕ → Entry) (n mapNext : ℕ) : Cleaner → Prop
  | .idle => True
  | .readNow now => now ≤ mapNext
  | .readMemory now m => now ≤ mapNext ∧ CheckpointOk log n m
  | .flush now | .write now => 1 ≤ now ∧ now ≤ noCheckpoint ∧ Idle log n now

/-- The first instance that leveldb has not executed in this life. -/
def Replica.position (opt : LockOption) (first : ℕ) (s : Replica) : ℕ :=
  if opt.noLeveldb then first else s.diskNext

/-- A life of the replica, from the records `r` before instance `first` on. -/
structure Replica.Inv (opt : LockOption) (log : ℕ → Entry) (first : ℕ)
    (r : String → Cas.Cell (String × ℕ)) (changes : List RecordChange) (s : Replica) : Prop where
  first_le : first ≤ s.diskNext
  diskNext_le : s.diskNext ≤ s.mapNext
  mapNext_le : s.mapNext ≤ noCheckpoint
  unreserved : ∀ i, first ≤ i → i < s.mapNext → ∀ k ∈ (log i).key? i, isIgnoreKey k = false
  map : ∀ k, UserKey k → s.g.map.cell k = valuesAt (cellStep log) first r s.mapNext k
  keys : ∀ e ∈ changes, UserKey e.key
  standing : StandingFrom (cellStep log) changes first s.mapNext r
  leveldb : At log first r (s.position opt first) s.g.leveldb.writes
  survivors : s.g.leveldb.Surviving fun ws =>
    ∃ n, first ≤ n ∧ n ≤ s.position opt first ∧ At log first r n ws
  readable : Readable s.g.leveldb
  memoryCheckpoint : CheckpointOk log (s.position opt first) s.g.memoryCheckpoint
  diskCheckpoint : CheckpointOk log (s.position opt first) s.g.diskCheckpoint
  last : LastOk log s.mapNext s.g.lastInstanceId
  cleaner : CleanerOk log (s.position opt first) s.mapNext s.cleaner

section
variable {opt : LockOption} {log : ℕ → Entry} {first : ℕ} {r : String → Cas.Cell (String × ℕ)}
  {changes : List RecordChange} {s : Replica}

lemma CheckpointOk.mono {n n' cp : ℕ} (h : CheckpointOk log n cp) (hn : n ≤ n') :
    CheckpointOk log n' cp := by
  rcases h with h | ⟨hlt, hidle⟩
  · exact .inl h
  · exact .inr ⟨hlt, hidle.mono hn le_rfl⟩

lemma Checkpoints.mono {n n' : ℕ} {ws : List (String × Option DiskValue)}
    (h : Checkpoints log n ws) (hn : n ≤ n') : Checkpoints log n' ws where
  disk := fun x hx => ⟨(h.disk x hx).1, (h.disk x hx).2.mono hn le_rfl⟩
  restart := fun x hx => ⟨(h.restart x hx).1, (h.restart x hx).2.mono hn le_rfl⟩
  noDisk := h.noDisk
  noRestart := h.noRestart

lemma CleanerOk.mono {n n' mapNext mapNext' : ℕ} {c : Cleaner} (h : CleanerOk log n mapNext c)
    (hn : n ≤ n') (hm : mapNext ≤ mapNext') : CleanerOk log n' mapNext' c := by
  cases c with
  | idle => trivial
  | readNow now => exact Nat.le_trans h hm
  | readMemory now m => exact ⟨h.1.trans hm, h.2.mono hn⟩
  | flush now => exact ⟨h.1, h.2.1, h.2.2.mono hn le_rfl⟩
  | write now => exact ⟨h.1, h.2.1, h.2.2.mono hn le_rfl⟩

def isCheckpointKey (k : String) : Prop :=
  k = keyIgnoreCheckpoint ∨ k = keyIgnoreCheckpointDeprecated ∨
    k = keyIgnoreRestartCheckpoint ∨ k = keyIgnoreRestartCheckpointDeprecated

lemma ne_of_isCheckpointKey {k k' : String} (hk : isIgnoreKey k = false)
    (hk' : isCheckpointKey k') : k ≠ k' := by
  rintro rfl
  rcases hk' with rfl | rfl | rfl | rfl <;> exact absurd hk (by decide)

lemma Checkpoints.cons {n : ℕ} {ws : List (String × Option DiskValue)} (h : Checkpoints log n ws)
    {k : String} (hk : ∀ k', isCheckpointKey k' → k ≠ k') (x : Option DiskValue) :
    Checkpoints log n ((k, x) :: ws) where
  disk := by
    rw [WriteLog.lookup_cons, if_neg (hk _ (.inl rfl))]
    exact h.disk
  restart := by
    rw [WriteLog.lookup_cons, if_neg (hk _ (.inr (.inr (.inl rfl))))]
    exact h.restart
  noDisk := by
    rw [WriteLog.lookup_cons, if_neg (hk _ (.inr (.inl rfl)))]
    exact h.noDisk
  noRestart := by
    rw [WriteLog.lookup_cons, if_neg (hk _ (.inr (.inr (.inr rfl))))]
    exact h.noRestart

lemma Checkpoints.consDisk {n cp : ℕ} {ws : List (String × Option DiskValue)}
    (h : Checkpoints log n ws) (hlt : cp < noCheckpoint) (hidle : Idle log n (cp + 1)) :
    Checkpoints log n ((keyIgnoreCheckpoint, some (.text cp)) :: ws) where
  disk := by
    intro x hx
    rw [WriteLog.lookup_cons, if_pos rfl] at hx
    cases hx
    exact ⟨hlt, hidle⟩
  restart := by
    rw [WriteLog.lookup_cons, if_neg (by decide)]
    exact h.restart
  noDisk := by
    rw [WriteLog.lookup_cons, if_neg (by decide)]
    exact h.noDisk
  noRestart := by
    rw [WriteLog.lookup_cons, if_neg (by decide)]
    exact h.noRestart

lemma Checkpoints.consRestart {n cp : ℕ} {ws : List (String × Option DiskValue)}
    (h : Checkpoints log n ws) (hlt : cp < noCheckpoint) (hidle : Idle log n (cp + 1)) :
    Checkpoints log n ((keyIgnoreRestartCheckpoint, some (.text cp)) :: ws) where
  disk := by
    rw [WriteLog.lookup_cons, if_neg (by decide)]
    exact h.disk
  restart := by
    intro x hx
    rw [WriteLog.lookup_cons, if_pos rfl] at hx
    cases hx
    exact ⟨hlt, hidle⟩
  noDisk := by
    rw [WriteLog.lookup_cons, if_neg (by decide)]
    exact h.noDisk
  noRestart := by
    rw [WriteLog.lookup_cons, if_neg (by decide)]
    exact h.noRestart

lemma At.consIgnore {n : ℕ} {ws : List (String × Option DiskValue)} (h : At log first r n ws)
    {k : String} (hk : isIgnoreKey k = true) {x : Option DiskValue}
    (hcp : Checkpoints log n ((k, x) :: ws)) : At log first r n ((k, x) :: ws) where
  records := by
    intro k' hk'
    rw [WriteLog.lookup_cons, if_neg (ne_of_isIgnoreKey hk'.2 hk)]
    exact h.records k' hk'
  checkpoints := hcp

lemma At.skip {n : ℕ} {ws : List (String × Option DiskValue)} (h : At log first r n ws)
    (hn : first ≤ n) (hidle : ¬ Carries log n) : At log first r (n + 1) ws where
  records := by
    intro k hk
    rw [valuesAt_succ _ hn, cellStep_of_not_carries hidle]
    exact h.records k hk
  checkpoints := h.checkpoints.mono (Nat.le_succ n)

lemma readable_record {db : LevelDb} (h : Readable db) (k : String) {x : Option DiskValue}
    (hx : x = none ∨ ∃ v, x = some (.record v)) (sync : Bool) : Readable (db.write k x sync) := by
  refine WriteLog.All.write h (fun _ y hy => ?_) sync
  rcases hx with rfl | ⟨v, rfl⟩
  · cases hy
  · cases hy
    exact fun hp => nomatch hp

lemma readable_ignore {db : LevelDb} (h : Readable db) {k : String} (hk : isIgnoreKey k = true)
    (x : DiskValue) (sync : Bool) : Readable (db.write k (some x) sync) :=
  WriteLog.All.write h (fun hk' => by rw [hk] at hk'; cases hk') sync

/-! ### Execution on the map -/

lemma lastOk_execute {n : ℕ} (hne : n ≠ noCheckpoint) : LastOk log (n + 1) n :=
  ⟨fun h => absurd h hne, fun _ _ hj _ => Nat.lt_succ_iff.mp hj⟩

lemma lastOk_skip {n last : ℕ} (h : LastOk log n last) (hn : ¬ Carries log n) :
    LastOk log (n + 1) last := by
  constructor
  · intro hl j hj hc
    rcases Nat.lt_succ_iff_lt_or_eq.mp hj with hlt | rfl
    · exact h.1 hl j hlt hc
    · exact hn hc
  · intro hl j hj hc
    rcases Nat.lt_succ_iff_lt_or_eq.mp hj with hlt | rfl
    · exact h.2 hl j hlt hc
    · exact absurd hc hn

lemma changesOf_self (i : ℕ) (key : Option String) (m : LockMap) : changesOf i key m m = [] := by
  cases key with
  | none => rfl
  | some k => exact if_pos rfl

/-- The change of an instance is recorded as the log of changes has it. -/
lemma changesOf_append {i : ℕ} {k : String} {m m' : LockMap}
    (h : m'.cell k = cellStep log i k (m.cell k)) (changes : List RecordChange) :
    changesOf i (some k) m m' ++ changes = logged (cellStep log) changes i k (m.cell k) := by
  unfold changesOf logged
  dsimp only
  rw [h]
  split <;> rfl

/-- Executing an instance keeps the invariant, with what it changed recorded. -/
lemma Replica.Inv.execute (h : s.Inv opt log first r changes) {t : Replica}
    (hex : Executes log s t)
    (hkey : ∀ k ∈ (log s.mapNext).key? s.mapNext, isIgnoreKey k = false) :
    t.Inv opt log first r
      (changesOf s.mapNext ((log s.mapNext).key? s.mapNext) s.g.map t.g.map ++ changes) := by
  have hfirst : first ≤ s.mapNext := h.first_le.trans h.diskNext_le
  have hnext : s.mapNext ≤ s.mapNext + 1 := Nat.le_succ _
  have hunres : ∀ i, first ≤ i → i < s.mapNext + 1 →
      ∀ k ∈ (log i).key? i, isIgnoreKey k = false := by
    intro i hi hlt
    rcases Nat.lt_succ_iff_lt_or_eq.mp hlt with hlt | rfl
    · exact h.unreserved i hi hlt
    · exact hkey
  cases hex with
  | stays =>
    rw [changesOf_self]
    exact h
  | passes lt idle =>
    rw [changesOf_self]
    exact { h with
      diskNext_le := h.diskNext_le.trans hnext
      mapNext_le := lt
      unreserved := hunres
      map := fun k hk => by
        rw [valuesAt_succ _ hfirst, cellStep_of_not_carries idle]
        exact h.map k hk
      standing := h.standing.skip hfirst fun k c => cellStep_of_not_carries idle k c
      last := lastOk_skip h.last idle
      cleaner := h.cleaner.mono le_rfl hnext }
  | takes lt k key m cells empty =>
    have hmap : ∀ k', UserKey k' → m.cell k' =
        valuesAt (cellStep log) first r (s.mapNext + 1) k' := by
      intro k' hk'
      rw [cells k' hk'.1, h.map k' hk', valuesAt_succ _ hfirst]
    have hother : ∀ k', k' ≠ k → ∀ c, cellStep log s.mapNext k' c = c := by
      intro k' hk' c
      refine cellStep_of_ne (fun heq => hk' ?_) c
      rw [key] at heq
      exact (Option.some.inj heq).symm
    have hbase : ∀ changes' : List RecordChange, (∀ e ∈ changes', UserKey e.key) →
        StandingFrom (cellStep log) changes' first (s.mapNext + 1) r →
        Replica.Inv opt log first r changes' { s with
          g := { s.g with map := m, lastInstanceId := s.mapNext }, mapNext := s.mapNext + 1 } := by
      intro changes' hkeys hstanding
      exact { h with
        diskNext_le := h.diskNext_le.trans hnext
        mapNext_le := lt
        unreserved := hunres
        map := hmap
        keys := hkeys
        standing := hstanding
        last := lastOk_execute lt.ne
        cleaner := h.cleaner.mono le_rfl hnext }
    by_cases hempty : k = ""
    · rw [empty hempty, changesOf_self]
      rw [empty hempty] at hbase
      rw [hempty] at key
      exact hbase changes h.keys (h.standing.skip hfirst fun k' c => cellStep_of_refused key k' c)
    · have hk : UserKey k := ⟨hempty, hkey k (by rw [key]; rfl)⟩
      have hstanding := h.standing.execute hfirst fun k' hk' => hother k' hk' _
      rw [← h.map k hk] at hstanding
      rw [key, changesOf_append (cells k hempty)]
      refine hbase _ (fun e he => ?_) hstanding
      unfold logged at he
      split at he
      · exact h.keys e he
      · rcases List.mem_cons.mp he with rfl | he
        · exact hk
        · exact h.keys e he

/-! ### Replay on leveldb -/

/-- The write of a record, or the deletion of one, by instance `n`. -/
lemma At.consRecord {n : ℕ} {ws : List (String × Option DiskValue)} (h : At log first r n ws)
    {k : String} (hk : isIgnoreKey k = false) {x : Option DiskValue}
    (hrec : ∀ k', UserKey k' → diskView (WriteLog.lookup k' ((k, x) :: ws)) =
      .ok (valuesAt (cellStep log) first r (n + 1) k')) : At log first r (n + 1) ((k, x) :: ws) :=
  ⟨hrec, (h.checkpoints.mono (Nat.le_succ n)).cons (fun _ => ne_of_isCheckpointKey hk) x⟩

lemma Replica.Inv.moved (h : s.Inv opt log first r changes) (hlt : s.diskNext < s.mapNext)
    (hopt : opt.noLeveldb = false) {g : GroupData} (failed : List ℕ)
    (hmap : g.map = s.g.map) (hlast : g.lastInstanceId = s.g.lastInstanceId)
    (hat : At log first r (s.diskNext + 1) g.leveldb.writes)
    (hsurvivors : g.leveldb.Surviving fun ws =>
      ∃ n, first ≤ n ∧ n ≤ s.diskNext + 1 ∧ At log first r n ws)
    (hread : Readable g.leveldb) (hmem : CheckpointOk log (s.diskNext + 1) g.memoryCheckpoint)
    (hdisk : CheckpointOk log (s.diskNext + 1) g.diskCheckpoint) :
    Replica.Inv opt log first r changes
      { s with g := g, diskNext := s.diskNext + 1, failed := failed } := by
  have hpos : ∀ s' : Replica, s'.position opt first = s'.diskNext := by
    intro s'
    unfold Replica.position
    rw [hopt]
    rfl
  have hle : s.position opt first ≤ s.diskNext + 1 := (hpos s).le.trans (Nat.le_succ _)
  refine ⟨Nat.le_succ_of_le h.first_le, hlt, h.mapNext_le, h.unreserved, fun k hk => ?_, h.keys,
    h.standing, ?_, ?_, hread, ?_, ?_, ?_, ?_⟩
  · rw [hmap]
    exact h.map k hk
  · rw [hpos]
    exact hat
  · rw [hpos]
    exact hsurvivors
  · rw [hpos]
    exact hmem
  · rw [hpos]
    exact hdisk
  · rw [hlast]
    exact h.last
  · rw [hpos]
    exact h.cleaner.mono hle le_rfl

lemma Replica.Inv.replay (h : s.Inv opt log first r changes) {t : Replica}
    (hr : Replays opt log s t) : t.Inv opt log first r changes := by
  cases hr with
  | stays failed => exact { h with }
  | passes lt idle failed =>
    by_cases hopt : opt.noLeveldb = true
    · have hpos : Replica.position opt first
          { s with diskNext := s.diskNext + 1, failed := failed } = s.position opt first := by
        unfold Replica.position
        rw [hopt]
        rfl
      exact { h with
        first_le := Nat.le_succ_of_le h.first_le
        diskNext_le := lt
        leveldb := hpos ▸ h.leveldb
        survivors := hpos ▸ h.survivors
        memoryCheckpoint := hpos ▸ h.memoryCheckpoint
        diskCheckpoint := hpos ▸ h.diskCheckpoint
        cleaner := hpos ▸ h.cleaner }
    · have hopt' : opt.noLeveldb = false := Bool.eq_false_iff.mpr hopt
      have hpos : s.position opt first = s.diskNext := by
        unfold Replica.position
        rw [hopt']
        rfl
      have hle : s.position opt first ≤ s.diskNext + 1 := hpos.le.trans (Nat.le_succ _)
      refine h.moved lt hopt' failed rfl rfl ((hpos ▸ h.leveldb).skip h.first_le (idle hopt'))
        (h.survivors.mono fun ws ⟨n, hn, hnd, hat⟩ => ⟨n, hn, hnd.trans hle, hat⟩) h.readable
        (h.memoryCheckpoint.mono hle) (h.diskCheckpoint.mono hle)
  | takes lt stored k key g outcome cells failed =>
    have hpos : s.position opt first = s.diskNext := by
      unfold Replica.position
      rw [stored]
      rfl
    have hle : s.position opt first ≤ s.diskNext + 1 := hpos.le.trans (Nat.le_succ _)
    have hat : At log first r s.diskNext s.g.leveldb.writes := hpos ▸ h.leveldb
    have hk : isIgnoreKey k = false :=
      h.unreserved s.diskNext h.first_le lt k (by rw [key]; rfl)
    have hcp : s.diskNext < noCheckpoint := lt.trans_le h.mapNext_le
    have hrec : ∀ k', UserKey k' → diskView (g.leveldb.get k') =
        .ok (valuesAt (cellStep log) first r (s.diskNext + 1) k') := by
      intro k' hk'
      rw [← LevelDb.recordAt_eq g.leveldb hk'.1, valuesAt_succ _ h.first_le]
      refine cells k' hk' _ ?_
      rw [LevelDb.recordAt_eq _ hk'.1]
      exact hat.records k' hk'
    have hold : s.g.leveldb.Surviving fun ws =>
        ∃ n, first ≤ n ∧ n ≤ s.diskNext + 1 ∧ At log first r n ws :=
      h.survivors.mono fun ws ⟨n, hn, hnd, hat⟩ => ⟨n, hn, hnd.trans hle, hat⟩
    have hfirst : first ≤ s.diskNext + 1 := Nat.le_succ_of_le h.first_le
    have hself : CheckpointOk log (s.diskNext + 1) s.diskNext := .inr ⟨hcp, idle_of_le le_rfl⟩
    cases outcome with
    | same =>
      exact h.moved lt stored failed rfl rfl ⟨hrec, hat.checkpoints.mono (Nat.le_succ _)⟩ hold
        h.readable (h.memoryCheckpoint.mono hle) (h.diskCheckpoint.mono hle)
    | record x hx sync cp hcp =>
      have hnew := hat.consRecord hk hrec
      refine h.moved lt stored failed rfl rfl hnew
        (hold.write ⟨s.diskNext + 1, hfirst, le_rfl, hnew⟩ sync) (readable_record h.readable k hx sync)
        ?_ (h.diskCheckpoint.mono hle)
      rcases hcp with rfl | rfl
      · exact h.memoryCheckpoint.mono hle
      · exact hself
    | disk x hx =>
      have hnew : At log first r (s.diskNext + 1) ((k, x) :: s.g.leveldb.writes) :=
        hat.consRecord hk fun k' hk' => by
          have hget := hrec k' hk'
          rw [WriteLog.get_write_ne (ne_of_isIgnoreKey hk'.2 isIgnoreKey_checkpoint)] at hget
          exact hget
      have hcps := hnew.consIgnore isIgnoreKey_checkpoint
        (hnew.checkpoints.consDisk hcp (idle_of_le le_rfl))
      exact h.moved lt stored failed rfl rfl hcps
        ((hold.write ⟨s.diskNext + 1, hfirst, le_rfl, hnew⟩ true).write
          ⟨s.diskNext + 1, hfirst, le_rfl, hcps⟩ true)
        (readable_ignore (readable_record h.readable k hx true) isIgnoreKey_checkpoint _ true)
        hself hself

/-! ### The clean thread -/

lemma Replica.Inv.withCleaner (h : s.Inv opt log first r changes) {c : Cleaner}
    (hc : CleanerOk log (s.position opt first) s.mapNext c) :
    Replica.Inv opt log first r changes { s with cleaner := c } := { h with cleaner := hc }

/-- The comparison of `WriteRestartCheckpoint`: between the memory checkpoint and the instance it
is about to record there is no request. -/
lemma idle_restart {n mapNext now m last : ℕ} (hmap : mapNext ≤ noCheckpoint)
    (hlast : LastOk log mapNext last) (hn : now ≤ mapNext) (hm : CheckpointOk log n m)
    (hneed : restartNeeded now m last = true) : CleanerOk log n mapNext (.flush now) := by
  unfold restartNeeded at hneed
  simp only [Bool.and_eq_true, decide_eq_true_eq] at hneed
  obtain ⟨⟨rfl, hlt⟩, _⟩ := hneed
  refine ⟨Nat.one_le_of_lt hlt, hn.trans hmap, fun i hi hin hc => ?_⟩
  have him : i < mapNext := hin.trans_le hn
  rcases hm with hm | ⟨hmlt, hidle⟩
  · exact hlast.1 hm i him hc
  · exact hidle i hi (Nat.lt_succ_of_le (hlast.2 hmlt.ne i him hc)) hc

lemma Replica.Inv.append (h : s.Inv opt log first r changes) {k : String} {x : DiskValue}
    (hk : isIgnoreKey k = true)
    (hcp : Checkpoints log (s.position opt first) ((k, some x) :: s.g.leveldb.writes)) {c : Cleaner}
    (hc : CleanerOk log (s.position opt first) s.mapNext c) :
    Replica.Inv opt log first r changes { s with
      g := { s.g with leveldb := s.g.leveldb.write k (some x) true }, cleaner := c } := by
  have hat := h.leveldb.consIgnore hk hcp
  have hpos : first ≤ s.position opt first := by
    unfold Replica.position
    split
    · exact le_rfl
    · exact h.first_le
  exact { h with
    leveldb := hat
    survivors := h.survivors.write ⟨_, hpos, le_rfl, hat⟩ true
    readable := readable_ignore h.readable hk x true
    cleaner := hc }

lemma Replica.Inv.flush (h : s.Inv opt log first r changes) {now : ℕ}
    (hc : CleanerOk log (s.position opt first) s.mapNext (.write now)) :
    Replica.Inv opt log first r changes { s with
      g := { s.g with leveldb := (s.g.leveldb.sync true).2 }, cleaner := .write now } := by
  refine h.append (by decide) (h.leveldb.checkpoints.cons (fun k' hk' => ?_) _) hc
  rcases hk' with rfl | rfl | rfl | rfl <;> decide

lemma Replica.Inv.write (h : s.Inv opt log first r changes) {now : ℕ}
    (hc : CleanerOk log (s.position opt first) s.mapNext (.write now)) :
    Replica.Inv opt log first r changes { s with
      g := (s.g.writeRestartCheckpoint {} (now - 1)).2, cleaner := .idle } := by
  obtain ⟨hpos, hle, hidle⟩ := hc
  have hlt : now - 1 < noCheckpoint := by omega
  have hkey : keyIgnoreRestartCheckpoint ≠ "" := by decide
  have hg : (s.g.writeRestartCheckpoint {} (now - 1)).2 = { s.g with
      leveldb := s.g.leveldb.write keyIgnoreRestartCheckpoint (some (.text (now - 1))) true } := by
    unfold GroupData.writeRestartCheckpoint diskSet
    simp [hlt.ne, hkey]
  rw [hg]
  exact h.append (by decide)
    (h.leveldb.checkpoints.consRestart hlt (hidle.mono le_rfl (by omega))) trivial

/-! ### Crash and restart -/

lemma readCheckpointKey_eq {db : LevelDb} {key deprecated : String} (hkey : key ≠ "")
    (hdep : deprecated ≠ "") (hnone : db.get deprecated = none) :
    readCheckpointKey db {} key deprecated =
      match db.get key with
      | some x => (.ok, x.strtoul)
      | none => (.errKeyNotExist, noCheckpoint) := by
  unfold readCheckpointKey diskGet
  rw [if_neg hkey, if_neg hdep, if_pos rfl, hnone]
  cases db.get key <;> rfl

/-- What `Init` makes of a leveldb that has executed the instances below `n`. -/
structure Initialised (log : ℕ → Entry) (n : ℕ) (db : LevelDb) (g : GroupData) : Prop where
  map : ∀ k, UserKey k → recordAt g.map k = recordAt db k
  memory : g.memoryCheckpoint = g.diskCheckpoint
  last : g.lastInstanceId = g.diskCheckpoint
  checkpoint : CheckpointOk log n g.diskCheckpoint
  leveldb : g.leveldb = db ∨ g.diskCheckpoint < noCheckpoint ∧
    g.leveldb = db.write keyIgnoreCheckpoint (some (.text g.diskCheckpoint)) true
  disk_lt : ∀ x, db.get keyIgnoreCheckpoint = some x → x.strtoul < Replica.firstInstance g
  restart_lt : ∀ x, db.get keyIgnoreRestartCheckpoint = some x →
    x.strtoul < Replica.firstInstance g

/-- The checkpoint that was read as `disk` or, if it is higher, the one read as `restart`. -/
lemma initialised_overwrite {n disk restart : ℕ} {db : LevelDb} {m : LockMap}
    (hmap : ∀ k, UserKey k → recordAt m k = recordAt db k) (hdisk : CheckpointOk log n disk)
    (hrestart : CheckpointOk log n restart)
    (hgetDisk : ∀ x, db.get keyIgnoreCheckpoint = some x → x.strtoul = disk ∧ disk ≠ noCheckpoint)
    (hgetRestart : ∀ x, db.get keyIgnoreRestartCheckpoint = some x →
      x.strtoul = restart ∧ restart ≠ noCheckpoint) {g : GroupData}
    (hg : g = GroupData.overwriteCheckpoint
      { map := m, leveldb := db, diskCheckpoint := disk, memoryCheckpoint := disk } {} restart) :
    Initialised log n db { g with lastInstanceId := g.diskCheckpoint } := by
  subst hg
  unfold GroupData.overwriteCheckpoint
  by_cases hover : restart ≠ noCheckpoint ∧ (disk = noCheckpoint ∨ restart > disk)
  · have hlt : restart < noCheckpoint := hrestart.resolve_left hover.1 |>.1
    rw [if_pos hover, writeDiskCheckpoint_eq _ _ hover.1, if_pos rfl]
    have hfirst : Replica.firstInstance
        { map := m, leveldb := db, diskCheckpoint := restart } = restart + 1 := if_neg hover.1
    refine ⟨hmap, rfl, rfl, hrestart, .inr ⟨hlt, rfl⟩, fun x hx => ?_, fun x hx => ?_⟩
    · obtain ⟨heq, hne⟩ := hgetDisk x hx
      show x.strtoul < Replica.firstInstance { map := m, leveldb := db, diskCheckpoint := restart }
      rw [hfirst, heq]
      exact Nat.lt_succ_of_lt (hover.2.resolve_left hne)
    · show x.strtoul < Replica.firstInstance { map := m, leveldb := db, diskCheckpoint := restart }
      rw [hfirst, (hgetRestart x hx).1]
      exact Nat.lt_succ_self _
  · rw [if_neg hover]
    have hfirst : disk ≠ noCheckpoint → Replica.firstInstance
        { map := m, leveldb := db, diskCheckpoint := disk } = disk + 1 := fun hne => if_neg hne
    refine ⟨hmap, rfl, rfl, hdisk, .inl rfl, fun x hx => ?_, fun x hx => ?_⟩
    · obtain ⟨heq, hne⟩ := hgetDisk x hx
      show x.strtoul < Replica.firstInstance { map := m, leveldb := db, diskCheckpoint := disk }
      rw [hfirst hne, heq]
      exact Nat.lt_succ_self _
    · obtain ⟨heq, hne⟩ := hgetRestart x hx
      obtain ⟨hdisk', hle⟩ := not_or.mp fun h => hover ⟨hne, h⟩
      show x.strtoul < Replica.firstInstance { map := m, leveldb := db, diskCheckpoint := disk }
      rw [hfirst hdisk', heq]
      exact Nat.lt_succ_of_le (Nat.le_of_not_lt hle)

lemma checkpointOk_get {n : ℕ} {v : Option DiskValue}
    (h : ∀ x, v = some x → x.strtoul < noCheckpoint ∧ Idle log n (x.strtoul + 1)) :
    CheckpointOk log n (v.elim noCheckpoint DiskValue.strtoul) ∧
      ∀ x, v = some x → x.strtoul = v.elim noCheckpoint DiskValue.strtoul ∧
        v.elim noCheckpoint DiskValue.strtoul ≠ noCheckpoint := by
  cases v with
  | none => exact ⟨.inl rfl, fun x hx => nomatch hx⟩
  | some y =>
    refine ⟨.inr (h y rfl), fun x hx => ?_⟩
    cases hx
    exact ⟨rfl, (h y rfl).1.ne⟩

lemma init_initialised {n : ℕ} {db : LevelDb} (hread : Readable db)
    (hcp : Checkpoints log n db.writes) (now : ℕ) :
    ∃ g, init {} {} now db = some g ∧ Initialised log n db g := by
  obtain ⟨m, hm, hmap⟩ := recoverMap_contents now hread
  obtain ⟨hdisk, hgetDisk⟩ := checkpointOk_get hcp.disk
  obtain ⟨hrestart, hgetRestart⟩ := checkpointOk_get hcp.restart
  have hreadDisk : readCheckpointKey db {} keyIgnoreCheckpoint keyIgnoreCheckpointDeprecated =
      ((db.get keyIgnoreCheckpoint).elim .errKeyNotExist fun _ => .ok,
        (db.get keyIgnoreCheckpoint).elim noCheckpoint DiskValue.strtoul) := by
    rw [readCheckpointKey_eq (by decide) (by decide) hcp.noDisk]
    cases db.get keyIgnoreCheckpoint <;> rfl
  have hreadRestart : (readCheckpointKey db {} keyIgnoreRestartCheckpoint
      keyIgnoreRestartCheckpointDeprecated).2 =
        (db.get keyIgnoreRestartCheckpoint).elim noCheckpoint DiskValue.strtoul := by
    rw [readCheckpointKey_eq (by decide) (by decide) hcp.noRestart]
    cases db.get keyIgnoreRestartCheckpoint <;> rfl
  unfold init
  rw [hm]
  dsimp only
  unfold recoverCheckpoints GroupData.readDiskCheckpoint
  dsimp only
  rw [hreadDisk]
  dsimp only
  rw [if_neg (by cases db.get keyIgnoreCheckpoint <;> simp)]
  refine ⟨_, rfl, initialised_overwrite (fun k hk => hmap k hk.1 hk.2) hdisk hrestart hgetDisk
    hgetRestart ?_⟩
  exact congrArg (GroupData.overwriteCheckpoint _ {}) hreadRestart

lemma Replica.Inv.position_le (h : s.Inv opt log first r changes) :
    first ≤ s.position opt first ∧ s.position opt first ≤ s.mapNext := by
  unfold Replica.position
  split
  · exact ⟨le_rfl, h.first_le.trans h.diskNext_le⟩
  · exact ⟨h.first_le, h.diskNext_le⟩

/-- A replica that comes up with what a crash left of a leveldb, which had executed the instances
below `n`: its life starts with the records of that moment, at the instance after its checkpoint. -/
lemma inv_started {n : ℕ} {r : String → Cas.Cell (String × ℕ)}
    (hstanding : Standing (cellStep log) changes n r) (hkeys : ∀ e ∈ changes, UserKey e.key)
    {db : LevelDb} {keep : ℕ}
    (hrecords : ∀ k, UserKey k → diskView ((db.crash keep).get k) = .ok (r k))
    (hcp : Checkpoints log n (db.crash keep).writes) (hread : Readable (db.crash keep))
    {g : GroupData} (hg : Initialised log n (db.crash keep) g) (failed : List ℕ) :
    (Replica.started g failed).Inv opt log (Replica.firstInstance g) r changes := by
  have hfirst : Replica.firstInstance g ≤ noCheckpoint ∧ Idle log n (Replica.firstInstance g) ∧
      CheckpointOk log (Replica.firstInstance g) g.diskCheckpoint ∧
      LastOk log (Replica.firstInstance g) g.diskCheckpoint := by
    unfold Replica.firstInstance
    rcases hg.checkpoint with h | ⟨hlt, hidle⟩
    · rw [if_pos h]
      exact ⟨Nat.zero_le _, idle_of_le (Nat.zero_le n), .inl h,
        fun _ i hi => absurd hi (Nat.not_lt_zero i), fun _ i hi => absurd hi (Nat.not_lt_zero i)⟩
    · rw [if_neg hlt.ne]
      exact ⟨hlt, hidle, .inr ⟨hlt, idle_of_le le_rfl⟩, fun heq => absurd heq hlt.ne,
        fun _ i hi _ => Nat.lt_succ_iff.mp hi⟩
  obtain ⟨hle, hidle, hdisk, hlast⟩ := hfirst
  have hpos : (Replica.started g failed).position opt (Replica.firstInstance g) =
      Replica.firstInstance g := ite_self _
  have hcps : Checkpoints log (Replica.firstInstance g) (db.crash keep).writes :=
    ⟨fun x hx => ⟨(hcp.disk x hx).1, idle_of_le (hg.disk_lt x hx)⟩,
      fun x hx => ⟨(hcp.restart x hx).1, idle_of_le (hg.restart_lt x hx)⟩, hcp.noDisk, hcp.noRestart⟩
  have hat : At log (Replica.firstInstance g) r (Replica.firstInstance g)
      (db.crash keep).writes := by
    refine ⟨fun k hk => ?_, hcps⟩
    rw [valuesAt_first]
    exact hrecords k hk
  have hsurvivors := db.surviving_crash (p := fun ws => ∃ n, Replica.firstInstance g ≤ n ∧
    n ≤ Replica.firstInstance g ∧ At log (Replica.firstInstance g) r n ws)
    ⟨_, le_rfl, le_rfl, hat⟩
  -- what `Init` may have added is the checkpoint
  have hdb : At log (Replica.firstInstance g) r (Replica.firstInstance g) g.leveldb.writes ∧
      (g.leveldb.Surviving fun ws => ∃ n, Replica.firstInstance g ≤ n ∧
        n ≤ Replica.firstInstance g ∧ At log (Replica.firstInstance g) r n ws) ∧
      Readable g.leveldb := by
    rcases hg.leveldb with heq | ⟨hlt, heq⟩
    · rw [heq]
      exact ⟨hat, hsurvivors, hread⟩
    · rw [heq]
      have hcpFirst : Idle log (Replica.firstInstance g) (g.diskCheckpoint + 1) := by
        unfold Replica.firstInstance
        rw [if_neg hlt.ne]
        exact idle_of_le le_rfl
      have hnew := hat.consIgnore isIgnoreKey_checkpoint (hcps.consDisk hlt hcpFirst)
      exact ⟨hnew, hsurvivors.write ⟨_, le_rfl, le_rfl, hnew⟩ true,
        readable_ignore hread isIgnoreKey_checkpoint _ true⟩
  obtain ⟨hatg, hsurvg, hreadg⟩ := hdb
  exact {
    first_le := le_rfl
    diskNext_le := le_rfl
    mapNext_le := hle
    unreserved := fun i hi hlt => absurd (hi.trans_lt hlt) (Nat.lt_irrefl _)
    map := by
      intro k hk
      have hrec := hg.map k hk
      rw [LockMap.recordAt_eq _ hk.1, LevelDb.recordAt_eq _ hk.1, hrecords k hk] at hrec
      show g.map.cell k = valuesAt _ _ r (Replica.firstInstance g) k
      rw [valuesAt_first]
      exact Except.ok.inj hrec
    keys := hkeys
    standing := standingFrom_start (hstanding.move hidle.quiet)
    leveldb := hpos.symm ▸ hatg
    survivors := hpos.symm ▸ hsurvg
    readable := hreadg
    memoryCheckpoint := by
      rw [hpos]
      show CheckpointOk log _ g.memoryCheckpoint
      rw [hg.memory]
      exact hdisk
    diskCheckpoint := hpos.symm ▸ hdisk
    last := by
      show LastOk log _ g.lastInstanceId
      rw [hg.last]
      exact hlast
    cleaner := trivial }

lemma Replica.Inv.restart (h : s.Inv opt log first r changes) (keep now : ℕ) :
    ∃ first r, (s.restart keep {} {} now).Inv opt log first r changes := by
  obtain ⟨n, hn, hnp, hat⟩ := h.survivors keep
  have hread : Readable (s.g.leveldb.crash keep) := WriteLog.All.crash h.readable keep
  obtain ⟨g, hinit, hg⟩ := init_initialised hread hat.checkpoints now
  unfold Replica.restart
  rw [hinit]
  exact ⟨_, _, inv_started (h.standing n hn (hnp.trans h.position_le.2)) h.keys hat.records
    hat.checkpoints hread hg s.failed⟩

/-! ## Runs -/

theorem Replica.Inv.step {s : Recorded} (h : s.replica.Inv opt log first r s.changes)
    {e : ReplicaEvent} (he : NoFault e) (hkey : Unreserved log s e) :
    ∃ first r, (s.step opt log e).replica.Inv opt log first r (s.step opt log e).changes := by
  cases e with
  | execute now => exact ⟨first, r, h.execute (executes log s.replica now) hkey⟩
  | replay io lastSyncMs now =>
    obtain ⟨cpOk, rfl⟩ := he
    exact ⟨first, r, h.replay (replays opt log h.mapNext_le cpOk lastSyncMs now)⟩
  | readNow n =>
    refine ⟨first, r, ?_⟩
    dsimp only [Recorded.step, Replica.step]
    split
    · rename_i hn
      exact h.withCleaner hn
    · exact h
  | readMemory =>
    refine ⟨first, r, ?_⟩
    dsimp only [Recorded.step, Replica.step]
    split
    · rename_i n hn
      have hc := h.cleaner
      rw [hn] at hc
      exact h.withCleaner ⟨hc, h.memoryCheckpoint⟩
    · exact h
  | readLast =>
    refine ⟨first, r, ?_⟩
    dsimp only [Recorded.step, Replica.step]
    split
    · rename_i n m hn
      have hc := h.cleaner
      rw [hn] at hc
      refine h.withCleaner ?_
      split
      · rename_i hneed
        exact idle_restart h.mapNext_le h.last hc.1 hc.2 hneed
      · trivial
    · exact h
  | flush putOk =>
    obtain rfl : putOk = true := he
    refine ⟨first, r, ?_⟩
    dsimp only [Recorded.step, Replica.step]
    split
    · rename_i n hn
      have hc := h.cleaner
      rw [hn] at hc
      exact h.flush hc
    · exact h
  | write io =>
    obtain rfl : io = {} := he
    refine ⟨first, r, ?_⟩
    dsimp only [Recorded.step, Replica.step]
    split
    · rename_i n hn
      have hc := h.cleaner
      rw [hn] at hc
      exact h.write hc
    · exact h
  | restart keep io restartIo now =>
    obtain ⟨rfl, rfl⟩ := he
    exact h.restart keep now

lemma at_initial : At log 0 (fun _ => none) 0 [] where
  records := by
    intro k _
    rw [valuesAt_first]
    rfl
  checkpoints := ⟨fun _ hx => (nomatch hx), fun _ hx => (nomatch hx), rfl, rfl⟩

lemma inv_initial : Replica.Inv opt log 0 (fun _ => none) [] {} := by
  have hpos : Replica.position opt 0 {} = 0 := ite_self _
  exact {
    first_le := le_rfl
    diskNext_le := le_rfl
    mapNext_le := Nat.zero_le _
    unreserved := fun _ _ hi => absurd hi (Nat.not_lt_zero _)
    map := by
      intro k _
      rw [valuesAt_first]
      rfl
    keys := fun _ he => nomatch he
    standing := standingFrom_start (standing_nil 0 _)
    leveldb := hpos.symm ▸ at_initial
    survivors := WriteLog.surviving_empty ⟨0, le_rfl, Nat.zero_le _, at_initial⟩
    readable := WriteLog.all_empty
    memoryCheckpoint := .inl rfl
    diskCheckpoint := .inl rfl
    last := ⟨fun _ i hi => absurd hi (Nat.not_lt_zero i), fun hne => absurd rfl hne⟩
    cleaner := trivial }

lemma Replica.Inv.keptUpTo {s : Recorded} (h : s.replica.Inv opt log first r s.changes) {cp : ℕ}
    (hcp : Idle log (s.replica.position opt first) (cp + 1)) : s.KeptUpTo cp := by
  intro later e earlier heq hle
  have hk : UserKey e.key := h.keys e (by rw [heq]; simp)
  refine ⟨_, ?_, (h.standing _ h.position_le.1 h.position_le.2).stands hcp.quiet heq hle⟩
  rw [LevelDb.recordAt_eq _ hk.1]
  exact h.leveldb.records e.key hk

/-- The invariant keeps every checkpoint below what is missing from leveldb. -/
lemma Replica.Inv.safe {s : Recorded} (h : s.replica.Inv opt log first r s.changes) :
    CheckpointsSafe s := by
  refine ⟨fun cp hcp hne => ?_, fun hne => ?_⟩
  · unfold GroupData.readRestartCheckpoint at hcp
    rw [readCheckpointKey_eq (by decide) (by decide) h.leveldb.checkpoints.noRestart] at hcp
    cases hx : s.replica.g.leveldb.get keyIgnoreRestartCheckpoint with
    | none =>
      rw [hx] at hcp
      cases hcp
    | some x =>
      rw [hx] at hcp
      cases hcp
      exact h.keptUpTo (h.leveldb.checkpoints.restart x hx).2
  · rcases h.diskCheckpoint with hd | ⟨_, hidle⟩
    · exact absurd hd hne
    · exact h.keptUpTo hidle

end

/-- **Checkpoint safety.**  In every state of every run whose leveldb calls succeed and that
executes no instance about a reserved key, what the instances up to the restart checkpoint, and up
to the disk checkpoint, changed in the map is in leveldb. -/
theorem checkpointsSafe_run (opt : LockOption) (log : ℕ → Entry) (es : List ReplicaEvent)
    (hes : ∀ e ∈ es, NoFault e)
    (hkeys : (recorded opt log).Along (Unreserved log) (recorded opt log).init es) :
    (recorded opt log).Always CheckpointsSafe (recorded opt log).init es := by
  have hinv : (recorded opt log).Always
      (fun s => ∃ first r, s.replica.Inv opt log first r s.changes) (recorded opt log).init es :=
    Machine.Always.of_inv (fun s e ⟨first, r, hs⟩ he => hs.step he.1 he.2)
      ⟨0, fun _ => none, inv_initial⟩ (hkeys.and_labels hes)
  exact hinv.mono fun s ⟨first, r, hs⟩ => hs.safe

def lockAfterLock : ℕ → Entry
  | 1 => .lock (some { acquireLockReq := some ⟨"a", 0, "x", 10⟩ })
  | 2 => .lock (some { acquireLockReq := some ⟨"b", 0, "y", 10⟩ })
  | _ => .other

/-- A crash loses the lock leveldb has; both instances are executed again, and the replica restarts
from a restart checkpoint above them. -/
def lostAndCleaned : List ReplicaEvent :=
  [.execute 0, .execute 0, .execute 0, .replay {} 0 0, .replay {} 0 0, .restart 0 {} {} 0,
    .execute 0, .execute 0, .execute 0, .execute 0, .replay {} 0 0, .replay {} 0 0, .replay {} 0 0,
    .readNow 4, .readMemory, .readLast, .flush true, .write {}, .restart 0 {} {} 0]

theorem checkpointsSafe_lostAndCleaned :
    (recorded {} lockAfterLock).Always CheckpointsSafe (recorded {} lockAfterLock).init
      lostAndCleaned :=
  checkpointsSafe_run {} lockAfterLock lostAndCleaned (by simp [lostAndCleaned, NoFault])
    (by decide)

example : ((recorded {} lockAfterLock).exec {} lostAndCleaned).replica.g.diskCheckpoint = 3 := by
  decide

/-! ## A request on a reserved key -/

/-- Instance 2 acquires a lock under the key of the disk checkpoint. -/
def reservedAcquire : ℕ → Entry
  | 1 => .lock (some { acquireLockReq := some ⟨"a", 0, "x", 10⟩ })
  | 2 => .lock (some { acquireLockReq := some ⟨keyIgnoreCheckpoint, 0, "y", 10⟩ })
  | 3 => .lock (some { acquireLockReq := some ⟨"b", 0, "y", 10⟩ })
  | _ => .other

/-- Instance 1 is written with a checkpoint, which instance 2 then finds on leveldb and cannot parse;
instance 3 takes the memory checkpoint over it, and the clean thread the restart checkpoint. -/
def reservedRun : List ReplicaEvent :=
  [.execute 0, .execute 0, .execute 0, .execute 0, .execute 0, .replay {} 0 0, .replay {} 0 60001,
    .replay {} 60001 60001, .replay {} 60001 60001, .readNow 5, .readMemory, .readLast, .flush true,
    .write {}, .restart 0 {} {} 60001]

/-- The lock is in the map before the restart, and nowhere after it. -/
theorem reservedAcquire_not_safe :
    ¬ (recorded {} reservedAcquire).Always CheckpointsSafe (recorded {} reservedAcquire).init
      reservedRun := by
  intro h
  obtain ⟨c, hc, _⟩ := h.last.2 (by decide) [⟨3, "b", some (3, "y", 10)⟩]
    ⟨2, keyIgnoreCheckpoint, some (2, "y", 10)⟩ [⟨1, "a", some (1, "x", 10)⟩] (by decide) (by decide)
  have hbad : (recordAt ((recorded {} reservedAcquire).exec {} reservedRun).replica.g.leveldb
      keyIgnoreCheckpoint).isOk = false := by decide
  have hok := congrArg Except.isOk hc
  rw [show (recorded {} reservedAcquire).init = {} from rfl, hbad] at hok
  cases hok

example : ((recorded {} reservedAcquire).exec {} reservedRun).replica.g.map.cell
    keyIgnoreCheckpoint = none := by decide

end PhxQueue.Lock
