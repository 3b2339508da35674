import PhxQueue.Lock.Log

/-!
# Crash recovery of a lock group

A lock server that crashes is left with a leveldb that holds the effects of the instances up to
some `n'` and a checkpoint `c ≤ n'`.  `Init` rebuilds the map, and paxos executes every instance
above the checkpoint again, on leveldb and on the map.

* `Crash`                a log cut at `c` and at `n'`;
* `recovered`            the group after recovery, through `init` and `ExecuteForCheckpoint`;
* `straight`             the group after executing the log once from empty;
* `Recovered`            the two hold the same user records, in leveldb and in the map;
* `recovered_iff_cells`  recovery, key by key, as a log run a second time over its own effects;
* `recovered_iff`        **when recovery is exact**.
-/

set_option linter.unusedSectionVars false

namespace PhxQueue.Lock
open Comm Lib

/-- A log cut at the checkpoint `c` and at the last instance that leveldb holds. -/
structure Crash where
  before : List Chosen
  window : List Chosen
  after : List Chosen
  c : ℕ
  increasing : (before ++ (window ++ after)).Pairwise fun e f => e.1 < f.1
  before_le : ∀ e ∈ before, e.1 ≤ c
  lt_window : ∀ e ∈ window ++ after, c < e.1
  c_lt : c < noCheckpoint

namespace Crash

def log (x : Crash) : List Chosen := x.before ++ (x.window ++ x.after)

def disk (x : Crash) (opt : LockOption) (t : Clocks) : LevelDb :=
  (diskSet (checkpointAll opt t {} (x.before ++ x.window)).leveldb true keyIgnoreCheckpoint
    (.text x.c) true).2

/-- The instances paxos executes again: those above the checkpoint the group reports. -/
def rest (x : Crash) (g : GroupData) : List Chosen :=
  x.log.filter fun e => decide (g.diskCheckpoint < e.1)

def recovered (x : Crash) (opt : LockOption) (t : Clocks) (g : GroupData) : GroupData :=
  checkpointAll opt t (executeAll t g (x.rest g)) (x.rest g)

def straight (x : Crash) (opt : LockOption) (t : Clocks) : GroupData :=
  checkpointAll opt t (executeAll t {} x.log) x.log

end Crash

/-- The user records of two groups agree, in leveldb and in the map. -/
def SameRecords (g g' : GroupData) : Prop :=
  ∀ k, UserKey k → recordAt g.leveldb k = recordAt g'.leveldb k ∧
    recordAt g.map k = recordAt g'.map k

/-- Recovery is exact: it succeeds, and leaves the records of a single execution.  The clocks of
the first execution, of the recovery and of the single execution are unrelated. -/
def Recovered (x : Crash) (opt : LockOption) (first again once : Clocks) (now : ℕ) : Prop :=
  ∃ g, init {} {} now (x.disk opt first) = some g ∧
    SameRecords (x.recovered opt again g) (x.straight opt once)

/-! ## The crash and the recovered state -/

/-- What the first execution wrote: records and deletions, and text under the key of the disk
checkpoint only. -/
def FirstWrite (k : String) (v : Option DiskValue) : Prop :=
  ∀ x, v = some x → (∃ r, x = .record r) ∨ k = keyIgnoreCheckpoint

lemma firstWrite_records : RecordWrites FirstWrite where
  delete := by
    intro k x hx
    cases hx
  record := by
    intro k r x hx
    exact .inl ⟨r, (Option.some.inj hx).symm⟩

lemma firstWrite_checkpoint (n : ℕ) : FirstWrite keyIgnoreCheckpoint (some (.text n)) :=
  fun _ _ => .inr rfl

lemma all_checkpointAll {p : String → Option DiskValue → Prop} (hp : RecordWrites p)
    (hcp : ∀ n, p keyIgnoreCheckpoint (some (.text n))) (opt : LockOption) (t : Clocks)
    {g : GroupData} (h : WriteLog.All p g.leveldb) (l : List Chosen) :
    WriteLog.All p (checkpointAll opt t g l).leveldb := by
  induction l generalizing g with
  | nil => exact h
  | cons e l ih =>
    obtain ⟨i, args⟩ := e
    refine ih ?_
    unfold executeForCheckpoint
    split
    · exact h
    · exact hp.doExecute h {} (t.now i) i args _ (hcp i)

lemma diskSet_checkpoint (db : LevelDb) (n : ℕ) :
    (diskSet db true keyIgnoreCheckpoint (.text n) true).2
      = db.write keyIgnoreCheckpoint (some (.text n)) true := by
  have hne : keyIgnoreCheckpoint ≠ "" := by decide
  unfold diskSet
  rw [if_neg hne, if_pos rfl]

section
variable (x : Crash) (opt : LockOption) (t : Clocks)

lemma disk_firstWrite : WriteLog.All FirstWrite (x.disk opt t) := by
  unfold Crash.disk
  rw [diskSet_checkpoint]
  exact (all_checkpointAll firstWrite_records firstWrite_checkpoint opt t
    WriteLog.all_empty _).write (firstWrite_checkpoint x.c) true

lemma disk_readable : Readable (x.disk opt t) := by
  intro e he hi y hy
  rcases disk_firstWrite x opt t e he y hy with ⟨r, rfl⟩ | hk
  · exact fun h => nomatch h
  · rw [hk, isIgnoreKey_checkpoint] at hi
    cases hi

lemma recordAt_disk (hopt : opt.noLeveldb = false) {k : String} (hk : UserKey k) :
    recordAt (x.disk opt t) k = .ok (Cas.cellRun k none (opsOf (x.before ++ x.window))) := by
  unfold Crash.disk
  rw [recordAt_diskSet_ne _ _ _ _ hk.1 (ne_of_isIgnoreKey hk.2 isIgnoreKey_checkpoint)]
  exact recordAt_checkpointAll hopt t hk (recordAt_empty_leveldb hk.1) _

/-- The disk checkpoint read back is `c`. -/
lemma readDiskCheckpoint_disk (g : GroupData) (hg : g.leveldb = x.disk opt t) :
    g.readDiskCheckpoint {} =
      (.ok, { g with diskCheckpoint := x.c, memoryCheckpoint := x.c }) := by
  have hread : readCheckpointKey g.leveldb {} keyIgnoreCheckpoint keyIgnoreCheckpointDeprecated
      = (.ok, x.c) := by
    have hget : diskGet g.leveldb {} keyIgnoreCheckpoint = .ok (.text x.c) := by
      have hne : keyIgnoreCheckpoint ≠ "" := by decide
      rw [hg]
      unfold diskGet Crash.disk
      rw [if_neg hne, if_pos rfl, diskSet_checkpoint, WriteLog.get_write_self]
    unfold readCheckpointKey
    rw [hget]
    rfl
  unfold GroupData.readDiskCheckpoint
  rw [hread]

/-- No restart checkpoint above `c` is read. -/
lemma readRestartCheckpoint_disk (g : GroupData) (hg : g.leveldb = x.disk opt t) :
    (g.readRestartCheckpoint {}).2 = noCheckpoint ∨ (g.readRestartCheckpoint {}).2 = 0 := by
  have hzero : ∀ k v, k ≠ keyIgnoreCheckpoint → diskGet g.leveldb {} k = .ok v →
      v.strtoul = 0 := by
    intro k v hk hv
    unfold diskGet at hv
    split at hv
    · cases hv
    · rw [if_pos rfl] at hv
      cases hget : g.leveldb.get k with
      | none => simp [hget] at hv
      | some y =>
        simp only [hget, Except.ok.injEq] at hv
        subst hv
        rw [hg] at hget
        rcases (disk_firstWrite x opt t).get hget y rfl with ⟨r, rfl⟩ | h
        · rfl
        · exact absurd h hk
  unfold GroupData.readRestartCheckpoint readCheckpointKey
  split
  · split
    · exact .inl rfl
    · rename_i v hv
      exact .inr (hzero _ v (by decide) hv)
  · exact .inl rfl
  · rename_i v hv
    exact .inr (hzero _ v (by decide) hv)

/-- `Init` succeeds, finds the checkpoint `c`, keeps leveldb and loads its user records. -/
lemma init_disk (now : ℕ) : ∃ g, init {} {} now (x.disk opt t) = some g ∧
    g.diskCheckpoint = x.c ∧ g.leveldb = x.disk opt t ∧
    ∀ k, UserKey k → recordAt g.map k = recordAt (x.disk opt t) k := by
  obtain ⟨m, hm, hrec⟩ := recoverMap_contents now (disk_readable x opt t)
  have hread := readDiskCheckpoint_disk x opt t { map := m, leveldb := x.disk opt t } rfl
  have hrestart := readRestartCheckpoint_disk x opt t
    { map := m, leveldb := x.disk opt t, diskCheckpoint := x.c, memoryCheckpoint := x.c } rfl
  refine ⟨⟨m, x.disk opt t, x.c, x.c, x.c⟩, ?_, rfl, rfl, fun k hk => hrec k hk.1 hk.2⟩
  have hkeep : ∀ g : GroupData, g.diskCheckpoint = x.c →
      (g.readRestartCheckpoint {}).2 = noCheckpoint ∨ (g.readRestartCheckpoint {}).2 = 0 →
      g.overwriteCheckpoint {} (g.readRestartCheckpoint {}).2 = g := by
    intro g hgc hr
    refine if_neg ?_
    rintro ⟨hne, hlt⟩
    rcases hr with h | h
    · exact hne h
    · rw [h, hgc] at hlt
      rcases hlt with hlt | hlt
      · exact x.c_lt.ne hlt
      · omega
  unfold init
  rw [hm]
  unfold recoverCheckpoints
  dsimp only
  rw [hread, if_neg (by simp), hkeep _ rfl hrestart]

end

/-! ## When recovery is exact -/

lemma rest_eq (x : Crash) {g : GroupData} (hg : g.diskCheckpoint = x.c) :
    x.rest g = x.window ++ x.after := by
  have hbefore : x.before.filter (fun e => decide (x.c < e.1)) = [] :=
    List.filter_eq_nil_iff.mpr fun e he => by
      have := x.before_le e he
      simpa using this
  have hrest : (x.window ++ x.after).filter (fun e => decide (x.c < e.1)) = x.window ++ x.after :=
    List.filter_eq_self.mpr fun e he => by
      have := x.lt_window e he
      simpa using this
  unfold Crash.rest Crash.log
  rw [hg, List.filter_append, hbefore, hrest, List.nil_append]

/-- Recovery runs the log above the checkpoint over the effects it already had. -/
theorem recovered_iff_cells (x : Crash) {opt : LockOption} (hopt : opt.noLeveldb = false)
    (first again once : Clocks) (now : ℕ) :
    Recovered x opt first again once now ↔ ∀ k, UserKey k →
      Cas.cellRun k (Cas.cellRun k none (opsOf (x.before ++ x.window)))
          (opsOf (x.window ++ x.after)) = Cas.cellRun k none (opsOf x.log) := by
  obtain ⟨g, hg, hc, hdb, hmap⟩ := init_disk x opt first now
  have hsame : ∀ k, UserKey k →
      ((recordAt (x.recovered opt again g).leveldb k = recordAt (x.straight opt once).leveldb k ∧
        recordAt (x.recovered opt again g).map k = recordAt (x.straight opt once).map k) ↔
      Cas.cellRun k (Cas.cellRun k none (opsOf (x.before ++ x.window)))
          (opsOf (x.window ++ x.after)) = Cas.cellRun k none (opsOf x.log)) := by
    intro k hk
    have hdisk := recordAt_disk x opt first hopt hk
    have hrdb : recordAt (executeAll again g (x.rest g)).leveldb k
        = .ok (Cas.cellRun k none (opsOf (x.before ++ x.window))) := by
      rw [executeAll_leveldb, hdb, hdisk]
    have hsdb : recordAt (executeAll once {} x.log).leveldb k = .ok none := by
      rw [executeAll_leveldb]
      exact recordAt_empty_leveldb hk.1
    have h1 : recordAt (x.recovered opt again g).leveldb k = _ :=
      recordAt_checkpointAll hopt again hk hrdb (x.rest g)
    have h2 : recordAt (x.straight opt once).leveldb k = _ :=
      recordAt_checkpointAll hopt once hk hsdb x.log
    have h3 : recordAt (x.recovered opt again g).map k
        = .ok (Cas.cellRun k (Cas.cellRun k none (opsOf (x.before ++ x.window)))
          (opsOf (x.rest g))) := by
      unfold Crash.recovered
      rw [checkpointAll_map]
      exact recordAt_executeAll again hk.1 ((hmap k hk).trans hdisk) _
    have h4 : recordAt (x.straight opt once).map k
        = .ok (Cas.cellRun k none (opsOf x.log)) := by
      unfold Crash.straight
      rw [checkpointAll_map]
      exact recordAt_executeAll once hk.1 (recordAt_empty_map hk.1) _
    rw [h1, h2, h3, h4, rest_eq x hc]
    constructor
    · intro h
      exact Except.ok.inj h.1
    · intro h
      rw [h]
      exact ⟨rfl, rfl⟩
  constructor
  · rintro ⟨g', hg', h⟩ k hk
    rw [hg] at hg'
    cases hg'
    exact (hsame k hk).mp (h k hk)
  · intro h
    exact ⟨g, hg, fun k hk => (hsame k hk).mpr (h k hk)⟩

/-- The record of `k` that the crash left on disk. -/
def Crash.record (x : Crash) (k : String) : Cas.Cell (String × ℕ) :=
  Cas.cellRun k none (opsOf (x.before ++ x.window))

/-- The record of `k` at the checkpoint, in the first execution. -/
def Crash.recordAtCheckpoint (x : Crash) (k : String) : Cas.Cell (String × ℕ) :=
  Cas.cellRun k none (opsOf x.before)

/-- Either no instance in the window passes the version check against the record the crash left,
or some instance above the checkpoint takes effect both in the first execution and when it is
executed again. -/
def Settled (x : Crash) (k : String) : Prop :=
  Cas.Stirs k (x.record k) (opsOf x.window) →
    Cas.Meets k (x.recordAtCheckpoint k) (x.record k) (opsOf (x.window ++ x.after))

/-- **Recovery is exact if and only if every user key is settled.** -/
theorem recovered_iff (x : Crash) (interval : ℕ) (first again once : Clocks) (now : ℕ) :
    Recovered x { checkpointInterval := interval } first again once now ↔
      ∀ k, UserKey k → Settled x k := by
  have hinc : Cas.Increasing (opsOf (x.window ++ x.after)) :=
    opsOf_increasing (List.pairwise_append.mp x.increasing).2.1
  have hbelow : ∀ k, ∀ e ∈ opsOf (x.window ++ x.after), Cas.Below e.1 (x.recordAtCheckpoint k) := by
    intro k e he
    obtain ⟨a, ha⟩ := mem_opsOf he
    refine Cas.cellRun_below k (Cas.below_none _) fun f hf => ?_
    obtain ⟨b, hb⟩ := mem_opsOf hf
    exact (List.pairwise_append.mp x.increasing).2.2 _ hb _ ha
  rw [recovered_iff_cells x rfl]
  refine forall₂_congr fun k _ => ?_
  have hreplay := Cas.replay_iff (k := k) (b := opsOf x.window) (d := opsOf x.after)
    (by rw [← opsOf_append]; exact hinc) (by rw [← opsOf_append]; exact hbelow k)
  have hrec : x.record k = Cas.cellRun k (x.recordAtCheckpoint k) (opsOf x.window) := by
    unfold Crash.record Crash.recordAtCheckpoint
    rw [opsOf_append, Cas.cellRun_append]
  have hlog : Cas.cellRun k none (opsOf x.log)
      = Cas.cellRun k (x.recordAtCheckpoint k) (opsOf x.window ++ opsOf x.after) := by
    unfold Crash.log Crash.recordAtCheckpoint
    rw [opsOf_append, Cas.cellRun_append, opsOf_append]
  show Cas.cellRun k (x.record k) _ = _ ↔ _
  unfold Settled
  rw [hrec, hlog, opsOf_append]
  exact hreplay

/-- A lock is taken by instance 1; another client that also found it free fails in instance 2;
instance 3 releases the lock.  The checkpoint stands at 1 when the server crashes after instance 3. -/
def staleAcquire : Crash where
  before := [(1, { acquireLockReq := some ⟨"lock", 0, "a", 10⟩ })]
  window := [(2, { acquireLockReq := some ⟨"lock", 0, "b", 10⟩ }),
    (3, { acquireLockReq := some ⟨"lock", 1, "a", 0⟩ })]
  after := []
  c := 1
  increasing := by decide
  before_le := by decide
  lt_window := by decide
  c_lt := by decide

/-- Executed again over the released key, the failed acquire succeeds. -/
theorem staleAcquire_not_recovered :
    ¬ Recovered staleAcquire {} ⟨fun _ => 0, fun _ => 0⟩ ⟨fun _ => 0, fun _ => 0⟩
      ⟨fun _ => 0, fun _ => 0⟩ 0 := by
  rw [recovered_iff_cells staleAcquire rfl]
  intro h
  exact absurd (h "lock" (by decide)) (by decide)

end PhxQueue.Lock
