import PhxQueue.Lock.Replica

/-!
# Storage errors and the checkpoints

Whether a storage error of an instance reaches paxos.  `DoExecute` leaves the error in the result
it hands to a proposer and returns success, so `ExecuteForCheckpoint` never asks for the instance
to be executed again.

* `Reported`        every failed instance is still ahead of leveldb's next instance and of all
                    three checkpoints;
* `ReplayOk`        the instance executed on leveldb meets no storage error;
* `reported_iff`    **the first holds throughout a run exactly when the second holds at every step**.
-/

set_option linter.unusedSectionVars false

namespace PhxQueue.Lock
open Comm Lib

def NotPast (checkpoint i : ℕ) : Prop := checkpoint = noCheckpoint ∨ checkpoint < i

instance (checkpoint i : ℕ) : Decidable (NotPast checkpoint i) :=
  inferInstanceAs (Decidable (checkpoint = noCheckpoint ∨ checkpoint < i))

/-- A failed instance will be executed again, and no checkpoint has been set over it. -/
def Reported (s : Replica) : Prop :=
  ∀ i ∈ s.failed, s.diskNext ≤ i ∧ NotPast s.g.memoryCheckpoint i ∧
    NotPast s.g.diskCheckpoint i ∧ NotPast (s.g.readRestartCheckpoint {}).2 i

section
variable (opt : LockOption) (log : ℕ → Entry)

/-- The instance that a replay step executes on leveldb meets no storage error. -/
def ReplayOk (s : Replica) : ReplicaEvent → Prop
  | .replay io lastSyncMs now =>
    s.diskNext < s.mapNext → opt.noLeveldb = false →
      ∀ args force ki v, log s.diskNext = .lock (some args) →
        args.write s.diskNext = some (force, ki, v) →
        StorageOk s.g.leveldb io (needSync opt lastSyncMs now s.g s.diskNext) s.diskNext force ki
  | _ => True

lemma failed_step {s : Replica} (hs : s.failed = []) (e : ReplicaEvent)
    (hok : ReplayOk opt log s e) : (s.step opt log e).failed = [] := by
  cases e with
  | replay io lastSyncMs now =>
    dsimp only [Replica.step]
    unfold Replica.replay
    split
    · rename_i hlt
      split
      · exact hs
      · rename_i args hlog
        have hno : ¬ isStorageError (s.replayResult opt io lastSyncMs now args) = true := by
          rw [replayResult_error_iff]
          rintro ⟨hopt, a, force, ki, v, rfl, hw, hnot⟩
          exact hnot (hok hlt hopt a force ki v hlog hw)
        dsimp only
        rw [if_neg hno, hs]
        split <;> rfl
    · exact hs
  | execute now =>
    dsimp only [Replica.step]
    unfold Replica.execute
    split
    · split
      · exact hs
      · dsimp only
        split <;> exact hs
    · exact hs
  | readNow n =>
    dsimp only [Replica.step]
    split <;> exact hs
  | readMemory =>
    dsimp only [Replica.step]
    split <;> exact hs
  | readLast =>
    dsimp only [Replica.step]
    split <;> exact hs
  | flush putOk =>
    dsimp only [Replica.step]
    split <;> exact hs
  | write io =>
    dsimp only [Replica.step]
    split <;> exact hs
  | restart keep io restartIo now =>
    dsimp only [Replica.step]
    unfold Replica.restart
    split <;> exact hs

/-- After a storage error leveldb has moved on to the next instance. -/
lemma not_reported_step {s : Replica} {e : ReplicaEvent} (hbad : ¬ ReplayOk opt log s e) :
    ¬ Reported (s.step opt log e) := by
  cases e with
  | replay io lastSyncMs now =>
    have hex : s.diskNext < s.mapNext ∧ opt.noLeveldb = false ∧ ∃ args force ki v,
        log s.diskNext = .lock (some args) ∧ args.write s.diskNext = some (force, ki, v) ∧
        ¬ StorageOk s.g.leveldb io (needSync opt lastSyncMs now s.g s.diskNext) s.diskNext
          force ki := by
      by_contra hcon
      refine hbad fun hlt hopt args force ki v hlog hw => ?_
      by_contra hnot
      exact hcon ⟨hlt, hopt, args, force, ki, v, hlog, hw, hnot⟩
    obtain ⟨hlt, hopt, args, force, ki, v, hlog, hw, hnot⟩ := hex
    have herr : isStorageError (s.replayResult opt io lastSyncMs now (some args)) = true :=
      (replayResult_error_iff opt s io lastSyncMs now _).mpr
        ⟨hopt, args, force, ki, v, rfl, hw, hnot⟩
    have htrue : (executeForCheckpoint opt lastSyncMs s.g io now s.diskNext (some args)).1
        = true := by
      unfold executeForCheckpoint
      rw [hopt]
      exact doExecute_fst _ _ _ _ _ _ _
    intro hrep
    dsimp only [Replica.step] at hrep
    unfold Replica.replay at hrep
    rw [if_pos hlt, hlog] at hrep
    dsimp only at hrep
    rw [if_pos herr, if_pos htrue] at hrep
    have hahead := (hrep s.diskNext List.mem_cons_self).1
    exact absurd hahead (Nat.not_succ_le_self _)
  | _ => exact absurd trivial hbad

/-- **Storage errors are kept below the checkpoints and executed again exactly in the runs without
any.** -/
theorem reported_iff (es : List ReplicaEvent) :
    (replica opt log).Always Reported (replica opt log).init es ↔
      (replica opt log).Along (ReplayOk opt log) (replica opt log).init es := by
  have hnone : ∀ s : Replica, s.failed = [] → Reported s := by
    intro s hs i hi
    rw [hs] at hi
    cases hi
  exact Machine.always_iff_along (M := replica opt log) (I := fun s => s.failed = []) hnone
    (fun _ e hs hok => failed_step opt log hs e hok)
    (fun _ _ _ hbad => not_reported_step opt log hbad) rfl es

end

/-- Two locks are acquired, by instances 1 and 2. -/
def twoLocks : ℕ → Entry
  | 1 => .lock (some { acquireLockReq := some ⟨"a", 0, "x", 10⟩ })
  | 2 => .lock (some { acquireLockReq := some ⟨"b", 0, "y", 10⟩ })
  | _ => .other

/-- On leveldb the record write of instance 1 fails and that of instance 2 succeeds. -/
def failThenSucceed : List ReplicaEvent :=
  [.execute 0, .execute 0, .execute 0, .replay {} 0 0, .replay { putOk := false } 0 0,
    .replay {} 0 0]

/-- The memory checkpoint stands at 2, over instance 1, which is not executed again. -/
theorem failThenSucceed_not_reported :
    ¬ (replica {} twoLocks).Always Reported (replica {} twoLocks).init failThenSucceed := by
  intro h
  have hlast := h.last 1 (by decide)
  exact absurd hlast.2.1 (by decide)

end PhxQueue.Lock
