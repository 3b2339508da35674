import PhxQueue.Lock.LockSM

/-!
# Logs of lock instances

The lock state machine run over a log of chosen instances, on the map and on leveldb, and the
log seen as compare-and-set operations.

* `executeAll`, `checkpointAll`   `Execute` and `ExecuteForCheckpoint` of a log;
* `opsOf`                         the operations of a log;
* `recordAt_executeAll`, `recordAt_checkpointAll`   **a log leaves in each key what its
                                  operations leave**.
-/

set_option linter.unusedSectionVars false

namespace PhxQueue.Lock
open Comm Lib

abbrev Chosen := ℕ × LockPaxosArgs

/-- The clocks an execution reads, by instance: the time, and the last synchronous write. -/
structure Clocks where
  now : ℕ → ℕ
  lastSyncMs : ℕ → ℕ

/-- `Execute` of the instances in order. -/
def executeAll (t : Clocks) (g : GroupData) : List Chosen → GroupData
  | [] => g
  | (i, args) :: l => executeAll t (execute g (t.now i) i (some args)).2.1 l

/-- `ExecuteForCheckpoint` of the instances in order. -/
def checkpointAll (opt : LockOption) (t : Clocks) (g : GroupData) : List Chosen → GroupData
  | [] => g
  | (i, args) :: l =>
    checkpointAll opt t
      (executeForCheckpoint opt (t.lastSyncMs i) g {} (t.now i) i (some args)).2 l

/-- A key under which the lock server keeps a user's record (`DataType::USER`). -/
def UserKey (k : String) : Prop := k ≠ "" ∧ isIgnoreKey k = false

instance : DecidablePred UserKey := fun k =>
  inferInstanceAs (Decidable (k ≠ "" ∧ isIgnoreKey k = false))

/-! ## A log as compare-and-set operations -/

/-- The operations of a log; an instance without an effective request is none. -/
def opsOf (l : List Chosen) : List (ℕ × Cas.Op String (String × ℕ)) :=
  l.filterMap fun e => (e.2.op e.1).map (e.1, ·)

lemma opsOf_append (l l' : List Chosen) : opsOf (l ++ l') = opsOf l ++ opsOf l' :=
  List.filterMap_append

lemma cellRun_opsOf_cons (k : String) (c : Cas.Cell (String × ℕ)) (i : ℕ) (args : LockPaxosArgs)
    (l : List Chosen) :
    Cas.cellRun k c (opsOf ((i, args) :: l)) = Cas.cellRun k (args.cell i k c) (opsOf l) := by
  unfold opsOf LockPaxosArgs.cell
  cases h : args.op i with
  | none => simp [h]
  | some op =>
    rw [List.filterMap_cons]
    simp only [h, Option.map_some]
    rfl

lemma mem_opsOf {l : List Chosen} {e : ℕ × Cas.Op String (String × ℕ)} (h : e ∈ opsOf l) :
    ∃ a, (e.1, a) ∈ l := by
  obtain ⟨f, hf, he⟩ := List.mem_filterMap.mp h
  cases hop : f.2.op f.1 with
  | none => simp [hop] at he
  | some op =>
    simp only [hop, Option.map_some, Option.some.injEq] at he
    subst he
    exact ⟨f.2, hf⟩

lemma opsOf_increasing {l : List Chosen} (h : l.Pairwise fun e f => e.1 < f.1) :
    Cas.Increasing (opsOf l) := by
  induction l with
  | nil => exact List.Pairwise.nil
  | cons e l ih =>
    obtain ⟨i, args⟩ := e
    obtain ⟨hlt, hl⟩ := List.pairwise_cons.mp h
    have htail := ih hl
    unfold opsOf at htail ⊢
    cases hop : args.op i with
    | none => simpa [hop] using htail
    | some op =>
      rw [List.filterMap_cons]
      simp only [hop, Option.map_some]
      refine List.pairwise_cons.mpr ⟨fun f hf => ?_, htail⟩
      obtain ⟨a, ha⟩ := mem_opsOf (l := l) hf
      exact hlt _ ha

/-! ## Execution of a log -/

lemma executeAll_leveldb (t : Clocks) (g : GroupData) (l : List Chosen) :
    (executeAll t g l).leveldb = g.leveldb := by
  induction l generalizing g with
  | nil => rfl
  | cons e l ih =>
    obtain ⟨i, args⟩ := e
    show (executeAll t (execute g (t.now i) i (some args)).2.1 l).leveldb = _
    rw [ih]
    exact doExecute_map_leveldb g {} (t.now i) i args false

lemma checkpointAll_map (opt : LockOption) (t : Clocks) (g : GroupData) (l : List Chosen) :
    (checkpointAll opt t g l).map = g.map := by
  induction l generalizing g with
  | nil => rfl
  | cons e l ih =>
    obtain ⟨i, args⟩ := e
    show (checkpointAll opt t (executeForCheckpoint opt _ g {} _ i (some args)).2 l).map = _
    rw [ih]
    unfold executeForCheckpoint
    split
    · rfl
    · exact doExecute_leveldb_map g {} _ i args _

lemma recordAt_executeAll (t : Clocks) {g : GroupData} {k : String} (hk : k ≠ "")
    {c : Cas.Cell (String × ℕ)} (hc : recordAt g.map k = .ok c) (l : List Chosen) :
    recordAt (executeAll t g l).map k = .ok (Cas.cellRun k c (opsOf l)) := by
  induction l generalizing g c with
  | nil => exact hc
  | cons e l ih =>
    obtain ⟨i, args⟩ := e
    rw [cellRun_opsOf_cons]
    exact ih (doExecute_map g (t.now i) i args false hk hc)

lemma recordAt_checkpointAll {opt : LockOption} (hopt : opt.noLeveldb = false) (t : Clocks)
    {g : GroupData} {k : String} (hk : UserKey k) {c : Cas.Cell (String × ℕ)}
    (hc : recordAt g.leveldb k = .ok c) (l : List Chosen) :
    recordAt (checkpointAll opt t g l).leveldb k = .ok (Cas.cellRun k c (opsOf l)) := by
  induction l generalizing g c with
  | nil => exact hc
  | cons e l ih =>
    obtain ⟨i, args⟩ := e
    rw [cellRun_opsOf_cons]
    refine ih ?_
    unfold executeForCheckpoint
    rw [hopt]
    exact doExecute_leveldb g (t.now i) i args _ hk.1 hk.2 hc

lemma recordAt_empty_leveldb {k : String} (hk : k ≠ "") :
    recordAt ({} : GroupData).leveldb k = .ok none := by
  rw [LevelDb.recordAt_eq _ hk]
  rfl

lemma recordAt_empty_map {k : String} (hk : k ≠ "") :
    recordAt ({} : GroupData).map k = .ok none := by
  rw [LockMap.recordAt_eq _ hk]
  simp

end PhxQueue.Lock
