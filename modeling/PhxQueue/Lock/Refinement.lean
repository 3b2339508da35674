import PhxQueue.Lock.Log

/-!
# The two storages refine one machine

`DoExecute` on the map and on leveldb, side by side.  A restarted replica starts from what was
written to leveldb while the others go on from their maps, so the two have to agree on every user
record and on every result.

* `executeStorage`         a log executed on one storage, with the results left for the proposers;
* `StoragesAgree`                  the map of one group and the leveldb of another hold the same records;
* `doExecute_agree`        one instance executed on both;
* `executeStorage_agree`   **every prefix of a log leaves the same records and results**.
-/

set_option linter.unusedSectionVars false

namespace PhxQueue.Lock
open Comm Lib

/-! ## One storage -/

/-- `DoExecute` of a log on one storage.  The clock and the synchronous writes are its own. -/
def executeStorage (storage : StorageType) (now : ℕ → ℕ) (sync : ℕ → Bool) (g : GroupData) :
    List Chosen → GroupData × List (Option RetCode)
  | [] => (g, [])
  | (i, args) :: l =>
    let r := doExecute storage g {} (now i) i args (sync i)
    let rest := executeStorage storage now sync r.2.1 l
    (rest.1, r.2.2 :: rest.2)

def LockPaxosArgs.key (args : LockPaxosArgs) : Option String :=
  match args.acquireLockReq, args.setStringReq with
  | some l, _ => some l.lockKey
  | none, some s => some s.key
  | none, none => none

lemma LockPaxosArgs.key_of_write {args : LockPaxosArgs} {i : ℕ} {force : Bool}
    {ki : RecordKeyInfo} {v : LocalRecordInfo} (h : args.write i = some (force, ki, v)) :
    args.key = some ki.key := by
  obtain ⟨al, ss⟩ := args
  cases al with
  | some l =>
    cases h
    rfl
  | none =>
    cases ss with
    | some s =>
      cases h
      rfl
    | none => cases h

/-- No key of the log starts with the reserved prefix. -/
def UserKeys (l : List Chosen) : Prop := ∀ e ∈ l, ∀ k ∈ e.2.key, isIgnoreKey k = false

instance (l : List Chosen) : Decidable (UserKeys l) :=
  inferInstanceAs (Decidable (∀ e ∈ l, ∀ k ∈ e.2.key, isIgnoreKey k = false))

/-! ## Both storages -/

/-- The same records under all keys that are not reserved. -/
def StoragesAgree (m : LockMap) (db : LevelDb) : Prop :=
  ∀ k, isIgnoreKey k = false → recordAt m k = recordAt db k

def Cells (m : LockMap) (db : LevelDb) : Prop :=
  ∀ k, UserKey k → ∃ c, recordAt m k = .ok c ∧ recordAt db k = .ok c

lemma Cells.storagesAgree {m : LockMap} {db : LevelDb} (h : Cells m db) : StoragesAgree m db := by
  intro k hi
  by_cases hk : k = ""
  · subst hk
    rfl
  · obtain ⟨c, hm, hdb⟩ := h k ⟨hk, hi⟩
    rw [hm, hdb]

lemma cells_empty : Cells ({} : GroupData).map ({} : GroupData).leveldb :=
  fun _ hk => ⟨none, recordAt_empty_map hk.1, recordAt_empty_leveldb hk.1⟩

lemma writeDiskCheckpoint_ret (g : GroupData) (cp : ℕ) : (g.writeDiskCheckpoint {} cp).1 = .ok := by
  have hne : keyIgnoreCheckpoint ≠ "" := by decide
  unfold GroupData.writeDiskCheckpoint diskSet
  by_cases hcp : cp = noCheckpoint
  · rw [if_pos hcp]
  · simp [hcp, hne]

/-- The result of an instance is that of its conditional write, on either storage. -/
lemma doExecute_result (storage : StorageType) (g : GroupData) (now i : ℕ) (args : LockPaxosArgs)
    (sync : Bool) {force : Bool} {ki : RecordKeyInfo} {v : LocalRecordInfo}
    (hw : args.write i = some (force, ki, v)) :
    (doExecute storage g {} now i args sync).2.2 = some (match storage with
      | .map => (conditionalWrite "" force g.map {} now ki v sync).1
      | .leveldb => (conditionalWrite "" force g.leveldb {} now ki v sync).1) := by
  rw [doExecute_eq, hw]
  cases storage with
  | map => rfl
  | leveldb =>
    show some (executeOn .leveldb g {} i sync _ _).1 = _
    unfold executeOn
    dsimp only
    split
    · rename_i hok
      rw [hok]
      split
      · rw [writeDiskCheckpoint_ret]
      · rfl
    · rfl

theorem doExecute_agree {g g' : GroupData} (h : Cells g.map g'.leveldb) (i now now' : ℕ)
    {args : LockPaxosArgs} (hargs : ∀ k ∈ args.key, isIgnoreKey k = false) (sync sync' : Bool) :
    Cells (doExecute .map g {} now i args sync).2.1.map
        (doExecute .leveldb g' {} now' i args sync').2.1.leveldb ∧
      (doExecute .map g {} now i args sync).2.2 =
        (doExecute .leveldb g' {} now' i args sync').2.2 := by
  constructor
  · intro k hk
    obtain ⟨c, hm, hdb⟩ := h k hk
    exact ⟨args.cell i k c, doExecute_map g now i args sync hk.1 hm,
      doExecute_leveldb g' now' i args sync' hk.1 hk.2 hdb⟩
  · cases hw : args.write i with
    | none =>
      rw [doExecute_eq, doExecute_eq, hw]
    | some w =>
      obtain ⟨force, ki, v⟩ := w
      rw [doExecute_result .map g now i args sync hw,
        doExecute_result .leveldb g' now' i args sync' hw]
      dsimp only
      by_cases hk : ki.key = ""
      · rw [conditionalWrite_empty force _ _ _ hk, conditionalWrite_empty force _ _ _ hk]
      · have hi := hargs ki.key (LockPaxosArgs.key_of_write hw)
        obtain ⟨c, hm, hdb⟩ := h ki.key ⟨hk, hi⟩
        rw [conditionalWrite_ret force now hk v sync hm,
          conditionalWrite_ret force now' hk v sync' hdb]

lemma executeStorage_cells (now now' : ℕ → ℕ) (sync sync' : ℕ → Bool) {g g' : GroupData}
    (h : Cells g.map g'.leveldb) {l : List Chosen} (hl : UserKeys l) :
    Cells (executeStorage .map now sync g l).1.map
        (executeStorage .leveldb now' sync' g' l).1.leveldb ∧
      (executeStorage .map now sync g l).2 = (executeStorage .leveldb now' sync' g' l).2 := by
  induction l generalizing g g' with
  | nil => exact ⟨h, rfl⟩
  | cons e l ih =>
    obtain ⟨i, args⟩ := e
    obtain ⟨hcells, hret⟩ := doExecute_agree h i (now i) (now' i)
      (hl (i, args) List.mem_cons_self) (sync i) (sync' i)
    obtain ⟨hrest, hrets⟩ := ih hcells fun e he => hl e (List.mem_cons_of_mem _ he)
    refine ⟨hrest, ?_⟩
    show _ :: _ = _ :: _
    rw [hret, hrets]

/-- **The storages refine one machine.**  A log on user keys, executed from empty storages, leaves
after every prefix the same records and the same results, whatever the clocks and whichever
writes are synchronous. -/
theorem executeStorage_agree (now now' : ℕ → ℕ) (sync sync' : ℕ → Bool) {l : List Chosen}
    (hl : UserKeys l) (n : ℕ) :
    StoragesAgree (executeStorage .map now sync {} (l.take n)).1.map
        (executeStorage .leveldb now' sync' {} (l.take n)).1.leveldb ∧
      (executeStorage .map now sync {} (l.take n)).2 =
        (executeStorage .leveldb now' sync' {} (l.take n)).2 := by
  have htake : UserKeys (l.take n) := fun e he => hl e (List.mem_of_mem_take he)
  obtain ⟨hcells, hrets⟩ := executeStorage_cells now now' sync sync' cells_empty htake
  exact ⟨hcells.storagesAgree, hrets⟩

/-- A lock is acquired, acquired in vain, and released, next to a string. -/
def acquireRelease : List Chosen :=
  [(1, { acquireLockReq := some ⟨"lock", 0, "a", 10⟩ }),
    (2, { acquireLockReq := some ⟨"lock", 0, "b", 10⟩ }),
    (3, { setStringReq := some ⟨"string", 0, "x", uint64Max⟩ }),
    (4, { acquireLockReq := some ⟨"lock", 1, "a", 0⟩ })]

theorem acquireRelease_agree :
    StoragesAgree (executeStorage .map (fun i => i) (fun _ => false) {} (acquireRelease.take 4)).1.map
        (executeStorage .leveldb (fun i => 2 * i) (fun i => i == 3) {}
          (acquireRelease.take 4)).1.leveldb ∧
      (executeStorage .map (fun i => i) (fun _ => false) {} (acquireRelease.take 4)).2 =
        (executeStorage .leveldb (fun i => 2 * i) (fun i => i == 3) {}
          (acquireRelease.take 4)).2 :=
  executeStorage_agree (fun i => i) (fun i => 2 * i) (fun _ => false) (fun i => i == 3)
    (by decide) 4

end PhxQueue.Lock
