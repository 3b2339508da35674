import PhxQueue.Lock.Replica
import PhxQueue.Lock.Service

/-!
# Cleaning expired records

A replica with a steady clock and its clean thread: a pass of `CleanRecord` of `lock/cleanthread.cpp`
reads the clock once and goes around the keys of the map, and proposes the deletion of a record when
that time is after its expire time.  Expire times are sums of the clock and a lease in 64 bits.

* `forwardLoopKey`, `cleanRecord`   the code;
* `CleanedReplica`, `cleaned`       the replica, its clock, and since when each record stands;
* `CleansExpired`                   what is proposed: no record before its lease is over;
* `expired_at_once_iff`             a record is expired when it is set exactly if the sum wraps;
* `cleansExpired_run`               **no set or load wraps, no early deletion**;
* `longLease_not_cleansExpired`     a lease that is deleted at once.
-/

set_option linter.unusedSectionVars false

namespace PhxQueue.Lock
open Comm Lib

/-! ## The code -/

/-- `ForwardLoopKey`, from the key before. -/
def forwardLoopKey (m : LockMap) (prevLoopKey : String) : Option String :=
  match m[prevLoopKey]? with
  | none => m.keys.head?
  | some _ =>
    -- `upper_bound`
    match m.keys.find? fun k => prevLoopKey < k with
    | none => m.keys.head?
    | some k => some k

/-- The record that `CleanRecord` finds expired, one turn of its loop with this key. -/
def expiredRecord (m : LockMap) (now : ℕ) (key : String) : Option LocalRecordInfo :=
  match getRecord m {} key with
  | .error _ => none
  | .ok r => if r.leaseTimeMs ≠ uint64Max ∧ now > r.expireTimeMs then some r else none

def cleanProposal (key : String) (r : LocalRecordInfo) : LockPaxosArgs :=
  acquireArgs
    { lockKey := key
      version := r.version
      clientId := clientIdCleanThread
      leaseTimeMs := 0 }

/-! ## The machine -/

/-- A deletion that has been proposed at `clock`, of a record that stands since `since`. -/
structure Proposal where
  args : LockPaxosArgs
  leaseTimeMs : ℕ
  since : ℕ
  clock : ℕ

/-- A replica with its clock.  `now` is what the pass of the clean thread has read of it, and `since`
when the record of a key was last set or loaded. -/
structure CleanedReplica where
  replica : Replica := {}
  clock : ℕ := 0
  now : ℕ := 0
  prevLoopKey : String := ""
  since : String → ℕ := fun _ => 0
  proposals : List Proposal := []

inductive CleanEvent
  | tick (ms : ℕ)
  /-- A step of the replica, at the time of the clock. -/
  | replica (event : ReplicaEvent)
  /-- `AcquireLock` with a lease of 0 ends with a deletion from the map. -/
  | release (key : String)
  /-- The clean thread starts a pass. -/
  | pass
  /-- A turn of the loop of `CleanRecord`. -/
  | cleanRecord

def ReplicaEvent.at (clock : ℕ) : ReplicaEvent → ReplicaEvent
  | .execute _ => .execute clock
  | .replay io lastSyncMs _ => .replay io lastSyncMs clock
  | .restart keep io restartIo _ => .restart keep io restartIo clock
  | event => event

/-- The stored record of the map lets a conditional write through. -/
def passes (m : LockMap) (force : Bool) (ki : RecordKeyInfo) : Bool :=
  match m[ki.key]? with
  | none => true
  | some r => (force ∧ ki.version = uint64Max) ∨ r.version = ki.version

/-- The record that executing an instance on the map sets, with its key. -/
def LockPaxosArgs.sets (args : LockPaxosArgs) (m : LockMap) (i : ℕ) :
    Option (String × LocalRecordInfo) :=
  match args.write i with
  | none => none
  | some (force, ki, v) =>
    if ki.key ≠ "" ∧ v.leaseTimeMs ≠ 0 ∧ passes m force ki then some (ki.key, v) else none

/-- The record that the next `Execute` sets. -/
def Replica.sets (log : ℕ → Entry) (s : Replica) : Option (String × LocalRecordInfo) :=
  if s.mapNext < noCheckpoint then
    match log s.mapNext with
    | .other | .lock none => none
    | .lock (some args) => args.sets s.g.map s.mapNext
  else none

namespace CleanedReplica

section
variable (opt : LockOption) (log : ℕ → Entry)

def replicaStep (s : CleanedReplica) (event : ReplicaEvent) : CleanedReplica :=
  let replica := Replica.step opt log s.replica (event.at s.clock)
  match event with
  | .execute _ =>
    match s.replica.sets log with
    | none => { s with replica }
    | some (key, _) => { s with replica, since := Function.update s.since key s.clock }
  | .restart keep io restartIo _ =>
    match init io restartIo s.clock (s.replica.g.leveldb.crash keep) with
    | none => s
    | some _ =>
      { s with replica, now := 0, prevLoopKey := "", since := fun _ => s.clock }
  | _ => { s with replica }

def release (s : CleanedReplica) (key : String) : CleanedReplica :=
  { s with replica.g.map := (deleteLock s.replica.g.map {} key false).2 }

def cleanRecord (s : CleanedReplica) : CleanedReplica :=
  match forwardLoopKey s.replica.g.map s.prevLoopKey with
  | none => s
  | some key =>
    match expiredRecord s.replica.g.map s.now key with
    | none => { s with prevLoopKey := key }
    | some r =>
      { s with
        prevLoopKey := key
        proposals := s.proposals ++ [⟨cleanProposal key r, r.leaseTimeMs, s.since key, s.clock⟩] }

def step (s : CleanedReplica) : CleanEvent → CleanedReplica
  | .tick ms => { s with clock := s.clock + ms }
  | .replica event => s.replicaStep opt log event
  | .release key => s.release key
  | .pass => { s with now := s.clock }
  | .cleanRecord => s.cleanRecord

end

/-- **No record is deleted before its lease is over**, and none with a lease of `-1`. -/
def CleansExpired (s : CleanedReplica) : Prop :=
  ∀ p ∈ s.proposals, p.leaseTimeMs ≠ uint64Max ∧ p.since + p.leaseTimeMs ≤ p.clock

end CleanedReplica

/-- A replica with its clean thread, from its first start. -/
def cleaned (opt : LockOption) (log : ℕ → Entry) : Machine CleanedReplica CleanEvent where
  init := {}
  step := CleanedReplica.step opt log

/-- The expire time of a lease that begins now can be written in 64 bits, or there is none. -/
def NoWrap (clock leaseTimeMs : ℕ) : Prop := leaseTimeMs = uint64Max ∨ clock + leaseTimeMs < 2 ^ 64

/-- Nothing that a step sets or loads has an expire time that wraps. -/
def StepsNoWrap (log : ℕ → Entry) (s : CleanedReplica) : CleanEvent → Prop
  | .replica (.execute _) => ∀ x, s.replica.sets log = some x → NoWrap s.clock x.2.leaseTimeMs
  | .replica (.restart keep _ _ _) => ∀ k v r, (s.replica.g.leveldb.crash keep).get k = some v →
      isIgnoreKey k = false → v.parse = some r → NoWrap s.clock r.leaseTimeMs
  | _ => True

/-! ## Expire times -/

/-- **A record is expired as soon as it is set exactly if its expire time wraps.** -/
theorem expired_at_once_iff {clock : ℕ} (hclock : clock < 2 ^ 64) {v : LocalRecordInfo}
    (hlease : v.leaseTimeMs < uint64Max) :
    (expiring clock v).expireTimeMs < clock ↔ 2 ^ 64 ≤ clock + v.leaseTimeMs := by
  have hne : v.leaseTimeMs ≠ uint64Max := by omega
  unfold expiring
  dsimp only
  rw [if_neg hne]
  unfold wrap64
  unfold uint64Max at hlease
  omega

lemma expireTimeMs_expiring {clock : ℕ} {v : LocalRecordInfo} (h : NoWrap clock v.leaseTimeMs)
    (hne : v.leaseTimeMs ≠ uint64Max) :
    (expiring clock v).expireTimeMs = clock + v.leaseTimeMs := by
  unfold expiring
  dsimp only
  rw [if_neg hne]
  exact Nat.mod_eq_of_lt (h.resolve_left hne)

lemma expireTimeMs_restamp {clock : ℕ} {r : LocalRecordInfo} (h : NoWrap clock r.leaseTimeMs)
    (hne : r.leaseTimeMs ≠ uint64Max) :
    (restamp clock r).expireTimeMs = clock + r.leaseTimeMs :=
  Nat.mod_eq_of_lt (h.resolve_left hne)

/-! ## What is set -/

section
variable {g : GroupData} {m : LockMap} {k : String} {r : LocalRecordInfo}

lemma conditionalWrite_map (m : LockMap) (force : Bool) (now : ℕ) (ki : RecordKeyInfo)
    (v : LocalRecordInfo) (sync : Bool) : (conditionalWrite "" force m {} now ki v sync).2 =
      if ki.key ≠ "" ∧ passes m force ki then
        if v.leaseTimeMs = 0 then m.erase ki.key else m.insert ki.key (expiring now v)
      else m := by
  by_cases hkey : ki.key = ""
  · have hget : getUser "" m {} ki.key = .error .errKey := if_pos hkey
    unfold conditionalWrite
    rw [hget, if_neg (fun h => h.1 hkey)]
  · have hwrite : (leaseWrite "" m {} now ki.key v sync).2 =
        if v.leaseTimeMs = 0 then m.erase ki.key else m.insert ki.key (expiring now v) := by
      by_cases hl : v.leaseTimeMs = 0
      · rw [leaseWrite_delete m now hkey hl, if_pos hl]
        exact congrArg Prod.snd (if_neg hkey)
      · rw [leaseWrite_set m now hkey hl, if_neg hl]
        exact congrArg Prod.snd (if_neg hkey)
    have hget : getUser "" m {} ki.key = _ := getLock_map hkey m
    unfold conditionalWrite passes
    rw [hget]
    cases m[ki.key]? with
    | none =>
      have hpasses : ki.key ≠ "" ∧ true = true := ⟨hkey, rfl⟩
      dsimp only
      rw [hwrite, if_pos hpasses]
    | some r =>
      dsimp only
      by_cases hpass : (force ∧ ki.version = uint64Max) ∨ r.version = ki.version
      · have hwrites : ¬ (¬ (force ∧ ki.version = uint64Max) ∧ r.version ≠ ki.version) :=
          fun h => hpass.elim h.1 h.2
        have hpasses : ki.key ≠ "" ∧
            decide ((force ∧ ki.version = uint64Max) ∨ r.version = ki.version) :=
          ⟨hkey, decide_eq_true hpass⟩
        rw [if_neg hwrites, hwrite, if_pos hpasses]
      · have hrefuses : ¬ (force ∧ ki.version = uint64Max) ∧ r.version ≠ ki.version :=
          ⟨fun h => hpass (.inl h), fun h => hpass (.inr h)⟩
        have hpasses : ¬ (ki.key ≠ "" ∧
            decide ((force ∧ ki.version = uint64Max) ∨ r.version = ki.version)) :=
          fun h => hpass (of_decide_eq_true h.2)
        rw [if_pos hrefuses, if_neg hpasses]

/-- The map after `Execute`: the record that it sets, and no other new one. -/
lemma execute_sets (log : ℕ → Entry) (s : Replica) (now : ℕ) :
    (∃ key v, s.sets log = some (key, v) ∧
      (s.execute log now).g.map = s.g.map.insert key (expiring now v)) ∨
    (s.sets log = none ∧ ∀ (k : String) (r : LocalRecordInfo),
      (s.execute log now).g.map[k]? = some r → s.g.map[k]? = some r) := by
  unfold Replica.sets Replica.execute
  split
  · cases log s.mapNext with
    | other => exact .inr ⟨rfl, fun _ _ h => h⟩
    | lock args =>
      cases args with
      | none => exact .inr ⟨rfl, fun _ _ h => h⟩
      | some args =>
        have hmap : (execute s.g now s.mapNext (some args)).2.1.map =
            match args.write s.mapNext with
            | none => s.g.map
            | some (force, ki, v) => (conditionalWrite "" force s.g.map {} now ki v false).2 := by
          show (doExecute .map s.g {} now s.mapNext args false).2.1.map = _
          rw [doExecute_eq]
          cases args.write s.mapNext with
          | none => rfl
          | some w => rfl
        have hlive : (execute s.g now s.mapNext (some args)).1 = true := doExecute_fst _ _ _ _ _ _ _
        dsimp only
        rw [if_pos hlive]
        dsimp only
        rw [hmap]
        unfold LockPaxosArgs.sets
        cases args.write s.mapNext with
        | none => exact .inr ⟨rfl, fun _ _ h => h⟩
        | some w =>
          obtain ⟨force, ki, v⟩ := w
          dsimp only
          rw [conditionalWrite_map]
          by_cases hsets : ki.key ≠ "" ∧ v.leaseTimeMs ≠ 0 ∧ passes s.g.map force ki
          · rw [if_pos hsets, if_pos ⟨hsets.1, hsets.2.2⟩, if_neg hsets.2.1]
            exact .inl ⟨ki.key, v, rfl, rfl⟩
          · rw [if_neg hsets]
            refine .inr ⟨rfl, fun k r h => ?_⟩
            split at h
            · rename_i hpass
              have hzero : v.leaseTimeMs = 0 := by
                by_contra hl
                exact hsets ⟨hpass.1, hl, hpass.2⟩
              rw [if_pos hzero, Std.ExtTreeMap.getElem?_erase] at h
              split at h
              · cases h
              · exact h
            · exact h
  · exact .inr ⟨rfl, fun _ _ h => h⟩

lemma map_step (opt : LockOption) (log : ℕ → Entry) (s : Replica) {event : ReplicaEvent}
    (hexecute : ∀ now, event ≠ .execute now)
    (hrestart : ∀ keep io restartIo now, event ≠ .restart keep io restartIo now) :
    (Replica.step opt log s event).g.map = s.g.map := by
  cases event with
  | execute now => exact absurd rfl (hexecute now)
  | replay io lastSyncMs now =>
    show (s.replay opt log io lastSyncMs now).g.map = s.g.map
    have hmap : ∀ args, (executeForCheckpoint opt lastSyncMs s.g io now s.diskNext args).2.map =
        s.g.map := by
      intro args
      unfold executeForCheckpoint
      split
      · rfl
      · cases args with
        | none => rfl
        | some args => exact doExecute_leveldb_map _ _ _ _ _ _
    unfold Replica.replay
    split
    · cases log s.diskNext with
      | other => rfl
      | lock args =>
        dsimp only
        split
        · exact hmap args
        · exact hmap args
    · rfl
  | readNow nowInstanceId =>
    show (if _ then _ else s).g.map = s.g.map
    split
    · rfl
    · rfl
  | readMemory =>
    unfold Replica.step
    cases s.cleaner with
    | readNow n => rfl
    | _ => rfl
  | readLast =>
    unfold Replica.step
    cases s.cleaner with
    | readMemory n m => rfl
    | _ => rfl
  | flush putOk =>
    unfold Replica.step
    cases s.cleaner with
    | flush n => rfl
    | _ => rfl
  | write io =>
    unfold Replica.step
    cases s.cleaner with
    | write n =>
      show (s.g.writeRestartCheckpoint io (n - 1)).2.map = s.g.map
      unfold GroupData.writeRestartCheckpoint
      split
      · rfl
      · rfl
    | _ => rfl
  | restart keep io restartIo now => exact absurd rfl (hrestart keep io restartIo now)

/-- A record of the recovered map has been read from leveldb. -/
lemma recoverMap_from {now : ℕ} {kvs : List (String × DiskValue)} {m m' : LockMap}
    (hm : recoverMap now kvs m = some m') (hr : m'[k]? = some r) : m[k]? = some r ∨
      ∃ v r', (k, v) ∈ kvs ∧ isIgnoreKey k = false ∧ v.parse = some r' ∧ r = restamp now r' := by
  induction kvs generalizing m with
  | nil =>
    cases hm
    exact .inl hr
  | cons e kvs ih =>
    obtain ⟨key, v⟩ := e
    unfold recoverMap at hm
    split at hm
    · obtain hold | ⟨v', r', hmem, hrest⟩ := ih hm
      · exact .inl hold
      · exact .inr ⟨v', r', List.mem_cons_of_mem _ hmem, hrest⟩
    · rename_i hignore
      split at hm
      · cases hm
      rename_i r' hparse
      obtain hold | ⟨v', r', hmem, hrest⟩ := ih hm
      · by_cases hkey : key = ""
        · have hsame : (setRecord m {} key (restamp now r') true).2 = m :=
            congrArg Prod.snd (if_pos hkey)
          rw [hsame] at hold
          exact .inl hold
        · have hset : (setRecord m {} key (restamp now r') true).2 = m.insert key (restamp now r') :=
            congrArg Prod.snd (if_neg hkey)
          rw [hset, Std.ExtTreeMap.getElem?_insert] at hold
          split at hold
          · rename_i hk
            rw [Std.LawfulEqCmp.compare_eq_iff_eq] at hk
            subst hk
            cases hold
            exact .inr ⟨v, r', List.mem_cons_self, Bool.eq_false_iff.mpr hignore, hparse, rfl⟩
          · exact .inl hold
      · exact .inr ⟨v', r', List.mem_cons_of_mem _ hmem, hrest⟩

lemma recoverCheckpoints_map {io restartIo : DiskIO} {g g' : GroupData}
    (h : recoverCheckpoints io restartIo g = some g') : g'.map = g.map := by
  have hread : (g.readDiskCheckpoint io).2.map = g.map := rfl
  unfold recoverCheckpoints at h
  dsimp only at h
  split at h
  · cases h
  · cases h
    dsimp only
    unfold GroupData.overwriteCheckpoint
    split
    · rw [writeDiskCheckpoint_map, hread]
    · exact hread

/-- A record of a replica that comes up has been loaded. -/
lemma loaded_of_init {io restartIo : DiskIO} {now : ℕ} {db : LevelDb}
    (h : init io restartIo now db = some g) (hr : g.map[k]? = some r) :
    ∃ v r', db.get k = some v ∧ isIgnoreKey k = false ∧ v.parse = some r' ∧ r = restamp now r' := by
  unfold init at h
  split at h
  · cases h
  rename_i map hmap
  rw [recoverCheckpoints_map h] at hr
  obtain hempty | ⟨v, r', hmem, hrest⟩ := recoverMap_from hmap hr
  · cases hempty
  · refine ⟨v, r', ?_, hrest⟩
    rw [← WriteLog.contents_getElem?]
    exact Std.ExtTreeMap.mem_toList_iff_getElem?_eq_some.mp hmem

end

/-! ## Runs -/

/-- What every state keeps: an expire time is when the record was set or loaded plus its lease. -/
structure Expiring (s : CleanedReplica) : Prop where
  now_le : s.now ≤ s.clock
  expire : ∀ (k : String) (r : LocalRecordInfo), s.replica.g.map[k]? = some r →
    r.leaseTimeMs ≠ uint64Max → r.expireTimeMs = s.since k + r.leaseTimeMs
  cleans : s.CleansExpired

section
variable {opt : LockOption} {log : ℕ → Entry} {s : CleanedReplica}

lemma Expiring.execute (h : Expiring s) {now : ℕ}
    (hok : StepsNoWrap log s (.replica (.execute now))) :
    Expiring (s.replicaStep opt log (.execute now)) := by
  unfold CleanedReplica.replicaStep
  dsimp only
  have hstep : Replica.step opt log s.replica (ReplicaEvent.at s.clock (.execute now)) =
      s.replica.execute log s.clock := rfl
  rw [hstep]
  obtain ⟨key, v, hsets, hmap⟩ | ⟨hsets, hmap⟩ := execute_sets log s.replica s.clock
  · have hnowrap := hok (key, v) hsets
    rw [hsets]
    refine ⟨h.now_le, fun k r hr hne => ?_, h.cleans⟩
    dsimp only at hr ⊢
    rw [hmap, Std.ExtTreeMap.getElem?_insert] at hr
    split at hr
    · rename_i hk
      rw [Std.LawfulEqCmp.compare_eq_iff_eq] at hk
      subst hk
      cases hr
      rw [Function.update_self]
      exact expireTimeMs_expiring hnowrap hne
    · rename_i hk
      have hdiff : k ≠ key := fun heq => hk (Std.LawfulEqCmp.compare_eq_iff_eq.mpr heq.symm)
      rw [Function.update_of_ne hdiff]
      exact h.expire k r hr hne
  · rw [hsets]
    exact ⟨h.now_le, fun k r hr => h.expire k r (hmap k r hr), h.cleans⟩

lemma Expiring.restart (h : Expiring s) {keep : ℕ} {io restartIo : DiskIO} {now : ℕ}
    (hok : StepsNoWrap log s (.replica (.restart keep io restartIo now))) :
    Expiring (s.replicaStep opt log (.restart keep io restartIo now)) := by
  unfold CleanedReplica.replicaStep
  dsimp only
  have hstep : Replica.step opt log s.replica
      (ReplicaEvent.at s.clock (.restart keep io restartIo now)) =
      s.replica.restart keep io restartIo s.clock := rfl
  rw [hstep]
  cases hinit : init io restartIo s.clock (s.replica.g.leveldb.crash keep) with
  | none => exact h
  | some g =>
    have hg : (s.replica.restart keep io restartIo s.clock).g = g := by
      unfold Replica.restart
      rw [hinit]
      rfl
    refine ⟨Nat.zero_le _, fun k r hr hne => ?_, h.cleans⟩
    dsimp only at hr
    rw [hg] at hr
    obtain ⟨v, r', hget, hignore, hparse, rfl⟩ := loaded_of_init hinit hr
    exact expireTimeMs_restamp (hok k v r' hget hignore hparse) hne

lemma Expiring.replicaStep (h : Expiring s) (event : ReplicaEvent)
    (hok : StepsNoWrap log s (.replica event)) : Expiring (s.replicaStep opt log event) := by
  have hother : (∀ now, event ≠ .execute now) →
      (∀ keep io restartIo now, event ≠ .restart keep io restartIo now) →
      Expiring { s with replica := Replica.step opt log s.replica (event.at s.clock) } := by
    intro hexecute hrestart
    refine ⟨h.now_le, fun k r hr => ?_, h.cleans⟩
    dsimp only at hr
    rw [map_step] at hr
    · exact h.expire k r hr
    · intro now heq
      cases event with
      | execute now' => exact hexecute now' rfl
      | _ => cases heq
    · intro keep io restartIo now heq
      cases event with
      | restart keep' io' restartIo' now' => exact hrestart keep' io' restartIo' now' rfl
      | _ => cases heq
  cases event with
  | execute now => exact h.execute hok
  | restart keep io restartIo now => exact h.restart hok
  | replay io lastSyncMs now => exact hother nofun nofun
  | readNow nowInstanceId => exact hother nofun nofun
  | readMemory => exact hother nofun nofun
  | readLast => exact hother nofun nofun
  | flush putOk => exact hother nofun nofun
  | write io => exact hother nofun nofun

lemma Expiring.release (h : Expiring s) (key : String) : Expiring (s.release key) := by
  refine ⟨h.now_le, fun k r hr => ?_, h.cleans⟩
  apply h.expire k r
  have hmap : (deleteLock s.replica.g.map {} key false).2[k]? = some r := hr
  by_cases hkey : key = ""
  · have hsame : (deleteLock s.replica.g.map {} key false).2 = s.replica.g.map :=
      congrArg Prod.snd (if_pos hkey)
    rw [hsame] at hmap
    exact hmap
  · have herase : (deleteLock s.replica.g.map {} key false).2 = s.replica.g.map.erase key := by
      unfold deleteLock deleteUser keyUserLockPrefix
      rw [if_neg hkey, String.empty_append]
      exact congrArg Prod.snd (if_neg hkey)
    rw [herase, Std.ExtTreeMap.getElem?_erase] at hmap
    split at hmap
    · cases hmap
    · exact hmap

lemma Expiring.cleanRecord (h : Expiring s) : Expiring s.cleanRecord := by
  unfold CleanedReplica.cleanRecord
  split
  · exact h
  rename_i key _
  split
  · exact ⟨h.now_le, h.expire, h.cleans⟩
  rename_i r hfound
  refine ⟨h.now_le, h.expire, fun p hp => ?_⟩
  obtain hp | hp := List.mem_append.mp hp
  · exact h.cleans p hp
  · rw [List.mem_singleton.mp hp]
    unfold expiredRecord at hfound
    split at hfound
    · cases hfound
    rename_i r' hget
    split at hfound
    · rename_i hexpired
      cases hfound
      have hmap : s.replica.g.map[key]? = some r := by
        have hread : getRecord s.replica.g.map {} key = if key = "" then .error .errKey else
            match s.replica.g.map[key]? with
            | none => .error .errKeyNotExist
            | some r => .ok r := rfl
        rw [hread] at hget
        split at hget
        · cases hget
        · split at hget
          · cases hget
          · rename_i hr
            cases hget
            exact hr
      have hexpire := h.expire key r hmap hexpired.1
      have hnow := h.now_le
      exact ⟨hexpired.1, by dsimp only; omega⟩
    · cases hfound

lemma Expiring.step (h : Expiring s) (event : CleanEvent) (hok : StepsNoWrap log s event) :
    Expiring (s.step opt log event) := by
  cases event with
  | tick ms =>
    have hnow := h.now_le
    exact ⟨by show s.now ≤ s.clock + ms; omega, h.expire, h.cleans⟩
  | replica event => exact h.replicaStep event hok
  | release key => exact h.release key
  | pass => exact ⟨le_refl _, h.expire, h.cleans⟩
  | cleanRecord => exact h.cleanRecord

end

/-- **The cleaner deletes only expired records** in every run in which no expire time wraps that is
set or loaded. -/
theorem cleansExpired_run (opt : LockOption) (log : ℕ → Entry) (events : List CleanEvent)
    (h : (cleaned opt log).Along (StepsNoWrap log) {} events) :
    (cleaned opt log).Always CleanedReplica.CleansExpired {} events := by
  have hinit : Expiring {} := by
    refine ⟨le_refl _, fun k r hr => ?_, fun p hp => absurd hp List.not_mem_nil⟩
    cases hr
  exact (Machine.Always.of_inv (fun s event h hok => h.step event hok) hinit h).mono
    fun s h => h.cleans

def oneLease (leaseTimeMs : ℕ) : ℕ → Entry
  | 0 => .lock (some (acquireArgs ⟨"queue", 0, "consumer", leaseTimeMs⟩))
  | _ => .other

/-- The lock is acquired at 2 ms, and a pass goes over it so much later. -/
def acquireAndClean (ms : ℕ) : List CleanEvent :=
  [.tick 2, .replica (.execute 0), .tick ms, .pass, .cleanRecord]

theorem shortLease_cleansExpired :
    (cleaned {} (oneLease 10)).Always CleanedReplica.CleansExpired {} (acquireAndClean 11) := by
  refine cleansExpired_run {} (oneLease 10) (acquireAndClean 11) ⟨trivial, ?_, trivial, trivial,
    trivial, trivial⟩
  intro x hx
  cases hx
  exact .inr (by decide)

/-- **Counterexample.**  A lease of 2^64 - 2 ms that is acquired 2 ms after the clock began ends at 0,
and the next pass, in the same millisecond, deletes the record. -/
theorem longLease_not_cleansExpired :
    ((cleaned {} (oneLease (2 ^ 64 - 2))).exec {} (acquireAndClean 0)).proposals.map
        (fun p => (p.leaseTimeMs, p.since, p.clock)) = [(2 ^ 64 - 2, 2, 2)] ∧
      ¬ (cleaned {} (oneLease (2 ^ 64 - 2))).Always CleanedReplica.CleansExpired {}
        (acquireAndClean 0) := by
  refine ⟨by decide +kernel, fun h => ?_⟩
  have hlast := h.last
  revert hlast
  unfold CleanedReplica.CleansExpired
  decide +kernel

end PhxQueue.Lock
