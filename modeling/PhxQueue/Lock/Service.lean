import PhxQueue.Lock.Server

/-!
# The lock service as its clients see it

`GetLockInfo`, `AcquireLock` and the cleaning of expired records, each run at once on the map of
the serving master.

* `getLockInfo`, `serveAcquire`, `serveClean`   the operations;
* `serveAcquire_pass`, `serveAcquire_fail`      what an acquire or a release does to the map;
* `serveAcquire_record`                         what one that passes leaves of every record;
* `serveClean_cases`                            what cleaning does.
-/

set_option linter.unusedSectionVars false

namespace PhxQueue.Lock
open Comm Lib

def localRecordInfo2LockInfo (r : LocalRecordInfo) : LockInfo :=
  { lockKey := "", version := r.version, clientId := r.value, leaseTimeMs := r.leaseTimeMs }

/-- `Lock::GetLockInfo` on the serving master. -/
def getLockInfo (g : GroupData) (key : String) : Except RetCode LockInfo :=
  if key = "" then .error .errKey else
  match getLock g.map {} key with
  | .error ret => .error ret
  | .ok r => .ok (localRecordInfo2LockInfo r)

/-- `Lock::AcquireLock` run at once, its proposal chosen as instance `i`. -/
def serveAcquire (g : GroupData) (now i : ℕ) (lockInfo : LockInfo) : RetCode × GroupData :=
  if lockInfo.lockKey = "" then (.errKey, g) else
  if checkVersion g.map lockInfo ≠ .ok then (checkVersion g.map lockInfo, g) else
  let r := execute g now i (some (acquireArgs lockInfo))
  let f := finishRelease r.2.1.map lockInfo (r.2.2.getD .ok)
  (f.1, { r.2.1 with map := f.2 })

def clientIdCleanThread : String := "__lock__:__clean_thread__"

/-- `CleanThread::CleanRecord` for one key, its proposal chosen as instance `i`; `sampled` is the
time the thread read before its loop. -/
def serveClean (g : GroupData) (sampled now i : ℕ) (key : String) : GroupData :=
  match getRecord g.map {} key with
  | .error _ => g
  | .ok r =>
    if r.leaseTimeMs ≠ uint64Max ∧ sampled > r.expireTimeMs then
      (execute g now i (some (acquireArgs
        { lockKey := key, version := r.version, clientId := clientIdCleanThread,
          leaseTimeMs := 0 }))).2.1
    else g

section
variable {g : GroupData} {key : String} (hkey : key ≠ "")
include hkey

lemma getLock_map (m : LockMap) : getLock m {} key =
    match m[key]? with
    | none => .error .errKeyNotExist
    | some r => .ok r := by
  show (if key = "" then _ else getRecord m {} ("" ++ key)) = _
  rw [if_neg hkey, String.empty_append]
  show (if key = "" then _ else _) = _
  exact if_neg hkey

lemma getLockInfo_eq : getLockInfo g key =
    match g.map[key]? with
    | none => .error .errKeyNotExist
    | some r => .ok (localRecordInfo2LockInfo r) := by
  unfold getLockInfo
  rw [if_neg hkey, getLock_map hkey]
  cases g.map[key]? <;> rfl

omit hkey in
lemma checkVersion_eq (m : LockMap) {lockInfo : LockInfo} (hk : lockInfo.lockKey ≠ "") :
    checkVersion m lockInfo =
      match m[lockInfo.lockKey]? with
      | none => .ok
      | some r => if r.version ≠ lockInfo.version then .errVersionNotEqual else .ok := by
  unfold checkVersion
  rw [getLock_map hk]
  cases m[lockInfo.lockKey]? <;> rfl

/-- The write of an acquire on the map, when the version passes. -/
lemma execute_acquire {lockInfo : LockInfo} (hk : lockInfo.lockKey = key) (now i : ℕ)
    (hpass : ∀ r, g.map[key]? = some r → r.version = lockInfo.version) :
    (execute g now i (some (acquireArgs lockInfo))).2.2 = some .ok ∧
      (execute g now i (some (acquireArgs lockInfo))).2.1.map =
        if lockInfo.leaseTimeMs = 0 then g.map.erase key
        else g.map.insert key
          (expiring now (localRecordInfo i lockInfo.clientId lockInfo.leaseTimeMs)) := by
  subst hk
  have hlease : ∀ (m : LockMap) (v : LocalRecordInfo),
      leaseWrite "" m {} now lockInfo.lockKey v false =
        (.ok, if v.leaseTimeMs = 0 then m.erase lockInfo.lockKey
          else m.insert lockInfo.lockKey (expiring now v)) := by
    intro m v
    by_cases hl : v.leaseTimeMs = 0
    · rw [leaseWrite_delete m now hkey hl, if_pos hl]
      exact if_neg hkey
    · rw [leaseWrite_set m now hkey hl, if_neg hl]
      exact if_neg hkey
  have hwrite : ∀ v : LocalRecordInfo,
      acquireLock g.map {} now ⟨lockInfo.version, lockInfo.lockKey⟩ v false =
        (.ok, if v.leaseTimeMs = 0 then g.map.erase lockInfo.lockKey
          else g.map.insert lockInfo.lockKey (expiring now v)) := by
    intro v
    have hget : getUser keyUserLockPrefix g.map {} lockInfo.lockKey = _ := getLock_map hkey g.map
    unfold acquireLock conditionalWrite
    rw [hget]
    cases hr : g.map[lockInfo.lockKey]? with
    | none => exact hlease g.map v
    | some r =>
      have hv := hpass r hr
      show (if ¬ (false = true ∧ _) ∧ r.version ≠ lockInfo.version then _ else _) = _
      rw [if_neg fun h => h.2 hv]
      exact hlease g.map v
  show some (acquireLock g.map {} now _ _ false).1 = _ ∧
    (acquireLock g.map {} now _ _ false).2 = _
  rw [hwrite]
  exact ⟨rfl, rfl⟩

theorem serveAcquire_pass {lockInfo : LockInfo} (hk : lockInfo.lockKey = key) (now i : ℕ)
    (hpass : ∀ r, g.map[key]? = some r → r.version = lockInfo.version) :
    (serveAcquire g now i lockInfo).1 = .ok ∧
      (serveAcquire g now i lockInfo).2.map =
        if lockInfo.leaseTimeMs = 0 then g.map.erase key
        else g.map.insert key
          (expiring now (localRecordInfo i lockInfo.clientId lockInfo.leaseTimeMs)) := by
  have hkey' : lockInfo.lockKey ≠ "" := by rwa [hk]
  have hcheck : checkVersion g.map lockInfo = .ok := by
    rw [checkVersion_eq g.map hkey', hk]
    cases hr : g.map[key]? with
    | none => rfl
    | some r => exact if_neg fun h => h (hpass r hr)
  obtain ⟨hret, hmap⟩ := execute_acquire hkey hk now i hpass
  unfold serveAcquire
  rw [if_neg hkey', if_neg fun h => h hcheck]
  dsimp only
  rw [hret, hmap]
  by_cases hl : lockInfo.leaseTimeMs = 0
  · rw [Master.finishRelease_zero _ hkey' hl, if_pos hl, hk]
    refine ⟨rfl, Std.ExtTreeMap.ext_getElem? fun k => ?_⟩
    simp only [Std.ExtTreeMap.getElem?_erase]
    split <;> rfl
  · unfold finishRelease
    rw [if_neg hl]
    exact ⟨rfl, rfl⟩

theorem serveAcquire_fail {lockInfo : LockInfo} (hk : lockInfo.lockKey = key) (now i : ℕ)
    {r : LocalRecordInfo} (hr : g.map[key]? = some r) (hne : r.version ≠ lockInfo.version) :
    serveAcquire g now i lockInfo = (.errVersionNotEqual, g) := by
  have hkey' : lockInfo.lockKey ≠ "" := by rwa [hk]
  have hcheck : checkVersion g.map lockInfo = .errVersionNotEqual := by
    rw [checkVersion_eq g.map hkey', hk, hr]
    exact if_pos hne
  unfold serveAcquire
  rw [if_neg hkey', hcheck, if_pos fun h => nomatch h]

/-- What a passed acquire leaves of every record; a lease of `-1` would never expire. -/
theorem serveAcquire_record {lockInfo : LockInfo} (hk : lockInfo.lockKey = key) (now i : ℕ)
    (hpass : ∀ r, g.map[key]? = some r → r.version = lockInfo.version)
    (hlease : lockInfo.leaseTimeMs ≠ uint64Max) (k : String) :
    (serveAcquire g now i lockInfo).2.map[k]? =
      if k ≠ key then g.map[k]?
      else if lockInfo.leaseTimeMs = 0 then none
      else some ⟨i, lockInfo.clientId, lockInfo.leaseTimeMs,
        wrap64 (now + lockInfo.leaseTimeMs)⟩ := by
  rw [(serveAcquire_pass hkey hk now i hpass).2]
  by_cases hl : lockInfo.leaseTimeMs = 0
  · rw [if_pos hl, if_pos hl, Std.ExtTreeMap.getElem?_erase]
    by_cases hkk : key = k
    · subst hkk
      simp
    · rw [if_neg (by simpa using hkk), if_pos (Ne.symm hkk)]
  · rw [if_neg hl, if_neg hl, Std.ExtTreeMap.getElem?_insert]
    by_cases hkk : key = k
    · subst hkk
      have hexp : expiring now (localRecordInfo i lockInfo.clientId lockInfo.leaseTimeMs) =
          ⟨i, lockInfo.clientId, lockInfo.leaseTimeMs, wrap64 (now + lockInfo.leaseTimeMs)⟩ := by
        show LocalRecordInfo.mk i lockInfo.clientId lockInfo.leaseTimeMs
          (if lockInfo.leaseTimeMs = uint64Max then 0
            else wrap64 (now + lockInfo.leaseTimeMs)) = _
        rw [if_neg hlease]
      simp [hexp]
    · rw [if_neg (by simpa using hkk), if_pos (Ne.symm hkk)]

theorem serveClean_cases (sampled now i : ℕ) :
    serveClean g sampled now i key = g ∨
      ∃ r, g.map[key]? = some r ∧ r.leaseTimeMs ≠ uint64Max ∧ r.expireTimeMs < sampled ∧
        (serveClean g sampled now i key).map = g.map.erase key := by
  have hget : getRecord g.map {} key = match g.map[key]? with
      | none => .error .errKeyNotExist
      | some r => .ok r := if_neg hkey
  unfold serveClean
  rw [hget]
  cases hr : g.map[key]? with
  | none => exact .inl rfl
  | some r =>
    dsimp only
    by_cases hexp : r.leaseTimeMs ≠ uint64Max ∧ sampled > r.expireTimeMs
    · rw [if_pos hexp]
      refine .inr ⟨r, rfl, hexp.1, hexp.2, ?_⟩
      have hpass : ∀ r', g.map[key]? = some r' → r'.version = r.version := by
        intro r' hr'
        rw [hr] at hr'
        cases hr'
        rfl
      have hk : (LockInfo.mk key r.version clientIdCleanThread 0).lockKey = key := rfl
      exact (execute_acquire hkey hk now i hpass).2
    · rw [if_neg hexp]
      exact .inl rfl

end

end PhxQueue.Lock
