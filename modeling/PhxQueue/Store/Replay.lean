import PhxQueue.Lib.Bisect
import PhxQueue.Store.Replica

/-!
# Replaying from a timestamp

`Replay` of `store/keepsyncthread.cpp` sets the cursors of a group back to an instance, or to where
the log reaches a timestamp, which it looks for by bisecting the log.  It then takes the last
midpoint, and not the bound that the search has found.

* `getInstanceValue`, `searchInstance`, `replayInstanceId`   the code;
* `PaxosLog`           a log with a deleted prefix, and with what is still to be chosen;
* `replay_sets`        both cursors are set to the instance that is found;
* `CursorOk`           what a replay to a timestamp promises;
* `cursorOk_iff`       **it keeps the promise exactly when the search does not end one too far**;
* `laterValue_not_cursorOk`   a log of two instances where it does.
-/

set_option linter.unusedSectionVars false

namespace PhxQueue.Store
open Comm Lib

/-- One value of an instance: another state machine's, one that does not parse, or the timestamp of
a `StorePaxosArgs`. -/
inductive Value
  | other
  | unparsed
  | args (timestamp : ℕ)
deriving DecidableEq

/-- What `GetInstanceValue` returns. -/
inductive InstanceValue
  | notChosenYet
  | notExist
  | error
  | ok (values : List Value)
deriving DecidableEq

/-- The timestamp of the first `StorePaxosArgs` among the values. -/
def firstTimestamp : List Value → Option ℕ
  | [] => none
  | .args timestamp :: _ => some timestamp
  | .other :: values | .unparsed :: values => firstTimestamp values

/-- `proto::ReplayInfo`, for the groups and publishers it is for. -/
structure ReplayInfo where
  cursorId : ℕ := uint64Max
  timestamp : ℕ := 0

section
variable (getInstanceValue : ℕ → InstanceValue)

/-- The loop of `Replay`; the result is its `mid`. -/
def searchInstance (timestamp l r mid : ℕ) : ℕ :=
  if l < r then
    -- `l + ((r + 1 - l) >> 1)`
    match getInstanceValue (Bisect.midpoint l r) with
    | .notChosenYet =>
      searchInstance timestamp l (Bisect.midpoint l r - 1) (Bisect.midpoint l r)
    | .notExist => searchInstance timestamp (Bisect.midpoint l r) r (Bisect.midpoint l r)
    | .error => searchInstance timestamp l (Bisect.midpoint l r - 1) (Bisect.midpoint l r)
    | .ok values =>
      match firstTimestamp values with
      | none => searchInstance timestamp l (Bisect.midpoint l r - 1) (Bisect.midpoint l r)
      | some ts =>
        if ts < timestamp then
          searchInstance timestamp (Bisect.midpoint l r) r (Bisect.midpoint l r)
        else searchInstance timestamp l (Bisect.midpoint l r - 1) (Bisect.midpoint l r)
  else mid
termination_by r - l
decreasing_by
  all_goals
    have h : l < r := by assumption
    have := Bisect.lt_midpoint h
    have := Bisect.midpoint_le h
    omega

/-- `replay_instance_id`; none where `Replay` goes on to the next queue. -/
def replayInstanceId (minInstanceId nowInstanceId : ℕ) (info : ReplayInfo) : Option ℕ :=
  if nowInstanceId = uint64Max then none else
  let start := if minInstanceId = uint64Max then 0 else minInstanceId
  if info.cursorId ≠ uint64Max then
    if info.cursorId > nowInstanceId then none
    else some (if info.cursorId > start then info.cursorId else start)
  else
    let mid := searchInstance getInstanceValue info.timestamp start nowInstanceId uint64Max
    some (if mid ≠ uint64Max then mid else start)

end

/-! ## The cursors -/

section
variable {cfg : StoreConfig} {log : Log} {s : Replica} {q g r : ℕ}

lemma keepSync_replay (hin : SyncCtrl.inTable cfg.opt g q) {isPrev : Bool}
    (h : s.keepSync = .replay q g r isPrev) :
    s.step cfg log .keepSync = { s with
      sync := s.sync.set q g (if isPrev then
        { s.sync q g with prev := some r, acked := max (s.sync q g).acked (level r) }
        else { s.sync q g with next := some r })
      keepSync := if isPrev then .replay q g r false else .idle } := by
  dsimp only [Replica.step, Replica.keepSyncStep]
  rw [h]
  dsimp only
  unfold SyncCtrl.updateCursorID
  rw [if_pos hin]
  rfl

theorem replay_sets {p : ℕ} (hidle : s.keepSync = .idle) (hq : q ∈ cfg.queues)
    (hg : cfg.isConsumer q g) (hp : s.sync.getCursorID cfg.opt g q = .ok p) (hne : p ≠ uint64Max)
    (hr : s.minChosen ≤ r ∧ r ≤ s.now) :
    let s' := ((s.step cfg log (.startReplay q g r)).step cfg log .keepSync).step cfg log .keepSync
    (s'.sync q g).prev = some r ∧ (s'.sync q g).next = some r ∧ s'.keepSync = .idle := by
  have hin := (SyncCtrl.getCursorID_ok hp).1
  have hstart : s.step cfg log (.startReplay q g r) = { s with keepSync := .replay q g r true } := by
    dsimp only [Replica.step]
    rw [hidle]
    dsimp only
    unfold Replica.startReplay
    rw [if_pos ⟨hq, hg, hr.1, hr.2⟩, hp]
    dsimp only
    rw [if_neg hne]
  dsimp only
  rw [hstart, keepSync_replay hin rfl, keepSync_replay hin rfl]
  simp

end

/-! ## The search -/

def isLow (timestamp : ℕ) : InstanceValue → Bool
  | .notChosenYet | .error => false
  | .notExist => true
  | .ok values =>
    match firstTimestamp values with
    | none => false
    | some ts => ts < timestamp

section
variable {getInstanceValue : ℕ → InstanceValue} {timestamp l r : ℕ}

lemma searchInstance_of_le (h : r ≤ l) (mid : ℕ) :
    searchInstance getInstanceValue timestamp l r mid = mid := by
  rw [searchInstance, if_neg (Nat.not_lt.mpr h)]

lemma searchInstance_step (h : l < r) (mid : ℕ) :
    searchInstance getInstanceValue timestamp l r mid =
      if isLow timestamp (getInstanceValue (Bisect.midpoint l r)) then
        searchInstance getInstanceValue timestamp (Bisect.midpoint l r) r (Bisect.midpoint l r)
      else
        searchInstance getInstanceValue timestamp l (Bisect.midpoint l r - 1)
          (Bisect.midpoint l r) := by
  rw [searchInstance, if_pos h]
  cases getInstanceValue (Bisect.midpoint l r) with
  | notChosenYet => rfl
  | notExist => rfl
  | error => rfl
  | ok values =>
    rcases hts : firstTimestamp values with _ | ts
    · simp [isLow, hts]
    · simp [isLow, hts]

theorem searchInstance_eq {a : ℕ}
    (h : Bisect.Ends (fun k => isLow timestamp (getInstanceValue k)) l r a) (mid : ℕ) :
    searchInstance getInstanceValue timestamp l r mid =
      ((Bisect.probes l r a).getLast?).getD mid := by
  induction l, r using Bisect.bounds_induction generalizing mid with
  | hstop l r hle =>
    rw [searchInstance_of_le hle, Bisect.probes_of_le hle]
    rfl
  | hstep l r hlt ihlow ihhigh =>
    rw [searchInstance_step hlt]
    cases hm : isLow timestamp (getInstanceValue (Bisect.midpoint l r)) with
    | true =>
      obtain ⟨ha, hends⟩ := h.goesOn hlt hm
      rw [if_pos rfl, Bisect.probes_low hlt ha, List.getLast?_cons, ihlow hends]
      rfl
    | false =>
      obtain ⟨ha, hends⟩ := h.goesBack hlt hm
      rw [if_neg Bool.false_ne_true, Bisect.probes_high hlt ha, List.getLast?_cons, ihhigh hends]
      rfl

end

/-! ## The log -/

/-- A paxos log: what is or will be chosen as each instance.  Instances from `chosen` on are not
chosen yet, those below `first` are deleted.  No instance that is left lies below the smallest one
that paxos reports, and timestamps do not decrease. -/
structure PaxosLog where
  values : ℕ → List Value
  first : ℕ
  chosen : ℕ
  minInstanceId : ℕ
  nowInstanceId : ℕ
  min_le : minInstanceId ≠ uint64Max → minInstanceId ≤ first
  now_le : nowInstanceId ≤ uint64Max
  nondecreasing : ∀ i j ti tj, i ≤ j → firstTimestamp (values i) = some ti →
    firstTimestamp (values j) = some tj → ti ≤ tj

namespace PaxosLog

variable (log : PaxosLog)

def getInstanceValue (k : ℕ) : InstanceValue :=
  if log.chosen ≤ k then .notChosenYet else if k < log.first then .notExist else .ok (log.values k)

def start : ℕ := if log.minInstanceId = uint64Max then 0 else log.minInstanceId

/-- The instance has its timestamp at `t` or after. -/
def From (t k : ℕ) : Prop := ∃ ts, firstTimestamp (log.values k) = some ts ∧ t ≤ ts

/-- A replay to the timestamp `t`. -/
def replayTo (t : ℕ) : Option ℕ :=
  replayInstanceId log.getInstanceValue log.minInstanceId log.nowInstanceId ⟨uint64Max, t⟩

/-- What the cursor `c` of a replay to `t` should be. -/
structure CursorOk (t c : ℕ) : Prop where
  /-- All that is left of the log, or chosen later, from `t` on is delivered again. -/
  complete : ∀ k, log.first ≤ k → log.From t k → c < k
  tight : log.first < c → c < log.chosen → ∀ ts, firstTimestamp (log.values c) = some ts → ts < t

/-- The instance where the search ends is deleted or before `t`; where its last midpoint lies above
that, so is the next one. -/
def NotTooFar (t : ℕ) : Prop :=
  log.nowInstanceId ≠ uint64Max →
    ∀ a, Bisect.Ends (fun k => isLow t (log.getInstanceValue k)) log.start log.nowInstanceId a →
      (log.first ≤ a → ¬ log.From t a) ∧
        (Bisect.missed log.start log.nowInstanceId a → log.first ≤ a + 1 → ¬ log.From t (a + 1))

variable {log} {t c : ℕ}

lemma replayTo_eq (h : log.replayTo t = some c) :
    log.nowInstanceId ≠ uint64Max ∧
      ∀ a, Bisect.Ends (fun k => isLow t (log.getInstanceValue k)) log.start log.nowInstanceId a →
        c = if Bisect.missed log.start log.nowInstanceId a then a + 1 else a := by
  unfold replayTo replayInstanceId at h
  split at h
  · cases h
  rename_i hnow
  refine ⟨hnow, fun a ha => ?_⟩
  dsimp only at h
  rw [if_neg fun hne => hne rfl, ← start, searchInstance_eq ha] at h
  rw [← Bisect.last_probe_eq ha]
  have hc := Option.some.inj h
  rw [← hc]
  cases hlast : (Bisect.probes log.start log.nowInstanceId a).getLast? with
  | none => rw [Option.getD_none, Option.getD_none, if_neg fun hne => hne rfl]
  | some m =>
    have hle := Bisect.le_of_mem_probes (List.mem_of_getLast? hlast)
    have hmax := log.now_le
    rw [Option.getD_some, Option.getD_some]
    exact if_pos (by omega)

/-- Up to where the search ends, unless this is its start, nothing is from `t` on. -/
lemma not_from_of_lt {a k : ℕ}
    (ha : Bisect.Ends (fun k => isLow t (log.getInstanceValue k)) log.start log.nowInstanceId a)
    (hk : log.first ≤ k) (hka : k < a) : ¬ log.From t k := by
  have hstart : log.start ≤ log.first := by
    unfold start
    split
    · exact Nat.zero_le _
    · rename_i hmin
      exact log.min_le hmin
  have hlow := ha.low_of_lt (by omega)
  rintro ⟨ts, hts, hle⟩
  unfold getInstanceValue at hlow
  split at hlow
  · cases hlow
  · rw [if_neg (by omega)] at hlow
    unfold isLow at hlow
    dsimp only at hlow
    split at hlow
    · cases hlow
    · rename_i ta hta
      have hlt : ta < t := of_decide_eq_true hlow
      have hmono := log.nondecreasing k a ts ta hka.le hts hta
      omega

lemma replayTo_bounds (h : log.replayTo t = some c) :
    log.start ≤ c ∧ c ≤ max log.start log.nowInstanceId := by
  obtain ⟨a, ha⟩ :=
    Bisect.exists_ends (fun k => isLow t (log.getInstanceValue k)) log.start log.nowInstanceId
  have heq := (replayTo_eq h).2 a ha
  have hle := ha.le
  have hmax := ha.le_max
  split at heq
  · rename_i hmissed
    have hprobe := Bisect.le_of_mem_probes (List.mem_of_getLast? hmissed)
    omega
  · omega

/-- The replay of a store to a timestamp sets both cursors to the instance it finds. -/
theorem replayTo_sets {cfg : StoreConfig} {storeLog : Log} {s : Replica} {q g p : ℕ}
    (hidle : s.keepSync = .idle) (hq : q ∈ cfg.queues) (hg : cfg.isConsumer q g)
    (hp : s.sync.getCursorID cfg.opt g q = .ok p) (hne : p ≠ uint64Max)
    (hmin : s.minChosen = log.minInstanceId) (hnow : s.now = log.nowInstanceId)
    (hle : s.minChosen ≤ s.now) (hc : log.replayTo t = some c) :
    let s' := ((s.step cfg storeLog (.startReplay q g c)).step cfg storeLog .keepSync).step cfg
      storeLog .keepSync
    (s'.sync q g).prev = some c ∧ (s'.sync q g).next = some c ∧ s'.keepSync = .idle := by
  have hbounds := replayTo_bounds hc
  have hnow' := (replayTo_eq hc).1
  have hmax := log.now_le
  have hstart : log.start = log.minInstanceId := by
    unfold start
    exact if_neg (by omega)
  exact replay_sets hidle hq hg hp hne (by omega)

variable (log t)

/-- **A replay to a timestamp does what it should exactly when the search does not end too far.** -/
theorem cursorOk_iff :
    (∀ c, log.replayTo t = some c → log.CursorOk t c) ↔ log.NotTooFar t := by
  constructor
  · intro h hnow a ha
    obtain ⟨c, hc⟩ : ∃ c, log.replayTo t = some c := by
      unfold replayTo replayInstanceId
      rw [if_neg hnow]
      exact ⟨_, if_neg fun hne => hne rfl⟩
    have hok := h c hc
    have heq := (replayTo_eq hc).2 a ha
    constructor
    · intro hfirst hfrom
      have hlt := hok.complete a hfirst hfrom
      split at heq <;> omega
    · intro hmissed hfirst hfrom
      have hlt := hok.complete (a + 1) hfirst hfrom
      rw [if_pos hmissed] at heq
      omega
  · intro h c hc
    obtain ⟨hnow, heq⟩ := replayTo_eq hc
    obtain ⟨a, ha⟩ :=
      Bisect.exists_ends (fun k => isLow t (log.getInstanceValue k)) log.start log.nowInstanceId
    obtain ⟨hend, hnext⟩ := h hnow a ha
    have heq := heq a ha
    have hcomplete : ∀ k, log.first ≤ k → log.From t k → c < k := by
      intro k hk hfrom
      by_contra hle
      have hka : a < k ∨ k = a := by
        by_contra hn
        exact not_from_of_lt ha hk (by omega) hfrom
      rcases hka with hka | rfl
      · split at heq
        · rename_i hmissed
          have hk1 : k = a + 1 := by omega
          subst hk1
          exact hnext hmissed hk hfrom
        · omega
      · exact hend hk hfrom
    refine ⟨hcomplete, fun hfirst _ ts hts => ?_⟩
    by_contra hle
    exact absurd (hcomplete c hfirst.le ⟨ts, hts, Nat.not_lt.mp hle⟩) (Nat.lt_irrefl c)

/-! ## One too far -/

/-- Instance 0 was chosen at time 5, instance 1 at time 10. -/
def twoInstances : PaxosLog where
  values k := [.args (if k = 0 then 5 else 10)]
  first := 0
  chosen := 2
  minInstanceId := 0
  nowInstanceId := 2
  min_le _ := le_rfl
  now_le := by decide
  nondecreasing := by
    intro i j ti tj hij hi hj
    cases hi
    cases hj
    split <;> split <;> omega

/-- **Counterexample.**  A replay to time 10 sets the cursor to instance 1, which is not delivered
again. -/
theorem laterValue_not_cursorOk :
    ¬ ∀ c, twoInstances.replayTo 10 = some c → twoInstances.CursorOk 10 c := by
  intro h
  have hloop : searchInstance twoInstances.getInstanceValue 10 0 2 uint64Max = 1 := by
    rw [searchInstance_step (by decide)]
    exact searchInstance_of_le (by decide) _
  have hto : twoInstances.replayTo 10 = some 1 := by
    show some (if searchInstance twoInstances.getInstanceValue 10 0 2 uint64Max ≠ uint64Max then
      searchInstance twoInstances.getInstanceValue 10 0 2 uint64Max else 0) = some 1
    rw [hloop]
    rfl
  have hlt := (h 1 hto).complete 1 (by decide) ⟨10, rfl, le_rfl⟩
  exact absurd hlt (by decide)

end PaxosLog

end PhxQueue.Store
