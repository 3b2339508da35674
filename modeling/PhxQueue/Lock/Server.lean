import PhxQueue.Lock.Log
import PhxQueue.Lib.Run

/-!
# The lock master's request handlers

`Lock::AcquireLock` of `lock/lock.cpp`, as handlers that run concurrently with the paxos
instances they and others propose.  A handler compares the version in the map, proposes, waits
for the result of its proposal and, for a release, deletes the record from the map once more.

* `checkVersion`, `proposeError`, `finishRelease`   the parts of the handler;
* `master`                  the machine: calls, comparisons, instances executed, proposals that
                            fail, replies;
* `Agrees`                  the map is the fold of the instances chosen so far;
* `Honest`                  a handler returns the error of its paxos step;
* `agrees_honest_iff`       **exactly when both hold throughout a run**.
-/

set_option linter.unusedSectionVars false

namespace PhxQueue.Lock
open Comm Lib

/-! ## The handler -/

/-- The version comparison before the proposal, under the mutex of the map. -/
def checkVersion (m : LockMap) (lockInfo : LockInfo) : RetCode :=
  match getLock m {} lockInfo.lockKey with
  | .error .errKeyNotExist => .ok
  | .error ret => ret
  | .ok r => if r.version ≠ lockInfo.version then .errVersionNotEqual else .ok

/-- The results of `Node::Propose` that are not `PaxosTryCommitRet_OK`. -/
inductive ProposeError
  | timeout
  | tooManyThreadWaitingReject
  | valueSizeTooLarge
  | other
deriving DecidableEq, Repr

/-- What `PaxosAcquireLock` returns for a failed proposal. -/
def proposeError : ProposeError → RetCode
  | .timeout => .errProposeTimeout
  | .tooManyThreadWaitingReject => .errProposeFastReject
  | .valueSizeTooLarge => .errSizeTooLarge
  | .other => .errPropose

/-- The value `PaxosAcquireLock` proposes. -/
def acquireArgs (lockInfo : LockInfo) : LockPaxosArgs := { acquireLockReq := some lockInfo }

/-- The end of `AcquireLock`: with a lease of 0 the record is deleted from the map directly, and
the result of that replaces the result of the paxos step. -/
def finishRelease (m : LockMap) (lockInfo : LockInfo) (ret : RetCode) : RetCode × LockMap :=
  if lockInfo.leaseTimeMs = 0 then deleteLock m {} lockInfo.lockKey false else (ret, m)

/-! ## The machine -/

/-- Where a handler stands; `done` remembers what `PaxosAcquireLock` returned, if it was called. -/
inductive Handler
  | idle
  | checking (req : LockInfo)
  | proposing (req : LockInfo)
  | proposed (req : LockInfo) (ret : RetCode)
  | done (paxos : Option RetCode) (ret : RetCode)
deriving DecidableEq, Repr

/-- The serving master of one group: its data, the instances chosen so far, its handlers. -/
structure Master where
  g : GroupData := {}
  chosen : List Chosen := []
  handler : ℕ → Handler := fun _ => .idle

inductive Event
  /-- A request arrives; `masterRet` is what `CheckMaster` says. -/
  | call (h : ℕ) (req : LockInfo) (masterRet : RetCode)
  | check (h : ℕ)
  /-- The proposal of handler `h` is chosen as instance `i`. -/
  | choose (h i now : ℕ)
  /-- Any other value is chosen: a proposal that timed out, one of the clean thread, of a string
  request or of another replica. -/
  | chooseOther (args : LockPaxosArgs) (i now : ℕ)
  | fail (h : ℕ) (e : ProposeError)
  | reply (h : ℕ)

namespace Master

def set (s : Master) (h : ℕ) (x : Handler) : Master :=
  { s with handler := Function.update s.handler h x }

/-- Instance `i` is executed on the map. -/
def execute (s : Master) (i now : ℕ) (args : LockPaxosArgs) : Master :=
  { s with g := (Lock.execute s.g now i (some args)).2.1, chosen := s.chosen ++ [(i, args)] }

/-- The result the state machine leaves for the proposer. -/
def result (s : Master) (i now : ℕ) (args : LockPaxosArgs) : RetCode :=
  ((Lock.execute s.g now i (some args)).2.2).getD .ok

def call (s : Master) (h : ℕ) (req : LockInfo) (masterRet : RetCode) : Master :=
  if req.lockKey = "" then s.set h (.done none .errKey)
  else if masterRet ≠ .ok then s.set h (.done none masterRet)
  else s.set h (.checking req)

def check (s : Master) (h : ℕ) (req : LockInfo) : Master :=
  let ret := checkVersion s.g.map req
  if ret = .ok then s.set h (.proposing req) else s.set h (.done none ret)

def reply (s : Master) (h : ℕ) (req : LockInfo) (ret : RetCode) : Master :=
  let r := finishRelease s.g.map req ret
  { s with g := { s.g with map := r.2 } }.set h (.done (some ret) r.1)

/-- One step; an event whose handler is elsewhere changes nothing. -/
def step (s : Master) : Event → Master
  | .call h req masterRet =>
    match s.handler h with
    | .idle | .done _ _ => s.call h req masterRet
    | _ => s
  | .check h =>
    match s.handler h with
    | .checking req => s.check h req
    | _ => s
  | .choose h i now =>
    match s.handler h with
    | .proposing req =>
      (s.execute i now (acquireArgs req)).set h
        (.proposed req (s.result i now (acquireArgs req)))
    | _ => s
  | .chooseOther args i now => s.execute i now args
  | .fail h e =>
    match s.handler h with
    | .proposing req => s.set h (.proposed req (proposeError e))
    | _ => s
  | .reply h =>
    match s.handler h with
    | .proposed req ret => s.reply h req ret
    | _ => s

end Master

def master : Machine Master Event where
  init := {}
  step := Master.step

/-- The map is the fold of the state machine over the chosen instances, whatever the clocks. -/
def Agrees (s : Master) : Prop :=
  ∀ (t : Clocks) (k : String), k ≠ "" →
    recordAt s.g.map k = recordAt (executeAll t {} s.chosen).map k

/-- A request whose paxos step failed was answered with that error. -/
def Honest (s : Master) : Prop :=
  ∀ h paxos ret, s.handler h = .done (some paxos) ret → paxos ≠ .ok → ret = paxos

/-- The direct deletion is harmless: the release succeeded in paxos, and no record is left (none
was acquired since). -/
def ReleaseDone (s : Master) : Event → Prop
  | .reply h =>
    match s.handler h with
    | .proposed req ret => req.leaseTimeMs = 0 → ret = .ok ∧ s.g.map[req.lockKey]? = none
    | _ => True
  | _ => True

/-! ## Steps -/

/-- The request of a handler between its call and its reply. -/
def Handler.pending : Handler → Option LockInfo
  | .checking req | .proposing req | .proposed req _ => some req
  | _ => none

/-- An answer that does not hide the error of the paxos step. -/
def Handler.Honest : Handler → Prop
  | .done (some paxos) ret => paxos ≠ .ok → ret = paxos
  | _ => True

def Handler.Keyed (x : Handler) : Prop := ∀ req, x.pending = some req → req.lockKey ≠ ""

/-- The invariant of the steps whose direct deletions are harmless. -/
structure Master.Inv (s : Master) : Prop where
  cells : ∀ k, k ≠ "" → recordAt s.g.map k = .ok (Cas.cellRun k none (opsOf s.chosen))
  honest : ∀ h, (s.handler h).Honest
  keyed : ∀ h, (s.handler h).Keyed

lemma agrees_iff_cells (s : Master) : Agrees s ↔
    ∀ k, k ≠ "" → recordAt s.g.map k = .ok (Cas.cellRun k none (opsOf s.chosen)) := by
  have hfold : ∀ (t : Clocks) (k : String), k ≠ "" →
      recordAt (executeAll t {} s.chosen).map k = .ok (Cas.cellRun k none (opsOf s.chosen)) :=
    fun t k hk => recordAt_executeAll t hk (recordAt_empty_map hk) s.chosen
  constructor
  · intro h k hk
    rw [h ⟨fun _ => 0, fun _ => 0⟩ k hk, hfold _ k hk]
  · intro h t k hk
    rw [h k hk, hfold t k hk]

lemma honest_iff (s : Master) : Honest s ↔ ∀ h, (s.handler h).Honest := by
  constructor
  · intro hs h
    cases hx : s.handler h with
    | done paxos ret =>
      cases paxos with
      | none => trivial
      | some paxos => exact hs h paxos ret hx
    | _ => trivial
  · intro hs h paxos ret hx
    have := hs h
    rw [hx] at this
    exact this

namespace Master

lemma handler_set (s : Master) (h h' : ℕ) (x : Handler) :
    (s.set h x).handler h' = if h' = h then x else s.handler h' :=
  Function.update_apply _ _ _ _

lemma Inv.set {s : Master} (hs : s.Inv) (h : ℕ) {x : Handler} (hx : x.Honest) (hk : x.Keyed) :
    (s.set h x).Inv where
  cells := hs.cells
  honest := by
    intro h'
    rw [handler_set]
    split
    · exact hx
    · exact hs.honest h'
  keyed := by
    intro h'
    rw [handler_set]
    split
    · exact hk
    · exact hs.keyed h'

lemma keyed_of_none {x : Handler} (hx : x.pending = none) : x.Keyed := by
  intro req hr
  rw [hx] at hr
  cases hr

lemma Inv.execute {s : Master} (hs : s.Inv) (i now : ℕ) (args : LockPaxosArgs) :
    (s.execute i now args).Inv where
  cells := by
    intro k hk
    have hmap : recordAt (s.execute i now args).g.map k
        = .ok (args.cell i k (Cas.cellRun k none (opsOf s.chosen))) :=
      doExecute_map s.g now i args false hk (hs.cells k hk)
    have hone : Cas.cellRun k (Cas.cellRun k none (opsOf s.chosen)) (opsOf [(i, args)])
        = args.cell i k (Cas.cellRun k none (opsOf s.chosen)) := cellRun_opsOf_cons k _ i args []
    show recordAt (s.execute i now args).g.map k
      = .ok (Cas.cellRun k none (opsOf (s.chosen ++ [(i, args)])))
    rw [hmap, opsOf_append, Cas.cellRun_append, hone]
  honest := hs.honest
  keyed := hs.keyed

lemma finishRelease_zero (m : LockMap) {req : LockInfo} (hk : req.lockKey ≠ "")
    (hl : req.leaseTimeMs = 0) (ret : RetCode) :
    finishRelease m req ret = (.ok, m.erase req.lockKey) := by
  have hkey : ¬ (keyUserLockPrefix ++ req.lockKey = "") := by
    rw [show keyUserLockPrefix ++ req.lockKey = req.lockKey from String.empty_append]
    exact hk
  unfold finishRelease deleteLock deleteUser
  rw [if_pos hl, if_neg hk]
  show (if keyUserLockPrefix ++ req.lockKey = "" then _ else _) = _
  rw [if_neg hkey, show keyUserLockPrefix ++ req.lockKey = req.lockKey from String.empty_append]

lemma Inv.reply {s : Master} (hs : s.Inv) {h : ℕ} {req : LockInfo} {ret : RetCode}
    (hh : s.handler h = .proposed req ret)
    (hok : req.leaseTimeMs = 0 → ret = .ok ∧ s.g.map[req.lockKey]? = none) :
    (s.reply h req ret).Inv := by
  have hk : req.lockKey ≠ "" := hs.keyed h req (by rw [hh]; rfl)
  by_cases hl : req.leaseTimeMs = 0
  · obtain ⟨rfl, hnone⟩ := hok hl
    have hreply : s.reply h req .ok =
        Master.set { s with g := { s.g with map := s.g.map.erase req.lockKey } } h
          (.done (some .ok) .ok) := by
      unfold Master.reply
      rw [finishRelease_zero _ hk hl]
    have herase : s.g.map.erase req.lockKey = s.g.map := by
      refine Std.ExtTreeMap.ext_getElem? fun k => ?_
      rw [Std.ExtTreeMap.getElem?_erase]
      by_cases hkk : req.lockKey = k
      · subst hkk
        simp [hnone]
      · simp [hkk]
    rw [hreply, herase]
    exact hs.set h (fun _ => rfl) (keyed_of_none rfl)
  · have hreply : s.reply h req ret = s.set h (.done (some ret) ret) := by
      unfold Master.reply finishRelease
      rw [if_neg hl]
    rw [hreply]
    exact hs.set h (fun _ => rfl) (keyed_of_none rfl)

theorem Inv.call {s : Master} (hs : s.Inv) (h : ℕ) (req : LockInfo) (masterRet : RetCode) :
    (s.call h req masterRet).Inv := by
  unfold Master.call
  split
  · exact hs.set h trivial (keyed_of_none rfl)
  · rename_i hk
    split
    · exact hs.set h trivial (keyed_of_none rfl)
    · refine hs.set h trivial fun r hr => ?_
      cases hr
      exact hk

theorem Inv.step {s : Master} (hs : s.Inv) (e : Event) (hok : ReleaseDone s e) :
    (s.step e).Inv := by
  cases e with
  | call h req masterRet =>
    dsimp only [Master.step]
    split
    · exact hs.call h req masterRet
    · exact hs.call h req masterRet
    · exact hs
  | check h =>
    dsimp only [Master.step]
    split
    · rename_i req hh
      have hk : req.lockKey ≠ "" := hs.keyed h req (by rw [hh]; rfl)
      unfold Master.check
      dsimp only
      split
      · refine hs.set h trivial fun r hr => ?_
        cases hr
        exact hk
      · exact hs.set h trivial (keyed_of_none rfl)
    · exact hs
  | choose h i now =>
    dsimp only [Master.step]
    split
    · rename_i req hh
      have hk : req.lockKey ≠ "" := hs.keyed h req (by rw [hh]; rfl)
      refine (hs.execute i now _).set h trivial fun r hr => ?_
      cases hr
      exact hk
    · exact hs
  | chooseOther args i now => exact hs.execute i now args
  | fail h e =>
    dsimp only [Master.step]
    split
    · rename_i req hh
      have hk : req.lockKey ≠ "" := hs.keyed h req (by rw [hh]; rfl)
      refine hs.set h trivial fun r hr => ?_
      cases hr
      exact hk
    · exact hs
  | reply h =>
    dsimp only [Master.step]
    split
    · rename_i req ret hh
      refine hs.reply hh ?_
      dsimp only [ReleaseDone] at hok
      rw [hh] at hok
      exact hok
    · exact hs

/-- A direct deletion that is not harmless breaks the agreement or hides an error. -/
theorem Inv.bad {s : Master} (hs : s.Inv) {e : Event} (hbad : ¬ ReleaseDone s e) :
    ¬ (Agrees (s.step e) ∧ Honest (s.step e)) := by
  cases e with
  | reply h =>
    dsimp only [ReleaseDone] at hbad
    split at hbad
    · rename_i req ret hh
      have hk : req.lockKey ≠ "" := hs.keyed h req (by rw [hh]; rfl)
      obtain ⟨hl, hbad⟩ := Classical.not_imp.mp hbad
      have hstep : s.step (.reply h) =
          Master.set { s with g := { s.g with map := s.g.map.erase req.lockKey } } h
            (.done (some ret) .ok) := by
        dsimp only [Master.step]
        rw [hh]
        show s.reply h req ret = _
        unfold Master.reply
        rw [finishRelease_zero _ hk hl]
      rw [hstep]
      rintro ⟨hagree, hhonest⟩
      refine hbad ⟨?_, ?_⟩
      · by_contra hret
        refine hret (hhonest h ret .ok ?_ hret).symm
        rw [handler_set, if_pos rfl]
      · have hgone := (agrees_iff_cells _).mp hagree req.lockKey hk
        have hthere := hs.cells req.lockKey hk
        have herase : recordAt (s.g.map.erase req.lockKey) req.lockKey = .ok none := by
          rw [LockMap.recordAt_eq _ hk]
          simp
        have hcell : (Except.ok none : Except RetCode (Cas.Cell (String × ℕ)))
            = .ok (Cas.cellRun req.lockKey none (opsOf s.chosen)) := herase.symm.trans hgone
        rw [← hcell, LockMap.recordAt_eq _ hk] at hthere
        exact Option.map_eq_none_iff.mp (Except.ok.inj hthere)
    · exact absurd trivial hbad
  | _ => exact absurd trivial hbad

lemma inv_init : Inv ({} : Master) where
  cells := fun _ hk => recordAt_empty_map hk
  honest := fun _ => trivial
  keyed := fun _ => keyed_of_none rfl

end Master

/-- **Atomic release, exactly.**  In a run of the serving master the map is the fold of the chosen
instances in every state, and every failed paxos step is reported, if and only if each direct
deletion comes after a successful release and finds no record. -/
theorem agrees_honest_iff (es : List Event) :
    master.Always (fun s => Agrees s ∧ Honest s) master.init es ↔
      master.Along ReleaseDone master.init es :=
  Machine.always_iff_along (M := master) (I := Master.Inv)
    (fun s hs => ⟨(agrees_iff_cells s).mpr hs.cells, (honest_iff s).mpr hs.honest⟩)
    (fun _ e hs hok => hs.step e hok) (fun _ _ hs hbad => hs.bad hbad) Master.inv_init es

/-- A lock is held by `a`; its owner's release times out in paxos and deletes the record from the
map all the same. -/
def lostRelease : List Event :=
  [.chooseOther (acquireArgs ⟨"lock", 0, "a", 10⟩) 1 0, .call 0 ⟨"lock", 1, "a", 0⟩ .ok,
    .check 0, .fail 0 .timeout, .reply 0]

/-- The record is gone from the map of the master, and the caller is told it was released. -/
theorem lostRelease_not_agrees :
    ¬ master.Always (fun s => Agrees s ∧ Honest s) master.init lostRelease := by
  intro h
  have hlast := h.last.1 ⟨fun _ => 0, fun _ => 0⟩ "lock" (by decide)
  revert hlast
  decide

end PhxQueue.Lock
