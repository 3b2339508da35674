import PhxQueue.Lib.Run
import PhxQueue.Store.BaseMgr

/-!
# A store

One replica of a store with its threads: paxos, which executes the log (`store/storesm.cpp`), the
RPC threads, each running a `Get`, and the keep-sync thread (`store/keepsyncthread.cpp`), which makes
checkpoints, proposes the cursors of its groups, and replays.  Every step is one operation on the
shared state, so the threads interleave as they do under the locks of the source.

* `Replica`, `Replica.step`   the state and its steps;
* `CheckRound`                the variables of `MakeCheckPoint`;
* `World`, `store`            one replica over a log that grows.

Restarting drops what is not mapped to a file; the log above the checkpoint is then executed again
by ordinary steps.
-/

set_option linter.unusedSectionVars false

namespace PhxQueue.Store
open Comm Lib Config

/-! ## State -/

/-- How far the execution of one value is. -/
inductive Applying
  /-- `BaseMgr::Add` comes next. -/
  | add
  /-- `SyncCursorID` comes to these details: it compares the first one. -/
  | compare (details : List SyncDetail)
  /-- It writes the prev cursor of `d`. -/
  | writePrev (d : SyncDetail) (details : List SyncDetail)
  /-- It writes the next cursor of `d`. -/
  | writeNext (d : SyncDetail) (details : List SyncDetail)
deriving DecidableEq

/-- The variables of `MakeCheckPoint`.  `queues` are the queues still to examine and `groups` the
consumer groups of the first one still to read; `emptied` and `fronts` are no variables of the
source: the queues found empty, and the heads of the others. -/
structure CheckRound where
  nowInstanceId : ℕ
  cp : ℕ := uint64Max
  finish : Bool := false
  queues : List ℕ
  groups : List ℕ
  minPrev : ℕ := uint64Max
  needUpdate : Bool := true
  updated : Bool := false
  emptied : List ℕ := []
  fronts : List ℕ := []
deriving DecidableEq

def CheckRound.dumpCp (r : CheckRound) : ℕ :=
  if r.cp = uint64Max ∧ ¬ r.finish then pred64 r.nowInstanceId else r.cp

/-- What the keep-sync thread is at. -/
inductive KeepSync
  | idle
  | checkPoint (r : CheckRound)
  /-- `SyncCursorID` reads the cursors of these queues and groups, or proposes what it has read. -/
  | sync (todo : List (ℕ × ℕ)) (details : List SyncDetail)
  /-- `Replay` sets the cursors of a group, `true` for the prev one. -/
  | replay (queueId consumerGroupId cursorId : ℕ) (isPrev : Bool)
deriving DecidableEq

/-- A replica.  `now` is `GetNowInstanceID`: the instances below it have been executed, and of
instance `now` the first `pos` values.  `checkPoint` is `-1` when there is none. -/
structure Replica where
  now : ℕ := 0
  pos : ℕ := 0
  applying : Applying := .add
  metas : ℕ → StoreMetaQueue := fun _ => ∅
  sync : SyncCtrl := fun _ _ => {}
  checkPoint : ℕ := uint64Max
  minChosen : ℕ := 0
  gets : ℕ → Option GetThread := fun _ => none
  keepSync : KeepSync := .idle

/-! ## Execution -/

section
variable (cfg : StoreConfig)

namespace Replica

/-- `StoreSM::Execute`, one operation at a time; where it returns false paxos executes the value
again. -/
def executeStep (log : Log) (s : Replica) : Replica :=
  match log[s.now]? with
  | none => s
  | some batch =>
    match batch[s.pos]? with
    | none => { s with now := s.now + 1, pos := 0, applying := .add }
    | some args =>
      match s.applying with
      | .add =>
        match args.addReq with
        | none => { s with applying := .compare args.syncCtrlInfo }
        | some req =>
          match add cfg s.metas s.now req with
          | .error _ => s
          | .ok metas => { s with metas := metas, applying := .compare args.syncCtrlInfo }
      | .compare [] => { s with pos := s.pos + 1, applying := .add }
      | .compare (d :: ds) =>
        match s.sync.getCursorID cfg.opt d.consumerGroupId d.queueId with
        | .ok cur =>
          if cur ≥ d.prevCursorId then { s with applying := .compare ds }
          else { s with applying := .writePrev d ds }
        | .error _ => { s with applying := .writePrev d ds }
      | .writePrev d ds =>
        match s.sync.updateCursorID cfg.opt d.consumerGroupId d.queueId d.prevCursorId true with
        | .error _ => { s with applying := .add }
        | .ok sync => { s with sync := sync, applying := .writeNext d ds }
      | .writeNext d ds =>
        match s.sync.updateCursorID cfg.opt d.consumerGroupId d.queueId d.prevCursorId false with
        | .error _ => { s with applying := .add }
        | .ok sync => { s with sync := sync, applying := .compare ds }

/-! ## Get -/

def setGet (s : Replica) (n : ℕ) (t : Option GetThread) : Replica :=
  { s with gets := Function.update s.gets n t }

/-- RPC thread `n` receives a request.  One for another paxos group is not handled here. -/
def startGetStep (s : Replica) (n : ℕ) (req : GetRequest) : Replica :=
  match s.gets n with
  | some _ => s
  | none =>
    if req.queueId ∈ cfg.queues ∧ cfg.topic.isValidQueue req.queueId then
      match startGet cfg s.sync req with
      | .error _ => s
      | .ok t => s.setGet n (some t)
    else s

/-- The next operation of thread `n`. -/
def getStep (log : Log) (s : Replica) (n : ℕ) (timeUp : Bool) : Replica :=
  match s.gets n with
  | none => s
  | some t =>
    match t.phase with
    | .svrPrev => s.setGet n (some { t with
        svrPrev := (s.sync.getCursorID cfg.opt t.req.consumerGroupId t.req.queueId).toOption.getD
          uint64Max
        phase := .checkPoint })
    | .checkPoint => s.setGet n (some { t with cp := s.checkPoint, phase := .minInstance })
    | .minInstance => s.setGet n (some (enterLoop { t with minInstance := s.minChosen }))
    | .loop => s.setGet n (some (loopStep t (s.metas t.req.queueId) timeUp))
    | .items cur =>
      match getItemsByCursorID log s.now s.minChosen t.req.queueId cur with
      | .error _ => s.setGet n (some { t with phase := .updatePrev })
      | .ok items => s.setGet n (some (takeItems cfg t cur items))
    | .updatePrev =>
      if t.req.random then s.setGet n (some { t with phase := .done }) else
      if t.prev = uint64Max then s.setGet n (some { t with phase := .updateNext }) else
      match s.sync.updateCursorID cfg.opt t.req.consumerGroupId t.req.queueId t.prev true with
      | .error _ => s.setGet n none
      | .ok sync => { s with sync := sync }.setGet n (some { t with phase := .updateNext })
    | .updateNext =>
      if t.next = uint64Max then s.setGet n (some { t with phase := .done }) else
      match s.sync.updateCursorID cfg.opt t.req.consumerGroupId t.req.queueId t.next false with
      | .error _ => s.setGet n none
      | .ok sync => { s with sync := sync }.setGet n (some { t with phase := .done })
    | .done => s

/-- Thread `n` ends: its response is sent, or reading the log fails. -/
def endGet (s : Replica) (n : ℕ) : Replica :=
  match s.gets n with
  | none => s
  | some t =>
    match t.phase with
    | .items _ | .done => s.setGet n none
    | _ => s

/-! ## The keep-sync thread -/

/-- `MakeCheckPoint` begins. -/
def startRound (s : Replica) : CheckRound :=
  { nowInstanceId := s.now, queues := cfg.queues, groups := cfg.consumerGroups }

/-- The round reads the prev cursor of group `g` on queue `q`. -/
def readCursor (s : Replica) (r : CheckRound) (q g : ℕ) : CheckRound :=
  if cfg.isConsumer q g then
    match s.sync.getCursorID cfg.opt g q with
    | .ok p => if r.minPrev = uint64Max ∨ p < r.minPrev then { r with minPrev := p } else r
    | .error ret => if 0 < ret.asInteger then { r with needUpdate := false } else r
  else r

/-- The round looks at the head of queue `q`. -/
def readFront (s : Replica) (r : CheckRound) (q : ℕ) : CheckRound :=
  match (s.metas q).front with
  | none => { r with emptied := q :: r.emptied }
  | some m =>
    let tmp := pred64 m
    let r := if tmp = uint64Max then { r with cp := uint64Max, finish := true } else r
    { r with
      cp := if r.cp = uint64Max ∨ tmp < r.cp then tmp else r.cp
      fronts := m :: r.fronts }

def dumpCheckPoint (s : Replica) (cp : ℕ) : Replica :=
  if cp = uint64Max then s else
  if s.checkPoint ≠ uint64Max ∧ s.checkPoint > cp then s else { s with checkPoint := cp }

/-- The next operation of `MakeCheckPoint`. -/
def roundStep (s : Replica) (r : CheckRound) : Replica :=
  match r.queues with
  | [] => { s.dumpCheckPoint r.dumpCp with keepSync := .idle }
  | q :: qs =>
    if r.finish then { s.dumpCheckPoint r.dumpCp with keepSync := .idle } else
    match r.groups with
    | g :: gs =>
      { s with keepSync := .checkPoint { s.readCursor cfg r q g with groups := gs } }
    | [] =>
      if r.updated then
        { s with keepSync := .checkPoint { s.readFront r q with
          queues := qs, groups := cfg.consumerGroups, minPrev := uint64Max, needUpdate := true,
          updated := false } }
      else
        { s with
          metas := if r.needUpdate then
              Function.update s.metas q (if r.minPrev = uint64Max then ∅
                else (s.metas q).eraseFrontTill r.minPrev)
            else s.metas
          keepSync := .checkPoint { r with updated := true } }

/-- The cursors `SyncCursorID` reads. -/
def syncTodo : List (ℕ × ℕ) :=
  cfg.queues.flatMap fun q => cfg.consumerGroups.map fun g => (q, g)

def keepSyncStep (s : Replica) : Replica :=
  match s.keepSync with
  | .idle => s
  | .checkPoint r => s.roundStep cfg r
  | .sync [] _ => { s with keepSync := .idle }
  | .sync ((q, g) :: todo) details =>
    match s.sync.getCursorID cfg.opt g q with
    | .ok p => { s with keepSync := .sync todo (details ++ [⟨q, g, p⟩]) }
    | .error _ => { s with keepSync := .sync todo details }
  | .replay q g r isPrev =>
    { s with
      sync := (s.sync.updateCursorID cfg.opt g q r isPrev).toOption.getD s.sync
      keepSync := if isPrev then .replay q g r false else .idle }

/-- `Replay` comes to a group of a local queue, which it rewinds to `r`, if the group has a prev
cursor. -/
def startReplay (s : Replica) (q g r : ℕ) : Replica :=
  if q ∈ cfg.queues ∧ cfg.isConsumer q g ∧ s.minChosen ≤ r ∧ r ≤ s.now then
    match s.sync.getCursorID cfg.opt g q with
    | .ok p => if p = uint64Max then s else { s with keepSync := .replay q g r true }
    | .error _ => s
  else s

end Replica

/-! ## Steps -/

inductive StoreEvent
  /-- Paxos executes. -/
  | execute
  | startGet (n : ℕ) (req : GetRequest)
  | get (n : ℕ) (timeUp : Bool)
  | endGet (n : ℕ)
  | startRound
  | startSync
  | startReplay (queueId consumerGroupId cursorId : ℕ)
  | keepSync
  /-- `ClearSyncCtrl` clears the cursors of a group. -/
  | clear (queueId consumerGroupId : ℕ)
  /-- Paxos deletes the instances below `m`, none above the checkpoint. -/
  | truncate (m : ℕ)
  | restart

namespace Replica

def step (log : Log) (s : Replica) : StoreEvent → Replica
  | .execute => s.executeStep cfg log
  | .startGet n req => s.startGetStep cfg n req
  | .get n timeUp => s.getStep cfg log n timeUp
  | .endGet n => s.endGet n
  | .startRound =>
    match s.keepSync with
    | .idle => { s with keepSync := .checkPoint (s.startRound cfg) }
    | _ => s
  | .startSync =>
    match s.keepSync with
    | .idle => { s with keepSync := .sync (syncTodo cfg) [] }
    | _ => s
  | .startReplay q g r =>
    match s.keepSync with
    | .idle => s.startReplay cfg q g r
    | _ => s
  | .keepSync => s.keepSyncStep cfg
  | .clear q g =>
    match s.keepSync with
    | .idle =>
      if cfg.isConsumer q g then s else
      match s.sync.getCursorID cfg.opt g q with
      | .ok _ => { s with sync := s.sync.clearCursorID cfg.opt g q }
      | .error _ => s
    | _ => s
  | .truncate m =>
    if s.minChosen ≤ m ∧ m ≤ level s.checkPoint then { s with minChosen := m } else s
  | .restart =>
    { s with
      now := level s.checkPoint, pos := 0, applying := .add, metas := fun _ => ∅,
      gets := fun _ => none, keepSync := .idle }

end Replica

/-- A store over the log of its paxos group. -/
structure World where
  log : Log := []
  store : Replica := {}

inductive Event
  /-- The next instance is chosen. -/
  | choose (batch : List StorePaxosArgs)
  | store (e : StoreEvent)

/-- What is proposed in the paxos group: items that passed `CheckAddRequest`, and cursors that some
replica has read from its table. -/
def Proposable (args : StorePaxosArgs) : Prop :=
  (∀ req ∈ args.addReq, req.queueId ∈ cfg.queues ∧ cfg.topic.isValidQueue req.queueId) ∧
  ∀ d ∈ args.syncCtrlInfo, SyncCtrl.inTable cfg.opt d.consumerGroupId d.queueId ∧
    d.queueId ∈ cfg.queues ∧ d.prevCursorId < uint64Max

instance (args : StorePaxosArgs) : Decidable (Proposable cfg args) :=
  inferInstanceAs (Decidable ((∀ req ∈ args.addReq, _ ∧ _) ∧ ∀ d ∈ args.syncCtrlInfo, _))

/-- One step; instance ids stay below `2 ^ 64 - 1`. -/
def World.step (w : World) : Event → World
  | .choose batch =>
    if (∀ args ∈ batch, Proposable cfg args) ∧ w.log.length + 1 < uint64Max then
      { w with log := w.log ++ [batch] }
    else w
  | .store e => { w with store := w.store.step cfg w.log e }

def store : Machine World Event where
  init := {}
  step := World.step cfg

end

end PhxQueue.Store
