import PhxQueue.Config.TopicConfig
import PhxQueue.Store.SyncCtrl

/-!
# Adding and getting items

`store/basemgr.cpp`: what executing an instance adds to the meta queues, and `Get`, which serves a
consumer from the metas or, below the checkpoint, from the paxos log.

* `StorePaxosArgs`, `Log`   the values of the log, by instance;
* `add`, `itemsOf`, `getItemsByCursorID`   `Add` and the items of an instance;
* `GetThread`        the variables of a running `Get`, one function for each part of its code:
                     `startGet`, `enterLoop`, `loopStep`, `takeItems`;
* `skips`            whether an item is not for the group that asks.

The shared state is read and written between these parts, in `Store/Replica`.
-/

set_option linter.unusedSectionVars false

namespace PhxQueue.Store
open Comm Config

/-- What is fixed while the store runs: the topic, the options of the store, the paxos group that
is modelled, and the publishers of the store. -/
structure StoreConfig where
  topicId : ℤ
  topic : TopicConfig
  opt : StoreOption
  paxosGroupId : ℕ
  pubIds : List ℤ

/-- `comm::proto::AddRequest`. -/
structure AddRequest where
  queueId : ℕ
  items : List QItem
deriving DecidableEq

/-- `ConsumerGroupDetail` with the queue it is under. -/
structure SyncDetail where
  queueId : ℕ
  consumerGroupId : ℕ
  prevCursorId : ℕ
deriving DecidableEq

/-- `proto::StorePaxosArgs`; the details of `SyncCtrlInfo` in their order. -/
structure StorePaxosArgs where
  addReq : Option AddRequest := none
  syncCtrlInfo : List SyncDetail := []
deriving DecidableEq

/-- The paxos log: the values of every chosen instance, a batch each. -/
abbrev Log := List (List StorePaxosArgs)

/-- `comm::proto::GetRequest`. -/
structure GetRequest where
  topicId : ℤ
  queueId : ℕ
  consumerGroupId : ℕ
  limit : ℕ
  prevCursorId : ℕ := uint64Max
  nextCursorId : ℕ := uint64Max
  atime : ℕ := 0
  atimeMs : ℕ := 0
  random : Bool := false
deriving DecidableEq

/-- `comm::proto::GetResponse`. -/
structure GetResponse where
  prevCursorId : ℕ
  nextCursorId : ℕ
  items : List QItem
deriving DecidableEq

namespace StoreConfig

variable (cfg : StoreConfig)

/-- The queues of the paxos group, in the order of the loops. -/
def queues : List ℕ :=
  (List.range cfg.opt.nqueue).filter fun q => q % cfg.opt.ngroup = cfg.paxosGroupId

def consumerGroups : List ℕ := (List.range cfg.opt.nconsumerGroup).map (· + 1)

/-- `IsValidQueue(queue_id, pub_id, consumer_group_id)` for a publisher of the store. -/
def isConsumer (queueId consumerGroupId : ℕ) : Bool :=
  cfg.pubIds.any fun pubId => cfg.topic.isValidQueueOf queueId pubId consumerGroupId

variable {cfg}

lemma mem_consumerGroups {g : ℕ} :
    g ∈ cfg.consumerGroups ↔ g ≠ 0 ∧ g ≤ cfg.opt.nconsumerGroup := by
  unfold consumerGroups
  rw [List.mem_map]
  constructor
  · rintro ⟨i, hi, rfl⟩
    have := List.mem_range.mp hi
    omega
  · rintro ⟨h0, hle⟩
    exact ⟨g - 1, List.mem_range.mpr (by omega), by omega⟩

lemma mem_queues {q : ℕ} :
    q ∈ cfg.queues ↔ q < cfg.opt.nqueue ∧ q % cfg.opt.ngroup = cfg.paxosGroupId := by
  unfold queues
  rw [List.mem_filter, List.mem_range, decide_eq_true_eq]

end StoreConfig

/-! ## Adding -/

def needSkipAdd (cfg : StoreConfig) (metas : StoreMetaQueue) (cursorId : ℕ) (req : AddRequest) :
    Bool :=
  if req.items = [] then true else
  match metas.back with
  | some m => if m ≥ cursorId then true else !cfg.topic.isValidQueue req.queueId
  | none => !cfg.topic.isValidQueue req.queueId

/-- `BaseMgr::Add` on the meta queues. -/
def add (cfg : StoreConfig) (metas : ℕ → StoreMetaQueue) (cursorId : ℕ) (req : AddRequest) :
    Except RetCode (ℕ → StoreMetaQueue) :=
  match cfg.topic.getQueueInfoByQueue req.queueId with
  | .error ret => .error ret
  | .ok _ =>
    if req.items = [] then .ok metas else
    if needSkipAdd cfg (metas req.queueId) cursorId req then .ok metas
    else .ok (Function.update metas req.queueId ((metas req.queueId).pushBack cursorId))

def valuesOf (log : Log) (cursorId : ℕ) : List StorePaxosArgs := log[cursorId]?.getD []

/-- The items an instance holds for a queue, with their cursor. -/
def itemsOf (log : Log) (queueId cursorId : ℕ) : List QItem :=
  (valuesOf log cursorId).flatMap fun args =>
    match args.addReq with
    | none => []
    | some req =>
      if req.queueId = queueId then req.items.map fun item => { item with cursorId := cursorId }
      else []

/-- `GetItemsByCursorID`, with `GetInstanceValue`: instances from `now` on are not chosen yet, those
below `minChosen` no longer exist. -/
def getItemsByCursorID (log : Log) (now minChosen queueId cursorId : ℕ) :
    Except RetCode (List QItem) :=
  if now ≤ cursorId then .error .errPaxosNotChosen else
  if cursorId < minChosen then .ok [] else .ok (itemsOf log queueId cursorId)

/-! ## Getting -/

/-- `Store::SkipGet`, for a request of this topic and group. -/
def skipGet (topicId consumerGroupId : ℤ) (item : QItem) : Bool :=
  item.topicId ≠ topicId || groupBit consumerGroupId &&& item.consumerGroupIds = 0

/-- `Store::SkipGet` or `ShouldSkip`. -/
def skips (cfg : StoreConfig) (topicId : ℤ) (consumerGroupId : ℕ) (queueInfoId : ℤ) (item : QItem) :
    Bool :=
  skipGet topicId consumerGroupId item || cfg.topic.shouldSkip item consumerGroupId queueInfoId

/-- What the running `Get` does next with the shared state. -/
inductive GetPhase
  | svrPrev | checkPoint | minInstance | loop
  | items (cursorId : ℕ)
  | updatePrev | updateNext | done
deriving DecidableEq

/-- The variables of a running `Get`. -/
structure GetThread where
  req : GetRequest
  queueInfoId : ℤ
  cliPrev : ℕ
  cliNext : ℕ
  svrPrev : ℕ := uint64Max
  cp : ℕ := uint64Max
  minInstance : ℕ := uint64Max
  prev : ℕ
  next : ℕ
  i : ℕ := 0
  items : List QItem := []
  byteSize : ℕ := 0
  phase : GetPhase := .svrPrev
deriving DecidableEq

/-- `Get` up to the adjusted cursors; a random one keeps the client's. -/
def startGet (cfg : StoreConfig) (sync : SyncCtrl) (req : GetRequest) : Except RetCode GetThread :=
  match cfg.topic.getQueueInfoByQueue req.queueId with
  | .error ret => .error ret
  | .ok queueInfo =>
    if cfg.opt.nqueue ≤ req.queueId then .error .errRangeQueue else
    let thread (p n : ℕ) : GetThread :=
      { req := req, queueInfoId := queueInfo.queueInfoId, cliPrev := p, cliNext := n,
        prev := p, next := n }
    if req.random then .ok (thread req.prevCursorId req.nextCursorId) else
    match sync.adjustNextCursorID cfg.opt req.consumerGroupId req.queueId req.prevCursorId
        req.nextCursorId with
    | .ok (p, n) => .ok (thread p n)
    | .error ret =>
      if ret.asInteger < 0 then .error .errGetAdjustCursorIdFail
      else .ok (thread uint64Max uint64Max)

/-- Between the reads and the loop: a random `Get` starts at the stored prev cursor. -/
def enterLoop (t : GetThread) : GetThread :=
  if t.req.random then
    { t with
      prev := t.svrPrev
      next := if t.next < t.svrPrev then t.svrPrev else t.next
      phase := .loop }
  else { t with phase := .loop }

/-- The cursor a round of the loop looks at: the next meta, or below the checkpoint the next
instance of the log. -/
def nextCursor (t : GetThread) (metas : StoreMetaQueue) : Option ℕ :=
  if t.cp = uint64Max ∨ t.next ≥ t.cp then metas.next t.next
  else some (if t.minInstance ≠ uint64Max ∧ t.next < t.minInstance then t.minInstance
    else wrap64 (t.next + 1))

/-- A round of the loop up to `GetItemsByCursorID`; `timeUp` says whether the time limit has been
reached, which is not asked in the first round. -/
def loopStep (t : GetThread) (metas : StoreMetaQueue) (timeUp : Bool) : GetThread :=
  if ¬ (t.i < 512 ∧ t.items.length < t.req.limit) then { t with phase := .updatePrev } else
  if timeUp ∧ t.i ≠ 0 then { t with phase := .updatePrev } else
  match nextCursor t metas with
  | none => { t with phase := .updatePrev }
  | some cur =>
    if t.prev ≠ uint64Max ∧ t.prev ≥ cur then { t with next := cur, i := t.i + 1 }
    else { t with phase := .items cur }

/-- The item lies after the time the consumer waits for. -/
def afterAtime (req : GetRequest) (item : QItem) : Prop :=
  req.atime ≠ 0 ∧ (item.atime > req.atime ∨ (item.atime = req.atime ∧ item.atimeMs > req.atimeMs))

instance (req : GetRequest) (item : QItem) : Decidable (afterAtime req item) :=
  inferInstanceAs (Decidable (_ ∧ (_ ∨ _ ∧ _)))

/-- The rest of the round, with the items of the instance. -/
def takeItems (cfg : StoreConfig) (t : GetThread) (cur : ℕ) (items : List QItem) : GetThread :=
  match items with
  | [] => { t with next := cur, i := t.i + 1, phase := .loop }
  | item :: _ =>
    if t.items ≠ [] ∧ t.items.length + items.length > t.req.limit then
      { t with phase := .updatePrev } else
    if afterAtime t.req item then { t with phase := .updatePrev } else
    let kept := items.filter fun x =>
      !skips cfg t.req.topicId t.req.consumerGroupId t.queueInfoId x
    let byteSize := t.byteSize + (kept.map QItem.byteSize).sum
    { t with
      next := cur
      items := t.items ++ kept
      byteSize := byteSize
      i := t.i + 1
      phase := if byteSize ≥ cfg.topic.itemsByteSizeLimit then .updatePrev else .loop }

def GetThread.response (t : GetThread) : GetResponse := ⟨t.prev, t.next, t.items⟩

end PhxQueue.Store
