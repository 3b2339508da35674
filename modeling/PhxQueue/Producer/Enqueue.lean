import PhxQueue.Comm.MasterClient
import PhxQueue.Lib.Run
import PhxQueue.Producer.AddRequests

/-!
# Enqueuing

`Producer::Enqueue` with `SelectAndAdd`, `RawAdd` and the `BatchHelper`, run by any number of calls
at once.  With batching, the requests of several calls for one store and queue are joined in a
`BatchTask`; one of the callers or a daemon sends it, and all of them return what it returns.

* `makeItem`, `rawAdd`      the code of a call between its waits;
* `BatchTask`, `ready`, `batchReq`   a batch, when it is due, and the request it is sent as;
* `World`, `producer`       the calls, the batches, and what became of the requests;
* `Truthful`                a call that has returned `RET_OK` has got its item accepted;
* `Selects`                 the item of a call selects a queue info.
-/

set_option linter.unusedSectionVars false

namespace PhxQueue.Producer
open Comm Config Lib

/-- The arguments of `Enqueue`. -/
structure EnqueueArgs where
  topicId : ℤ
  uin : ℕ
  handleId : ℤ
  buffer : String
  pubId : ℤ := -1
  consumerGroupIds : Option (List ℤ) := none

def consumerGroupIDs2Mask : Option (List ℤ) → ℕ
  | none => uint64Max
  | some ids => ids.foldl
      (fun mask (id : ℤ) => if id > 0 then mask ||| groupBit id else mask) 0

/-- What becomes of a request in `RawAdd`: some store has added it, or it has been dropped, by this
configuration. -/
inductive Fate
  | added
  | dropped (topic : TopicConfig)

/-- A request that was accepted, for these calls. -/
structure Outcome (ι : Type) where
  callers : List ι
  req : AddRequest
  fate : Fate

/-- A dropped request was for a queue with `drop_all`. -/
def Outcome.Ok {ι : Type} (o : Outcome ι) : Prop :=
  match o.fate with
  | .added => True
  | .dropped topic => ∃ info, topic.getQueueInfoByQueue o.req.queueId = .ok info ∧ info.dropAll

/-- `RawAdd`; `env` is what `ClientCall` meets. -/
def rawAdd (topic : Option TopicConfig) (env : CallEnv) (req : AddRequest) : RetCode × List Fate :=
  if req.items = [] then (.ok, []) else
  match topic with
  | none => (.errRangeTopic, [])
  | some topic =>
    match topic.getQueueInfoByQueue req.queueId with
    | .error ret => (ret, [])
    | .ok info =>
      if info.dropAll then (.ok, [.dropped topic])
      else ((clientCall env).ret, if .ok ∈ (clientCall env).rets then [.added] else [])

/-- Where a call of `Enqueue` stands: `reqs` are the requests after the one under way, `nretry` is
`nretry_raw_add`. -/
inductive CallPhase
  /-- Before `SelectAndAdd` with the first of these. -/
  | start (reqs : List AddRequest)
  | select (req : AddRequest) (reqs : List AddRequest) (nretry : ℤ)
  /-- The queue and the store have been set. -/
  | add (req : AddRequest) (reqs : List AddRequest) (nretry : ℤ)
  /-- The request is in batch `n`. -/
  | wait (n : ℕ) (req : AddRequest) (reqs : List AddRequest) (nretry : ℤ)
  | done (ret : RetCode)

structure Call where
  item : QItem
  phase : CallPhase

/-! ## Batches -/

def wrap32 (n : ℕ) : ℕ := n % 2 ^ 32

inductive BatchStatus
  /-- It takes more tasks. -/
  | collecting
  | taken
  | done (ret : RetCode)
deriving DecidableEq

/-- `BatchTask`; a task is a call and its request. -/
structure BatchTask (ι : Type) where
  tasks : List (ι × AddRequest) := []
  nbyte : ℕ := 0
  nitems : ℕ := 0
  startTimestampMs : ℕ := 0
  itemsByteSizeLimit : ℕ := 0
  batchLimit : ℕ := 0
  producerBatchDelayTimeMs : ℕ := 0
  status : BatchStatus := .collecting

section
variable {ι : Type} (reqByteSize : AddRequest → ℕ)

/-- `BatchTask::Init`; the limits stay 0 without a configuration. -/
def initBatch (topic : Option TopicConfig) : BatchTask ι :=
  match topic with
  | none => {}
  | some topic =>
    { itemsByteSizeLimit := wrap32 topic.itemsByteSizeLimit
      batchLimit := (topic.batchLimit % 2 ^ 32).toNat
      producerBatchDelayTimeMs := topic.producerBatchDelayTimeMs }

def BatchTask.addTask (b : BatchTask ι) (now : ℕ) (c : ι) (req : AddRequest) : BatchTask ι :=
  { b with
    startTimestampMs := if b.startTimestampMs = 0 then now else b.startTimestampMs
    nbyte := wrap32 (b.nbyte + reqByteSize req)
    nitems := wrap32 (b.nitems + req.items.length)
    tasks := b.tasks ++ [(c, req)] }

def BatchTask.ready (b : BatchTask ι) (now : ℕ) : Prop :=
  b.nitems ≠ 0 ∧ b.startTimestampMs ≠ 0 ∧
    (wrap32 (b.nbyte * 2) ≥ b.itemsByteSizeLimit ∨ wrap32 (b.nitems * 2) ≥ b.batchLimit ∨
      b.startTimestampMs + b.producerBatchDelayTimeMs ≤ now)

instance (b : BatchTask ι) (now : ℕ) : Decidable (b.ready now) :=
  inferInstanceAs (Decidable (_ ∧ _ ∧ (_ ∨ _ ∨ _)))

/-- One round of the loop that joins the requests. -/
def joinReq (batch : AddRequest) (t : ι × AddRequest) : AddRequest :=
  if batch.items = [] then t.2 else { batch with items := batch.items ++ t.2.items }

/-- The request `BatchTask::Process` sends. -/
def batchReq (tasks : List (ι × AddRequest)) : AddRequest :=
  tasks.foldl joinReq ⟨0, 0, 0, []⟩

/-! ## The producer -/

/-- `batches` are all batches there have been; `batchInfos` says which one collects the tasks of a
topic, store and queue. -/
structure World (ι : Type) where
  calls : ι → Option Call := fun _ => none
  batches : List (BatchTask ι) := []
  batchInfos : ℤ × ℤ × ℤ → Option ℕ := fun _ => none
  outcomes : List (Outcome ι) := []

inductive Event (ι : Type)
  /-- `Enqueue` up to its requests, with the configurations it and `MakeAddRequests` read and what
  `DecidePubIDOnEnqueue` decides. -/
  | enqueue (c : ι) (args : EnqueueArgs) (topic : Option TopicConfig) (decided : ℤ)
      (makeTopic : Option TopicConfig) (now : ℕ)
  | selectAndAdd (c : ι) (topic : Option TopicConfig)
  /-- What the selectors return. -/
  | select (c : ι) (queue store : RetCode × ℤ)
  | rawAdd (c : ι) (topic : Option TopicConfig) (env : CallEnv)
  | batchRawAdd (c : ι) (topic : Option TopicConfig) (now : ℕ)
  /-- A daemon takes a batch. -/
  | dispatch (key : ℤ × ℤ × ℤ) (now : ℕ)
  /-- Whoever has taken batch `n` sends it, and notifies the callers. -/
  | process (n : ℕ) (topic : Option TopicConfig) (env : CallEnv)
  /-- A caller sees what its batch returned. -/
  | wake (c : ι)

variable [DecidableEq ι] (byteSize : QItem → ℕ) (compress : String → String) (batching : Bool)

/-- The item of a call; `byteSize` is the size of the message. -/
def makeItem (args : EnqueueArgs) (pubId : ℤ) (now : ℕ) : QItem :=
  let item : QItem :=
    { topicId := args.topicId
      pubId := pubId
      uin := args.uin
      handleId := args.handleId
      consumerGroupIds := consumerGroupIDs2Mask args.consumerGroupIds
      atime := now / 1000
      atimeMs := now % 1000
      cursorId := uint64Max
      data := compress args.buffer }
  { item with byteSize := byteSize item }

/-- The loop of `Enqueue` over its requests. -/
def nextReq (reqs : List AddRequest) : CallPhase := if reqs = [] then .done .ok else .start reqs

/-- The end of a round of `SelectAndAdd`. -/
def endRound (ret : RetCode) (req : AddRequest) (reqs : List AddRequest) (nretry : ℤ) : CallPhase :=
  if 0 ≤ ret.asInteger ∧ ret ≠ .errNotMaster ∧ ret ≠ .errNoMaster then
    if ret = .ok then nextReq reqs else .done ret
  else if 0 ≤ nretry - 1 then .select req reqs (nretry - 1) else .done ret

/-- The publisher `Enqueue` uses. -/
def decidePubID (args : EnqueueArgs) (decided : ℤ) : ℤ :=
  if args.pubId = -1 then decided else args.pubId

/-- `Enqueue` up to its requests. -/
def beginEnqueue (args : EnqueueArgs) (topic : Option TopicConfig) (decided : ℤ)
    (makeTopic : Option TopicConfig) (now : ℕ) : CallPhase :=
  let pubId := decidePubID args decided
  match topic with
  | none => .done .errRangeTopic
  | some topic =>
    if pubId = -1 ∨ topic.pubId2pub pubId = none then .done .errRangePub else
    match makeAddRequests args.topicId makeTopic [makeItem byteSize compress args pubId now] with
    | .error ret => .done ret
    | .ok reqs => nextReq reqs

namespace World

def setCall (w : World ι) (c : ι) (call : Call) : World ι :=
  { w with calls := Function.update w.calls c (some call) }

def addOutcomes (w : World ι) (callers : List ι) (req : AddRequest) (fates : List Fate) : World ι :=
  { w with outcomes := w.outcomes ++ fates.map fun fate => ⟨callers, req, fate⟩ }

/-- `AddTask` under the lock of the batch: a batch that is ready is taken from the map. -/
def addToBatch (w : World ι) (c : ι) (req : AddRequest) (topic : Option TopicConfig) (now : ℕ) :
    World ι × ℕ :=
  let key := (req.topicId, req.storeId, req.queueId)
  let n := (w.batchInfos key).getD w.batches.length
  let batches := if n < w.batches.length then w.batches else w.batches ++ [initBatch topic]
  let b := (batches.getD n {}).addTask reqByteSize now c req
  if b.ready now then
    ({ w with
      batches := batches.set n { b with status := .taken }
      batchInfos := Function.update w.batchInfos key none }, n)
  else
    ({ w with
      batches := batches.set n b
      batchInfos := Function.update w.batchInfos key (some n) }, n)

/-- One step; an event that is not due changes nothing. -/
def step (w : World ι) : Event ι → World ι
  | .enqueue c args topic decided makeTopic now =>
    match w.calls c with
    | some _ => w
    | none =>
      let item := makeItem byteSize compress args (decidePubID args decided) now
      w.setCall c ⟨item, beginEnqueue byteSize compress args topic decided makeTopic now⟩
  | .selectAndAdd c topic =>
    match w.calls c with
    | some ⟨item, .start (req :: reqs)⟩ =>
      w.setCall c ⟨item,
        if req.items = [] then nextReq reqs else
        match topic with
        | none => .done .errRangeTopic
        | some topic => .select req reqs topic.producerNretryRawAdd⟩
    | _ => w
  | .select c queue store =>
    match w.calls c with
    | some ⟨item, .select req reqs nretry⟩ =>
      w.setCall c ⟨item,
        if queue.1 ≠ .ok then .done queue.1 else
        if store.1 ≠ .ok then .done store.1 else
        .add { req with queueId := queue.2, storeId := store.2 } reqs nretry⟩
    | _ => w
  | .rawAdd c topic env =>
    match w.calls c with
    | some ⟨item, .add req reqs nretry⟩ =>
      if batching then w else
      let r := Producer.rawAdd topic env req
      (w.addOutcomes [c] req r.2).setCall c ⟨item, endRound r.1 req reqs nretry⟩
    | _ => w
  | .batchRawAdd c topic now =>
    match w.calls c with
    | some ⟨item, .add req reqs nretry⟩ =>
      if batching then
        let r := w.addToBatch reqByteSize c req topic now
        r.1.setCall c ⟨item, .wait r.2 req reqs nretry⟩
      else w
    | _ => w
  | .dispatch key now =>
    match w.batchInfos key with
    | none => w
    | some n =>
      match w.batches[n]? with
      | none => w
      | some b =>
        if b.ready now then
          { w with
            batches := w.batches.set n { b with status := .taken }
            batchInfos := Function.update w.batchInfos key none }
        else w
  | .process n topic env =>
    match w.batches[n]? with
    | none => w
    | some b =>
      if b.status = .taken then
        let r := Producer.rawAdd topic env (batchReq b.tasks)
        { w with batches := w.batches.set n { b with status := .done r.1 } }.addOutcomes
          (b.tasks.map Prod.fst) (batchReq b.tasks) r.2
      else w
  | .wake c =>
    match w.calls c with
    | some ⟨item, .wait n req reqs nretry⟩ =>
      match (w.batches[n]?).map BatchTask.status with
      | some (.done ret) => w.setCall c ⟨item, endRound ret req reqs nretry⟩
      | _ => w
    | _ => w

end World

def producer : Machine (World ι) (Event ι) where
  init := {}
  step := World.step reqByteSize byteSize compress batching

/-- An item of a call is in a request that a store has added, or that was dropped. -/
def Accepted (w : World ι) (c : ι) (item : QItem) : Prop :=
  ∃ o ∈ w.outcomes, c ∈ o.callers ∧ item ∈ o.req.items ∧ o.Ok

/-- **The acknowledgement is truthful.** -/
def Truthful (w : World ι) : Prop :=
  ∀ c call, w.calls c = some call → call.phase = .done .ok → Accepted w c call.item

/-- When `Enqueue` gets to make its requests, `GetQueueInfoIDByCount` finds a queue info. -/
def Selects (w : World ι) : Event ι → Prop
  | .enqueue c args (some topic) decided (some makeTopic) now =>
    let pubId := decidePubID args decided
    w.calls c = none → pubId ≠ -1 → topic.pubId2pub pubId ≠ none →
      (queueInfoOf makeTopic (makeItem byteSize compress args pubId now)).isSome
  | _ => True

end

end PhxQueue.Producer
