import PhxQueue.Store.Retention

/-!
# The replicas of a store and its consumers

The replicas of one store execute the same log, each at its own pace.  Consumers
(`consumer/consumer.cpp`) send them Gets; a request may be served by any replica, more than once or
never, and a response may be lost.

* `makeGetRequest`, `customGetRequest`, `ConsumerContext.update`   what a consumer sends, and what
                       it takes from a response;
* `Reply`              a response with the request it answers;
* `Cluster`, `cluster` the replicas, the consumers, and all requests and responses;
* `AckSafe`            no prev cursor passes an item that has not been acknowledged.

The number of a request is also the number of the thread that serves it.  `received` and
`acknowledged` are no variables of the source: the responses that consumers have received, and those
whose next cursor a later request of the receiver has carried as its prev cursor.
-/

set_option linter.unusedSectionVars false

namespace PhxQueue.Store
open Comm Lib Config

/-! ## Consumers -/

/-- `comm::proto::ConsumerContext`. -/
structure ConsumerContext where
  queueId : ℕ
  consumerGroupId : ℕ
  prevCursorId : ℕ := uint64Max
  nextCursorId : ℕ := uint64Max
deriving DecidableEq

/-- `UpdateConsumerContextByGetResponse`. -/
def ConsumerContext.update (cc : ConsumerContext) (resp : GetResponse) : ConsumerContext :=
  { cc with prevCursorId := resp.prevCursorId, nextCursorId := resp.nextCursorId }

/-- `MakeGetRequest`; the limit and the time come from the configuration and the clock. -/
def makeGetRequest (topicId : ℤ) (cc : ConsumerContext) (limit atime atimeMs : ℕ) : GetRequest where
  topicId := topicId
  queueId := cc.queueId
  limit := limit
  atime := atime
  atimeMs := atimeMs
  consumerGroupId := cc.consumerGroupId
  prevCursorId := cc.prevCursorId
  nextCursorId := cc.nextCursorId

/-- `CustomGetRequest`, unless a consumer overrides it. -/
def customGetRequest (req : GetRequest) : GetRequest := { req with prevCursorId := req.nextCursorId }

/-- A response of thread `request`, with the request it answers. -/
structure Reply where
  request : ℕ
  req : GetRequest
  resp : GetResponse
deriving DecidableEq

/-- A consumer has no context before it holds the lock of a queue.  It waits for the response to
one request at a time. -/
structure Consumer where
  cc : Option ConsumerContext := none
  waiting : Option ℕ := none
deriving DecidableEq

def GetRequest.Acknowledges (req : GetRequest) (reply : Reply) : Prop :=
  reply.req.queueId = req.queueId ∧ reply.req.consumerGroupId = req.consumerGroupId ∧
    reply.resp.nextCursorId = req.prevCursorId

instance (req : GetRequest) (reply : Reply) : Decidable (req.Acknowledges reply) :=
  inferInstanceAs (Decidable (_ ∧ _ ∧ _))

/-! ## State -/

structure Cluster (ι κ : Type*) where
  log : Log := []
  replicas : ι → Replica := fun _ => {}
  /-- The `SyncCtrlInfo` that replicas have read and proposed. -/
  proposed : List (List SyncDetail) := []
  consumers : κ → Consumer := fun _ => {}
  requests : List GetRequest := []
  replies : List Reply := []
  received : List (κ × Reply) := []
  acknowledged : List Reply := []

inductive ClusterEvent (ι κ : Type*)
  /-- The next instance is chosen. -/
  | choose (batch : List StorePaxosArgs)
  | replica (r : ι) (e : StoreEvent)
  /-- Replica `r` receives request `n`. -/
  | serve (r : ι) (n : ℕ)
  /-- Consumer `k` gets the lock of a queue, or keeps it. -/
  | lock (k : κ) (queueId consumerGroupId : ℕ)
  /-- It restarts, or turns to another store. -/
  | leave (k : κ)
  | send (k : κ) (limit atime atimeMs : ℕ)
  /-- It receives reply `m`. -/
  | receive (k : κ) (m : ℕ)
  /-- Its request fails or times out. -/
  | giveUp (k : κ)

/-! ## Steps -/

/-- What the keep-sync thread proposes at its next operation. -/
def Replica.proposal (s : Replica) : StoreEvent → Option (List SyncDetail)
  | .keepSync =>
    match s.keepSync with
    | .sync [] details => some details
    | _ => none
  | _ => none

/-- The response that the end of a thread sends. -/
def Replica.reply (s : Replica) : StoreEvent → Option Reply
  | .endGet n =>
    match s.gets n with
    | none => none
    | some t => if t.phase = .done then some ⟨n, t.req, t.response⟩ else none
  | _ => none

section
variable {ι κ : Type*} [DecidableEq ι] [DecidableEq κ] (cfg : StoreConfig)

namespace Cluster

def setReplica (w : Cluster ι κ) (r : ι) (s : Replica) : Cluster ι κ :=
  { w with replicas := Function.update w.replicas r s }

def setConsumer (w : Cluster ι κ) (k : κ) (c : Consumer) : Cluster ι κ :=
  { w with consumers := Function.update w.consumers k c }

/-- What is chosen are items, and cursors that have been proposed. -/
def Choosable (w : Cluster ι κ) (batch : List StorePaxosArgs) : Prop :=
  (∀ args ∈ batch, Proposable cfg args ∧
    (args.syncCtrlInfo = [] ∨ args.syncCtrlInfo ∈ w.proposed)) ∧ w.log.length + 1 < uint64Max

instance (w : Cluster ι κ) (batch : List StorePaxosArgs) : Decidable (w.Choosable cfg batch) :=
  inferInstanceAs (Decidable ((∀ args ∈ batch, Proposable cfg args ∧ _) ∧ _))

/-- The end of the loop of a consumer, when the lock is renewed or another one taken. -/
def lockStep (w : Cluster ι κ) (k : κ) (q g : ℕ) : Cluster ι κ :=
  match (w.consumers k).waiting with
  | some _ => w
  | none =>
    match (w.consumers k).cc with
    | none => w.setConsumer k { cc := some ⟨q, g, uint64Max, uint64Max⟩ }
    | some cc =>
      if cc.queueId = q ∧ cc.consumerGroupId = g then w
      else w.setConsumer k { cc := some ⟨q, g, uint64Max, uint64Max⟩ }

/-- A round of `Process` up to the request. -/
def sendStep (w : Cluster ι κ) (k : κ) (limit atime atimeMs : ℕ) : Cluster ι κ :=
  match (w.consumers k).waiting, (w.consumers k).cc with
  | none, some cc =>
    if cfg.topic.isValidQueueOf cc.queueId (-1) cc.consumerGroupId then
      let req := customGetRequest (makeGetRequest cfg.topicId cc limit atime atimeMs)
      { w.setConsumer k { cc := some cc, waiting := some w.requests.length } with
        requests := w.requests ++ [req]
        acknowledged := w.acknowledged ++
          (w.received.filter fun x => x.1 = k ∧ req.Acknowledges x.2).map Prod.snd }
    else w
  | _, _ => w

def receiveStep (w : Cluster ι κ) (k : κ) (m : ℕ) : Cluster ι κ :=
  match (w.consumers k).waiting, (w.consumers k).cc, w.replies[m]? with
  | some n, some cc, some reply =>
    if reply.request = n then
      { w.setConsumer k { cc := some (cc.update reply.resp) } with
        received := w.received ++ [(k, reply)] }
    else w
  | _, _, _ => w

def step (w : Cluster ι κ) : ClusterEvent ι κ → Cluster ι κ
  | .choose batch => if w.Choosable cfg batch then { w with log := w.log ++ [batch] } else w
  | .replica r e =>
    { w.setReplica r ((w.replicas r).step cfg w.log e) with
      proposed := w.proposed ++ ((w.replicas r).proposal e).toList
      replies := w.replies ++ ((w.replicas r).reply e).toList }
  | .serve r n =>
    match w.requests[n]? with
    | none => w
    | some req => w.setReplica r ((w.replicas r).startGetStep cfg n req)
  | .lock k q g => w.lockStep k q g
  | .leave k => w.setConsumer k {}
  | .send k limit atime atimeMs => w.sendStep cfg k limit atime atimeMs
  | .receive k m => w.receiveStep k m
  | .giveUp k => w.setConsumer k { cc := (w.consumers k).cc }

end Cluster

def cluster : Machine (Cluster ι κ) (ClusterEvent ι κ) where
  init := {}
  step := Cluster.step cfg

/-! ## Acknowledgement -/

/-- An item of instance `i` that a `Get` of the group does not skip. -/
def Wanted (log : Log) (q g i : ℕ) (item : QItem) : Prop :=
  item ∈ itemsOf log q i ∧ ∃ info, cfg.topic.getQueueInfoByQueue q = .ok info ∧
    skips cfg cfg.topicId g info.queueInfoId item = false

/-- The item has been returned to the group in a response that its receiver acknowledged. -/
def Acknowledged (acks : List Reply) (q g : ℕ) (item : QItem) : Prop :=
  ∃ reply ∈ acks, reply.req.queueId = q ∧ reply.req.consumerGroupId = g ∧ item ∈ reply.resp.items

/-- At every replica a prev cursor passes only items that have been acknowledged. -/
def AckSafe (w : Cluster ι κ) : Prop :=
  ∀ r q g p, ((w.replicas r).sync q g).prev = some p → ∀ i item, i ≤ p →
    Wanted cfg w.log q g i item → Acknowledged w.acknowledged q g item

end

/-- No operator replay and no clearing; Gets are sent by consumers, for queues of the store that
their groups consume. -/
def ConsumerEvent (cfg : StoreConfig) {ι κ : Type*} : ClusterEvent ι κ → Prop
  | .replica _ (.startGet _ _) | .replica _ (.startReplay _ _ _) | .replica _ (.clear _ _) => False
  | .lock _ q g => cfg.isConsumer q g
  | _ => True

instance (cfg : StoreConfig) {ι κ : Type*} :
    ∀ e : ClusterEvent ι κ, Decidable (ConsumerEvent cfg e)
  | .replica _ (.startGet _ _) | .replica _ (.startReplay _ _ _) | .replica _ (.clear _ _) =>
    inferInstanceAs (Decidable False)
  | .lock _ q g => inferInstanceAs (Decidable (cfg.isConsumer q g = true))
  | .choose _ | .serve _ _ | .leave _ | .send _ _ _ _ | .receive _ _ | .giveUp _
  | .replica _ .execute | .replica _ (.get _ _) | .replica _ (.endGet _) | .replica _ .startRound
  | .replica _ .startSync | .replica _ .keepSync | .replica _ (.truncate _)
  | .replica _ .restart => inferInstanceAs (Decidable True)

/-- At every replica no round that dumps has been overtaken. -/
def Cluster.NotOvertaken {ι κ : Type*} (w : Cluster ι κ) : ClusterEvent ι κ → Prop
  | .replica r e => Store.NotOvertaken (w.replicas r) e
  | _ => True

instance Cluster.decidableNotOvertaken {ι κ : Type*} (w : Cluster ι κ) :
    ∀ e, Decidable (w.NotOvertaken e)
  | .replica r e => inferInstanceAs (Decidable (Store.NotOvertaken (w.replicas r) e))
  | .choose _ | .serve _ _ | .lock _ _ _ | .leave _ | .send _ _ _ _ | .receive _ _ | .giveUp _ =>
    inferInstanceAs (Decidable True)

end PhxQueue.Store
