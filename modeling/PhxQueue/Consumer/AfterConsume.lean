import PhxQueue.Lib.Run
import PhxQueue.Producer.AddRequests
import PhxQueue.Store.BaseMgr

/-!
# Sending items back

The pull thread of a worker process: `Process` of `consumer/consumer.cpp` gets a batch of items, has
them handled, and `AfterConsume` sends back the ones that failed, before the next `Get` acknowledges
the batch.

* `afterConsume`         the requests of a handled batch;
* `PullThread`, `pull`   the loop, one request at a time;
* `due`                  the items that have to be sent back;
* `RetryComplete`        they are, each once, before the next `Get`, and no others;
* `retryComplete_iff`    **exactly when the topic is found for every batch with such items, and the
                         first item for every queue info fits a request**;
* `updatedBuffer_not_retryComplete`   an item that its handler has made too large.
-/

set_option linter.unusedSectionVars false

namespace PhxQueue.Consumer
open Comm PhxQueue.Config Lib Producer

/-- `comm::HandleResult`. -/
inductive HandleResult
  | ok | error | ignore
deriving DecidableEq

/-- `comm::proto::ConsumerContext`. -/
structure ConsumerContext where
  topicId : ℤ
  consumerGroupId : ℕ := 0
  storeId : ℕ := 0
  queueId : ℕ := 0
  prevCursorId : ℕ := uint64Max
  nextCursorId : ℕ := uint64Max
deriving DecidableEq

section
variable (byteSize : QItem → ℕ)

/-- The `item_update_func` of `AfterConsume` of a consumer group at time `now`. -/
def updateItem (consumerGroupId : ℤ) (now : ℕ) (item : QItem) : QItem :=
  { item with
    count := item.count + 1
    consumerGroupIds := groupBit consumerGroupId
    atime := now / 1000
    atimeMs := now % 1000 }

/-- An item to send back; `byteSize` is the size of the message that results. -/
def retryItem (cc : ConsumerContext) (now : ℕ) (item : QItem) : QItem :=
  let item := updateItem cc.consumerGroupId now item
  { item with byteSize := byteSize item }

/-- The items with `RES_ERROR`. -/
def retryItems (items : List QItem) (results : List HandleResult) : List QItem :=
  (items.zip results).filterMap fun x => if x.2 = .error then some x.1 else none

/-- The copies `MakeAddRequests` makes of them; the clock is read for each. -/
def newItems (cc : ConsumerContext) (clock : ℕ → ℕ) (items : List QItem)
    (results : List HandleResult) : List QItem :=
  (retryItems items results).mapIdx fun i item => retryItem byteSize cc (clock i) item

/-- `AfterConsume` up to the requests it sends. -/
def afterConsume (cc : ConsumerContext) (topic : Option TopicConfig) (clock : ℕ → ℕ)
    (items : List QItem) (results : List HandleResult) : List AddRequest :=
  if results.length < items.length then [] else
  if retryItems items results = [] then [] else
  match makeAddRequests cc.topicId topic (newItems byteSize cc clock items results) with
  | .error _ => []
  | .ok reqs => reqs.filter fun req => req.items ≠ []

/-- The items that have to be sent back: their retry count still selects a queue info. -/
def due (cc : ConsumerContext) (topic : TopicConfig) (clock : ℕ → ℕ)
    (items : List QItem) (results : List HandleResult) : List QItem :=
  (newItems byteSize cc clock items results).filter fun item => (queueInfoOf topic item).isSome

/-! ## The pull thread -/

inductive PullPhase
  /-- Before a `Get`. -/
  | getting
  /-- In `AfterConsume`, trying the first of these requests. -/
  | adding (reqs : List AddRequest)
deriving DecidableEq

/-- The pull thread.  Of the last batch `due` are the items to send back, `tried` and `sent` the
requests it has called `Add` with, and those for which `Add` succeeded. -/
structure PullThread where
  cc : ConsumerContext
  phase : PullPhase := .getting
  due : List QItem := []
  tried : List AddRequest := []
  sent : List AddRequest := []

inductive PullEvent
  /-- `Process` has returned, and `Lock` assigns a queue. -/
  | lock (consumerGroupId storeId queueId : ℕ)
  /-- A `Get`, which acknowledges what was got before, and its reply, handled; `topic` and `clock`
  are what `AfterConsume` reads. -/
  | get (reply : Except RetCode Store.GetResponse) (handle : ℕ → QItem → QItem × HandleResult)
      (topic : Option TopicConfig) (clock : ℕ → ℕ)
  /-- `Add` returns. -/
  | add (ret : RetCode)

variable (topic : TopicConfig)

namespace PullThread

def lock (s : PullThread) (consumerGroupId storeId queueId : ℕ) : PullThread :=
  match s.phase with
  | .adding _ => s
  | .getting =>
    if s.cc.consumerGroupId = consumerGroupId ∧ s.cc.storeId = storeId ∧ s.cc.queueId = queueId
    then s
    else { s with cc := ⟨s.cc.topicId, consumerGroupId, storeId, queueId, uint64Max, uint64Max⟩ }

/-- What `Process` reads of the configuration before it gets anything. -/
def queueInfo (s : PullThread) : Option QueueInfo :=
  if topic.isValidQueueOf s.cc.queueId (-1) s.cc.consumerGroupId then
    (topic.getQueueInfoByQueue s.cc.queueId).toOption
  else none

def handled (s : PullThread) (queueInfo : QueueInfo) (resp : Store.GetResponse)
    (handle : ℕ → QItem → QItem × HandleResult) : List (QItem × HandleResult) :=
  (resp.items.filter fun item =>
    !topic.shouldSkip item s.cc.consumerGroupId queueInfo.queueInfoId).mapIdx handle

def get (s : PullThread) (reply : Except RetCode Store.GetResponse)
    (handle : ℕ → QItem → QItem × HandleResult) (retryTopic : Option TopicConfig)
    (clock : ℕ → ℕ) : PullThread :=
  match s.phase with
  | .adding _ => s
  | .getting =>
    match s.queueInfo topic with
    | none => s
    | some queueInfo =>
      match reply with
      | .error _ => s
      | .ok resp =>
        let cc := { s.cc with
          prevCursorId := resp.prevCursorId
          nextCursorId := resp.nextCursorId }
        if queueInfo.dropAll then { cc := cc } else
        let handled := s.handled topic queueInfo resp handle
        let items := handled.map Prod.fst
        let results := handled.map Prod.snd
        let reqs := afterConsume byteSize cc retryTopic clock items results
        { cc := cc
          phase := if reqs = [] then .getting else .adding reqs
          -- where `AfterConsume` finds no topic, the one that `Process` has read counts
          due := Consumer.due byteSize cc (retryTopic.getD topic) clock items results }

def add (s : PullThread) (ret : RetCode) : PullThread :=
  match s.phase with
  | .getting => s
  | .adding [] => s
  | .adding (req :: reqs) =>
    if ret ≠ .ok then { s with tried := s.tried ++ [req] }
    else
      { s with
        phase := if reqs = [] then .getting else .adding reqs
        tried := s.tried ++ [req]
        sent := s.sent ++ [req] }

def step (s : PullThread) : PullEvent → PullThread
  | .lock g st q => s.lock g st q
  | .get reply handle retryTopic clock => s.get byteSize topic reply handle retryTopic clock
  | .add ret => s.add ret

end PullThread

def pull (topicId : ℤ) : Machine PullThread PullEvent where
  init := { cc := { topicId := topicId } }
  step := PullThread.step byteSize topic

/-- **Retry is complete.**  Before the next `Get` each item that is due is in exactly one of the
requests that succeeded; and at no time is anything else sent back. -/
structure RetryComplete (s : PullThread) : Prop where
  complete : s.phase = .getting → (s.sent.flatMap AddRequest.items).Perm s.due
  sent : (s.sent.flatMap AddRequest.items).Subperm s.due
  tried : ∀ req ∈ s.tried, req.items.Subperm s.due

/-- `MakeAddRequests` finds the topic, and the first of the items for each queue info fits a request;
or there is no topic, and no item selects a queue info. -/
def BatchFits (retryTopic : Option TopicConfig) (items : List QItem) : Prop :=
  match retryTopic with
  | some retryTopic => FirstsFit retryTopic items
  | none => ∀ item ∈ items, queueInfoOf topic item = none

def RetryFits (s : PullThread) : PullEvent → Prop
  | .get (.ok resp) handle retryTopic clock =>
    ∀ queueInfo ∈ s.queueInfo topic, s.phase = .getting → queueInfo.dropAll = false →
      let handled := s.handled topic queueInfo resp handle
      BatchFits topic retryTopic
        (newItems byteSize s.cc clock (handled.map Prod.fst) (handled.map Prod.snd))
  | _ => True

variable {byteSize topic}

/-! ## A batch -/

lemma newItems_nil {cc : ConsumerContext} {clock : ℕ → ℕ} {items : List QItem}
    {results : List HandleResult} (h : retryItems items results = []) :
    newItems byteSize cc clock items results = [] := by
  unfold newItems
  rw [h]
  rfl

/-- **The requests of a batch whose first items fit** hold what is due. -/
lemma afterConsume_perm {cc : ConsumerContext} {retryTopic : TopicConfig} {clock : ℕ → ℕ}
    {items : List QItem} {results : List HandleResult} (hlen : items.length ≤ results.length)
    (hfit : FirstsFit retryTopic (newItems byteSize cc clock items results)) :
    ((afterConsume byteSize cc (some retryTopic) clock items results).flatMap AddRequest.items).Perm
      (due byteSize cc retryTopic clock items results) := by
  unfold afterConsume due
  rw [if_neg (by omega)]
  by_cases hnil : retryItems items results = []
  · rw [if_pos hnil, newItems_nil hnil]
    exact List.Perm.nil
  rw [if_neg hnil]
  obtain ⟨reqs, hmake, hperm, hne⟩ := makeAddRequests_perm cc.topicId hfit
  rw [hmake]
  have hall : reqs.filter (fun req => req.items ≠ []) = reqs :=
    List.filter_eq_self.mpr fun req hreq => decide_eq_true (hne req hreq)
  dsimp only
  rw [hall]
  exact hperm

lemma afterConsume_error {cc : ConsumerContext} {retryTopic : TopicConfig} {clock : ℕ → ℕ}
    {items : List QItem} {results : List HandleResult}
    (hfit : ¬ FirstsFit retryTopic (newItems byteSize cc clock items results)) :
    afterConsume byteSize cc (some retryTopic) clock items results = [] ∧
      due byteSize cc retryTopic clock items results ≠ [] := by
  constructor
  · unfold afterConsume
    rw [makeAddRequests_error cc.topicId hfit]
    simp
  · obtain ⟨item, hitem, hsome⟩ := exists_of_not_firstsFit hfit
    exact List.ne_nil_of_mem (List.mem_filter.mpr ⟨hitem, hsome⟩)

lemma afterConsume_noTopic (cc : ConsumerContext) (clock : ℕ → ℕ) (items : List QItem)
    (results : List HandleResult) : afterConsume byteSize cc none clock items results = [] := by
  unfold afterConsume makeAddRequests
  simp

lemma due_eq_nil_iff {cc : ConsumerContext} {clock : ℕ → ℕ} {items : List QItem}
    {results : List HandleResult} : due byteSize cc topic clock items results = [] ↔
      ∀ item ∈ newItems byteSize cc clock items results, queueInfoOf topic item = none := by
  unfold due
  simp only [List.filter_eq_nil_iff, Option.not_isSome_iff_eq_none]

lemma afterConsume_of_fits {cc : ConsumerContext} {retryTopic : Option TopicConfig} {clock : ℕ → ℕ}
    {items : List QItem} {results : List HandleResult} (hlen : items.length ≤ results.length)
    (hfit : BatchFits topic retryTopic (newItems byteSize cc clock items results)) :
    ((afterConsume byteSize cc retryTopic clock items results).flatMap AddRequest.items).Perm
      (due byteSize cc (retryTopic.getD topic) clock items results) := by
  cases retryTopic with
  | none =>
    rw [afterConsume_noTopic, Option.getD_none, due_eq_nil_iff.mpr hfit]
    exact List.Perm.nil
  | some retryTopic => exact afterConsume_perm hlen hfit

/-- A batch that does not fit sends nothing of what is due. -/
lemma afterConsume_of_not_fits {cc : ConsumerContext} {retryTopic : Option TopicConfig}
    {clock : ℕ → ℕ} {items : List QItem} {results : List HandleResult}
    (hfit : ¬ BatchFits topic retryTopic (newItems byteSize cc clock items results)) :
    afterConsume byteSize cc retryTopic clock items results = [] ∧
      due byteSize cc (retryTopic.getD topic) clock items results ≠ [] := by
  cases retryTopic with
  | none => exact ⟨afterConsume_noTopic .., fun hnil => hfit (due_eq_nil_iff.mp hnil)⟩
  | some retryTopic => exact afterConsume_error hfit

/-! ## Runs -/

def PullPhase.reqs : PullPhase → List AddRequest
  | .getting => []
  | .adding reqs => reqs

structure PullThread.Inv (s : PullThread) : Prop where
  all : ((s.sent ++ s.phase.reqs).flatMap AddRequest.items).Perm s.due
  tried : ∀ req ∈ s.tried, req ∈ s.sent ++ s.phase.reqs

lemma subperm_of_mem {reqs : List AddRequest} {req : AddRequest} (h : req ∈ reqs) :
    req.items.Subperm (reqs.flatMap AddRequest.items) :=
  (List.sublist_flatten_of_mem (List.mem_map_of_mem h)).subperm

lemma PullThread.Inv.retryComplete {s : PullThread} (h : s.Inv) : RetryComplete s := by
  refine ⟨fun hp => ?_, ?_, fun req hreq => ?_⟩
  · have hall := h.all
    rw [hp] at hall
    unfold PullPhase.reqs at hall
    rwa [List.append_nil] at hall
  · refine List.Subperm.trans ?_ h.all.subperm
    rw [List.flatMap_append]
    exact (List.sublist_append_left _ _).subperm
  · exact (subperm_of_mem (h.tried req hreq)).trans h.all.subperm

lemma PullThread.Inv.add {s : PullThread} (h : s.Inv) (ret : RetCode) : (s.add ret).Inv := by
  obtain ⟨cc, phase, due, tried, sent⟩ := s
  cases phase with
  | getting => exact h
  | adding reqs =>
    cases reqs with
    | nil => exact h
    | cons req reqs =>
      have hreq : req ∈ sent ++ req :: reqs :=
        List.mem_append_right _ List.mem_cons_self
      have htried : ∀ r ∈ tried ++ [req], r ∈ sent ++ req :: reqs := by
        intro r hr
        rcases List.mem_append.mp hr with hr | hr
        · exact h.tried r hr
        · rwa [List.mem_singleton.mp hr]
      unfold PullThread.add
      dsimp only
      by_cases hret : ret ≠ .ok
      · rw [if_pos hret]
        exact ⟨h.all, htried⟩
      · rw [if_neg hret]
        have hreqs : (if reqs = [] then PullPhase.getting else .adding reqs).reqs = reqs := by
          by_cases hnil : reqs = []
          · rw [if_pos hnil, hnil]
            rfl
          · rw [if_neg hnil]
            rfl
        have happ : sent ++ [req] ++ reqs = sent ++ req :: reqs := by simp
        refine ⟨?_, ?_⟩
        · dsimp only
          rw [hreqs, happ]
          exact h.all
        · dsimp only
          rw [hreqs, happ]
          exact htried

lemma PullThread.Inv.lock {s : PullThread} (h : s.Inv) (g st q : ℕ) : (s.lock g st q).Inv := by
  unfold PullThread.lock
  split
  · exact h
  split
  · exact h
  · exact ⟨h.all, h.tried⟩

lemma length_handled_eq {l : List (QItem × HandleResult)} :
    (l.map Prod.fst).length ≤ (l.map Prod.snd).length := by
  rw [List.length_map, List.length_map]

/-- A new batch, all of whose requests are still to be sent. -/
lemma inv_of_perm {cc : ConsumerContext} {reqs : List AddRequest} {due : List QItem}
    (h : (reqs.flatMap AddRequest.items).Perm due) :
    PullThread.Inv { cc := cc, phase := if reqs = [] then .getting else .adding reqs, due := due } := by
  by_cases hnil : reqs = []
  · rw [if_pos hnil]
    rw [hnil] at h
    exact ⟨h, fun _ hr => absurd hr List.not_mem_nil⟩
  · rw [if_neg hnil]
    exact ⟨h, fun _ hr => absurd hr List.not_mem_nil⟩

lemma PullThread.Inv.get {s : PullThread} (h : s.Inv) {reply : Except RetCode Store.GetResponse}
    {handle : ℕ → QItem → QItem × HandleResult} {retryTopic : Option TopicConfig}
    {clock : ℕ → ℕ} (hok : RetryFits byteSize topic s (.get reply handle retryTopic clock)) :
    (s.get byteSize topic reply handle retryTopic clock).Inv := by
  unfold PullThread.get
  split
  · exact h
  rename_i hphase
  split
  · exact h
  rename_i queueInfo hinfo
  cases reply with
  | error ret => exact h
  | ok resp =>
    dsimp only
    split
    · exact ⟨List.Perm.nil, fun _ hr => absurd hr List.not_mem_nil⟩
    rename_i hdrop
    apply inv_of_perm
    refine afterConsume_of_fits length_handled_eq ?_
    exact hok queueInfo hinfo hphase (Bool.eq_false_iff.mpr hdrop)

/-- After a step that does not fit, a batch is due and nothing will be sent. -/
lemma not_retryComplete_of_not_fits {s : PullThread} {e : PullEvent}
    (h : ¬ RetryFits byteSize topic s e) : ¬ RetryComplete (s.step byteSize topic e) := by
  cases e with
  | lock g st q => exact absurd trivial h
  | add ret => exact absurd trivial h
  | get reply handle retryTopic clock =>
    cases reply with
    | error ret => exact absurd trivial h
    | ok resp =>
      unfold RetryFits at h
      push Not at h
      obtain ⟨queueInfo, hinfo, hphase, hdrop, hfit⟩ := h
      have hinfo : s.queueInfo topic = some queueInfo := hinfo
      intro hcomplete
      unfold PullThread.step PullThread.get at hcomplete
      rw [hphase, hinfo] at hcomplete
      dsimp only at hcomplete
      rw [if_neg (Bool.eq_false_iff.mp hdrop)] at hcomplete
      have hfit' : ¬ BatchFits topic retryTopic (newItems byteSize
          { s.cc with prevCursorId := resp.prevCursorId, nextCursorId := resp.nextCursorId } clock
          ((s.handled topic queueInfo resp handle).map Prod.fst)
          ((s.handled topic queueInfo resp handle).map Prod.snd)) := hfit
      obtain ⟨hnil, hdue⟩ := afterConsume_of_not_fits hfit'
      have hperm := hcomplete.complete (by rw [hnil]; rfl)
      exact hdue (List.nil_perm.mp hperm)

/-- **Retry is complete in a run** exactly when for every batch with items to send back the topic is
found, and the first of them for each queue info fits a request. -/
theorem retryComplete_iff (byteSize : QItem → ℕ) (topic : TopicConfig) (topicId : ℤ)
    (es : List PullEvent) :
    (pull byteSize topic topicId).Always RetryComplete (pull byteSize topic topicId).init es ↔
      (pull byteSize topic topicId).Along (RetryFits byteSize topic)
        (pull byteSize topic topicId).init es := by
  have hstep : ∀ (s : PullThread) e, s.Inv → RetryFits byteSize topic s e →
      (s.step byteSize topic e).Inv := by
    intro s e h hok
    cases e with
    | lock g st q => exact h.lock g st q
    | get reply handle retryTopic clock => exact h.get hok
    | add ret => exact h.add ret
  have hinit : (pull byteSize topic topicId).init.Inv :=
    ⟨List.Perm.nil, fun _ hr => absurd hr List.not_mem_nil⟩
  exact Machine.always_iff_along (fun _ h => h.retryComplete) hstep
    (fun _ _ _ h => not_retryComplete_of_not_fits h) hinit es

end

/-! ## An updated buffer -/

/-- One queue for the first try and one for every other; a request holds 8 bytes. -/
def retryTopic : TopicConfig where
  pubs := [⟨1, [1], [1, 2]⟩]
  queueInfos := [⟨1, [(0, 0)], false, 1⟩, ⟨2, [(1, 1)], false, -1⟩]
  itemsByteSizeLimit := 8

/-- Two items are got and fail; the handler of the first has updated its buffer. -/
def updatedBuffer : List PullEvent :=
  [.lock 1 1 0,
    .get (.ok ⟨uint64Max, 0, [{ pubId := 1, data := "a" }, { pubId := 1, data := "b" }]⟩)
      (fun i item => ((if i = 0 then { item with data := "aaaaaaaaa" } else item), .error))
      (some retryTopic) (fun _ => 0)]

/-- **Counterexample.**  The first item is too large; neither item is sent back, and the next `Get`
acknowledges both. -/
theorem updatedBuffer_not_retryComplete :
    ¬ (pull (fun item => item.data.length) retryTopic 1).Always RetryComplete
      (pull (fun item => item.data.length) retryTopic 1).init updatedBuffer := by
  intro h
  have hperm := h.last.complete (by decide)
  exact absurd hperm.length_eq (by decide)

end PhxQueue.Consumer
