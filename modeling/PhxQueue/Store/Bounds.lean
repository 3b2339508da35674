import PhxQueue.Lib.Traced
import PhxQueue.Config.Rebuild
import PhxQueue.Store.CheckRequest
import PhxQueue.Store.StoreMeta

/-!
# Where the store indexes

Queue and consumer group ids of requests are `int32`s, and index `meta_queues`, the cursor buffer and
the locks of `SyncCtrl`: `BaseMgr::Add` and `Get`, `SyncCtrl`'s operations and `StoreSM::Execute`, with
their accesses.  Ids are integers of any sign here.

* `SyncCtrl.init`, `getIdx`, `withItem`   the table, and what all its operations do first;
* `add`, `get`, `syncCursorID`, `execute`   the code, each with its accesses;
* `Safe`                      within bounds;
* `getIdx_inj`                **valid pairs have slots of their own**;
* `within_add_iff`, `within_get_iff`, `within_syncCursorID_iff`   when all is within bounds;
* `accepted_within_iff`       **the requests and the values for which it is**.
-/

set_option linter.unusedSectionVars false

namespace PhxQueue.Store.Bounds
open Comm Config Lib Lib.Traced

/-! ## The code -/

/-- `StoreOption`, as far as it is read here. -/
structure StoreOption where
  nqueue : ℤ
  nconsumerGroup : ℤ

/-- `SyncCtrlItem_t`; a cursor without its magic is missing. -/
structure SyncCtrlItem where
  prev : Option ℕ := none
  next : Option ℕ := none

/-- An index that is used; `nullQueue` is a null pointer of `GetMetaQueue`. -/
inductive Access
  | metaQueue (queueId : ℤ)
  | nullQueue
  | lock (idx : ℤ)
  | buf (idx : ℤ)
deriving DecidableEq

/-- A topic configuration with the message it has been read from. -/
structure ReadConfig where
  proto : ProtoTopicConfig
  topic : TopicConfig
  reads : proto.Reads topic

/-- What a store reads: its options, its own entry, and its topic. -/
structure Env where
  opt : StoreOption
  store : Except RetCode ProtoStore
  config : Option ReadConfig
  store_ne : store ≠ .error .ok

def Env.check (env : Env) : CheckEnv := ⟨env.store, env.config.map ReadConfig.topic⟩

/-- `sizeof (SyncCtrlItem_t)`. -/
def itemSize : ℤ := 128

/-- `Init`: the number of items that are mapped.  `buf_size` is an `int`; there is no table when the
product is not one, when `new` throws, and when the size cannot be mapped. -/
def init (opt : StoreOption) : Option ℤ :=
  let product := opt.nconsumerGroup * opt.nqueue
  let bufSize := (product * itemSize).bmod (2 ^ 32)
  if opt.nqueue < 0 ∨ product < 0 ∨ 2 ^ 31 ≤ product then none
  else if bufSize ≤ 0 then none
  else some (bufSize / itemSize)

/-- The check of every operation of `SyncCtrl`. -/
def refused (opt : StoreOption) (consumerGroupId queueId : ℤ) : Prop :=
  consumerGroupId = 0 ∨ consumerGroupId > opt.nconsumerGroup ∨ queueId ≥ opt.nqueue

instance (opt : StoreOption) (g q : ℤ) : Decidable (refused opt g q) :=
  inferInstanceAs (Decidable (_ ∨ _ ∨ _))

def getIdx (opt : StoreOption) (consumerGroupId queueId : ℤ) : ℤ :=
  queueId * opt.nconsumerGroup + consumerGroupId - 1

/-- The meta queues and the cursor buffer. -/
structure Tables where
  metaQueues : ℤ → StoreMetaQueue := fun _ => ∅
  buf : ℤ → SyncCtrlItem := fun _ => {}

section
variable (opt : StoreOption)

/-- The check, the lock and the item of an operation, which then runs `body`. -/
def withItem {α : Type} (consumerGroupId queueId : ℤ) (t : Tables)
    (body : ℤ → SyncCtrlItem → Except RetCode α) : Traced Access (Except RetCode α) :=
  if refused opt consumerGroupId queueId then pure (.error .errArg) else do
    let idx := getIdx opt consumerGroupId queueId
    touch (.lock idx)
    touch (.buf idx)
    pure (body idx (t.buf idx))

def adjustNextCursorID (consumerGroupId queueId : ℤ) (prevCursorId nextCursorId : ℕ) (t : Tables) :
    Traced Access (Except RetCode (ℕ × ℕ)) :=
  withItem opt consumerGroupId queueId t fun _ item =>
    let raise (p : ℕ) : ℕ :=
      match item.prev with
      | some v => if p = uint64Max ∨ v > p then v else p
      | none => p
    if item.next ≠ some nextCursorId ∨
        (prevCursorId ≠ uint64Max ∧ prevCursorId > nextCursorId) then
      match item.prev with
      | none => .error .errCursorNotFound
      | some v => .ok (raise v, v)
    else .ok (raise prevCursorId, nextCursorId)

def updateCursorID (consumerGroupId queueId : ℤ) (cursorId : ℕ) (isPrev : Bool) (t : Tables) :
    Traced Access (Except RetCode Tables) :=
  withItem opt consumerGroupId queueId t fun idx item =>
    let item := if isPrev then { item with prev := some cursorId }
      else { item with next := some cursorId }
    .ok { t with buf := Function.update t.buf idx item }

/-- `GetCursorID` of the prev cursor. -/
def getCursorID (consumerGroupId queueId : ℤ) (t : Tables) : Traced Access (Except RetCode ℕ) :=
  withItem opt consumerGroupId queueId t fun _ item =>
    match item.prev with
    | none => .error .errCursorNotFound
    | some c => .ok c

end

section
variable (env : Env)

def needSkipAdd (cursorId : ℕ) (req : Producer.AddRequest) (t : Tables) : Traced Access Bool :=
  if req.items = [] then pure true else do
    touch (.metaQueue req.queueId)
    let known := match (t.metaQueues req.queueId).back with
      | some m => decide (m ≥ cursorId)
      | none => false
    pure (known || match env.config with
      | none => true
      | some config => !config.topic.isValidQueue req.queueId)

def add (cursorId : ℕ) (req : Producer.AddRequest) (t : Tables) : Traced Access (Tables × RetCode) :=
  match env.config with
  | none => pure (t, .errRangeTopic)
  | some config =>
    match config.topic.getQueueInfoByQueue req.queueId with
    | .error ret => pure (t, ret)
    | .ok _ =>
      if req.items = [] then pure (t, .ok) else do
        let skip ← needSkipAdd env cursorId req t
        if skip then pure (t, .addSkip) else do
          touch (.metaQueue req.queueId)
          let pushed := (t.metaQueues req.queueId).pushBack cursorId
          pure ({ t with metaQueues := Function.update t.metaQueues req.queueId pushed }, .ok)

/-- `comm::proto::GetRequest`, as far as it is read here. -/
structure GetRequest where
  storeId : ℤ
  queueId : ℤ
  consumerGroupId : ℤ
  limit : ℤ
  prevCursorId : ℕ := uint64Max
  nextCursorId : ℕ := uint64Max
  random : Bool := false

def checkGetRequest (req : GetRequest) : RetCode := checkRequestComm env.check req.storeId req.queueId

/-- The client's cursors, unless `AdjustNextCursorID` fails. -/
def adjustClient (req : GetRequest) (t : Tables) : Traced Access (Option (ℕ × ℕ)) :=
  if req.random then pure (some (req.prevCursorId, req.nextCursorId)) else do
    let adjusted ← adjustNextCursorID env.opt req.consumerGroupId req.queueId req.prevCursorId
      req.nextCursorId t
    pure (match adjusted with
      | .ok cursors => some cursors
      | .error ret => if ret.asInteger < 0 then none else some (uint64Max, uint64Max))

def startCursors (req : GetRequest) (client : ℕ × ℕ) (svrPrevCursorId : ℕ) : ℕ × ℕ :=
  if req.random then
    (svrPrevCursorId, if client.2 < svrPrevCursorId then svrPrevCursorId else client.2)
  else client

def keepCursor (req : GetRequest) (cursorId : ℕ) (isPrev : Bool) (t : Tables) :
    Traced Access (Except RetCode Tables) :=
  if cursorId = uint64Max then pure (.ok t)
  else updateCursorID env.opt req.consumerGroupId req.queueId cursorId isPrev t

/-- The end of `Get`. -/
def keepCursors (req : GetRequest) (cursors : ℕ × ℕ) (t : Tables) :
    Traced Access (Tables × RetCode) :=
  if req.random then pure (t, .ok) else do
    let kept ← keepCursor env req cursors.1 true t
    match kept with
    | .error _ => pure (t, .errGetUpdateCursorIdFail)
    | .ok t => do
      let kept ← keepCursor env req cursors.2 false t
      match kept with
      | .error _ => pure (t, .errGetUpdateCursorIdFail)
      | .ok t => pure (t, .ok)

/-- `BaseMgr::Get`.  `loop` is its loop over the metas and the log, which uses the queue it is handed
and nothing else here: from the cursors it starts at those it ends at, unless it fails. -/
def get (loop : GetRequest → StoreMetaQueue → ℕ × ℕ → Option (ℕ × ℕ)) (req : GetRequest) (t : Tables) :
    Traced Access (Tables × RetCode) :=
  match env.config with
  | none => pure (t, .errRangeTopic)
  | some config =>
    match config.topic.getQueueInfoByQueue req.queueId with
    | .error ret => pure (t, ret)
    | .ok _ =>
      if req.queueId ≥ env.opt.nqueue then pure (t, .errRangeQueue) else do
        touch (.metaQueue req.queueId)
        let client ← adjustClient env req t
        match client with
        | none => pure (t, .errGetAdjustCursorIdFail)
        | some client => do
          let svrPrev ← getCursorID env.opt req.consumerGroupId req.queueId t
          let svrPrevCursorId := svrPrev.toOption.getD uint64Max
          match loop req (t.metaQueues req.queueId) (startCursors req client svrPrevCursorId) with
          | none => pure (t, .errGetItemByCursorId)
          | some cursors => keepCursors env req cursors t

/-- `SyncCtrlInfo::QueueDetail::ConsumerGroupDetail`. -/
structure ConsumerGroupDetail where
  consumerGroupId : ℤ
  prevCursorId : ℕ

/-- `SyncCtrlInfo::QueueDetail`. -/
structure QueueDetail where
  queueId : ℤ
  consumerGroupDetails : List ConsumerGroupDetail

def known (d : ConsumerGroupDetail) : Except RetCode ℕ → Bool
  | .ok cur => cur ≥ d.prevCursorId
  | .error _ => false

def syncGroups (queueId : ℤ) : List ConsumerGroupDetail → Tables →
    Traced Access (Tables × RetCode)
  | [], t => pure (t, .ok)
  | d :: ds, t => do
    let cur ← getCursorID env.opt d.consumerGroupId queueId t
    if known d cur then syncGroups queueId ds t else do
    let kept ← updateCursorID env.opt d.consumerGroupId queueId d.prevCursorId true t
    match kept with
    | .error ret => pure (t, ret)
    | .ok t => do
      let kept ← updateCursorID env.opt d.consumerGroupId queueId d.prevCursorId false t
      match kept with
      | .error ret => pure (t, ret)
      | .ok t => syncGroups queueId ds t

/-- `GetMetaQueue`, and the use of its result. -/
def useMetaQueue (queueId : ℤ) : Traced Access Unit :=
  if queueId ≥ env.opt.nqueue then touch .nullQueue else touch (.metaQueue queueId)

/-- `SyncCtrl::SyncCursorID`; the dequeue statistics of the meta queues are not kept here. -/
def syncCursorID : List QueueDetail → Tables → Traced Access (Tables × RetCode)
  | [], t => pure (t, .ok)
  | qd :: info, t => do
    let (t, ret) ← syncGroups env qd.queueId qd.consumerGroupDetails t
    if ret ≠ .ok then pure (t, ret) else do
      useMetaQueue env qd.queueId
      syncCursorID info t

/-- `proto::StorePaxosArgs`. -/
structure StorePaxosArgs where
  addReq : Option Producer.AddRequest := none
  syncCtrlInfo : Option (List QueueDetail) := none

/-- The part of `Execute` for a request. -/
def executeAdd (cursorId : ℕ) (args : StorePaxosArgs) (t : Tables) :
    Traced Access (Tables × RetCode) :=
  match args.addReq with
  | none => pure (t, .ok)
  | some req => add env cursorId req t

/-- `StoreSM::Execute`; dropping the master indexes nothing. -/
def execute (cursorId : ℕ) (args : StorePaxosArgs) (t : Tables) : Traced Access (Tables × Bool) := do
  let (t, ret) ← executeAdd env cursorId args t
  if ret.asInteger < 0 then pure (t, false) else
  match args.syncCtrlInfo with
  | none => pure (t, true)
  | some info => do
    let (t, ret) ← syncCursorID env info t
    pure (t, decide (¬ ret.asInteger < 0))

end

/-! ## Bounds -/

/-- Within the bounds of a store with a table of so many items. -/
def Safe (opt : StoreOption) (slots : ℤ) : Access → Prop
  | .metaQueue queueId => 0 ≤ queueId ∧ queueId < opt.nqueue
  | .nullQueue => False
  | .lock idx => 0 ≤ idx ∧ idx < opt.nconsumerGroup * opt.nqueue
  | .buf idx => 0 ≤ idx ∧ idx < slots

instance (opt : StoreOption) (slots : ℤ) : DecidablePred (Safe opt slots)
  | .metaQueue _ => inferInstanceAs (Decidable (_ ∧ _))
  | .nullQueue => inferInstanceAs (Decidable False)
  | .lock _ => inferInstanceAs (Decidable (_ ∧ _))
  | .buf _ => inferInstanceAs (Decidable (_ ∧ _))

def ValidPair (opt : StoreOption) (consumerGroupId queueId : ℤ) : Prop :=
  1 ≤ consumerGroupId ∧ consumerGroupId ≤ opt.nconsumerGroup ∧ 0 ≤ queueId ∧ queueId < opt.nqueue

/-- The item of a group and a queue is one of the table. -/
def InSlots (opt : StoreOption) (slots consumerGroupId queueId : ℤ) : Prop :=
  0 < queueId * opt.nconsumerGroup + consumerGroupId ∧
    queueId * opt.nconsumerGroup + consumerGroupId ≤ slots

section
variable {opt : StoreOption} {slots g g' q q' : ℤ}

lemma of_init (h : init opt = some slots) :
    0 ≤ opt.nqueue ∧ slots ≤ opt.nconsumerGroup * opt.nqueue := by
  unfold init itemSize at h
  dsimp only at h
  generalize opt.nconsumerGroup * opt.nqueue = product at h ⊢
  split at h
  · cases h
  · rename_i hdef
    split at h
    · cases h
    · rename_i hpos
      cases h
      rw [Int.bmod_def] at hpos ⊢
      refine ⟨by omega, ?_⟩
      split
      · omega
      · omega

/-- **Valid pairs have slots of their own.** -/
lemma getIdx_inj (h : ValidPair opt g q) (h' : ValidPair opt g' q')
    (hidx : getIdx opt g q = getIdx opt g' q') : g = g' ∧ q = q' := by
  obtain ⟨hg, hgn, -, -⟩ := h
  obtain ⟨hg', hgn', -, -⟩ := h'
  unfold getIdx at hidx
  have hq : q = q' := by
    by_contra hne
    rcases lt_or_gt_of_ne hne with hlt | hlt
    · have : (q + 1) * opt.nconsumerGroup ≤ q' * opt.nconsumerGroup :=
        mul_le_mul_of_nonneg_right (by omega) (by omega)
      rw [add_mul, one_mul] at this
      omega
    · have : (q' + 1) * opt.nconsumerGroup ≤ q * opt.nconsumerGroup :=
        mul_le_mul_of_nonneg_right (by omega) (by omega)
      rw [add_mul, one_mul] at this
      omega
  subst hq
  exact ⟨by omega, rfl⟩

/-- A slot of the table is that of a valid pair, whatever ids it has been found by. -/
lemma exists_validPair_of_inSlots (hinit : init opt = some slots) (h : InSlots opt slots g q) :
    ∃ g' q', ValidPair opt g' q' ∧ getIdx opt g' q' = getIdx opt g q := by
  obtain ⟨hqueue, hslots⟩ := of_init hinit
  obtain ⟨hpos, hle⟩ := h
  unfold ValidPair getIdx
  obtain ⟨idx, hidx⟩ : ∃ idx, idx = q * opt.nconsumerGroup + g - 1 := ⟨_, rfl⟩
  rw [← hidx]
  have hgroup : 0 < opt.nconsumerGroup := by
    by_contra hneg
    have := mul_nonpos_of_nonpos_of_nonneg (not_lt.mp hneg) hqueue
    omega
  have hmod := Int.emod_lt_of_pos idx hgroup
  have hmod' := Int.emod_nonneg idx hgroup.ne'
  have hdiv := Int.mul_ediv_add_emod idx opt.nconsumerGroup
  refine ⟨idx % opt.nconsumerGroup + 1, idx / opt.nconsumerGroup, ⟨?_, ?_, ?_, ?_⟩, ?_⟩
  · omega
  · omega
  · exact Int.ediv_nonneg (by omega) hgroup.le
  · exact Int.ediv_lt_of_lt_mul hgroup (by rw [mul_comm]; omega)
  · rw [mul_comm]
    omega

/-! ## The table -/

section
variable (hinit : init opt = some slots) {t : Tables}
include hinit

lemma within_withItem {α : Type} {body : ℤ → SyncCtrlItem → Except RetCode α} :
    (withItem opt g q t body).Within (Safe opt slots) ↔ refused opt g q ∨ InSlots opt slots g q := by
  have hle := (of_init hinit).2
  unfold withItem
  by_cases href : refused opt g q
  · simp [href]
  · rw [if_neg href, or_iff_right href]
    simp only [within_bind, within_touch, within_pure, and_true]
    unfold Safe InSlots getIdx
    dsimp only
    omega

lemma within_getCursorID : (getCursorID opt g q t).Within (Safe opt slots) ↔
    refused opt g q ∨ InSlots opt slots g q := within_withItem hinit

lemma within_updateCursorID {c : ℕ} {isPrev : Bool} :
    (updateCursorID opt g q c isPrev t).Within (Safe opt slots) ↔
      refused opt g q ∨ InSlots opt slots g q := within_withItem hinit

lemma within_adjustNextCursorID {p n : ℕ} :
    (adjustNextCursorID opt g q p n t).Within (Safe opt slots) ↔
      refused opt g q ∨ InSlots opt slots g q := within_withItem hinit

end

end

/-! ## Requests and values -/

/-- A queue that is found is not negative: no range that is read has a negative one. -/
lemma nonneg_of_getQueueInfoByQueue {config : ReadConfig} {q : ℤ} {info : QueueInfo}
    (h : config.topic.getQueueInfoByQueue q = .ok info) : 0 ≤ q := by
  unfold TopicConfig.getQueueInfoByQueue at h
  split at h
  · cases h
  rename_i found hfind
  have hmem := List.mem_reverse.mp (List.mem_of_find?_eq_some hfind)
  have hprop := List.find?_some hfind
  have hin := (of_decide_eq_true hprop).2
  obtain ⟨range, hrange, hq⟩ := List.any_eq_true.mp hin
  have hq := of_decide_eq_true hq
  have := ranges_nonneg config.reads hmem hrange
  omega

lemma getQueueInfoByQueue_error {cfg : TopicConfig} {q : ℤ} {ret : RetCode}
    (h : cfg.getQueueInfoByQueue q = .error ret) : ret.asInteger < 0 := by
  unfold TopicConfig.getQueueInfoByQueue at h
  split at h
  · cases h
    decide
  · split at h
    · cases h
      decide
    · cases h

def Env.Listed (env : Env) (queueId : ℤ) : Prop :=
  ∃ config, env.config = some config ∧
    ∃ info, config.topic.getQueueInfoByQueue queueId = .ok info

/-- A request that passes the checks has a queue with a queue info. -/
lemma listed_of_checkRequestComm {env : Env} {storeId queueId : ℤ}
    (h : checkRequestComm env.check storeId queueId = .ok) : env.Listed queueId := by
  unfold checkRequestComm Env.check at h
  split at h
  · rename_i ret hstore
    exact absurd (h ▸ hstore) env.store_ne
  · split at h
    · cases h
    · cases hconfig : env.config with
      | none =>
        rw [hconfig] at h
        cases h
      | some config =>
        rw [hconfig] at h
        dsimp only [Option.map_some] at h
        split at h
        · rename_i hvalid
          exact ⟨config, hconfig, TopicConfig.exists_getQueueInfoByQueue hvalid⟩
        · cases h

section
variable {env : Env} {slots : ℤ} (hinit : init env.opt = some slots) {t : Tables}

lemma add_ret_neg_iff {cursorId : ℕ} {req : Producer.AddRequest} :
    (add env cursorId req t).result.2.asInteger < 0 ↔ ¬ env.Listed req.queueId := by
  unfold add Env.Listed
  cases hconfig : env.config with
  | none => simp [RetCode.asInteger]
  | some config =>
    dsimp only
    cases hinfo : config.topic.getQueueInfoByQueue req.queueId with
    | error ret =>
      have hret := getQueueInfoByQueue_error hinfo
      simp [hinfo, hret]
    | ok info =>
      have hlisted : ∃ c, some config = some c ∧ ∃ i, c.topic.getQueueInfoByQueue req.queueId = .ok i :=
        ⟨config, rfl, info, hinfo⟩
      refine iff_of_false ?_ (not_not.mpr hlisted)
      dsimp only
      split
      · simp [RetCode.asInteger]
      · rw [result_bind]
        split
        · simp [RetCode.asInteger]
        · simp [RetCode.asInteger]

lemma withItem_result {opt : StoreOption} {α : Type} {g q : ℤ}
    {body : ℤ → SyncCtrlItem → Except RetCode α} : (withItem opt g q t body).result =
      if refused opt g q then .error .errArg
      else body (getIdx opt g q) (t.buf (getIdx opt g q)) := by
  unfold withItem
  split
  · rfl
  · rfl

/-- The client's cursors fail only where the group is refused: a cursor that is missing is none. -/
lemma adjustClient_eq_none {req : GetRequest} (h : (adjustClient env req t).result = none) :
    refused env.opt req.consumerGroupId req.queueId := by
  unfold adjustClient at h
  split at h
  · cases h
  · by_contra href
    rw [result_bind] at h
    unfold adjustNextCursorID at h
    rw [withItem_result, if_neg href] at h
    rw [result_pure] at h
    dsimp only at h
    split at h
    · cases h
    · rename_i ret hret
      split at hret
      · split at hret
        · cases hret
          cases h
        · cases hret
      · cases hret

include hinit

theorem within_add_iff {cursorId : ℕ} {req : Producer.AddRequest} :
    (add env cursorId req t).Within (Safe env.opt slots) ↔
      req.items = [] ∨ req.queueId < env.opt.nqueue ∨ ¬ env.Listed req.queueId := by
  unfold add Env.Listed
  cases hconfig : env.config with
  | none => simp
  | some config =>
    dsimp only
    cases hinfo : config.topic.getQueueInfoByQueue req.queueId with
    | error ret => simp [hinfo]
    | ok info =>
      have hq := nonneg_of_getQueueInfoByQueue hinfo
      by_cases hitems : req.items = []
      · simp [hitems]
      · have hsafe : Safe env.opt slots (.metaQueue req.queueId) ↔ req.queueId < env.opt.nqueue :=
          and_iff_right hq
        have hskip : (needSkipAdd env cursorId req t).Within (Safe env.opt slots) ↔
            req.queueId < env.opt.nqueue := by
          unfold needSkipAdd
          simp [hitems, hsafe]
        rw [if_neg hitems, within_bind, hskip, or_iff_right hitems,
          or_iff_left (not_not.mpr ⟨config, rfl, info, hinfo⟩)]
        apply and_iff_left_of_imp
        intro hlt
        split
        · exact within_pure _
        · simp [hsafe, hlt]

lemma within_adjustClient {req : GetRequest}
    (h : refused env.opt req.consumerGroupId req.queueId ∨
      InSlots env.opt slots req.consumerGroupId req.queueId) :
    (adjustClient env req t).Within (Safe env.opt slots) := by
  unfold adjustClient
  split
  · exact within_pure _
  · simp [within_adjustNextCursorID hinit, h]

lemma within_keepCursor {req : GetRequest} {c : ℕ} {isPrev : Bool}
    (h : refused env.opt req.consumerGroupId req.queueId ∨
      InSlots env.opt slots req.consumerGroupId req.queueId) :
    (keepCursor env req c isPrev t).Within (Safe env.opt slots) := by
  unfold keepCursor
  split
  · exact within_pure _
  · exact (within_updateCursorID hinit).mpr h

lemma within_keepCursors {req : GetRequest} {cursors : ℕ × ℕ}
    (h : refused env.opt req.consumerGroupId req.queueId ∨
      InSlots env.opt slots req.consumerGroupId req.queueId) :
    (keepCursors env req cursors t).Within (Safe env.opt slots) := by
  unfold keepCursors
  split
  · exact within_pure _
  · refine (within_bind _ _).mpr ⟨within_keepCursor hinit h, ?_⟩
    split
    · exact within_pure _
    · refine (within_bind _ _).mpr ⟨within_keepCursor hinit h, ?_⟩
      split
      · exact within_pure _
      · exact within_pure _

theorem within_get_iff {loop : GetRequest → StoreMetaQueue → ℕ × ℕ → Option (ℕ × ℕ)}
    {req : GetRequest} :
    (get env loop req t).Within (Safe env.opt slots) ↔ ¬ env.Listed req.queueId ∨
      refused env.opt req.consumerGroupId req.queueId ∨
      InSlots env.opt slots req.consumerGroupId req.queueId := by
  unfold get Env.Listed
  cases hconfig : env.config with
  | none => simp
  | some config =>
    dsimp only
    cases hinfo : config.topic.getQueueInfoByQueue req.queueId with
    | error ret => simp [hinfo]
    | ok info =>
      have hq := nonneg_of_getQueueInfoByQueue hinfo
      rw [or_iff_right (not_not.mpr ⟨config, rfl, info, hinfo⟩)]
      by_cases hlt : req.queueId ≥ env.opt.nqueue
      · rw [if_pos hlt]
        simp [refused, hlt]
      · have hsafe : Safe env.opt slots (.metaQueue req.queueId) := ⟨hq, not_le.mp hlt⟩
        rw [if_neg hlt, within_bind, within_touch, and_iff_right hsafe, within_bind]
        constructor
        · -- the cursor is read, unless the client's cursors are refused
          intro h
          by_cases href : refused env.opt req.consumerGroupId req.queueId
          · exact .inl href
          · obtain ⟨-, hrest⟩ := h
            cases hclient : (adjustClient env req t).result with
            | none => exact absurd (adjustClient_eq_none hclient) href
            | some client =>
              rw [hclient] at hrest
              exact (within_getCursorID hinit).mp ((within_bind _ _).mp hrest).1
        · intro h
          refine ⟨within_adjustClient hinit h, ?_⟩
          split
          · exact within_pure _
          · refine (within_bind _ _).mpr ⟨(within_getCursorID hinit).mpr h, ?_⟩
            split
            · exact within_pure _
            · exact within_keepCursors hinit h

/-- The groups up to the first that is refused have slots. -/
def GroupsOk (opt : StoreOption) (slots queueId : ℤ) (ds : List ConsumerGroupDetail) : Prop :=
  ∀ d ∈ ds.takeWhile fun d => ¬ refused opt d.consumerGroupId queueId,
    InSlots opt slots d.consumerGroupId queueId

/-- The details up to the first group that is refused have slots, and their queues are the
store's. -/
def DetailsOk (opt : StoreOption) (slots : ℤ) : List QueueDetail → Prop
  | [] => True
  | qd :: info => GroupsOk opt slots qd.queueId qd.consumerGroupDetails ∧
    ((∀ d ∈ qd.consumerGroupDetails, ¬ refused opt d.consumerGroupId qd.queueId) →
      (0 ≤ qd.queueId ∧ qd.queueId < opt.nqueue) ∧ DetailsOk opt slots info)

lemma syncGroups_spec (queueId : ℤ) (ds : List ConsumerGroupDetail) :
    ((syncGroups env queueId ds t).Within (Safe env.opt slots) ↔
      GroupsOk env.opt slots queueId ds) ∧
    ((syncGroups env queueId ds t).result.2 = .ok ↔
      ∀ d ∈ ds, ¬ refused env.opt d.consumerGroupId queueId) := by
  unfold GroupsOk
  induction ds generalizing t with
  | nil => simp [syncGroups]
  | cons d ds ih =>
    unfold syncGroups
    rw [within_bind, within_getCursorID hinit, result_bind]
    by_cases href : refused env.opt d.consumerGroupId queueId
    · -- the update is refused as the read is, and the loop ends
      have hget : (getCursorID env.opt d.consumerGroupId queueId t).result = .error .errArg := by
        unfold getCursorID
        rw [withItem_result, if_pos href]
      have hupdate : updateCursorID env.opt d.consumerGroupId queueId d.prevCursorId true t =
          pure (.error .errArg) := by
        unfold updateCursorID withItem
        rw [if_pos href]
      rw [hget, List.takeWhile_cons_of_neg (by simp [href])]
      simp [known, hupdate, href]
    · have hupdate : ∀ (isPrev : Bool) (t : Tables), ∃ t',
          (updateCursorID env.opt d.consumerGroupId queueId d.prevCursorId isPrev t).result =
            .ok t' := by
        intro isPrev t
        unfold updateCursorID
        rw [withItem_result, if_neg href]
        exact ⟨_, rfl⟩
      rw [or_iff_right href, List.takeWhile_cons_of_pos (by simp [href])]
      simp only [List.forall_mem_cons, href, not_false_eq_true, true_and]
      split
      · exact ⟨and_congr_right fun _ => ih.1, ih.2⟩
      · obtain ⟨t', ht'⟩ := hupdate true t
        obtain ⟨t'', ht''⟩ := hupdate false t'
        rw [within_bind, within_updateCursorID hinit, result_bind, ht']
        dsimp only
        rw [within_bind, within_updateCursorID hinit, result_bind, ht'']
        dsimp only
        refine ⟨and_congr_right fun hslot => ?_, ih.2⟩
        rw [and_iff_right (.inr hslot), and_iff_right (.inr hslot)]
        exact ih.1

lemma within_useMetaQueue {q : ℤ} :
    (useMetaQueue env q).Within (Safe env.opt slots) ↔ 0 ≤ q ∧ q < env.opt.nqueue := by
  unfold useMetaQueue
  split
  · rw [within_touch]
    exact iff_of_false id (by omega)
  · rw [within_touch]
    rfl

theorem within_syncCursorID_iff (info : List QueueDetail) :
    (syncCursorID env info t).Within (Safe env.opt slots) ↔ DetailsOk env.opt slots info := by
  induction info generalizing t with
  | nil => simp [syncCursorID, DetailsOk]
  | cons qd info ih =>
    obtain ⟨hwithin, hret⟩ := syncGroups_spec hinit (t := t) qd.queueId qd.consumerGroupDetails
    unfold syncCursorID DetailsOk
    rw [within_bind, hwithin, ← hret]
    apply and_congr_right
    intro _
    split
    · rename_i t' ret heq
      rw [heq]
      by_cases hok : ret = .ok
      · rw [if_neg (not_not.mpr hok), within_bind, within_useMetaQueue hinit, ih]
        simp [hok]
      · rw [if_pos hok]
        simp [hok]

def ArgsOk (env : Env) (slots : ℤ) (args : StorePaxosArgs) : Prop :=
  (∀ req, args.addReq = some req →
    req.items = [] ∨ req.queueId < env.opt.nqueue ∨ ¬ env.Listed req.queueId) ∧
  ((∀ req, args.addReq = some req → env.Listed req.queueId) →
    ∀ info, args.syncCtrlInfo = some info → DetailsOk env.opt slots info)

theorem within_execute_iff {cursorId : ℕ} {args : StorePaxosArgs} :
    (execute env cursorId args t).Within (Safe env.opt slots) ↔ ArgsOk env slots args := by
  have hadd : ((executeAdd env cursorId args t).Within (Safe env.opt slots) ↔
      ∀ req, args.addReq = some req →
        req.items = [] ∨ req.queueId < env.opt.nqueue ∨ ¬ env.Listed req.queueId) ∧
      ((executeAdd env cursorId args t).result.2.asInteger < 0 ↔
        ¬ ∀ req, args.addReq = some req → env.Listed req.queueId) := by
    unfold executeAdd
    cases args.addReq with
    | none => simp [RetCode.asInteger]
    | some req => simp [within_add_iff hinit, add_ret_neg_iff]
  unfold execute ArgsOk
  rw [within_bind, hadd.1]
  apply and_congr_right
  intro _
  split
  rename_i t' ret heq
  rw [heq] at hadd
  by_cases hneg : ret.asInteger < 0
  · rw [if_pos hneg]
    simp only [within_pure, true_iff]
    exact fun h => absurd h (hadd.2.mp hneg)
  · have hlisted := not_not.mp (mt hadd.2.mpr hneg)
    rw [if_neg hneg, imp_iff_right hlisted]
    cases args.syncCtrlInfo with
    | none => simp
    | some info =>
      dsimp only
      rw [within_bind, within_syncCursorID_iff hinit]
      simp

/-- **The requests and the values that are executed within bounds.**  Valid pairs have slots of their
own; an accepted Add needs a queue of the store, and an accepted Get a group whose slot is mapped,
unless its group or queue is refused. -/
theorem accepted_within_iff :
    (∀ g q g' q', ValidPair env.opt g q → ValidPair env.opt g' q' →
      getIdx env.opt g q = getIdx env.opt g' q' → g = g' ∧ q = q') ∧
    (∀ cursorId req t, checkAddRequest env.check req = .ok →
      ((add env cursorId req t).Within (Safe env.opt slots) ↔
        req.items = [] ∨ req.queueId < env.opt.nqueue)) ∧
    (∀ loop req t, checkGetRequest env req = .ok →
      ((get env loop req t).Within (Safe env.opt slots) ↔
        refused env.opt req.consumerGroupId req.queueId ∨
        InSlots env.opt slots req.consumerGroupId req.queueId)) ∧
    ∀ cursorId args t,
      (execute env cursorId args t).Within (Safe env.opt slots) ↔ ArgsOk env slots args := by
  refine ⟨fun g q g' q' => getIdx_inj, fun cursorId req t hcheck => ?_,
    fun loop req t hcheck => ?_, fun cursorId args t => within_execute_iff hinit⟩
  · have hlisted := listed_of_checkRequestComm (checkAddRequest_ok_iff.mp hcheck).1
    rw [within_add_iff hinit, or_iff_left (not_not.mpr hlisted)]
  · have hlisted := listed_of_checkRequestComm hcheck
    rw [within_get_iff hinit, or_iff_right (not_not.mpr hlisted)]

end

/-- The queues 0 to 2, of which the store below has two. -/
def threeQueues : ReadConfig where
  proto := {
    pubs := [⟨1, [1, 2], [1]⟩]
    queueInfos := [{ queueInfoId := 1, ranges := ["0-2"] }] }
  topic := {
    pubs := [⟨1, [1, 2], [1]⟩]
    queueInfos := [⟨1, [(0, 2)], false, 1⟩]
    itemsByteSizeLimit := 100 }
  reads := ⟨rfl, .cons (by decide) .nil⟩

def narrowStore : Env where
  opt := ⟨2, 2⟩
  store := .ok { storeId := 1, pubIds := [1] }
  config := some threeQueues
  store_ne := by decide

def narrowAdd (queueId : ℤ) : Producer.AddRequest := ⟨1, 1, queueId, [{}]⟩

def narrowGet (consumerGroupId : ℤ) : GetRequest :=
  { storeId := 1, queueId := 0, consumerGroupId, limit := 1 }

theorem narrowStore_within :
    (add narrowStore 0 (narrowAdd 1) {}).Within (Safe narrowStore.opt 4) ∧
      (get narrowStore (fun _ _ c => some c) (narrowGet 2) {}).Within (Safe narrowStore.opt 4) ∧
      (execute narrowStore 0 { addReq := some (narrowAdd 1) } {}).Within (Safe narrowStore.opt 4) ∧
      getIdx narrowStore.opt 2 0 ≠ getIdx narrowStore.opt 1 1 := by
  obtain ⟨hpairs, hadd, hget, hexecute⟩ :=
    accepted_within_iff (show init narrowStore.opt = some 4 by decide)
  refine ⟨(hadd 0 (narrowAdd 1) {} (by decide)).mpr (.inr (by decide)),
    (hget _ (narrowGet 2) {} (by decide)).mpr (.inr ⟨by decide, by decide⟩),
    (hexecute 0 _ {}).mpr ⟨?_, ?_⟩, ?_⟩
  · rintro req ⟨⟩
    exact .inr (.inl (by decide))
  · rintro - info ⟨⟩
  · intro heq
    have := hpairs 2 0 1 1 ⟨by decide, by decide, by decide, by decide⟩
      ⟨by decide, by decide, by decide, by decide⟩ heq
    omega

/-- **Counterexample.**  A Get of the group -1 is accepted and uses the item before the table, and an
Add to a queue of the topic beyond the store's uses a meta queue beyond the array. -/
theorem narrowStore_not_within : init narrowStore.opt = some 4 ∧
    checkGetRequest narrowStore (narrowGet (-1)) = .ok ∧
    ¬ (get narrowStore (fun _ _ c => some c) (narrowGet (-1)) {}).Within (Safe narrowStore.opt 4) ∧
    checkAddRequest narrowStore.check (narrowAdd 2) = .ok ∧
    ¬ (add narrowStore 0 (narrowAdd 2) {}).Within (Safe narrowStore.opt 4) := by
  refine ⟨by decide, by decide, by decide, by decide, by decide⟩

end PhxQueue.Store.Bounds
