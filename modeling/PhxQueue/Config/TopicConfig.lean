import PhxQueue.Comm
import Mathlib.Tactic

/-!
# Topic configuration

What the producer, the store and the consumer ask of `config/topicconfig.cpp`: which queues and
consumer groups belong to a publisher, the queue info of a queue or of a count, and which items are
skipped.  Ids are `int`s; `-1` stands for any publisher or group, and entries with id 0 are not
read.

* `isValidQueueOf`, `isValidQueue`   `IsValidQueue`, of a publisher and group, and of any;
* `getQueuesByQueueInfoID`, `getQueueInfoByQueue`, `getQueueInfoIDByCount`, `getQueueByLoopRank`,
  `shouldSkip`                       the other queries;
* `isValidQueue_of_isValidQueueOf`   a group's queue is a queue.
-/

set_option linter.unusedSectionVars false

namespace PhxQueue.Config
open Comm

/-- `proto::Pub`. -/
structure Pub where
  pubId : ℤ
  consumerGroupIds : List ℤ
  queueInfoIds : List ℤ
deriving DecidableEq

/-- `proto::QueueInfo`, its ranges parsed. -/
structure QueueInfo where
  queueInfoId : ℤ
  ranges : List (ℤ × ℤ)
  dropAll : Bool := false
  count : ℤ := 1
deriving DecidableEq

/-- `proto::SkipInfo`; `-1`, for `uin` 0, stands for anything. -/
structure SkipInfo where
  uin : ℕ := 0
  pubId : ℤ := -1
  handleId : ℤ := -1
  consumerGroupId : ℤ := -1
  queueInfoId : ℤ := -1
deriving DecidableEq

/-- `comm::proto::QItem`, as far as it is read; `data` stands for the rest. -/
structure QItem where
  topicId : ℤ := 0
  pubId : ℤ := 0
  uin : ℕ := 0
  handleId : ℤ := 0
  consumerGroupIds : ℕ := 0
  count : ℤ := 0
  atime : ℕ := 0
  atimeMs : ℕ := 0
  byteSize : ℕ := 0
  cursorId : ℕ := 0
  data : String := ""
deriving DecidableEq

structure TopicConfig where
  pubs : List Pub
  queueInfos : List QueueInfo
  skipInfos : List SkipInfo := []
  itemsByteSizeLimit : ℕ
  batchLimit : ℤ := 100
  producerNretryRawAdd : ℤ := 0
  producerBatchDelayTimeMs : ℕ := 20
  consumerGroupIds : List ℤ := []

/-- The elements of a `std::set`, in its order. -/
def elements (l : List ℤ) : List ℤ := l.dedup.insertionSort (· ≤ ·)

lemma mem_elements {l : List ℤ} {x : ℤ} : x ∈ elements l ↔ x ∈ l := by
  unfold elements
  rw [List.mem_insertionSort, List.mem_dedup]

lemma pairwise_elements (l : List ℤ) : (elements l).Pairwise (· ≤ ·) :=
  List.pairwise_insertionSort _ _

lemma nodup_elements (l : List ℤ) : (elements l).Nodup :=
  (List.perm_insertionSort _ _).nodup_iff.mpr l.nodup_dedup

namespace TopicConfig

variable (cfg : TopicConfig)

/-- What `Rebuild` asserts of the ids that are read. -/
structure UniqueIds : Prop where
  pubs : ((cfg.pubs.filter fun p => p.pubId ≠ 0).map Pub.pubId).Nodup
  queueInfos : ((cfg.queueInfos.filter fun q => q.queueInfoId ≠ 0).map QueueInfo.queueInfoId).Nodup

def pubId2pub (pubId : ℤ) : Option Pub :=
  cfg.pubs.find? fun p => p.pubId ≠ 0 ∧ p.pubId = pubId

def getAllPubID : List ℤ := elements ((cfg.pubs.map Pub.pubId).filter (· ≠ 0))

/-- The publishers with an id; `pub_id2consumer_group_ids` and `pub_id2queue_info_ids` join them. -/
def pubsOf (pubId : ℤ) : List Pub := cfg.pubs.filter fun p => p.pubId ≠ 0 ∧ p.pubId = pubId

/-- `IsValidConsumerGroupID`: nothing is asked of an id but that it is not 0. -/
def isValidConsumerGroupID (consumerGroupId : ℤ) : Bool :=
  (cfg.consumerGroupIds.filter (· ≠ 0)).contains consumerGroupId

/-- `queue_info_id2queue_info` and `queue_info_id2ranges`, of the first entry of an id.  Where the check of
`Rebuild` is off (`NeedCheck`), the code joins the ranges of entries with one id, as `Config/Rebuild` does. -/
def queueInfoId2queueInfo (id : ℤ) : Option QueueInfo :=
  cfg.queueInfos.find? fun q => q.queueInfoId ≠ 0 ∧ q.queueInfoId = id

def inRanges (ranges : List (ℤ × ℤ)) (queueId : ℤ) : Bool :=
  ranges.any fun range => range.1 ≤ queueId ∧ queueId ≤ range.2

/-- The loop of `IsValidQueue`: it fails at an id without ranges. -/
def inQueueInfos (queueId : ℤ) : List ℤ → Bool
  | [] => false
  | id :: ids =>
    match cfg.queueInfoId2queueInfo id with
    | none => false
    | some q => if inRanges q.ranges queueId then true else inQueueInfos queueId ids

/-- The test `IsValidQueue` applies to a publisher. -/
def validFor (queueId consumerGroupId pubId : ℤ) : Bool :=
  if cfg.pubsOf pubId = [] then false else
  if consumerGroupId ≠ -1 ∧
      consumerGroupId ∉ (cfg.pubsOf pubId).flatMap Pub.consumerGroupIds then false
  else cfg.inQueueInfos queueId (elements ((cfg.pubsOf pubId).flatMap Pub.queueInfoIds))

/-- `IsValidQueue(queue_id, pub_id, consumer_group_id)`. -/
def isValidQueueOf (queueId pubId consumerGroupId : ℤ) : Bool :=
  if pubId ≠ -1 then cfg.validFor queueId consumerGroupId pubId
  else cfg.getAllPubID.any fun p => cfg.validFor queueId consumerGroupId p

/-- `IsValidQueue(queue_id)`. -/
def isValidQueue (queueId : ℤ) : Bool := cfg.isValidQueueOf queueId (-1) (-1)

def getQueuesByQueueInfoID (id : ℤ) : Except RetCode (List ℤ) :=
  match cfg.queueInfoId2queueInfo id with
  | none => .error .errRangeQueueInfo
  | some q => .ok (elements (q.ranges.flatMap fun range =>
      (List.range (range.2 - range.1 + 1).toNat).map fun n : ℕ => range.1 + n))

/-- `GetQueueInfoByQueue`: the last queue info that lists the queue. -/
def getQueueInfoByQueue (queueId : ℤ) : Except RetCode QueueInfo :=
  match cfg.queueInfos.reverse.find? fun q => q.queueInfoId ≠ 0 ∧ inRanges q.ranges queueId with
  | none => .error .errRangeQueue
  | some q =>
    match cfg.queueInfoId2queueInfo q.queueInfoId with
    | none => .error .errRangeQueueInfo
    | some q => .ok q

/-- The loop of `GetQueueInfoIDByCount`. -/
def queueInfoIDByCount (cnt : ℤ) : List ℤ → Except RetCode ℤ
  | [] => .error .errRangeCnt
  | id :: ids =>
    match cfg.queueInfoId2queueInfo id with
    | none => .error .errRangeQueueInfo
    | some q =>
      if q.count ≠ -1 ∧ cnt ≥ q.count then queueInfoIDByCount (cnt - q.count) ids else .ok id

def getQueueInfoIDByCount (pubId cnt : ℤ) : Except RetCode ℤ :=
  match cfg.pubId2pub pubId with
  | none => .error .errRangePub
  | some p => cfg.queueInfoIDByCount cnt p.queueInfoIds

/-- `GetNQueue`, of the ranges of a queue info; the code adds in `int`, which is the same below 2^31 queues. -/
def getNQueue (ranges : List (ℤ × ℤ)) : ℤ := (ranges.map fun range => range.2 - range.1 + 1).sum

/-- The loop of `GetQueueByRank`. -/
def getQueueByRank : ℕ → List (ℤ × ℤ) → Option ℤ
  | _, [] => none
  | r, range :: ranges =>
    if r ≥ (range.2 - range.1 + 1).toNat then
      getQueueByRank (r - (range.2 - range.1 + 1).toNat) ranges
    else some (range.1 + r)

/-- `GetQueueByLoopRank`, without what it returns when it finds no queue, which is only logged. -/
def getQueueByLoopRank (id : ℤ) (rank : ℕ) : Option ℤ :=
  match cfg.queueInfoId2queueInfo id with
  | none => none
  | some q =>
    if getNQueue q.ranges = 0 then none
    else getQueueByRank (rank % (getNQueue q.ranges).toNat) q.ranges

def shouldSkip (item : QItem) (consumerGroupId queueInfoId : ℤ) : Bool :=
  cfg.skipInfos.any fun s =>
    (s.uin = 0 ∨ s.uin = item.uin) ∧
    (s.pubId = -1 ∨ s.pubId = item.pubId) ∧
    (s.handleId = -1 ∨ s.handleId = item.handleId) ∧
    (s.consumerGroupId = -1 ∨ s.consumerGroupId = consumerGroupId) ∧
    (s.queueInfoId = -1 ∨ s.queueInfoId = queueInfoId)

variable {cfg}

lemma of_pubId2pub {pubId : ℤ} {p : Pub} (h : cfg.pubId2pub pubId = some p) :
    p ∈ cfg.pubs ∧ p.pubId ≠ 0 ∧ p.pubId = pubId := by
  unfold pubId2pub at h
  have hp := List.find?_some h
  exact ⟨List.mem_of_find?_eq_some h, of_decide_eq_true hp⟩

lemma mem_pubsOf {pubId : ℤ} {p : Pub} :
    p ∈ cfg.pubsOf pubId ↔ p ∈ cfg.pubs ∧ p.pubId ≠ 0 ∧ p.pubId = pubId := by
  unfold pubsOf
  rw [List.mem_filter, decide_eq_true_eq]

lemma mem_getAllPubID {pubId : ℤ} :
    pubId ∈ cfg.getAllPubID ↔ ∃ p ∈ cfg.pubs, p.pubId ≠ 0 ∧ p.pubId = pubId := by
  unfold getAllPubID
  rw [mem_elements, List.mem_filter, List.mem_map, decide_eq_true_eq]
  constructor
  · rintro ⟨⟨p, hp, rfl⟩, h0⟩
    exact ⟨p, hp, h0, rfl⟩
  · rintro ⟨p, hp, h0, rfl⟩
    exact ⟨⟨p, hp, rfl⟩, h0⟩

lemma UniqueIds.pubsOf_eq (h : cfg.UniqueIds) {pubId : ℤ} {p : Pub}
    (hp : cfg.pubId2pub pubId = some p) {p' : Pub} : p' ∈ cfg.pubsOf pubId ↔ p' = p := by
  obtain ⟨hmem, h0, hid⟩ := of_pubId2pub hp
  constructor
  · intro hp'
    obtain ⟨hmem', h0', hid'⟩ := mem_pubsOf.mp hp'
    refine List.inj_on_of_nodup_map h.pubs ?_ ?_ (hid'.trans hid.symm)
    · exact List.mem_filter.mpr ⟨hmem', decide_eq_true h0'⟩
    · exact List.mem_filter.mpr ⟨hmem, decide_eq_true h0⟩
  · rintro rfl
    exact mem_pubsOf.mpr ⟨hmem, h0, hid⟩

lemma exists_pubId2pub {p : Pub} (hp : p ∈ cfg.pubs) (h0 : p.pubId ≠ 0) :
    ∃ pub, cfg.pubId2pub p.pubId = some pub := by
  cases hf : cfg.pubId2pub p.pubId with
  | some pub => exact ⟨pub, rfl⟩
  | none =>
    have hno := List.find?_eq_none.mp hf p hp
    exact absurd (decide_eq_true ⟨h0, rfl⟩) hno

lemma validFor_any {queueId consumerGroupId pubId : ℤ}
    (h : cfg.validFor queueId consumerGroupId pubId) : cfg.validFor queueId (-1) pubId := by
  unfold validFor at h ⊢
  split at h
  · cases h
  rename_i hne
  rw [if_neg hne]
  split at h
  · cases h
  · rw [if_neg (fun hg => hg.1 rfl)]
    exact h

/-- What is valid for a publisher and group is valid. -/
theorem isValidQueue_of_isValidQueueOf {queueId pubId consumerGroupId : ℤ}
    (h : cfg.isValidQueueOf queueId pubId consumerGroupId) : cfg.isValidQueue queueId := by
  unfold isValidQueue
  unfold isValidQueueOf at h ⊢
  rw [if_neg (fun hn => hn rfl)]
  split at h
  · refine List.any_eq_true.mpr ⟨pubId, ?_, validFor_any h⟩
    unfold validFor at h
    split at h
    · cases h
    · rename_i hne
      obtain ⟨p, hp⟩ := List.exists_mem_of_ne_nil _ hne
      exact mem_getAllPubID.mpr ⟨p, mem_pubsOf.mp hp⟩
  · obtain ⟨p, hp, hv⟩ := List.any_eq_true.mp h
    exact List.any_eq_true.mpr ⟨p, hp, validFor_any hv⟩

lemma of_queueInfoId2queueInfo {id : ℤ} {q : QueueInfo}
    (h : cfg.queueInfoId2queueInfo id = some q) :
    q ∈ cfg.queueInfos ∧ q.queueInfoId ≠ 0 ∧ q.queueInfoId = id := by
  unfold queueInfoId2queueInfo at h
  have hq := List.find?_some h
  exact ⟨List.mem_of_find?_eq_some h, of_decide_eq_true hq⟩

lemma exists_of_inQueueInfos {queueId : ℤ} {ids : List ℤ} (h : cfg.inQueueInfos queueId ids) :
    ∃ q ∈ cfg.queueInfos, q.queueInfoId ≠ 0 ∧ inRanges q.ranges queueId := by
  induction ids with
  | nil => cases h
  | cons id ids ih =>
    unfold inQueueInfos at h
    cases hq : cfg.queueInfoId2queueInfo id with
    | none =>
      rw [hq] at h
      cases h
    | some q =>
      rw [hq] at h
      by_cases hr : inRanges q.ranges queueId
      · obtain ⟨hmem, hid, _⟩ := of_queueInfoId2queueInfo hq
        exact ⟨q, hmem, hid, hr⟩
      · dsimp only at h
        rw [if_neg hr] at h
        exact ih h

theorem exists_getQueueInfoByQueue {queueId : ℤ} (h : cfg.isValidQueue queueId) :
    ∃ q, cfg.getQueueInfoByQueue queueId = .ok q := by
  obtain ⟨q, hq, hid, hr⟩ : ∃ q ∈ cfg.queueInfos, q.queueInfoId ≠ 0 ∧
      inRanges q.ranges queueId := by
    unfold isValidQueue isValidQueueOf at h
    rw [if_neg (fun hn => hn rfl)] at h
    obtain ⟨p, _, hv⟩ := List.any_eq_true.mp h
    unfold validFor at hv
    split at hv
    · cases hv
    split at hv
    · cases hv
    · exact exists_of_inQueueInfos hv
  unfold getQueueInfoByQueue
  cases hf : cfg.queueInfos.reverse.find? fun q =>
      q.queueInfoId ≠ 0 ∧ inRanges q.ranges queueId with
  | none =>
    have hno := List.find?_eq_none.mp hf q (List.mem_reverse.mpr hq)
    exact absurd (decide_eq_true ⟨hid, hr⟩) hno
  | some q' =>
    have hq' := List.mem_reverse.mp (List.mem_of_find?_eq_some hf)
    have hid' := List.find?_some hf
    have hid' := (of_decide_eq_true hid').1
    dsimp only
    cases hi : cfg.queueInfoId2queueInfo q'.queueInfoId with
    | none =>
      unfold queueInfoId2queueInfo at hi
      have hno := List.find?_eq_none.mp hi q' hq'
      exact absurd (decide_eq_true ⟨hid', rfl⟩) hno
    | some q'' => exact ⟨q'', rfl⟩

end TopicConfig

end PhxQueue.Config
