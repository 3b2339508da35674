import Mathlib.Data.List.Rotate
import PhxQueue.Consumer.AllQueues
import PhxQueue.Producer.Selector

/-!
# The queues that are selected

`QueueSelectorDefault::GetQueueID` over `GetQueueByLoopRank`, whose errors it only logs.  The rank is
a hash of the uin, plus the number of calls when the queue is switched.

* `queuesOf`, `getQueueByRank_eq`   the queues of some ranges, in order: the rank is their index;
* `QueueSelector.calls`             calls of one selector;
* `calls_eq_rotate`                 as many calls as there are queues go around once;
* `isValidQueueOf_iff`              `IsValidQueue` gives up at a queue info id that is missing;
* `selectsRight_iff`                **every queue that is selected is a valid one exactly when the
                                    queue info of the count has queues, and none of them hides behind
                                    a missing id**.
-/

set_option linter.unusedSectionVars false

namespace PhxQueue.Producer
open Comm Config Lib Consumer

/-! ## Ranks -/

def queuesOf (ranges : List (ℤ × ℤ)) : List ℤ :=
  ranges.flatMap fun range =>
    (List.range (range.2 - range.1 + 1).toNat).map fun n : ℕ => range.1 + n

/-- `Rebuild` reads a range only when it is not empty. -/
def RangesRead (topic : TopicConfig) : Prop :=
  ∀ info ∈ topic.queueInfos, ∀ range ∈ info.ranges, range.1 ≤ range.2

def Apart (range range' : ℤ × ℤ) : Prop :=
  ∀ q, range.1 ≤ q → q ≤ range.2 → range'.1 ≤ q → ¬ q ≤ range'.2

section
variable {ranges : List (ℤ × ℤ)} {q : ℤ}

/-- **A rank is an index.** -/
lemma getQueueByRank_eq (r : ℕ) (ranges : List (ℤ × ℤ)) :
    TopicConfig.getQueueByRank r ranges = (queuesOf ranges)[r]? := by
  induction ranges generalizing r with
  | nil => rfl
  | cons range ranges ih =>
    have hlen : ((List.range (range.2 - range.1 + 1).toNat).map
        fun n : ℕ => range.1 + n).length = (range.2 - range.1 + 1).toNat := by simp
    unfold TopicConfig.getQueueByRank queuesOf
    rw [List.flatMap_cons]
    split
    · rename_i hge
      rw [ih, List.getElem?_append_right (by omega), hlen]
      rfl
    · rename_i hlt
      rw [List.getElem?_append_left (by omega), List.getElem?_map,
        List.getElem?_range (by omega)]
      rfl

lemma mem_queuesOf : q ∈ queuesOf ranges ↔ TopicConfig.inRanges ranges q := by
  unfold queuesOf TopicConfig.inRanges
  simp only [List.mem_flatMap, List.mem_map, List.mem_range, List.any_eq_true, decide_eq_true_eq]
  apply exists_congr
  intro range
  apply and_congr_right
  intro _
  constructor
  · rintro ⟨n, hn, rfl⟩
    omega
  · intro hq
    exact ⟨(q - range.1).toNat, by omega, by omega⟩

lemma getNQueue_eq (h : ∀ range ∈ ranges, range.1 ≤ range.2) :
    TopicConfig.getNQueue ranges = (queuesOf ranges).length := by
  induction ranges with
  | nil => rfl
  | cons range ranges ih =>
    obtain ⟨hrange, hranges⟩ := List.forall_mem_cons.mp h
    have ih := ih hranges
    have hlen : (queuesOf (range :: ranges)).length =
        (range.2 - range.1 + 1).toNat + (queuesOf ranges).length := by
      simp [queuesOf]
    unfold TopicConfig.getNQueue at ih ⊢
    rw [List.map_cons, List.sum_cons, ih, hlen]
    omega

lemma nodup_queuesOf (h : ranges.Pairwise Apart) : (queuesOf ranges).Nodup := by
  unfold queuesOf
  rw [List.nodup_flatMap]
  constructor
  · intro range _
    apply List.Nodup.map _ List.nodup_range
    intro n n' heq
    simpa using heq
  · apply h.imp
    intro range range' hapart q hq hq'
    obtain ⟨n, hn, rfl⟩ := List.mem_map.mp hq
    obtain ⟨n', hn', heq⟩ := List.mem_map.mp hq'
    have hn := List.mem_range.mp hn
    have hn' := List.mem_range.mp hn'
    exact hapart (range.1 + n) (by omega) (by omega) (by omega) (by omega)

end

/-! ## The selector -/

namespace SelectConfig

/-- The configuration of a selector that switches the queue, or not. -/
def switchQueue (cfg : SelectConfig) (retrySwitchQueue : Bool) : SelectConfig :=
  { cfg with producerRetrySwitchQueue := retrySwitchQueue }

end SelectConfig

section
variable (cfg : SelectConfig) (crc32 : ℕ → ℕ → ℕ → ℕ)

/-- Calls of `GetQueueID` of one selector, each with its random number and the variable it sets. -/
def QueueSelector.calls :
    List (Rand × ℤ) → QueueSelector → Except RetCode (List ℤ × QueueSelector)
  | [], qs => .ok ([], qs)
  | (rand, queueId) :: envs, qs =>
    match qs.getQueueID cfg crc32 rand queueId with
    | .error ret => .error ret
    | .ok (q, qs) =>
      match QueueSelector.calls envs qs with
      | .error ret => .error ret
      | .ok (queues, qs) => .ok (q :: queues, qs)

/-- **What the selector is to give** for a publisher and a count: queues of the queue info that
belongs to the count, which are valid for the publisher; and each of them once in as many calls, for
a uin, when the queue is switched and the ranges are disjoint. -/
structure SelectsRight (p count : ℤ) : Prop where
  valid : ∀ (retrySwitchQueue : Bool) (uin retry : ℕ) (rand : Rand) (queueId q : ℤ)
    (qs : QueueSelector),
    QueueSelector.getQueueID (cfg.switchQueue retrySwitchQueue) crc32 ⟨p, uin, count, retry⟩ rand
      queueId = .ok (q, qs) →
    ∃ id, cfg.topic.getQueueInfoIDByCount p count = .ok id ∧ InQueueInfo cfg.topic id q ∧
      cfg.topic.isValidQueueOf q p (-1)
  fair : ∀ (id : ℤ) (info : QueueInfo) (uin retry : ℕ) (envs : List (Rand × ℤ)),
    cfg.topic.getQueueInfoIDByCount p count = .ok id →
    cfg.topic.queueInfoId2queueInfo id = some info → info.ranges.Pairwise Apart →
    uin ≠ 0 → cfg.handleByRandomUin id = false →
    (envs.length : ℤ) = TopicConfig.getNQueue info.ranges →
    ∃ queues qs, QueueSelector.calls (cfg.switchQueue true) crc32 envs ⟨p, uin, count, retry⟩ =
        .ok (queues, qs) ∧
      queues.Nodup ∧ ∀ q, q ∈ queues ↔ InQueueInfo cfg.topic id q

end

/-- A publisher, or any one for `-1`, has a queue in a queue info of its own, and no smaller queue
info id of it is missing. -/
def ListedFor (topic : TopicConfig) (p q : ℤ) : Prop :=
  ∃ p', (p ≠ -1 → p' = p) ∧ ∃ id ∈ (topic.pubsOf p').flatMap Pub.queueInfoIds,
    InQueueInfo topic id q ∧ ∀ id' ∈ (topic.pubsOf p').flatMap Pub.queueInfoIds, id' < id →
      topic.queueInfoId2queueInfo id' ≠ none

/-- The queue info of the count has queues, and all of them are listed. -/
def QueuesListed (topic : TopicConfig) (p count : ℤ) : Prop :=
  ∀ id, topic.getQueueInfoIDByCount p count = .ok id →
    (∃ q, InQueueInfo topic id q) ∧ ∀ q, InQueueInfo topic id q → ListedFor topic p q

section
variable {topic : TopicConfig} {p q : ℤ}

lemma validFor_iff_listed : topic.validFor q (-1) p ↔
    ∃ id ∈ (topic.pubsOf p).flatMap Pub.queueInfoIds, InQueueInfo topic id q ∧
      ∀ id' ∈ (topic.pubsOf p).flatMap Pub.queueInfoIds, id' < id →
        topic.queueInfoId2queueInfo id' ≠ none := by
  unfold TopicConfig.validFor
  split
  · rename_i hnil
    simp [hnil]
  · rw [if_neg (fun h => h.1 rfl), inQueueInfos_iff (pairwise_elements _)]
    simp only [mem_elements]

theorem isValidQueueOf_iff : topic.isValidQueueOf q p (-1) ↔ ListedFor topic p q := by
  unfold TopicConfig.isValidQueueOf ListedFor
  split
  · rename_i hp
    rw [validFor_iff_listed]
    constructor
    · exact fun h => ⟨p, fun _ => rfl, h⟩
    · rintro ⟨p', hp', h⟩
      exact hp' hp ▸ h
  · rename_i hp
    rw [List.any_eq_true]
    constructor
    · rintro ⟨p', _, h⟩
      exact ⟨p', fun hne => absurd hne hp, validFor_iff_listed.mp h⟩
    · rintro ⟨p', _, h⟩
      obtain ⟨id, hid, _⟩ := id h
      obtain ⟨pub, hpub, _⟩ := List.mem_flatMap.mp hid
      exact ⟨p', TopicConfig.mem_getAllPubID.mpr ⟨pub, TopicConfig.mem_pubsOf.mp hpub⟩,
        validFor_iff_listed.mpr h⟩

end

/-! ## Calls -/

section
variable {cfg : SelectConfig} {crc32 : ℕ → ℕ → ℕ → ℕ} {p count id : ℤ} {info : QueueInfo}

lemma getQueueByLoopRank_eq (hread : RangesRead cfg.topic)
    (hinfo : cfg.topic.queueInfoId2queueInfo id = some info) (rank : ℕ) :
    cfg.topic.getQueueByLoopRank id rank =
      (queuesOf info.ranges)[rank % (queuesOf info.ranges).length]? := by
  have hlen := getNQueue_eq (hread info (TopicConfig.of_queueInfoId2queueInfo hinfo).1)
  unfold TopicConfig.getQueueByLoopRank
  rw [hinfo]
  dsimp only
  rw [hlen]
  split
  · rename_i hzero
    have hnil : queuesOf info.ranges = [] := List.length_eq_zero_iff.mp (by omega)
    simp [hnil]
  · rw [getQueueByRank_eq, Int.toNat_natCast]

/-- The queue of a call: the hash of the uin is the rank of the first one, and does not depend on the
random number where the uin is used. -/
lemma exists_hash (hread : RangesRead cfg.topic)
    (hid : cfg.topic.getQueueInfoIDByCount p count = .ok id)
    (hinfo : cfg.topic.queueInfoId2queueInfo id = some info) (crc32 : ℕ → ℕ → ℕ → ℕ) (uin : ℕ) :
    ∃ rd : Rand → ℕ, (∀ (retrySwitchQueue : Bool) (retry : ℕ) (rand : Rand) (queueId : ℤ),
      QueueSelector.getQueueID (cfg.switchQueue retrySwitchQueue) crc32 ⟨p, uin, count, retry⟩ rand
        queueId = .ok (((queuesOf info.ranges)[(rd rand + if retrySwitchQueue then retry else 0) %
          (queuesOf info.ranges).length]?).getD queueId, ⟨p, uin, count, retry + 1⟩)) ∧
      (uin ≠ 0 → cfg.handleByRandomUin id = false → ∀ rand rand', rd rand = rd rand') := by
  refine ⟨fun rand => crc32 (crc32 0 (wrap64 (if uin = 0 ∨ cfg.handleByRandomUin id then rand.val
    else uin)) 8) (intKey cfg.topicId) 4, ?_, ?_⟩
  · intro retrySwitchQueue retry rand queueId
    rw [getQueueID_eq (show (cfg.switchQueue retrySwitchQueue).topic.getQueueInfoIDByCount p count =
      .ok id from hid)]
    unfold SelectConfig.queueOf SelectConfig.switchQueue
    dsimp only
    rw [getQueueByLoopRank_eq hread hinfo]
  · intro huin hrandom rand rand'
    have hno : ¬ (uin = 0 ∨ cfg.handleByRandomUin id = true) := by
      simp [huin, hrandom]
    dsimp only
    rw [if_neg hno, if_neg hno]

theorem calls_eq {rd retry uin : ℕ} {queues : List ℤ} (hne : queues ≠ [])
    (hcall : ∀ (retry : ℕ) (rand : Rand) (queueId : ℤ),
      QueueSelector.getQueueID cfg crc32 ⟨p, uin, count, retry⟩ rand queueId =
        .ok ((queues[(rd + retry) % queues.length]?).getD queueId, ⟨p, uin, count, retry + 1⟩))
    (envs : List (Rand × ℤ)) :
    QueueSelector.calls cfg crc32 envs ⟨p, uin, count, retry⟩ =
      .ok ((List.range envs.length).map fun i => queues.getD ((rd + retry + i) % queues.length) 0,
        ⟨p, uin, count, retry + envs.length⟩) := by
  induction envs generalizing retry with
  | nil => rfl
  | cons env envs ih =>
    have hlt : ∀ k, k % queues.length < queues.length := fun k =>
      Nat.mod_lt _ (List.length_pos_of_ne_nil hne)
    have hfirst : (queues[(rd + retry) % queues.length]?).getD env.2 =
        queues.getD ((rd + retry + 0) % queues.length) 0 := by
      rw [Nat.add_zero, List.getD_eq_getElem _ _ (hlt _), List.getElem?_eq_getElem (hlt _)]
      rfl
    unfold QueueSelector.calls
    rw [hcall]
    dsimp only
    rw [ih, hfirst, List.length_cons, List.range_succ_eq_map, List.map_cons, List.map_map]
    dsimp only
    have hrest : (fun i => queues.getD ((rd + (retry + 1) + i) % queues.length) 0) =
        (fun i => queues.getD ((rd + retry + i) % queues.length) 0) ∘ Nat.succ := by
      funext i
      show _ = queues.getD ((rd + retry + (i + 1)) % queues.length) 0
      congr 2
      omega
    rw [hrest]
    congr 3
    omega

lemma range_map_eq_rotate {queues : List ℤ} (k : ℕ) :
    ((List.range queues.length).map fun i => queues.getD ((k + i) % queues.length) 0) =
      queues.rotate k := by
  apply List.ext_getElem
  · simp
  · intro i hi _
    have hi : i < queues.length := by simpa using hi
    have hlt : (k + i) % queues.length < queues.length := Nat.mod_lt _ (by omega)
    rw [List.getElem_map, List.getElem_range, List.getD_eq_getElem _ _ hlt, List.getElem_rotate]
    congr 2
    omega

/-- Calls for a uin are fair, whatever the queues are worth. -/
lemma calls_fair (hread : RangesRead cfg.topic)
    (hid : cfg.topic.getQueueInfoIDByCount p count = .ok id)
    (hinfo : cfg.topic.queueInfoId2queueInfo id = some info) (hapart : info.ranges.Pairwise Apart)
    {uin : ℕ} (huin : uin ≠ 0) (hrandom : cfg.handleByRandomUin id = false) (retry : ℕ)
    {envs : List (Rand × ℤ)} (hlen : (envs.length : ℤ) = TopicConfig.getNQueue info.ranges) :
    ∃ queues qs, QueueSelector.calls (cfg.switchQueue true) crc32 envs ⟨p, uin, count, retry⟩ =
        .ok (queues, qs) ∧
      queues.Nodup ∧ ∀ q, q ∈ queues ↔ InQueueInfo cfg.topic id q := by
  have hin : ∀ q, q ∈ queuesOf info.ranges ↔ InQueueInfo cfg.topic id q := by
    intro q
    rw [mem_queuesOf]
    unfold InQueueInfo
    simp [hinfo]
  rw [getNQueue_eq (hread info (TopicConfig.of_queueInfoId2queueInfo hinfo).1), Nat.cast_inj] at hlen
  by_cases hne : queuesOf info.ranges = []
  · rw [hne] at hlen hin
    obtain rfl := List.length_eq_zero_iff.mp hlen
    exact ⟨[], _, rfl, List.nodup_nil, hin⟩
  · obtain ⟨rd, hcall, hconst⟩ := exists_hash hread hid hinfo crc32 uin
    have hcalls := @calls_eq (cfg.switchQueue true) crc32 p count (rd 0) retry uin _ hne
      (fun retry rand queueId => by
        rw [hcall true retry rand queueId, hconst huin hrandom rand 0]
        rfl) envs
    rw [hlen, range_map_eq_rotate] at hcalls
    refine ⟨_, _, hcalls, List.nodup_rotate.mpr (nodup_queuesOf hapart), fun q => ?_⟩
    rw [List.mem_rotate]
    exact hin q

end

/-- **The queues that are selected are right** exactly when the queue info of the count has queues
and all of these are listed for the publisher; going around them is fair in any case. -/
theorem selectsRight_iff (cfg : SelectConfig) (hread : RangesRead cfg.topic)
    (crc32 : ℕ → ℕ → ℕ → ℕ) (p count : ℤ) :
    SelectsRight cfg crc32 p count ↔ QueuesListed cfg.topic p count := by
  constructor
  · intro h id hid
    obtain ⟨info, hinfo⟩ : ∃ info, cfg.topic.queueInfoId2queueInfo id = some info := by
      unfold TopicConfig.getQueueInfoIDByCount at hid
      split at hid
      · cases hid
      · exact exists_queueInfo hid
    obtain ⟨rd, hcall, _⟩ := exists_hash hread hid hinfo crc32 0
    have hin : ∀ q, q ∈ queuesOf info.ranges ↔ InQueueInfo cfg.topic id q := by
      intro q
      rw [mem_queuesOf]
      unfold InQueueInfo
      simp [hinfo]
    have hvalid : ∀ (retry : ℕ) (queueId : ℤ), InQueueInfo cfg.topic id
        (((queuesOf info.ranges)[(rd 0 + retry) % (queuesOf info.ranges).length]?).getD queueId) ∧
        cfg.topic.isValidQueueOf (((queuesOf info.ranges)[(rd 0 + retry) %
          (queuesOf info.ranges).length]?).getD queueId) p (-1) := by
      intro retry queueId
      obtain ⟨id', hid', hq⟩ := h.valid true 0 retry 0 queueId _ _ (hcall true retry 0 queueId)
      rw [hid] at hid'
      cases hid'
      exact hq
    constructor
    · exact ⟨_, (hvalid 0 0).1⟩
    · intro q hq
      obtain ⟨r, hr, rfl⟩ := List.mem_iff_getElem.mp ((hin q).mpr hq)
      -- some number of retries leads to the rank `r`
      have hrank : (rd 0 + (r + (queuesOf info.ranges).length * (rd 0) - rd 0)) %
          (queuesOf info.ranges).length = r := by
        have hle : rd 0 ≤ (queuesOf info.ranges).length * rd 0 :=
          Nat.le_mul_of_pos_left _ (by omega)
        have heq : rd 0 + (r + (queuesOf info.ranges).length * rd 0 - rd 0) =
            r + (queuesOf info.ranges).length * rd 0 := by omega
        rw [heq, Nat.add_mul_mod_self_left, Nat.mod_eq_of_lt hr]
      have hq := (hvalid (r + (queuesOf info.ranges).length * (rd 0) - rd 0) 0).2
      rw [hrank, List.getElem?_eq_getElem hr] at hq
      exact isValidQueueOf_iff.mp hq
  · intro h
    constructor
    · intro retrySwitchQueue uin retry rand queueId q qs hq
      cases hid : cfg.topic.getQueueInfoIDByCount p count with
      | error ret =>
        unfold QueueSelector.getQueueID at hq
        have hid : (cfg.switchQueue retrySwitchQueue).topic.getQueueInfoIDByCount p count =
            .error ret := hid
        rw [hid] at hq
        cases hq
      | ok id =>
        obtain ⟨⟨q₀, info, hinfo, hq₀⟩, hlisted⟩ := h id hid
        obtain ⟨rd, hcall, _⟩ := exists_hash hread hid hinfo crc32 uin
        rw [hcall] at hq
        have hpos : 0 < (queuesOf info.ranges).length :=
          List.length_pos_of_mem (mem_queuesOf.mpr hq₀)
        obtain ⟨q', hq'⟩ : ∃ q', (queuesOf info.ranges)[(rd rand + if retrySwitchQueue then retry
            else 0) % (queuesOf info.ranges).length]? = some q' :=
          ⟨_, List.getElem?_eq_getElem (Nat.mod_lt _ hpos)⟩
        rw [hq'] at hq
        cases hq
        have hin : InQueueInfo cfg.topic id q' :=
          ⟨info, hinfo, mem_queuesOf.mp (List.mem_of_getElem? hq')⟩
        exact ⟨id, rfl, hin, isValidQueueOf_iff.mpr (hlisted _ hin)⟩
    · intro id info uin retry envs hid hinfo hapart huin hrandom hlen
      exact calls_fair hread hid hinfo hapart huin hrandom retry hlen

/-- Publisher 1 with these queue info ids, of which 2 is configured, with these ranges. -/
def oneQueueInfo (queueInfoIds : List ℤ) (ranges : List (ℤ × ℤ)) : SelectConfig where
  topicId := 1000
  topic := {
    pubs := [⟨1, [1], queueInfoIds⟩]
    queueInfos := [{ queueInfoId := 2, ranges := ranges }]
    itemsByteSizeLimit := 0 }
  stores := []
  lastModTime := 0

theorem oneQueueInfo_right : SelectsRight (oneQueueInfo [2] [(0, 9)]) (fun crc _ _ => crc) 1 0 := by
  refine (selectsRight_iff (oneQueueInfo [2] [(0, 9)]) ?_ (fun crc _ _ => crc) 1 0).mpr ?_
  · unfold RangesRead
    decide
  · intro id hid
    obtain rfl : id = 2 := by
      cases hid
      rfl
    refine ⟨⟨0, _, rfl, by decide⟩, fun q hq => ⟨1, fun _ => rfl, 2, by decide, hq, by decide⟩⟩

/-- **Counterexample.**  Without ranges the selector succeeds and sets no queue; and a queue info id
that is missing, and smaller, makes the queue that is set an invalid one. -/
theorem oneQueueInfo_not_right :
    QueueSelector.getQueueID (oneQueueInfo [2] []) (fun crc _ _ => crc) ⟨1, 7, 0, 0⟩ 0 (-12345) =
        .ok (-12345, ⟨1, 7, 0, 1⟩) ∧
      ¬ SelectsRight (oneQueueInfo [2] []) (fun crc _ _ => crc) 1 0 ∧
      ¬ SelectsRight (oneQueueInfo [2, 1] [(0, 9)]) (fun crc _ _ => crc) 1 0 := by
  refine ⟨rfl, fun h => ?_, fun h => ?_⟩
  · obtain ⟨id, _, ⟨info, hinfo, hin⟩, _⟩ := h.valid true 7 0 0 (-12345) _ _ rfl
    have hmem := (TopicConfig.of_queueInfoId2queueInfo hinfo).1
    obtain rfl := List.mem_singleton.mp hmem
    cases hin
  · obtain ⟨_, _, _, hvalid⟩ := h.valid true 7 0 0 0 _ _ rfl
    revert hvalid
    decide

end PhxQueue.Producer
