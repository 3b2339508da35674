import PhxQueue.Config.Rebuild
import PhxQueue.Producer.QueueRank

/-!
# The indexes of the topic configuration

What the queries over the maps of `Rebuild` have in common.  An entry with id 0 is passed over, and
`IsValidQueue` takes the publisher -1 for any.

* `Contains`, `ListedBy`   the queues of a queue info, and of a publisher;
* `WellFormed`             unique ids, disjoint ranges that can be counted, no reference to nothing;
* `IndexesAgree`           what the queries are to answer;
* `pairwise_lt_queuesOf`   the queues of disjoint ranges in order are in order;
* `indexesAgree`           **the queries agree**.
-/

set_option linter.unusedSectionVars false

namespace PhxQueue.Producer
open Comm Config Consumer

/-! ## What the indexes are to say -/

/-- The ranges of a queue info contain a queue. -/
def Contains (info : ProtoQueueInfo) (q : ℤ) : Prop :=
  ∃ ranges, readRanges info.ranges = some ranges ∧ TopicConfig.inRanges ranges q

/-- Some queue info that a publisher refers to contains a queue. -/
def ListedBy (proto : ProtoTopicConfig) (p q : ℤ) : Prop :=
  ∃ pub ∈ proto.pubs, pub.pubId = p ∧
    ∃ info ∈ proto.queueInfos, info.queueInfoId ∈ pub.queueInfoIds ∧ Contains info q

/-- The ranges of a queue info, as far as they can be read. -/
def rangesOf (info : ProtoQueueInfo) : List (ℤ × ℤ) := (readRanges info.ranges).getD []

/-- Unique ids, disjoint ranges below 2^31 - 1, and queue infos for all references. -/
structure WellFormed (proto : ProtoTopicConfig) : Prop where
  pubs : ((proto.pubs.filter fun p => p.pubId ≠ 0).map Pub.pubId).Nodup
  queueInfos :
    ((proto.queueInfos.filter fun q => q.queueInfoId ≠ 0).map ProtoQueueInfo.queueInfoId).Nodup
  apart : ((proto.queueInfos.filter fun q => q.queueInfoId ≠ 0).flatMap rangesOf).Pairwise Apart
  bounds : ∀ info ∈ proto.queueInfos, info.queueInfoId ≠ 0 →
    ∀ range ∈ rangesOf info, range.2 < 2 ^ 31 - 1
  references : ∀ pub ∈ proto.pubs, pub.pubId ≠ 0 → ∀ id ∈ pub.queueInfoIds,
    ∃ info ∈ proto.queueInfos, info.queueInfoId ≠ 0 ∧ info.queueInfoId = id

/-- The queues of a queue info: the list of them is in order, its length an `int`, and a rank is an
index of it. -/
structure QueuesAgree (impl : TopicConfigImpl) (info : ProtoQueueInfo) (queues : List ℤ) : Prop where
  increasing : queues.Pairwise (· < ·)
  union : ∀ q, q ∈ queues ↔ Contains info q
  list : impl.getQueuesByQueueInfoID info.queueInfoId = .ok queues
  nqueue : impl.getNQueue info.queueInfoId = .ok queues.length
  isInt : queues.length < 2 ^ 31
  rank : ∀ r, impl.getQueueByRank info.queueInfoId r =
    if h : r < queues.length then .ok queues[r] else .error .errRangeRank
  loopRank : ∀ r, impl.getQueueByLoopRank info.queueInfoId r =
    if queues = [] then .error .errNqueueInvalid
    else impl.getQueueByRank info.queueInfoId (r % queues.length)

/-- **The queries agree.** -/
structure IndexesAgree (proto : ProtoTopicConfig) (impl : TopicConfigImpl) : Prop where
  valid : ∀ q p, p ≠ -1 → (impl.isValidQueue q p (-1) ↔ p ≠ 0 ∧ ListedBy proto p q)
  validAny : ∀ q, impl.isValidQueue q (-1) (-1) ↔ ∃ p, p ≠ 0 ∧ ListedBy proto p q
  found : ∀ info ∈ proto.queueInfos, info.queueInfoId ≠ 0 → ∀ q, Contains info q →
    impl.getQueueInfoByQueue q = .ok info
  notFound : ∀ q, (∀ info ∈ proto.queueInfos, info.queueInfoId ≠ 0 → ¬ Contains info q) →
    impl.getQueueInfoByQueue q = .error .errRangeQueue
  queues : ∀ info ∈ proto.queueInfos, info.queueInfoId ≠ 0 →
    ∃ queues, QueuesAgree impl info queues

/-! ## Ranges in order -/

instance : Std.Total pairLe := ⟨fun a b => by unfold pairLe; omega⟩

instance : IsTrans (ℤ × ℤ) pairLe := ⟨fun a b c hab hbc => by unfold pairLe at *; omega⟩

section
variable {ranges ranges' : List (ℤ × ℤ)}

lemma inRanges_congr (h : ∀ range, range ∈ ranges ↔ range ∈ ranges') (q : ℤ) :
    TopicConfig.inRanges ranges q ↔ TopicConfig.inRanges ranges' q := by
  unfold TopicConfig.inRanges
  rw [List.any_eq_true, List.any_eq_true]
  apply exists_congr
  intro range
  rw [h]

instance : Std.Symm Apart := ⟨fun _ _ h q hb hb' ha ha' => h q ha ha' hb hb'⟩

/-- The queues of disjoint ranges that are in order are in order. -/
lemma pairwise_lt_queuesOf (hread : ∀ range ∈ ranges, range.1 ≤ range.2)
    (hsorted : ranges.Pairwise pairLe) (hapart : ranges.Pairwise Apart) :
    (queuesOf ranges).Pairwise (· < ·) := by
  unfold queuesOf
  rw [List.pairwise_flatMap]
  constructor
  · intro range _
    rw [List.pairwise_map]
    apply List.Pairwise.imp _ (List.pairwise_lt_range)
    intro n n' hlt
    omega
  · apply List.Pairwise.imp_of_mem _ (hsorted.and hapart)
    intro a b ha hb hab x hx y hy
    obtain ⟨n, hn, rfl⟩ := List.mem_map.mp hx
    obtain ⟨m, hm, rfl⟩ := List.mem_map.mp hy
    have hn := List.mem_range.mp hn
    have ha := hread a ha
    have hb := hread b hb
    obtain ⟨hle, hapart⟩ := hab
    have hfirst : a.1 ≤ b.1 := by
      unfold pairLe at hle
      omega
    -- otherwise the second one would begin in the first one
    have hlast : a.2 < b.1 := by
      by_contra hge
      exact hapart b.1 hfirst (by omega) (le_refl _) hb
    omega

lemma elements_eq_self {l : List ℤ} (h : l.Pairwise (· < ·)) : elements l = l := by
  unfold elements
  rw [List.Nodup.dedup (h.imp fun hlt => ne_of_lt hlt)]
  exact (h.imp fun hlt => le_of_lt hlt).insertionSort_eq

/-- Different numbers from 0 on below a bound are at most as many. -/
lemma length_le_of_bounded {l : List ℤ} {n : ℕ} (hnodup : l.Nodup) (h : ∀ x ∈ l, 0 ≤ x ∧ x < n) :
    l.length ≤ n := by
  have hsub : l.toFinset ⊆ Finset.Ico (0 : ℤ) n := by
    intro x hx
    exact Finset.mem_Ico.mpr (h x (List.mem_toFinset.mp hx))
  have hcard := Finset.card_le_card hsub
  rw [List.toFinset_card_of_nodup hnodup, Int.card_Ico] at hcard
  omega

end

/-! ## What has been read -/

section
variable {proto : ProtoTopicConfig} {cfg : TopicConfig} {impl : TopicConfigImpl}
  {q : ProtoQueueInfo} {info : QueueInfo} {protos : List ProtoQueueInfo} {infos : List QueueInfo}

/-- Where ids are unique, an entry is found by its own. -/
lemma find?_of_unique {α : Type} {id : α → ℤ} {l : List α}
    (hnodup : ((l.filter fun x => id x ≠ 0).map id).Nodup) {x : α} (hx : x ∈ l) (hne : id x ≠ 0) :
    (l.find? fun y => id y ≠ 0 ∧ id y = id x) = some x := by
  cases hf : l.find? fun y => id y ≠ 0 ∧ id y = id x with
  | none =>
    have hno := List.find?_eq_none.mp hf x hx
    exact absurd (by simpa using hne) hno
  | some y =>
    have hy := List.find?_some hf
    have hy := of_decide_eq_true hy
    have hmem := List.mem_of_find?_eq_some hf
    apply congrArg some
    exact List.inj_on_of_nodup_map hnodup (List.mem_filter.mpr ⟨hmem, decide_eq_true hy.1⟩)
      (List.mem_filter.mpr ⟨hx, decide_eq_true hne⟩) hy.2

lemma of_read (hne : q.queueInfoId ≠ 0) (h : q.read = some info) :
    readRanges q.ranges = some (rangesOf q) ∧
      info = ⟨q.queueInfoId, (rangesOf q).insertionSort pairLe, q.dropAll, q.count⟩ := by
  unfold ProtoQueueInfo.read at h
  rw [if_neg hne] at h
  obtain ⟨ranges, hranges, rfl⟩ := Option.map_eq_some_iff.mp h
  unfold rangesOf
  rw [hranges]
  exact ⟨rfl, rfl⟩

lemma exists_read (h : List.Forall₂ (fun q info => q.read = some info) protos infos)
    (hq : q ∈ protos) : ∃ info ∈ infos, q.read = some info := by
  induction h with
  | nil => exact absurd hq List.not_mem_nil
  | cons hread _ ih =>
    rcases List.mem_cons.mp hq with rfl | hq
    · exact ⟨_, List.mem_cons_self, hread⟩
    · obtain ⟨info, hinfo, hread⟩ := ih hq
      exact ⟨info, List.mem_cons_of_mem _ hinfo, hread⟩

lemma map_queueInfoId (h : List.Forall₂ (fun q info => q.read = some info) protos infos) :
    infos.map QueueInfo.queueInfoId = protos.map ProtoQueueInfo.queueInfoId := by
  induction h with
  | nil => rfl
  | cons hread _ ih => rw [List.map_cons, List.map_cons, ih, queueInfoId_of_read hread]

lemma uniqueIds_of_reads (hreads : proto.Reads cfg) (hwf : WellFormed proto) : cfg.UniqueIds := by
  constructor
  · rw [hreads.pubs]
    exact hwf.pubs
  · have hids := hwf.queueInfos
    have hfilter : ∀ {α : Type} (id : α → ℤ) (l : List α),
        (l.filter fun x => id x ≠ 0).map id = (l.map id).filter (· ≠ 0) := by
      intro α id l
      rw [List.filter_map]
      rfl
    rw [hfilter] at hids ⊢
    rw [map_queueInfoId hreads.queueInfos]
    exact hids

/-- The queue info with an id, after it has been read. -/
lemma queueInfoId2queueInfo_read (hreads : proto.Reads cfg) (hwf : WellFormed proto)
    (hq : q ∈ proto.queueInfos) (hne : q.queueInfoId ≠ 0) :
    readRanges q.ranges = some (rangesOf q) ∧ cfg.queueInfoId2queueInfo q.queueInfoId =
      some ⟨q.queueInfoId, (rangesOf q).insertionSort pairLe, q.dropAll, q.count⟩ := by
  obtain ⟨info, hinfo, hread⟩ := exists_read hreads.queueInfos hq
  obtain ⟨hranges, rfl⟩ := of_read hne hread
  exact ⟨hranges, find?_of_unique (uniqueIds_of_reads hreads hwf).queueInfos hinfo hne⟩

lemma contains_iff {x : ℤ} (h : readRanges q.ranges = some (rangesOf q)) :
    Contains q x ↔ TopicConfig.inRanges ((rangesOf q).insertionSort pairLe) x := by
  rw [inRanges_congr (fun range => List.mem_insertionSort pairLe)]
  constructor
  · rintro ⟨ranges, hranges, hin⟩
    rw [h] at hranges
    cases hranges
    exact hin
  · exact fun hin => ⟨rangesOf q, h, hin⟩

lemma inQueueInfo_iff_contains (hreads : proto.Reads cfg) (hwf : WellFormed proto)
    (hq : q ∈ proto.queueInfos) (hne : q.queueInfoId ≠ 0) {x : ℤ} :
    InQueueInfo cfg q.queueInfoId x ↔ Contains q x := by
  obtain ⟨hranges, hinfo⟩ := queueInfoId2queueInfo_read hreads hwf hq hne
  rw [contains_iff hranges]
  unfold InQueueInfo
  rw [hinfo]
  simp

/-- Two queue infos with a queue in common are the same. -/
lemma eq_of_contains (hwf : WellFormed proto) {q' : ProtoQueueInfo} (hq : q ∈ proto.queueInfos)
    (hne : q.queueInfoId ≠ 0) (hq' : q' ∈ proto.queueInfos) (hne' : q'.queueInfoId ≠ 0) {x : ℤ}
    (hx : Contains q x) (hx' : Contains q' x) : q = q' := by
  by_contra hdiff
  obtain ⟨ranges, hranges, hin⟩ := hx
  obtain ⟨ranges', hranges', hin'⟩ := hx'
  obtain ⟨range, hrange, hx⟩ := List.any_eq_true.mp hin
  obtain ⟨range', hrange', hx'⟩ := List.any_eq_true.mp hin'
  have hx := of_decide_eq_true hx
  have hx' := of_decide_eq_true hx'
  have hsymm : Std.Symm fun a b : ProtoQueueInfo =>
      ∀ r ∈ rangesOf a, ∀ r' ∈ rangesOf b, Apart r r' :=
    ⟨fun a b h r hr r' hr' => Std.Symm.symm _ _ (h r' hr' r hr)⟩
  have hapart := (List.pairwise_flatMap.mp hwf.apart).2.forall
    (List.mem_filter.mpr ⟨hq, decide_eq_true hne⟩) (List.mem_filter.mpr ⟨hq', decide_eq_true hne'⟩)
    hdiff range (by unfold rangesOf; rw [hranges]; exact hrange)
    range' (by unfold rangesOf; rw [hranges']; exact hrange')
  exact hapart x hx.1 hx.2 hx'.1 hx'.2

/-! ## The queries -/

lemma validFor_iff_listedBy (hreads : proto.Reads cfg) (hwf : WellFormed proto) {p x : ℤ} :
    cfg.validFor x (-1) p ↔ p ≠ 0 ∧ ListedBy proto p x := by
  have hrefs : ∀ id ∈ (cfg.pubsOf p).flatMap Pub.queueInfoIds,
      ∃ info ∈ proto.queueInfos, info.queueInfoId ≠ 0 ∧ info.queueInfoId = id := by
    intro id hid
    obtain ⟨pub, hpub, hid⟩ := List.mem_flatMap.mp hid
    obtain ⟨hmem, hne, _⟩ := TopicConfig.mem_pubsOf.mp hpub
    rw [hreads.pubs] at hmem
    exact hwf.references pub hmem hne id hid
  rw [validFor_iff_listed]
  constructor
  · rintro ⟨id, hid, hin, _⟩
    obtain ⟨info, hinfo, hne, rfl⟩ := hrefs id hid
    obtain ⟨pub, hpub, hid⟩ := List.mem_flatMap.mp hid
    obtain ⟨hmem, hne', hp⟩ := TopicConfig.mem_pubsOf.mp hpub
    rw [hreads.pubs] at hmem
    exact ⟨hp ▸ hne', pub, hmem, hp, info, hinfo, hid,
      (inQueueInfo_iff_contains hreads hwf hinfo hne).mp hin⟩
  · rintro ⟨hp0, pub, hmem, hp, info, hinfo, hid, hin⟩
    have hpub : pub ∈ cfg.pubsOf p := by
      apply TopicConfig.mem_pubsOf.mpr
      rw [hreads.pubs]
      exact ⟨hmem, hp ▸ hp0, hp⟩
    have hid := List.mem_flatMap.mpr ⟨pub, hpub, hid⟩
    have hne : info.queueInfoId ≠ 0 := by
      obtain ⟨info', _, hne, heq⟩ := hrefs _ hid
      exact heq ▸ hne
    refine ⟨info.queueInfoId, hid, (inQueueInfo_iff_contains hreads hwf hinfo hne).mpr hin, ?_⟩
    intro id' hid' _ hnone
    obtain ⟨info', hinfo', hne', rfl⟩ := hrefs id' hid'
    rw [(queueInfoId2queueInfo_read hreads hwf hinfo' hne').2] at hnone
    cases hnone

lemma getQueueInfoByQueue_eq (hreads : proto.Reads cfg) (hwf : WellFormed proto)
    (hans : AnswersAs impl proto cfg) (hq : q ∈ proto.queueInfos) (hne : q.queueInfoId ≠ 0) {x : ℤ}
    (hx : Contains q x) : impl.getQueueInfoByQueue x = .ok q := by
  have hqueue : impl.queue2queueInfoId[x]? = some q.queueInfoId := by
    rw [hans.queue]
    cases hf : cfg.queueInfos.reverse.find? fun info =>
        info.queueInfoId ≠ 0 ∧ TopicConfig.inRanges info.ranges x with
    | none =>
      obtain ⟨info, hinfo, hread⟩ := exists_read hreads.queueInfos hq
      obtain ⟨hranges, rfl⟩ := of_read hne hread
      have hno := List.find?_eq_none.mp hf _ (List.mem_reverse.mpr hinfo)
      exact absurd (decide_eq_true ⟨hne, (contains_iff hranges).mp hx⟩) hno
    | some info =>
      have hinfo := List.mem_reverse.mp (List.mem_of_find?_eq_some hf)
      have hf := List.find?_some hf
      obtain ⟨hne', hin⟩ := of_decide_eq_true hf
      obtain ⟨q', hq', hread⟩ := exists_of_read hreads.queueInfos hinfo
      rw [queueInfoId_of_read hread] at hne'
      obtain ⟨hranges, rfl⟩ := of_read hne' hread
      rw [eq_of_contains hwf hq hne hq' hne' hx ((contains_iff hranges).mpr hin)]
      rfl
  unfold TopicConfigImpl.getQueueInfoByQueue TopicConfigImpl.getQueueInfoByQueueInfoID
  rw [hqueue]
  dsimp only
  rw [hans.queueInfo, find?_of_unique hwf.queueInfos hq hne]

lemma getQueueInfoByQueue_error (hreads : proto.Reads cfg)
    (hans : AnswersAs impl proto cfg) {x : ℤ}
    (hno : ∀ info ∈ proto.queueInfos, info.queueInfoId ≠ 0 → ¬ Contains info x) :
    impl.getQueueInfoByQueue x = .error .errRangeQueue := by
  have hqueue : impl.queue2queueInfoId[x]? = none := by
    rw [hans.queue, Option.map_eq_none_iff, List.find?_eq_none]
    intro info hinfo hf
    obtain ⟨hne, hin⟩ := of_decide_eq_true hf
    obtain ⟨q, hq, hread⟩ := exists_of_read hreads.queueInfos (List.mem_reverse.mp hinfo)
    rw [queueInfoId_of_read hread] at hne
    obtain ⟨hranges, rfl⟩ := of_read hne hread
    exact hno q hq hne ((contains_iff hranges).mpr hin)
  unfold TopicConfigImpl.getQueueInfoByQueue
  rw [hqueue]

/-- The queues of a queue info are those of its ranges in order. -/
lemma queuesAgree (hreads : proto.Reads cfg) (hwf : WellFormed proto)
    (hans : AnswersAs impl proto cfg) (hq : q ∈ proto.queueInfos) (hne : q.queueInfoId ≠ 0) :
    QueuesAgree impl q (queuesOf ((rangesOf q).insertionSort pairLe)) := by
  obtain ⟨hread, hinfo⟩ := queueInfoId2queueInfo_read hreads hwf hq hne
  have hbounds : ∀ range ∈ (rangesOf q).insertionSort pairLe,
      0 ≤ range.1 ∧ range.1 ≤ range.2 ∧ range.2 < 2 ^ 31 - 1 := by
    intro range hrange
    have hrange := (List.mem_insertionSort pairLe).mp hrange
    obtain ⟨hfirst, hle, _⟩ := readRanges_nonneg hread range hrange
    exact ⟨hfirst, hle, hwf.bounds q hq hne range hrange⟩
  have hnonempty : ∀ range ∈ (rangesOf q).insertionSort pairLe, range.1 ≤ range.2 :=
    fun range hrange => (hbounds range hrange).2.1
  have hapart : ((rangesOf q).insertionSort pairLe).Pairwise Apart := by
    refine (List.perm_insertionSort pairLe _).symm.pairwise ?_ (fun h => Std.Symm.symm _ _ h)
    exact (List.pairwise_flatMap.mp hwf.apart).1 q
      (List.mem_filter.mpr ⟨hq, decide_eq_true hne⟩)
  have hincreasing := pairwise_lt_queuesOf hnonempty (List.pairwise_insertionSort pairLe _) hapart
  have hlen : (queuesOf ((rangesOf q).insertionSort pairLe)).length ≤ 2 ^ 31 - 1 := by
    apply length_le_of_bounded (nodup_queuesOf hapart)
    intro x hx
    obtain ⟨range, hrange, hx⟩ := List.any_eq_true.mp (mem_queuesOf.mp hx)
    have hx := of_decide_eq_true hx
    have hrange := hbounds range hrange
    push_cast
    omega
  have hranges : impl.queueInfoId2ranges[q.queueInfoId]? =
      some ((rangesOf q).insertionSort pairLe) := by
    rw [hans.ranges, hinfo]
    rfl
  have hnqueue := getNQueue_eq hnonempty
  constructor
  · exact hincreasing
  · intro x
    rw [mem_queuesOf, contains_iff hread]
  · unfold TopicConfigImpl.getQueuesByQueueInfoID
    rw [hranges]
    exact congrArg Except.ok (elements_eq_self hincreasing)
  · unfold TopicConfigImpl.getNQueue
    rw [hranges]
    exact congrArg Except.ok hnqueue
  · omega
  · intro r
    unfold TopicConfigImpl.getQueueByRank
    rw [hranges]
    dsimp only
    rw [getQueueByRank_eq]
    split
    · rename_i hnone
      rw [dif_neg (by have := List.getElem?_eq_none_iff.mp hnone; omega)]
    · rename_i queue hsome
      obtain ⟨hlt, hget⟩ := List.getElem?_eq_some_iff.mp hsome
      rw [dif_pos hlt, hget]
  · intro r
    unfold TopicConfigImpl.getQueueByLoopRank TopicConfigImpl.getNQueue
    rw [hranges]
    dsimp only
    rw [hnqueue, Int.toNat_natCast]
    apply if_congr _ rfl rfl
    rw [Int.natCast_eq_zero, List.length_eq_zero_iff]

end

/-- **After `Rebuild` the indexes agree**, for unique ids, disjoint ranges that can be counted and
queue infos for all references. -/
theorem indexesAgree (proto : ProtoTopicConfig) (hwf : WellFormed proto) (impl : TopicConfigImpl)
    (h : rebuild proto = some impl) : IndexesAgree proto impl := by
  obtain ⟨infos, hinfos⟩ := exists_reads_of_rebuild h
  have hreads : proto.Reads { pubs := proto.pubs, queueInfos := infos, itemsByteSizeLimit := 0 } :=
    ⟨rfl, hinfos⟩
  have hans := rebuild_answers hreads (uniqueIds_of_reads hreads hwf) h
  constructor
  · intro q p hp
    rw [hans.isValidQueue]
    unfold TopicConfig.isValidQueueOf
    rw [if_pos hp]
    exact validFor_iff_listedBy hreads hwf
  · intro q
    rw [hans.isValidQueue]
    unfold TopicConfig.isValidQueueOf
    rw [if_neg (fun hne => hne rfl), List.any_eq_true]
    constructor
    · rintro ⟨p, _, hvalid⟩
      exact ⟨p, (validFor_iff_listedBy hreads hwf).mp hvalid⟩
    · rintro ⟨p, hp, hlisted⟩
      refine ⟨p, ?_, (validFor_iff_listedBy hreads hwf).mpr ⟨hp, hlisted⟩⟩
      obtain ⟨pub, hpub, rfl, _⟩ := hlisted
      exact TopicConfig.mem_getAllPubID.mpr ⟨pub, hpub, hp, rfl⟩
  · exact fun info hinfo hne q hq => getQueueInfoByQueue_eq hreads hwf hans hinfo hne hq
  · exact fun q hno => getQueueInfoByQueue_error hreads hans hno
  · exact fun info hinfo hne => ⟨_, queuesAgree hreads hwf hans hinfo hne⟩

/-- Publishers with these ids, the first of queues 0 to 4 and 7, the second of queues 10 and 11. -/
def pubsWithIds (first second : ℤ) : ProtoTopicConfig where
  pubs := [⟨first, [1], [first]⟩, ⟨second, [1], [second]⟩]
  queueInfos := [{ queueInfoId := first, ranges := ["7", "0-4"] },
    { queueInfoId := second, ranges := ["10-11"] }]

lemma apart_of_lt {a b : ℤ × ℤ} (h : a.2 < b.1 ∨ b.2 < a.1) : Apart a b := by
  intro q ha ha' hb hb'
  omega

lemma wellFormed_pubsWithIds {second : ℤ} (h : second ∈ [2, -1, 0]) : WellFormed (pubsWithIds 1 second) := by
  revert second
  have hapart : ∀ second ∈ [2, -1, 0], (((pubsWithIds 1 second).queueInfos.filter
      fun q => q.queueInfoId ≠ 0).flatMap rangesOf).Pairwise
        fun a b => a.2 < b.1 ∨ b.2 < a.1 := by decide
  intro second h
  constructor
  · revert second
    decide
  · revert second
    decide
  · exact (hapart second h).imp apart_of_lt
  · revert second
    decide
  · revert second
    decide

theorem pubsWithIds_agree : ∃ impl, rebuild (pubsWithIds 1 2) = some impl ∧
    IndexesAgree (pubsWithIds 1 2) impl := by
  obtain ⟨impl, himpl⟩ : ∃ impl, rebuild (pubsWithIds 1 2) = some impl :=
    Option.isSome_iff_exists.mp (by decide)
  exact ⟨impl, himpl, indexesAgree (pubsWithIds 1 2) (wellFormed_pubsWithIds (by decide)) impl himpl⟩

/-- **Counterexample.**  For the publisher -1 a queue of the other publisher is valid, and for the
publisher 0 a queue of its own is not. -/
theorem pubsWithIds_not_agree :
    WellFormed (pubsWithIds 1 (-1)) ∧ WellFormed (pubsWithIds 1 0) ∧
      (∃ impl, rebuild (pubsWithIds 1 (-1)) = some impl ∧ impl.isValidQueue 7 (-1) (-1) = true ∧
        ¬ ListedBy (pubsWithIds 1 (-1)) (-1) 7) ∧
      ∃ impl, rebuild (pubsWithIds 1 0) = some impl ∧ impl.isValidQueue 10 0 (-1) = false ∧
        ListedBy (pubsWithIds 1 0) 0 10 := by
  refine ⟨wellFormed_pubsWithIds (by decide), wellFormed_pubsWithIds (by decide), ?_, ?_⟩
  · refine ⟨(rebuild (pubsWithIds 1 (-1))).get (by decide), (Option.some_get _).symm, by decide, ?_⟩
    rintro ⟨pub, hpub, hid, info, hinfo, hmem, ranges, hranges, hin⟩
    have hread : ∀ pub ∈ (pubsWithIds 1 (-1)).pubs, pub.pubId = -1 →
        ∀ info ∈ (pubsWithIds 1 (-1)).queueInfos, info.queueInfoId ∈ pub.queueInfoIds →
          readRanges info.ranges = some [(10, 11)] := by decide
    rw [hread pub hpub hid info hinfo hmem] at hranges
    cases hranges
    revert hin
    decide
  · refine ⟨(rebuild (pubsWithIds 1 0)).get (by decide), (Option.some_get _).symm, by decide, ?_⟩
    exact ⟨⟨0, [1], [0]⟩, by decide, rfl, { queueInfoId := 0, ranges := ["10-11"] }, by decide,
      by decide, [(10, 11)], by decide, by decide⟩

end PhxQueue.Producer
