import PhxQueue.Config.StoreConfig
import PhxQueue.Store.BaseMgr

/-!
# The queues of a consumer group

`GetAllQueues` of `consumer/hblock.cpp` enumerates the queues a consumer group consumes; a store
decides by `IsValidQueue` whose acknowledgement it waits for.  `IsValidQueue` gives up at a queue
info id that does not exist, `GetAllQueues` goes on.

* `getAllQueues`, `countsAsConsumer`   the two sides;
* `Visits`                 what a loop of `getAllQueues` adds to the list;
* `agree_iff`              **the two sides agree exactly when no queue hides behind a missing id**;
* `missingQueueInfo_not_agree`   a publisher that names a queue info that does not exist.
-/

set_option linter.unusedSectionVars false

namespace PhxQueue.Consumer
open Comm PhxQueue.Config

/-- A `Queue_t` that `GetAllQueues` lists; the `uint32_t` ids are those of the configuration. -/
structure ListedQueue where
  pubId : ℤ
  consumerGroupId : ℤ
  storeId : ℤ
  queueId : ℤ
deriving DecidableEq

def ListedQueue.pair (x : ListedQueue) : ℤ × ℤ := (x.storeId, x.queueId)

/-- The variables of `GetAllQueues`: `filter` and `all_queues`. -/
structure Listing where
  filter : List (ℤ × ℤ) := []
  allQueues : List ListedQueue := []

section
variable (topic : TopicConfig) (stores : ProtoStores) (consumerGroupId : ℤ)

def visitQueue (storeId pubId : ℤ) (l : Listing) (queueId : ℤ) : Listing :=
  if (storeId, queueId) ∈ l.filter then l
  else
    { filter := (storeId, queueId) :: l.filter
      allQueues := l.allQueues ++ [⟨pubId, consumerGroupId, storeId, queueId⟩] }

def visitQueueInfo (storeId pubId : ℤ) (l : Listing) (queueInfoId : ℤ) : Listing :=
  match topic.getQueuesByQueueInfoID queueInfoId with
  | .error _ => l
  | .ok queueIds => queueIds.foldl (visitQueue consumerGroupId storeId pubId) l

def visitPub (storeId : ℤ) (l : Listing) (pubId : ℤ) : Listing :=
  match topic.pubId2pub pubId with
  | none => l
  | some pub =>
    if consumerGroupId ∉ pub.consumerGroupIds then l
    else pub.queueInfoIds.foldl (visitQueueInfo topic consumerGroupId storeId pubId) l

def visitStore (l : Listing) (storeId : ℤ) : Listing :=
  match getPubIDsByStoreID topic stores storeId with
  | .error _ => l
  | .ok pubIds => pubIds.foldl (visitPub topic consumerGroupId storeId) l

def getAllQueues : List ListedQueue :=
  ((getAllStoreID stores).foldl (visitStore topic stores consumerGroupId) {}).allQueues

/-- What `MakeCheckPoint` and `ClearSyncCtrl` of a store ask of a queue and group. -/
def countsAsConsumer (storeId queueId consumerGroupId : ℤ) : Bool :=
  match getPubIDsByStoreID topic stores storeId with
  | .error _ => false
  | .ok pubIds => pubIds.any fun pubId => topic.isValidQueueOf queueId pubId consumerGroupId

theorem countsAsConsumer_eq_isConsumer {cfg : Store.StoreConfig} {storeId : ℤ}
    (h : getPubIDsByStoreID cfg.topic stores storeId = .ok cfg.pubIds) (q g : ℕ) :
    countsAsConsumer cfg.topic stores storeId q g = cfg.isConsumer q g := by
  unfold countsAsConsumer
  rw [h]
  rfl

/-! ## What the loops add -/

structure Listing.Ok (l : Listing) : Prop where
  filter : ∀ x, x ∈ l.filter ↔ x ∈ l.allQueues.map ListedQueue.pair
  nodup : (l.allQueues.map ListedQueue.pair).Nodup
  group : ∀ x ∈ l.allQueues, x.consumerGroupId = consumerGroupId

/-- `f` adds the pairs of `S` to the list, each once. -/
def Visits (f : Listing → Listing) (S : Set (ℤ × ℤ)) : Prop :=
  ∀ l, l.Ok consumerGroupId → (f l).Ok consumerGroupId ∧
    ∀ x, x ∈ (f l).filter ↔ x ∈ l.filter ∨ x ∈ S

variable {topic stores consumerGroupId}

lemma Visits.id : Visits consumerGroupId (fun l => l) ∅ :=
  fun _ h => ⟨h, fun _ => by rw [Set.mem_empty_iff_false, or_false]⟩

lemma Visits.congr {f : Listing → Listing} {S T : Set (ℤ × ℤ)} (h : Visits consumerGroupId f S)
    (hST : ∀ x, x ∈ S ↔ x ∈ T) : Visits consumerGroupId f T := by
  have hST : S = T := Set.ext hST
  rwa [← hST]

lemma Visits.foldl {β : Type} {f : Listing → β → Listing} {S : β → Set (ℤ × ℤ)}
    (h : ∀ b, Visits consumerGroupId (fun l => f l b) (S b)) (bs : List β) :
    Visits consumerGroupId (fun l => bs.foldl f l) {x | ∃ b ∈ bs, x ∈ S b} := by
  induction bs with
  | nil => exact Visits.id.congr fun x => by simp
  | cons b bs ih =>
    intro l hl
    obtain ⟨hok, hmem⟩ := h b l hl
    obtain ⟨hok', hmem'⟩ := ih (f l b) hok
    refine ⟨hok', fun x => ?_⟩
    have hx := hmem' x
    rw [hmem x] at hx
    show x ∈ (bs.foldl f (f l b)).filter ↔ _
    rw [hx, or_assoc]
    simp

lemma visits_visitQueue (s p q : ℤ) :
    Visits consumerGroupId (fun l => visitQueue consumerGroupId s p l q) {(s, q)} := by
  intro l hl
  dsimp only
  unfold visitQueue
  by_cases hmem : (s, q) ∈ l.filter
  · rw [if_pos hmem]
    refine ⟨hl, fun x => ⟨.inl, ?_⟩⟩
    rintro (hx | rfl)
    · exact hx
    · exact hmem
  · rw [if_neg hmem]
    refine ⟨⟨fun x => ?_, ?_, fun x hx => ?_⟩, fun x => ?_⟩
    · dsimp only
      rw [List.mem_cons, hl.filter x, List.map_append, List.mem_append, or_comm]
      simp [ListedQueue.pair]
    · dsimp only
      rw [List.map_append]
      refine hl.nodup.append (List.nodup_singleton _) fun x hx hx' => ?_
      have hxq : x = (s, q) := List.mem_singleton.mp hx'
      rw [hxq] at hx
      exact hmem ((hl.filter _).mpr hx)
    · rcases List.mem_append.mp hx with hx | hx
      · exact hl.group x hx
      · rw [List.mem_singleton.mp hx]
    · rw [List.mem_cons, Set.mem_singleton_iff, or_comm]

def InQueueInfo (topic : TopicConfig) (id q : ℤ) : Prop :=
  ∃ info, topic.queueInfoId2queueInfo id = some info ∧ TopicConfig.inRanges info.ranges q

lemma mem_getQueuesByQueueInfoID {id : ℤ} {queues : List ℤ}
    (h : topic.getQueuesByQueueInfoID id = .ok queues) (q : ℤ) :
    q ∈ queues ↔ InQueueInfo topic id q := by
  unfold TopicConfig.getQueuesByQueueInfoID at h
  split at h
  · cases h
  rename_i info hinfo
  cases h
  have hranges : InQueueInfo topic id q ↔ ∃ range ∈ info.ranges, range.1 ≤ q ∧ q ≤ range.2 := by
    unfold InQueueInfo TopicConfig.inRanges
    rw [hinfo]
    simp
  rw [mem_elements, List.mem_flatMap, hranges]
  refine exists_congr fun range => and_congr_right fun _ => ?_
  rw [List.mem_map]
  constructor
  · rintro ⟨n, hn, rfl⟩
    have := List.mem_range.mp hn
    omega
  · intro hq
    exact ⟨(q - range.1).toNat, List.mem_range.mpr (by omega), by omega⟩

lemma visits_visitQueueInfo (s p id : ℤ) :
    Visits consumerGroupId (fun l => visitQueueInfo topic consumerGroupId s p l id)
      {x | x.1 = s ∧ InQueueInfo topic id x.2} := by
  unfold visitQueueInfo
  cases hq : topic.getQueuesByQueueInfoID id with
  | error ret =>
    refine Visits.id.congr fun x => ⟨fun hx => absurd hx (Set.notMem_empty x), ?_⟩
    rintro ⟨_, info, hinfo, _⟩
    unfold TopicConfig.getQueuesByQueueInfoID at hq
    rw [hinfo] at hq
    cases hq
  | ok queues =>
    refine (Visits.foldl (visits_visitQueue s p) queues).congr fun x => ?_
    constructor
    · rintro ⟨q, hmem, rfl⟩
      exact ⟨rfl, (mem_getQueuesByQueueInfoID hq q).mp hmem⟩
    · rintro ⟨rfl, hin⟩
      exact ⟨x.2, (mem_getQueuesByQueueInfoID hq x.2).mpr hin, rfl⟩

def Lists (topic : TopicConfig) (p g q : ℤ) : Prop :=
  ∃ pub, topic.pubId2pub p = some pub ∧ g ∈ pub.consumerGroupIds ∧
    ∃ id ∈ pub.queueInfoIds, InQueueInfo topic id q

lemma visits_visitPub (s p : ℤ) :
    Visits consumerGroupId (fun l => visitPub topic consumerGroupId s l p)
      {x | x.1 = s ∧ Lists topic p consumerGroupId x.2} := by
  unfold visitPub Lists
  cases hp : topic.pubId2pub p with
  | none =>
    refine Visits.id.congr fun x => ⟨fun hx => absurd hx (Set.notMem_empty x), ?_⟩
    rintro ⟨_, pub, hpub, _⟩
    cases hpub
  | some pub =>
    dsimp only
    by_cases hg : consumerGroupId ∈ pub.consumerGroupIds
    · have hloop : (fun l => if consumerGroupId ∉ pub.consumerGroupIds then l
          else pub.queueInfoIds.foldl (visitQueueInfo topic consumerGroupId s p) l) =
          fun l => pub.queueInfoIds.foldl (visitQueueInfo topic consumerGroupId s p) l := by
        funext l
        exact if_neg (not_not_intro hg)
      rw [hloop]
      refine (Visits.foldl (visits_visitQueueInfo s p) pub.queueInfoIds).congr fun x => ?_
      constructor
      · rintro ⟨id, hid, rfl, hin⟩
        exact ⟨rfl, pub, rfl, hg, id, hid, hin⟩
      · rintro ⟨rfl, _, hpub, _, id, hid, hin⟩
        cases hpub
        exact ⟨id, hid, rfl, hin⟩
    · have hskip : (fun l => if consumerGroupId ∉ pub.consumerGroupIds then l
          else pub.queueInfoIds.foldl (visitQueueInfo topic consumerGroupId s p) l) =
          fun l => l := by
        funext l
        exact if_pos hg
      rw [hskip]
      refine Visits.id.congr fun x => ⟨fun hx => absurd hx (Set.notMem_empty x), ?_⟩
      rintro ⟨_, _, hpub, hg', _⟩
      cases hpub
      exact absurd hg' hg

lemma visits_visitStore (s : ℤ) :
    Visits consumerGroupId (fun l => visitStore topic stores consumerGroupId l s)
      {x | x.1 = s ∧ ∃ pubIds, getPubIDsByStoreID topic stores s = .ok pubIds ∧
        ∃ p ∈ pubIds, Lists topic p consumerGroupId x.2} := by
  unfold visitStore
  cases hs : getPubIDsByStoreID topic stores s with
  | error ret =>
    refine Visits.id.congr fun x => ⟨fun hx => absurd hx (Set.notMem_empty x), ?_⟩
    rintro ⟨_, _, hpubs, _⟩
    cases hpubs
  | ok pubIds =>
    refine (Visits.foldl (visits_visitPub s) pubIds).congr fun x => ?_
    constructor
    · rintro ⟨p, hp, rfl, hlists⟩
      exact ⟨rfl, pubIds, rfl, p, hp, hlists⟩
    · rintro ⟨rfl, _, hpubs, p, hp, hlists⟩
      cases hpubs
      exact ⟨p, hp, rfl, hlists⟩

lemma ok_getAllQueues :
    ((getAllStoreID stores).foldl (visitStore topic stores consumerGroupId) {}).Ok consumerGroupId ∧
      ∀ x, x ∈ (getAllQueues topic stores consumerGroupId).map ListedQueue.pair ↔
        ∃ pubIds, getPubIDsByStoreID topic stores x.1 = .ok pubIds ∧
          ∃ p ∈ pubIds, Lists topic p consumerGroupId x.2 := by
  have hempty : Listing.Ok consumerGroupId {} :=
    ⟨fun _ => Iff.rfl, List.nodup_nil, fun _ hx => absurd hx List.not_mem_nil⟩
  obtain ⟨hok, hmem⟩ := Visits.foldl visits_visitStore (getAllStoreID stores) {} hempty
  refine ⟨hok, fun x => ?_⟩
  unfold getAllQueues
  rw [← hok.filter, hmem x]
  constructor
  · rintro (hx | ⟨s, _, rfl, hx⟩)
    · exact absurd hx List.not_mem_nil
    · exact hx
  · rintro ⟨pubIds, hpubs, hlists⟩
    have hs : x.1 ∈ getAllStoreID stores := by
      cases hstore : getStoreByStoreID stores x.1 with
      | ok store => exact mem_getAllStoreID_of_ok hstore
      | error ret =>
        unfold getPubIDsByStoreID at hpubs
        rw [hstore] at hpubs
        cases hpubs
    exact .inr ⟨x.1, hs, rfl, pubIds, hpubs, hlists⟩

theorem nodup_getAllQueues :
    ((getAllQueues topic stores consumerGroupId).map ListedQueue.pair).Nodup :=
  ok_getAllQueues.1.nodup

lemma consumerGroupId_of_mem {x : ListedQueue}
    (h : x ∈ getAllQueues topic stores consumerGroupId) : x.consumerGroupId = consumerGroupId :=
  ok_getAllQueues.1.group x h

/-! ## What the store tests -/

/-- A publisher lists a queue for a group, no smaller queue info id of it being missing. -/
def Reaches (topic : TopicConfig) (p g q : ℤ) : Prop :=
  ∃ pub, topic.pubId2pub p = some pub ∧ g ∈ pub.consumerGroupIds ∧
    ∃ id ∈ pub.queueInfoIds, InQueueInfo topic id q ∧
      ∀ id' ∈ pub.queueInfoIds, id' < id → topic.queueInfoId2queueInfo id' ≠ none

lemma Reaches.lists {p g q : ℤ} (h : Reaches topic p g q) : Lists topic p g q := by
  obtain ⟨pub, hpub, hg, id, hid, hin, _⟩ := h
  exact ⟨pub, hpub, hg, id, hid, hin⟩

/-- The loop of `IsValidQueue` over increasing ids. -/
lemma inQueueInfos_iff {q : ℤ} {ids : List ℤ} (hs : ids.Pairwise (· ≤ ·)) :
    topic.inQueueInfos q ids ↔ ∃ id ∈ ids, InQueueInfo topic id q ∧
      ∀ id' ∈ ids, id' < id → topic.queueInfoId2queueInfo id' ≠ none := by
  induction ids with
  | nil =>
    unfold TopicConfig.inQueueInfos
    simp
  | cons a ids ih =>
    obtain ⟨hle, hs⟩ := List.pairwise_cons.mp hs
    unfold TopicConfig.inQueueInfos
    cases ha : topic.queueInfoId2queueInfo a with
    | none =>
      dsimp only
      refine ⟨fun h => absurd h Bool.false_ne_true, ?_⟩
      rintro ⟨id, hid, ⟨info, hinfo, _⟩, hall⟩
      have hne : id ≠ a := by
        rintro rfl
        rw [ha] at hinfo
        cases hinfo
      have hmem := (List.mem_cons.mp hid).resolve_left hne
      exact absurd ha (hall a List.mem_cons_self (lt_of_le_of_ne (hle id hmem) hne.symm))
    | some info =>
      dsimp only
      by_cases hr : TopicConfig.inRanges info.ranges q
      · rw [if_pos hr]
        refine ⟨fun _ => ⟨a, List.mem_cons_self, ⟨info, ha, hr⟩, fun id' hid' hlt => ?_⟩,
          fun _ => rfl⟩
        rcases List.mem_cons.mp hid' with rfl | hid'
        · omega
        · have := hle id' hid'
          omega
      · rw [if_neg hr, ih hs]
        constructor
        · rintro ⟨id, hid, hin, hall⟩
          refine ⟨id, List.mem_cons_of_mem _ hid, hin, fun id' hid' hlt => ?_⟩
          rcases List.mem_cons.mp hid' with rfl | hid'
          · rw [ha]
            exact Option.some_ne_none info
          · exact hall id' hid' hlt
        · rintro ⟨id, hid, hin, hall⟩
          rcases List.mem_cons.mp hid with rfl | hid
          · obtain ⟨info', hinfo', hr'⟩ := hin
            rw [ha] at hinfo'
            cases hinfo'
            exact absurd hr' hr
          · exact ⟨id, hid, hin, fun id' hid' => hall id' (List.mem_cons_of_mem _ hid')⟩

lemma validFor_iff (hu : topic.UniqueIds) {p g q : ℤ} (hg : g ≠ -1) :
    topic.validFor q g p ↔ Reaches topic p g q := by
  cases hp : topic.pubId2pub p with
  | none =>
    have hnil : topic.pubsOf p = [] := by
      refine List.eq_nil_iff_forall_not_mem.mpr fun pub hpub => ?_
      obtain ⟨hmem, h0, rfl⟩ := TopicConfig.mem_pubsOf.mp hpub
      obtain ⟨pub', hpub'⟩ := TopicConfig.exists_pubId2pub hmem h0
      rw [hp] at hpub'
      cases hpub'
    unfold TopicConfig.validFor Reaches
    rw [if_pos hnil, hp]
    exact ⟨fun h => (nomatch h), fun ⟨_, hpub, _⟩ => (nomatch hpub)⟩
  | some pub =>
    have hpubs : ∀ {p'}, p' ∈ topic.pubsOf p ↔ p' = pub := hu.pubsOf_eq hp
    have hne : topic.pubsOf p ≠ [] := List.ne_nil_of_mem (hpubs.mpr rfl)
    have hgroups : g ∈ (topic.pubsOf p).flatMap Pub.consumerGroupIds ↔
        g ∈ pub.consumerGroupIds := by
      rw [List.mem_flatMap]
      exact ⟨fun ⟨p', hp', h⟩ => hpubs.mp hp' ▸ h, fun h => ⟨pub, hpubs.mpr rfl, h⟩⟩
    have hids : ∀ id, id ∈ elements ((topic.pubsOf p).flatMap Pub.queueInfoIds) ↔
        id ∈ pub.queueInfoIds := by
      intro id
      rw [mem_elements, List.mem_flatMap]
      exact ⟨fun ⟨p', hp', h⟩ => hpubs.mp hp' ▸ h, fun h => ⟨pub, hpubs.mpr rfl, h⟩⟩
    unfold TopicConfig.validFor Reaches
    rw [if_neg hne]
    by_cases hmem : g ∈ pub.consumerGroupIds
    · rw [if_neg (fun h => h.2 (hgroups.mpr hmem)), inQueueInfos_iff (pairwise_elements _)]
      constructor
      · rintro ⟨id, hid, hin, hall⟩
        exact ⟨pub, hp, hmem, id, (hids id).mp hid, hin,
          fun id' hid' => hall id' ((hids id').mpr hid')⟩
      · rintro ⟨pub', hpub', _, id, hid, hin, hall⟩
        rw [hp] at hpub'
        cases hpub'
        exact ⟨id, (hids id).mpr hid, hin, fun id' hid' => hall id' ((hids id').mp hid')⟩
    · rw [if_pos ⟨hg, fun h => hmem (hgroups.mp h)⟩]
      refine ⟨fun h => (nomatch h), ?_⟩
      rintro ⟨pub', hpub', hmem', _⟩
      rw [hp] at hpub'
      cases hpub'
      exact absurd hmem' hmem

/-- The publishers a store asks for: its own, or with a publisher `-1` any. -/
def Asks (pubIds : List ℤ) (p : ℤ) : Prop := p ∈ pubIds ∨ (-1 : ℤ) ∈ pubIds

lemma countsAsConsumer_iff (hu : topic.UniqueIds) {s g q : ℤ} (hg : g ≠ -1) :
    countsAsConsumer topic stores s q g ↔
      ∃ pubIds, getPubIDsByStoreID topic stores s = .ok pubIds ∧
        ∃ p, Asks pubIds p ∧ Reaches topic p g q := by
  unfold countsAsConsumer
  cases hs : getPubIDsByStoreID topic stores s with
  | error ret => exact ⟨fun h => (nomatch h), fun ⟨_, h, _⟩ => (nomatch h)⟩
  | ok pubIds =>
    dsimp only
    rw [List.any_eq_true]
    constructor
    · rintro ⟨p, hp, hv⟩
      refine ⟨pubIds, rfl, ?_⟩
      unfold TopicConfig.isValidQueueOf at hv
      by_cases hne : p ≠ -1
      · rw [if_pos hne] at hv
        exact ⟨p, .inl hp, (validFor_iff hu hg).mp hv⟩
      · rw [if_neg hne] at hv
        obtain ⟨p', _, hv⟩ := List.any_eq_true.mp hv
        have hp : (-1 : ℤ) ∈ pubIds := by
          rwa [not_not.mp hne] at hp
        exact ⟨p', .inr hp, (validFor_iff hu hg).mp hv⟩
    · rintro ⟨_, hpubs, p, hasks, hreach⟩
      cases hpubs
      have hv := (validFor_iff hu hg).mpr hreach
      have hall : p ∈ topic.getAllPubID := by
        obtain ⟨pub, hpub, _⟩ := hreach
        obtain ⟨hmem, h0, hid⟩ := TopicConfig.of_pubId2pub hpub
        exact TopicConfig.mem_getAllPubID.mpr ⟨pub, hmem, h0, hid⟩
      have hany : (-1 : ℤ) ∈ pubIds → ∃ p' ∈ pubIds, topic.isValidQueueOf q p' g := by
        intro hp
        refine ⟨-1, hp, ?_⟩
        unfold TopicConfig.isValidQueueOf
        rw [if_neg (fun hn => hn rfl)]
        exact List.any_eq_true.mpr ⟨p, hall, hv⟩
      rcases hasks with hp | hp
      · by_cases hne : p = -1
        · exact hany (hne ▸ hp)
        · refine ⟨p, hp, ?_⟩
          unfold TopicConfig.isValidQueueOf
          rw [if_pos hne]
          exact hv
      · exact hany hp

end

/-! ## Agreement -/

section
variable (topic : TopicConfig) (stores : ProtoStores) (nconsumerGroup nqueue : ℕ)

/-- For every group, store and queue within the options: the consumers list the queue exactly when
the store counts the group as its consumer; and nothing is listed twice. -/
def Agree : Prop :=
  (∀ g s q : ℤ, 1 ≤ g → g ≤ nconsumerGroup → 0 ≤ q → q < nqueue →
    ((s, q) ∈ (getAllQueues topic stores g).map ListedQueue.pair ↔
      countsAsConsumer topic stores s q g)) ∧
  ∀ g, ((getAllQueues topic stores g).map ListedQueue.pair).Nodup

/-- A queue whose queue info a publisher names after a missing one is also reached otherwise; and a
store with a publisher `-1` serves what the others reach. -/
structure NothingHidden : Prop where
  behind : ∀ s pubIds, getPubIDsByStoreID topic stores s = .ok pubIds → ∀ p ∈ pubIds, ∀ pub,
    topic.pubId2pub p = some pub → ∀ id' ∈ pub.queueInfoIds, ∀ id ∈ pub.queueInfoIds, id' < id →
    topic.queueInfoId2queueInfo id' = none → ∀ g ∈ pub.consumerGroupIds, ∀ q : ℤ,
    1 ≤ g → g ≤ nconsumerGroup → 0 ≤ q → q < nqueue → InQueueInfo topic id q →
    ∃ p', Asks pubIds p' ∧ Reaches topic p' g q
  anyPub : ∀ s pubIds, getPubIDsByStoreID topic stores s = .ok pubIds → (-1 : ℤ) ∈ pubIds →
    ∀ p g q : ℤ, 1 ≤ g → g ≤ nconsumerGroup → 0 ≤ q → q < nqueue → Reaches topic p g q →
    ∃ p' ∈ pubIds, Lists topic p' g q

variable {topic stores nconsumerGroup nqueue}

/-- **Store and consumers agree** exactly when no queue is hidden. -/
theorem agree_iff (hu : topic.UniqueIds) :
    Agree topic stores nconsumerGroup nqueue ↔
      NothingHidden topic stores nconsumerGroup nqueue := by
  constructor
  · rintro ⟨hagree, _⟩
    refine ⟨?_, ?_⟩
    · intro s pubIds hs p hp pub hpub id' _ id hid _ _ g hg q hg1 hgn hq0 hqn hin
      have hlist := (ok_getAllQueues.2 (s, q)).mpr ⟨pubIds, hs, p, hp, pub, hpub, hg, id, hid, hin⟩
      have hcounts := (hagree g s q hg1 hgn hq0 hqn).mp hlist
      obtain ⟨pubIds', hs', p', hasks, hreach⟩ := (countsAsConsumer_iff hu (by omega)).mp hcounts
      rw [hs] at hs'
      cases hs'
      exact ⟨p', hasks, hreach⟩
    · intro s pubIds hs hany p g q hg1 hgn hq0 hqn hreach
      have hcounts := (countsAsConsumer_iff hu (by omega : g ≠ -1)).mpr
        ⟨pubIds, hs, p, .inr hany, hreach⟩
      have hlist := (hagree g s q hg1 hgn hq0 hqn).mpr hcounts
      obtain ⟨pubIds', hs', p', hp', hlists⟩ := (ok_getAllQueues.2 (s, q)).mp hlist
      rw [hs] at hs'
      cases hs'
      exact ⟨p', hp', hlists⟩
  · intro h
    refine ⟨fun g s q hg1 hgn hq0 hqn => ?_, fun g => nodup_getAllQueues⟩
    rw [ok_getAllQueues.2, countsAsConsumer_iff hu (by omega)]
    refine exists_congr fun pubIds => and_congr_right fun hs => ?_
    constructor
    · rintro ⟨p, hp, pub, hpub, hg, id, hid, hin⟩
      -- either every smaller id exists, or the queue is behind a missing one
      by_cases hall : ∀ id' ∈ pub.queueInfoIds, id' < id → topic.queueInfoId2queueInfo id' ≠ none
      · exact ⟨p, .inl hp, pub, hpub, hg, id, hid, hin, hall⟩
      · push Not at hall
        obtain ⟨id', hid', hlt, hnone⟩ := hall
        exact h.behind s pubIds hs p hp pub hpub id' hid' id hid hlt hnone g hg q hg1 hgn hq0 hqn hin
    · rintro ⟨p, hp | hany, hreach⟩
      · exact ⟨p, hp, hreach.lists⟩
      · exact h.anyPub s pubIds hs hany p g q hg1 hgn hq0 hqn hreach

end

/-! ## A missing queue info -/

/-- Publisher 1 names queue info 2, which lists queue 0; with queue info 1 or without. -/
def oneQueueTopic (queueInfoIds : List ℤ) : TopicConfig :=
  { pubs := [⟨1, [1], queueInfoIds⟩], queueInfos := [⟨2, [(0, 0)], false, 1⟩]
    itemsByteSizeLimit := 1024 }

lemma uniqueIds_oneQueueTopic (queueInfoIds : List ℤ) : (oneQueueTopic queueInfoIds).UniqueIds :=
  ⟨List.nodup_singleton _, List.nodup_singleton _⟩

theorem oneQueue_agree : Agree (oneQueueTopic [2]) [⟨1, []⟩] 1 1 := by
  have hpub : ∀ {p pub}, (oneQueueTopic [2]).pubId2pub p = some pub → pub = ⟨1, [1], [2]⟩ ∧ p = 1 := by
    intro p pub h
    obtain ⟨hmem, _, hid⟩ := TopicConfig.of_pubId2pub h
    have hpub := List.mem_singleton.mp hmem
    rw [hpub] at hid
    exact ⟨hpub, hid.symm⟩
  refine (agree_iff (uniqueIds_oneQueueTopic [2])).mpr ⟨?_, ?_⟩
  · intro s pubIds _ p _ pub h id' hid' id hid hlt
    rw [(hpub h).1] at hid hid'
    have h2 : id = 2 := List.mem_singleton.mp hid
    have h2' : id' = 2 := List.mem_singleton.mp hid'
    omega
  · intro s pubIds hs hany
    obtain ⟨pub, h⟩ := exists_pub_of_mem hs hany
    exact absurd (hpub h).2 (by decide)

/-- **Counterexample.**  The consumers get queue 0 for group 1, and the store does not wait for
the acknowledgements of group 1 on it. -/
theorem missingQueueInfo_not_agree :
    (oneQueueTopic [1, 2]).UniqueIds ∧ ¬ Agree (oneQueueTopic [1, 2]) [⟨1, []⟩] 1 1 := by
  refine ⟨uniqueIds_oneQueueTopic [1, 2], fun h => ?_⟩
  have hlisted : ((1, 0) : ℤ × ℤ) ∈
      (getAllQueues (oneQueueTopic [1, 2]) [⟨1, []⟩] 1).map ListedQueue.pair := by decide
  have hcounts := (h.1 1 1 0 le_rfl le_rfl le_rfl one_pos).mp hlisted
  exact absurd hcounts (by decide)

end PhxQueue.Consumer
