import Mathlib.Data.List.GetD
import PhxQueue.Comm.Utils
import PhxQueue.Config.StoreConfig
import PhxQueue.Lib.HashRing
import PhxQueue.Producer.AddRequests

/-!
# Selecting a queue and a store

`producer/selector.cpp` and `SelectAndAdd`.  The first item of a request selects the queue, by its
retry count and uin, and the store, by its uin on a hash ring.  A thread has one ring for a topic:
it is built, from the stores of the publisher that asks first, after each change of the
configuration.

* `QueueSelector`, `StoreSelector`, `RingCache`   the selectors, and the ring of a thread;
* `selectAndAdd`       the code, with the targets of its calls of `RawAdd`;
* `attempt_eq`         **the target of an attempt**;
* `selectLoop_inv`     what every attempt preserves holds of all targets;
* `mem_targets`        the attempts that are made when `RawAdd` fails.
-/

set_option linter.unusedSectionVars false

namespace PhxQueue.Producer
open Comm Config Lib

/-- `proto::Store`, with what its points on the ring are made of. -/
structure RingStore extends ProtoStore where
  addrs : List ProtoAddr
  scale : ℤ

/-- What the selectors read: the configuration of a topic and of its stores.
`handleByRandomUin` is a field of the queue info with an id. -/
structure SelectConfig where
  topicId : ℤ
  topic : TopicConfig
  handleByRandomUin : ℤ → Bool := fun _ => false
  producerRetrySwitchQueue : Bool := true
  producerRetrySwitchStore : Bool := true
  stores : List RingStore
  lastModTime : ℕ

/-- The bytes of an `int`. -/
def intKey (n : ℤ) : ℕ := (n % (2 ^ 32 : ℕ)).toNat

/-- A result of `FastRand`. -/
abbrev Rand := Fin (2 ^ 32)

/-- For the numerals of random numbers. -/
instance neZero_rand : NeZero (2 ^ 32) := ⟨by decide⟩

namespace SelectConfig

variable (cfg : SelectConfig)

def protoStores : ProtoStores := cfg.stores.map RingStore.toProtoStore

/-- `store_ids` of `GetStoreID`: the stores that serve a publisher. -/
def storeIdsOf (pubId : ℤ) : List ℤ :=
  (getAllStoreID cfg.protoStores).filter fun s =>
    match getPubIDsByStoreID cfg.topic cfg.protoStores s with
    | .error _ => false
    | .ok pubIds => pubIds.contains pubId

def points (s : ℤ) : List (ℕ × ℤ) :=
  match cfg.stores.find? fun store => store.storeId ≠ 0 ∧ store.storeId = s with
  | none => []
  | some store =>
    (List.range store.scale.toNat).map fun i =>
      let h := (store.addrs.map encodeAddr).foldl (fun h addr => murmurHash64 addr 8 h) 0
      (murmurHash64 i 4 h, s)

/-- The ring of the stores that serve a publisher. -/
def ringOf (pubId : ℤ) : OrderedMap ℕ ℤ := .build ((cfg.storeIdsOf pubId).flatMap cfg.points)

/-- The hash that selects a store; `retry` is hashed when the store is switched. -/
def storeHash (uin : ℕ) (rand : Rand) (retry : ℕ) : ℕ :=
  let tmpUin := if uin = 0 then rand.val else uin
  let h := murmurHash64 (intKey cfg.topicId) 4 (murmurHash64 tmpUin 8 0)
  if cfg.producerRetrySwitchStore then murmurHash64 retry 4 h else h

variable (crc32 : ℕ → ℕ → ℕ → ℕ)

/-- The queue of a queue info that a uin selects.  `crc32` is that of zlib, of a checksum, some bytes
as a little-endian number, and how many they are. -/
def queueOf (id : ℤ) (uin : ℕ) (rand : Rand) (retry : ℕ) : Option ℤ :=
  let tmpUin := if uin = 0 ∨ cfg.handleByRandomUin id then rand.val else uin
  let rd := crc32 (crc32 0 (wrap64 tmpUin) 8) (intKey cfg.topicId) 4
  cfg.topic.getQueueByLoopRank id (rd + if cfg.producerRetrySwitchQueue then retry else 0)

def Serves (s p : ℤ) : Prop :=
  ∃ pubIds, getPubIDsByStoreID cfg.topic cfg.protoStores s = .ok pubIds ∧ p ∈ pubIds

end SelectConfig

/-! ## The selectors -/

/-- `QueueSelectorDefaultImpl`, without the fields that are those of the configuration. -/
structure QueueSelector where
  pubId : ℤ
  uin : ℕ
  count : ℤ
  retry : ℕ := 0

/-- `StoreSelectorDefaultImpl`. -/
structure StoreSelector where
  pubId : ℤ
  uin : ℕ
  retry : ℕ := 0
  triedStoreIds : List ℤ := []

/-- The variables of a thread for a topic. -/
structure RingCache where
  lastRebuildTime : ℕ := 0
  hashRing : OrderedMap ℕ ℤ := .empty
  storeId2hashList : ℤ → OrderedMap ℕ ℤ := fun _ => .empty

section
variable (cfg : SelectConfig) (crc32 : ℕ → ℕ → ℕ → ℕ)

/-- `GetQueueID`; `queueId` is the variable that takes the queue, before the call. -/
def QueueSelector.getQueueID (qs : QueueSelector) (rand : Rand) (queueId : ℤ) :
    Except RetCode (ℤ × QueueSelector) :=
  match cfg.topic.getQueueInfoIDByCount qs.pubId qs.count with
  | .error ret => .error ret
  | .ok id =>
    match cfg.topic.queueInfoId2queueInfo id with
    | none => .error .errRangeQueueInfo
    | some _ =>
      .ok ((cfg.queueOf crc32 id qs.uin rand qs.retry).getD queueId,
        { qs with retry := qs.retry + 1 })

def RingCache.rebuild (cache : RingCache) (storeIds : List ℤ) : RingCache :=
  if cfg.lastModTime = cache.lastRebuildTime then cache
  else
    { lastRebuildTime := cfg.lastModTime
      hashRing := .build (storeIds.flatMap cfg.points)
      storeId2hashList := fun s => if s ∈ storeIds then .build (cfg.points s) else .empty }

/-- What a round of `GetStoreID` meets: a random number, and what `IsStoreBlocked` answers, which in
`StoreSelectorDefault` is no. -/
structure RoundEnv where
  rand : Rand
  blocked : Bool := false

/-- The search among the stores not yet tried: `store_id` and `min_hash`. -/
def leastPoint (cache : RingCache) (tried : List ℤ) (h : ℕ) (least : ℤ × ℕ) (s : ℤ) : ℤ × ℕ :=
  if s ∈ tried then least else
  match (cache.storeId2hashList s).owner h with
  | none => least
  | some (k, _) => if least.1 = -1 ∨ k < least.2 then (s, k) else least

namespace StoreSelector

/-- The search of a round: `none` where it reads past the end, `-1` where it finds no store. -/
def found (ss : StoreSelector) (cache : RingCache) (storeIds : List ℤ) (h : ℕ) : Option ℤ :=
  if cfg.producerRetrySwitchStore = true ∧ ss.retry ≠ 0 then
    some (storeIds.foldl (leastPoint cache ss.triedStoreIds h) (-1, 0)).1
  else (cache.hashRing.owner h).map Prod.snd

/-- A round of the loop of `GetStoreID`. -/
def round (ss : StoreSelector) (cache : RingCache) (storeIds : List ℤ) (env : RoundEnv) :
    Option (ℤ × StoreSelector) :=
  let h := cfg.storeHash ss.uin env.rand ss.retry
  match ss.found cfg cache storeIds h with
  | none => none
  | some s =>
    let ss := { ss with retry := ss.retry + 1 }
    if s ≠ -1 then
      if cfg.producerRetrySwitchStore then
        some (if env.blocked then -1 else s, { ss with triedStoreIds := s :: ss.triedStoreIds })
      else some (s, ss)
    else some (storeIds.getD (h % storeIds.length) (-1), ss)

def rounds (cache : RingCache) (storeIds : List ℤ) (env : ℕ → RoundEnv) :
    ℕ → StoreSelector → Option (ℤ × StoreSelector)
  | 0, _ => none
  | n + 1, ss =>
    match ss.round cfg cache storeIds (env n) with
    | none => none
    | some (s, ss) => if s = -1 then rounds cache storeIds env n ss else some (s, ss)

/-- `GetStoreID`.  In its rounds each store is tried once, unless one has the id -1. -/
def getStoreID (ss : StoreSelector) (cache : RingCache) (env : ℕ → RoundEnv) :
    RingCache × Option (Except RetCode (ℤ × StoreSelector)) :=
  let storeIds := cfg.storeIdsOf ss.pubId
  if storeIds = [] then (cache, some (.error .errRangeStore)) else
  let cache := cache.rebuild cfg storeIds
  (cache, (ss.rounds cfg cache storeIds env (storeIds.length + 2)).map .ok)

end StoreSelector

/-! ## Adding -/

/-- What an attempt meets: random numbers, `queue_id` before it is set, and what `RawAdd` returns. -/
structure Attempt where
  queueRand : Rand
  storeRand : ℕ → Rand
  queueId : ℤ
  ret : RetCode

def Attempt.storeEnv (a : Attempt) (n : ℕ) : RoundEnv := { rand := a.storeRand n }

/-- How `SelectAndAdd` ends. -/
inductive AddResult
  /-- With what the last `RawAdd` returned. -/
  | rawAdd (ret : RetCode)
  | notSelected (ret : RetCode)
  | undefined
deriving DecidableEq

/-- The outcome of `SelectAndAdd`: the stores and queues it called `RawAdd` with. -/
structure Added where
  cache : RingCache
  targets : List (ℤ × ℤ)
  result : AddResult

def attempt (a : Attempt) (cache : RingCache) (qs : QueueSelector) (ss : StoreSelector) :
    RingCache × Except AddResult ((ℤ × ℤ) × QueueSelector × StoreSelector) :=
  match qs.getQueueID cfg crc32 a.queueRand a.queueId with
  | .error ret => (cache, .error (.notSelected ret))
  | .ok (queueId, qs) =>
    match ss.getStoreID cfg cache a.storeEnv with
    | (cache, none) => (cache, .error .undefined)
    | (cache, some (.error ret)) => (cache, .error (.notSelected ret))
    | (cache, some (.ok (storeId, ss))) => (cache, .ok ((storeId, queueId), qs, ss))

def leaves (ret : RetCode) : Bool :=
  0 ≤ ret.asInteger ∧ ret ≠ .errNotMaster ∧ ret ≠ .errNoMaster

/-- The loop of `SelectAndAdd` with `n` retries left; `env n` is what the attempt then meets. -/
def selectLoop (env : ℕ → Attempt) :
    ℕ → RingCache → QueueSelector → StoreSelector → Added
  | n, cache, qs, ss =>
    match attempt cfg crc32 (env n) cache qs ss with
    | (cache, .error result) => ⟨cache, [], result⟩
    | (cache, .ok (target, qs, ss)) =>
      if leaves (env n).ret then ⟨cache, [target], .rawAdd (env n).ret⟩
      else
        match n with
        | 0 => ⟨cache, [target], .rawAdd (env 0).ret⟩
        | n + 1 =>
          let rest := selectLoop env n cache qs ss
          { rest with targets := target :: rest.targets }

def selectAndAdd (cache : RingCache) (req : AddRequest) (env : ℕ → Attempt) : Added :=
  match req.items with
  | [] => ⟨cache, [], .rawAdd .ok⟩
  | item :: _ =>
    selectLoop cfg crc32 env cfg.topic.producerNretryRawAdd.toNat cache
      { pubId := item.pubId, uin := item.uin, count := item.count }
      { pubId := item.pubId, uin := item.uin }

end

/-! ## Stores -/

namespace SelectConfig

variable {cfg : SelectConfig} {s p : ℤ}

lemma mem_storeIdsOf : s ∈ cfg.storeIdsOf p ↔ cfg.Serves s p := by
  unfold storeIdsOf Serves
  rw [List.mem_filter]
  constructor
  · rintro ⟨_, hserves⟩
    split at hserves
    · cases hserves
    · rename_i pubIds hpubs
      exact ⟨pubIds, hpubs, List.contains_iff_mem.mp hserves⟩
  · rintro ⟨pubIds, hpubs, hmem⟩
    rw [hpubs]
    refine ⟨?_, List.contains_iff_mem.mpr hmem⟩
    cases hstore : getStoreByStoreID cfg.protoStores s with
    | ok store => exact mem_getAllStoreID_of_ok hstore
    | error ret =>
      unfold getPubIDsByStoreID at hpubs
      rw [hstore] at hpubs
      cases hpubs

/-- The stores have ids; `-1` stands for no store. -/
def StoreIds (cfg : SelectConfig) : Prop := ∀ store ∈ cfg.stores, store.storeId ≠ -1

instance : Decidable cfg.StoreIds := inferInstanceAs (Decidable (∀ store ∈ cfg.stores, _))

lemma StoreIds.ne (h : cfg.StoreIds) (hs : s ∈ cfg.storeIdsOf p) : s ≠ -1 := by
  unfold storeIdsOf getAllStoreID at hs
  have hmem := (List.mem_filter.mp (mem_elements.mp (List.mem_filter.mp hs).1)).1
  obtain ⟨proto, hproto, rfl⟩ := List.mem_map.mp hmem
  obtain ⟨store, hstore, rfl⟩ := List.mem_map.mp hproto
  exact h store hstore

lemma mem_points {x : ℕ × ℤ} (hx : x ∈ cfg.points s) : x.2 = s := by
  unfold points at hx
  split at hx
  · exact absurd hx List.not_mem_nil
  · obtain ⟨i, _, rfl⟩ := List.mem_map.mp hx
    rfl

lemma serves_of_owner {h k : ℕ} (howner : (cfg.ringOf p).owner h = some (k, s)) : cfg.Serves s p := by
  obtain ⟨s', hs', hpoint⟩ := List.mem_flatMap.mp (OrderedMap.mem_of_owner_build howner)
  have hs : s = s' := mem_points hpoint
  rw [hs]
  exact mem_storeIdsOf.mp hs'

end SelectConfig

/-! ## The selectors -/

section
variable {cfg : SelectConfig} {crc32 : ℕ → ℕ → ℕ → ℕ} {cache : RingCache} {s p id : ℤ}

lemma exists_queueInfo {cnt : ℤ} {ids : List ℤ}
    (h : cfg.topic.queueInfoIDByCount cnt ids = .ok id) :
    ∃ q, cfg.topic.queueInfoId2queueInfo id = some q := by
  induction ids generalizing cnt with
  | nil => cases h
  | cons id' ids ih =>
    unfold TopicConfig.queueInfoIDByCount at h
    cases hq : cfg.topic.queueInfoId2queueInfo id' with
    | none =>
      rw [hq] at h
      cases h
    | some q =>
      rw [hq] at h
      dsimp only at h
      split at h
      · exact ih h
      · cases h
        exact ⟨q, hq⟩

lemma getQueueID_eq {qs : QueueSelector} {rand : Rand} {queueId : ℤ}
    (h : cfg.topic.getQueueInfoIDByCount qs.pubId qs.count = .ok id) :
    qs.getQueueID cfg crc32 rand queueId =
      .ok ((cfg.queueOf crc32 id qs.uin rand qs.retry).getD queueId,
        { qs with retry := qs.retry + 1 }) := by
  have hinfo : ∃ q, cfg.topic.queueInfoId2queueInfo id = some q := by
    unfold TopicConfig.getQueueInfoIDByCount at h
    split at h
    · cases h
    · exact exists_queueInfo h
  obtain ⟨q, hq⟩ := hinfo
  unfold QueueSelector.getQueueID
  rw [h]
  dsimp only
  rw [hq]

/-- The thread has the ring of a publisher for this configuration. -/
structure RingCache.IsOf (cache : RingCache) (cfg : SelectConfig) (p : ℤ) : Prop where
  current : cache.lastRebuildTime = cfg.lastModTime
  ring : cache.hashRing = cfg.ringOf p

lemma rebuild_isOf (h : cache.lastRebuildTime ≠ cfg.lastModTime) :
    (cache.rebuild cfg (cfg.storeIdsOf p)).IsOf cfg p := by
  unfold RingCache.rebuild
  rw [if_neg h.symm]
  exact ⟨rfl, rfl⟩

lemma RingCache.IsOf.rebuild (h : cache.IsOf cfg p) (storeIds : List ℤ) :
    cache.rebuild cfg storeIds = cache := by
  unfold RingCache.rebuild
  rw [if_pos h.current.symm]

lemma leastPoint_foldl {tried : List ℤ} {h : ℕ} {storeIds : List ℤ} {least : ℤ × ℕ} :
    (storeIds.foldl (leastPoint cache tried h) least).1 = least.1 ∨
      (storeIds.foldl (leastPoint cache tried h) least).1 ∈ storeIds := by
  induction storeIds generalizing least with
  | nil => exact Or.inl rfl
  | cons s storeIds ih =>
    have hstep : (leastPoint cache tried h least s).1 = least.1 ∨
        (leastPoint cache tried h least s).1 = s := by
      unfold leastPoint
      split
      · exact Or.inl rfl
      split
      · exact Or.inl rfl
      · split
        · exact Or.inr rfl
        · exact Or.inl rfl
    rw [List.foldl_cons]
    rcases @ih (leastPoint cache tried h least s) with hl | hmem
    · rw [hl]
      rcases hstep with hl' | hs
      · exact Or.inl hl'
      · rw [hs]
        exact Or.inr List.mem_cons_self
    · exact Or.inr (List.mem_cons_of_mem _ hmem)

/-- The store of a uin on the ring of publisher `p₀`. -/
def SelectConfig.storeOf (cfg : SelectConfig) (p₀ : ℤ) (uin : ℕ) (rand : Rand) (retry : ℕ) :
    Option ℤ :=
  ((cfg.ringOf p₀).owner (cfg.storeHash uin rand retry)).map Prod.snd

/-- What a round selects: a store on the ring, or, when the store is switched, one that serves the
publisher. -/
def SelectsStore (cfg : SelectConfig) (p₀ : ℤ) (ss : StoreSelector) (rand : Rand) (s : ℤ) : Prop :=
  if cfg.producerRetrySwitchStore = true ∧ ss.retry ≠ 0 then cfg.Serves s ss.pubId
  else cfg.storeOf p₀ ss.uin rand ss.retry = some s

/-- The selector after a round, as far as it matters. -/
structure StoreSelector.Next (ss ss' : StoreSelector) : Prop where
  pubId : ss'.pubId = ss.pubId
  uin : ss'.uin = ss.uin
  retry : ss'.retry = ss.retry + 1

variable {p₀ : ℤ} {ss : StoreSelector}

lemma round_spec (hids : cfg.StoreIds) (hcache : cache.IsOf cfg p₀)
    (hring : (cfg.ringOf p₀).entries ≠ []) (hne : cfg.storeIdsOf ss.pubId ≠ []) (rand : Rand) :
    ∃ s ss', ss.round cfg cache (cfg.storeIdsOf ss.pubId) { rand := rand } = some (s, ss') ∧ s ≠ -1 ∧
      SelectsStore cfg p₀ ss rand s ∧ ss.Next ss' := by
  unfold StoreSelector.round StoreSelector.found SelectsStore SelectConfig.storeOf
  dsimp only
  by_cases hswitch : cfg.producerRetrySwitchStore = true ∧ ss.retry ≠ 0
  · rw [if_pos hswitch]
    dsimp only
    by_cases hnone : (List.foldl (leastPoint cache ss.triedStoreIds
        (cfg.storeHash ss.uin rand ss.retry)) (-1, 0) (cfg.storeIdsOf ss.pubId)).1 = -1
    · rw [hnone, if_neg (fun h => h rfl)]
      -- all stores have been tried: any of them
      have hlen : 0 < (cfg.storeIdsOf ss.pubId).length := List.length_pos_of_ne_nil hne
      have hlt := Nat.mod_lt (cfg.storeHash ss.uin rand ss.retry) hlen
      have hmem := List.getElem_mem hlt
      rw [← List.getD_eq_getElem _ (-1) hlt] at hmem
      refine ⟨_, _, rfl, hids.ne hmem, ?_, ⟨rfl, rfl, rfl⟩⟩
      rw [if_pos hswitch]
      exact SelectConfig.mem_storeIdsOf.mp hmem
    · rw [if_pos hnone, if_pos hswitch.1]
      have hmem := (@leastPoint_foldl cache ss.triedStoreIds (cfg.storeHash ss.uin rand ss.retry)
        (cfg.storeIdsOf ss.pubId) (-1, 0)).resolve_left hnone
      refine ⟨_, _, rfl, hnone, ?_, ⟨rfl, rfl, rfl⟩⟩
      rw [if_pos hswitch]
      exact SelectConfig.mem_storeIdsOf.mp hmem
  · rw [if_neg hswitch, hcache.ring]
    obtain ⟨⟨k, s⟩, howner⟩ := OrderedMap.exists_owner hring (cfg.storeHash ss.uin rand ss.retry)
    have hs : s ≠ -1 := hids.ne (SelectConfig.mem_storeIdsOf.mpr (SelectConfig.serves_of_owner howner))
    rw [howner]
    dsimp only [Option.map_some]
    rw [if_pos hs]
    refine ⟨s, if cfg.producerRetrySwitchStore then
        { ss with retry := ss.retry + 1, triedStoreIds := s :: ss.triedStoreIds }
      else { ss with retry := ss.retry + 1 }, ?_, hs, ?_, ?_⟩
    · split
      · rfl
      · rfl
    · rw [if_neg hswitch]
    · split
      · exact ⟨rfl, rfl, rfl⟩
      · exact ⟨rfl, rfl, rfl⟩

/-- The random number that decides: that of the first round. -/
def Attempt.decides (a : Attempt) (cfg : SelectConfig) (p : ℤ) : Rand :=
  a.storeRand ((cfg.storeIdsOf p).length + 1)

lemma getStoreID_spec (hids : cfg.StoreIds)
    (hcache : (cache.rebuild cfg (cfg.storeIdsOf ss.pubId)).IsOf cfg p₀)
    (hring : (cfg.ringOf p₀).entries ≠ []) (hne : cfg.storeIdsOf ss.pubId ≠ []) (a : Attempt) :
    ∃ s ss', ss.getStoreID cfg cache a.storeEnv =
        (cache.rebuild cfg (cfg.storeIdsOf ss.pubId), some (.ok (s, ss'))) ∧
      SelectsStore cfg p₀ ss (a.decides cfg ss.pubId) s ∧ ss.Next ss' := by
  obtain ⟨s, ss', hround, hs, hsel, hnext⟩ := round_spec hids hcache hring hne (a.decides cfg ss.pubId)
  refine ⟨s, ss', ?_, hsel, hnext⟩
  unfold StoreSelector.getStoreID
  dsimp only
  rw [if_neg hne]
  unfold StoreSelector.rounds
  have henv : a.storeEnv ((cfg.storeIdsOf ss.pubId).length + 1) =
      { rand := a.decides cfg ss.pubId } := rfl
  rw [henv, hround]
  dsimp only
  rw [if_neg hs]
  rfl

/-! ## Attempts -/

/-- The selectors of a request whose first item has this publisher, uin and count, after `k`
attempts. -/
structure Selectors (p : ℤ) (uin : ℕ) (count : ℤ) (k : ℕ) (qs : QueueSelector)
    (ss : StoreSelector) : Prop where
  queue : qs = ⟨p, uin, count, k⟩
  pubId : ss.pubId = p
  uin : ss.uin = uin
  retry : ss.retry = k

/-- The ring of `p₀` is used for requests of `p`. -/
structure RingCache.Uses (cache : RingCache) (cfg : SelectConfig) (p₀ p : ℤ) : Prop where
  isOf : (cache.rebuild cfg (cfg.storeIdsOf p)).IsOf cfg p₀
  ring : (cfg.ringOf p₀).entries ≠ []
  served : cfg.storeIdsOf p ≠ []

lemma RingCache.IsOf.uses (h : cache.IsOf cfg p₀) (hring : (cfg.ringOf p₀).entries ≠ [])
    (hserved : cfg.storeIdsOf p ≠ []) : cache.Uses cfg p₀ p := by
  refine ⟨?_, hring, hserved⟩
  rw [h.rebuild]
  exact h

variable {uin k : ℕ} {count : ℤ} {qs : QueueSelector}

theorem attempt_eq (hids : cfg.StoreIds) (hid : cfg.topic.getQueueInfoIDByCount p count = .ok id)
    (hcache : cache.Uses cfg p₀ p) (hsel : Selectors p uin count k qs ss) (a : Attempt) :
    ∃ s qs' ss', attempt cfg crc32 a cache qs ss = (cache.rebuild cfg (cfg.storeIdsOf p),
        .ok ((s, (cfg.queueOf crc32 id uin a.queueRand k).getD a.queueId), qs', ss')) ∧
      SelectsStore cfg p₀ ⟨p, uin, k, []⟩ (a.decides cfg p) s ∧
      Selectors p uin count (k + 1) qs' ss' := by
  obtain ⟨rfl, rfl, rfl, rfl⟩ := hsel
  obtain ⟨s, ss', hstore, hselects, hnext⟩ :=
    getStoreID_spec hids hcache.isOf hcache.ring hcache.served a
  refine ⟨s, ⟨ss.pubId, ss.uin, count, ss.retry + 1⟩, ss', ?_, hselects, rfl, hnext.pubId, hnext.uin,
    hnext.retry⟩
  unfold attempt
  rw [getQueueID_eq hid]
  dsimp only
  rw [hstore]

lemma RingCache.Uses.next (h : cache.Uses cfg p₀ p) :
    (cache.rebuild cfg (cfg.storeIdsOf p)).Uses cfg p₀ p :=
  h.isOf.uses h.ring h.served

/-- **What every attempt preserves holds of all targets.**  The loop makes its attempts, up to the
first one at whose return code it is left. -/
theorem selectLoop_inv {Good : ℤ × ℤ → Prop} (hids : cfg.StoreIds)
    (hid : cfg.topic.getQueueInfoIDByCount p count = .ok id) {n : ℕ} (hcache : cache.Uses cfg p₀ p)
    (hsel : Selectors p uin count k qs ss)
    (hgood : ∀ i ≤ n, ∀ (a : Attempt) (s : ℤ),
      SelectsStore cfg p₀ ⟨p, uin, k + i, []⟩ (a.decides cfg p) s →
      Good (s, (cfg.queueOf crc32 id uin a.queueRand (k + i)).getD a.queueId))
    (env : ℕ → Attempt) :
    (∃ ret, (selectLoop cfg crc32 env n cache qs ss).result = .rawAdd ret) ∧
      (∀ t ∈ (selectLoop cfg crc32 env n cache qs ss).targets, Good t) ∧
      (selectLoop cfg crc32 env n cache qs ss).cache =
        cache.rebuild cfg (cfg.storeIdsOf p) := by
  induction n generalizing cache k qs ss with
  | zero =>
    obtain ⟨s, qs', ss', hattempt, hselects, _⟩ := @attempt_eq cfg crc32 cache p id p₀ ss uin k count
      qs hids hid hcache hsel (env 0)
    have htarget := hgood 0 le_rfl (env 0) s
    rw [Nat.add_zero] at htarget
    have htarget := htarget hselects
    unfold selectLoop
    rw [hattempt]
    dsimp only
    split
    · refine ⟨⟨_, rfl⟩, ?_, rfl⟩
      intro t ht
      rw [List.mem_singleton.mp ht]
      exact htarget
    · refine ⟨⟨_, rfl⟩, ?_, rfl⟩
      intro t ht
      rw [List.mem_singleton.mp ht]
      exact htarget
  | succ n ih =>
    obtain ⟨s, qs', ss', hattempt, hselects, hsel'⟩ := @attempt_eq cfg crc32 cache p id p₀ ss uin k
      count qs hids hid hcache hsel (env (n + 1))
    have htarget := hgood 0 (Nat.zero_le _) (env (n + 1)) s
    rw [Nat.add_zero] at htarget
    have htarget := htarget hselects
    obtain ⟨hret, htargets, hcache'⟩ := ih hcache.next hsel' (fun i hi a s' h => by
      rw [Nat.add_right_comm] at h ⊢
      exact hgood (i + 1) (Nat.succ_le_succ hi) a s' h)
    unfold selectLoop
    rw [hattempt]
    dsimp only
    split
    · refine ⟨⟨_, rfl⟩, ?_, rfl⟩
      intro t ht
      rw [List.mem_singleton.mp ht]
      exact htarget
    · refine ⟨hret, ?_, ?_⟩
      · intro t ht
        rcases List.mem_cons.mp ht with rfl | ht
        · exact htarget
        · exact htargets t ht
      · rw [hcache', hcache.isOf.rebuild]

lemma attempt_of_no_points (hring : (cfg.ringOf p).entries = [])
    (hcache : cache.lastRebuildTime ≠ cfg.lastModTime) (hp : ss.pubId = p) (hretry : ss.retry = 0)
    (a : Attempt) :
    ∃ cache' result, attempt cfg crc32 a cache qs ss = (cache', .error result) ∧
      ∀ ret, result ≠ .rawAdd ret := by
  unfold attempt
  split
  · exact ⟨_, _, rfl, (fun _ h => nomatch h)⟩
  · have hrounds : ss.rounds cfg (cache.rebuild cfg (cfg.storeIdsOf ss.pubId))
        (cfg.storeIdsOf ss.pubId) a.storeEnv ((cfg.storeIdsOf ss.pubId).length + 2) = none := by
      unfold StoreSelector.rounds StoreSelector.round StoreSelector.found
      dsimp only
      rw [hp, (rebuild_isOf hcache).ring, if_neg, OrderedMap.owner_eq_none hring]
      · rfl
      · rintro ⟨_, hne⟩
        exact hne hretry
    unfold StoreSelector.getStoreID
    dsimp only
    by_cases hnil : cfg.storeIdsOf ss.pubId = []
    · rw [if_pos hnil]
      exact ⟨_, _, rfl, (fun _ h => nomatch h)⟩
    · rw [if_neg hnil, hrounds]
      exact ⟨_, _, rfl, (fun _ h => nomatch h)⟩

lemma selectLoop_of_error {env : ℕ → Attempt} {n : ℕ} {cache' : RingCache} {result : AddResult}
    (h : attempt cfg crc32 (env n) cache qs ss = (cache', .error result)) :
    selectLoop cfg crc32 env n cache qs ss = ⟨cache', [], result⟩ := by
  cases n <;>
  · unfold selectLoop
    rw [h]

/-- The loop ends where `RawAdd` succeeds. -/
lemma selectLoop_of_ok (hids : cfg.StoreIds)
    (hid : cfg.topic.getQueueInfoIDByCount p count = .ok id) {n : ℕ} (hcache : cache.Uses cfg p₀ p)
    (hsel : Selectors p uin count k qs ss) {env : ℕ → Attempt} (henv : (env n).ret = .ok) :
    ∃ s, SelectsStore cfg p₀ ⟨p, uin, k, []⟩ ((env n).decides cfg p) s ∧
      selectLoop cfg crc32 env n cache qs ss = ⟨cache.rebuild cfg (cfg.storeIdsOf p),
        [(s, (cfg.queueOf crc32 id uin (env n).queueRand k).getD (env n).queueId)], .rawAdd .ok⟩ := by
  obtain ⟨s, qs', ss', hattempt, hselects, _⟩ := @attempt_eq cfg crc32 cache p id p₀ ss uin k count
    qs hids hid hcache hsel (env n)
  have hleaves : leaves (env n).ret = true := by
    rw [henv]
    rfl
  refine ⟨s, hselects, ?_⟩
  cases n <;>
  · unfold selectLoop
    rw [hattempt]
    dsimp only
    rw [if_pos hleaves, henv]

/-- **When `RawAdd` fails, all attempts are made**, each with the same random numbers. -/
theorem mem_targets (hids : cfg.StoreIds) (hid : cfg.topic.getQueueInfoIDByCount p count = .ok id)
    {n : ℕ} (hcache : cache.Uses cfg p₀ p) (hsel : Selectors p uin count k qs ss) {a : Attempt}
    (ha : leaves a.ret = false) {i : ℕ} (hi : i ≤ n) :
    ∃ s, SelectsStore cfg p₀ ⟨p, uin, k + i, []⟩ (a.decides cfg p) s ∧
      (s, (cfg.queueOf crc32 id uin a.queueRand (k + i)).getD a.queueId) ∈
        (selectLoop cfg crc32 (fun _ => a) n cache qs ss).targets := by
  induction n generalizing cache k qs ss i with
  | zero =>
    obtain rfl : i = 0 := by omega
    obtain ⟨s, qs', ss', hattempt, hselects, _⟩ := @attempt_eq cfg crc32 cache p id p₀ ss uin k count
      qs hids hid hcache hsel a
    refine ⟨s, hselects, ?_⟩
    unfold selectLoop
    rw [hattempt]
    dsimp only
    rw [ha]
    exact List.mem_cons_self
  | succ n ih =>
    obtain ⟨s, qs', ss', hattempt, hselects, hsel'⟩ := @attempt_eq cfg crc32 cache p id p₀ ss uin k
      count qs hids hid hcache hsel a
    have htargets : (selectLoop cfg crc32 (fun _ => a) (n + 1) cache qs ss).targets =
        (s, (cfg.queueOf crc32 id uin a.queueRand k).getD a.queueId) ::
          (selectLoop cfg crc32 (fun _ => a) n (cache.rebuild cfg (cfg.storeIdsOf p)) qs' ss').targets := by
      rw [selectLoop, hattempt]
      dsimp only
      rw [ha]
      rfl
    cases i with
    | zero =>
      refine ⟨s, hselects, ?_⟩
      rw [htargets]
      exact List.mem_cons_self
    | succ i =>
      obtain ⟨s', hselects', hmem⟩ := ih hcache.next hsel' (Nat.le_of_succ_le_succ hi)
      rw [Nat.add_right_comm] at hselects' hmem
      refine ⟨s', hselects', ?_⟩
      rw [htargets]
      exact List.mem_cons_of_mem _ hmem

end

end PhxQueue.Producer
