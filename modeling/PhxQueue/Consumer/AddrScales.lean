import PhxQueue.Consumer.Partition

/-!
# The scales of the groups

`HeartBeatLock::GetAddrScale`: the groups of a consumer come from the configuration, and for each of
them the addresses that consume it too, with the scales that the scheduler has answered or that are
configured.

* `getConsumerGroupIDsByConsumerAddr`, `getAddrScale`   the code;
* `scalesOf`             the scales of a group, which do not depend on who asks;
* `mem_getAddrScale`     every consumer of a group gets these;
* `mem_ids_of_consumers` and is one of them, where it has a scale.
-/

set_option linter.unusedSectionVars false

namespace PhxQueue.Consumer
open Comm PhxQueue.Config Lib

/-- `config::proto::Consumer`. -/
structure ProtoConsumer where
  addr : ProtoAddr
  scale : ℤ
  consumerGroupIds : List ℤ := []

/-- The configurations of a topic, with what `GetAddrScale` and `GetAllQueues` read of them. -/
structure Configs where
  topic : TopicConfig
  /-- `use_dynamic_scale` of a group. -/
  useDynamicScale : ℤ → Bool := fun _ => false
  /-- `consumer_ignore_consumer_group_ids` of the topic. -/
  ignoreConsumerGroupIds : List ℤ := []
  consumers : List ProtoConsumer
  stores : ProtoStores
  /-- `GetLastModTime` of the topic. -/
  lastModTime : ℕ

namespace Configs

variable (cfg : Configs)

/-! ## The code -/

def addr2consumer : OrderedMap ℕ ProtoConsumer :=
  .build (cfg.consumers.map fun consumer => (encodeAddr consumer.addr, consumer))

def getAllConsumer : List ProtoConsumer := cfg.addr2consumer.entries.map Prod.snd

def getConsumerByAddr (addr : ProtoAddr) : Option ProtoConsumer :=
  (cfg.addr2consumer.entries.find? fun x => x.1 = encodeAddr addr).map Prod.snd

def getAllConsumerGroupID : List ℤ := elements (cfg.topic.consumerGroupIds.filter (· ≠ 0))

/-- `none` where the address is not configured. -/
def getConsumerGroupIDsByConsumerAddr (addr : ProtoAddr) : Option (List ℤ) := do
  let consumer ← cfg.getConsumerByAddr addr
  if consumer.consumerGroupIds ≠ [] then
    return elements (consumer.consumerGroupIds.filter fun g =>
      cfg.topic.isValidConsumerGroupID g ∧ g ∉ cfg.ignoreConsumerGroupIds)
  else
    return cfg.getAllConsumerGroupID.filter fun g => g ∉ cfg.ignoreConsumerGroupIds

/-- The address consumes the group; an address that is not configured does not. -/
def serves (g : ℤ) (addr : ProtoAddr) : Bool :=
  match cfg.getConsumerGroupIDsByConsumerAddr addr with
  | none => false
  | some ids => g ∈ ids

def configAddrScales : List AddrScale :=
  cfg.getAllConsumer.map fun consumer => ⟨consumer.addr, consumer.scale⟩

def dynamicGroups (ids : List ℤ) : List ℤ :=
  ids.filter fun g => cfg.topic.isValidConsumerGroupID g ∧ cfg.useDynamicScale g

/-- The entries of `consumer_group_id2addr_scales`: a group without an address has none. -/
def addrScaleEntries (ids : List ℤ) (source : ℤ → List AddrScale) : List (ℤ × List AddrScale) :=
  ids.filterMap fun g =>
    let scales := (source g).filter fun x => cfg.serves g x.addr
    if scales = [] then none else some (g, scales)

lemma fst_addrScaleEntries (ids : List ℤ) (source : ℤ → List AddrScale) :
    ((cfg.addrScaleEntries ids source).map Prod.fst).Sublist ids := by
  unfold addrScaleEntries
  induction ids with
  | nil => exact List.Sublist.refl _
  | cons g ids ih =>
    rw [List.filterMap_cons]
    dsimp only
    by_cases hnil : ((source g).filter fun x => cfg.serves g x.addr) = []
    · rw [if_pos hnil]
      exact ih.cons g
    · rw [if_neg hnil]
      exact ih.cons_cons g

lemma sorted_ids {addr : ProtoAddr} {ids : List ℤ}
    (h : cfg.getConsumerGroupIDsByConsumerAddr addr = some ids) : ids.Pairwise (· < ·) := by
  have hsorted (l : List ℤ) : (elements l).Pairwise (· < ·) :=
    ((pairwise_elements l).and (nodup_elements l)).imp fun h => lt_of_le_of_ne h.1 h.2
  obtain ⟨consumer, -, h⟩ := Option.bind_eq_some_iff.mp h
  split at h
  · cases h
    exact hsorted _
  · cases h
    exact (hsorted _).filter _

/-- `GetAddrScale` of a consumer; before its first successful round it does without the scheduler. -/
def getAddrScale (opt : ConsumerOption) (confLastModTime : ℕ) (scheduler : Option (List AddrScale)) :
    Option (ScaleMap (List AddrScale)) :=
  match h : cfg.getConsumerGroupIDsByConsumerAddr opt.localAddr with
  | none => none
  | some ids =>
    let answered : Option (List ℤ × List AddrScale) :=
      if cfg.dynamicGroups ids = [] then some ([], [])
      else
        match scheduler with
        | none => if confLastModTime ≠ 0 then none else some ([], [])
        | some scales => some (cfg.dynamicGroups ids, scales)
    answered.map fun (dynamicIds, dynamicAddrScales) =>
      let configAddrScales :=
        if dynamicIds.length < ids.length then cfg.configAddrScales else []
      let source g := if g ∉ dynamicIds then configAddrScales else dynamicAddrScales
      { scales := cfg.addrScaleEntries ids source
        sorted := (cfg.sorted_ids h).sublist (cfg.fst_addrScaleEntries ids source) }

/-! ## What consumers agree on -/

/-- The scales of a group, when the scheduler answers with `dynamic`. -/
def scalesOf (dynamic : List AddrScale) (g : ℤ) : List AddrScale :=
  (if cfg.topic.isValidConsumerGroupID g ∧ cfg.useDynamicScale g then dynamic
    else cfg.configAddrScales).filter fun x => cfg.serves g x.addr

def configured : Set ConsumerOption :=
  { opt | ∃ consumer ∈ cfg.consumers, consumer.addr = opt.localAddr }

variable {cfg} {opt : ConsumerOption} {g : ℤ}

lemma mem_dynamicGroups {ids : List ℤ} : g ∈ cfg.dynamicGroups ids ↔
    g ∈ ids ∧ cfg.topic.isValidConsumerGroupID g ∧ cfg.useDynamicScale g := by
  unfold dynamicGroups
  rw [List.mem_filter, decide_eq_true_iff]

lemma length_dynamicGroups_lt {ids : List ℤ} (hg : g ∈ ids) (hno : g ∉ cfg.dynamicGroups ids) :
    (cfg.dynamicGroups ids).length < ids.length := by
  have hsub : (cfg.dynamicGroups ids).Sublist ids := List.filter_sublist
  refine lt_of_le_of_ne hsub.length_le fun hlen => hno ?_
  rw [hsub.eq_of_length hlen]
  exact hg

/-- **Every consumer of a group gets the same scales for it.** -/
lemma mem_getAddrScale {dynamic : List AddrScale} {confLastModTime : ℕ}
    {m : ScaleMap (List AddrScale)} {ids : List ℤ}
    (hids : cfg.getConsumerGroupIDsByConsumerAddr opt.localAddr = some ids)
    (hm : cfg.getAddrScale opt confLastModTime (some dynamic) = some m) {scales : List AddrScale} :
    (g, scales) ∈ m.scales ↔ g ∈ ids ∧ scales = cfg.scalesOf dynamic g ∧ scales ≠ [] := by
  unfold getAddrScale at hm
  split at hm
  · rename_i hnone
    rw [hids] at hnone
    cases hnone
  rename_i ids' hids'
  rw [hids, Option.some.injEq] at hids'
  subst hids'
  obtain ⟨⟨dynamicIds, dynamicAddrScales⟩, hanswered, rfl⟩ := Option.map_eq_some_iff.mp hm
  -- what is read for a group of the consumer
  have hsource : ∀ g' ∈ ids, ((if g' ∉ dynamicIds then
      (if dynamicIds.length < ids.length then cfg.configAddrScales else [])
      else dynamicAddrScales).filter fun x => cfg.serves g' x.addr) = cfg.scalesOf dynamic g' := by
    intro g' hg'
    unfold scalesOf
    by_cases hnil : cfg.dynamicGroups ids = []
    · rw [if_pos hnil] at hanswered
      cases hanswered
      have hstatic : ¬ (cfg.topic.isValidConsumerGroupID g' ∧ cfg.useDynamicScale g') := fun h =>
        List.not_mem_nil (hnil ▸ mem_dynamicGroups.mpr ⟨hg', h⟩)
      have hpos : ([] : List ℤ).length < ids.length := List.length_pos_of_mem hg'
      rw [if_pos List.not_mem_nil, if_pos hpos, if_neg hstatic]
    · rw [if_neg hnil] at hanswered
      cases hanswered
      by_cases hdyn : g' ∈ cfg.dynamicGroups ids
      · rw [if_neg (not_not.mpr hdyn), if_pos (mem_dynamicGroups.mp hdyn).2]
      · have hstatic : ¬ (cfg.topic.isValidConsumerGroupID g' ∧ cfg.useDynamicScale g') := fun h =>
          hdyn (mem_dynamicGroups.mpr ⟨hg', h⟩)
        rw [if_pos hdyn, if_pos (length_dynamicGroups_lt hg' hdyn), if_neg hstatic]
  show (g, scales) ∈ cfg.addrScaleEntries ids _ ↔ _
  unfold addrScaleEntries
  rw [List.mem_filterMap]
  constructor
  · rintro ⟨g', hg', hentry⟩
    dsimp only at hentry
    rw [hsource g' hg'] at hentry
    split at hentry
    · cases hentry
    · rename_i hne
      cases hentry
      exact ⟨hg', rfl, hne⟩
  · rintro ⟨hg, rfl, hne⟩
    refine ⟨g, hg, ?_⟩
    dsimp only
    rw [hsource g hg, if_neg hne]

/-- A consumer that has a scale in a group is one of the group. -/
lemma mem_ids_of_consumers {dynamic : List AddrScale}
    (h : opt ∈ Consumer.consumers (cfg.scalesOf dynamic g)) :
    ∃ ids, cfg.getConsumerGroupIDsByConsumerAddr opt.localAddr = some ids ∧ g ∈ ids := by
  obtain ⟨x, hx, haddr, -⟩ := h
  have hserves := (List.mem_filter.mp hx).2
  rw [haddr] at hserves
  unfold serves at hserves
  split at hserves
  · cases hserves
  · rename_i ids hids
    exact ⟨ids, hids, of_decide_eq_true hserves⟩

lemma mem_configured {ids : List ℤ}
    (h : cfg.getConsumerGroupIDsByConsumerAddr opt.localAddr = some ids) : opt ∈ cfg.configured := by
  obtain ⟨consumer, hconsumer, -⟩ := Option.bind_eq_some_iff.mp h
  obtain ⟨⟨k, c⟩, hfind, rfl⟩ := Option.map_eq_some_iff.mp hconsumer
  have hkey := List.find?_some hfind
  have hkey : k = encodeAddr opt.localAddr := of_decide_eq_true hkey
  have hbuild := OrderedMap.mem_build.mp (List.mem_of_find?_eq_some hfind)
  obtain ⟨c', hc', heq⟩ := List.mem_map.mp (List.mem_of_find?_eq_some hbuild)
  have hk : encodeAddr c'.addr = k := congrArg Prod.fst heq
  exact ⟨c', hc', encodeAddr_injective (hk.trans hkey)⟩

end Configs

end PhxQueue.Consumer
