import PhxQueue.Config.TopicConfig

/-!
# Stores of a topic

`config/storeconfig.cpp` and `config/utils/pub_util.cpp`: the stores of a topic and the publishers
each one serves.  A store without publishers serves all.
-/

set_option linter.unusedSectionVars false

namespace PhxQueue.Config
open Comm

/-- `proto::Store`, as far as it is read. -/
structure ProtoStore where
  storeId : ℤ
  pubIds : List ℤ
deriving DecidableEq

/-- `proto::StoreConfig`; entries with id 0 are not read. -/
abbrev ProtoStores := List ProtoStore

def getAllStoreID (stores : ProtoStores) : List ℤ :=
  elements ((stores.map ProtoStore.storeId).filter (· ≠ 0))

def getStoreByStoreID (stores : ProtoStores) (storeId : ℤ) : Except RetCode ProtoStore :=
  match stores.find? fun s => s.storeId ≠ 0 ∧ s.storeId = storeId with
  | none => .error .errRangeStore
  | some s => .ok s

def getPubIDsByStoreID (topic : TopicConfig) (stores : ProtoStores) (storeId : ℤ) :
    Except RetCode (List ℤ) :=
  match getStoreByStoreID stores storeId with
  | .error ret => .error ret
  | .ok store =>
    if store.pubIds ≠ [] then
      .ok (elements (store.pubIds.filter fun p => (topic.pubId2pub p).isSome))
    else .ok topic.getAllPubID

variable {topic : TopicConfig} {stores : ProtoStores}

lemma mem_getAllStoreID_of_ok {s : ℤ} {store : ProtoStore}
    (h : getStoreByStoreID stores s = .ok store) : s ∈ getAllStoreID stores := by
  unfold getStoreByStoreID at h
  split at h
  · cases h
  · rename_i found hf
    have hid := List.find?_some hf
    obtain ⟨h0, rfl⟩ := of_decide_eq_true hid
    refine mem_elements.mpr (List.mem_filter.mpr ⟨?_, decide_eq_true h0⟩)
    exact List.mem_map_of_mem (List.mem_of_find?_eq_some hf)

/-- The publishers of a store are among those of the topic. -/
lemma exists_pub_of_mem {s : ℤ} {pubIds : List ℤ}
    (h : getPubIDsByStoreID topic stores s = .ok pubIds) {p : ℤ} (hp : p ∈ pubIds) :
    ∃ pub, topic.pubId2pub p = some pub := by
  unfold getPubIDsByStoreID at h
  split at h
  · cases h
  split at h
  · cases h
    have hmem := (List.mem_filter.mp (mem_elements.mp hp)).2
    exact Option.isSome_iff_exists.mp hmem
  · cases h
    obtain ⟨pub, hpub, h0, rfl⟩ := TopicConfig.mem_getAllPubID.mp hp
    exact TopicConfig.exists_pubId2pub hpub h0

end PhxQueue.Config
