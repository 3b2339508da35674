import PhxQueue.Config.StoreConfig
import PhxQueue.Producer.AddRequests

/-!
# Checking requests

`CheckRequestComm` and `CheckAddRequest` of `store/store.cpp`: a store accepts a request for itself
and a queue of its topic, whose items are within the limit of the topic.
-/

set_option linter.unusedSectionVars false

namespace PhxQueue.Store
open Comm Config Producer

/-- What a store reads of the configurations: its own entry, and its topic. -/
structure CheckEnv where
  store : Except RetCode ProtoStore
  topic : Option TopicConfig

section
variable (env : CheckEnv)

def checkRequestComm (storeId queueId : ℤ) : RetCode :=
  match env.store with
  | .error ret => ret
  | .ok store =>
    if store.storeId ≠ storeId then .errRangeStore else
    match env.topic with
    | none => .errRangeTopic
    | some topic => if topic.isValidQueue queueId then .ok else .errRangePub

def itemsByteSize (req : AddRequest) : ℕ := (req.items.map QItem.byteSize).sum

def checkAddRequest (req : AddRequest) : RetCode :=
  let ret := checkRequestComm env req.storeId req.queueId
  if ret ≠ .ok then ret else
  match env.topic with
  | none => .errRangeTopic
  | some topic => if itemsByteSize req > topic.itemsByteSizeLimit then .errSizeTooLarge else .ok

/-- The items are within the limit of the topic. -/
def WithinLimit (bytes : ℕ) : Prop := ∃ topic, env.topic = some topic ∧ bytes ≤ topic.itemsByteSizeLimit

variable {env}

lemma checkAddRequest_ok_iff {req : AddRequest} : checkAddRequest env req = .ok ↔
    checkRequestComm env req.storeId req.queueId = .ok ∧ WithinLimit env (itemsByteSize req) := by
  unfold checkAddRequest WithinLimit
  dsimp only
  by_cases hcomm : checkRequestComm env req.storeId req.queueId = .ok
  · rw [if_neg (not_not.mpr hcomm), and_iff_right hcomm]
    cases htopic : env.topic with
    | none =>
      constructor
      · intro h
        cases h
      · rintro ⟨topic, h, _⟩
        cases h
    | some topic =>
      dsimp only
      by_cases hsize : itemsByteSize req > topic.itemsByteSizeLimit
      · rw [if_pos hsize]
        constructor
        · intro h
          cases h
        · rintro ⟨_, h, hle⟩
          cases h
          exact absurd hsize (Nat.not_lt.mpr hle)
      · rw [if_neg hsize]
        exact ⟨fun _ => ⟨topic, rfl, Nat.not_lt.mp hsize⟩, fun _ => rfl⟩
  · rw [if_pos hcomm]
    exact ⟨fun h => absurd h hcomm, fun h => absurd h.1 hcomm⟩

end

end PhxQueue.Store
