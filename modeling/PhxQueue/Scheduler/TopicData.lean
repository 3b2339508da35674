import PhxQueue.Comm
import Mathlib.Tactic

/-!
# The consumers of a topic

What `scheduler/schedulermgr.cpp` does to the data of one topic: a heartbeat of a consumer, the steps
of a load-balance pass, and the reload of the topics.  The arithmetic of `float`s is left open, that of
`int`s is modulo `2 ^ 32`.

* `heartbeat`, `reloadConsumerConfig`, `updateLive`, `getMeanLoad`, `checkImbalance`, `adjustScale`,
  `reloadTopicConfig`     the code;
* `updateLive_again`, `reloadConsumerConfig_again`   a change is reported once;
* `adjustScale_force`     forced, every weight is the one that has been computed for it.
-/

set_option linter.unusedSectionVars false

namespace PhxQueue.Scheduler
open Comm

/-- The conversions between `float` and `int`. -/
structure Floats where
  /-- `static_cast<float>(sum) / all`, as an `int`. -/
  mean : ℤ → ℕ → ℤ
  /-- `mean_load * percent / 100 < sticky_load`. -/
  exceeds : ℤ → ℤ → ℤ → Bool
  /-- `static_cast<int>(init_weight * mean_load / static_cast<float>(dynamic_load))`. -/
  scale : ℤ → ℤ → ℤ → ℤ

/-- The fields of the topic that the scheduler reads. -/
structure SchedTopic where
  getScaleIntervalS : ℕ := 10
  maxLoad : ℤ := 80
  maxMeanLoadPercent : ℤ := 150
  maxInitWeightPercent : ℤ := 200
  loadSticky : ℤ := 5
  weightSticky : ℤ := 500
  hashKeepTimeS : ℕ := 20
  useInitWeight : Bool := true

/-- `MeanVector`, of the last 6 values. -/
structure MeanVector where
  cursor : ℕ := 0
  vector : List ℤ := [0, 0, 0, 0, 0, 0]

structure ConsumerInfo where
  weight : ℤ := 0
  loads : MeanVector := {}
  stickyLoad : ℤ := 0
  initWeight : ℤ := 0
  live : Bool := false
  lastActiveTime : ℕ := 0

/-- `TopicData`; `consumers` is `consumer_addr2info_map`. -/
structure TopicData where
  consumers : List (ℕ × ConsumerInfo) := []
  confLastModTime : ℕ := 0
  initTime : ℕ := 0

inductive Mode
  | static | dynamic
deriving DecidableEq

/-! ## Heartbeats -/

namespace MeanVector

def update (v : MeanVector) (value : ℤ) : MeanVector :=
  { cursor := (v.cursor + 1) % 2 ^ 32
    vector := v.vector.set (v.cursor % v.vector.length) value }

def meanOf (floats : Floats) (v : MeanVector) : ℤ :=
  if v.cursor = 0 then 0
  else floats.mean ((v.vector.take v.cursor).sum.bmod (2 ^ 32)) (min v.cursor v.vector.length)

def reset (v : MeanVector) : MeanVector := { v with cursor := 0 }

end MeanVector

section
variable (floats : Floats)

/-- What `GetAddrScale` does to the consumer that calls. -/
def ConsumerInfo.heartbeat (topic : SchedTopic) (now : ℕ) (load : ℤ) (c : ConsumerInfo) :
    ConsumerInfo :=
  let loads := c.loads.update load
  let newLoad := loads.meanOf floats
  { c with
    lastActiveTime := now
    loads := loads
    stickyLoad :=
      if topic.loadSticky < |(newLoad - c.stickyLoad).bmod (2 ^ 32)|.bmod (2 ^ 32) ∨
          0 ≥ c.stickyLoad then newLoad
      else c.stickyLoad }

/-- The part of `GetAddrScale` for a consumer that is found. -/
def heartbeat (topic : SchedTopic) (addr now : ℕ) (load : ℤ) (t : TopicData) : TopicData :=
  { t with consumers := t.consumers.map fun kv =>
      if kv.1 = addr then (kv.1, kv.2.heartbeat floats topic now load) else kv }

/-! ## The steps of a pass -/

def mapHas {α : Type} (l : List (ℕ × α)) (addr : ℕ) : Bool := l.any fun kv => kv.1 = addr

/-- `consumer_addr2scale_map[addr]`. -/
def scaleOf (scales : List (ℕ × ℤ)) (addr : ℕ) : ℤ :=
  ((scales.find? fun kv => kv.1 = addr).map Prod.snd).getD 0

/-- The update of the map in `ReloadConsumerConfig`. -/
def updateConsumers (scales : List (ℕ × ℤ)) (consumers : List (ℕ × ConsumerInfo)) :
    List (ℕ × ConsumerInfo) :=
  if consumers.length ≠ scales.length ∨ ∃ kv ∈ scales, ¬ mapHas consumers kv.1 then
    let added := consumers ++ (scales.filter fun kv => ¬ mapHas consumers kv.1).map fun kv =>
      (kv.1, { weight := kv.2, initWeight := kv.2 })
    if scales.length ≠ added.length then added.filter fun kv => mapHas scales kv.1 else added
  else consumers

/-- `ReloadConsumerConfig`, which tells if it has modified the topic: `confLastModTime` and
`scales` are what it reads. -/
def reloadConsumerConfig (confLastModTime : ℕ) (scales : Except RetCode (List (ℕ × ℤ)))
    (t : TopicData) : Except RetCode (TopicData × Bool) :=
  if confLastModTime = t.confLastModTime then .ok (t, false) else
  match scales with
  | .error ret => .error ret
  | .ok scales =>
    .ok ({ t with
      consumers := (updateConsumers scales t.consumers).map fun kv =>
        (kv.1, { kv.2 with initWeight := scaleOf scales kv.1 })
      confLastModTime := confLastModTime }, true)

def getMode (topic : Except RetCode SchedTopic) (now : ℕ) (t : TopicData) : Mode :=
  match topic with
  | .error _ => .static
  | .ok topic => if t.initTime + 3 * topic.getScaleIntervalS * 1000 ≥ now then .static else .dynamic

/-- One round of `UpdateLive`. -/
def ConsumerInfo.updateLive (topic : SchedTopic) (now : ℕ) (c : ConsumerInfo) :
    ConsumerInfo × Bool :=
  if c.live ∧ c.lastActiveTime + topic.hashKeepTimeS * 1000 ≤ now then
    ({ c with weight := 0, loads := c.loads.reset, stickyLoad := 0, live := false }, true)
  else if ¬ c.live ∧ c.lastActiveTime + topic.hashKeepTimeS * 1000 > now then
    ({ c with live := true }, true)
  else (c, false)

def updateLive (topic : Except RetCode SchedTopic) (now : ℕ) (t : TopicData) :
    Except RetCode (TopicData × Bool) :=
  match topic with
  | .error ret => .error ret
  | .ok topic =>
    .ok ({ t with
      consumers := t.consumers.map fun kv => (kv.1, (kv.2.updateLive topic now).1) },
      t.consumers.any fun kv => (kv.2.updateLive topic now).2)

def liveConsumers (t : TopicData) : List ConsumerInfo :=
  (t.consumers.map Prod.snd).filter ConsumerInfo.live

def getMeanLoad (t : TopicData) : Except RetCode ℤ :=
  let nrLive := (liveConsumers t).length
  let sumLoad := ((liveConsumers t).map ConsumerInfo.stickyLoad).sum.bmod (2 ^ 32)
  if nrLive = 0 then .error .noLiveConsumer else
  if 0 ≥ sumLoad then .error .errLogic else
  .ok (sumLoad.tdiv nrLive)

def isConsumerImbalance (topic : SchedTopic) (stickyLoad meanLoad : ℤ) : Bool :=
  topic.maxLoad < stickyLoad ∧ floats.exceeds meanLoad topic.maxMeanLoadPercent stickyLoad

/-- `CheckImbalance`; `nr_live` is never counted. -/
def checkImbalance (topic : Except RetCode SchedTopic) (meanLoad : ℤ) (t : TopicData) :
    Except RetCode Bool :=
  match topic with
  | .error ret => .error ret
  | .ok topic =>
    let nrLive := 0
    let nrBalance := ((liveConsumers t).filter fun c =>
      ¬ isConsumerImbalance floats topic c.stickyLoad meanLoad).length
    .ok (nrLive = nrBalance)

def nextConsumerWeight (topic : SchedTopic) (dynamicLoad meanLoad initWeight : ℤ) : ℤ :=
  if 0 ≥ dynamicLoad then 0 else
  let newWeight := floats.scale initWeight meanLoad dynamicLoad
  let max := ((initWeight * topic.maxInitWeightPercent).bmod (2 ^ 32)).tdiv 100
  if max < newWeight then max else newWeight

/-- The weight that `AdjustScale` previews. -/
def previewWeight (topic : SchedTopic) (meanLoad : ℤ) (c : ConsumerInfo) : ℤ :=
  if c.live then
    if topic.useInitWeight then c.initWeight
    else nextConsumerWeight floats topic c.stickyLoad meanLoad c.initWeight
  else 0

def adjustScale (topic : Except RetCode SchedTopic) (meanLoad : ℤ) (forceApply : Bool)
    (t : TopicData) : Except RetCode TopicData :=
  match topic with
  | .error ret => .error ret
  | .ok topic =>
    let preview := previewWeight floats topic meanLoad
    let sumDiff := (t.consumers.map fun kv =>
      |(kv.2.weight - preview kv.2).bmod (2 ^ 32)|).sum.bmod (2 ^ 32)
    if forceApply ∨ t.consumers.length * topic.weightSticky < sumDiff then
      .ok { t with consumers := t.consumers.map fun kv =>
        (kv.1, { kv.2 with weight := preview kv.2 }) }
    else .ok t

/-! ## Topics -/

/-- The loop of `ReloadTopicConfig` that removes topics; it passes over the one after each that it
removes. -/
def removeTopics (topicIds : List ℤ) : List (ℤ × TopicData) → List (ℤ × TopicData)
  | [] => []
  | kv :: rest =>
    if kv.1 ∈ topicIds then kv :: removeTopics topicIds rest else
    match rest with
    | [] => []
    | kv' :: rest' => kv' :: removeTopics topicIds rest'

/-- `ReloadTopicConfig`, on the topics in order; `clock` is read for new ones. -/
def reloadTopicConfig (topicIds : List ℤ) (clock : ℕ) (topics : List (ℤ × TopicData)) :
    List (ℤ × TopicData) :=
  let new := topicIds.filter fun id => ¬ topics.any fun kv => kv.1 = id
  if topics.length = topicIds.length ∧ new = [] then topics else
  let added := (topics ++ new.map fun id => (id, ({ initTime := clock } : TopicData))).insertionSort
    fun a b => a.1 ≤ b.1
  if topicIds.length ≠ added.length then removeTopics topicIds added else added

/-! ## What is reported -/

variable {floats}

/-- A consumer whose state has been updated is not reported again. -/
lemma updateLive_snd_again (topic : SchedTopic) (now : ℕ) (c : ConsumerInfo) :
    ((c.updateLive topic now).1.updateLive topic now).2 = false := by
  by_cases hdead : c.lastActiveTime + topic.hashKeepTimeS * 1000 ≤ now
  · have hnot : ¬ now < c.lastActiveTime + topic.hashKeepTimeS * 1000 := Nat.not_lt.mpr hdead
    cases hlive : c.live <;> simp [ConsumerInfo.updateLive, hlive, hdead, hnot]
  · have hgt : c.lastActiveTime + topic.hashKeepTimeS * 1000 > now := Nat.not_le.mp hdead
    cases hlive : c.live <;> simp [ConsumerInfo.updateLive, hlive, hdead, hgt]

theorem updateLive_again {topic : SchedTopic} {now : ℕ} {t t' : TopicData} {modified : Bool}
    (h : updateLive (.ok topic) now t = .ok (t', modified)) :
    ∃ t'', updateLive (.ok topic) now t' = .ok (t'', false) := by
  cases h
  refine ⟨_, congrArg Except.ok (Prod.ext rfl ?_)⟩
  rw [List.any_eq_false]
  intro kv hkv
  obtain ⟨kv', _, rfl⟩ := List.mem_map.mp hkv
  rw [updateLive_snd_again]
  exact Bool.false_ne_true

theorem reloadConsumerConfig_again {confLastModTime : ℕ} {scales scales' : Except RetCode (List (ℕ × ℤ))}
    {t t' : TopicData} {modified : Bool}
    (h : reloadConsumerConfig confLastModTime scales t = .ok (t', modified)) :
    reloadConsumerConfig confLastModTime scales' t' = .ok (t', false) := by
  have htime : confLastModTime = t'.confLastModTime := by
    unfold reloadConsumerConfig at h
    split at h
    · rename_i heq
      cases h
      exact heq
    · cases scales with
      | error ret => cases h
      | ok scales =>
        cases h
        rfl
  unfold reloadConsumerConfig
  rw [if_pos htime]

/-- **Forced, `AdjustScale` applies every weight**: 0 to the dead, and to the living the one that has
been computed. -/
theorem adjustScale_force (topic : SchedTopic) (meanLoad : ℤ) (t : TopicData) :
    adjustScale floats (.ok topic) meanLoad true t =
      .ok { t with consumers := t.consumers.map fun kv =>
        (kv.1, { kv.2 with weight := previewWeight floats topic meanLoad kv.2 }) } := by
  unfold adjustScale
  exact if_pos (Or.inl rfl)

end

end PhxQueue.Scheduler
