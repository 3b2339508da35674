import PhxQueue.Lib.Traced
import PhxQueue.Config.StoreConfig
import PhxQueue.Consumer.Distribute
import PhxQueue.Consumer.Routing

/-!
# Frequency limits

`consumer/freqman.cpp`: the workers count in shared memory what they handle, a child of the parent turns
the counts into limits every few seconds, and the workers are judged by these.  The arrays have fixed
sizes; vpids and ranks of handle ids index them, and every function says which elements it uses.

* `updateConsumeStat`         a worker counts a batch;
* `updateLimitInfo`           the limits from the counts, with its loops over freq infos and workers;
* `clearAllConsumeStat`, `judge`   the rest;
* `Event`, `step`             the processes, one operation after another.

What is computed with `double`s decides about an index by one comparison only, and is a parameter;
`ratArith` is the arithmetic of the source with rational numbers.
-/

set_option linter.unusedSectionVars false

namespace PhxQueue.Consumer.FreqMan
open Comm PhxQueue.Config Lib Lib.Traced

/-! ## The shared memory -/

def maxVpid : ℕ := 10000

def maxHandleIdNum : ℕ := 1000

/-- `LimitInfo_t`. -/
structure LimitInfo where
  nhandleLimit : ℤ := 0
  nrefill : ℤ := 0
  refillIntervalMs : ℤ := 0

/-- The limit and the interval that are stored are not 0, which stands for no limit. -/
def LimitInfo.atLeastOne (limitInfo : LimitInfo) : LimitInfo :=
  { limitInfo with
    nhandleLimit := if limitInfo.nhandleLimit = 0 then 1 else limitInfo.nhandleLimit
    refillIntervalMs := if limitInfo.refillIntervalMs = 0 then 1 else limitInfo.refillIntervalMs }

lemma LimitInfo.atLeastOne_ne (limitInfo : LimitInfo) : limitInfo.atLeastOne.nhandleLimit ≠ 0 := by
  unfold LimitInfo.atLeastOne
  dsimp only
  split_ifs with h
  · exact one_ne_zero
  · exact h

/-- `ConsumeStat_t`. -/
structure ConsumeStat where
  nget : ℤ := 0
  nhandleTot : ℤ := 0
  handleIdRank2nhandle : ℤ → ℤ := fun _ => 0

/-- `FreqManShm_t`; what lies beyond an array is not modelled, only that it is accessed. -/
structure Shm where
  limitInfos : ℕ → LimitInfo := fun _ => {}
  consumeStats : ℕ → ConsumeStat := fun _ => {}

inductive Access
  | limitInfo (vpid : ℕ)
  | consumeStat (vpid : ℕ)
  | nhandle (vpid : ℕ) (rank : ℤ)
deriving DecidableEq

namespace Shm

variable (shm : Shm)

def setLimitInfo (vpid : ℕ) (limitInfo : LimitInfo) : Shm :=
  { shm with limitInfos := Function.update shm.limitInfos vpid limitInfo }

def setConsumeStat (vpid : ℕ) (consumeStat : ConsumeStat) : Shm :=
  { shm with consumeStats := Function.update shm.consumeStats vpid consumeStat }

/-- `handle_id_rank2nhandle[rank]` is set. -/
def setNhandle (vpid : ℕ) (rank nhandle : ℤ) : Shm :=
  let stat := shm.consumeStats vpid
  let ranks := Function.update stat.handleIdRank2nhandle rank nhandle
  shm.setConsumeStat vpid { stat with handleIdRank2nhandle := ranks }

@[simp] lemma setLimitInfo_consumeStats (vpid : ℕ) (limitInfo : LimitInfo) :
    (shm.setLimitInfo vpid limitInfo).consumeStats = shm.consumeStats := rfl

end Shm

/-! ## The configuration -/

/-- `proto::FreqInfo`; the handle id -1 stands for any. -/
structure FreqInfo where
  pubId : ℤ
  consumerGroupId : ℤ
  handleId : ℤ := -1
  limitPerMin : ℤ
  queueInfoId : ℤ
deriving DecidableEq

/-- A topic configuration with what is read for the limits. -/
structure FreqConfig where
  topic : TopicConfig
  handleIds : List ℤ := []
  freqInfos : List FreqInfo := []
  lastModTime : ℕ := 0

def getHandleIDRank (config : FreqConfig) (handleId : ℤ) : Except RetCode ℤ :=
  if handleId ∈ config.handleIds then .ok (config.handleIds.idxOf handleId)
  else .error .errRangeHandle

/-! ## Counting -/

/-- The loop body of `ClearConsumeStat`. -/
def clearRank (vpid : ℕ) (shm : Shm) (i : ℕ) : Traced Access Shm := do
  touch (.nhandle vpid i)
  pure (shm.setNhandle vpid i 0)

/-- `ClearConsumeStat` of the statistics of a worker. -/
def clearConsumeStat (nhandleId : ℕ) (shm : Shm) (vpid : ℕ) : Traced Access Shm := do
  touch (.consumeStat vpid)
  let ranks := (shm.consumeStats vpid).handleIdRank2nhandle
  let shm := shm.setConsumeStat vpid { handleIdRank2nhandle := ranks }
  each (clearRank vpid) (List.range nhandleId) shm

/-- The loop body of `UpdateConsumeStat`. -/
def countItem (config : FreqConfig) (consumerGroupId : ℤ) (vpid : ℕ) (shm : Shm) (item : QItem) :
    Traced Access Shm :=
  if skipHandle consumerGroupId item then pure shm else
  match getHandleIDRank config item.handleId with
  | .error _ => pure shm
  | .ok rank =>
    if rank > maxHandleIdNum then pure shm else do
      let stat := shm.consumeStats vpid
      let shm := shm.setConsumeStat vpid { stat with nhandleTot := stat.nhandleTot + 1 }
      touch (.nhandle vpid rank)
      pure (shm.setNhandle vpid rank (stat.handleIdRank2nhandle rank + 1))

/-- The shared memory, and `topic_config_last_mod_time` of every worker. -/
structure State where
  shm : Shm := {}
  lastModTime : ℕ → ℕ := fun _ => 0

/-- The statistics of a worker are cleared when the configuration has changed. -/
def clearIfChanged (config : FreqConfig) (vpid : ℕ) (s : State) : Traced Access State :=
  if s.lastModTime vpid = config.lastModTime then pure s else do
    let shm ← clearConsumeStat config.handleIds.length s.shm vpid
    pure ⟨shm, Function.update s.lastModTime vpid config.lastModTime⟩

def updateConsumeStat (vpid : ℕ) (config : Option FreqConfig) (consumerGroupId : ℤ)
    (items : List QItem) (s : State) : Traced Access State :=
  if vpid > maxVpid then pure s else do
    touch (.consumeStat vpid)
    match config with
    | none => pure s
    | some config => do
      let s ← clearIfChanged config vpid s
      let stat := s.shm.consumeStats vpid
      let shm := s.shm.setConsumeStat vpid { stat with nget := stat.nget + 1 }
      let shm ← each (countItem config consumerGroupId vpid) items shm
      pure { s with shm }

def clearAllConsumeStat (nprocs : ℕ) (config : Option FreqConfig) (s : State) :
    Traced Access State :=
  match config with
  | none => pure s
  | some config => do
    let shm ← each (clearConsumeStat config.handleIds.length) (List.range nprocs) s.shm
    pure { s with shm }

/-- What `Judge` returns. -/
structure Judgement where
  needBlock : Bool := false
  needFreqlimit : Bool := false
  nrefill : ℤ := 0
  refillIntervalMs : ℤ := 0

def judge (vpid : ℕ) (shm : Shm) : Traced Access Judgement :=
  if vpid > maxVpid then pure {} else do
    touch (.limitInfo vpid)
    touch (.consumeStat vpid)
    let limitInfo := shm.limitInfos vpid
    if limitInfo.nhandleLimit = 0 then pure {} else
    pure {
      needBlock := (shm.consumeStats vpid).nhandleTot > limitInfo.nhandleLimit
      needFreqlimit := true
      nrefill := limitInfo.nrefill
      refillIntervalMs := limitInfo.refillIntervalMs }

/-! ## Limits -/

/-- What `UpdateLimitInfo` reads besides the shared memory. -/
structure LimitEnv where
  config : Except RetCode FreqConfig
  stores : Except RetCode ProtoStores
  queues : Except RetCode (List (Option Slot))
  diffTimeMs : ℕ

def validStoreIds (topic : TopicConfig) (stores : ProtoStores) (pubId : ℤ) : List ℤ :=
  (getAllStoreID stores).filter fun storeId =>
    match getPubIDsByStoreID topic stores storeId with
    | .ok pubIds => pubIds.contains pubId
    | .error _ => false

def validQueueIds (topic : TopicConfig) (queueInfoId : ℤ) : List ℤ :=
  match topic.getQueuesByQueueInfoID queueInfoId with
  | .ok queues => queues
  | .error _ => []

/-- What a freq info is about. -/
structure Target where
  rank : ℤ
  storeIds : List ℤ
  queueIds : List ℤ
  procTot : ℤ

def rankOf (config : FreqConfig) (handleId : ℤ) : Except RetCode ℤ :=
  if handleId = -1 then .ok (-1) else getHandleIDRank config handleId

/-- The checks of a freq info, up to the loops over the workers. -/
def target (config : FreqConfig) (stores : ProtoStores) (info : FreqInfo) : Option Target :=
  if info.limitPerMin = 0 then none else
  match rankOf config info.handleId with
  | .error _ => none
  | .ok rank =>
    match config.topic.pubId2pub info.pubId with
    | none => none
    | some pub =>
      let storeIds := validStoreIds config.topic stores info.pubId
      let queueIds := validQueueIds config.topic info.queueInfoId
      let procTot := ((storeIds.length * queueIds.length : ℕ) : ℤ).bmod (2 ^ 32)
      if info.consumerGroupId ∉ pub.consumerGroupIds then none
      else if storeIds = [] ∨ queueIds = [] ∨ procTot = 0 then none
      else some { rank, storeIds, queueIds, procTot }

/-- The worker consumes a queue the freq info is about. -/
def Target.matches (tgt : Target) (info : FreqInfo) (queues : List (Option Slot)) (vpid : ℕ) : Bool :=
  match queues[vpid]? with
  | some (some queue) => queue.consumerGroupId = info.consumerGroupId ∧
      queue.storeId ∈ tgt.storeIds ∧ queue.queueId ∈ tgt.queueIds
  | _ => false

/-- The counts of the workers a freq info is about. -/
structure Stats where
  procUsed : ℤ := 0
  nget : ℤ := 0
  nhandleTot : ℤ := 0
  nhandle : ℤ := 0

def Stats.add (a b : Stats) : Stats where
  procUsed := a.procUsed + b.procUsed
  nget := a.nget + b.nget
  nhandleTot := a.nhandleTot + b.nhandleTot
  nhandle := a.nhandle + b.nhandle

/-- A count that is divided by is not 0. -/
def Stats.atLeastOne (stats : Stats) : Stats :=
  { stats with
    nget := if stats.nget = 0 then 1 else stats.nget
    nhandleTot := if stats.nhandleTot = 0 then 1 else stats.nhandleTot
    nhandle := if stats.nhandle = 0 then 1 else stats.nhandle }

/-- The body of the first loop over the workers. -/
def countWorker (tgt : Target) (info : FreqInfo) (queues : List (Option Slot)) (shm : Shm)
    (stats : Stats) (vpid : ℕ) : Traced Access Stats :=
  if tgt.matches info queues vpid then do
    let stat := shm.consumeStats vpid
    touch (.consumeStat vpid)
    let nhandle ← if tgt.rank = -1 then pure stat.nhandleTot else do
      touch (.nhandle vpid tgt.rank)
      pure (stat.handleIdRank2nhandle tgt.rank)
    pure {
      procUsed := stats.procUsed + 1
      nget := stats.nget + stat.nget
      nhandleTot := stats.nhandleTot + stat.nhandleTot
      nhandle := stats.nhandle + nhandle }
  else pure stats

def statistics (nprocs : ℕ) (tgt : Target) (info : FreqInfo) (queues : List (Option Slot))
    (shm : Shm) : Traced Access Stats :=
  each (countWorker tgt info queues shm) (List.range nprocs) {}

/-- What is computed with `double`s: the handled percentage of a process, from the limit of a freq
info, the counts, `proc_tot` and the time since the last update; and the limits of a worker, from
these and its own count, as they are before a 0 is replaced. -/
structure Arith (F : Type) where
  handledPct : ℤ → Stats → ℤ → ℕ → F
  limitInfo : ℤ → Stats → ℤ → ℕ → ℤ → LimitInfo

/-- A conversion to `int`. -/
def toInt (x : ℚ) : ℤ := x.num.tdiv x.den

def ratArith : Arith ℚ where
  handledPct limitPerMin stats procTot diffTimeMs :=
    let limitPerProc : ℚ := limitPerMin / 60 * diffTimeMs / 1000 / procTot
    stats.nhandle / stats.procUsed / limitPerProc
  limitInfo limitPerMin stats procTot diffTimeMs nhandle :=
    let limitPerProc : ℚ := limitPerMin / 60 * diffTimeMs / 1000 / procTot
    let handleRate : ℚ := stats.nhandle / stats.nhandleTot
    let interval := toInt (diffTimeMs / (limitPerProc / handleRate))
    let share : ℚ := nhandle / (stats.nhandle / stats.procUsed)
    let prop := if nhandle = 0 then 1 else if share < 1 / 10 then 1 / 10 else share
    { nhandleLimit := toInt (limitPerProc / handleRate * prop)
      nrefill := if interval = 0 then toInt (limitPerProc / diffTimeMs / handleRate) else 1
      refillIntervalMs := toInt ((if interval = 0 then 1 else interval) / prop) }

/-- The variables of the loop over the freq infos. -/
structure Limiting (F : Type) where
  shm : Shm
  updated : ℕ → Bool := fun _ => false
  maxHandlePct : ℤ × ℤ × ℤ → Option F := fun _ => none

/-- `pub_consumer_group_queue_info_id2max_handle_pct` is set. -/
def Limiting.record {F : Type} (s : Limiting F) (key : ℤ × ℤ × ℤ) (pct : F) : Limiting F :=
  { s with maxHandlePct := Function.update s.maxHandlePct key (some pct) }

def FreqInfo.key (info : FreqInfo) : ℤ × ℤ × ℤ :=
  (info.pubId, info.consumerGroupId, info.queueInfoId)

section
variable {F : Type} [LinearOrder F] (arith : Arith F) (nprocs : ℕ)

/-- The body of the second loop over the workers. -/
def setLimit (tgt : Target) (info : FreqInfo) (queues : List (Option Slot)) (stats : Stats)
    (diffTimeMs : ℕ) (s : Limiting F) (vpid : ℕ) : Traced Access (Limiting F) :=
  if tgt.matches info queues vpid then do
    touch (.consumeStat vpid)
    touch (.nhandle vpid tgt.rank)
    let nhandle := (s.shm.consumeStats vpid).handleIdRank2nhandle tgt.rank
    touch (.limitInfo vpid)
    let limitInfo := arith.limitInfo info.limitPerMin stats tgt.procTot diffTimeMs nhandle
    pure { s with
      shm := s.shm.setLimitInfo vpid limitInfo.atLeastOne
      updated := Function.update s.updated vpid true }
  else pure s

def setLimits (tgt : Target) (info : FreqInfo) (queues : List (Option Slot)) (stats : Stats)
    (diffTimeMs : ℕ) (s : Limiting F) : Traced Access (Limiting F) :=
  each (setLimit arith tgt info queues stats diffTimeMs) (List.range nprocs) s

/-- A freq info of the same publisher, group and queue info has had a higher percentage. -/
def beaten (s : Limiting F) (key : ℤ × ℤ × ℤ) (pct : F) : Prop :=
  ∃ m, s.maxHandlePct key = some m ∧ pct < m

instance (s : Limiting F) (key : ℤ × ℤ × ℤ) (pct : F) : Decidable (beaten s key pct) :=
  match h : s.maxHandlePct key with
  | none => isFalse fun ⟨_, hm, _⟩ => by rw [h] at hm; cases hm
  | some m => decidable_of_iff (pct < m) ⟨fun hlt => ⟨m, h, hlt⟩,
      fun ⟨m', hm', hlt⟩ => by rw [h] at hm'; cases hm'; exact hlt⟩

def limitFreqInfo (config : FreqConfig) (stores : ProtoStores) (queues : List (Option Slot))
    (diffTimeMs : ℕ) (s : Limiting F) (info : FreqInfo) : Traced Access (Limiting F) :=
  match target config stores info with
  | none => pure s
  | some tgt => do
    let stats ← statistics nprocs tgt info queues s.shm
    if stats.procUsed = 0 then pure s else
    let stats := stats.atLeastOne
    let pct := arith.handledPct info.limitPerMin stats tgt.procTot diffTimeMs
    if beaten s info.key pct then pure s else
    setLimits arith nprocs tgt info queues stats diffTimeMs (s.record info.key pct)

/-- The last loop: a worker without limits has none. -/
def clearLimit (updated : ℕ → Bool) (shm : Shm) (vpid : ℕ) : Traced Access Shm :=
  if updated vpid then pure shm else do
    touch (.limitInfo vpid)
    pure (shm.setLimitInfo vpid {})

def updateLimitInfo (env : LimitEnv) (shm : Shm) : Traced Access (Shm × RetCode) :=
  match env.config with
  | .error ret => pure (shm, ret)
  | .ok config =>
    match env.stores with
    | .error ret => pure (shm, ret)
    | .ok stores =>
      match env.queues with
      | .error ret => pure (shm, ret)
      | .ok queues =>
        if queues.length ≠ nprocs then pure (shm, .errUnexpected) else do
          let s ← each (limitFreqInfo arith nprocs config stores queues env.diffTimeMs)
            config.freqInfos { shm }
          let shm ← each (clearLimit s.updated) (List.range nprocs) s.shm
          pure (shm, .ok)

/-! ## Runs -/

/-- An operation of one of the processes; a worker is its vpid.  A worker that is forked, for the first
time or again, starts with its own variables. -/
inductive Event
  | fork (vpid : ℕ)
  | updateConsumeStat (vpid : ℕ) (config : Option FreqConfig) (consumerGroupId : ℤ)
      (items : List QItem)
  | judge (vpid : ℕ)
  | updateLimitInfo (env : LimitEnv)
  | clearAllConsumeStat (config : Option FreqConfig)

def step (s : State) : Event → Traced Access State
  | .fork vpid => pure { s with lastModTime := Function.update s.lastModTime vpid 0 }
  | .updateConsumeStat vpid config consumerGroupId items =>
    updateConsumeStat vpid config consumerGroupId items s
  | .judge vpid => do
    let _ ← judge vpid s.shm
    pure s
  | .updateLimitInfo env => do
    let r ← updateLimitInfo arith nprocs env s.shm
    pure { s with shm := r.1 }
  | .clearAllConsumeStat config => clearAllConsumeStat nprocs config s

end

end PhxQueue.Consumer.FreqMan
