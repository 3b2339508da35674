import PhxQueue.Producer.Enqueue
import PhxQueue.Lib.Pool

/-!
# The batch helper

`producer/batchhelper.cpp` with `comm/notifierpool.cpp`: any number of calls of `BatchRawAdd`, the
daemon threads that dispatch batches, and the routines that process them.  A call puts a task into
the batch of its topic, store and queue.  When this makes the batch ready, the call processes it
itself; otherwise it waits on a notifier, which it takes from a pool and puts back.

* `Helper`, `helper`   the calls, the batches, the notifiers and the requests that were sent;
* `addToBatch_eq`      what the locked part of `BatchRawAdd` does.
-/

set_option linter.unusedSectionVars false

namespace PhxQueue.Producer
open Comm Config Lib

/-- Where a call of `BatchRawAdd` stands. -/
inductive RawPhase
  /-- In `BatchTask::Process`, with the batch it has made ready. -/
  | process
  /-- In `Task::Wait`, before it has read. -/
  | wait
  /-- It has read this, and puts the notifier back. -/
  | put (ret : RetCode)
  | done (ret : RetCode)
deriving DecidableEq

/-- A call of `BatchRawAdd`, with the batch its task is in. -/
structure RawCall where
  req : AddRequest
  batch : ℕ
  phase : RawPhase

/-- Who runs `BatchTask::Process`: a call, or a routine of a daemon thread. -/
inductive Runner (ι : Type)
  | call (c : ι)
  | routine (vtid : ℤ)
deriving DecidableEq

/-- How far `BatchTask::Process` is. -/
inductive Progress (ι : Type)
  /-- Before `RawAdd` has returned. -/
  | rawAdd
  /-- `RawAdd` has returned this, and these are still to be notified. -/
  | notify (ret : RetCode) (rest : List ι)
  | ended (ret : RetCode)

structure Process (ι : Type) where
  runner : Runner ι
  progress : Progress ι

/-- A request that `RawAdd` was called with, for the batch of these calls, and what it returned. -/
structure Sent (ι : Type) where
  batch : ℕ
  callers : List ι
  req : AddRequest
  ret : RetCode

/-- `batches` are all batches there have been; `batchInfos` says which one collects the tasks of a
topic, store and queue, and `processes` which ones have been taken.  `idle` are the idle routines of
a daemon thread.  `notifiers` are the notifiers of the tasks, and `pipes` what has been written to
them. -/
structure Helper (ι : Type) where
  calls : ι → Option RawCall := fun _ => none
  batches : List (BatchTask ι) := []
  batchInfos : ℤ × ℤ × ℤ → Option ℕ := fun _ => none
  processes : ℕ → Option (Process ι) := fun _ => none
  idle : ℤ → ℕ := fun _ => 0
  notifiers : ι → Option ℕ := fun _ => none
  pool : Pool := {}
  pipes : ℕ → List RetCode := fun _ => []
  sent : List (Sent ι) := []

inductive BatchEvent (ι : Type)
  /-- `BatchRawAdd` up to its wait, with the configuration a new batch reads. -/
  | batchRawAdd (c : ι) (req : AddRequest) (topic : Option TopicConfig) (now : ℕ)
  /-- `DispatchBatchTask` looks at one batch. -/
  | dispatch (key : ℤ × ℤ × ℤ) (now : ℕ)
  /-- `RawAdd` returns to whoever processes batch `n`. -/
  | rawAdd (n : ℕ) (ret : RetCode)
  /-- `Task::Notify` of the next task of batch `n`. -/
  | notify (n : ℕ)
  /-- `Process` returns. -/
  | finish (n : ℕ)
  /-- `Notifier::Wait` of a call. -/
  | wait (c : ι)
  /-- `NotifierPool::Put` of a call. -/
  | put (c : ι)

def keyOf (req : AddRequest) : ℤ × ℤ × ℤ := (req.topicId, req.storeId, req.queueId)

section
variable {ι : Type} [DecidableEq ι]

namespace Helper

def setCall (s : Helper ι) (c : ι) (call : RawCall) : Helper ι :=
  { s with calls := Function.update s.calls c (some call) }

def setProcess (s : Helper ι) (n : ℕ) (p : Process ι) : Helper ι :=
  { s with processes := Function.update s.processes n (some p) }

variable (reqByteSize : AddRequest → ℕ) (ndaemonThread : ℕ)

/-- `BatchRawAdd` up to its wait: a batch that is ready is processed, otherwise the task prepares to
wait. -/
def batchRawAdd (s : Helper ι) (c : ι) (req : AddRequest) (topic : Option TopicConfig) (now : ℕ) :
    Helper ι :=
  let w : World ι := { batches := s.batches, batchInfos := s.batchInfos }
  let r := w.addToBatch reqByteSize c req topic now
  let s := { s with batches := r.1.batches, batchInfos := r.1.batchInfos }
  if r.1.batchInfos (keyOf req) = none then
    (s.setProcess r.2 ⟨.call c, .rawAdd⟩).setCall c ⟨req, r.2, .process⟩
  else
    { s with
      notifiers := Function.update s.notifiers c (some s.pool.get.1)
      pool := s.pool.get.2 }.setCall c ⟨req, r.2, .wait⟩

/-- `DispatchBatchTask` at a batch that is ready. -/
def dispatchTo (s : Helper ι) (key : ℤ × ℤ × ℤ) (n : ℕ) (b : BatchTask ι) (vtid : ℤ) : Helper ι :=
  { s with
    batches := s.batches.set n { b with status := .taken }
    batchInfos := Function.update s.batchInfos key none
    idle := Function.update s.idle vtid (s.idle vtid - 1) }.setProcess n ⟨.routine vtid, .rawAdd⟩

/-- What `Process` leaves to whoever has run it. -/
def release (s : Helper ι) (ret : RetCode) : Runner ι → Helper ι
  | .call c =>
    match s.calls c with
    | none => s
    | some call => s.setCall c { call with phase := .done ret }
  | .routine vtid => { s with idle := Function.update s.idle vtid (s.idle vtid + 1) }

/-- One step; an event that is not due changes nothing. -/
def step (s : Helper ι) : BatchEvent ι → Helper ι
  | .batchRawAdd c req topic now =>
    match s.calls c with
    | some _ => s
    | none => s.batchRawAdd reqByteSize c req topic now
  | .dispatch key now =>
    match s.batchInfos key with
    | none => s
    | some n =>
      match s.batches[n]? with
      | none => s
      | some b =>
        let vtid := key.2.2.tmod ndaemonThread
        if b.ready now ∧ s.idle vtid ≠ 0 then s.dispatchTo key n b vtid else s
  | .rawAdd n ret =>
    match s.processes n, s.batches[n]? with
    | some ⟨runner, .rawAdd⟩, some b =>
      let sent : Sent ι := ⟨n, b.tasks.map Prod.fst, batchReq b.tasks, ret⟩
      { s with sent := s.sent ++ [sent] }.setProcess n ⟨runner, .notify ret sent.callers⟩
    | _, _ => s
  | .notify n =>
    match s.processes n with
    | some ⟨runner, .notify ret (c :: rest)⟩ =>
      let s := s.setProcess n ⟨runner, .notify ret rest⟩
      match s.notifiers c with
      | none => s
      | some k => { s with pipes := Function.update s.pipes k (s.pipes k ++ [ret]) }
    | _ => s
  | .finish n =>
    match s.processes n with
    | some ⟨runner, .notify ret []⟩ =>
      (s.setProcess n ⟨runner, .ended ret⟩).release ret runner
    | _ => s
  | .wait c =>
    match s.calls c with
    | some ⟨req, n, .wait⟩ =>
      match s.notifiers c with
      | none => s.setCall c ⟨req, n, .done .errNotifierMiss⟩
      | some k =>
        match s.pipes k with
        | [] => s
        | ret :: rets =>
          { s with pipes := Function.update s.pipes k rets }.setCall c ⟨req, n, .put ret⟩
    | _ => s
  | .put c =>
    match s.calls c with
    | some ⟨req, n, .put ret⟩ =>
      match s.notifiers c with
      | none => s.setCall c ⟨req, n, .done ret⟩
      | some k =>
        { s with
          notifiers := Function.update s.notifiers c none
          pool := s.pool.put k }.setCall c ⟨req, n, .done ret⟩
    | _ => s

end Helper

/-- The batch helper with this many daemon threads, each with this many routines. -/
def helper (reqByteSize : AddRequest → ℕ) (ndaemonThread nprocessRoutine : ℕ) :
    Machine (Helper ι) (BatchEvent ι) where
  init := { idle := fun vtid => if 0 ≤ vtid ∧ vtid < ndaemonThread then nprocessRoutine else 0 }
  step := Helper.step reqByteSize ndaemonThread

/-! ## The locked part of `BatchRawAdd` -/

variable {reqByteSize : AddRequest → ℕ}

/-- A batch with one more task; it is taken when it is ready. -/
def joined (reqByteSize : AddRequest → ℕ) (b : BatchTask ι) (now : ℕ) (c : ι) (req : AddRequest) :
    BatchTask ι :=
  if (b.addTask reqByteSize now c req).ready now then
    { b.addTask reqByteSize now c req with status := .taken }
  else b.addTask reqByteSize now c req

lemma joined_tasks (b : BatchTask ι) (now : ℕ) (c : ι) (req : AddRequest) :
    (joined reqByteSize b now c req).tasks = b.tasks ++ [(c, req)] := by
  unfold joined
  split <;> rfl

lemma initBatch_tasks (topic : Option TopicConfig) : (initBatch topic : BatchTask ι).tasks = [] := by
  unfold initBatch
  cases topic <;> rfl

/-- The batch that collects for a key: a new one when there is none. -/
structure Collects (w : World ι) (topic : Option TopicConfig) (key : ℤ × ℤ × ℤ) (n : ℕ)
    (b : BatchTask ι) : Prop where
  batch : w.batchInfos key = some n ∧ w.batches[n]? = some b ∨
    w.batchInfos key = none ∧ n = w.batches.length ∧ b = initBatch topic

/-- **The locked part of `BatchRawAdd`**: the task joins the batch of its key, which leaves the map
when it is ready. -/
theorem addToBatch_eq {w : World ι} {topic : Option TopicConfig} {req : AddRequest} {n : ℕ}
    {b : BatchTask ι} (h : Collects w topic (keyOf req) n b) (c : ι) (now : ℕ) :
    (w.addToBatch reqByteSize c req topic now).2 = n ∧
      (w.addToBatch reqByteSize c req topic now).1.batchInfos =
        Function.update w.batchInfos (keyOf req)
          (if (b.addTask reqByteSize now c req).ready now then none else some n) ∧
      ∀ m, (w.addToBatch reqByteSize c req topic now).1.batches[m]? =
        if m = n then some (joined reqByteSize b now c req) else w.batches[m]? := by
  -- the list of batches that holds the one that collects
  obtain ⟨batches, hbatches, hget, hlt, hother⟩ : ∃ batches,
      (if n < w.batches.length then w.batches else w.batches ++ [initBatch topic]) = batches ∧
      batches.getD n {} = b ∧ n < batches.length ∧ ∀ m, m ≠ n → batches[m]? = w.batches[m]? := by
    rcases h.batch with ⟨_, hb⟩ | ⟨_, rfl, rfl⟩
    · have hn := (List.getElem?_eq_some_iff.mp hb).1
      refine ⟨w.batches, if_pos hn, ?_, hn, fun _ _ => rfl⟩
      rw [List.getD_eq_getElem?_getD, hb]
      rfl
    · refine ⟨w.batches ++ [initBatch topic], if_neg (Nat.lt_irrefl _), ?_, ?_, fun m hm => ?_⟩
      · rw [List.getD_eq_getElem?_getD, List.getElem?_append_right le_rfl, Nat.sub_self]
        rfl
      · rw [List.length_append]
        exact Nat.lt_succ_self _
      · rcases Nat.lt_or_gt_of_ne hm with hm | hm
        · exact List.getElem?_append_left hm
        · rw [List.getElem?_eq_none (by rw [List.length_append]; exact hm),
            List.getElem?_eq_none hm.le]
  have hn : (w.batchInfos (req.topicId, req.storeId, req.queueId)).getD w.batches.length = n := by
    rcases h.batch with ⟨hkey, _⟩ | ⟨hkey, hn, _⟩
    · exact congrArg (Option.getD · w.batches.length) hkey
    · exact (congrArg (Option.getD · w.batches.length) hkey).trans hn.symm
  have hset : ∀ b' : BatchTask ι, ∀ m, (batches.set n b')[m]? =
      if m = n then some b' else w.batches[m]? := by
    intro b' m
    by_cases hm : m = n
    · rw [if_pos hm, hm]
      exact List.getElem?_set_self hlt
    · rw [if_neg hm, List.getElem?_set_ne (Ne.symm hm)]
      exact hother m hm
  unfold World.addToBatch joined
  dsimp only
  rw [hn, hbatches, hget]
  by_cases hready : (b.addTask reqByteSize now c req).ready now
  · rw [if_pos hready, if_pos hready, if_pos hready]
    exact ⟨rfl, rfl, hset _⟩
  · rw [if_neg hready, if_neg hready, if_neg hready]
    exact ⟨rfl, rfl, hset _⟩

end

end PhxQueue.Producer
