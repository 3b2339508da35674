import Mathlib.Data.Bool.Count
import PhxQueue.Consumer.AfterConsume
import PhxQueue.Consumer.Buckets

/-!
# Dispatching a batch

The consume thread of a worker process: `Consume` leaves a batch to `TaskDispatch`, which makes the
buckets, starts the coroutines of the handlers and of the batch handlers, and waits until the tasks
that have been counted are as many as there are items and batch handlers.

* `ConsumeThread`, `HandlerEvent`, `ConsumeEvent`   the thread, and the steps of its coroutines;
* `Counted`            where the indexes of a batch are;
* `countedOf_exec`     the coroutines keep it, in any order;
* `work`               how many steps are left;
* `dispatch_ends`      **a batch with buckets is handled once, and dispatch ends then**;
* `completes_iff`      **a batch completes exactly when buckets are made for it**.
-/

set_option linter.unusedSectionVars false

namespace PhxQueue.Consumer
open Comm PhxQueue.Config Lib Producer

/-! ## The thread -/

/-- The numbers of handlers in `ConsumerOption`. -/
structure HandlerOption where
  nhandler : ℤ := 100
  nbatchHandler : ℤ := 1

inductive ConsumePhase
  /-- `TaskDispatch` reads from `Consume`. -/
  | idle
  /-- It waits for the tasks. -/
  | waiting
  /-- The process has died. -/
  | dead
deriving DecidableEq

/-- The consume thread.  `handling` is the index a handler is in `HandleRoutineFunc` with, and `done`
lists the indexes that have been through it, with what it wrote into `handle_results`. -/
structure ConsumeThread where
  phase : ConsumePhase := .idle
  consumerGroupId : ℤ := 0
  items : List QItem := []
  handleResults : List HandleResult := []
  handleBuckets : List (List ℕ)
  handling : List (Option ℕ)
  batchHandleFinish : List Bool
  nhandleTaskFinished : ℕ := 0
  nbatchHandleTaskFinished : ℕ := 0
  done : List (ℕ × Option HandleResult) := []

inductive HandlerEvent
  /-- A handler takes the front of its bucket. -/
  | take (cid : ℕ)
  /-- `HandleRoutineFunc` of a handler ends, `Handle` having written this result or none. -/
  | handled (cid : ℕ) (wrote : Option HandleResult)
  /-- `BatchHandleRoutineFunc` of a batch handler ends. -/
  | batchHandled (cid : ℕ)

inductive ConsumeEvent
  /-- `Consume` of these items, up to where `TaskDispatch` waits. -/
  | consume (consumerGroupId : ℤ) (items : List QItem) (env : BucketEnv)
  | handler (event : HandlerEvent)
  /-- `TaskDispatch` asks `IsAllTaskFinish`, and `Consume` returns when it is so. -/
  | finish

/-- What `HandleRoutineFunc` writes into the result of an item. -/
def handleRoutineFunc (consumerGroupId : ℤ) (item : QItem) (wrote : Option HandleResult) :
    Option HandleResult :=
  if skipHandle consumerGroupId item then some .ok else wrote

/-- The results after `HandleRoutineFunc` of an index. -/
def writeResult (handleResults : List HandleResult) (idx : ℕ) :
    Option HandleResult → List HandleResult
  | none => handleResults
  | some result => handleResults.set idx result

namespace ConsumeThread

/-- `ConsumeThreadRun`, up to the first batch; a negative size makes `new` throw. -/
def start (opt : HandlerOption) : Option ConsumeThread :=
  if opt.nhandler < 0 ∨ opt.nbatchHandler < 0 then none else
  some {
    handleBuckets := List.replicate opt.nhandler.toNat []
    handling := List.replicate opt.nhandler.toNat none
    batchHandleFinish := List.replicate opt.nbatchHandler.toNat true }

/-- `Consume`, and the loop of `TaskDispatch` up to where it waits.  An error of `MakeHandleBuckets`
is only logged. -/
def consume (s : ConsumeThread) (consumerGroupId : ℤ) (items : List QItem) (env : BucketEnv) :
    ConsumeThread :=
  if s.phase = .idle then
    let s := { s with
      consumerGroupId, items
      handleResults := items.map fun _ => .error
      nhandleTaskFinished := 0
      nbatchHandleTaskFinished := 0
      done := [] }
    match makeHandleBuckets env items s.handleBuckets with
    | none => { s with phase := .dead }
    | some (_, handleBuckets) =>
      { s with
        phase := .waiting
        handleBuckets
        batchHandleFinish := s.batchHandleFinish.map fun _ => false }
  else s

/-- `ProcessAllHandleTasks`, up to the call of `HandleRoutineFunc`. -/
def take (s : ConsumeThread) (cid : ℕ) : ConsumeThread :=
  match s.handling[cid]?, s.handleBuckets[cid]? with
  | some none, some (idx :: bucket) =>
    { s with
      handling := s.handling.set cid (some idx)
      handleBuckets := s.handleBuckets.set cid bucket }
  | _, _ => s

/-- The rest of the loop body, with `HandleTaskFinish`. -/
def handled (s : ConsumeThread) (cid : ℕ) (wrote : Option HandleResult) : ConsumeThread :=
  match s.handling[cid]? with
  | some (some idx) =>
    match s.items[idx]? with
    | some item =>
      let wrote := handleRoutineFunc s.consumerGroupId item wrote
      { s with
        handling := s.handling.set cid none
        handleResults := writeResult s.handleResults idx wrote
        nhandleTaskFinished := s.nhandleTaskFinished + 1
        done := s.done ++ [(idx, wrote)] }
    | none => s
  | _ => s

/-- `ProcessAllBatchHandleTasks`. -/
def batchHandled (s : ConsumeThread) (cid : ℕ) : ConsumeThread :=
  match s.batchHandleFinish[cid]? with
  | some false =>
    { s with
      batchHandleFinish := s.batchHandleFinish.set cid true
      nbatchHandleTaskFinished := s.nbatchHandleTaskFinished + 1 }
  | _ => s

/-- A coroutine runs only in a process that lives. -/
def handlerStep (s : ConsumeThread) (event : HandlerEvent) : ConsumeThread :=
  if s.phase = .dead then s else
  match event with
  | .take cid => s.take cid
  | .handled cid wrote => s.handled cid wrote
  | .batchHandled cid => s.batchHandled cid

def isAllTaskFinish (opt : HandlerOption) (s : ConsumeThread) : Bool :=
  s.nhandleTaskFinished = s.items.length ∧ (s.nbatchHandleTaskFinished : ℤ) = opt.nbatchHandler

def finish (opt : HandlerOption) (s : ConsumeThread) : ConsumeThread :=
  if s.phase = .waiting ∧ s.isAllTaskFinish opt then { s with phase := .idle } else s

def step (opt : HandlerOption) (s : ConsumeThread) : ConsumeEvent → ConsumeThread
  | .consume consumerGroupId items env => s.consume consumerGroupId items env
  | .handler event => s.handlerStep event
  | .finish => s.finish opt

/-- The handlers have drained their buckets. -/
structure HandlersDrained (s : ConsumeThread) : Prop where
  handleBuckets : ∀ bucket ∈ s.handleBuckets, bucket = []
  handling : ∀ idx ∈ s.handling, idx = none

structure Drained (s : ConsumeThread) : Prop extends s.HandlersDrained where
  batchHandleFinish : ∀ finish ∈ s.batchHandleFinish, finish = true

end ConsumeThread

/-- The coroutines, between two steps of `TaskDispatch`; a thread starts without any. -/
def coroutines : Machine ConsumeThread HandlerEvent where
  init := { handleBuckets := [], handling := [], batchHandleFinish := [] }
  step := ConsumeThread.handlerStep

def consumeThread (opt : HandlerOption) (s : ConsumeThread) :
    Machine ConsumeThread ConsumeEvent where
  init := s
  step := ConsumeThread.step opt

/-! ## What a coroutine does -/

section
variable {s s' : ConsumeThread} {event : HandlerEvent} {indexes : List ℕ}

lemma flatten_set_perm {α : Type} (ls : List (List α)) {k : ℕ} {a b : List α}
    (h : ls[k]? = some (a ++ b)) : ls.flatten.Perm (a ++ (ls.set k b).flatten) := by
  induction ls generalizing k with
  | nil => cases h
  | cons l ls ih =>
    cases k with
    | zero =>
      cases h
      rw [List.set_cons_zero, List.flatten_cons, List.flatten_cons, List.append_assoc]
    | succ k =>
      rw [List.set_cons_succ, List.flatten_cons, List.flatten_cons]
      refine ((ih h).append_left l).trans ?_
      rw [← List.append_assoc, ← List.append_assoc]
      exact List.perm_append_comm.append_right _

lemma count_set {l : List Bool} {k : ℕ} (h : l[k]? = some false) :
    (l.set k true).count true = l.count true + 1 ∧
      (l.set k true).count false + 1 = l.count false := by
  induction l generalizing k with
  | nil => cases h
  | cons x l ih =>
    cases k with
    | zero =>
      cases h
      simp
    | succ k =>
      obtain ⟨htrue, hfalse⟩ := ih h
      rw [List.set_cons_succ, List.count_cons, List.count_cons, List.count_cons, List.count_cons]
      omega

/-- The indexes that handlers are in `HandleRoutineFunc` with. -/
def atWork (handling : List (Option ℕ)) : List ℕ := (handling.map Option.toList).flatten

lemma atWork_eq_nil {handling : List (Option ℕ)} (h : ∀ idx ∈ handling, idx = none) :
    atWork handling = [] := by
  unfold atWork
  rw [List.flatten_eq_nil_iff, List.forall_mem_map]
  intro idx hidx
  rw [h idx hidx]
  rfl

lemma atWork_perm {handling : List (Option ℕ)} {cid idx : ℕ}
    (h : handling[cid]? = some (some idx)) :
    (atWork handling).Perm (idx :: atWork (handling.set cid none)) := by
  unfold atWork
  rw [List.map_set]
  apply flatten_set_perm (handling.map Option.toList) (a := [idx])
  rw [List.getElem?_map, h]
  rfl

lemma perm_atWork {handling : List (Option ℕ)} {cid : ℕ} (h : handling[cid]? = some none)
    (idx : ℕ) :
    (atWork (handling.set cid (some idx))).Perm (idx :: atWork handling) := by
  obtain ⟨hlt, hget⟩ := List.getElem?_eq_some_iff.mp h
  have hperm := atWork_perm (List.getElem?_set_self hlt (a := some idx))
  rw [List.set_set, ← hget, List.set_getElem_self] at hperm
  exact hperm

/-- **What a step of a coroutine can do.** -/
lemma handlerStep_cases (s : ConsumeThread) (event : HandlerEvent) :
    s.handlerStep event = s ∨
    (∃ cid idx bucket, s.handling[cid]? = some none ∧
      s.handleBuckets[cid]? = some (idx :: bucket) ∧ s.handlerStep event =
        { s with
          handling := s.handling.set cid (some idx)
          handleBuckets := s.handleBuckets.set cid bucket }) ∨
    (∃ cid idx wrote, s.handling[cid]? = some (some idx) ∧ s.handlerStep event =
      { s with
        handling := s.handling.set cid none
        handleResults := writeResult s.handleResults idx wrote
        nhandleTaskFinished := s.nhandleTaskFinished + 1
        done := s.done ++ [(idx, wrote)] }) ∨
    (∃ cid, s.batchHandleFinish[cid]? = some false ∧ s.handlerStep event =
      { s with
        batchHandleFinish := s.batchHandleFinish.set cid true
        nbatchHandleTaskFinished := s.nbatchHandleTaskFinished + 1 }) := by
  unfold ConsumeThread.handlerStep
  split
  · exact .inl rfl
  cases event with
  | take cid =>
    dsimp only
    unfold ConsumeThread.take
    split
    · rename_i idx bucket hidle hbucket
      exact .inr (.inl ⟨cid, idx, bucket, hidle, hbucket, rfl⟩)
    · exact .inl rfl
  | handled cid wrote =>
    dsimp only
    unfold ConsumeThread.handled
    split
    · rename_i idx hidx
      split
      · rename_i item hitem
        exact .inr (.inr (.inl ⟨cid, idx, handleRoutineFunc s.consumerGroupId item wrote, hidx, rfl⟩))
      · exact .inl rfl
    · exact .inl rfl
  | batchHandled cid =>
    dsimp only
    unfold ConsumeThread.batchHandled
    split
    · rename_i hfalse
      exact .inr (.inr (.inr ⟨cid, hfalse, rfl⟩))
    · exact .inl rfl

/-! ## Where the indexes are -/

/-- The indexes of a batch are in the buckets, at work or done, and the counters count. -/
structure Counted (indexes : List ℕ) (s : ConsumeThread) : Prop where
  perm : (s.handleBuckets.flatten ++ (atWork s.handling ++ s.done.map Prod.fst)).Perm indexes
  handleCount : s.nhandleTaskFinished = s.done.length
  batchCount : s.nbatchHandleTaskFinished = s.batchHandleFinish.count true
  results : s.handleResults.length = s.items.length
  wrote : ∀ i < s.items.length, s.handleResults[i]? = some .error ∨
    ∃ result, (i, some result) ∈ s.done ∧ s.handleResults[i]? = some result

lemma getElem?_writeResult {results : List HandleResult} {i : ℕ} (hi : i < results.length)
    (idx : ℕ) (wrote : Option HandleResult) : (writeResult results idx wrote)[i]? = results[i]? ∨
      ∃ result, i = idx ∧ wrote = some result ∧
        (writeResult results idx wrote)[i]? = some result := by
  cases wrote with
  | none => exact .inl rfl
  | some result =>
    unfold writeResult
    rw [List.getElem?_set]
    by_cases heq : idx = i
    · subst heq
      rw [if_pos rfl, if_pos hi]
      exact .inr ⟨result, rfl, rfl, rfl⟩
    · rw [if_neg heq]
      exact .inl rfl

lemma length_writeResult (results : List HandleResult) (idx : ℕ) (wrote : Option HandleResult) :
    (writeResult results idx wrote).length = results.length := by
  cases wrote with
  | none => rfl
  | some result => exact List.length_set

lemma Counted.handlerStep (h : Counted indexes s) (event : HandlerEvent) :
    Counted indexes (s.handlerStep event) := by
  obtain ⟨hperm, hcount, hbatch, hresults, hwrote⟩ := h
  obtain heq | ⟨cid, idx, bucket, hidle, hbucket, heq⟩ | ⟨cid, idx, wrote, hidx, heq⟩ |
    ⟨cid, hfalse, heq⟩ := handlerStep_cases s event
  · rw [heq]
    exact ⟨hperm, hcount, hbatch, hresults, hwrote⟩
  · rw [heq]
    refine ⟨?_, hcount, hbatch, hresults, hwrote⟩
    -- from the front of the bucket to the handler
    refine List.Perm.trans ?_ hperm
    have hfrom := flatten_set_perm s.handleBuckets (a := [idx]) hbucket
    have hto := perm_atWork hidle idx
    refine (List.Perm.append_left _ (hto.append_right _)).trans ?_
    refine List.Perm.trans ?_ (hfrom.symm.append_right _)
    exact List.perm_middle
  · rw [heq]
    refine ⟨?_, ?_, hbatch, ?_, ?_⟩
    · -- from the handler to the ones that are done
      refine List.Perm.trans ?_ hperm
      apply List.Perm.append_left
      refine List.Perm.trans ?_ ((atWork_perm hidx).symm.append_right _)
      dsimp only
      rw [List.map_append, ← List.append_assoc]
      exact List.perm_append_comm
    · dsimp only
      rw [hcount, List.length_append, List.length_singleton]
    · exact (length_writeResult _ _ _).trans hresults
    · intro i hi
      dsimp only
      obtain hsame | ⟨result, rfl, hsome, hnew⟩ :=
        getElem?_writeResult (hresults ▸ hi) idx wrote
      · rw [hsame]
        obtain herror | ⟨result, hdone, hresult⟩ := hwrote i hi
        · exact .inl herror
        · exact .inr ⟨result, List.mem_append_left _ hdone, hresult⟩
      · refine .inr ⟨result, ?_, hnew⟩
        rw [hsome]
        exact List.mem_append_right _ (List.mem_singleton.mpr rfl)
  · rw [heq]
    refine ⟨hperm, hcount, ?_, hresults, hwrote⟩
    dsimp only
    rw [hbatch, (count_set hfalse).1]

theorem countedOf_exec (h : Counted indexes s) (events : List HandlerEvent) :
    Counted indexes (coroutines.exec s events) :=
  (Machine.Always.of_step (fun _ event h => h.handlerStep event) h events).last

/-! ## How much is left -/

/-- An index in a bucket takes two steps, one at work one, and a batch handler one. -/
def work (s : ConsumeThread) : ℕ :=
  2 * s.handleBuckets.flatten.length + (atWork s.handling).length + s.batchHandleFinish.count false

lemma length_take {cid idx : ℕ} {bucket : List ℕ} (hidle : s.handling[cid]? = some none)
    (hbucket : s.handleBuckets[cid]? = some (idx :: bucket)) :
    (atWork (s.handling.set cid (some idx))).length = (atWork s.handling).length + 1 ∧
      s.handleBuckets.flatten.length = (s.handleBuckets.set cid bucket).flatten.length + 1 := by
  have hto := (perm_atWork hidle idx).length_eq
  have hfrom := (flatten_set_perm s.handleBuckets (a := [idx]) hbucket).length_eq
  rw [List.length_cons] at hto
  rw [List.length_append, List.length_singleton] at hfrom
  omega

lemma length_handled {cid idx : ℕ} (hidx : s.handling[cid]? = some (some idx)) :
    (atWork s.handling).length = (atWork (s.handling.set cid none)).length + 1 :=
  (atWork_perm hidx).length_eq

/-- **A step of a coroutine has no effect, or leaves one step less.** -/
lemma work_handlerStep (s : ConsumeThread) (event : HandlerEvent) :
    s.handlerStep event = s ∨ work (s.handlerStep event) + 1 = work s := by
  obtain heq | ⟨cid, idx, bucket, hidle, hbucket, heq⟩ | ⟨cid, idx, wrote, hidx, heq⟩ |
    ⟨cid, hfalse, heq⟩ := handlerStep_cases s event
  · exact .inl heq
  · right
    rw [heq]
    unfold work
    have hlen := length_take hidle hbucket
    dsimp only
    omega
  · right
    rw [heq]
    unfold work
    have hlen := length_handled hidx
    dsimp only
    omega
  · right
    rw [heq]
    unfold work
    have hcount := count_set hfalse
    dsimp only
    omega

def Effective (s : ConsumeThread) (event : HandlerEvent) : Prop := s.handlerStep event ≠ s

lemma work_exec {events : List HandlerEvent} (h : coroutines.Along Effective s events) :
    work (coroutines.exec s events) + events.length = work s := by
  induction events generalizing s with
  | nil => rfl
  | cons event events ih =>
    obtain ⟨heffect, hrest⟩ := h
    rw [Machine.exec_cons, List.length_cons, ← Nat.add_assoc, ih hrest]
    exact (work_handlerStep s event).resolve_left heffect

lemma drained_iff_work : s.Drained ↔ work s = 0 := by
  have hbuckets : s.handleBuckets.flatten.length = 0 ↔ ∀ bucket ∈ s.handleBuckets, bucket = [] := by
    rw [List.length_eq_zero_iff, List.flatten_eq_nil_iff]
  have hwork : (atWork s.handling).length = 0 ↔ ∀ idx ∈ s.handling, idx = none := by
    unfold atWork
    rw [List.length_eq_zero_iff, List.flatten_eq_nil_iff, List.forall_mem_map]
    simp
  have hbatch : s.batchHandleFinish.count false = 0 ↔
      ∀ finish ∈ s.batchHandleFinish, finish = true := by
    rw [List.count_eq_zero]
    constructor
    · intro h finish hfinish
      cases finish with
      | true => rfl
      | false => exact absurd hfinish h
    · intro h hfalse
      cases h false hfalse
  constructor
  · rintro ⟨⟨h1, h2⟩, h3⟩
    unfold work
    rw [hbuckets.mpr h1, hwork.mpr h2, hbatch.mpr h3]
  · intro h
    unfold work at h
    exact ⟨⟨hbuckets.mp (by omega), hwork.mp (by omega)⟩, hbatch.mp (by omega)⟩

/-- A step of a coroutine leaves the batch and the numbers of handlers as they are. -/
structure SameBatch (s s' : ConsumeThread) : Prop where
  phase : s'.phase = s.phase
  items : s'.items = s.items
  buckets : s'.handleBuckets.length = s.handleBuckets.length
  handlers : s'.handling.length = s.handling.length
  batch : s'.batchHandleFinish.length = s.batchHandleFinish.length

lemma sameBatch_handlerStep (s : ConsumeThread) (event : HandlerEvent) :
    SameBatch s (s.handlerStep event) := by
  obtain heq | ⟨cid, idx, bucket, _, _, heq⟩ | ⟨cid, idx, wrote, _, heq⟩ | ⟨cid, _, heq⟩ :=
    handlerStep_cases s event
  · rw [heq]
    exact ⟨rfl, rfl, rfl, rfl, rfl⟩
  · rw [heq]
    exact ⟨rfl, rfl, List.length_set, List.length_set, rfl⟩
  · rw [heq]
    exact ⟨rfl, rfl, rfl, List.length_set, rfl⟩
  · rw [heq]
    exact ⟨rfl, rfl, rfl, rfl, List.length_set⟩

lemma sameBatch_exec (s : ConsumeThread) (events : List HandlerEvent) :
    SameBatch s (coroutines.exec s events) := by
  refine (Machine.Always.of_step (I := SameBatch s) ?_ ⟨rfl, rfl, rfl, rfl, rfl⟩ events).last
  intro s' event h
  obtain ⟨hphase, hitems, hbuckets, hhandlers, hbatch⟩ := sameBatch_handlerStep s' event
  exact ⟨hphase.trans h.phase, hitems.trans h.items, hbuckets.trans h.buckets,
    hhandlers.trans h.handlers, hbatch.trans h.batch⟩

/-- **Where a coroutine has not finished, one can go on.** -/
lemma exists_effective (h : Counted indexes s) (hindexes : ∀ i ∈ indexes, i < s.items.length)
    (hlive : s.phase ≠ .dead) (hlen : s.handleBuckets.length = s.handling.length)
    (hwork : ¬ s.Drained) : ∃ event, Effective s event := by
  have heffect : ∀ {event : HandlerEvent}, work (s.handlerStep event) ≠ work s →
      Effective s event := fun hne heq => hne (by rw [heq])
  by_cases hhandling : ∀ idx ∈ s.handling, idx = none
  · by_cases hbuckets : ∀ bucket ∈ s.handleBuckets, bucket = []
    · -- a batch handler
      obtain ⟨cid, hcid⟩ : ∃ cid : ℕ, s.batchHandleFinish[cid]? = some false := by
        by_contra hno
        refine hwork ⟨⟨hbuckets, hhandling⟩, fun finish hfinish => ?_⟩
        obtain ⟨cid, hcid⟩ := List.mem_iff_getElem?.mp hfinish
        cases finish with
        | true => rfl
        | false => exact absurd ⟨cid, hcid⟩ hno
      refine ⟨.batchHandled cid, heffect ?_⟩
      have hcount := count_set hcid
      have heq : s.handlerStep (.batchHandled cid) = s.batchHandled cid := if_neg hlive
      rw [heq]
      unfold ConsumeThread.batchHandled work
      rw [hcid]
      dsimp only
      omega
    · -- an idle handler with a task
      push Not at hbuckets
      obtain ⟨bucket, hmem, hne⟩ := hbuckets
      obtain ⟨cid, hcid⟩ := List.mem_iff_getElem?.mp hmem
      obtain ⟨idx, bucket, rfl⟩ := List.exists_cons_of_ne_nil hne
      have hlt : cid < s.handling.length := hlen ▸ (List.getElem?_eq_some_iff.mp hcid).1
      have hidle : s.handling[cid]? = some none := by
        rw [List.getElem?_eq_getElem hlt, hhandling _ (List.getElem_mem hlt)]
      refine ⟨.take cid, heffect ?_⟩
      have hlen := length_take hidle hcid
      have heq : s.handlerStep (.take cid) = s.take cid := if_neg hlive
      rw [heq]
      unfold ConsumeThread.take work
      rw [hidle, hcid]
      dsimp only
      omega
  · -- a handler at work
    push Not at hhandling
    obtain ⟨idx, hmem, hne⟩ := hhandling
    obtain ⟨idx, rfl⟩ := Option.ne_none_iff_exists'.mp hne
    obtain ⟨cid, hcid⟩ := List.mem_iff_getElem?.mp hmem
    have hin : idx ∈ indexes := by
      apply h.perm.mem_iff.mp
      apply List.mem_append_right
      apply List.mem_append_left
      exact (atWork_perm hcid).mem_iff.mpr List.mem_cons_self
    have hitem := List.getElem?_eq_getElem (hindexes idx hin)
    refine ⟨.handled cid none, heffect ?_⟩
    have hlen := length_handled hcid
    have heq : s.handlerStep (.handled cid none) = s.handled cid none := if_neg hlive
    rw [heq]
    unfold ConsumeThread.handled work
    rw [hcid]
    dsimp only
    rw [hitem]
    dsimp only
    omega

/-- **All coroutines can finish.** -/
lemma exists_drained (h : Counted indexes s) (hindexes : ∀ i ∈ indexes, i < s.items.length)
    (hlive : s.phase ≠ .dead) (hlen : s.handleBuckets.length = s.handling.length) :
    ∃ events, (coroutines.exec s events).Drained := by
  generalize hn : work s = n
  induction n generalizing s with
  | zero => exact ⟨[], drained_iff_work.mpr hn⟩
  | succ n ih =>
    have hnot : ¬ s.Drained := fun hd => absurd (drained_iff_work.mp hd) (by omega)
    obtain ⟨event, heffect⟩ := exists_effective h hindexes hlive hlen hnot
    have hless := (work_handlerStep s event).resolve_left heffect
    obtain ⟨hphase, hitems, hbuckets, hhandlers, _⟩ := sameBatch_handlerStep s event
    obtain ⟨events, hevents⟩ := ih (h.handlerStep event) (hitems ▸ hindexes) (hphase ▸ hlive)
      (by rw [hbuckets, hhandlers, hlen]) (by omega)
    exact ⟨event :: events, hevents⟩

end

/-! ## Batches -/

section
variable {opt : HandlerOption} {s : ConsumeThread} {g : ℤ} {items : List QItem} {env : BucketEnv}
  {indexes : List ℕ}

lemma consume_some {ret : Except RetCode Unit} {buckets : List (List ℕ)} (hidle : s.phase = .idle)
    (h : makeHandleBuckets env items s.handleBuckets = some (ret, buckets)) :
    s.consume g items env =
      { phase := .waiting
        consumerGroupId := g
        items
        handleResults := items.map fun _ => .error
        handleBuckets := buckets
        handling := s.handling
        batchHandleFinish := s.batchHandleFinish.map fun _ => false } := by
  unfold ConsumeThread.consume
  rw [if_pos hidle]
  dsimp only
  rw [h]

lemma consume_none (hidle : s.phase = .idle)
    (h : makeHandleBuckets env items s.handleBuckets = none) :
    (s.consume g items env).phase = .dead := by
  unfold ConsumeThread.consume
  rw [if_pos hidle]
  dsimp only
  rw [h]

lemma counters_consume (hidle : s.phase = .idle) :
    (s.consume g items env).nhandleTaskFinished = 0 ∧
      (s.consume g items env).nbatchHandleTaskFinished = 0 := by
  unfold ConsumeThread.consume
  rw [if_pos hidle]
  dsimp only
  cases makeHandleBuckets env items s.handleBuckets with
  | none => exact ⟨rfl, rfl⟩
  | some made => exact ⟨rfl, rfl⟩

lemma counted_consume {ret : Except RetCode Unit} {buckets : List (List ℕ)}
    (hidle : s.phase = .idle) (hdrained : s.Drained)
    (h : makeHandleBuckets env items s.handleBuckets = some (ret, buckets)) :
    Counted buckets.flatten (s.consume g items env) := by
  rw [consume_some hidle h]
  constructor
  · dsimp only
    rw [atWork_eq_nil hdrained.handling, List.map_nil, List.append_nil, List.append_nil]
  · rfl
  · dsimp only
    rw [eq_comm, List.count_eq_zero, List.mem_map]
    rintro ⟨_, _, hfalse⟩
    cases hfalse
  · exact List.length_map _
  · intro i hi
    left
    dsimp only
    rw [List.getElem?_map, List.getElem?_eq_getElem hi]
    rfl

lemma drained_of_finish (h : Counted indexes s) (hlen : indexes.length ≤ s.items.length)
    (hbatch : (s.batchHandleFinish.length : ℤ) = opt.nbatchHandler)
    (hfinish : s.isAllTaskFinish opt) : s.Drained := by
  obtain ⟨hhandle, hbatch'⟩ := of_decide_eq_true hfinish
  have hperm := h.perm.length_eq
  have hcount := List.count_true_add_count_false s.batchHandleFinish
  rw [List.length_append, List.length_append, List.length_map] at hperm
  rw [h.handleCount] at hhandle
  rw [h.batchCount] at hbatch'
  apply drained_iff_work.mpr
  unfold work
  omega

/-- With nothing left to handle every index has been done once. -/
lemma done_of_drained (h : Counted indexes s) (hdrained : s.HandlersDrained) :
    (s.done.map Prod.fst).Perm indexes ∧ s.nhandleTaskFinished = indexes.length := by
  have hnil : s.handleBuckets.flatten = [] := List.flatten_eq_nil_iff.mpr hdrained.handleBuckets
  have hperm := h.perm
  rw [hnil, atWork_eq_nil hdrained.handling, List.nil_append, List.nil_append] at hperm
  refine ⟨hperm, ?_⟩
  rw [h.handleCount, ← List.length_map, hperm.length_eq]

lemma finish_of_drained (h : Counted indexes s) (hlen : indexes.length = s.items.length)
    (hbatch : (s.batchHandleFinish.length : ℤ) = opt.nbatchHandler) (hdrained : s.Drained) :
    s.isAllTaskFinish opt := by
  have hdone := (done_of_drained h ⟨hdrained.handleBuckets, hdrained.handling⟩).2
  have hcount := List.count_true_add_count_false s.batchHandleFinish
  have hwork := drained_iff_work.mp hdrained
  unfold work at hwork
  unfold ConsumeThread.isAllTaskFinish
  rw [hdone, h.batchCount]
  exact decide_eq_true ⟨by omega, by omega⟩

lemma work_le (h : Counted indexes s) (hbatch : (s.batchHandleFinish.length : ℤ) = opt.nbatchHandler) :
    work s ≤ 2 * indexes.length + opt.nbatchHandler.toNat := by
  have hperm := h.perm.length_eq
  have hcount := List.count_true_add_count_false s.batchHandleFinish
  rw [List.length_append, List.length_append, List.length_map] at hperm
  unfold work
  omega

/-- What holds of a thread in any state. -/
structure Steady (opt : HandlerOption) (s : ConsumeThread) : Prop where
  buckets : s.handleBuckets.length = opt.nhandler.toNat
  handlers : s.handling.length = opt.nhandler.toNat
  batch : (s.batchHandleFinish.length : ℤ) = opt.nbatchHandler
  idle : s.phase = .idle → s.Drained
  counted : s.phase = .waiting → ∃ indexes, indexes.length ≤ s.items.length ∧ Counted indexes s

lemma steady_start (h : ConsumeThread.start opt = some s) : Steady opt s := by
  unfold ConsumeThread.start at h
  split at h
  · cases h
  cases h
  refine ⟨List.length_replicate, List.length_replicate, ?_, fun _ => ⟨⟨?_, ?_⟩, ?_⟩, ?_⟩
  · dsimp only
    rw [List.length_replicate]
    omega
  · exact fun bucket hbucket => (List.mem_replicate.mp hbucket).2
  · exact fun idx hidx => (List.mem_replicate.mp hidx).2
  · exact fun finish hfinish => (List.mem_replicate.mp hfinish).2
  · intro hwaiting
    cases hwaiting

lemma Steady.consume (h : Steady opt s) (g : ℤ) (items : List QItem) (env : BucketEnv) :
    Steady opt (s.consume g items env) := by
  by_cases hidle : s.phase = .idle
  · cases hmake : makeHandleBuckets env items s.handleBuckets with
    | none =>
      have hdead := consume_none (g := g) hidle hmake
      have hsame : (s.consume g items env).handleBuckets = s.handleBuckets ∧
          (s.consume g items env).handling = s.handling ∧
          (s.consume g items env).batchHandleFinish = s.batchHandleFinish := by
        unfold ConsumeThread.consume
        rw [if_pos hidle]
        dsimp only
        rw [hmake]
        exact ⟨rfl, rfl, rfl⟩
      obtain ⟨hbuckets, hhandlers, hbatch⟩ := hsame
      refine ⟨hbuckets ▸ h.buckets, hhandlers ▸ h.handlers, hbatch ▸ h.batch, ?_, ?_⟩
      · intro hphase
        rw [hdead] at hphase
        cases hphase
      · intro hphase
        rw [hdead] at hphase
        cases hphase
    | some made =>
      obtain ⟨ret, buckets⟩ := made
      have hlen : buckets.length = s.handleBuckets.length ∧
          buckets.flatten.length ≤ items.length := by
        cases ret with
        | error ret =>
          rw [buckets_of_error hmake]
          refine ⟨List.length_map _, ?_⟩
          rw [flatten_clearBuckets]
          exact Nat.zero_le _
        | ok _ =>
          obtain ⟨_, _, _, _, hpart⟩ := partitions_of_ok hmake
          refine ⟨hpart.length, ?_⟩
          rw [hpart.once.length_eq, List.length_range]
      have hcounted := counted_consume (g := g) hidle (h.idle hidle) hmake
      rw [consume_some hidle hmake] at hcounted ⊢
      refine ⟨hlen.1.trans h.buckets, h.handlers, ?_, ?_, fun _ => ⟨_, hlen.2, hcounted⟩⟩
      · exact (congrArg Nat.cast (List.length_map _)).trans h.batch
      · intro hphase
        cases hphase
  · have hsame : s.consume g items env = s := if_neg hidle
    rw [hsame]
    exact h

lemma Steady.handlerStep (h : Steady opt s) (event : HandlerEvent) :
    Steady opt (s.handlerStep event) := by
  obtain ⟨hphase, hitems, hbuckets, hhandlers, hbatch⟩ := sameBatch_handlerStep s event
  refine ⟨hbuckets.trans h.buckets, hhandlers.trans h.handlers,
    (congrArg Nat.cast hbatch).trans h.batch, ?_, ?_⟩
  · intro hidle
    have hdrained := h.idle (hphase ▸ hidle)
    obtain heq | hless := work_handlerStep s event
    · rw [heq]
      exact hdrained
    · have hzero := drained_iff_work.mp hdrained
      omega
  · intro hwaiting
    obtain ⟨indexes, hlen, hcounted⟩ := h.counted (hphase ▸ hwaiting)
    exact ⟨indexes, hitems ▸ hlen, hcounted.handlerStep event⟩

lemma Steady.finish (h : Steady opt s) : Steady opt (s.finish opt) := by
  unfold ConsumeThread.finish
  split
  · rename_i hfinish
    obtain ⟨indexes, hlen, hcounted⟩ := h.counted hfinish.1
    have hdrained := drained_of_finish hcounted hlen h.batch hfinish.2
    refine ⟨h.buckets, h.handlers, h.batch, fun _ => ⟨⟨hdrained.handleBuckets, hdrained.handling⟩,
      hdrained.batchHandleFinish⟩, ?_⟩
    intro hwaiting
    cases hwaiting
  · exact h

/-- **A thread is ready for its next batch** in every state. -/
theorem steady_exec {s₀ : ConsumeThread} (h : ConsumeThread.start opt = some s₀)
    (events : List ConsumeEvent) : Steady opt ((consumeThread opt s₀).exec s₀ events) := by
  refine (Machine.Always.of_step (I := Steady opt) ?_ (steady_start h) events).last
  intro s event h
  cases event with
  | consume g items env => exact h.consume g items env
  | handler event => exact h.handlerStep event
  | finish => exact h.finish

end

/-! ## What becomes of a batch -/

/-- **Dispatch ends**: `t` waits for the handlers of a batch whose buckets partition it, and whatever
steps they take next, in any order, dispatch ends exactly when all have finished, each item having
been handled once; till then one of them can go on, and there is no endless run. -/
structure DispatchEnds (opt : HandlerOption) (byUin : Bool) (items : List QItem)
    (t : ConsumeThread) : Prop where
  waiting : t.phase = .waiting
  partitions : Partitions opt.nhandler.toNat byUin items t.handleBuckets
  finished : ∀ events, (coroutines.exec t events).HandlersDrained →
    (coroutines.exec t events).nhandleTaskFinished = items.length ∧
      ((coroutines.exec t events).done.map Prod.fst).Perm (List.range items.length)
  exits : ∀ events,
    (coroutines.exec t events).isAllTaskFinish opt ↔ (coroutines.exec t events).Drained
  goesOn : ∀ events, ¬ (coroutines.exec t events).Drained →
    ∃ event, Effective (coroutines.exec t events) event
  bounded : ∀ events, coroutines.Along Effective t events →
    events.length ≤ 2 * items.length + opt.nbatchHandler.toNat

/-- **A batch completes**: the process lives on, and once all coroutines have finished the exit
condition holds, the results are complete, with `RES_ERROR` where nothing was written, and the next
batch finds empty buckets and gets counters of 0. -/
structure Completes (opt : HandlerOption) (s : ConsumeThread) (g : ℤ) (items : List QItem)
    (env : BucketEnv) : Prop where
  lives : (s.consume g items env).phase = .waiting
  exits : ∀ events, (coroutines.exec (s.consume g items env) events).Drained →
    (coroutines.exec (s.consume g items env) events).isAllTaskFinish opt
  results : ∀ events, (coroutines.exec (s.consume g items env) events).handleResults.length =
      items.length ∧
    ∀ i < items.length,
      (∀ result, (i, some result) ∉ (coroutines.exec (s.consume g items env) events).done) →
        (coroutines.exec (s.consume g items env) events).handleResults[i]? = some .error
  next : ∀ events, (coroutines.exec (s.consume g items env) events).Drained →
    ((coroutines.exec (s.consume g items env) events).finish opt).phase = .idle ∧
      ((coroutines.exec (s.consume g items env) events).finish opt).HandlersDrained ∧
      ∀ g' items' env',
        (((coroutines.exec (s.consume g items env) events).finish opt).consume g' items'
          env').nhandleTaskFinished = 0 ∧
        (((coroutines.exec (s.consume g items env) events).finish opt).consume g' items'
          env').nbatchHandleTaskFinished = 0

section
variable {opt : HandlerOption} {s : ConsumeThread} {g : ℤ} {items : List QItem} {env : BucketEnv}
  {buckets : List (List ℕ)}

lemma dispatchEnds_of_ok (hsteady : Steady opt s) (hidle : s.phase = .idle)
    (hmake : makeHandleBuckets env items s.handleBuckets = some (.ok (), buckets)) {byUin : Bool}
    (hpart : Partitions opt.nhandler.toNat byUin items buckets) :
    DispatchEnds opt byUin items (s.consume g items env) := by
  have hcounted := counted_consume (g := g) hidle (hsteady.idle hidle) hmake
  have hsteady' := hsteady.consume g items env
  have hconsume := consume_some (g := g) hidle hmake
  have hitems : (s.consume g items env).items = items := by rw [hconsume]
  have hlen : buckets.flatten.length = items.length := by
    rw [hpart.once.length_eq, List.length_range]
  have hphase : (s.consume g items env).phase = .waiting := by rw [hconsume]
  constructor
  · exact hphase
  · rw [hconsume]
    exact hpart
  · intro events hdrained
    obtain ⟨hperm, hcount⟩ := done_of_drained (countedOf_exec hcounted events) hdrained
    exact ⟨hcount.trans hlen, hperm.trans hpart.once⟩
  · intro events
    obtain ⟨_, hitems', _, _, hbatch⟩ := sameBatch_exec (s.consume g items env) events
    have hu := countedOf_exec hcounted events
    have hbatch' : ((coroutines.exec (s.consume g items env) events).batchHandleFinish.length : ℤ) =
        opt.nbatchHandler := by rw [hbatch, hsteady'.batch]
    have hlen' : buckets.flatten.length =
        (coroutines.exec (s.consume g items env) events).items.length := by
      rw [hitems', hitems, hlen]
    exact ⟨drained_of_finish hu hlen'.le hbatch', finish_of_drained hu hlen' hbatch'⟩
  · intro events hnot
    obtain ⟨hphase', hitems', hbuckets', hhandlers', _⟩ :=
      sameBatch_exec (s.consume g items env) events
    apply exists_effective (countedOf_exec hcounted events) _ _ _ hnot
    · intro i hi
      rw [hitems', hitems]
      exact List.mem_range.mp (hpart.once.mem_iff.mp hi)
    · rw [hphase', hphase]
      exact nofun
    · rw [hbuckets', hhandlers', hsteady'.buckets, hsteady'.handlers]
  · intro events heffective
    have hwork := work_exec heffective
    have hstart := work_le hcounted hsteady'.batch
    rw [hlen] at hstart
    omega

/-- Where the buckets cannot be made the coroutines finish, without a task for any item. -/
lemma not_completes_of_error {ret : RetCode} (hsteady : Steady opt s) (hidle : s.phase = .idle)
    (hmake : makeHandleBuckets env items s.handleBuckets = some (.error ret, buckets))
    (hne : items ≠ []) : ¬ Completes opt s g items env := by
  intro h
  have hcounted := counted_consume (g := g) hidle (hsteady.idle hidle) hmake
  have hnil : buckets.flatten = [] := by rw [buckets_of_error hmake, flatten_clearBuckets]
  have hsteady' := hsteady.consume g items env
  obtain ⟨events, hdrained⟩ := exists_drained hcounted
    (by rw [hnil]; exact fun i hi => absurd hi List.not_mem_nil)
    (by rw [h.lives]; exact nofun) (by rw [hsteady'.buckets, hsteady'.handlers])
  have hfinish := (of_decide_eq_true (h.exits events hdrained)).1
  have hdone := (done_of_drained (countedOf_exec hcounted events)
    ⟨hdrained.handleBuckets, hdrained.handling⟩).2
  have hitems : (s.consume g items env).items = items := by rw [consume_some hidle hmake]
  rw [(sameBatch_exec _ events).items, hdone, hitems, hnil, List.length_nil] at hfinish
  exact hne (List.length_eq_zero_iff.mp hfinish.symm)

lemma completes_of_ok (hsteady : Steady opt s) (hidle : s.phase = .idle)
    (hmake : makeHandleBuckets env items s.handleBuckets = some (.ok (), buckets)) :
    Completes opt s g items env := by
  obtain ⟨_, _, _, _, hpart⟩ := partitions_of_ok hmake
  rw [hsteady.buckets] at hpart
  have hends := dispatchEnds_of_ok (g := g) hsteady hidle hmake hpart
  have hcounted := counted_consume (g := g) hidle (hsteady.idle hidle) hmake
  have hitems : (s.consume g items env).items = items := by rw [consume_some hidle hmake]
  refine ⟨hends.waiting, fun events => (hends.exits events).mpr, fun events => ?_,
    fun events hdrained => ?_⟩
  · have hu := countedOf_exec hcounted events
    have hsame := (sameBatch_exec (s.consume g items env) events).items.trans hitems
    refine ⟨hu.results.trans (congrArg List.length hsame), fun i hi hno => ?_⟩
    obtain herror | ⟨result, hdone, _⟩ := hu.wrote i (by rw [hsame]; exact hi)
    · exact herror
    · exact absurd hdone (hno result)
  · have hphase := (sameBatch_exec (s.consume g items env) events).phase.trans hends.waiting
    have hfinish : (coroutines.exec (s.consume g items env) events).finish opt =
        { coroutines.exec (s.consume g items env) events with phase := .idle } :=
      if_pos ⟨hphase, (hends.exits events).mpr hdrained⟩
    rw [hfinish]
    exact ⟨rfl, ⟨hdrained.handleBuckets, hdrained.handling⟩, fun _ _ _ => counters_consume rfl⟩

end

/-- **Buckets partition a batch, and dispatch ends when it has been handled**, for every positive
number of handlers and in every state where the thread takes a batch. -/
theorem dispatch_ends (opt : HandlerOption) (s₀ : ConsumeThread)
    (hstart : ConsumeThread.start opt = some s₀) (hpos : 0 < opt.nhandler)
    (events : List ConsumeEvent) (hidle : ((consumeThread opt s₀).exec s₀ events).phase = .idle)
    (g : ℤ) (items : List QItem) (env : BucketEnv) (topic : TopicConfig)
    (htopic : env.topic = .ok topic) (queueInfo : QueueInfo)
    (hqueueInfo : topic.getQueueInfoByQueue env.queueId = .ok queueInfo) :
    DispatchEnds opt (!env.handleByRandomUin queueInfo.queueInfoId) items
      (((consumeThread opt s₀).exec s₀ events).consume g items env) := by
  have hsteady := steady_exec hstart events
  obtain ⟨buckets, hmake⟩ := exists_buckets items htopic hqueueInfo
    (by rw [hsteady.buckets]; omega)
  obtain ⟨topic', queueInfo', htopic', hqueueInfo', hpart⟩ := partitions_of_ok hmake
  rw [htopic] at htopic'
  cases htopic'
  rw [hqueueInfo] at hqueueInfo'
  cases hqueueInfo'
  rw [hsteady.buckets] at hpart
  exact dispatchEnds_of_ok hsteady hidle hmake hpart

/-- A thread with one handler and one batch handler, before its first batch. -/
def oneHandler : ConsumeThread where
  handleBuckets := [[]]
  handling := [none]
  batchHandleFinish := [true]

def queueZero (topic : Except RetCode TopicConfig) : BucketEnv where
  topic := topic
  queueId := 0
  rand := fun _ => 0

def tenQueues : TopicConfig where
  pubs := [⟨1, [1], [1]⟩]
  queueInfos := [{ queueInfoId := 1, ranges := [(0, 9)] }]
  itemsByteSizeLimit := 0

theorem twoItems_ends : DispatchEnds ⟨1, 1⟩ true [{ uin := 7 }, { uin := 7 }]
    (oneHandler.consume 1 [{ uin := 7 }, { uin := 7 }] (queueZero (.ok tenQueues))) :=
  dispatch_ends ⟨1, 1⟩ oneHandler rfl (by decide) [] rfl 1 [{ uin := 7 }, { uin := 7 }]
    (queueZero (.ok tenQueues)) tenQueues rfl { queueInfoId := 1, ranges := [(0, 9)] } rfl

/-- **A batch completes exactly when the topic configuration and the queue info are found and there is
a handler.**  Otherwise no task is started for any item, and dispatch waits for them all. -/
theorem completes_iff (opt : HandlerOption) (s₀ : ConsumeThread)
    (hstart : ConsumeThread.start opt = some s₀) (events : List ConsumeEvent)
    (hidle : ((consumeThread opt s₀).exec s₀ events).phase = .idle) (g : ℤ) (items : List QItem)
    (hne : items ≠ []) (env : BucketEnv) :
    Completes opt ((consumeThread opt s₀).exec s₀ events) g items env ↔
      (∃ topic queueInfo, env.topic = .ok topic ∧
        topic.getQueueInfoByQueue env.queueId = .ok queueInfo) ∧ 0 < opt.nhandler := by
  have hsteady := steady_exec hstart events
  generalize (consumeThread opt s₀).exec s₀ events = s at *
  have hisOk := @makeHandleBuckets_isOk_iff env items s.handleBuckets hne
  rw [hsteady.buckets] at hisOk
  have hpos : 0 < opt.nhandler.toNat ↔ 0 < opt.nhandler := by omega
  rw [← hpos, ← hisOk]
  constructor
  · intro h
    cases hmake : makeHandleBuckets env items s.handleBuckets with
    | none =>
      have hlives := h.lives
      rw [consume_none hidle hmake] at hlives
      cases hlives
    | some made =>
      obtain ⟨ret, buckets⟩ := made
      cases ret with
      | ok _ => exact ⟨buckets, rfl⟩
      | error ret => exact absurd h (not_completes_of_error hsteady hidle hmake hne)
  · rintro ⟨buckets, hmake⟩
    exact completes_of_ok hsteady hidle hmake

theorem oneItem_completes :
    Completes ⟨1, 1⟩ oneHandler 1 [{ uin := 7 }] (queueZero (.ok tenQueues)) :=
  (completes_iff ⟨1, 1⟩ oneHandler rfl [] rfl 1 [{ uin := 7 }] (by decide)
    (queueZero (.ok tenQueues))).mpr ⟨⟨tenQueues, _, rfl, rfl⟩, by decide⟩

/-- **Counterexample.**  Where the topic is not configured any more, the batch handler finishes, and
dispatch still waits for the item, whose handler has not been started. -/
theorem noTopic_not_completes :
    ¬ Completes ⟨1, 1⟩ oneHandler 1 [{ uin := 7 }] (queueZero (.error .errRangeTopic)) := by
  intro h
  have hexits := h.exits [.batchHandled 0] ⟨⟨by decide, by decide⟩, by decide⟩
  revert hexits
  decide

end PhxQueue.Consumer
