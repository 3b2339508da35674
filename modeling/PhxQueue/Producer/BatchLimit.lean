import PhxQueue.Producer.BatchHelper
import PhxQueue.Producer.Truthful
import PhxQueue.Store.CheckRequest

/-!
# The size of a batch

A batch is sent when it has half the bytes that a store accepts; until then it takes every request,
also one with more bytes than are left.

* `pendingByteSize`      the bytes that wait in the batch of a queue;
* `allAccepted_iff`      **a store accepts all batches exactly when each request that joins one
                         leaves it within the limit**;
* `fullRequest_not_accepted`   a request of full size behind a small one.
-/

set_option linter.unusedSectionVars false

namespace PhxQueue.Producer
open Comm Config Lib Store

section
variable {ι : Type}

def tasksByteSize (tasks : List (ι × AddRequest)) : ℕ :=
  (tasks.map fun t => itemsByteSize t.2).sum

/-- The bytes of the items that wait in the batch of a queue. -/
def Helper.pendingByteSize (s : Helper ι) (key : ℤ × ℤ × ℤ) : ℕ :=
  match (s.batchInfos key).bind (s.batches[·]?) with
  | none => 0
  | some b => tasksByteSize b.tasks

/-- A store accepts what has been sent, and every batch as it stands. -/
structure AllAccepted (env : CheckEnv) (s : Helper ι) : Prop where
  batches : ∀ b ∈ s.batches, checkAddRequest env (batchReq b.tasks) = .ok
  sent : ∀ o ∈ s.sent, checkAddRequest env o.req = .ok

/-- A request that joins a batch leaves it within the limit of the store. -/
def Room (env : CheckEnv) (s : Helper ι) : BatchEvent ι → Prop
  | .batchRawAdd c req _ _ =>
    s.calls c = none → WithinLimit env (s.pendingByteSize (keyOf req) + itemsByteSize req)
  | _ => True

/-- The store accepts the request of a call by itself. -/
def Single (env : CheckEnv) : BatchEvent ι → Prop
  | .batchRawAdd _ req _ _ => checkAddRequest env req = .ok
  | _ => True

/-! ## The request of a batch -/

lemma itemsByteSize_batchReq (tasks : List (ι × AddRequest)) :
    itemsByteSize (batchReq tasks) = tasksByteSize tasks := by
  unfold batchReq itemsByteSize tasksByteSize
  rw [foldl_joinReq_items, List.nil_append]
  induction tasks with
  | nil => rfl
  | cons t tasks ih =>
    rw [List.flatMap_cons, List.map_append, List.sum_append, ih, List.map_cons, List.sum_cons]
    rfl

lemma foldl_joinReq_key (tasks : List (ι × AddRequest)) (batch : AddRequest) :
    keyOf (tasks.foldl joinReq batch) = keyOf batch ∨
      ∃ t ∈ tasks, keyOf (tasks.foldl joinReq batch) = keyOf t.2 := by
  induction tasks generalizing batch with
  | nil => exact .inl rfl
  | cons t tasks ih =>
    rw [List.foldl_cons]
    have hjoin : keyOf (joinReq batch t) = keyOf batch ∨ keyOf (joinReq batch t) = keyOf t.2 := by
      unfold joinReq
      split
      · exact .inr rfl
      · exact .inl rfl
    rcases ih (joinReq batch t) with h | ⟨t', ht', h⟩
    · rcases hjoin with hjoin | hjoin
      · exact .inl (h.trans hjoin)
      · exact .inr ⟨t, List.mem_cons_self, h.trans hjoin⟩
    · exact .inr ⟨t', List.mem_cons_of_mem _ ht', h⟩

/-- A batch is sent to the store and queue of one of its tasks. -/
lemma batchReq_key {tasks : List (ι × AddRequest)} (h : tasks ≠ []) :
    ∃ t ∈ tasks, keyOf (batchReq tasks) = keyOf t.2 := by
  obtain ⟨t, tasks, rfl⟩ := List.exists_cons_of_ne_nil h
  rcases foldl_joinReq_key tasks t.2 with h | ⟨t', ht', h⟩
  · exact ⟨t, List.mem_cons_self, h⟩
  · exact ⟨t', List.mem_cons_of_mem _ ht', h⟩

lemma checkRequestComm_of_key {env : CheckEnv} {req req' : AddRequest} (h : keyOf req = keyOf req') :
    checkRequestComm env req.storeId req.queueId =
      checkRequestComm env req'.storeId req'.queueId := by
  have hstore : req.storeId = req'.storeId := congrArg (fun k => k.2.1) h
  have hqueue : req.queueId = req'.queueId := congrArg (fun k => k.2.2) h
  rw [hstore, hqueue]

/-! ## The invariant -/

/-- A batch of requests for the store, within its limit. -/
structure BatchFits (env : CheckEnv) (b : BatchTask ι) : Prop where
  nonempty : b.tasks ≠ []
  comm : ∀ t ∈ b.tasks, checkRequestComm env t.2.storeId t.2.queueId = .ok
  limit : WithinLimit env (tasksByteSize b.tasks)

lemma BatchFits.accepted {env : CheckEnv} {b : BatchTask ι} (h : BatchFits env b) :
    checkAddRequest env (batchReq b.tasks) = .ok := by
  obtain ⟨t, ht, hkey⟩ := batchReq_key h.nonempty
  refine checkAddRequest_ok_iff.mpr ⟨?_, ?_⟩
  · rw [checkRequestComm_of_key hkey]
    exact h.comm t ht
  · rw [itemsByteSize_batchReq]
    exact h.limit

structure Fitting (env : CheckEnv) (s : Helper ι) : Prop where
  batches : ∀ (n : ℕ) (b : BatchTask ι), s.batches[n]? = some b → BatchFits env b
  infos : ∀ key n, s.batchInfos key = some n → ∃ b, s.batches[n]? = some b
  sent : ∀ o ∈ s.sent, checkAddRequest env o.req = .ok

variable {env : CheckEnv} {s : Helper ι} [DecidableEq ι]

lemma Fitting.allAccepted (h : Fitting env s) : AllAccepted env s where
  batches := by
    intro b hb
    obtain ⟨n, hn⟩ := List.mem_iff_getElem?.mp hb
    exact (h.batches n b hn).accepted
  sent := h.sent

/-- The batch that a request joins, and what waits in it. -/
lemma Fitting.collects (h : Fitting env s) (topic : Option TopicConfig) (key : ℤ × ℤ × ℤ) :
    ∃ n b, Collects { batches := s.batches, batchInfos := s.batchInfos } topic key n b ∧
      tasksByteSize b.tasks = s.pendingByteSize key ∧
      ∀ t ∈ b.tasks, checkRequestComm env t.2.storeId t.2.queueId = .ok := by
  unfold Helper.pendingByteSize
  cases hkey : s.batchInfos key with
  | some n =>
    obtain ⟨b, hb⟩ := h.infos key n hkey
    refine ⟨n, b, ⟨.inl ⟨hkey, hb⟩⟩, ?_, (h.batches n b hb).comm⟩
    rw [Option.bind_some, hb]
  | none =>
    refine ⟨s.batches.length, initBatch topic, ⟨.inr ⟨hkey, rfl, rfl⟩⟩, ?_, ?_⟩
    · rw [initBatch_tasks]
      rfl
    · rw [initBatch_tasks]
      exact fun _ ht => absurd ht List.not_mem_nil

variable {reqByteSize : AddRequest → ℕ} {ndaemonThread : ℕ}

lemma batchRawAdd_sent (c : ι) (req : AddRequest) (topic : Option TopicConfig) (now : ℕ) :
    (s.batchRawAdd reqByteSize c req topic now).sent = s.sent := by
  unfold Helper.batchRawAdd
  dsimp only
  split <;> rfl

lemma batchRawAdd_world (c : ι) (req : AddRequest) (topic : Option TopicConfig) (now : ℕ) :
    let r := World.addToBatch reqByteSize { batches := s.batches, batchInfos := s.batchInfos }
      c req topic now
    (s.batchRawAdd reqByteSize c req topic now).batches = r.1.batches ∧
      (s.batchRawAdd reqByteSize c req topic now).batchInfos = r.1.batchInfos := by
  unfold Helper.batchRawAdd
  dsimp only
  split <;> exact ⟨rfl, rfl⟩

/-- **A request that leaves its batch within the limit.** -/
lemma Fitting.batchRawAdd (h : Fitting env s) {c : ι} {req : AddRequest}
    {topic : Option TopicConfig} {now : ℕ} (hsingle : checkAddRequest env req = .ok)
    (hroom : WithinLimit env (s.pendingByteSize (keyOf req) + itemsByteSize req)) :
    Fitting env (s.batchRawAdd reqByteSize c req topic now) := by
  obtain ⟨n, b, hcol, hpending, hcomm⟩ := h.collects topic (keyOf req)
  obtain ⟨_, hinfos, hbatches⟩ := @addToBatch_eq ι _ reqByteSize _ _ _ _ _ hcol c now
  obtain ⟨hworld, hworld'⟩ := @batchRawAdd_world ι s _ reqByteSize c req topic now
  have hfits : BatchFits env (joined reqByteSize b now c req) := by
    refine ⟨?_, ?_, ?_⟩
    · rw [joined_tasks]
      exact List.append_ne_nil_of_right_ne_nil _ (List.cons_ne_nil _ _)
    · rw [joined_tasks]
      intro t ht
      rcases List.mem_append.mp ht with ht | ht
      · exact hcomm t ht
      · rw [List.mem_singleton.mp ht]
        exact (checkAddRequest_ok_iff.mp hsingle).1
    · have hsum : tasksByteSize (b.tasks ++ [(c, req)]) =
          s.pendingByteSize (keyOf req) + itemsByteSize req := by
        rw [← hpending]
        unfold tasksByteSize
        rw [List.map_append, List.sum_append]
        rfl
      rw [joined_tasks, hsum]
      exact hroom
  refine ⟨fun m b' hb' => ?_, fun key m hkey => ?_, ?_⟩
  · rw [hworld, hbatches m] at hb'
    split at hb'
    · cases hb'
      exact hfits
    · exact h.batches m b' hb'
  · rw [hworld, hbatches m]
    split
    · exact ⟨_, rfl⟩
    · rename_i hm
      rw [hworld', hinfos] at hkey
      by_cases heq : key = keyOf req
      · rw [heq, Function.update_self] at hkey
        split at hkey
        · cases hkey
        · cases hkey
          exact absurd rfl hm
      · rw [Function.update_of_ne heq] at hkey
        exact h.infos key m hkey
  · rw [batchRawAdd_sent]
    exact h.sent

/-- A request that does not leaves a batch that the store refuses. -/
lemma Fitting.not_accepted (h : Fitting env s) {c : ι} {req : AddRequest}
    {topic : Option TopicConfig} {now : ℕ}
    (hroom : ¬ WithinLimit env (s.pendingByteSize (keyOf req) + itemsByteSize req)) :
    ¬ AllAccepted env (s.batchRawAdd reqByteSize c req topic now) := by
  intro hall
  obtain ⟨n, b, hcol, hpending, _⟩ := h.collects topic (keyOf req)
  obtain ⟨_, _, hbatches⟩ := @addToBatch_eq ι _ reqByteSize _ _ _ _ _ hcol c now
  obtain ⟨hworld, _⟩ := @batchRawAdd_world ι s _ reqByteSize c req topic now
  have hget : (s.batchRawAdd reqByteSize c req topic now).batches[n]? =
      some (joined reqByteSize b now c req) := by
    rw [hworld, hbatches n, if_pos rfl]
  have hok := (checkAddRequest_ok_iff.mp
    (hall.batches _ (List.mem_of_getElem? hget))).2
  rw [itemsByteSize_batchReq, joined_tasks] at hok
  apply hroom
  rw [← hpending]
  unfold tasksByteSize at hok ⊢
  rw [List.map_append, List.sum_append] at hok
  exact hok

/-- The steps after a request has joined its batch keep what is in it. -/
lemma Fitting.of_step (h : Fitting env s) {e : BatchEvent ι} (hok : Room env s e)
    (hsingle : Single env e) : Fitting env (s.step reqByteSize ndaemonThread e) := by
  cases e with
  | batchRawAdd c req topic now =>
    dsimp only [Helper.step]
    cases hc : s.calls c with
    | some call => exact h
    | none => exact h.batchRawAdd hsingle (hok hc)
  | dispatch key now =>
    dsimp only [Helper.step]
    split
    · exact h
    rename_i n hkey
    split
    · exact h
    rename_i b hb
    split
    · have hn := (List.getElem?_eq_some_iff.mp hb).1
      have hset : ∀ m, (s.batches.set n { b with status := .taken })[m]? =
          if m = n then some { b with status := .taken } else s.batches[m]? := by
        intro m
        by_cases hm : m = n
        · rw [if_pos hm, hm]
          exact List.getElem?_set_self hn
        · rw [if_neg hm, List.getElem?_set_ne (Ne.symm hm)]
      refine ⟨fun m b' hb' => ?_, fun key' m hkey' => ?_, h.sent⟩
      · have hb' : (s.batches.set n { b with status := .taken })[m]? = some b' := hb'
        rw [hset m] at hb'
        split at hb'
        · cases hb'
          have hfits := h.batches n b hb
          exact ⟨hfits.nonempty, hfits.comm, hfits.limit⟩
        · exact h.batches m b' hb'
      · show ∃ b', (s.batches.set n { b with status := .taken })[m]? = some b'
        rw [hset m]
        split
        · exact ⟨_, rfl⟩
        · have hkey' : Function.update s.batchInfos key none key' = some m := hkey'
          by_cases heq : key' = key
          · rw [heq, Function.update_self] at hkey'
            cases hkey'
          · rw [Function.update_of_ne heq] at hkey'
            exact h.infos key' m hkey'
    · exact h
  | rawAdd n ret =>
    dsimp only [Helper.step]
    split
    · rename_i runner b _ hb
      refine ⟨h.batches, h.infos, fun o ho => ?_⟩
      rcases List.mem_append.mp ho with ho | ho
      · exact h.sent o ho
      · rw [List.mem_singleton.mp ho]
        exact (h.batches n b hb).accepted
    · exact h
  | notify n =>
    dsimp only [Helper.step]
    split
    · split <;> exact ⟨h.batches, h.infos, h.sent⟩
    · exact h
  | finish n =>
    dsimp only [Helper.step]
    split
    · unfold Helper.release
      split
      · split <;> exact ⟨h.batches, h.infos, h.sent⟩
      · exact ⟨h.batches, h.infos, h.sent⟩
    · exact h
  | wait c =>
    dsimp only [Helper.step]
    split
    · split
      · exact ⟨h.batches, h.infos, h.sent⟩
      · split
        · exact h
        · exact ⟨h.batches, h.infos, h.sent⟩
    · exact h
  | put c =>
    dsimp only [Helper.step]
    split
    · split <;> exact ⟨h.batches, h.infos, h.sent⟩
    · exact h

end

/-- **A store accepts all batches of a run** exactly when each request that joins a batch leaves it
within the limit. -/
theorem allAccepted_iff {ι : Type} [DecidableEq ι] (env : CheckEnv) (reqByteSize : AddRequest → ℕ)
    (ndaemonThread nprocessRoutine : ℕ) (es : List (BatchEvent ι)) (hes : ∀ e ∈ es, Single env e) :
    (helper reqByteSize ndaemonThread nprocessRoutine).Always (AllAccepted env)
        (helper reqByteSize ndaemonThread nprocessRoutine).init es ↔
      (helper reqByteSize ndaemonThread nprocessRoutine).Along (Room env)
        (helper reqByteSize ndaemonThread nprocessRoutine).init es := by
  have hinit : Fitting env
      (helper reqByteSize ndaemonThread nprocessRoutine : Machine (Helper ι) (BatchEvent ι)).init :=
    ⟨fun _ _ hb => (nomatch hb), fun _ _ hk => (nomatch hk), fun _ ho => (nomatch ho)⟩
  have hstep : ∀ (s : Helper ι) e, Fitting env s → Single env e → Room env s e →
      Fitting env (s.step reqByteSize ndaemonThread e) := fun _ _ h hs hok => h.of_step hok hs
  have hbad : ∀ (s : Helper ι) e, Fitting env s → Single env e → ¬ Room env s e →
      ¬ AllAccepted env (s.step reqByteSize ndaemonThread e) := by
    intro s e h _ hno
    cases e with
    | batchRawAdd c req topic now =>
      unfold Room at hno
      rw [Classical.not_imp] at hno
      dsimp only [Helper.step]
      rw [hno.1]
      exact h.not_accepted hno.2
    | dispatch key now => exact absurd trivial hno
    | rawAdd n ret => exact absurd trivial hno
    | notify n => exact absurd trivial hno
    | finish n => exact absurd trivial hno
    | wait c => exact absurd trivial hno
    | put c => exact absurd trivial hno
  exact Machine.always_iff_along_of_labels (fun _ h => h.allAccepted) hstep hbad hinit es hes

/-! ## A request of full size -/

/-- Requests of at most 100 bytes for queue 1. -/
def smallTopic : TopicConfig :=
  { pubs := [⟨1, [1], [1]⟩]
    queueInfos := [{ queueInfoId := 1, ranges := [(1, 1)] }]
    itemsByteSizeLimit := 100 }

def smallStore : CheckEnv := { store := .ok ⟨1, []⟩, topic := some smallTopic }

/-- A request for queue 1 of the store, with one item. -/
def requestOf (bytes : ℕ) : AddRequest :=
  { topicId := 1, storeId := 1, queueId := 1, items := [{ byteSize := bytes }] }

/-- A call with 40 bytes waits, and one with 100 makes the batch ready and sends it. -/
def fullRequest : List (BatchEvent ℕ) :=
  [.batchRawAdd 0 (requestOf 40) (some smallTopic) 1,
    .batchRawAdd 1 (requestOf 100) (some smallTopic) 2, .rawAdd 0 .errSizeTooLarge]

/-- **Counterexample.**  The store accepts both requests, and refuses the batch that is sent. -/
theorem fullRequest_not_accepted : (∀ e ∈ fullRequest, Single smallStore e) ∧
    ∃ o ∈ ((helper itemsByteSize 1 1).exec (helper itemsByteSize 1 1).init fullRequest).sent,
      checkAddRequest smallStore o.req ≠ .ok := by
  refine ⟨?_, ⟨0, [0, 1], ⟨1, 1, 1, [{ byteSize := 40 }, { byteSize := 100 }]⟩,
    .errSizeTooLarge⟩, List.mem_of_getElem? (by rfl : _[0]? = _), by decide⟩
  intro e he
  simp only [fullRequest, List.mem_cons, List.not_mem_nil, or_false] at he
  rcases he with rfl | rfl | rfl
  · show checkAddRequest smallStore (requestOf 40) = .ok
    decide
  · show checkAddRequest smallStore (requestOf 100) = .ok
    decide
  · trivial

/-- Two requests of half the size are sent in one batch that the store accepts. -/
theorem halfRequests_accepted :
    (∀ e ∈ ([.batchRawAdd 0 (requestOf 40) (some smallTopic) 1,
        .batchRawAdd 1 (requestOf 50) (some smallTopic) 2] : List (BatchEvent ℕ)),
      Single smallStore e) ∧
    (helper itemsByteSize 1 1).Along (Room smallStore) (helper itemsByteSize 1 1).init
        ([.batchRawAdd 0 (requestOf 40) (some smallTopic) 1,
          .batchRawAdd 1 (requestOf 50) (some smallTopic) 2] : List (BatchEvent ℕ)) ∧
    (helper itemsByteSize 1 1).Always (AllAccepted smallStore) (helper itemsByteSize 1 1).init
        ([.batchRawAdd 0 (requestOf 40) (some smallTopic) 1,
          .batchRawAdd 1 (requestOf 50) (some smallTopic) 2] : List (BatchEvent ℕ)) := by
  have hsingle : ∀ e ∈ ([.batchRawAdd 0 (requestOf 40) (some smallTopic) 1,
      .batchRawAdd 1 (requestOf 50) (some smallTopic) 2] : List (BatchEvent ℕ)),
      Single smallStore e := by
    intro e he
    simp only [List.mem_cons, List.not_mem_nil, or_false] at he
    rcases he with rfl | rfl
    · show checkAddRequest smallStore (requestOf 40) = .ok
      decide
    · show checkAddRequest smallStore (requestOf 50) = .ok
      decide
  have hroom : (helper itemsByteSize 1 1).Along (Room smallStore) (helper itemsByteSize 1 1).init
      ([.batchRawAdd 0 (requestOf 40) (some smallTopic) 1,
        .batchRawAdd 1 (requestOf 50) (some smallTopic) 2] : List (BatchEvent ℕ)) :=
    ⟨fun _ => ⟨smallTopic, rfl, by decide⟩, fun _ => ⟨smallTopic, rfl, by decide⟩, trivial⟩
  exact ⟨hsingle, hroom, (allAccepted_iff smallStore itemsByteSize 1 1 _ hsingle).mpr hroom⟩

end PhxQueue.Producer
