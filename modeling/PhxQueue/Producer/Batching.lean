import PhxQueue.Producer.BatchLimit
import PhxQueue.Lib.Settle

/-!
# Batching delivers exactly once

Any number of calls of `BatchRawAdd`, with requests that are not empty, and the threads that dispatch
and process the batches, in any order.

* `ExactlyOnce`        each call is in one request at most, for its own queue; it returns what
                       `RawAdd` returned for this request; and no notifier carries anything else;
* `Placed`, `Results`, `Waiting`   the invariant: where the tasks are, what has been sent, and
                       what the notifiers hold;
* `exactlyOnce`        **every call is delivered exactly once**, in every run, and when no new calls
                       come the helper settles with all calls returned.
-/

set_option linter.unusedSectionVars false

namespace PhxQueue.Producer
open Comm Config Lib

section
variable {ι : Type}

/-- What `RawAdd` has returned for a batch. -/
def resultOf : Option (Process ι) → Option RetCode
  | some ⟨_, .notify ret _⟩ | some ⟨_, .ended ret⟩ => some ret
  | _ => none

/-- What a call has been notified of, by whoever processes its batch. -/
def notifiedOf [DecidableEq ι] (p : Option (Process ι)) (c : ι) : List RetCode :=
  match p with
  | some ⟨_, .notify ret rest⟩ => if c ∈ rest then [] else [ret]
  | some ⟨_, .ended ret⟩ => [ret]
  | _ => []

/-- `Process` has been called and has not returned. -/
def active : Option (Process ι) → Prop
  | some ⟨_, .rawAdd⟩ | some ⟨_, .notify _ _⟩ => True
  | _ => False

/-- The calls whose items have been sent, as often as they have. -/
def Helper.delivered (s : Helper ι) : List ι := s.sent.flatMap Sent.callers

/-- **Delivery, so far.** -/
structure ExactlyOnce (s : Helper ι) : Prop where
  /-- A request has the items of its calls and no others, and the topic, store and queue of each. -/
  sent : ∀ o ∈ s.sent, ∃ tasks : List (ι × AddRequest), o.callers = tasks.map Prod.fst ∧
    o.req.items = tasks.flatMap (fun t => t.2.items) ∧
    ∀ t ∈ tasks, keyOf o.req = keyOf t.2 ∧ ∃ call, s.calls t.1 = some call ∧ call.req = t.2
  /-- No call is in two requests, or twice in one. -/
  once : s.delivered.Nodup
  /-- A call that has returned is in a request, and has returned its result. -/
  returned : ∀ c call ret, s.calls c = some call → call.phase = .done ret →
    ∃ o ∈ s.sent, c ∈ o.callers ∧ o.ret = ret
  /-- What is written to the notifier of a call is the result of the request it is in. -/
  notified : ∀ c k, s.notifiers c = some k → ∀ ret ∈ s.pipes k,
    ∃ o ∈ s.sent, c ∈ o.callers ∧ o.ret = ret
  /-- A notifier that is free is empty, and no two calls have the same. -/
  unshared : ∀ c c' k, s.notifiers c = some k → s.notifiers c' = some k → c = c'
  free : ∀ k ∈ s.pool.free, s.pipes k = [] ∧ ∀ c, s.notifiers c ≠ some k

/-! ## The invariant -/

/-- The tasks of a batch; none for a batch that does not exist. -/
def Helper.tasks (s : Helper ι) (n : ℕ) : List (ι × AddRequest) :=
  match s.batches[n]? with
  | none => []
  | some b => b.tasks

structure Placed (s : Helper ι) : Prop where
  task : ∀ c call, s.calls c = some call → (c, call.req) ∈ s.tasks call.batch
  call : ∀ n, ∀ t ∈ s.tasks n, ∃ call, s.calls t.1 = some call ∧ call.batch = n ∧ call.req = t.2
  nodup : ∀ n, ((s.tasks n).map Prod.fst).Nodup
  nonempty : ∀ n < s.batches.length, s.tasks n ≠ []
  key : ∀ n, ∀ t ∈ s.tasks n, ∀ t' ∈ s.tasks n, keyOf t.2 = keyOf t'.2
  infos : ∀ key n, s.batchInfos key = some n → s.processes n = none ∧ s.tasks n ≠ [] ∧
    ∀ t ∈ s.tasks n, keyOf t.2 = key
  collects : ∀ n, s.tasks n ≠ [] → s.processes n = none → ∃ key, s.batchInfos key = some n
  process : ∀ n, s.processes n ≠ none → s.tasks n ≠ []

/-- What has been sent, and for which batches. -/
structure Results (s : Helper ι) : Prop where
  sent : ∀ o ∈ s.sent, o.callers = (s.tasks o.batch).map Prod.fst ∧
    o.req = batchReq (s.tasks o.batch) ∧ resultOf (s.processes o.batch) = some o.ret
  nodup : (s.sent.map Sent.batch).Nodup
  result : ∀ n ret, resultOf (s.processes n) = some ret → ∃ o ∈ s.sent, o.batch = n

/-- What a call can rely on, given its notifier and who processes its batch. -/
def RawCallOk [DecidableEq ι] (s : Helper ι) (c : ι) (call : RawCall) : Prop :=
  match call.phase with
  | .process => s.notifiers c = none ∧ active (s.processes call.batch) ∧
      ∃ p, s.processes call.batch = some p ∧ p.runner = .call c
  | .wait => ∃ k, s.notifiers c = some k ∧ s.pipes k = notifiedOf (s.processes call.batch) c
  | .put ret => ∃ k, s.notifiers c = some k ∧ s.pipes k = [] ∧
      notifiedOf (s.processes call.batch) c = [ret]
  | .done ret => s.notifiers c = none ∧ resultOf (s.processes call.batch) = some ret

/-- What the notifiers hold, and who is waited for. -/
structure Waiting [DecidableEq ι] (s : Helper ι) : Prop where
  owned : s.pool.Owned s.notifiers
  fresh : ∀ c, s.calls c = none → s.notifiers c = none
  calls : ∀ c call, s.calls c = some call → RawCallOk s c call
  empty : ∀ k, (∀ c, s.notifiers c ≠ some k) → s.pipes k = []
  runner : ∀ n c p, s.processes n = some ⟨.call c, p⟩ → active (s.processes n) →
    ∃ call, s.calls c = some call ∧ call.batch = n ∧ call.phase = .process
  rest : ∀ n runner ret rest, s.processes n = some ⟨runner, .notify ret rest⟩ →
    rest <:+ (s.tasks n).map Prod.fst

structure BatchInv [DecidableEq ι] (s : Helper ι) : Prop where
  placed : Placed s
  results : Results s
  waiting : Waiting s

/-! ## What the invariant gives -/

lemma notifiedOf_result [DecidableEq ι] {p : Option (Process ι)} {c : ι} {ret : RetCode}
    (h : ret ∈ notifiedOf p c) : resultOf p = some ret := by
  unfold notifiedOf at h
  split at h
  · split at h
    · exact absurd h List.not_mem_nil
    · rw [List.mem_singleton.mp h]
      rfl
  · rw [List.mem_singleton.mp h]
    rfl
  · exact absurd h List.not_mem_nil

variable [DecidableEq ι] {s : Helper ι}

lemma BatchInv.delivered_of_result (h : BatchInv s) {c : ι} {call : RawCall} {ret : RetCode}
    (hc : s.calls c = some call) (hret : resultOf (s.processes call.batch) = some ret) :
    ∃ o ∈ s.sent, c ∈ o.callers ∧ o.ret = ret := by
  obtain ⟨o, ho, hbatch⟩ := h.results.result _ _ hret
  obtain ⟨hcallers, _, hres⟩ := h.results.sent o ho
  rw [hbatch] at hcallers hres
  refine ⟨o, ho, ?_, ?_⟩
  · rw [hcallers]
    exact List.mem_map.mpr ⟨_, h.placed.task c call hc, rfl⟩
  · rw [hret] at hres
    exact (Option.some.inj hres).symm

lemma batchReq_items (tasks : List (ι × AddRequest)) :
    (batchReq tasks).items = tasks.flatMap fun t => t.2.items := by
  unfold batchReq
  rw [foldl_joinReq_items, List.nil_append]

lemma Placed.unique (h : Placed s) {n m : ℕ} {c : ι} (hc : c ∈ (s.tasks n).map Prod.fst)
    (hc' : c ∈ (s.tasks m).map Prod.fst) : n = m := by
  obtain ⟨t, ht, rfl⟩ := List.mem_map.mp hc
  obtain ⟨t', ht', heq⟩ := List.mem_map.mp hc'
  obtain ⟨call, hcall, hn, _⟩ := h.call n t ht
  obtain ⟨call', hcall', hm, _⟩ := h.call m t' ht'
  rw [heq, hcall] at hcall'
  cases hcall'
  rw [← hn, ← hm]

lemma BatchInv.nodup_delivered (h : BatchInv s) : s.delivered.Nodup := by
  unfold Helper.delivered
  refine List.nodup_flatMap.mpr ⟨fun o ho => ?_, ?_⟩
  · rw [(h.results.sent o ho).1]
    exact h.placed.nodup o.batch
  · refine (List.pairwise_map.mp h.results.nodup).imp_of_mem ?_
    intro o o' ho ho' hne c hc hc'
    rw [(h.results.sent o ho).1] at hc
    rw [(h.results.sent o' ho').1] at hc'
    exact hne (h.placed.unique hc hc')

lemma Results.tasks_ne (h : Results s) (hp : Placed s) {o : Sent ι} (ho : o ∈ s.sent) :
    s.tasks o.batch ≠ [] := by
  apply hp.process
  intro hnone
  have hres := (h.sent o ho).2.2
  rw [hnone] at hres
  cases hres

theorem BatchInv.exactlyOnce (h : BatchInv s) : ExactlyOnce s where
  sent := by
    intro o ho
    obtain ⟨hcallers, hreq, _⟩ := h.results.sent o ho
    refine ⟨s.tasks o.batch, hcallers, ?_, fun t ht => ⟨?_, ?_⟩⟩
    · rw [hreq, batchReq_items]
    · obtain ⟨t', ht', hkey⟩ := batchReq_key (h.results.tasks_ne h.placed ho)
      rw [hreq, hkey]
      exact h.placed.key _ t' ht' t ht
    · obtain ⟨call, hcall, _, hcreq⟩ := h.placed.call _ t ht
      exact ⟨call, hcall, hcreq⟩
  once := h.nodup_delivered
  returned := by
    intro c call ret hc hdone
    have hok := h.waiting.calls c call hc
    unfold RawCallOk at hok
    rw [hdone] at hok
    exact h.delivered_of_result hc hok.2
  notified := by
    intro c k hk ret hret
    cases hc : s.calls c with
    | none =>
      rw [h.waiting.fresh c hc] at hk
      cases hk
    | some call =>
      have hok := h.waiting.calls c call hc
      unfold RawCallOk at hok
      cases hphase : call.phase with
      | process =>
        rw [hphase] at hok
        rw [hok.1] at hk
        cases hk
      | wait =>
        rw [hphase] at hok
        obtain ⟨k', hk', hpipe⟩ := hok
        rw [hk] at hk'
        cases hk'
        rw [hpipe] at hret
        exact h.delivered_of_result hc (notifiedOf_result hret)
      | put ret' =>
        rw [hphase] at hok
        obtain ⟨k', hk', hpipe, _⟩ := hok
        rw [hk] at hk'
        cases hk'
        rw [hpipe] at hret
        exact absurd hret List.not_mem_nil
      | done ret' =>
        rw [hphase] at hok
        rw [hok.1] at hk
        cases hk
  unshared := h.waiting.owned.inj
  free := by
    intro k hk
    have hnone : ∀ c, s.notifiers c ≠ some k := fun c hc => h.waiting.owned.notFree c k hc hk
    exact ⟨h.waiting.empty k hnone, hnone⟩

/-! ## A new call -/

lemma tasks_eq {n : ℕ} {b : BatchTask ι} (hb : s.batches[n]? = some b) : s.tasks n = b.tasks := by
  unfold Helper.tasks
  rw [hb]

lemma tasks_of_none {n : ℕ} (hb : s.batches[n]? = none) : s.tasks n = [] := by
  unfold Helper.tasks
  rw [hb]

/-- What the first part of `BatchRawAdd` does to batch `n`, which collects for the request; it is
processed by the call, or waited for. -/
structure Joins (s s' : Helper ι) (c : ι) (req : AddRequest) (n : ℕ) : Prop where
  unprocessed : s.processes n = none
  sameKey : ∀ t ∈ s.tasks n, keyOf t.2 = keyOf req
  infoKey : ∀ key, s.batchInfos key = some n → key = keyOf req
  infoBatch : ∀ m, s.batchInfos (keyOf req) = some m → m = n
  length : ∀ m < s'.batches.length, m < s.batches.length ∨ m = n
  tasks : s'.tasks = Function.update s.tasks n (s.tasks n ++ [(c, req)])
  sent : s'.sent = s.sent
  pipes : s'.pipes = s.pipes
  idle : s'.idle = s.idle
  cases :
    s'.batchInfos = Function.update s.batchInfos (keyOf req) none ∧
      s'.processes = Function.update s.processes n (some ⟨.call c, .rawAdd⟩) ∧
      s'.calls = Function.update s.calls c (some ⟨req, n, .process⟩) ∧
      s'.notifiers = s.notifiers ∧ s'.pool = s.pool ∨
    s'.batchInfos = Function.update s.batchInfos (keyOf req) (some n) ∧
      s'.processes = Function.update s.processes n none ∧
      s'.calls = Function.update s.calls c (some ⟨req, n, .wait⟩) ∧
      s'.notifiers = Function.update s.notifiers c (some s.pool.get.1) ∧ s'.pool = s.pool.get.2

variable {reqByteSize : AddRequest → ℕ} {ndaemonThread : ℕ}

lemma Placed.collects_of (h : Placed s) (topic : Option TopicConfig) (key : ℤ × ℤ × ℤ) :
    ∃ n b, Collects { batches := s.batches, batchInfos := s.batchInfos } topic key n b ∧
      s.tasks n = b.tasks ∧ s.processes n = none ∧ (∀ t ∈ s.tasks n, keyOf t.2 = key) ∧
      (∀ key', s.batchInfos key' = some n → key' = key) ∧
      ∀ m, s.batchInfos key = some m → m = n := by
  cases hkey : s.batchInfos key with
  | some n =>
    obtain ⟨hnone, hne, hsame⟩ := h.infos key n hkey
    cases hb : s.batches[n]? with
    | none => exact absurd (tasks_of_none hb) hne
    | some b =>
      refine ⟨n, b, ⟨.inl ⟨hkey, hb⟩⟩, tasks_eq hb, hnone, hsame, fun key' hkey' => ?_,
        fun m hm => (Option.some.inj hm).symm⟩
      obtain ⟨t, ht⟩ := List.exists_mem_of_ne_nil _ hne
      rw [← (h.infos key' n hkey').2.2 t ht, hsame t ht]
  | none =>
    have hnil : s.tasks s.batches.length = [] := tasks_of_none (List.getElem?_eq_none le_rfl)
    refine ⟨s.batches.length, initBatch topic, ⟨.inr ⟨hkey, rfl, rfl⟩⟩, ?_, ?_, ?_, ?_,
      fun m hm => (nomatch hm)⟩
    · rw [hnil, initBatch_tasks]
    · by_contra hp
      exact h.process _ hp hnil
    · rw [hnil]
      exact fun t ht => absurd ht List.not_mem_nil
    · exact fun key' hkey' => absurd hnil (h.infos key' _ hkey').2.1

lemma Placed.joins (h : Placed s) (c : ι) (req : AddRequest) (topic : Option TopicConfig)
    (now : ℕ) : ∃ n, Joins s (s.batchRawAdd reqByteSize c req topic now) c req n := by
  obtain ⟨n, b, hcol, htasks, hnone, hsame, hkey, hbatch⟩ := h.collects_of topic (keyOf req)
  obtain ⟨hn, hinfos, hbatches⟩ := @addToBatch_eq ι _ reqByteSize _ _ _ _ _ hcol c now
  obtain ⟨hworld, hworld'⟩ := @batchRawAdd_world ι s _ reqByteSize c req topic now
  have hnew : (s.batchRawAdd reqByteSize c req topic now).tasks =
      Function.update s.tasks n (s.tasks n ++ [(c, req)]) := by
    funext m
    unfold Helper.tasks
    rw [hworld, hbatches m]
    by_cases hm : m = n
    · rw [if_pos hm, hm, Function.update_self]
      show (joined reqByteSize b now c req).tasks = s.tasks n ++ [(c, req)]
      rw [joined_tasks, htasks]
    · rw [if_neg hm, Function.update_of_ne hm]
  refine ⟨n, hnone, hsame, hkey, hbatch, fun m hm => ?_, hnew, batchRawAdd_sent c req topic now, ?_,
    ?_, ?_⟩
  · by_cases heq : m = n
    · exact .inr heq
    · left
      by_contra hlt
      have hget := hbatches m
      rw [if_neg heq, List.getElem?_eq_none (Nat.not_lt.mp hlt), List.getElem?_eq_none_iff,
        ← hworld] at hget
      exact absurd hm (Nat.not_lt.mpr hget)
  · unfold Helper.batchRawAdd
    dsimp only
    split <;> rfl
  · unfold Helper.batchRawAdd
    dsimp only
    split <;> rfl
  · by_cases hready : (b.addTask reqByteSize now c req).ready now
    · rw [if_pos hready] at hinfos
      left
      refine ⟨hworld'.trans hinfos, ?_⟩
      unfold Helper.batchRawAdd
      dsimp only
      rw [if_pos (by rw [hinfos, Function.update_self]), hn]
      exact ⟨rfl, rfl, rfl, rfl⟩
    · rw [if_neg hready] at hinfos
      right
      refine ⟨hworld'.trans hinfos, ?_⟩
      unfold Helper.batchRawAdd
      dsimp only
      rw [if_neg (by rw [hinfos, Function.update_self]; exact Option.some_ne_none n), hn]
      exact ⟨(Function.update_eq_self_iff.mpr hnone.symm).symm, rfl, rfl, rfl⟩

/-- What a call keeps when the processing of its batch goes on. -/
structure Keeps (c : ι) (p p' : Option (Process ι)) : Prop where
  runs : ∀ q, p = some q → q.runner = .call c → active p →
    active p' ∧ ∃ q', p' = some q' ∧ q'.runner = .call c
  result : ∀ ret, resultOf p = some ret → resultOf p' = some ret
  notified : notifiedOf p' c = notifiedOf p c

lemma Keeps.refl (c : ι) (p : Option (Process ι)) : Keeps c p p :=
  ⟨fun q hq hrun hact => ⟨hact, q, hq, hrun⟩, fun _ h => h, rfl⟩

lemma keeps_start (c : ι) (runner : Runner ι) : Keeps c none (some ⟨runner, .rawAdd⟩) :=
  ⟨fun _ hq => (nomatch hq), fun _ h => (nomatch h), rfl⟩

lemma RawCallOk.keeps {s' : Helper ι} {c : ι} {call : RawCall} (h : RawCallOk s c call)
    (hn : s'.notifiers c = s.notifiers c)
    (hpipe : ∀ k, s.notifiers c = some k → s'.pipes k = s.pipes k)
    (hk : Keeps c (s.processes call.batch) (s'.processes call.batch)) : RawCallOk s' c call := by
  unfold RawCallOk at h ⊢
  rw [hn]
  cases hphase : call.phase with
  | process =>
    rw [hphase] at h
    obtain ⟨hnone, hact, q, hq, hrun⟩ := h
    exact ⟨hnone, hk.runs q hq hrun hact⟩
  | wait =>
    rw [hphase] at h
    obtain ⟨k, hown, hk'⟩ := h
    exact ⟨k, hown, by rw [hpipe k hown, hk', hk.notified]⟩
  | put ret =>
    rw [hphase] at h
    obtain ⟨k, hown, hnil, hnot⟩ := h
    exact ⟨k, hown, by rw [hpipe k hown, hnil], by rw [hk.notified, hnot]⟩
  | done ret =>
    rw [hphase] at h
    exact ⟨h.1, hk.result ret h.2⟩

lemma Placed.join (h : Placed s) {s' : Helper ι} {c : ι} {req : AddRequest} {n : ℕ}
    (hj : Joins s s' c req n) (hc : s.calls c = none) : Placed s' := by
  -- in both cases the call is new, and the batch is processed exactly when it leaves the map
  obtain ⟨phase, info, p, hcalls, hinfos, hprocesses, hinfo, hp⟩ : ∃ phase info p,
      s'.calls = Function.update s.calls c (some ⟨req, n, phase⟩) ∧
      s'.batchInfos = Function.update s.batchInfos (keyOf req) info ∧
      s'.processes = Function.update s.processes n p ∧
      (∀ m, info = some m → m = n ∧ p = none) ∧ (p = none → info = some n) := by
    rcases hj.cases with ⟨hinfos, hprocesses, hcalls, _⟩ | ⟨hinfos, hprocesses, hcalls, _⟩
    · exact ⟨_, _, _, hcalls, hinfos, hprocesses, fun m hm => (nomatch hm), fun hp => (nomatch hp)⟩
    · exact ⟨_, _, _, hcalls, hinfos, hprocesses,
        fun m hm => ⟨(Option.some.inj hm).symm, rfl⟩, fun _ => rfl⟩
  have hmem : ∀ m t, t ∈ s'.tasks m ↔ t ∈ s.tasks m ∨ m = n ∧ t = (c, req) := by
    intro m t
    rw [hj.tasks]
    by_cases hm : m = n
    · rw [hm, Function.update_self, List.mem_append, List.mem_singleton, and_iff_right rfl]
    · rw [Function.update_of_ne hm, or_iff_left (fun h => hm h.1)]
  have hne : ∀ m, s'.tasks m ≠ [] ↔ s.tasks m ≠ [] ∨ m = n := by
    intro m
    rw [hj.tasks]
    by_cases hm : m = n
    · rw [hm, Function.update_self]
      exact iff_of_true (List.append_ne_nil_of_right_ne_nil _ (List.cons_ne_nil _ _)) (.inr rfl)
    · rw [Function.update_of_ne hm, or_iff_left hm]
  have hold : ∀ m, ∀ t ∈ s.tasks m, t.1 ≠ c := by
    rintro m t ht rfl
    obtain ⟨call, hcall, _⟩ := h.call m t ht
    rw [hc] at hcall
    cases hcall
  constructor
  · intro c' call hc'
    rw [hcalls] at hc'
    by_cases heq : c' = c
    · rw [heq, Function.update_self] at hc'
      cases hc'
      rw [heq]
      exact (hmem n _).mpr (.inr ⟨rfl, rfl⟩)
    · rw [Function.update_of_ne heq] at hc'
      exact (hmem _ _).mpr (.inl (h.task c' call hc'))
  · intro m t ht
    rw [hcalls]
    rcases (hmem m t).mp ht with ht | ⟨rfl, rfl⟩
    · rw [Function.update_of_ne (hold m t ht)]
      exact h.call m t ht
    · rw [Function.update_self]
      exact ⟨_, rfl, rfl, rfl⟩
  · intro m
    rw [hj.tasks]
    by_cases hm : m = n
    · rw [hm, Function.update_self, List.map_append]
      refine List.nodup_append.mpr ⟨h.nodup n, List.nodup_singleton _, fun a ha b hb => ?_⟩
      obtain ⟨t, ht, rfl⟩ := List.mem_map.mp ha
      rw [List.map_singleton, List.mem_singleton] at hb
      rw [hb]
      exact hold n t ht
    · rw [Function.update_of_ne hm]
      exact h.nodup m
  · intro m hm
    exact (hne m).mpr ((hj.length m hm).imp_left (h.nonempty m))
  · intro m t ht t' ht'
    rcases (hmem m t).mp ht with ht | ⟨rfl, rfl⟩
    · rcases (hmem m t').mp ht' with ht' | ⟨rfl, rfl⟩
      · exact h.key m t ht t' ht'
      · exact hj.sameKey t ht
    · rcases (hmem _ t').mp ht' with ht' | ⟨_, rfl⟩
      · exact (hj.sameKey t' ht').symm
      · rfl
  · intro key m hkey
    rw [hinfos] at hkey
    rw [hprocesses, hne m]
    by_cases heq : key = keyOf req
    · rw [heq, Function.update_self] at hkey
      obtain ⟨rfl, rfl⟩ := hinfo m hkey
      refine ⟨Function.update_self .., .inr rfl, fun t ht => ?_⟩
      rcases (hmem m t).mp ht with ht | ⟨_, rfl⟩
      · rw [heq]
        exact hj.sameKey t ht
      · exact heq.symm
    · rw [Function.update_of_ne heq] at hkey
      have hm : m ≠ n := by
        rintro rfl
        exact heq (hj.infoKey key hkey)
      obtain ⟨hnone, hne', hsame⟩ := h.infos key m hkey
      refine ⟨?_, .inl hne', fun t ht => ?_⟩
      · rw [Function.update_of_ne hm]
        exact hnone
      · rcases (hmem m t).mp ht with ht | ⟨hmn, _⟩
        · exact hsame t ht
        · exact absurd hmn hm
  · intro m hm hnone
    rw [hprocesses] at hnone
    by_cases heq : m = n
    · rw [heq, Function.update_self] at hnone
      refine ⟨keyOf req, ?_⟩
      rw [hinfos, Function.update_self, heq]
      exact hp hnone
    · rw [Function.update_of_ne heq] at hnone
      obtain ⟨key, hkey⟩ := h.collects m (((hne m).mp hm).resolve_right heq) hnone
      refine ⟨key, ?_⟩
      rw [hinfos]
      have hk : key ≠ keyOf req := by
        rintro rfl
        exact heq (hj.infoBatch m hkey)
      rw [Function.update_of_ne hk]
      exact hkey
  · intro m hm
    rw [hprocesses] at hm
    by_cases heq : m = n
    · exact (hne m).mpr (.inr heq)
    · rw [Function.update_of_ne heq] at hm
      exact (hne m).mpr (.inl (h.process m hm))

/-- **A new call.** -/
lemma BatchInv.join (h : BatchInv s) {s' : Helper ι} {c : ι} {req : AddRequest} {n : ℕ}
    (hj : Joins s s' c req n) (hc : s.calls c = none) : BatchInv s' := by
  have hsent : ∀ o ∈ s.sent, o.batch ≠ n := by
    rintro o ho rfl
    have hres := (h.results.sent o ho).2.2
    rw [hj.unprocessed] at hres
    cases hres
  have hprocesses : ∀ m, m ≠ n → s'.processes m = s.processes m := by
    intro m hm
    rcases hj.cases with ⟨_, hp, _⟩ | ⟨_, hp, _⟩
    · rw [hp, Function.update_of_ne hm]
    · rw [hp, Function.update_of_ne hm]
  have hstart : s'.processes n = none ∨ s'.processes n = some ⟨.call c, .rawAdd⟩ := by
    rcases hj.cases with ⟨_, hp, _⟩ | ⟨_, hp, _⟩
    · exact .inr (by rw [hp, Function.update_self])
    · exact .inl (by rw [hp, Function.update_self])
  have hresult : ∀ m, resultOf (s'.processes m) = resultOf (s.processes m) := by
    intro m
    by_cases hm : m = n
    · rw [hm, hj.unprocessed]
      rcases hstart with hp | hp
      · rw [hp]
      · rw [hp]
        rfl
    · rw [hprocesses m hm]
  have hkeeps : ∀ c' m, Keeps c' (s.processes m) (s'.processes m) := by
    intro c' m
    by_cases hm : m = n
    · rw [hm, hj.unprocessed]
      rcases hstart with hp | hp
      · rw [hp]
        exact Keeps.refl c' none
      · rw [hp]
        exact keeps_start c' _
    · rw [hprocesses m hm]
      exact Keeps.refl c' _
  have hown := h.waiting.fresh c hc
  have hnew : RawCallOk s' c ⟨req, n, .process⟩ ∧ s'.calls c = some ⟨req, n, .process⟩ ∨
      RawCallOk s' c ⟨req, n, .wait⟩ ∧ s'.calls c = some ⟨req, n, .wait⟩ := by
    rcases hj.cases with ⟨_, hp, hcalls, hn, _⟩ | ⟨_, hp, hcalls, hn, _⟩
    · left
      have hself : s'.processes n = some ⟨.call c, .rawAdd⟩ := by rw [hp, Function.update_self]
      refine ⟨⟨by rw [hn, hown], ?_, _, hself, rfl⟩, by rw [hcalls, Function.update_self]⟩
      show active (s'.processes n)
      rw [hself]
      trivial
    · right
      refine ⟨⟨s.pool.get.1, by rw [hn, Function.update_self], ?_⟩,
        by rw [hcalls, Function.update_self]⟩
      show s'.pipes s.pool.get.1 = notifiedOf (s'.processes n) c
      rw [hj.pipes, h.waiting.empty _ h.waiting.owned.get_ne, hp, Function.update_self]
      rfl
  refine ⟨h.placed.join hj hc, ⟨fun o ho => ?_, ?_, fun m ret hm => ?_⟩,
    ⟨?_, fun c' hc' => ?_, fun c' call hc' => ?_, fun k hk => ?_, fun m c' p hm hact => ?_,
      fun m runner ret rest hm => ?_⟩⟩
  · rw [hj.sent] at ho
    rw [hj.tasks, Function.update_of_ne (hsent o ho), hresult]
    exact h.results.sent o ho
  · rw [hj.sent]
    exact h.results.nodup
  · rw [hresult] at hm
    rw [hj.sent]
    exact h.results.result m ret hm
  · rcases hj.cases with ⟨_, _, _, hn, hpool⟩ | ⟨_, _, _, hn, hpool⟩
    · rw [hn, hpool]
      exact h.waiting.owned
    · rw [hn, hpool]
      exact h.waiting.owned.get c
  · rcases hj.cases with ⟨_, _, hcalls, hn, _⟩ | ⟨_, _, hcalls, hn, _⟩
    · rw [hcalls] at hc'
      rw [hn]
      by_cases heq : c' = c
      · rw [heq, hown]
      · rw [Function.update_of_ne heq] at hc'
        exact h.waiting.fresh c' hc'
    · rw [hcalls] at hc'
      by_cases heq : c' = c
      · rw [heq, Function.update_self] at hc'
        cases hc'
      · rw [Function.update_of_ne heq] at hc'
        rw [hn, Function.update_of_ne heq]
        exact h.waiting.fresh c' hc'
  · by_cases heq : c' = c
    · rw [heq] at hc' ⊢
      rcases hnew with ⟨hok, hcall⟩ | ⟨hok, hcall⟩
      · rw [hcall] at hc'
        cases hc'
        exact hok
      · rw [hcall] at hc'
        cases hc'
        exact hok
    · have hold : s.calls c' = some call ∧ s'.notifiers c' = s.notifiers c' := by
        rcases hj.cases with ⟨_, _, hcalls, hn, _⟩ | ⟨_, _, hcalls, hn, _⟩
        · rw [hcalls, Function.update_of_ne heq] at hc'
          exact ⟨hc', by rw [hn]⟩
        · rw [hcalls, Function.update_of_ne heq] at hc'
          exact ⟨hc', by rw [hn, Function.update_of_ne heq]⟩
      exact (h.waiting.calls c' call hold.1).keeps hold.2 (fun k _ => by rw [hj.pipes])
        (hkeeps c' _)
  · rw [hj.pipes]
    apply h.waiting.empty k
    intro c' hc'
    apply hk c'
    rcases hj.cases with ⟨_, _, _, hn, _⟩ | ⟨_, _, _, hn, _⟩
    · rw [hn]
      exact hc'
    · rw [hn, Function.update_of_ne]
      · exact hc'
      · rintro rfl
        rw [hown] at hc'
        cases hc'
  · by_cases hmn : m = n
    · subst hmn
      rcases hstart with hp | hp
      · rw [hp] at hm
        cases hm
      · rw [hp] at hm
        cases hm
        rcases hnew with ⟨_, hcall⟩ | ⟨⟨_, hk, _⟩, hcall⟩
        · exact ⟨_, hcall, rfl, rfl⟩
        · exfalso
          rcases hj.cases with ⟨_, _, hcalls, _⟩ | ⟨_, hp', _⟩
          · rw [hcalls, Function.update_self] at hcall
            cases hcall
          · rw [hp', Function.update_self] at hp
            cases hp
    · rw [hprocesses m hmn] at hm hact
      obtain ⟨call, hcall, hrest⟩ := h.waiting.runner m c' p hm hact
      refine ⟨call, ?_, hrest⟩
      have hne : c' ≠ c := by
        rintro rfl
        rw [hc] at hcall
        cases hcall
      rcases hj.cases with ⟨_, _, hcalls, _⟩ | ⟨_, _, hcalls, _⟩
      · rw [hcalls, Function.update_of_ne hne, hcall]
      · rw [hcalls, Function.update_of_ne hne, hcall]
  · have hmn : m ≠ n := by
      rintro rfl
      rcases hstart with hp | hp
      · rw [hp] at hm
        cases hm
      · rw [hp] at hm
        cases hm
    rw [hprocesses m hmn] at hm
    rw [hj.tasks, Function.update_of_ne hmn]
    exact h.waiting.rest m runner ret rest hm

/-! ## Processing -/

/-- What does not touch the batches keeps the tasks in place. -/
lemma Placed.of_same (h : Placed s) {s' : Helper ι} (hbatches : s'.batches = s.batches)
    (hinfos : s'.batchInfos = s.batchInfos)
    (hproc : ∀ n, s'.processes n = none ↔ s.processes n = none)
    (hcalls : ∀ c, (s'.calls c).map (fun call => (call.batch, call.req)) =
      (s.calls c).map fun call => (call.batch, call.req)) : Placed s' := by
  have htasks : s'.tasks = s.tasks := by
    funext n
    unfold Helper.tasks
    rw [hbatches]
  constructor
  · intro c call hc
    have hmap := hcalls c
    rw [hc, Option.map_some] at hmap
    obtain ⟨call', hc', heq⟩ := Option.map_eq_some_iff.mp hmap.symm
    have htask := h.task c call' hc'
    have hbatch : call'.batch = call.batch := congrArg Prod.fst heq
    have hreq : call'.req = call.req := congrArg Prod.snd heq
    rw [htasks, ← hbatch, ← hreq]
    exact htask
  · intro n t ht
    rw [htasks] at ht
    obtain ⟨call, hc, hbatch, hreq⟩ := h.call n t ht
    have hmap := hcalls t.1
    rw [hc, Option.map_some] at hmap
    obtain ⟨call', hc', heq⟩ := Option.map_eq_some_iff.mp hmap
    have hbatch' : call'.batch = call.batch := congrArg Prod.fst heq
    have hreq' : call'.req = call.req := congrArg Prod.snd heq
    exact ⟨call', hc', hbatch'.trans hbatch, hreq'.trans hreq⟩
  · rw [htasks]
    exact h.nodup
  · rw [htasks, hbatches]
    exact h.nonempty
  · rw [htasks]
    exact h.key
  · intro key n hkey
    rw [hinfos] at hkey
    rw [htasks, hproc]
    exact h.infos key n hkey
  · intro n hn hnone
    rw [htasks] at hn
    rw [hinfos]
    exact h.collects n hn ((hproc n).mp hnone)
  · intro n hn
    rw [htasks]
    exact h.process n fun hnone => hn ((hproc n).mpr hnone)

lemma map_setCall {c : ι} {call : RawCall} (hc : s.calls c = some call) (phase : RawPhase) (c' : ι) :
    (Function.update s.calls c (some { call with phase := phase }) c').map
        (fun call => (call.batch, call.req)) =
      (s.calls c').map fun call => (call.batch, call.req) := by
  by_cases heq : c' = c
  · rw [heq, Function.update_self, hc]
    rfl
  · rw [Function.update_of_ne heq]

lemma setProcess_eq_none {n : ℕ} {p q : Process ι} (hp : s.processes n = some p) (m : ℕ) :
    Function.update s.processes n (some q) m = none ↔ s.processes m = none := by
  by_cases heq : m = n
  · rw [heq, Function.update_self, hp]
    exact iff_of_false (fun h => nomatch h) (fun h => nomatch h)
  · rw [Function.update_of_ne heq]

lemma tasks_dispatchTo {key : ℤ × ℤ × ℤ} {n : ℕ} {b : BatchTask ι} (hb : s.batches[n]? = some b)
    (vtid : ℤ) : (s.dispatchTo key n b vtid).tasks = s.tasks := by
  funext m
  show (match (s.batches.set n { b with status := .taken })[m]? with
    | none => []
    | some b => b.tasks) = s.tasks m
  by_cases hm : m = n
  · rw [hm, List.getElem?_set_self (List.getElem?_eq_some_iff.mp hb).1, tasks_eq hb]
  · rw [List.getElem?_set_ne (Ne.symm hm)]
    rfl

/-- **A batch is dispatched.** -/
lemma BatchInv.dispatchTo (h : BatchInv s) {key : ℤ × ℤ × ℤ} {n : ℕ} {b : BatchTask ι}
    (hkey : s.batchInfos key = some n) (hb : s.batches[n]? = some b) (vtid : ℤ) :
    BatchInv (s.dispatchTo key n b vtid) := by
  have htasks : (s.dispatchTo key n b vtid).tasks = s.tasks := tasks_dispatchTo hb vtid
  obtain ⟨hnone, hne, _⟩ := h.placed.infos key n hkey
  have hprocesses : ∀ m, m ≠ n → (s.dispatchTo key n b vtid).processes m = s.processes m :=
    fun m hm => Function.update_of_ne hm ..
  have hself : (s.dispatchTo key n b vtid).processes n = some ⟨.routine vtid, .rawAdd⟩ :=
    Function.update_self ..
  have hinfos : ∀ key', key' ≠ key →
      (s.dispatchTo key n b vtid).batchInfos key' = s.batchInfos key' :=
    fun key' hk => Function.update_of_ne hk ..
  have hkeyNone : (s.dispatchTo key n b vtid).batchInfos key = none := Function.update_self ..
  have hresult : ∀ m, resultOf ((s.dispatchTo key n b vtid).processes m) =
      resultOf (s.processes m) := by
    intro m
    by_cases hm : m = n
    · rw [hm, hself, hnone]
      rfl
    · rw [hprocesses m hm]
  refine ⟨⟨?_, ?_, ?_, ?_, ?_, fun key' m hk => ?_, fun m hm hp => ?_, fun m hm => ?_⟩,
    ⟨fun o ho => ?_, h.results.nodup, fun m ret hm => ?_⟩,
    ⟨h.waiting.owned, h.waiting.fresh, fun c call hc => ?_, h.waiting.empty,
      fun m c p hm hact => ?_, fun m runner ret rest hm => ?_⟩⟩
  · rw [htasks]
    exact h.placed.task
  · rw [htasks]
    exact h.placed.call
  · rw [htasks]
    exact h.placed.nodup
  · rw [htasks]
    intro m hm
    apply h.placed.nonempty
    have hlen : (s.dispatchTo key n b vtid).batches.length = s.batches.length := List.length_set
    rw [← hlen]
    exact hm
  · rw [htasks]
    exact h.placed.key
  · have hk' : key' ≠ key := by
      rintro rfl
      rw [hkeyNone] at hk
      cases hk
    rw [hinfos key' hk'] at hk
    have hm : m ≠ n := by
      rintro rfl
      obtain ⟨_, hne', hsame⟩ := h.placed.infos key' m hk
      obtain ⟨t, ht⟩ := List.exists_mem_of_ne_nil _ hne'
      exact hk' ((hsame t ht).symm.trans ((h.placed.infos key m hkey).2.2 t ht))
    rw [hprocesses m hm, htasks]
    exact h.placed.infos key' m hk
  · have hmn : m ≠ n := by
      rintro rfl
      rw [hself] at hp
      cases hp
    rw [htasks] at hm
    rw [hprocesses m hmn] at hp
    obtain ⟨key', hk⟩ := h.placed.collects m hm hp
    refine ⟨key', ?_⟩
    rw [hinfos key']
    · exact hk
    · rintro rfl
      rw [hkey] at hk
      exact hmn (Option.some.inj hk).symm
  · rw [htasks]
    by_cases hmn : m = n
    · rw [hmn]
      exact hne
    · rw [hprocesses m hmn] at hm
      exact h.placed.process m hm
  · rw [htasks, hresult]
    exact h.results.sent o ho
  · rw [hresult] at hm
    exact h.results.result m ret hm
  · refine (h.waiting.calls c call hc).keeps rfl (fun _ _ => rfl) ?_
    by_cases hm : call.batch = n
    · rw [hm, hself, hnone]
      exact keeps_start c _
    · rw [hprocesses _ hm]
      exact Keeps.refl c _
  · have hmn : m ≠ n := by
      rintro rfl
      rw [hself] at hm
      cases hm
    rw [hprocesses m hmn] at hm hact
    exact h.waiting.runner m c p hm hact
  · have hmn : m ≠ n := by
      rintro rfl
      rw [hself] at hm
      cases hm
    rw [hprocesses m hmn] at hm
    rw [htasks]
    exact h.waiting.rest m runner ret rest hm

lemma BatchInv.mem_tasks (h : BatchInv s) {c : ι} {call : RawCall} (hc : s.calls c = some call) :
    c ∈ (s.tasks call.batch).map Prod.fst :=
  List.mem_map.mpr ⟨_, h.placed.task c call hc, rfl⟩

/-- **`RawAdd` returns.** -/
lemma BatchInv.rawAdd (h : BatchInv s) {n : ℕ} {runner : Runner ι} {b : BatchTask ι}
    (hp : s.processes n = some ⟨runner, .rawAdd⟩) (hb : s.batches[n]? = some b) (ret : RetCode) :
    BatchInv ({ s with
      sent := s.sent ++ [(⟨n, b.tasks.map Prod.fst, batchReq b.tasks, ret⟩ : Sent ι)] }.setProcess
        n ⟨runner, .notify ret (b.tasks.map Prod.fst)⟩) := by
  have htask := tasks_eq hb
  have hself : ∀ q : Process ι, Function.update s.processes n (some q) n = some q :=
    fun q => Function.update_self ..
  have hother : ∀ (q : Process ι) m, m ≠ n →
      Function.update s.processes n (some q) m = s.processes m :=
    fun q m hm => Function.update_of_ne hm ..
  have hnew : ∀ o ∈ s.sent, o.batch ≠ n := by
    rintro o ho rfl
    have hres := (h.results.sent o ho).2.2
    rw [hp] at hres
    cases hres
  refine ⟨h.placed.of_same rfl rfl (setProcess_eq_none hp) fun _ => rfl,
    ⟨fun o ho => ?_, ?_, fun m ret' hm => ?_⟩,
    ⟨h.waiting.owned, h.waiting.fresh, fun c call hc => ?_, h.waiting.empty,
      fun m c p hm hact => ?_, fun m runner' ret' rest hm => ?_⟩⟩
  · show o.callers = (s.tasks o.batch).map Prod.fst ∧ o.req = batchReq (s.tasks o.batch) ∧
      resultOf (Function.update s.processes n _ o.batch) = some o.ret
    rcases List.mem_append.mp ho with ho | ho
    · rw [hother _ _ (hnew o ho)]
      exact h.results.sent o ho
    · rw [List.mem_singleton.mp ho, htask, hself]
      exact ⟨rfl, rfl, rfl⟩
  · show ((s.sent ++ [_]).map Sent.batch).Nodup
    rw [List.map_append]
    refine List.nodup_append.mpr ⟨h.results.nodup, List.nodup_singleton _, fun a ha m hm => ?_⟩
    obtain ⟨o, ho, rfl⟩ := List.mem_map.mp ha
    rw [List.map_singleton, List.mem_singleton] at hm
    rw [hm]
    exact hnew o ho
  · have hm : resultOf (Function.update s.processes n _ m) = some ret' := hm
    by_cases hmn : m = n
    · exact ⟨_, List.mem_append_right _ List.mem_cons_self, hmn.symm⟩
    · rw [hother _ m hmn] at hm
      obtain ⟨o, ho, hbatch⟩ := h.results.result m ret' hm
      exact ⟨o, List.mem_append_left _ ho, hbatch⟩
  · refine (h.waiting.calls c call hc).keeps rfl (fun _ _ => rfl) ?_
    show Keeps c (s.processes call.batch) (Function.update s.processes n _ call.batch)
    by_cases hm : call.batch = n
    · -- everybody is still to be notified
      have hmem := h.mem_tasks hc
      rw [hm, htask] at hmem
      rw [hm, hself, hp]
      refine ⟨fun q hq hrun _ => ⟨trivial, _, rfl, ?_⟩, fun _ hres => (nomatch hres), if_pos hmem⟩
      cases hq
      exact hrun
    · rw [hother _ _ hm]
      exact Keeps.refl c _
  · have hm : Function.update s.processes n _ m = some ⟨.call c, p⟩ := hm
    have hact : active (Function.update s.processes n _ m) := hact
    by_cases hmn : m = n
    · rw [hmn, hself] at hm
      cases hm
      rw [hmn]
      refine h.waiting.runner n c _ hp ?_
      rw [hp]
      trivial
    · rw [hother _ m hmn] at hm hact
      exact h.waiting.runner m c p hm hact
  · have hm : Function.update s.processes n _ m = some ⟨runner', .notify ret' rest⟩ := hm
    show rest <:+ (s.tasks m).map Prod.fst
    by_cases hmn : m = n
    · rw [hmn, hself] at hm
      cases hm
      rw [hmn, htask]
    · rw [hother _ m hmn] at hm
      exact h.waiting.rest m runner' ret' rest hm

/-- The next task is notified; `pipes` are the pipes after it. -/
lemma BatchInv.notify (h : BatchInv s) {n : ℕ} {runner : Runner ι} {ret : RetCode} {c₀ : ι}
    {rest : List ι} (hp : s.processes n = some ⟨runner, .notify ret (c₀ :: rest)⟩)
    {pipes : ℕ → List RetCode}
    (hpipe : ∀ k, s.notifiers c₀ = some k → pipes k = s.pipes k ++ [ret])
    (hsame : ∀ k, s.notifiers c₀ ≠ some k → pipes k = s.pipes k) :
    BatchInv ({ s with pipes := pipes }.setProcess n ⟨runner, .notify ret rest⟩) := by
  have hself : Function.update s.processes n (some ⟨runner, .notify ret rest⟩) n =
      some ⟨runner, .notify ret rest⟩ := Function.update_self ..
  have hother : ∀ m, m ≠ n →
      Function.update s.processes n (some ⟨runner, .notify ret rest⟩) m = s.processes m :=
    fun m hm => Function.update_of_ne hm ..
  have hresult : ∀ m, resultOf
      (Function.update s.processes n (some ⟨runner, .notify ret rest⟩) m) =
      resultOf (s.processes m) := by
    intro m
    by_cases hm : m = n
    · rw [hm, hself, hp]
      rfl
    · rw [hother m hm]
  have hsuffix := h.waiting.rest n runner ret (c₀ :: rest) hp
  have hnodup : c₀ ∉ rest := by
    obtain ⟨before, hbefore⟩ := hsuffix
    have hall := h.placed.nodup n
    rw [← hbefore] at hall
    exact (List.nodup_cons.mp (List.nodup_append.mp hall).2.1).1
  -- the call that is notified is in the batch
  have hmem : c₀ ∈ (s.tasks n).map Prod.fst := hsuffix.subset List.mem_cons_self
  refine ⟨h.placed.of_same rfl rfl (setProcess_eq_none hp) fun _ => rfl,
    ⟨fun o ho => ?_, h.results.nodup, fun m ret' hm => ?_⟩,
    ⟨h.waiting.owned, h.waiting.fresh, fun c call hc => ?_, fun k hk => ?_,
      fun m c p hm hact => ?_, fun m runner' ret' rest' hm => ?_⟩⟩
  · show o.callers = (s.tasks o.batch).map Prod.fst ∧ o.req = batchReq (s.tasks o.batch) ∧
      resultOf (Function.update s.processes n _ o.batch) = some o.ret
    rw [hresult]
    exact h.results.sent o ho
  · have hm : resultOf (Function.update s.processes n _ m) = some ret' := hm
    rw [hresult] at hm
    exact h.results.result m ret' hm
  · have hok := h.waiting.calls c call hc
    by_cases heq : c = c₀
    · -- the pipe of the call was empty, and now holds the result
      subst heq
      have hbatch : call.batch = n := h.placed.unique (h.mem_tasks hc) hmem
      have hnot : notifiedOf (s.processes call.batch) c = [] := by
        rw [hbatch, hp]
        exact if_pos List.mem_cons_self
      unfold RawCallOk at hok ⊢
      show match call.phase with
        | .process => s.notifiers c = none ∧ active (Function.update s.processes n _ call.batch) ∧
            ∃ p, Function.update s.processes n _ call.batch = some p ∧ p.runner = .call c
        | .wait => ∃ k, s.notifiers c = some k ∧
            pipes k = notifiedOf (Function.update s.processes n _ call.batch) c
        | .put ret' => ∃ k, s.notifiers c = some k ∧ pipes k = [] ∧
            notifiedOf (Function.update s.processes n _ call.batch) c = [ret']
        | .done ret' => s.notifiers c = none ∧
            resultOf (Function.update s.processes n _ call.batch) = some ret'
      rw [hresult]
      cases hphase : call.phase with
      | process =>
        rw [hphase] at hok
        obtain ⟨hnone, _, q, hq, hrun⟩ := hok
        rw [hbatch, hp] at hq
        cases hq
        rw [hbatch, hself]
        exact ⟨hnone, trivial, _, rfl, hrun⟩
      | wait =>
        rw [hphase] at hok
        obtain ⟨k, hk, hempty⟩ := hok
        rw [hnot] at hempty
        refine ⟨k, hk, ?_⟩
        rw [hpipe k hk, hempty, hbatch, hself]
        exact (if_neg hnodup).symm
      | put ret' =>
        rw [hphase] at hok
        obtain ⟨k, _, _, hnot'⟩ := hok
        rw [hnot] at hnot'
        cases hnot'
      | done ret' =>
        rw [hphase] at hok
        exact hok
    · refine hok.keeps rfl (fun k hk => hsame k fun hk' => ?_) ?_
      · exact heq (h.waiting.owned.inj c c₀ k hk hk')
      · show Keeps c (s.processes call.batch) (Function.update s.processes n _ call.batch)
        by_cases hm : call.batch = n
        · rw [hm, hself, hp]
          refine ⟨fun q hq hrun _ => ⟨trivial, _, rfl, ?_⟩, fun _ hres => hres, ?_⟩
          · cases hq
            exact hrun
          · show (if c ∈ rest then _ else _) = if c ∈ c₀ :: rest then _ else _
            by_cases hin : c ∈ rest
            · rw [if_pos hin, if_pos (List.mem_cons_of_mem _ hin)]
            · rw [if_neg hin, if_neg fun hmem => (List.mem_cons.mp hmem).elim heq hin]
        · rw [hother _ hm]
          exact Keeps.refl c _
  · have hk' := hsame k (hk c₀)
    exact hk'.trans (h.waiting.empty k hk)
  · have hm : Function.update s.processes n _ m = some ⟨.call c, p⟩ := hm
    have hact : active (Function.update s.processes n _ m) := hact
    by_cases hmn : m = n
    · rw [hmn, hself] at hm
      cases hm
      rw [hmn]
      refine h.waiting.runner n c _ hp ?_
      rw [hp]
      trivial
    · rw [hother m hmn] at hm hact
      exact h.waiting.runner m c p hm hact
  · have hm : Function.update s.processes n _ m = some ⟨runner', .notify ret' rest'⟩ := hm
    show rest' <:+ (s.tasks m).map Prod.fst
    by_cases hmn : m = n
    · rw [hmn, hself] at hm
      cases hm
      rw [hmn]
      exact (List.suffix_cons c₀ rest).trans hsuffix
    · rw [hother m hmn] at hm
      exact h.waiting.rest m runner' ret' rest' hm

/-- What `Process` leaves when it returns, but for who has run it. -/
lemma BatchInv.ended (h : BatchInv s) {n : ℕ} {runner : Runner ι} {ret : RetCode}
    (hp : s.processes n = some ⟨runner, .notify ret []⟩) {calls : ι → Option RawCall}
    {idle : ℤ → ℕ}
    (hcalls : ∀ c, (calls c).map (fun call => (call.batch, call.req)) =
      (s.calls c).map fun call => (call.batch, call.req))
    (hother : ∀ c, runner ≠ .call c → calls c = s.calls c)
    (hrunner : ∀ c call, runner = .call c → calls c = some call →
      RawCallOk ({ s with calls := calls }.setProcess n ⟨runner, .ended ret⟩) c call) :
    BatchInv ({ s with calls := calls, idle := idle }.setProcess n ⟨runner, .ended ret⟩) := by
  have hself : Function.update s.processes n (some ⟨runner, .ended ret⟩) n =
      some ⟨runner, .ended ret⟩ := Function.update_self ..
  have hne : ∀ m, m ≠ n →
      Function.update s.processes n (some ⟨runner, .ended ret⟩) m = s.processes m :=
    fun m hm => Function.update_of_ne hm ..
  have hresult : ∀ m, resultOf (Function.update s.processes n (some ⟨runner, .ended ret⟩) m) =
      resultOf (s.processes m) := by
    intro m
    by_cases hm : m = n
    · rw [hm, hself, hp]
      rfl
    · rw [hne m hm]
  refine ⟨h.placed.of_same rfl rfl (setProcess_eq_none hp) hcalls,
    ⟨fun o ho => ?_, h.results.nodup, fun m ret' hm => ?_⟩,
    ⟨h.waiting.owned, fun c hc => ?_, fun c call hc => ?_, h.waiting.empty,
      fun m c p hm hact => ?_, fun m runner' ret' rest' hm => ?_⟩⟩
  · show o.callers = (s.tasks o.batch).map Prod.fst ∧ o.req = batchReq (s.tasks o.batch) ∧
      resultOf (Function.update s.processes n _ o.batch) = some o.ret
    rw [hresult]
    exact h.results.sent o ho
  · have hm : resultOf (Function.update s.processes n _ m) = some ret' := hm
    rw [hresult] at hm
    exact h.results.result m ret' hm
  · have hc : calls c = none := hc
    have hmap := hcalls c
    rw [hc, Option.map_none] at hmap
    exact h.waiting.fresh c (Option.map_eq_none_iff.mp hmap.symm)
  · have hc : calls c = some call := hc
    by_cases hrun : runner = .call c
    · exact hrunner c call hrun hc
    · rw [hother c hrun] at hc
      refine (h.waiting.calls c call hc).keeps rfl (fun _ _ => rfl) ?_
      show Keeps c (s.processes call.batch) (Function.update s.processes n _ call.batch)
      by_cases hm : call.batch = n
      · rw [hm, hself, hp]
        refine ⟨fun q hq hrun' _ => ?_, fun _ hres => hres, ?_⟩
        · cases hq
          exact absurd hrun' hrun
        · show [ret] = if c ∈ ([] : List ι) then [] else [ret]
          exact (if_neg List.not_mem_nil).symm
      · rw [hne _ hm]
        exact Keeps.refl c _
  · have hm : Function.update s.processes n _ m = some ⟨.call c, p⟩ := hm
    have hact : active (Function.update s.processes n _ m) := hact
    have hmn : m ≠ n := by
      rintro rfl
      rw [hself] at hact
      exact hact
    rw [hne m hmn] at hm hact
    obtain ⟨call, hc, hbatch, hphase⟩ := h.waiting.runner m c p hm hact
    refine ⟨call, ?_, hbatch, hphase⟩
    show calls c = some call
    rw [hother c]
    · exact hc
    · -- a call runs no two processes
      rintro rfl
      have hact' : active (s.processes n) := by
        rw [hp]
        trivial
      obtain ⟨call', hc', hbatch', _⟩ := h.waiting.runner n c _ hp hact'
      rw [hc] at hc'
      cases hc'
      exact hmn (hbatch.symm.trans hbatch')
  · have hm : Function.update s.processes n _ m = some ⟨runner', .notify ret' rest'⟩ := hm
    have hmn : m ≠ n := by
      rintro rfl
      rw [hself] at hm
      cases hm
    rw [hne m hmn] at hm
    exact h.waiting.rest m runner' ret' rest' hm

/-- **`Process` returns.** -/
lemma BatchInv.finish (h : BatchInv s) {n : ℕ} {runner : Runner ι} {ret : RetCode}
    (hp : s.processes n = some ⟨runner, .notify ret []⟩) :
    BatchInv ((s.setProcess n ⟨runner, .ended ret⟩).release ret runner) := by
  cases runner with
  | routine vtid =>
    exact @BatchInv.ended ι _ s h n _ ret hp s.calls
      (Function.update s.idle vtid (s.idle vtid + 1)) (fun _ => rfl) (fun _ _ => rfl)
      fun c call hrun => (nomatch hrun)
  | call c =>
    have hact : active (s.processes n) := by
      rw [hp]
      trivial
    obtain ⟨call, hc, hbatch, hphase⟩ := h.waiting.runner n c _ hp hact
    have hrelease : (s.setProcess n ⟨.call c, .ended ret⟩).release ret (.call c) =
        (s.setProcess n ⟨.call c, .ended ret⟩).setCall c { call with phase := .done ret } := by
      unfold Helper.release
      dsimp only [Helper.setProcess]
      rw [hc]
    rw [hrelease]
    refine h.ended hp (map_setCall hc (.done ret)) (fun c' hne => ?_) fun c' call' hrun hc' => ?_
    · exact Function.update_of_ne (fun heq => hne (congrArg Runner.call heq.symm)) ..
    · cases hrun
      have hc' : Function.update s.calls c (some { call with phase := .done ret }) c =
          some call' := hc'
      rw [Function.update_self] at hc'
      cases hc'
      have hok := h.waiting.calls c call hc
      unfold RawCallOk at hok
      rw [hphase] at hok
      refine ⟨hok.1, ?_⟩
      show resultOf (Function.update s.processes n _ call.batch) = some ret
      rw [hbatch, Function.update_self]
      rfl

/-! ## Waiting -/

/-- A call takes a step of its own: it keeps its request and its batch, and does not run `Process`
before or after. -/
lemma BatchInv.ownStep (h : BatchInv s) {c : ι} {call : RawCall} {phase : RawPhase}
    (hc : s.calls c = some call) (hphase : call.phase ≠ .process) {notifiers : ι → Option ℕ}
    {pool : Pool} {pipes : ℕ → List RetCode} (howned : pool.Owned notifiers)
    (hnot : ∀ c', c' ≠ c → notifiers c' = s.notifiers c')
    (hpipe : ∀ k, s.notifiers c ≠ some k → pipes k = s.pipes k)
    (hempty : ∀ k, (∀ c, notifiers c ≠ some k) → pipes k = [])
    (hok : RawCallOk ({ s with notifiers := notifiers, pool := pool, pipes := pipes }.setCall c
      { call with phase := phase }) c { call with phase := phase }) :
    BatchInv ({ s with notifiers := notifiers, pool := pool, pipes := pipes }.setCall c
      { call with phase := phase }) := by
  have hold : ∀ c', c' ≠ c →
      Function.update s.calls c (some { call with phase := phase }) c' = s.calls c' :=
    fun c' hne => Function.update_of_ne hne ..
  refine ⟨h.placed.of_same rfl rfl (fun _ => Iff.rfl) (map_setCall hc phase),
    ⟨h.results.sent, h.results.nodup, h.results.result⟩,
    ⟨howned, fun c' hc' => ?_, fun c' call' hc' => ?_, hempty, fun m c' p hm hact => ?_,
      h.waiting.rest⟩⟩
  · have hc' : Function.update s.calls c (some { call with phase := phase }) c' = none := hc'
    show notifiers c' = none
    have hne : c' ≠ c := by
      rintro rfl
      rw [Function.update_self] at hc'
      cases hc'
    rw [hnot c' hne]
    rw [hold c' hne] at hc'
    exact h.waiting.fresh c' hc'
  · have hc' : Function.update s.calls c (some { call with phase := phase }) c' = some call' := hc'
    by_cases heq : c' = c
    · subst heq
      rw [Function.update_self] at hc'
      cases hc'
      exact hok
    · rw [hold c' heq] at hc'
      refine (h.waiting.calls c' call' hc').keeps (hnot c' heq) (fun k hk => hpipe k fun hk' => ?_)
        (Keeps.refl c' _)
      exact heq (h.waiting.owned.inj c' c k hk hk')
  · obtain ⟨call', hc', hrest⟩ := h.waiting.runner m c' p hm hact
    refine ⟨call', ?_, hrest⟩
    show Function.update s.calls c _ c' = some call'
    rw [hold c']
    · exact hc'
    · rintro rfl
      rw [hc] at hc'
      cases hc'
      exact hphase hrest.2

lemma notifiedOf_length (p : Option (Process ι)) (c : ι) : (notifiedOf p c).length ≤ 1 := by
  unfold notifiedOf
  split
  · split
    · exact Nat.zero_le 1
    · exact le_rfl
  · exact le_rfl
  · exact Nat.zero_le 1

/-- **A call reads its notifier.** -/
lemma BatchInv.wait (h : BatchInv s) {c : ι} {req : AddRequest} {n k : ℕ} {ret : RetCode}
    {rets : List RetCode} (hc : s.calls c = some ⟨req, n, .wait⟩) (hk : s.notifiers c = some k)
    (hpipe : s.pipes k = ret :: rets) :
    BatchInv ({ s with pipes := Function.update s.pipes k rets }.setCall c ⟨req, n, .put ret⟩) := by
  obtain ⟨k', hk', hnot⟩ := h.waiting.calls c _ hc
  rw [hk] at hk'
  cases hk'
  -- nothing else is in the pipe
  have hrets : rets = [] := by
    have hlen := notifiedOf_length (s.processes n) c
    have hnot : s.pipes k = notifiedOf (s.processes n) c := hnot
    rw [← hnot, hpipe] at hlen
    exact List.length_eq_zero_iff.mp (Nat.le_zero.mp (Nat.le_of_succ_le_succ hlen))
  have hother : ∀ k', k' ≠ k → Function.update s.pipes k rets k' = s.pipes k' :=
    fun k' hne => Function.update_of_ne hne ..
  refine @BatchInv.ownStep ι _ s h c _ (.put ret) hc (fun hp => nomatch hp) s.notifiers s.pool
    (Function.update s.pipes k rets) h.waiting.owned (fun _ _ => rfl) (fun k' hne => ?_)
    (fun k' hne => ?_) ⟨k, hk, ?_, ?_⟩
  · exact hother k' fun heq => hne (heq ▸ hk)
  · rw [hother k' fun heq => hne c (heq ▸ hk)]
    exact h.waiting.empty k' hne
  · show Function.update s.pipes k rets k = []
    rw [Function.update_self, hrets]
  · show notifiedOf (s.processes n) c = [ret]
    have hnot : s.pipes k = notifiedOf (s.processes n) c := hnot
    rw [← hnot, hpipe, hrets]

/-- **A call puts its notifier back.** -/
lemma BatchInv.put (h : BatchInv s) {c : ι} {req : AddRequest} {n k : ℕ} {ret : RetCode}
    (hc : s.calls c = some ⟨req, n, .put ret⟩) (hk : s.notifiers c = some k) :
    BatchInv ({ s with
      notifiers := Function.update s.notifiers c none
      pool := s.pool.put k }.setCall c ⟨req, n, .done ret⟩) := by
  obtain ⟨k', hk', hnil, hnot⟩ := h.waiting.calls c _ hc
  rw [hk] at hk'
  cases hk'
  refine @BatchInv.ownStep ι _ s h c _ (.done ret) hc (fun hp => nomatch hp)
    (Function.update s.notifiers c none) (s.pool.put k) s.pipes (h.waiting.owned.put hk)
    (fun c' hne => Function.update_of_ne hne ..) (fun _ _ => rfl) (fun k' hne => ?_) ⟨?_, ?_⟩
  · by_cases heq : k' = k
    · rw [heq]
      exact hnil
    · refine h.waiting.empty k' fun c' hc' => hne c' ?_
      rw [Function.update_of_ne]
      · exact hc'
      · rintro rfl
        rw [hk] at hc'
        exact heq (Option.some.inj hc').symm
  · exact Function.update_self ..
  · show resultOf (s.processes n) = some ret
    refine notifiedOf_result (?_ : ret ∈ notifiedOf (s.processes n) c)
    rw [show notifiedOf (s.processes n) c = [ret] from hnot]
    exact List.mem_cons_self

/-! ## Every step -/

theorem BatchInv.step (h : BatchInv s) (e : BatchEvent ι) :
    BatchInv (s.step reqByteSize ndaemonThread e) := by
  cases e with
  | batchRawAdd c req topic now =>
    dsimp only [Helper.step]
    cases hc : s.calls c with
    | some call => exact h
    | none =>
      obtain ⟨n, hj⟩ := @Placed.joins ι _ s reqByteSize h.placed c req topic now
      exact h.join hj hc
  | dispatch key now =>
    dsimp only [Helper.step]
    split
    · exact h
    rename_i n hkey
    split
    · exact h
    rename_i b hb
    split
    · exact h.dispatchTo hkey hb _
    · exact h
  | rawAdd n ret =>
    dsimp only [Helper.step]
    split
    · rename_i runner b hp hb
      exact h.rawAdd hp hb ret
    · exact h
  | notify n =>
    dsimp only [Helper.step]
    split
    · rename_i runner ret c rest hp
      cases hk : s.notifiers c with
      | none =>
        have hnone : (s.setProcess n ⟨runner, .notify ret rest⟩).notifiers c = none := hk
        rw [hnone]
        refine @BatchInv.notify ι _ s h n runner ret c rest hp s.pipes (fun k hk' => ?_)
          fun _ _ => rfl
        rw [hk] at hk'
        cases hk'
      | some k =>
        have hsome : (s.setProcess n ⟨runner, .notify ret rest⟩).notifiers c = some k := hk
        rw [hsome]
        refine @BatchInv.notify ι _ s h n runner ret c rest hp
          (Function.update s.pipes k (s.pipes k ++ [ret])) (fun k' hk' => ?_) fun k' hk' => ?_
        · rw [hk] at hk'
          cases hk'
          exact Function.update_self ..
        · refine Function.update_of_ne ?_ ..
          rintro rfl
          exact hk' hk
    · exact h
  | finish n =>
    dsimp only [Helper.step]
    split
    · rename_i runner ret hp
      exact h.finish hp
    · exact h
  | wait c =>
    dsimp only [Helper.step]
    split
    · rename_i req n hc
      obtain ⟨k, hk, _⟩ := h.waiting.calls c _ hc
      rw [hk]
      dsimp only
      split
      · exact h
      · rename_i ret rets hpipe
        exact h.wait hc hk hpipe
    · exact h
  | put c =>
    dsimp only [Helper.step]
    split
    · rename_i req n ret hc
      obtain ⟨k, hk, _⟩ := h.waiting.calls c _ hc
      rw [hk]
      exact h.put hc hk
    · exact h

end

end PhxQueue.Producer
