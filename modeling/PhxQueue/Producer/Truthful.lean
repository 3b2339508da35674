import PhxQueue.Producer.Enqueue

/-!
# Acknowledgements of the producer

A call of `Enqueue` that returns `RET_OK` has its item in a request that a store has added, or that
was dropped, however calls are batched and retried; unless the item selects no queue info, when
`MakeAddRequests` leaves it out and there is no request to fail.

* `Inv`, `Inv.step`       the item of a call is accepted or still in one of its requests;
* `truthful_iff`          **truthful exactly when every item selects a queue info**;
* `missingQueueInfo_not_truthful`   an item of a publisher without a queue info.
-/

set_option linter.unusedSectionVars false

namespace PhxQueue.Producer
open Comm Config Lib

section
variable {ι : Type}

/-! ## Requests -/

/-- **`RawAdd` succeeds only if the request is accepted.** -/
lemma rawAdd_ok {topic : Option TopicConfig} {env : CallEnv} {req : AddRequest}
    (h : (rawAdd topic env req).1 = .ok) (callers : List ι) :
    req.items = [] ∨ ∃ fate ∈ (rawAdd topic env req).2, Outcome.Ok ⟨callers, req, fate⟩ := by
  unfold rawAdd at h ⊢
  by_cases hnil : req.items = []
  · exact .inl hnil
  right
  rw [if_neg hnil] at h ⊢
  cases topic with
  | none => cases h
  | some topic =>
    dsimp only at h ⊢
    cases hinfo : topic.getQueueInfoByQueue req.queueId with
    | error ret =>
      rw [hinfo] at h
      have hret : ret ≠ .ok := by
        unfold TopicConfig.getQueueInfoByQueue at hinfo
        split at hinfo
        · cases hinfo
          decide
        split at hinfo <;> cases hinfo
        decide
      exact absurd h hret
    | ok info =>
      rw [hinfo] at h
      dsimp only at h ⊢
      by_cases hdrop : info.dropAll = true
      · rw [if_pos hdrop]
        exact ⟨_, List.mem_cons_self, info, hinfo, hdrop⟩
      · rw [if_neg hdrop] at h ⊢
        dsimp only
        rw [if_pos (clientCall_ok h)]
        exact ⟨_, List.mem_cons_self, trivial⟩

lemma foldl_joinReq_items (tasks : List (ι × AddRequest)) (batch : AddRequest) :
    (tasks.foldl joinReq batch).items = batch.items ++ tasks.flatMap fun t => t.2.items := by
  induction tasks generalizing batch with
  | nil => exact (List.append_nil _).symm
  | cons t tasks ih =>
    have hjoin : (joinReq batch t).items = batch.items ++ t.2.items := by
      unfold joinReq
      by_cases hnil : batch.items = []
      · rw [if_pos hnil, hnil]
        rfl
      · rw [if_neg hnil]
    rw [List.foldl_cons, ih, hjoin, List.append_assoc]
    rfl

/-- A batch is sent with all the items of its tasks. -/
lemma mem_batchReq {tasks : List (ι × AddRequest)} {t : ι × AddRequest} (ht : t ∈ tasks)
    {x : QItem} (hx : x ∈ t.2.items) : x ∈ (batchReq tasks).items := by
  unfold batchReq
  rw [foldl_joinReq_items]
  exact List.mem_append_right _ (List.mem_flatMap.mpr ⟨t, ht, hx⟩)

/-! ## The invariant -/

/-- The requests of a call that are not done. -/
def CallPhase.pending : CallPhase → List AddRequest
  | .start reqs => reqs
  | .select req reqs _ | .add req reqs _ | .wait _ req reqs _ => req :: reqs
  | .done _ => []

structure CallOk (w : World ι) (c : ι) (call : Call) : Prop where
  item : (∃ ret, call.phase = .done ret ∧ ret ≠ .ok) ∨ Accepted w c call.item ∨
    ∃ req ∈ call.phase.pending, call.item ∈ req.items
  wait : ∀ n req reqs nretry, call.phase = .wait n req reqs nretry →
    ∃ b, w.batches[n]? = some b ∧ (c, req) ∈ b.tasks

structure Inv (w : World ι) : Prop where
  calls : ∀ c call, w.calls c = some call → CallOk w c call
  batches : ∀ (n : ℕ) (b : BatchTask ι), w.batches[n]? = some b → b.status = .done .ok →
    ∀ t ∈ b.tasks, ∀ x ∈ t.2.items, Accepted w t.1 x
  infos : ∀ key n, w.batchInfos key = some n →
    ∃ b, w.batches[n]? = some b ∧ b.status = .collecting
  inj : ∀ key key' n, w.batchInfos key = some n → w.batchInfos key' = some n → key = key'
  tasks : ∀ (n : ℕ) (b : BatchTask ι), w.batches[n]? = some b → ∀ t ∈ b.tasks, w.calls t.1 ≠ none
  callers : ∀ o ∈ w.outcomes, ∀ c ∈ o.callers, w.calls c ≠ none

/-- What other steps leave a call to rely on. -/
structure Grows (w w' : World ι) : Prop where
  outcomes : w.outcomes ⊆ w'.outcomes
  batches : ∀ (n : ℕ) (b : BatchTask ι), w.batches[n]? = some b →
    ∃ b' : BatchTask ι, w'.batches[n]? = some b' ∧ b.tasks ⊆ b'.tasks

lemma Accepted.grows {w w' : World ι} (hg : Grows w w') {c : ι} {item : QItem}
    (h : Accepted w c item) : Accepted w' c item := by
  obtain ⟨o, ho, hrest⟩ := h
  exact ⟨o, hg.outcomes ho, hrest⟩

lemma CallOk.grows {w w' : World ι} (hg : Grows w w') {c : ι} {call : Call}
    (h : CallOk w c call) : CallOk w' c call := by
  refine ⟨?_, fun n req reqs nretry hp => ?_⟩
  · rcases h.item with hd | ha | hp
    · exact .inl hd
    · exact .inr (.inl (ha.grows hg))
    · exact .inr (.inr hp)
  · obtain ⟨b, hb, hmem⟩ := h.wait n req reqs nretry hp
    obtain ⟨b', hb', hsub⟩ := hg.batches n b hb
    exact ⟨b', hb', hsub hmem⟩

/-- A call whose item is in none of the requests that are left has it accepted. -/
lemma callOk_nextReq {w : World ι} {c : ι} {item : QItem} {reqs : List AddRequest}
    (h : Accepted w c item ∨ ∃ req ∈ reqs, item ∈ req.items) :
    CallOk w c ⟨item, nextReq reqs⟩ := by
  unfold nextReq
  by_cases hnil : reqs = []
  · rw [if_pos hnil]
    refine ⟨.inr (.inl ?_), fun _ _ _ _ hp => (nomatch hp)⟩
    rcases h with h | ⟨req, hreq, _⟩
    · exact h
    · rw [hnil] at hreq
      exact absurd hreq List.not_mem_nil
  · rw [if_neg hnil]
    exact ⟨.inr h, fun _ _ _ _ hp => (nomatch hp)⟩

/-- **The end of a round**: a request that succeeded has its items accepted. -/
lemma callOk_endRound {w : World ι} {c : ι} {item : QItem} {req : AddRequest}
    {reqs : List AddRequest} {nretry : ℤ} {ret : RetCode}
    (h : Accepted w c item ∨ ∃ r ∈ req :: reqs, item ∈ r.items)
    (hret : ret = .ok → ∀ x ∈ req.items, Accepted w c x) :
    CallOk w c ⟨item, endRound ret req reqs nretry⟩ := by
  unfold endRound
  by_cases hbreak : 0 ≤ ret.asInteger ∧ ret ≠ .errNotMaster ∧ ret ≠ .errNoMaster
  · rw [if_pos hbreak]
    by_cases hok : ret = .ok
    · rw [if_pos hok]
      apply callOk_nextReq
      rcases h with h | ⟨r, hr, hx⟩
      · exact .inl h
      · rcases List.mem_cons.mp hr with rfl | hr
        · exact .inl (hret hok item hx)
        · exact .inr ⟨r, hr, hx⟩
    · rw [if_neg hok]
      exact ⟨.inl ⟨ret, rfl, hok⟩, fun _ _ _ _ hp => (nomatch hp)⟩
  · rw [if_neg hbreak]
    by_cases hretry : 0 ≤ nretry - 1
    · rw [if_pos hretry]
      exact ⟨.inr h, fun _ _ _ _ hp => (nomatch hp)⟩
    · rw [if_neg hretry]
      refine ⟨.inl ⟨ret, rfl, ?_⟩, fun _ _ _ _ hp => (nomatch hp)⟩
      rintro rfl
      exact hbreak (by decide)

lemma CallOk.covers {w : World ι} {c : ι} {item : QItem} {phase : CallPhase}
    (h : CallOk w c ⟨item, phase⟩) (reqs : List AddRequest) (hp : phase.pending = reqs)
    (hne : reqs ≠ []) : Accepted w c item ∨ ∃ r ∈ reqs, item ∈ r.items := by
  rcases h.item with ⟨ret, hd, _⟩ | h | ⟨r, hr, hx⟩
  · have hd : phase = .done ret := hd
    rw [hd] at hp
    exact absurd hp.symm hne
  · exact .inl h
  · have hr : r ∈ phase.pending := hr
    rw [hp] at hr
    exact .inr ⟨r, hr, hx⟩

variable [DecidableEq ι] {w : World ι}

lemma Inv.setCall (h : Inv w) {c : ι} {call : Call} (hcall : CallOk w c call) :
    Inv (w.setCall c call) := by
  have hsome : ∀ c', w.calls c' ≠ none → (w.setCall c call).calls c' ≠ none := by
    intro c' hc'
    show Function.update w.calls c (some call) c' ≠ none
    by_cases heq : c' = c
    · rw [heq, Function.update_self]
      exact fun hn => nomatch hn
    · rwa [Function.update_of_ne heq]
  refine ⟨fun c' call' hc' => ?_, h.batches, h.infos, h.inj,
    fun n b hb t ht => hsome _ (h.tasks n b hb t ht),
    fun o ho c' hc' => hsome _ (h.callers o ho c' hc')⟩
  have hc' : Function.update w.calls c (some call) c' = some call' := hc'
  by_cases heq : c' = c
  · rw [heq, Function.update_self] at hc'
    cases hc'
    rw [heq]
    exact ⟨hcall.item, hcall.wait⟩
  · rw [Function.update_of_ne heq] at hc'
    exact ⟨(h.calls c' call' hc').item, (h.calls c' call' hc').wait⟩

/-! ## Batches -/

lemma Inv.setBatch (h : Inv w) {n : ℕ} {b : BatchTask ι} (hb : w.batches[n]? = some b)
    (b' : BatchTask ι) (key : ℤ × ℤ × ℤ) (hsub : b.tasks ⊆ b'.tasks)
    (htasks : ∀ t ∈ b'.tasks, w.calls t.1 ≠ none)
    {batchInfos : ℤ × ℤ × ℤ → Option ℕ} {outcomes : List (Outcome ι)}
    (hout : w.outcomes ⊆ outcomes) (hcallers : ∀ o ∈ outcomes, ∀ c ∈ o.callers, w.calls c ≠ none)
    (hinfos : ∀ k m, batchInfos k = some m →
      m ≠ n ∧ w.batchInfos k = some m ∨ m = n ∧ k = key ∧ b'.status = .collecting)
    (hdone : b'.status = .done .ok → ∀ t ∈ b'.tasks, ∀ x ∈ t.2.items,
      ∃ o ∈ outcomes, t.1 ∈ o.callers ∧ x ∈ o.req.items ∧ o.Ok) :
    Inv { w with batches := w.batches.set n b', batchInfos := batchInfos, outcomes := outcomes } := by
  have hn : n < w.batches.length := (List.getElem?_eq_some_iff.mp hb).1
  have hself : (w.batches.set n b')[n]? = some b' := List.getElem?_set_self hn
  have hother : ∀ m, m ≠ n → (w.batches.set n b')[m]? = w.batches[m]? := fun m hm =>
    List.getElem?_set_ne hm.symm
  have hg : Grows w
      { w with batches := w.batches.set n b', batchInfos := batchInfos, outcomes := outcomes } := by
    refine ⟨hout, fun m b₁ hb₁ => ?_⟩
    by_cases hm : m = n
    · subst hm
      rw [hb] at hb₁
      cases hb₁
      exact ⟨b', hself, hsub⟩
    · exact ⟨b₁, by rw [← hb₁]; exact hother m hm, List.Subset.refl _⟩
  refine ⟨fun c call hc => (h.calls c call hc).grows hg, fun m b₁ hb₁ hs t ht x hx => ?_,
    fun k m hk => ?_, fun k k' m hk hk' => ?_, fun m b₁ hb₁ t ht => ?_, hcallers⟩
  · have hb₁ : (w.batches.set n b')[m]? = some b₁ := hb₁
    by_cases hm : m = n
    · subst hm
      rw [hself] at hb₁
      cases hb₁
      exact hdone hs t ht x hx
    · rw [hother m hm] at hb₁
      exact (h.batches m b₁ hb₁ hs t ht x hx).grows hg
  · rcases hinfos k m hk with ⟨hm, hk⟩ | ⟨rfl, _, hcol⟩
    · obtain ⟨b₁, hb₁, hs₁⟩ := h.infos k m hk
      exact ⟨b₁, by rw [← hb₁]; exact hother m hm, hs₁⟩
    · exact ⟨b', hself, hcol⟩
  · rcases hinfos k m hk with ⟨hm, hk⟩ | ⟨hm, hk, _⟩
    · rcases hinfos k' m hk' with ⟨_, hk'⟩ | ⟨hm', _⟩
      · exact h.inj k k' m hk hk'
      · exact absurd hm' hm
    · rcases hinfos k' m hk' with ⟨hm', _⟩ | ⟨_, hk', _⟩
      · exact absurd hm hm'
      · rw [hk, hk']
  · have hb₁ : (w.batches.set n b')[m]? = some b₁ := hb₁
    by_cases hm : m = n
    · subst hm
      rw [hself] at hb₁
      cases hb₁
      exact htasks t ht
    · rw [hother m hm] at hb₁
      exact h.tasks m b₁ hb₁ t ht

lemma Inv.append (h : Inv w) {b : BatchTask ι} (hs : b.status = .collecting) (ht : b.tasks = []) :
    Inv { w with batches := w.batches ++ [b] } := by
  have hold : ∀ (n : ℕ) (b₁ : BatchTask ι), w.batches[n]? = some b₁ →
      (w.batches ++ [b])[n]? = some b₁ := by
    intro n b₁ hb₁
    rw [List.getElem?_append_left (List.getElem?_eq_some_iff.mp hb₁).1]
    exact hb₁
  have hnew : ∀ (n : ℕ) (b₁ : BatchTask ι), (w.batches ++ [b])[n]? = some b₁ →
      w.batches[n]? = some b₁ ∨ b₁ = b := by
    intro n b₁ hb₁
    rcases Nat.lt_or_ge n w.batches.length with hn | hn
    · rw [List.getElem?_append_left hn] at hb₁
      exact .inl hb₁
    · rw [List.getElem?_append_right hn] at hb₁
      exact .inr (List.mem_singleton.mp (List.mem_of_getElem? hb₁))
  have hg : Grows w { w with batches := w.batches ++ [b] } :=
    ⟨List.Subset.refl _, fun n b₁ hb₁ => ⟨b₁, hold n b₁ hb₁, List.Subset.refl _⟩⟩
  refine ⟨fun c call hc => (h.calls c call hc).grows hg, fun n b₁ hb₁ hd t ht' x hx => ?_,
    fun key n hk => ?_, h.inj, fun n b₁ hb₁ t ht' => ?_, h.callers⟩
  · rcases hnew n b₁ hb₁ with hb₁ | rfl
    · exact (h.batches n b₁ hb₁ hd t ht' x hx).grows hg
    · rw [hs] at hd
      cases hd
  · obtain ⟨b₁, hb₁, hs₁⟩ := h.infos key n hk
    exact ⟨b₁, hold n b₁ hb₁, hs₁⟩
  · rcases hnew n b₁ hb₁ with hb₁ | rfl
    · exact h.tasks n b₁ hb₁ t ht'
    · rw [ht] at ht'
      exact absurd ht' List.not_mem_nil

lemma Inv.addTask (h : Inv w) {reqByteSize : AddRequest → ℕ} {c : ι} (hc : w.calls c ≠ none)
    {n : ℕ} {b : BatchTask ι} (hb : w.batches[n]? = some b) (req : AddRequest) (now : ℕ)
    {key : ℤ × ℤ × ℤ}
    (hkey : ∀ k m, w.batchInfos k = some m → k ≠ key → m ≠ n) (status : BatchStatus)
    (hstatus : status = .collecting ∨ status = .taken) (info : Option ℕ)
    (hinfo : ∀ m, info = some m → m = n ∧ status = .collecting) :
    Inv { w with
      batches := w.batches.set n { b.addTask reqByteSize now c req with status := status }
      batchInfos := Function.update w.batchInfos key info } := by
  have hinfos : ∀ k m, Function.update w.batchInfos key info k = some m →
      m ≠ n ∧ w.batchInfos k = some m ∨ m = n ∧ k = key ∧ status = .collecting := by
    intro k m hk
    by_cases hkk : k = key
    · subst hkk
      rw [Function.update_self] at hk
      obtain ⟨hm, hcol⟩ := hinfo m hk
      exact .inr ⟨hm, rfl, hcol⟩
    · rw [Function.update_of_ne hkk] at hk
      exact .inl ⟨hkey k m hk hkk, hk⟩
  refine h.setBatch hb _ key (List.subset_append_left _ _) (fun t ht => ?_) (List.Subset.refl _)
    h.callers hinfos fun hd => ?_
  · rcases List.mem_append.mp ht with ht | ht
    · exact h.tasks n b hb t ht
    · rw [List.mem_singleton.mp ht]
      exact hc
  · have hd : status = .done .ok := hd
    rcases hstatus with hstatus | hstatus
    · rw [hstatus] at hd
      cases hd
    · rw [hstatus] at hd
      cases hd

lemma Inv.addToBatch (h : Inv w) {reqByteSize : AddRequest → ℕ} {c : ι} (hc : w.calls c ≠ none)
    (req : AddRequest) (topic : Option TopicConfig) (now : ℕ) :
    Inv (w.addToBatch reqByteSize c req topic now).1 ∧
      (w.addToBatch reqByteSize c req topic now).1.outcomes = w.outcomes ∧
      ∃ b, (w.addToBatch reqByteSize c req topic now).1.batches[
        (w.addToBatch reqByteSize c req topic now).2]? = some b ∧ (c, req) ∈ b.tasks := by
  -- the batch that collects, a new one if there is none
  obtain ⟨n, b, batches, hn, hbatches, hb, hs, hkey, hinv⟩ : ∃ (n : ℕ) (b : BatchTask ι)
      (batches : List (BatchTask ι)),
      (w.batchInfos (req.topicId, req.storeId, req.queueId)).getD w.batches.length = n ∧
      (if n < w.batches.length then w.batches else w.batches ++ [initBatch topic]) = batches ∧
      batches[n]? = some b ∧ b.status = .collecting ∧
      (∀ k m, w.batchInfos k = some m → k ≠ (req.topicId, req.storeId, req.queueId) → m ≠ n) ∧
      Inv { w with batches := batches } := by
    cases hkey : w.batchInfos (req.topicId, req.storeId, req.queueId) with
    | some n =>
      obtain ⟨b, hb, hs⟩ := h.infos _ n hkey
      refine ⟨n, b, w.batches, rfl, if_pos (List.getElem?_eq_some_iff.mp hb).1, hb, hs, ?_, h⟩
      rintro k m hk hne rfl
      exact hne (h.inj _ _ m hk hkey)
    | none =>
      have hinit : (initBatch topic : BatchTask ι).status = .collecting ∧
          (initBatch topic : BatchTask ι).tasks = [] := by
        unfold initBatch
        cases topic <;> exact ⟨rfl, rfl⟩
      refine ⟨w.batches.length, initBatch topic, w.batches ++ [initBatch topic], rfl,
        if_neg (Nat.lt_irrefl _), ?_, hinit.1, ?_, h.append hinit.1 hinit.2⟩
      · rw [List.getElem?_append_right le_rfl, Nat.sub_self]
        rfl
      · rintro k m hk _ rfl
        obtain ⟨b, hb, _⟩ := h.infos k _ hk
        exact absurd (List.getElem?_eq_some_iff.mp hb).1 (Nat.lt_irrefl _)
  have hlt : n < batches.length := (List.getElem?_eq_some_iff.mp hb).1
  have hget : batches.getD n {} = b := by
    rw [List.getD_eq_getElem?_getD, hb]
    rfl
  have hmem : (c, req) ∈ (b.addTask reqByteSize now c req).tasks :=
    List.mem_append_right _ List.mem_cons_self
  have hadd := @Inv.addTask ι _ { w with batches := batches } hinv reqByteSize c hc n b hb req now _
    hkey
  unfold World.addToBatch
  dsimp only
  rw [hn, hbatches, hget]
  by_cases hready : (b.addTask reqByteSize now c req).ready now
  · rw [if_pos hready]
    exact ⟨hadd .taken (.inr rfl) none fun m hm => (nomatch hm), rfl, _,
      List.getElem?_set_self hlt, hmem⟩
  · rw [if_neg hready]
    have hcol : (b.addTask reqByteSize now c req).status = .collecting := hs
    refine ⟨?_, rfl, _, List.getElem?_set_self hlt, hmem⟩
    have hinv' := hadd .collecting (.inl rfl) (some n) fun m hm => ⟨(Option.some.inj hm).symm, rfl⟩
    have hsame : { b.addTask reqByteSize now c req with status := .collecting } =
        b.addTask reqByteSize now c req := by
      rw [← hcol]
    rwa [hsame] at hinv'

/-! ## Steps -/

lemma Inv.addOutcomes (h : Inv w) {callers : List ι} (hc : ∀ c ∈ callers, w.calls c ≠ none)
    (req : AddRequest) (fates : List Fate) : Inv (w.addOutcomes callers req fates) := by
  have hg : Grows w (w.addOutcomes callers req fates) :=
    ⟨List.subset_append_left _ _, fun n b hb => ⟨b, hb, List.Subset.refl _⟩⟩
  refine ⟨fun c call hcall => (h.calls c call hcall).grows hg,
    fun n b hb hs t ht x hx => (h.batches n b hb hs t ht x hx).grows hg, h.infos, h.inj, h.tasks,
    fun o ho c hco => ?_⟩
  rcases List.mem_append.mp ho with ho | ho
  · exact h.callers o ho c hco
  · obtain ⟨fate, _, rfl⟩ := List.mem_map.mp ho
    exact hc c hco

/-- What a request that `RawAdd` succeeded with leaves for its callers. -/
lemma accepted_of_rawAdd {topic : Option TopicConfig} {env : CallEnv} {req : AddRequest}
    (hret : (Producer.rawAdd topic env req).1 = .ok) {callers : List ι} {c : ι} (hc : c ∈ callers)
    {x : QItem} (hx : x ∈ req.items) :
    Accepted (w.addOutcomes callers req (Producer.rawAdd topic env req).2) c x := by
  rcases rawAdd_ok hret callers with hnil | ⟨fate, hfate, hok⟩
  · rw [hnil] at hx
    exact absurd hx List.not_mem_nil
  · exact ⟨⟨callers, req, fate⟩,
      List.mem_append_right _ (List.mem_map.mpr ⟨fate, hfate, rfl⟩), hc, hx, hok⟩

variable {reqByteSize : AddRequest → ℕ} {byteSize : QItem → ℕ} {compress : String → String}
  {batching : Bool}

/-- **`Enqueue` up to its requests**, with an item that selects a queue info. -/
lemma callOk_beginEnqueue {c : ι} {args : EnqueueArgs} {topic : Option TopicConfig} {decided : ℤ}
    {makeTopic : Option TopicConfig} {now : ℕ} (hc : w.calls c = none)
    (hok : Selects byteSize compress w (.enqueue c args topic decided makeTopic now)) :
    CallOk w c ⟨makeItem byteSize compress args (decidePubID args decided) now,
      beginEnqueue byteSize compress args topic decided makeTopic now⟩ := by
  have hdone : ∀ ret : RetCode, ret ≠ .ok → ∀ item, CallOk w c ⟨item, .done ret⟩ :=
    fun ret hret _ => ⟨.inl ⟨ret, rfl, hret⟩, fun _ _ _ _ hp => (nomatch hp)⟩
  unfold beginEnqueue
  cases topic with
  | none => exact hdone _ (by decide) _
  | some topic =>
    dsimp only
    by_cases hpub : decidePubID args decided = -1 ∨
        topic.pubId2pub (decidePubID args decided) = none
    · rw [if_pos hpub]
      exact hdone _ (by decide) _
    rw [if_neg hpub]
    obtain ⟨hne, hvalid⟩ := not_or.mp hpub
    cases makeTopic with
    | none => exact hdone _ (by decide) _
    | some makeTopic =>
      have hsel := hok hc hne hvalid
      by_cases hfit : FirstsFit makeTopic
          [makeItem byteSize compress args (decidePubID args decided) now]
      · obtain ⟨reqs, hmake, hperm, _⟩ := makeAddRequests_perm args.topicId hfit
        rw [hmake]
        refine callOk_nextReq (.inr (List.mem_flatMap.mp (hperm.mem_iff.mpr ?_)))
        exact List.mem_filter.mpr ⟨List.mem_cons_self, hsel⟩
      · rw [makeAddRequests_error args.topicId hfit]
        exact hdone _ (by decide) _

/-- Otherwise it returns `RET_OK` at once. -/
lemma beginEnqueue_of_not_selects {args : EnqueueArgs} {topic makeTopic : TopicConfig}
    {decided : ℤ} {now : ℕ} (hne : decidePubID args decided ≠ -1)
    (hvalid : topic.pubId2pub (decidePubID args decided) ≠ none)
    (hsel : ¬ (queueInfoOf makeTopic
      (makeItem byteSize compress args (decidePubID args decided) now)).isSome) :
    beginEnqueue byteSize compress args (some topic) decided (some makeTopic) now = .done .ok := by
  have hfit : FirstsFit makeTopic
      [makeItem byteSize compress args (decidePubID args decided) now] := by
    by_contra hfit
    obtain ⟨item, hitem, hsome⟩ := exists_of_not_firstsFit hfit
    rw [List.mem_singleton.mp hitem] at hsome
    exact hsel hsome
  obtain ⟨reqs, hmake, hperm, hitems⟩ := makeAddRequests_perm args.topicId hfit
  have hreqs : reqs = [] := by
    refine List.eq_nil_iff_forall_not_mem.mpr fun req hreq => ?_
    obtain ⟨x, hx⟩ := List.exists_mem_of_ne_nil _ (hitems req hreq)
    have hmem := List.mem_filter.mp
      (hperm.mem_iff.mp (List.mem_flatMap.mpr ⟨req, hreq, hx⟩))
    rw [List.mem_singleton.mp hmem.1] at hmem
    exact hsel hmem.2
  unfold beginEnqueue
  dsimp only
  rw [if_neg (not_or.mpr ⟨hne, hvalid⟩), hmake, hreqs]
  rfl

theorem Inv.step (h : Inv w) {e : Event ι} (hok : Selects byteSize compress w e) :
    Inv (w.step reqByteSize byteSize compress batching e) := by
  cases e with
  | enqueue c args topic decided makeTopic now =>
    dsimp only [World.step]
    cases hc : w.calls c with
    | some call => exact h
    | none => exact h.setCall (callOk_beginEnqueue hc hok)
  | selectAndAdd c topic =>
    dsimp only [World.step]
    split
    · rename_i item req reqs hc
      have hcov := (h.calls c _ hc).covers (req :: reqs) rfl (List.cons_ne_nil _ _)
      apply h.setCall
      by_cases hnil : req.items = []
      · rw [if_pos hnil]
        apply callOk_nextReq
        rcases hcov with ha | ⟨r, hr, hx⟩
        · exact .inl ha
        · rcases List.mem_cons.mp hr with rfl | hr
          · rw [hnil] at hx
            exact absurd hx List.not_mem_nil
          · exact .inr ⟨r, hr, hx⟩
      · rw [if_neg hnil]
        cases topic with
        | none => exact ⟨.inl ⟨_, rfl, by decide⟩, fun _ _ _ _ hp => (nomatch hp)⟩
        | some topic => exact ⟨.inr hcov, fun _ _ _ _ hp => (nomatch hp)⟩
    · exact h
  | select c queue store =>
    dsimp only [World.step]
    split
    · rename_i item req reqs nretry hc
      have hcov := (h.calls c _ hc).covers (req :: reqs) rfl (List.cons_ne_nil _ _)
      apply h.setCall
      split
      · rename_i hq
        exact ⟨.inl ⟨_, rfl, hq⟩, fun _ _ _ _ hp => (nomatch hp)⟩
      split
      · rename_i hs
        exact ⟨.inl ⟨_, rfl, hs⟩, fun _ _ _ _ hp => (nomatch hp)⟩
      refine ⟨.inr (hcov.imp_right ?_), fun _ _ _ _ hp => (nomatch hp)⟩
      -- the request keeps its items
      rintro ⟨r, hr, hx⟩
      rcases List.mem_cons.mp hr with rfl | hr
      · exact ⟨_, List.mem_cons_self, hx⟩
      · exact ⟨r, List.mem_cons_of_mem _ hr, hx⟩
    · exact h
  | rawAdd c topic env =>
    dsimp only [World.step]
    split
    · rename_i item req reqs nretry hc
      split
      · exact h
      have hcov := (h.calls c _ hc).covers (req :: reqs) rfl (List.cons_ne_nil _ _)
      have hcalled : ∀ c' ∈ [c], w.calls c' ≠ none := by
        intro c' hc'
        rw [List.mem_singleton.mp hc', hc]
        exact fun hn => nomatch hn
      have hout := h.addOutcomes hcalled req (Producer.rawAdd topic env req).2
      have hg : Grows w (w.addOutcomes [c] req (Producer.rawAdd topic env req).2) :=
        ⟨List.subset_append_left _ _, fun n b hb => ⟨b, hb, List.Subset.refl _⟩⟩
      refine hout.setCall (callOk_endRound (hcov.imp_left fun ha => ha.grows hg) fun hret x hx => ?_)
      exact accepted_of_rawAdd hret List.mem_cons_self hx
    · exact h
  | batchRawAdd c topic now =>
    dsimp only [World.step]
    split
    · rename_i item req reqs nretry hc
      split
      · have hcov := (h.calls c _ hc).covers (req :: reqs) rfl (List.cons_ne_nil _ _)
        have hcalled : w.calls c ≠ none := by
          rw [hc]
          exact fun hn => nomatch hn
        obtain ⟨hinv, hout, b, hb, hmem⟩ :=
          @Inv.addToBatch ι _ w h reqByteSize c hcalled req topic now
        refine hinv.setCall ⟨.inr (hcov.imp_left fun ha => ?_), fun n req' reqs' nretry' hp => ?_⟩
        · unfold Accepted
          rw [hout]
          exact ha
        · cases hp
          exact ⟨b, hb, hmem⟩
      · exact h
    · exact h
  | dispatch key now =>
    dsimp only [World.step]
    split
    · exact h
    rename_i n hkey
    split
    · exact h
    rename_i b hb
    split
    · refine h.setBatch hb { b with status := .taken } key (List.Subset.refl _) (h.tasks n b hb)
        (List.Subset.refl _) h.callers (fun k m hk => ?_) fun hd => (nomatch hd)
      by_cases hkk : k = key
      · subst hkk
        rw [Function.update_self] at hk
        cases hk
      · rw [Function.update_of_ne hkk] at hk
        refine .inl ⟨?_, hk⟩
        rintro rfl
        exact hkk (h.inj k key _ hk hkey)
    · exact h
  | process n topic env =>
    dsimp only [World.step]
    split
    · exact h
    rename_i b hb
    split
    · rename_i hs
      have hcalled : ∀ c ∈ b.tasks.map Prod.fst, w.calls c ≠ none := by
        intro c hc
        obtain ⟨t, ht, rfl⟩ := List.mem_map.mp hc
        exact h.tasks n b hb t ht
      have hout := h.addOutcomes hcalled (batchReq b.tasks)
        (Producer.rawAdd topic env (batchReq b.tasks)).2
      refine hout.setBatch hb
        { b with status := .done (Producer.rawAdd topic env (batchReq b.tasks)).1 } (0, 0, 0)
        (List.Subset.refl _) (h.tasks n b hb) (List.Subset.refl _) hout.callers
        (fun k m hk => .inl ⟨?_, hk⟩) fun hd t ht x hx => ?_
      · rintro rfl
        obtain ⟨b', hb', hs'⟩ := h.infos k _ hk
        rw [hb] at hb'
        cases hb'
        rw [hs] at hs'
        cases hs'
      · have hret : (Producer.rawAdd topic env (batchReq b.tasks)).1 = .ok :=
          BatchStatus.done.inj hd
        exact accepted_of_rawAdd hret (List.mem_map_of_mem ht) (mem_batchReq ht hx)
    · exact h
  | wake c =>
    dsimp only [World.step]
    split
    · rename_i item n req reqs nretry hc
      split
      · rename_i ret hstatus
        have hcall := h.calls c _ hc
        obtain ⟨b, hb, hmem⟩ := hcall.wait n req reqs nretry rfl
        rw [hb] at hstatus
        refine h.setCall (callOk_endRound (hcall.covers (req :: reqs) rfl (List.cons_ne_nil _ _)) ?_)
        rintro rfl x hx
        exact h.batches n b hb (Option.some.inj hstatus) (c, req) hmem x hx
      · exact h
    · exact h

lemma Inv.truthful (h : Inv w) : Truthful w := by
  intro c call hc hdone
  rcases (h.calls c call hc).item with ⟨ret, hret, hne⟩ | ha | ⟨req, hreq, _⟩
  · rw [hdone] at hret
    cases hret
    exact absurd rfl hne
  · exact ha
  · rw [hdone] at hreq
    exact absurd hreq List.not_mem_nil

/-- A call whose item selects no queue info is told that it succeeded. -/
lemma not_truthful_of_not_selects (h : Inv w) {e : Event ι}
    (hno : ¬ Selects byteSize compress w e) :
    ¬ Truthful (w.step reqByteSize byteSize compress batching e) := by
  cases e with
  | enqueue c args topic decided makeTopic now =>
    cases topic with
    | none => exact absurd trivial hno
    | some topic =>
      cases makeTopic with
      | none => exact absurd trivial hno
      | some makeTopic =>
        unfold Selects at hno
        dsimp only at hno
        push Not at hno
        obtain ⟨hc, hne, hvalid, hsel⟩ := hno
        have hdone := beginEnqueue_of_not_selects hne hvalid hsel
        intro htrue
        dsimp only [World.step] at htrue
        rw [hc, hdone] at htrue
        obtain ⟨o, ho, hco, _⟩ := htrue c _ (Function.update_self ..) rfl
        exact h.callers o ho c hco hc
  | selectAndAdd c topic => exact absurd trivial hno
  | select c queue store => exact absurd trivial hno
  | rawAdd c topic env => exact absurd trivial hno
  | batchRawAdd c topic now => exact absurd trivial hno
  | dispatch key now => exact absurd trivial hno
  | process n topic env => exact absurd trivial hno
  | wake c => exact absurd trivial hno

end

/-- **Every acknowledgement of a run is truthful** exactly when every item, at the time its requests
are made, selects a queue info. -/
theorem truthful_iff {ι : Type} [DecidableEq ι] (reqByteSize : AddRequest → ℕ) (byteSize : QItem → ℕ)
    (compress : String → String) (batching : Bool) (es : List (Event ι)) :
    (producer reqByteSize byteSize compress batching).Always Truthful
        (producer reqByteSize byteSize compress batching).init es ↔
      (producer reqByteSize byteSize compress batching).Along (Selects byteSize compress)
        (producer reqByteSize byteSize compress batching).init es := by
  have hinit : Inv ({} : World ι) :=
    ⟨fun _ _ hc => (nomatch hc), fun _ _ hb => (nomatch hb), fun _ _ hk => (nomatch hk),
      fun _ _ _ hk => (nomatch hk), fun _ _ hb => (nomatch hb), fun _ ho => (nomatch ho)⟩
  have hstep : ∀ (w : World ι) e, Inv w → Selects byteSize compress w e →
      Inv (w.step reqByteSize byteSize compress batching e) := fun _ _ h hok => h.step hok
  have hbad : ∀ (w : World ι) e, Inv w → ¬ Selects byteSize compress w e →
      ¬ Truthful (w.step reqByteSize byteSize compress batching e) :=
    fun _ _ h hno => not_truthful_of_not_selects h hno
  exact Machine.always_iff_along (fun _ h => h.truthful) hstep hbad hinit es

/-! ## A missing queue info -/

/-- Publisher 1 names a queue info that does not exist. -/
def missingQueueInfo : TopicConfig :=
  { pubs := [⟨1, [1], [1]⟩], queueInfos := [], itemsByteSizeLimit := 1024 }

def enqueueOne : List (Event ℕ) :=
  [.enqueue 0 { topicId := 1, uin := 1, handleId := 1, buffer := "a", pubId := 1 }
    (some missingQueueInfo) (-1) (some missingQueueInfo) 0]

/-- **Counterexample.**  The call returns `RET_OK`, and no request was ever made. -/
theorem missingQueueInfo_not_truthful :
    ¬ (producer (fun _ => 0) (fun _ => 0) id false).Always Truthful
      (producer (fun _ => 0) (fun _ => 0) id false).init enqueueOne := by
  intro h
  obtain ⟨o, ho, _⟩ := h.last 0 _ rfl (by rfl)
  exact absurd ho List.not_mem_nil

end PhxQueue.Producer
