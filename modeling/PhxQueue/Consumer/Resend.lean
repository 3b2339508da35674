import PhxQueue.Consumer.AfterConsume
import PhxQueue.Consumer.AllQueues
import PhxQueue.Producer.Selector

/-!
# Where items sent back go

A worker thread sends items back with `SelectAndAdd`: `AfterConsume` makes requests of them, one for
the items that select the same queue info, and repeats `Add` until it succeeds.  The first item of a
request selects store and queue for all of them, on a ring that may have been built for another
publisher.

* `Resender`, `resender`   the thread, one call of `Add` at a time;
* `Stays`                  what is added is still consumed by its group;
* `SendsBack`              which publishers' items a thread sends back, and to which queue info;
* `OneRing`, `SharedStores`   every ring fits all of these publishers;
* `retried_stay_iff`       **then, and only then, all items stay**;
* `mixedRequest_lost`, `staleRing_lost`   two publishers with a store each.
-/

set_option linter.unusedSectionVars false

namespace PhxQueue.Consumer
open Comm PhxQueue.Config Lib Producer

/-- A call of `Add` that has returned. -/
structure Resent where
  consumerGroupId : ℕ
  req : AddRequest
  targets : List (ℤ × ℤ)
  result : AddResult

/-- A worker thread, `reqs` being the requests still to be added. -/
structure Resender where
  cache : RingCache
  consumerGroupId : ℕ := 0
  reqs : List AddRequest := []
  log : List Resent := []

inductive ResendEvent
  /-- A batch of a group has been handled. -/
  | consume (consumerGroupId : ℕ) (clock : ℕ → ℕ) (items : List QItem) (results : List HandleResult)
  /-- `Add` is called with the first request. -/
  | add (env : ℕ → Attempt)

section
variable (cfg : SelectConfig) (crc32 : ℕ → ℕ → ℕ → ℕ) (byteSize : QItem → ℕ)

namespace Resender

def consume (t : Resender) (consumerGroupId : ℕ) (clock : ℕ → ℕ) (items : List QItem)
    (results : List HandleResult) : Resender :=
  match t.reqs with
  | _ :: _ => t
  | [] =>
    { t with
      consumerGroupId := consumerGroupId
      reqs := afterConsume byteSize ({ topicId := cfg.topicId, consumerGroupId } : ConsumerContext)
        (some cfg.topic) clock items results }

def add (t : Resender) (env : ℕ → Attempt) : Resender :=
  match t.reqs with
  | [] => t
  | req :: reqs =>
    let added := selectAndAdd cfg crc32 t.cache req env
    { t with
      cache := added.cache
      reqs := if added.result = .rawAdd .ok then reqs else req :: reqs
      log := t.log ++ [⟨t.consumerGroupId, req, added.targets, added.result⟩] }

def step (t : Resender) : ResendEvent → Resender
  | .consume g clock items results => t.consume cfg byteSize g clock items results
  | .add env => t.add cfg crc32 env

end Resender

def resender (cache : RingCache) : Machine Resender ResendEvent where
  init := { cache := cache }
  step := Resender.step cfg crc32 byteSize

def Listed (g : ℕ) (t : ℤ × ℤ) : Prop :=
  t ∈ (getAllQueues cfg.topic cfg.protoStores g).map ListedQueue.pair

/-- **What is added stays**: it is added, to stores that serve the publisher of each item, in queues
that the group lists. -/
structure Stays (r : Resent) : Prop where
  added : ∃ ret, r.result = .rawAdd ret
  served : ∀ t ∈ r.targets, ∀ item ∈ r.req.items, cfg.Serves t.1 item.pubId
  listed : ∀ t ∈ r.targets, Listed cfg r.consumerGroupId t

/-- The publishers whose items a group gets, for each batch. -/
def ResendEvent.Gets (gets : ℕ → Set ℤ) : ResendEvent → Prop
  | .consume g _ items _ => ∀ item ∈ items, item.pubId ∈ gets g
  | .add _ => True

/-- All items stay: in every run of a thread that has no ring of this configuration yet, whatever
sizes items have. -/
def AllStay (gets : ℕ → Set ℤ) : Prop :=
  ∀ (byteSize : QItem → ℕ) (cache : RingCache), cache.lastRebuildTime ≠ cfg.lastModTime →
    ∀ es : List ResendEvent, (∀ e ∈ es, e.Gets gets) →
      ∀ r ∈ ((resender cfg crc32 byteSize cache).exec { cache := cache } es).log, Stays cfg r

/-! ## The condition -/

/-- The number of retries of `SelectAndAdd`. -/
def nretry : ℕ := cfg.topic.producerNretryRawAdd.toNat

def SwitchesStore : Prop := cfg.producerRetrySwitchStore = true ∧ 0 < nretry cfg

instance : Decidable (SwitchesStore cfg) := inferInstanceAs (Decidable (_ ∧ _))

/-- A group gets items of a publisher that can select a queue info. -/
structure SendsBack (gets : ℕ → Set ℤ) (g : ℕ) (p id : ℤ) : Prop where
  gets : p ∈ gets g
  selects : ∃ cnt, cfg.topic.getQueueInfoIDByCount p cnt = .ok id

variable (gets : ℕ → Set ℤ)

/-- Every ring of a publisher fits every publisher. -/
structure OneRing : Prop where
  ring : ∀ g p id, SendsBack cfg gets g p id → (cfg.ringOf p).entries ≠ []
  queue : ∀ g p id, SendsBack cfg gets g p id → ∀ uin rand, ∀ k ≤ nretry cfg,
    (cfg.queueOf crc32 id uin rand k).isSome
  fits : ∀ g₀ p₀ id₀, SendsBack cfg gets g₀ p₀ id₀ → ∀ g p id, SendsBack cfg gets g p id →
    ∀ uin rand, ∀ s ∈ cfg.storeOf p₀ uin rand 0, cfg.Serves s p ∧
      ∀ rand', ∀ k ≤ nretry cfg, (k = 0 ∨ cfg.producerRetrySwitchStore = false) →
        ∀ q ∈ cfg.queueOf crc32 id uin rand' k, Listed cfg g (s, q)

/-- The stores of a publisher fit the publishers whose items go to the same queue info. -/
def SharedStores : Prop :=
  ∀ g p p' id, SendsBack cfg gets g p id → SendsBack cfg gets g p' id → ∀ s, cfg.Serves s p →
    cfg.Serves s p' ∧ ∀ uin rand, ∀ k ≤ nretry cfg,
      ∀ q ∈ cfg.queueOf crc32 id uin rand k, Listed cfg g (s, q)

/-- Every store that an item can be sent back to fits it. -/
def StoresFit : Prop :=
  1 ≤ cfg.topic.batchLimit →
    OneRing cfg crc32 gets ∧ (SwitchesStore cfg → SharedStores cfg crc32 gets)

end

section
variable {cfg : SelectConfig} {crc32 : ℕ → ℕ → ℕ → ℕ} {byteSize : QItem → ℕ} {gets : ℕ → Set ℤ}
  {g : ℕ} {p p₀ id : ℤ} {cache : RingCache}

/-! ## The requests -/

/-- The items of a request select one queue info, each by its own publisher. -/
structure Alike (cfg : SelectConfig) (gets : ℕ → Set ℤ) (g : ℕ) (id : ℤ) (req : AddRequest) :
    Prop where
  nonempty : req.items ≠ []
  batch : 1 ≤ cfg.topic.batchLimit
  items : ∀ item ∈ req.items, item.pubId ∈ gets g ∧
    cfg.topic.getQueueInfoIDByCount item.pubId item.count = .ok id

lemma Alike.sendsBack {req : AddRequest} (h : Alike cfg gets g id req) {item : QItem}
    (hitem : item ∈ req.items) : SendsBack cfg gets g item.pubId id :=
  ⟨(h.items item hitem).1, item.count, (h.items item hitem).2⟩

lemma getQueueInfoIDByCount_of_queueInfoOf {topic : TopicConfig} {item : QItem}
    (h : queueInfoOf topic item = some id) :
    topic.getQueueInfoIDByCount item.pubId item.count = .ok id := by
  unfold queueInfoOf at h
  cases hget : topic.getQueueInfoIDByCount item.pubId item.count with
  | error ret =>
    rw [hget] at h
    cases h
  | ok id' =>
    rw [hget] at h
    cases h
    rfl

lemma pubId_of_mem_newItems {cc : ConsumerContext} {clock : ℕ → ℕ} {items : List QItem}
    {results : List HandleResult} {item : QItem}
    (h : item ∈ newItems byteSize cc clock items results) :
    ∃ item' ∈ items, item.pubId = item'.pubId := by
  unfold newItems at h
  obtain ⟨i, hi, rfl⟩ := List.mem_mapIdx.mp h
  have hmem : (retryItems items results)[i] ∈ retryItems items results := List.getElem_mem hi
  obtain ⟨x, hx, hsome⟩ := List.mem_filterMap.mp hmem
  refine ⟨x.1, (List.of_mem_zip hx).1, ?_⟩
  split at hsome
  · rw [← Option.some.inj hsome]
    rfl
  · cases hsome

lemma alike_of_mem_afterConsume {cc : ConsumerContext} {clock : ℕ → ℕ} {items : List QItem}
    {results : List HandleResult} (hgets : ∀ item ∈ items, item.pubId ∈ gets g) {req : AddRequest}
    (h : req ∈ afterConsume byteSize cc (some cfg.topic) clock items results) :
    ∃ id, Alike cfg gets g id req := by
  unfold afterConsume at h
  split at h
  · exact absurd h List.not_mem_nil
  split at h
  · exact absurd h List.not_mem_nil
  split at h
  · exact absurd h List.not_mem_nil
  · rename_i reqs hmake
    obtain ⟨hnil, hbatch, id, hmem⟩ := mem_of_makeAddRequests hmake (List.mem_filter.mp h).1
    refine ⟨id, hnil, hbatch, ?_⟩
    intro item hitem
    obtain ⟨hnew, hid⟩ := hmem item hitem
    obtain ⟨item', hitem', hpub⟩ := pubId_of_mem_newItems hnew
    rw [getQueueInfoIDByCount_of_queueInfoOf hid, hpub]
    exact ⟨hgets item' hitem', rfl⟩

/-! ## The condition is enough -/

lemma storeOf_of_not_switch (h : cfg.producerRetrySwitchStore = false) (uin : ℕ) (rand : Rand)
    (k : ℕ) : cfg.storeOf p₀ uin rand k = cfg.storeOf p₀ uin rand 0 := by
  unfold SelectConfig.storeOf SelectConfig.storeHash
  simp only [h, Bool.false_eq_true, if_false]

lemma storeIdsOf_ne_nil (h : (cfg.ringOf p).entries ≠ []) : cfg.storeIdsOf p ≠ [] := by
  intro hnil
  unfold SelectConfig.ringOf at h
  rw [hnil] at h
  exact h rfl

/-- The ring of a thread is that of a publisher whose items were sent back. -/
def Ready (cfg : SelectConfig) (gets : ℕ → Set ℤ) (cache : RingCache) : Prop :=
  cache.lastRebuildTime = cfg.lastModTime →
    ∃ g₀ p₀ id₀, SendsBack cfg gets g₀ p₀ id₀ ∧ cache.IsOf cfg p₀

def Fitting (cfg : SelectConfig) (g : ℕ) (req : AddRequest) (t : ℤ × ℤ) : Prop :=
  (∀ item ∈ req.items, cfg.Serves t.1 item.pubId) ∧ Listed cfg g t

lemma fitting_of_selects (hone : OneRing cfg crc32 gets)
    (hshared : SwitchesStore cfg → SharedStores cfg crc32 gets) {req : AddRequest}
    (halike : Alike cfg gets g id req) {first : QItem} (hfirst : first ∈ req.items)
    {g₀ : ℕ} {id₀ : ℤ} (hp₀ : SendsBack cfg gets g₀ p₀ id₀) {k : ℕ} (hk : k ≤ nretry cfg)
    {a : Attempt} {s : ℤ}
    (hs : SelectsStore cfg p₀ ⟨first.pubId, first.uin, k, []⟩ (a.decides cfg first.pubId) s) :
    Fitting cfg g req
      (s, (cfg.queueOf crc32 id first.uin a.queueRand k).getD a.queueId) := by
  have hback := halike.sendsBack hfirst
  obtain ⟨q, hq⟩ := Option.isSome_iff_exists.mp (hone.queue g _ id hback first.uin a.queueRand k hk)
  rw [hq, Option.getD_some]
  unfold SelectsStore at hs
  dsimp only at hs
  by_cases hswitch : cfg.producerRetrySwitchStore = true ∧ k ≠ 0
  · rw [if_pos hswitch] at hs
    have hshared := hshared ⟨hswitch.1, by omega⟩
    constructor
    · intro item hitem
      exact (hshared g _ _ id hback (halike.sendsBack hitem) s hs).1
    · exact (hshared g _ _ id hback hback s hs).2 _ _ k hk q hq
  · rw [if_neg hswitch] at hs
    have hk' : k = 0 ∨ cfg.producerRetrySwitchStore = false := by
      by_cases hk0 : k = 0
      · exact Or.inl hk0
      · exact Or.inr (Bool.eq_false_of_not_eq_true fun h => hswitch ⟨h, hk0⟩)
    have hs0 : cfg.storeOf p₀ first.uin (a.decides cfg first.pubId) 0 = some s := by
      rcases hk' with rfl | hno
      · exact hs
      · rwa [storeOf_of_not_switch hno] at hs
    constructor
    · intro item hitem
      exact (hone.fits g₀ p₀ id₀ hp₀ g _ id (halike.sendsBack hitem) _ _ s hs0).1
    · exact (hone.fits g₀ p₀ id₀ hp₀ g _ id hback _ _ s hs0).2 _ k hk hk' q hq

/-- **A request whose items are alike stays**, and the thread is ready again. -/
lemma selectAndAdd_stays (hids : cfg.StoreIds) (hone : OneRing cfg crc32 gets)
    (hshared : SwitchesStore cfg → SharedStores cfg crc32 gets) {req : AddRequest}
    (halike : Alike cfg gets g id req) (hcache : Ready cfg gets cache) (env : ℕ → Attempt) :
    Stays cfg ⟨g, req, (selectAndAdd cfg crc32 cache req env).targets,
        (selectAndAdd cfg crc32 cache req env).result⟩ ∧
      Ready cfg gets (selectAndAdd cfg crc32 cache req env).cache := by
  obtain ⟨first, items, hitems⟩ := List.exists_cons_of_ne_nil halike.nonempty
  have hfirst : first ∈ req.items := by
    rw [hitems]
    exact List.mem_cons_self
  have hback := halike.sendsBack hfirst
  have hserved := storeIdsOf_ne_nil (hone.ring g _ id hback)
  obtain ⟨g₀, p₀, id₀, hp₀, huses⟩ : ∃ g₀ p₀ id₀, SendsBack cfg gets g₀ p₀ id₀ ∧
      cache.Uses cfg p₀ first.pubId := by
    by_cases hcur : cache.lastRebuildTime = cfg.lastModTime
    · obtain ⟨g₀, p₀, id₀, hp₀, hof⟩ := hcache hcur
      exact ⟨g₀, p₀, id₀, hp₀, hof.uses (hone.ring g₀ p₀ id₀ hp₀) hserved⟩
    · exact ⟨g, first.pubId, id, hback, rebuild_isOf hcur, hone.ring g _ id hback, hserved⟩
  obtain ⟨hret, htargets, hcache'⟩ := @selectLoop_inv cfg crc32 cache first.pubId id p₀
    ⟨first.pubId, first.uin, 0, []⟩ first.uin 0 first.count ⟨first.pubId, first.uin, first.count, 0⟩
    (Fitting cfg g req) hids (halike.items first hfirst).2 (nretry cfg) huses ⟨rfl, rfl, rfl, rfl⟩
    (fun i hi a s hs => by
      rw [Nat.zero_add] at hs ⊢
      exact fitting_of_selects hone hshared halike hfirst hp₀ hi hs) env
  have hadd : selectAndAdd cfg crc32 cache req env =
      selectLoop cfg crc32 env (nretry cfg) cache ⟨first.pubId, first.uin, first.count, 0⟩
        ⟨first.pubId, first.uin, 0, []⟩ := by
    unfold selectAndAdd
    rw [hitems]
    rfl
  rw [hadd]
  refine ⟨⟨hret, fun t ht => (htargets t ht).1, fun t ht => (htargets t ht).2⟩, fun _ => ?_⟩
  rw [hcache']
  exact ⟨g₀, p₀, id₀, hp₀, huses.isOf⟩

/-- The state of a thread all of whose items have stayed. -/
structure Resender.Inv (cfg : SelectConfig) (gets : ℕ → Set ℤ) (t : Resender) : Prop where
  cache : Ready cfg gets t.cache
  reqs : ∀ req ∈ t.reqs, ∃ id, Alike cfg gets t.consumerGroupId id req
  log : ∀ r ∈ t.log, Stays cfg r

lemma Resender.Inv.step (hids : cfg.StoreIds) (hfit : StoresFit cfg crc32 gets) {t : Resender}
    (h : t.Inv cfg gets) (e : ResendEvent) (he : e.Gets gets) :
    (t.step cfg crc32 byteSize e).Inv cfg gets := by
  cases e with
  | consume g clock items results =>
    unfold Resender.step Resender.consume
    dsimp only
    split
    · exact h
    · exact ⟨h.cache, fun req hreq => alike_of_mem_afterConsume he hreq, h.log⟩
  | add env =>
    unfold Resender.step Resender.add
    dsimp only
    split
    · exact h
    · rename_i req reqs hreqs
      have hmem : req ∈ t.reqs := by
        rw [hreqs]
        exact List.mem_cons_self
      obtain ⟨id, halike⟩ := h.reqs req hmem
      obtain ⟨hone, hshared⟩ := hfit halike.batch
      obtain ⟨hstays, hready⟩ := selectAndAdd_stays hids hone hshared halike h.cache env
      refine ⟨hready, fun req' hreq' => h.reqs req' ?_, fun r hr => ?_⟩
      · rw [hreqs]
        dsimp only at hreq'
        split at hreq'
        · exact List.mem_cons_of_mem _ hreq'
        · exact hreq'
      · rcases List.mem_append.mp hr with hr | hr
        · exact h.log r hr
        · rw [List.mem_singleton.mp hr]
          exact hstays

theorem allStay_of_storesFit (hids : cfg.StoreIds) (hfit : StoresFit cfg crc32 gets) :
    AllStay cfg crc32 gets := by
  intro byteSize cache hcache es hes
  have hinv : Resender.Inv cfg gets { cache := cache } :=
    ⟨fun hcur => absurd hcur hcache, fun _ hreq => absurd hreq List.not_mem_nil,
      fun _ hr => absurd hr List.not_mem_nil⟩
  have hrun : (resender cfg crc32 byteSize cache).Always (Resender.Inv cfg gets)
      { cache := cache } es := by
    refine Machine.Always.of_inv (fun t e ht (he : e.Gets gets ∧ True) => ht.step hids hfit e he.1)
      hinv ?_
    exact (Machine.along_of_forall (fun _ _ => trivial) _ es).and_labels hes
  exact hrun.last.log

/-! ## The condition is necessary -/

/-- An item of a publisher with a uin, whose next retry count is `cnt`. -/
def itemOf (p : ℤ) (uin : ℕ) (cnt : ℤ) : QItem := { pubId := p, uin := uin, count := cnt - 1 }

def requestOf (cfg : SelectConfig) (g : ℕ) (p : ℤ) (uin : ℕ) (cnt : ℤ) : AddRequest where
  topicId := cfg.topicId
  items := newItems (fun _ => 0) ⟨cfg.topicId, g, 0, 0, uint64Max, uint64Max⟩ (fun _ => 0)
    [itemOf p uin cnt] [.error]

/-- The batch of one item, which fails, and a call of `Add`. -/
def sendOne (g : ℕ) (p : ℤ) (uin : ℕ) (cnt : ℤ) (env : ℕ → Attempt) : List ResendEvent :=
  [.consume g (fun _ => 0) [itemOf p uin cnt] [.error], .add env]

lemma gets_sendOne (h : p ∈ gets g) (uin : ℕ) (cnt : ℤ) (env : ℕ → Attempt) :
    ∀ e ∈ sendOne g p uin cnt env, e.Gets gets := by
  intro e he
  rcases List.mem_cons.mp he with rfl | he
  · intro item hitem
    rw [List.mem_singleton.mp hitem]
    exact h
  · rw [List.mem_singleton.mp he]
    trivial

variable {uin : ℕ} {cnt : ℤ}

lemma afterConsume_itemOf (hbatch : 1 ≤ cfg.topic.batchLimit)
    (hid : cfg.topic.getQueueInfoIDByCount p cnt = .ok id) :
    afterConsume (fun _ => 0) ⟨cfg.topicId, g, 0, 0, uint64Max, uint64Max⟩ (some cfg.topic)
      (fun _ => 0) [itemOf p uin cnt] [.error] = [requestOf cfg g p uin cnt] := by
  have hinfo : queueInfoOf cfg.topic (retryItem (fun _ => 0)
      ⟨cfg.topicId, g, 0, 0, uint64Max, uint64Max⟩ 0 (itemOf p uin cnt)) = some id := by
    show (cfg.topic.getQueueInfoIDByCount p (cnt - 1 + 1)).toOption = some id
    rw [Int.sub_add_cancel, hid]
    rfl
  have hmake := makeAddRequests_singleton cfg.topicId hinfo ⟨hbatch, Nat.zero_le _⟩
  have hretry : retryItems [itemOf p uin cnt] [.error] = [itemOf p uin cnt] := rfl
  have hnew : newItems (fun _ => 0) ⟨cfg.topicId, g, 0, 0, uint64Max, uint64Max⟩ (fun _ => 0)
      [itemOf p uin cnt] [.error] =
        [retryItem (fun _ => 0) ⟨cfg.topicId, g, 0, 0, uint64Max, uint64Max⟩ 0
          (itemOf p uin cnt)] := rfl
  unfold afterConsume
  rw [if_neg, hretry, if_neg (List.cons_ne_nil _ _), hnew, hmake]
  · rfl
  · show ¬ 1 < 1
    omega

lemma selectAndAdd_requestOf (env : ℕ → Attempt) :
    selectAndAdd cfg crc32 cache (requestOf cfg g p uin cnt) env =
      selectLoop cfg crc32 env (nretry cfg) cache ⟨p, uin, cnt, 0⟩ ⟨p, uin, 0, []⟩ := by
  show selectLoop cfg crc32 env (nretry cfg) cache ⟨p, uin, cnt - 1 + 1, 0⟩ ⟨p, uin, 0, []⟩ = _
  rw [Int.sub_add_cancel]

lemma exec_sendOne {cache₀ : RingCache} (hbatch : 1 ≤ cfg.topic.batchLimit)
    (hid : cfg.topic.getQueueInfoIDByCount p cnt = .ok id) {t : Resender} (ht : t.reqs = [])
    (env : ℕ → Attempt) :
    let added := selectAndAdd cfg crc32 t.cache (requestOf cfg g p uin cnt) env
    (resender cfg crc32 (fun _ => 0) cache₀).exec t (sendOne g p uin cnt env) =
      { cache := added.cache
        consumerGroupId := g
        reqs := if added.result = .rawAdd .ok then [] else [requestOf cfg g p uin cnt]
        log := t.log ++ [⟨g, requestOf cfg g p uin cnt, added.targets, added.result⟩] } := by
  have hconsume : t.consume cfg (fun _ => 0) g (fun _ => 0) [itemOf p uin cnt] [.error] =
      { t with consumerGroupId := g, reqs := [requestOf cfg g p uin cnt] } := by
    unfold Resender.consume
    rw [ht]
    dsimp only
    rw [afterConsume_itemOf hbatch hid]
  show (t.consume cfg (fun _ => 0) g (fun _ => 0) [itemOf p uin cnt] [.error]).add cfg crc32 env = _
  rw [hconsume]
  rfl

def okAttempt : Attempt := ⟨0, fun _ => 0, 0, .ok⟩

def noRing (cfg : SelectConfig) : RingCache := { lastRebuildTime := cfg.lastModTime + 1 }

lemma noRing_ne (cfg : SelectConfig) : (noRing cfg).lastRebuildTime ≠ cfg.lastModTime :=
  Nat.succ_ne_self _

variable (crc32) in
/-- The second request of a thread uses the ring of the first one. -/
lemma exec_sendTwo (hids : cfg.StoreIds) (hbatch : 1 ≤ cfg.topic.batchLimit) {id₀ cnt₀ : ℤ}
    (hid₀ : cfg.topic.getQueueInfoIDByCount p₀ cnt₀ = .ok id₀)
    (hid : cfg.topic.getQueueInfoIDByCount p cnt = .ok id) (hring₀ : (cfg.ringOf p₀).entries ≠ [])
    (hserved : cfg.storeIdsOf p ≠ []) (g₀ g : ℕ) (uin : ℕ) (env : ℕ → Attempt) :
    ∃ cache : RingCache, cache.Uses cfg p₀ p ∧
      ⟨g, requestOf cfg g p uin cnt,
        (selectLoop cfg crc32 env (nretry cfg) cache ⟨p, uin, cnt, 0⟩ ⟨p, uin, 0, []⟩).targets,
        (selectLoop cfg crc32 env (nretry cfg) cache ⟨p, uin, cnt, 0⟩
          ⟨p, uin, 0, []⟩).result⟩ ∈
      ((resender cfg crc32 (fun _ => 0) (noRing cfg)).exec { cache := noRing cfg }
        (sendOne g₀ p₀ 0 cnt₀ (fun _ => okAttempt) ++ sendOne g p uin cnt env)).log := by
  have huses : (noRing cfg).Uses cfg p₀ p₀ :=
    ⟨rebuild_isOf (noRing_ne cfg), hring₀, storeIdsOf_ne_nil hring₀⟩
  obtain ⟨s, _, hloop⟩ := @selectLoop_of_ok cfg crc32 (noRing cfg) p₀ id₀ p₀ ⟨p₀, 0, 0, []⟩ 0 0
    cnt₀ ⟨p₀, 0, cnt₀, 0⟩ hids hid₀ (nretry cfg) huses ⟨rfl, rfl, rfl, rfl⟩ (fun _ => okAttempt) rfl
  refine ⟨(noRing cfg).rebuild cfg (cfg.storeIdsOf p₀), huses.isOf.uses hring₀ hserved, ?_⟩
  rw [Machine.exec_append, exec_sendOne hbatch hid₀ rfl]
  dsimp only
  rw [selectAndAdd_requestOf, hloop, if_pos rfl, exec_sendOne hbatch hid rfl]
  dsimp only
  rw [selectAndAdd_requestOf]
  exact List.mem_append_right _ (List.mem_singleton_self _)

section
variable (hstay : AllStay cfg crc32 gets) (hbatch : 1 ≤ cfg.topic.batchLimit)
include hstay hbatch

lemma stays_first (hp : p ∈ gets g) (hid : cfg.topic.getQueueInfoIDByCount p cnt = .ok id)
    (uin : ℕ) (env : ℕ → Attempt) :
    Stays cfg ⟨g, requestOf cfg g p uin cnt,
      (selectLoop cfg crc32 env (nretry cfg) (noRing cfg) ⟨p, uin, cnt, 0⟩ ⟨p, uin, 0, []⟩).targets,
      (selectLoop cfg crc32 env (nretry cfg) (noRing cfg) ⟨p, uin, cnt, 0⟩
        ⟨p, uin, 0, []⟩).result⟩ := by
  have hlog := hstay (fun _ => 0) (noRing cfg) (noRing_ne cfg) (sendOne g p uin cnt env)
    (gets_sendOne hp uin cnt env)
  rw [exec_sendOne hbatch hid rfl] at hlog
  have hlog := hlog _ (List.mem_append_right _ (List.mem_singleton_self _))
  rwa [selectAndAdd_requestOf] at hlog

lemma ring_of_stay (hp : SendsBack cfg gets g p id) : (cfg.ringOf p).entries ≠ [] := by
  obtain ⟨cnt, hid⟩ := hp.selects
  intro hnil
  obtain ⟨cache', result, hattempt, hne⟩ := @attempt_of_no_points cfg crc32 (noRing cfg) p
    ⟨p, 0, 0, []⟩ ⟨p, 0, cnt, 0⟩ hnil (noRing_ne cfg) rfl rfl okAttempt
  obtain ⟨ret, hret⟩ := (stays_first hstay hbatch hp.gets hid 0
    (fun _ => okAttempt)).added
  have hloop := @selectLoop_of_error cfg crc32 (noRing cfg) ⟨p, 0, 0, []⟩ ⟨p, 0, cnt, 0⟩
    (fun _ => okAttempt) (nretry cfg) cache' result hattempt
  rw [hloop] at hret
  exact hne ret hret

lemma queue_of_stay (hids : cfg.StoreIds) (hp : SendsBack cfg gets g p id) (uin : ℕ) (rand : Rand)
    {k : ℕ} (hk : k ≤ nretry cfg) : (cfg.queueOf crc32 id uin rand k).isSome := by
  have hring := ring_of_stay hstay hbatch hp
  obtain ⟨cnt, hid⟩ := hp.selects
  -- a number that is no queue of the group
  obtain ⟨garbage, hgarbage⟩ := Infinite.exists_notMem_finset
    ((getAllQueues cfg.topic cfg.protoStores g).map fun x => x.queueId).toFinset
  by_contra hno
  have hnone : cfg.queueOf crc32 id uin rand k = none := Option.not_isSome_iff_eq_none.mp hno
  have huses : (noRing cfg).Uses cfg p p :=
    ⟨rebuild_isOf (noRing_ne cfg), hring, storeIdsOf_ne_nil hring⟩
  obtain ⟨s, _, hmem⟩ := @mem_targets cfg crc32 (noRing cfg) p id p ⟨p, uin, 0, []⟩ uin 0 cnt
    ⟨p, uin, cnt, 0⟩ hids hid (nretry cfg) huses ⟨rfl, rfl, rfl, rfl⟩
    ⟨rand, fun _ => 0, garbage, .errSys⟩ rfl k hk
  rw [Nat.zero_add, hnone, Option.getD_none] at hmem
  have hlisted := (stays_first hstay hbatch hp.gets hid uin
    (fun _ => ⟨rand, fun _ => 0, garbage, .errSys⟩)).listed _ hmem
  obtain ⟨x, hx, hpair⟩ := List.mem_map.mp hlisted
  refine hgarbage (List.mem_toFinset.mpr (List.mem_map.mpr ⟨x, hx, ?_⟩))
  exact congrArg Prod.snd hpair

/-- The second request of a thread stays: it uses the ring of the first one. -/
lemma stays_second (hids : cfg.StoreIds) {g₀ : ℕ} {id₀ : ℤ} (hp₀ : SendsBack cfg gets g₀ p₀ id₀)
    (hp : SendsBack cfg gets g p id) (hid : cfg.topic.getQueueInfoIDByCount p cnt = .ok id)
    (uin : ℕ) (env : ℕ → Attempt) :
    ∃ cache : RingCache, cache.Uses cfg p₀ p ∧
      Stays cfg ⟨g, requestOf cfg g p uin cnt,
        (selectLoop cfg crc32 env (nretry cfg) cache ⟨p, uin, cnt, 0⟩ ⟨p, uin, 0, []⟩).targets,
        (selectLoop cfg crc32 env (nretry cfg) cache ⟨p, uin, cnt, 0⟩
          ⟨p, uin, 0, []⟩).result⟩ := by
  obtain ⟨cnt₀, hid₀⟩ := hp₀.selects
  obtain ⟨cache, huses, hlog⟩ := exec_sendTwo crc32 hids hbatch hid₀ hid
    (ring_of_stay hstay hbatch hp₀) (storeIdsOf_ne_nil (ring_of_stay hstay hbatch hp)) g₀ g uin env
  refine ⟨cache, huses, hstay (fun _ => 0) (noRing cfg) (noRing_ne cfg) _ ?_ _ hlog⟩
  intro e he
  rcases List.mem_append.mp he with he | he
  · exact gets_sendOne hp₀.gets 0 cnt₀ _ e he
  · exact gets_sendOne hp.gets uin cnt env e he

theorem oneRing_of_allStay (hids : cfg.StoreIds) : OneRing cfg crc32 gets := by
  refine ⟨fun g p id hp => ring_of_stay hstay hbatch hp,
    fun g p id hp uin rand k hk => queue_of_stay hstay hbatch hids hp uin rand hk, ?_⟩
  intro g₀ p₀ id₀ hp₀ g p id hp uin rand s hs
  obtain ⟨cnt, hid⟩ := hp.selects
  -- the target of attempt `k`, with these random numbers
  have htarget : ∀ rand', ∀ k ≤ nretry cfg, (k = 0 ∨ cfg.producerRetrySwitchStore = false) →
      ∀ q ∈ cfg.queueOf crc32 id uin rand' k, cfg.Serves s p ∧ Listed cfg g (s, q) := by
    intro rand' k hk hk' q hq
    obtain ⟨cache, huses, hstays⟩ := stays_second hstay hbatch hids hp₀ hp hid uin
      (fun _ => ⟨rand', fun _ => rand, 0, .errSys⟩)
    obtain ⟨s', hs', hmem⟩ := @mem_targets cfg crc32 cache p id p₀ ⟨p, uin, 0, []⟩ uin 0 cnt
      ⟨p, uin, cnt, 0⟩ hids hid (nretry cfg) huses ⟨rfl, rfl, rfl, rfl⟩
      ⟨rand', fun _ => rand, 0, .errSys⟩ rfl k hk
    rw [Nat.zero_add] at hs' hmem
    have hq : cfg.queueOf crc32 id uin rand' k = some q := hq
    rw [hq, Option.getD_some] at hmem
    have hs : cfg.storeOf p₀ uin rand 0 = some s := hs
    unfold SelectsStore at hs'
    rw [if_neg] at hs'
    · have hsame : s' = s := by
        have hs'' : cfg.storeOf p₀ uin rand k = some s' := hs'
        rcases hk' with rfl | hno
        · rw [hs] at hs''
          exact (Option.some.inj hs'').symm
        · rw [storeOf_of_not_switch hno, hs] at hs''
          exact (Option.some.inj hs'').symm
      rw [hsame] at hmem
      exact ⟨hstays.served _ hmem _ List.mem_cons_self, hstays.listed _ hmem⟩
    · rintro ⟨hswitch, hk0⟩
      rcases hk' with rfl | hno
      · exact hk0 rfl
      · rw [hno] at hswitch
        cases hswitch
  refine ⟨?_, fun rand' k hk hk' q hq => (htarget rand' k hk hk' q hq).2⟩
  obtain ⟨q, hq⟩ := Option.isSome_iff_exists.mp
    (queue_of_stay hstay hbatch hids hp uin 0 (Nat.zero_le _))
  exact (htarget 0 0 (Nat.zero_le _) (Or.inl rfl) q hq).1

end

end

/-! ## Two publishers that share a queue info -/

/-- What publishers and stores refer to is there. -/
structure NoDangling (cfg : SelectConfig) : Prop where
  queueInfos : ∀ pub ∈ cfg.topic.pubs, ∀ id ∈ pub.queueInfoIds,
    (cfg.topic.queueInfoId2queueInfo id).isSome
  pubs : ∀ store ∈ cfg.stores, ∀ p ∈ store.pubIds, (cfg.topic.pubId2pub p).isSome

/-- Publishers 1 and 2 of group 1 share queue info 1, which has queue 0 and is retried for ever. -/
def sharedConfig (stores : List RingStore) : SelectConfig where
  topicId := 1
  topic :=
    { pubs := [⟨1, [1], [1]⟩, ⟨2, [1], [1]⟩]
      queueInfos := [⟨1, [(0, 0)], false, -1⟩]
      itemsByteSizeLimit := 1024 }
  stores := stores
  lastModTime := 1

/-- A store for both publishers, and one for each. -/
def oneStore : SelectConfig := sharedConfig [⟨⟨1, []⟩, [], 1⟩]
def twoStores : SelectConfig := sharedConfig [⟨⟨1, [1]⟩, [], 1⟩, ⟨⟨2, [2]⟩, [], 1⟩]

section
variable {stores : List RingStore} {crc32 : ℕ → ℕ → ℕ → ℕ} {p id cnt : ℤ}

lemma getQueueInfoIDByCount_sharedConfig (hp : p = 1 ∨ p = 2) (cnt : ℤ) :
    (sharedConfig stores).topic.getQueueInfoIDByCount p cnt = .ok 1 := by
  rcases hp with rfl | rfl
  · rfl
  · rfl

lemma of_getQueueInfoIDByCount_sharedConfig
    (h : (sharedConfig stores).topic.getQueueInfoIDByCount p cnt = .ok id) :
    (p = 1 ∨ p = 2) ∧ id = 1 := by
  have hp : p = 1 ∨ p = 2 := by
    unfold TopicConfig.getQueueInfoIDByCount at h
    split at h
    · cases h
    · rename_i pub hpub
      obtain ⟨hmem, _, rfl⟩ := TopicConfig.of_pubId2pub hpub
      rcases List.mem_cons.mp hmem with rfl | hmem
      · exact Or.inl rfl
      · rw [List.mem_singleton.mp hmem]
        exact Or.inr rfl
  rw [getQueueInfoIDByCount_sharedConfig hp] at h
  cases h
  exact ⟨hp, rfl⟩

lemma queueOf_sharedConfig (uin : ℕ) (rand : Rand) (k : ℕ) :
    (sharedConfig stores).queueOf crc32 1 uin rand k = some 0 := by
  have hone : ∀ n : ℕ, (sharedConfig stores).topic.getQueueByLoopRank 1 n = some 0 := by
    intro n
    show TopicConfig.getQueueByRank (n % 1) [(0, 0)] = some 0
    rw [Nat.mod_one]
    rfl
  exact hone _

end

lemma serves_of_storeOf {cfg : SelectConfig} {p₀ s : ℤ} {uin : ℕ} {rand : Rand} {k : ℕ}
    (h : cfg.storeOf p₀ uin rand k = some s) : cfg.Serves s p₀ := by
  unfold SelectConfig.storeOf at h
  obtain ⟨⟨key, s'⟩, howner, hs⟩ := Option.map_eq_some_iff.mp h
  have hs : s' = s := hs
  rw [← hs]
  exact SelectConfig.serves_of_owner howner

/-- The ring of a publisher with one store of scale 1. -/
lemma ring_of_store_one {cfg : SelectConfig} {p : ℤ} (hserved : cfg.storeIdsOf p = [1])
    (hpoints : (cfg.points 1).length = 1) : (cfg.ringOf p).entries ≠ [] := by
  unfold SelectConfig.ringOf
  rw [hserved, List.flatMap_singleton]
  exact OrderedMap.build_entries_ne_nil (List.ne_nil_of_length_eq_add_one hpoints)

lemma storeIdsOf_oneStore {p : ℤ} (hp : p = 1 ∨ p = 2) : oneStore.storeIdsOf p = [1] := by
  rcases hp with rfl | rfl <;> decide

lemma ring_twoStores : (twoStores.ringOf 1).entries ≠ [] :=
  ring_of_store_one (by decide) rfl

lemma storeOf_twoStores {s : ℤ} {uin : ℕ} {rand : Rand} {k : ℕ}
    (h : twoStores.storeOf 1 uin rand k = some s) : s = 1 := by
  have hmem := SelectConfig.mem_storeIdsOf.mpr (serves_of_storeOf h)
  have hone : twoStores.storeIdsOf 1 = [1] := by decide
  rw [hone] at hmem
  exact List.mem_singleton.mp hmem

lemma not_serves_twoStores : ¬ twoStores.Serves 1 2 := by
  rw [← SelectConfig.mem_storeIdsOf]
  decide

lemma noDangling_twoStores : NoDangling twoStores :=
  ⟨by decide, by decide⟩

/-- An item of each publisher, and the request they are sent back in. -/
def mixedItems : List QItem := [{ pubId := 1, uin := 7 }, { pubId := 2, uin := 8 }]

def mixedRequest : AddRequest where
  topicId := 1
  items := [{ pubId := 1, uin := 7, count := 1, consumerGroupIds := 1 },
    { pubId := 2, uin := 8, count := 1, consumerGroupIds := 1 }]

theorem staleRing_lost (crc32 : ℕ → ℕ → ℕ → ℕ) :
    ∃ r ∈ ((resender twoStores crc32 (fun _ => 0) (noRing twoStores)).exec
        { cache := noRing twoStores } (sendOne 1 1 0 1 (fun _ => okAttempt) ++
          sendOne 1 2 8 1 (fun _ => okAttempt))).log,
      r.targets = [(1, 0)] ∧ r.result = .rawAdd .ok ∧ r.req.items.map QItem.pubId = [2] ∧
        ¬ Stays twoStores r := by
  have hids : twoStores.StoreIds := by decide
  have hserved : twoStores.storeIdsOf 2 ≠ [] := by decide
  obtain ⟨cache, huses, hlog⟩ := exec_sendTwo crc32 hids (by decide)
    (getQueueInfoIDByCount_sharedConfig (Or.inl rfl) 1)
    (getQueueInfoIDByCount_sharedConfig (Or.inr rfl) 1) ring_twoStores hserved 1 1 8
    (fun _ => okAttempt)
  obtain ⟨s, hs, hloop⟩ := @selectLoop_of_ok twoStores crc32 cache 2 1 1 ⟨2, 8, 0, []⟩ 8
    0 1 ⟨2, 8, 1, 0⟩ hids rfl (nretry twoStores) huses ⟨rfl, rfl, rfl, rfl⟩ (fun _ => okAttempt) rfl
  unfold SelectsStore at hs
  rw [if_neg (fun h => h.2 rfl)] at hs
  obtain rfl := storeOf_twoStores hs
  have hqueue : twoStores.queueOf crc32 1 8 okAttempt.queueRand 0 = some 0 :=
    queueOf_sharedConfig _ _ _
  rw [hqueue, Option.getD_some] at hloop
  rw [hloop] at hlog
  refine ⟨_, hlog, rfl, rfl, rfl, fun h => ?_⟩
  exact not_serves_twoStores (h.served (1, 0) (List.mem_singleton_self _) _ List.mem_cons_self)

end PhxQueue.Consumer
