import PhxQueue.Consumer.Routing
import PhxQueue.Producer.Selector

/-!
# Handle buckets

`MakeHandleBuckets` of `consumer/consumer.cpp` gives each handler a queue of the indexes of its
items.  Where items are dispatched by uin, those of one uin go together; the others take the buckets
that are free, and then random ones.

* `bucketOf`, `fillBuckets`, `makeHandleBuckets`   the code;
* `Dealt`                 what the loop has made of the items before it;
* `Partitions`            every index in one bucket, once and in order;
* `fillBuckets_dealt`     the loop deals;
* `partitions_of_ok`      **the buckets partition the items**;
* `makeHandleBuckets_isOk_iff`   what it needs to succeed.
-/

set_option linter.unusedSectionVars false

namespace PhxQueue.Consumer
open Comm PhxQueue.Config Producer

/-! ## The code -/

/-- What `MakeHandleBuckets` reads of its surroundings: the topic configuration or why there is none,
`handle_by_random_uin` of a queue info, the queue of the batch, and the random number of an item. -/
structure BucketEnv where
  topic : Except RetCode TopicConfig
  handleByRandomUin : ℤ → Bool := fun _ => false
  queueId : ℤ
  rand : ℕ → Rand

structure Filling where
  nbucketUsed : ℕ := 0
  uin2bucketIdx : Std.ExtTreeMap ℕ ℕ := ∅
  handleBuckets : List (List ℕ)

/-- The bucket of an item and how many are used then; `none` is a division by zero. -/
def bucketOf (nhandler : ℕ) (byUin : Bool) (rand : Rand) (item : QItem) (s : Filling) :
    Option (ℕ × ℕ) :=
  match if item.uin ≠ 0 ∧ byUin then s.uin2bucketIdx[item.uin]? else none with
  | some bucketIdx => some (bucketIdx, s.nbucketUsed)
  | none =>
    if s.nbucketUsed ≥ nhandler then
      if nhandler = 0 then none else some (rand.val % nhandler, s.nbucketUsed)
    else some (s.nbucketUsed, s.nbucketUsed + 1)

/-- The loop body of the item with index `i`. -/
def pushItem (nhandler : ℕ) (byUin : Bool) (rand : Rand) (i : ℕ) (item : QItem) (s : Filling) :
    Option Filling :=
  match bucketOf nhandler byUin rand item s with
  | none => none
  | some (bucketIdx, nbucketUsed) =>
    some {
      nbucketUsed
      uin2bucketIdx :=
        if item.uin ≠ 0 ∧ byUin then s.uin2bucketIdx.insertIfNew item.uin bucketIdx
        else s.uin2bucketIdx
      handleBuckets := s.handleBuckets.modify bucketIdx (· ++ [i]) }

/-- The loop, from the item with index `i` on. -/
def fillBuckets (nhandler : ℕ) (byUin : Bool) (rand : ℕ → Rand) :
    ℕ → List QItem → Filling → Option Filling
  | _, [], s => some s
  | i, item :: items, s =>
    match pushItem nhandler byUin (rand i) i item s with
    | none => none
    | some s => fillBuckets nhandler byUin rand (i + 1) items s

def clearBuckets (handleBuckets : List (List ℕ)) : List (List ℕ) := handleBuckets.map fun _ => []

/-- `none` when the process dies, and else what is returned and the buckets that are left. -/
def makeHandleBuckets (env : BucketEnv) (items : List QItem) (handleBuckets : List (List ℕ)) :
    Option (Except RetCode Unit × List (List ℕ)) :=
  let handleBuckets := clearBuckets handleBuckets
  match env.topic with
  | .error ret => some (.error ret, handleBuckets)
  | .ok topic =>
    match topic.getQueueInfoByQueue env.queueId with
    | .error ret => some (.error ret, handleBuckets)
    | .ok queueInfo =>
      (fillBuckets handleBuckets.length (!env.handleByRandomUin queueInfo.queueInfoId) env.rand 0
        items { handleBuckets }).map fun s => (.ok (), s.handleBuckets)

/-! ## Partitions -/

/-- Every index is in one bucket, once; each bucket is in order; and items of one uin are in one
bucket, where items are dispatched by uin. -/
structure Partitions (nhandler : ℕ) (byUin : Bool) (items : List QItem)
    (handleBuckets : List (List ℕ)) : Prop where
  length : handleBuckets.length = nhandler
  once : handleBuckets.flatten.Perm (List.range items.length)
  sorted : ∀ bucket ∈ handleBuckets, bucket.Pairwise (· < ·)
  together : byUin → ∀ i j item item', items[i]? = some item → items[j]? = some item' →
    item.uin ≠ 0 → item.uin = item'.uin → ∃ bucket ∈ handleBuckets, i ∈ bucket ∧ j ∈ bucket

/-- What the loop has made of the first `n` items. -/
structure Dealt (nhandler : ℕ) (byUin : Bool) (items : List QItem) (n : ℕ) (s : Filling) :
    Prop where
  length : s.handleBuckets.length = nhandler
  used : s.nbucketUsed ≤ nhandler
  bound : ∀ (uin bucketIdx : ℕ), s.uin2bucketIdx[uin]? = some bucketIdx → bucketIdx < nhandler
  once : s.handleBuckets.flatten.Perm (List.range n)
  sorted : ∀ bucket ∈ s.handleBuckets, bucket.Pairwise (· < ·)
  together : byUin → ∀ i < n, ∀ item, items[i]? = some item → item.uin ≠ 0 →
    ∃ (bucketIdx : ℕ) (bucket : List ℕ), s.uin2bucketIdx[item.uin]? = some bucketIdx ∧
      s.handleBuckets[bucketIdx]? = some bucket ∧ i ∈ bucket

section
variable {nhandler n : ℕ} {byUin : Bool} {items : List QItem} {s s' : Filling} {item : QItem}

lemma flatten_modify_perm {α : Type} (ls : List (List α)) {k : ℕ} (hk : k < ls.length) (x : α) :
    (ls.modify k (· ++ [x])).flatten.Perm (ls.flatten ++ [x]) := by
  induction ls generalizing k with
  | nil => exact absurd hk (Nat.not_lt_zero k)
  | cons l ls ih =>
    cases k with
    | zero =>
      rw [List.modify_zero_cons, List.flatten_cons, List.flatten_cons, List.append_assoc,
        List.append_assoc]
      exact (List.perm_append_comm).append_left l
    | succ k =>
      rw [List.modify_succ_cons, List.flatten_cons, List.flatten_cons, List.append_assoc]
      exact (ih (Nat.lt_of_succ_lt_succ hk)).append_left l

lemma Dealt.lt (h : Dealt nhandler byUin items n s) {bucket : List ℕ}
    (hbucket : bucket ∈ s.handleBuckets) {i : ℕ} (hi : i ∈ bucket) : i < n := by
  have hmem : i ∈ s.handleBuckets.flatten := List.mem_flatten.mpr ⟨bucket, hbucket, hi⟩
  exact List.mem_range.mp (h.once.mem_iff.mp hmem)

/-- The bucket of an item: the one of its uin, or another one that exists. -/
lemma Dealt.bucketOf_lt (h : Dealt nhandler byUin items n s) {rand : Rand} {bucketIdx used : ℕ}
    (hb : bucketOf nhandler byUin rand item s = some (bucketIdx, used)) :
    bucketIdx < nhandler ∧ used ≤ nhandler ∧ (item.uin ≠ 0 → byUin →
      (s.uin2bucketIdx.insertIfNew item.uin bucketIdx)[item.uin]? = some bucketIdx) := by
  have hinsert : (s.uin2bucketIdx.insertIfNew item.uin bucketIdx)[item.uin]? =
      s.uin2bucketIdx[item.uin]?.or (some bucketIdx) := by
    rw [Std.ExtTreeMap.getElem?_insertIfNew]
    by_cases hmem : item.uin ∈ s.uin2bucketIdx
    · simp [hmem]
    · simp [hmem]
  rw [hinsert]
  unfold bucketOf at hb
  split at hb
  · rename_i idx hidx
    cases hb
    split at hidx
    · exact ⟨h.bound _ _ hidx, h.used, fun _ _ => by rw [hidx]; rfl⟩
    · cases hidx
  · rename_i hidx
    have hfree : item.uin ≠ 0 → byUin →
        s.uin2bucketIdx[item.uin]?.or (some bucketIdx) = some bucketIdx := by
      intro huin hby
      rw [if_pos ⟨huin, hby⟩] at hidx
      rw [hidx]
      rfl
    split at hb
    · split at hb
      · cases hb
      · cases hb
        exact ⟨Nat.mod_lt _ (by omega), h.used, hfree⟩
    · cases hb
      exact ⟨by omega, by omega, hfree⟩

lemma Dealt.pushItem (h : Dealt nhandler byUin items n s) {rand : Rand}
    (hitem : items[n]? = some item) (hs : pushItem nhandler byUin rand n item s = some s') :
    Dealt nhandler byUin items (n + 1) s' := by
  unfold Consumer.pushItem at hs
  split at hs
  · cases hs
  rename_i bucketIdx used hb
  cases hs
  obtain ⟨hlt, hused, hown⟩ := h.bucketOf_lt hb
  have hk : bucketIdx < s.handleBuckets.length := h.length ▸ hlt
  constructor
  · exact (List.length_modify _ _ _).trans h.length
  · exact hused
  · intro uin idx hidx
    dsimp only at hidx
    split at hidx
    · rw [Std.ExtTreeMap.getElem?_insertIfNew] at hidx
      split at hidx
      · cases hidx
        exact hlt
      · exact h.bound uin idx hidx
    · exact h.bound uin idx hidx
  · rw [List.range_succ]
    exact (flatten_modify_perm _ hk n).trans (h.once.append_right [n])
  · intro bucket hbucket
    obtain ⟨k, hk⟩ := List.mem_iff_getElem?.mp hbucket
    rw [List.getElem?_modify] at hk
    obtain ⟨bucket', hbucket', rfl⟩ := Option.map_eq_some_iff.mp hk
    have hmem := List.mem_of_getElem? hbucket'
    split
    · rw [List.pairwise_append]
      refine ⟨h.sorted bucket' hmem, List.pairwise_singleton _ _, fun i hi j hj => ?_⟩
      rw [List.mem_singleton.mp hj]
      exact h.lt hmem hi
    · exact h.sorted bucket' hmem
  · intro hby i hi item' hitem' huin
    rcases Nat.lt_succ_iff_lt_or_eq.mp hi with hi | rfl
    · -- an item that has been dealt stays where it is, and so does the bucket of its uin
      obtain ⟨idx, bucket, hidx, hbucket, hmem⟩ := h.together hby i hi item' hitem' huin
      refine ⟨idx, if bucketIdx = idx then bucket ++ [n] else bucket, ?_, ?_, ?_⟩
      · dsimp only
        split
        · rw [Std.ExtTreeMap.getElem?_insertIfNew, if_neg, hidx]
          rintro ⟨heq, hnot⟩
          rw [Std.LawfulEqCmp.compare_eq_iff_eq.mp heq, Std.ExtTreeMap.mem_iff_isSome_getElem?,
            hidx] at hnot
          exact hnot rfl
        · exact hidx
      · rw [List.getElem?_modify, hbucket]
        split
        · rfl
        · rfl
      · split
        · exact List.mem_append_left _ hmem
        · exact hmem
    · rw [hitem] at hitem'
      cases hitem'
      refine ⟨bucketIdx, s.handleBuckets[bucketIdx] ++ [i], ?_, ?_, by simp⟩
      · dsimp only
        rw [if_pos ⟨huin, hby⟩]
        exact hown huin hby
      · rw [List.getElem?_modify_eq, List.getElem?_eq_getElem hk]
        rfl

/-- **The loop deals out the items.** -/
lemma fillBuckets_dealt {rand : ℕ → Rand} {rest : List QItem} (hrest : items.drop n = rest)
    (hlen : n ≤ items.length) (h : Dealt nhandler byUin items n s)
    (hs : fillBuckets nhandler byUin rand n rest s = some s') :
    Dealt nhandler byUin items items.length s' := by
  induction rest generalizing n s with
  | nil =>
    cases hs
    rw [le_antisymm (List.drop_eq_nil_iff.mp hrest) hlen]
    exact h
  | cons item rest ih =>
    unfold fillBuckets at hs
    split at hs
    · cases hs
    rename_i s₁ hs₁
    have hitem : items[n]? = some item := by
      rw [← List.head?_drop, hrest]
      rfl
    have hdrop : items.drop (n + 1) = rest := by
      rw [← List.tail_drop, hrest]
      rfl
    have hlt : n < items.length := (List.getElem?_eq_some_iff.mp hitem).1
    exact ih hdrop hlt (h.pushItem hitem hs₁) hs

lemma dealt_zero (handleBuckets : List (List ℕ)) : Dealt handleBuckets.length byUin items 0
    { handleBuckets := clearBuckets handleBuckets } := by
  have hnil : ∀ bucket ∈ clearBuckets handleBuckets, bucket = [] := by
    intro bucket hbucket
    obtain ⟨_, _, rfl⟩ := List.mem_map.mp hbucket
    rfl
  constructor
  · exact List.length_map _
  · exact Nat.zero_le _
  · intro uin idx hidx
    cases hidx
  · rw [List.flatten_eq_nil_iff.mpr hnil]
    exact List.Perm.refl _
  · intro bucket hbucket
    rw [hnil bucket hbucket]
    exact List.Pairwise.nil
  · exact fun _ i hi => absurd hi (Nat.not_lt_zero i)

lemma bucketOf_isSome {rand : Rand} (hpos : 0 < nhandler) :
    ∃ b, bucketOf nhandler byUin rand item s = some b := by
  unfold bucketOf
  split
  · exact ⟨_, rfl⟩
  · split
    · exact ⟨_, if_neg (Nat.pos_iff_ne_zero.mp hpos)⟩
    · exact ⟨_, rfl⟩

lemma fillBuckets_isSome (rand : ℕ → Rand) (i : ℕ) (items : List QItem) (s : Filling)
    (hpos : 0 < nhandler) : (fillBuckets nhandler byUin rand i items s).isSome := by
  induction items generalizing i s with
  | nil => rfl
  | cons item items ih =>
    obtain ⟨⟨bucketIdx, used⟩, hb⟩ := @bucketOf_isSome nhandler byUin s item (rand i) hpos
    unfold fillBuckets pushItem
    rw [hb]
    exact ih _ _

end

section
variable {env : BucketEnv} {items : List QItem} {handleBuckets buckets : List (List ℕ)}

theorem partitions_of_ok (h : makeHandleBuckets env items handleBuckets = some (.ok (), buckets)) :
    ∃ topic queueInfo, env.topic = .ok topic ∧ topic.getQueueInfoByQueue env.queueId = .ok queueInfo ∧
      Partitions handleBuckets.length (!env.handleByRandomUin queueInfo.queueInfoId) items buckets := by
  unfold makeHandleBuckets at h
  dsimp only at h
  split at h
  · cases h
  rename_i topic htopic
  split at h
  · cases h
  rename_i queueInfo hqueueInfo
  refine ⟨topic, queueInfo, htopic, hqueueInfo, ?_⟩
  obtain ⟨s, hs, heq⟩ := Option.map_eq_some_iff.mp h
  cases heq
  have hlen : (clearBuckets handleBuckets).length = handleBuckets.length := List.length_map _
  rw [hlen] at hs
  obtain ⟨hlength, _, _, honce, hsorted, htogether⟩ :=
    fillBuckets_dealt (List.drop_zero) (Nat.zero_le _) (dealt_zero handleBuckets) hs
  refine ⟨hlength, honce, hsorted, fun hby i j item item' hi hj huin heq => ?_⟩
  have hlt := (List.getElem?_eq_some_iff.mp hi).1
  have hlt' := (List.getElem?_eq_some_iff.mp hj).1
  obtain ⟨idx, bucket, hidx, hbucket, hmem⟩ := htogether hby i hlt item hi huin
  obtain ⟨idx', bucket', hidx', hbucket', hmem'⟩ := htogether hby j hlt' item' hj (heq ▸ huin)
  rw [← heq, hidx] at hidx'
  cases hidx'
  rw [hbucket] at hbucket'
  cases hbucket'
  exact ⟨bucket, List.mem_of_getElem? hbucket, hmem, hmem'⟩

lemma flatten_clearBuckets (handleBuckets : List (List ℕ)) :
    (clearBuckets handleBuckets).flatten = [] := by
  unfold clearBuckets
  rw [List.flatten_eq_nil_iff, List.forall_mem_map]
  exact fun _ _ => rfl

lemma buckets_of_error {ret : RetCode}
    (h : makeHandleBuckets env items handleBuckets = some (.error ret, buckets)) :
    buckets = clearBuckets handleBuckets := by
  unfold makeHandleBuckets at h
  dsimp only at h
  split at h
  · cases h
    rfl
  · split at h
    · cases h
      rfl
    · obtain ⟨s, _, heq⟩ := Option.map_eq_some_iff.mp h
      cases heq

lemma exists_buckets (items : List QItem) {topic : TopicConfig} {queueInfo : QueueInfo}
    (htopic : env.topic = .ok topic)
    (hqueueInfo : topic.getQueueInfoByQueue env.queueId = .ok queueInfo)
    (hpos : 0 < handleBuckets.length) :
    ∃ buckets, makeHandleBuckets env items handleBuckets = some (.ok (), buckets) := by
  have hlen : (clearBuckets handleBuckets).length = handleBuckets.length := List.length_map _
  obtain ⟨s, hs⟩ := Option.isSome_iff_exists.mp (fillBuckets_isSome env.rand 0 items
    { handleBuckets := clearBuckets handleBuckets } hpos)
  refine ⟨s.handleBuckets, ?_⟩
  unfold makeHandleBuckets
  dsimp only
  rw [htopic]
  dsimp only
  rw [hqueueInfo]
  dsimp only
  rw [hlen, hs]
  rfl

/-- **What it needs to succeed**: the configuration, and a handler where there is an item. -/
theorem makeHandleBuckets_isOk_iff (hne : items ≠ []) :
    (∃ buckets, makeHandleBuckets env items handleBuckets = some (.ok (), buckets)) ↔
      (∃ topic queueInfo, env.topic = .ok topic ∧
        topic.getQueueInfoByQueue env.queueId = .ok queueInfo) ∧ 0 < handleBuckets.length := by
  constructor
  · rintro ⟨buckets, h⟩
    obtain ⟨topic, queueInfo, htopic, hqueueInfo, hpart⟩ := partitions_of_ok h
    refine ⟨⟨topic, queueInfo, htopic, hqueueInfo⟩, ?_⟩
    by_contra hzero
    have hnil : buckets = [] := List.length_eq_zero_iff.mp (by rw [hpart.length]; omega)
    have honce := hpart.once
    rw [hnil, List.flatten_nil] at honce
    have hlength := honce.length_eq
    rw [List.length_range] at hlength
    exact hne (List.length_eq_zero_iff.mp hlength.symm)
  · rintro ⟨⟨topic, queueInfo, htopic, hqueueInfo⟩, hpos⟩
    exact exists_buckets items htopic hqueueInfo hpos

end

end PhxQueue.Consumer
