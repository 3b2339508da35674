import PhxQueue.Store.CheckRequest

/-!
# Requests within the limits

What `Producer::MakeAddRequests` owes to `Store::CheckAddRequest`: every item once, in order, in
requests of one queue info that the store accepts, and `RET_ERR_SIZE_TOO_LARGE` exactly when some
item is too large by itself.  The code compares an item with the limit only where no request is
under way: an item that comes after another one of its queue info is put into a request of its own,
however large it is.

* `ExactRequests`       what the requests of a success are;
* `SplitsExactly`       the whole of it;
* `splitLoop_within`    without large items the requests are within the limits;
* `splitsExactly_iff`   **it holds if and only if a large item has another one first of its queue
                        info, or there is none**.
-/

set_option linter.unusedSectionVars false

namespace PhxQueue.Producer
open Comm PhxQueue.Config

section
variable (topic : TopicConfig)

def TooLarge (item : QItem) : Prop :=
  (queueInfoOf topic item).isSome ∧ topic.itemsByteSizeLimit < item.byteSize

instance (item : QItem) : Decidable (TooLarge topic item) := inferInstanceAs (Decidable (_ ∧ _))

/-- The item comes before all others of its queue info. -/
def FirstOf (items : List QItem) (item : QItem) : Prop :=
  ∃ id, (items.filter fun x => queueInfoOf topic x = some id).head? = some item

def Within (req : List QItem) : Prop :=
  (req.length : ℤ) ≤ topic.batchLimit ∧ (req.map QItem.byteSize).sum ≤ topic.itemsByteSizeLimit

/-- The requests that some items are split into. -/
structure ExactRequests (items : List QItem) (reqs : List AddRequest) : Prop where
  once : (reqs.flatMap AddRequest.items).Perm
    (items.filter fun item => (queueInfoOf topic item).isSome)
  inOrder : ∀ id, ((reqs.flatMap AddRequest.items).filter fun x => queueInfoOf topic x = some id) =
    items.filter fun x => queueInfoOf topic x = some id
  nonempty : ∀ req ∈ reqs, req.items ≠ []
  oneQueueInfo : ∀ req ∈ reqs, ∃ id, ∀ item ∈ req.items, queueInfoOf topic item = some id
  within : ∀ req ∈ reqs, Within topic req.items
  accepted : ∀ req ∈ reqs, ∀ (env : Store.CheckEnv) (storeId queueId : ℤ), env.topic = some topic →
    Store.checkRequestComm env storeId queueId = .ok →
    Store.checkAddRequest env { req with storeId := storeId, queueId := queueId } = .ok

structure SplitsExactly (topicId : ℤ) (items : List QItem) : Prop where
  exact : ∀ reqs, makeAddRequests topicId (some topic) items = .ok reqs →
    ExactRequests topic items reqs
  fails : 1 ≤ topic.batchLimit →
    (makeAddRequests topicId (some topic) items = .error .errSizeTooLarge ↔
      ∃ item ∈ items, TooLarge topic item)

variable {topic}

/-! ## Order -/

/-- Of the groups of all keys only the one of `k` has elements with the key `k`. -/
lemma filter_flatMap_filter {α β : Type} [DecidableEq β] (f : α → Option β) (l : List α)
    {ks : List β} (hks : ks.Nodup) (k : β) :
    ((ks.flatMap fun k' => l.filter fun x => f x = some k').filter fun x => f x = some k) =
      if k ∈ ks then l.filter fun x => f x = some k else [] := by
  induction ks with
  | nil => rfl
  | cons k' ks ih =>
    obtain ⟨hk', hks⟩ := List.nodup_cons.mp hks
    rw [List.flatMap_cons, List.filter_append, ih hks, List.filter_filter]
    by_cases hk : k = k'
    · subst hk
      rw [if_neg hk', if_pos List.mem_cons_self, List.append_nil]
      apply List.filter_congr
      intro x _
      exact Bool.and_self _
    · have hnone : (l.filter fun x => decide (f x = some k) && decide (f x = some k')) = [] := by
        refine List.filter_eq_nil_iff.mpr fun x _ hx => ?_
        obtain ⟨hx, hx'⟩ := Bool.and_eq_true_iff.mp hx
        exact hk (Option.some.inj ((of_decide_eq_true hx).symm.trans (of_decide_eq_true hx')))
      rw [hnone, List.nil_append]
      by_cases hmem : k ∈ ks
      · rw [if_pos hmem, if_pos (List.mem_cons_of_mem _ hmem)]
      · rw [if_neg hmem, if_neg fun h => (List.mem_cons.mp h).elim hk hmem]

/-- **The groups keep the order of the items of a queue info.** -/
lemma filter_groupItems (items : List QItem) (id : ℤ) :
    ((groupItems topic items).flatten.filter fun x => queueInfoOf topic x = some id) =
      items.filter fun x => queueInfoOf topic x = some id := by
  unfold groupItems
  rw [← List.flatMap_def, filter_flatMap_filter _ _ (nodup_elements _)]
  by_cases hid : id ∈ elements (items.filterMap (queueInfoOf topic))
  · rw [if_pos hid]
  · rw [if_neg hid]
    refine (List.filter_eq_nil_iff.mpr fun x hx hq => hid ?_).symm
    exact mem_elements.mpr (List.mem_filterMap.mpr ⟨x, hx, of_decide_eq_true hq⟩)

lemma mem_groupItems_head {items : List QItem} {item : QItem} :
    (∃ group ∈ groupItems topic items, item ∈ group.head?) ↔ FirstOf topic items item := by
  unfold groupItems FirstOf
  constructor
  · rintro ⟨group, hgroup, hitem⟩
    obtain ⟨id, _, rfl⟩ := List.mem_map.mp hgroup
    exact ⟨id, hitem⟩
  · rintro ⟨id, hid⟩
    have hmem := List.mem_filter.mp (List.mem_of_mem_head? hid)
    refine ⟨_, List.mem_map.mpr ⟨id, mem_elements.mpr ?_, rfl⟩, hid⟩
    exact List.mem_filterMap.mpr ⟨item, hmem.1, of_decide_eq_true hmem.2⟩

/-! ## Limits -/

/-- What holds of the variables of the loop while no item is too large. -/
structure Splitting.Within (topic : TopicConfig) (s : Splitting) : Prop where
  reqs : ∀ req ∈ s.reqs, Producer.Within topic req
  req : Producer.Within topic s.req
  batch : s.batch = s.req.length
  byteSize : s.byteSize = (s.req.map QItem.byteSize).sum

lemma within_singleton {item : QItem} (hfit : Fits topic item) : Within topic [item] := by
  refine ⟨?_, ?_⟩
  · rw [List.length_singleton]
    exact hfit.1
  · rw [List.map_singleton, List.sum_singleton]
    exact hfit.2

lemma splitItem_within {s s' : Splitting} (h : s.Within topic) {item : QItem}
    (hfit : Fits topic item) (hs : splitItem topic s item = .ok s') : s'.Within topic := by
  unfold splitItem at hs
  split at hs
  · -- the request under way is full, and the item begins another one
    split at hs
    · cases hs
    · cases hs
      refine ⟨?_, within_singleton hfit, rfl, ?_⟩
      · intro req hreq
        rcases List.mem_append.mp hreq with hreq | hreq
        · exact h.reqs req hreq
        · rw [List.mem_singleton.mp hreq]
          exact h.req
      · exact List.sum_singleton.symm
  · rename_i hroom
    cases hs
    have hbatch := h.batch
    have hbytes := h.byteSize
    have hlength : ((s.req ++ [item]).length : ℤ) = s.req.length + 1 := by
      rw [List.length_append, List.length_singleton, Nat.cast_add, Nat.cast_one]
    have hsum : ((s.req ++ [item]).map QItem.byteSize).sum =
        (s.req.map QItem.byteSize).sum + item.byteSize := by
      rw [List.map_append, List.sum_append, List.map_singleton, List.sum_singleton]
    refine ⟨h.reqs, ⟨?_, ?_⟩, ?_, ?_⟩
    · dsimp only
      omega
    · dsimp only
      omega
    · dsimp only
      omega
    · dsimp only
      omega

/-- **Without large items all requests are within the limits.** -/
lemma splitLoop_within {s s' : Splitting} (h : s.Within topic) {items : List QItem}
    (hfit : ∀ item ∈ items, Fits topic item) (hs : splitLoop topic s items = .ok s') :
    s'.Within topic := by
  induction items generalizing s with
  | nil =>
    cases hs
    exact h
  | cons item items ih =>
    unfold splitLoop at hs
    cases hitem : splitItem topic s item with
    | error ret =>
      rw [hitem] at hs
      cases hs
    | ok s₁ =>
      rw [hitem] at hs
      exact ih (splitItem_within h (hfit item List.mem_cons_self) hitem)
        (fun x hx => hfit x (List.mem_cons_of_mem _ hx)) hs

lemma splitGroup_within {group : List QItem} {reqs : List (List QItem)} (hbatch : 1 ≤ topic.batchLimit)
    (hfit : ∀ item ∈ group, Fits topic item) (h : splitGroup topic group = .ok reqs) :
    ∀ req ∈ reqs, Within topic req := by
  unfold splitGroup at h
  cases hloop : splitLoop topic {} group with
  | error ret =>
    rw [hloop] at h
    cases h
  | ok s =>
    rw [hloop] at h
    cases h
    have hinit : ({} : Splitting).Within topic := by
      refine ⟨fun req hreq => absurd hreq List.not_mem_nil, ⟨?_, Nat.zero_le _⟩, rfl, rfl⟩
      exact Int.le_of_lt hbatch
    have hs := splitLoop_within hinit hfit hloop
    intro req hreq
    split at hreq
    · exact hs.reqs req hreq
    · rcases List.mem_append.mp hreq with hreq | hreq
      · exact hs.reqs req hreq
      · rw [List.mem_singleton.mp hreq]
        exact hs.req

lemma splitGroups_within {groups reqs : List (List QItem)} (hbatch : 1 ≤ topic.batchLimit)
    (hfit : ∀ group ∈ groups, ∀ item ∈ group, Fits topic item)
    (h : splitGroups topic groups = .ok reqs) : ∀ req ∈ reqs, Within topic req := by
  induction groups generalizing reqs with
  | nil =>
    cases h
    exact fun req hreq => absurd hreq List.not_mem_nil
  | cons group groups ih =>
    unfold splitGroups at h
    cases hhead : splitGroup topic group with
    | error ret =>
      rw [hhead] at h
      cases h
    | ok head =>
      rw [hhead] at h
      cases htail : splitGroups topic groups with
      | error ret =>
        rw [htail] at h
        cases h
      | ok tail =>
        rw [htail] at h
        cases h
        intro req hreq
        rcases List.mem_append.mp hreq with hreq | hreq
        · exact splitGroup_within hbatch (hfit group List.mem_cons_self) hhead req hreq
        · exact ih (fun g hg => hfit g (List.mem_cons_of_mem _ hg)) htail req hreq

/-! ## The claim of a split -/

/-- The store accepts a request of a queue of its own that is within the limits. -/
lemma checkAddRequest_of_within {req : AddRequest} (h : Within topic req.items)
    {env : Store.CheckEnv} {storeId queueId : ℤ} (henv : env.topic = some topic)
    (hcomm : Store.checkRequestComm env storeId queueId = .ok) :
    Store.checkAddRequest env { req with storeId := storeId, queueId := queueId } = .ok :=
  Store.checkAddRequest_ok_iff.mpr ⟨hcomm, topic, henv, h.2⟩

lemma makeAddRequests_ok {topicId : ℤ} {items : List QItem} {reqs : List AddRequest}
    (h : makeAddRequests topicId (some topic) items = .ok reqs) :
    ∃ split, splitGroups topic (groupItems topic items) = .ok split ∧
      reqs = split.map fun items => { topicId := topicId, items := items } := by
  unfold makeAddRequests at h
  dsimp only at h
  cases hsplit : splitGroups topic (groupItems topic items) with
  | error ret =>
    rw [hsplit] at h
    cases h
  | ok split =>
    rw [hsplit] at h
    cases h
    exact ⟨split, rfl, rfl⟩

lemma exactRequests_of_fits {topicId : ℤ} {items : List QItem} {reqs : List AddRequest}
    (hlarge : ∀ item ∈ items, ¬ TooLarge topic item)
    (h : makeAddRequests topicId (some topic) items = .ok reqs) : ExactRequests topic items reqs := by
  have hfirsts : FirstsFit topic items := by
    by_contra hno
    rw [makeAddRequests_error topicId hno] at h
    cases h
  obtain ⟨reqs', hmake, hperm, hne⟩ := makeAddRequests_perm topicId hfirsts
  cases h.symm.trans hmake
  obtain ⟨split, hsplit, rfl⟩ := makeAddRequests_ok h
  obtain ⟨split', hsplit', hall, _⟩ := splitGroups_ok (fun _ => ne_nil_of_mem_groupItems) hfirsts
  cases hsplit.symm.trans hsplit'
  have hitems : (split.map fun items => ({ topicId, items } : AddRequest)).flatMap
      AddRequest.items = split.flatten := by
    rw [List.flatMap_map]
    exact List.flatMap_id'
  have hwithin : ∀ req ∈ split.map fun items => ({ topicId, items } : AddRequest),
      Within topic req.items := by
    intro req hreq
    have hbatch := (mem_of_makeAddRequests h hreq).2.1
    obtain ⟨r, hr, rfl⟩ := List.mem_map.mp hreq
    refine splitGroups_within hbatch ?_ hsplit r hr
    intro group hgroup item hitem
    obtain ⟨id, _, rfl⟩ := List.mem_map.mp hgroup
    obtain ⟨hmem, hid⟩ := List.mem_filter.mp hitem
    refine ⟨hbatch, Nat.not_lt.mp fun hsize => hlarge item hmem ⟨?_, hsize⟩⟩
    rw [of_decide_eq_true hid]
    rfl
  refine ⟨hperm, fun id => ?_, hne, fun req hreq => ?_, hwithin, fun req hreq => ?_⟩
  · rw [hitems, hall]
    exact filter_groupItems items id
  · obtain ⟨_, _, id, hid⟩ := mem_of_makeAddRequests h hreq
    exact ⟨id, fun item hitem => (hid item hitem).2⟩
  · intro env storeId queueId henv hcomm
    exact checkAddRequest_of_within (hwithin req hreq) henv hcomm

lemma not_firstsFit_iff (hbatch : 1 ≤ topic.batchLimit) {items : List QItem} :
    ¬ FirstsFit topic items ↔ ∃ item, FirstOf topic items item ∧ TooLarge topic item := by
  have hlarge : ∀ {group item}, group ∈ groupItems topic items → item ∈ group.head? →
      (¬ Fits topic item ↔ TooLarge topic item) := by
    intro group item hgroup hitem
    obtain ⟨id, _, rfl⟩ := List.mem_map.mp hgroup
    have hid := (List.mem_filter.mp (List.mem_of_mem_head? hitem)).2
    unfold Fits TooLarge
    rw [of_decide_eq_true hid, and_iff_right hbatch, not_le]
    exact (and_iff_right rfl).symm
  unfold FirstsFit HeadsFit
  push Not
  constructor
  · rintro ⟨group, hgroup, item, hitem, hfit⟩
    exact ⟨item, mem_groupItems_head.mp ⟨group, hgroup, hitem⟩, (hlarge hgroup hitem).mp hfit⟩
  · rintro ⟨item, hfirst, hsize⟩
    obtain ⟨group, hgroup, hitem⟩ := mem_groupItems_head.mpr hfirst
    exact ⟨group, hgroup, item, hitem, (hlarge hgroup hitem).mpr hsize⟩

lemma mem_of_firstOf {items : List QItem} {item : QItem} (h : FirstOf topic items item) :
    item ∈ items := by
  obtain ⟨id, hid⟩ := h
  exact (List.mem_filter.mp (List.mem_of_mem_head? hid)).1

/-- **When splitting is exact.**  If and only if, whenever some item is too large, one that comes
first of its queue info is. -/
theorem splitsExactly_iff (topic : TopicConfig) (topicId : ℤ) (items : List QItem) :
    SplitsExactly topic topicId items ↔
      (1 ≤ topic.batchLimit → (∃ item ∈ items, TooLarge topic item) →
        ∃ item, FirstOf topic items item ∧ TooLarge topic item) := by
  constructor
  · intro h hbatch hlarge
    apply (not_firstsFit_iff hbatch).mp
    intro hfirsts
    obtain ⟨reqs, hmake, _⟩ := makeAddRequests_perm topicId hfirsts
    rw [(h.fails hbatch).mpr hlarge] at hmake
    cases hmake
  · intro h
    refine ⟨fun reqs hmake => exactRequests_of_fits ?_ hmake, fun hbatch => ?_⟩
    · intro item hitem hsize
      obtain ⟨split, hsplit, rfl⟩ := makeAddRequests_ok hmake
      have hfirsts : FirstsFit topic items := by
        by_contra hno
        rw [makeAddRequests_error topicId hno] at hmake
        cases hmake
      -- the item is in a group, whose first item fits: so the count limit is positive
      obtain ⟨id, hid⟩ := Option.isSome_iff_exists.mp hsize.1
      have hgroup : (items.filter fun x => queueInfoOf topic x = some id) ∈ groupItems topic items :=
        List.mem_map.mpr ⟨id, mem_elements.mpr (List.mem_filterMap.mpr ⟨item, hitem, hid⟩), rfl⟩
      obtain ⟨first, rest, hcons⟩ := List.exists_cons_of_ne_nil (ne_nil_of_mem_groupItems hgroup)
      have hfit : Fits topic first := hfirsts _ hgroup first (by rw [hcons]; rfl)
      exact (not_firstsFit_iff hfit.1).mpr (h hfit.1 ⟨item, hitem, hsize⟩) hfirsts
    · constructor
      · intro hmake
        have hno : ¬ FirstsFit topic items := by
          intro hfirsts
          obtain ⟨reqs, hok, _⟩ := makeAddRequests_perm topicId hfirsts
          rw [hok] at hmake
          cases hmake
        obtain ⟨item, hfirst, hsize⟩ := (not_firstsFit_iff hbatch).mp hno
        exact ⟨item, mem_of_firstOf hfirst, hsize⟩
      · intro hlarge
        exact makeAddRequests_error topicId ((not_firstsFit_iff hbatch).mpr (h hbatch hlarge))

/-- A publisher with one queue info, and a limit of 10 bytes. -/
def tenBytes : TopicConfig where
  pubs := [⟨1, [1], [1]⟩]
  queueInfos := [{ queueInfoId := 1, ranges := [(0, 9)] }]
  itemsByteSizeLimit := 10

/-- **Counterexample.**  An item of 11 bytes after one of a byte is put into a request of its own. -/
theorem largeSecond_not_exact : ¬ SplitsExactly tenBytes 1
    [{ pubId := 1, byteSize := 1 }, { pubId := 1, byteSize := 11 }] := by
  intro h
  have hfails := (h.fails (by decide)).mpr
    ⟨{ pubId := 1, byteSize := 11 }, by decide, by decide⟩
  revert hfails
  decide

end

end PhxQueue.Producer
