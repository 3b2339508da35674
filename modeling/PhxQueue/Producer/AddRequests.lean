import PhxQueue.Config.TopicConfig

/-!
# Making add requests

`Producer::MakeAddRequests`, which the producer calls with one item and the consumer with the items
it sends back: items are grouped by queue info, and the groups are split into requests within the
limits of the topic.  The items here are the copies, already updated.

* `makeAddRequests`          the code;
* `makeAddRequests_perm`     the requests hold the items that have a queue info, each once;
* `makeAddRequests_error`    it fails at a group whose first item is too large by itself;
* `mem_of_makeAddRequests`   the items of a request select the same queue info.
-/

set_option linter.unusedSectionVars false

namespace PhxQueue.Producer
open Comm Config

/-- `comm::proto::AddRequest`. -/
structure AddRequest where
  topicId : ℤ
  storeId : ℤ := -1
  queueId : ℤ := -1
  items : List QItem
deriving DecidableEq

/-- The variables of the loop over a group; an empty `req` is not allocated. -/
structure Splitting where
  reqs : List (List QItem) := []
  req : List QItem := []
  batch : ℤ := 0
  byteSize : ℕ := 0

section
variable (topic : TopicConfig)

/-- The queue info that the retry count of an item selects. -/
def queueInfoOf (item : QItem) : Option ℤ :=
  (topic.getQueueInfoIDByCount item.pubId item.count).toOption

/-- `queue_info_id2new_items`, in the order of the keys. -/
def groupItems (items : List QItem) : List (List QItem) :=
  (elements (items.filterMap (queueInfoOf topic))).map fun id =>
    items.filter fun item => queueInfoOf topic item = some id

def splitItem (s : Splitting) (item : QItem) : Except RetCode Splitting :=
  if s.batch + 1 > topic.batchLimit ∨ s.byteSize + item.byteSize > topic.itemsByteSizeLimit then
    if s.req = [] then .error .errSizeTooLarge
    else .ok { reqs := s.reqs ++ [s.req], req := [item], batch := 1, byteSize := item.byteSize }
  else
    .ok { s with
      req := s.req ++ [item]
      batch := s.batch + 1
      byteSize := s.byteSize + item.byteSize }

def splitLoop (s : Splitting) : List QItem → Except RetCode Splitting
  | [] => .ok s
  | item :: items =>
    match splitItem topic s item with
    | .error ret => .error ret
    | .ok s => splitLoop s items

def splitGroup (items : List QItem) : Except RetCode (List (List QItem)) :=
  match splitLoop topic {} items with
  | .error ret => .error ret
  | .ok s => .ok (if s.req = [] then s.reqs else s.reqs ++ [s.req])

def splitGroups : List (List QItem) → Except RetCode (List (List QItem))
  | [] => .ok []
  | group :: groups =>
    match splitGroup topic group with
    | .error ret => .error ret
    | .ok reqs =>
      match splitGroups groups with
      | .error ret => .error ret
      | .ok rest => .ok (reqs ++ rest)

/-- `MakeAddRequests`, with the topic configuration it reads, if there is one. -/
def makeAddRequests (topicId : ℤ) (topic : Option TopicConfig) (items : List QItem) :
    Except RetCode (List AddRequest) :=
  match topic with
  | none => .error .errRangeTopic
  | some topic =>
    match splitGroups topic (groupItems topic items) with
    | .error ret => .error ret
    | .ok reqs => .ok (reqs.map fun items => { topicId := topicId, items := items })

def Fits (item : QItem) : Prop := 1 ≤ topic.batchLimit ∧ item.byteSize ≤ topic.itemsByteSizeLimit

instance (item : QItem) : Decidable (Fits topic item) :=
  inferInstanceAs (Decidable (_ ∧ _))

variable {topic}

/-! ## Groups -/

lemma filter_flatMap_perm {α β : Type} [DecidableEq β] (f : α → Option β) (l : List α) {ks : List β}
    (hks : ks.Nodup) :
    (ks.flatMap fun k => l.filter fun x => f x = some k).Perm
      (l.filter fun x => ∃ k ∈ ks, f x = some k) := by
  induction ks with
  | nil => simp
  | cons k ks ih =>
    obtain ⟨hk, hks⟩ := List.nodup_cons.mp hks
    rw [List.flatMap_cons]
    have hsplit := (List.filter_append_perm (fun x => decide (f x = some k))
      (l.filter fun x => ∃ k' ∈ k :: ks, f x = some k')).symm
    have hhead : (l.filter fun x => ∃ k' ∈ k :: ks, f x = some k').filter
        (fun x => decide (f x = some k)) = l.filter fun x => f x = some k := by
      rw [List.filter_filter]
      apply List.filter_congr
      intro x _
      by_cases hx : f x = some k <;> simp [hx]
    have htail : (l.filter fun x => ∃ k' ∈ k :: ks, f x = some k').filter
        (fun x => !decide (f x = some k)) = l.filter fun x => ∃ k' ∈ ks, f x = some k' := by
      rw [List.filter_filter]
      apply List.filter_congr
      intro x _
      by_cases hx : f x = some k
      · simp [hx, hk]
      · simp [hx]
    rw [hhead, htail] at hsplit
    exact ((ih hks).append_left _).trans hsplit.symm

/-- **Every item with a queue info is in one group.** -/
lemma groupItems_perm (items : List QItem) :
    (groupItems topic items).flatten.Perm
      (items.filter fun item => (queueInfoOf topic item).isSome) := by
  unfold groupItems
  rw [← List.flatMap_def]
  refine (filter_flatMap_perm (queueInfoOf topic) items (nodup_elements _)).trans ?_
  apply List.Perm.of_eq
  apply List.filter_congr
  intro item hitem
  have hiff : (∃ k ∈ elements (items.filterMap (queueInfoOf topic)),
      queueInfoOf topic item = some k) ↔ (queueInfoOf topic item).isSome := by
    rw [Option.isSome_iff_exists]
    constructor
    · rintro ⟨k, _, hk⟩
      exact ⟨k, hk⟩
    · rintro ⟨k, hk⟩
      exact ⟨k, mem_elements.mpr (List.mem_filterMap.mpr ⟨item, hitem, hk⟩), hk⟩
  exact Bool.eq_iff_iff.mpr (decide_eq_true_iff.trans hiff)

lemma ne_nil_of_mem_groupItems {items group : List QItem} (h : group ∈ groupItems topic items) :
    group ≠ [] := by
  obtain ⟨id, hid, rfl⟩ := List.mem_map.mp h
  obtain ⟨item, hitem, hq⟩ := List.mem_filterMap.mp (mem_elements.mp hid)
  exact List.ne_nil_of_mem (List.mem_filter.mpr ⟨hitem, decide_eq_true hq⟩)

/-! ## Splitting -/

def Splitting.all (s : Splitting) : List QItem := s.reqs.flatten ++ s.req

/-- A request under way takes any item, if need be into a new request. -/
lemma splitItem_ok {s : Splitting} (hs : s.req ≠ []) (hreqs : [] ∉ s.reqs) (item : QItem) :
    ∃ s', splitItem topic s item = .ok s' ∧ s'.req ≠ [] ∧ [] ∉ s'.reqs ∧
      s'.all = s.all ++ [item] := by
  unfold splitItem
  rw [if_neg hs]
  split
  · refine ⟨_, rfl, List.cons_ne_nil _ _, ?_, ?_⟩
    · intro hmem
      rcases List.mem_append.mp hmem with hmem | hmem
      · exact hreqs hmem
      · exact hs (List.mem_singleton.mp hmem).symm
    · unfold Splitting.all
      simp
  · refine ⟨_, rfl, ?_, hreqs, ?_⟩
    · exact List.append_ne_nil_of_right_ne_nil _ (List.cons_ne_nil _ _)
    · unfold Splitting.all
      simp

lemma splitLoop_ok {s : Splitting} (hs : s.req ≠ []) (hreqs : [] ∉ s.reqs) (items : List QItem) :
    ∃ s', splitLoop topic s items = .ok s' ∧ s'.req ≠ [] ∧ [] ∉ s'.reqs ∧
      s'.all = s.all ++ items := by
  induction items generalizing s with
  | nil => exact ⟨s, rfl, hs, hreqs, (List.append_nil _).symm⟩
  | cons item items ih =>
    obtain ⟨s₁, hstep, hs₁, hreqs₁, hall₁⟩ := @splitItem_ok topic s hs hreqs item
    obtain ⟨s₂, hloop, hs₂, hreqs₂, hall₂⟩ := ih hs₁ hreqs₁
    refine ⟨s₂, ?_, hs₂, hreqs₂, ?_⟩
    · unfold splitLoop
      rw [hstep]
      exact hloop
    · rw [hall₂, hall₁, List.append_assoc]
      rfl

lemma splitItem_first {item : QItem} (hfit : Fits topic item) :
    splitItem topic {} item =
      .ok { req := [item], batch := 1, byteSize := item.byteSize } := by
  unfold splitItem
  obtain ⟨hbatch, hsize⟩ := hfit
  rw [if_neg]
  · simp
  · dsimp only
    omega

/-- **A group is split when its first item fits**, into requests that hold its items in order. -/
lemma splitGroup_ok {item : QItem} (items : List QItem) (hfit : Fits topic item) :
    ∃ reqs, splitGroup topic (item :: items) = .ok reqs ∧ reqs.flatten = item :: items ∧
      [] ∉ reqs := by
  obtain ⟨s, hloop, hs, hreqs, hall⟩ := @splitLoop_ok topic
    { req := [item], batch := 1, byteSize := item.byteSize } (List.cons_ne_nil _ _)
    List.not_mem_nil items
  refine ⟨s.reqs ++ [s.req], ?_, ?_, ?_⟩
  · unfold splitGroup splitLoop
    rw [splitItem_first hfit]
    dsimp only
    rw [hloop]
    dsimp only
    rw [if_neg hs]
  · rw [List.flatten_append, List.flatten_singleton]
    exact hall
  · intro hmem
    rcases List.mem_append.mp hmem with hmem | hmem
    · exact hreqs hmem
    · exact hs (List.mem_singleton.mp hmem).symm

lemma splitGroup_error {item : QItem} {items : List QItem} (hfit : ¬ Fits topic item) :
    splitGroup topic (item :: items) = .error .errSizeTooLarge := by
  have hfirst : splitItem topic {} item = .error .errSizeTooLarge := by
    unfold splitItem Fits at *
    rw [if_pos, if_pos rfl]
    dsimp only
    omega
  unfold splitGroup splitLoop
  rw [hfirst]

def HeadsFit (topic : TopicConfig) (groups : List (List QItem)) : Prop :=
  ∀ group ∈ groups, ∀ item ∈ group.head?, Fits topic item

instance (groups : List (List QItem)) : Decidable (HeadsFit topic groups) :=
  inferInstanceAs (Decidable (∀ group ∈ groups, ∀ item ∈ group.head?, _))

lemma splitGroups_ok {groups : List (List QItem)} (hne : ∀ group ∈ groups, group ≠ [])
    (hfit : HeadsFit topic groups) :
    ∃ reqs, splitGroups topic groups = .ok reqs ∧ reqs.flatten = groups.flatten ∧ [] ∉ reqs := by
  induction groups with
  | nil => exact ⟨[], rfl, rfl, List.not_mem_nil⟩
  | cons group groups ih =>
    obtain ⟨item, items, rfl⟩ := List.exists_cons_of_ne_nil (hne group List.mem_cons_self)
    have hitem : Fits topic item := hfit _ List.mem_cons_self item rfl
    obtain ⟨reqs, hsplit, hall, hreqs⟩ := splitGroup_ok items hitem
    obtain ⟨rest, hrest, hall', hreqs'⟩ := ih (fun g hg => hne g (List.mem_cons_of_mem _ hg))
      (fun g hg => hfit g (List.mem_cons_of_mem _ hg))
    refine ⟨reqs ++ rest, ?_, ?_, ?_⟩
    · unfold splitGroups
      rw [hsplit]
      dsimp only
      rw [hrest]
    · rw [List.flatten_append, hall, hall', List.flatten_cons]
    · intro hmem
      exact (List.mem_append.mp hmem).elim hreqs hreqs'

lemma splitGroups_error {groups : List (List QItem)} (hfit : ¬ HeadsFit topic groups)
    (hne : ∀ group ∈ groups, group ≠ []) :
    splitGroups topic groups = .error .errSizeTooLarge := by
  induction groups with
  | nil => exact absurd (fun _ h => absurd h List.not_mem_nil) hfit
  | cons group groups ih =>
    obtain ⟨item, items, rfl⟩ := List.exists_cons_of_ne_nil (hne group List.mem_cons_self)
    unfold splitGroups
    by_cases hitem : Fits topic item
    · obtain ⟨reqs, hsplit, _⟩ := splitGroup_ok items hitem
      have hrest : ¬ HeadsFit topic groups := by
        intro hrest
        refine hfit fun g hg x hx => ?_
        rcases List.mem_cons.mp hg with rfl | hg
        · cases hx
          exact hitem
        · exact hrest g hg x hx
      rw [hsplit]
      dsimp only
      rw [ih hrest fun g hg => hne g (List.mem_cons_of_mem _ hg)]
    · rw [splitGroup_error hitem]

/-! ## The requests -/

/-- For every queue info that is selected, the first item that selects it fits. -/
def FirstsFit (topic : TopicConfig) (items : List QItem) : Prop :=
  HeadsFit topic (groupItems topic items)

instance (items : List QItem) : Decidable (FirstsFit topic items) :=
  inferInstanceAs (Decidable (HeadsFit _ _))

/-- **The requests hold the items that have a queue info, each once**, when the first ones fit. -/
theorem makeAddRequests_perm (topicId : ℤ) {items : List QItem} (h : FirstsFit topic items) :
    ∃ reqs, makeAddRequests topicId (some topic) items = .ok reqs ∧
      (reqs.flatMap AddRequest.items).Perm
        (items.filter fun item => (queueInfoOf topic item).isSome) ∧
      ∀ req ∈ reqs, req.items ≠ [] := by
  obtain ⟨reqs, hsplit, hall, hne⟩ := splitGroups_ok (fun _ => ne_nil_of_mem_groupItems) h
  refine ⟨reqs.map fun items => { topicId := topicId, items := items }, ?_, ?_, ?_⟩
  · unfold makeAddRequests
    dsimp only
    rw [hsplit]
  · have hitems : (reqs.map fun items => ({ topicId, items } : AddRequest)).flatMap
        AddRequest.items = reqs.flatten := by
      rw [List.flatMap_map]
      exact List.flatMap_id'
    rw [hitems, hall]
    exact groupItems_perm items
  · intro req hreq
    obtain ⟨items, hmem, rfl⟩ := List.mem_map.mp hreq
    intro hnil
    exact hne (hnil ▸ hmem)

lemma exists_of_not_firstsFit {items : List QItem} (h : ¬ FirstsFit topic items) :
    ∃ item ∈ items, (queueInfoOf topic item).isSome := by
  unfold FirstsFit HeadsFit at h
  push Not at h
  obtain ⟨group, hgroup, item, hitem, _⟩ := h
  have hmem : item ∈ (groupItems topic items).flatten :=
    List.mem_flatten.mpr ⟨group, hgroup, List.mem_of_mem_head? hitem⟩
  have hmem := (groupItems_perm items).mem_iff.mp hmem
  exact ⟨item, (List.mem_filter.mp hmem).1, (List.mem_filter.mp hmem).2⟩

/-- Otherwise there are no requests at all. -/
theorem makeAddRequests_error (topicId : ℤ) {items : List QItem} (h : ¬ FirstsFit topic items) :
    makeAddRequests topicId (some topic) items = .error .errSizeTooLarge := by
  unfold makeAddRequests
  dsimp only
  rw [splitGroups_error h fun _ => ne_nil_of_mem_groupItems]

/-- What a group is split into is of the group, and its first item fits. -/
lemma mem_of_splitGroup {group : List QItem} {reqs : List (List QItem)} (hne : group ≠ [])
    (h : splitGroup topic group = .ok reqs) {req : List QItem} (hreq : req ∈ reqs) :
    req ≠ [] ∧ 1 ≤ topic.batchLimit ∧ ∀ item ∈ req, item ∈ group := by
  obtain ⟨first, items, rfl⟩ := List.exists_cons_of_ne_nil hne
  have hfit : Fits topic first := by
    by_contra hno
    rw [splitGroup_error hno] at h
    cases h
  obtain ⟨reqs', hsplit, hall, hreqs⟩ := splitGroup_ok items hfit
  rw [hsplit] at h
  cases h
  refine ⟨fun hnil => hreqs (hnil ▸ hreq), hfit.1, ?_⟩
  intro item hitem
  rw [← hall]
  exact List.mem_flatten.mpr ⟨req, hreq, hitem⟩

lemma mem_of_splitGroups {groups reqs : List (List QItem)} (hne : ∀ group ∈ groups, group ≠ [])
    (h : splitGroups topic groups = .ok reqs) {req : List QItem} (hreq : req ∈ reqs) :
    req ≠ [] ∧ 1 ≤ topic.batchLimit ∧ ∃ group ∈ groups, ∀ item ∈ req, item ∈ group := by
  induction groups generalizing reqs with
  | nil =>
    cases h
    exact absurd hreq List.not_mem_nil
  | cons group groups ih =>
    unfold splitGroups at h
    cases hhead : splitGroup topic group with
    | error ret =>
      rw [hhead] at h
      cases h
    | ok head =>
      rw [hhead] at h
      cases htail : splitGroups topic groups with
      | error ret =>
        rw [htail] at h
        cases h
      | ok tail =>
        rw [htail] at h
        cases h
        rcases List.mem_append.mp hreq with hreq | hreq
        · obtain ⟨hnil, hbatch, hmem⟩ := mem_of_splitGroup (hne group List.mem_cons_self) hhead hreq
          exact ⟨hnil, hbatch, group, List.mem_cons_self, hmem⟩
        · obtain ⟨hnil, hbatch, group', hgroup, hmem⟩ :=
            ih (fun g hg => hne g (List.mem_cons_of_mem _ hg)) htail hreq
          exact ⟨hnil, hbatch, group', List.mem_cons_of_mem _ hgroup, hmem⟩

theorem mem_of_makeAddRequests {topicId : ℤ} {items : List QItem} {reqs : List AddRequest}
    (h : makeAddRequests topicId (some topic) items = .ok reqs) {req : AddRequest}
    (hreq : req ∈ reqs) :
    req.items ≠ [] ∧ 1 ≤ topic.batchLimit ∧
      ∃ id, ∀ item ∈ req.items, item ∈ items ∧ queueInfoOf topic item = some id := by
  unfold makeAddRequests at h
  dsimp only at h
  cases hsplit : splitGroups topic (groupItems topic items) with
  | error ret =>
    rw [hsplit] at h
    cases h
  | ok split =>
    rw [hsplit] at h
    cases h
    obtain ⟨r, hr, rfl⟩ := List.mem_map.mp hreq
    obtain ⟨hnil, hbatch, group, hgroup, hmem⟩ :=
      mem_of_splitGroups (fun _ => ne_nil_of_mem_groupItems) hsplit hr
    obtain ⟨id, _, rfl⟩ := List.mem_map.mp hgroup
    refine ⟨hnil, hbatch, id, ?_⟩
    intro item hitem
    obtain ⟨hmem', hid⟩ := List.mem_filter.mp (hmem item hitem)
    exact ⟨hmem', of_decide_eq_true hid⟩

lemma makeAddRequests_singleton (topicId : ℤ) {item : QItem} {id : ℤ}
    (hid : queueInfoOf topic item = some id) (hfit : Fits topic item) :
    makeAddRequests topicId (some topic) [item] = .ok [{ topicId := topicId, items := [item] }] := by
  have hgroup : groupItems topic [item] = [[item]] := by
    unfold groupItems elements
    simp [hid]
  unfold makeAddRequests
  dsimp only
  rw [hgroup]
  unfold splitGroups splitGroup splitLoop
  rw [splitItem_first hfit]
  rfl

end

end PhxQueue.Producer
