import PhxQueue.Comm.Utils
import PhxQueue.Lib.OrderedMap
import PhxQueue.Scheduler.TopicData

/-!
# Reloading the configuration

`SchedulerMgr::ReloadTopicConfig`, on the maps with their keys in order: the loop that removes topics
holds an iterator into the map it erases from.  And `SchedulerMgr::ReloadConsumerConfig`, with all
that it reads.

* `removeLoop`                `none` when the iterator is moved past the end;
* `removeLoop_of_removable`   where a configured topic follows each one that goes, it removes these;
* `reloadExact_iff`           **the topics are the configured ones exactly then**;
* `reloadTopicConfig_eq`      the function of the same name, on lists;
* `ConsumerReads`             the last times of modification, and the consumers of the topic;
* `mem_updateConsumers`       what the merge of the two maps has;
* `reloadRight_iff`           **the consumers are the configured ones, and are left when a read fails,
                              exactly when no failed read passes for one that gives nothing**.
-/

set_option linter.unusedSectionVars false

namespace PhxQueue.Scheduler
open Comm Lib

/-- A list without repetitions that is as long as one around it has all of it. -/
lemma mem_of_length_le {α : Type} {l l' : List α} (hl : l.Nodup) (hsub : l ⊆ l')
    (hlen : l'.length ≤ l.length) {x : α} (hx : x ∈ l') : x ∈ l :=
  ((hl.subperm hsub).perm_of_length_le hlen).mem_iff.mpr hx

/-! ## Topics -/

/-- A `set<int>`. -/
structure IntSet where
  ids : List ℤ
  sorted : ids.Pairwise (· < ·)

/-- `topic_id2data_map`, and the keys of `topic_id2lock_map`. -/
structure TopicMaps where
  topics : OrderedMap ℤ TopicData := .empty
  locks : List ℤ := []

/-- `TopicData()`. -/
def newTopic (clock : ℕ) : TopicData := { initTime := clock }

def TopicMaps.has (m : TopicMaps) (topicId : ℤ) : Bool :=
  (m.topics.search fun k => k = topicId).isSome

def TopicMaps.addTopic (clock : ℤ → ℕ) (m : TopicMaps) (topicId : ℤ) : TopicMaps :=
  if m.has topicId then m else
  { topics := m.topics.emplace topicId (newTopic (clock topicId))
    locks := m.locks.insert topicId }

/-- The loop that removes topics, from where its iterator stands.  What `erase` returns is moved on
by the head of the loop. -/
def removeLoop (topicIds locks : List ℤ) :
    List (ℤ × TopicData) → Option (List (ℤ × TopicData))
  | [] => some []
  | kv :: rest =>
    if kv.1 ∈ topicIds then (removeLoop topicIds locks rest).map (kv :: ·)
    else if kv.1 ∉ locks then (removeLoop topicIds locks rest).map (kv :: ·)
    else match rest with
    | [] => none
    | kv' :: rest' => (removeLoop topicIds locks rest').map (kv' :: ·)

section
variable {topicIds locks : List ℤ} {l l' : List (ℤ × TopicData)}

lemma removeLoop_sublist (h : removeLoop topicIds locks l = some l') : l'.Sublist l := by
  fun_induction removeLoop topicIds locks l generalizing l' with
  | case1 =>
    cases h
    exact List.Sublist.refl _
  | case2 kv rest hin ih =>
    obtain ⟨l'', hl'', rfl⟩ := Option.map_eq_some_iff.mp h
    exact (ih hl'').cons_cons kv
  | case3 kv rest hin hlock ih =>
    obtain ⟨l'', hl'', rfl⟩ := Option.map_eq_some_iff.mp h
    exact (ih hl'').cons_cons kv
  | case4 kv hin hlock => cases h
  | case5 kv hin hlock kv' rest' ih =>
    obtain ⟨l'', hl'', rfl⟩ := Option.map_eq_some_iff.mp h
    exact ((ih hl'').cons_cons kv').cons kv

end

/-- `ReloadTopicConfig`; no result where its behaviour is not defined. -/
def TopicMaps.reloadTopicConfig (topicIds : Except RetCode IntSet) (clock : ℤ → ℕ)
    (m : TopicMaps) : Except RetCode (Option TopicMaps) :=
  match topicIds with
  | .error ret => .error ret
  | .ok topicIds =>
    if m.topics.entries.length = topicIds.ids.length ∧ topicIds.ids.all m.has then .ok (some m)
    else
      let m := topicIds.ids.foldl (TopicMaps.addTopic clock) m
      if topicIds.ids.length ≠ m.topics.entries.length then
        .ok ((removeLoop topicIds.ids m.locks m.topics.entries).pmap
          (fun l hl => { m with topics := ⟨l, m.topics.sorted.sublist hl⟩ })
          fun _ hl => removeLoop_sublist hl)
      else .ok (some m)

/-- **What a reload is to give**: the configured topics, with the data they had, and fresh data for
the new ones. -/
structure ReloadedTopics (topicIds : IntSet) (clock : ℤ → ℕ) (m m' : TopicMaps) : Prop where
  keys : m'.topics.keys = { id | id ∈ topicIds.ids }
  retained : ∀ id t, id ∈ topicIds.ids → (id, t) ∈ m.topics.entries → (id, t) ∈ m'.topics.entries
  fresh : ∀ id ∈ topicIds.ids, id ∉ m.topics.keys → (id, newTopic (clock id)) ∈ m'.topics.entries

/-- `id'` is the first of the ids after `id`. -/
def IsNext (ids : Set ℤ) (id id' : ℤ) : Prop :=
  id' ∈ ids ∧ id < id' ∧ ∀ id'' ∈ ids, id < id'' → id' ≤ id''

/-- Each topic that is to go has a lock, and the one after it is configured. -/
def Spaced (topicIds : IntSet) (m : TopicMaps) : Prop :=
  ∀ id ∈ m.topics.keys, id ∉ topicIds.ids → id ∈ m.locks ∧
    ∃ id' ∈ topicIds.ids, IsNext (m.topics.keys ∪ { id | id ∈ topicIds.ids }) id id'

/-! ### The loops -/

section
variable {topicIds locks : List ℤ} {l l' : List (ℤ × TopicData)}

/-- Where the loop removes what it should: at each entry that goes there is a lock, and the entry
after it stays. -/
def Removable (topicIds locks : List ℤ) : List (ℤ × TopicData) → Prop
  | [] => True
  | kv :: rest => (kv.1 ∉ topicIds → kv.1 ∈ locks ∧ ∃ kv' ∈ rest.head?, kv'.1 ∈ topicIds) ∧
      Removable topicIds locks rest

lemma removeLoop_of_removable (h : Removable topicIds locks l) :
    removeLoop topicIds locks l = some (l.filter fun kv => kv.1 ∈ topicIds) := by
  fun_induction removeLoop topicIds locks l with
  | case1 => rfl
  | case2 kv rest hin ih =>
    rw [ih h.2, List.filter_cons_of_pos (by simpa using hin)]
    rfl
  | case3 kv rest hin hlock ih => exact absurd (h.1 hin).1 hlock
  | case4 kv hin hlock =>
    obtain ⟨_, kv', hkv', _⟩ := h.1 hin
    cases hkv'
  | case5 kv hin hlock kv' rest' ih =>
    obtain ⟨_, kv'', hkv'', hin'⟩ := h.1 hin
    cases hkv''
    rw [ih h.2.2, List.filter_cons_of_neg (by simpa using hin),
      List.filter_cons_of_pos (by simpa using hin')]
    rfl

/-- Else a topic stays that is not configured, or the iterator is moved past the end. -/
lemma not_removable (h : ¬ Removable topicIds locks l)
    (hl' : removeLoop topicIds locks l = some l') : ∃ kv ∈ l', kv.1 ∉ topicIds := by
  fun_induction removeLoop topicIds locks l generalizing l' with
  | case1 => exact absurd trivial h
  | case2 kv rest hin ih =>
    obtain ⟨l'', hl'', rfl⟩ := Option.map_eq_some_iff.mp hl'
    have hrest : ¬ Removable topicIds locks rest := fun hrest => h ⟨fun hno => absurd hin hno, hrest⟩
    obtain ⟨x, hx, hno⟩ := ih hrest hl''
    exact ⟨x, List.mem_cons_of_mem _ hx, hno⟩
  | case3 kv rest hin hlock ih =>
    obtain ⟨l'', _, rfl⟩ := Option.map_eq_some_iff.mp hl'
    exact ⟨kv, List.mem_cons_self, hin⟩
  | case4 kv hin hlock => cases hl'
  | case5 kv hin hlock kv' rest' ih =>
    obtain ⟨l'', hl'', rfl⟩ := Option.map_eq_some_iff.mp hl'
    by_cases hin' : kv'.1 ∈ topicIds
    · have hrest : ¬ Removable topicIds locks rest' := by
        intro hrest
        apply h
        refine ⟨fun _ => ⟨not_not.mp hlock, kv', rfl, hin'⟩, fun hno => absurd hin' hno, hrest⟩
      obtain ⟨x, hx, hno⟩ := ih hrest hl''
      exact ⟨x, List.mem_cons_of_mem _ hx, hno⟩
    · exact ⟨kv', List.mem_cons_self, hin'⟩

/-- The entry after one is the one with the next key. -/
lemma removable_iff (hl : Sorted l) : Removable topicIds locks l ↔
    ∀ kv ∈ l, kv.1 ∉ topicIds → kv.1 ∈ locks ∧
      ∃ id' ∈ topicIds, IsNext { id | ∃ t, (id, t) ∈ l } kv.1 id' := by
  induction l with
  | nil => exact iff_of_true trivial fun kv hkv => absurd hkv List.not_mem_nil
  | cons x xs ih =>
    obtain ⟨hx, hxs⟩ := List.pairwise_cons.mp hl
    -- a smaller key in front changes no successor
    have hnext : ∀ kv ∈ xs, ∀ id', IsNext { id | ∃ t, (id, t) ∈ x :: xs } kv.1 id' ↔
        IsNext { id | ∃ t, (id, t) ∈ xs } kv.1 id' := by
      intro kv hkv id'
      have hlt := hx kv hkv
      constructor
      · rintro ⟨⟨t, ht⟩, hgt, hleast⟩
        refine ⟨⟨t, ?_⟩, hgt, fun id'' ⟨t'', ht''⟩ => hleast id'' ⟨t'', List.mem_cons_of_mem _ ht''⟩⟩
        rcases List.mem_cons.mp ht with rfl | ht
        · exact absurd (hlt.trans hgt) (lt_irrefl _)
        · exact ht
      · rintro ⟨⟨t, ht⟩, hgt, hleast⟩
        refine ⟨⟨t, List.mem_cons_of_mem _ ht⟩, hgt, ?_⟩
        rintro id'' ⟨t'', ht''⟩ hgt''
        rcases List.mem_cons.mp ht'' with rfl | ht''
        · exact absurd (hlt.trans hgt'') (lt_irrefl _)
        · exact hleast id'' ⟨t'', ht''⟩ hgt''
    -- the successor of the first one is the second one
    have hhead : ∀ id', IsNext { id | ∃ t, (id, t) ∈ x :: xs } x.1 id' ↔
        ∃ kv' ∈ xs.head?, kv'.1 = id' := by
      intro id'
      cases xs with
      | nil =>
        refine iff_of_false ?_ (by simp)
        rintro ⟨⟨t, ht⟩, hgt, _⟩
        obtain rfl := List.mem_singleton.mp ht
        exact lt_irrefl _ hgt
      | cons y ys =>
        have hy : x.1 < y.1 := hx y List.mem_cons_self
        constructor
        · rintro ⟨⟨t, ht⟩, hgt, hleast⟩
          refine ⟨y, rfl, le_antisymm ?_ (hleast y.1 ⟨y.2, by simp⟩ hy)⟩
          rcases List.mem_cons.mp ht with rfl | ht
          · exact absurd hgt (lt_irrefl _)
          · rcases List.mem_cons.mp ht with rfl | ht
            · exact le_rfl
            · exact ((List.pairwise_cons.mp hxs).1 _ ht).le
        · rintro ⟨kv', hkv', rfl⟩
          cases hkv'
          refine ⟨⟨y.2, by simp⟩, hy, ?_⟩
          rintro id'' ⟨t'', ht''⟩ hgt''
          rcases List.mem_cons.mp ht'' with rfl | ht''
          · exact absurd hgt'' (lt_irrefl _)
          · rcases List.mem_cons.mp ht'' with rfl | ht''
            · exact le_rfl
            · exact ((List.pairwise_cons.mp hxs).1 _ ht'').le
    rw [Removable, ih hxs, List.forall_mem_cons]
    apply and_congr
    · simp only [hhead]
      constructor
      · intro h hno
        obtain ⟨hlock, kv', hkv', hin⟩ := h hno
        exact ⟨hlock, kv'.1, hin, kv', hkv', rfl⟩
      · intro h hno
        obtain ⟨hlock, id', hin, kv', hkv', rfl⟩ := h hno
        exact ⟨hlock, kv', hkv', hin⟩
    · constructor
      · intro h kv hkv hno
        obtain ⟨hlock, id', hin, hid'⟩ := h kv hkv hno
        exact ⟨hlock, id', hin, (hnext kv hkv id').mpr hid'⟩
      · intro h kv hkv hno
        obtain ⟨hlock, id', hin, hid'⟩ := h kv hkv hno
        exact ⟨hlock, id', hin, (hnext kv hkv id').mp hid'⟩

end

/-! ### The maps -/

section
variable {topicIds : IntSet} {clock : ℤ → ℕ} {m m' : TopicMaps}

lemma has_iff {topicId : ℤ} : m.has topicId ↔ topicId ∈ m.topics.keys := by
  unfold TopicMaps.has
  rw [Option.isSome_iff_ne_none, Ne, OrderedMap.search_eq_none]
  push Not
  constructor
  · rintro ⟨k, hk, heq⟩
    obtain rfl : k = topicId := by simpa using heq
    exact hk
  · exact fun h => ⟨topicId, h, by simp⟩

lemma mem_addTopics (ids : List ℤ) (id : ℤ) (t : TopicData) :
    (id, t) ∈ (ids.foldl (TopicMaps.addTopic clock) m).topics.entries ↔
      (id, t) ∈ m.topics.entries ∨
        id ∈ ids ∧ id ∉ m.topics.keys ∧ t = newTopic (clock id) := by
  induction ids generalizing m with
  | nil => simp
  | cons i ids ih =>
    rw [List.foldl_cons, ih]
    unfold TopicMaps.addTopic
    split
    · rename_i hhas
      rw [has_iff] at hhas
      constructor
      · rintro (hold | ⟨hid, hnew, ht⟩)
        · exact .inl hold
        · exact .inr ⟨List.mem_cons_of_mem _ hid, hnew, ht⟩
      · rintro (hold | ⟨hid, hnew, ht⟩)
        · exact .inl hold
        · rcases List.mem_cons.mp hid with rfl | hid
          · exact absurd hhas hnew
          · exact .inr ⟨hid, hnew, ht⟩
    · rename_i hhas
      rw [has_iff] at hhas
      have hno : ∀ t, (i, t) ∉ m.topics.entries := fun t ht => hhas ⟨t, ht⟩
      have hkeys : id ∈ (m.topics.emplace i (newTopic (clock i))).keys ↔
          id ∈ m.topics.keys ∨ id = i := by
        show (∃ t, (id, t) ∈ insertPoint i _ m.topics.entries) ↔ _
        simp only [mem_insertPoint m.topics.sorted]
        constructor
        · rintro ⟨t, ht | ⟨rfl, _⟩⟩
          · exact .inl ⟨t, ht⟩
          · exact .inr rfl
        · rintro (⟨t, ht⟩ | rfl)
          · exact ⟨t, .inl ht⟩
          · exact ⟨_, .inr ⟨rfl, rfl, hno⟩⟩
      dsimp only
      rw [hkeys]
      show (id, t) ∈ insertPoint i _ m.topics.entries ∨ _ ↔ _
      rw [mem_insertPoint m.topics.sorted, List.mem_cons]
      by_cases heq : id = i
      · subst heq
        simp [hno, hhas]
      · simp [heq]

lemma mem_keys_addTopics (ids : List ℤ) (id : ℤ) :
    id ∈ (ids.foldl (TopicMaps.addTopic clock) m).topics.keys ↔
      id ∈ m.topics.keys ∨ id ∈ ids := by
  show (∃ t, (id, t) ∈ (ids.foldl (TopicMaps.addTopic clock) m).topics.entries) ↔ _
  simp only [mem_addTopics]
  constructor
  · rintro ⟨t, ht | ⟨hid, _⟩⟩
    · exact .inl ⟨t, ht⟩
    · exact .inr hid
  · rintro (⟨t, ht⟩ | hid)
    · exact ⟨t, .inl ht⟩
    · by_cases hold : id ∈ m.topics.keys
      · obtain ⟨t, ht⟩ := hold
        exact ⟨t, .inl ht⟩
      · exact ⟨_, .inr ⟨hid, hold, rfl⟩⟩

lemma mem_locks_addTopics (ids : List ℤ) {id : ℤ} (hid : id ∉ ids) :
    id ∈ (ids.foldl (TopicMaps.addTopic clock) m).locks ↔ id ∈ m.locks := by
  induction ids generalizing m with
  | nil => rfl
  | cons i ids ih =>
    rw [List.mem_cons, not_or] at hid
    obtain ⟨hne, hid⟩ := hid
    rw [List.foldl_cons, ih hid]
    unfold TopicMaps.addTopic
    split
    · rfl
    · rw [List.mem_insert_iff, or_iff_right hne]

lemma nodup_keys (m : OrderedMap ℤ TopicData) : (m.entries.map Prod.fst).Nodup :=
  List.pairwise_map.mpr (m.sorted.imp fun h => h.ne)

lemma mem_map_fst {m : OrderedMap ℤ TopicData} {id : ℤ} :
    id ∈ m.entries.map Prod.fst ↔ id ∈ m.keys := by
  simp [OrderedMap.keys]

/-- Ids that are all in a map, and as many, are all its keys. -/
lemma keys_eq_of_length (m : OrderedMap ℤ TopicData) (hsub : ∀ id ∈ topicIds.ids, id ∈ m.keys)
    (hlen : m.entries.length = topicIds.ids.length) : m.keys = { id | id ∈ topicIds.ids } := by
  have hlen : (m.entries.map Prod.fst).length ≤ topicIds.ids.length := by
    rw [List.length_map, hlen]
  have hsub' : topicIds.ids ⊆ m.entries.map Prod.fst := fun id hid => mem_map_fst.mpr (hsub id hid)
  ext id
  constructor
  · intro hid
    exact mem_of_length_le (topicIds.sorted.imp fun h => h.ne) hsub' hlen (mem_map_fst.mpr hid)
  · exact fun hid => hsub id hid

end

/-- **A reload is exact**: it is defined, and gives the configured topics. -/
def TopicMaps.ReloadExact (topicIds : IntSet) (clock : ℤ → ℕ) (m : TopicMaps) : Prop :=
  ∃ m', m.reloadTopicConfig (.ok topicIds) clock = .ok (some m') ∧
    ReloadedTopics topicIds clock m m'

section
variable {topicIds : IntSet} {clock : ℤ → ℕ} {m : TopicMaps}

/-- Where nothing is to go, no topic needs another behind it. -/
lemma spaced_of_subset (h : m.topics.keys ⊆ { id | id ∈ topicIds.ids }) : Spaced topicIds m :=
  fun _ hid hno => absurd (h hid) hno

/-- The condition of the loop, on the topics with the new ones. -/
lemma removable_addTopics_iff :
    Removable topicIds.ids (topicIds.ids.foldl (TopicMaps.addTopic clock) m).locks
      (topicIds.ids.foldl (TopicMaps.addTopic clock) m).topics.entries ↔ Spaced topicIds m := by
  have hkeys : { id | ∃ t, (id, t) ∈
      (topicIds.ids.foldl (TopicMaps.addTopic clock) m).topics.entries } =
        m.topics.keys ∪ { id | id ∈ topicIds.ids } := by
    ext id
    exact mem_keys_addTopics topicIds.ids id
  rw [removable_iff (OrderedMap.sorted _), hkeys]
  constructor
  · rintro h id ⟨t, ht⟩ hno
    obtain ⟨hlock, hnext⟩ := h (id, t) ((mem_addTopics _ _ _).mpr (.inl ht)) hno
    exact ⟨(mem_locks_addTopics _ hno).mp hlock, hnext⟩
  · rintro h ⟨id, t⟩ ht hno
    have hid : id ∈ m.topics.keys := by
      rcases (mem_addTopics _ _ _).mp ht with ht | ⟨hid, _⟩
      · exact ⟨t, ht⟩
      · exact absurd hid hno
    obtain ⟨hlock, hnext⟩ := h id hid hno
    exact ⟨(mem_locks_addTopics _ hno).mpr hlock, hnext⟩

/-- A map with the topics of another, and with fresh ones. -/
lemma reloadedTopics_of_mem {m' : TopicMaps} (h : ∀ id t, (id, t) ∈ m'.topics.entries ↔
    id ∈ topicIds.ids ∧ ((id, t) ∈ m.topics.entries ∨
      id ∉ m.topics.keys ∧ t = newTopic (clock id))) : ReloadedTopics topicIds clock m m' where
  keys := by
    ext id
    constructor
    · rintro ⟨t, ht⟩
      exact ((h id t).mp ht).1
    · intro hid
      by_cases hold : id ∈ m.topics.keys
      · obtain ⟨t, ht⟩ := hold
        exact ⟨t, (h id t).mpr ⟨hid, .inl ht⟩⟩
      · exact ⟨_, (h id _).mpr ⟨hid, .inr ⟨hold, rfl⟩⟩⟩
  retained := fun id t hid ht => (h id t).mpr ⟨hid, .inl ht⟩
  fresh := fun id hid hnew => (h id _).mpr ⟨hid, .inr ⟨hnew, rfl⟩⟩

end

/-- **The topics after a reload are the configured ones, and its loops keep to the map**, exactly
when each topic that is to go has a lock and is followed, among the old and the new topics, by one
that is configured. -/
theorem reloadExact_iff (topicIds : IntSet) (clock : ℤ → ℕ) (m : TopicMaps) :
    m.ReloadExact topicIds clock ↔ Spaced topicIds m := by
  unfold TopicMaps.ReloadExact TopicMaps.reloadTopicConfig
  dsimp only
  split_ifs with hsame hlen
  · -- nothing is modified
    obtain ⟨hlen, hall⟩ := hsame
    have hkeys := keys_eq_of_length m.topics
      (fun id hid => has_iff.mp (List.all_eq_true.mp hall id hid)) hlen
    refine iff_of_true ⟨m, rfl, hkeys, fun _ _ _ ht => ht, ?_⟩ (spaced_of_subset hkeys.subset)
    intro id hid hnew
    rw [hkeys] at hnew
    exact absurd hid hnew
  · -- the loop is run
    rw [← @removable_addTopics_iff topicIds clock m]
    constructor
    · rintro ⟨m', hm', hre⟩
      obtain ⟨l, _, hl, rfl⟩ := Option.pmap_eq_some_iff.mp (Except.ok.inj hm')
      by_contra hnot
      obtain ⟨⟨id, t⟩, hid, hno⟩ := not_removable hnot hl
      have hkey : id ∈ ({ id | id ∈ topicIds.ids } : Set ℤ) := hre.keys ▸ ⟨t, hid⟩
      exact hno hkey
    · intro hok
      have hloop := removeLoop_of_removable hok
      refine ⟨_, congrArg Except.ok (Option.pmap_some' hloop), reloadedTopics_of_mem ?_⟩
      intro id t
      dsimp only
      rw [List.mem_filter, mem_addTopics, decide_eq_true_eq]
      tauto
  · -- the new topics have made all configured
    have hlen := not_not.mp hlen
    have hkeys : (topicIds.ids.foldl (TopicMaps.addTopic clock) m).topics.keys =
        { id | id ∈ topicIds.ids } := by
      apply keys_eq_of_length _ (fun id hid => ?_) hlen.symm
      exact (mem_keys_addTopics _ _).mpr (.inr hid)
    refine iff_of_true ⟨_, rfl, reloadedTopics_of_mem fun id t => ?_⟩
      (spaced_of_subset fun id hid => ?_)
    · rw [mem_addTopics]
      constructor
      · intro ht
        have hid : id ∈ ({ id | id ∈ topicIds.ids } : Set ℤ) := by
          rw [← hkeys]
          exact ⟨t, (mem_addTopics _ _ _).mpr ht⟩
        exact ⟨hid, ht.imp_right And.right⟩
      · rintro ⟨hid, ht | hnew⟩
        · exact .inl ht
        · exact .inr ⟨hid, hnew⟩
    · rw [← hkeys]
      exact (mem_keys_addTopics _ _).mpr (.inl hid)

/-- Topics 1 to 3, as a first reload makes them. -/
def threeTopics : TopicMaps where
  topics := .build [(1, newTopic 0), (2, newTopic 0), (3, newTopic 0)]
  locks := [3, 2, 1]

theorem threeTopics_reload :
    TopicMaps.reloadTopicConfig (.ok ⟨[1, 2, 3], by decide⟩) (fun _ => 0) {} =
      .ok (some threeTopics) := rfl

/-- **Counterexample.**  When the last topic goes the iterator is moved past the end, and when two go
that follow each other the second stays. -/
theorem threeTopics_not_exact :
    threeTopics.reloadTopicConfig (.ok ⟨[1, 2], by decide⟩) (fun _ => 0) = .ok none ∧
      ¬ threeTopics.ReloadExact ⟨[1, 2], by decide⟩ (fun _ => 0) ∧
      ¬ threeTopics.ReloadExact ⟨[3], by decide⟩ (fun _ => 0) := by
  refine ⟨rfl, ?_, ?_⟩
  · rintro ⟨m', hm', _⟩
    cases hm'
  · rintro ⟨m', hm', hre⟩
    cases hm'
    have hkey : (2 : ℤ) ∈ ({ id | id ∈ [(3 : ℤ)] } : Set ℤ) := 
      hre.keys ▸ ⟨newTopic 0, List.mem_cons_self⟩
    revert hkey
    decide

/-! ### The function on lists -/

section
variable {topicIds : IntSet} {m m' : TopicMaps}

lemma removeLoop_eq_removeTopics {ids locks : List ℤ} {l l' : List (ℤ × TopicData)}
    (hlocks : ∀ kv ∈ l, kv.1 ∈ locks) (h : removeLoop ids locks l = some l') :
    l' = removeTopics ids l := by
  fun_induction removeLoop ids locks l generalizing l' with
  | case1 =>
    cases h
    rfl
  | case2 kv rest hin ih =>
    obtain ⟨l'', hl'', rfl⟩ := Option.map_eq_some_iff.mp h
    unfold removeTopics
    rw [if_pos hin, ih (fun x hx => hlocks x (List.mem_cons_of_mem _ hx)) hl'']
  | case3 kv rest hin hlock ih => exact absurd (hlocks kv List.mem_cons_self) hlock
  | case4 kv hin hlock => cases h
  | case5 kv hin hlock kv' rest' ih =>
    obtain ⟨l'', hl'', rfl⟩ := Option.map_eq_some_iff.mp h
    rw [removeTopics, if_neg hin, ih (fun x hx => ?_) hl'']
    exact hlocks x (List.mem_cons_of_mem _ (List.mem_cons_of_mem _ hx))

def newTopics (topicIds : IntSet) (clock : ℕ) (m : TopicMaps) : List (ℤ × TopicData) :=
  (topicIds.ids.filter fun id => ¬ m.topics.entries.any fun kv => kv.1 = id).map
    fun id => (id, newTopic clock)

lemma mem_newTopics {clock : ℕ} {id : ℤ} {t : TopicData} : (id, t) ∈ newTopics topicIds clock m ↔
    id ∈ topicIds.ids ∧ id ∉ m.topics.keys ∧ t = newTopic clock := by
  simp only [newTopics, OrderedMap.keys, List.mem_map, List.mem_filter, List.any_eq_true,
    decide_eq_true_eq, Prod.mk.injEq]
  constructor
  · rintro ⟨i, ⟨hid, hnew⟩, rfl, rfl⟩
    exact ⟨hid, fun ⟨t, ht⟩ => hnew ⟨(i, t), ht, rfl⟩, rfl⟩
  · rintro ⟨hid, hnew, rfl⟩
    refine ⟨id, ⟨hid, ?_⟩, rfl, rfl⟩
    rintro ⟨⟨i, t⟩, ht, rfl⟩
    exact hnew ⟨t, ht⟩

lemma addTopics_eq_insertionSort (clock : ℕ) :
    (topicIds.ids.foldl (TopicMaps.addTopic fun _ => clock) m).topics.entries =
      (m.topics.entries ++ newTopics topicIds clock m).insertionSort fun a b => a.1 ≤ b.1 := by
  have hmem : ∀ x, x ∈ (topicIds.ids.foldl (TopicMaps.addTopic fun _ => clock) m).topics.entries ↔
      x ∈ m.topics.entries ++ newTopics topicIds clock m := by
    rintro ⟨id, t⟩
    rw [mem_addTopics, List.mem_append, mem_newTopics]
  have hnodup : (m.topics.entries ++ newTopics topicIds clock m).Nodup := by
    apply List.Nodup.append
    · exact (nodup_keys m.topics).of_map _
    · apply List.Nodup.map
      · intro id id' heq
        exact congrArg Prod.fst heq
      · exact (topicIds.sorted.imp fun h => h.ne).filter _
    · rintro ⟨id, t⟩ hold hnew
      exact (mem_newTopics.mp hnew).2.1 ⟨t, hold⟩
  have hsorted := (topicIds.ids.foldl (TopicMaps.addTopic fun _ => clock) m).topics.sorted
  have hperm := (List.perm_ext_iff_of_nodup ((nodup_keys _).of_map _) hnodup).mpr hmem
  have hperm := hperm.trans (List.perm_insertionSort (fun a b => a.1 ≤ b.1) _).symm
  refine List.Perm.eq_of_pairwise ?_ (hsorted.imp fun h => h.le) (List.pairwise_insertionSort _ _)
    hperm
  rintro ⟨id, t⟩ ⟨id', t'⟩ ht ht' hle hle'
  obtain rfl : id = id' := le_antisymm hle hle'
  rw [hsorted.value_unique ht (hperm.mem_iff.mpr ht')]

lemma locks_addTopics {clock : ℤ → ℕ} (ids : List ℤ) (hlocks : ∀ id ∈ m.topics.keys, id ∈ m.locks) :
    ∀ id ∈ (ids.foldl (TopicMaps.addTopic clock) m).topics.keys,
      id ∈ (ids.foldl (TopicMaps.addTopic clock) m).locks := by
  induction ids generalizing m with
  | nil => exact hlocks
  | cons i ids ih =>
    apply ih
    unfold TopicMaps.addTopic
    split
    · exact hlocks
    · rintro id ⟨t, ht⟩
      rw [List.mem_insert_iff]
      rcases (mem_insertPoint m.topics.sorted).mp ht with ht | ⟨rfl, _⟩
      · exact .inr (hlocks id ⟨t, ht⟩)
      · exact .inl rfl

lemma all_has_iff (clock : ℕ) : topicIds.ids.all m.has ↔ newTopics topicIds clock m = [] := by
  unfold newTopics
  simp only [List.all_eq_true, List.map_eq_nil_iff, List.filter_eq_nil_iff, has_iff,
    OrderedMap.keys]
  apply forall₂_congr
  intro id _
  simp only [decide_eq_true_eq, not_not, List.any_eq_true]
  constructor
  · rintro ⟨t, ht⟩
    exact ⟨(id, t), ht, rfl⟩
  · rintro ⟨⟨i, t⟩, ht, rfl⟩
    exact ⟨t, ht⟩

/-- **Where its behaviour is defined**, and no lock is lost, a reload is that of the passes. -/
theorem reloadTopicConfig_eq {clock : ℕ} (hlocks : ∀ id ∈ m.topics.keys, id ∈ m.locks)
    (h : m.reloadTopicConfig (.ok topicIds) (fun _ => clock) = .ok (some m')) :
    m'.topics.entries = Scheduler.reloadTopicConfig topicIds.ids clock m.topics.entries := by
  have hadd := @addTopics_eq_insertionSort topicIds m clock
  have hlocks := @locks_addTopics m (fun _ => clock) topicIds.ids hlocks
  have hsame : m.topics.entries.length = topicIds.ids.length ∧ topicIds.ids.all m.has ↔
      m.topics.entries.length = topicIds.ids.length ∧
        (topicIds.ids.filter fun id => ¬ m.topics.entries.any fun kv => kv.1 = id) = [] :=
    and_congr_right' ((all_has_iff clock).trans List.map_eq_nil_iff)
  unfold TopicMaps.reloadTopicConfig at h
  unfold Scheduler.reloadTopicConfig
  dsimp only at h ⊢
  by_cases hmod : m.topics.entries.length = topicIds.ids.length ∧ topicIds.ids.all m.has
  · rw [if_pos hmod] at h
    rw [if_pos (hsame.mp hmod)]
    cases h
    rfl
  rw [if_neg hmod] at h
  rw [if_neg (mt hsame.mpr hmod)]
  unfold newTopics newTopic at hadd
  rw [← hadd]
  by_cases hlen : topicIds.ids.length ≠
      (topicIds.ids.foldl (TopicMaps.addTopic fun _ => clock) m).topics.entries.length
  · rw [if_pos hlen] at h
    rw [if_pos hlen]
    obtain ⟨l, _, hl, rfl⟩ := Option.pmap_eq_some_iff.mp (Except.ok.inj h)
    exact removeLoop_eq_removeTopics (fun kv hkv => hlocks _ (OrderedMap.fst_mem_keys hkv)) hl
  · rw [if_neg hlen] at h
    rw [if_neg hlen]
    cases h
    rfl

end

/-! ## Consumers -/

/-- `config::proto::Consumer`. -/
structure ProtoConsumer where
  addr : ProtoAddr
  scale : ℤ

/-- The configurations of a topic, with the time of the last modification of each. -/
structure ModTimes where
  topic : Except RetCode ℕ
  consumer : Except RetCode ℕ
  store : Except RetCode ℕ
  scheduler : Except RetCode ℕ
  lock : Except RetCode ℕ

def getLastModTime (r : ModTimes) : ℕ :=
  match r.topic, r.consumer, r.store, r.scheduler, r.lock with
  | .ok topic, .ok consumer, .ok store, .ok scheduler, .ok lock =>
    max (max (max (max topic consumer) store) scheduler) lock
  | _, _, _, _, _ => 0

/-- What `ReloadConsumerConfig` reads: `GetConsumerConfig` gives a configuration, whose
`GetAllConsumer` gives the consumers. -/
structure ConsumerReads where
  modTimes : ModTimes
  consumerConfig : Except RetCode (Except RetCode (List ProtoConsumer))

def getConsumerConfigDetail (allConsumer : Except RetCode (List ProtoConsumer)) :
    Except RetCode (List (ℕ × ℤ)) :=
  match allConsumer with
  | .error ret => .error ret
  | .ok consumers => .ok (OrderedMap.build
      (consumers.map fun consumer => (encodeAddr consumer.addr, consumer.scale))).entries

/-- What `consumer_addr2scale_map` has: an error of `GetConsumerConfigDetail` is logged. -/
def ConsumerReads.scales (r : ConsumerReads) : Except RetCode (List (ℕ × ℤ)) :=
  match r.consumerConfig with
  | .error ret => .error ret
  | .ok allConsumer =>
    match getConsumerConfigDetail allConsumer with
    | .error _ => .ok []
    | .ok scales => .ok scales

/-- `ReloadConsumerConfig`, with its reads. -/
def ConsumerReads.reloadConsumerConfig (r : ConsumerReads) (t : TopicData) :
    Except RetCode (TopicData × Bool) :=
  Scheduler.reloadConsumerConfig (getLastModTime r.modTimes) r.scales t

def Configured (consumers : List ProtoConsumer) (addr : ℕ) (scale : ℤ) : Prop :=
  (consumers.find? fun consumer => encodeAddr consumer.addr = addr).map ProtoConsumer.scale =
    some scale

/-- The consumers of a topic are the configured ones, with the configured scales. -/
structure Agrees (consumers : List ProtoConsumer) (t : TopicData) : Prop where
  addrs : ∀ addr, (∃ c, (addr, c) ∈ t.consumers) ↔ ∃ scale, Configured consumers addr scale
  initWeight : ∀ addr c, (addr, c) ∈ t.consumers → Configured consumers addr c.initWeight

/-- **What a reload is to give**: the configured consumers, of which the old ones keep what is not
configured, and the new ones start with their scale as weight. -/
structure ReloadedConsumers (consumers : List ProtoConsumer) (t t' : TopicData) : Prop
    extends Agrees consumers t' where
  retained : ∀ addr c c', (addr, c) ∈ t.consumers → (addr, c') ∈ t'.consumers →
    c' = { c with initWeight := c'.initWeight }
  fresh : ∀ addr c', (∀ c, (addr, c) ∉ t.consumers) → (addr, c') ∈ t'.consumers →
    c' = { weight := c'.initWeight, initWeight := c'.initWeight }

/-- **A reload is right**: one that succeeds is exact, and where a read of the consumers fails
nothing changes; so the next pass reads again. -/
structure ConsumerReads.ReloadRight (r : ConsumerReads) (t : TopicData) : Prop where
  exact : ∀ t' modified consumers, r.consumerConfig = .ok (.ok consumers) →
    r.reloadConsumerConfig t = .ok (t', modified) → ReloadedConsumers consumers t t'
  safe : ∀ t' modified, (∀ consumers, r.consumerConfig ≠ .ok (.ok consumers)) →
    r.reloadConsumerConfig t = .ok (t', modified) →
    t'.consumers = t.consumers ∧ t'.confLastModTime = t.confLastModTime
  again : ∀ ret, r.reloadConsumerConfig t = .error ret →
    getLastModTime r.modTimes ≠ t.confLastModTime

/-- The reads that are right for a topic: where the time is the recorded one the consumers are the
configured ones already, and else `GetConsumerConfigDetail` does not fail. -/
def ConsumerReads.RightFor (r : ConsumerReads) (t : TopicData) : Prop :=
  if getLastModTime r.modTimes = t.confLastModTime then
    ∀ consumers, r.consumerConfig = .ok (.ok consumers) → Agrees consumers t
  else ∀ ret, r.consumerConfig ≠ .ok (.error ret)

section
variable {scales : List (ℕ × ℤ)} {l : List (ℕ × ConsumerInfo)} {consumers : List ProtoConsumer}
  {addr : ℕ}

lemma mapHas_iff {α : Type} {l : List (ℕ × α)} : mapHas l addr ↔ ∃ x, (addr, x) ∈ l := by
  simp [mapHas]

/-- **What the loops of the merge leave**: of the configured consumers the old ones, and new ones. -/
lemma mem_updateConsumers (hscales : (scales.map Prod.fst).Nodup) {c : ConsumerInfo} :
    (addr, c) ∈ updateConsumers scales l ↔ mapHas scales addr ∧
      ((addr, c) ∈ l ∨ ¬ mapHas l addr ∧
        ∃ scale, (addr, scale) ∈ scales ∧ c = { weight := scale, initWeight := scale }) := by
  -- addresses that are all there, and as many, are the configured ones
  have hall : ∀ {l' : List (ℕ × ConsumerInfo)}, (∀ kv ∈ scales, mapHas l' kv.1) →
      l'.length = scales.length → (addr, c) ∈ l' → mapHas scales addr := by
    intro l' hsub hlen hmem
    have hsub : scales.map Prod.fst ⊆ l'.map Prod.fst := by
      intro a ha
      obtain ⟨kv, hkv, rfl⟩ := List.mem_map.mp ha
      obtain ⟨x, hx⟩ := mapHas_iff.mp (hsub kv hkv)
      exact List.mem_map_of_mem hx
    have hlen : (l'.map Prod.fst).length ≤ (scales.map Prod.fst).length := by simp [hlen]
    obtain ⟨kv, hkv, rfl⟩ := List.mem_map.mp
      (mem_of_length_le hscales hsub hlen (List.mem_map_of_mem hmem))
    exact mapHas_iff.mpr ⟨kv.2, hkv⟩
  unfold updateConsumers
  split
  · have hadded : ∀ {a : ℕ} {x : ConsumerInfo},
        (a, x) ∈ l ++ (scales.filter fun kv => ¬ mapHas l kv.1).map (fun kv =>
          (kv.1, { weight := kv.2, initWeight := kv.2 })) ↔ (a, x) ∈ l ∨ ¬ mapHas l a ∧
        ∃ scale, (a, scale) ∈ scales ∧ x = { weight := scale, initWeight := scale } := by
      intro a x
      rw [List.mem_append, List.mem_map]
      simp only [List.mem_filter, decide_eq_true_eq, Prod.mk.injEq]
      apply or_congr_right
      constructor
      · rintro ⟨⟨a, scale⟩, ⟨hmem, hno⟩, rfl, rfl⟩
        exact ⟨hno, scale, hmem, rfl⟩
      · rintro ⟨hno, scale, hmem, rfl⟩
        exact ⟨(a, scale), ⟨hmem, hno⟩, rfl, rfl⟩
    dsimp only
    split_ifs with hlen
    · rw [List.mem_filter, hadded, and_comm]
    · rw [hadded]
      refine ⟨fun h => ⟨hall (fun kv hkv => ?_) (not_not.mp hlen).symm (hadded.mpr h), h⟩, And.right⟩
      rw [mapHas_iff]
      by_cases hold : mapHas l kv.1
      · obtain ⟨x, hx⟩ := mapHas_iff.mp hold
        exact ⟨x, hadded.mpr (.inl hx)⟩
      · exact ⟨_, hadded.mpr (.inr ⟨hold, kv.2, hkv, rfl⟩)⟩
  · rename_i hsame
    push Not at hsame
    obtain ⟨hlen, hsub⟩ := hsame
    constructor
    · exact fun h => ⟨hall hsub hlen h, .inl h⟩
    · rintro ⟨_, h | ⟨hno, scale, hmem, _⟩⟩
      · exact h
      · exact absurd (hsub _ hmem) hno

lemma mem_scales_iff {scale : ℤ}
    (h : getConsumerConfigDetail (.ok consumers) = .ok scales) :
    (addr, scale) ∈ scales ↔ Configured consumers addr scale := by
  cases h
  rw [OrderedMap.mem_build, List.find?_map]
  unfold Configured
  show Option.map _ (consumers.find? fun c => encodeAddr c.addr = addr) = _ ↔ _
  cases hfind : consumers.find? fun c => encodeAddr c.addr = addr with
  | none => simp
  | some c =>
    have haddr : encodeAddr c.addr = addr := by simpa using List.find?_some hfind
    simp [haddr]

lemma nodup_scales (h : getConsumerConfigDetail (.ok consumers) = .ok scales) :
    (scales.map Prod.fst).Nodup := by
  cases h
  exact List.pairwise_map.mpr ((OrderedMap.sorted _).imp fun hlt => hlt.ne)

/-- `consumer_addr2scale_map[addr]`, for an address that is configured. -/
lemma configured_scaleOf (h : getConsumerConfigDetail (.ok consumers) = .ok scales)
    (haddr : mapHas scales addr) : Configured consumers addr (scaleOf scales addr) := by
  rw [← mem_scales_iff h]
  obtain ⟨scale, hscale⟩ := mapHas_iff.mp haddr
  have hsome : (scales.find? fun kv => kv.1 = addr).isSome :=
    List.find?_isSome.mpr ⟨(addr, scale), hscale, by simp⟩
  obtain ⟨⟨a, scale'⟩, hfind⟩ := Option.isSome_iff_exists.mp hsome
  obtain rfl : a = addr := by simpa using List.find?_some hfind
  have hval : scaleOf scales a = scale' := by
    unfold scaleOf
    rw [hfind]
    rfl
  rw [hval]
  exact List.mem_of_find?_eq_some hfind

theorem reloadedConsumers (h : getConsumerConfigDetail (.ok consumers) = .ok scales)
    (t : TopicData) (hkeys : (t.consumers.map Prod.fst).Nodup) (confLastModTime : ℕ) :
    ReloadedConsumers consumers t { t with
      consumers := (updateConsumers scales t.consumers).map fun kv =>
        (kv.1, { kv.2 with initWeight := scaleOf scales kv.1 })
      confLastModTime := confLastModTime } := by
  have hmem : ∀ {addr : ℕ} {c' : ConsumerInfo}, (addr, c') ∈
      (updateConsumers scales t.consumers).map (fun kv =>
        (kv.1, { kv.2 with initWeight := scaleOf scales kv.1 })) →
      mapHas scales addr ∧ ∃ c, c' = { c with initWeight := scaleOf scales addr } ∧
        ((addr, c) ∈ t.consumers ∨ ¬ mapHas t.consumers addr ∧
          ∃ scale, (addr, scale) ∈ scales ∧ c = { weight := scale, initWeight := scale }) := by
    intro addr c' hc'
    obtain ⟨⟨a, c⟩, hc, heq⟩ := List.mem_map.mp hc'
    cases heq
    obtain ⟨haddr, hold⟩ := (mem_updateConsumers (nodup_scales h)).mp hc
    exact ⟨haddr, c, rfl, hold⟩
  constructor
  · constructor
    · intro addr
      constructor
      · rintro ⟨c', hc'⟩
        exact ⟨_, configured_scaleOf h (hmem hc').1⟩
      · rintro ⟨scale, hscale⟩
        have hscale := (mem_scales_iff h).mpr hscale
        have hupd : ∃ c, (addr, c) ∈ updateConsumers scales t.consumers := by
          by_cases hold : mapHas t.consumers addr
          · obtain ⟨c, hc⟩ := mapHas_iff.mp hold
            exact ⟨c, (mem_updateConsumers (nodup_scales h)).mpr
              ⟨mapHas_iff.mpr ⟨scale, hscale⟩, .inl hc⟩⟩
          · exact ⟨_, (mem_updateConsumers (nodup_scales h)).mpr
              ⟨mapHas_iff.mpr ⟨scale, hscale⟩, .inr ⟨hold, scale, hscale, rfl⟩⟩⟩
        obtain ⟨c, hc⟩ := hupd
        exact ⟨_, List.mem_map.mpr ⟨(addr, c), hc, rfl⟩⟩
    · intro addr c' hc'
      obtain ⟨haddr, c, rfl, _⟩ := hmem hc'
      exact configured_scaleOf h haddr
  · intro addr c c' hc hc'
    obtain ⟨_, c₀, rfl, hold | ⟨hnew, _⟩⟩ := hmem hc'
    · have heq : (addr, c₀) = (addr, c) := List.inj_on_of_nodup_map hkeys hold hc rfl
      cases heq
      rfl
    · exact absurd (mapHas_iff.mpr ⟨c, hc⟩) hnew
  · intro addr c' hnew hc'
    obtain ⟨haddr, c, rfl, hold | ⟨_, scale, hscale, rfl⟩⟩ := hmem hc'
    · exact absurd hold (hnew c)
    · have hconf := (mem_scales_iff h).mp hscale
      have hconf' := configured_scaleOf h haddr
      rw [Configured, hconf, Option.some_inj] at hconf'
      rw [← hconf']

/-- Consumers that are left are the configured ones if they were. -/
lemma reloadedConsumers_self {t : TopicData} (hkeys : (t.consumers.map Prod.fst).Nodup)
    (h : Agrees consumers t) : ReloadedConsumers consumers t t where
  toAgrees := h
  retained := by
    intro addr c c' hc hc'
    have heq : (addr, c) = (addr, c') := List.inj_on_of_nodup_map hkeys hc hc' rfl
    cases heq
    rfl
  fresh := fun addr c' hnew hc' => absurd hc' (hnew c')

end

/-- **A reload is right** exactly when it is skipped for consumers that are the configured ones, or
is not skipped and `GetConsumerConfigDetail` does not fail. -/
theorem reloadRight_iff (r : ConsumerReads) (t : TopicData)
    (hkeys : (t.consumers.map Prod.fst).Nodup) : r.ReloadRight t ↔ r.RightFor t := by
  unfold ConsumerReads.RightFor
  split_ifs with htime
  · -- the reload is skipped
    have hskip : r.reloadConsumerConfig t = .ok (t, false) := if_pos htime
    constructor
    · intro h consumers hconf
      exact (h.exact t false consumers hconf hskip).toAgrees
    · intro h
      constructor
      · intro t' modified consumers hconf hr
        rw [hskip] at hr
        cases hr
        exact reloadedConsumers_self hkeys (h consumers hconf)
      · intro t' modified _ hr
        rw [hskip] at hr
        cases hr
        exact ⟨rfl, rfl⟩
      · intro ret hr
        rw [hskip] at hr
        cases hr
  · have hrun : r.reloadConsumerConfig t = match r.scales with
        | .error ret => .error ret
        | .ok scales => .ok ({ t with
          consumers := (updateConsumers scales t.consumers).map fun kv =>
            (kv.1, { kv.2 with initWeight := scaleOf scales kv.1 })
          confLastModTime := getLastModTime r.modTimes }, true) := if_neg htime
    cases hconf : r.consumerConfig with
    | error ret =>
      have hscales : r.scales = .error ret := by
        unfold ConsumerReads.scales
        rw [hconf]
      rw [hscales] at hrun
      refine iff_of_true ⟨?_, ?_, fun _ _ => htime⟩ fun _ h => nomatch h
      · intro t' modified consumers h
        cases hconf.symm.trans h
      · intro t' modified _ hr
        cases hrun.symm.trans hr
    | ok allConsumer =>
      cases allConsumer with
      | error ret =>
        have hscales : r.scales = .ok [] := by
          unfold ConsumerReads.scales
          rw [hconf]
          rfl
        rw [hscales] at hrun
        refine iff_of_false (fun h => ?_) fun h => h ret rfl
        have hno : ∀ consumers, r.consumerConfig ≠ .ok (.ok consumers) := by
          intro consumers heq
          cases hconf.symm.trans heq
        exact htime (h.safe _ _ hno hrun).2
      | ok consumers =>
        obtain ⟨scales, hdetail⟩ : ∃ scales, getConsumerConfigDetail (.ok consumers) = .ok scales :=
          ⟨_, rfl⟩
        have hscales : r.scales = .ok scales := by
          unfold ConsumerReads.scales
          rw [hconf]
          dsimp only
          rw [hdetail]
        rw [hscales] at hrun
        refine iff_of_true ⟨?_, ?_, fun _ _ => htime⟩ fun _ h => nomatch h
        · intro t' modified consumers' hconf' hr
          cases hconf.symm.trans hconf'
          cases hrun.symm.trans hr
          exact reloadedConsumers hdetail t hkeys _
        · intro t' modified hno
          exact absurd hconf (hno consumers)

def oneConsumerReads (lock : Except RetCode ℕ) : ConsumerReads where
  modTimes := ⟨.ok 1, .ok 1, .ok 1, .ok 1, lock⟩
  consumerConfig := .ok (.ok [⟨{ ip := ⟨127, 0, 0, 1⟩, port := 8001 }, 100⟩])

/-- A topic with this consumer, which has a weight, and with one that is no longer configured. -/
def twoConsumersBefore : TopicData where
  consumers := [(encodeAddr { ip := ⟨127, 0, 0, 1⟩, port := 8001 }, { weight := 40, live := true }), (1, {})]

theorem oneConsumerReads_right : (oneConsumerReads (.ok 1)).ReloadRight twoConsumersBefore :=
  (reloadRight_iff (oneConsumerReads (.ok 1)) twoConsumersBefore (by decide)).mpr fun _ h => nomatch h

example : ((oneConsumerReads (.ok 1)).reloadConsumerConfig twoConsumersBefore).toOption.map
    (fun r => r.1.consumers.map fun kv => (kv.1, kv.2.weight, kv.2.initWeight)) =
    some [(encodeAddr { ip := ⟨127, 0, 0, 1⟩, port := 8001 }, 40, 100)] := by decide

/-- **Counterexample.**  Without a lock configuration the time that is read is 0, which a fresh topic
has recorded, so it never gets its consumers; and a topic that has consumers loses them when
`GetConsumerConfigDetail` fails. -/
theorem oneConsumerReads_not_right :
    ¬ (oneConsumerReads (.error .errRangeTopic)).ReloadRight {} ∧
      ¬ ({ oneConsumerReads (.ok 2) with consumerConfig := .ok (.error .errLogic) } :
        ConsumerReads).ReloadRight { consumers := [(1, {})], confLastModTime := 1 } := by
  constructor
  · intro h
    have hre := h.exact _ _ _ rfl rfl
    obtain ⟨c, hc⟩ := (hre.addrs (encodeAddr { ip := ⟨127, 0, 0, 1⟩, port := 8001 })).mpr ⟨100, rfl⟩
    exact List.not_mem_nil hc
  · intro h
    have hsafe := h.safe _ _ (fun consumers hc => nomatch hc) rfl
    exact absurd hsafe.2 (by decide)

end PhxQueue.Scheduler
