import PhxQueue.Consumer.AfterConsume
import PhxQueue.Lib.Bracket

/-!
# The queue info of a retry count

`GetQueueInfoIDByCount` of `config/topicconfig.cpp` goes through the queue infos of a publisher and
subtracts their counts from the count of an item; -1 is an unlimited one.  `AfterConsume` adds one to
the count of an item each time it sends it back.

* `limits`              the counts of the queue infos of a publisher, with `⊤` for -1;
* `queueInfoIDByCount_eq`   the loop finds the position of the count among them;
* `sendBack`            an item that has been sent back some times;
* `CountsRight`         which queue info each attempt goes to, and when an item is dropped;
* `countsRight`         **an attempt goes to the bracket of its number**.
-/

set_option linter.unusedSectionVars false

namespace PhxQueue.Consumer
open Comm PhxQueue.Config Lib Producer

def attemptsOf (q : QueueInfo) : ℕ∞ := if q.count = -1 then ⊤ else (q.count.toNat : ℕ∞)

/-- The queue infos of a publisher all exist, with counts that are unlimited or not negative. -/
structure PubCounts (topic : TopicConfig) (pubId : ℤ) (pub : Pub) (infos : List QueueInfo) : Prop where
  found : topic.pubId2pub pubId = some pub
  exist : List.Forall₂ (fun id q => topic.queueInfoId2queueInfo id = some q) pub.queueInfoIds infos
  counts : ∀ q ∈ infos, -1 ≤ q.count

/-- An item after `AfterConsume` has sent it back once for each of these contexts and times. -/
def sendBack (byteSize : QItem → ℕ) (item : QItem) (retries : List (ConsumerContext × ℕ)) : QItem :=
  retries.foldl (fun item r => retryItem byteSize r.1 r.2 item) item

section
variable {topic : TopicConfig} {pubId : ℤ} {pub : Pub} {infos : List QueueInfo}

/-- **The loop finds the position of the count**, and fails from the total on. -/
lemma queueInfoIDByCount_eq {ids : List ℤ}
    (h : List.Forall₂ (fun id q => topic.queueInfoId2queueInfo id = some q) ids infos)
    (hcounts : ∀ q ∈ infos, -1 ≤ q.count) (n : ℕ) :
    (∀ i, Selects (infos.map attemptsOf) n i → ∃ id, ids[i]? = some id ∧
      topic.queueInfoIDByCount n ids = .ok id) ∧
    ((infos.map attemptsOf).sum ≤ n → topic.queueInfoIDByCount n ids = .error .errRangeCnt) := by
  induction h generalizing n with
  | nil => exact ⟨fun i hi => absurd hi not_selects_nil, fun _ => rfl⟩
  | @cons id q ids infos hq _ ih =>
    have hcount := hcounts q List.mem_cons_self
    have ih := ih fun q' hq' => hcounts q' (List.mem_cons_of_mem _ hq')
    rw [List.map_cons]
    unfold TopicConfig.queueInfoIDByCount
    rw [hq]
    dsimp only
    by_cases hend : q.count ≠ -1 ∧ (n : ℤ) ≥ q.count
    · -- the queue info has had its attempts, and the rest is asked for the others
      obtain ⟨hfin, hge⟩ := hend
      have hattempts : attemptsOf q = (q.count.toNat : ℕ∞) := if_neg hfin
      have hle : q.count.toNat ≤ n := by omega
      have hsub : (n : ℤ) - q.count = ((n - q.count.toNat : ℕ) : ℤ) := by omega
      rw [if_pos ⟨hfin, hge⟩, hattempts, hsub]
      obtain ⟨hsel, hout⟩ := ih (n - q.count.toNat)
      constructor
      · intro i hi
        cases i with
        | zero =>
          have hlt := selects_cons_zero.mp hi
          rw [Nat.cast_lt] at hlt
          omega
        | succ i => exact hsel i ((selects_cons_succ hle).mp hi)
      · intro hsum
        apply hout
        rw [List.sum_cons] at hsum
        exact not_lt.mp fun hlt => absurd ((lt_add_iff_sub_lt hle _).mpr hlt) (not_lt.mpr hsum)
    · rw [if_neg hend]
      have hlt : (n : ℕ∞) < attemptsOf q := by
        unfold attemptsOf
        split
        · exact ENat.natCast_lt_top n
        · rw [Nat.cast_lt]
          omega
      constructor
      · intro i hi
        cases selects_zero_of_lt hi hlt
        exact ⟨id, rfl, rfl⟩
      · intro hsum
        rw [List.sum_cons] at hsum
        exact absurd (hlt.trans_le (le_self_add.trans hsum)) (lt_irrefl _)

lemma sendBack_count (byteSize : QItem → ℕ) (item : QItem) (retries : List (ConsumerContext × ℕ)) :
    (sendBack byteSize item retries).count = item.count + retries.length ∧
      (sendBack byteSize item retries).pubId = item.pubId := by
  induction retries generalizing item with
  | nil => exact ⟨(add_zero _).symm, rfl⟩
  | cons r retries ih =>
    obtain ⟨hcount, hpub⟩ := ih (retryItem byteSize r.1 r.2 item)
    have hone : (retryItem byteSize r.1 r.2 item).count = item.count + 1 := rfl
    refine ⟨?_, hpub⟩
    rw [hone] at hcount
    rw [List.length_cons]
    have hsame : sendBack byteSize item (r :: retries) =
        sendBack byteSize (retryItem byteSize r.1 r.2 item) retries := rfl
    rw [hsame, hcount]
    push_cast
    omega

/-! ## The attempts of an item -/

/-- The attempts of the items of a publisher whose queue infos allow `w` of them. -/
structure CountsRight (topic : TopicConfig) (pubId : ℤ) (ids : List ℤ) (w : List ℕ∞) : Prop where
  bracket : ∀ n i, Selects w n i → ∃ id, ids[i]? = some id ∧
    topic.getQueueInfoIDByCount pubId (n : ℕ) = .ok id
  dropped : ∀ n : ℕ, topic.getQueueInfoIDByCount pubId n = .error .errRangeCnt ↔ w.sum ≤ n
  onward : ∀ (byteSize : QItem → ℕ) (item : QItem) (retries : List (ConsumerContext × ℕ)) n n' i i',
    item.count = (n : ℕ) → (sendBack byteSize item retries).count = (n' : ℕ) →
    Selects w n i → Selects w n' i' → i ≤ i'
  own : ∀ i k, w[i]? = some ((k : ℕ) : ℕ∞) → (∀ j < i, w[j]? ≠ some ⊤) →
    { n | Selects w n i }.ncard = k
  unreached : ∀ i j, j < i → w[j]? = some ⊤ → { n | Selects w n i } = ∅

/-- Every queue info with a finite count has its own number of attempts. -/
def EachOwnCount (w : List ℕ∞) : Prop :=
  ∀ i k, w[i]? = some ((k : ℕ) : ℕ∞) → { n | Selects w n i }.ncard = k

lemma exists_sum_take {w : List ℕ∞} {i : ℕ} (h : ∀ j < i, w[j]? ≠ some ⊤) :
    ∃ s : ℕ, (w.take i).sum = s := by
  induction i with
  | zero => exact ⟨0, rfl⟩
  | succ i ih =>
    obtain ⟨s, hs⟩ := ih fun j hj => h j (Nat.lt_succ_of_lt hj)
    rcases Nat.lt_or_ge i w.length with hi | hi
    · have htop : w[i] ≠ ⊤ := by
        intro htop
        apply h i (Nat.lt_succ_self i)
        rw [List.getElem?_eq_getElem hi, htop]
      obtain ⟨k, hk⟩ := ENat.ne_top_iff_exists.mp htop
      refine ⟨s + k, ?_⟩
      rw [List.take_succ_eq_append_getElem hi, List.sum_append, List.sum_singleton, hs, ← hk]
      exact (Nat.cast_add s k).symm
    · refine ⟨s, ?_⟩
      rw [List.take_of_length_le (Nat.le_succ_of_le hi), ← List.take_of_length_le hi]
      exact hs

/-- **Each attempt goes to the queue info in whose bracket its number is**, an item is dropped from
the total on, and a queue info has its own number of attempts unless an unlimited one comes
before it. -/
theorem countsRight (h : PubCounts topic pubId pub infos) :
    CountsRight topic pubId pub.queueInfoIds (infos.map attemptsOf) := by
  have hloop : ∀ n : ℕ, topic.getQueueInfoIDByCount pubId n =
      topic.queueInfoIDByCount n pub.queueInfoIds := by
    intro n
    unfold TopicConfig.getQueueInfoIDByCount
    rw [h.found]
  refine ⟨fun n i hi => ?_, fun n => ⟨fun herr => ?_, fun hsum => ?_⟩, ?_, ?_, ?_⟩
  · obtain ⟨id, hid, hok⟩ := (queueInfoIDByCount_eq h.exist h.counts n).1 i hi
    exact ⟨id, hid, (hloop n).trans hok⟩
  · by_contra hlt
    obtain ⟨i, hi⟩ := exists_selects_iff.mpr (not_le.mp hlt)
    obtain ⟨id, _, hok⟩ := (queueInfoIDByCount_eq h.exist h.counts n).1 i hi
    rw [hloop n, hok] at herr
    cases herr
  · exact (hloop n).trans ((queueInfoIDByCount_eq h.exist h.counts n).2 hsum)
  · intro byteSize item retries n n' i i' hn hn' hi hi'
    have hcount := (sendBack_count byteSize item retries).1
    rw [hn, hn'] at hcount
    exact hi.mono hi' (by omega)
  · intro i k hk hfin
    obtain ⟨hi, hget⟩ := List.getElem?_eq_some_iff.mp hk
    obtain ⟨s, hs⟩ := exists_sum_take hfin
    exact ncard_selects hi hs hget
  · intro i j hji htop
    obtain ⟨hj, hget⟩ := List.getElem?_eq_some_iff.mp htop
    exact Set.eq_empty_of_forall_notMem fun n hn => not_selects_after_top hj hget hji hn

end

/-- A publisher whose first queue info retries for ever. -/
def foreverFirst : TopicConfig where
  pubs := [⟨1, [1], [1, 2]⟩]
  queueInfos := [{ queueInfoId := 1, ranges := [(0, 9)], count := -1 },
    { queueInfoId := 2, ranges := [(10, 19)], count := 3 }]
  itemsByteSizeLimit := 1024

/-- The same with the queue infos the other way round. -/
def foreverLast : TopicConfig :=
  { foreverFirst with pubs := [⟨1, [1], [2, 1]⟩] }

lemma pubCounts_foreverFirst : PubCounts foreverFirst 1 ⟨1, [1], [1, 2]⟩ foreverFirst.queueInfos :=
  ⟨rfl, .cons rfl (.cons rfl .nil), by decide⟩

theorem foreverLast_counts :
    CountsRight foreverLast 1 [2, 1] (foreverFirst.queueInfos.reverse.map attemptsOf) :=
  have h : PubCounts foreverLast 1 ⟨1, [1], [2, 1]⟩ foreverFirst.queueInfos.reverse :=
    ⟨rfl, .cons rfl (.cons rfl .nil), by decide⟩
  countsRight h

/-- **Counterexample.**  The second queue info allows three attempts and gets none. -/
theorem foreverFirst_not_own :
    PubCounts foreverFirst 1 ⟨1, [1], [1, 2]⟩ foreverFirst.queueInfos ∧
      ¬ EachOwnCount (foreverFirst.queueInfos.map attemptsOf) := by
  refine ⟨pubCounts_foreverFirst, fun h => ?_⟩
  have hown := h 1 3 rfl
  have hnone : { n | Selects (foreverFirst.queueInfos.map attemptsOf) n 1 } = ∅ :=
    Set.eq_empty_of_forall_notMem fun n hn => not_selects_after_top Nat.zero_lt_two rfl
      Nat.zero_lt_one hn
  rw [hnone, Set.ncard_empty] at hown
  exact absurd hown (by decide)

end PhxQueue.Consumer
