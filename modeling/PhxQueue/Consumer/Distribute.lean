import PhxQueue.Lib.Places
import PhxQueue.Consumer.AllQueues

/-!
# Distributing the pending queues

`DistubePendingQueues` of `consumer/hblock.cpp` puts the queues a process has to consume into the
slots of its workers.  The groups have their turns one after another; a group keeps what it holds
of its pending queues, gives up its other slots, and takes the slots that are free.

* `clearInvalidConsumerGroupIDs`, `distubePendingQueues`   the code;
* `keepQueues_spec`, `fillQueues_eq`   the two loops of a turn;
* `distubeGroup_eq`    a turn as `Places.deal`;
* `Turn`               what a turn does to the slots;
* `Distribution`       what all turns together do, and when no pending queue is left.
-/

set_option linter.unusedSectionVars false

namespace PhxQueue.Consumer
open Comm PhxQueue.Config Lib

/-- A `Queue_t` of the shared memory that has its magic; a slot without is free. -/
structure Slot where
  consumerGroupId : ℤ
  storeId : ℤ
  queueId : ℤ
deriving DecidableEq

def ListedQueue.slot (x : ListedQueue) : Slot := ⟨x.consumerGroupId, x.storeId, x.queueId⟩

/-- The pending queues of the processed groups, `consumer_group_id2pending_queues`. -/
abbrev PendingQueues := List (ℤ × List ListedQueue)

def clearInvalidConsumerGroupIDs (valid : List ℤ) (queues : List (Option Slot)) :
    List (Option Slot) :=
  queues.map (Option.filter fun x => x.consumerGroupId ∈ valid)

/-- The first loop of `DistubePendingQueues` for a group, with `done`. -/
def keepQueues (g : ℤ) (pending : List ListedQueue) (done : ℕ → Bool) :
    List (Option Slot) → (ℕ → Bool) × List (Option Slot)
  | [] => (done, [])
  | none :: queues =>
    let r := keepQueues g pending done queues
    (r.1, none :: r.2)
  | some x :: queues =>
    if x.consumerGroupId ≠ g then
      let r := keepQueues g pending done queues
      (r.1, some x :: r.2)
    else
      let idx := pending.findIdx fun y => y.slot = x
      if idx < pending.length ∧ done idx = false then
        let r := keepQueues g pending (Function.update done idx true) queues
        (r.1, some x :: r.2)
      else
        let r := keepQueues g pending done queues
        (r.1, none :: r.2)

def fillQueues (pending : List ListedQueue) (done : ℕ → Bool) :
    List (Option Slot) → List (Option Slot)
  | [] => []
  | some x :: queues => some x :: fillQueues pending done queues
  | none :: queues =>
    match (List.range pending.length).find? fun idx => !done idx with
    | none => none :: fillQueues pending done queues
    | some idx => (pending[idx]?.map ListedQueue.slot) ::
        fillQueues pending (Function.update done idx true) queues

def distubeGroup (queues : List (Option Slot)) (kv : ℤ × List ListedQueue) :
    List (Option Slot) :=
  let r := keepQueues kv.1 kv.2 (fun _ => false) queues
  fillQueues kv.2 r.1 r.2

def distubePendingQueues (pendings : PendingQueues) (queues : List (Option Slot)) :
    List (Option Slot) :=
  pendings.foldl distubeGroup queues

def numPending (pendings : PendingQueues) : ℕ := (pendings.map fun kv => kv.2.length).sum

def heldForOthers (queues : List (Option Slot)) (groups : List ℤ) : ℕ :=
  (queues.reduceOption.filter fun x => x.consumerGroupId ∉ groups).length

/-! ## A group's turn -/

/-- The pending queues of a group: of that group, each once. -/
structure PendingOk (kv : ℤ × List ListedQueue) : Prop where
  group : ∀ x ∈ kv.2, x.consumerGroupId = kv.1
  nodup : (kv.2.map ListedQueue.slot).Nodup

/-- What a group leaves in the slots before it takes free ones. -/
def keeps (kv : ℤ × List ListedQueue) (x : Slot) : Bool :=
  x.consumerGroupId ≠ kv.1 ∨ x ∈ kv.2.map ListedQueue.slot

section
variable {kv : ℤ × List ListedQueue} {queues : List (Option Slot)}

lemma PendingOk.consumerGroupId (h : PendingOk kv) {x : Slot}
    (hx : x ∈ kv.2.map ListedQueue.slot) : x.consumerGroupId = kv.1 := by
  obtain ⟨y, hy, rfl⟩ := List.mem_map.mp hx
  exact h.group y hy

lemma slot_getElem? {pending : List ListedQueue} {idx : ℕ} {x : ListedQueue}
    (h : pending[idx]? = some x) : (pending.map ListedQueue.slot)[idx]? = some x.slot := by
  rw [List.getElem?_map, h]
  rfl

lemma findIdx_slot {pending : List ListedQueue} {x : Slot} :
    let idx := pending.findIdx fun y => y.slot = x
    if x ∈ pending.map ListedQueue.slot then
      idx < pending.length ∧ (pending.map ListedQueue.slot)[idx]? = some x
    else idx = pending.length := by
  intro idx
  split
  · rename_i hx
    obtain ⟨y, hy, hyx⟩ := List.mem_map.mp hx
    have hlt : idx < pending.length := List.findIdx_lt_length_of_exists ⟨y, hy, by simpa using hyx⟩
    have hslot : (pending[idx]).slot = x := by
      have h := @List.findIdx_getElem _ (fun y : ListedQueue => decide (y.slot = x)) pending hlt
      exact of_decide_eq_true h
    refine ⟨hlt, ?_⟩
    rw [List.getElem?_map, List.getElem?_eq_getElem hlt, Option.map_some, hslot]
  · rename_i hx
    refine List.findIdx_eq_length.mpr fun y hy => ?_
    rw [decide_eq_false_iff_not]
    intro hyx
    exact hx (List.mem_map.mpr ⟨y, hy, hyx⟩)

lemma eq_findIdx (h : PendingOk kv) {x : Slot} {idx : ℕ}
    (hidx : (kv.2.map ListedQueue.slot)[idx]? = some x) :
    idx = kv.2.findIdx fun y => y.slot = x := by
  have hfound := @findIdx_slot kv.2 x
  dsimp only at hfound
  rw [if_pos (List.mem_of_getElem? hidx)] at hfound
  have hlt := (List.getElem?_eq_some_iff.mp hidx).1
  exact (List.getElem?_inj hlt h.nodup).mp (hidx.trans hfound.2.symm)

lemma keepQueues_other {g : ℤ} (pending : List ListedQueue) (done : ℕ → Bool) {x : Slot}
    (hg : x.consumerGroupId ≠ g) (queues : List (Option Slot)) :
    keepQueues g pending done (some x :: queues) =
      ((keepQueues g pending done queues).1, some x :: (keepQueues g pending done queues).2) := by
  rw [keepQueues, if_pos hg]

lemma keepQueues_pending (h : PendingOk kv) {done : ℕ → Bool} {x : Slot} {idx : ℕ}
    (hidx : (kv.2.map ListedQueue.slot)[idx]? = some x) (hdone : done idx = false)
    (queues : List (Option Slot)) :
    keepQueues kv.1 kv.2 done (some x :: queues) =
      ((keepQueues kv.1 kv.2 (Function.update done idx true) queues).1,
        some x :: (keepQueues kv.1 kv.2 (Function.update done idx true) queues).2) := by
  have hg := h.consumerGroupId (List.mem_of_getElem? hidx)
  have hlt : idx < kv.2.length := by
    have := (List.getElem?_eq_some_iff.mp hidx).1
    rwa [List.length_map] at this
  rw [keepQueues, if_neg (not_not.mpr hg), ← eq_findIdx h hidx]
  dsimp only
  rw [if_pos ⟨hlt, hdone⟩]

lemma keepQueues_dropped (done : ℕ → Bool) {x : Slot} (hg : x.consumerGroupId = kv.1)
    (hx : x ∉ kv.2.map ListedQueue.slot) (queues : List (Option Slot)) :
    keepQueues kv.1 kv.2 done (some x :: queues) =
      ((keepQueues kv.1 kv.2 done queues).1, none :: (keepQueues kv.1 kv.2 done queues).2) := by
  have hfound := @findIdx_slot kv.2 x
  dsimp only at hfound
  rw [if_neg hx] at hfound
  rw [keepQueues, if_neg (not_not.mpr hg), hfound]
  dsimp only
  rw [if_neg fun hlt => absurd hlt.1 (Nat.lt_irrefl _)]

/-- **The first loop.**  It empties the slots the group does not keep, and `done` has the queues it
found in a slot. -/
theorem keepQueues_spec (h : PendingOk kv) {done : ℕ → Bool}
    (hqueues : queues.reduceOption.Nodup)
    (hdone : ∀ (idx : ℕ) (x : Slot), (kv.2.map ListedQueue.slot)[idx]? = some x →
      done idx = true → x ∉ queues.reduceOption) :
    (keepQueues kv.1 kv.2 done queues).2 = queues.map (Option.filter (keeps kv)) ∧
      ∀ (idx : ℕ) (x : Slot), (kv.2.map ListedQueue.slot)[idx]? = some x →
        ((keepQueues kv.1 kv.2 done queues).1 idx = true ↔
          done idx = true ∨ x ∈ queues.reduceOption) := by
  induction queues generalizing done with
  | nil =>
    refine ⟨rfl, ?_⟩
    intro idx x _
    simp [keepQueues]
  | cons o queues ih =>
    cases o with
    | none =>
      obtain ⟨hq, hd⟩ := ih hqueues hdone
      refine ⟨?_, hd⟩
      show none :: _ = _
      rw [hq]
      rfl
    | some x =>
      rw [List.reduceOption_cons_of_some] at hqueues hdone ⊢
      rw [List.nodup_cons] at hqueues
      have hdone' : ∀ (idx : ℕ) (y : Slot), (kv.2.map ListedQueue.slot)[idx]? = some y →
          done idx = true → y ∉ queues.reduceOption := by
        intro idx y hy hd hmem
        exact hdone idx y hy hd (List.mem_cons_of_mem _ hmem)
      by_cases hx : x ∈ kv.2.map ListedQueue.slot
      · -- the slot is kept, and its queue is done
        obtain ⟨idx₀, hidx₀⟩ := List.mem_iff_getElem?.mp hx
        have hfree : done idx₀ = false := by
          rw [← Bool.not_eq_true]
          intro hd
          exact hdone _ x hidx₀ hd List.mem_cons_self
        have hkeep : keeps kv x = true := decide_eq_true (.inr hx)
        have hdone₀ : ∀ (idx : ℕ) (y : Slot), (kv.2.map ListedQueue.slot)[idx]? = some y →
            Function.update done idx₀ true idx = true → y ∉ queues.reduceOption := by
          intro idx y hy hd
          by_cases hi : idx = idx₀
          · rw [hi, hidx₀] at hy
            cases hy
            exact hqueues.1
          · rw [Function.update_of_ne hi] at hd
            exact hdone' idx y hy hd
        obtain ⟨hq, hd⟩ := ih hqueues.2 hdone₀
        rw [keepQueues_pending h hidx₀ hfree]
        refine ⟨?_, ?_⟩
        · rw [hq, List.map_cons, Option.filter_some_pos hkeep]
        · intro idx y hy
          rw [hd idx y hy, List.mem_cons]
          by_cases hi : idx = idx₀
          · have hyx : y = x := by
              rw [hi, hidx₀] at hy
              cases hy
              rfl
            rw [hi, Function.update_self]
            simp [hyx]
          · have hyx : y ≠ x := by
              rintro rfl
              exact hi ((eq_findIdx h hy).trans (eq_findIdx h hidx₀).symm)
            rw [Function.update_of_ne hi]
            simp [hyx]
      · -- the slot is of no concern to `done`
        obtain ⟨hq, hd⟩ := ih hqueues.2 hdone'
        have hne : ∀ (idx : ℕ) (y : Slot), (kv.2.map ListedQueue.slot)[idx]? = some y →
            y ≠ x := by
          rintro idx y hy rfl
          exact hx (List.mem_of_getElem? hy)
        by_cases hg : x.consumerGroupId = kv.1
        · have hkeep : keeps kv x = false := by simp [keeps, hg, hx]
          rw [keepQueues_dropped done hg hx]
          refine ⟨?_, ?_⟩
          · rw [hq, List.map_cons, Option.filter_some_neg hkeep]
          · intro idx y hy
            rw [hd idx y hy, List.mem_cons]
            simp [hne idx y hy]
        · have hkeep : keeps kv x = true := decide_eq_true (.inl hg)
          rw [keepQueues_other kv.2 done hg]
          refine ⟨?_, ?_⟩
          · rw [hq, List.map_cons, Option.filter_some_pos hkeep]
          · intro idx y hy
            rw [hd idx y hy, List.mem_cons]
            simp [hne idx y hy]

/-- The pending queues that are not done, in order. -/
def remaining (pending : List ListedQueue) (done : ℕ → Bool) : List ListedQueue :=
  ((List.range pending.length).filter fun idx => !done idx).filterMap fun idx => pending[idx]?

lemma remaining_eq_filter {pending : List ListedQueue} {done : ℕ → Bool} {p : ListedQueue → Bool}
    (h : ∀ (idx : ℕ) (x : ListedQueue), pending[idx]? = some x → done idx = !p x) :
    remaining pending done = pending.filter p := by
  unfold remaining
  induction pending generalizing done with
  | nil => rfl
  | cons x pending ih =>
    have hrest := @ih (fun idx => done (idx + 1)) fun idx y hy => h (idx + 1) y hy
    have h0 := h 0 x rfl
    rw [List.length_cons, List.range_succ_eq_map, List.filter_cons, h0, Bool.not_not,
      List.filter_map]
    cases hp : p x with
    | true =>
      rw [if_pos rfl, List.filter_cons_of_pos hp,
        @List.filterMap_cons_some _ _ (fun idx => (x :: pending)[idx]?) _ _ x rfl,
        List.filterMap_map]
      exact congrArg (x :: ·) hrest
    | false =>
      rw [if_neg Bool.false_ne_true, List.filter_cons_of_neg (by simp [hp]), List.filterMap_map]
      exact hrest

/-- The second loop takes the first queue that is not done. -/
lemma remaining_find {pending : List ListedQueue} {done : ℕ → Bool} {idx : ℕ}
    (h : (List.range pending.length).find? (fun idx => !done idx) = some idx) :
    ∃ x, pending[idx]? = some x ∧
      remaining pending done = x :: remaining pending (Function.update done idx true) := by
  have hlt : idx < pending.length := List.mem_range.mp (List.mem_of_find?_eq_some h)
  rw [← List.head?_filter] at h
  obtain ⟨rest, hsplit⟩ := List.head?_eq_some_iff.mp h
  have hnodup : (idx :: rest).Nodup := hsplit ▸ List.nodup_range.filter _
  -- the rest of the indexes are those not done afterwards
  have hrest : (List.range pending.length).filter
      (fun i => !Function.update done idx true i) = rest := by
    have hpred : (fun i => !Function.update done idx true i) =
        fun i => decide (i ≠ idx) && !done i := by
      funext i
      by_cases hi : i = idx
      · simp [hi]
      · simp [hi]
    rw [hpred, ← List.filter_filter, hsplit, List.filter_cons_of_neg (by simp)]
    refine List.filter_eq_self.mpr fun i hi => ?_
    rw [decide_eq_true_iff]
    rintro rfl
    exact (List.nodup_cons.mp hnodup).1 hi
  refine ⟨pending[idx], List.getElem?_eq_getElem hlt, ?_⟩
  unfold remaining
  rw [hrest, hsplit]
  exact List.filterMap_cons_some (List.getElem?_eq_getElem hlt)

theorem fillQueues_eq (pending : List ListedQueue) (done : ℕ → Bool) :
    fillQueues pending done queues =
      Places.deal ((remaining pending done).map ListedQueue.slot) queues := by
  induction queues generalizing done with
  | nil => rw [fillQueues, Places.deal]
  | cons o queues ih =>
    cases o with
    | some x => rw [fillQueues, Places.deal, ih]
    | none =>
      rw [fillQueues]
      cases hfind : (List.range pending.length).find? fun idx => !done idx with
      | none =>
        have hnil : remaining pending done = [] := by
          have hfilter : (List.range pending.length).filter (fun idx => !done idx) = [] :=
            List.filter_eq_nil_iff.mpr (List.find?_eq_none.mp hfind)
          unfold remaining
          rw [hfilter, List.filterMap_nil]
        dsimp only
        rw [ih, hnil, List.map_nil, Places.deal]
      | some idx =>
        obtain ⟨x, hx, hrem⟩ := remaining_find hfind
        dsimp only
        rw [ih, hx, hrem, List.map_cons, Places.deal]
        rfl

/-- **A group's turn.**  What the group does not hold yet is dealt to the slots that are free once
the group has given up what is not pending. -/
theorem distubeGroup_eq (h : PendingOk kv) (hqueues : queues.reduceOption.Nodup) :
    distubeGroup queues kv =
      Places.deal ((kv.2.map ListedQueue.slot).filter fun x => x ∉ queues.reduceOption)
        (queues.map (Option.filter (keeps kv))) := by
  obtain ⟨hq, hd⟩ := @keepQueues_spec kv queues h (fun _ => false) hqueues
    fun _ _ _ hdone => absurd hdone Bool.false_ne_true
  unfold distubeGroup
  dsimp only
  rw [hq, fillQueues_eq, List.filter_map]
  refine congrArg (fun xs : List ListedQueue => Places.deal (xs.map ListedQueue.slot) _) ?_
  refine remaining_eq_filter fun idx x hx => ?_
  have hiff := hd idx x.slot (slot_getElem? hx)
  rw [Bool.eq_iff_iff, hiff]
  simp

/-- What a group's turn does to the slots. -/
structure Turn (kv : ℤ × List ListedQueue) (before after : List (Option Slot)) : Prop where
  length : after.length = before.length
  nodup : after.reduceOption.Nodup
  stays : ∀ (i : ℕ) (x : Slot), before[i]? = some (some x) → keeps kv x = true →
    after[i]? = some (some x)
  belongs : ∀ x ∈ after.reduceOption, x.consumerGroupId = kv.1 → x ∈ kv.2.map ListedQueue.slot
  others : ∀ x : Slot, x.consumerGroupId ≠ kv.1 →
    (x ∈ after.reduceOption ↔ x ∈ before.reduceOption)
  complete : (∀ x ∈ kv.2.map ListedQueue.slot, x ∈ after.reduceOption) ↔
    kv.2.length + heldForOthers before [kv.1] ≤ before.length

/-- The pending queues that a group holds already, counted on either side. -/
lemma length_filter_keeps (h : PendingOk kv) (hqueues : queues.reduceOption.Nodup) :
    (queues.reduceOption.filter (keeps kv)).length +
        ((kv.2.map ListedQueue.slot).filter fun x => x ∉ queues.reduceOption).length =
      kv.2.length + heldForOthers queues [kv.1] := by
  have hpending := @List.length_eq_length_filter_add _ (kv.2.map ListedQueue.slot)
    fun x => decide (x ∈ queues.reduceOption)
  have hkept := @List.length_eq_length_filter_add _ (queues.reduceOption.filter (keeps kv))
    fun x => decide (x.consumerGroupId ∉ [kv.1])
  have hothers : (queues.reduceOption.filter (keeps kv)).filter
      (fun x => decide (x.consumerGroupId ∉ [kv.1])) =
      queues.reduceOption.filter fun x => decide (x.consumerGroupId ∉ [kv.1]) := by
    rw [List.filter_filter]
    refine List.filter_congr fun x _ => ?_
    by_cases hg : x.consumerGroupId = kv.1
    · simp [hg]
    · simp [hg, keeps]
  have hheld : ((queues.reduceOption.filter (keeps kv)).filter
      fun x => !decide (x.consumerGroupId ∉ [kv.1])).Perm
      ((kv.2.map ListedQueue.slot).filter fun x => decide (x ∈ queues.reduceOption)) := by
    refine (List.perm_ext_iff_of_nodup ((hqueues.filter _).filter _) (h.nodup.filter _)).mpr ?_
    intro x
    simp only [List.mem_filter, keeps, List.mem_singleton, Bool.not_eq_true', decide_eq_true_eq,
      decide_eq_false_iff_not, not_not]
    constructor
    · rintro ⟨⟨hx, hne | hmem⟩, hg⟩
      · exact absurd hg hne
      · exact ⟨hmem, hx⟩
    · rintro ⟨hmem, hx⟩
      exact ⟨⟨hx, .inr hmem⟩, h.consumerGroupId hmem⟩
  have hlen := hheld.length_eq
  have hdrop : (fun x => !decide (x ∈ queues.reduceOption)) =
      fun x : Slot => decide (x ∉ queues.reduceOption) := by
    funext x
    simp
  rw [hothers] at hkept
  rw [List.length_map, hdrop] at hpending
  unfold heldForOthers
  omega

theorem distubeGroup_turn (h : PendingOk kv) (hqueues : queues.reduceOption.Nodup) :
    Turn kv queues (distubeGroup queues kv) := by
  have hkept := Places.reduceOption_filter (keeps kv) queues
  have hperm := Places.reduceOption_deal
    ((kv.2.map ListedQueue.slot).filter fun x => x ∉ queues.reduceOption)
    (queues.map (Option.filter (keeps kv)))
  rw [hkept, ← distubeGroup_eq h hqueues] at hperm
  -- what is dealt is pending and new
  have hnew : ∀ n, ∀ x ∈ ((kv.2.map ListedQueue.slot).filter
      fun x => x ∉ queues.reduceOption).take n,
      x ∈ kv.2.map ListedQueue.slot ∧ x ∉ queues.reduceOption := by
    intro n x hx
    have hx := List.mem_filter.mp (List.mem_of_mem_take hx)
    exact ⟨hx.1, of_decide_eq_true hx.2⟩
  have hmem : ∀ x, x ∈ (distubeGroup queues kv).reduceOption →
      (x ∈ queues.reduceOption ∧ keeps kv x = true) ∨ x ∈ kv.2.map ListedQueue.slot := by
    intro x hx
    rcases List.mem_append.mp (hperm.mem_iff.mp hx) with hold | hdealt
    · exact .inl (List.mem_filter.mp hold)
    · exact .inr (hnew _ x hdealt).1
  have hstays : ∀ (i : ℕ) (x : Slot), queues[i]? = some (some x) → keeps kv x = true →
      (distubeGroup queues kv)[i]? = some (some x) := by
    intro i x hi hx
    rw [distubeGroup_eq h hqueues]
    exact Places.getElem?_deal (Places.getElem?_filter.mpr ⟨hi, hx⟩)
  refine ⟨?_, ?_, hstays, ?_, ?_, ?_⟩
  · rw [distubeGroup_eq h hqueues, Places.length_deal, List.length_map]
  · rw [hperm.nodup_iff]
    refine (hqueues.filter _).append ((h.nodup.filter _).sublist (List.take_sublist _ _)) ?_
    intro x hold hdealt
    exact (hnew _ x hdealt).2 (List.mem_filter.mp hold).1
  · intro x hx hg
    rcases hmem x hx with ⟨_, hkeep⟩ | hpending
    · exact (of_decide_eq_true hkeep).resolve_left (not_not.mpr hg)
    · exact hpending
  · intro x hg
    constructor
    · intro hx
      rcases hmem x hx with ⟨hold, _⟩ | hpending
      · exact hold
      · exact absurd (h.consumerGroupId hpending) hg
    · intro hx
      obtain ⟨i, hi⟩ := List.mem_iff_getElem?.mp (List.reduceOption_mem_iff.mp hx)
      exact Places.mem_reduceOption_of_getElem? (hstays i x hi (decide_eq_true (.inl hg)))
  · -- a pending queue that has a slot keeps it, so only the new ones count
    have hall := @Places.deal_all _
      ((kv.2.map ListedQueue.slot).filter fun x => x ∉ queues.reduceOption)
      (queues.map (Option.filter (keeps kv))) (h.nodup.filter _) ?_
    · rw [hkept, List.length_map, length_filter_keeps h hqueues, ← distubeGroup_eq h hqueues]
        at hall
      rw [← hall]
      refine ⟨fun hc x hx => hc x (List.mem_filter.mp hx).1, fun hc x hx => ?_⟩
      by_cases hold : x ∈ queues.reduceOption
      · obtain ⟨i, hi⟩ := List.mem_iff_getElem?.mp (List.reduceOption_mem_iff.mp hold)
        exact Places.mem_reduceOption_of_getElem? (hstays i x hi (decide_eq_true (.inr hx)))
      · exact hc x (List.mem_filter.mpr ⟨hx, decide_eq_true hold⟩)
    · intro x hx hold
      rw [hkept] at hold
      exact of_decide_eq_true (List.mem_filter.mp hx).2 (List.mem_filter.mp hold).1

/-! ## All turns -/

/-- What all turns do to the slots. -/
structure Distribution (pendings : PendingQueues) (before after : List (Option Slot)) : Prop where
  length : after.length = before.length
  nodup : after.reduceOption.Nodup
  stays : ∀ (i : ℕ) (x : Slot), before[i]? = some (some x) →
    x.consumerGroupId ∉ pendings.map Prod.fst ∨
      (∃ kv ∈ pendings, x ∈ kv.2.map ListedQueue.slot) →
    after[i]? = some (some x)
  belongs : ∀ x ∈ after.reduceOption, ∀ kv ∈ pendings, x.consumerGroupId = kv.1 →
    x ∈ kv.2.map ListedQueue.slot
  others : ∀ x : Slot, x.consumerGroupId ∉ pendings.map Prod.fst →
    (x ∈ after.reduceOption ↔ x ∈ before.reduceOption)
  complete : (∀ kv ∈ pendings, ∀ x ∈ kv.2.map ListedQueue.slot, x ∈ after.reduceOption) ↔
    ∀ first, first <+: pendings →
      numPending first + heldForOthers before (first.map Prod.fst) ≤ before.length

lemma heldForOthers_le (queues : List (Option Slot)) (groups : List ℤ) :
    heldForOthers queues groups ≤ queues.length :=
  (List.length_filter_le _ _).trans (List.reduceOption_length_le queues)

/-- The slots of other groups are counted up to their order. -/
lemma heldForOthers_congr {before after : List (Option Slot)} {groups : List ℤ}
    (hbefore : before.reduceOption.Nodup) (hafter : after.reduceOption.Nodup)
    (h : ∀ x : Slot, x.consumerGroupId ∉ groups →
      (x ∈ after.reduceOption ↔ x ∈ before.reduceOption)) :
    heldForOthers after groups = heldForOthers before groups := by
  unfold heldForOthers
  refine List.Perm.length_eq
    ((List.perm_ext_iff_of_nodup (hafter.filter _) (hbefore.filter _)).mpr ?_)
  intro x
  rw [List.mem_filter, List.mem_filter]
  refine and_congr_left fun hx => h x ?_
  exact of_decide_eq_true hx

/-- A group with all its pending queues in slots holds exactly as many. -/
lemma Turn.count {before after : List (Option Slot)} (t : Turn kv before after)
    (h : PendingOk kv) (hbefore : before.reduceOption.Nodup)
    (hall : ∀ x ∈ kv.2.map ListedQueue.slot, x ∈ after.reduceOption) {groups : List ℤ}
    (hg : kv.1 ∉ groups) :
    heldForOthers after groups = kv.2.length + heldForOthers before (kv.1 :: groups) := by
  have hsplit := @List.length_eq_length_filter_add _
    (after.reduceOption.filter fun x => decide (x.consumerGroupId ∉ groups))
    fun x => decide (x.consumerGroupId = kv.1)
  have hown : ((after.reduceOption.filter fun x => decide (x.consumerGroupId ∉ groups)).filter
      fun x => decide (x.consumerGroupId = kv.1)).Perm (kv.2.map ListedQueue.slot) := by
    refine (List.perm_ext_iff_of_nodup ((t.nodup.filter _).filter _) h.nodup).mpr ?_
    intro x
    simp only [List.mem_filter, decide_eq_true_eq]
    constructor
    · rintro ⟨⟨hx, _⟩, hxg⟩
      exact t.belongs x hx hxg
    · intro hx
      have hxg := h.consumerGroupId hx
      exact ⟨⟨hall x hx, hxg ▸ hg⟩, hxg⟩
  have hrest : (after.reduceOption.filter fun x => decide (x.consumerGroupId ∉ groups)).filter
      (fun x => !decide (x.consumerGroupId = kv.1)) =
      after.reduceOption.filter fun x => decide (x.consumerGroupId ∉ kv.1 :: groups) := by
    rw [List.filter_filter]
    refine List.filter_congr fun x _ => ?_
    by_cases hx : x.consumerGroupId = kv.1
    · simp [hx]
    · simp [hx]
  have hothers : heldForOthers after (kv.1 :: groups) = heldForOthers before (kv.1 :: groups) := by
    refine heldForOthers_congr hbefore t.nodup fun x hx => t.others x ?_
    exact fun hxg => hx (List.mem_cons.mpr (.inl hxg))
  have hlen := hown.length_eq
  rw [List.length_map] at hlen
  rw [hrest] at hsplit
  unfold heldForOthers at hothers ⊢
  omega

/-- **All turns**, by induction on the groups. -/
theorem distubePendingQueues_spec {pendings : PendingQueues}
    (hkeys : (pendings.map Prod.fst).Nodup) (hok : ∀ kv ∈ pendings, PendingOk kv)
    (hqueues : queues.reduceOption.Nodup) :
    Distribution pendings queues (distubePendingQueues pendings queues) := by
  induction pendings generalizing queues with
  | nil =>
    refine ⟨rfl, hqueues, fun i x hi _ => hi, fun x _ kv hkv => absurd hkv List.not_mem_nil,
      fun x _ => Iff.rfl, ?_⟩
    refine ⟨fun _ first hfirst => ?_, fun _ kv hkv => absurd hkv List.not_mem_nil⟩
    rw [List.prefix_nil.mp hfirst]
    exact (Nat.zero_add _).trans_le (heldForOthers_le queues [])
  | cons kv rest ih =>
    rw [List.map_cons, List.nodup_cons] at hkeys
    have hkv := hok kv List.mem_cons_self
    have t := distubeGroup_turn hkv hqueues
    have d := ih hkeys.2 (fun kv' hkv' => hok kv' (List.mem_cons_of_mem _ hkv')) t.nodup
    have hrun : distubePendingQueues (kv :: rest) queues =
        distubePendingQueues rest (distubeGroup queues kv) := rfl
    rw [hrun]
    -- the group's own slots are not touched any more
    have hown : ∀ x : Slot, x.consumerGroupId = kv.1 →
        (x ∈ (distubePendingQueues rest (distubeGroup queues kv)).reduceOption ↔
          x ∈ (distubeGroup queues kv).reduceOption) :=
      fun x hx => d.others x (hx ▸ hkeys.1)
    refine ⟨d.length.trans t.length, d.nodup, ?_, ?_, ?_, ?_⟩
    · intro i x hi hx
      have hkeep : keeps kv x = true := by
        rcases hx with hx | ⟨kv', hkv', hx⟩
        · exact decide_eq_true (.inl fun hg => hx (List.mem_cons.mpr (.inl hg)))
        · rcases List.mem_cons.mp hkv' with rfl | hmem
          · exact decide_eq_true (.inr hx)
          · refine decide_eq_true (.inl fun hg => hkeys.1 ?_)
            rw [← hg, (hok kv' hkv').consumerGroupId hx]
            exact List.mem_map_of_mem hmem
      refine d.stays i x (t.stays i x hi hkeep) ?_
      rcases hx with hx | ⟨kv', hkv', hx⟩
      · exact .inl fun hmem => hx (List.mem_cons_of_mem _ hmem)
      · rcases List.mem_cons.mp hkv' with rfl | hmem
        · exact .inl (hkv.consumerGroupId hx ▸ hkeys.1)
        · exact .inr ⟨kv', hmem, hx⟩
    · intro x hx kv' hkv' hg
      rcases List.mem_cons.mp hkv' with rfl | hmem
      · exact t.belongs x ((hown x hg).mp hx) hg
      · exact d.belongs x hx kv' hmem hg
    · intro x hx
      have hne : x.consumerGroupId ≠ kv.1 := fun hg => hx (List.mem_cons.mpr (.inl hg))
      have hnot : x.consumerGroupId ∉ rest.map Prod.fst :=
        fun hmem => hx (List.mem_cons_of_mem _ hmem)
      exact (d.others x hnot).trans (t.others x hne)
    · have hfirst : ∀ first, first <+: rest → kv.1 ∉ first.map Prod.fst :=
        fun first hpre hmem => hkeys.1 ((hpre.sublist.map Prod.fst).subset hmem)
      constructor
      · intro hall
        have hhead : ∀ x ∈ kv.2.map ListedQueue.slot,
            x ∈ (distubeGroup queues kv).reduceOption := by
          intro x hx
          exact (hown x (hkv.consumerGroupId hx)).mp (hall kv List.mem_cons_self x hx)
        have hrest := d.complete.mp fun kv' hkv' => hall kv' (List.mem_cons_of_mem _ hkv')
        intro first hpre
        rcases List.prefix_cons_iff.mp hpre with rfl | ⟨first', rfl, hpre'⟩
        · exact (Nat.zero_add _).trans_le (heldForOthers_le queues [])
        · have hle := hrest first' hpre'
          rw [t.count hkv hqueues hhead (hfirst first' hpre'), t.length] at hle
          show (kv.2.length + numPending first') + _ ≤ _
          show _ + heldForOthers queues (kv.1 :: first'.map Prod.fst) ≤ _
          omega
      · intro hfit
        have hsingle := hfit [kv] (List.prefix_cons_iff.mpr (.inr ⟨[], rfl, List.nil_prefix⟩))
        have hhead := t.complete.mpr (by simpa [numPending] using hsingle)
        have hrest := d.complete.mpr fun first' hpre' => by
          have hle := hfit (kv :: first') (List.prefix_cons_iff.mpr (.inr ⟨first', rfl, hpre'⟩))
          rw [t.count hkv hqueues hhead (hfirst first' hpre'), t.length]
          have hle : (kv.2.length + numPending first') +
            heldForOthers queues (kv.1 :: first'.map Prod.fst) ≤ queues.length := hle
          omega
        intro kv' hkv' x hx
        rcases List.mem_cons.mp hkv' with rfl | hmem
        · exact (hown x (hkv.consumerGroupId hx)).mpr (hhead x hx)
        · exact hrest kv' hmem x hx

end

end PhxQueue.Consumer
