import Mathlib.Data.Nat.Bitwise
import PhxQueue.Consumer.AfterConsume
import PhxQueue.Producer.Enqueue

/-!
# Which groups an item is for

An item has a mask with a bit for each consumer group it is for.  The producer makes it, in
`ConsumerGroupIDs2Mask`, and so does a consumer that sends an item back; a store looks at it in
`SkipGet`, and a consumer in `SkipHandle`.

* `groupsOf`          the groups a mask is for;
* `groupsOf_groupBit`, `groupsOf_mask`   those of the masks that are made;
* `Routed`            store and consumer let an item through for the groups it is for;
* `routing_iff`       **they do exactly when no two of the groups share a bit**;
* `apart_of_le`       ids from 1 to 64 do not;
* `group65_not_routed`   a group with an id above 64.
-/

set_option linter.unusedSectionVars false

namespace PhxQueue.Consumer
open Comm PhxQueue.Config Producer Store

def skipHandle (consumerGroupId : ℤ) (item : QItem) : Bool :=
  item.consumerGroupIds &&& groupBit consumerGroupId = 0

/-! ## Masks -/

def groupsOf (mask : ℕ) : Set ℤ := { g | mask &&& groupBit g ≠ 0 }

lemma mem_groupsOf {mask : ℕ} {g : ℤ} :
    g ∈ groupsOf mask ↔ mask.testBit ((g - 1) % 64).toNat := by
  show mask &&& groupBit g ≠ 0 ↔ _
  unfold groupBit
  rw [Nat.one_shiftLeft, Nat.and_two_pow]
  cases mask.testBit ((g - 1) % 64).toNat <;> simp

lemma groupsOf_zero : groupsOf 0 = ∅ := by
  ext g
  rw [mem_groupsOf]
  simp

lemma groupsOf_or (m n : ℕ) : groupsOf (m ||| n) = groupsOf m ∪ groupsOf n := by
  ext g
  rw [Set.mem_union, mem_groupsOf, mem_groupsOf, mem_groupsOf, Nat.testBit_or, Bool.or_eq_true]

lemma groupsOf_uint64Max : groupsOf uint64Max = Set.univ := by
  ext g
  unfold uint64Max
  rw [mem_groupsOf, Nat.testBit_two_pow_sub_one, decide_eq_true_eq]
  exact iff_of_true (by omega) (Set.mem_univ g)

/-- A bit is shared by the groups that are equal modulo 64. -/
lemma groupsOf_groupBit (s : ℤ) : groupsOf (groupBit s) = { g | s ≡ g [ZMOD 64] } := by
  ext g
  show _ ↔ s ≡ g [ZMOD 64]
  unfold groupBit
  rw [mem_groupsOf, Nat.one_shiftLeft, Nat.testBit_two_pow, decide_eq_true_eq]
  unfold Int.ModEq
  omega

lemma groupsOf_foldl (ids : List ℤ) (mask : ℕ) :
    groupsOf (ids.foldl (fun mask (id : ℤ) => if id > 0 then mask ||| groupBit id else mask) mask) =
      groupsOf mask ∪ { g | ∃ s ∈ ids, 0 < s ∧ s ≡ g [ZMOD 64] } := by
  induction ids generalizing mask with
  | nil => simp
  | cons id ids ih =>
    rw [List.foldl_cons, ih]
    by_cases hid : id > 0
    · rw [if_pos hid, groupsOf_or, groupsOf_groupBit]
      ext g
      show (g ∈ groupsOf mask ∨ id ≡ g [ZMOD 64]) ∨ (∃ s ∈ ids, _) ↔
        g ∈ groupsOf mask ∨ ∃ s ∈ id :: ids, _
      rw [List.exists_mem_cons_iff]
      tauto
    · rw [if_neg hid]
      ext g
      show g ∈ groupsOf mask ∨ (∃ s ∈ ids, _) ↔ g ∈ groupsOf mask ∨ ∃ s ∈ id :: ids, _
      rw [List.exists_mem_cons_iff]
      tauto

/-- **The groups of the producer's mask.** -/
theorem groupsOf_mask (ids : List ℤ) :
    groupsOf (consumerGroupIDs2Mask (some ids)) = { g | ∃ s ∈ ids, 0 < s ∧ s ≡ g [ZMOD 64] } := by
  show groupsOf (ids.foldl _ 0) = _
  rw [groupsOf_foldl, groupsOf_zero, Set.empty_union]

/-! ## Routing -/

/-- The item is for group `g`; without ids it is for all groups. -/
def IsFor (ids : Option (List ℤ)) (g : ℤ) : Prop := ∀ l ∈ ids, g ∈ l

/-- A `Get` of the topic and a worker let an item through for the groups it is for. -/
structure Routed (topicId : ℤ) (ids : Option (List ℤ)) (g : ℤ) (item : QItem) : Prop where
  store : skipGet topicId g item = false ↔ IsFor ids g
  consumer : skipHandle g item = false ↔ IsFor ids g

/-- Group `g` shares its bit with none of these, or is one of them. -/
def Apart (ids : Option (List ℤ)) (g : ℤ) : Prop := ∀ l ∈ ids, ∀ s ∈ l, s ≡ g [ZMOD 64] → g ∈ l

lemma isFor_some {l : List ℤ} {g : ℤ} : IsFor (some l) g ↔ g ∈ l := by
  unfold IsFor
  simp

lemma apart_some {l : List ℤ} {g : ℤ} : Apart (some l) g ↔ ∀ s ∈ l, s ≡ g [ZMOD 64] → g ∈ l := by
  unfold Apart
  simp

lemma skipHandle_eq_false {g : ℤ} {item : QItem} :
    skipHandle g item = false ↔ g ∈ groupsOf item.consumerGroupIds :=
  decide_eq_false_iff_not

lemma skipGet_eq_false {g : ℤ} {item : QItem} :
    skipGet item.topicId g item = false ↔ g ∈ groupsOf item.consumerGroupIds := by
  unfold skipGet
  rw [Bool.or_eq_false_iff, decide_eq_false_iff_not, decide_eq_false_iff_not, Nat.and_comm (groupBit g)]
  exact and_iff_right (fun hne => hne rfl)

lemma routed_iff_mem {ids : Option (List ℤ)} {g : ℤ} {item : QItem} :
    Routed item.topicId ids g item ↔ (g ∈ groupsOf item.consumerGroupIds ↔ IsFor ids g) := by
  constructor
  · intro h
    rw [← skipHandle_eq_false]
    exact h.consumer
  · intro h
    exact ⟨skipGet_eq_false.trans h, skipHandle_eq_false.trans h⟩

/-- An item whose mask is for the groups that share a bit with one of `l`. -/
lemma routed_iff_apart {l : List ℤ} {g : ℤ} {item : QItem}
    (hitem : g ∈ groupsOf item.consumerGroupIds ↔ ∃ s ∈ l, s ≡ g [ZMOD 64]) :
    Routed item.topicId (some l) g item ↔ Apart (some l) g := by
  rw [routed_iff_mem, hitem, isFor_some, apart_some]
  constructor
  · intro h s hs hsg
    exact h.mp ⟨s, hs, hsg⟩
  · intro h
    constructor
    · rintro ⟨s, hs, hsg⟩
      exact h s hs hsg
    · intro hg
      exact ⟨g, hg, Int.ModEq.refl g⟩

lemma routed_none {g : ℤ} {item : QItem} (hitem : item.consumerGroupIds = uint64Max) :
    Routed item.topicId none g item := by
  rw [routed_iff_mem, hitem, groupsOf_uint64Max]
  exact iff_of_true (Set.mem_univ g) (fun l hl => nomatch hl)

/-- **An item is routed right exactly when no other group shares its bit**: when the producer makes
its mask for a set of groups, and when group `r` sends it back. -/
theorem routing_iff (byteSize : QItem → ℕ) (compress : String → String) (args : EnqueueArgs)
    (pubId : ℤ) (now : ℕ) (hids : ∀ l ∈ args.consumerGroupIds, ∀ s ∈ l, 0 < s) (item : QItem)
    (r g : ℤ) :
    (Routed args.topicId args.consumerGroupIds g (makeItem byteSize compress args pubId now) ↔
        Apart args.consumerGroupIds g) ∧
      (Routed item.topicId (some [r]) g (updateItem r now item) ↔ Apart (some [r]) g) := by
  constructor
  · have htopic : (makeItem byteSize compress args pubId now).topicId = args.topicId := rfl
    have hmask : (makeItem byteSize compress args pubId now).consumerGroupIds =
        consumerGroupIDs2Mask args.consumerGroupIds := rfl
    cases hl : args.consumerGroupIds with
    | none =>
      rw [hl] at hmask
      exact iff_of_true (htopic ▸ routed_none hmask) (fun l hl => nomatch hl)
    | some l =>
      rw [hl] at hmask hids
      rw [← htopic]
      refine routed_iff_apart ?_
      rw [hmask, groupsOf_mask]
      constructor
      · rintro ⟨s, hs, _, hsg⟩
        exact ⟨s, hs, hsg⟩
      · rintro ⟨s, hs, hsg⟩
        exact ⟨s, hs, hids l rfl s hs, hsg⟩
  · have htopic : (updateItem r now item).topicId = item.topicId := rfl
    rw [← htopic]
    refine routed_iff_apart ?_
    show g ∈ groupsOf (groupBit r) ↔ _
    rw [groupsOf_groupBit]
    simp

theorem apart_of_le {ids : Option (List ℤ)} {g : ℤ} (hg : 0 < g ∧ g ≤ 64)
    (hids : ∀ l ∈ ids, ∀ s ∈ l, 0 < s ∧ s ≤ 64) : Apart ids g := by
  intro l hl s hs hsg
  have hs' := hids l hl s hs
  unfold Int.ModEq at hsg
  obtain rfl : s = g := by omega
  exact hs

/-- Groups 1 and 64, and the last one sends the item back. -/
theorem groups1And64_routed :
    (∀ l ∈ some [(1 : ℤ), 64], ∀ s ∈ l, 0 < s) ∧
    Routed 1 (some [1, 64]) 2 (makeItem QItem.byteSize id ⟨1, 0, 0, "", 1, some [1, 64]⟩ 1 0) ∧
    Routed 1 (some [64]) 1 (updateItem 64 0 { topicId := 1 }) := by
  have hids : ∀ l ∈ some [(1 : ℤ), 64], ∀ s ∈ l, 0 < s := by decide
  have h := routing_iff QItem.byteSize id ⟨1, 0, 0, "", 1, some [1, 64]⟩ 1 0 hids { topicId := 1 }
    64
  have hle : ∀ l ∈ some [(1 : ℤ), 64], ∀ s ∈ l, 0 < s ∧ s ≤ 64 := by decide
  have hle' : ∀ l ∈ some [(64 : ℤ)], ∀ s ∈ l, 0 < s ∧ s ≤ 64 := by decide
  exact ⟨hids, (h 2).1.mpr (apart_of_le (by decide) hle), (h 1).2.mpr (apart_of_le (by decide) hle')⟩

/-- With groups 1 and 65, an item for the second one is let through for the first. -/
theorem group65_not_routed :
    (({ pubs := [], queueInfos := [], itemsByteSizeLimit := 0, consumerGroupIds := [1, 65] } :
        TopicConfig).isValidConsumerGroupID 65 ∧
      ({ pubs := [], queueInfos := [], itemsByteSizeLimit := 0, consumerGroupIds := [1, 65] } :
        TopicConfig).isValidConsumerGroupID 1) ∧
    ¬ Routed 1 (some [65]) 1 (makeItem QItem.byteSize id ⟨1, 0, 0, "", 1, some [65]⟩ 1 0) ∧
    ¬ Routed 1 (some [65]) 1 (updateItem 65 0 { topicId := 1 }) := by
  refine ⟨by decide, ?_, ?_⟩ <;>
  · intro h
    have hno := h.store.mp (by decide)
    rw [isFor_some] at hno
    revert hno
    decide

end PhxQueue.Consumer
