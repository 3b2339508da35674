import PhxQueue.Comm
import Mathlib.Tactic

/-!
# Cursors and the meta queue

A cursor is an instance id or `-1`.  What matters of it is how many instances it has passed,
its `level`: the instances up to the cursor, none for `-1`.

`StoreMetaQueue` of `store/storemeta.cpp` is an ordered set of the cursors of the instances that
hold items of one queue.  Its statistics (index, crc, last dequeued meta) are in
`PhxQueue.Store.MetaQueue`.

* `level`, `level_le_iff`   cursors by the instances they pass;
* `next`, `pushBack`, `front`, `back`, `eraseFrontTill`   the operations of the queue.
-/

set_option linter.unusedSectionVars false

namespace PhxQueue.Store
open Comm

/-! ## Cursors -/

/-- The instances a cursor has passed are those below its level. -/
def level (cursorId : ℕ) : ℕ := if cursorId = uint64Max then 0 else cursorId + 1

@[simp] lemma level_uint64Max : level uint64Max = 0 := if_pos rfl

lemma level_of_ne {c : ℕ} (h : c ≠ uint64Max) : level c = c + 1 := if_neg h

lemma level_of_lt {c : ℕ} (h : c < uint64Max) : level c = c + 1 := level_of_ne h.ne

lemma ne_uint64Max_of_lt_level {c i : ℕ} (h : i < level c) : c ≠ uint64Max := by
  rintro rfl
  rw [level_uint64Max] at h
  omega

lemma le_of_lt_level {c i : ℕ} (h : i < level c) : i ≤ c := by
  rw [level_of_ne (ne_uint64Max_of_lt_level h)] at h
  omega

lemma lt_of_level_le {c i : ℕ} (hc : c ≠ uint64Max) (h : level c ≤ i) : c < i := by
  rw [level_of_ne hc] at h
  omega

lemma level_le_of_lt {c i : ℕ} (h : c < i) : level c ≤ i := by
  unfold level
  split <;> omega

/-- The level of a stored cursor, which may be missing. -/
def levelOf : Option ℕ → ℕ
  | none => 0
  | some c => level c

@[simp] lemma levelOf_none : levelOf none = 0 := rfl

@[simp] lemma levelOf_some (c : ℕ) : levelOf (some c) = level c := rfl

/-! ## The meta queue -/

abbrev StoreMetaQueue := Finset ℕ

namespace StoreMetaQueue

variable (q : StoreMetaQueue)

def front : Option ℕ := q.min

def back : Option ℕ := q.max

/-- `StoreMetaQueue::Next`; after `-1` comes the first meta. -/
def next (cursorId : ℕ) : Option ℕ :=
  if cursorId = uint64Max then front q else front (q.filter (cursorId < ·))

def pushBack (cursorId : ℕ) : StoreMetaQueue :=
  if cursorId = uint64Max then q
  else if ∀ m ∈ q, m < cursorId then insert cursorId q else q

def eraseFrontTill (cursorId : ℕ) : StoreMetaQueue :=
  if cursorId = uint64Max then q else q.filter (cursorId < ·)

variable {q}

lemma front_mem {m : ℕ} (h : front q = some m) : m ∈ q := Finset.mem_of_min h

lemma front_le {m : ℕ} (h : front q = some m) {m' : ℕ} (hm' : m' ∈ q) : m ≤ m' :=
  Finset.min_le_of_eq hm' h

lemma front_eq_none : front q = none ↔ q = ∅ := Finset.min_eq_top

lemma le_back {m : ℕ} (h : back q = some m) {m' : ℕ} (hm' : m' ∈ q) : m' ≤ m :=
  Finset.le_max_of_eq hm' h

lemma back_mem {m : ℕ} (h : back q = some m) : m ∈ q := Finset.mem_of_max h

/-- What `Next` searches: the metas the cursor has not passed. -/
lemma next_eq (c : ℕ) : next q c = front (q.filter (level c ≤ ·)) := by
  unfold next
  by_cases hc : c = uint64Max
  · subst hc
    rw [if_pos rfl, level_uint64Max, Finset.filter_true_of_mem fun _ _ => Nat.zero_le _]
  · rw [if_neg hc, level_of_ne hc]
    rfl

lemma next_mem {c m : ℕ} (h : next q c = some m) : m ∈ q ∧ level c ≤ m := by
  rw [next_eq] at h
  exact Finset.mem_filter.mp (front_mem h)

lemma next_le {c m : ℕ} (h : next q c = some m) {m' : ℕ} (hm' : m' ∈ q) (hc : level c ≤ m') :
    m ≤ m' := by
  rw [next_eq] at h
  exact front_le h (Finset.mem_filter.mpr ⟨hm', hc⟩)

lemma next_none {c : ℕ} (h : next q c = none) {m' : ℕ} (hm' : m' ∈ q) : m' < level c := by
  rw [next_eq, front_eq_none] at h
  by_contra hn
  have hmem : m' ∈ q.filter (level c ≤ ·) := Finset.mem_filter.mpr ⟨hm', not_lt.mp hn⟩
  rw [h] at hmem
  exact absurd hmem (Finset.notMem_empty m')

lemma mem_eraseFrontTill {c m : ℕ} : m ∈ eraseFrontTill q c ↔ m ∈ q ∧ level c ≤ m := by
  unfold eraseFrontTill
  by_cases hc : c = uint64Max
  · subst hc
    rw [if_pos rfl, level_uint64Max]
    exact (and_iff_left (Nat.zero_le m)).symm
  · rw [if_neg hc, Finset.mem_filter, level_of_ne hc]
    exact Iff.rfl

lemma mem_pushBack_of_mem {c m : ℕ} (h : m ∈ q) : m ∈ pushBack q c := by
  unfold pushBack
  split
  · exact h
  split
  · exact Finset.mem_insert_of_mem h
  · exact h

lemma mem_pushBack {c m : ℕ} (h : m ∈ pushBack q c) : m = c ∨ m ∈ q := by
  unfold pushBack at h
  split at h
  · exact .inr h
  split at h
  · exact Finset.mem_insert.mp h
  · exact .inr h

lemma self_mem_pushBack {c : ℕ} (hc : c ≠ uint64Max) (h : ∀ m ∈ q, m < c) : c ∈ pushBack q c := by
  unfold pushBack
  rw [if_neg hc, if_pos h]
  exact Finset.mem_insert_self c q

end StoreMetaQueue

end PhxQueue.Store
