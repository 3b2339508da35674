import Mathlib.Data.List.ReduceOption
import Mathlib.Tactic

/-!
# Places

A list of places, each empty or with one item.

* `deal xs ps`         the items `xs` put into the empty places of `ps`, in order;
* `distinct_iff`       no item has two places, as a fact about the items that have one;
* `reduceOption_deal`  the items placed after `deal`, up to their order;
* `deal_all`           all items find a place exactly when there are enough.
-/

namespace PhxQueue.Lib.Places

variable {α : Type*}

/-- The items are put into the empty places as long as both last. -/
def deal : List α → List (Option α) → List (Option α)
  | _, [] => []
  | xs, some y :: ps => some y :: deal xs ps
  | [], none :: ps => none :: deal [] ps
  | x :: xs, none :: ps => some x :: deal xs ps

def Distinct (ps : List (Option α)) : Prop :=
  ∀ (i j : ℕ) (x : α), ps[i]? = some (some x) → ps[j]? = some (some x) → i = j

lemma Distinct.tail {p : Option α} {ps : List (Option α)} (h : Distinct (p :: ps)) :
    Distinct ps := by
  intro i j x hi hj
  have hij := h (i + 1) (j + 1) x hi hj
  omega

lemma distinct_iff (ps : List (Option α)) : Distinct ps ↔ ps.reduceOption.Nodup := by
  induction ps with
  | nil =>
    refine ⟨fun _ => List.nodup_nil, ?_⟩
    intro _ i j x hi
    simp at hi
  | cons p ps ih =>
    cases p with
    | none =>
      rw [List.reduceOption_cons_of_none, ← ih]
      refine ⟨Distinct.tail, ?_⟩
      intro h i j x hi hj
      cases i with
      | zero => cases hi
      | succ i =>
        cases j with
        | zero => cases hj
        | succ j => rw [h i j x hi hj]
    | some y =>
      rw [List.reduceOption_cons_of_some, List.nodup_cons, ← ih, List.reduceOption_mem_iff]
      constructor
      · intro h
        refine ⟨fun hy => ?_, h.tail⟩
        obtain ⟨i, hi⟩ := List.mem_iff_getElem?.mp hy
        have h0 := h 0 (i + 1) y rfl hi
        omega
      · rintro ⟨hy, h⟩ i j x hi hj
        cases i with
        | zero =>
          cases hi
          cases j with
          | zero => rfl
          | succ j => exact absurd (@List.mem_of_getElem? _ ps _ _ hj) hy
        | succ i =>
          cases j with
          | zero =>
            cases hj
            exact absurd (@List.mem_of_getElem? _ ps _ _ hi) hy
          | succ j => rw [h i j x hi hj]

lemma mem_reduceOption_of_getElem? {ps : List (Option α)} {i : ℕ} {x : α}
    (h : ps[i]? = some (some x)) : x ∈ ps.reduceOption :=
  List.reduceOption_mem_iff.mpr (List.mem_of_getElem? h)

/-! ## Emptying places -/

lemma reduceOption_filter (p : α → Bool) (ps : List (Option α)) :
    (ps.map (Option.filter p)).reduceOption = ps.reduceOption.filter p := by
  induction ps with
  | nil => rfl
  | cons o ps ih =>
    cases o with
    | none =>
      rw [List.map_cons, Option.filter_none, List.reduceOption_cons_of_none, ih,
        List.reduceOption_cons_of_none]
    | some x =>
      rw [List.map_cons, List.reduceOption_cons_of_some, List.filter_cons, ← ih]
      cases hp : p x with
      | true => simp [Option.filter, hp]
      | false => simp [Option.filter, hp]

lemma getElem?_filter {p : α → Bool} {ps : List (Option α)} {i : ℕ} {x : α} :
    (ps.map (Option.filter p))[i]? = some (some x) ↔ ps[i]? = some (some x) ∧ p x = true := by
  rw [List.getElem?_map]
  cases ps[i]? with
  | none => simp
  | some o => simp [Option.filter_eq_some_iff]

/-! ## Dealing -/

@[simp] lemma length_deal (xs : List α) (ps : List (Option α)) :
    (deal xs ps).length = ps.length := by
  induction xs, ps using deal.induct with
  | case1 xs => simp [deal]
  | case2 xs y ps ih => simp [deal, ih]
  | case3 ps ih => simp [deal, ih]
  | case4 x xs ps ih => simp [deal, ih]

lemma getElem?_deal {xs : List α} {ps : List (Option α)} {i : ℕ} {x : α}
    (h : ps[i]? = some (some x)) : (deal xs ps)[i]? = some (some x) := by
  induction xs, ps using deal.induct generalizing i with
  | case1 xs => simp at h
  | case2 xs y ps ih =>
    cases i with
    | zero => exact h
    | succ i => exact ih h
  | case3 ps ih =>
    cases i with
    | zero => cases h
    | succ i => exact ih h
  | case4 x xs ps ih =>
    cases i with
    | zero => cases h
    | succ i => exact ih h

/-- As many items are dealt as there are empty places. -/
theorem reduceOption_deal (xs : List α) (ps : List (Option α)) :
    (deal xs ps).reduceOption.Perm
      (ps.reduceOption ++ xs.take (ps.length - ps.reduceOption.length)) := by
  induction xs, ps using deal.induct with
  | case1 xs => simp [deal]
  | case2 xs y ps ih => simpa [deal] using ih
  | case3 ps ih => simpa [deal] using ih
  | case4 x xs ps ih =>
    have hle := List.reduceOption_length_le ps
    have hsub : ps.length + 1 - ps.reduceOption.length =
        (ps.length - ps.reduceOption.length) + 1 := by omega
    rw [deal, List.reduceOption_cons_of_some, List.reduceOption_cons_of_none, List.length_cons,
      hsub, List.take_succ_cons]
    exact (ih.cons x).trans List.perm_middle.symm

/-- All items find a place exactly when there are enough. -/
theorem deal_all {xs : List α} {ps : List (Option α)} (hxs : xs.Nodup)
    (hps : ∀ x ∈ xs, x ∉ ps.reduceOption) :
    (∀ x ∈ xs, x ∈ (deal xs ps).reduceOption) ↔
      ps.reduceOption.length + xs.length ≤ ps.length := by
  have hle := List.reduceOption_length_le ps
  have hmem : ∀ x, x ∈ (deal xs ps).reduceOption ↔
      x ∈ ps.reduceOption ∨ x ∈ xs.take (ps.length - ps.reduceOption.length) := by
    intro x
    rw [(reduceOption_deal xs ps).mem_iff, List.mem_append]
  constructor
  · intro h
    have hsub : xs ⊆ xs.take (ps.length - ps.reduceOption.length) := by
      intro x hx
      rcases (hmem x).mp (h x hx) with hold | hnew
      · exact absurd hold (hps x hx)
      · exact hnew
    have hlen := (hxs.subperm hsub).length_le
    rw [List.length_take] at hlen
    omega
  · intro h x hx
    rw [hmem, List.take_of_length_le (by omega)]
    exact .inr hx

end PhxQueue.Lib.Places
