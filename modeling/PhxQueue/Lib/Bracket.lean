import Mathlib.Data.ENat.Lattice
import Mathlib.Order.Interval.Finset.Nat
import Mathlib.Tactic

/-!
# Prefix-sum brackets

A list of sizes, some of them infinite, cuts the natural numbers into consecutive brackets: a number
belongs to the first position up to which the sizes add to more than it.

* `Selects`                 the position of a number;
* `selects_cons_zero`, `selects_cons_succ`   the position by subtraction along the list;
* `exists_selects_iff`      there is a position exactly below the total;
* `Selects.mono`            positions go up with the number;
* `setOf_selects`           a bracket is the interval from the sum before it of its own size;
* `not_selects_after_top`   nothing belongs to a position after an infinite one.
-/

set_option linter.unusedSectionVars false

namespace PhxQueue.Lib

/-- `i` is the first position up to which the sizes add to more than `n`. -/
def Selects (w : List ℕ∞) (n i : ℕ) : Prop :=
  IsLeast { i | i < w.length ∧ (n : ℕ∞) < (w.take (i + 1)).sum } i

section
variable {w : List ℕ∞} {a : ℕ∞} {n n' i i' : ℕ}

lemma Selects.lt_length (h : Selects w n i) : i < w.length := h.1.1

lemma Selects.unique (h : Selects w n i) (h' : Selects w n i') : i = i' := IsLeast.unique h h'

lemma sum_take_mono (w : List ℕ∞) (hij : i ≤ i') : (w.take i).sum ≤ (w.take i').sum := by
  have htake : (w.take i').take i = w.take i := by rw [List.take_take, min_eq_left hij]
  calc (w.take i).sum ≤ (w.take i).sum + ((w.take i').drop i).sum := le_self_add
    _ = (w.take i').sum := by rw [← htake, ← List.sum_append, List.take_append_drop]

lemma Selects.mono (h : Selects w n i) (h' : Selects w n' i') (hn : n ≤ n') : i ≤ i' :=
  h.2 ⟨h'.1.1, (Nat.cast_le.mpr hn).trans_lt h'.1.2⟩

lemma not_selects_nil : ¬ Selects [] n i := fun h => absurd h.lt_length (Nat.not_lt_zero i)

lemma selects_cons_zero : Selects (a :: w) n 0 ↔ (n : ℕ∞) < a := by
  constructor
  · intro h
    have hlt := h.1.2
    rw [List.take_succ_cons, List.take_zero, List.sum_singleton] at hlt
    exact hlt
  · intro h
    refine ⟨⟨Nat.succ_pos _, ?_⟩, fun _ _ => Nat.zero_le _⟩
    rw [List.take_succ_cons, List.take_zero, List.sum_singleton]
    exact h

lemma selects_zero_of_lt (h : Selects (a :: w) n i) (hn : (n : ℕ∞) < a) : i = 0 :=
  h.unique (selects_cons_zero.mpr hn)

lemma lt_add_iff_sub_lt {k : ℕ} (hk : k ≤ n) (b : ℕ∞) :
    (n : ℕ∞) < k + b ↔ ((n - k : ℕ) : ℕ∞) < b := by
  cases b with
  | top => exact iff_of_true (ENat.natCast_lt_top n) (ENat.natCast_lt_top (n - k))
  | coe b =>
    rw [← Nat.cast_add, Nat.cast_lt, Nat.cast_lt]
    omega

/-- After a finite size the position is that of the rest. -/
lemma selects_cons_succ {k : ℕ} (hk : k ≤ n) :
    Selects ((k : ℕ∞) :: w) n (i + 1) ↔ Selects w (n - k) i := by
  have hmem : ∀ j, j + 1 ∈ { i | i < ((k : ℕ∞) :: w).length ∧
      (n : ℕ∞) < (((k : ℕ∞) :: w).take (i + 1)).sum } ↔
      j ∈ { i | i < w.length ∧ ((n - k : ℕ) : ℕ∞) < (w.take (i + 1)).sum } := by
    intro j
    rw [Set.mem_ofPred_eq, Set.mem_ofPred_eq, List.length_cons, Nat.add_lt_add_iff_right,
      List.take_succ_cons, List.sum_cons, lt_add_iff_sub_lt hk]
  constructor
  · rintro ⟨hi, hleast⟩
    exact ⟨(hmem i).mp hi, fun j hj => Nat.le_of_succ_le_succ (hleast ((hmem j).mpr hj))⟩
  · rintro ⟨hi, hleast⟩
    refine ⟨(hmem i).mpr hi, fun j hj => ?_⟩
    cases j with
    | zero =>
      have hlt := hj.2
      rw [List.take_succ_cons, List.take_zero, List.sum_singleton, Nat.cast_lt] at hlt
      exact absurd hk (Nat.not_le.mpr hlt)
    | succ j => exact Nat.succ_le_succ (hleast ((hmem j).mp hj))

/-- **A number has a position exactly when it is below the total.** -/
lemma exists_selects_iff : (∃ i, Selects w n i) ↔ (n : ℕ∞) < w.sum := by
  constructor
  · rintro ⟨i, h⟩
    refine h.1.2.trans_le ?_
    have hle := sum_take_mono w (Nat.succ_le_of_lt h.lt_length)
    rwa [List.take_length] at hle
  · intro h
    have hne : w ≠ [] := by
      rintro rfl
      exact absurd h not_lt_zero
    have hlen : 0 < w.length := List.length_pos_iff.mpr hne
    have hmem : w.length - 1 ∈ { i | i < w.length ∧ (n : ℕ∞) < (w.take (i + 1)).sum } := by
      refine ⟨Nat.sub_lt hlen Nat.zero_lt_one, ?_⟩
      rw [Nat.sub_add_cancel hlen, List.take_length]
      exact h
    exact ⟨_, Nat.sInf_mem ⟨_, hmem⟩, fun j hj => Nat.sInf_le hj⟩

lemma selects_iff : Selects w n i ↔
    i < w.length ∧ (w.take i).sum ≤ n ∧ (n : ℕ∞) < (w.take (i + 1)).sum := by
  constructor
  · rintro ⟨⟨hi, hlt⟩, hleast⟩
    refine ⟨hi, ?_, hlt⟩
    cases i with
    | zero => exact bot_le
    | succ j =>
      by_contra hn
      exact absurd (hleast ⟨Nat.lt_of_succ_lt hi, not_le.mp hn⟩) (Nat.not_succ_le_self j)
  · rintro ⟨hi, hge, hlt⟩
    refine ⟨⟨hi, hlt⟩, fun j hj => ?_⟩
    by_contra hji
    exact absurd (hj.2.trans_le (sum_take_mono w (Nat.succ_le_of_lt (not_le.mp hji))))
      (not_lt.mpr hge)

/-- **A bracket after finite sizes is an interval of its own size.** -/
lemma setOf_selects {s k : ℕ} (hi : i < w.length) (hs : (w.take i).sum = s) (hk : w[i] = k) :
    { n | Selects w n i } = Set.Ico s (s + k) := by
  ext n
  rw [Set.mem_ofPred_eq, selects_iff, List.take_succ_eq_append_getElem hi, List.sum_append,
    List.sum_singleton, hs, hk, ← Nat.cast_add, Nat.cast_le, Nat.cast_lt, and_iff_right hi]
  rfl

lemma ncard_selects {s k : ℕ} (hi : i < w.length) (hs : (w.take i).sum = s) (hk : w[i] = k) :
    { n | Selects w n i }.ncard = k := by
  rw [setOf_selects hi hs hk, ← Finset.coe_Ico, Set.ncard_coe_finset, Nat.card_Ico,
    Nat.add_sub_cancel_left]

lemma not_selects_after_top {j : ℕ} (hj : j < w.length) (htop : w[j] = ⊤) (hji : j < i) :
    ¬ Selects w n i := by
  intro h
  have hle := (selects_iff.mp h).2.1
  have hsum : (w.take (j + 1)).sum = ⊤ := by
    rw [List.take_succ_eq_append_getElem hj, List.sum_append, List.sum_singleton, htop, add_top]
  have htake := sum_take_mono w (Nat.succ_le_of_lt hji)
  rw [hsum] at htake
  exact absurd (htake.trans hle) (not_le.mpr (ENat.natCast_lt_top n))

end

end PhxQueue.Lib
