import Mathlib.Order.Basic
import Mathlib.Data.Set.Basic
import Mathlib.Tactic

/-!
# Going around a changing set in order

A walk visits the members of a set in their order and begins again at the least one when it is past
the greatest.  The set may change between two visits.

* `IsNext S p k`          `k` is the member of `S` to be visited after `p`;
* `Walk p ts`             every visit of `ts`, each with the set it finds, is the next one;
* `wraps p ts`            how often the walk begins again;
* `Walk.wraps_le_one`     **a member that stays is missed only until the walk begins again twice**.
-/

set_option linter.unusedSectionVars false

namespace PhxQueue.Lib

section
variable {κ : Type*} [LinearOrder κ]

/-- The least member above `p`, or the least one where none is above. -/
def IsNext (S : Set κ) (p k : κ) : Prop :=
  k ∈ S ∧ ((p < k ∧ ∀ x ∈ S, p < x → k ≤ x) ∨ ((∀ x ∈ S, x ≤ p) ∧ ∀ x ∈ S, k ≤ x))

/-- From `p`, every visit goes to the next member of the set it finds. -/
def Walk (p : κ) : List (Set κ × κ) → Prop
  | [] => True
  | t :: ts => IsNext t.1 p t.2 ∧ Walk t.2 ts

def lastVisit (p : κ) : List (Set κ × κ) → κ
  | [] => p
  | t :: ts => lastVisit t.2 ts

def wraps (p : κ) : List (Set κ × κ) → ℕ
  | [] => 0
  | t :: ts => (if t.2 ≤ p then 1 else 0) + wraps t.2 ts

variable {S : Set κ} {p k x : κ} {ts ts' : List (Set κ × κ)}

lemma IsNext.unique {k' : κ} (h : IsNext S p k) (h' : IsNext S p k') : k = k' := by
  obtain ⟨hk, ⟨hpk, hmin⟩ | ⟨hnone, hmin⟩⟩ := h
  · obtain ⟨hk', ⟨hpk', hmin'⟩ | ⟨hnone', -⟩⟩ := h'
    · exact le_antisymm (hmin k' hk' hpk') (hmin' k hk hpk)
    · exact absurd hpk (not_lt.mpr (hnone' k hk))
  · obtain ⟨hk', ⟨hpk', -⟩ | ⟨-, hmin'⟩⟩ := h'
    · exact absurd hpk' (not_lt.mpr (hnone k' hk'))
    · exact le_antisymm (hmin k' hk') (hmin' k hk)

lemma IsNext.le_of_lt (h : IsNext S p k) (hx : x ∈ S) (hp : p < x) : p < k ∧ k ≤ x := by
  obtain ⟨-, ⟨hpk, hmin⟩ | ⟨hnone, -⟩⟩ := h
  · exact ⟨hpk, hmin x hx hp⟩
  · exact absurd hp (not_lt.mpr (hnone x hx))

/-- A visit that does not go up goes to the least member. -/
lemma IsNext.le_of_wrap (h : IsNext S p k) (hx : x ∈ S) (hk : k ≤ p) : k ≤ x := by
  obtain ⟨-, ⟨hpk, -⟩ | ⟨-, hmin⟩⟩ := h
  · exact absurd hpk (not_lt.mpr hk)
  · exact hmin x hx

lemma walk_append : Walk p (ts ++ ts') ↔ Walk p ts ∧ Walk (lastVisit p ts) ts' := by
  induction ts generalizing p with
  | nil => exact (true_and _).to_iff.symm
  | cons t ts ih =>
    show IsNext t.1 p t.2 ∧ Walk t.2 (ts ++ ts') ↔ _
    rw [ih, ← and_assoc]
    rfl

/-- Below a member that stays and is not visited, the walk goes up. -/
lemma Walk.wraps_eq_zero (h : Walk p ts) (hstays : ∀ t ∈ ts, x ∈ t.1)
    (hmissed : ∀ t ∈ ts, t.2 ≠ x) (hp : p < x) : wraps p ts = 0 := by
  induction ts generalizing p with
  | nil => rfl
  | cons t ts ih =>
    have hle := h.1.le_of_lt (hstays t List.mem_cons_self) hp
    have hlt : t.2 < x := lt_of_le_of_ne hle.2 (hmissed t List.mem_cons_self)
    have hrest := ih h.2 (fun t' ht' => hstays t' (List.mem_cons_of_mem t ht'))
      (fun t' ht' => hmissed t' (List.mem_cons_of_mem t ht')) hlt
    show (if t.2 ≤ p then 1 else 0) + wraps t.2 ts = 0
    rw [hrest, if_neg (not_le.mpr hle.1)]

/-- **A member that stays in the set and is not visited lets the walk begin again only once.** -/
theorem Walk.wraps_le_one (h : Walk p ts) (hstays : ∀ t ∈ ts, x ∈ t.1)
    (hmissed : ∀ t ∈ ts, t.2 ≠ x) : wraps p ts ≤ 1 := by
  induction ts generalizing p with
  | nil => exact Nat.zero_le 1
  | cons t ts ih =>
    have hstays' : ∀ t' ∈ ts, x ∈ t'.1 := fun t' ht' => hstays t' (List.mem_cons_of_mem t ht')
    have hmissed' : ∀ t' ∈ ts, t'.2 ≠ x := fun t' ht' => hmissed t' (List.mem_cons_of_mem t ht')
    show (if t.2 ≤ p then 1 else 0) + wraps t.2 ts ≤ 1
    by_cases hwrap : t.2 ≤ p
    · -- it begins again, below the member
      have hlt : t.2 < x := lt_of_le_of_ne (h.1.le_of_wrap (hstays t List.mem_cons_self) hwrap)
        (hmissed t List.mem_cons_self)
      rw [if_pos hwrap, h.2.wraps_eq_zero hstays' hmissed' hlt]
    · rw [if_neg hwrap, Nat.zero_add]
      exact ih h.2 hstays' hmissed'

/-- **A member that stays is visited before the walk begins again twice.** -/
theorem Walk.visited (h : Walk p ts) (hstays : ∀ t ∈ ts, x ∈ t.1) (hwraps : 2 ≤ wraps p ts) :
    ∃ t ∈ ts, t.2 = x := by
  by_contra hno
  have hmissed : ∀ t ∈ ts, t.2 ≠ x := fun t ht heq => hno ⟨t, ht, heq⟩
  have hle := h.wraps_le_one hstays hmissed
  omega

end

end PhxQueue.Lib
