import Mathlib.Tactic

/-!
# Leases

One lease, its holder and the ends of the terms clients believe they have.  A term that is not
over is the holder's, and ends no later than the holder's bound; from this exclusion follows.

* `Covered`, `Guarded`   the invariant, of one term and of all;
* `Guarded.exclusive`    **two clients whose terms are not over are one**;
* `Guarded.tick`, `Guarded.grant`, `Guarded.vacate`, `Guarded.extend`   how it is kept: time
                         passes, the lease is granted to a client when nobody else's term is
                         left, it is taken away after the bound, a client believes in a term
                         that is covered.
-/

set_option linter.unusedSectionVars false

namespace PhxQueue.Lib

/-- The holder of the lease, and the latest end of a term it may believe in. -/
structure Holder (ι : Type*) where
  owner : ι
  bound : ℕ

namespace Lease

section
variable {ι : Type*}

/-- A term of client `j` that ends at `e` is over, or within the holder's bound. -/
def Covered (clock : ℕ) (holder : Option (Holder ι)) (j : ι) (e : ℕ) : Prop :=
  e ≤ clock ∨ ∃ x, holder = some x ∧ x.owner = j ∧ e ≤ x.bound

/-- `terms j e`: client `j` believes in a term that ends at `e`. -/
def Guarded (clock : ℕ) (holder : Option (Holder ι)) (terms : ι → ℕ → Prop) : Prop :=
  ∀ j e, terms j e → Covered clock holder j e

variable {clock : ℕ} {holder : Option (Holder ι)} {terms : ι → ℕ → Prop}

theorem Guarded.exclusive (h : Guarded clock holder terms) {i j : ι} {e e' : ℕ}
    (hi : terms i e) (hj : terms j e') (hie : clock < e) (hje : clock < e') : i = j := by
  rcases h i e hi with hle | ⟨x, hx, hxi, _⟩
  · omega
  rcases h j e' hj with hle | ⟨y, hy, hyj, _⟩
  · omega
  rw [hx] at hy
  cases hy
  exact hxi.symm.trans hyj

lemma covered_self (j : ι) (e : ℕ) : Covered clock (some ⟨j, e⟩) j e :=
  .inr ⟨_, rfl, rfl, le_rfl⟩

lemma Covered.tick {j : ι} {e : ℕ} (h : Covered clock holder j e) {clock' : ℕ}
    (hle : clock ≤ clock') : Covered clock' holder j e := by
  rcases h with hc | hx
  · exact .inl (hc.trans hle)
  · exact .inr hx

lemma Guarded.tick (h : Guarded clock holder terms) {clock' : ℕ} (hle : clock ≤ clock') :
    Guarded clock' holder terms := fun j e he => (h j e he).tick hle

lemma Guarded.extend (h : Guarded clock holder terms) {terms' : ι → ℕ → Prop}
    (hsub : ∀ j e, terms' j e → terms j e ∨ Covered clock holder j e) :
    Guarded clock holder terms' := by
  intro j e he
  rcases hsub j e he with he | hc
  · exact h j e he
  · exact hc

/-- The lease goes to `j`: whoever else held it has no term left, and `j`'s own earlier terms end
within the new bound. -/
lemma Guarded.grant (h : Guarded clock holder terms) {j : ι} {bound : ℕ}
    (hother : ∀ x, holder = some x → x.owner ≠ j → x.bound ≤ clock)
    (hself : ∀ x, holder = some x → x.owner = j → x.bound ≤ bound) :
    Guarded clock (some ⟨j, bound⟩) terms := by
  intro i e he
  rcases h i e he with hc | ⟨x, hx, hxi, hxe⟩
  · exact .inl hc
  · by_cases hj : x.owner = j
    · exact .inr ⟨_, rfl, hj.symm.trans hxi, hxe.trans (hself x hx hj)⟩
    · exact .inl (hxe.trans (hother x hx hj))

/-- The lease is taken away from a holder without a term. -/
lemma Guarded.vacate (h : Guarded clock holder terms)
    (hover : ∀ x, holder = some x → x.bound ≤ clock) : Guarded clock none terms := by
  intro j e he
  rcases h j e he with hc | ⟨x, hx, _, hxe⟩
  · exact .inl hc
  · exact .inl (hxe.trans (hover x hx))

end

end Lease

end PhxQueue.Lib
