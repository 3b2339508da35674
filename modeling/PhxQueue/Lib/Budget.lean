import PhxQueue.Lib.Run

/-!
# Budgets

What a run spends, when every step pays for what it spends out of a potential or out of what it is
granted.

* `total M f s ls`   the sum of `f` over the steps of a run;
* `total_le`         **a run spends no more than its potential and its grants**;
* `total_labels`     the sum of what depends on the labels only.
-/

set_option linter.unusedSectionVars false

namespace PhxQueue.Lib
namespace Machine

section
variable {σ ℓ K : Type*} (M : Machine σ ℓ)

/-- The sum of `f` over the steps of a run. -/
def total [Zero K] [Add K] (f : σ → ℓ → K) (s : σ) : List ℓ → K
  | [] => 0
  | l :: ls => f s l + total f (M.step s l) ls

@[simp] lemma total_nil [Zero K] [Add K] (f : σ → ℓ → K) (s : σ) : M.total f s [] = 0 := rfl

@[simp] lemma total_cons [Zero K] [Add K] (f : σ → ℓ → K) (s : σ) (l : ℓ) (ls : List ℓ) :
    M.total f s (l :: ls) = f s l + M.total f (M.step s l) ls := rfl

variable {M}

lemma total_labels [AddMonoid K] (f : ℓ → K) (s : σ) (ls : List ℓ) :
    M.total (fun _ l => f l) s ls = (ls.map f).sum := by
  induction ls generalizing s with
  | nil => rfl
  | cons l ls ih => rw [total_cons, ih, List.map_cons, List.sum_cons]

variable [AddCommGroup K] [PartialOrder K] [IsOrderedAddMonoid K]

/-- **Potential rule.**  Let every allowed step from a state of the invariant `I` keep `I`, and spend no
more than it takes from the potential and is granted.  Then a run spends no more than the potential at
its start, less the one at its end, and all grants. -/
theorem total_le {I : σ → Prop} {ok : σ → ℓ → Prop} {φ : σ → K} {cost grant : σ → ℓ → K}
    (hI : ∀ s l, I s → ok s l → I (M.step s l))
    (hstep : ∀ s l, I s → ok s l → φ (M.step s l) + cost s l ≤ φ s + grant s l)
    {s : σ} {ls : List ℓ} (hs : I s) (h : M.Along ok s ls) :
    φ (M.exec s ls) + M.total cost s ls ≤ φ s + M.total grant s ls := by
  induction ls generalizing s with
  | nil => simp
  | cons l ls ih =>
    have hrest := ih (hI s l hs h.1) h.2
    rw [exec_cons, total_cons, total_cons]
    calc φ (M.exec (M.step s l) ls) + (cost s l + M.total cost (M.step s l) ls)
        = (φ (M.exec (M.step s l) ls) + M.total cost (M.step s l) ls) + cost s l := by abel
      _ ≤ (φ (M.step s l) + M.total grant (M.step s l) ls) + cost s l :=
        add_le_add_left hrest (cost s l)
      _ = (φ (M.step s l) + cost s l) + M.total grant (M.step s l) ls := by abel
      _ ≤ (φ s + grant s l) + M.total grant (M.step s l) ls :=
        add_le_add_left (hstep s l hs h.1) (M.total grant (M.step s l) ls)
      _ = φ s + (grant s l + M.total grant (M.step s l) ls) := by abel

end

end Machine
end PhxQueue.Lib
