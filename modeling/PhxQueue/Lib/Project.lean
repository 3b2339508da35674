import PhxQueue.Lib.Run

/-!
# Parts of a machine

A part of the state of a machine that moves like a machine of its own: every step of the whole is a
step of the part, or leaves it as it is.

* `Projects M N view proj`   the steps of `M`, seen through `view`, are the steps of `N` that `proj`
                             makes of the labels;
* `trace`                    the labels of the part along a run of the whole;
* `Projects.exec`            **a run of the whole is a run of the part**;
* `forall_trace`             what holds of the labels of allowed steps holds of those of the part.
-/

set_option linter.unusedSectionVars false

namespace PhxQueue.Lib
namespace Machine

section
variable {σ τ ℓ ℓ' : Type*}

/-- One step of the part: `none` leaves it as it is. -/
def stepOption (N : Machine τ ℓ') (t : τ) : Option ℓ' → τ
  | none => t
  | some l => N.step t l

@[simp] lemma stepOption_none (N : Machine τ ℓ') (t : τ) : N.stepOption t none = t := rfl

@[simp] lemma stepOption_some (N : Machine τ ℓ') (t : τ) (l : ℓ') :
    N.stepOption t (some l) = N.step t l := rfl

/-- The steps of `M`, seen through `view`. -/
def Projects (M : Machine σ ℓ) (N : Machine τ ℓ') (view : σ → τ) (proj : σ → ℓ → Option ℓ') : Prop :=
  ∀ s l, view (M.step s l) = N.stepOption (view s) (proj s l)

def trace (M : Machine σ ℓ) (proj : σ → ℓ → Option ℓ') (s : σ) : List ℓ → List ℓ'
  | [] => []
  | l :: ls => (proj s l).toList ++ trace M proj (M.step s l) ls

variable {M : Machine σ ℓ} {N : Machine τ ℓ'} {view : σ → τ} {proj : σ → ℓ → Option ℓ'}

@[simp] lemma trace_nil (s : σ) : M.trace proj s [] = [] := rfl

lemma trace_cons (s : σ) (l : ℓ) (ls : List ℓ) :
    M.trace proj s (l :: ls) = (proj s l).toList ++ M.trace proj (M.step s l) ls := rfl

/-- **A run of the whole is a run of the part.** -/
theorem Projects.exec (h : Projects M N view proj) (s : σ) (ls : List ℓ) :
    view (M.exec s ls) = N.exec (view s) (M.trace proj s ls) := by
  induction ls generalizing s with
  | nil => rfl
  | cons l ls ih =>
    rw [exec_cons, ih, trace_cons, h s l]
    cases proj s l <;> rfl

/-- What an allowed step of the whole makes of its label is allowed in the part, in every run. -/
lemma forall_trace {ok : σ → ℓ → Prop} {p : ℓ' → Prop}
    (hok : ∀ s l l', ok s l → proj s l = some l' → p l') {s : σ} {ls : List ℓ}
    (h : M.Along ok s ls) : ∀ l' ∈ M.trace proj s ls, p l' := by
  induction ls generalizing s with
  | nil =>
    intro l' hl'
    cases hl'
  | cons l ls ih =>
    intro l' hl'
    rw [trace_cons, List.mem_append] at hl'
    rcases hl' with hl' | hl'
    · exact hok s l l' h.1 (Option.mem_toList.mp hl')
    · exact ih h.2 l' hl'

end

end Machine
end PhxQueue.Lib
