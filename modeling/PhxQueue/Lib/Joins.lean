import Mathlib.Tactic

/-!
# Folds that join

A state is folded over a list of reports.  What one looks at in it is left alone by some reports and
joined with what they say by the others, as a register that only ever grows is by the messages of its
writers.

* `Joins`               a step does one or the other;
* `Joins.isGreatest`    **after any list the register holds the greatest of what it held and what has
                        been reported**;
* `Joins.le_foldl`, `Joins.eq_of_same`   it never shrinks, and neither order nor repeats matter.
-/

set_option linter.unusedSectionVars false

namespace PhxQueue.Lib

section
variable {σ ρ α : Type*} [LinearOrder α]

/-- `step` joins to the register `val` what the reports that `concerns` picks say. -/
structure Joins (step : σ → ρ → σ) (val : σ → α) (concerns : ρ → Prop) (value : ρ → α) : Prop where
  joins : ∀ s r, concerns r → val (step s r) = max (val s) (value r)
  frame : ∀ s r, ¬ concerns r → val (step s r) = val s

/-- What the register held, and what some reports say of it. -/
def candidates (start : α) (concerns : ρ → Prop) (value : ρ → α) (l : List ρ) : Set α :=
  insert start {a | ∃ r ∈ l, concerns r ∧ a = value r}

variable {step : σ → ρ → σ} {val : σ → α} {concerns : ρ → Prop} {value : ρ → α}

lemma candidates_subset {start : α} {l l' : List ρ} (h : l ⊆ l') :
    candidates start concerns value l ⊆ candidates start concerns value l' := by
  apply Set.insert_subset_insert
  rintro a ⟨r, hr, ha⟩
  exact ⟨r, h hr, ha⟩

namespace Joins

/-- **The register holds the greatest.** -/
theorem isGreatest (h : Joins step val concerns value) (s : σ) (l : List ρ) :
    IsGreatest (candidates (val s) concerns value l) (val (l.foldl step s)) := by
  induction l generalizing s with
  | nil =>
    refine ⟨Set.mem_insert _ _, ?_⟩
    rintro a (rfl | ⟨r, hr, _⟩)
    · exact le_rfl
    · exact absurd hr List.not_mem_nil
  | cons r l ih =>
    obtain ⟨hmem, hupper⟩ := ih (step s r)
    rw [List.foldl_cons]
    by_cases hr : concerns r
    · rw [h.joins s r hr] at hmem hupper
      have hstart := hupper (Set.mem_insert _ _)
      constructor
      · rcases hmem with heq | ⟨r', hr', ha⟩
        · rw [heq]
          rcases max_choice (val s) (value r) with hmax | hmax
          · rw [hmax]
            exact Set.mem_insert _ _
          · rw [hmax]
            exact Set.mem_insert_of_mem _ ⟨r, List.mem_cons_self, hr, rfl⟩
        · exact Set.mem_insert_of_mem _ ⟨r', List.mem_cons_of_mem r hr', ha⟩
      · rintro a (rfl | ⟨r', hr', hc, rfl⟩)
        · exact (le_max_left _ _).trans hstart
        · rcases List.mem_cons.mp hr' with rfl | hr'
          · exact (le_max_right _ _).trans hstart
          · exact hupper (Set.mem_insert_of_mem _ ⟨r', hr', hc, rfl⟩)
    · rw [h.frame s r hr] at hmem hupper
      refine ⟨candidates_subset (List.subset_cons_self r l) hmem, ?_⟩
      rintro a (rfl | ⟨r', hr', hc, rfl⟩)
      · exact hupper (Set.mem_insert _ _)
      · rcases List.mem_cons.mp hr' with rfl | hr'
        · exact absurd hc hr
        · exact hupper (Set.mem_insert_of_mem _ ⟨r', hr', hc, rfl⟩)

lemma le_foldl (h : Joins step val concerns value) (s : σ) (l : List ρ) :
    val s ≤ val (l.foldl step s) := (h.isGreatest s l).2 (Set.mem_insert _ _)

theorem eq_of_same (h : Joins step val concerns value) (s : σ) {l l' : List ρ} (hsub : l ⊆ l')
    (hsub' : l' ⊆ l) : val (l.foldl step s) = val (l'.foldl step s) := by
  apply le_antisymm
  · exact (h.isGreatest s l').2 (candidates_subset hsub (h.isGreatest s l).1)
  · exact (h.isGreatest s l).2 (candidates_subset hsub' (h.isGreatest s l').1)

end Joins

end

end PhxQueue.Lib
