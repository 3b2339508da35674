import PhxQueue.Lib.Run

/-!
# Machines that settle

Some labels come from outside, the others are the machine's own work.  A machine settles when its
own steps cannot go on forever: every run of them that changes the state at each step is bounded,
and where none changes it any more the work is done.

* `Settles`              the property of a state;
* `settles_of_measure`   **measure rule**: each own step that changes the state makes less work.
-/

set_option linter.unusedSectionVars false

namespace PhxQueue.Lib.Machine

section
variable {σ ℓ : Type*} (M : Machine σ ℓ) (own : ℓ → Prop)

/-- None of the machine's own steps changes the state. -/
def Quiet (s : σ) : Prop := ∀ l, own l → M.step s l = s

/-- The machine's own steps come to an end, where `P` holds. -/
structure Settles (P : σ → Prop) (s : σ) : Prop where
  bounded : ∃ bound, ∀ ls, (∀ l ∈ ls, own l) → M.Along (fun s l => M.step s l ≠ s) s ls →
    ls.length ≤ bound
  quiet : ∀ ls, (∀ l ∈ ls, own l) → M.Quiet own (M.exec s ls) → P (M.exec s ls)

variable {M own} {P I : σ → Prop}

lemma length_le_measure (work : σ → ℕ) (hstep : ∀ s l, I s → own l → I (M.step s l))
    (hless : ∀ s l, I s → own l → M.step s l ≠ s → work (M.step s l) < work s) {s : σ} (hs : I s)
    (ls : List ℓ) (hown : ∀ l ∈ ls, own l) (h : M.Along (fun s l => M.step s l ≠ s) s ls) :
    ls.length ≤ work s := by
  induction ls generalizing s with
  | nil => exact Nat.zero_le _
  | cons l ls ih =>
    have hl := hown l List.mem_cons_self
    have hlen := ih (hstep s l hs hl) (fun l' hl' => hown l' (List.mem_cons_of_mem _ hl')) h.2
    exact Nat.succ_le_of_lt (hlen.trans_lt (hless s l hs hl h.1))

/-- **Measure rule.** -/
theorem settles_of_measure (work : σ → ℕ) (hstep : ∀ s l, I s → own l → I (M.step s l))
    (hless : ∀ s l, I s → own l → M.step s l ≠ s → work (M.step s l) < work s)
    (hquiet : ∀ s, I s → M.Quiet own s → P s) {s : σ} (hs : I s) : M.Settles own P s := by
  refine ⟨⟨work s, fun ls hown h => length_le_measure work hstep hless hs ls hown h⟩,
    fun ls hown hq => hquiet _ ?_ hq⟩
  clear hq
  induction ls generalizing s with
  | nil => exact hs
  | cons l ls ih =>
    exact ih (hstep s l hs (hown l List.mem_cons_self))
      (fun l' hl' => hown l' (List.mem_cons_of_mem _ hl'))

end

end PhxQueue.Lib.Machine
