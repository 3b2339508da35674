import Mathlib.Tactic

/-!
# Runs of labelled machines

A machine is an initial state and a total step function; a label that is not enabled leaves the
state as it is.  A run is a list of labels.

* `exec M s ls`          the state after the labels `ls`;
* `Always M P s ls`      `P` holds in every state the run passes through;
* `Along M ok s ls`      every step is taken from a state where `ok` allows its label;
* `Always.of_inv`        an invariant of the allowed steps holds along an allowed run;
* `always_iff_along`     for a property that breaks exactly at the steps `ok` refuses, the
                         two predicates agree.
-/

set_option linter.unusedSectionVars false

namespace PhxQueue.Lib

/-- A labelled machine with total steps. -/
structure Machine (σ ℓ : Type*) where
  init : σ
  step : σ → ℓ → σ

namespace Machine

section
variable {σ ℓ : Type*} (M : Machine σ ℓ)

def exec (s : σ) : List ℓ → σ
  | [] => s
  | l :: ls => exec (M.step s l) ls

/-- `P` holds in every state passed through. -/
def Always (P : σ → Prop) (s : σ) : List ℓ → Prop
  | [] => P s
  | l :: ls => P s ∧ Always P (M.step s l) ls

/-- Every step is allowed by `ok` in the state it is taken from. -/
def Along (ok : σ → ℓ → Prop) (s : σ) : List ℓ → Prop
  | [] => True
  | l :: ls => ok s l ∧ Along ok (M.step s l) ls

@[simp] lemma exec_nil (s : σ) : M.exec s [] = s := rfl

@[simp] lemma exec_cons (s : σ) (l : ℓ) (ls : List ℓ) :
    M.exec s (l :: ls) = M.exec (M.step s l) ls := rfl

@[simp] lemma always_nil (P : σ → Prop) (s : σ) : M.Always P s [] ↔ P s := Iff.rfl

@[simp] lemma always_cons (P : σ → Prop) (s : σ) (l : ℓ) (ls : List ℓ) :
    M.Always P s (l :: ls) ↔ P s ∧ M.Always P (M.step s l) ls := Iff.rfl

@[simp] lemma along_nil (ok : σ → ℓ → Prop) (s : σ) : M.Along ok s [] := trivial

@[simp] lemma along_cons (ok : σ → ℓ → Prop) (s : σ) (l : ℓ) (ls : List ℓ) :
    M.Along ok s (l :: ls) ↔ ok s l ∧ M.Along ok (M.step s l) ls := Iff.rfl

lemma exec_append (s : σ) (ls ls' : List ℓ) :
    M.exec s (ls ++ ls') = M.exec (M.exec s ls) ls' := by
  induction ls generalizing s with
  | nil => rfl
  | cons l ls ih => exact ih (M.step s l)

instance decidableAlways (P : σ → Prop) [DecidablePred P] :
    ∀ (s : σ) (ls : List ℓ), Decidable (M.Always P s ls)
  | s, [] => inferInstanceAs (Decidable (P s))
  | s, l :: ls =>
    haveI := decidableAlways P (M.step s l) ls
    inferInstanceAs (Decidable (P s ∧ M.Always P (M.step s l) ls))

instance decidableAlong (ok : σ → ℓ → Prop) [∀ s l, Decidable (ok s l)] :
    ∀ (s : σ) (ls : List ℓ), Decidable (M.Along ok s ls)
  | _, [] => inferInstanceAs (Decidable True)
  | s, l :: ls =>
    haveI := decidableAlong ok (M.step s l) ls
    inferInstanceAs (Decidable (ok s l ∧ M.Along ok (M.step s l) ls))

variable {M} {P I : σ → Prop} {ok : σ → ℓ → Prop}

lemma Always.head {s : σ} {ls : List ℓ} (h : M.Always P s ls) : P s := by
  cases ls with
  | nil => exact h
  | cons l ls => exact h.1

lemma Always.last {s : σ} {ls : List ℓ} (h : M.Always P s ls) : P (M.exec s ls) := by
  induction ls generalizing s with
  | nil => exact h
  | cons l ls ih => exact ih h.2

lemma Always.mono {Q : σ → Prop} (hPQ : ∀ s, P s → Q s) {s : σ} {ls : List ℓ}
    (h : M.Always P s ls) : M.Always Q s ls := by
  induction ls generalizing s with
  | nil => exact hPQ s h
  | cons l ls ih => exact ⟨hPQ s h.1, ih h.2⟩

lemma Along.mono {ok' : σ → ℓ → Prop} (hok : ∀ s l, ok s l → ok' s l) {s : σ} {ls : List ℓ}
    (h : M.Along ok s ls) : M.Along ok' s ls := by
  induction ls generalizing s with
  | nil => trivial
  | cons l ls ih => exact ⟨hok s l h.1, ih h.2⟩

lemma along_append (s : σ) (ls ls' : List ℓ) :
    M.Along ok s (ls ++ ls') ↔ M.Along ok s ls ∧ M.Along ok (M.exec s ls) ls' := by
  induction ls generalizing s with
  | nil => exact (true_and _).to_iff.symm
  | cons l ls ih =>
    rw [List.cons_append, along_cons, along_cons, exec_cons, ih, and_assoc]

/-- A condition on the labels of a run joins one on its steps. -/
lemma Along.and_labels {p : ℓ → Prop} {s : σ} {ls : List ℓ} (h : M.Along ok s ls)
    (hp : ∀ l ∈ ls, p l) : M.Along (fun s l => p l ∧ ok s l) s ls := by
  induction ls generalizing s with
  | nil => trivial
  | cons l ls ih =>
    exact ⟨⟨hp l List.mem_cons_self, h.1⟩, ih h.2 fun l' hl' => hp l' (List.mem_cons_of_mem _ hl')⟩

lemma Along.and {ok' : σ → ℓ → Prop} {s : σ} {ls : List ℓ} (h : M.Along ok s ls)
    (h' : M.Along ok' s ls) : M.Along (fun s l => ok s l ∧ ok' s l) s ls := by
  induction ls generalizing s with
  | nil => trivial
  | cons l ls ih => exact ⟨⟨h.1, h'.1⟩, ih h.2 h'.2⟩

lemma Always.along (hPok : ∀ s l, P s → ok s l) {s : σ} {ls : List ℓ} (h : M.Always P s ls) :
    M.Along ok s ls := by
  induction ls generalizing s with
  | nil => trivial
  | cons l ls ih => exact ⟨hPok s l h.1, ih h.2⟩

lemma Along.of_always {ok' : σ → ℓ → Prop} (hok : ∀ s l, P s → ok s l → ok' s l) {s : σ}
    {ls : List ℓ} (h : M.Along ok s ls) (hP : M.Always P s ls) : M.Along ok' s ls := by
  induction ls generalizing s with
  | nil => trivial
  | cons l ls ih => exact ⟨hok s l hP.1 h.1, ih h.2 hP.2⟩

/-- The step a run takes from its `n`-th state is allowed. -/
lemma Along.at {s : σ} {ls : List ℓ} (h : M.Along ok s ls) {n : ℕ} {l : ℓ}
    (hl : ls[n]? = some l) : ok (M.exec s (ls.take n)) l := by
  induction ls generalizing s n with
  | nil => cases hl
  | cons l' ls ih =>
    cases n with
    | zero =>
      cases hl
      exact h.1
    | succ n => exact ih h.2 hl

lemma along_of_forall (h : ∀ s l, ok s l) (s : σ) (ls : List ℓ) : M.Along ok s ls := by
  induction ls generalizing s with
  | nil => trivial
  | cons l ls ih => exact ⟨h s l, ih (M.step s l)⟩

/-- **Invariant rule.**  What the allowed steps preserve holds along every allowed run. -/
theorem Always.of_inv (hstep : ∀ s l, I s → ok s l → I (M.step s l))
    {s : σ} {ls : List ℓ} (hs : I s) (h : M.Along ok s ls) : M.Always I s ls := by
  induction ls generalizing s with
  | nil => exact hs
  | cons l ls ih => exact ⟨hs, ih (hstep s l hs h.1) h.2⟩

/-- The invariant rule for steps that need no condition. -/
theorem Always.of_step (hstep : ∀ s l, I s → I (M.step s l)) {s : σ} (hs : I s)
    (ls : List ℓ) : M.Always I s ls := by
  induction ls generalizing s with
  | nil => exact hs
  | cons l ls ih => exact ⟨hs, ih (hstep s l hs)⟩

/-- **Exact condition rule**, for runs of the labels that `p` admits.  Let `I` be an invariant of the
steps `ok` allows that gives `P`, and let `P` fail after every step `ok` refuses.  Then `P` holds
throughout a run if and only if `ok` allows all its steps. -/
theorem always_iff_along_of_labels {p : ℓ → Prop} (hP : ∀ s, I s → P s)
    (hstep : ∀ s l, I s → p l → ok s l → I (M.step s l))
    (hbad : ∀ s l, I s → p l → ¬ ok s l → ¬ P (M.step s l)) {s : σ} (hs : I s) (ls : List ℓ)
    (hp : ∀ l ∈ ls, p l) : M.Always P s ls ↔ M.Along ok s ls := by
  induction ls generalizing s with
  | nil => exact ⟨fun _ => trivial, fun _ => hP s hs⟩
  | cons l ls ih =>
    have hl := hp l List.mem_cons_self
    have hls : ∀ l' ∈ ls, p l' := fun l' hl' => hp l' (List.mem_cons_of_mem _ hl')
    constructor
    · intro h
      have hok : ok s l := by
        by_contra hn
        exact hbad s l hs hl hn h.2.head
      exact ⟨hok, (ih (hstep s l hs hl hok) hls).mp h.2⟩
    · intro h
      exact ⟨hP s hs, (ih (hstep s l hs hl h.1) hls).mpr h.2⟩

/-- The exact condition rule for all runs. -/
theorem always_iff_along (hP : ∀ s, I s → P s) (hstep : ∀ s l, I s → ok s l → I (M.step s l))
    (hbad : ∀ s l, I s → ¬ ok s l → ¬ P (M.step s l)) {s : σ} (hs : I s) (ls : List ℓ) :
    M.Always P s ls ↔ M.Along ok s ls :=
  always_iff_along_of_labels hP (fun s l h (_ : True) => hstep s l h)
    (fun s l h (_ : True) => hbad s l h) hs ls fun _ _ => trivial

/-- Two conditions that agree where an invariant holds allow the same runs. -/
theorem along_congr_of_inv {ok' : σ → ℓ → Prop} (hstep : ∀ s l, I s → I (M.step s l))
    (hiff : ∀ s l, I s → (ok s l ↔ ok' s l)) {s : σ} (hs : I s) (ls : List ℓ) :
    M.Along ok s ls ↔ M.Along ok' s ls := by
  induction ls generalizing s with
  | nil => rfl
  | cons l ls ih => exact and_congr (hiff s l hs) (ih (hstep s l hs))

end

end Machine

end PhxQueue.Lib
