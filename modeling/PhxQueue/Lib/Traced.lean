import Mathlib.Tactic

/-!
# Traced computations

A computation that hands on with its result the accesses it makes, in their order, and the question
whether all of them are of a given kind: within the bounds of what is accessed, say.

* `Traced`, `touch`, `each`   a computation, one access, a loop that hands on a state;
* `Within`                    **every access is of the given kind**;
* `within_bind`               of two computations one after the other;
* `within_each_iff`           of a loop, round after round;
* `each_keeps`                what the rounds keep.
-/

set_option linter.unusedSectionVars false

namespace PhxQueue.Lib

universe u v w

/-- A result, and the accesses made on the way to it. -/
@[ext]
structure Traced (ι : Type u) (α : Type v) where
  accesses : List ι
  result : α

namespace Traced

variable {ι : Type u}

def touch (i : ι) : Traced ι Unit := ⟨[i], ()⟩

instance : Monad (Traced ι) where
  pure a := ⟨[], a⟩
  bind x f := ⟨x.accesses ++ (f x.result).accesses, (f x.result).result⟩

def Within {α : Type v} (ok : ι → Prop) (x : Traced ι α) : Prop := ∀ i ∈ x.accesses, ok i

instance {α : Type v} (ok : ι → Prop) [DecidablePred ok] (x : Traced ι α) :
    Decidable (x.Within ok) :=
  inferInstanceAs (Decidable (∀ i ∈ x.accesses, ok i))

section
variable {α β : Type v} {ok : ι → Prop}

@[simp] lemma result_pure (a : α) : (pure a : Traced ι α).result = a := rfl

@[simp] lemma result_bind (x : Traced ι α) (f : α → Traced ι β) :
    (x >>= f).result = (f x.result).result := rfl

@[simp] lemma within_pure (a : α) : (pure a : Traced ι α).Within ok := by
  intro i hi
  exact absurd hi List.not_mem_nil

@[simp] lemma within_touch (i : ι) : (touch i).Within ok ↔ ok i := by
  show (∀ j ∈ [i], ok j) ↔ ok i
  exact List.forall_mem_singleton

@[simp] lemma within_bind (x : Traced ι α) (f : α → Traced ι β) :
    (x >>= f).Within ok ↔ x.Within ok ∧ (f x.result).Within ok := by
  show (∀ i ∈ x.accesses ++ (f x.result).accesses, ok i) ↔ _
  rw [List.forall_mem_append]
  rfl

end

/-! ## Loops -/

section
variable {σ α : Type v} {ok : ι → Prop} {f : σ → α → Traced ι σ}

/-- The body for each element, with the state the one before it has left. -/
def each (f : σ → α → Traced ι σ) : List α → σ → Traced ι σ
  | [], s => pure s
  | x :: xs, s => f s x >>= each f xs

lemma result_each (xs : List α) (s : σ) :
    (each f xs s).result = xs.foldl (fun s x => (f s x).result) s := by
  induction xs generalizing s with
  | nil => rfl
  | cons x xs ih => exact ih (f s x).result

/-- What rounds within bounds keep holds at the end of a loop within bounds. -/
lemma each_keeps {I : σ → Prop} (hround : ∀ s x, (f s x).Within ok → I s → I (f s x).result)
    {xs : List α} {s : σ} (h : (each f xs s).Within ok) (hs : I s) : I (each f xs s).result := by
  induction xs generalizing s with
  | nil => exact hs
  | cons x xs ih =>
    obtain ⟨hx, hxs⟩ := (within_bind (f s x) (each f xs)).mp h
    exact ih hxs (hround s x hx hs)

/-- A loop is within bounds if each round is, after the elements before it. -/
lemma within_each_iff {I : List α → σ → Prop} {Q : List α → α → Prop}
    (hkeeps : ∀ pre s x, I pre s → I (pre ++ [x]) (f s x).result)
    (hround : ∀ pre s x, I pre s → ((f s x).Within ok ↔ Q pre x)) {xs : List α} {s : σ}
    (hs : I [] s) :
    (each f xs s).Within ok ↔ ∀ pre x post, xs = pre ++ x :: post → Q pre x := by
  have hgen : ∀ done s, I done s → ((each f xs s).Within ok ↔
      ∀ pre x post, xs = pre ++ x :: post → Q (done ++ pre) x) := by
    induction xs with
    | nil =>
      intro done s _
      show (pure s : Traced ι σ).Within ok ↔ _
      simp
    | cons y xs ih =>
      intro done s hI
      show (f s y >>= each f xs).Within ok ↔ _
      rw [within_bind, hround done s y hI, ih (done ++ [y]) _ (hkeeps done s y hI)]
      constructor
      · rintro ⟨hy, hxs⟩ pre x post heq
        cases pre with
        | nil =>
          cases heq
          rw [List.append_nil]
          exact hy
        | cons z pre =>
          cases heq
          rw [List.append_cons]
          exact hxs pre x post rfl
      · intro h
        refine ⟨?_, fun pre x post heq => ?_⟩
        · have hy := h [] y xs rfl
          rwa [List.append_nil] at hy
        · rw [List.append_assoc]
          exact h (y :: pre) x post (by rw [heq]; rfl)
  exact hgen [] s hs

lemma within_each_iff_forall {Q : α → Prop} (hround : ∀ s x, (f s x).Within ok ↔ Q x) {xs : List α}
    {s : σ} : (each f xs s).Within ok ↔ ∀ x ∈ xs, Q x := by
  rw [within_each_iff (I := fun _ _ => True) (Q := fun _ => Q) (fun _ _ _ _ => trivial)
    (fun _ s x _ => hround s x) trivial]
  constructor
  · intro h x hx
    obtain ⟨pre, post, heq⟩ := List.append_of_mem hx
    exact h pre x post heq
  · rintro h pre x post rfl
    exact h x (List.mem_append_right _ List.mem_cons_self)

end

end Traced

end PhxQueue.Lib
