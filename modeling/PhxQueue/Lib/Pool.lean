import Mathlib.Tactic

/-!
# Pools of resources

Resources are numbered as they are made.  An owner takes a free one, or a new one when none is free,
and puts it back; the free ones stand in a queue.

* `Pool.get`, `Pool.put`   the two operations;
* `Pool.Owned`             no two owners share a resource, and none that is owned is free;
* `Owned.get`, `Owned.put` the operations keep it.
-/

set_option linter.unusedSectionVars false

namespace PhxQueue.Lib

/-- The free resources, and how many have been made. -/
structure Pool where
  free : List ℕ := []
  made : ℕ := 0

namespace Pool

def get (p : Pool) : ℕ × Pool :=
  match p.free with
  | [] => (p.made, { p with made := p.made + 1 })
  | k :: free => (k, { p with free := free })

def put (p : Pool) (k : ℕ) : Pool := { p with free := p.free ++ [k] }

section
variable {ι : Type} [DecidableEq ι]

/-- The owners and the pool agree on who has what. -/
structure Owned (p : Pool) (own : ι → Option ℕ) : Prop where
  inj : ∀ c c' k, own c = some k → own c' = some k → c = c'
  notFree : ∀ c k, own c = some k → k ∉ p.free
  nodup : p.free.Nodup
  lt : ∀ c k, own c = some k → k < p.made
  freeLt : ∀ k ∈ p.free, k < p.made

variable {p : Pool} {own : ι → Option ℕ}

lemma owned_empty : Owned {} (fun _ : ι => none) where
  inj := fun _ _ _ h => (nomatch h)
  notFree := fun _ _ h => (nomatch h)
  nodup := List.nodup_nil
  lt := fun _ _ h => (nomatch h)
  freeLt := fun _ h => absurd h List.not_mem_nil

lemma Owned.get_ne (h : p.Owned own) (c : ι) : own c ≠ some p.get.1 := by
  intro hc
  unfold get at hc
  split at hc
  · exact Nat.lt_irrefl _ (h.lt c _ hc)
  · rename_i k free hfree
    apply h.notFree c k hc
    rw [hfree]
    exact List.mem_cons_self

lemma Owned.get_lt (h : p.Owned own) : p.get.1 < p.get.2.made := by
  unfold get
  split
  · exact Nat.lt_succ_self _
  · rename_i k free hfree
    apply h.freeLt
    rw [hfree]
    exact List.mem_cons_self

lemma made_le_get : p.made ≤ p.get.2.made := by
  unfold get
  split
  · exact Nat.le_succ _
  · exact le_rfl

lemma Owned.get_free (h : p.Owned own) : p.get.1 ∉ p.get.2.free ∧ p.get.2.free ⊆ p.free ∧
    p.get.2.free.Nodup := by
  have hnodup := h.nodup
  unfold get
  split
  · rename_i hfree
    dsimp only
    rw [hfree]
    exact ⟨List.not_mem_nil, List.Subset.refl _, List.nodup_nil⟩
  · rename_i k free hfree
    rw [hfree] at hnodup ⊢
    exact ⟨(List.nodup_cons.mp hnodup).1, List.subset_cons_self _ _, (List.nodup_cons.mp hnodup).2⟩

theorem Owned.get (h : p.Owned own) (c : ι) :
    p.get.2.Owned (Function.update own c (some p.get.1)) := by
  obtain ⟨hnot, hsub, hnodup⟩ := h.get_free
  have hcase : ∀ c' k, Function.update own c (some p.get.1) c' = some k →
      c' = c ∧ k = p.get.1 ∨ c' ≠ c ∧ own c' = some k := by
    intro c' k hk
    by_cases heq : c' = c
    · subst heq
      rw [Function.update_self] at hk
      exact .inl ⟨rfl, (Option.some.inj hk).symm⟩
    · rw [Function.update_of_ne heq] at hk
      exact .inr ⟨heq, hk⟩
  refine ⟨fun c₁ c₂ k h₁ h₂ => ?_, fun c' k hk => ?_, hnodup, fun c' k hk => ?_,
    fun k hk => (h.freeLt k (hsub hk)).trans_le made_le_get⟩
  · rcases hcase c₁ k h₁ with ⟨hc₁, hk₁⟩ | ⟨_, hown₁⟩
    · rcases hcase c₂ k h₂ with ⟨hc₂, _⟩ | ⟨_, hown₂⟩
      · rw [hc₁, hc₂]
      · rw [hk₁] at hown₂
        exact absurd hown₂ (h.get_ne c₂)
    · rcases hcase c₂ k h₂ with ⟨_, hk₂⟩ | ⟨_, hown₂⟩
      · rw [hk₂] at hown₁
        exact absurd hown₁ (h.get_ne c₁)
      · exact h.inj c₁ c₂ k hown₁ hown₂
  · rcases hcase c' k hk with ⟨_, rfl⟩ | ⟨_, hk⟩
    · exact hnot
    · exact fun hmem => h.notFree c' k hk (hsub hmem)
  · rcases hcase c' k hk with ⟨_, rfl⟩ | ⟨_, hk⟩
    · exact h.get_lt
    · exact (h.lt c' k hk).trans_le made_le_get

theorem Owned.put (h : p.Owned own) {c : ι} {k : ℕ} (hk : own c = some k) :
    (p.put k).Owned (Function.update own c none) := by
  have hcase : ∀ c' k', Function.update own c none c' = some k' → c' ≠ c ∧ own c' = some k' := by
    intro c' k' hk'
    by_cases heq : c' = c
    · subst heq
      rw [Function.update_self] at hk'
      cases hk'
    · rw [Function.update_of_ne heq] at hk'
      exact ⟨heq, hk'⟩
  refine ⟨fun c₁ c₂ k' h₁ h₂ => h.inj c₁ c₂ k' (hcase c₁ k' h₁).2 (hcase c₂ k' h₂).2,
    fun c' k' hk' hmem => ?_, ?_, fun c' k' hk' => h.lt c' k' (hcase c' k' hk').2, fun k' hk' => ?_⟩
  · obtain ⟨hne, hown⟩ := hcase c' k' hk'
    rcases List.mem_append.mp hmem with hmem | hmem
    · exact h.notFree c' k' hown hmem
    · rw [List.mem_singleton.mp hmem] at hown
      exact hne (h.inj c' c k hown hk)
  · refine List.nodup_append.mpr ⟨h.nodup, List.nodup_singleton k, fun a ha b hb => ?_⟩
    rw [List.mem_singleton.mp hb]
    rintro rfl
    exact h.notFree c a hk ha
  · rcases List.mem_append.mp hk' with hk' | hk'
    · exact h.freeLt k' hk'
    · rw [List.mem_singleton.mp hk']
      exact h.lt c k hk

end

end Pool

end PhxQueue.Lib
