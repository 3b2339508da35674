import Mathlib.Tactic

/-!
# Versioned compare-and-set stores

A store maps a key to a value and the number of the instance that wrote it.  An operation names
the version it expects; it takes effect on a missing key, on a record of that version, and, when
it expects none, on any record.  The instances of a log are applied in order.

* `Op.Takes`, `Op.cell`     when an operation takes effect, and what it leaves;
* `cellRun`                 a log applied to one cell: keys do not interact;
* `cellRun_below`           a version in a cell is the number of an instance applied to it;
* `replay_iff`              a log re-executed over its own effects, from some instance on, ends
                            where a single execution ends exactly when nothing of it takes
                            effect a second time, or an instance takes effect in both;
* `History`                 the versions of one cell over time, each new one above all before;
* `History.mono`, `History.removed_between`   no version returns, and a cell that no longer
                            holds a record was removed in between.
-/

set_option linter.unusedSectionVars false

namespace PhxQueue.Lib.Cas

abbrev Cell (α : Type*) := Option (ℕ × α)

/-- One conditional operation; `guard = none` is unconditional, `put = none` deletes. -/
structure Op (κ α : Type*) where
  key : κ
  guard : Option ℕ
  put : Option α
deriving DecidableEq, Repr

section
variable {κ α : Type*}

/-- The operation takes effect on the cell: there is no record, or its version is expected. -/
def Op.Takes (op : Op κ α) : Cell α → Prop
  | none => True
  | some (v, _) => op.guard = none ∨ op.guard = some v

instance (op : Op κ α) : DecidablePred op.Takes := fun c => match c with
  | none => inferInstanceAs (Decidable True)
  | some (v, _) => inferInstanceAs (Decidable (op.guard = none ∨ op.guard = some v))

/-- What instance `i` leaves in the cell when it takes effect. -/
def Op.result (op : Op κ α) (i : ℕ) : Cell α := op.put.map (i, ·)

/-- Instance `i` applied to its cell. -/
def Op.cell (op : Op κ α) (i : ℕ) (c : Cell α) : Cell α :=
  if op.Takes c then op.result i else c

lemma Op.cell_of_takes {op : Op κ α} {c : Cell α} (h : op.Takes c) (i : ℕ) :
    op.cell i c = op.result i := if_pos h

lemma Op.cell_of_not_takes {op : Op κ α} {c : Cell α} (h : ¬ op.Takes c) (i : ℕ) :
    op.cell i c = c := if_neg h

@[simp] lemma Op.takes_none (op : Op κ α) : op.Takes none := trivial

lemma Op.exists_of_not_takes {op : Op κ α} {c : Cell α} (h : ¬ op.Takes c) :
    ∃ v a, c = some (v, a) := by
  cases c with
  | none => exact absurd trivial h
  | some r => exact ⟨r.1, r.2, rfl⟩

lemma Op.result_version {op : Op κ α} {i v : ℕ} {a : α} (h : op.result i = some (v, a)) :
    v = i := by
  unfold Op.result at h
  cases hp : op.put with
  | none => simp [hp] at h
  | some b =>
    simp only [hp, Option.map_some, Option.some.injEq, Prod.mk.injEq] at h
    exact h.1.symm

variable [DecidableEq κ]

/-- The part of a log that concerns the cell of `k`. -/
def cellRun (k : κ) (c : Cell α) : List (ℕ × Op κ α) → Cell α
  | [] => c
  | (i, op) :: l => cellRun k (if op.key = k then op.cell i c else c) l

lemma cellRun_append (k : κ) (c : Cell α) (l l' : List (ℕ × Op κ α)) :
    cellRun k c (l ++ l') = cellRun k (cellRun k c l) l' := by
  induction l generalizing c with
  | nil => rfl
  | cons e l ih => exact ih _

/-- A log that never takes effect on a cell leaves it. -/
lemma cellRun_of_not_takes {k : κ} {c : Cell α} {l : List (ℕ × Op κ α)}
    (h : ∀ e ∈ l, e.2.key = k → ¬ e.2.Takes c) : cellRun k c l = c := by
  induction l with
  | nil => rfl
  | cons e l ih =>
    obtain ⟨i, op⟩ := e
    have hl := ih fun e he => h e (List.mem_cons_of_mem _ he)
    show cellRun k (if op.key = k then op.cell i c else c) l = c
    split
    · rename_i hk
      rw [Op.cell_of_not_takes (h (i, op) List.mem_cons_self hk), hl]
    · exact hl

/-! ## Two executions of one log -/

/-- Some instance of the log takes effect in the execution from `c` and in the one from `c'`. -/
def Meets (k : κ) (c c' : Cell α) : List (ℕ × Op κ α) → Prop
  | [] => False
  | (i, op) :: l =>
    (op.key = k ∧ op.Takes c ∧ op.Takes c') ∨
      Meets k (if op.key = k then op.cell i c else c) (if op.key = k then op.cell i c' else c') l

instance decidableMeets (k : κ) : ∀ (c c' : Cell α) (l : List (ℕ × Op κ α)),
    Decidable (Meets k c c' l)
  | _, _, [] => inferInstanceAs (Decidable False)
  | c, c', (i, op) :: l =>
    haveI := decidableMeets k (if op.key = k then op.cell i c else c)
      (if op.key = k then op.cell i c' else c') l
    inferInstanceAs (Decidable (_ ∨ _))

/-- The cell is older than instance `n`. -/
def Below (n : ℕ) (c : Cell α) : Prop := ∀ v a, c = some (v, a) → v < n

def Increasing (l : List (ℕ × Op κ α)) : Prop := l.Pairwise fun e f => e.1 < f.1

lemma below_none (n : ℕ) : Below n (none : Cell α) := by
  intro v a h
  cases h

lemma Below.mono {m n : ℕ} {c : Cell α} (h : Below m c) (hmn : m ≤ n) : Below n c :=
  fun v a hc => lt_of_lt_of_le (h v a hc) hmn

lemma Op.result_below (op : Op κ α) {i n : ℕ} (h : i < n) : Below n (op.result i) := by
  intro v a hv
  rw [Op.result_version hv]
  exact h

lemma Op.cell_below (op : Op κ α) {i n : ℕ} {c : Cell α} (hc : Below i c) (h : i < n) :
    Below n (op.cell i c) := by
  unfold Op.cell
  split
  · exact op.result_below h
  · exact hc.mono h.le

lemma step_below (k : κ) (op : Op κ α) {i n : ℕ} {c : Cell α} (hc : Below i c) (h : i < n) :
    Below n (if op.key = k then op.cell i c else c) := by
  split
  · exact op.cell_below hc h
  · exact hc.mono h.le

lemma Op.result_ne {op : Op κ α} {i v : ℕ} {a : α} (hv : v < i) :
    op.result i ≠ some (v, a) := by
  intro h
  have := Op.result_version h
  omega

lemma cellRun_eq_of_meets {k : κ} {c c' : Cell α} {l : List (ℕ × Op κ α)}
    (h : Meets k c c' l) : cellRun k c l = cellRun k c' l := by
  induction l generalizing c c' with
  | nil => exact h.elim
  | cons e l ih =>
    obtain ⟨i, op⟩ := e
    rcases h with ⟨hk, hc, hc'⟩ | h
    · show cellRun k (if op.key = k then op.cell i c else c) l
        = cellRun k (if op.key = k then op.cell i c' else c') l
      rw [if_pos hk, if_pos hk, Op.cell_of_takes hc, Op.cell_of_takes hc']
    · exact ih h

lemma cellRun_ne_of_not_meets {k : κ} {c c' : Cell α} {l : List (ℕ × Op κ α)}
    (hl : Increasing l) (hc : ∀ e ∈ l, Below e.1 c) (hc' : ∀ e ∈ l, Below e.1 c')
    (hne : c ≠ c') (h : ¬ Meets k c c' l) : cellRun k c l ≠ cellRun k c' l := by
  induction l generalizing c c' with
  | nil => exact hne
  | cons e l ih =>
    obtain ⟨i, op⟩ := e
    obtain ⟨hlt, hl⟩ := List.pairwise_cons.mp hl
    obtain ⟨hboth, h⟩ := not_or.mp h
    have hci : Below i c := hc (i, op) List.mem_cons_self
    have hci' : Below i c' := hc' (i, op) List.mem_cons_self
    refine ih hl (fun f hf => step_below k op hci (hlt f hf))
      (fun f hf => step_below k op hci' (hlt f hf)) ?_ h
    by_cases hk : op.key = k
    · rw [if_pos hk, if_pos hk]
      by_cases ht : op.Takes c
      · have ht' : ¬ op.Takes c' := fun ht' => hboth ⟨hk, ht, ht'⟩
        obtain ⟨v, a, rfl⟩ := Op.exists_of_not_takes ht'
        rw [Op.cell_of_takes ht, Op.cell_of_not_takes ht']
        exact Op.result_ne (hci' v a rfl)
      · obtain ⟨v, a, rfl⟩ := Op.exists_of_not_takes ht
        rw [Op.cell_of_not_takes ht]
        by_cases ht' : op.Takes c'
        · rw [Op.cell_of_takes ht']
          exact (Op.result_ne (hci v a rfl)).symm
        · rwa [Op.cell_of_not_takes ht']
    · rwa [if_neg hk, if_neg hk]

/-- Re-executed over the record `x`, the log `b` does something it may not have done before. -/
def Stirs (k : κ) (x : Cell α) (b : List (ℕ × Op κ α)) : Prop :=
  ∃ e ∈ b, e.2.key = k ∧ e.2.Takes x

instance (k : κ) (x : Cell α) (b : List (ℕ × Op κ α)) : Decidable (Stirs k x b) :=
  inferInstanceAs (Decidable (∃ e ∈ b, e.2.key = k ∧ e.2.Takes x))

/-- From the first instance that stirs `x` on, an execution from `x` has left the one from `c`
for good unless they meet. -/
lemma cellRun_ne_of_stirs {k : κ} {c x : Cell α} {b d : List (ℕ × Op κ α)}
    (hl : Increasing (b ++ d)) (hc : ∀ e ∈ b ++ d, Below e.1 c) (hs : Stirs k x b)
    (h : ¬ Meets k c x (b ++ d)) : cellRun k c (b ++ d) ≠ cellRun k x (b ++ d) := by
  induction b generalizing c with
  | nil =>
    obtain ⟨e, he, _⟩ := hs
    cases he
  | cons e b ih =>
    obtain ⟨i, op⟩ := e
    obtain ⟨hlt, hl⟩ := List.pairwise_cons.mp hl
    obtain ⟨hboth, h⟩ := not_or.mp h
    have hci : Below i c := hc (i, op) List.mem_cons_self
    have hbelow : ∀ f ∈ b ++ d, Below f.1 (if op.key = k then op.cell i c else c) :=
      fun f hf => step_below k op hci (hlt f hf)
    show cellRun k (if op.key = k then op.cell i c else c) (b ++ d)
      ≠ cellRun k (if op.key = k then op.cell i x else x) (b ++ d)
    by_cases hx : op.key = k ∧ op.Takes x
    · obtain ⟨hk, ht⟩ := hx
      have ht' : ¬ op.Takes c := fun ht' => hboth ⟨hk, ht', ht⟩
      refine cellRun_ne_of_not_meets hl hbelow (fun f hf => ?_) ?_ h
      · rw [if_pos hk, Op.cell_of_takes ht]
        exact op.result_below (hlt f hf)
      · obtain ⟨v, a, rfl⟩ := Op.exists_of_not_takes ht'
        rw [if_pos hk, if_pos hk, Op.cell_of_takes ht, Op.cell_of_not_takes ht']
        exact (Op.result_ne (hci v a rfl)).symm
    · have hxx : (if op.key = k then op.cell i x else x) = x := by
        split
        · rename_i hk
          exact Op.cell_of_not_takes (fun ht => hx ⟨hk, ht⟩) i
        · rfl
      rw [hxx] at h ⊢
      refine ih hl hbelow ?_ h
      obtain ⟨f, hf, hfk, hft⟩ := hs
      rcases List.mem_cons.mp hf with rfl | hf
      · exact absurd ⟨hfk, hft⟩ hx
      · exact ⟨f, hf, hfk, hft⟩

/-- **Re-execution.**  A log `b` already applied is applied again, followed by `d`.  The cell
ends where the single execution ends exactly when `b` does not stir the record it left, or some
instance takes effect in both executions. -/
theorem replay_iff {k : κ} {c : Cell α} {b d : List (ℕ × Op κ α)}
    (hl : Increasing (b ++ d)) (hc : ∀ e ∈ b ++ d, Below e.1 c) :
    cellRun k (cellRun k c b) (b ++ d) = cellRun k c (b ++ d) ↔
      (Stirs k (cellRun k c b) b → Meets k c (cellRun k c b) (b ++ d)) := by
  constructor
  · intro heq hs
    by_contra h
    exact cellRun_ne_of_stirs hl hc hs h heq.symm
  · intro h
    by_cases hs : Stirs k (cellRun k c b) b
    · exact (cellRun_eq_of_meets (h hs)).symm
    · have hquiet : cellRun k (cellRun k c b) b = cellRun k c b :=
        cellRun_of_not_takes fun e he hk ht => hs ⟨e, he, hk, ht⟩
      rw [cellRun_append, hquiet, cellRun_append]

/-- A version in a cell is the number of an instance already applied to it. -/
lemma cellRun_below (k : κ) {c : Cell α} {l : List (ℕ × Op κ α)} {n : ℕ}
    (hc : Below n c) (hl : ∀ e ∈ l, e.1 < n) : Below n (cellRun k c l) := by
  induction l generalizing c with
  | nil => exact hc
  | cons e l ih =>
    obtain ⟨i, op⟩ := e
    have hi : i < n := hl (i, op) List.mem_cons_self
    refine ih ?_ fun f hf => hl f (List.mem_cons_of_mem _ hf)
    split
    · unfold Op.cell
      split
      · exact op.result_below hi
      · exact hc
    · exact hc

end

/-! ## Histories -/

/-- The versions of a cell over time: from one moment to the next it stays, is removed, or gets a
version above all it has had. -/
structure History (c : ℕ → Option ℕ) : Prop where
  init : c 0 = none
  step : ∀ n, c (n + 1) = c n ∨ c (n + 1) = none ∨
    ∃ i, c (n + 1) = some i ∧ 0 < i ∧ ∀ m ≤ n, ∀ v, c m = some v → v < i

namespace History
variable {c : ℕ → Option ℕ}

lemma pos (h : History c) {n v : ℕ} (hv : c n = some v) : 0 < v := by
  induction n with
  | zero =>
    rw [h.init] at hv
    cases hv
  | succ n ih =>
    rcases h.step n with hc | hc | ⟨i, hc, hi, _⟩
    · rw [hc] at hv
      exact ih hv
    · rw [hc] at hv
      cases hv
    · rw [hc] at hv
      cases hv
      exact hi

lemma mono (h : History c) {n d i v : ℕ} (hnd : n ≤ d) (hi : c n = some i) (hv : c d = some v) :
    i ≤ v := by
  induction d generalizing v with
  | zero =>
    obtain rfl : n = 0 := Nat.le_zero.mp hnd
    rw [hi] at hv
    cases hv
    exact le_rfl
  | succ d ih =>
    rcases Nat.le_succ_iff.mp hnd with hle | rfl
    · rcases h.step d with hc | hc | ⟨j, hc, _, hj⟩
      · rw [hc] at hv
        exact ih hle hv
      · rw [hc] at hv
        cases hv
      · rw [hc] at hv
        cases hv
        exact (hj n hle i hi).le
    · rw [hi] at hv
      cases hv
      exact le_rfl

/-- Between a moment the cell holds a record and one it does not, it was removed. -/
lemma removed_between (c : ℕ → Option ℕ) {n d : ℕ} (hnd : n ≤ d) (hn : c n ≠ none)
    (hd : c d = none) : ∃ m, n ≤ m ∧ m < d ∧ c m ≠ none ∧ c (m + 1) = none := by
  induction d with
  | zero =>
    obtain rfl : n = 0 := Nat.le_zero.mp hnd
    exact absurd hd hn
  | succ d ih =>
    rcases Nat.le_succ_iff.mp hnd with hle | rfl
    · by_cases hcd : c d = none
      · obtain ⟨m, hm, hmd, hrec⟩ := ih hle hcd
        exact ⟨m, hm, hmd.trans (Nat.lt_succ_self d), hrec⟩
      · exact ⟨d, hle, Nat.lt_succ_self d, hcd, hd⟩
    · exact absurd hd hn

end History

end PhxQueue.Lib.Cas
