import PhxQueue.Lib.Cas

/-!
# A register over a log

One cell of a compare-and-set store, as the instances of a log leave it one after the other.  A reader
may see the cell after any number of instances, a writer names the version it has read, and much may be
chosen in between.

* `upto ops k n`        the cell of `k` after the first `n` instances;
* `Writes ops k i`      instance `i` takes effect on the cell;
* `upto_const`          a version is one record;
* `no_lost_update`      **a write that names the version of a record that has been read finds this record,
                        or none**;
* `once`                of two that name one version the second found none;
* `stays`               what has been written stays until it is written again or removed.
-/

set_option linter.unusedSectionVars false

namespace PhxQueue.Lib.Cas

section
variable {κ α : Type*} [DecidableEq κ] (ops : ℕ → Option (Op κ α)) (k : κ)

def upto : ℕ → Cell α
  | 0 => none
  | n + 1 =>
    match ops n with
    | none => upto n
    | some op => if op.key = k then op.cell n (upto n) else upto n

/-- Instance `i` takes effect. -/
def Writes (i : ℕ) : Prop := ∃ op, ops i = some op ∧ op.key = k ∧ op.Takes (upto ops k i)

variable {ops k} {i j m n v w : ℕ} {a b : α} {op : Op κ α}

@[simp] lemma upto_zero : upto ops k 0 = none := rfl

lemma upto_succ_of_some (h : ops n = some op) :
    upto ops k (n + 1) = if op.key = k then op.cell n (upto ops k n) else upto ops k n := by
  show (match ops n with | none => _ | some op => _) = _
  rw [h]

lemma upto_succ_of_none (h : ops n = none) : upto ops k (n + 1) = upto ops k n := by
  show (match ops n with | none => _ | some op => _) = _
  rw [h]

lemma upto_succ_of_writes (h : ops n = some op) (hk : op.key = k) (ht : op.Takes (upto ops k n)) :
    upto ops k (n + 1) = op.result n := by
  rw [upto_succ_of_some h, if_pos hk, Op.cell_of_takes ht]

lemma upto_succ_of_not_writes (h : ¬ Writes ops k n) : upto ops k (n + 1) = upto ops k n := by
  cases hop : ops n with
  | none => exact upto_succ_of_none hop
  | some op =>
    rw [upto_succ_of_some hop]
    by_cases hk : op.key = k
    · rw [if_pos hk, Op.cell_of_not_takes fun ht => h ⟨op, hop, hk, ht⟩]
    · rw [if_neg hk]

lemma upto_congr {ops' : ℕ → Option (Op κ α)} (h : ∀ i < n, ops i = ops' i) :
    upto ops k n = upto ops' k n := by
  induction n with
  | zero => rfl
  | succ n ih =>
    have hcell := ih fun i hi => h i (by omega)
    have hn := h n (by omega)
    cases hop : ops n with
    | none => rw [upto_succ_of_none hop, upto_succ_of_none (hn ▸ hop), hcell]
    | some op => rw [upto_succ_of_some hop, upto_succ_of_some (hn ▸ hop), hcell]

/-- The version of a record is an instance before, which has put it there. -/
lemma upto_written (h : upto ops k n = some (v, a)) :
    v < n ∧ ∃ op, ops v = some op ∧ op.key = k ∧ op.Takes (upto ops k v) ∧ op.put = some a := by
  induction n with
  | zero => cases h
  | succ n ih =>
    by_cases hw : Writes ops k n
    · obtain ⟨op, hop, hk, ht⟩ := hw
      rw [upto_succ_of_writes hop hk ht] at h
      obtain rfl := Op.result_version h
      refine ⟨by omega, op, hop, hk, ht, ?_⟩
      unfold Op.result at h
      cases hput : op.put with
      | none =>
        rw [hput] at h
        cases h
      | some b =>
        rw [hput] at h
        cases h
        rfl
    · rw [upto_succ_of_not_writes hw] at h
      obtain ⟨hlt, hop⟩ := ih h
      exact ⟨by omega, hop⟩

lemma upto_unique (h : upto ops k m = some (v, a)) (h' : upto ops k n = some (v, b)) : a = b := by
  obtain ⟨-, op, hop, -, -, ha⟩ := upto_written h
  obtain ⟨-, op', hop', -, -, hb⟩ := upto_written h'
  rw [hop] at hop'
  cases hop'
  rw [ha] at hb
  exact Option.some.inj hb

/-- After an instance that takes effect there is no older record. -/
lemma upto_ge_of_writes (hi : Writes ops k i) (hij : i < j) (h : upto ops k j = some (v, a)) :
    i ≤ v := by
  induction j generalizing v a with
  | zero => omega
  | succ j ih =>
    by_cases hw : Writes ops k j
    · obtain ⟨op, hop, hk, ht⟩ := hw
      rw [upto_succ_of_writes hop hk ht] at h
      rw [Op.result_version h]
      omega
    · rw [upto_succ_of_not_writes hw] at h
      rcases Nat.lt_succ_iff_lt_or_eq.mp hij with hlt | rfl
      · exact ih hlt h
      · exact absurd hi hw

/-- A record that is there twice has been there all the time. -/
lemma upto_const (hmi : m ≤ i) (hin : i ≤ n) (h : upto ops k m = some (v, a))
    (h' : upto ops k n = some (v, b)) : upto ops k i = some (v, a) := by
  induction n with
  | zero =>
    obtain rfl : i = m := by omega
    exact h
  | succ n ih =>
    rcases Nat.le_succ_iff.mp hin with hle | rfl
    · by_cases hw : Writes ops k n
      · obtain ⟨hlt, -⟩ := upto_written h
        have := upto_ge_of_writes hw (Nat.lt_succ_self n) h'
        omega
      · rw [upto_succ_of_not_writes hw] at h'
        exact ih hle h'
    · rw [h', upto_unique h h']

/-- **No update is lost.**  An instance that takes effect and names the version of a record finds no
record, or this one, which has been there ever since it was read. -/
theorem no_lost_update (hi : ops i = some op) (hk : op.key = k) (ht : op.Takes (upto ops k i))
    (hguard : op.guard = some v) (hread : upto ops k m = some (v, a)) :
    upto ops k i = none ∨ (m ≤ i ∧ ∀ n, m ≤ n → n ≤ i → upto ops k n = some (v, a)) := by
  cases h : upto ops k i with
  | none => exact .inl rfl
  | some r =>
    obtain ⟨w, b⟩ := r
    have hw : w = v := by
      have htakes : op.guard = none ∨ op.guard = some w := by
        rw [h] at ht
        exact ht
      rw [hguard] at htakes
      rcases htakes with hnone | hsome
      · cases hnone
      · exact (Option.some.inj hsome).symm
    subst hw
    have hmi : m ≤ i := by
      by_contra hlt
      have hge := upto_ge_of_writes ⟨op, hi, hk, ht⟩ (not_le.mp hlt) hread
      have := (upto_written h).1
      omega
    exact .inr ⟨hmi, fun n hmn hni => upto_const hmn hni hread h⟩

/-- **A version is replaced once.**  Of two instances that take effect and name one older version the
second finds no record. -/
theorem once (hi : Writes ops k i) (hij : i < j) (ht : op.Takes (upto ops k j))
    (hguard : op.guard = some v) (hv : v < i) : upto ops k j = none := by
  cases h : upto ops k j with
  | none => rfl
  | some r =>
    obtain ⟨w, b⟩ := r
    have hge := upto_ge_of_writes hi hij h
    rw [h] at ht
    rcases ht with hnone | hsome
    · rw [hguard] at hnone
      cases hnone
    · rw [hguard] at hsome
      cases hsome
      omega

/-- **What has been written stays**: later there is a record at least as new, or it has been removed. -/
theorem stays (hop : ops i = some op) (hk : op.key = k) (ht : op.Takes (upto ops k i))
    (hput : op.put = some a) (hin : i < n) :
    (∃ v b, upto ops k n = some (v, b) ∧ i ≤ v ∧ (v = i → b = a)) ∨
      (upto ops k n = none ∧
        ∃ d, i < d ∧ d < n ∧ upto ops k d ≠ none ∧ upto ops k (d + 1) = none) := by
  have hnext : upto ops k (i + 1) = some (i, a) := by
    rw [upto_succ_of_writes hop hk ht]
    unfold Op.result
    rw [hput]
    rfl
  cases h : upto ops k n with
  | some r =>
    obtain ⟨v, b⟩ := r
    refine .inl ⟨v, b, rfl, upto_ge_of_writes ⟨op, hop, hk, ht⟩ hin h, fun hv => ?_⟩
    subst hv
    exact (upto_unique hnext h).symm
  | none =>
    obtain ⟨d, hid, hdn, hd, hd'⟩ := History.removed_between (fun n => (upto ops k n).map Prod.fst)
      (show i + 1 ≤ n from hin) (by simp [hnext]) (by simp [h])
    refine .inr ⟨rfl, d, by omega, hdn, fun hnone => hd ?_, ?_⟩
    · simp [hnone]
    · simpa using hd'

end

end PhxQueue.Lib.Cas
