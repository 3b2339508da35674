import Mathlib.Tactic

/-!
# A numbered log executed again after restarts

Instance `j` of a log turns the value `x` of key `k` into `step j k x`.  A machine executes the
instances in order; a restart takes it back to an earlier one, with the values some moment of the
last execution had, and from those the instances need not do what they did before.

* `Change`, `Change.Stands`   an instance has changed a key, and the key holds what it left or what
                              a later change left;
* `valuesAt`                  the values of one execution, before each instance;
* `Standing`                  every change stands, or the key changes again before the instance of
                              that change is passed;
* `Standing.execute`          one instance is executed, and its change recorded;
* `Standing.move`             a restart, or instances that do nothing;
* `Standing.stands`           past its instance a change stands.
-/

namespace PhxQueue.Lib

/-- Instance `index` gave `key` the value `value`. -/
structure Change (κ X : Type*) where
  index : ℕ
  key : κ
  value : X
deriving DecidableEq

section
variable {κ X : Type*}

/-- The value is the one of the change, or of a later change of the key. -/
def Change.Stands (e : Change κ X) (later : List (Change κ X)) (x : X) : Prop :=
  x = e.value ∨ ∃ e' ∈ later, e'.key = e.key ∧ x = e'.value

lemma Change.Stands.cons {e : Change κ X} {later : List (Change κ X)} {x : X}
    (h : e.Stands later x) (e' : Change κ X) : e.Stands (e' :: later) x := by
  rcases h with h | ⟨e'', he'', h⟩
  · exact .inl h
  · exact .inr ⟨e'', List.mem_cons_of_mem _ he'', h⟩

variable (step : ℕ → κ → X → X)

/-- The instances from `n` on, below `m`, change nothing whatever they find. -/
def Quiet (n m : ℕ) : Prop := ∀ j, n ≤ j → j < m → ∀ k x, step j k x = x

/-- The values `d` instances after `first`. -/
def walk (first : ℕ) (r : κ → X) : ℕ → κ → X
  | 0 => r
  | d + 1 => fun k => step (first + d) k (walk first r d k)

/-- The values before instance `n`, in an execution that starts with `r` before instance `first`. -/
def valuesAt (first : ℕ) (r : κ → X) (n : ℕ) : κ → X := walk step first r (n - first)

lemma valuesAt_first (first : ℕ) (r : κ → X) : valuesAt step first r first = r := by
  unfold valuesAt
  rw [Nat.sub_self]
  rfl

lemma valuesAt_succ {first n : ℕ} (h : first ≤ n) (r : κ → X) (k : κ) :
    valuesAt step first r (n + 1) k = step n k (valuesAt step first r n k) := by
  have hsub : n + 1 - first = (n - first) + 1 := by omega
  have hadd : first + (n - first) = n := by omega
  unfold valuesAt
  rw [hsub]
  show step (first + (n - first)) k _ = _
  rw [hadd]

/-- A key that no instance from `n` on changes keeps its value. -/
lemma valuesAt_still {first n m : ℕ} (hn : first ≤ n) (hnm : n ≤ m) (r : κ → X) {k : κ}
    (h : ∀ j, n ≤ j → j < m →
      step j k (valuesAt step first r n k) = valuesAt step first r n k) :
    valuesAt step first r m k = valuesAt step first r n k := by
  induction m with
  | zero =>
    obtain rfl : n = 0 := Nat.le_zero.mp hnm
    rfl
  | succ m ih =>
    rcases Nat.le_succ_iff.mp hnm with hle | rfl
    · have hm := ih hle fun j hj hjm => h j hj (Nat.lt_succ_of_lt hjm)
      rw [valuesAt_succ step (hn.trans hle), hm]
      exact h m hle (Nat.lt_succ_self m)
    · rfl

/-- Of the values before instance `n`, and of changes newest first: each change stands, or its key
changes again before its instance is passed. -/
def Standing (changes : List (Change κ X)) (n : ℕ) (r : κ → X) : Prop :=
  ∀ later e earlier, changes = later ++ e :: earlier →
    e.Stands later (r e.key) ∨
      ∃ j, n ≤ j ∧ j ≤ e.index ∧ step j e.key (r e.key) ≠ r e.key

/-- The changes after instance `n`, which is about the key `k`. -/
def logged [DecidableEq X] (changes : List (Change κ X)) (n : ℕ) (k : κ) (x : X) :
    List (Change κ X) :=
  if step n k x = x then changes else ⟨n, k, step n k x⟩ :: changes

variable {step} {changes : List (Change κ X)} {n m : ℕ} {r : κ → X}

lemma standing_nil (n : ℕ) (r : κ → X) : Standing step [] n r := by
  intro later e earlier h
  exact absurd h.symm (by simp)

/-- The machine goes back, or on over instances that change nothing. -/
lemma Standing.move (h : Standing step changes n r) (hq : Quiet step n m) :
    Standing step changes m r := by
  intro later e earlier heq
  rcases h later e earlier heq with hs | ⟨j, hj, hje, hne⟩
  · exact .inl hs
  · refine .inr ⟨j, ?_, hje, hne⟩
    by_contra hlt
    exact hne (hq j hj (Nat.lt_of_not_le hlt) _ _)

/-- **Past its instance a change stands.** -/
theorem Standing.stands (h : Standing step changes n r) {cp : ℕ} (hq : Quiet step n (cp + 1))
    {later earlier : List (Change κ X)} {e : Change κ X} (heq : changes = later ++ e :: earlier)
    (hle : e.index ≤ cp) : e.Stands later (r e.key) := by
  rcases (h.move hq) later e earlier heq with hs | ⟨j, hj, hje, _⟩
  · exact hs
  · omega

/-- Where the new change stands, or its key still changes up to it. -/
lemma Standing.cons (h : Standing step changes n r) {e : Change κ X}
    (he : r e.key = e.value ∨ ∃ j, n ≤ j ∧ j ≤ e.index ∧ step j e.key (r e.key) ≠ r e.key) :
    Standing step (e :: changes) n r := by
  intro later e' earlier heq
  rcases List.cons_eq_append_iff.mp heq with ⟨rfl, hcons⟩ | ⟨later', rfl, heq'⟩
  · obtain ⟨rfl, _⟩ := List.cons.inj hcons
    exact he.imp_left .inl
  · exact (h later' e' earlier heq').imp_left fun hs => hs.cons e

lemma Standing.pass (h : Standing step changes n r) (hr : ∀ k, step n k (r k) = r k) :
    Standing step changes (n + 1) r := by
  intro later e earlier heq
  rcases h later e earlier heq with hs | ⟨j, hj, hje, hne⟩
  · exact .inl hs
  · refine .inr ⟨j, ?_, hje, hne⟩
    rcases Nat.eq_or_lt_of_le hj with rfl | hlt
    · exact absurd (hr e.key) hne
    · exact hlt

/-- The changes recorded up to the next instance stand at every moment of the execution. -/
def StandingFrom (step : ℕ → κ → X → X) (changes : List (Change κ X)) (first next : ℕ)
    (r : κ → X) : Prop :=
  ∀ n, first ≤ n → n ≤ next → Standing step changes n (valuesAt step first r n)

variable {first next : ℕ}

lemma standingFrom_start (h : Standing step changes first r) :
    StandingFrom step changes first first r := by
  intro n hn hle
  obtain rfl : first = n := Nat.le_antisymm hn hle
  rw [valuesAt_first]
  exact h

lemma StandingFrom.skip (h : StandingFrom step changes first next r) (hle : first ≤ next)
    (hk : ∀ k x, step next k x = x) : StandingFrom step changes first (next + 1) r := by
  intro n hn hnext
  rcases Nat.le_succ_iff.mp hnext with hlt | rfl
  · exact h n hn hlt
  · have hvalues : valuesAt step first r (next + 1) = valuesAt step first r next := by
      funext k
      rw [valuesAt_succ step hle, hk]
    rw [hvalues]
    exact (h next hle le_rfl).pass fun k => hk k _

section
variable [DecidableEq X] {k : κ}

/-- **One instance is executed**; only the key it is about may change. -/
theorem Standing.execute (h : Standing step changes n r)
    (hk : ∀ k', k' ≠ k → step n k' (r k') = r k') :
    Standing step (logged step changes n k (r k)) (n + 1) fun k' => step n k' (r k') := by
  unfold logged
  split
  · rename_i hsame
    have hall : ∀ k', step n k' (r k') = r k' := by
      intro k'
      by_cases hkk : k' = k
      · rw [hkk, hsame]
      · exact hk k' hkk
    have hr : (fun k' => step n k' (r k')) = r := funext hall
    rw [hr]
    exact h.pass hall
  · intro later e earlier heq
    rcases List.cons_eq_append_iff.mp heq with ⟨rfl, hcons⟩ | ⟨later', rfl, heq'⟩
    · obtain ⟨rfl, _⟩ := List.cons.inj hcons
      exact .inl (.inl rfl)
    · by_cases hek : e.key = k
      · -- the new change is a later one of the same key
        refine .inl (.inr ⟨_, List.mem_cons_self, hek.symm, ?_⟩)
        rw [hek]
      · have hsame := hk e.key hek
        dsimp only
        rw [hsame]
        rcases h later' e earlier heq' with hs | ⟨j, hj, hje, hne⟩
        · exact .inl (hs.cons _)
        · refine .inr ⟨j, ?_, hje, hne⟩
          rcases Nat.eq_or_lt_of_le hj with rfl | hlt
          · exact absurd hsame hne
          · exact hlt

/-- The new change is also one at the moments before it: if its key still has the value of that
moment, the instance itself changes it. -/
theorem StandingFrom.execute (h : StandingFrom step changes first next r) (hle : first ≤ next)
    (hk : ∀ k', k' ≠ k →
      step next k' (valuesAt step first r next k') = valuesAt step first r next k') :
    StandingFrom step (logged step changes next k (valuesAt step first r next k)) first (next + 1)
      r := by
  intro n hn hnext
  rcases Nat.le_succ_iff.mp hnext with hlt | rfl
  · unfold logged
    split
    · exact h n hn hlt
    · rename_i hne
      refine (h n hn hlt).cons ?_
      by_contra hnot
      obtain ⟨_, hnone⟩ := not_or.mp hnot
      have hquiet : ∀ j, n ≤ j → j ≤ next →
          step j k (valuesAt step first r n k) = valuesAt step first r n k := by
        intro j hj hjn
        by_contra hch
        exact hnone ⟨j, hj, hjn, hch⟩
      have hsame := valuesAt_still step hn hlt r fun j hj hjn => hquiet j hj hjn.le
      rw [hsame] at hne
      exact hne (hquiet next hlt le_rfl)
  · have hvalues : valuesAt step first r (next + 1) =
        fun k' => step next k' (valuesAt step first r next k') :=
      funext fun k' => valuesAt_succ step hle r k'
    rw [hvalues]
    exact (h next hle le_rfl).execute hk

end

end

end PhxQueue.Lib
