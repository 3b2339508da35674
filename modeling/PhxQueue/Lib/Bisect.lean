import Mathlib.Tactic

/-!
# Bisection

A test `low` of numbers is bisected between `l`, which is not tested, and `r`.  At each midpoint the
search goes on from it if it is low, and below it otherwise.

* `probes l r a`      the midpoints tested by a search that ends at `a`;
* `Ends low l r a`    the search for the test `low` ends at `a`;
* `exists_ends`       it ends;
* `last_probe`        the last midpoint is where the search ends, or the number after it;
* `missed l r a`      the latter, which depends on the numbers alone.
-/

namespace PhxQueue.Lib.Bisect

def midpoint (l r : ℕ) : ℕ := l + (r + 1 - l) / 2

lemma lt_midpoint {l r : ℕ} (h : l < r) : l < midpoint l r := by
  unfold midpoint
  omega

lemma midpoint_le {l r : ℕ} (h : l < r) : midpoint l r ≤ r := by
  unfold midpoint
  omega

/-- The midpoints tested on the way to `a`. -/
def probes (l r a : ℕ) : List ℕ :=
  if h : l < r then
    midpoint l r ::
      (if midpoint l r ≤ a then probes (midpoint l r) r a else probes l (midpoint l r - 1) a)
  else []
termination_by r - l
decreasing_by
  · have := lt_midpoint h
    omega
  · have := lt_midpoint h
    have := midpoint_le h
    omega

lemma probes_of_le {l r : ℕ} (h : r ≤ l) (a : ℕ) : probes l r a = [] := by
  rw [probes, dif_neg (Nat.not_lt.mpr h)]

lemma probes_low {l r a : ℕ} (h : l < r) (ha : midpoint l r ≤ a) :
    probes l r a = midpoint l r :: probes (midpoint l r) r a := by
  rw [probes, dif_pos h, if_pos ha]

lemma probes_high {l r a : ℕ} (h : l < r) (ha : a < midpoint l r) :
    probes l r a = midpoint l r :: probes l (midpoint l r - 1) a := by
  rw [probes, dif_pos h, if_neg (Nat.not_le.mpr ha)]

lemma bounds_induction {P : ℕ → ℕ → Prop} (hstop : ∀ l r, r ≤ l → P l r)
    (hstep : ∀ l r, l < r → P (midpoint l r) r → P l (midpoint l r - 1) → P l r) (l r : ℕ) :
    P l r := by
  induction hn : r - l using Nat.strong_induction_on generalizing l r with
  | h n ih =>
    rcases Nat.lt_or_ge l r with h | h
    · have hlt := lt_midpoint h
      have hle := midpoint_le h
      exact hstep l r h (ih (r - midpoint l r) (by omega) _ _ rfl)
        (ih (midpoint l r - 1 - l) (by omega) _ _ rfl)
    · exact hstop l r h

/-- The search ends at `a`: it finds what is on the way to `a`. -/
structure Ends (low : ℕ → Bool) (l r a : ℕ) : Prop where
  le : l ≤ a
  le_max : a ≤ max l r
  probe : ∀ m ∈ probes l r a, (low m = true ↔ m ≤ a)

variable {low : ℕ → Bool} {l r a : ℕ}

lemma Ends.eq_of_le (h : Ends low l r a) (hr : r ≤ l) : a = l := by
  have hle := h.le
  have hmax := h.le_max
  omega

lemma Ends.goesOn (h : Ends low l r a) (hr : l < r) (hlow : low (midpoint l r) = true) :
    midpoint l r ≤ a ∧ Ends low (midpoint l r) r a := by
  have hle := midpoint_le hr
  have hmax := h.le_max
  have hprobe := h.probe
  have ha : midpoint l r ≤ a := by
    by_contra hn
    rw [probes_high hr (Nat.not_le.mp hn)] at hprobe
    exact hn ((hprobe _ List.mem_cons_self).mp hlow)
  rw [probes_low hr ha] at hprobe
  exact ⟨ha, ha, by omega, fun m hm => hprobe m (List.mem_cons_of_mem _ hm)⟩

lemma Ends.goesBack (h : Ends low l r a) (hr : l < r) (hlow : low (midpoint l r) = false) :
    a < midpoint l r ∧ Ends low l (midpoint l r - 1) a := by
  have hprobe := h.probe
  have ha : a < midpoint l r := by
    by_contra hn
    have hn := Nat.not_lt.mp hn
    rw [probes_low hr hn] at hprobe
    have htrue := (hprobe _ List.mem_cons_self).mpr hn
    rw [hlow] at htrue
    cases htrue
  rw [probes_high hr ha] at hprobe
  exact ⟨ha, h.le, by omega, fun m hm => hprobe m (List.mem_cons_of_mem _ hm)⟩

theorem exists_ends (low : ℕ → Bool) (l r : ℕ) : ∃ a, Ends low l r a := by
  induction l, r using bounds_induction with
  | hstop l r h =>
    refine ⟨l, le_rfl, le_max_left l r, fun m hm => ?_⟩
    rw [probes_of_le h] at hm
    exact absurd hm List.not_mem_nil
  | hstep l r h ihlow ihhigh =>
    have hlt := lt_midpoint h
    have hle := midpoint_le h
    cases hm : low (midpoint l r) with
    | true =>
      obtain ⟨a, ha⟩ := ihlow
      have hal := ha.le
      have hmax := ha.le_max
      refine ⟨a, by omega, by omega, fun m hmem => ?_⟩
      rw [probes_low h hal] at hmem
      rcases List.mem_cons.mp hmem with rfl | hmem
      · exact ⟨fun _ => hal, fun _ => hm⟩
      · exact ha.probe m hmem
    | false =>
      obtain ⟨a, ha⟩ := ihhigh
      have hal := ha.le
      have hmax := ha.le_max
      have halt : a < midpoint l r := by omega
      refine ⟨a, hal, by omega, fun m hmem => ?_⟩
      rw [probes_high h halt] at hmem
      rcases List.mem_cons.mp hmem with rfl | hmem
      · rw [hm]
        exact ⟨fun hf => (nomatch hf), fun hle => absurd halt (Nat.not_lt.mpr hle)⟩
      · exact ha.probe m hmem

/-- Every number above `l` that a search ends at has been tested. -/
lemma mem_probes (hl : l < a) (hr : a ≤ r) : a ∈ probes l r a := by
  induction l, r using bounds_induction with
  | hstop l r h => omega
  | hstep l r h ihlow ihhigh =>
    rcases Nat.lt_trichotomy (midpoint l r) a with hlt | heq | hgt
    · rw [probes_low h hlt.le]
      exact List.mem_cons_of_mem _ (ihlow hlt hr)
    · rw [probes_low h heq.le]
      exact List.mem_cons.mpr (.inl heq.symm)
    · rw [probes_high h hgt]
      exact List.mem_cons_of_mem _ (ihhigh hl (by omega))

lemma le_of_mem_probes {m : ℕ} (hm : m ∈ probes l r a) : m ≤ r := by
  induction l, r using bounds_induction with
  | hstop l r h =>
    rw [probes_of_le h] at hm
    exact absurd hm List.not_mem_nil
  | hstep l r h ihlow ihhigh =>
    have hle := midpoint_le h
    rcases Nat.lt_or_ge a (midpoint l r) with ha | ha
    · rw [probes_high h ha] at hm
      rcases List.mem_cons.mp hm with rfl | hm
      · exact hle
      · have := ihhigh hm
        omega
    · rw [probes_low h ha] at hm
      rcases List.mem_cons.mp hm with rfl | hm
      · exact hle
      · exact ihlow hm

lemma Ends.low_of_lt (h : Ends low l r a) (hl : l < a) : low a = true := by
  have hmax := h.le_max
  exact (h.probe a (mem_probes hl (by omega))).mpr le_rfl

/-- **The last midpoint** of a search that makes a test. -/
theorem last_probe (hlr : l < r) (hl : l ≤ a) (hr : a ≤ r) :
    (probes l r a).getLast? = some a ∨ (probes l r a).getLast? = some (a + 1) := by
  induction l, r using bounds_induction with
  | hstop l r h => omega
  | hstep l r h ihlow ihhigh =>
    have hlt := lt_midpoint h
    have hle := midpoint_le h
    rcases Nat.lt_or_ge a (midpoint l r) with ha | ha
    · rw [probes_high h ha]
      rcases Nat.lt_or_ge l (midpoint l r - 1) with hmore | hlast
      · obtain ⟨m, ms, hms⟩ : ∃ m ms, probes l (midpoint l r - 1) a = m :: ms := by
          rw [probes, dif_pos hmore]
          exact ⟨_, _, rfl⟩
        have ih := ihhigh hmore hl (by omega)
        rw [hms] at ih ⊢
        rwa [List.getLast?_cons_cons]
      · rw [probes_of_le hlast]
        have hone : midpoint l r = a + 1 := by omega
        rw [hone]
        exact .inr rfl
    · rw [probes_low h ha]
      rcases Nat.lt_or_ge (midpoint l r) r with hmore | hlast
      · obtain ⟨m, ms, hms⟩ : ∃ m ms, probes (midpoint l r) r a = m :: ms := by
          rw [probes, dif_pos hmore]
          exact ⟨_, _, rfl⟩
        have ih := ihlow hmore ha hr
        rw [hms] at ih ⊢
        rwa [List.getLast?_cons_cons]
      · rw [probes_of_le hlast]
        have hone : midpoint l r = a := by omega
        rw [hone]
        exact .inl rfl

/-- The last midpoint on the way from `l` and `r` to `a` lies above `a`. -/
def missed (l r a : ℕ) : Prop := (probes l r a).getLast? = some (a + 1)

instance (l r a : ℕ) : Decidable (missed l r a) :=
  inferInstanceAs (Decidable (_ = _))

theorem last_probe_eq (h : Ends low l r a) :
    ((probes l r a).getLast?).getD l = if missed l r a then a + 1 else a := by
  rcases Nat.lt_or_ge l r with hlr | hlr
  · have hmax := h.le_max
    rcases last_probe hlr h.le (by omega) with hlast | hlast
    · have hnot : ¬ missed l r a := by
        unfold missed
        rw [hlast]
        intro heq
        have := Option.some.inj heq
        omega
      rw [if_neg hnot, hlast]
      rfl
    · have hmissed : missed l r a := hlast
      rw [if_pos hmissed, hlast]
      rfl
  · have hnot : ¬ missed l r a := by
      unfold missed
      rw [probes_of_le hlr]
      exact fun heq => (nomatch heq)
    rw [if_neg hnot, probes_of_le hlr, h.eq_of_le hlr]
    rfl

end PhxQueue.Lib.Bisect
