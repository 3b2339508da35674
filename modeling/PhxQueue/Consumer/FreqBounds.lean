import PhxQueue.Consumer.FreqMan

/-!
# Where the frequency limits index

Which runs of the processes of `FreqMan` stay within the shared arrays.  A handle id without a rank, or
with one beyond the table, is passed over where a worker counts; the limits of a freq info for any handle
are set with the rank -1.

* `Safe`                      within bounds;
* `within_updateConsumeStat_iff`, `within_clearAllConsumeStat_iff`, `within_judge`   counting, clearing
                              and judging;
* `statistics_result`         the counts of a freq info are sums over its workers;
* `Compared`                  what has been compared is what the freq infos before had;
* `within_updateLimitInfo_iff`   **when an update of the limits is within bounds**;
* `freqman_within_iff`        **the runs that are**.
-/

set_option linter.unusedSectionVars false

namespace PhxQueue.Consumer.FreqMan
open Comm PhxQueue.Config Lib Lib.Traced

/-! ## Bounds -/

def Safe : Access → Prop
  | .limitInfo vpid => vpid ≤ maxVpid
  | .consumeStat vpid => vpid ≤ maxVpid
  | .nhandle vpid rank => vpid ≤ maxVpid ∧ 0 ≤ rank ∧ rank ≤ maxHandleIdNum

instance : DecidablePred Safe
  | .limitInfo _ => inferInstanceAs (Decidable (_ ≤ _))
  | .consumeStat _ => inferInstanceAs (Decidable (_ ≤ _))
  | .nhandle _ _ => inferInstanceAs (Decidable (_ ∧ _))

@[simp] lemma safe_limitInfo {vpid : ℕ} : Safe (.limitInfo vpid) ↔ vpid ≤ maxVpid := Iff.rfl

@[simp] lemma safe_consumeStat {vpid : ℕ} : Safe (.consumeStat vpid) ↔ vpid ≤ maxVpid := Iff.rfl

@[simp] lemma safe_nhandle {vpid : ℕ} {rank : ℤ} :
    Safe (.nhandle vpid rank) ↔ vpid ≤ maxVpid ∧ 0 ≤ rank ∧ rank ≤ maxHandleIdNum := Iff.rfl

lemma within_clearConsumeStat {n vpid : ℕ} {shm : Shm} :
    (clearConsumeStat n shm vpid).Within Safe ↔ vpid ≤ maxVpid ∧ n ≤ maxHandleIdNum + 1 := by
  unfold clearConsumeStat
  rw [within_bind, within_touch, safe_consumeStat]
  apply and_congr_right
  intro hvpid
  dsimp only
  rw [within_each_iff_forall (Q := fun i => i ≤ maxHandleIdNum)]
  · constructor
    · intro h
      by_contra hn
      have := h (maxHandleIdNum + 1) (List.mem_range.mpr (by omega))
      omega
    · intro hn i hi
      have := List.mem_range.mp hi
      omega
  · intro shm i
    unfold clearRank
    rw [within_bind, within_touch, safe_nhandle, and_iff_left (within_pure _)]
    omega

lemma getHandleIDRank_nonneg {config : FreqConfig} {handleId rank : ℤ}
    (h : getHandleIDRank config handleId = .ok rank) : 0 ≤ rank := by
  unfold getHandleIDRank at h
  split at h
  · cases h
    exact Int.natCast_nonneg _
  · cases h

lemma within_countItem {config : FreqConfig} {g : ℤ} {vpid : ℕ} (hvpid : vpid ≤ maxVpid) {shm : Shm}
    {item : QItem} : (countItem config g vpid shm item).Within Safe := by
  unfold countItem
  split
  · exact within_pure _
  · split
    · exact within_pure _
    · rename_i rank hrank
      have := getHandleIDRank_nonneg hrank
      split
      · exact within_pure _
      · simp only [within_bind, within_touch, safe_nhandle, within_pure, and_true]
        omega

theorem within_updateConsumeStat_iff {vpid : ℕ} {config : Option FreqConfig} {g : ℤ}
    {items : List QItem} {s : State} : (updateConsumeStat vpid config g items s).Within Safe ↔
      ∀ c, config = some c → vpid ≤ maxVpid → s.lastModTime vpid ≠ c.lastModTime →
        c.handleIds.length ≤ maxHandleIdNum + 1 := by
  unfold updateConsumeStat
  split
  · rename_i hvpid
    exact iff_of_true (within_pure _) (fun c _ hle => absurd hle (by omega))
  · rename_i hvpid
    have hvpid := not_lt.mp hvpid
    rw [within_bind, within_touch, safe_consumeStat, and_iff_right hvpid]
    cases config with
    | none => simp
    | some config =>
      have hitems : ∀ shm, (each (countItem config g vpid) items shm).Within Safe := by
        intro shm
        rw [within_each_iff_forall (Q := fun _ => True)
          fun _ _ => iff_of_true (within_countItem hvpid) trivial]
        exact fun _ _ => trivial
      simp only [within_bind, hitems, within_pure, and_true, Option.some.injEq, forall_eq',
        hvpid, forall_const]
      unfold clearIfChanged
      by_cases htime : s.lastModTime vpid = config.lastModTime
      · simp [htime]
      · simp [htime, within_clearConsumeStat, hvpid]

theorem within_clearAllConsumeStat_iff {nprocs : ℕ} {config : Option FreqConfig} {s : State} :
    (clearAllConsumeStat nprocs config s).Within Safe ↔ ∀ c, config = some c → 0 < nprocs →
      nprocs ≤ maxVpid + 1 ∧ c.handleIds.length ≤ maxHandleIdNum + 1 := by
  unfold clearAllConsumeStat
  cases config with
  | none => simp
  | some config =>
    simp only [within_bind, within_pure, and_true, Option.some.injEq, forall_eq']
    rw [within_each_iff_forall
      (Q := fun i => i ≤ maxVpid ∧ config.handleIds.length ≤ maxHandleIdNum + 1)]
    swap
    · intro shm i
      exact within_clearConsumeStat
    constructor
    · intro h hpos
      refine ⟨?_, (h 0 (List.mem_range.mpr hpos)).2⟩
      have := (h (nprocs - 1) (List.mem_range.mpr (by omega))).1
      omega
    · intro h i hi
      have hi := List.mem_range.mp hi
      obtain ⟨hprocs, hids⟩ := h (by omega)
      exact ⟨by omega, hids⟩

lemma within_judge {vpid : ℕ} {shm : Shm} : (judge vpid shm).Within Safe := by
  unfold judge
  split
  · exact within_pure _
  · rename_i hvpid
    have hvpid := not_lt.mp hvpid
    simp only [within_bind, within_touch, safe_limitInfo, safe_consumeStat, hvpid, true_and]
    split
    · exact within_pure _
    · exact within_pure _

/-! ## The counts of a freq info -/

def Target.procs (nprocs : ℕ) (tgt : Target) (info : FreqInfo) (queues : List (Option Slot)) :
    List ℕ := (List.range nprocs).filter (tgt.matches info queues)

def statsOf (shm : Shm) (rank : ℤ) (procs : List ℕ) : Stats where
  procUsed := procs.length
  nget := (procs.map fun vpid => (shm.consumeStats vpid).nget).sum
  nhandleTot := (procs.map fun vpid => (shm.consumeStats vpid).nhandleTot).sum
  nhandle := (procs.map fun vpid => if rank = -1 then (shm.consumeStats vpid).nhandleTot
    else (shm.consumeStats vpid).handleIdRank2nhandle rank).sum

section
variable {nprocs : ℕ} {tgt : Target} {info : FreqInfo} {queues : List (Option Slot)} {shm : Shm}

lemma mem_procs {vpid : ℕ} : vpid ∈ tgt.procs nprocs info queues ↔
    vpid < nprocs ∧ tgt.matches info queues vpid = true := by
  unfold Target.procs
  rw [List.mem_filter, List.mem_range]

lemma statistics_result : (statistics nprocs tgt info queues shm).result =
    statsOf shm tgt.rank (tgt.procs nprocs info queues) := by
  unfold statistics Target.procs
  rw [result_each]
  have hgen : ∀ (vpids : List ℕ) (stats : Stats), vpids.foldl (fun stats vpid =>
      (countWorker tgt info queues shm stats vpid).result) stats =
        stats.add (statsOf shm tgt.rank (vpids.filter (tgt.matches info queues))) := by
    intro vpids
    induction vpids with
    | nil => intro stats; simp [statsOf, Stats.add]
    | cons vpid vpids ih =>
      intro stats
      rw [List.foldl_cons, ih]
      unfold countWorker
      by_cases hmatch : tgt.matches info queues vpid
      · rw [if_pos hmatch, List.filter_cons_of_pos hmatch]
        by_cases hrank : tgt.rank = -1
        · simp [statsOf, Stats.add, hrank]
          omega
        · simp [statsOf, Stats.add, hrank]
          omega
      · rw [if_neg hmatch, List.filter_cons_of_neg hmatch]
        rfl
  rw [hgen]
  simp [Stats.add]

lemma within_countWorker {stats : Stats} {vpid : ℕ} :
    (countWorker tgt info queues shm stats vpid).Within Safe ↔
      (tgt.matches info queues vpid = true → vpid ≤ maxVpid ∧
        (tgt.rank ≠ -1 → 0 ≤ tgt.rank ∧ tgt.rank ≤ maxHandleIdNum)) := by
  unfold countWorker
  by_cases hmatch : tgt.matches info queues vpid
  · by_cases hrank : tgt.rank = -1
    · simp [hmatch, hrank]
    · simp [hmatch, hrank]
  · simp [hmatch]

lemma within_statistics : (statistics nprocs tgt info queues shm).Within Safe ↔
    ∀ vpid ∈ tgt.procs nprocs info queues, vpid ≤ maxVpid ∧
      (tgt.rank ≠ -1 → 0 ≤ tgt.rank ∧ tgt.rank ≤ maxHandleIdNum) := by
  unfold statistics Target.procs
  rw [List.forall_mem_filter]
  apply within_each_iff_forall
  intro s vpid
  exact within_countWorker

/-- `proc_used` is 0 when the freq info is about no worker. -/
lemma statsOf_procUsed {procs : List ℕ} {rank : ℤ} :
    (statsOf shm rank procs).procUsed = 0 ↔ procs = [] := by
  show (procs.length : ℤ) = 0 ↔ _
  rw [Int.natCast_eq_zero, List.length_eq_zero_iff]

variable {F : Type} [LinearOrder F] {arith : Arith F} {stats : Stats} {diffTimeMs : ℕ}
  {s : Limiting F}

lemma within_setLimit {vpid : ℕ} : (setLimit arith tgt info queues stats diffTimeMs s vpid).Within Safe ↔
    (tgt.matches info queues vpid = true →
      vpid ≤ maxVpid ∧ 0 ≤ tgt.rank ∧ tgt.rank ≤ maxHandleIdNum) := by
  unfold setLimit
  by_cases hmatch : tgt.matches info queues vpid
  · simp only [hmatch, if_true, within_bind, within_touch, safe_consumeStat, safe_nhandle,
      safe_limitInfo, within_pure, and_true, forall_const]
    tauto
  · simp [hmatch]

lemma within_setLimits : (setLimits arith nprocs tgt info queues stats diffTimeMs s).Within Safe ↔
    ∀ vpid ∈ tgt.procs nprocs info queues,
      vpid ≤ maxVpid ∧ 0 ≤ tgt.rank ∧ tgt.rank ≤ maxHandleIdNum := by
  unfold setLimits Target.procs
  rw [List.forall_mem_filter]
  apply within_each_iff_forall
  intro s vpid
  exact within_setLimit

/-- Setting limits neither changes what has been counted nor what has been compared. -/
lemma setLimits_frame :
    (setLimits arith nprocs tgt info queues stats diffTimeMs s).result.shm.consumeStats =
      s.shm.consumeStats ∧
    (setLimits arith nprocs tgt info queues stats diffTimeMs s).result.maxHandlePct =
      s.maxHandlePct := by
  unfold setLimits
  rw [result_each]
  apply List.foldlRecOn (motive := fun t : Limiting F =>
    t.shm.consumeStats = s.shm.consumeStats ∧ t.maxHandlePct = s.maxHandlePct)
  · exact ⟨rfl, rfl⟩
  · intro t ht vpid _
    unfold setLimit
    split
    · exact ht
    · exact ht

lemma setLimits_updated
    (h : (setLimits arith nprocs tgt info queues stats diffTimeMs s).Within Safe)
    (hs : ∀ vpid, s.updated vpid = true → vpid ≤ maxVpid) :
    ∀ vpid, (setLimits arith nprocs tgt info queues stats diffTimeMs s).result.updated vpid = true →
      vpid ≤ maxVpid := by
  unfold setLimits at h ⊢
  refine each_keeps (I := fun s : Limiting F => ∀ vpid, s.updated vpid = true → vpid ≤ maxVpid)
    ?_ h hs
  intro s vpid hwithin hs
  rw [within_setLimit] at hwithin
  unfold setLimit
  split
  · rename_i hmatch
    intro v hv
    have hv : Function.update s.updated vpid true v = true := hv
    by_cases heq : v = vpid
    · rw [heq]
      exact (hwithin hmatch).1
    · rw [Function.update_of_ne heq] at hv
      exact hs v hv
  · exact hs

end

/-! ## Updating the limits -/

section
variable {F : Type} [LinearOrder F] (arith : Arith F) (nprocs : ℕ) (config : FreqConfig)
  (stores : ProtoStores) (queues : List (Option Slot)) (diffTimeMs : ℕ) (shm : Shm)

/-- The freq info passes the checks and is about some worker. -/
def Active (info : FreqInfo) (tgt : Target) : Prop :=
  target config stores info = some tgt ∧ tgt.procs nprocs info queues ≠ []

/-- The percentage of a freq info, from the counts in the shared memory. -/
def pctOf (info : FreqInfo) (tgt : Target) : F :=
  arith.handledPct info.limitPerMin
    (statsOf shm tgt.rank (tgt.procs nprocs info queues)).atLeastOne tgt.procTot diffTimeMs

/-- An active freq info needs a rank of the table; one for any handle must have been preceded by one
for the same publisher, group and queue info with a higher percentage. -/
def InfoOk (pre : List FreqInfo) (info : FreqInfo) : Prop :=
  ∀ tgt, Active nprocs config stores queues info tgt →
    tgt.rank ≤ maxHandleIdNum ∧
    (info.handleId = -1 → ∃ i ∈ pre, i.key = info.key ∧
      ∃ tgt', Active nprocs config stores queues i tgt' ∧
        pctOf arith nprocs queues diffTimeMs shm info tgt <
          pctOf arith nprocs queues diffTimeMs shm i tgt')

variable {arith nprocs config stores queues diffTimeMs shm} {info : FreqInfo} {tgt : Target}
  {s : Limiting F}

/-- A freq info for any handle has the rank -1, another one a rank of the table. -/
lemma rank_of_target (h : target config stores info = some tgt) :
    (info.handleId = -1 → tgt.rank = -1) ∧ (info.handleId ≠ -1 → 0 ≤ tgt.rank) := by
  unfold target rankOf at h
  split at h
  · cases h
  split at h
  · cases h
  rename_i rank hrank
  split at h
  · cases h
  dsimp only at h
  split at h
  · cases h
  split at h
  · cases h
  cases h
  constructor
  · intro hany
    rw [if_pos hany] at hrank
    cases hrank
    rfl
  · intro hid
    rw [if_neg hid] at hrank
    exact getHandleIDRank_nonneg hrank

lemma statsOf_congr {shm' : Shm} (h : shm'.consumeStats = shm.consumeStats) (rank : ℤ)
    (procs : List ℕ) : statsOf shm' rank procs = statsOf shm rank procs := by
  unfold statsOf
  rw [h]

/-- What has been compared is what the active freq infos before had. -/
structure Compared (arith : Arith F) (nprocs : ℕ) (config : FreqConfig) (stores : ProtoStores)
    (queues : List (Option Slot)) (diffTimeMs : ℕ) (shm : Shm) (pre : List FreqInfo)
    (s : Limiting F) : Prop where
  stats : s.shm.consumeStats = shm.consumeStats
  beaten_iff : ∀ key x, beaten s key x ↔ ∃ i ∈ pre, i.key = key ∧
    ∃ tgt, Active nprocs config stores queues i tgt ∧
      x < pctOf arith nprocs queues diffTimeMs shm i tgt

lemma limitFreqInfo_of_not_active (h : ∀ tgt, ¬ Active nprocs config stores queues info tgt) :
    (limitFreqInfo arith nprocs config stores queues diffTimeMs s info).result = s ∧
      (limitFreqInfo arith nprocs config stores queues diffTimeMs s info).Within Safe := by
  unfold limitFreqInfo
  split
  · exact ⟨rfl, within_pure _⟩
  · rename_i tgt htgt
    have hprocs : tgt.procs nprocs info queues = [] := by
      by_contra hne
      exact h tgt ⟨htgt, hne⟩
    have hzero : (statistics nprocs tgt info queues s.shm).result.procUsed = 0 := by
      rw [statistics_result, statsOf_procUsed]
      exact hprocs
    rw [result_bind, within_bind, if_pos hzero, within_statistics, hprocs]
    simp

variable (arith diffTimeMs) in
lemma limitFreqInfo_of_active (hstats : s.shm.consumeStats = shm.consumeStats)
    (h : Active nprocs config stores queues info tgt) : ∃ stats,
      (limitFreqInfo arith nprocs config stores queues diffTimeMs s info).result =
        (if beaten s info.key (pctOf arith nprocs queues diffTimeMs shm info tgt) then s
        else (setLimits arith nprocs tgt info queues stats diffTimeMs (s.record info.key
          (pctOf arith nprocs queues diffTimeMs shm info tgt))).result) ∧
      ((limitFreqInfo arith nprocs config stores queues diffTimeMs s info).Within Safe ↔
        (statistics nprocs tgt info queues s.shm).Within Safe ∧
        (¬ beaten s info.key (pctOf arith nprocs queues diffTimeMs shm info tgt) →
          (setLimits arith nprocs tgt info queues stats diffTimeMs (s.record info.key
            (pctOf arith nprocs queues diffTimeMs shm info tgt))).Within Safe)) := by
  obtain ⟨htgt, hprocs⟩ := h
  have hresult : (statistics nprocs tgt info queues s.shm).result =
      statsOf shm tgt.rank (tgt.procs nprocs info queues) := by
    rw [statistics_result, statsOf_congr hstats]
  have hused : (statsOf shm tgt.rank (tgt.procs nprocs info queues)).procUsed ≠ 0 := by
    rw [Ne, statsOf_procUsed]
    exact hprocs
  refine ⟨(statsOf shm tgt.rank (tgt.procs nprocs info queues)).atLeastOne, ?_⟩
  unfold limitFreqInfo pctOf
  rw [htgt]
  dsimp only
  rw [result_bind, within_bind, hresult, if_neg hused]
  split
  · rename_i hbeaten
    exact ⟨rfl, and_congr_right fun _ => iff_of_true (within_pure _) (absurd hbeaten)⟩
  · rename_i hbeaten
    exact ⟨rfl, and_congr_right fun _ => (imp_iff_right hbeaten).symm⟩

lemma beaten_record {key key' : ℤ × ℤ × ℤ} {pct x : F} (h : ¬ beaten s key pct) :
    beaten (s.record key pct) key' x ↔ beaten s key' x ∨ (key = key' ∧ x < pct) := by
  unfold beaten Limiting.record
  by_cases hkey : key' = key
  · subst hkey
    simp only [Function.update_self, Option.some.injEq, exists_eq_left', true_and]
    constructor
    · exact Or.inr
    · rintro (⟨m, hm, hlt⟩ | hlt)
      · exact lt_of_lt_of_le hlt (not_lt.mp fun hpct => h ⟨m, hm, hpct⟩)
      · exact hlt
  · simp only [Function.update_of_ne hkey]
    exact (or_iff_left fun hr => hkey hr.1.symm).symm

lemma Compared.step {pre : List FreqInfo}
    (hs : Compared arith nprocs config stores queues diffTimeMs shm pre s) (info : FreqInfo) :
    Compared arith nprocs config stores queues diffTimeMs shm (pre ++ [info])
      (limitFreqInfo arith nprocs config stores queues diffTimeMs s info).result := by
  have hmem : ∀ P : FreqInfo → Prop, (∃ i ∈ pre ++ [info], P i) ↔ (∃ i ∈ pre, P i) ∨ P info := by
    simp [or_and_right, exists_or]
  by_cases hactive : ∃ tgt, Active nprocs config stores queues info tgt
  · obtain ⟨tgt, htgt⟩ := hactive
    have htgt' : ∀ tgt', Active nprocs config stores queues info tgt' ↔ tgt' = tgt := by
      intro tgt'
      constructor
      · intro h
        exact Option.some.inj (h.1.symm.trans htgt.1)
      · rintro rfl
        exact htgt
    obtain ⟨stats, hresult, -⟩ := limitFreqInfo_of_active arith diffTimeMs hs.stats htgt
    rw [hresult]
    split
    · -- beaten, so that it adds no higher percentage
      rename_i hbeaten
      refine ⟨hs.stats, fun key x => ?_⟩
      rw [hmem, ← hs.beaten_iff]
      refine (or_iff_left_of_imp ?_).symm
      rintro ⟨rfl, tgt', hactive, hlt⟩
      rw [(htgt' tgt').mp hactive] at hlt
      obtain ⟨m, hm, hpct⟩ := hbeaten
      exact ⟨m, hm, hlt.trans hpct⟩
    · rename_i hbeaten
      refine ⟨setLimits_frame.1.trans hs.stats, fun key x => ?_⟩
      have hframe : ∀ {s s' : Limiting F}, s'.maxHandlePct = s.maxHandlePct →
          (beaten s' key x ↔ beaten s key x) := by
        intro s s' h
        unfold beaten
        rw [h]
      rw [hframe setLimits_frame.2, beaten_record hbeaten, hmem, ← hs.beaten_iff]
      simp [htgt']
  · have hnone := not_exists.mp hactive
    rw [(limitFreqInfo_of_not_active hnone).1]
    refine ⟨hs.stats, fun key x => ?_⟩
    rw [hmem, ← hs.beaten_iff]
    refine (or_iff_left_of_imp ?_).symm
    rintro ⟨-, tgt, htgt, -⟩
    exact absurd htgt (hnone tgt)

/-- When there are not too many processes, a round is within bounds as `InfoOk` says. -/
lemma within_limitFreqInfo (hprocs : nprocs ≤ maxVpid + 1) {pre : List FreqInfo}
    (hs : Compared arith nprocs config stores queues diffTimeMs shm pre s) (info : FreqInfo) :
    (limitFreqInfo arith nprocs config stores queues diffTimeMs s info).Within Safe ↔
      InfoOk arith nprocs config stores queues diffTimeMs shm pre info := by
  have hvpid : ∀ tgt : Target, ∀ vpid ∈ tgt.procs nprocs info queues, vpid ≤ maxVpid := by
    intro tgt vpid hmem
    have := (mem_procs.mp hmem).1
    omega
  by_cases hactive : ∃ tgt, Active nprocs config stores queues info tgt
  · obtain ⟨tgt, htgt⟩ := hactive
    obtain ⟨hany, hown⟩ := rank_of_target htgt.1
    obtain ⟨vpid, hmem⟩ := List.exists_mem_of_ne_nil _ htgt.2
    have hall : ∀ P : Prop, (∀ v ∈ tgt.procs nprocs info queues, v ≤ maxVpid ∧ P) ↔ P :=
      fun P => ⟨fun h => (h vpid hmem).2, fun h v hv => ⟨hvpid tgt v hv, h⟩⟩
    obtain ⟨stats, -, hwithin⟩ := limitFreqInfo_of_active arith diffTimeMs hs.stats htgt
    rw [hwithin, within_statistics, within_setLimits, hall, hall, hs.beaten_iff]
    have honly : ∀ P : Target → Prop,
        (∀ tgt', Active nprocs config stores queues info tgt' → P tgt') ↔ P tgt := by
      intro P
      constructor
      · intro h
        exact h tgt htgt
      · intro h tgt' htgt'
        rw [Option.some.inj (htgt'.1.symm.trans htgt.1)]
        exact h
    unfold InfoOk
    rw [honly]
    by_cases hid : info.handleId = -1
    · -- the counts of such a freq info are read without a rank, its limits are not
      have hrank := hany hid
      have hneg : ¬ (0 ≤ tgt.rank ∧ tgt.rank ≤ maxHandleIdNum) := by omega
      have hle : tgt.rank ≤ maxHandleIdNum := by omega
      simp only [hrank, ne_eq, not_true_eq_false, IsEmpty.forall_iff, true_and, hid, forall_const]
      rw [hrank] at hneg hle
      rw [and_iff_right hle]
      constructor
      · intro h
        by_contra hno
        exact hneg (h hno)
      · intro h hno
        exact absurd h hno
    · have hrank := hown hid
      have hne : tgt.rank ≠ -1 := by omega
      simp only [hne, ne_eq, not_false_eq_true, hrank, true_and, forall_const, hid,
        IsEmpty.forall_iff, and_true]
      exact and_iff_left_of_imp fun h _ => h
  · have hnone := not_exists.mp hactive
    exact iff_of_true (limitFreqInfo_of_not_active hnone).2 (fun tgt htgt => absurd htgt (hnone tgt))

/-- Only workers within bounds get limits in a round within bounds. -/
lemma limitFreqInfo_updated
    (h : (limitFreqInfo arith nprocs config stores queues diffTimeMs s info).Within Safe)
    (hs : ∀ vpid, s.updated vpid = true → vpid ≤ maxVpid) :
    ∀ vpid, (limitFreqInfo arith nprocs config stores queues diffTimeMs s info).result.updated vpid =
      true → vpid ≤ maxVpid := by
  by_cases hactive : ∃ tgt, Active nprocs config stores queues info tgt
  · obtain ⟨tgt, htgt⟩ := hactive
    obtain ⟨stats, hresult, hwithin⟩ :=
      limitFreqInfo_of_active arith diffTimeMs (s := s) rfl htgt
    have hlimits := (hwithin.mp h).2
    rw [hresult]
    split
    · exact hs
    · rename_i hbeaten
      exact setLimits_updated (hlimits hbeaten) hs
  · rw [(limitFreqInfo_of_not_active (not_exists.mp hactive)).1]
    exact hs

/-- The last loop comes to every worker that has no limits yet. -/
lemma within_clearLimits {updated : ℕ → Bool} :
    (each (clearLimit updated) (List.range nprocs) shm).Within Safe ↔
      ∀ vpid ∈ List.range nprocs, updated vpid = false → vpid ≤ maxVpid := by
  apply within_each_iff_forall
  intro shm vpid
  unfold clearLimit
  by_cases hupdated : updated vpid
  · simp [hupdated]
  · simp [hupdated]

/-- The loop over the freq infos, when there are not too many processes. -/
lemma within_limitFreqInfos (hprocs : nprocs ≤ maxVpid + 1) {infos : List FreqInfo} :
    (each (limitFreqInfo arith nprocs config stores queues diffTimeMs) infos { shm }).Within Safe ↔
      ∀ pre info post, infos = pre ++ info :: post →
        InfoOk arith nprocs config stores queues diffTimeMs shm pre info := by
  apply within_each_iff (I := Compared arith nprocs config stores queues diffTimeMs shm)
  · exact fun pre s info hs => hs.step info
  · exact fun pre s info hs => within_limitFreqInfo hprocs hs info
  · refine ⟨rfl, fun key x => ?_⟩
    simp [beaten]

/-- **When an update of the limits is within bounds**: there are no more processes than the arrays have
room for, and every freq info is in order. -/
theorem within_updateLimitInfo_iff {env : LimitEnv} :
    (updateLimitInfo arith nprocs env shm).Within Safe ↔
      ∀ config stores queues, env.config = .ok config → env.stores = .ok stores →
        env.queues = .ok queues → queues.length = nprocs → nprocs ≤ maxVpid + 1 ∧
          ∀ pre info post, config.freqInfos = pre ++ info :: post →
            InfoOk arith nprocs config stores queues env.diffTimeMs shm pre info := by
  unfold updateLimitInfo
  cases env.config with
  | error ret => simp
  | ok config =>
    cases env.stores with
    | error ret => simp
    | ok stores =>
      cases env.queues with
      | error ret => simp
      | ok queues =>
        dsimp only
        by_cases hlen : queues.length = nprocs
        · rw [if_neg (not_not.mpr hlen), within_bind, within_bind]
          constructor
          · rintro ⟨hinfos, hclear, -⟩ _ _ _ ⟨⟩ ⟨⟩ ⟨⟩ _
            have hupdated := each_keeps
              (I := fun s : Limiting F => ∀ vpid, s.updated vpid = true → vpid ≤ maxVpid)
              (fun s info hwithin hs => limitFreqInfo_updated hwithin hs) hinfos
              (fun vpid h => absurd h Bool.false_ne_true)
            have hprocs : nprocs ≤ maxVpid + 1 := by
              -- else the worker after the last of the arrays has its limits set or cleared
              by_contra hlarge
              have hlast := within_clearLimits.mp hclear (maxVpid + 1) (List.mem_range.mpr (by omega))
              have hle := (Bool.eq_false_or_eq_true _).elim (hupdated (maxVpid + 1)) hlast
              omega
            exact ⟨hprocs, (within_limitFreqInfos hprocs).mp hinfos⟩
          · intro h
            obtain ⟨hprocs, hinfos⟩ := h config stores queues rfl rfl rfl hlen
            refine ⟨(within_limitFreqInfos hprocs).mpr hinfos, ?_, within_pure _⟩
            refine within_clearLimits.mpr fun vpid hvpid _ => ?_
            have := List.mem_range.mp hvpid
            omega
        · rw [if_pos hlen]
          refine iff_of_true (within_pure _) ?_
          rintro _ _ _ _ _ ⟨⟩ h
          exact absurd h hlen

/-! ## Runs -/

variable (arith nprocs)

def EventOk (s : State) : Event → Prop
  | .fork _ => True
  | .updateConsumeStat vpid config _ _ =>
    ∀ c, config = some c → vpid ≤ maxVpid → s.lastModTime vpid ≠ c.lastModTime →
      c.handleIds.length ≤ maxHandleIdNum + 1
  | .judge _ => True
  | .updateLimitInfo env =>
    ∀ config stores queues, env.config = .ok config → env.stores = .ok stores →
      env.queues = .ok queues → queues.length = nprocs → nprocs ≤ maxVpid + 1 ∧
        ∀ pre info post, config.freqInfos = pre ++ info :: post →
          InfoOk arith nprocs config stores queues env.diffTimeMs s.shm pre info
  | .clearAllConsumeStat config =>
    ∀ c, config = some c → 0 < nprocs →
      nprocs ≤ maxVpid + 1 ∧ c.handleIds.length ≤ maxHandleIdNum + 1

lemma within_step_iff {s : State} {event : Event} :
    (step arith nprocs s event).Within Safe ↔ EventOk arith nprocs s event := by
  cases event with
  | fork vpid => exact iff_of_true (within_pure _) trivial
  | updateConsumeStat vpid config g items => exact within_updateConsumeStat_iff
  | judge vpid => exact iff_of_true ((within_bind _ _).mpr ⟨within_judge, within_pure _⟩) trivial
  | updateLimitInfo env =>
    unfold step
    rw [within_bind, and_iff_left (within_pure _)]
    exact within_updateLimitInfo_iff
  | clearAllConsumeStat config => exact within_clearAllConsumeStat_iff

/-- **A run is within bounds exactly when each of its operations is, from the state it finds.** -/
theorem freqman_within_iff (s : State) (events : List Event) :
    (each (step arith nprocs) events s).Within Safe ↔
      ∀ pre event post, events = pre ++ event :: post →
        EventOk arith nprocs (each (step arith nprocs) pre s).result event := by
  apply within_each_iff (I := fun pre t => t = (each (step arith nprocs) pre s).result)
  · rintro pre t event rfl
    rw [result_each, result_each, List.foldl_append]
    rfl
  · rintro pre t event rfl
    exact within_step_iff arith nprocs
  · rfl

end

/-- A topic with one queue, and a limit for all its handles together. -/
def allHandles (handleIds : List ℤ) : FreqConfig where
  topic := {
    pubs := [⟨1, [1], [1]⟩]
    queueInfos := [⟨1, [(0, 0)], false, 1⟩]
    itemsByteSizeLimit := 100 }
  handleIds := handleIds
  freqInfos := [{ pubId := 1, consumerGroupId := 1, limitPerMin := 60, queueInfoId := 1 }]
  lastModTime := 1

/-- With more handle ids than ranks a worker that starts counting clears beyond its ranks. -/
lemma allHandles_not_within_of_lt {handleIds : List ℤ} (h : maxHandleIdNum + 1 < handleIds.length) :
    ¬ (each (step ratArith 1) [.updateConsumeStat 0 (some (allHandles handleIds)) 1 []] {}).Within
      Safe := by
  intro hwithin
  have hcount := ((within_bind _ _).mp hwithin).1
  have hlen := within_updateConsumeStat_iff.mp hcount _ rfl (by decide)
    (show 0 ≠ 1 by decide)
  exact absurd h (not_lt.mpr hlen)

/-- **Counterexample.**  The limit is set with the rank -1; and a worker clears more ranks than there
are when the topic has 1002 handle ids. -/
theorem allHandles_not_within :
    ¬ (each (step ratArith 1) [.updateLimitInfo {
      config := .ok (allHandles [7])
      stores := .ok [⟨1, [1]⟩]
      queues := .ok [some ⟨1, 1, 0⟩]
      diffTimeMs := 5000 }] {}).Within Safe ∧
    ¬ (each (step ratArith 1) [.updateConsumeStat 0
      (some (allHandles ((List.range 1002).map Int.ofNat))) 1 []] {}).Within Safe := by
  constructor
  · decide
  · apply allHandles_not_within_of_lt
    rw [List.length_map, List.length_range]
    decide

end PhxQueue.Consumer.FreqMan
