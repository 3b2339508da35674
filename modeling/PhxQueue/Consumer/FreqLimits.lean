import PhxQueue.Consumer.FreqBounds

/-!
# Which limits the workers get

`UpdateLimitInfo` goes over the freq infos and, for each of them, over the workers; a freq info that has
been handled less than one before it for the same publisher, group and queue info is passed over.

* `About`, `Strictest`    a freq info is about a worker, and is the one its kind is most behind with;
* `Decided`               what the freq infos so far have decided;
* `limited_iff`           **a worker is limited exactly when a freq info is about it, and by one that is
                          the strictest of its kind**.
-/

set_option linter.unusedSectionVars false

namespace PhxQueue.Consumer.FreqMan
open Comm PhxQueue.Config Lib Lib.Traced

deriving instance DecidableEq for Target

section
variable {F : Type} [LinearOrder F] (arith : Arith F) (nprocs : ℕ) (config : FreqConfig)
  (stores : ProtoStores) (queues : List (Option Slot)) (diffTimeMs : ℕ) (shm : Shm)

/-- The freq info passes the checks and the worker consumes a queue it is about. -/
def About (info : FreqInfo) (tgt : Target) (vpid : ℕ) : Prop :=
  target config stores info = some tgt ∧ vpid ∈ tgt.procs nprocs info queues

/-- What a freq info makes of the counts for one of its workers. -/
def limitOf (info : FreqInfo) (tgt : Target) (vpid : ℕ) : LimitInfo :=
  (arith.limitInfo info.limitPerMin (statsOf shm tgt.rank (tgt.procs nprocs info queues)).atLeastOne
    tgt.procTot diffTimeMs ((shm.consumeStats vpid).handleIdRank2nhandle tgt.rank)).atLeastOne

/-- Of the freq infos for the same publisher, group and queue info none has a higher percentage. -/
def Strictest (infos : List FreqInfo) (info : FreqInfo) (tgt : Target) : Prop :=
  ∀ i ∈ infos, i.key = info.key → ∀ tgt', Active nprocs config stores queues i tgt' →
    pctOf arith nprocs queues diffTimeMs shm i tgt' ≤ pctOf arith nprocs queues diffTimeMs shm info tgt

/-- What the freq infos `pre` have decided. -/
structure Decided (pre : List FreqInfo) (s : Limiting F) : Prop where
  compared : Compared arith nprocs config stores queues diffTimeMs shm pre s
  updated : ∀ info ∈ pre, ∀ tgt vpid, About nprocs config stores queues info tgt vpid →
    s.updated vpid = true
  limits : ∀ vpid, s.updated vpid = true → ∃ info ∈ pre, ∃ tgt,
    About nprocs config stores queues info tgt vpid ∧
    Strictest arith nprocs config stores queues diffTimeMs shm pre info tgt ∧
    s.shm.limitInfos vpid = limitOf arith nprocs queues diffTimeMs shm info tgt vpid
  others : ∀ vpid, s.updated vpid = false → s.shm.limitInfos vpid = shm.limitInfos vpid

variable {arith nprocs config stores queues diffTimeMs shm} {info info' : FreqInfo} {tgt tgt' : Target}
  {s : Limiting F} {pre : List FreqInfo} {vpid : ℕ}

/-! ## A freq info -/

lemma About.active (h : About nprocs config stores queues info tgt vpid) :
    Active nprocs config stores queues info tgt := ⟨h.1, List.ne_nil_of_mem h.2⟩

lemma target_ids (h : target config stores info = some tgt) :
    tgt.storeIds = validStoreIds config.topic stores info.pubId ∧
      tgt.queueIds = validQueueIds config.topic info.queueInfoId := by
  unfold target at h
  split at h
  · cases h
  split at h
  · cases h
  split at h
  · cases h
  dsimp only at h
  split at h
  · cases h
  split at h
  · cases h
  cases h
  exact ⟨rfl, rfl⟩

/-- Freq infos for the same publisher, group and queue info are about the same workers. -/
lemma About.congr (h : About nprocs config stores queues info tgt vpid)
    (htgt' : target config stores info' = some tgt') (hkey : info'.key = info.key) :
    About nprocs config stores queues info' tgt' vpid := by
  refine ⟨htgt', ?_⟩
  have hpub : info'.pubId = info.pubId := congrArg (fun k => k.1) hkey
  have hgroup : info'.consumerGroupId = info.consumerGroupId := congrArg (fun k => k.2.1) hkey
  have hqueueInfo : info'.queueInfoId = info.queueInfoId := congrArg (fun k => k.2.2) hkey
  obtain ⟨hstores, hqueues⟩ := target_ids h.1
  obtain ⟨hstores', hqueues'⟩ := target_ids htgt'
  have hmatches : tgt'.matches info' queues vpid = tgt.matches info queues vpid := by
    unfold Target.matches
    rw [hstores, hqueues, hstores', hqueues', hpub, hgroup, hqueueInfo]
  have hmem := mem_procs.mp h.2
  rw [← hmatches] at hmem
  exact mem_procs.mpr hmem

lemma setLimits_result (stats : Stats) (vpid : ℕ) :
    (setLimits arith nprocs tgt info queues stats diffTimeMs s).result.updated vpid =
      (if vpid ∈ tgt.procs nprocs info queues then true else s.updated vpid) ∧
    (setLimits arith nprocs tgt info queues stats diffTimeMs s).result.shm.limitInfos vpid =
      (if vpid ∈ tgt.procs nprocs info queues then
        (arith.limitInfo info.limitPerMin stats tgt.procTot diffTimeMs
          ((s.shm.consumeStats vpid).handleIdRank2nhandle tgt.rank)).atLeastOne
      else s.shm.limitInfos vpid) := by
  unfold setLimits Target.procs
  rw [result_each]
  generalize List.range nprocs = vpids
  induction vpids generalizing s with
  | nil => exact ⟨rfl, rfl⟩
  | cons v vpids ih =>
    rw [List.foldl_cons]
    obtain ⟨hupdated, hlimits⟩ := ih (s := (setLimit arith tgt info queues stats diffTimeMs s v).result)
    rw [hupdated, hlimits]
    unfold setLimit
    by_cases hmatch : tgt.matches info queues v
    · rw [if_pos hmatch, List.filter_cons_of_pos hmatch]
      by_cases hv : vpid = v
      · subst hv
        simp [Shm.setLimitInfo]
      · simp [Shm.setLimitInfo, hv]
    · rw [if_neg hmatch, List.filter_cons_of_neg hmatch]
      exact ⟨rfl, rfl⟩

/-- An active freq info sets the limits of its workers, unless it is beaten. -/
lemma limitFreqInfo_result (hstats : s.shm.consumeStats = shm.consumeStats)
    (h : Active nprocs config stores queues info tgt) :
    (limitFreqInfo arith nprocs config stores queues diffTimeMs s info).result =
      if beaten s info.key (pctOf arith nprocs queues diffTimeMs shm info tgt) then s
      else (setLimits arith nprocs tgt info queues
        (statsOf shm tgt.rank (tgt.procs nprocs info queues)).atLeastOne diffTimeMs
        (s.record info.key (pctOf arith nprocs queues diffTimeMs shm info tgt))).result := by
  obtain ⟨htgt, hprocs⟩ := h
  have hresult : (statistics nprocs tgt info queues s.shm).result =
      statsOf shm tgt.rank (tgt.procs nprocs info queues) := by
    rw [statistics_result, statsOf_congr hstats]
  have hused : (statsOf shm tgt.rank (tgt.procs nprocs info queues)).procUsed ≠ 0 := by
    rw [Ne, statsOf_procUsed]
    exact hprocs
  unfold limitFreqInfo pctOf
  rw [htgt]
  dsimp only
  rw [result_bind, hresult, if_neg hused]
  split <;> rfl

lemma Strictest.append (h : Strictest arith nprocs config stores queues diffTimeMs shm pre info tgt)
    (hnew : info'.key = info.key → ∀ tgt', Active nprocs config stores queues info' tgt' →
      pctOf arith nprocs queues diffTimeMs shm info' tgt' ≤
        pctOf arith nprocs queues diffTimeMs shm info tgt) :
    Strictest arith nprocs config stores queues diffTimeMs shm (pre ++ [info']) info tgt := by
  intro i hi
  rcases List.mem_append.mp hi with hi | hi
  · exact h i hi
  · rw [List.mem_singleton.mp hi]
    exact hnew

lemma Active.unique (h : Active nprocs config stores queues info tgt)
    (h' : Active nprocs config stores queues info tgt') : tgt' = tgt :=
  Option.some.inj (h'.1.symm.trans h.1)

lemma Decided.pass (hs : Decided arith nprocs config stores queues diffTimeMs shm pre s)
    (hcompared : Compared arith nprocs config stores queues diffTimeMs shm (pre ++ [info]) s)
    (hbefore : ∀ tgt, Active nprocs config stores queues info tgt → ∃ i ∈ pre, i.key = info.key ∧
      ∃ tgt', Active nprocs config stores queues i tgt' ∧
        pctOf arith nprocs queues diffTimeMs shm info tgt <
          pctOf arith nprocs queues diffTimeMs shm i tgt') :
    Decided arith nprocs config stores queues diffTimeMs shm (pre ++ [info]) s where
  compared := hcompared
  updated := by
    intro i hi tgt vpid habout
    rcases List.mem_append.mp hi with hi | hi
    · exact hs.updated i hi tgt vpid habout
    · rw [List.mem_singleton.mp hi] at habout
      obtain ⟨i', hi', hkey, tgt', hactive, -⟩ := hbefore tgt habout.active
      exact hs.updated i' hi' tgt' vpid (habout.congr hactive.1 hkey)
  limits := by
    intro vpid hvpid
    obtain ⟨i, hi, tgt, habout, hstrict, hlimit⟩ := hs.limits vpid hvpid
    refine ⟨i, List.mem_append_left _ hi, tgt, habout, hstrict.append fun hkey tgt' hactive => ?_, hlimit⟩
    obtain ⟨i', hi', hkey', tgt'', hactive', hlt⟩ := hbefore tgt' hactive
    exact hlt.le.trans (hstrict i' hi' (hkey'.trans hkey) tgt'' hactive')
  others := hs.others

lemma Decided.set (hs : Decided arith nprocs config stores queues diffTimeMs shm pre s)
    (hactive : Active nprocs config stores queues info tgt)
    (hbeaten : ¬ beaten s info.key (pctOf arith nprocs queues diffTimeMs shm info tgt))
    {s' : Limiting F}
    (hs' : s' = (setLimits arith nprocs tgt info queues
      (statsOf shm tgt.rank (tgt.procs nprocs info queues)).atLeastOne diffTimeMs
      (s.record info.key (pctOf arith nprocs queues diffTimeMs shm info tgt))).result)
    (hcompared : Compared arith nprocs config stores queues diffTimeMs shm (pre ++ [info]) s') :
    Decided arith nprocs config stores queues diffTimeMs shm (pre ++ [info]) s' := by
  have hresult (vpid : ℕ) : s'.updated vpid =
        (if vpid ∈ tgt.procs nprocs info queues then true else s.updated vpid) ∧
      s'.shm.limitInfos vpid = (if vpid ∈ tgt.procs nprocs info queues then
        limitOf arith nprocs queues diffTimeMs shm info tgt vpid else s.shm.limitInfos vpid) := by
    have h := @setLimits_result _ _ arith nprocs queues diffTimeMs info tgt
      (s.record info.key (pctOf arith nprocs queues diffTimeMs shm info tgt))
      (statsOf shm tgt.rank (tgt.procs nprocs info queues)).atLeastOne vpid
    have hstats : (s.record info.key (pctOf arith nprocs queues diffTimeMs shm info
        tgt)).shm.consumeStats = shm.consumeStats := hs.compared.stats
    rw [← hs', hstats] at h
    exact h
  refine ⟨hcompared, ?_, ?_, ?_⟩
  · intro i hi tgt' vpid habout
    rw [(hresult vpid).1]
    split
    · rfl
    · rename_i hnot
      rcases List.mem_append.mp hi with hi | hi
      · exact hs.updated i hi tgt' vpid habout
      · rw [List.mem_singleton.mp hi] at habout
        rw [hactive.unique habout.active] at habout
        exact absurd habout.2 hnot
  · intro vpid hvpid
    rw [(hresult vpid).2]
    rw [(hresult vpid).1] at hvpid
    by_cases hmem : vpid ∈ tgt.procs nprocs info queues
    · rw [if_pos hmem]
      refine ⟨info, List.mem_append_right _ (List.mem_singleton_self info), tgt, ⟨hactive.1, hmem⟩,
        ?_, rfl⟩
      intro i hi hkey tgt' hactive'
      rcases List.mem_append.mp hi with hi | hi
      · by_contra hlt
        exact hbeaten ((hs.compared.beaten_iff _ _).mpr ⟨i, hi, hkey, tgt', hactive', not_le.mp hlt⟩)
      · rw [List.mem_singleton.mp hi] at hactive' ⊢
        rw [hactive.unique hactive']
    · rw [if_neg hmem] at hvpid ⊢
      obtain ⟨i, hi, tgt', habout, hstrict, hlimit⟩ := hs.limits vpid hvpid
      refine ⟨i, List.mem_append_left _ hi, tgt', habout, hstrict.append fun hkey => ?_, hlimit⟩
      -- one of the same kind would be about this worker too
      exact absurd (habout.congr hactive.1 hkey).2 hmem
  · intro vpid hvpid
    rw [(hresult vpid).2]
    rw [(hresult vpid).1] at hvpid
    by_cases hmem : vpid ∈ tgt.procs nprocs info queues
    · rw [if_pos hmem] at hvpid
      cases hvpid
    · rw [if_neg hmem] at hvpid ⊢
      exact hs.others vpid hvpid

theorem Decided.step (hs : Decided arith nprocs config stores queues diffTimeMs shm pre s)
    (info : FreqInfo) : Decided arith nprocs config stores queues diffTimeMs shm (pre ++ [info])
      (limitFreqInfo arith nprocs config stores queues diffTimeMs s info).result := by
  have hcompared := hs.compared.step info
  by_cases hactive : ∃ tgt, Active nprocs config stores queues info tgt
  · obtain ⟨tgt, htgt⟩ := hactive
    have hresult := @limitFreqInfo_result _ _ arith _ _ _ _ diffTimeMs _ _ _ _ hs.compared.stats htgt
    by_cases hbeaten : beaten s info.key (pctOf arith nprocs queues diffTimeMs shm info tgt)
    · rw [if_pos hbeaten] at hresult
      rw [hresult] at hcompared ⊢
      refine hs.pass hcompared fun tgt' htgt' => ?_
      rw [htgt.unique htgt']
      exact (hs.compared.beaten_iff _ _).mp hbeaten
    · rw [if_neg hbeaten] at hresult
      exact hs.set htgt hbeaten hresult hcompared
  · have hnone := not_exists.mp hactive
    rw [(limitFreqInfo_of_not_active hnone).1] at hcompared ⊢
    exact hs.pass hcompared fun tgt htgt => absurd htgt (hnone tgt)

lemma decided_each (infos : List FreqInfo) :
    Decided arith nprocs config stores queues diffTimeMs shm infos
      (each (limitFreqInfo arith nprocs config stores queues diffTimeMs) infos { shm }).result := by
  rw [result_each]
  induction infos using List.reverseRecOn with
  | nil =>
    refine ⟨⟨rfl, fun key x => ?_⟩, fun i hi => absurd hi List.not_mem_nil,
      fun vpid h => absurd h Bool.false_ne_true, fun _ _ => rfl⟩
    simp [beaten]
  | append_singleton infos info ih =>
    rw [List.foldl_append]
    exact ih.step info

lemma clearLimits_result (updated : ℕ → Bool) (vpids : List ℕ) (shm : Shm) (vpid : ℕ) :
    (each (clearLimit updated) vpids shm).result.limitInfos vpid =
      if vpid ∈ vpids ∧ updated vpid = false then {} else shm.limitInfos vpid := by
  rw [result_each]
  induction vpids generalizing shm with
  | nil => simp
  | cons v vpids ih =>
    rw [List.foldl_cons, ih]
    unfold clearLimit
    by_cases hv : vpid = v
    · subst hv
      cases updated vpid <;> simp [Shm.setLimitInfo]
    · cases updated v <;> simp [Shm.setLimitInfo, hv]

end

/-- **A worker is limited exactly when a freq info is about it**, and by one that is the strictest of its
kind: after an update of the limits that succeeds, whatever the limits were before. -/
theorem limited_iff {F : Type} [LinearOrder F] (arith : Arith F)
    (config : FreqConfig) (stores : ProtoStores) (queues : List (Option Slot)) (diffTimeMs : ℕ)
    (shm : Shm) (hprocs : queues.length ≤ maxVpid + 1) (vpid : ℕ) (hvpid : vpid < queues.length) :
    let nprocs := queues.length
    let shm' := (updateLimitInfo arith nprocs ⟨.ok config, .ok stores, .ok queues, diffTimeMs⟩
      shm).result.1
    ((judge vpid shm').result.needFreqlimit = true ↔
      ∃ info ∈ config.freqInfos, ∃ tgt, About nprocs config stores queues info tgt vpid) ∧
    ((judge vpid shm').result.needFreqlimit = true → ∃ info ∈ config.freqInfos, ∃ tgt,
      About nprocs config stores queues info tgt vpid ∧
      Strictest arith nprocs config stores queues diffTimeMs shm config.freqInfos info tgt ∧
      shm'.limitInfos vpid = limitOf arith nprocs queues diffTimeMs shm info tgt vpid) := by
  intro nprocs shm'
  have hd : Decided arith nprocs config stores queues diffTimeMs shm config.freqInfos
      (each (limitFreqInfo arith nprocs config stores queues diffTimeMs) config.freqInfos
        { shm }).result := decided_each config.freqInfos
  generalize hs : (each (limitFreqInfo arith nprocs config stores queues diffTimeMs)
    config.freqInfos { shm }).result = s at hd
  have hshm : shm'.limitInfos vpid =
      if s.updated vpid = false then {} else s.shm.limitInfos vpid := by
    have hlast : shm' = (each (clearLimit s.updated) (List.range nprocs) s.shm).result := by
      show (updateLimitInfo arith nprocs _ shm).result.1 = _
      unfold updateLimitInfo
      dsimp only
      rw [if_neg (not_not.mpr rfl), result_bind, result_bind, hs]
      rfl
    have hmem : vpid ∈ List.range nprocs := List.mem_range.mpr hvpid
    rw [hlast, clearLimits_result]
    simp only [hmem, true_and]
  have hjudge : (judge vpid shm').result.needFreqlimit = true ↔
      (shm'.limitInfos vpid).nhandleLimit ≠ 0 := by
    unfold judge
    rw [if_neg (by omega), result_bind, result_bind]
    dsimp only
    by_cases hzero : (shm'.limitInfos vpid).nhandleLimit = 0
    · rw [if_pos hzero]
      exact iff_of_false Bool.false_ne_true (absurd hzero)
    · rw [if_neg hzero]
      exact iff_of_true rfl hzero
  have hlimited : (judge vpid shm').result.needFreqlimit = true → ∃ info ∈ config.freqInfos, ∃ tgt,
      About nprocs config stores queues info tgt vpid ∧
      Strictest arith nprocs config stores queues diffTimeMs shm config.freqInfos info tgt ∧
      shm'.limitInfos vpid = limitOf arith nprocs queues diffTimeMs shm info tgt vpid := by
    intro h
    rw [hjudge, hshm] at h
    cases hupdated : s.updated vpid with
    | false =>
      rw [if_pos hupdated] at h
      exact absurd rfl h
    | true =>
      rw [hshm, hupdated]
      exact hd.limits vpid hupdated
  refine ⟨⟨fun h => ?_, ?_⟩, hlimited⟩
  · obtain ⟨info, hinfo, tgt, habout, -⟩ := hlimited h
    exact ⟨info, hinfo, tgt, habout⟩
  · rintro ⟨info, hinfo, tgt, habout⟩
    have hupdated := hd.updated info hinfo tgt vpid habout
    obtain ⟨i, -, tgt', -, -, hlimit⟩ := hd.limits vpid hupdated
    rw [hjudge, hshm, hupdated, if_neg (by decide), hlimit]
    exact LimitInfo.atLeastOne_ne _

def twoLimits : FreqConfig where
  topic := {
    pubs := [⟨1, [1], [1]⟩]
    queueInfos := [⟨1, [(0, 0)], false, 1⟩]
    itemsByteSizeLimit := 100 }
  handleIds := [7, 8]
  freqInfos := [{ pubId := 1, consumerGroupId := 1, handleId := 7, limitPerMin := 60, queueInfoId := 1 },
    { pubId := 1, consumerGroupId := 1, handleId := 8, limitPerMin := 6, queueInfoId := 1 }]
  lastModTime := 1

/-- A worker that consumes the queue, and one that is free. -/
def twoWorkers : List (Option Slot) := [some ⟨1, 1, 0⟩, none]

theorem twoLimits_limited : (judge 0 (updateLimitInfo ratArith twoWorkers.length
    ⟨.ok twoLimits, .ok [⟨1, [1]⟩], .ok twoWorkers, 5000⟩ {}).result.1).result.needFreqlimit = true := by
  have hiff := (limited_iff ratArith twoLimits [⟨1, [1]⟩] twoWorkers 5000 {}
    (by decide) 0 (by decide)).1
  exact hiff.mpr ⟨_, List.mem_cons_self, ⟨0, [1], [0], 1⟩, by decide, by decide⟩

end PhxQueue.Consumer.FreqMan
