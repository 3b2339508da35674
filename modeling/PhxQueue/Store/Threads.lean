import PhxQueue.Store.Passes

/-!
# The threads of a store

Where a running `Get` comes from in a step, and what a step takes forward; from these an invariant
of the threads follows from what their own steps do to it.

* `ThreadStep`, `threads_step`   **a thread after a step** is an old one, has just started, has read
                       something, or has published a cursor;
* `Advances`, `advances_step`    without a restart the execution, the smallest instance and the
                       acknowledgements only go forward;
* `threads_keep`       the rule for invariants of the threads.
-/

set_option linter.unusedSectionVars false

namespace PhxQueue.Store
open Comm Lib Config

section
variable (cfg : StoreConfig) (log : Log) (s : Replica)

/-- What thread `n` has done in a step after which it is at `t`. -/
inductive ThreadStep (n : ℕ) (t : GetThread) : StoreEvent → Prop
  | same (e : StoreEvent) (before : s.gets n = some t) : ThreadStep n t e
  | starts (req : GetRequest) (valid : req.queueId ∈ cfg.queues ∧ cfg.topic.isValidQueue req.queueId)
      (start : startGet cfg s.sync req = .ok t) : ThreadStep n t (.startGet n req)
  | reads (timeUp : Bool) (u : GetThread) (before : s.gets n = some u)
      (reads : GetReads cfg log s u t) : ThreadStep n t (.get n timeUp)
  | publishes (timeUp : Bool) (u : GetThread) (before : s.gets n = some u) (phase : GetPhase)
      (order : (u.phase = .updatePrev ∧ phase = .updateNext) ∨
        (u.phase = .updateNext ∧ phase = .done))
      (after : t = { u with phase := phase }) : ThreadStep n t (.get n timeUp)

structure Advances (s s' : Replica) : Prop where
  now_le : s.now ≤ s'.now
  minChosen_le : s.minChosen ≤ s'.minChosen
  grows : Grows s.sync s'.sync

variable {cfg log s}

lemma Advances.refl (s : Replica) : Advances s s := ⟨le_rfl, le_rfl, Grows.refl _⟩

lemma Frame.advances {s' : Replica} (h : Frame s s') : Advances s s' := by
  refine ⟨h.now.ge, h.minChosen.ge, ?_⟩
  rw [h.sync]
  exact Grows.refl _

/-! ## Where threads come from -/

lemma ThreadStep.of_gets {s' : Replica} {n : ℕ} {t : GetThread} {e : StoreEvent}
    (hgets : s'.gets = s.gets) (ht : s'.gets n = some t) : ThreadStep cfg log s n t e := by
  rw [hgets] at ht
  exact .same e ht

/-- A `Get` starts from the client's cursors, or from what the group has acknowledged. -/
lemma startGet_cursors {sync : SyncCtrl} (hsync : SyncOk sync) {req : GetRequest} {t : GetThread}
    (h : startGet cfg sync req = .ok t) :
    level t.cliNext ≤ max (level req.nextCursorId) (sync req.queueId req.consumerGroupId).acked ∧
      level t.cliPrev ≤ max (level req.prevCursorId) (sync req.queueId req.consumerGroupId).acked := by
  have hstored : (sync req.queueId req.consumerGroupId).prev ≠ some uint64Max :=
    fun hp => (hsync _ _ _ hp).1 rfl
  unfold startGet at h
  split at h
  · cases h
  split at h
  · cases h
  dsimp only at h
  split at h
  · cases h
    exact ⟨le_max_left _ _, le_max_left _ _⟩
  split at h
  · rename_i p n hadj
    cases h
    obtain ⟨_, ⟨rfl, _, _, hp⟩ | ⟨hstored, rfl⟩⟩ := SyncCtrl.adjustNextCursorID_cases hstored hadj
    · refine ⟨le_max_left _ _, ?_⟩
      dsimp only
      rw [hp]
      apply max_le_max le_rfl
      cases hprev : (sync req.queueId req.consumerGroupId).prev with
      | none => exact Nat.zero_le _
      | some v => exact (hsync _ _ _ hprev).2
    · have hle := (hsync _ _ _ hstored).2
      exact ⟨hle.trans (le_max_right _ _), hle.trans (le_max_right _ _)⟩
  split at h
  · cases h
  · cases h
    dsimp only
    rw [level_uint64Max]
    exact ⟨Nat.zero_le _, Nat.zero_le _⟩

lemma gets_executeStep : (s.executeStep cfg log).gets = s.gets := by
  have hcases : ExecuteStep cfg log s (s.executeStep cfg log) := executeStep_cases
  generalize s.executeStep cfg log = s' at hcases
  cases hcases <;> rfl

lemma gets_keepSyncStep : (s.keepSyncStep cfg).gets = s.gets := by
  unfold Replica.keepSyncStep
  split
  · rfl
  · exact (frame_roundStep s _).gets
  · rfl
  · split <;> rfl
  · rfl

theorem threads_step {e : StoreEvent} {n : ℕ} {t : GetThread}
    (ht : (s.step cfg log e).gets n = some t) : ThreadStep cfg log s n t e := by
  cases e with
  | execute => exact .of_gets gets_executeStep ht
  | startGet m req =>
    dsimp only [Replica.step, Replica.startGetStep] at ht
    split at ht
    · exact .same _ ht
    split at ht
    · rename_i hvalid
      split at ht
      · exact .same _ ht
      · rename_i u hstart
        by_cases hn : n = m
        · subst hn
          rw [gets_setGet_self] at ht
          cases ht
          exact .starts req hvalid hstart
        · rw [gets_setGet_of_ne hn] at ht
          exact .same _ ht
    · exact .same _ ht
  | get m timeUp =>
    dsimp only [Replica.step] at ht
    cases hu : s.gets m with
    | none =>
      unfold Replica.getStep at ht
      rw [hu] at ht
      exact .same _ ht
    | some u =>
      have hcases := @getStep_cases cfg log s m u hu timeUp
      by_cases hn : n = m
      · subst hn
        generalize s.getStep cfg log n timeUp = s' at hcases ht
        cases hcases with
        | reads u' reads =>
          rw [gets_setGet_self] at ht
          cases ht
          exact .reads timeUp u hu reads
        | prev phase random prev sync update =>
          rw [gets_setGet_self] at ht
          cases ht
          exact .publishes timeUp u hu _ (.inl ⟨phase, rfl⟩) rfl
        | next phase next sync update =>
          rw [gets_setGet_self] at ht
          cases ht
          exact .publishes timeUp u hu _ (.inr ⟨phase, rfl⟩) rfl
        | fails phase range =>
          rw [gets_setGet_self] at ht
          cases ht
        | done phase => exact .same _ ht
      · have hother : s.gets n = some t := by
          generalize s.getStep cfg log m timeUp = s' at hcases ht
          cases hcases with
          | reads u' reads => rwa [gets_setGet_of_ne hn] at ht
          | prev phase random prev sync update => rwa [gets_setGet_of_ne hn] at ht
          | next phase next sync update => rwa [gets_setGet_of_ne hn] at ht
          | fails phase range => rwa [gets_setGet_of_ne hn] at ht
          | done phase => exact ht
        exact .same _ hother
  | endGet m =>
    have hold : (s.setGet m none).gets n = some t → s.gets n = some t := by
      intro h
      by_cases hn : n = m
      · subst hn
        rw [gets_setGet_self] at h
        cases h
      · rwa [gets_setGet_of_ne hn] at h
    dsimp only [Replica.step, Replica.endGet] at ht
    split at ht
    · exact .same _ ht
    split at ht
    · exact .same _ (hold ht)
    · exact .same _ (hold ht)
    · exact .same _ ht
  | startRound =>
    dsimp only [Replica.step] at ht
    split at ht <;> exact .same _ ht
  | startSync =>
    dsimp only [Replica.step] at ht
    split at ht <;> exact .same _ ht
  | startReplay q g r =>
    dsimp only [Replica.step, Replica.startReplay] at ht
    repeat' split at ht
    all_goals exact .same _ ht
  | keepSync => exact .of_gets gets_keepSyncStep ht
  | clear q g =>
    dsimp only [Replica.step] at ht
    repeat' split at ht
    all_goals exact .same _ ht
  | truncate m =>
    dsimp only [Replica.step] at ht
    split at ht <;> exact .same _ ht
  | restart => cases ht

/-! ## What goes forward -/

lemma advances_executeStep : Advances s (s.executeStep cfg log) := by
  have hcases : ExecuteStep cfg log s (s.executeStep cfg log) := executeStep_cases
  generalize s.executeStep cfg log = s' at hcases
  cases hcases with
  | advance now pos => exact ⟨Nat.le_succ _, le_rfl, Grows.refl _⟩
  | prev d ds applying sync update => exact ⟨le_rfl, le_rfl, updateCursorID_grows update⟩
  | next d ds applying sync update => exact ⟨le_rfl, le_rfl, updateCursorID_grows update⟩
  | idle | noAdd _ _ _ _ | add _ _ _ _ _ _ _ | skip _ | known _ _ _ _ _ _ | behind _ _ _
  | fails _ _ _ _ => exact ⟨le_rfl, le_rfl, Grows.refl _⟩

lemma advances_getStep (n : ℕ) (timeUp : Bool) : Advances s (s.getStep cfg log n timeUp) := by
  cases ht : s.gets n with
  | none =>
    have hstep : s.getStep cfg log n timeUp = s := by
      unfold Replica.getStep
      rw [ht]
    rw [hstep]
    exact Advances.refl s
  | some t =>
    have hcases := @getStep_cases cfg log s n t ht timeUp
    generalize s.getStep cfg log n timeUp = s' at hcases
    cases hcases with
    | prev phase random prev sync update => exact ⟨le_rfl, le_rfl, updateCursorID_grows update⟩
    | next phase next sync update => exact ⟨le_rfl, le_rfl, updateCursorID_grows update⟩
    | reads _ _ | fails _ _ | done _ => exact ⟨le_rfl, le_rfl, Grows.refl _⟩

lemma advances_keepSyncStep : Advances s (s.keepSyncStep cfg) := by
  unfold Replica.keepSyncStep
  split
  · exact Advances.refl s
  · exact (frame_roundStep s _).advances
  · exact ⟨le_rfl, le_rfl, Grows.refl _⟩
  · split <;> exact ⟨le_rfl, le_rfl, Grows.refl _⟩
  · rename_i q g r isPrev hk
    refine ⟨le_rfl, le_rfl, ?_⟩
    dsimp only
    cases hu : s.sync.updateCursorID cfg.opt g q r isPrev with
    | error e => exact Grows.refl _
    | ok sync => exact updateCursorID_grows hu

theorem advances_step (hsync : SyncOk s.sync) {e : StoreEvent} (he : e ≠ .restart) :
    Advances s (s.step cfg log e) := by
  cases e with
  | execute => exact advances_executeStep
  | startGet n req =>
    dsimp only [Replica.step, Replica.startGetStep]
    repeat' split
    all_goals exact ⟨le_rfl, le_rfl, Grows.refl _⟩
  | get n timeUp => exact advances_getStep n timeUp
  | endGet n =>
    dsimp only [Replica.step, Replica.endGet]
    repeat' split
    all_goals exact ⟨le_rfl, le_rfl, Grows.refl _⟩
  | startRound | startSync =>
    dsimp only [Replica.step]
    split <;> exact ⟨le_rfl, le_rfl, Grows.refl _⟩
  | startReplay q g r =>
    dsimp only [Replica.step, Replica.startReplay]
    repeat' split
    all_goals exact ⟨le_rfl, le_rfl, Grows.refl _⟩
  | keepSync => exact advances_keepSyncStep
  | clear q g =>
    dsimp only [Replica.step]
    split
    · split
      · exact Advances.refl s
      split
      · exact ⟨le_rfl, le_rfl, (@SyncOk.clearCursorID cfg _ hsync g q).1⟩
      · exact Advances.refl s
    · exact Advances.refl s
  | truncate m =>
    dsimp only [Replica.step]
    split
    · rename_i hm
      exact ⟨le_rfl, hm.1, Grows.refl _⟩
    · exact Advances.refl s
  | restart => exact absurd rfl he

/-! ## Invariants -/

/-- **An invariant of the threads** that is kept while the store goes forward, and by what a thread
does itself, is kept by every step. -/
theorem threads_keep {P : Replica → GetThread → Prop} (hsync : SyncOk s.sync) {e : StoreEvent}
    (h : ∀ n t, s.gets n = some t → P s t)
    (hmono : ∀ s' t, Advances s s' → P s t → P s' t)
    (hstart : ∀ req t, req.queueId ∈ cfg.queues ∧ cfg.topic.isValidQueue req.queueId →
      startGet cfg s.sync req = .ok t → P s t)
    (hreads : ∀ u t, P s u → GetReads cfg log s u t → P s t)
    (hpublish : ∀ u phase, P s u → (u.phase = .updatePrev ∧ phase = .updateNext) ∨
      (u.phase = .updateNext ∧ phase = .done) → P s { u with phase := phase }) :
    ∀ n t, (s.step cfg log e).gets n = some t → P (s.step cfg log e) t := by
  intro n t ht
  by_cases he : e = .restart
  · subst he
    cases ht
  have hP : P s t := by
    cases threads_step ht with
    | same _ before => exact h n t before
    | starts req valid start => exact hstart req t valid start
    | reads timeUp u before reads => exact hreads u t (h n u before) reads
    | publishes timeUp u before phase order after =>
      rw [after]
      exact hpublish u phase (h n u before) order
  exact hmono _ t (advances_step hsync he) hP

end

end PhxQueue.Store
