import PhxQueue.Store.Retention
import PhxQueue.Store.Steps

/-!
# The checkpoint of a store

At the end of a round `MakeCheckPoint` dumps a checkpoint just below the least head it has found.
Between looking at two queues instances are executed, so a queue found empty may by then hold an
instance below that head.

* `CheckpointSafe`       the checkpoint is below the metas, below what has not been executed, and
                         below what has not been acknowledged;
* `NeverDecreases`       checkpoints grow along a run;
* `checkpointSafe_iff`   **a run is safe throughout if and only if no round that dumps has been
                         overtaken**;
* `overtakenRound_not_checkpointSafe`   a round that has.
-/

set_option linter.unusedSectionVars false

namespace PhxQueue.Store
open Comm Lib Config

section
variable (cfg : StoreConfig)

/-- The checkpoint, if there is one, is smaller than every meta, than every instance not yet
executed, and than every instance with items that not all consumer groups have acknowledged. -/
def CheckpointSafe (w : World) : Prop :=
  w.store.checkPoint ≠ uint64Max →
    (∀ q ∈ cfg.queues, ∀ m ∈ w.store.metas q, w.store.checkPoint < m) ∧
    (∀ i, w.store.now ≤ i → w.store.checkPoint < i) ∧
    ∀ q i, itemsOf w.log q i ≠ [] → ¬ AckedByAll cfg w.store.sync q i → w.store.checkPoint < i

/-- Along the run no checkpoint is replaced by a smaller one, or by none. -/
def NeverDecreases (es : List Event) : Prop :=
  ∀ n m, n ≤ m → level ((store cfg).exec (store cfg).init (es.take n)).store.checkPoint ≤
    level ((store cfg).exec (store cfg).init (es.take m)).store.checkPoint

def World.NotOvertaken (w : World) : Event → Prop
  | .choose _ => True
  | .store e => Store.NotOvertaken w.store e

instance (w : World) : ∀ e, Decidable (w.NotOvertaken e)
  | .choose _ => inferInstanceAs (Decidable True)
  | .store e => inferInstanceAs (Decidable (Store.NotOvertaken w.store e))

structure World.Inv (w : World) : Prop where
  log : LogOk cfg w.log
  store : w.store.Inv cfg w.log

variable {cfg} {w : World}

lemma World.Inv.init : (Store.store cfg).init.Inv cfg := by
  have hmax : 0 < uint64Max := by decide
  exact ⟨⟨fun _ hb => (nomatch hb), hmax⟩, Replica.Inv.init⟩

theorem World.Inv.step (h : w.Inv cfg) {e : Event} (hok : w.NotOvertaken e) :
    (w.step cfg e).Inv cfg := by
  cases e with
  | choose batch =>
    dsimp only [World.step]
    split
    · rename_i hb
      exact ⟨h.log.append hb.1 hb.2, h.store.append batch⟩
    · exact h
  | store e => exact ⟨h.log, h.store.step h.log hok⟩

lemma World.Inv.checkpointSafe (h : w.Inv cfg) : CheckpointSafe cfg w := by
  intro hne
  have hlt : ∀ {i}, level w.store.checkPoint ≤ i → w.store.checkPoint < i :=
    fun hle => lt_of_level_le hne hle
  refine ⟨fun q hq m hm => hlt (h.store.cp_le_metas q hq m hm),
    fun i hi => hlt (h.store.cp_le_now.trans hi), fun q i hitems hack => hlt ?_⟩
  by_contra hn
  exact hack (h.store.acked_of_lt_cp h.log (not_le.mp hn) hitems)

/-! ## Dumps -/

/-- Only `DumpCheckPoint` writes the checkpoint, and it never lowers it. -/
lemma level_checkPoint_step (log : Log) (s : Replica) (e : StoreEvent) :
    level s.checkPoint ≤ level (s.step cfg log e).checkPoint := by
  by_cases he : e = .execute
  · subst he
    dsimp only [Replica.step, Replica.executeStep]
    repeat' split
    all_goals exact le_rfl
  by_cases hk : e = .keepSync
  · subst hk
    have hdump : ∀ (r : CheckRound) (k : KeepSync), level s.checkPoint ≤
        level ({ s.dumpCheckPoint r.dumpCp with keepSync := k } : Replica).checkPoint := by
      intro r k
      show _ ≤ level (s.dumpCheckPoint r.dumpCp).checkPoint
      rw [level_dumpCheckPoint]
      exact le_max_left _ _
    dsimp only [Replica.step, Replica.keepSyncStep]
    split
    · exact le_rfl
    · dsimp only [Replica.roundStep]
      split
      · exact hdump _ _
      split
      · exact hdump _ _
      split
      · exact le_rfl
      split <;> exact le_rfl
    · exact le_rfl
    · split <;> exact le_rfl
    · exact le_rfl
  by_cases hr : e = .restart
  · subst hr
    exact le_rfl
  · obtain ⟨sync, minChosen, gets, k, hstep, _⟩ := @step_outside cfg log s e he hk hr
    rw [hstep]

lemma level_checkPoint_exec (w : World) (es : List Event) :
    level w.store.checkPoint ≤ level ((store cfg).exec w es).store.checkPoint := by
  induction es generalizing w with
  | nil => exact le_rfl
  | cons e es ih =>
    refine le_trans ?_ (ih _)
    cases e with
    | choose batch =>
      show _ ≤ level (w.step cfg (.choose batch)).store.checkPoint
      dsimp only [World.step]
      split <;> exact le_rfl
    | store e => exact level_checkPoint_step w.log w.store e

lemma neverDecreases (es : List Event) : NeverDecreases cfg es := by
  intro n m hnm
  have htake : es.take m = es.take n ++ (es.take m).drop n := by
    have h := List.take_append_drop n (es.take m)
    rw [List.take_take, min_eq_left hnm] at h
    exact h.symm
  rw [htake, Machine.exec_append]
  exact level_checkPoint_exec _ _

/-- An overtaken round dumps a checkpoint that has passed a meta. -/
lemma World.Inv.not_checkpointSafe (h : w.Inv cfg) {e : Event} (hbad : ¬ w.NotOvertaken e) :
    ¬ CheckpointSafe cfg (w.step cfg e) := by
  cases e with
  | choose batch => exact absurd trivial hbad
  | store e =>
    have hkeep : e = .keepSync := by
      cases e <;> first | rfl | exact absurd trivial hbad
    subst hkeep
    obtain ⟨r, hround, hend, q, hq, m, hm, hfronts⟩ : ∃ r, w.store.keepSync = .checkPoint r ∧
        (r.queues = [] ∨ r.finish) ∧ ∃ q ∈ r.emptied, ∃ m ∈ w.store.metas q,
          ¬ (r.fronts = [] ∨ ∃ f ∈ r.fronts, f ≤ m) := by
      by_contra hno
      refine hbad fun r hr hend q hq m hm => ?_
      by_contra hf
      refine hno ⟨r, ?_, hend, q, hq, m, hm, hf⟩
      cases hk : w.store.keepSync with
      | checkPoint r' =>
        rw [hk] at hr
        cases hr
        rfl
      | idle | sync _ _ | replay _ _ _ _ =>
        rw [hk] at hr
        cases hr
    have hr := h.store.keepSync
    rw [hround] at hr
    obtain ⟨hne, hall⟩ := not_or.mp hfronts
    have hmle : ∀ f ∈ r.fronts, m < f := fun f hf => not_le.mp fun hle => hall ⟨f, hf, hle⟩
    have hlevel : level r.dumpCp ∈ r.fronts := by
      rcases hr.level_dumpCp (h.store.now_le.trans_lt h.log.length_lt) with
        ⟨_, hnil, _⟩ | ⟨_, hmem, _⟩ | ⟨_, hmem, hl⟩
      · exact absurd hnil hne
      · exact hmem
      · rwa [hl]
    have hstep : (w.step cfg (.store .keepSync)).store =
        { w.store.dumpCheckPoint r.dumpCp with keepSync := .idle } := by
      show w.store.keepSyncStep cfg = _
      unfold Replica.keepSyncStep
      rw [hround]
      dsimp only [Replica.roundStep]
      split
      · rfl
      · rename_i hcons
        rcases hend with hnil | hfin
        · rw [hnil] at hcons
          cases hcons
        · rw [if_pos hfin]
    intro hsafe
    have hcp : level r.dumpCp ≤ level (w.step cfg (.store .keepSync)).store.checkPoint := by
      rw [hstep]
      show _ ≤ level (w.store.dumpCheckPoint r.dumpCp).checkPoint
      rw [level_dumpCheckPoint]
      exact le_max_right _ _
    have hlt := (hmle _ hlevel).trans_le hcp
    have hmetas : m ∈ (w.step cfg (.store .keepSync)).store.metas q := by
      rw [hstep]
      show m ∈ (w.store.dumpCheckPoint r.dumpCp).metas q
      rw [dumpCheckPoint_eq]
      exact hm
    have hcpm := (hsafe (ne_uint64Max_of_lt_level hlt)).1 q (hr.emptied q hq).1 m hmetas
    have := le_of_lt_level hlt
    omega

variable (cfg)

/-- **In a run the checkpoint is safe at every moment, and never decreases, if and only if no
round that dumps has been overtaken.** -/
theorem checkpointSafe_iff (es : List Event) :
    ((store cfg).Always (CheckpointSafe cfg) (store cfg).init es ∧ NeverDecreases cfg es) ↔
      (store cfg).Along World.NotOvertaken (store cfg).init es := by
  rw [and_iff_left (neverDecreases es)]
  have hP : ∀ w : World, w.Inv cfg → CheckpointSafe cfg w := fun _ h => h.checkpointSafe
  have hstep : ∀ (w : World) e, w.Inv cfg → w.NotOvertaken e → ((store cfg).step w e).Inv cfg :=
    fun _ _ h hok => h.step hok
  have hbad : ∀ (w : World) e, w.Inv cfg → ¬ w.NotOvertaken e →
      ¬ CheckpointSafe cfg ((store cfg).step w e) := fun _ _ h hn => h.not_checkpointSafe hn
  exact Machine.always_iff_along hP hstep hbad World.Inv.init es

end

/-! ## An overtaken round -/

/-- Two queues in one paxos group, consumed by one group. -/
def twoQueues : StoreConfig where
  topicId := 1
  topic := { pubs := [⟨1, [1], [1]⟩], queueInfos := [⟨1, [(0, 1)], false, 1⟩]
             itemsByteSizeLimit := 1024 }
  opt := ⟨2, 1, 1⟩
  paxosGroupId := 0
  pubIds := [1]

/-- An instance that adds one item to a queue is chosen and executed. -/
def addOne (queueId : ℕ) : List Event :=
  [.choose [{ addReq := some ⟨queueId, [{ topicId := 1, consumerGroupIds := 1 }]⟩ }],
    .store .execute, .store .execute, .store .execute]

/-- The part of a round that examines one queue. -/
def examine : List Event := [.store .keepSync, .store .keepSync, .store .keepSync]

/-- Queue 0 is empty when the round looks at it.  Then instance 0 adds to it and instance 1 to
queue 1, whose head makes the checkpoint 0. -/
def overtakenRound : List Event :=
  [.store .startRound] ++ examine ++ addOne 0 ++ addOne 1 ++ examine ++ [.store .keepSync]

theorem overtakenRound_not_checkpointSafe :
    ¬ ((store twoQueues).Always (CheckpointSafe twoQueues) (store twoQueues).init overtakenRound ∧
      NeverDecreases twoQueues overtakenRound) :=
  fun h => absurd ((h.1.last (by decide)).1 0 (by decide) 0 (by decide)) (by decide)

end PhxQueue.Store
