import PhxQueue.Store.Adding
import PhxQueue.Store.Sound
import PhxQueue.Store.Threads

/-!
# A rewind and the store around it

A replay sets the two cursors of a group back to an instance.  From then on the cursors are not to
pass an instance that has still to be returned, a round is not to erase one, and a `Get` has to find
each of them in the metas or below the checkpoint.

* `cursors_step`, `task_step`, `executed_step`, `mem_metas_step`   what one step does to the cursors
                       of a group, to the keep-sync thread, to the execution and to the metas;
* `Rewind`             a replay;
* `Spares`             a cursor passes none of the instances;
* `Kept`               each of them is in the metas or below a checkpoint;
* `Rewound`            what a store is to keep of a rewind;
* `Rewound.step`       **it does, as long as no cursor is written that passes one**.
-/

set_option linter.unusedSectionVars false

namespace PhxQueue.Store
open Comm Lib Config

section
variable {cfg : StoreConfig} {log : Log} {s : Replica}

/-! ## The cursors of a group -/

lemma cursors_written {sync : SyncCtrl} {q g q' g' c : ℕ} {isPrev : Bool}
    (hu : s.sync.updateCursorID cfg.opt g' q' c isPrev = .ok sync) :
    ((sync q g).prev = (s.sync q g).prev ∨ (q' = q ∧ g' = g ∧ (sync q g).prev = some c)) ∧
      ((sync q g).next = (s.sync q g).next ∨ (q' = q ∧ g' = g ∧ (sync q g).next = some c)) := by
  obtain ⟨_, rfl⟩ := SyncCtrl.updateCursorID_ok hu
  by_cases hs : q = q' ∧ g = g'
  · obtain ⟨rfl, rfl⟩ := hs
    rw [SyncCtrl.set_self]
    cases isPrev with
    | true => exact ⟨.inr ⟨rfl, rfl, rfl⟩, .inl rfl⟩
    | false => exact ⟨.inl rfl, .inr ⟨rfl, rfl, rfl⟩⟩
  · rw [SyncCtrl.set_of_ne hs]
    exact ⟨.inl rfl, .inl rfl⟩

/-- The cursors of a group that consumes the queue are those before, or one is what the step
writes. -/
def CursorsFrom (s s' : Replica) (e : StoreEvent) (q g : ℕ) : Prop :=
  ((s'.sync q g).prev = (s.sync q g).prev ∨
      ∃ c, cursorWritten s e = some (q, g, c) ∧ (s'.sync q g).prev = some c) ∧
    ((s'.sync q g).next = (s.sync q g).next ∨
      ∃ c, cursorWritten s e = some (q, g, c) ∧ (s'.sync q g).next = some c)

lemma CursorsFrom.of_sync {s' : Replica} {e : StoreEvent} {q g : ℕ} (h : s'.sync = s.sync) :
    CursorsFrom s s' e q g := by
  unfold CursorsFrom
  rw [h]
  exact ⟨.inl rfl, .inl rfl⟩

lemma CursorsFrom.of_update {sync : SyncCtrl} {s' : Replica} {e : StoreEvent} {q g q' g' c : ℕ}
    {isPrev : Bool} (hu : s.sync.updateCursorID cfg.opt g' q' c isPrev = .ok sync)
    (hs : s'.sync = sync) (hw : cursorWritten s e = some (q', g', c)) : CursorsFrom s s' e q g := by
  obtain ⟨hprev, hnext⟩ := @cursors_written cfg s sync q g q' g' c isPrev hu
  unfold CursorsFrom
  rw [hs]
  constructor
  · rcases hprev with heq | ⟨rfl, rfl, heq⟩
    · exact .inl heq
    · exact .inr ⟨c, hw, heq⟩
  · rcases hnext with heq | ⟨rfl, rfl, heq⟩
    · exact .inl heq
    · exact .inr ⟨c, hw, heq⟩

theorem cursors_step {q g : ℕ} (hc : cfg.isConsumer q g)
    (hk : ∀ r isPrev, s.keepSync ≠ .replay q g r isPrev) (e : StoreEvent) :
    CursorsFrom s (s.step cfg log e) e q g := by
  cases e with
  | execute =>
    have hcases : ExecuteStep cfg log s (s.step cfg log .execute) := executeStep_cases
    generalize s.step cfg log .execute = s' at hcases ⊢
    cases hcases with
    | prev d ds applying sync update =>
      refine .of_update update rfl ?_
      unfold cursorWritten
      rw [applying]
    | next d ds applying sync update =>
      refine .of_update update rfl ?_
      unfold cursorWritten
      rw [applying]
    | idle | advance _ _ | noAdd _ _ _ _ | add _ _ _ _ _ _ _ | skip _ | known _ _ _ _ _ _
    | behind _ _ _ | fails _ _ _ _ => exact .of_sync rfl
  | get n timeUp =>
    cases ht : s.gets n with
    | none =>
      refine .of_sync ?_
      show (s.getStep cfg log n timeUp).sync = s.sync
      unfold Replica.getStep
      rw [ht]
    | some t =>
      have hcases : GetStep cfg log s n t (s.step cfg log (.get n timeUp)) :=
        getStep_cases ht timeUp
      generalize s.step cfg log (.get n timeUp) = s' at hcases ⊢
      cases hcases with
      | prev phase random prev sync update =>
        refine .of_update update rfl ?_
        have hne : ¬ (t.req.random = true ∨ t.prev = uint64Max) := by
          rw [random]
          exact not_or.mpr ⟨Bool.false_ne_true, prev⟩
        dsimp only [cursorWritten]
        rw [ht]
        dsimp only
        rw [phase]
        dsimp only
        rw [if_neg hne]
      | next phase next sync update =>
        refine .of_update update rfl ?_
        dsimp only [cursorWritten]
        rw [ht]
        dsimp only
        rw [phase]
        dsimp only
        rw [if_neg next]
      | reads _ _ | fails _ _ | done _ => exact .of_sync rfl
  | keepSync =>
    by_cases hr : ∃ q' g' r isPrev, s.keepSync = .replay q' g' r isPrev
    · obtain ⟨q', g', r, isPrev, hr⟩ := hr
      have hother : ¬ (q' = q ∧ g' = g) := by
        rintro ⟨rfl, rfl⟩
        exact hk r isPrev hr
      have hsync : (s.step cfg log .keepSync).sync q g = s.sync q g := by
        dsimp only [Replica.step, Replica.keepSyncStep]
        rw [hr]
        dsimp only
        cases hu : s.sync.updateCursorID cfg.opt g' q' r isPrev with
        | error ret => rfl
        | ok sync =>
          obtain ⟨_, rfl⟩ := SyncCtrl.updateCursorID_ok hu
          exact SyncCtrl.set_of_ne (fun hs => hother ⟨hs.1.symm, hs.2.symm⟩) _
      unfold CursorsFrom
      rw [hsync]
      exact ⟨.inl rfl, .inl rfl⟩
    · refine .of_sync (frame_step (.inr (.inr rfl)) ?_).sync
      intro q' g' r isPrev hrep
      exact hr ⟨q', g', r, isPrev, hrep⟩
  | clear q' g' =>
    by_cases hs : q = q' ∧ g = g'
    · obtain ⟨rfl, rfl⟩ := hs
      refine .of_sync ?_
      dsimp only [Replica.step]
      rw [if_pos hc]
      split <;> rfl
    · have hsync : (s.step cfg log (.clear q' g')).sync q g = s.sync q g := by
        dsimp only [Replica.step]
        repeat' split
        · rfl
        · show s.sync.clearCursorID cfg.opt g' q' q g = _
          unfold SyncCtrl.clearCursorID
          split
          · exact SyncCtrl.set_of_ne hs _
          · rfl
        · rfl
        · rfl
      unfold CursorsFrom
      rw [hsync]
      exact ⟨.inl rfl, .inl rfl⟩
  | startGet n req =>
    refine .of_sync ?_
    dsimp only [Replica.step, Replica.startGetStep]
    repeat' split
    all_goals rfl
  | endGet n =>
    refine .of_sync ?_
    dsimp only [Replica.step, Replica.endGet]
    repeat' split
    all_goals rfl
  | startRound | startSync =>
    refine .of_sync ?_
    dsimp only [Replica.step]
    split <;> rfl
  | startReplay q' g' r =>
    refine .of_sync ?_
    dsimp only [Replica.step, Replica.startReplay]
    repeat' split
    all_goals rfl
  | truncate m =>
    refine .of_sync ?_
    dsimp only [Replica.step]
    split <;> rfl
  | restart => exact .of_sync rfl

/-! ## The keep-sync thread -/

variable (cfg s) in
/-- What the keep-sync thread is at after a step. -/
inductive TaskStep : StoreEvent → KeepSync → Prop
  | same (e : StoreEvent) : TaskStep e s.keepSync
  | idle (e : StoreEvent) : TaskStep e .idle
  | startRound : TaskStep .startRound (.checkPoint (s.startRound cfg))
  | sync (e : StoreEvent) (todo : List (ℕ × ℕ)) (details : List SyncDetail) :
      TaskStep e (.sync todo details)
  | readCursor (r : CheckRound) (q g : ℕ) (qs gs : List ℕ) (round : s.keepSync = .checkPoint r)
      (queues : r.queues = q :: qs) (groups : r.groups = g :: gs) :
      TaskStep .keepSync (.checkPoint { s.readCursor cfg r q g with groups := gs })
  | updateMetas (r : CheckRound) (q : ℕ) (qs : List ℕ) (round : s.keepSync = .checkPoint r)
      (queues : r.queues = q :: qs) (groups : r.groups = []) :
      TaskStep .keepSync (.checkPoint { r with updated := true })
  | readFront (r : CheckRound) (q : ℕ) (qs : List ℕ) (round : s.keepSync = .checkPoint r) :
      TaskStep .keepSync (.checkPoint { s.readFront r q with
        queues := qs, groups := cfg.consumerGroups, minPrev := uint64Max, needUpdate := true,
        updated := false })
  | startReplay (q g r : ℕ) : TaskStep (.startReplay q g r) (.replay q g r true)
  | writeNext (q g r : ℕ) (replay : s.keepSync = .replay q g r true) :
      TaskStep .keepSync (.replay q g r false)

theorem task_step (e : StoreEvent) : TaskStep cfg s e (s.step cfg log e).keepSync := by
  have hsame : (s.step cfg log e).keepSync = s.keepSync →
      TaskStep cfg s e (s.step cfg log e).keepSync := by
    intro h
    rw [h]
    exact .same e
  cases e with
  | execute =>
    apply hsame
    have hcases : ExecuteStep cfg log s (s.step cfg log .execute) := executeStep_cases
    generalize s.step cfg log .execute = s' at hcases
    cases hcases <;> rfl
  | startGet n req =>
    apply hsame
    dsimp only [Replica.step, Replica.startGetStep]
    repeat' split
    all_goals rfl
  | get n timeUp =>
    apply hsame
    dsimp only [Replica.step, Replica.getStep]
    repeat' split
    all_goals rfl
  | endGet n =>
    apply hsame
    dsimp only [Replica.step, Replica.endGet]
    repeat' split
    all_goals rfl
  | clear q g =>
    apply hsame
    dsimp only [Replica.step]
    repeat' split
    all_goals rfl
  | truncate m =>
    apply hsame
    dsimp only [Replica.step]
    split <;> rfl
  | restart => exact .idle _
  | startRound =>
    dsimp only [Replica.step]
    split
    · exact .startRound
    · exact .same _
  | startSync =>
    dsimp only [Replica.step]
    split
    · exact .sync _ _ _
    · exact .same _
  | startReplay q g r =>
    dsimp only [Replica.step, Replica.startReplay]
    repeat' split
    all_goals first | exact .same _ | exact .startReplay q g r
  | keepSync =>
    dsimp only [Replica.step, Replica.keepSyncStep]
    cases hk : s.keepSync with
    | idle =>
      dsimp only
      rw [hk]
      exact .idle _
    | sync todo details =>
      cases todo with
      | nil => exact .idle _
      | cons x todo =>
        dsimp only
        split <;> exact .sync _ _ _
    | replay q g r isPrev =>
      cases isPrev with
      | true => exact .writeNext q g r hk
      | false => exact .idle _
    | checkPoint r =>
      dsimp only [Replica.roundStep]
      split
      · exact .idle _
      rename_i q qs hqueues
      split
      · exact .idle _
      split
      · rename_i g gs hgroups
        exact .readCursor r q g qs gs hk hqueues hgroups
      rename_i hgroups
      split
      · exact .readFront r q qs hk
      · exact .updateMetas r q qs hk hqueues hgroups

/-! ## The execution and the metas -/

lemma executed_same {e : StoreEvent} (he : e ≠ .execute) (hr : e ≠ .restart) :
    (s.step cfg log e).now = s.now ∧ (s.step cfg log e).donePos = s.donePos := by
  have hframe : ∀ s' : Replica, Frame s s' → s'.now = s.now ∧ s'.donePos = s.donePos := by
    intro s' hf
    unfold Replica.donePos
    rw [hf.applying, hf.pos]
    exact ⟨hf.now, rfl⟩
  by_cases hk : e = .keepSync
  · subst hk
    dsimp only [Replica.step, Replica.keepSyncStep]
    split
    · exact ⟨rfl, rfl⟩
    · exact hframe _ (frame_roundStep s _)
    · exact ⟨rfl, rfl⟩
    · split <;> exact ⟨rfl, rfl⟩
    · exact ⟨rfl, rfl⟩
  · obtain ⟨sync, minChosen, gets, k, hstep, _⟩ := @step_outside cfg log s e he hk hr
    rw [hstep]
    exact ⟨rfl, rfl⟩

lemma minChosen_le_step (e : StoreEvent) : s.minChosen ≤ (s.step cfg log e).minChosen := by
  by_cases he : e = .execute
  · subst he
    exact advances_executeStep.minChosen_le
  by_cases hk : e = .keepSync
  · subst hk
    exact advances_keepSyncStep.minChosen_le
  by_cases hr : e = .restart
  · subst hr
    exact le_rfl
  · obtain ⟨sync, minChosen, gets, k, hstep, hle⟩ := @step_outside cfg log s e he hk hr
    rw [hstep]
    exact hle

lemma donePos_le (s : Replica) : s.donePos ≤ s.pos + 1 := by
  unfold Replica.donePos
  split <;> omega

/-- The values of the instance that is being executed stay, unless one is added. -/
lemma Executed.of_le {s' : Replica} {q i : ℕ} (hnow : s'.now = s.now)
    (hdone : s'.donePos ≤ s.donePos) (h : Executed ⟨log, s'⟩ q i) : Executed ⟨log, s⟩ q i := by
  rcases h with ⟨hi, hne⟩ | ⟨hi, j, args, req, hj, hargs, hreq⟩
  · exact .inl ⟨hi.trans_eq hnow, hne⟩
  · refine .inr ⟨hi.trans hnow, j, args, req, ?_, ?_, hreq⟩
    · exact lt_of_lt_of_le hj hdone
    · have hargs : (valuesOf log s'.now)[j]? = some args := hargs
      rwa [hnow] at hargs

theorem executed_step (hs : s.Sound cfg log) (hlog : LogOk cfg log) {e : StoreEvent}
    (hr : e ≠ .restart) {q i : ℕ} (h : Executed ⟨log, s.step cfg log e⟩ q i) :
    Executed ⟨log, s⟩ q i ∨ i ∈ (s.step cfg log e).metas q := by
  by_cases he : e = .execute
  · subst he
    have hcases : ExecuteStep cfg log s (s.step cfg log .execute) := executeStep_cases
    generalize s.step cfg log .execute = s' at hcases h ⊢
    -- a value that is not added once more stays counted
    have hkeep : s.applying ≠ .add → s'.now = s.now → s'.donePos ≤ s.pos + 1 →
        Executed ⟨log, s⟩ q i := by
      intro hne hnow hdone
      refine h.of_le hnow (hdone.trans ?_)
      unfold Replica.donePos
      rw [if_neg hne]
    cases hcases with
    | idle => exact .inl h
    | advance now pos =>
      left
      rcases h with ⟨hi, hne⟩ | ⟨_, j, _, _, hj, _⟩
      · rcases Nat.lt_succ_iff_lt_or_eq.mp hi with hi | rfl
        · exact .inl ⟨hi, hne⟩
        · obtain ⟨j, args, req, hargs, hreq, hq, hitems⟩ := exists_of_itemsOf_ne hne
          have hj := (List.getElem?_eq_some_iff.mp hargs).1
          have hdone : s.pos ≤ s.donePos := by
            unfold Replica.donePos
            split <;> omega
          exact .inr ⟨rfl, j, args, req, hj.trans_le (pos.trans hdone), hargs, hreq, hq, hitems⟩
      · exact absurd hj (Nat.not_lt_zero j)
    | noAdd args at_ applying none =>
      left
      rcases h with ⟨hi, hne⟩ | ⟨hi, j, args', req, hj, hargs, hreq, hq, hitems⟩
      · exact .inl ⟨hi, hne⟩
      · have hj : j < s.pos + 1 := hj
        have hdone : s.donePos = s.pos := if_pos applying
        rcases Nat.lt_succ_iff_lt_or_eq.mp hj with hj | rfl
        · exact .inr ⟨hi, j, args', req, hj.trans_eq hdone.symm, hargs, hreq, hq, hitems⟩
        · have hargs : (valuesOf log s.now)[s.pos]? = some args' := hargs
          rw [at_] at hargs
          cases hargs
          rw [none] at hreq
          cases hreq
    | add args at_ applying req some metas ok =>
      have hnow : s.now < uint64Max := hs.now_le.trans_lt hlog.length_lt
      obtain ⟨_, _, hmem⟩ := add_cases ok hnow ((hlog.of_getD at_).1 req some).2
        (hs.metas_le req.queueId)
      rcases h with ⟨hi, hne⟩ | ⟨hi, j, args', req', hj, hargs, hreq, hq, hitems⟩
      · exact .inl (.inl ⟨hi, hne⟩)
      · have hj : j < s.pos + 1 := hj
        have hdone : s.donePos = s.pos := if_pos applying
        rcases Nat.lt_succ_iff_lt_or_eq.mp hj with hj | rfl
        · exact .inl (.inr ⟨hi, j, args', req', hj.trans_eq hdone.symm, hargs, hreq, hq, hitems⟩)
        · have hargs : (valuesOf log s.now)[s.pos]? = Option.some args' := hargs
          rw [at_] at hargs
          cases hargs
          rw [some] at hreq
          cases hreq
          right
          have hi : i = s.now := hi
          rw [hi, ← hq]
          exact hmem hitems
    | skip applying =>
      exact .inl (hkeep (by rw [applying]; exact fun ha => (nomatch ha)) rfl (if_pos rfl).le)
    | known d ds applying cur stored ge =>
      exact .inl (hkeep (by rw [applying]; exact fun ha => (nomatch ha)) rfl (donePos_le _))
    | behind d ds applying =>
      exact .inl (hkeep (by rw [applying]; exact fun ha => (nomatch ha)) rfl (donePos_le _))
    | prev d ds applying sync update =>
      exact .inl (hkeep (by rw [applying]; exact fun ha => (nomatch ha)) rfl (donePos_le _))
    | next d ds applying sync update =>
      exact .inl (hkeep (by rw [applying]; exact fun ha => (nomatch ha)) rfl (donePos_le _))
    | fails d ds applying range =>
      refine .inl (hkeep ?_ rfl (donePos_le _))
      rcases applying with ha | ha
      · rw [ha]
        exact fun ha => (nomatch ha)
      · rw [ha]
        exact fun ha => (nomatch ha)
  · obtain ⟨hnow, hdone⟩ := executed_same he hr
    exact .inl (h.of_le hnow hdone.le)

/-- A round is about to erase the instance from the metas of the queue. -/
def Erases (s : Replica) (q i : ℕ) : Prop :=
  ∃ r, s.keepSync = .checkPoint r ∧ r.queues.head? = some q ∧ r.groups = [] ∧
    r.needUpdate = true ∧ (r.minPrev = uint64Max ∨ i < level r.minPrev)

/-- **A meta stays until a round erases it.** -/
theorem mem_metas_step (hs : s.Sound cfg log) (hlog : LogOk cfg log) {e : StoreEvent}
    (hr : e ≠ .restart) {q i : ℕ} (h : i ∈ s.metas q) :
    i ∈ (s.step cfg log e).metas q ∨ Erases s q i := by
  by_cases he : e = .execute
  · subst he
    left
    have hcases : ExecuteStep cfg log s (s.step cfg log .execute) := executeStep_cases
    generalize s.step cfg log .execute = s' at hcases ⊢
    cases hcases with
    | add args at_ applying req some metas ok =>
      have hnow : s.now < uint64Max := hs.now_le.trans_lt hlog.length_lt
      exact (add_cases ok hnow ((hlog.of_getD at_).1 req some).2 (hs.metas_le req.queueId)).1 q i h
    | idle | advance _ _ | noAdd _ _ _ _ | skip _ | known _ _ _ _ _ _ | behind _ _ _
    | prev _ _ _ _ _ | next _ _ _ _ _ | fails _ _ _ _ => exact h
  by_cases hk : e = .keepSync
  · subst hk
    dsimp only [Replica.step, Replica.keepSyncStep]
    split
    · exact .inl h
    · rename_i r hround
      dsimp only [Replica.roundStep]
      split
      · exact .inl ((metas_dumpCheckPoint s r.dumpCp).symm ▸ h)
      rename_i q' qs hqueues
      split
      · exact .inl ((metas_dumpCheckPoint s r.dumpCp).symm ▸ h)
      split
      · exact .inl h
      rename_i hgroups
      split
      · exact .inl h
      dsimp only
      split
      · rename_i hneed
        by_cases hq : q = q'
        · subst hq
          rw [Function.update_self]
          split
          · rename_i hmax
            exact .inr ⟨r, hround, by rw [hqueues]; rfl, hgroups, hneed, .inl hmax⟩
          · by_cases hi : i < level r.minPrev
            · exact .inr ⟨r, hround, by rw [hqueues]; rfl, hgroups, hneed, .inr hi⟩
            · exact .inl (StoreMetaQueue.mem_eraseFrontTill.mpr ⟨h, not_lt.mp hi⟩)
        · rw [Function.update_of_ne hq]
          exact .inl h
      · exact .inl h
    · exact .inl h
    · split <;> exact .inl h
    · exact .inl h
  · left
    rw [metas_step he hk hr]
    exact h

end

/-! ## The rewind -/

/-- `Replay` has set both cursors of a group to an instance. -/
structure Rewind where
  queueId : ℕ
  consumerGroupId : ℕ
  cursorId : ℕ

def Spares (P : ℕ → Prop) (c : ℕ) : Prop := ∀ i < level c, ¬ P i

instance (P : ℕ → Prop) [DecidablePred P] (c : ℕ) : Decidable (Spares P c) :=
  inferInstanceAs (Decidable (∀ i < level c, ¬ P i))

/-- What has been executed of the instances is in the metas, or below `c`. -/
def Kept (log : Log) (s : Replica) (P : ℕ → Prop) (q c : ℕ) : Prop :=
  ∀ i, P i → Executed ⟨log, s⟩ q i → i ∈ s.metas q ∨ i < c

/-- A store keeps the instances `P` for the group: its cursors and those a round has read have not
passed them, and they are in the metas or below the checkpoint. -/
structure Rewound (cfg : StoreConfig) (k : Rewind) (P : ℕ → Prop) (log : Log) (s : Replica) :
    Prop where
  inTable : SyncCtrl.inTable cfg.opt k.consumerGroupId k.queueId
  consumer : cfg.isConsumer k.queueId k.consumerGroupId
  noReplay : ∀ r isPrev, s.keepSync ≠ .replay k.queueId k.consumerGroupId r isPrev
  prev : ∃ p, (s.sync k.queueId k.consumerGroupId).prev = some p ∧ Spares P p
  next : ∀ n ∈ (s.sync k.queueId k.consumerGroupId).next, Spares P n
  minChosen : ∀ i < s.minChosen, ¬ P i
  kept : Kept log s P k.queueId (level s.checkPoint)
  round : ∀ r, s.keepSync = .checkPoint r → r.queues.head? = some k.queueId →
    k.consumerGroupId ∈ r.groups ∨ r.needUpdate = false ∨
      (r.minPrev ≠ uint64Max ∧ Spares P r.minPrev)

section
variable {cfg : StoreConfig} {k : Rewind} {P P' : ℕ → Prop} {log : Log} {s : Replica}

lemma Spares.mono {c : ℕ} (h : Spares P c) (hP : ∀ i, P' i → P i) : Spares P' c :=
  fun i hi hp => h i hi (hP i hp)

lemma Spares.of_level_le {c d : ℕ} (h : Spares P c) (hle : level d ≤ level c) : Spares P d :=
  fun i hi => h i (hi.trans_le hle)

lemma Kept.mono {q c c' : ℕ} (h : Kept log s P q c) (hP : ∀ i, P' i → P i) (hc : c ≤ c') :
    Kept log s P' q c' :=
  fun i hp he => (h i (hP i hp) he).imp id fun hi => hi.trans_le hc

/-- **What is kept is kept by every step**, if no round erases it. -/
theorem Kept.step {q c : ℕ} (h : Kept log s P q c) (hs : s.Sound cfg log) (hlog : LogOk cfg log)
    {e : StoreEvent} (hr : e ≠ .restart) (herases : ∀ i, Erases s q i → ¬ P i) :
    Kept log (s.step cfg log e) P q c := by
  intro i hp he
  rcases executed_step hs hlog hr he with he | hmem
  · rcases h i hp he with hmem | hi
    · rcases mem_metas_step hs hlog hr hmem with hmem | herase
      · exact .inl hmem
      · exact absurd hp (herases i herase)
    · exact .inr hi
  · exact .inl hmem

lemma Rewound.mono (h : Rewound cfg k P log s) (hP : ∀ i, P' i → P i) : Rewound cfg k P' log s where
  inTable := h.inTable
  consumer := h.consumer
  noReplay := h.noReplay
  prev := by
    obtain ⟨p, hp, hspares⟩ := h.prev
    exact ⟨p, hp, hspares.mono hP⟩
  next := fun n hn => (h.next n hn).mono hP
  minChosen := fun i hi hp => h.minChosen i hi (hP i hp)
  kept := h.kept.mono hP le_rfl
  round := by
    intro r hround hq
    rcases h.round r hround hq with hg | hu | ⟨hne, hspares⟩
    · exact .inl hg
    · exact .inr (.inl hu)
    · exact .inr (.inr ⟨hne, hspares.mono hP⟩)

lemma Rewound.mem_consumerGroups (h : Rewound cfg k P log s) :
    k.consumerGroupId ∈ cfg.consumerGroups :=
  StoreConfig.mem_consumerGroups.mpr ⟨h.inTable.1, h.inTable.2.1⟩

lemma Executed.of_append (hs : s.Sound cfg log) {batch : List StorePaxosArgs} {q i : ℕ}
    (h : Executed ⟨log ++ [batch], s⟩ q i) : Executed ⟨log, s⟩ q i := by
  rcases h with ⟨hi, hne⟩ | ⟨hi, j, args, req, hj, hargs, hreq⟩
  · have hi : i < s.now := hi
    rw [itemsOf_append (hi.trans_le hs.now_le)] at hne
    exact .inl ⟨hi, hne⟩
  · have hj : j < s.donePos := hj
    have hargs : (valuesOf (log ++ [batch]) s.now)[j]? = some args := hargs
    have hnow : s.now < log.length := by
      by_contra hge
      have hle := hs.donePos_le
      unfold valuesOf at hle
      rw [List.getElem?_eq_none (not_lt.mp hge)] at hle
      exact absurd (hj.trans_le hle) (Nat.not_lt_zero j)
    rw [valuesOf_append hnow] at hargs
    exact .inr ⟨hi, j, args, req, hj, hargs, hreq⟩

lemma Kept.append {q c : ℕ} (h : Kept log s P q c) (hs : s.Sound cfg log)
    (batch : List StorePaxosArgs) : Kept (log ++ [batch]) s P q c :=
  fun i hp he => h i hp (he.of_append hs)

lemma Rewound.append (h : Rewound cfg k P log s) (hs : s.Sound cfg log)
    (batch : List StorePaxosArgs) : Rewound cfg k P (log ++ [batch]) s :=
  ⟨h.inTable, h.consumer, h.noReplay, h.prev, h.next, h.minChosen, h.kept.append hs batch, h.round⟩

/-- A round erases nothing that is to be kept: it has read the cursor of the group. -/
lemma Rewound.not_of_erases (h : Rewound cfg k P log s) {i : ℕ} (he : Erases s k.queueId i) :
    ¬ P i := by
  obtain ⟨r, hround, hq, hgroups, hneed, hmin⟩ := he
  rcases h.round r hround hq with hg | hu | ⟨hne, hspares⟩
  · rw [hgroups] at hg
    cases hg
  · rw [hneed] at hu
    cases hu
  · exact hspares i (hmin.resolve_left hne)

lemma Rewound.readCursor (h : Rewound cfg k P log s) (hs : s.Sound cfg log) {r : CheckRound}
    {g : ℕ} {gs : List ℕ} (hround : s.keepSync = .checkPoint r)
    (hq : r.queues.head? = some k.queueId) (hgroups : r.groups = g :: gs) :
    k.consumerGroupId ∈ gs ∨ (s.readCursor cfg r k.queueId g).needUpdate = false ∨
      ((s.readCursor cfg r k.queueId g).minPrev ≠ uint64Max ∧
        Spares P (s.readCursor cfg r k.queueId g).minPrev) := by
  -- the minimum stays one that spares the instances
  have hkeep : r.needUpdate = false ∨ (r.minPrev ≠ uint64Max ∧ Spares P r.minPrev) →
      (s.readCursor cfg r k.queueId g).needUpdate = false ∨
        ((s.readCursor cfg r k.queueId g).minPrev ≠ uint64Max ∧
          Spares P (s.readCursor cfg r k.queueId g).minPrev) := by
    intro hold
    unfold Replica.readCursor
    split
    · split
      · rename_i p hp
        have hne : p ≠ uint64Max := by
          rintro rfl
          exact (hs.stored _ _).1 (SyncCtrl.getCursorID_ok hp).2
        split
        · rename_i hlt
          rcases hold with hu | ⟨hmax, hspares⟩
          · exact .inl hu
          · refine .inr ⟨hne, hspares.of_level_le ?_⟩
            rw [level_of_ne hne, level_of_ne hmax]
            exact Nat.succ_le_succ (hlt.resolve_left hmax).le
        · exact hold
      · split
        · exact .inl rfl
        · exact hold
    · exact hold
  rcases h.round r hround hq with hmem | hold
  · rw [hgroups] at hmem
    rcases List.mem_cons.mp hmem with hg | hmem
    · right
      subst hg
      obtain ⟨p, hp, hspares⟩ := h.prev
      have hne : p ≠ uint64Max := by
        rintro rfl
        exact (hs.stored _ _).1 hp
      have hcursor : s.sync.getCursorID cfg.opt k.consumerGroupId k.queueId = .ok p := by
        unfold SyncCtrl.getCursorID
        rw [if_pos h.inTable, hp]
      unfold Replica.readCursor
      rw [if_pos h.consumer, hcursor]
      dsimp only
      split
      · exact .inr ⟨hne, hspares⟩
      · rename_i hlt
        obtain ⟨hmax, hle⟩ := not_or.mp hlt
        refine .inr ⟨hmax, hspares.of_level_le ?_⟩
        rw [level_of_ne hne, level_of_ne hmax]
        exact Nat.succ_le_succ (not_lt.mp hle)
    · exact .inl hmem
  · exact .inr (hkeep hold)

lemma readCursor_queues (r : CheckRound) (q g : ℕ) :
    (s.readCursor cfg r q g).queues = r.queues := by
  unfold Replica.readCursor
  repeat' split
  all_goals rfl

/-- No replay of the group is started, so none is under way. -/
lemma Rewound.noReplay_step (h : Rewound cfg k P log s) {e : StoreEvent}
    (he : ∀ r, e ≠ .startReplay k.queueId k.consumerGroupId r) (r : ℕ) (isPrev : Bool) :
    (s.step cfg log e).keepSync ≠ .replay k.queueId k.consumerGroupId r isPrev := by
  intro hreplay
  have htask : TaskStep cfg s e (s.step cfg log e).keepSync := task_step e
  rw [hreplay] at htask
  generalize htarget : KeepSync.replay k.queueId k.consumerGroupId r isPrev = task at htask
  cases htask with
  | same e => exact h.noReplay r isPrev htarget.symm
  | startReplay q g r' =>
    cases htarget
    exact he r rfl
  | writeNext q g r' replay =>
    cases htarget
    exact h.noReplay r true replay
  | idle | startRound | sync _ _ _ | readCursor _ _ _ _ _ _ _ _ | updateMetas _ _ _ _ _ _
  | readFront _ _ _ _ => cases htarget

/-- What a round has read spares the instances, or it has still to read the cursor of the group. -/
lemma Rewound.round_step (h : Rewound cfg k P log s) (hs : s.Sound cfg log) {e : StoreEvent}
    {r' : CheckRound} (hr' : (s.step cfg log e).keepSync = .checkPoint r')
    (hq' : r'.queues.head? = some k.queueId) :
    k.consumerGroupId ∈ r'.groups ∨ r'.needUpdate = false ∨
      (r'.minPrev ≠ uint64Max ∧ Spares P r'.minPrev) := by
  have htask : TaskStep cfg s e (s.step cfg log e).keepSync := task_step e
  rw [hr'] at htask
  generalize htarget : KeepSync.checkPoint r' = task at htask
  cases htask with
  | same e => exact h.round r' htarget.symm hq'
  | startRound =>
    cases htarget
    exact .inl h.mem_consumerGroups
  | readCursor r q g qs gs round queues groups =>
    cases htarget
    have hq : r.queues.head? = some k.queueId := by
      rwa [← @readCursor_queues cfg s r q g]
    have hqk : q = k.queueId := by
      rw [queues] at hq
      exact Option.some.inj hq
    subst hqk
    exact h.readCursor hs round hq groups
  | updateMetas r q qs round queues groups =>
    cases htarget
    exact h.round r round hq'
  | readFront r q qs round =>
    cases htarget
    exact .inl h.mem_consumerGroups
  | idle | sync _ _ _ | startReplay _ _ _ | writeNext _ _ _ _ => cases htarget

/-- After a restart what is not below the checkpoint is executed again. -/
lemma kept_restart (q : ℕ) : Kept log (s.step cfg log .restart) P q
    (level (s.step cfg log .restart).checkPoint) := by
  intro i _ he
  right
  rcases he with ⟨hi, _⟩ | ⟨_, j, _, _, hj, _⟩
  · exact hi
  · exact absurd hj (Nat.not_lt_zero j)

/-- **A store stays rewound** through a step, as long as the step writes no cursor of the group that
passes one of the instances, and starts no other replay of it. -/
theorem Rewound.step (h : Rewound cfg k P log s) (hs : s.Sound cfg log) (hlog : LogOk cfg log)
    {e : StoreEvent} (he : ∀ r, e ≠ .startReplay k.queueId k.consumerGroupId r)
    (hmin : ∀ i < (s.step cfg log e).minChosen, ¬ P i)
    (hwritten : ∀ c, cursorWritten s e = some (k.queueId, k.consumerGroupId, c) → Spares P c) :
    Rewound cfg k P log (s.step cfg log e) := by
  obtain ⟨hprev, hnext⟩ := @cursors_step cfg log s _ _ h.consumer h.noReplay e
  refine ⟨h.inTable, h.consumer, h.noReplay_step he, ?_, ?_, hmin, ?_, fun r' => h.round_step hs⟩
  · rcases hprev with heq | ⟨c, hw, heq⟩
    · rw [heq]
      exact h.prev
    · exact ⟨c, heq, hwritten c hw⟩
  · rcases hnext with heq | ⟨c, hw, heq⟩
    · rw [heq]
      exact h.next
    · rw [heq]
      intro n hn
      cases hn
      exact hwritten c hw
  · by_cases hr : e = .restart
    · subst hr
      exact kept_restart k.queueId
    · exact (h.kept.step hs hlog hr fun i => h.not_of_erases).mono (fun _ hp => hp)
        (level_checkPoint_step log s e)

end

end PhxQueue.Store
