import PhxQueue.Store.Retention
import PhxQueue.Store.Steps

/-!
# What holds in every state of a store

The facts about positions that need no condition: what has been executed is in the log, and so are
the metas and the checkpoint; a stored cursor is never `-1`; a replay is of a group that consumes
the queue.

* `Replica.Sound`         these facts;
* `Replica.Sound.step`    **every step keeps them**;
* `World.Sound`, `World.Sound.exec`   the same for a store.
-/

set_option linter.unusedSectionVars false

namespace PhxQueue.Store
open Comm Lib Config

lemma level_pred64 {n : ℕ} (h : n ≤ uint64Max) : level (pred64 n) = n := by
  rcases Nat.eq_zero_or_pos n with rfl | hpos
  · rw [pred64_zero, level_uint64Max]
  · rw [pred64_of_pos hpos h, level_of_lt (by omega)]
    omega

section
variable (cfg : StoreConfig)

/-- The variables of the keep-sync thread: a round keeps to the log, and a replay has checked the
group. -/
def SoundTask (log : Log) (now : ℕ) : KeepSync → Prop
  | .checkPoint r => level r.cp ≤ log.length ∧ r.nowInstanceId ≤ log.length ∧
      ∀ q ∈ r.queues, q ∈ cfg.queues
  | .replay q g r _ => SyncCtrl.inTable cfg.opt g q ∧ q ∈ cfg.queues ∧ cfg.isConsumer q g ∧ r ≤ now
  | _ => True

/-- A thread reads a checkpoint and a first instance of the log. -/
def SoundThread (log : Log) (s : Replica) (t : GetThread) : Prop :=
  level t.cp ≤ log.length ∧ (t.minInstance = uint64Max ∨ t.minInstance ≤ s.minChosen)

structure Replica.Sound (log : Log) (s : Replica) : Prop where
  now_le : s.now ≤ log.length
  donePos_le : s.donePos ≤ (valuesOf log s.now).length
  details : ∀ d ∈ s.applying.details, d.prevCursorId < uint64Max
  metas_le : ∀ q, ∀ m ∈ s.metas q, m ≤ s.now
  stored : ∀ q g, (s.sync q g).prev ≠ some uint64Max ∧ (s.sync q g).next ≠ some uint64Max
  cp_le : level s.checkPoint ≤ log.length
  threads : ∀ n t, s.gets n = some t → SoundThread log s t
  keepSync : SoundTask cfg log s.now s.keepSync

variable {cfg} {log : Log} {s : Replica}

/-! ## Parts of a step -/

lemma SoundTask.mono {now now' : ℕ} {k : KeepSync} (h : SoundTask cfg log now k)
    (hle : now ≤ now') : SoundTask cfg log now' k := by
  cases k with
  | replay q g r isPrev => exact ⟨h.1, h.2.1, h.2.2.1, h.2.2.2.trans hle⟩
  | idle | sync todo details => trivial
  | checkPoint r => exact h

lemma Replica.Sound.setKeepSync (h : s.Sound cfg log) {k : KeepSync}
    (hk : SoundTask cfg log s.now k) : ({ s with keepSync := k } : Replica).Sound cfg log :=
  ⟨h.now_le, h.donePos_le, h.details, h.metas_le, h.stored, h.cp_le, h.threads, hk⟩

lemma Replica.Sound.setGet (h : s.Sound cfg log) {n : ℕ} {t' : Option GetThread}
    (ht : ∀ t ∈ t', SoundThread log s t) : (s.setGet n t').Sound cfg log := by
  refine ⟨h.now_le, h.donePos_le, h.details, h.metas_le, h.stored, h.cp_le, fun m u hu => ?_,
    h.keepSync⟩
  by_cases hm : m = n
  · subst hm
    rw [gets_setGet_self] at hu
    exact ht u hu
  · rw [gets_setGet_of_ne hm] at hu
    exact h.threads m u hu

lemma Replica.Sound.setSync (h : s.Sound cfg log) {g q c : ℕ} {isPrev : Bool} {sync : SyncCtrl}
    (hu : s.sync.updateCursorID cfg.opt g q c isPrev = .ok sync) (hc : c ≠ uint64Max) :
    ({ s with sync := sync } : Replica).Sound cfg log := by
  refine ⟨h.now_le, h.donePos_le, h.details, h.metas_le, fun q' g' => ?_, h.cp_le, h.threads,
    h.keepSync⟩
  obtain ⟨_, rfl⟩ := SyncCtrl.updateCursorID_ok hu
  show (s.sync.set q g _ q' g').prev ≠ some uint64Max ∧ (s.sync.set q g _ q' g').next ≠ _
  by_cases hs : q' = q ∧ g' = g
  · obtain ⟨rfl, rfl⟩ := hs
    have hsome : some c ≠ some uint64Max := fun hp => hc (Option.some.inj hp)
    rw [SyncCtrl.set_self]
    cases isPrev with
    | true => exact ⟨hsome, (h.stored q' g').2⟩
    | false => exact ⟨(h.stored q' g').1, hsome⟩
  · rw [SyncCtrl.set_of_ne hs]
    exact h.stored q' g'

lemma Replica.Sound.setApplying (h : s.Sound cfg log) {metas : ℕ → StoreMetaQueue} {pos : ℕ}
    {a : Applying} (hdone : (if a = .add then pos else pos + 1) ≤ (valuesOf log s.now).length)
    (hmetas : ∀ q, ∀ m ∈ metas q, m ≤ s.now) (ha : ∀ d ∈ a.details, d.prevCursorId < uint64Max) :
    ({ s with metas := metas, pos := pos, applying := a } : Replica).Sound cfg log :=
  ⟨h.now_le, hdone, ha, hmetas, h.stored, h.cp_le, h.threads, h.keepSync⟩

/-! ## Execution -/

lemma Replica.Sound.pos_lt (h : s.Sound cfg log) (ha : s.applying ≠ .add) :
    s.pos + 1 ≤ (valuesOf log s.now).length := by
  have hle := h.donePos_le
  unfold Replica.donePos at hle
  rwa [if_neg ha] at hle

lemma Replica.Sound.executeStep (h : s.Sound cfg log) (hlog : LogOk cfg log) :
    (s.executeStep cfg log).Sound cfg log := by
  have hcases : ExecuteStep cfg log s (s.executeStep cfg log) := executeStep_cases
  generalize s.executeStep cfg log = s' at hcases ⊢
  -- the value that is being executed stays the same one
  have hgo : ∀ {a : Applying}, s.applying ≠ .add → a ≠ .add →
      (if a = .add then s.pos else s.pos + 1) ≤ (valuesOf log s.now).length := by
    intro a hne ha
    rw [if_neg ha]
    exact h.pos_lt hne
  cases hcases with
  | idle => exact h
  | advance now pos =>
    exact ⟨now, Nat.zero_le _, fun d hd => (nomatch hd),
      fun q m hm => (h.metas_le q m hm).trans (Nat.le_succ _), h.stored, h.cp_le, h.threads,
      h.keepSync.mono (Nat.le_succ _)⟩
  | noAdd args at_ applying none =>
    have hlt := (List.getElem?_eq_some_iff.mp at_).1
    exact h.setApplying (by rw [if_neg fun ha => (nomatch ha)]; exact hlt) h.metas_le
      fun d hd => ((hlog.of_getD at_).2 d hd).2.2
  | add args at_ applying req some metas ok =>
    have hlt := (List.getElem?_eq_some_iff.mp at_).1
    have hprop := hlog.of_getD at_
    have hnow : s.now < uint64Max := h.now_le.trans_lt hlog.length_lt
    obtain ⟨_, hnew, _⟩ := add_cases ok hnow (hprop.1 req some).2 (h.metas_le req.queueId)
    refine h.setApplying (by rw [if_neg fun ha => (nomatch ha)]; exact hlt) (fun q m hm => ?_)
      fun d hd => (hprop.2 d hd).2.2
    rcases hnew q m hm with hm | ⟨_, rfl⟩
    · exact h.metas_le q m hm
    · exact le_rfl
  | skip applying =>
    refine h.setApplying ?_ h.metas_le fun d hd => (nomatch hd)
    rw [if_pos rfl]
    exact h.pos_lt (by rw [applying]; exact fun ha => (nomatch ha))
  | known d ds applying cur stored ge =>
    have hne : s.applying ≠ .add := by
      rw [applying]
      exact fun ha => (nomatch ha)
    have hds := h.details
    rw [applying] at hds
    exact h.setApplying (hgo hne fun ha => (nomatch ha)) h.metas_le
      fun d' hd => hds d' (List.mem_cons_of_mem _ hd)
  | behind d ds applying =>
    have hne : s.applying ≠ .add := by
      rw [applying]
      exact fun ha => (nomatch ha)
    have hds := h.details
    rw [applying] at hds
    exact h.setApplying (hgo hne fun ha => (nomatch ha)) h.metas_le hds
  | prev d ds applying sync update =>
    have hne : s.applying ≠ .add := by
      rw [applying]
      exact fun ha => (nomatch ha)
    have hds := h.details
    rw [applying] at hds
    have hd : d.prevCursorId < uint64Max := hds d List.mem_cons_self
    exact (h.setSync update hd.ne).setApplying (hgo hne fun ha => (nomatch ha)) h.metas_le hds
  | next d ds applying sync update =>
    have hne : s.applying ≠ .add := by
      rw [applying]
      exact fun ha => (nomatch ha)
    have hds := h.details
    rw [applying] at hds
    have hd : d.prevCursorId < uint64Max := hds d List.mem_cons_self
    exact (h.setSync update hd.ne).setApplying (hgo hne fun ha => (nomatch ha)) h.metas_le
      fun d' hd => hds d' (List.mem_cons_of_mem _ hd)
  | fails d ds applying range =>
    have hne : s.applying ≠ .add := by
      rcases applying with ha | ha
      · rw [ha]
        exact fun ha => (nomatch ha)
      · rw [ha]
        exact fun ha => (nomatch ha)
    refine h.setApplying ?_ h.metas_le fun d hd => (nomatch hd)
    rw [if_pos rfl]
    exact (Nat.le_succ _).trans (h.pos_lt hne)

/-! ## Get -/

lemma SoundThread.reads {t t' : GetThread} (ht : SoundThread log s t) (hcp : level s.checkPoint ≤
    log.length) (hr : GetReads cfg log s t t') : SoundThread log s t' := by
  cases hr with
  | checkPoint phase => exact ⟨hcp, ht.2⟩
  | minInstance phase =>
    unfold enterLoop
    split <;> exact ⟨ht.1, .inr le_rfl⟩
  | loop phase timeUp =>
    unfold loopStep
    repeat' split
    all_goals exact ht
  | items cur phase items hitems =>
    unfold takeItems
    repeat' split
    all_goals exact ht
  | svrPrev phase | notChosen cur phase now | random phase random | noPrev phase random prev
  | noNext phase next => exact ht

lemma Replica.Sound.getStep (h : s.Sound cfg log) (n : ℕ) (timeUp : Bool) :
    (s.getStep cfg log n timeUp).Sound cfg log := by
  cases ht : s.gets n with
  | none =>
    have hstep : s.getStep cfg log n timeUp = s := by
      unfold Replica.getStep
      rw [ht]
    rw [hstep]
    exact h
  | some t =>
    have hcases := @getStep_cases cfg log s n t ht timeUp
    have hthread := h.threads n t ht
    generalize s.getStep cfg log n timeUp = s' at hcases ⊢
    cases hcases with
    | reads t' reads =>
      refine h.setGet fun u hu => ?_
      cases hu
      exact hthread.reads h.cp_le reads
    | prev phase random prev sync update =>
      refine (h.setSync update prev).setGet fun u hu => ?_
      cases hu
      exact hthread
    | next phase next sync update =>
      refine (h.setSync update next).setGet fun u hu => ?_
      cases hu
      exact hthread
    | fails phase range => exact h.setGet fun u hu => (nomatch hu)
    | done phase => exact h

lemma soundThread_startGet {req : GetRequest} {t : GetThread}
    (hstart : startGet cfg s.sync req = .ok t) : SoundThread log s t := by
  obtain ⟨queueInfoId, p, n, rfl⟩ := startGet_eq hstart
  refine ⟨?_, .inl rfl⟩
  show level uint64Max ≤ log.length
  rw [level_uint64Max]
  exact Nat.zero_le _

/-! ## The keep-sync thread -/

lemma Replica.Sound.frame (h : s.Sound cfg log) {s' : Replica} (hf : Frame s s')
    (hcp : level s'.checkPoint ≤ log.length) (hk : SoundTask cfg log s.now s'.keepSync) :
    s'.Sound cfg log := by
  have hdone : s'.donePos = s.donePos := by
    unfold Replica.donePos
    rw [hf.applying, hf.pos]
  refine ⟨?_, ?_, ?_, fun q m hm => ?_, ?_, hcp, ?_, ?_⟩
  · rw [hf.now]
    exact h.now_le
  · rw [hf.now, hdone]
    exact h.donePos_le
  · rw [hf.applying]
    exact h.details
  · rw [hf.now]
    exact h.metas_le q m (hf.metas q hm)
  · rw [hf.sync]
    exact h.stored
  · rw [hf.gets]
    intro n t ht
    have hthread := h.threads n t ht
    unfold SoundThread
    rw [hf.minChosen]
    exact hthread
  · rw [hf.now]
    exact hk

lemma Replica.Sound.round_bounds (h : s.Sound cfg log) (hlog : LogOk cfg log) {r : CheckRound}
    (hr : SoundTask cfg log s.now (.checkPoint r)) :
    level (s.roundStep cfg r).checkPoint ≤ log.length ∧
      SoundTask cfg log s.now (s.roundStep cfg r).keepSync := by
  obtain ⟨hcp, hinst, hqueues⟩ := hr
  have hdumpCp : level r.dumpCp ≤ log.length := by
    unfold CheckRound.dumpCp
    split
    · rw [level_pred64 (hinst.trans hlog.length_lt.le)]
      exact hinst
    · exact hcp
  have hdump : level (s.dumpCheckPoint r.dumpCp).checkPoint ≤ log.length := by
    rw [level_dumpCheckPoint]
    exact max_le h.cp_le hdumpCp
  unfold Replica.roundStep
  split
  · exact ⟨hdump, trivial⟩
  rename_i q qs hq
  have hqs : ∀ q' ∈ qs, q' ∈ cfg.queues := fun q' hq' =>
    hqueues q' (hq ▸ List.mem_cons_of_mem q hq')
  split
  · exact ⟨hdump, trivial⟩
  split
  · rename_i g gs hg
    have hread : (s.readCursor cfg r q g).cp = r.cp ∧
        (s.readCursor cfg r q g).nowInstanceId = r.nowInstanceId ∧
        (s.readCursor cfg r q g).queues = r.queues := by
      unfold Replica.readCursor
      repeat' split
      all_goals exact ⟨rfl, rfl, rfl⟩
    obtain ⟨h1, h2, h3⟩ := hread
    refine ⟨h.cp_le, ?_, ?_, ?_⟩
    · show level (s.readCursor cfg r q g).cp ≤ log.length
      rw [h1]
      exact hcp
    · show (s.readCursor cfg r q g).nowInstanceId ≤ log.length
      rw [h2]
      exact hinst
    · show ∀ q' ∈ (s.readCursor cfg r q g).queues, q' ∈ cfg.queues
      rw [h3]
      exact hqueues
  split
  · have hread : level (s.readFront r q).cp ≤ log.length ∧
        (s.readFront r q).nowInstanceId = r.nowInstanceId := by
      cases hf : (s.metas q).front with
      | none =>
        rw [readFront_none hf]
        exact ⟨hcp, rfl⟩
      | some m =>
        have hm := (h.metas_le q m (StoreMetaQueue.front_mem hf)).trans h.now_le
        have hlen := hlog.length_lt
        rcases Nat.eq_zero_or_pos m with rfl | hpos
        · rw [readFront_zero hf]
          refine ⟨?_, rfl⟩
          show level uint64Max ≤ log.length
          rw [level_uint64Max]
          exact Nat.zero_le _
        · rw [readFront_pos hf hpos (by omega)]
          refine ⟨?_, rfl⟩
          show level (lowerCp r.cp (m - 1)) ≤ log.length
          unfold lowerCp
          split
          · rw [level_of_lt (by omega)]
            omega
          · exact hcp
    exact ⟨h.cp_le, hread.1, hread.2.le.trans hinst, hqs⟩
  · exact ⟨h.cp_le, hcp, hinst, hqueues⟩

lemma Replica.Sound.keepSyncStep (h : s.Sound cfg log) (hlog : LogOk cfg log) :
    (s.keepSyncStep cfg).Sound cfg log := by
  have hk := h.keepSync
  unfold Replica.keepSyncStep
  split
  · exact h
  · rename_i r hr
    rw [hr] at hk
    obtain ⟨hcp, htask⟩ := h.round_bounds hlog hk
    exact h.frame (frame_roundStep s r) hcp htask
  · exact h.setKeepSync trivial
  · split <;> exact h.setKeepSync trivial
  · rename_i q g r isPrev hr
    rw [hr] at hk
    have hne : r ≠ uint64Max := (hk.2.2.2.trans_lt (h.now_le.trans_lt hlog.length_lt)).ne
    have htask : SoundTask cfg log s.now (if isPrev then .replay q g r false else .idle) := by
      split
      · exact hk
      · trivial
    cases hu : s.sync.updateCursorID cfg.opt g q r isPrev with
    | error e => exact h.setKeepSync htask
    | ok sync => exact (h.setSync hu hne).setKeepSync htask

/-! ## All steps -/

lemma Replica.Sound.init : ({} : Replica).Sound cfg [] where
  now_le := le_rfl
  donePos_le := le_rfl
  details := fun _ hd => (nomatch hd)
  metas_le := fun _ m hm => absurd hm (Finset.notMem_empty m)
  stored := fun _ _ => ⟨fun hp => (nomatch hp), fun hp => (nomatch hp)⟩
  cp_le := by
    show level uint64Max ≤ 0
    rw [level_uint64Max]
  threads := fun _ _ ht => (nomatch ht)
  keepSync := trivial

lemma Replica.Sound.append (h : s.Sound cfg log) (batch : List StorePaxosArgs) :
    s.Sound cfg (log ++ [batch]) := by
  have hle : log.length ≤ (log ++ [batch]).length := by
    rw [List.length_append]
    exact Nat.le_add_right _ _
  have hkeep : SoundTask cfg (log ++ [batch]) s.now s.keepSync := by
    have hk := h.keepSync
    cases hks : s.keepSync with
    | checkPoint r =>
      rw [hks] at hk
      exact ⟨hk.1.trans hle, hk.2.1.trans hle, hk.2.2⟩
    | idle => trivial
    | sync todo details => trivial
    | replay q g r isPrev =>
      rw [hks] at hk
      exact hk
  refine ⟨h.now_le.trans hle, ?_, h.details, h.metas_le, h.stored, h.cp_le.trans hle,
    fun n t ht => ⟨(h.threads n t ht).1.trans hle, (h.threads n t ht).2⟩, hkeep⟩
  rcases h.now_le.lt_or_eq with hlt | heq
  · rw [valuesOf_append hlt]
    exact h.donePos_le
  · have hdone := h.donePos_le
    unfold valuesOf at hdone
    rw [heq, List.getElem?_eq_none le_rfl] at hdone
    exact hdone.trans (Nat.zero_le _)

theorem Replica.Sound.step (h : s.Sound cfg log) (hlog : LogOk cfg log) (e : StoreEvent) :
    (s.step cfg log e).Sound cfg log := by
  cases e with
  | execute => exact h.executeStep hlog
  | startGet n req =>
    dsimp only [Replica.step, Replica.startGetStep]
    split
    · exact h
    split
    · split
      · exact h
      · rename_i t hstart
        refine h.setGet fun u hu => ?_
        cases hu
        exact soundThread_startGet hstart
    · exact h
  | get n timeUp => exact h.getStep n timeUp
  | endGet n =>
    have hend : (s.setGet n none).Sound cfg log := h.setGet fun u hu => (nomatch hu)
    dsimp only [Replica.step, Replica.endGet]
    split
    · exact h
    split
    · exact hend
    · exact hend
    · exact h
  | startRound =>
    dsimp only [Replica.step]
    split
    · refine h.setKeepSync ⟨?_, h.now_le, fun _ hq => hq⟩
      show level uint64Max ≤ log.length
      rw [level_uint64Max]
      exact Nat.zero_le _
    · exact h
  | startSync =>
    dsimp only [Replica.step]
    split
    · exact h.setKeepSync trivial
    · exact h
  | startReplay q g r =>
    dsimp only [Replica.step, Replica.startReplay]
    split
    · split
      · rename_i hr
        split
        · rename_i p hp
          split
          · exact h
          · exact h.setKeepSync ⟨(SyncCtrl.getCursorID_ok hp).1, hr.1, hr.2.1, hr.2.2.2⟩
        · exact h
      · exact h
    · exact h
  | keepSync => exact h.keepSyncStep hlog
  | clear q g =>
    dsimp only [Replica.step]
    split
    · split
      · exact h
      split
      · refine ⟨h.now_le, h.donePos_le, h.details, h.metas_le, fun q' g' => ?_, h.cp_le, h.threads,
          h.keepSync⟩
        show (s.sync.clearCursorID cfg.opt g q q' g').prev ≠ _ ∧
          (s.sync.clearCursorID cfg.opt g q q' g').next ≠ _
        unfold SyncCtrl.clearCursorID
        split
        · by_cases hs : q' = q ∧ g' = g
          · obtain ⟨rfl, rfl⟩ := hs
            rw [SyncCtrl.set_self]
            exact ⟨fun hp => (nomatch hp), fun hp => (nomatch hp)⟩
          · rw [SyncCtrl.set_of_ne hs]
            exact h.stored q' g'
        · exact h.stored q' g'
      · exact h
    · exact h
  | truncate m =>
    dsimp only [Replica.step]
    split
    · rename_i hm
      refine ⟨h.now_le, h.donePos_le, h.details, h.metas_le, h.stored, h.cp_le, fun n t ht => ?_,
        h.keepSync⟩
      exact ⟨(h.threads n t ht).1, (h.threads n t ht).2.imp id fun hle => hle.trans hm.1⟩
    · exact h
  | restart =>
    exact ⟨h.cp_le, Nat.zero_le _, fun _ hd => (nomatch hd),
      fun _ m hm => absurd hm (Finset.notMem_empty m), h.stored, h.cp_le, fun _ _ ht => (nomatch ht),
      trivial⟩

variable (cfg) in
structure World.Sound (w : World) : Prop where
  log : LogOk cfg w.log
  store : w.store.Sound cfg w.log

variable {w : World}

lemma World.Sound.init : (Store.store cfg).init.Sound cfg := by
  have hmax : 0 < uint64Max := by decide
  exact ⟨⟨fun _ hb => (nomatch hb), hmax⟩, Replica.Sound.init⟩

lemma World.Sound.step (h : w.Sound cfg) (e : Event) : (w.step cfg e).Sound cfg := by
  cases e with
  | choose batch =>
    dsimp only [World.step]
    split
    · rename_i hb
      exact ⟨h.log.append hb.1 hb.2, h.store.append batch⟩
    · exact h
  | store e => exact ⟨h.log, h.store.step h.log e⟩

lemma World.Sound.exec (h : w.Sound cfg) (es : List Event) :
    ((Store.store cfg).exec w es).Sound cfg := by
  have hstep : ∀ (w : World) e, w.Sound cfg → ((Store.store cfg).step w e).Sound cfg :=
    fun _ e h => h.step e
  exact (Machine.Always.of_step hstep h es).last

end

end PhxQueue.Store
