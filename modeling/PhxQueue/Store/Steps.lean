import PhxQueue.Store.Replica

/-!
# The steps of a store, inverted

What one operation of a running `Get`, and one of the execution, can do to the replica.

* `GetReads`, `GetStep`   a thread reads, publishes a cursor, or ends;
* `getStep_cases`         **every step of a thread is one of these**;
* `ExecuteStep`, `executeStep_cases`   the same for the execution of the log;
* `Frame`                 what the keep-sync thread leaves alone while it does not replay;
* `step_outside`          what all other steps leave alone.
-/

set_option linter.unusedSectionVars false

namespace PhxQueue.Store
open Comm Lib Config

section
variable (cfg : StoreConfig) (log : Log) (s : Replica)

/-! ## Get -/

/-- The thread reads the shared state and moves on. -/
inductive GetReads (t : GetThread) : GetThread → Prop
  | svrPrev (phase : t.phase = .svrPrev) : GetReads t { t with
      svrPrev := (s.sync.getCursorID cfg.opt t.req.consumerGroupId t.req.queueId).toOption.getD
        uint64Max
      phase := .checkPoint }
  | checkPoint (phase : t.phase = .checkPoint) :
      GetReads t { t with cp := s.checkPoint, phase := .minInstance }
  | minInstance (phase : t.phase = .minInstance) :
      GetReads t (enterLoop { t with minInstance := s.minChosen })
  | loop (phase : t.phase = .loop) (timeUp : Bool) :
      GetReads t (loopStep t (s.metas t.req.queueId) timeUp)
  | items (cur : ℕ) (phase : t.phase = .items cur) (items : List QItem)
      (hitems : getItemsByCursorID log s.now s.minChosen t.req.queueId cur = .ok items) :
      GetReads t (takeItems cfg t cur items)
  | notChosen (cur : ℕ) (phase : t.phase = .items cur) (now : s.now ≤ cur) :
      GetReads t { t with phase := .updatePrev }
  | random (phase : t.phase = .updatePrev) (random : t.req.random = true) :
      GetReads t { t with phase := .done }
  | noPrev (phase : t.phase = .updatePrev) (random : t.req.random = false)
      (prev : t.prev = uint64Max) : GetReads t { t with phase := .updateNext }
  | noNext (phase : t.phase = .updateNext) (next : t.next = uint64Max) :
      GetReads t { t with phase := .done }

/-- What a step of thread `n`, which is at `t`, makes of the replica. -/
inductive GetStep (n : ℕ) (t : GetThread) : Replica → Prop
  | reads (t' : GetThread) (reads : GetReads cfg log s t t') : GetStep n t (s.setGet n (some t'))
  | prev (phase : t.phase = .updatePrev) (random : t.req.random = false)
      (prev : t.prev ≠ uint64Max) (sync : SyncCtrl)
      (update : s.sync.updateCursorID cfg.opt t.req.consumerGroupId t.req.queueId t.prev true
        = .ok sync) :
      GetStep n t (({ s with sync := sync } : Replica).setGet n
        (some { t with phase := .updateNext }))
  | next (phase : t.phase = .updateNext) (next : t.next ≠ uint64Max) (sync : SyncCtrl)
      (update : s.sync.updateCursorID cfg.opt t.req.consumerGroupId t.req.queueId t.next false
        = .ok sync) :
      GetStep n t (({ s with sync := sync } : Replica).setGet n (some { t with phase := .done }))
  | fails (phase : (t.phase = .updatePrev ∧ t.req.random = false) ∨ t.phase = .updateNext)
      (range : ¬ SyncCtrl.inTable cfg.opt t.req.consumerGroupId t.req.queueId) :
      GetStep n t (s.setGet n none)
  | done (phase : t.phase = .done) : GetStep n t s

/-! ## Execution -/

/-- What a step of the execution makes of the replica; `args` is the value it is at. -/
inductive ExecuteStep : Replica → Prop
  | idle : ExecuteStep s
  | advance (now : s.now < log.length) (pos : (valuesOf log s.now).length ≤ s.pos) :
      ExecuteStep { s with now := s.now + 1, pos := 0, applying := .add }
  | noAdd (args : StorePaxosArgs) (at_ : (valuesOf log s.now)[s.pos]? = some args)
      (applying : s.applying = .add) (none : args.addReq = none) :
      ExecuteStep { s with applying := .compare args.syncCtrlInfo }
  | add (args : StorePaxosArgs) (at_ : (valuesOf log s.now)[s.pos]? = some args)
      (applying : s.applying = .add) (req : AddRequest) (some : args.addReq = some req)
      (metas : ℕ → StoreMetaQueue) (ok : Store.add cfg s.metas s.now req = .ok metas) :
      ExecuteStep { s with metas := metas, applying := .compare args.syncCtrlInfo }
  | skip (applying : s.applying = .compare []) :
      ExecuteStep { s with pos := s.pos + 1, applying := .add }
  | known (d : SyncDetail) (ds : List SyncDetail) (applying : s.applying = .compare (d :: ds))
      (cur : ℕ) (stored : s.sync.getCursorID cfg.opt d.consumerGroupId d.queueId = .ok cur)
      (ge : cur ≥ d.prevCursorId) : ExecuteStep { s with applying := .compare ds }
  | behind (d : SyncDetail) (ds : List SyncDetail) (applying : s.applying = .compare (d :: ds)) :
      ExecuteStep { s with applying := .writePrev d ds }
  | prev (d : SyncDetail) (ds : List SyncDetail) (applying : s.applying = .writePrev d ds)
      (sync : SyncCtrl) (update : s.sync.updateCursorID cfg.opt d.consumerGroupId d.queueId
        d.prevCursorId true = .ok sync) :
      ExecuteStep { s with sync := sync, applying := .writeNext d ds }
  | next (d : SyncDetail) (ds : List SyncDetail) (applying : s.applying = .writeNext d ds)
      (sync : SyncCtrl) (update : s.sync.updateCursorID cfg.opt d.consumerGroupId d.queueId
        d.prevCursorId false = .ok sync) :
      ExecuteStep { s with sync := sync, applying := .compare ds }
  | fails (d : SyncDetail) (ds : List SyncDetail)
      (applying : s.applying = .writePrev d ds ∨ s.applying = .writeNext d ds)
      (range : ¬ SyncCtrl.inTable cfg.opt d.consumerGroupId d.queueId) :
      ExecuteStep { s with applying := .add }

end

variable {cfg : StoreConfig} {log : Log} {s : Replica}

lemma not_inTable_of_error {sync : SyncCtrl} {g q c : ℕ} {isPrev : Bool} {e : RetCode}
    (h : sync.updateCursorID cfg.opt g q c isPrev = .error e) : ¬ SyncCtrl.inTable cfg.opt g q := by
  intro hin
  unfold SyncCtrl.updateCursorID at h
  rw [if_pos hin] at h
  cases h

lemma le_of_getItems_error {now minChosen q cur : ℕ} {e : RetCode}
    (h : getItemsByCursorID log now minChosen q cur = .error e) : now ≤ cur := by
  unfold getItemsByCursorID at h
  by_contra hn
  rw [if_neg hn] at h
  split at h <;> cases h

lemma gets_setGet_self {n : ℕ} {t' : Option GetThread} : (s.setGet n t').gets n = t' :=
  Function.update_self _ _ _

lemma gets_setGet_of_ne {n m : ℕ} (h : m ≠ n) {t' : Option GetThread} :
    (s.setGet n t').gets m = s.gets m := Function.update_of_ne h _ _

/-- The errors of `AdjustNextCursorID`. -/
lemma adjustNextCursorID_error {sync : SyncCtrl} {g q p n : ℕ} {ret : RetCode}
    (h : sync.adjustNextCursorID cfg.opt g q p n = .error ret) :
    ret = .errArg ∨ (ret = .errCursorNotFound ∧ SyncCtrl.inTable cfg.opt g q ∧
      (sync q g).prev = none) := by
  unfold SyncCtrl.adjustNextCursorID at h
  split at h
  · rename_i hin
    dsimp only at h
    split at h
    · split at h
      · rename_i hp
        cases h
        exact .inr ⟨rfl, hin, hp⟩
      · cases h
    · cases h
  · cases h
    exact .inl rfl

lemma startGet_eq {sync : SyncCtrl} {req : GetRequest} {t : GetThread}
    (h : startGet cfg sync req = .ok t) : ∃ queueInfoId p n,
      t = { req := req, queueInfoId := queueInfoId, cliPrev := p, cliNext := n, prev := p
            next := n } := by
  unfold startGet at h
  split at h
  · cases h
  split at h
  · cases h
  dsimp only at h
  split at h
  · cases h
    exact ⟨_, _, _, rfl⟩
  split at h
  · cases h
    exact ⟨_, _, _, rfl⟩
  split at h
  · cases h
  · cases h
    exact ⟨_, _, _, rfl⟩

theorem getStep_cases {n : ℕ} {t : GetThread} (ht : s.gets n = some t) (timeUp : Bool) :
    GetStep cfg log s n t (s.getStep cfg log n timeUp) := by
  unfold Replica.getStep
  rw [ht]
  dsimp only
  split
  · rename_i hp
    exact .reads _ (.svrPrev hp)
  · rename_i hp
    exact .reads _ (.checkPoint hp)
  · rename_i hp
    exact .reads _ (.minInstance hp)
  · rename_i hp
    exact .reads _ (.loop hp timeUp)
  · rename_i cur hp
    split
    · rename_i e he
      exact .reads _ (.notChosen cur hp (le_of_getItems_error he))
    · rename_i items hitems
      exact .reads _ (.items cur hp items hitems)
  · rename_i hp
    split
    · rename_i hrandom
      exact .reads _ (.random hp hrandom)
    rename_i hrandom
    have hrandom := Bool.eq_false_iff.mpr hrandom
    split
    · rename_i hprev
      exact .reads _ (.noPrev hp hrandom hprev)
    rename_i hprev
    split
    · rename_i e he
      exact .fails (.inl ⟨hp, hrandom⟩) (not_inTable_of_error he)
    · rename_i sync hu
      exact .prev hp hrandom hprev sync hu
  · rename_i hp
    split
    · rename_i hnext
      exact .reads _ (.noNext hp hnext)
    rename_i hnext
    split
    · rename_i e he
      exact .fails (.inr hp) (not_inTable_of_error he)
    · rename_i sync hu
      exact .next hp hnext sync hu
  · rename_i hp
    exact .done hp

/-- Between the publications a thread reads only to skip the second one. -/
lemma GetReads.next_eq {t t' : GetThread} (h : GetReads cfg log s t t')
    (hphase : t.phase = .updateNext) : t.next = uint64Max := by
  cases h with
  | noNext phase next => exact next
  | _ => simp_all

lemma GetReads.req_eq {t t' : GetThread} (h : GetReads cfg log s t t') : t'.req = t.req := by
  cases h with
  | minInstance phase =>
    unfold enterLoop
    split <;> rfl
  | loop phase timeUp =>
    unfold loopStep
    repeat' split
    all_goals rfl
  | items cur phase items hitems =>
    unfold takeItems
    repeat' split
    all_goals rfl
  | svrPrev phase | checkPoint phase | notChosen cur phase now | random phase random
  | noPrev phase random prev | noNext phase next => rfl

theorem executeStep_cases : ExecuteStep cfg log s (s.executeStep cfg log) := by
  unfold Replica.executeStep
  split
  · exact .idle
  rename_i batch hb
  have hvalues : valuesOf log s.now = batch := by
    unfold valuesOf
    rw [hb]
    rfl
  split
  · rename_i ha
    refine .advance (List.getElem?_eq_some_iff.mp hb).1 ?_
    rw [hvalues]
    exact List.getElem?_eq_none_iff.mp ha
  rename_i args ha
  have hargs : (valuesOf log s.now)[s.pos]? = some args := by rwa [hvalues]
  split
  · rename_i happ
    split
    · rename_i hreq
      exact .noAdd args hargs happ hreq
    rename_i req hreq
    split
    · exact .idle
    · rename_i metas hadd
      exact .add args hargs happ req hreq metas hadd
  · rename_i happ
    exact .skip happ
  · rename_i d ds happ
    split
    · rename_i cur hcur
      split
      · rename_i hge
        exact .known d ds happ cur hcur hge
      · exact .behind d ds happ
    · exact .behind d ds happ
  · rename_i d ds happ
    split
    · rename_i e he
      exact .fails d ds (.inl happ) (not_inTable_of_error he)
    · rename_i sync hu
      exact .prev d ds happ sync hu
  · rename_i d ds happ
    split
    · rename_i e he
      exact .fails d ds (.inr happ) (not_inTable_of_error he)
    · rename_i sync hu
      exact .next d ds happ sync hu

/-! ## The keep-sync thread -/

/-- The execution, the cursors and the threads stay, and no meta is added. -/
structure Frame (s s' : Replica) : Prop where
  now : s'.now = s.now
  pos : s'.pos = s.pos
  applying : s'.applying = s.applying
  sync : s'.sync = s.sync
  gets : s'.gets = s.gets
  minChosen : s'.minChosen = s.minChosen
  metas : ∀ q, s'.metas q ⊆ s.metas q

lemma Frame.refl (s : Replica) : Frame s s := ⟨rfl, rfl, rfl, rfl, rfl, rfl, fun _ _ h => h⟩

lemma Frame.setKeepSync (s : Replica) (k : KeepSync) : Frame s { s with keepSync := k } :=
  ⟨rfl, rfl, rfl, rfl, rfl, rfl, fun _ _ h => h⟩

lemma Frame.dumpCheckPoint (s : Replica) (cp : ℕ) (k : KeepSync) :
    Frame s { s.dumpCheckPoint cp with keepSync := k } := by
  unfold Replica.dumpCheckPoint
  split
  · exact Frame.setKeepSync s k
  split
  · exact Frame.setKeepSync s k
  · exact ⟨rfl, rfl, rfl, rfl, rfl, rfl, fun _ _ h => h⟩

lemma frame_roundStep (s : Replica) (r : CheckRound) : Frame s (s.roundStep cfg r) := by
  unfold Replica.roundStep
  split
  · exact Frame.dumpCheckPoint s _ _
  rename_i q qs hq
  split
  · exact Frame.dumpCheckPoint s _ _
  split
  · exact Frame.setKeepSync s _
  split
  · exact Frame.setKeepSync s _
  refine ⟨rfl, rfl, rfl, rfl, rfl, rfl, fun q' m hm => ?_⟩
  dsimp only at hm
  split at hm
  · by_cases hqq : q' = q
    · subst hqq
      rw [Function.update_self] at hm
      split at hm
      · exact absurd hm (Finset.notMem_empty m)
      · exact (StoreMetaQueue.mem_eraseFrontTill.mp hm).1
    · rwa [Function.update_of_ne hqq] at hm
  · exact hm

/-- A step of the keep-sync thread, or the start of one of its tasks, that is not a replay. -/
lemma frame_step {e : StoreEvent} (he : e = .startRound ∨ e = .startSync ∨ e = .keepSync)
    (hk : ∀ q g r isPrev, s.keepSync ≠ .replay q g r isPrev) : Frame s (s.step cfg log e) := by
  rcases he with rfl | rfl | rfl
  · dsimp only [Replica.step]
    split
    · exact Frame.setKeepSync s _
    · exact Frame.refl s
  · dsimp only [Replica.step]
    split
    · exact Frame.setKeepSync s _
    · exact Frame.refl s
  · dsimp only [Replica.step, Replica.keepSyncStep]
    split
    · exact Frame.refl s
    · exact frame_roundStep s _
    · exact Frame.setKeepSync s _
    · split <;> exact Frame.setKeepSync s _
    · rename_i q g r isPrev hreplay
      exact absurd hreplay (hk q g r isPrev)

/-! ## The other steps -/

/-- **Outside execution, the keep-sync thread and restarts** the log stays where it is executed, and
the metas and the checkpoint stay. -/
lemma step_outside {e : StoreEvent} (he : e ≠ .execute) (hk : e ≠ .keepSync) (hr : e ≠ .restart) :
    ∃ sync minChosen gets keepSync, s.step cfg log e = { s with
      sync := sync, minChosen := minChosen, gets := gets, keepSync := keepSync } ∧
      s.minChosen ≤ minChosen := by
  cases e with
  | execute => exact absurd rfl he
  | keepSync => exact absurd rfl hk
  | restart => exact absurd rfl hr
  | startGet n req =>
    dsimp only [Replica.step, Replica.startGetStep]
    repeat' split
    all_goals exact ⟨_, _, _, _, rfl, le_rfl⟩
  | get n timeUp =>
    dsimp only [Replica.step, Replica.getStep]
    repeat' split
    all_goals exact ⟨_, _, _, _, rfl, le_rfl⟩
  | endGet n =>
    dsimp only [Replica.step, Replica.endGet]
    repeat' split
    all_goals exact ⟨_, _, _, _, rfl, le_rfl⟩
  | startRound | startSync =>
    dsimp only [Replica.step]
    split <;> exact ⟨_, _, _, _, rfl, le_rfl⟩
  | startReplay q g r =>
    dsimp only [Replica.step, Replica.startReplay]
    repeat' split
    all_goals exact ⟨_, _, _, _, rfl, le_rfl⟩
  | clear q g =>
    dsimp only [Replica.step]
    repeat' split
    all_goals exact ⟨_, _, _, _, rfl, le_rfl⟩
  | truncate m =>
    dsimp only [Replica.step]
    split
    · rename_i hm
      exact ⟨_, _, _, _, rfl, hm.1⟩
    · exact ⟨_, _, _, _, rfl, le_rfl⟩

end PhxQueue.Store
