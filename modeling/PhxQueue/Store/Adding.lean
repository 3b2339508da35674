import PhxQueue.Store.Checkpoint
import PhxQueue.Store.MetaQueue
import PhxQueue.Store.Steps

/-!
# Adding each instance once

`BaseMgr::Add` on the queues as the source has them.  A store runs on its sets of cursors as before;
next to it the real queues get the pushes and the erasures of the same steps.

* `baseAdd`             `BaseMgr::Add` with what it returns;
* `Filled`, `filling`   a store and its queues;
* `Filled.Coupled`      the sets are the cursors of the queues;
* `AddedOnce`           an executed instance has one meta in a queue it has items for, or has been
                        acknowledged there, and a request is skipped only if it has its meta;
* `addedOnce_run`       **so it is while no round that dumps has been overtaken**;
* `overtakenRestart_not_addedOnce`   a round that has, and a restart.
-/

set_option linter.unusedSectionVars false

namespace PhxQueue.Store
open Comm Config Lib

section
variable (cfg : StoreConfig) (crc32 : ℕ → ℕ → ℕ)

/-- `NeedSkipAdd` on a queue. -/
def needSkip (queue : MetaQueue) (cursorId : ℕ) (req : AddRequest) : Bool :=
  if req.items = [] then true else
  match queue.back with
  | some m => if m.1 ≥ cursorId then true else !cfg.topic.isValidQueue req.queueId
  | none => !cfg.topic.isValidQueue req.queueId

/-- `BaseMgr::Add`; `RET_ADD_SKIP` is no error to its callers. -/
def baseAdd (queues : ℕ → MetaQueue) (cursorId : ℕ) (req : AddRequest) :
    RetCode × (ℕ → MetaQueue) :=
  match cfg.topic.getQueueInfoByQueue req.queueId with
  | .error ret => (ret, queues)
  | .ok _ =>
    if req.items = [] then (.ok, queues) else
    if needSkip cfg (queues req.queueId) cursorId req then (.addSkip, queues)
    else (.ok, Function.update queues req.queueId
      ((queues req.queueId).pushBack crc32 cursorId).1)

def nextAdd (log : Log) (s : Replica) : Option AddRequest :=
  if s.applying = .add then ((valuesOf log s.now)[s.pos]?).bind StorePaxosArgs.addReq else none

/-- What a step of `MakeCheckPoint` does to the queues. -/
def roundQueues (queues : ℕ → MetaQueue) (r : CheckRound) : ℕ → MetaQueue :=
  match r.queues, r.groups with
  | q :: _, [] =>
    if r.finish = false ∧ r.updated = false ∧ r.needUpdate then
      Function.update queues q (if r.minPrev = uint64Max then (queues q).clear
        else (queues q).eraseFrontTill r.minPrev)
    else queues
  | _, _ => queues

/-- What a step of a store does to the queues. -/
def stepQueues (log : Log) (s : Replica) (queues : ℕ → MetaQueue) : StoreEvent → (ℕ → MetaQueue)
  | .execute =>
    match nextAdd log s with
    | some req => (baseAdd cfg crc32 queues s.now req).2
    | none => queues
  | .keepSync =>
    match s.keepSync with
    | .checkPoint r => roundQueues queues r
    | _ => queues
  | .restart => fun _ => {}
  | _ => queues

structure Filled where
  world : World := {}
  queues : ℕ → MetaQueue := fun _ => {}

inductive FillEvent
  | world (e : Event)
  /-- A `Get` searches a queue, or the statistics of one are set: no cursor changes. -/
  | next (queueId cursorId : ℕ)
  | updateDequeueStat (queueId cursorId : ℕ)
  | clearDequeueStat (queueId : ℕ)

def filling : Machine Filled FillEvent where
  init := {}
  step s
    | .world (.choose batch) => { s with world := s.world.step cfg (.choose batch) }
    | .world (.store e) =>
      { world := s.world.step cfg (.store e)
        queues := stepQueues cfg crc32 s.world.log s.world.store s.queues e }
    | .next q c => { s with queues := Function.update s.queues q ((s.queues q).next crc32 c).1 }
    | .updateDequeueStat q c =>
      { s with queues := Function.update s.queues q ((s.queues q).updateDequeueStat c) }
    | .clearDequeueStat q =>
      { s with queues := Function.update s.queues q (s.queues q).clearDequeueStat }

/-- Instance `i` has been executed as far as items for queue `q`. -/
def Executed (w : World) (q i : ℕ) : Prop :=
  (i < w.store.now ∧ itemsOf w.log q i ≠ []) ∨
    (i = w.store.now ∧ ∃ (k : ℕ) (args : StorePaxosArgs) (req : AddRequest), k < w.store.donePos ∧
      (valuesOf w.log w.store.now)[k]? = some args ∧ args.addReq = some req ∧ req.queueId = q ∧
      req.items ≠ [])

/-- The number of metas of an instance in a queue. -/
def metasOf (queue : MetaQueue) (i : ℕ) : ℕ := queue.metas.entries.countP fun m => m.1 = i

/-- What has been executed is in its queues once, if not acknowledged, and what is skipped is. -/
structure AddedOnce (s : Filled) : Prop where
  once : ∀ q i, Executed s.world q i → metasOf (s.queues q) i = 1 ∨
    (metasOf (s.queues q) i = 0 ∧ AckedByAll cfg s.world.store.sync q i)
  skipped : ∀ req ∈ nextAdd s.world.log s.world.store,
    (baseAdd cfg crc32 s.queues s.world.store.now req).1 = .addSkip →
    metasOf (s.queues req.queueId) s.world.store.now = 1

/-- The condition of `Store/Checkpoint` on the steps of the store. -/
def Filled.NotOvertaken (s : Filled) : FillEvent → Prop
  | .world e => s.world.NotOvertaken e
  | _ => True

instance decidableNotOvertaken (s : Filled) : ∀ e, Decidable (s.NotOvertaken e)
  | .world e => inferInstanceAs (Decidable (s.world.NotOvertaken e))
  | .next _ _ | .updateDequeueStat _ _ | .clearDequeueStat _ => inferInstanceAs (Decidable True)

/-- The sets of cursors are those of the queues. -/
def Filled.Coupled (s : Filled) : Prop := ∀ q, (s.queues q).cursors = s.world.store.metas q

end

/-! ## The queues and their cursors -/

section
variable {cfg : StoreConfig} {crc32 : ℕ → ℕ → ℕ} {log : Log} {s : Replica}
  {queues : ℕ → MetaQueue}

lemma metasOf_eq (queue : MetaQueue) (i : ℕ) :
    metasOf queue i = if i ∈ queue.cursors then 1 else 0 := by
  unfold metasOf
  have hcard := MetaQueue.card_filter_cursors (q := queue) (fun c => c = i)
  rw [List.countP_eq_length_filter, ← hcard, Finset.filter_eq']
  split <;> rfl

lemma back_cursors (queue : MetaQueue) : queue.back.map Prod.fst = queue.cursors.back := by
  cases hback : queue.back with
  | none =>
    have hnil := MetaQueue.back_eq_none.mp hback
    unfold MetaQueue.cursors
    rw [hnil]
    rfl
  | some m =>
    have hmem := MetaQueue.cursors_mem (List.mem_of_getLast? hback)
    cases hb : queue.cursors.back with
    | none =>
      have hempty : queue.cursors = ∅ := Finset.max_eq_bot.mp hb
      rw [hempty] at hmem
      exact absurd hmem (Finset.notMem_empty _)
    | some b =>
      have hle := StoreMetaQueue.le_back hb hmem
      have hge := OrderedMap.le_last hback b (MetaQueue.mem_cursors.mp (StoreMetaQueue.back_mem hb))
      rw [Option.map_some, le_antisymm hle hge]

lemma needSkip_eq (queue : MetaQueue) (c : ℕ) (req : AddRequest) :
    needSkip cfg queue c req = needSkipAdd cfg queue.cursors c req := by
  unfold needSkip needSkipAdd
  rw [← back_cursors]
  cases queue.back <;> rfl

lemma getQueueInfoByQueue_neg {topic : TopicConfig} {q : ℤ} {ret : RetCode}
    (h : topic.getQueueInfoByQueue q = .error ret) : ret.asInteger < 0 := by
  unfold TopicConfig.getQueueInfoByQueue at h
  split at h
  · cases h
    decide
  · split at h
    · cases h
      decide
    · cases h

lemma cursors_update (q : ℕ) (queue : MetaQueue) :
    (fun q' => (Function.update queues q queue q').cursors) =
      Function.update (fun q' => (queues q').cursors) q queue.cursors := by
  funext q'
  by_cases hq : q' = q
  · subst hq
    rw [Function.update_self, Function.update_self]
  · rw [Function.update_of_ne hq, Function.update_of_ne hq]

/-- **`BaseMgr::Add` does to the cursors what `add` does.** -/
theorem add_eq (c : ℕ) (req : AddRequest) :
    (∃ ret, ret.asInteger < 0 ∧ baseAdd cfg crc32 queues c req = (ret, queues) ∧
      add cfg (fun q => (queues q).cursors) c req = .error ret) ∨
    (0 ≤ (baseAdd cfg crc32 queues c req).1.asInteger ∧
      add cfg (fun q => (queues q).cursors) c req =
        .ok fun q => ((baseAdd cfg crc32 queues c req).2 q).cursors) := by
  unfold baseAdd add
  cases hinfo : cfg.topic.getQueueInfoByQueue req.queueId with
  | error ret => exact Or.inl ⟨ret, getQueueInfoByQueue_neg hinfo, rfl, rfl⟩
  | ok info =>
    right
    dsimp only
    by_cases hitems : req.items = []
    · rw [if_pos hitems, if_pos hitems]
      exact ⟨le_refl 0, rfl⟩
    rw [if_neg hitems, if_neg hitems, needSkip_eq]
    by_cases hskip : needSkipAdd cfg (queues req.queueId).cursors c req
    · have hadd : 0 ≤ RetCode.addSkip.asInteger := by decide
      rw [if_pos hskip, if_pos hskip]
      exact ⟨hadd, rfl⟩
    · rw [if_neg hskip, if_neg hskip, cursors_update, MetaQueue.cursors_pushBack]
      exact ⟨le_refl 0, rfl⟩

/-! ## Coupling -/

lemma metas_executeStep : (s.executeStep cfg log).metas =
    match nextAdd log s with
    | some req => (add cfg s.metas s.now req).toOption.getD s.metas
    | none => s.metas := by
  unfold nextAdd Replica.executeStep valuesOf
  cases hb : log[s.now]? with
  | none => split <;> rename_i h <;> simp at h ⊢
  | some batch =>
    dsimp only [Option.getD_some]
    cases ha : batch[s.pos]? with
    | none => split <;> rename_i h <;> simp at h ⊢
    | some args =>
      dsimp only [Option.bind_some]
      cases happ : s.applying with
      | add =>
        rw [if_pos rfl]
        cases hreq : args.addReq with
        | none => rfl
        | some req =>
          dsimp only
          cases hadd : add cfg s.metas s.now req <;> rfl
      | compare details =>
        rw [if_neg (fun h => nomatch h)]
        dsimp only
        cases details with
        | nil => rfl
        | cons d ds =>
          dsimp only
          repeat' split
          all_goals rfl
      | writePrev d ds =>
        rw [if_neg (fun h => nomatch h)]
        dsimp only
        split <;> rfl
      | writeNext d ds =>
        rw [if_neg (fun h => nomatch h)]
        dsimp only
        split <;> rfl

lemma metas_dumpCheckPoint (s : Replica) (cp : ℕ) : (s.dumpCheckPoint cp).metas = s.metas := by
  unfold Replica.dumpCheckPoint
  repeat' split
  all_goals rfl

/-- A step of a round erases from the queues what it erases from the sets. -/
lemma coupled_round (hq : ∀ q, (queues q).cursors = s.metas q) (r : CheckRound) (q : ℕ) :
    (roundQueues queues r q).cursors = (s.roundStep cfg r).metas q := by
  unfold roundQueues Replica.roundStep
  cases hqueues : r.queues with
  | nil =>
    show (queues q).cursors = (s.dumpCheckPoint r.dumpCp).metas q
    rw [metas_dumpCheckPoint, hq]
  | cons q' qs =>
    cases hfinish : r.finish with
    | true =>
      dsimp only
      rw [if_pos rfl]
      show _ = (s.dumpCheckPoint r.dumpCp).metas q
      rw [metas_dumpCheckPoint]
      cases r.groups with
      | nil => simp [hq]
      | cons g gs => exact hq q
    | false =>
      dsimp only
      rw [if_neg Bool.false_ne_true]
      cases hgroups : r.groups with
      | cons g gs => exact hq q
      | nil =>
        cases hupdated : r.updated with
        | true => simp [hq]
        | false =>
          cases hneed : r.needUpdate with
          | false => simp [hq]
          | true =>
            dsimp only
            rw [if_pos ⟨rfl, rfl, rfl⟩, if_neg Bool.false_ne_true, if_pos rfl]
            dsimp only
            by_cases hqq : q = q'
            · subst hqq
              rw [Function.update_self, Function.update_self]
              split
              · rfl
              · rw [MetaQueue.cursors_eraseFrontTill, hq]
            · rw [Function.update_of_ne hqq, Function.update_of_ne hqq]
              exact hq q

/-- The steps that are neither execution, nor one of a round, nor a restart leave the sets. -/
lemma metas_step {e : StoreEvent} (he : e ≠ .execute) (hk : e ≠ .keepSync) (hr : e ≠ .restart) :
    (s.step cfg log e).metas = s.metas := by
  obtain ⟨sync, minChosen, gets, k, hstep, _⟩ := @step_outside cfg log s e he hk hr
  rw [hstep]

lemma cursors_keep {queue queue' : MetaQueue} (h : queue'.metas = queue.metas) :
    queue'.cursors = queue.cursors := by
  unfold MetaQueue.cursors
  rw [h]

lemma cursors_update_keep {q : ℕ} {queue : MetaQueue} (h : queue.metas = (queues q).metas) (q' : ℕ) :
    (Function.update queues q queue q').cursors = (queues q').cursors := by
  by_cases hq : q' = q
  · subst hq
    rw [Function.update_self]
    exact cursors_keep h
  · rw [Function.update_of_ne hq]

theorem Filled.Coupled.step {s : Filled} (h : s.Coupled) (e : FillEvent) :
    ((filling cfg crc32).step s e).Coupled := by
  intro q
  cases e with
  | next q' c =>
    exact (cursors_update_keep (MetaQueue.metas_next c) q).trans (h q)
  | updateDequeueStat q' c =>
    exact (cursors_update_keep (MetaQueue.metas_updateDequeueStat c) q).trans (h q)
  | clearDequeueStat q' =>
    have hkeep : (s.queues q').clearDequeueStat.metas = (s.queues q').metas := rfl
    exact (cursors_update_keep hkeep q).trans (h q)
  | world e =>
    cases e with
    | choose batch =>
      show (s.queues q).cursors = (s.world.step cfg (.choose batch)).store.metas q
      rw [h q]
      unfold World.step
      dsimp only
      split <;> rfl
    | store e =>
      show (stepQueues cfg crc32 s.world.log s.world.store s.queues e q).cursors =
        (s.world.store.step cfg s.world.log e).metas q
      cases e with
      | execute =>
        show _ = (s.world.store.executeStep cfg s.world.log).metas q
        rw [metas_executeStep]
        dsimp only [stepQueues]
        cases nextAdd s.world.log s.world.store with
        | none => exact h q
        | some req =>
          dsimp only
          have hmetas : (fun q => (s.queues q).cursors) = s.world.store.metas := funext h
          rcases @add_eq cfg crc32 s.queues s.world.store.now req with
            ⟨ret, _, hbase, hadd⟩ | ⟨_, hadd⟩
          · rw [hbase, ← hmetas, hadd]
            rfl
          · rw [← hmetas, hadd]
            rfl
      | keepSync =>
        show _ = (s.world.store.keepSyncStep cfg).metas q
        dsimp only [stepQueues]
        unfold Replica.keepSyncStep
        cases hk : s.world.store.keepSync with
        | idle => exact h q
        | checkPoint r => exact coupled_round h r q
        | sync todo details =>
          cases todo with
          | nil => exact h q
          | cons x todo =>
            dsimp only
            split <;> exact h q
        | replay q' g r isPrev => exact h q
      | restart => rfl
      | startGet | get | endGet | startRound | startSync | startReplay | clear | truncate =>
        refine (h q).trans (congrFun (metas_step ?_ ?_ ?_) q).symm <;>
        · intro heq
          cases heq

/-! ## Runs -/

/-- What is known of a store and its queues. -/
structure Filled.Inv (cfg : StoreConfig) (s : Filled) : Prop where
  world : s.world.Inv cfg
  coupled : s.Coupled

lemma Filled.Inv.init : ((filling cfg crc32).init).Inv cfg := ⟨World.Inv.init, fun _ => rfl⟩

theorem Filled.Inv.step {s : Filled} (h : s.Inv cfg) {e : FillEvent} (hok : s.NotOvertaken e) :
    ((filling cfg crc32).step s e).Inv cfg := by
  refine ⟨?_, h.coupled.step e⟩
  cases e with
  | next q c => exact h.world
  | updateDequeueStat q c => exact h.world
  | clearDequeueStat q => exact h.world
  | world e =>
    have hok : s.world.NotOvertaken e := hok
    cases e with
    | choose batch => exact h.world.step hok
    | store e => exact h.world.step hok

lemma metasOf_coupled {s : Filled} (h : s.Coupled) (q i : ℕ) :
    metasOf (s.queues q) i = if i ∈ s.world.store.metas q then 1 else 0 := by
  rw [metasOf_eq, h q]

/-- The request that execution comes to is one of the values of the instance. -/
lemma of_nextAdd {req : AddRequest} (h : nextAdd log s = some req) :
    ∃ args, (valuesOf log s.now)[s.pos]? = some args ∧ args.addReq = some req := by
  unfold nextAdd at h
  split at h
  · obtain ⟨args, hargs, hreq⟩ := Option.bind_eq_some_iff.mp h
    exact ⟨args, hargs, hreq⟩
  · cases h

/-- `RET_ADD_SKIP` is returned for a request with items that need not be added. -/
lemma of_addSkip {c : ℕ} {req : AddRequest}
    (h : (baseAdd cfg crc32 queues c req).1 = .addSkip) :
    req.items ≠ [] ∧ needSkipAdd cfg (queues req.queueId).cursors c req := by
  unfold baseAdd at h
  cases hinfo : cfg.topic.getQueueInfoByQueue req.queueId with
  | error ret =>
    have hneg := getQueueInfoByQueue_neg hinfo
    have hskip : ¬ RetCode.addSkip.asInteger < 0 := by decide
    rw [hinfo] at h
    cases h
    exact absurd hneg hskip
  | ok info =>
    rw [hinfo] at h
    dsimp only at h
    by_cases hitems : req.items = []
    · rw [if_pos hitems] at h
      cases h
    rw [if_neg hitems, needSkip_eq] at h
    by_cases hskip : needSkipAdd cfg (queues req.queueId).cursors c req
    · exact ⟨hitems, hskip⟩
    · rw [if_neg hskip] at h
      cases h

/-- A valid request that need not be added is for the last meta. -/
lemma mem_of_needSkipAdd {metas : StoreMetaQueue} {c : ℕ} {req : AddRequest}
    (hitems : req.items ≠ []) (hvalid : cfg.topic.isValidQueue req.queueId)
    (hle : ∀ m ∈ metas, m ≤ c) (hskip : needSkipAdd cfg metas c req) : c ∈ metas := by
  unfold needSkipAdd at hskip
  rw [if_neg hitems, hvalid] at hskip
  cases hback : metas.back with
  | none =>
    rw [hback] at hskip
    cases hskip
  | some m =>
    rw [hback] at hskip
    dsimp only at hskip
    by_cases hge : m ≥ c
    · have hmem := StoreMetaQueue.back_mem hback
      rwa [le_antisymm hge (hle m hmem)]
    · rw [if_neg hge] at hskip
      cases hskip

lemma Filled.Inv.addedOnce {s : Filled} (h : s.Inv cfg) : AddedOnce cfg crc32 s where
  once := by
    intro q i hexec
    have hretained : Retained cfg s.world.store.metas s.world.store.sync q i := by
      rcases hexec with ⟨hi, hne⟩ | ⟨rfl, k, args, req, hk, hargs, hreq, rfl, hne⟩
      · exact h.world.store.held q i hi hne
      · exact h.world.store.heldNow k args req hk hargs hreq hne
    rw [metasOf_coupled h.coupled]
    split
    · exact Or.inl rfl
    · rename_i hmem
      exact Or.inr ⟨rfl, hretained.resolve_left hmem⟩
  skipped := by
    intro req hreq hskip
    obtain ⟨args, hargs, hreq⟩ := of_nextAdd hreq
    obtain ⟨hitems, hneed⟩ := of_addSkip hskip
    rw [h.coupled req.queueId] at hneed
    have hvalid := ((h.world.log.of_getD hargs).1 req hreq).2
    have hmem := mem_of_needSkipAdd hitems hvalid (h.world.store.metas_le req.queueId) hneed
    rw [metasOf_coupled h.coupled, if_pos hmem]

/-- **Adding is complete, and adds nothing twice**, in every run in which no round that dumps has
been overtaken: with several requests of an instance for one queue, and with instances that are
executed again after a restart. -/
theorem addedOnce_run (cfg : StoreConfig) (crc32 : ℕ → ℕ → ℕ) (es : List FillEvent)
    (hok : (filling cfg crc32).Along Filled.NotOvertaken (filling cfg crc32).init es) :
    (filling cfg crc32).Always (AddedOnce cfg crc32) (filling cfg crc32).init es := by
  have hstep : ∀ (s : Filled) (e : FillEvent), s.Inv cfg → s.NotOvertaken e →
      ((filling cfg crc32).step s e).Inv cfg := fun s e h hok => h.step hok
  have hinv := Machine.Always.of_inv hstep Filled.Inv.init hok
  exact hinv.mono fun s h => h.addedOnce

end

/-- Two instances for one queue are executed; the store restarts, and the first one is executed
again. -/
def executedAgain : List Event :=
  addOne 0 ++ addOne 0 ++ [.store .restart, .store .execute, .store .execute, .store .execute]

def noCrc (_ _ : ℕ) : ℕ := 0

theorem executedAgain_addedOnce :
    (filling twoQueues noCrc).Along Filled.NotOvertaken (filling twoQueues noCrc).init
        (executedAgain.map .world) ∧
      (filling twoQueues noCrc).Always (AddedOnce twoQueues noCrc) (filling twoQueues noCrc).init
        (executedAgain.map .world) := by
  have hok : (filling twoQueues noCrc).Along Filled.NotOvertaken (filling twoQueues noCrc).init
      (executedAgain.map .world) := by decide
  exact ⟨hok, addedOnce_run twoQueues noCrc _ hok⟩

/-- After an overtaken round the store restarts above an instance nobody has acknowledged. -/
def overtakenRestart : List Event := overtakenRound ++ [.store .restart]

theorem overtakenRestart_not_addedOnce :
    ¬ (filling twoQueues noCrc).Always (AddedOnce twoQueues noCrc) (filling twoQueues noCrc).init
      (overtakenRestart.map .world) := by
  intro h
  have hlast := h.last.once 0 0 (Or.inl ⟨by decide, by decide⟩)
  rcases hlast with hone | ⟨_, hacked⟩
  · exact absurd hone (by decide)
  · exact absurd (hacked 1 (by decide) (by decide)) (by decide)

end PhxQueue.Store
