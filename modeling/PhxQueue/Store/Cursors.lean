import PhxQueue.Store.Checkpoint

/-!
# Cursors under concurrency

Every operation on the cursor table locks by itself, but a `Get` adjusts its cursors at the start
and publishes them at the end, and `SyncCursorID` compares before it writes.  What another request
publishes in between may be overwritten by something older.

* `cursorWritten`          the cursor an operation writes to the table;
* `NotStale`               the stored prev cursor has not passed it;
* `cursorsOrdered_of_notStale`   **prev cursors never decrease and stay below the next ones, as long as
                           nothing stale is written**;
* `getTwo`                 a run with two Gets.
-/

set_option linter.unusedSectionVars false

namespace PhxQueue.Store
open Comm Lib Config

/-! ## What is written -/

/-- The queue and group whose cursor an operation writes, and the cursor. -/
def cursorWritten (s : Replica) : StoreEvent → Option (ℕ × ℕ × ℕ)
  | .execute =>
    match s.applying with
    | .writePrev d _ | .writeNext d _ => some (d.queueId, d.consumerGroupId, d.prevCursorId)
    | _ => none
  | .get n _ =>
    match s.gets n with
    | none => none
    | some t =>
      match t.phase with
      | .updatePrev =>
        if t.req.random ∨ t.prev = uint64Max then none
        else some (t.req.queueId, t.req.consumerGroupId, t.prev)
      | .updateNext =>
        if t.next = uint64Max then none
        else some (t.req.queueId, t.req.consumerGroupId, t.next)
      | _ => none
  | _ => none

/-- What is written, as prev or as next cursor, is not behind the stored prev cursor. -/
def NotStale (w : World) : Event → Prop
  | .choose _ => True
  | .store e => ∀ x ∈ cursorWritten w.store e,
      levelOf (w.store.sync x.1 x.2.1).prev ≤ level x.2.2

instance (w : World) : ∀ e, Decidable (NotStale w e)
  | .choose _ => inferInstanceAs (Decidable True)
  | .store e => inferInstanceAs (Decidable (∀ x ∈ cursorWritten w.store e, _ ≤ _))

/-- Gets, `SyncCursorID` and all else that goes on, but no replay, no clearing of cursors and no
restart. -/
def CursorEvent : Event → Prop
  | .store (.clear _ _) | .store (.startReplay _ _ _) | .store .restart => False
  | _ => True

instance : ∀ e, Decidable (CursorEvent e)
  | .choose _ => inferInstanceAs (Decidable True)
  | .store (.clear _ _) | .store (.startReplay _ _ _) | .store .restart =>
    inferInstanceAs (Decidable False)
  | .store (.execute) | .store (.startGet _ _) | .store (.get _ _) | .store (.endGet _)
  | .store .startRound | .store .startSync | .store .keepSync | .store (.truncate _) =>
    inferInstanceAs (Decidable True)

/-- A request has published a prev cursor of the group and its next cursor comes next. -/
def Publishing (s : Replica) (q g : ℕ) : Prop :=
  (∃ n t, s.gets n = some t ∧ t.phase = .updateNext ∧ t.prev ≠ uint64Max ∧
    t.req.queueId = q ∧ t.req.consumerGroupId = g) ∨
  ∃ d ds, s.applying = .writeNext d ds ∧ d.queueId = q ∧ d.consumerGroupId = g

def Ordered (item : SyncCtrlItem) : Prop := ∀ p ∈ item.prev, ∀ n ∈ item.next, p ≤ n

instance (item : SyncCtrlItem) : Decidable (Ordered item) :=
  inferInstanceAs (Decidable (∀ p ∈ item.prev, ∀ n ∈ item.next, p ≤ n))

section
variable (cfg : StoreConfig)

/-- Along the run no stored prev cursor is replaced by a smaller one, or by none. -/
def PrevNeverDecreases (es : List Event) : Prop :=
  ∀ n m, n ≤ m → ∀ q g,
    levelOf (((store cfg).exec (store cfg).init (es.take n)).store.sync q g).prev ≤
      levelOf (((store cfg).exec (store cfg).init (es.take m)).store.sync q g).prev

/-- Where no request is between its two publications, prev is at most next. -/
def OrderedBetween (w : World) : Prop :=
  ∀ q g, ¬ Publishing w.store q g → Ordered (w.store.sync q g)

/-! ## The invariant -/

/-- A running `Get`: it has a next cursor if it has a prev one, and it publishes the next cursor
under a group of the table. -/
structure ThreadOk (t : GetThread) : Prop where
  cp_le : t.cp ≤ uint64Max
  items : ∀ cur, t.phase = .items cur → cur ≠ uint64Max
  next : t.req.random = false → t.prev ≠ uint64Max → t.next ≠ uint64Max
  inTable : t.phase = .updateNext → t.req.random = false ∧
    (t.prev ≠ uint64Max → SyncCtrl.inTable cfg.opt t.req.consumerGroupId t.req.queueId)

def RoundBounded : KeepSync → Prop
  | .checkPoint r => r.cp ≤ uint64Max ∧ r.nowInstanceId ≤ uint64Max
  | .replay _ _ _ _ => False
  | _ => True

structure CursorInv (log : Log) (s : Replica) : Prop where
  now_le : s.now ≤ log.length
  donePos_le : s.donePos ≤ (valuesOf log s.now).length
  metas_le : ∀ q, ∀ m ∈ s.metas q, m ≤ s.now
  cp_le : s.checkPoint ≤ uint64Max
  keepSync : RoundBounded s.keepSync
  details : ∀ d ∈ s.applying.details, d.prevCursorId < uint64Max
  writeNext : ∀ d ds, s.applying = .writeNext d ds →
    SyncCtrl.inTable cfg.opt d.consumerGroupId d.queueId
  stored : ∀ q g, (s.sync q g).prev ≠ some uint64Max ∧ (s.sync q g).next ≠ some uint64Max
  threads : ∀ n t, s.gets n = some t → ThreadOk cfg t
  ordered : ∀ q g, Publishing s q g ∨ Ordered (s.sync q g)

variable {cfg} {log : Log} {s : Replica}

/-! ## Writes -/

lemma level_le_level {c d : ℕ} (hc : c ≠ uint64Max) (hd : d ≠ uint64Max) :
    level c ≤ level d ↔ c ≤ d := by
  rw [level_of_ne hc, level_of_ne hd]
  omega

lemma CursorInv.write (h : CursorInv cfg log s) {q g c : ℕ} {isPrev : Bool} {sync : SyncCtrl}
    (hu : s.sync.updateCursorID cfg.opt g q c isPrev = .ok sync) (hc : c ≠ uint64Max)
    (hle : levelOf (s.sync q g).prev ≤ level c) :
    (∀ q g, (sync q g).prev ≠ some uint64Max ∧ (sync q g).next ≠ some uint64Max) ∧
      (∀ q g, levelOf (s.sync q g).prev ≤ levelOf (sync q g).prev) ∧
      (∀ q' g', ¬ (q' = q ∧ g' = g) → sync q' g' = s.sync q' g') ∧
      (isPrev = false → Ordered (sync q g)) := by
  obtain ⟨_, rfl⟩ := SyncCtrl.updateCursorID_ok hu
  have hsome : some c ≠ some uint64Max := fun h => hc (Option.some.inj h)
  refine ⟨fun q' g' => ?_, fun q' g' => ?_, fun q' g' hs => SyncCtrl.set_of_ne hs _, fun hp => ?_⟩
  · by_cases hs : q' = q ∧ g' = g
    · obtain ⟨rfl, rfl⟩ := hs
      rw [SyncCtrl.set_self]
      cases isPrev with
      | true => exact ⟨hsome, (h.stored q' g').2⟩
      | false => exact ⟨(h.stored q' g').1, hsome⟩
    · rw [SyncCtrl.set_of_ne hs]
      exact h.stored q' g'
  · by_cases hs : q' = q ∧ g' = g
    · obtain ⟨rfl, rfl⟩ := hs
      rw [SyncCtrl.set_self]
      cases isPrev with
      | true => exact hle
      | false => exact le_rfl
    · rw [SyncCtrl.set_of_ne hs]
  · subst hp
    rw [SyncCtrl.set_self]
    intro p hp n hn
    cases hn
    have hp : (s.sync q g).prev = some p := hp
    have hpne : p ≠ uint64Max := by
      rintro rfl
      exact (h.stored q g).1 hp
    rw [hp] at hle
    exact (level_le_level hpne hc).mp hle

/-! ## Get -/

/-- A thread that is not between its publications changes without ending one. -/
lemma Publishing.setGet {q g n : ℕ} {t : Option GetThread} (h : Publishing s q g)
    (hn : ∀ t, s.gets n = some t → t.phase = .updateNext → t.prev = uint64Max) :
    Publishing (s.setGet n t) q g := by
  rcases h with ⟨m, t', ht', hphase, hprev, hq, hg⟩ | h
  · refine .inl ⟨m, t', ?_, hphase, hprev, hq, hg⟩
    have hne : m ≠ n := by
      rintro rfl
      exact hprev (hn t' ht' hphase)
    show Function.update s.gets n t m = _
    rw [Function.update_of_ne hne, ht']
  · exact .inr h

lemma CursorInv.setGet (h : CursorInv cfg log s) {n : ℕ} {t : Option GetThread}
    (ht : ∀ t', t = some t' → ThreadOk cfg t')
    (hn : ∀ t, s.gets n = some t → t.phase = .updateNext → t.prev = uint64Max) :
    CursorInv cfg log (s.setGet n t) where
  now_le := h.now_le
  donePos_le := h.donePos_le
  metas_le := h.metas_le
  cp_le := h.cp_le
  keepSync := h.keepSync
  details := h.details
  writeNext := h.writeNext
  stored := h.stored
  threads := by
    intro m t' ht'
    have ht' : Function.update s.gets n t m = some t' := ht'
    by_cases hm : m = n
    · subst hm
      rw [Function.update_self] at ht'
      exact ht t' ht'
    · rw [Function.update_of_ne hm] at ht'
      exact h.threads m t' ht'
  ordered := fun q g => (h.ordered q g).imp (fun hp => hp.setGet hn) id

lemma ThreadOk.withPhase {t : GetThread} (h : ThreadOk cfg t) {phase : GetPhase}
    (hitems : ∀ cur, phase ≠ .items cur) (hnext : phase ≠ .updateNext) :
    ThreadOk cfg { t with phase := phase } :=
  ⟨h.cp_le, fun cur hp => absurd hp (hitems cur), h.next, fun hp => absurd hp hnext⟩

/-- What a `Get` starts from has a next cursor if it has a prev one. -/
lemma threadOk_startGet (h : CursorInv cfg log s) {req : GetRequest} {t : GetThread}
    (hstart : startGet cfg s.sync req = .ok t) : ThreadOk cfg t := by
  unfold startGet at hstart
  cases hinfo : cfg.topic.getQueueInfoByQueue req.queueId with
  | error ret =>
    rw [hinfo] at hstart
    cases hstart
  | ok queueInfo =>
    rw [hinfo] at hstart
    dsimp only at hstart
    have hthread : ∀ (p n : ℕ), (req.random = false → p ≠ uint64Max → n ≠ uint64Max) →
        ThreadOk cfg
          { req := req, queueInfoId := queueInfo.queueInfoId, cliPrev := p, cliNext := n
            prev := p, next := n } := by
      intro p n hpn
      exact ⟨le_rfl, fun _ hp => (nomatch hp), hpn, fun hp => (nomatch hp)⟩
    by_cases hrange : cfg.opt.nqueue ≤ req.queueId
    · rw [if_pos hrange] at hstart
      cases hstart
    rw [if_neg hrange] at hstart
    by_cases hrandom : req.random
    · rw [if_pos hrandom] at hstart
      cases hstart
      exact hthread _ _ fun hf => by
        rw [hrandom] at hf
        cases hf
    rw [if_neg hrandom] at hstart
    cases hadj : s.sync.adjustNextCursorID cfg.opt req.consumerGroupId req.queueId
        req.prevCursorId req.nextCursorId with
    | error ret =>
      rw [hadj] at hstart
      dsimp only at hstart
      split at hstart
      · cases hstart
      · cases hstart
        exact hthread _ _ fun _ hne => absurd rfl hne
    | ok pn =>
      obtain ⟨p, n⟩ := pn
      rw [hadj] at hstart
      cases hstart
      refine hthread _ _ fun _ _ => ?_
      have hstored := h.stored req.queueId req.consumerGroupId
      rcases (SyncCtrl.adjustNextCursorID_cases hstored.1 hadj).2 with ⟨rfl, hnext, _⟩ | ⟨hprev, _⟩
      · exact fun hmax => hstored.2 (hmax ▸ hnext)
      · exact fun hmax => hstored.1 (hmax ▸ hprev)

/-- A `Get` does not start behind the stored prev cursor: only what other requests publish while it
reads can make it stale. -/
theorem prev_le_of_startGet (h : CursorInv cfg log s) {req : GetRequest} {t : GetThread}
    (hstart : startGet cfg s.sync req = .ok t) (hprev : t.prev ≠ uint64Max) :
    levelOf (s.sync t.req.queueId t.req.consumerGroupId).prev ≤ level t.prev ∨
      t.req.random = true := by
  unfold startGet at hstart
  cases hinfo : cfg.topic.getQueueInfoByQueue req.queueId with
  | error ret =>
    rw [hinfo] at hstart
    cases hstart
  | ok queueInfo =>
    rw [hinfo] at hstart
    dsimp only at hstart
    by_cases hrange : cfg.opt.nqueue ≤ req.queueId
    · rw [if_pos hrange] at hstart
      cases hstart
    rw [if_neg hrange] at hstart
    by_cases hrandom : req.random
    · rw [if_pos hrandom] at hstart
      cases hstart
      exact .inr hrandom
    rw [if_neg hrandom] at hstart
    left
    cases hadj : s.sync.adjustNextCursorID cfg.opt req.consumerGroupId req.queueId
        req.prevCursorId req.nextCursorId with
    | error ret =>
      rw [hadj] at hstart
      dsimp only at hstart
      split at hstart
      · cases hstart
      · cases hstart
        exact absurd rfl hprev
    | ok pn =>
      obtain ⟨p, n⟩ := pn
      rw [hadj] at hstart
      cases hstart
      have hstored := (h.stored req.queueId req.consumerGroupId).1
      rcases (SyncCtrl.adjustNextCursorID_cases hstored hadj).2 with ⟨_, _, _, hp⟩ | ⟨hp, rfl⟩
      · show _ ≤ level p
        rw [hp]
        exact le_max_right _ _
      · show levelOf (s.sync req.queueId req.consumerGroupId).prev ≤ level p
        rw [hp]
        exact le_rfl

/-- The loop goes to cursors below `-1`. -/
lemma nextCursor_ne {t : GetThread} {metas : StoreMetaQueue} {cur : ℕ} (hcp : t.cp ≤ uint64Max)
    (hmetas : ∀ m ∈ metas, m < uint64Max) (h : nextCursor t metas = some cur) :
    cur ≠ uint64Max := by
  unfold nextCursor at h
  split at h
  · exact (hmetas cur (StoreMetaQueue.next_mem h).1).ne
  · rename_i hlog
    obtain ⟨hne, hlt⟩ := not_or.mp hlog
    have hmax : uint64Max = 2 ^ 64 - 1 := rfl
    cases h
    split
    · rename_i hmin
      exact hmin.1
    · unfold wrap64
      rw [Nat.mod_eq_of_lt (by omega)]
      omega

lemma threadOk_loopStep {t : GetThread} (h : ThreadOk cfg t) {metas : StoreMetaQueue}
    (hmetas : ∀ m ∈ metas, m < uint64Max) (hphase : t.phase = .loop) (timeUp : Bool) :
    ThreadOk cfg (loopStep t metas timeUp) := by
  have hstop : ThreadOk cfg { t with phase := .updatePrev } := by
    refine h.withPhase (fun _ hp => ?_) (fun hp => ?_)
    · cases hp
    · cases hp
  unfold loopStep
  split
  · exact hstop
  split
  · exact hstop
  split
  · exact hstop
  rename_i cur hcur
  have hne := nextCursor_ne h.cp_le hmetas hcur
  split
  · refine ⟨h.cp_le, fun c hp => ?_, fun _ _ => hne, fun hp => ?_⟩
    · have hp : t.phase = .items c := hp
      rw [hphase] at hp
      cases hp
    · have hp : t.phase = .updateNext := hp
      rw [hphase] at hp
      cases hp
  · refine ⟨h.cp_le, fun c hp => ?_, h.next, fun hp => ?_⟩
    · cases hp
      exact hne
    · cases hp

lemma threadOk_takeItems {t : GetThread} (h : ThreadOk cfg t) {cur : ℕ} (hcur : cur ≠ uint64Max)
    (items : List QItem) : ThreadOk cfg (takeItems cfg t cur items) := by
  have hstop : ThreadOk cfg { t with phase := .updatePrev } :=
    h.withPhase (fun _ hp => nomatch hp) (fun hp => nomatch hp)
  unfold takeItems
  split
  · exact ⟨h.cp_le, fun _ hp => (nomatch hp), fun _ _ => hcur, fun hp => (nomatch hp)⟩
  split
  · exact hstop
  split
  · exact hstop
  refine ⟨h.cp_le, fun c hp => ?_, fun _ _ => hcur, fun hp => ?_⟩
  · dsimp only at hp
    split at hp <;> cases hp
  · dsimp only at hp
    split at hp <;> cases hp

lemma CursorInv.reads (h : CursorInv cfg log s) (hlog : log.length < uint64Max) {t t' : GetThread}
    (ht : ThreadOk cfg t) (hr : GetReads cfg log s t t') : ThreadOk cfg t' := by
  have hmetas : ∀ m ∈ s.metas t.req.queueId, m < uint64Max :=
    fun m hm => (h.metas_le _ m hm).trans_lt (h.now_le.trans_lt hlog)
  cases hr with
  | svrPrev phase =>
    exact ⟨ht.cp_le, fun _ hp => (nomatch hp), ht.next, fun hp => (nomatch hp)⟩
  | checkPoint phase =>
    exact ⟨h.cp_le, fun _ hp => (nomatch hp), ht.next, fun hp => (nomatch hp)⟩
  | minInstance phase =>
    unfold enterLoop
    by_cases hrandom : t.req.random = true
    · rw [if_pos hrandom]
      refine ⟨ht.cp_le, fun _ hp => (nomatch hp), fun hf => ?_, fun hp => (nomatch hp)⟩
      have hf : t.req.random = false := hf
      rw [hrandom] at hf
      cases hf
    · rw [if_neg hrandom]
      exact ⟨ht.cp_le, fun _ hp => (nomatch hp), ht.next, fun hp => (nomatch hp)⟩
  | loop phase timeUp => exact threadOk_loopStep ht hmetas phase timeUp
  | items cur phase items hitems => exact threadOk_takeItems ht (ht.items cur phase) items
  | notChosen cur phase now => exact ht.withPhase (fun _ hp => nomatch hp) (fun hp => nomatch hp)
  | random phase random => exact ht.withPhase (fun _ hp => nomatch hp) (fun hp => nomatch hp)
  | noPrev phase random prev =>
    exact ⟨ht.cp_le, fun _ hp => (nomatch hp), ht.next, fun _ => ⟨random, fun hne => absurd prev hne⟩⟩
  | noNext phase next => exact ht.withPhase (fun _ hp => nomatch hp) (fun hp => nomatch hp)

/-- What an allowed step keeps, with the prev cursors. -/
def Keeps (cfg : StoreConfig) (log : Log) (s s' : Replica) : Prop :=
  CursorInv cfg log s' ∧ ∀ q g, levelOf (s.sync q g).prev ≤ levelOf (s'.sync q g).prev

lemma CursorInv.keeps (h : CursorInv cfg log s) : Keeps cfg log s s := ⟨h, fun _ _ => le_rfl⟩

/-- **A step of a `Get` that writes nothing stale** keeps the invariant. -/
lemma CursorInv.getStep (h : CursorInv cfg log s) (hlog : log.length < uint64Max) {n : ℕ}
    {timeUp : Bool} (hok : ∀ x ∈ cursorWritten s (.get n timeUp),
      levelOf (s.sync x.1 x.2.1).prev ≤ level x.2.2) :
    Keeps cfg log s (s.getStep cfg log n timeUp) := by
  cases ht : s.gets n with
  | none =>
    have hstep : s.getStep cfg log n timeUp = s := by
      unfold Replica.getStep
      rw [ht]
    rw [hstep]
    exact h.keeps
  | some t =>
    have hthread := h.threads n t ht
    -- a thread that moves without a write, and not between its publications
    have hmove : ∀ (t' : Option GetThread), (∀ t'', t' = some t'' → ThreadOk cfg t'') →
        (t.phase = .updateNext → t.prev = uint64Max) → Keeps cfg log s (s.setGet n t') := by
      intro t' ht' hphase
      refine ⟨h.setGet ht' fun t'' ht'' => ?_, fun _ _ => le_rfl⟩
      rw [ht] at ht''
      cases ht''
      exact hphase
    have hcases : GetStep cfg log s n t (s.getStep cfg log n timeUp) := getStep_cases ht timeUp
    generalize s.getStep cfg log n timeUp = s' at hcases ⊢
    cases hcases with
    | reads t' reads =>
      refine hmove _ (fun t'' ht'' => ?_) fun hphase => ?_
      · cases ht''
        exact h.reads hlog hthread reads
      · by_contra hprev
        exact hthread.next (hthread.inTable hphase).1 hprev (reads.next_eq hphase)
    | prev phase random prev sync update =>
      have hwritten : cursorWritten s (.get n timeUp) =
          some (t.req.queueId, t.req.consumerGroupId, t.prev) := by
        simp only [cursorWritten, ht, phase, random, prev, Bool.false_eq_true, or_self, if_false]
      obtain ⟨hstored, hmono, hother, _⟩ := h.write update prev (hok _ hwritten)
      have hin := (SyncCtrl.updateCursorID_ok update).1
      have hpublishing : Publishing (({ s with sync := sync } : Replica).setGet n
          (some { t with phase := .updateNext })) t.req.queueId t.req.consumerGroupId :=
        .inl ⟨n, { t with phase := .updateNext }, Function.update_self _ _ _, rfl, prev, rfl, rfl⟩
      have hbetween : ∀ t', s.gets n = some t' → t'.phase = .updateNext → t'.prev = uint64Max := by
        intro t' ht' hp
        rw [ht] at ht'
        cases ht'
        rw [phase] at hp
        cases hp
      refine ⟨⟨h.now_le, h.donePos_le, h.metas_le, h.cp_le, h.keepSync, h.details, h.writeNext, hstored,
        fun m t' ht' => ?_, fun q g => ?_⟩, hmono⟩
      · have ht' : Function.update s.gets n (some { t with phase := .updateNext }) m = some t' :=
          ht'
        by_cases hm : m = n
        · subst hm
          rw [Function.update_self] at ht'
          cases ht'
          exact ⟨hthread.cp_le, fun _ hp => (nomatch hp), hthread.next, fun _ => ⟨random, fun _ => hin⟩⟩
        · rw [Function.update_of_ne hm] at ht'
          exact h.threads m t' ht'
      · by_cases hs : q = t.req.queueId ∧ g = t.req.consumerGroupId
        · obtain ⟨rfl, rfl⟩ := hs
          exact .inl hpublishing
        · refine (h.ordered q g).imp (fun hp => ?_) fun ho => ?_
          · exact Publishing.setGet (s := { s with sync := sync }) hp hbetween
          · show Ordered (sync q g)
            rw [hother q g hs]
            exact ho
    | next phase next sync update =>
      have hwritten : cursorWritten s (.get n timeUp) =
          some (t.req.queueId, t.req.consumerGroupId, t.next) := by
        simp only [cursorWritten, ht, phase, next, if_false]
      obtain ⟨hstored, hmono, hother, hordered⟩ := h.write update next (hok _ hwritten)
      refine ⟨⟨h.now_le, h.donePos_le, h.metas_le, h.cp_le, h.keepSync, h.details, h.writeNext, hstored,
        fun m t' ht' => ?_, fun q g => ?_⟩, hmono⟩
      · have ht' : Function.update s.gets n (some { t with phase := .done }) m = some t' := ht'
        by_cases hm : m = n
        · subst hm
          rw [Function.update_self] at ht'
          cases ht'
          exact hthread.withPhase (fun _ hp => nomatch hp) (fun hp => nomatch hp)
        · rw [Function.update_of_ne hm] at ht'
          exact h.threads m t' ht'
      · by_cases hs : q = t.req.queueId ∧ g = t.req.consumerGroupId
        · obtain ⟨rfl, rfl⟩ := hs
          exact .inr (hordered rfl)
        · refine (h.ordered q g).imp (fun hp => ?_) fun ho => ?_
          · -- the other publications go on
            rcases hp with ⟨m, t', ht', hphase, hprev, hq, hg⟩ | hp
            · refine .inl ⟨m, t', ?_, hphase, hprev, hq, hg⟩
              have hne : m ≠ n := by
                rintro rfl
                rw [ht] at ht'
                cases ht'
                exact hs ⟨hq.symm, hg.symm⟩
              show Function.update s.gets n _ m = _
              rw [Function.update_of_ne hne, ht']
            · exact .inr hp
          · show Ordered (sync q g)
            rw [hother q g hs]
            exact ho
    | fails phase range =>
      refine hmove none (fun _ hn => nomatch hn) fun hphase => ?_
      by_contra hprev
      exact range ((hthread.inTable hphase).2 hprev)
    | done phase => exact h.keeps

/-! ## Execution -/

/-- Nothing but the execution ends a publication of `SyncCursorID`. -/
lemma Publishing.applying {q g : ℕ} {s' : Replica} (h : Publishing s q g)
    (hgets : s'.gets = s.gets)
    (happ : ∀ d ds, s.applying = .writeNext d ds → d.queueId = q → d.consumerGroupId = g →
      s'.applying = .writeNext d ds) : Publishing s' q g := by
  rcases h with ⟨n, t, ht, hrest⟩ | ⟨d, ds, happly, hq, hg⟩
  · exact .inl ⟨n, t, by rw [hgets, ht], hrest⟩
  · exact .inr ⟨d, ds, happ d ds happly hq hg, hq, hg⟩

lemma CursorInv.setApplying (h : CursorInv cfg log s) (metas : ℕ → StoreMetaQueue) (pos : ℕ)
    (a : Applying) (hne : ∀ d ds, s.applying ≠ .writeNext d ds)
    (hdone : (if a = .add then pos else pos + 1) ≤ (valuesOf log s.now).length)
    (hmetas : ∀ q, ∀ m ∈ metas q, m ≤ s.now) (hdetails : ∀ d ∈ a.details, d.prevCursorId < uint64Max)
    (ha : ∀ d ds, a ≠ .writeNext d ds) :
    CursorInv cfg log { s with metas := metas, pos := pos, applying := a } where
  now_le := h.now_le
  donePos_le := hdone
  metas_le := hmetas
  cp_le := h.cp_le
  keepSync := h.keepSync
  details := hdetails
  writeNext := fun d ds hw => absurd hw (ha d ds)
  stored := h.stored
  threads := h.threads
  ordered := fun q g => (h.ordered q g).imp
    (fun hp => hp.applying rfl fun d ds happ => absurd happ (hne d ds)) id

/-- The value the execution is at has been counted, unless it is about to be added. -/
lemma CursorInv.pos_lt (h : CursorInv cfg log s) (ha : s.applying ≠ .add) :
    s.pos + 1 ≤ (valuesOf log s.now).length := by
  have hle := h.donePos_le
  unfold Replica.donePos at hle
  rwa [if_neg ha] at hle

/-- **A step of the execution that writes nothing stale** keeps the invariant. -/
lemma CursorInv.executeStep (h : CursorInv cfg log s) (hlog : LogOk cfg log)
    (hok : ∀ x ∈ cursorWritten s .execute, levelOf (s.sync x.1 x.2.1).prev ≤ level x.2.2) :
    Keeps cfg log s (s.executeStep cfg log) := by
  have hcases : ExecuteStep cfg log s (s.executeStep cfg log) := executeStep_cases
  generalize s.executeStep cfg log = s' at hcases ⊢
  cases hcases with
  | idle => exact h.keeps
  | advance now pos =>
    have happ : s.applying = .add := by
      by_contra hne
      have := h.pos_lt hne
      omega
    refine ⟨⟨now, Nat.zero_le _, fun q m hm => (h.metas_le q m hm).trans (Nat.le_succ _), h.cp_le,
      h.keepSync, fun d hd => (nomatch hd), fun d ds hw => (nomatch hw), h.stored, h.threads,
      fun q g => ?_⟩, fun _ _ => le_rfl⟩
    refine (h.ordered q g).imp (fun hp => hp.applying rfl fun d ds happly => ?_) id
    rw [happ] at happly
    cases happly
  | noAdd args at_ applying none =>
    have hlt := (List.getElem?_eq_some_iff.mp at_).1
    refine ⟨h.setApplying s.metas s.pos _ ?_ hlt h.metas_le ?_ ?_,
      fun _ _ => le_rfl⟩
    · rw [applying]
      exact fun d ds hw => nomatch hw
    · exact fun d hd => ((hlog.of_getD at_).2 d hd).2.2
    · exact fun d ds hw => nomatch hw
  | add args at_ applying req some metas ok =>
    have hlt := (List.getElem?_eq_some_iff.mp at_).1
    have hnow : s.now < uint64Max := by
      refine lt_of_lt_of_le ?_ hlog.length_lt.le
      refine lt_of_le_of_ne h.now_le fun heq => ?_
      rw [heq] at hlt
      unfold valuesOf at hlt
      rw [List.getElem?_eq_none le_rfl] at hlt
      exact absurd hlt (Nat.not_lt_zero _)
    obtain ⟨_, hnew, _⟩ := add_cases ok hnow ((hlog.of_getD at_).1 req some).2
      (h.metas_le req.queueId)
    refine ⟨h.setApplying _ s.pos _ ?_ hlt ?_ ?_ ?_, fun _ _ => le_rfl⟩
    · rw [applying]
      exact fun d ds hw => nomatch hw
    · intro q m hm
      rcases hnew q m hm with hm | ⟨_, rfl⟩
      · exact h.metas_le q m hm
      · exact le_rfl
    · exact fun d hd => ((hlog.of_getD at_).2 d hd).2.2
    · exact fun d ds hw => nomatch hw
  | skip applying =>
    have hne : s.applying ≠ .add := by
      rw [applying]
      exact fun hw => nomatch hw
    refine ⟨h.setApplying s.metas _ _ ?_ (h.pos_lt hne) h.metas_le
      (fun d hd => nomatch hd) (fun d ds hw => nomatch hw), fun _ _ => le_rfl⟩
    rw [applying]
    exact fun d ds hw => nomatch hw
  | known d ds applying cur stored ge =>
    have hne : s.applying ≠ .add := by
      rw [applying]
      exact fun hw => nomatch hw
    refine ⟨h.setApplying s.metas s.pos _ ?_ (h.pos_lt hne) h.metas_le
      (fun d' hd' => h.details d' ?_) (fun d ds hw => nomatch hw), fun _ _ => le_rfl⟩
    · rw [applying]
      exact fun d ds hw => nomatch hw
    · rw [applying]
      exact List.mem_cons_of_mem _ hd'
  | behind d ds applying =>
    have hne : s.applying ≠ .add := by
      rw [applying]
      exact fun hw => nomatch hw
    refine ⟨h.setApplying s.metas s.pos _ ?_ (h.pos_lt hne) h.metas_le
      (fun d' hd' => h.details d' ?_) (fun d ds hw => nomatch hw), fun _ _ => le_rfl⟩
    · rw [applying]
      exact fun d ds hw => nomatch hw
    · rw [applying]
      exact hd'
  | prev d ds applying sync update =>
    have hne : s.applying ≠ .add := by
      rw [applying]
      exact fun hw => nomatch hw
    have hd : d.prevCursorId < uint64Max := h.details d (by rw [applying]; exact List.mem_cons_self)
    have hwritten : cursorWritten s .execute =
        some (d.queueId, d.consumerGroupId, d.prevCursorId) := by
      simp only [cursorWritten, applying]
    obtain ⟨hstored, hmono, hother, _⟩ := h.write update hd.ne (hok _ hwritten)
    have hin := (SyncCtrl.updateCursorID_ok update).1
    refine ⟨⟨h.now_le, h.pos_lt hne, h.metas_le, h.cp_le, h.keepSync, fun d' hd' => h.details d' ?_,
      fun d' ds' hw => ?_, hstored, h.threads, fun q g => ?_⟩, hmono⟩
    · rw [applying]
      exact hd'
    · cases hw
      exact hin
    · by_cases hs : q = d.queueId ∧ g = d.consumerGroupId
      · obtain ⟨rfl, rfl⟩ := hs
        exact .inl (.inr ⟨d, ds, rfl, rfl, rfl⟩)
      · rcases h.ordered q g with hp | ho
        · refine .inl (hp.applying rfl fun d' ds' happ => ?_)
          rw [applying] at happ
          cases happ
        · refine .inr ?_
          show Ordered (sync q g)
          rw [hother q g hs]
          exact ho
  | next d ds applying sync update =>
    have hne : s.applying ≠ .add := by
      rw [applying]
      exact fun hw => nomatch hw
    have hd : d.prevCursorId < uint64Max := h.details d (by rw [applying]; exact List.mem_cons_self)
    have hwritten : cursorWritten s .execute =
        some (d.queueId, d.consumerGroupId, d.prevCursorId) := by
      simp only [cursorWritten, applying]
    obtain ⟨hstored, hmono, hother, hordered⟩ := h.write update hd.ne (hok _ hwritten)
    refine ⟨⟨h.now_le, h.pos_lt hne, h.metas_le, h.cp_le, h.keepSync, fun d' hd' => h.details d' ?_,
      fun d' ds' hw => (nomatch hw), hstored, h.threads, fun q g => ?_⟩, hmono⟩
    · rw [applying]
      exact List.mem_cons_of_mem _ hd'
    · by_cases hs : q = d.queueId ∧ g = d.consumerGroupId
      · obtain ⟨rfl, rfl⟩ := hs
        exact .inr (hordered rfl)
      · rcases h.ordered q g with hp | ho
        · refine .inl (hp.applying rfl fun d' ds' happ hq hg => ?_)
          rw [applying] at happ
          cases happ
          exact absurd ⟨hq.symm, hg.symm⟩ hs
        · refine .inr ?_
          show Ordered (sync q g)
          rw [hother q g hs]
          exact ho
  | fails d ds applying range =>
    rcases applying with applying | applying
    · have hne : s.applying ≠ .add := by
        rw [applying]
        exact fun hw => nomatch hw
      refine ⟨h.setApplying s.metas s.pos _ ?_
        ((Nat.le_succ _).trans (h.pos_lt hne)) h.metas_le (fun d hd => nomatch hd)
        (fun d ds hw => nomatch hw), fun _ _ => le_rfl⟩
      rw [applying]
      exact fun d ds hw => nomatch hw
    · exact absurd (h.writeNext d ds applying) range

/-! ## The keep-sync thread -/

lemma CursorInv.frame (h : CursorInv cfg log s) {s' : Replica} (hf : Frame s s')
    (hcp : s'.checkPoint ≤ uint64Max) (hk : RoundBounded s'.keepSync) :
    Keeps cfg log s s' := by
  have hdone : s'.donePos = s.donePos := by
    unfold Replica.donePos
    rw [hf.applying, hf.pos]
  refine ⟨⟨?_, ?_, fun q m hm => ?_, hcp, hk, ?_, ?_, ?_, ?_, fun q g => ?_⟩, fun q g => ?_⟩
  · rw [hf.now]
    exact h.now_le
  · rw [hf.now, hdone]
    exact h.donePos_le
  · rw [hf.now]
    exact h.metas_le q m (hf.metas q hm)
  · rw [hf.applying]
    exact h.details
  · rw [hf.applying]
    exact h.writeNext
  · rw [hf.sync]
    exact h.stored
  · rw [hf.gets]
    exact h.threads
  · rw [hf.sync]
    refine (h.ordered q g).imp (fun hp => hp.applying hf.gets fun d ds happ _ _ => ?_) id
    rw [hf.applying, happ]
  · rw [hf.sync]

lemma pred64_le {n : ℕ} (hn : n ≤ uint64Max) : pred64 n ≤ uint64Max := by
  rcases Nat.eq_zero_or_pos n with rfl | hpos
  · rw [pred64_zero]
  · rw [pred64_of_pos hpos (by omega)]
    omega

lemma roundBounded_step (h : CursorInv cfg log s) (hlog : log.length < uint64Max)
    {r : CheckRound} (hr : s.keepSync = .checkPoint r) :
    RoundBounded (s.roundStep cfg r).keepSync ∧ (s.roundStep cfg r).checkPoint ≤ uint64Max := by
  obtain ⟨hcp, hnow⟩ : r.cp ≤ uint64Max ∧ r.nowInstanceId ≤ uint64Max := by
    have hk := h.keepSync
    rw [hr] at hk
    exact hk
  have hdump : (s.dumpCheckPoint r.dumpCp).checkPoint ≤ uint64Max := by
    have hle : r.dumpCp ≤ uint64Max := by
      unfold CheckRound.dumpCp
      split
      · exact pred64_le hnow
      · exact hcp
    unfold Replica.dumpCheckPoint
    split
    · exact h.cp_le
    split
    · exact h.cp_le
    · exact hle
  unfold Replica.roundStep
  split
  · exact ⟨trivial, hdump⟩
  rename_i q qs hq
  split
  · exact ⟨trivial, hdump⟩
  split
  · rename_i g gs hg
    refine ⟨?_, h.cp_le⟩
    have hread : (s.readCursor cfg r q g).cp = r.cp ∧
        (s.readCursor cfg r q g).nowInstanceId = r.nowInstanceId := by
      unfold Replica.readCursor
      split
      · split
        · split <;> exact ⟨rfl, rfl⟩
        · split <;> exact ⟨rfl, rfl⟩
      · exact ⟨rfl, rfl⟩
    exact ⟨hread.1.le.trans hcp, hread.2.le.trans hnow⟩
  split
  · refine ⟨?_, h.cp_le⟩
    have hread : (s.readFront r q).cp ≤ uint64Max ∧
        (s.readFront r q).nowInstanceId = r.nowInstanceId := by
      cases hf : (s.metas q).front with
      | none =>
        rw [readFront_none hf]
        exact ⟨hcp, rfl⟩
      | some m =>
        have hm : m < uint64Max :=
          (h.metas_le q m (StoreMetaQueue.front_mem hf)).trans_lt (h.now_le.trans_lt hlog)
        rcases Nat.eq_zero_or_pos m with rfl | hpos
        · rw [readFront_zero hf]
          exact ⟨le_rfl, rfl⟩
        · rw [readFront_pos hf hpos hm]
          refine ⟨?_, rfl⟩
          show lowerCp r.cp (m - 1) ≤ uint64Max
          unfold lowerCp
          split
          · omega
          · exact hcp
    exact ⟨hread.1, hread.2.le.trans hnow⟩
  · exact ⟨⟨hcp, hnow⟩, h.cp_le⟩

lemma CursorInv.keepSyncStep (h : CursorInv cfg log s) (hlog : log.length < uint64Max)
    {e : StoreEvent} (he : e = .startRound ∨ e = .startSync ∨ e = .keepSync) :
    Keeps cfg log s (s.step cfg log e) := by
  have hk : ∀ q g r isPrev, s.keepSync ≠ .replay q g r isPrev := by
    intro q g r isPrev hr
    have hb := h.keepSync
    rw [hr] at hb
    exact hb
  have hframe : Frame s (s.step cfg log e) := frame_step he hk
  rcases he with rfl | rfl | rfl
  · dsimp only [Replica.step] at hframe ⊢
    split
    · have hnow := h.now_le.trans hlog.le
      exact h.frame (Frame.setKeepSync s _) h.cp_le ⟨le_rfl, hnow⟩
    · exact h.keeps
  · dsimp only [Replica.step] at hframe ⊢
    split
    · exact h.frame (Frame.setKeepSync s _) h.cp_le trivial
    · exact h.keeps
  · dsimp only [Replica.step, Replica.keepSyncStep]
    split
    · exact h.keeps
    · rename_i r hr
      obtain ⟨hround, hcp⟩ := roundBounded_step h hlog hr
      exact h.frame (frame_roundStep s r) hcp hround
    · exact h.frame (Frame.setKeepSync s _) h.cp_le trivial
    · split <;> exact h.frame (Frame.setKeepSync s _) h.cp_le trivial
    · rename_i q g r isPrev hr
      exact absurd hr (hk q g r isPrev)

/-! ## Runs -/

/-- **Every step of the store that writes nothing stale** keeps the invariant, and takes no prev
cursor back. -/
theorem CursorInv.step (h : CursorInv cfg log s) (hlog : LogOk cfg log) {e : StoreEvent}
    (he : CursorEvent (.store e))
    (hok : ∀ x ∈ cursorWritten s e, levelOf (s.sync x.1 x.2.1).prev ≤ level x.2.2) :
    Keeps cfg log s (s.step cfg log e) := by
  have hlen := hlog.length_lt
  cases e with
  | execute => exact h.executeStep hlog hok
  | startGet n req =>
    dsimp only [Replica.step, Replica.startGetStep]
    split
    · exact h.keeps
    rename_i hnone
    split
    · split
      · exact h.keeps
      · rename_i t ht
        refine ⟨h.setGet (fun t' ht' => ?_) fun t' ht' => ?_, fun _ _ => le_rfl⟩
        · cases ht'
          exact threadOk_startGet h ht
        · rw [hnone] at ht'
          cases ht'
    · exact h.keeps
  | get n timeUp => exact h.getStep hlen hok
  | endGet n =>
    have hend : ∀ t, s.gets n = some t → t.phase ≠ .updateNext →
        Keeps cfg log s (s.setGet n none) := by
      intro t ht hphase
      refine ⟨h.setGet (fun _ hn => nomatch hn) fun t' ht' hp => ?_, fun _ _ => le_rfl⟩
      rw [ht] at ht'
      cases ht'
      exact absurd hp hphase
    dsimp only [Replica.step, Replica.endGet]
    split
    · exact h.keeps
    rename_i t ht
    split
    · rename_i cur hp
      exact hend t ht (by rw [hp]; exact fun hq => nomatch hq)
    · rename_i hp
      exact hend t ht (by rw [hp]; exact fun hq => nomatch hq)
    · exact h.keeps
  | startRound => exact h.keepSyncStep hlen (.inl rfl)
  | startSync => exact h.keepSyncStep hlen (.inr (.inl rfl))
  | keepSync => exact h.keepSyncStep hlen (.inr (.inr rfl))
  | truncate m =>
    dsimp only [Replica.step]
    split
    · exact ⟨⟨h.now_le, h.donePos_le, h.metas_le, h.cp_le, h.keepSync, h.details, h.writeNext,
        h.stored, h.threads, h.ordered⟩, fun _ _ => le_rfl⟩
    · exact h.keeps
  | startReplay q g r => exact absurd he not_false
  | clear q g => exact absurd he not_false
  | restart => exact absurd he not_false

lemma CursorInv.append (h : CursorInv cfg log s) (batch : List StorePaxosArgs) :
    CursorInv cfg (log ++ [batch]) s := by
  refine ⟨?_, ?_, h.metas_le, h.cp_le, h.keepSync, h.details, h.writeNext, h.stored, h.threads,
    h.ordered⟩
  · rw [List.length_append]
    exact h.now_le.trans (Nat.le_add_right _ _)
  · rcases h.now_le.lt_or_eq with hlt | heq
    · rw [valuesOf_append hlt]
      exact h.donePos_le
    · have hle := h.donePos_le
      unfold valuesOf at hle
      rw [heq, List.getElem?_eq_none le_rfl] at hle
      exact (Nat.le_zero.mp hle).le.trans (Nat.zero_le _)

structure World.Cursors (cfg : StoreConfig) (w : World) : Prop where
  log : LogOk cfg w.log
  store : CursorInv cfg w.log w.store

lemma World.cursors_init : (Store.store cfg).init.Cursors cfg := by
  have hmax : 0 < uint64Max := by decide
  exact ⟨⟨fun _ hb => (nomatch hb), hmax⟩,
    ⟨le_rfl, le_rfl, fun _ m hm => absurd hm (Finset.notMem_empty m), le_rfl, trivial,
      fun _ hd => (nomatch hd), fun _ _ hw => (nomatch hw),
      fun _ _ => ⟨fun hp => (nomatch hp), fun hn => (nomatch hn)⟩, fun _ _ ht => (nomatch ht),
      fun _ _ => .inr fun _ hp => (nomatch hp)⟩⟩

lemma World.Cursors.step {w : World} (h : w.Cursors cfg) {e : Event} (he : CursorEvent e)
    (hok : NotStale w e) : (w.step cfg e).Cursors cfg ∧
      ∀ q g, levelOf (w.store.sync q g).prev ≤ levelOf ((w.step cfg e).store.sync q g).prev := by
  cases e with
  | choose batch =>
    dsimp only [World.step]
    split
    · rename_i hb
      exact ⟨⟨h.log.append hb.1 hb.2, h.store.append batch⟩, fun _ _ => le_rfl⟩
    · exact ⟨h, fun _ _ => le_rfl⟩
  | store e =>
    obtain ⟨hinv, hmono⟩ := h.store.step h.log he hok
    exact ⟨⟨h.log, hinv⟩, hmono⟩

lemma World.Cursors.exec {w : World} (h : w.Cursors cfg) {es : List Event}
    (hdom : ∀ e ∈ es, CursorEvent e) (hok : (Store.store cfg).Along NotStale w es) :
    ((Store.store cfg).exec w es).Cursors cfg ∧ ∀ q g, levelOf (w.store.sync q g).prev ≤
      levelOf (((Store.store cfg).exec w es).store.sync q g).prev := by
  induction es generalizing w with
  | nil => exact ⟨h, fun _ _ => le_rfl⟩
  | cons e es ih =>
    obtain ⟨hstep, hmono⟩ := h.step (hdom e List.mem_cons_self) hok.1
    obtain ⟨hexec, hgrow⟩ := ih hstep (fun e he => hdom e (List.mem_cons_of_mem _ he)) hok.2
    exact ⟨hexec, fun q g => (hmono q g).trans (hgrow q g)⟩

end

/-- **Cursors are monotone.**  In a run of Gets and `SyncCursorID` in which nothing stale is
written, no stored prev cursor ever decreases, and between requests prev is at most next. -/
theorem cursorsOrdered_of_notStale (cfg : StoreConfig) {es : List Event}
    (hdom : ∀ e ∈ es, CursorEvent e) (hok : (store cfg).Along NotStale (store cfg).init es) :
    PrevNeverDecreases cfg es ∧ (store cfg).Always OrderedBetween (store cfg).init es := by
  constructor
  · intro n m hnm q g
    have htake : es.take m = es.take n ++ (es.take m).drop n := by
      have h := List.take_append_drop n (es.take m)
      rw [List.take_take, min_eq_left hnm] at h
      exact h.symm
    have hpre : (store cfg).Along NotStale (store cfg).init (es.take m) := by
      rw [← List.take_append_drop m es, Machine.along_append] at hok
      exact hok.1
    rw [htake, Machine.along_append] at hpre
    have hmem : ∀ {l : List Event}, l ⊆ es → ∀ e ∈ l, CursorEvent e := fun hl e he => hdom e (hl he)
    obtain ⟨hn, _⟩ := World.cursors_init.exec (hmem (List.take_subset n es)) hpre.1
    rw [htake, Machine.exec_append]
    have hsub : (es.take m).drop n ⊆ es := fun e he =>
      List.take_subset m es (List.drop_subset n _ he)
    exact (hn.exec (hmem hsub) hpre.2).2 q g
  · have hand := hok.and_labels hdom
    have hstep : ∀ (w : World) e, w.Cursors cfg → CursorEvent e ∧ NotStale w e →
        ((store cfg).step w e).Cursors cfg := fun w e h he => (h.step he.1 he.2).1
    exact (Machine.Always.of_inv hstep World.cursors_init hand).mono
      fun w h q g hp => (h.store.ordered q g).resolve_left hp

/-! ## Two Gets -/

/-- A `Get` of group 1 on queue 0 for one item. -/
def getOne (prev next : ℕ) : GetRequest :=
  { topicId := 1, queueId := 0, consumerGroupId := 1, limit := 1, prevCursorId := prev
    nextCursorId := next }

/-- Thread `n` runs from its start to where it publishes. -/
def readOne (n prev next : ℕ) : List Event :=
  [.store (.startGet n (getOne prev next))] ++ List.replicate 6 (.store (.get n false))

def publish (n : ℕ) : List Event :=
  [.store (.get n false), .store (.get n false), .store (.endGet n)]

/-- Two items are got one after the other, and the first is acknowledged. -/
def getTwo : List Event :=
  addOne 0 ++ addOne 0 ++ readOne 0 uint64Max uint64Max ++ publish 0 ++ readOne 1 0 0 ++ publish 1

end PhxQueue.Store
