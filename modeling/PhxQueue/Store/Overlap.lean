import PhxQueue.Store.Threads

/-!
# Requests that do not overlap

The cursors of a group on a queue are stale only where two requests for them overlap: a `Get` compares
its cursors with the stored ones when it starts, and `SyncCursorID` before it writes.

* `Busy`                   a request for the cursors is in flight, from that comparison to its last write;
* `NoOverlap`              one starts only where none is;
* `InTurn`                 what the requests in flight know of the stored prev cursor;
* `InTurn.notStale`        nothing stale is written then;
* `cursorsOrdered_run`     **prev cursors never decrease and stay below the next ones, as long as no
                           requests overlap**;
* `retriedGet_not_ordered`   a slow `Get` that was sent again.
-/

set_option linter.unusedSectionVars false

namespace PhxQueue.Store
open Comm Lib Config

/-! ## Requests in flight -/

/-- The `Get` may still publish its cursors; a random one never does. -/
def GetThread.InFlight (t : GetThread) : Prop := t.req.random = false ∧ t.phase ≠ .done

instance (t : GetThread) : Decidable t.InFlight := inferInstanceAs (Decidable (_ ∧ _))

def GetRequest.Uses (req : GetRequest) (q g : ℕ) : Prop := req.queueId = q ∧ req.consumerGroupId = g

instance (req : GetRequest) (q g : ℕ) : Decidable (req.Uses q g) :=
  inferInstanceAs (Decidable (_ ∧ _))

/-- What `SyncCursorID` compares next. -/
def Applying.comparing? : Applying → Option SyncDetail
  | .compare (d :: _) => some d
  | _ => none

/-- What `SyncCursorID` is writing. -/
def Applying.writing? : Applying → Option SyncDetail
  | .writePrev d _ | .writeNext d _ => some d
  | _ => none

def Busy (s : Replica) (q g : ℕ) : Prop :=
  (∃ n t, s.gets n = some t ∧ t.InFlight ∧ t.req.Uses q g) ∨
    ∃ d ∈ s.applying.writing?, d.queueId = q ∧ d.consumerGroupId = g

/-- The stored prev cursor is behind the one of the detail. -/
def Behind (s : Replica) (d : SyncDetail) : Prop :=
  ∀ cur ∈ (s.sync d.queueId d.consumerGroupId).prev, cur < d.prevCursorId

instance (s : Replica) (d : SyncDetail) : Decidable (Behind s d) :=
  inferInstanceAs (Decidable (∀ cur ∈ (s.sync d.queueId d.consumerGroupId).prev, cur < _))

/-- Requests for the same cursors come one after the other: a `Get` starts, and `SyncCursorID` finds
the stored prev cursor behind, only where none is in flight. -/
def NoOverlap (w : World) : Event → Prop
  | .store (.startGet n req) => w.store.gets n = none → req.random = false →
      ¬ Busy w.store req.queueId req.consumerGroupId
  | .store .execute => ∀ d ∈ w.store.applying.comparing?, Behind w.store d →
      ¬ Busy w.store d.queueId d.consumerGroupId
  | _ => True

/-! ## What a request in flight knows -/

/-- The cursors of a `Get` are in order, and go on from there. -/
structure GetThread.Forward (t : GetThread) : Prop where
  next : level t.prev ≤ level t.next
  items : ∀ cur, t.phase = .items cur → level t.next ≤ level cur

/-- Requests for the same cursors are not in flight together, and none of them has been overtaken by
the stored prev cursor. -/
structure InTurn (cfg : StoreConfig) (s : Replica) : Prop where
  one : ∀ n m t u, s.gets n = some t → s.gets m = some u → t.InFlight → u.InFlight →
    t.req.Uses u.req.queueId u.req.consumerGroupId → n = m
  alone : ∀ d ∈ s.applying.writing?, ∀ n t, s.gets n = some t → t.InFlight →
    ¬ t.req.Uses d.queueId d.consumerGroupId
  fresh : ∀ n t, s.gets n = some t → t.InFlight →
    levelOf (s.sync t.req.queueId t.req.consumerGroupId).prev ≤ level t.prev
  forward : ∀ n t, s.gets n = some t → t.InFlight → t.Forward
  written : ∀ d ∈ s.applying.writing?,
    levelOf (s.sync d.queueId d.consumerGroupId).prev ≤ level d.prevCursorId
  tabled : ∀ d ∈ s.applying.details, SyncCtrl.inTable cfg.opt d.consumerGroupId d.queueId

section
variable {cfg : StoreConfig} {log : Log} {s : Replica} {t : GetThread}

theorem InTurn.notStale (h : InTurn cfg s) (hinv : CursorInv cfg log s) {e : StoreEvent} :
    ∀ x ∈ cursorWritten s e, levelOf (s.sync x.1 x.2.1).prev ≤ level x.2.2 := by
  intro x hx
  cases e with
  | execute =>
    unfold cursorWritten at hx
    dsimp only at hx
    cases happ : s.applying with
    | add | compare ds =>
      rw [happ] at hx
      cases hx
    | writePrev d ds | writeNext d ds =>
      rw [happ] at hx
      cases hx
      exact h.written d (by rw [happ]; exact rfl)
  | get n timeUp =>
    unfold cursorWritten at hx
    dsimp only at hx
    cases ht : s.gets n with
    | none =>
      rw [ht] at hx
      cases hx
    | some t =>
      rw [ht] at hx
      dsimp only at hx
      split at hx
      · rename_i hphase
        split at hx
        · cases hx
        · rename_i hno
          cases hx
          have hrandom := Bool.eq_false_iff.mpr fun hr => hno (.inl hr)
          exact h.fresh n t ht ⟨hrandom, by rw [hphase]; exact fun hp => nomatch hp⟩
      · rename_i hphase
        split at hx
        · cases hx
        · cases hx
          have hrandom := ((hinv.threads n t ht).inTable hphase).1
          have hflight : t.InFlight := ⟨hrandom, by rw [hphase]; exact fun hp => nomatch hp⟩
          exact (h.fresh n t ht hflight).trans (h.forward n t ht hflight).next
      · cases hx
  | startGet _ _ | endGet _ | startRound | startSync | startReplay _ _ _ | keepSync | clear _ _
  | truncate _ | restart => cases hx

/-! ## Get -/

lemma Publishing.busy (hinv : CursorInv cfg log s) {q g : ℕ} (h : Publishing s q g) : Busy s q g := by
  rcases h with ⟨n, t, ht, hphase, _, hq, hg⟩ | ⟨d, ds, happ, hq, hg⟩
  · have hrandom := ((hinv.threads n t ht).inTable hphase).1
    exact .inl ⟨n, t, ht, ⟨hrandom, by rw [hphase]; exact fun hp => nomatch hp⟩, hq, hg⟩
  · exact .inr ⟨d, by rw [happ]; exact rfl, hq, hg⟩

/-- A `Get` starts at or above the stored prev cursor, with its cursors in order. -/
lemma startGet_forward (hinv : CursorInv cfg log s) {req : GetRequest}
    (hstart : startGet cfg s.sync req = .ok t) (hrandom : req.random = false)
    (hfree : ¬ Busy s req.queueId req.consumerGroupId) :
    levelOf (s.sync req.queueId req.consumerGroupId).prev ≤ level t.prev ∧ t.Forward := by
  obtain ⟨hprev, hnext⟩ := hinv.stored req.queueId req.consumerGroupId
  have hordered : Ordered (s.sync req.queueId req.consumerGroupId) :=
    (hinv.ordered _ _).resolve_left fun hp => hfree (hp.busy hinv)
  have hphase : ∀ {cur : ℕ}, GetPhase.svrPrev ≠ .items cur := fun hp => nomatch hp
  have hnot : ¬ req.random = true := by
    rw [hrandom]
    exact Bool.false_ne_true
  unfold startGet at hstart
  split at hstart
  · cases hstart
  split at hstart
  · cases hstart
  dsimp only at hstart
  split at hstart
  · rename_i p n hadj
    cases hstart
    obtain ⟨_, ⟨heq, hn, hle, hp⟩ | ⟨hstored, rfl⟩⟩ := SyncCtrl.adjustNextCursorID_cases hprev hadj
    · rw [← heq] at hn hle
      refine ⟨?_, ?_, fun cur hcur => absurd hcur hphase⟩
      · show _ ≤ level p
        rw [hp]
        exact le_max_right _ _
      · -- neither the client's prev cursor nor the stored one is above the next cursor
        have hne : n ≠ uint64Max := fun hmax => hnext (hmax ▸ hn)
        show level p ≤ level n
        rw [hp]
        apply max_le
        · rcases hle with hmax | hle
          · rw [hmax, level_uint64Max]
            exact Nat.zero_le _
          · rw [level_of_ne hne]
            exact (level_le_of_lt (Nat.lt_succ_of_le hle))
        · cases hv : (s.sync req.queueId req.consumerGroupId).prev with
          | none => exact Nat.zero_le _
          | some v =>
            have hvn : v ≤ n := hordered v hv n hn
            rw [hv] at hprev
            have hvne : v ≠ uint64Max := fun hmax => hprev (hmax ▸ rfl)
            exact (level_le_level hvne hne).mpr hvn
    · refine ⟨?_, le_rfl, fun cur hcur => absurd hcur hphase⟩
      show _ ≤ level p
      rw [hstored]
      exact le_rfl
  · rename_i ret hadj
    split at hstart
    · cases hstart
    · rename_i hret
      cases hstart
      refine ⟨?_, le_rfl, fun cur hcur => absurd hcur hphase⟩
      rcases adjustNextCursorID_error hadj with rfl | ⟨_, _, hnone⟩
      · exact absurd (by decide) hret
      · rw [hnone]
        exact Nat.zero_le _

lemma level_le_nextCursor {metas : StoreMetaQueue} {cur : ℕ} (hcp : t.cp ≤ uint64Max)
    (hmetas : ∀ m ∈ metas, m < uint64Max) (h : nextCursor t metas = some cur) :
    level t.next ≤ level cur := by
  have hne := nextCursor_ne hcp hmetas h
  rw [level_of_ne hne]
  unfold nextCursor at h
  split at h
  · exact (StoreMetaQueue.next_mem h).2.trans (Nat.le_succ _)
  · rename_i hlog
    obtain ⟨hmax, hlt⟩ := not_or.mp hlog
    have hnext : t.next < uint64Max := by omega
    have hsize : uint64Max = 2 ^ 64 - 1 := rfl
    rw [level_of_ne hnext.ne]
    cases h
    split
    · rename_i hmin
      omega
    · unfold wrap64
      rw [Nat.mod_eq_of_lt (by omega)]
      omega

lemma GetThread.Forward.withPhase (h : t.Forward) {phase : GetPhase}
    (hitems : ∀ cur, phase ≠ .items cur) : GetThread.Forward { t with phase := phase } :=
  ⟨h.next, fun cur hp => absurd hp (hitems cur)⟩

lemma GetThread.Forward.loopStep (h : t.Forward) {metas : StoreMetaQueue} (hcp : t.cp ≤ uint64Max)
    (hmetas : ∀ m ∈ metas, m < uint64Max) (hphase : t.phase = .loop) (timeUp : Bool) :
    (Store.loopStep t metas timeUp).Forward := by
  have hstop : GetThread.Forward { t with phase := .updatePrev } :=
    h.withPhase fun _ hp => nomatch hp
  unfold Store.loopStep
  split
  · exact hstop
  split
  · exact hstop
  split
  · exact hstop
  rename_i cur hcur
  have hle := level_le_nextCursor hcp hmetas hcur
  split
  · refine ⟨h.next.trans hle, fun c hp => ?_⟩
    have hp : t.phase = .items c := hp
    rw [hphase] at hp
    cases hp
  · refine ⟨h.next, fun c hp => ?_⟩
    cases hp
    exact hle

lemma GetThread.Forward.takeItems (h : t.Forward) {cur : ℕ} (hphase : t.phase = .items cur)
    (items : List QItem) : (Store.takeItems cfg t cur items).Forward := by
  have hle := h.next.trans (h.items cur hphase)
  have hstop : GetThread.Forward { t with phase := .updatePrev } :=
    h.withPhase fun _ hp => nomatch hp
  unfold Store.takeItems
  split
  · exact ⟨hle, fun _ hp => (nomatch hp)⟩
  split
  · exact hstop
  split
  · exact hstop
  · refine ⟨hle, fun c hp => ?_⟩
    dsimp only at hp
    split at hp <;> cases hp

/-- Reading takes the cursors of a `Get` forward, and its prev cursor stays. -/
lemma GetReads.forward (hinv : CursorInv cfg log s) (hlog : log.length < uint64Max) {t' : GetThread}
    (hr : GetReads cfg log s t t') (hok : ThreadOk cfg t) (h : t.Forward)
    (hrandom : t.req.random = false) : t'.Forward ∧ t'.prev = t.prev := by
  have hmetas : ∀ m ∈ s.metas t.req.queueId, m < uint64Max :=
    fun m hm => (hinv.metas_le _ m hm).trans_lt (hinv.now_le.trans_lt hlog)
  cases hr with
  | svrPrev phase | checkPoint phase => exact ⟨⟨h.next, by simp⟩, rfl⟩
  | minInstance phase =>
    have henter : enterLoop { t with minInstance := s.minChosen } =
        { t with minInstance := s.minChosen, phase := .loop } :=
      if_neg (by rw [hrandom]; exact Bool.false_ne_true)
    rw [henter]
    exact ⟨⟨h.next, by simp⟩, rfl⟩
  | loop phase timeUp =>
    refine ⟨h.loopStep hok.cp_le hmetas phase timeUp, ?_⟩
    unfold loopStep
    repeat' split
    all_goals rfl
  | items cur phase items hitems =>
    refine ⟨h.takeItems phase items, ?_⟩
    unfold takeItems
    repeat' split
    all_goals rfl
  | notChosen cur phase now => exact ⟨h.withPhase (by simp), rfl⟩
  | random phase random => exact ⟨h.withPhase (by simp), rfl⟩
  | noPrev phase random prev => exact ⟨h.withPhase (by simp), rfl⟩
  | noNext phase next => exact ⟨h.withPhase (by simp), rfl⟩

/-- A `Get` that reads has been in flight. -/
lemma GetReads.inFlight {t' : GetThread} (hr : GetReads cfg log s t t') (h : t'.InFlight) :
    t.InFlight := by
  refine ⟨hr.req_eq ▸ h.1, ?_⟩
  cases hr with
  | svrPrev phase | checkPoint phase | minInstance phase | loop phase _ | items _ phase _ _
  | notChosen _ phase _ | random phase _ | noPrev phase _ _ | noNext phase _ =>
    rw [phase]
    exact fun hp => nomatch hp

/-! ## Changes that keep requests in turn -/

/-- A thread ends, or goes on to `t`. -/
lemma InTurn.setGet (h : InTurn cfg s) {n : ℕ} {t : Option GetThread}
    (ht : ∀ u ∈ t, u.InFlight → u.Forward ∧
      levelOf (s.sync u.req.queueId u.req.consumerGroupId).prev ≤ level u.prev ∧
      (∀ m u', m ≠ n → s.gets m = some u' → u'.InFlight →
        ¬ u'.req.Uses u.req.queueId u.req.consumerGroupId) ∧
      ∀ d ∈ s.applying.writing?, ¬ u.req.Uses d.queueId d.consumerGroupId) :
    InTurn cfg (s.setGet n t) := by
  have hgets : ∀ {m u}, (s.setGet n t).gets m = some u →
      (m = n ∧ t = some u) ∨ (m ≠ n ∧ s.gets m = some u) := by
    intro m u hu
    by_cases hm : m = n
    · subst hm
      rw [gets_setGet_self] at hu
      exact .inl ⟨rfl, hu⟩
    · rw [gets_setGet_of_ne hm] at hu
      exact .inr ⟨hm, hu⟩
  refine ⟨fun m m' u u' hu hu' hflight hflight' huses => ?_, fun d hd m u hu hflight => ?_,
    fun m u hu hflight => ?_, fun m u hu hflight => ?_, h.written, h.tabled⟩
  · rcases hgets hu with ⟨rfl, rfl⟩ | ⟨hm, hold⟩
    · rcases hgets hu' with ⟨rfl, _⟩ | ⟨hm', hold'⟩
      · rfl
      · exact absurd ⟨huses.1.symm, huses.2.symm⟩
          ((ht u rfl hflight).2.2.1 m' u' hm' hold' hflight')
    · rcases hgets hu' with ⟨rfl, rfl⟩ | ⟨_, hold'⟩
      · exact absurd huses ((ht u' rfl hflight').2.2.1 m u hm hold hflight)
      · exact h.one m m' u u' hold hold' hflight hflight' huses
  · rcases hgets hu with ⟨rfl, rfl⟩ | ⟨_, hu⟩
    · exact (ht u rfl hflight).2.2.2 d hd
    · exact h.alone d hd m u hu hflight
  · rcases hgets hu with ⟨rfl, rfl⟩ | ⟨_, hu⟩
    · exact (ht u rfl hflight).2.1
    · exact h.fresh m u hu hflight
  · rcases hgets hu with ⟨rfl, rfl⟩ | ⟨_, hu⟩
    · exact (ht u rfl hflight).1
    · exact h.forward m u hu hflight

/-- A cursor is written that no other request uses, to where its request stands. -/
lemma InTurn.setSync (h : InTurn cfg s) {q g c : ℕ} {isPrev : Bool} {sync : SyncCtrl}
    (hu : s.sync.updateCursorID cfg.opt g q c isPrev = .ok sync)
    (hgets : isPrev = true → ∀ n t, s.gets n = some t → t.InFlight → t.req.Uses q g →
      level c ≤ level t.prev)
    (happ : isPrev = true → ∀ d ∈ s.applying.writing?, d.queueId = q ∧ d.consumerGroupId = g →
      level c ≤ level d.prevCursorId) : InTurn cfg { s with sync := sync } := by
  obtain ⟨_, rfl⟩ := SyncCtrl.updateCursorID_ok hu
  -- where nothing is written, or only a next cursor, the prev cursor stays
  have hprev : ∀ q' g' p, levelOf (s.sync q' g').prev ≤ p →
      (isPrev = true → q' = q ∧ g' = g → level c ≤ p) →
      levelOf ((s.sync.set q g (if isPrev then
        { s.sync q g with prev := some c, acked := max (s.sync q g).acked (level c) }
        else { s.sync q g with next := some c })) q' g').prev ≤ p := by
    intro q' g' p hold hnew
    by_cases hs : q' = q ∧ g' = g
    · obtain ⟨rfl, rfl⟩ := hs
      rw [SyncCtrl.set_self]
      cases isPrev with
      | true => exact hnew rfl ⟨rfl, rfl⟩
      | false => exact hold
    · rw [SyncCtrl.set_of_ne hs]
      exact hold
  exact ⟨h.one, h.alone,
    fun n t ht hflight => hprev _ _ _ (h.fresh n t ht hflight) fun hp huses =>
      hgets hp n t ht hflight huses,
    h.forward,
    fun d hd => hprev _ _ _ (h.written d hd) fun hp huses => happ hp d hd huses, h.tabled⟩

lemma InTurn.setApplying (h : InTurn cfg s) {s' : Replica} (hgets : s'.gets = s.gets)
    (hsync : s'.sync = s.sync) (hwriting : ∀ d ∈ s'.applying.writing?, d ∈ s.applying.writing?)
    (htabled : ∀ d ∈ s'.applying.details, SyncCtrl.inTable cfg.opt d.consumerGroupId d.queueId) :
    InTurn cfg s' := by
  refine ⟨?_, ?_, ?_, ?_, ?_, htabled⟩
  · rw [hgets]
    exact h.one
  · rw [hgets]
    exact fun d hd => h.alone d (hwriting d hd)
  · rw [hgets, hsync]
    exact h.fresh
  · rw [hgets]
    exact h.forward
  · rw [hsync]
    exact fun d hd => h.written d (hwriting d hd)

/-! ## Steps -/

/-- **A step of a `Get`** that is in turn. -/
lemma InTurn.getStep (h : InTurn cfg s) (hinv : CursorInv cfg log s)
    (hlog : log.length < uint64Max) (n : ℕ) (timeUp : Bool) :
    InTurn cfg (s.getStep cfg log n timeUp) := by
  cases ht : s.gets n with
  | none =>
    have hstep : s.getStep cfg log n timeUp = s := by
      unfold Replica.getStep
      rw [ht]
    rw [hstep]
    exact h
  | some t =>
    -- other threads do not use its cursors while it is in flight
    have hother : t.InFlight → ∀ m u, m ≠ n → s.gets m = some u → u.InFlight →
        ¬ u.req.Uses t.req.queueId t.req.consumerGroupId := fun hflight m u hm hu hflight' huses =>
      hm (h.one m n u t hu ht hflight' hflight huses)
    have hcases : GetStep cfg log s n t (s.getStep cfg log n timeUp) := getStep_cases ht timeUp
    generalize s.getStep cfg log n timeUp = s' at hcases ⊢
    cases hcases with
    | reads t' reads =>
      refine h.setGet fun u hu hflight => ?_
      cases hu
      have hold := reads.inFlight hflight
      obtain ⟨hforward, hprev⟩ := reads.forward hinv hlog (hinv.threads n t ht)
        (h.forward n t ht hold) hold.1
      rw [reads.req_eq, hprev]
      exact ⟨hforward, h.fresh n t ht hold, hother hold, fun d hd => h.alone d hd n t ht hold⟩
    | prev phase random prev sync update =>
      have hold : t.InFlight := ⟨random, by rw [phase]; exact fun hp => nomatch hp⟩
      have hsync : InTurn cfg { s with sync := sync } := by
        refine h.setSync update (fun _ m u hu hflight huses => ?_) fun _ d hd huses => ?_
        · obtain rfl : m = n := h.one m n u t hu ht hflight hold huses
          rw [ht] at hu
          cases hu
          exact le_rfl
        · exact absurd ⟨huses.1.symm, huses.2.symm⟩ (h.alone d hd n t ht hold)
      refine hsync.setGet fun u hu hflight => ?_
      cases hu
      have hforward : GetThread.Forward { t with phase := .updateNext } :=
        (h.forward n t ht hold).withPhase fun _ hp => nomatch hp
      exact ⟨hforward, hsync.fresh n t ht hold, hother hold, fun d hd => h.alone d hd n t ht hold⟩
    | next phase next sync update =>
      have hsync : InTurn cfg { s with sync := sync } :=
        h.setSync update (fun hp => nomatch hp) fun hp => nomatch hp
      refine hsync.setGet fun u hu hflight => ?_
      cases hu
      exact absurd rfl hflight.2
    | fails phase range => exact h.setGet fun u hu => nomatch hu
    | done phase => exact h

/-- `SyncCursorID` goes on to write where the stored prev cursor is behind. -/
lemma behind_of_writePrev {d : SyncDetail} {ds : List SyncDetail}
    (hin : SyncCtrl.inTable cfg.opt d.consumerGroupId d.queueId)
    (happ : s.applying = .compare (d :: ds))
    (hnext : (s.executeStep cfg log).applying = .writePrev d ds) : Behind s d := by
  intro cur hcur
  have hcur : (s.sync d.queueId d.consumerGroupId).prev = some cur := hcur
  have hget : s.sync.getCursorID cfg.opt d.consumerGroupId d.queueId = .ok cur := by
    unfold SyncCtrl.getCursorID
    rw [if_pos hin, hcur]
  by_contra hge
  unfold Replica.executeStep at hnext
  split at hnext
  · rw [happ] at hnext
    cases hnext
  split at hnext
  · cases hnext
  rw [happ] at hnext
  dsimp only at hnext
  rw [hget] at hnext
  dsimp only at hnext
  rw [if_pos (not_lt.mp hge)] at hnext
  cases hnext

lemma levelOf_le_of_behind {d : SyncDetail} (h : Behind s d) (hd : d.prevCursorId < uint64Max) :
    levelOf (s.sync d.queueId d.consumerGroupId).prev ≤ level d.prevCursorId := by
  cases hprev : (s.sync d.queueId d.consumerGroupId).prev with
  | none => exact Nat.zero_le _
  | some cur =>
    have hlt := h cur hprev
    exact (level_le_level (hlt.trans hd).ne hd.ne).mpr hlt.le

/-- **A step of the execution** where no requests overlap. -/
lemma InTurn.executeStep (h : InTurn cfg s) (hinv : CursorInv cfg log s) (hlog : LogOk cfg log)
    (hok : ∀ d ∈ s.applying.comparing?, Behind s d → ¬ Busy s d.queueId d.consumerGroupId) : InTurn cfg (s.executeStep cfg log) := by
  have hbehind := fun d ds hin happ => @behind_of_writePrev cfg log s d ds hin happ
  have hcases : ExecuteStep cfg log s (s.executeStep cfg log) := executeStep_cases
  generalize s.executeStep cfg log = s' at hcases hbehind ⊢
  cases hcases with
  | idle => exact h
  | advance now pos => exact h.setApplying rfl rfl (fun _ hd => nomatch hd) fun _ hd => nomatch hd
  | noAdd args at_ applying none =>
    exact h.setApplying rfl rfl (fun _ hd => nomatch hd) fun d hd => ((hlog.of_getD at_).2 d hd).1
  | add args at_ applying req some metas ok =>
    exact h.setApplying rfl rfl (fun _ hd => nomatch hd) fun d hd => ((hlog.of_getD at_).2 d hd).1
  | skip applying => exact h.setApplying rfl rfl (fun _ hd => nomatch hd) fun _ hd => nomatch hd
  | known d ds applying cur stored ge =>
    refine h.setApplying rfl rfl (fun _ hd => nomatch hd) fun d' hd' => h.tabled d' ?_
    rw [applying]
    exact List.mem_cons_of_mem _ hd'
  | behind d ds applying =>
    have hmem : d ∈ s.applying.details := by
      rw [applying]
      exact List.mem_cons_self
    have hd := hbehind d ds (h.tabled d hmem) applying rfl
    have hfree := hok d (by rw [applying]; exact rfl) hd
    refine ⟨h.one, fun d' hd' n t ht hflight huses => ?_, h.fresh, h.forward, fun d' hd' => ?_,
      fun d' hd' => h.tabled d' ?_⟩
    · cases hd'
      exact hfree (.inl ⟨n, t, ht, hflight, huses⟩)
    · cases hd'
      exact levelOf_le_of_behind hd (hinv.details d hmem)
    · rw [applying]
      exact hd'
  | prev d ds applying sync update =>
    have hwriting : d ∈ s.applying.writing? := by
      rw [applying]
      exact rfl
    have hsync : InTurn cfg { s with sync := sync } := by
      refine h.setSync update (fun _ n t ht hflight huses => ?_) fun _ d' hd' _ => ?_
      · exact absurd huses (h.alone d hwriting n t ht hflight)
      · rw [applying] at hd'
        cases hd'
        exact le_rfl
    refine hsync.setApplying rfl rfl (fun d' hd' => ?_) fun d' hd' => h.tabled d' ?_
    · cases hd'
      exact hwriting
    · rw [applying]
      exact hd'
  | next d ds applying sync update =>
    have hsync : InTurn cfg { s with sync := sync } :=
      h.setSync update (fun hp => nomatch hp) fun hp => nomatch hp
    refine hsync.setApplying rfl rfl (fun _ hd => nomatch hd) fun d' hd' => h.tabled d' ?_
    rw [applying]
    exact List.mem_cons_of_mem _ hd'
  | fails d ds applying range => exact h.setApplying rfl rfl (fun _ hd => nomatch hd) fun _ hd => nomatch hd

theorem InTurn.step {w : World} (h : InTurn cfg w.store) (hw : w.Cursors cfg) {e : Event}
    (he : CursorEvent e) (hok : NoOverlap w e) : InTurn cfg (w.step cfg e).store := by
  have hframe : ∀ {e : StoreEvent}, e = .startRound ∨ e = .startSync ∨ e = .keepSync →
      InTurn cfg (w.store.step cfg w.log e) := by
    intro e he
    have hf : Frame w.store (w.store.step cfg w.log e) := by
      refine frame_step he fun q g r isPrev hr => ?_
      have hb := hw.store.keepSync
      rw [hr] at hb
      exact hb
    refine h.setApplying hf.gets hf.sync (fun d hd => ?_) fun d hd => ?_
    · rwa [hf.applying] at hd
    · rw [hf.applying] at hd
      exact h.tabled d hd
  cases e with
  | choose batch =>
    dsimp only [World.step]
    split <;> exact h
  | store e =>
    cases e with
    | execute => exact h.executeStep hw.store hw.log hok
    | startGet n req =>
      dsimp only [World.step, Replica.step, Replica.startGetStep]
      split
      · exact h
      rename_i hnone
      split
      · split
        · exact h
        · rename_i t ht
          refine h.setGet fun u hu hflight => ?_
          cases hu
          obtain ⟨queueInfoId, p, n', rfl⟩ := startGet_eq ht
          have hfree := hok hnone hflight.1
          obtain ⟨hfresh, hforward⟩ := startGet_forward hw.store ht hflight.1 hfree
          refine ⟨hforward, hfresh, fun m u _ hu hflight' huses => ?_, fun d hd huses => ?_⟩
          · exact hfree (.inl ⟨m, u, hu, hflight', huses⟩)
          · exact hfree (.inr ⟨d, hd, huses.1.symm, huses.2.symm⟩)
      · exact h
    | get n timeUp => exact h.getStep hw.store hw.log.length_lt n timeUp
    | endGet n =>
      have hend : InTurn cfg (w.store.setGet n none) := h.setGet fun u hu => nomatch hu
      dsimp only [World.step, Replica.step, Replica.endGet]
      repeat' split
      all_goals first | exact h | exact hend
    | startRound => exact hframe (.inl rfl)
    | startSync => exact hframe (.inr (.inl rfl))
    | keepSync => exact hframe (.inr (.inr rfl))
    | truncate m =>
      dsimp only [World.step, Replica.step]
      split
      · exact h.setApplying rfl rfl (fun _ hd => hd) fun d hd => h.tabled d hd
      · exact h
    | startReplay q g r => exact absurd he not_false
    | clear q g => exact absurd he not_false
    | restart => exact absurd he not_false

/-! ## Runs -/

lemma inTurn_init : InTurn cfg (Store.store cfg).init.store :=
  ⟨fun _ _ _ _ ht => (nomatch ht), fun _ hd => (nomatch hd), fun _ _ ht => (nomatch ht),
    fun _ _ ht => (nomatch ht), fun _ hd => (nomatch hd), fun _ hd => (nomatch hd)⟩

lemma along_notStale {es : List Event} (hdom : ∀ e ∈ es, CursorEvent e)
    (hok : (Store.store cfg).Along NoOverlap (Store.store cfg).init es) :
    (Store.store cfg).Along NotStale (Store.store cfg).init es := by
  have hstale : ∀ (w : World) e, w.Cursors cfg ∧ InTurn cfg w.store → NotStale w e := by
    intro w e h
    cases e with
    | choose batch => trivial
    | store e => exact h.2.notStale h.1.store
  have hstep : ∀ (w : World) e, w.Cursors cfg ∧ InTurn cfg w.store → CursorEvent e ∧ NoOverlap w e →
      (w.step cfg e).Cursors cfg ∧ InTurn cfg (w.step cfg e).store := fun w e h he =>
    ⟨(h.1.step he.1 (hstale w e h)).1, h.2.step h.1 he.1 he.2⟩
  exact (Machine.Always.of_inv hstep ⟨World.cursors_init, inTurn_init⟩
    (hok.and_labels hdom)).along hstale

end

/-- **Cursors are monotone.**  In a run of Gets and `SyncCursorID` in which no two requests for the
cursors of a group on a queue overlap, no stored prev cursor ever decreases, and between requests prev
is at most next. -/
theorem cursorsOrdered_run (cfg : StoreConfig) {es : List Event}
    (hdom : ∀ e ∈ es, CursorEvent e) (hok : (store cfg).Along NoOverlap (store cfg).init es) :
    PrevNeverDecreases cfg es ∧ (store cfg).Always OrderedBetween (store cfg).init es :=
  cursorsOrdered_of_notStale cfg hdom (along_notStale hdom hok)

/-! ## Threads with small numbers -/

section
variable {cfg : StoreConfig} {k : ℕ}

/-- Only threads below `k` are started. -/
def Event.Below (k : ℕ) : Event → Prop
  | .store (.startGet n _) => n < k
  | _ => True

instance (k : ℕ) : ∀ e : Event, Decidable (e.Below k)
  | .store (.startGet n _) => inferInstanceAs (Decidable (n < k))
  | .choose _ | .store .execute | .store (.get _ _) | .store (.endGet _) | .store .startRound
  | .store .startSync | .store (.startReplay _ _ _) | .store .keepSync | .store (.clear _ _)
  | .store (.truncate _) | .store .restart => inferInstanceAs (Decidable True)

/-- `Busy` on the threads below `k`. -/
def BusyBelow (k : ℕ) (s : Replica) (q g : ℕ) : Prop :=
  (∃ n < k, ∃ t ∈ s.gets n, t.InFlight ∧ t.req.Uses q g) ∨
    ∃ d ∈ s.applying.writing?, d.queueId = q ∧ d.consumerGroupId = g

instance (s : Replica) (q g : ℕ) : Decidable (BusyBelow k s q g) :=
  inferInstanceAs (Decidable ((∃ n < k, ∃ t ∈ s.gets n, t.InFlight ∧ t.req.Uses q g) ∨
    ∃ d ∈ s.applying.writing?, d.queueId = q ∧ d.consumerGroupId = g))

/-- `NoOverlap` on the threads below `k`. -/
def NoOverlapBelow (k : ℕ) (w : World) : Event → Prop
  | .store (.startGet n req) => w.store.gets n = none → req.random = false →
      ¬ BusyBelow k w.store req.queueId req.consumerGroupId
  | .store .execute => ∀ d ∈ w.store.applying.comparing?, Behind w.store d →
      ¬ BusyBelow k w.store d.queueId d.consumerGroupId
  | _ => True

instance (w : World) : ∀ e, Decidable (NoOverlapBelow k w e)
  | .store (.startGet n req) => inferInstanceAs (Decidable (w.store.gets n = none →
      req.random = false → ¬ BusyBelow k w.store req.queueId req.consumerGroupId))
  | .store .execute => inferInstanceAs (Decidable (∀ d ∈ w.store.applying.comparing?,
      Behind w.store d → ¬ BusyBelow k w.store d.queueId d.consumerGroupId))
  | .choose _ | .store (.get _ _) | .store (.endGet _) | .store .startRound
  | .store .startSync | .store (.startReplay _ _ _) | .store .keepSync | .store (.clear _ _)
  | .store (.truncate _) | .store .restart => inferInstanceAs (Decidable True)

variable {w : World}

lemma gets_step_of_below (h : ∀ n, k ≤ n → w.store.gets n = none) {e : Event} (he : e.Below k) :
    ∀ n, k ≤ n → (w.step cfg e).store.gets n = none := by
  intro n hn
  cases e with
  | choose batch =>
    dsimp only [World.step]
    split <;> exact h n hn
  | store e =>
    by_contra hsome
    obtain ⟨t, ht⟩ := Option.ne_none_iff_exists'.mp hsome
    have hnone := h n hn
    cases (threads_step ht : ThreadStep cfg w.log w.store n t e) with
    | same _ before | reads timeUp u before reads | publishes timeUp u before phase order after =>
      rw [hnone] at before
      cases before
    | starts req valid start =>
      have hlt : n < k := he
      omega

lemma noOverlap_of_below (h : ∀ n, k ≤ n → w.store.gets n = none) {e : Event}
    (hok : NoOverlapBelow k w e) : NoOverlap w e := by
  have hbusy : ∀ {q g}, Busy w.store q g → BusyBelow k w.store q g := by
    rintro q g (⟨n, t, ht, hflight, huses⟩ | hwriting)
    · refine .inl ⟨n, ?_, t, ht, hflight, huses⟩
      by_contra hge
      rw [h n (not_lt.mp hge)] at ht
      cases ht
    · exact .inr hwriting
  cases e with
  | choose batch => trivial
  | store e =>
    cases e with
    | startGet n req => exact fun hnone hrandom hb => hok hnone hrandom (hbusy hb)
    | execute => exact fun d hd hbehind hb => hok d hd hbehind (hbusy hb)
    | get _ _ | endGet _ | startRound | startSync | startReplay _ _ _ | keepSync | clear _ _
    | truncate _ | restart => trivial

lemma always_none_of_below {es : List Event} (hbelow : ∀ e ∈ es, e.Below k) :
    (Store.store cfg).Always (fun w => ∀ n, k ≤ n → w.store.gets n = none)
      (Store.store cfg).init es := by
  have hstep : ∀ (w : World) e, (∀ n, k ≤ n → w.store.gets n = none) → e.Below k ∧ True →
      ∀ n, k ≤ n → (w.step cfg e).store.gets n = none :=
    fun _ _ h he => gets_step_of_below h he.1
  exact Machine.Always.of_inv hstep (fun _ _ => rfl)
    ((Machine.along_of_forall (fun _ _ => trivial) _ es).and_labels hbelow)

/-- A condition on the threads below `k` is enough in a run of these. -/
lemma along_of_below {ok ok' : World → Event → Prop}
    (himp : ∀ w e, (∀ n, k ≤ n → w.store.gets n = none) → ok' w e → ok w e) {es : List Event}
    (hbelow : ∀ e ∈ es, e.Below k)
    (h : (Store.store cfg).Along ok' (Store.store cfg).init es) :
    (Store.store cfg).Along ok (Store.store cfg).init es :=
  h.of_always himp (always_none_of_below hbelow)

/-- No requests overlap in a run of threads below `k` when none of these does. -/
lemma along_noOverlap {es : List Event} (hbelow : ∀ e ∈ es, e.Below k)
    (hok : (Store.store cfg).Along (NoOverlapBelow k) (Store.store cfg).init es) :
    (Store.store cfg).Along NoOverlap (Store.store cfg).init es :=
  along_of_below (fun _ _ h hok => noOverlap_of_below h hok) hbelow hok

end

/-! ## A retried Get -/

/-- Another replica has got to cursor `c`, and its cursors are executed here. -/
def syncTo (c : ℕ) : List Event :=
  .choose [{ syncCtrlInfo := [⟨0, 1, c⟩] }] :: List.replicate 6 (.store .execute)

/-- Two Gets, and then `SyncCursorID`. -/
theorem getTwo_ordered : PrevNeverDecreases twoQueues (getTwo ++ syncTo 1) ∧
    (store twoQueues).Always OrderedBetween (store twoQueues).init (getTwo ++ syncTo 1) :=
  cursorsOrdered_run twoQueues (by decide) (along_noOverlap (k := 2) (by decide) (by decide))

/-- Thread 0 has read the first item and is slow.  The client asks again, with the cursors it had;
it gets the item from thread 1, and acknowledges it to thread 2. -/
def slowGet : List Event :=
  addOne 0 ++ addOne 0 ++ readOne 0 uint64Max uint64Max ++ publish 0 ++
    readOne 1 0 0 ++ readOne 2 0 0 ++ publish 2 ++ readOne 3 1 1 ++ publish 3

/-- **Counterexample.**  The slow `Get` publishes the cursors it started from: the prev cursor goes
back from 1 to 0, and the item is not acknowledged any more. -/
theorem retriedGet_not_ordered :
    (∀ e ∈ slowGet ++ publish 1, CursorEvent e) ∧
    ¬ (PrevNeverDecreases twoQueues (slowGet ++ publish 1) ∧
      (store twoQueues).Always OrderedBetween (store twoQueues).init (slowGet ++ publish 1)) := by
  refine ⟨by decide, fun h => ?_⟩
  have hle := h.1 slowGet.length (slowGet ++ publish 1).length (by decide) 0 1
  exact absurd hle (by decide)

end PhxQueue.Store
