import PhxQueue.Store.Delayed
import PhxQueue.Store.Overlap
import PhxQueue.Store.Replay
import PhxQueue.Store.Rewind

/-!
# Redelivery after a replay

An operator sets the cursors of a group back, and the Gets that follow are to return once more what
lies above.  They look for it in the metas, or in the log below the checkpoint, while Gets from
before the replay still publish where they have got to, and messages from before it are executed.

* `Rewind.Open`          an instance that has still to be returned;
* `Watch`, `redelivery`  a store after the replay, with what the Gets have returned;
* `Redelivered`          the cursors of the group pass nothing that has not been returned;
* `Proceeds`             a `Get` moves on while something has still to be returned;
* `RewindOk`             at the replay all of that is in the metas or below the checkpoint;
* `Undisturbed`          no older `Get` and no message writes a cursor that passes it;
* `Quiet.along_undisturbed`   which holds where none was left at the replay;
* `redelivered_run`      **then it is all returned**;
* `erasedMeta_not_redelivered`   a meta that is gone, above the checkpoint.
-/

set_option linter.unusedSectionVars false

namespace PhxQueue.Store
open Comm Lib Config

/-! ## What has to be returned -/

section
variable (cfg : StoreConfig) (k : Rewind)

/-- The items of an instance that are not filtered for the group. -/
def Rewind.wanted (log : Log) (i : ℕ) : List QItem :=
  match cfg.topic.getQueueInfoByQueue k.queueId with
  | .error _ => []
  | .ok queueInfo => (itemsOf log k.queueId i).filter fun x =>
      !skips cfg cfg.topicId k.consumerGroupId queueInfo.queueInfoId x

/-- The instance lies above the replay and is left in the log; it has an item that has not been
returned, or is not chosen yet. -/
def Rewind.Open (log : Log) (minChosen : ℕ) (served : List QItem) (i : ℕ) : Prop :=
  k.cursorId < i ∧ minChosen ≤ i ∧ (log.length ≤ i ∨ ∃ x ∈ k.wanted cfg log i, x ∉ served)

instance (log : Log) (minChosen : ℕ) (served : List QItem) :
    DecidablePred (k.Open cfg log minChosen served) := fun i =>
  inferInstanceAs (Decidable (_ ∧ _ ∧ (_ ∨ ∃ x ∈ k.wanted cfg log i, x ∉ served)))

def Rewind.IsOf (req : GetRequest) : Prop :=
  req.queueId = k.queueId ∧ req.consumerGroupId = k.consumerGroupId

instance (req : GetRequest) : Decidable (k.IsOf req) := inferInstanceAs (Decidable (_ ∧ _))

/-- A store after the replay: `old` are the Gets that were running when the cursors were set,
`served` is what the others have returned to the group. -/
structure Watch where
  world : World
  old : ℕ → Bool
  served : List QItem := []

def Watch.Open (v : Watch) (i : ℕ) : Prop :=
  k.Open cfg v.world.log v.world.store.minChosen v.served i

instance (v : Watch) : DecidablePred (v.Open cfg k) := fun i =>
  inferInstanceAs (Decidable (k.Open cfg v.world.log v.world.store.minChosen v.served i))

/-- What a step returns to the group: a `Get` publishes its next cursor, and ends. -/
def Watch.returned (v : Watch) : Event → List QItem
  | .store (.get n _) =>
    match v.world.store.gets n with
    | some t => if v.old n = false ∧ k.IsOf t.req ∧ t.phase = .updateNext then t.items else []
    | none => []
  | _ => []

def Watch.step (v : Watch) (e : Event) : Watch where
  world := v.world.step cfg e
  old n := v.old n && ((v.world.step cfg e).store.gets n).isSome
  served := v.served ++ v.returned k e

/-- The store from the second write of the replay on. -/
def redelivery (w : World) : Machine Watch Event where
  init := { world := w.step cfg (.store .keepSync), old := fun n => (w.store.gets n).isSome }
  step := Watch.step cfg k

/-- **Nothing is passed**: an item that the cursors of the group have passed again has been
returned again. -/
def Redelivered (v : Watch) : Prop :=
  ∀ c, ((v.world.store.sync k.queueId k.consumerGroupId).prev = some c ∨
      (v.world.store.sync k.queueId k.consumerGroupId).next = some c) →
    ∀ i < level c, k.cursorId < i → v.world.store.minChosen ≤ i →
      ∀ x ∈ k.wanted cfg v.world.log i, x ∈ v.served

/-- **Gets move on**: one without a time and with a positive limit that leaves its loop has moved
its cursor, as long as an instance that has been executed has still to be returned. -/
def Proceeds (v : Watch) : Event → Prop
  | .store (.get n timeUp) => ∀ t t', v.world.store.gets n = some t →
      (v.world.step cfg (.store (.get n timeUp))).store.gets n = some t' →
      v.old n = false → k.IsOf t.req → t.req.random = false →
      t.phase ≠ .updatePrev → t'.phase = .updatePrev → t.req.atime = 0 → 1 ≤ t.req.limit →
      (∃ i < v.world.store.now, v.Open cfg k i) → level t.cliNext < level t'.next
  | _ => True

/-! ## The conditions -/

/-- The replay is not started again, and the Gets of the group are for the topic of the store. -/
def ReplayEvent : Event → Prop
  | .store (.startReplay q g _) => ¬ (q = k.queueId ∧ g = k.consumerGroupId)
  | .store (.startGet _ req) => k.IsOf req → req.topicId = cfg.topicId
  | _ => True

instance : ∀ e, Decidable (ReplayEvent cfg k e)
  | .store (.startReplay q g _) =>
    inferInstanceAs (Decidable (¬ (q = k.queueId ∧ g = k.consumerGroupId)))
  | .store (.startGet _ req) => inferInstanceAs (Decidable (k.IsOf req → req.topicId = cfg.topicId))
  | .choose _ | .store .execute | .store (.get _ _) | .store (.endGet _) | .store .startRound
  | .store .startSync | .store .keepSync | .store (.clear _ _) | .store (.truncate _)
  | .store .restart => inferInstanceAs (Decidable True)

/-- Before the second write the prev cursor stands where the first one has set it, or lower, and
what has been executed above is in the metas or below the checkpoint. -/
structure RewindOk (w : World) : Prop where
  prev : ∃ p, (w.store.sync k.queueId k.consumerGroupId).prev = some p ∧ p ≤ k.cursorId
  kept : Kept w.log w.store (k.Open cfg w.log w.store.minChosen []) k.queueId
    (level w.store.checkPoint)

/-- Neither the execution of a message nor a `Get` from before the replay writes a cursor of the
group that passes what has still to be returned. -/
def Undisturbed (v : Watch) : Event → Prop
  | .store .execute => ∀ x ∈ cursorWritten v.world.store .execute,
      x.1 = k.queueId ∧ x.2.1 = k.consumerGroupId → Spares (v.Open cfg k) x.2.2
  | .store (.get n timeUp) => v.old n → ∀ x ∈ cursorWritten v.world.store (.get n timeUp),
      x.1 = k.queueId ∧ x.2.1 = k.consumerGroupId → Spares (v.Open cfg k) x.2.2
  | _ => True

instance (v : Watch) : ∀ e, Decidable (Undisturbed cfg k v e)
  | .store .execute => inferInstanceAs (Decidable (∀ x ∈ cursorWritten v.world.store .execute,
      x.1 = k.queueId ∧ x.2.1 = k.consumerGroupId → Spares (v.Open cfg k) x.2.2))
  | .store (.get n timeUp) => inferInstanceAs (Decidable (v.old n →
      ∀ x ∈ cursorWritten v.world.store (.get n timeUp),
        x.1 = k.queueId ∧ x.2.1 = k.consumerGroupId → Spares (v.Open cfg k) x.2.2))
  | .choose _ | .store (.startGet _ _) | .store (.endGet _) | .store .startRound
  | .store .startSync | .store (.startReplay _ _ _) | .store .keepSync | .store (.clear _ _)
  | .store (.truncate _) | .store .restart => inferInstanceAs (Decidable True)

/-! ### What is left from before the replay -/

/-- The cursors that these messages carry for the group pass none of the instances. -/
def Rewind.Harmless (P : ℕ → Prop) (details : List SyncDetail) : Prop :=
  ∀ d ∈ details, d.queueId = k.queueId → d.consumerGroupId = k.consumerGroupId → Spares P d.prevCursorId

def Rewind.Behind (details : List SyncDetail) : Prop :=
  ∀ d ∈ details, d.queueId = k.queueId → d.consumerGroupId = k.consumerGroupId →
    d.prevCursorId ≤ k.cursorId

/-- At the replay no `Get` of the group is running, and no message above it is left to be executed, now
or after a restart. -/
structure Quiet (w : World) : Prop where
  gets : ∀ n t, w.store.gets n = some t → ¬ k.IsOf t.req
  applying : k.Behind w.store.applying.details
  log : ∀ i, min w.store.now (level w.store.checkPoint) ≤ i →
    ∀ args ∈ valuesOf w.log i, k.Behind args.syncCtrlInfo

/-- What is left of that disturbs nothing. -/
structure Settled (v : Watch) : Prop where
  gets : ∀ n, v.old n = true → ∃ t, v.world.store.gets n = some t ∧ ¬ k.IsOf t.req
  applying : k.Harmless (v.Open cfg k) v.world.store.applying.details
  log : ∀ i, min v.world.store.now (level v.world.store.checkPoint) ≤ i →
    ∀ args ∈ valuesOf v.world.log i, k.Harmless (v.Open cfg k) args.syncCtrlInfo

/-- Nor does a message that is chosen after the replay. -/
def ChoosesHarmless (v : Watch) : Event → Prop
  | .choose batch => ∀ args ∈ batch, k.Harmless (v.Open cfg k) args.syncCtrlInfo
  | .store _ => True

/-! ## A Get after the replay -/

/-- The `Get` has read the checkpoint. -/
def GetPhase.HasCheckPoint : GetPhase → Prop
  | .svrPrev | .checkPoint => False
  | _ => True

/-- A `Get` of the group that has started after the replay: it has what it passes, and finds what
it has not passed. -/
structure Redelivering (P : ℕ → Prop) (log : Log) (s : Replica) (t : GetThread) : Prop where
  random : t.req.random = false
  isOf : k.IsOf t.req
  keeps : ∀ log i, ∀ x ∈ k.wanted cfg log i, x ∈ itemsOf log k.queueId i ∧ t.Keeps cfg x
  prev : Spares P t.prev
  next_ne : t.next ≠ uint64Max
  taken : ∀ i < level t.next, P i → i < log.length ∧ ∀ x ∈ k.wanted cfg log i, x ∈ t.items
  next_ge : level t.cliNext ≤ level t.next
  moved : t.i ≠ 0 → level t.cliNext < level t.next
  items : t.i = 0 → t.items = []
  kept : t.phase.HasCheckPoint → Kept log s P k.queueId (level t.cp)
  cursor : ∀ cur, t.phase = .items cur → level t.next ≤ cur ∧ cur ≠ uint64Max ∧
    ∀ i, level t.next ≤ i → i < cur → ¬ P i

end

section
variable {cfg : StoreConfig} {k : Rewind} {P P' : ℕ → Prop} {log : Log} {s s' : Replica}
  {t : GetThread}

lemma mem_itemsOf_of_wanted {i : ℕ} {x : QItem} (hx : x ∈ k.wanted cfg log i) :
    x ∈ itemsOf log k.queueId i := by
  unfold Rewind.wanted at hx
  split at hx
  · cases hx
  · exact (List.mem_filter.mp hx).1

lemma wanted_append {i : ℕ} (hi : i < log.length) (batch : List StorePaxosArgs) :
    k.wanted cfg (log ++ [batch]) i = k.wanted cfg log i := by
  unfold Rewind.wanted
  rw [itemsOf_append hi]

lemma Redelivering.mono (h : Redelivering cfg k P log s t) (hP : ∀ i, P' i → P i) :
    Redelivering cfg k P' log s t where
  random := h.random
  isOf := h.isOf
  keeps := h.keeps
  prev := h.prev.mono hP
  next_ne := h.next_ne
  taken := fun i hi hp => h.taken i hi (hP i hp)
  next_ge := h.next_ge
  moved := h.moved
  items := h.items
  kept := fun hread => (h.kept hread).mono hP le_rfl
  cursor := by
    intro cur hcur
    obtain ⟨hle, hne, hgap⟩ := h.cursor cur hcur
    exact ⟨hle, hne, fun i hi hlt hp => hgap i hi hlt (hP i hp)⟩

lemma Redelivering.append (h : Redelivering cfg k P log s t) (hs : s.Sound cfg log)
    (batch : List StorePaxosArgs) : Redelivering cfg k P (log ++ [batch]) s t where
  random := h.random
  isOf := h.isOf
  keeps := h.keeps
  prev := h.prev
  next_ne := h.next_ne
  taken := by
    intro i hi hp
    obtain ⟨hlt, hall⟩ := h.taken i hi hp
    rw [wanted_append hlt, List.length_append]
    exact ⟨hlt.trans_le (Nat.le_add_right _ _), hall⟩
  next_ge := h.next_ge
  moved := h.moved
  items := h.items
  kept := fun hread => (h.kept hread).append hs batch
  cursor := h.cursor

lemma Redelivering.carry (h : Redelivering cfg k P log s t)
    (hkept : ∀ c, Kept log s P k.queueId c → Kept log s' P k.queueId c) :
    Redelivering cfg k P log s' t :=
  ⟨h.random, h.isOf, h.keeps, h.prev, h.next_ne, h.taken, h.next_ge, h.moved, h.items,
    fun hread => hkept _ (h.kept hread), h.cursor⟩

lemma Redelivering.withPhase (h : Redelivering cfg k P log s t) {phase : GetPhase}
    (hread : t.phase.HasCheckPoint) (hitems : ∀ cur, phase ≠ .items cur) :
    Redelivering cfg k P log s { t with phase := phase } :=
  ⟨h.random, h.isOf, h.keeps, h.prev, h.next_ne, h.taken, h.next_ge, h.moved, h.items,
    fun _ => h.kept hread, fun cur hcur => absurd hcur (hitems cur)⟩

/-! ### Its start -/

lemma keeps_of_wanted {queueInfo : QueueInfo} {i : ℕ} {x : QItem}
    (hinfo : cfg.topic.getQueueInfoByQueue k.queueId = .ok queueInfo) (hof : k.IsOf t.req)
    (htopic : t.req.topicId = cfg.topicId) (hid : t.queueInfoId = queueInfo.queueInfoId)
    (hx : x ∈ k.wanted cfg log i) : x ∈ itemsOf log k.queueId i ∧ t.Keeps cfg x := by
  unfold Rewind.wanted at hx
  rw [hinfo] at hx
  obtain ⟨hmem, hkeep⟩ := List.mem_filter.mp hx
  refine ⟨hmem, keeps_iff.mp ?_⟩
  rw [htopic, hof.2, hid]
  exact hkeep

/-- A `Get` starts from stored cursors, or from a prev cursor below one. -/
lemma redelivering_startGet (h : Rewound cfg k P log s) (hs : s.Sound cfg log) {req : GetRequest}
    (hof : k.IsOf req) (htopic : req.topicId = cfg.topicId) (hrandom : req.random = false)
    (hstart : startGet cfg s.sync req = .ok t) : Redelivering cfg k P log s t := by
  unfold startGet at hstart
  cases hinfo : cfg.topic.getQueueInfoByQueue req.queueId with
  | error ret =>
    rw [hinfo] at hstart
    cases hstart
  | ok queueInfo =>
    rw [hinfo] at hstart
    dsimp only at hstart
    have hthread : ∀ p n : ℕ, Spares P p → n ≠ uint64Max → Spares P n →
        Redelivering cfg k P log s
          { req := req, queueInfoId := queueInfo.queueInfoId, cliPrev := p, cliNext := n
            prev := p, next := n } := by
      intro p n hp hne hn
      refine ⟨hrandom, hof, fun log i x hx => ?_, hp, hne, fun i hi hopen => absurd hopen (hn i hi),
        le_rfl, fun hi => absurd rfl hi, fun _ => rfl, fun hread => absurd hread id,
        fun cur hcur => (nomatch hcur)⟩
      rw [hof.1] at hinfo
      exact keeps_of_wanted hinfo hof htopic rfl hx
    split at hstart
    · cases hstart
    split at hstart
    · rename_i hrand
      rw [hrandom] at hrand
      cases hrand
    obtain ⟨c, hc, hspares⟩ := h.prev
    have hc : (s.sync req.queueId req.consumerGroupId).prev = some c := by
      rw [hof.1, hof.2]
      exact hc
    have hstored := hs.stored req.queueId req.consumerGroupId
    cases hadj : s.sync.adjustNextCursorID cfg.opt req.consumerGroupId req.queueId
        req.prevCursorId req.nextCursorId with
    | error ret =>
      rw [hadj] at hstart
      dsimp only at hstart
      rcases adjustNextCursorID_error hadj with rfl | ⟨_, _, hnone⟩
      · cases hstart
      · rw [hc] at hnone
        cases hnone
    | ok pn =>
      obtain ⟨p, n⟩ := pn
      rw [hadj] at hstart
      cases hstart
      rcases (SyncCtrl.adjustNextCursorID_cases hstored.1 hadj).2 with
        ⟨rfl, hnext, hle, hlevel⟩ | ⟨hprev, rfl⟩
      · have hne : req.nextCursorId ≠ uint64Max := fun hmax => hstored.2 (hmax ▸ hnext)
        have hn : Spares P req.nextCursorId := by
          rw [hof.1, hof.2] at hnext
          exact h.next _ hnext
        refine hthread _ _ (fun i hi => ?_) hne hn
        rw [hlevel, hc] at hi
        rcases lt_max_iff.mp hi with hi | hi
        · refine hn i (hi.trans_le ?_)
          rcases hle with hmax | hle
          · rw [hmax, level_uint64Max]
            exact Nat.zero_le _
          · rw [level_of_ne (ne_uint64Max_of_lt_level hi), level_of_ne hne]
            exact Nat.succ_le_succ hle
        · exact hspares i hi
      · rw [hc] at hprev
        cases hprev
        exact hthread _ _ hspares (fun hmax => hstored.1 (hmax ▸ hc)) hspares

/-! ### Its loop -/

/-- **The next cursor passes nothing that is to be returned.** -/
lemma Redelivering.next (h : Redelivering cfg k P log s t) (hr : Rewound cfg k P log s)
    (hs : s.Sound cfg log) (hlog : LogOk cfg log) (hthread : SoundThread log s t)
    (hP : ∀ i, P i → i < log.length → itemsOf log k.queueId i ≠ [])
    (hphase : t.phase = .loop) {cur : ℕ} (hcur : nextCursor t (s.metas k.queueId) = some cur) :
    level t.next ≤ cur ∧ cur ≠ uint64Max ∧ ∀ i, level t.next ≤ i → i < cur → ¬ P i := by
  have hkept : Kept log s P k.queueId (level t.cp) := by
    apply h.kept
    rw [hphase]
    trivial
  have hnow := hs.now_le
  have hlen := hlog.length_lt
  have hmax : uint64Max = 2 ^ 64 - 1 := rfl
  have hnext := level_of_ne h.next_ne
  obtain ⟨hcp, hmin⟩ := hthread
  unfold nextCursor at hcur
  split at hcur
  · rename_i hpath
    obtain ⟨hmem, hle⟩ := StoreMetaQueue.next_mem hcur
    have hcurNow := hs.metas_le _ cur hmem
    refine ⟨hle, by omega, fun i hi hlt hopen => ?_⟩
    have hexec : Executed ⟨log, s⟩ k.queueId i :=
      .inl ⟨hlt.trans_le hcurNow, hP i hopen (by omega)⟩
    rcases hkept i hopen hexec with hmetas | hbelow
    · have := StoreMetaQueue.next_le hcur hmetas hi
      omega
    · have hne := ne_uint64Max_of_lt_level hbelow
      have hge := hpath.resolve_left hne
      rw [level_of_ne hne] at hbelow
      omega
  · rename_i hpath
    obtain ⟨hne, hlt⟩ := not_or.mp hpath
    rw [level_of_ne hne] at hcp
    split at hcur
    · rename_i hbelow
      cases hcur
      have hle := hmin.resolve_left hbelow.1
      refine ⟨by omega, hbelow.1, fun i _ hi => ?_⟩
      exact hr.minChosen i (by omega)
    · cases hcur
      rw [wrap64_of_lt (by omega)]
      refine ⟨by omega, by omega, fun i hi hlt => ?_⟩
      omega

lemma Redelivering.next_none (h : Redelivering cfg k P log s t)
    (hs : s.Sound cfg log) (hP : ∀ i, P i → i < log.length → itemsOf log k.queueId i ≠ [])
    (hphase : t.phase = .loop) (hcur : nextCursor t (s.metas k.queueId) = none) :
    ∀ i, level t.next ≤ i → i < s.now → ¬ P i := by
  have hkept : Kept log s P k.queueId (level t.cp) := by
    apply h.kept
    rw [hphase]
    trivial
  have hnext := level_of_ne h.next_ne
  unfold nextCursor at hcur
  split at hcur
  · rename_i hpath
    intro i hi hlt hopen
    have hexec : Executed ⟨log, s⟩ k.queueId i :=
      .inl ⟨hlt, hP i hopen (hlt.trans_le hs.now_le)⟩
    rcases hkept i hopen hexec with hmetas | hbelow
    · have := StoreMetaQueue.next_none hcur hmetas
      omega
    · have hne := ne_uint64Max_of_lt_level hbelow
      have hge := hpath.resolve_left hne
      rw [level_of_ne hne] at hbelow
      omega
  · cases hcur

lemma Redelivering.look (h : Redelivering cfg k P log s t) (hr : Rewound cfg k P log s)
    (hs : s.Sound cfg log) (hlog : LogOk cfg log) (hthread : SoundThread log s t)
    (hP : ∀ i, P i → i < log.length → itemsOf log k.queueId i ≠ [])
    (hphase : t.phase = .loop) (timeUp : Bool) :
    Redelivering cfg k P log s (loopStep t (s.metas t.req.queueId) timeUp) := by
  have hloop : t.phase.HasCheckPoint := by
    rw [hphase]
    trivial
  rw [h.isOf.1]
  have hcases := @loopStep_cases t (s.metas k.queueId) timeUp
  generalize loopStep t (s.metas k.queueId) timeUp = t' at hcases
  cases hcases with
  | stops => exact h.withPhase hloop fun _ hp => (nomatch hp)
  | skips cur next ne ge =>
    -- it moves below its prev cursor, which passes nothing either
    obtain ⟨hle, hne, _⟩ := h.next hr hs hlog hthread hP hphase next
    have hlevel := level_of_ne hne
    have hge := h.next_ge
    refine ⟨h.random, h.isOf, h.keeps, h.prev, hne, fun i hi hopen => ?_, ?_, fun _ => ?_,
      fun hi => ?_, fun _ => h.kept hloop, fun c hp => ?_⟩
    · refine absurd hopen (h.prev i ?_)
      have hi : i < level cur := hi
      rw [level_of_ne ne]
      omega
    · show level t.cliNext ≤ level cur
      omega
    · show level t.cliNext < level cur
      omega
    · cases hi
    · have hp : t.phase = .items c := hp
      rw [hphase] at hp
      cases hp
  | reads cur next above =>
    have hcur := h.next hr hs hlog hthread hP hphase next
    refine ⟨h.random, h.isOf, h.keeps, h.prev, h.next_ne, h.taken, h.next_ge, h.moved, h.items,
      fun _ => h.kept hloop, fun c hp => ?_⟩
    cases hp
    exact hcur

lemma Redelivering.take (h : Redelivering cfg k P log s t) (hr : Rewound cfg k P log s)
    (hs : s.Sound cfg log) {cur : ℕ} (hphase : t.phase = .items cur) {items : List QItem}
    (hitems : getItemsByCursorID log s.now s.minChosen t.req.queueId cur = .ok items) :
    Redelivering cfg k P log s (takeItems cfg t cur items) := by
  have hread : t.phase.HasCheckPoint := by
    rw [hphase]
    trivial
  obtain ⟨hle, hne, hgap⟩ := h.cursor cur hphase
  have hlevel := level_of_ne hne
  have hnow := hs.now_le
  have hge := h.next_ge
  rw [h.isOf.1] at hitems
  -- the items of the instance, unless it is deleted
  obtain ⟨hcurNow, hfound⟩ : cur < s.now ∧ (P cur → items = itemsOf log k.queueId cur) := by
    unfold getItemsByCursorID at hitems
    split at hitems
    · cases hitems
    · rename_i hlt
      refine ⟨not_le.mp hlt, fun hopen => ?_⟩
      split at hitems
      · rename_i hdel
        exact absurd hopen (hr.minChosen cur hdel)
      · cases hitems
        rfl
  have hcases := @takeItems_cases cfg t cur items
  generalize takeItems cfg t cur items = t' at hcases
  cases hcases with
  | stops ne leaves => exact h.withPhase hread fun _ hp => (nomatch hp)
  | takes takes byteSize phase order =>
    refine ⟨h.random, h.isOf, h.keeps, h.prev, hne, fun i hi hopen => ?_, ?_, fun _ => ?_,
      fun hi => ?_, fun _ => h.kept hread, fun c hp => ?_⟩
    · have hi : i < level cur := hi
      rcases Nat.lt_or_ge i (level t.next) with hold | hnew
      · obtain ⟨hlt, hall⟩ := h.taken i hold hopen
        exact ⟨hlt, fun x hx => List.mem_append_left _ (hall x hx)⟩
      rcases Nat.lt_or_ge i cur with hgap' | hat
      · exact absurd hopen (hgap i hnew hgap')
      · obtain rfl : i = cur := by omega
        refine ⟨by omega, fun x hx => ?_⟩
        obtain ⟨hmem, hkeep⟩ := h.keeps log i x hx
        apply List.mem_append_right
        rw [hfound hopen]
        exact List.mem_filter.mpr ⟨hmem, keeps_iff.mpr hkeep⟩
    · show level t.cliNext ≤ level cur
      omega
    · show level t.cliNext < level cur
      omega
    · cases hi
    · have hp : phase = .items c := hp
      rcases order with rfl | rfl
      · cases hp
      · cases hp

/-- **Reading keeps what is to be returned.** -/
lemma Redelivering.reads (h : Redelivering cfg k P log s t) (hr : Rewound cfg k P log s)
    (hs : s.Sound cfg log) (hlog : LogOk cfg log) (hthread : SoundThread log s t)
    (hP : ∀ i, P i → i < log.length → itemsOf log k.queueId i ≠ []) {t' : GetThread}
    (hreads : GetReads cfg log s t t') : Redelivering cfg k P log s t' := by
  cases hreads with
  | svrPrev phase =>
    exact ⟨h.random, h.isOf, h.keeps, h.prev, h.next_ne, h.taken, h.next_ge, h.moved, h.items,
      fun hread => absurd hread id, fun _ hp => (nomatch hp)⟩
  | checkPoint phase =>
    exact ⟨h.random, h.isOf, h.keeps, h.prev, h.next_ne, h.taken, h.next_ge, h.moved, h.items,
      fun _ => hr.kept, fun _ hp => (nomatch hp)⟩
  | minInstance phase =>
    have hread := h.kept (by rw [phase]; trivial)
    unfold enterLoop
    rw [if_neg (by rw [h.random]; exact Bool.false_ne_true)]
    exact ⟨h.random, h.isOf, h.keeps, h.prev, h.next_ne, h.taken, h.next_ge, h.moved, h.items,
      fun _ => hread, fun _ hp => (nomatch hp)⟩
  | loop phase timeUp => exact h.look hr hs hlog hthread hP phase timeUp
  | items cur phase items hitems => exact h.take hr hs phase hitems
  | notChosen cur phase now =>
    refine h.withPhase ?_ fun _ hp => (nomatch hp)
    rw [phase]
    trivial
  | random phase random =>
    rw [h.random] at random
    cases random
  | noPrev phase random prev =>
    refine h.withPhase ?_ fun _ hp => (nomatch hp)
    rw [phase]
    trivial
  | noNext phase next => exact absurd next h.next_ne

/-! ### Moving on -/

/-- What it has passed it has collected, so it has moved. -/
lemma Redelivering.moved_of_passed (h : Redelivering cfg k P log s t)
    (hP : ∀ i, P i → i < log.length → k.wanted cfg log i ≠ []) {i : ℕ} (hopen : P i)
    (hi : i < level t.next) : level t.cliNext < level t.next := by
  obtain ⟨hlt, hall⟩ := h.taken i hi hopen
  obtain ⟨x, hx⟩ := List.exists_mem_of_ne_nil _ (hP i hopen hlt)
  refine h.moved fun hzero => ?_
  have hmem := hall x hx
  rw [h.items hzero] at hmem
  cases hmem

lemma Redelivering.loop_proceeds (h : Redelivering cfg k P log s t) (hs : s.Sound cfg log)
    (hP : ∀ i, P i → i < log.length → k.wanted cfg log i ≠ [])
    (hitems : ∀ i, P i → i < log.length → itemsOf log k.queueId i ≠ [])
    (hphase : t.phase = .loop) {timeUp : Bool} (hlimit : 1 ≤ t.req.limit) {i : ℕ}
    (hi : i < s.now) (hopen : P i)
    (hout : (loopStep t (s.metas t.req.queueId) timeUp).phase = .updatePrev) :
    level t.cliNext < level (loopStep t (s.metas t.req.queueId) timeUp).next := by
  rw [h.isOf.1] at hout ⊢
  unfold loopStep at hout ⊢
  split
  · -- 512 rounds, or the limit of items
    rename_i hend
    refine h.moved fun hzero => hend ⟨by omega, ?_⟩
    rw [h.items hzero, List.length_nil]
    exact hlimit
  rename_i hgo
  rw [if_neg hgo] at hout
  split
  · rename_i htime
    exact h.moved htime.2
  rename_i htime
  rw [if_neg htime] at hout
  split
  · -- no meta is left
    rename_i hcur
    apply h.moved_of_passed hP hopen
    by_contra hge
    exact h.next_none hs hitems hphase hcur i (not_lt.mp hge) hi hopen
  · rename_i cur hcur
    rw [hcur] at hout
    dsimp only at hout
    split at hout
    · have hout : t.phase = .updatePrev := hout
      rw [hphase] at hout
      cases hout
    · cases hout

lemma Redelivering.take_proceeds (h : Redelivering cfg k P log s t) {cur : ℕ}
    (hphase : t.phase = .items cur) (hatime : t.req.atime = 0) {items : List QItem}
    (hout : (takeItems cfg t cur items).phase = .updatePrev) :
    level t.cliNext < level (takeItems cfg t cur items).next := by
  obtain ⟨hle, hne, _⟩ := h.cursor cur hphase
  have hlevel := level_of_ne hne
  have hge := h.next_ge
  have hmove : level t.cliNext < level cur := by omega
  unfold takeItems at hout ⊢
  split
  · exact hmove
  split
  · rename_i hfull
    exact h.moved fun hzero => hfull.1 (h.items hzero)
  split
  · rename_i hafter
    exact absurd hatime hafter.1
  · exact hmove

/-! ## A step of the store -/

/-- Only a `Get` that is not random publishes a next cursor. -/
lemma random_step {e : StoreEvent} {n : ℕ} (ht : (s.step cfg log e).gets n = some t)
    (hphase : t.phase = .updateNext) : s.gets n = some t ∨ t.req.random = false := by
  have hreads : ∀ u, GetReads cfg log s u t → t.req.random = false := by
    intro u hr
    cases hr with
    | noPrev phase random prev => exact random
    | minInstance phase =>
      unfold enterLoop at hphase
      split at hphase <;> cases hphase
    | loop phase timeUp =>
      have hcases := @loopStep_cases u (s.metas u.req.queueId) timeUp
      generalize loopStep u (s.metas u.req.queueId) timeUp = u' at hcases hphase
      cases hcases with
      | skips =>
        have hphase : u.phase = .updateNext := hphase
        rw [phase] at hphase
        cases hphase
      | stops | reads _ _ _ => cases hphase
    | items cur phase items hitems =>
      have hcases := @takeItems_cases cfg u cur items
      generalize takeItems cfg u cur items = u' at hcases hphase
      cases hcases with
      | stops _ _ => cases hphase
      | takes takes byteSize phase' order =>
        have hphase : phase' = .updateNext := hphase
        rcases order with rfl | rfl
        · cases hphase
        · cases hphase
    | svrPrev _ | checkPoint _ | notChosen _ _ _ | random _ _ | noNext _ _ => cases hphase
  cases threads_step ht with
  | same _ before => exact .inl before
  | starts req valid start =>
    obtain ⟨_, _, _, rfl⟩ := startGet_eq start
    cases hphase
  | reads timeUp u before reads => exact .inr (hreads u reads)
  | publishes timeUp u before phase order after =>
    right
    have hcases : GetStep cfg log s n u (s.getStep cfg log n timeUp) := getStep_cases before timeUp
    have ht : (s.getStep cfg log n timeUp).gets n = some t := ht
    generalize s.getStep cfg log n timeUp = s' at hcases ht
    cases hcases with
    | reads u' reads =>
      rw [gets_setGet_self] at ht
      cases ht
      exact hreads u reads
    | prev phase random prev sync update =>
      rw [gets_setGet_self] at ht
      cases ht
      exact random
    | next phase next sync update =>
      rw [gets_setGet_self] at ht
      cases ht
      cases hphase
    | fails phase range =>
      rw [gets_setGet_self] at ht
      cases ht
    | done phase =>
      rcases order with ⟨hp, _⟩ | ⟨hp, _⟩
      · rw [phase] at hp
        cases hp
      · rw [phase] at hp
        cases hp

/-! ## What is open -/

lemma store_choose (w : World) (batch : List StorePaxosArgs) :
    (w.step cfg (.choose batch)).store = w.store := by
  dsimp only [World.step]
  split <;> rfl

lemma log_choose (w : World) (batch : List StorePaxosArgs) :
    (w.step cfg (.choose batch)).log = w.log ∨ (w.step cfg (.choose batch)).log = w.log ++ [batch] := by
  dsimp only [World.step]
  split
  · exact .inr rfl
  · exact .inl rfl

variable {v : Watch}

lemma Watch.Open.wanted_ne (v : Watch) : ∀ i, v.Open cfg k i → i < v.world.log.length →
    k.wanted cfg v.world.log i ≠ [] := by
  intro i hopen hlt
  obtain ⟨x, hx, _⟩ := hopen.2.2.resolve_left (not_le.mpr hlt)
  exact List.ne_nil_of_mem hx

lemma Watch.Open.itemsOf_ne (v : Watch) : ∀ i, v.Open cfg k i → i < v.world.log.length →
    itemsOf v.world.log k.queueId i ≠ [] := by
  intro i hopen hlt
  obtain ⟨x, hx⟩ := List.exists_mem_of_ne_nil _ (Watch.Open.wanted_ne v i hopen hlt)
  exact List.ne_nil_of_mem (mem_itemsOf_of_wanted hx)

/-- **Nothing is opened again.** -/
lemma Watch.Open.of_step {e : Event} {i : ℕ} (h : (v.step cfg k e).Open cfg k i) :
    v.Open cfg k i := by
  obtain ⟨hr, hmin, hleft⟩ := h
  cases e with
  | choose batch =>
    have hmin : (v.world.step cfg (.choose batch)).store.minChosen ≤ i := hmin
    rw [store_choose] at hmin
    refine ⟨hr, hmin, ?_⟩
    rcases Nat.lt_or_ge i v.world.log.length with hlt | hge
    · right
      have hleft : (v.world.step cfg (.choose batch)).log.length ≤ i ∨
          ∃ x ∈ k.wanted cfg (v.world.step cfg (.choose batch)).log i,
            x ∉ v.served ++ v.returned k (.choose batch) := hleft
      rcases @log_choose cfg v.world batch with heq | heq
      · rw [heq] at hleft
        obtain ⟨x, hx, hnot⟩ := hleft.resolve_left (not_le.mpr hlt)
        exact ⟨x, hx, fun hmem => hnot (List.mem_append_left _ hmem)⟩
      · rw [heq, wanted_append hlt, List.length_append] at hleft
        obtain ⟨x, hx, hnot⟩ := hleft.resolve_left (by omega)
        exact ⟨x, hx, fun hmem => hnot (List.mem_append_left _ hmem)⟩
    · exact .inl hge
  | store e =>
    refine ⟨hr, (minChosen_le_step e).trans hmin, hleft.imp id ?_⟩
    rintro ⟨x, hx, hnot⟩
    exact ⟨x, hx, fun hmem => hnot (List.mem_append_left _ hmem)⟩

/-! ## The invariant -/

variable (cfg k) in
structure Watch.Inv (v : Watch) : Prop where
  sound : v.world.Sound cfg
  rewound : Rewound cfg k (v.Open cfg k) v.world.log v.world.store
  random : ∀ n t, v.world.store.gets n = some t → v.old n = false → t.phase = .updateNext →
    t.req.random = false
  threads : ∀ n t, v.world.store.gets n = some t → v.old n = false → k.IsOf t.req →
    t.req.random = false → Redelivering cfg k (v.Open cfg k) v.world.log v.world.store t

lemma Watch.Inv.redelivered (h : v.Inv cfg k) : Redelivered cfg k v := by
  intro c hc i hi hr hmin x hx
  have hspares : Spares (v.Open cfg k) c := by
    rcases hc with hc | hc
    · obtain ⟨p, hp, hspares⟩ := h.rewound.prev
      rw [hp] at hc
      cases hc
      exact hspares
    · exact h.rewound.next c hc
  by_contra hnot
  exact hspares i hi ⟨hr, hmin, .inr ⟨x, hx, hnot⟩⟩

/-- A `Get` that goes on is as old as it was. -/
lemma Watch.old_of_step {e : Event} {n : ℕ} {t : GetThread}
    (ht : (v.step cfg k e).world.store.gets n = some t) : (v.step cfg k e).old n = v.old n := by
  have ht : (v.world.step cfg e).store.gets n = some t := ht
  show (v.old n && ((v.world.step cfg e).store.gets n).isSome) = v.old n
  rw [ht, Option.isSome_some, Bool.and_true]

/-- What a `Get` publishes passes only what it returns. -/
lemma Watch.Inv.spares_written (h : v.Inv cfg k) {e : StoreEvent}
    (hok : Undisturbed cfg k v (.store e)) {c : ℕ}
    (hw : cursorWritten v.world.store e = some (k.queueId, k.consumerGroupId, c)) :
    Spares ((v.step cfg k (.store e)).Open cfg k) c := by
  cases e with
  | execute => exact (hok _ hw ⟨rfl, rfl⟩).mono fun i hi => hi.of_step
  | get n timeUp =>
    by_cases hold : v.old n = true
    · exact (hok hold _ hw ⟨rfl, rfl⟩).mono fun i hi => hi.of_step
    have hold := Bool.eq_false_iff.mpr hold
    dsimp only [cursorWritten] at hw
    cases ht : v.world.store.gets n with
    | none =>
      rw [ht] at hw
      cases hw
    | some t =>
      rw [ht] at hw
      dsimp only at hw
      split at hw
      · rename_i hphase
        split at hw
        · cases hw
        · rename_i hprev
          obtain ⟨hq, hg, rfl⟩ : t.req.queueId = k.queueId ∧
              t.req.consumerGroupId = k.consumerGroupId ∧ t.prev = c := by simpa using hw
          have hrandom := Bool.eq_false_iff.mpr fun hr => hprev (.inl hr)
          exact (h.threads n t ht hold ⟨hq, hg⟩ hrandom).prev.mono fun i hi => hi.of_step
      · rename_i hphase
        split at hw
        · cases hw
        · obtain ⟨hq, hg, rfl⟩ : t.req.queueId = k.queueId ∧
              t.req.consumerGroupId = k.consumerGroupId ∧ t.next = c := by simpa using hw
          -- what it passes is among its items, which it returns in this step
          have hrandom := h.random n t ht hold hphase
          have hthread := h.threads n t ht hold ⟨hq, hg⟩ hrandom
          intro i hi hopen
          obtain ⟨hlt, hall⟩ := hthread.taken i hi hopen.of_step
          obtain ⟨x, hx, hnot⟩ := hopen.2.2.resolve_left (not_le.mpr hlt)
          apply hnot
          apply List.mem_append_right
          unfold Watch.returned
          dsimp only
          rw [ht]
          dsimp only
          rw [if_pos ⟨hold, ⟨hq, hg⟩, hphase⟩]
          exact hall x hx
      · cases hw
  | startGet _ _ | endGet _ | startRound | startSync | startReplay _ _ _ | keepSync | clear _ _
  | truncate _ | restart => cases hw

/-- **The threads after a step.** -/
lemma Watch.Inv.threads_step (h : v.Inv cfg k) {e : StoreEvent}
    (hdom : ReplayEvent cfg k (.store e)) {n : ℕ} {t : GetThread}
    (ht : (v.world.store.step cfg v.world.log e).gets n = some t) (hold : v.old n = false)
    (hof : k.IsOf t.req) (hrandom : t.req.random = false) :
    Redelivering cfg k (v.Open cfg k) v.world.log v.world.store t := by
  have hs := h.sound.store
  cases Store.threads_step ht with
  | same _ before => exact h.threads n t before hold hof hrandom
  | starts req valid start =>
    have hreq : t.req = req := by
      obtain ⟨_, _, _, rfl⟩ := startGet_eq start
      rfl
    rw [hreq] at hof hrandom
    exact redelivering_startGet h.rewound hs hof (hdom hof) hrandom start
  | reads timeUp u before reads =>
    rw [reads.req_eq] at hof hrandom
    exact (h.threads n u before hold hof hrandom).reads h.rewound hs h.sound.log
      (hs.threads n u before) (Watch.Open.itemsOf_ne v) reads
  | publishes timeUp u before phase order after =>
    rw [after] at hof hrandom ⊢
    have hu := h.threads n u before hold hof hrandom
    rcases order with ⟨hphase, rfl⟩ | ⟨hphase, rfl⟩
    · refine hu.withPhase ?_ fun _ hp => (nomatch hp)
      rw [hphase]
      trivial
    · refine hu.withPhase ?_ fun _ hp => (nomatch hp)
      rw [hphase]
      trivial

theorem Watch.Inv.step (h : v.Inv cfg k) {e : Event} (hdom : ReplayEvent cfg k e)
    (hok : Undisturbed cfg k v e) : (v.step cfg k e).Inv cfg k := by
  have hs := h.sound.store
  have hopen : ∀ i, (v.step cfg k e).Open cfg k i → v.Open cfg k i := fun _ hi => hi.of_step
  have hsound : (v.step cfg k e).world.Sound cfg := h.sound.step e
  cases e with
  | choose batch =>
    have hstore : (v.step cfg k (.choose batch)).world.store = v.world.store := store_choose _ _
    have hlog : (v.step cfg k (.choose batch)).world.log = v.world.log ∨
        (v.step cfg k (.choose batch)).world.log = v.world.log ++ [batch] := log_choose _ _
    refine ⟨hsound, ?_, fun n t ht hold => ?_, fun n t ht hold hof hrandom => ?_⟩
    · rw [hstore]
      rcases hlog with heq | heq
      · rw [heq]
        exact h.rewound.mono hopen
      · rw [heq]
        exact (h.rewound.append hs batch).mono hopen
    · rw [Watch.old_of_step ht] at hold
      rw [hstore] at ht
      exact h.random n t ht hold
    · rw [Watch.old_of_step ht] at hold
      rw [hstore] at ht ⊢
      have hthread := h.threads n t ht hold hof hrandom
      rcases hlog with heq | heq
      · rw [heq]
        exact hthread.mono hopen
      · rw [heq]
        exact (hthread.append hs batch).mono hopen
  | store e =>
    have hreplay : ∀ r, e ≠ .startReplay k.queueId k.consumerGroupId r := by
      rintro r rfl
      exact hdom ⟨rfl, rfl⟩
    refine ⟨hsound, ?_, fun n t ht hold hphase => ?_, fun n t ht hold hof hrandom => ?_⟩
    · refine (h.rewound.mono hopen).step hs h.sound.log hreplay (fun i hi hi' => ?_)
        fun c => h.spares_written hok
      exact absurd hi (not_lt.mpr hi'.2.1)
    · rw [Watch.old_of_step ht] at hold
      rcases random_step ht hphase with before | hrandom
      · exact h.random n t before hold hphase
      · exact hrandom
    · rw [Watch.old_of_step ht] at hold
      have hne : e ≠ .restart := by
        rintro rfl
        cases ht
      have hthread := h.threads_step hdom ht hold hof hrandom
      refine (hthread.carry fun c hkept => ?_).mono hopen
      exact hkept.step hs h.sound.log hne fun i => h.rewound.not_of_erases

/-- **A `Get` leaves its loop behind something that has still to be returned.** -/
lemma Watch.Inv.proceeds (h : v.Inv cfg k) (e : Event) : Proceeds cfg k v e := by
  cases e with
  | choose batch => trivial
  | store e =>
    cases e with
    | get n timeUp =>
      intro t t' ht ht' hold hof hrandom hphase hout hatime hlimit hleft
      obtain ⟨i, hi, hopen⟩ := hleft
      have hs := h.sound.store
      have hthread := h.threads n t ht hold hof hrandom
      have hcases : GetStep cfg v.world.log v.world.store n t
          (v.world.store.getStep cfg v.world.log n timeUp) := getStep_cases ht timeUp
      have ht' : (v.world.store.getStep cfg v.world.log n timeUp).gets n = some t' := ht'
      generalize v.world.store.getStep cfg v.world.log n timeUp = s' at hcases ht'
      cases hcases with
      | reads u reads =>
        rw [gets_setGet_self] at ht'
        cases ht'
        cases reads with
        | loop phase timeUp =>
          exact hthread.loop_proceeds hs (Watch.Open.wanted_ne v) (Watch.Open.itemsOf_ne v) phase
            hlimit hi hopen hout
        | items cur phase items hitems => exact hthread.take_proceeds phase hatime hout
        | notChosen cur phase now =>
          obtain ⟨_, _, hgap⟩ := hthread.cursor cur phase
          apply hthread.moved_of_passed (Watch.Open.wanted_ne v) hopen
          by_contra hge
          exact hgap i (not_lt.mp hge) (hi.trans_le now) hopen
        | minInstance phase =>
          unfold enterLoop at hout
          split at hout <;> cases hout
        | random phase | noPrev phase => exact absurd phase hphase
        | svrPrev phase | checkPoint phase | noNext phase => cases hout
      | prev phase => exact absurd phase hphase
      | next phase next sync update =>
        rw [gets_setGet_self] at ht'
        cases ht'
        cases hout
      | fails phase range =>
        rw [gets_setGet_self] at ht'
        cases ht'
      | done phase =>
        rw [ht] at ht'
        cases ht'
        exact absurd hout hphase
    | execute | startGet _ _ | endGet _ | startRound | startSync | startReplay _ _ _ | keepSync
    | clear _ _ | truncate _ | restart => trivial

/-! ## A settled store -/

lemma Rewind.Harmless.mono {details : List SyncDetail} (h : k.Harmless P details)
    (hP : ∀ i, P' i → P i) : k.Harmless P' details :=
  fun d hd hq hg => (h d hd hq hg).mono hP

lemma Rewind.Harmless.sublist {details details' : List SyncDetail} (h : k.Harmless P details)
    (hsub : details' ⊆ details) : k.Harmless P details' :=
  fun d hd => h d (hsub hd)

/-- The execution goes on with its messages, or comes to those of the next value. -/
lemma harmless_executeStep (h : k.Harmless P s.applying.details)
    (hlog : ∀ args ∈ valuesOf log s.now, k.Harmless P args.syncCtrlInfo) :
    k.Harmless P (s.executeStep cfg log).applying.details := by
  have hcases : ExecuteStep cfg log s (s.executeStep cfg log) := executeStep_cases
  generalize s.executeStep cfg log = s' at hcases ⊢
  cases hcases with
  | idle => exact h
  | advance _ _ | skip _ | fails _ _ _ _ => exact fun _ hd => nomatch hd
  | noAdd args at_ _ _ => exact hlog args (List.mem_of_getElem? at_)
  | add args at_ _ _ _ _ _ => exact hlog args (List.mem_of_getElem? at_)
  | known d ds applying _ _ _ | next d ds applying _ _ =>
    rw [applying] at h
    exact h.sublist (List.subset_cons_self d ds)
  | behind d ds applying | prev d ds applying _ _ =>
    rw [applying] at h
    exact h

lemma applying_step {e : StoreEvent} (he : e ≠ .execute) (hr : e ≠ .restart) :
    (s.step cfg log e).applying = s.applying := by
  by_cases hk : e = .keepSync
  · subst hk
    show (s.keepSyncStep cfg).applying = s.applying
    unfold Replica.keepSyncStep
    split
    · rfl
    · exact (frame_roundStep s _).applying
    · rfl
    · split <;> rfl
    · rfl
  · obtain ⟨sync, minChosen, gets, keepSync, heq, -⟩ := @step_outside cfg log s e he hk hr
    rw [heq]

lemma executes_step (e : StoreEvent) :
    min s.now (level s.checkPoint) ≤
      min (s.step cfg log e).now (level (s.step cfg log e).checkPoint) := by
  have hcp := @level_checkPoint_step cfg log s e
  by_cases hr : e = .restart
  · subst hr
    exact (min_le_right _ _).trans (le_min le_rfl hcp)
  refine min_le_min ?_ hcp
  by_cases he : e = .execute
  · subst he
    exact advances_executeStep.now_le
  by_cases hk : e = .keepSync
  · subst hk
    exact advances_keepSyncStep.now_le
  · obtain ⟨sync, minChosen, gets, keepSync, heq, -⟩ := @step_outside cfg log s e he hk hr
    rw [heq]

/-- The Gets from before the replay are at no other request. -/
lemma Settled.gets_step (h : Settled cfg k v) {e : Event} {n : ℕ}
    (hold : (v.step cfg k e).old n = true) :
    ∃ t, (v.step cfg k e).world.store.gets n = some t ∧ ¬ k.IsOf t.req := by
  obtain ⟨hold, hsome⟩ : v.old n = true ∧ ((v.world.step cfg e).store.gets n).isSome = true :=
    Bool.and_eq_true_iff.mp hold
  obtain ⟨t, ht, hno⟩ := h.gets n hold
  obtain ⟨t', ht'⟩ := Option.isSome_iff_exists.mp hsome
  refine ⟨t', ht', ?_⟩
  cases e with
  | choose batch =>
    rw [store_choose, ht] at ht'
    cases ht'
    exact hno
  | store e =>
    cases Store.threads_step ht' with
    | same _ before =>
      rw [ht] at before
      cases before
      exact hno
    | starts req valid start =>
      -- thread `n` is busy
      change (v.world.store.startGetStep cfg n req).gets n = some t' at ht'
      unfold Replica.startGetStep at ht'
      rw [ht] at ht'
      dsimp only at ht'
      rw [ht] at ht'
      cases ht'
      exact hno
    | reads timeUp u before reads =>
      rw [ht] at before
      cases before
      rw [reads.req_eq]
      exact hno
    | publishes timeUp u before phase order after =>
      rw [ht] at before
      cases before
      rw [after]
      exact hno

lemma Settled.step (h : Settled cfg k v) {e : Event} (he : ChoosesHarmless cfg k v e) :
    Settled cfg k (v.step cfg k e) := by
  have hopen : ∀ i, (v.step cfg k e).Open cfg k i → v.Open cfg k i := fun _ hi => hi.of_step
  refine ⟨fun n hold => h.gets_step hold, Rewind.Harmless.mono ?_ hopen,
    fun i hi args hargs => Rewind.Harmless.mono ?_ hopen⟩
  · cases e with
    | choose batch =>
      have hsame : (v.step cfg k (.choose batch)).world.store = v.world.store := store_choose _ _
      rw [hsame]
      exact h.applying
    | store e =>
      by_cases hx : e = .execute
      · subst hx
        exact harmless_executeStep h.applying (h.log _ (min_le_left _ _))
      by_cases hr : e = .restart
      · subst hr
        exact fun _ hd => nomatch hd
      · have hsame : (v.step cfg k (.store e)).world.store.applying = v.world.store.applying :=
          applying_step hx hr
        rw [hsame]
        exact h.applying
  · cases e with
    | choose batch =>
      have hsame : (v.step cfg k (.choose batch)).world.store = v.world.store := store_choose _ _
      rw [hsame] at hi
      have hargs : args ∈ valuesOf (v.world.step cfg (.choose batch)).log i := hargs
      rcases @log_choose cfg v.world batch with heq | heq
      · rw [heq] at hargs
        exact h.log i hi args hargs
      · rw [heq] at hargs
        rcases mem_valuesOf_append hargs with hin | hin
        · exact h.log i hi args hin
        · exact he args hin
    | store e => exact h.log i ((executes_step e).trans hi) args hargs

lemma Settled.undisturbed (h : Settled cfg k v) (e : Event) : Undisturbed cfg k v e := by
  cases e with
  | choose batch => trivial
  | store e =>
    cases e with
    | execute =>
      rintro ⟨q, g, c⟩ hw ⟨hq, hg⟩
      have happlying := h.applying
      dsimp only [cursorWritten] at hw
      split at hw
      · rename_i d ds hd
        cases hw
        rw [hd] at happlying
        exact happlying d List.mem_cons_self hq hg
      · rename_i d ds hd
        cases hw
        rw [hd] at happlying
        exact happlying d List.mem_cons_self hq hg
      · cases hw
    | get n timeUp =>
      rintro hold ⟨q, g, c⟩ hw hof
      obtain ⟨t, ht, hno⟩ := h.gets n hold
      dsimp only [cursorWritten] at hw
      rw [ht] at hw
      dsimp only at hw
      split at hw
      · split at hw
        · cases hw
        · cases hw
          exact absurd hof hno
      · split at hw
        · cases hw
        · cases hw
          exact absurd hof hno
      · cases hw
    | startGet _ _ | endGet _ | startRound | startSync | startReplay _ _ _ | keepSync | clear _ _
    | truncate _ | restart => trivial

/-! ## Runs -/

variable {w : World}

lemma step_secondWrite (hs : w.Sound cfg)
    (hreplay : w.store.keepSync = .replay k.queueId k.consumerGroupId k.cursorId false) :
    w.store.step cfg w.log .keepSync = { w.store with
      sync := w.store.sync.set k.queueId k.consumerGroupId
        { w.store.sync k.queueId k.consumerGroupId with next := some k.cursorId }
      keepSync := .idle } := by
  have htask := hs.store.keepSync
  rw [hreplay] at htask
  exact keepSync_replay htask.1 hreplay

lemma Watch.Inv.init (hs : w.Sound cfg)
    (hreplay : w.store.keepSync = .replay k.queueId k.consumerGroupId k.cursorId false)
    (hok : RewindOk cfg k w) : ((redelivery cfg k w).init).Inv cfg k := by
  have htask := hs.store.keepSync
  rw [hreplay] at htask
  obtain ⟨hin, _, hconsumer, _⟩ := htask
  have hsame : (redelivery cfg k w).init.world.Sound cfg := hs.step (.store .keepSync)
  have hstore := step_secondWrite hs hreplay
  have hworld : (redelivery cfg k w).init.world =
      { w with store := w.store.step cfg w.log .keepSync } := rfl
  have hold : ∀ n t, (redelivery cfg k w).init.world.store.gets n = some t →
      (redelivery cfg k w).init.old n = true := by
    intro n t ht
    rw [hworld, hstore] at ht
    have ht : w.store.gets n = some t := ht
    show (w.store.gets n).isSome = true
    rw [ht]
    rfl
  -- what is open lies above the replay, and both cursors do not
  have hspares : ∀ c ≤ k.cursorId, Spares ((redelivery cfg k w).init.Open cfg k) c := by
    intro c hc i hi hopen
    exact absurd hopen.1 (not_lt.mpr ((le_of_lt_level hi).trans hc))
  refine ⟨hsame, ⟨hin, hconsumer, ?_, ?_, ?_, ?_, ?_, ?_⟩, fun n t ht hno => ?_,
    fun n t ht hno => ?_⟩
  · rw [hworld, hstore]
    exact fun _ _ hk => (nomatch hk)
  · obtain ⟨p, hp, hle⟩ := hok.prev
    refine ⟨p, ?_, hspares p hle⟩
    rw [hworld, hstore]
    dsimp only
    rw [SyncCtrl.set_self]
    exact hp
  · intro n hn
    rw [hworld, hstore] at hn
    dsimp only at hn
    rw [SyncCtrl.set_self] at hn
    cases hn
    exact hspares _ le_rfl
  · exact fun i hi hopen => absurd hi (not_lt.mpr hopen.2.1)
  · have hkept := hok.kept
    intro i hopen hexec
    have hopen : k.Open cfg w.log (w.store.step cfg w.log .keepSync).minChosen [] i := hopen
    rw [hworld] at hexec ⊢
    rw [hstore] at hopen hexec ⊢
    exact hkept i hopen hexec
  · intro r hr
    rw [hworld, hstore] at hr
    cases hr
  · rw [hold n t ht] at hno
    cases hno
  · rw [hold n t ht] at hno
    cases hno

end

/-- The cursors that are left lie behind the replay, and so behind all that has to be returned. -/
lemma Quiet.settled (h : Quiet k w) (hs : w.Sound cfg)
    (hreplay : w.store.keepSync = .replay k.queueId k.consumerGroupId k.cursorId false) :
    Settled cfg k (redelivery cfg k w).init := by
  have hstore := step_secondWrite hs hreplay
  have hworld : (redelivery cfg k w).init.world =
      { w with store := w.store.step cfg w.log .keepSync } := rfl
  have hharmless : ∀ details, k.Behind details →
      k.Harmless ((redelivery cfg k w).init.Open cfg k) details := by
    intro details hbehind d hd hq hg i hi hopen
    exact absurd hopen.1 (not_lt.mpr ((le_of_lt_level hi).trans (hbehind d hd hq hg)))
  refine ⟨fun n hold => ?_, hharmless _ ?_, fun i hi args hargs => hharmless _ ?_⟩
  · obtain ⟨t, ht⟩ := Option.isSome_iff_exists.mp hold
    refine ⟨t, ?_, h.gets n t ht⟩
    rw [hworld, hstore]
    exact ht
  · rw [hworld, hstore]
    exact h.applying
  · rw [hworld, hstore] at hi
    exact h.log i hi args hargs

/-- **What a quiet store has left disturbs no replay**, unless a message that is chosen later does. -/
theorem Quiet.along_undisturbed {es₀ es : List Event}
    (h : Quiet k ((store cfg).exec (store cfg).init es₀))
    (hreplay : ((store cfg).exec (store cfg).init es₀).store.keepSync =
      .replay k.queueId k.consumerGroupId k.cursorId false)
    (hchooses : (redelivery cfg k ((store cfg).exec (store cfg).init es₀)).Along (ChoosesHarmless cfg k)
      (redelivery cfg k ((store cfg).exec (store cfg).init es₀)).init es) :
    (redelivery cfg k ((store cfg).exec (store cfg).init es₀)).Along (Undisturbed cfg k)
      (redelivery cfg k ((store cfg).exec (store cfg).init es₀)).init es := by
  have hsound : ((store cfg).exec (store cfg).init es₀).Sound cfg := World.Sound.init.exec es₀
  generalize (store cfg).exec (store cfg).init es₀ = w at *
  have hstep (v : Watch) (e : Event) (hv : Settled cfg k v) (he : ChoosesHarmless cfg k v e) :
      Settled cfg k ((redelivery cfg k w).step v e) := hv.step he
  exact (Machine.Always.of_inv hstep (h.settled hsound hreplay) hchooses).along
    fun v e hv => hv.undisturbed e

/-- **A replay redelivers**, in a run from any replay at which what lies above is in the metas or
below the checkpoint, and in which no older `Get` and no message writes a cursor that passes what has
still to be returned: whatever the cursors of the group have passed has been returned, and they move
on while something is left. -/
theorem redelivered_run (cfg : StoreConfig) (k : Rewind) {es₀ es : List Event}
    (hreplay : ((store cfg).exec (store cfg).init es₀).store.keepSync =
      .replay k.queueId k.consumerGroupId k.cursorId false)
    (hok : RewindOk cfg k ((store cfg).exec (store cfg).init es₀))
    (hdom : ∀ e ∈ es, ReplayEvent cfg k e)
    (hund : (redelivery cfg k ((store cfg).exec (store cfg).init es₀)).Along (Undisturbed cfg k)
      (redelivery cfg k ((store cfg).exec (store cfg).init es₀)).init es) :
    (redelivery cfg k ((store cfg).exec (store cfg).init es₀)).Always (Redelivered cfg k)
        (redelivery cfg k ((store cfg).exec (store cfg).init es₀)).init es ∧
      (redelivery cfg k ((store cfg).exec (store cfg).init es₀)).Along (Proceeds cfg k)
        (redelivery cfg k ((store cfg).exec (store cfg).init es₀)).init es := by
  have hsound : ((store cfg).exec (store cfg).init es₀).Sound cfg := World.Sound.init.exec es₀
  generalize (store cfg).exec (store cfg).init es₀ = w at *
  have hstep : ∀ (v : Watch) e, v.Inv cfg k → ReplayEvent cfg k e ∧ Undisturbed cfg k v e →
      ((redelivery cfg k w).step v e).Inv cfg k := fun v e h he => h.step he.1 he.2
  have hinv := Machine.Always.of_inv hstep (Watch.Inv.init hsound hreplay hok)
    (hund.and_labels hdom)
  exact ⟨hinv.mono fun v h => h.redelivered, hinv.along fun v e h => h.proceeds e⟩

/-! ## A meta that is gone -/

/-- Group 1 is set back on queue 0, up to the second write. -/
def replayTo (r : ℕ) : List Event := [.store (.startReplay 0 1 r), .store .keepSync]

lemma Kept.of_idle {log : Log} {s : Replica} {P : ℕ → Prop} {q c : ℕ} (hdone : s.donePos = 0)
    (h : ∀ i < s.now, P i → i ∈ s.metas q ∨ i < c) : Kept log s P q c := by
  intro i hp hexec
  rcases hexec with ⟨hi, _⟩ | ⟨_, j, _, _, hj, _⟩
  · exact h i hi hp
  · have hj : j < s.donePos := hj
    rw [hdone] at hj
    exact absurd hj (Nat.not_lt_zero j)

/-- Both items are acknowledged, and replayed from the first one on. -/
def replayTwo : List Event := getTwo ++ readOne 2 1 1 ++ publish 2 ++ replayTo 0

lemma quiet_replayTwo : Quiet ⟨0, 1, 0⟩ ((store twoQueues).exec (store twoQueues).init replayTwo) where
  gets n t ht := by
    have hnone : ∀ n < 3, ((store twoQueues).exec (store twoQueues).init replayTwo).store.gets n = none := by
      decide
    rcases Nat.lt_or_ge n 3 with hlt | hge
    · rw [hnone n hlt] at ht
      cases ht
    · have hlast := (@always_none_of_below twoQueues 3 replayTwo (by decide)).last n hge
      rw [hlast] at ht
      cases ht
  applying := fun _ hd => nomatch hd
  log i _ args hargs := by
    have hempty : ∀ batch ∈ ((store twoQueues).exec (store twoQueues).init replayTwo).log,
        ∀ args ∈ batch, args.syncCtrlInfo = [] := by decide
    unfold valuesOf at hargs
    cases hi : ((store twoQueues).exec (store twoQueues).init replayTwo).log[i]? with
    | none =>
      rw [hi] at hargs
      cases hargs
    | some batch =>
      rw [hi] at hargs
      rw [hempty batch (List.mem_of_getElem? hi) args hargs]
      exact fun _ hd => nomatch hd

/-- The second one is returned again. -/
theorem replayTwo_redelivered :
    (redelivery twoQueues ⟨0, 1, 0⟩ ((store twoQueues).exec (store twoQueues).init replayTwo)).Always
        (Redelivered twoQueues ⟨0, 1, 0⟩) (redelivery twoQueues ⟨0, 1, 0⟩
          ((store twoQueues).exec (store twoQueues).init replayTwo)).init
        (readOne 3 uint64Max uint64Max ++ publish 3) ∧
      (redelivery twoQueues ⟨0, 1, 0⟩ ((store twoQueues).exec (store twoQueues).init
        replayTwo)).Along (Proceeds twoQueues ⟨0, 1, 0⟩) (redelivery twoQueues ⟨0, 1, 0⟩
          ((store twoQueues).exec (store twoQueues).init replayTwo)).init
        (readOne 3 uint64Max uint64Max ++ publish 3) :=
  redelivered_run twoQueues ⟨0, 1, 0⟩ (by decide)
    ⟨⟨0, by decide, le_rfl⟩, Kept.of_idle (by decide) (by decide)⟩ (by decide)
    (quiet_replayTwo.along_undisturbed (by decide) ⟨trivial, trivial, trivial, trivial, trivial, trivial,
      trivial, trivial, trivial, trivial, trivial⟩)

/-- Instance 0 adds to queue 1, where nobody gets it, and instance 1 to queue 0, where its item is
acknowledged.  A round erases the meta of instance 1 and dumps no checkpoint, for queue 1.  Instance
2 adds to queue 0, and group 1 is set back to instance 0. -/
def erasedMeta : List Event :=
  addOne 1 ++ addOne 0 ++ readOne 0 uint64Max uint64Max ++ publish 0 ++ readOne 1 1 1 ++ publish 1 ++
    [.store .startRound] ++ examine ++ examine ++ [.store .keepSync] ++ addOne 0 ++ replayTo 0

/-- **Counterexample.**  The `Get` that follows returns the item of instance 2 and moves past both:
the one of instance 1 is neither in the metas nor below a checkpoint. -/
theorem erasedMeta_not_redelivered :
    ((store twoQueues).exec (store twoQueues).init erasedMeta).store.keepSync =
        .replay 0 1 0 false ∧
      (∀ e ∈ readOne 2 uint64Max uint64Max ++ publish 2, ReplayEvent twoQueues ⟨0, 1, 0⟩ e) ∧
      ¬ ((redelivery twoQueues ⟨0, 1, 0⟩ ((store twoQueues).exec (store twoQueues).init
            erasedMeta)).Always (Redelivered twoQueues ⟨0, 1, 0⟩) (redelivery twoQueues ⟨0, 1, 0⟩
              ((store twoQueues).exec (store twoQueues).init erasedMeta)).init
            (readOne 2 uint64Max uint64Max ++ publish 2) ∧
        (redelivery twoQueues ⟨0, 1, 0⟩ ((store twoQueues).exec (store twoQueues).init
            erasedMeta)).Along (Proceeds twoQueues ⟨0, 1, 0⟩) (redelivery twoQueues ⟨0, 1, 0⟩
              ((store twoQueues).exec (store twoQueues).init erasedMeta)).init
            (readOne 2 uint64Max uint64Max ++ publish 2)) := by
  refine ⟨by decide, by decide, fun h => ?_⟩
  have hlast := h.1.last 2 (.inr (by decide)) 1 (by decide) (by decide) (by decide)
  exact absurd hlast (by decide)

end PhxQueue.Store
