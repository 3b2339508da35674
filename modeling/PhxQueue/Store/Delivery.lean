import PhxQueue.Store.Overlap

/-!
# What a Get returns

* `Delivered`          a completed `Get` has all items between its cursors;
* `MovesOn`            it leaves its loop behind an item, if there is one;
* `SingleGets`         the runs: no replay, no clearing, one `Get` of a group and queue at a time;
* `NotAhead`           no round is overtaken, and no cursor is written ahead of a running `Get`;
* `Serving`, `Serves`  the invariant of a running `Get`, and of a store;
* `delivered_run`      **in these runs, under this condition, no item is skipped**;
* `missedItem_not_delivered`   an item that is.
-/

set_option linter.unusedSectionVars false

namespace PhxQueue.Store
open Comm Lib Config

/-! ## What a Get should return -/

/-- The instances a `Get` has to look at are those from here on: above both adjusted cursors. -/
def GetThread.start (t : GetThread) : ℕ := max (level t.cliNext) (level t.cliPrev)

section
variable (cfg : StoreConfig)

/-- The items of the instances from `a` to below `b` that are for the group, in their order. -/
def expected (log : Log) (t : GetThread) (a b : ℕ) : List QItem :=
  (List.range' a (b - a)).flatMap fun i => (itemsOf log t.req.queueId i).filter fun x =>
    !skips cfg t.req.topicId t.req.consumerGroupId t.queueInfoId x

/-- A `Get` that succeeds returns exactly the items between its cursors. -/
def Delivered (w : World) : Prop :=
  ∀ n t, w.store.gets n = some t → t.phase = .done →
    t.items = expected cfg w.log t t.start (level t.next)

/-- The instances that a `Get` has to look at and that have been executed hold an item. -/
def Waiting (w : World) (t : GetThread) : Prop :=
  ∃ i, t.start ≤ i ∧ i < w.store.now ∧ itemsOf w.log t.req.queueId i ≠ []

/-- When a `Get` without a time and with a positive limit leaves its loop, its cursor has moved, or
nothing is waiting for it. -/
def MovesOn (w : World) : Event → Prop
  | .store (.get n timeUp) => ∀ t t', w.store.gets n = some t →
      (w.step cfg (.store (.get n timeUp))).store.gets n = some t' →
      t.phase ≠ .updatePrev → t'.phase = .updatePrev →
      t.req.atime = 0 → 1 ≤ t.req.limit → Waiting w t → level t.cliNext < level t'.next
  | _ => True

/-- The cursors of a running `Get` have not been published. -/
def GetThread.Reading (t : GetThread) : Prop := t.phase ≠ .updateNext ∧ t.phase ≠ .done

/-- Gets of the consumer groups of a queue that are not random, one of a group and queue at a time;
no replay and no clearing. -/
def SingleGets (w : World) : Event → Prop
  | .store (.startGet _ req) => req.random = false ∧
      cfg.isConsumer req.queueId req.consumerGroupId ∧ ∀ m t, w.store.gets m = some t →
        ¬ (t.req.queueId = req.queueId ∧ t.req.consumerGroupId = req.consumerGroupId)
  | .store (.startReplay _ _ _) | .store (.clear _ _) => False
  | _ => True

end

/-- A prev cursor that `SyncCursorID` writes is not behind the stored one, which a `Get` may have
published since the comparison, and not ahead of a running `Get` of the group. -/
def WritesInOrder (s : Replica) : StoreEvent → Prop
  | .execute => ∀ d ds, s.applying = .writePrev d ds →
      levelOf (s.sync d.queueId d.consumerGroupId).prev ≤ level d.prevCursorId ∧
      ∀ n t, s.gets n = some t → t.req.queueId = d.queueId →
        t.req.consumerGroupId = d.consumerGroupId → t.Reading →
        level d.prevCursorId ≤ level t.prev
  | _ => True

/-- No round is overtaken, and `SyncCursorID` writes in order. -/
def NotAhead (w : World) : Event → Prop
  | .choose _ => True
  | .store e => NotOvertaken w.store e ∧ WritesInOrder w.store e

/-! ## The items between two cursors -/

section
variable {cfg : StoreConfig} {log : Log} {t : GetThread} {a b c : ℕ}

lemma expected_of_le (h : b ≤ a) : expected cfg log t a b = [] := by
  unfold expected
  rw [Nat.sub_eq_zero_of_le h, List.range'_zero, List.flatMap_nil]

lemma expected_append (hab : a ≤ b) (hbc : b ≤ c) :
    expected cfg log t a c = expected cfg log t a b ++ expected cfg log t b c := by
  unfold expected
  rw [← List.flatMap_append]
  have hlen : c - a = (b - a) + (c - b) := by omega
  have hstart : a + 1 * (b - a) = b := by omega
  rw [hlen, ← List.range'_append, hstart]

lemma expected_eq_nil (h : ∀ i, a ≤ i → i < b → itemsOf log t.req.queueId i = []) :
    expected cfg log t a b = [] := by
  unfold expected
  rw [List.flatMap_eq_nil_iff]
  intro i hi
  obtain ⟨hle, hlt⟩ := List.mem_range'_1.mp hi
  rw [h i hle (by omega), List.filter_nil]

lemma expected_self (cur : ℕ) : expected cfg log t cur (cur + 1) =
    (itemsOf log t.req.queueId cur).filter fun x =>
      !skips cfg t.req.topicId t.req.consumerGroupId t.queueInfoId x := by
  unfold expected
  rw [Nat.add_sub_cancel_left, List.range'_one, List.flatMap_singleton]

lemma expected_extend {cur : ℕ} (ha : a ≤ cur) (hb : b ≤ cur)
    (hgap : ∀ i, a ≤ i → b ≤ i → i < cur → itemsOf log t.req.queueId i = []) :
    expected cfg log t a (cur + 1) = expected cfg log t a b ++
      (itemsOf log t.req.queueId cur).filter fun x =>
        !skips cfg t.req.topicId t.req.consumerGroupId t.queueInfoId x := by
  rw [expected_append ha (Nat.le_succ cur), expected_self]
  rcases Nat.le_total a b with hab | hab
  · rw [expected_append hab hb, expected_eq_nil fun i hi => hgap i (hab.trans hi) hi,
      List.append_nil]
  · rw [expected_of_le hab, expected_eq_nil fun i hi => hgap i hi (hab.trans hi)]

lemma expected_log_append (hb : b ≤ a ∨ b ≤ log.length) (batch : List StorePaxosArgs) :
    expected cfg (log ++ [batch]) t a b = expected cfg log t a b := by
  rcases hb with hb | hb
  · rw [expected_of_le hb, expected_of_le hb]
  · unfold expected
    refine List.flatMap_congr fun i hi => ?_
    obtain ⟨_, hlt⟩ := List.mem_range'_1.mp hi
    rw [itemsOf_append (by omega)]

end

/-! ## The invariant -/

section
variable (cfg : StoreConfig)

/-- A running `Get`: it has the items up to its cursor, and what it is to return is not
acknowledged. -/
structure Serving (log : Log) (s : Replica) (t : GetThread) : Prop where
  random : t.req.random = false
  group : t.req.consumerGroupId ∈ cfg.consumerGroups
  consumer : cfg.isConsumer t.req.queueId t.req.consumerGroupId
  prev : t.prev = t.cliPrev
  acked : t.Reading → (s.sync t.req.queueId t.req.consumerGroupId).acked ≤ level t.prev
  next_ge : level t.cliNext ≤ level t.next
  moved : t.i ≠ 0 → level t.cliNext < level t.next
  next_le : level t.next ≤ max t.start s.now
  items : t.items = expected cfg log t t.start (level t.next)
  minInstance : t.minInstance = uint64Max ∨ t.minInstance ≤ s.minChosen
  cp : t.cp = uint64Max ∨ t.cp < s.now
  cursor : ∀ cur, t.phase = .items cur → level t.next ≤ cur ∧ t.start ≤ cur ∧ cur ≤ s.now ∧
    ∀ i, t.start ≤ i → level t.next ≤ i → i < cur → itemsOf log t.req.queueId i = []

structure Serves (log : Log) (s : Replica) : Prop where
  inv : s.Inv cfg log
  acked : ∀ q g, (s.sync q g).acked = levelOf (s.sync q g).prev
  serving : ∀ n t, s.gets n = some t → Serving cfg log s t
  apart : ∀ n m t t', s.gets n = some t → s.gets m = some t' →
    t.req.queueId = t'.req.queueId → t.req.consumerGroupId = t'.req.consumerGroupId → n = m
  keepSync : ∀ q g r isPrev, s.keepSync ≠ .replay q g r isPrev

variable {cfg} {log : Log} {s : Replica} {t : GetThread}

lemma GetThread.reading_of_phase (t : GetThread) {phase : GetPhase} (h : t.phase = phase)
    (hnext : phase ≠ .updateNext) (hdone : phase ≠ .done) : t.Reading := by
  rw [← h] at hnext hdone
  exact ⟨hnext, hdone⟩

lemma GetThread.prev_le_start (t : GetThread) : level t.cliPrev ≤ t.start := le_max_right _ _

/-- What happens elsewhere does not disturb a `Get`. -/
lemma Serving.mono (h : Serving cfg log s t) {s' : Replica} (hnow : s.now ≤ s'.now)
    (hmin : s.minChosen ≤ s'.minChosen)
    (hacked : t.Reading →
      (s'.sync t.req.queueId t.req.consumerGroupId).acked ≤ level t.prev) :
    Serving cfg log s' t where
  random := h.random
  group := h.group
  consumer := h.consumer
  prev := h.prev
  acked := hacked
  next_ge := h.next_ge
  moved := h.moved
  next_le := h.next_le.trans (max_le_max le_rfl hnow)
  items := h.items
  minInstance := h.minInstance.imp id fun hle => hle.trans hmin
  cp := h.cp.imp id fun hlt => hlt.trans_le hnow
  cursor := by
    intro cur hcur
    obtain ⟨h1, h2, h3, h4⟩ := h.cursor cur hcur
    exact ⟨h1, h2, h3.trans hnow, h4⟩

lemma Serving.append (h : Serving cfg log s t) (hnow : s.now ≤ log.length)
    (batch : List StorePaxosArgs) : Serving cfg (log ++ [batch]) s t where
  random := h.random
  group := h.group
  consumer := h.consumer
  prev := h.prev
  acked := h.acked
  next_ge := h.next_ge
  moved := h.moved
  next_le := h.next_le
  items := by
    have hle := h.next_le
    rw [expected_log_append (by omega), h.items]
  minInstance := h.minInstance
  cp := h.cp
  cursor := by
    intro cur hcur
    obtain ⟨h1, h2, h3, h4⟩ := h.cursor cur hcur
    refine ⟨h1, h2, h3, fun i hi hi' hlt => ?_⟩
    rw [itemsOf_append (by omega)]
    exact h4 i hi hi' hlt

/-- A change of phase, out of the loop or before it. -/
lemma Serving.withPhase (h : Serving cfg log s t) {phase : GetPhase}
    (hitems : ∀ cur, phase ≠ .items cur) (hphase : phase ≠ .updateNext → phase ≠ .done → t.Reading) :
    Serving cfg log s { t with phase := phase } :=
  ⟨h.random, h.group, h.consumer, h.prev, fun hr => h.acked (hphase hr.1 hr.2), h.next_ge, h.moved,
    h.next_le, h.items, h.minInstance, h.cp, fun cur hcur => absurd hcur (hitems cur)⟩

/-! ## A step of a Get -/

/-- An instance the loop passes holds nothing for the `Get`. -/
lemma Serving.gap (h : Serving cfg log s t) (hr : t.Reading) {cur : ℕ}
    (hp : Passes log s t.req.queueId t.req.consumerGroupId (level t.next) cur) :
    ∀ i, t.start ≤ i → level t.next ≤ i → i < cur → itemsOf log t.req.queueId i = [] := by
  intro i hstart hi hlt
  by_contra hne
  have hack := hp i hi hlt hne
  have hle := h.acked hr
  have hprev := t.prev_le_start
  rw [← h.prev] at hprev
  omega

lemma Serving.loop (h : Serving cfg log s t) (hinv : s.Inv cfg log) (hlog : LogOk cfg log)
    (hphase : t.phase = .loop) (timeUp : Bool) :
    Serving cfg log s (loopStep t (s.metas t.req.queueId) timeUp) := by
  have hr : t.Reading := t.reading_of_phase hphase (fun hp => (nomatch hp)) fun hp => (nomatch hp)
  have hstop : Serving cfg log s { t with phase := .updatePrev } :=
    h.withPhase (fun _ hp => (nomatch hp)) fun _ _ => hr
  unfold loopStep
  split
  · exact hstop
  split
  · exact hstop
  split
  · exact hstop
  rename_i cur hcur
  obtain ⟨hle, hnow, hpass⟩ :=
    nextCursor_passes hinv hlog h.group h.consumer h.minInstance h.cp hcur
  have hnowLe := hinv.now_le
  have hlen := hlog.length_lt
  have hlevel : level cur = cur + 1 := level_of_lt (by omega)
  have hge := h.next_ge
  have hprev := t.prev_le_start
  split
  · rename_i hskip
    -- the cursor is not above the prev one, so there is nothing to return yet
    have hstart : cur + 1 ≤ t.start := by
      rw [← h.prev, level_of_ne hskip.1] at hprev
      omega
    refine ⟨h.random, h.group, h.consumer, h.prev, fun _ => h.acked hr, ?_, ?_, ?_, ?_,
      h.minInstance, h.cp, ?_⟩
    · show level t.cliNext ≤ level cur
      omega
    · intro _
      show level t.cliNext < level cur
      omega
    · show level cur ≤ max t.start s.now
      omega
    · show t.items = expected cfg log t t.start (level cur)
      rw [h.items, expected_of_le (by omega), expected_of_le (by omega)]
    · intro c hc
      have hc : t.phase = .items c := hc
      rw [hphase] at hc
      cases hc
  · rename_i hskip
    have hstart : t.start ≤ cur := by
      have hprevCur : level t.cliPrev ≤ cur := by
        rw [← h.prev]
        by_cases hmax : t.prev = uint64Max
        · rw [hmax, level_uint64Max]
          exact Nat.zero_le _
        · have hlt : t.prev < cur := by
            by_contra hn
            exact hskip ⟨hmax, by omega⟩
          rw [level_of_ne hmax]
          omega
      exact max_le (by omega) hprevCur
    refine ⟨h.random, h.group, h.consumer, h.prev, fun _ => h.acked hr, hge, h.moved, h.next_le,
      h.items, h.minInstance, h.cp, ?_⟩
    intro c hc
    cases hc
    exact ⟨hle, hstart, hnow, h.gap hr hpass⟩

lemma Serving.take (h : Serving cfg log s t) (hinv : s.Inv cfg log) (hlog : LogOk cfg log)
    {cur : ℕ} (hphase : t.phase = .items cur) {items : List QItem}
    (hitems : getItemsByCursorID log s.now s.minChosen t.req.queueId cur = .ok items) :
    Serving cfg log s (takeItems cfg t cur items) := by
  have hr : t.Reading := t.reading_of_phase hphase (fun hp => (nomatch hp)) fun hp => (nomatch hp)
  have hstop : Serving cfg log s { t with phase := .updatePrev } :=
    h.withPhase (fun _ hp => (nomatch hp)) fun _ _ => hr
  obtain ⟨hle, hstart, hcurNow, hgap⟩ := h.cursor cur hphase
  obtain ⟨hlt, hcases⟩ := getItems_cases hinv hlog h.group h.consumer hitems
  have hnowLe := hinv.now_le
  have hlen := hlog.length_lt
  have hlevel : level cur = cur + 1 := level_of_lt (by omega)
  have hge := h.next_ge
  -- what is read is what the instance holds
  have hread : items = itemsOf log t.req.queueId cur := by
    rcases hcases with heq | ⟨_, hack⟩
    · exact heq
    · have hacked := h.acked hr
      have hprev := t.prev_le_start
      rw [← h.prev] at hprev
      omega
  have hextend := @expected_extend cfg log t _ _ cur hstart hle hgap
  have hmove : ∀ t' : GetThread, t'.req = t.req → t'.queueInfoId = t.queueInfoId →
      t'.prev = t.prev → t'.cliPrev = t.cliPrev → t'.cliNext = t.cliNext → t'.next = cur →
      t'.minInstance = t.minInstance → t'.cp = t.cp → (∀ c, t'.phase ≠ .items c) →
      t'.items = t.items ++ items.filter (fun x =>
        !skips cfg t.req.topicId t.req.consumerGroupId t.queueInfoId x) →
      Serving cfg log s t' := by
    intro t' hreq hinfo hprev hcliPrev hcliNext hnext hmin hcp hph hit
    have hstart' : t'.start = t.start := by
      unfold GetThread.start
      rw [hcliPrev, hcliNext]
    have hexp : ∀ a b, expected cfg log t' a b = expected cfg log t a b := by
      intro a b
      unfold expected
      rw [hreq, hinfo]
    refine ⟨hreq ▸ h.random, hreq ▸ h.group, hreq ▸ h.consumer, ?_, fun _ => ?_, ?_, fun _ => ?_,
      ?_, ?_, hmin ▸ h.minInstance, hcp ▸ h.cp, fun c hc => absurd hc (hph c)⟩
    · rw [hprev, hcliPrev, h.prev]
    · rw [hreq, hprev]
      exact h.acked hr
    · rw [hcliNext, hnext]
      omega
    · rw [hcliNext, hnext]
      omega
    · rw [hnext, hstart']
      omega
    · rw [hit, hexp, hstart', hnext, hlevel, hextend, ← h.items, hread]
  unfold takeItems
  split
  · refine hmove _ rfl rfl rfl rfl rfl rfl rfl rfl (fun _ hp => (nomatch hp)) ?_
    rw [List.filter_nil, List.append_nil]
  · rename_i item rest
    split
    · exact hstop
    split
    · exact hstop
    refine hmove _ rfl rfl rfl rfl rfl rfl rfl rfl (fun c hp => ?_) rfl
    dsimp only at hp
    split at hp <;> cases hp

/-- Reading keeps a `Get` in order. -/
lemma Serving.reads (h : Serving cfg log s t) (hinv : s.Inv cfg log) (hlog : LogOk cfg log)
    {t' : GetThread} (hr : GetReads cfg log s t t') : Serving cfg log s t' := by
  cases hr with
  | svrPrev phase =>
    have hreading : t.Reading :=
      t.reading_of_phase phase (fun hp => (nomatch hp)) fun hp => (nomatch hp)
    exact ⟨h.random, h.group, h.consumer, h.prev, fun _ => h.acked hreading, h.next_ge, h.moved,
      h.next_le, h.items, h.minInstance, h.cp, fun _ hp => (nomatch hp)⟩
  | checkPoint phase =>
    have hreading : t.Reading :=
      t.reading_of_phase phase (fun hp => (nomatch hp)) fun hp => (nomatch hp)
    refine ⟨h.random, h.group, h.consumer, h.prev, fun _ => h.acked hreading, h.next_ge, h.moved,
      h.next_le, h.items, h.minInstance, ?_, fun _ hp => (nomatch hp)⟩
    have hcp := hinv.cp_le_now
    by_cases hmax : s.checkPoint = uint64Max
    · exact .inl hmax
    · rw [level_of_ne hmax] at hcp
      exact .inr hcp
  | minInstance phase =>
    have hreading : t.Reading :=
      t.reading_of_phase phase (fun hp => (nomatch hp)) fun hp => (nomatch hp)
    unfold enterLoop
    dsimp only
    rw [if_neg (by rw [h.random]; exact Bool.false_ne_true)]
    exact ⟨h.random, h.group, h.consumer, h.prev, fun _ => h.acked hreading, h.next_ge, h.moved,
      h.next_le, h.items, .inr le_rfl, h.cp, fun _ hp => (nomatch hp)⟩
  | loop phase timeUp => exact h.loop hinv hlog phase timeUp
  | items cur phase items hitems => exact h.take hinv hlog phase hitems
  | notChosen cur phase now =>
    refine h.withPhase (fun _ hp => (nomatch hp)) fun _ _ => ?_
    exact t.reading_of_phase phase (fun hp => (nomatch hp)) fun hp => (nomatch hp)
  | random phase random =>
    rw [h.random] at random
    cases random
  | noPrev phase random prev =>
    exact h.withPhase (fun _ hp => (nomatch hp)) fun hn => absurd rfl hn
  | noNext phase next =>
    exact h.withPhase (fun _ hp => (nomatch hp)) fun _ hn => absurd rfl hn

/-! ## The steps -/

lemma acked_updateCursorID {sync sync' : SyncCtrl} {g q c : ℕ} {isPrev : Bool}
    (hu : sync.updateCursorID cfg.opt g q c isPrev = .ok sync')
    (hacked : ∀ q g, (sync q g).acked = levelOf (sync q g).prev)
    (hc : isPrev = true → levelOf (sync q g).prev ≤ level c) :
    (∀ q g, (sync' q g).acked = levelOf (sync' q g).prev) ∧
      (∀ q' g', ¬ (q' = q ∧ g' = g) → (sync' q' g').acked = (sync q' g').acked) ∧
      (sync' q g).acked = if isPrev then level c else (sync q g).acked := by
  obtain ⟨_, rfl⟩ := SyncCtrl.updateCursorID_ok hu
  have hself : (sync.set q g (if isPrev then
      { sync q g with prev := some c, acked := max (sync q g).acked (level c) }
      else { sync q g with next := some c }) q g).acked =
      if isPrev then level c else (sync q g).acked := by
    rw [SyncCtrl.set_self]
    cases isPrev with
    | true =>
      show max (sync q g).acked (level c) = level c
      rw [hacked]
      exact max_eq_right (hc rfl)
    | false => rfl
  refine ⟨fun q' g' => ?_, fun q' g' hne => ?_, hself⟩
  · by_cases hs : q' = q ∧ g' = g
    · obtain ⟨rfl, rfl⟩ := hs
      rw [hself, SyncCtrl.set_self]
      cases isPrev with
      | true => rfl
      | false => exact hacked q' g'
    · rw [SyncCtrl.set_of_ne hs]
      exact hacked q' g'
  · rw [SyncCtrl.set_of_ne hne]

lemma Serves.keep (h : Serves cfg log s) {s' : Replica} (hinv : s'.Inv cfg log)
    (hgets : s'.gets = s.gets) (hnow : s.now ≤ s'.now) (hmin : s.minChosen ≤ s'.minChosen)
    (hacked : ∀ q g, (s'.sync q g).acked = levelOf (s'.sync q g).prev)
    (hkeep : ∀ q g r isPrev, s'.keepSync ≠ .replay q g r isPrev)
    (hreading : ∀ n t, s.gets n = some t → t.Reading →
      (s'.sync t.req.queueId t.req.consumerGroupId).acked ≤ level t.prev) :
    Serves cfg log s' where
  inv := hinv
  acked := hacked
  serving := by
    intro n t ht
    rw [hgets] at ht
    exact (h.serving n t ht).mono hnow hmin (hreading n t ht)
  apart := by
    rw [hgets]
    exact h.apart
  keepSync := hkeep

lemma Serves.setGet (h : Serves cfg log s) {n : ℕ} {t' : Option GetThread}
    (hinv : (s.setGet n t').Inv cfg log) (hserving : ∀ t ∈ t', Serving cfg log s t)
    (hsame : ∀ t ∈ t', ∀ m u, s.gets m = some u → u.req.queueId = t.req.queueId →
      u.req.consumerGroupId = t.req.consumerGroupId → m = n) :
    Serves cfg log (s.setGet n t') where
  inv := hinv
  acked := h.acked
  serving := by
    intro m u hu
    have hs : Serving cfg log s u := by
      by_cases hm : m = n
      · subst hm
        rw [gets_setGet_self] at hu
        exact hserving u hu
      · rw [gets_setGet_of_ne hm] at hu
        exact h.serving m u hu
    exact hs.mono le_rfl le_rfl hs.acked
  apart := by
    intro m k u v hu hv hq hg
    by_cases hm : m = n
    · subst hm
      by_cases hk : k = m
      · exact hk.symm
      · rw [gets_setGet_self] at hu
        rw [gets_setGet_of_ne hk] at hv
        exact (hsame u hu k v hv hq.symm hg.symm).symm
    · rw [gets_setGet_of_ne hm] at hu
      by_cases hk : k = n
      · subst hk
        rw [gets_setGet_self] at hv
        exact hsame v hv m u hu hq hg
      · rw [gets_setGet_of_ne hk] at hv
        exact h.apart m k u v hu hv hq hg
  keepSync := h.keepSync

lemma Serves.execute (h : Serves cfg log s) (hlog : LogOk cfg log)
    (hok : ∀ d ds, s.applying = .writePrev d ds →
      levelOf (s.sync d.queueId d.consumerGroupId).prev ≤ level d.prevCursorId ∧
      ∀ n t, s.gets n = some t → t.req.queueId = d.queueId →
        t.req.consumerGroupId = d.consumerGroupId → t.Reading →
        level d.prevCursorId ≤ level t.prev) :
    Serves cfg log (s.executeStep cfg log) := by
  have hinv := h.inv.executeStep hlog
  have hcases : ExecuteStep cfg log s (s.executeStep cfg log) := executeStep_cases
  generalize s.executeStep cfg log = s' at hcases hinv ⊢
  have hsame : ∀ n t, s.gets n = some t → t.Reading →
      (s.sync t.req.queueId t.req.consumerGroupId).acked ≤ level t.prev :=
    fun n t ht => (h.serving n t ht).acked
  cases hcases with
  | idle => exact h
  | advance now pos =>
    exact h.keep hinv rfl (Nat.le_succ _) le_rfl h.acked h.keepSync hsame
  | noAdd args at_ applying none => exact h.keep hinv rfl le_rfl le_rfl h.acked h.keepSync hsame
  | add args at_ applying req some metas ok =>
    exact h.keep hinv rfl le_rfl le_rfl h.acked h.keepSync hsame
  | skip applying => exact h.keep hinv rfl le_rfl le_rfl h.acked h.keepSync hsame
  | known d ds applying cur stored ge =>
    exact h.keep hinv rfl le_rfl le_rfl h.acked h.keepSync hsame
  | behind d ds applying => exact h.keep hinv rfl le_rfl le_rfl h.acked h.keepSync hsame
  | prev d ds applying sync update =>
    obtain ⟨hle, hahead⟩ := hok d ds applying
    obtain ⟨hacked, hother, hself⟩ := acked_updateCursorID update h.acked fun _ => hle
    refine h.keep hinv rfl le_rfl le_rfl hacked h.keepSync fun n t ht hr => ?_
    by_cases hs : t.req.queueId = d.queueId ∧ t.req.consumerGroupId = d.consumerGroupId
    · show (sync _ _).acked ≤ _
      rw [hs.1, hs.2, hself]
      exact hahead n t ht hs.1 hs.2 hr
    · show (sync _ _).acked ≤ _
      rw [hother _ _ hs]
      exact hsame n t ht hr
  | next d ds applying sync update =>
    obtain ⟨hacked, hother, hself⟩ :=
      acked_updateCursorID update h.acked fun hf => absurd hf Bool.false_ne_true
    refine h.keep hinv rfl le_rfl le_rfl hacked h.keepSync fun n t ht hr => ?_
    by_cases hs : t.req.queueId = d.queueId ∧ t.req.consumerGroupId = d.consumerGroupId
    · show (sync _ _).acked ≤ _
      rw [hs.1, hs.2, hself, if_neg Bool.false_ne_true, ← hs.1, ← hs.2]
      exact hsame n t ht hr
    · show (sync _ _).acked ≤ _
      rw [hother _ _ hs]
      exact hsame n t ht hr
  | fails d ds applying range => exact h.keep hinv rfl le_rfl le_rfl h.acked h.keepSync hsame

lemma Serves.get (h : Serves cfg log s) (hlog : LogOk cfg log) (n : ℕ) (timeUp : Bool) :
    Serves cfg log (s.getStep cfg log n timeUp) := by
  cases ht : s.gets n with
  | none =>
    have hstep : s.getStep cfg log n timeUp = s := by
      unfold Replica.getStep
      rw [ht]
    rw [hstep]
    exact h
  | some t =>
    have hinv := h.inv.getStep n timeUp
    have hcases := @getStep_cases cfg log s n t ht timeUp
    have hserving := h.serving n t ht
    have hsame : ∀ m u, s.gets m = some u → u.req.queueId = t.req.queueId →
        u.req.consumerGroupId = t.req.consumerGroupId → m = n :=
      fun m u hu hq hg => h.apart m n u t hu ht hq hg
    generalize s.getStep cfg log n timeUp = s' at hcases hinv ⊢
    cases hcases with
    | reads t' reads =>
      refine h.setGet hinv (fun u hu => ?_) fun u hu m v hv hq hg => ?_
      · cases hu
        exact hserving.reads h.inv hlog reads
      · cases hu
        rw [reads.req_eq] at hq hg
        exact hsame m v hv hq hg
    | prev phase random prev sync update =>
      have hr : t.Reading :=
        t.reading_of_phase phase (fun hp => (nomatch hp)) fun hp => (nomatch hp)
      have hle : levelOf (s.sync t.req.queueId t.req.consumerGroupId).prev ≤ level t.prev := by
        rw [← h.acked]
        exact hserving.acked hr
      obtain ⟨hacked, hother, hself⟩ := acked_updateCursorID update h.acked fun _ => hle
      have hsync := h.inv.setSync (updateCursorID_grows update)
        (h.inv.sync.updateCursorID (fun _ => prev) update)
      have hs := h.keep hsync rfl le_rfl le_rfl hacked h.keepSync fun m u hu hru => by
        show (sync _ _).acked ≤ _
        by_cases hqg : u.req.queueId = t.req.queueId ∧ u.req.consumerGroupId = t.req.consumerGroupId
        · have hm := hsame m u hu hqg.1 hqg.2
          subst hm
          rw [ht] at hu
          cases hu
          rw [hself, if_pos rfl]
        · rw [hother _ _ hqg]
          exact (h.serving m u hu).acked hru
      refine hs.setGet hinv (fun u hu => ?_) fun u hu m v hv hq hg => ?_
      · cases hu
        exact (hs.serving n t ht).withPhase (fun _ hp => (nomatch hp)) fun hn => absurd rfl hn
      · cases hu
        exact hsame m v hv hq hg
    | next phase next sync update =>
      obtain ⟨hacked, hother, hself⟩ :=
        acked_updateCursorID update h.acked fun hf => absurd hf Bool.false_ne_true
      have hsync := h.inv.setSync (updateCursorID_grows update)
        (h.inv.sync.updateCursorID (fun hf => absurd hf Bool.false_ne_true) update)
      have hs := h.keep hsync rfl le_rfl le_rfl hacked h.keepSync fun m u hu hru => by
        show (sync _ _).acked ≤ _
        have hle := (h.serving m u hu).acked hru
        by_cases hqg : u.req.queueId = t.req.queueId ∧ u.req.consumerGroupId = t.req.consumerGroupId
        · rw [hqg.1, hqg.2] at hle ⊢
          rw [hself, if_neg Bool.false_ne_true]
          exact hle
        · rw [hother _ _ hqg]
          exact hle
      refine hs.setGet hinv (fun u hu => ?_) fun u hu m v hv hq hg => ?_
      · cases hu
        exact (hs.serving n t ht).withPhase (fun _ hp => (nomatch hp)) fun _ hn => absurd rfl hn
      · cases hu
        exact hsame m v hv hq hg
    | fails phase range => exact h.setGet hinv (fun u hu => (nomatch hu)) fun u hu => (nomatch hu)
    | done phase => exact h

/-- What a `Get` of a group that consumes the queue starts from. -/
lemma Serves.start (h : Serves cfg log s) {req : GetRequest} (hrandom : req.random = false)
    (hc : cfg.isConsumer req.queueId req.consumerGroupId) (hstart : startGet cfg s.sync req = .ok t) :
    Serving cfg log s t ∧ t.req = req := by
  unfold startGet at hstart
  split at hstart
  · cases hstart
  rename_i queueInfo hinfo
  split at hstart
  · cases hstart
  rename_i hrange
  dsimp only at hstart
  rw [if_neg (by rw [hrandom]; exact Bool.false_ne_true)] at hstart
  have hserving : ∀ p n : ℕ, req.consumerGroupId ∈ cfg.consumerGroups →
      (s.sync req.queueId req.consumerGroupId).acked ≤ level p →
      Serving cfg log s { req := req, queueInfoId := queueInfo.queueInfoId, cliPrev := p
                          cliNext := n, prev := p, next := n } := by
    intro p n hg hle
    refine ⟨hrandom, hg, hc, rfl, fun _ => hle, le_rfl, fun hi => absurd rfl hi, ?_, ?_,
      .inl rfl, .inl rfl, fun _ hp => (nomatch hp)⟩
    · exact (le_max_left _ _).trans (le_max_left _ _)
    · rw [expected_of_le]
      exact le_max_left _ _
  have hgroup : SyncCtrl.inTable cfg.opt req.consumerGroupId req.queueId →
      req.consumerGroupId ∈ cfg.consumerGroups :=
    fun hin => StoreConfig.mem_consumerGroups.mpr ⟨hin.1, hin.2.1⟩
  split at hstart
  · rename_i p n hadj
    cases hstart
    have hstored : (s.sync req.queueId req.consumerGroupId).prev ≠ some uint64Max :=
      fun hp => (h.inv.sync _ _ _ hp).1 rfl
    obtain ⟨hin, hcases⟩ := SyncCtrl.adjustNextCursorID_cases hstored hadj
    refine ⟨hserving p n (hgroup hin) ?_, rfl⟩
    rw [h.acked]
    rcases hcases with ⟨_, _, _, hp⟩ | ⟨hp, rfl⟩
    · rw [hp]
      exact le_max_right _ _
    · rw [hp]
      exact le_rfl
  · rename_i ret hadj
    rcases adjustNextCursorID_error hadj with rfl | ⟨rfl, hin, hp⟩
    · rw [if_pos (by decide)] at hstart
      cases hstart
    · -- the only error that is let through: the group has no cursor yet
      rw [if_neg (by decide)] at hstart
      cases hstart
      refine ⟨hserving _ _ (hgroup hin) ?_, rfl⟩
      rw [h.acked, hp]
      exact Nat.zero_le _

/-- **Every step under the condition keeps the Gets in order.** -/
theorem Serves.step (h : Serves cfg log s) (hlog : LogOk cfg log) {e : StoreEvent}
    (hdom : SingleGets cfg ⟨log, s⟩ (.store e)) (hok : NotAhead ⟨log, s⟩ (.store e)) :
    Serves cfg log (s.step cfg log e) := by
  obtain ⟨hround, hok⟩ := hok
  have hinv := h.inv.step hlog hround
  -- a step of the keep-sync thread
  have hframe : ∀ {s' : Replica}, s'.Inv cfg log → Frame s s' →
      (∀ q g r isPrev, s'.keepSync ≠ .replay q g r isPrev) → Serves cfg log s' := by
    intro s' hinv' hf hk
    refine h.keep hinv' hf.gets hf.now.ge hf.minChosen.ge ?_ hk ?_
    · rw [hf.sync]
      exact h.acked
    · rw [hf.sync]
      exact fun n t ht => (h.serving n t ht).acked
  cases e with
  | execute => exact h.execute hlog hok
  | startGet n req =>
    obtain ⟨hrandom, hc, hfree⟩ := hdom
    dsimp only [Replica.step, Replica.startGetStep] at hinv ⊢
    split at hinv
    · exact h
    split at hinv
    · rename_i hqueue
      rw [if_pos hqueue]
      split at hinv
      · exact h
      · rename_i t hstart
        obtain ⟨hserving, hreq⟩ := h.start hrandom hc hstart
        refine h.setGet hinv (fun u hu => ?_) fun u hu m v hv hq hg => ?_
        · cases hu
          exact hserving
        · cases hu
          rw [hreq] at hq hg
          exact absurd ⟨hq, hg⟩ (hfree m v hv)
    · rename_i hqueue
      rw [if_neg hqueue]
      exact h
  | get n timeUp => exact h.get hlog n timeUp
  | endGet n =>
    have hend : Serves cfg log (s.setGet n none) :=
      h.setGet (h.inv.setGets _) (fun u hu => (nomatch hu)) fun u hu => (nomatch hu)
    dsimp only [Replica.step, Replica.endGet]
    split
    · exact h
    split
    · exact hend
    · exact hend
    · exact h
  | startRound =>
    refine hframe hinv (frame_step (.inl rfl) h.keepSync) ?_
    dsimp only [Replica.step]
    split
    · exact fun _ _ _ _ hk => (nomatch hk)
    · exact h.keepSync
  | startSync =>
    refine hframe hinv (frame_step (.inr (.inl rfl)) h.keepSync) ?_
    dsimp only [Replica.step]
    split
    · exact fun _ _ _ _ hk => (nomatch hk)
    · exact h.keepSync
  | keepSync =>
    refine hframe hinv (frame_step (.inr (.inr rfl)) h.keepSync) ?_
    have hkeep := h.keepSync
    dsimp only [Replica.step, Replica.keepSyncStep, Replica.roundStep]
    split
    · exact hkeep
    · repeat' split
      all_goals exact fun _ _ _ _ hk => (nomatch hk)
    · exact fun _ _ _ _ hk => (nomatch hk)
    · split <;> exact fun _ _ _ _ hk => (nomatch hk)
    · rename_i q g r isPrev hk
      exact absurd hk (hkeep q g r isPrev)
  | truncate m =>
    dsimp only [Replica.step] at hinv ⊢
    split at hinv
    · rename_i hm
      rw [if_pos hm]
      exact h.keep hinv rfl le_rfl hm.1 h.acked h.keepSync fun n t ht => (h.serving n t ht).acked
    · rename_i hm
      rw [if_neg hm]
      exact h
  | startReplay q g r => exact absurd hdom not_false
  | clear q g => exact absurd hdom not_false
  | restart =>
    exact ⟨hinv, h.acked, fun n t ht => (nomatch ht), fun n m t t' ht => (nomatch ht),
      fun q g r isPrev hk => (nomatch hk)⟩

/-! ## Leaving the loop -/

/-- What is waiting lies below what a `Get` that has not moved goes on to. -/
lemma moved_of_waiting {upper : ℕ} (hupper : s.now ≤ upper)
    (hgap : ∀ i, t.start ≤ i → level t.next ≤ i → i < upper → itemsOf log t.req.queueId i = [])
    (hwait : Waiting ⟨log, s⟩ t) : level t.cliNext < level t.next := by
  obtain ⟨i, hi, hlt, hne⟩ := hwait
  by_contra hn
  have hle : level t.next ≤ t.start := (not_lt.mp hn).trans (le_max_left _ _)
  exact hne (hgap i hi (hle.trans hi) (hlt.trans_le hupper))

/-- What a `Get` has read lies behind its cursor. -/
lemma Serving.moved_of_items (h : Serving cfg log s t) (hne : t.items ≠ []) :
    level t.cliNext < level t.next := by
  by_contra hn
  refine hne ?_
  rw [h.items]
  exact expected_of_le ((not_lt.mp hn).trans (le_max_left _ _))

lemma Serving.loop_movesOn (h : Serving cfg log s t) (hinv : s.Inv cfg log)
    (hphase : t.phase = .loop) {timeUp : Bool} (hlimit : 1 ≤ t.req.limit)
    (hwait : Waiting ⟨log, s⟩ t)
    (hout : (loopStep t (s.metas t.req.queueId) timeUp).phase = .updatePrev) :
    level t.cliNext < level (loopStep t (s.metas t.req.queueId) timeUp).next := by
  have hr : t.Reading := t.reading_of_phase hphase (fun hp => (nomatch hp)) fun hp => (nomatch hp)
  unfold loopStep at hout ⊢
  split
  · -- 512 rounds, or the limit of items
    rename_i hend
    show level t.cliNext < level t.next
    by_cases hi : t.i = 0
    · refine h.moved_of_items fun hnil => hend ⟨by omega, ?_⟩
      rw [hnil, List.length_nil]
      exact hlimit
    · exact h.moved hi
  rename_i hgo
  rw [if_neg hgo] at hout
  split
  · rename_i htime
    exact h.moved htime.2
  rename_i htime
  rw [if_neg htime] at hout
  split
  · -- no meta is left
    rename_i hcur
    exact moved_of_waiting le_rfl (h.gap hr (nextCursor_none hinv h.group h.consumer hcur)) hwait
  · rename_i cur hcur
    rw [hcur] at hout
    dsimp only at hout
    split at hout
    · have hout : t.phase = .updatePrev := hout
      rw [hphase] at hout
      cases hout
    · cases hout

lemma Serving.take_movesOn (h : Serving cfg log s t) (hinv : s.Inv cfg log) (hlog : LogOk cfg log)
    {cur : ℕ} (hphase : t.phase = .items cur) (hcurNow : cur < s.now) (hatime : t.req.atime = 0)
    {items : List QItem} (hout : (takeItems cfg t cur items).phase = .updatePrev) :
    level t.cliNext < level (takeItems cfg t cur items).next := by
  obtain ⟨hle, _, _, _⟩ := h.cursor cur hphase
  have hnowLe := hinv.now_le
  have hlen := hlog.length_lt
  have hlevel : level cur = cur + 1 := level_of_lt (by omega)
  have hge := h.next_ge
  have hmove : level t.cliNext < level cur := by omega
  unfold takeItems at hout ⊢
  split
  · exact hmove
  split
  · rename_i hfull
    exact h.moved_of_items hfull.1
  split
  · rename_i hafter
    exact absurd hatime hafter.1
  · exact hmove

/-- **A `Get` leaves its loop behind what is waiting.** -/
lemma Serves.movesOn (h : Serves cfg log s) (hlog : LogOk cfg log) (n : ℕ) (timeUp : Bool) :
    MovesOn cfg ⟨log, s⟩ (.store (.get n timeUp)) := by
  intro t t' ht ht' hphase hout hatime hlimit hwait
  have hcases : GetStep cfg log s n t (s.getStep cfg log n timeUp) := getStep_cases ht timeUp
  have ht' : (s.getStep cfg log n timeUp).gets n = some t' := ht'
  have hserving := h.serving n t ht
  generalize s.getStep cfg log n timeUp = s' at hcases ht'
  cases hcases with
  | reads u reads =>
    rw [gets_setGet_self] at ht'
    cases ht'
    cases reads with
    | loop phase timeUp => exact hserving.loop_movesOn h.inv phase hlimit hwait hout
    | items cur phase items hitems =>
      have hlt := (getItems_cases h.inv hlog hserving.group hserving.consumer hitems).1
      exact hserving.take_movesOn h.inv hlog phase hlt hatime hout
    | notChosen cur phase now =>
      obtain ⟨_, _, _, hgap⟩ := hserving.cursor cur phase
      exact moved_of_waiting now hgap hwait
    | minInstance phase =>
      unfold enterLoop at hout
      split at hout <;> cases hout
    | random phase | noPrev phase => exact absurd phase hphase
    | svrPrev phase | checkPoint phase | noNext phase => cases hout
  | prev phase => exact absurd phase hphase
  | next phase next sync update =>
    rw [gets_setGet_self] at ht'
    cases ht'
    cases hout
  | fails phase range =>
    rw [gets_setGet_self] at ht'
    cases ht'
  | done phase =>
    rw [ht] at ht'
    cases ht'
    exact absurd hout hphase

/-! ## Runs -/

variable (cfg) in
structure World.Serves (w : World) : Prop where
  log : LogOk cfg w.log
  store : Store.Serves cfg w.log w.store

variable {w : World}

lemma World.serves_init : (Store.store cfg).init.Serves cfg :=
  ⟨World.Inv.init.log, World.Inv.init.store, fun _ _ => rfl, fun _ _ ht => (nomatch ht),
    fun _ _ _ _ ht => (nomatch ht), fun _ _ _ _ hk => (nomatch hk)⟩

lemma World.Serves.step (h : w.Serves cfg) {e : Event} (hdom : SingleGets cfg w e)
    (hok : NotAhead w e) : (w.step cfg e).Serves cfg := by
  cases e with
  | choose batch =>
    dsimp only [World.step]
    split
    · rename_i hb
      have hnow := h.store.inv.now_le
      exact ⟨h.log.append hb.1 hb.2, h.store.inv.append batch, h.store.acked,
        fun n t ht => (h.store.serving n t ht).append hnow batch, h.store.apart, h.store.keepSync⟩
    · exact h
  | store e => exact ⟨h.log, h.store.step h.log hdom hok⟩

lemma World.Serves.delivered (h : w.Serves cfg) : Delivered cfg w :=
  fun n t ht _ => (h.store.serving n t ht).items

lemma World.Serves.movesOn (h : w.Serves cfg) (e : Event) : MovesOn cfg w e := by
  cases e with
  | choose batch => trivial
  | store e =>
    cases e with
    | get n timeUp => exact h.store.movesOn h.log n timeUp
    | execute | startGet _ _ | endGet _ | startRound | startSync | startReplay _ _ _ | keepSync
    | clear _ _ | truncate _ | restart => trivial

/-- Everything but the start of a `Get`, a replay, or clearing. -/
def Event.Quiet : Event → Bool
  | .store (.startGet _ _) | .store (.startReplay _ _ _) | .store (.clear _ _) => false
  | _ => true

lemma singleGets_of_quiet {es : List Event} (h : ∀ e ∈ es, e.Quiet) (w : World) :
    (Store.store cfg).Along (SingleGets cfg) w es := by
  have hlabels := (@Machine.along_of_forall _ _ (Store.store cfg) (fun _ _ => True)
    (fun _ _ => trivial) w es).and_labels h
  refine hlabels.mono fun w e he => ?_
  rcases e with batch | e
  · trivial
  · cases e with
    | startGet _ _ | startReplay _ _ _ | clear _ _ => exact absurd he.1 Bool.false_ne_true
    | execute | get _ _ | endGet _ | startRound | startSync | keepSync | truncate _ | restart =>
      trivial

variable (cfg)

/-- **The store never skips an item.**  In a run with one `Get` of a group and queue at a time, in
which no round is overtaken and no cursor is written ahead of a running `Get`, every `Get` that
succeeds returns exactly the items between its cursors, and leaves behind what is waiting. -/
theorem delivered_run {es : List Event} (hdom : (store cfg).Along (SingleGets cfg) (store cfg).init es)
    (hok : (store cfg).Along NotAhead (store cfg).init es) :
    (store cfg).Always (Delivered cfg) (store cfg).init es ∧
      (store cfg).Along (MovesOn cfg) (store cfg).init es := by
  have hboth : (store cfg).Along (fun w e => SingleGets cfg w e ∧ NotAhead w e)
      (store cfg).init es := hdom.and hok
  have hstep : ∀ (w : World) e, w.Serves cfg → SingleGets cfg w e ∧ NotAhead w e →
      ((store cfg).step w e).Serves cfg := fun w e h he => h.step he.1 he.2
  have hinv := Machine.Always.of_inv hstep World.serves_init hboth
  exact ⟨hinv.mono fun w h => h.delivered, hinv.along fun w e h => h.movesOn e⟩

end

/-! ## An item that is skipped -/

/-- Thread `n` serves a `Get` of group 1 on queue 0 up to its response. -/
def serveOne (n prev next : ℕ) : List Event :=
  readOne n prev next ++ [.store (.get n false), .store (.get n false)]

/-- `SingleGets` and `NotAhead` on the threads below `k`. -/
def ServesBelow (k : ℕ) (cfg : StoreConfig) (w : World) : Event → Prop
  | .store (.startGet _ req) => req.random = false ∧
      cfg.isConsumer req.queueId req.consumerGroupId = true ∧ ∀ m < k, ∀ t ∈ w.store.gets m,
        ¬ (t.req.queueId = req.queueId ∧ t.req.consumerGroupId = req.consumerGroupId)
  | .store (.startReplay _ _ _) | .store (.clear _ _) => False
  | .store .keepSync => NotOvertaken w.store .keepSync
  | .store .execute => ∀ d ∈ w.store.applying.writing?,
      levelOf (w.store.sync d.queueId d.consumerGroupId).prev ≤ level d.prevCursorId ∧
      ∀ n < k, ∀ t ∈ w.store.gets n, t.req.queueId = d.queueId →
        t.req.consumerGroupId = d.consumerGroupId → t.phase = .updateNext ∨ t.phase = .done
  | _ => True

instance (k : ℕ) (cfg : StoreConfig) (w : World) : ∀ e, Decidable (ServesBelow k cfg w e)
  | .store (.startGet _ req) => inferInstanceAs (Decidable (req.random = false ∧
      cfg.isConsumer req.queueId req.consumerGroupId = true ∧ ∀ m < k, ∀ t ∈ w.store.gets m,
        ¬ (t.req.queueId = req.queueId ∧ t.req.consumerGroupId = req.consumerGroupId)))
  | .store .keepSync => inferInstanceAs (Decidable (NotOvertaken w.store .keepSync))
  | .store .execute => inferInstanceAs (Decidable (∀ d ∈ w.store.applying.writing?,
      levelOf (w.store.sync d.queueId d.consumerGroupId).prev ≤ level d.prevCursorId ∧
      ∀ n < k, ∀ t ∈ w.store.gets n, t.req.queueId = d.queueId →
        t.req.consumerGroupId = d.consumerGroupId → t.phase = .updateNext ∨ t.phase = .done))
  | .store (.startReplay _ _ _) | .store (.clear _ _) => inferInstanceAs (Decidable False)
  | .choose _ | .store (.get _ _) | .store (.endGet _) | .store .startRound | .store .startSync
  | .store (.truncate _) | .store .restart => inferInstanceAs (Decidable True)

lemma serves_of_below {k : ℕ} {cfg : StoreConfig} {w : World}
    (h : ∀ n, k ≤ n → w.store.gets n = none) {e : Event} (hok : ServesBelow k cfg w e) :
    SingleGets cfg w e ∧ NotAhead w e := by
  have hlt : ∀ {n t}, w.store.gets n = some t → n < k := by
    intro n t ht
    by_contra hge
    rw [h n (not_lt.mp hge)] at ht
    cases ht
  cases e with
  | choose batch => exact ⟨trivial, trivial⟩
  | store e =>
    cases e with
    | startGet n req =>
      obtain ⟨hrandom, hconsumer, hone⟩ := hok
      exact ⟨⟨hrandom, hconsumer, fun m t ht => hone m (hlt ht) t ht⟩, trivial, trivial⟩
    | execute =>
      refine ⟨trivial, trivial, fun d ds hwriting => ?_⟩
      obtain ⟨hle, hout⟩ := hok d (by rw [hwriting]; rfl)
      refine ⟨hle, fun n t ht hq hg hreading => ?_⟩
      exact absurd (hout n (hlt ht) t ht hq hg) (not_or.mpr hreading)
    | keepSync => exact ⟨trivial, hok, trivial⟩
    | startReplay _ _ _ | clear _ _ => exact absurd hok not_false
    | get _ _ | endGet _ | startRound | startSync | truncate _ | restart =>
      exact ⟨trivial, trivial, trivial⟩

/-- Two items are got one after the other: the first one is acknowledged by the replica that another
client asks, a round makes a checkpoint of it, and the store restarts before the second one is got. -/
def servedItems : List Event :=
  addOne 0 ++ readOne 0 uint64Max uint64Max ++ publish 0 ++ syncTo 0 ++ [.store .startRound] ++
    examine ++ examine ++ [.store .keepSync] ++ addOne 0 ++ [.store .restart] ++
    List.replicate 3 (.store .execute) ++ serveOne 1 0 0 ++
    List.replicate 2 (.store (.get 1 false))

theorem servedItems_delivered :
    (store twoQueues).Always (Delivered twoQueues) (store twoQueues).init servedItems ∧
    (store twoQueues).Along (MovesOn twoQueues) (store twoQueues).init servedItems := by
  have hbelow : ∀ e ∈ servedItems, e.Below 2 := by decide
  have hserves : (store twoQueues).Along (ServesBelow 2 twoQueues) (store twoQueues).init
      servedItems := by decide
  exact delivered_run twoQueues
    (along_of_below (fun _ _ h hok => (serves_of_below h hok).1) hbelow hserves)
    (along_of_below (fun _ _ h hok => (serves_of_below h hok).2) hbelow hserves)

example : (((store twoQueues).exec (store twoQueues).init servedItems).store.gets 1).map
    (fun t => (t.phase, t.items.length)) = some (.done, 1) := by decide

/-- After the overtaken round the store restarts above the item that the round has missed, and
another item is added to the queue. -/
def missedItem : List Event :=
  overtakenRound ++ [.store .restart] ++ List.replicate 3 (.store .execute) ++ addOne 0

/-- **Counterexample.**  The `Get` that follows returns the second item and moves past both. -/
theorem missedItem_not_delivered :
    (store twoQueues).Along (SingleGets twoQueues) (store twoQueues).init
      (missedItem ++ serveOne 0 uint64Max uint64Max) ∧
    ¬ ((store twoQueues).Always (Delivered twoQueues) (store twoQueues).init
        (missedItem ++ serveOne 0 uint64Max uint64Max) ∧
      (store twoQueues).Along (MovesOn twoQueues) (store twoQueues).init
        (missedItem ++ serveOne 0 uint64Max uint64Max)) := by
  constructor
  · rw [Machine.along_append]
    refine ⟨singleGets_of_quiet (by decide) _, ⟨rfl, by decide, fun _ _ ht => (nomatch ht)⟩, ?_⟩
    exact singleGets_of_quiet (by decide) _
  · intro h
    have hitems := h.1.last 0 _ rfl rfl
    exact absurd hitems (by decide)

end PhxQueue.Store
