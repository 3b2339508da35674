import PhxQueue.Store.Threads

/-!
# Delayed delivery

A `Get` with a time leaves what lies after it for later ones.  It asks only the first item of an
instance for its time, and then takes or leaves the instance as a whole.

* `NeverEarly`         nothing a `Get` has collected lies after its time;
* `NoneMissed`         between the cursors of the request and the one it returns, a `Get` of a group
                       that consumes the queue has every item the group has not acknowledged;
* `HeldBack`           an item after its time is passed by none of the cursors it returns;
* `AtimeFits`          where the first item of an instance is not after the time, none that is kept is;
* `neverEarly_iff`     nothing is early exactly when all instances that are taken fit;
* `LatestFirst`        of the items a chosen instance has for a queue, the first one is the latest;
* `Keeping`            what holds of a running `Get`, in any run;
* `delayed_run`        **where the latest item is first, no item is early, and none that is held back is
                       missed later**;
* `mixedInstance_not_delayed`   an instance with an early and a late item.
-/

set_option linter.unusedSectionVars false

namespace PhxQueue.Store
open Comm Lib Config

section
variable (cfg : StoreConfig)

/-- The `Get` does not skip the item. -/
def GetThread.Keeps (t : GetThread) (item : QItem) : Prop :=
  skips cfg t.req.topicId t.req.consumerGroupId t.queueInfoId item = false

instance (t : GetThread) : DecidablePred (t.Keeps cfg) := fun item =>
  inferInstanceAs (Decidable (skips cfg t.req.topicId t.req.consumerGroupId t.queueInfoId item = false))

def GetThread.Consumes (t : GetThread) : Prop :=
  t.req.consumerGroupId ∈ cfg.consumerGroups ∧ cfg.isConsumer t.req.queueId t.req.consumerGroupId

/-! ## What a Get returns -/

/-- **Nothing is early.** -/
def NeverEarly (w : World) : Prop :=
  ∀ n t, w.store.gets n = some t → ∀ x ∈ t.items, ¬ afterAtime t.req x

/-- The cursors of the request stand before instance `i`. -/
def GetRequest.Before (req : GetRequest) (i : ℕ) : Prop :=
  level req.nextCursorId ≤ i ∧ level req.prevCursorId ≤ i

/-- **Nothing is missed**: a `Get` that succeeds returns what it passes, or the group has
acknowledged it. -/
def NoneMissed (w : World) : Prop :=
  ∀ n t, w.store.gets n = some t → t.phase = .done → t.Consumes cfg →
    ∀ i, t.req.Before i → i < level t.next → ∀ x ∈ itemsOf w.log t.req.queueId i, t.Keeps cfg x →
      x ∈ t.items ∨ i < (w.store.sync t.req.queueId t.req.consumerGroupId).acked

/-- **What is after the time is not passed**: the cursors that are returned, and published, stay
before it, for a later `Get` to start from. -/
def HeldBack (w : World) : Prop :=
  ∀ n t, w.store.gets n = some t → t.phase = .done → t.Consumes cfg →
    ∀ i, t.req.Before i → ∀ x ∈ itemsOf w.log t.req.queueId i, t.Keeps cfg x →
      afterAtime t.req x → (level t.next ≤ i ∧ level t.prev ≤ i) ∨
        i < (w.store.sync t.req.queueId t.req.consumerGroupId).acked

/-- The items join what a `Get` has, within its limit, and the first one is not after its time. -/
def GetThread.Takes (t : GetThread) (items : List QItem) : Prop :=
  ¬ (t.items ≠ [] ∧ t.items.length + items.length > t.req.limit) ∧
    ∀ item ∈ items.head?, ¬ afterAtime t.req item

instance (t : GetThread) (items : List QItem) : Decidable (t.Takes items) :=
  inferInstanceAs (Decidable (¬ (_ ∧ _) ∧ ∀ item ∈ items.head?, _))

def GetPhase.cursor? : GetPhase → Option ℕ
  | .items cur => some cur
  | _ => none

/-- When a `Get` takes an instance, none of the items it keeps is after its time. -/
def AtimeFits (w : World) : Event → Prop
  | .store (.get n _) => ∀ t ∈ w.store.gets n, ∀ cur ∈ t.phase.cursor?,
      ∀ items ∈ (getItemsByCursorID w.log w.store.now w.store.minChosen t.req.queueId cur).toOption,
        t.Takes items → ∀ x ∈ items, t.Keeps cfg x → ¬ afterAtime t.req x
  | _ => True

instance (w : World) : ∀ e, Decidable (AtimeFits cfg w e)
  | .store (.get n _) => inferInstanceAs (Decidable (∀ t ∈ w.store.gets n, ∀ cur ∈ t.phase.cursor?,
      ∀ items ∈ (getItemsByCursorID w.log w.store.now w.store.minChosen t.req.queueId cur).toOption,
        t.Takes items → ∀ x ∈ items, t.Keeps cfg x → ¬ afterAtime t.req x))
  | .choose _ | .store .execute | .store (.startGet _ _) | .store (.endGet _) | .store .startRound
  | .store .startSync | .store (.startReplay _ _ _) | .store .keepSync | .store (.clear _ _)
  | .store (.truncate _) | .store .restart => inferInstanceAs (Decidable True)

end

/-! ## Rounds of the loop -/

section
variable {cfg : StoreConfig} {log : Log} {s : Replica} {t : GetThread}

/-- What a round does with the items of an instance. -/
inductive Taking (cfg : StoreConfig) (t : GetThread) (cur : ℕ) (items : List QItem) : GetThread → Prop
  | stops (ne : items ≠ []) (leaves : ¬ t.Takes items) :
      Taking cfg t cur items { t with phase := .updatePrev }
  | takes (takes : items = [] ∨ t.Takes items) (byteSize : ℕ) (phase : GetPhase)
      (order : phase = .loop ∨ phase = .updatePrev) :
      Taking cfg t cur items { t with
        next := cur
        items := t.items ++ items.filter fun x =>
          !skips cfg t.req.topicId t.req.consumerGroupId t.queueInfoId x
        byteSize := byteSize
        i := t.i + 1
        phase := phase }

lemma takeItems_cases (cur : ℕ) (items : List QItem) :
    Taking cfg t cur items (takeItems cfg t cur items) := by
  unfold takeItems
  cases items with
  | nil =>
    have htakes := @Taking.takes cfg t cur [] (.inl rfl) t.byteSize .loop (.inl rfl)
    rw [List.filter_nil, List.append_nil] at htakes
    exact htakes
  | cons item rest =>
    dsimp only
    split
    · rename_i hfull
      exact .stops (List.cons_ne_nil _ _) fun h => h.1 hfull
    rename_i hfull
    split
    · rename_i hafter
      exact .stops (List.cons_ne_nil _ _) fun h => h.2 item rfl hafter
    · rename_i hafter
      refine .takes (.inr ⟨hfull, fun x hx => ?_⟩) _ _ ?_
      · cases hx
        exact hafter
      · split
        · exact .inr rfl
        · exact .inl rfl

/-- What a round does up to the items. -/
inductive Looking (t : GetThread) (metas : StoreMetaQueue) : GetThread → Prop
  | stops : Looking t metas { t with phase := .updatePrev }
  | skips (cur : ℕ) (next : nextCursor t metas = some cur) (ne : t.prev ≠ uint64Max)
      (ge : t.prev ≥ cur) : Looking t metas { t with next := cur, i := t.i + 1 }
  | reads (cur : ℕ) (next : nextCursor t metas = some cur) (above : level t.prev ≤ cur) :
      Looking t metas { t with phase := .items cur }

lemma loopStep_cases (metas : StoreMetaQueue) (timeUp : Bool) :
    Looking t metas (loopStep t metas timeUp) := by
  unfold loopStep
  split
  · exact .stops
  split
  · exact .stops
  split
  · exact .stops
  rename_i cur hcur
  split
  · rename_i hskip
    exact .skips cur hcur hskip.1 hskip.2
  · rename_i hskip
    refine .reads cur hcur ?_
    by_cases hmax : t.prev = uint64Max
    · rw [hmax, level_uint64Max]
      exact Nat.zero_le _
    · have hlt : t.prev < cur := by
        by_contra hn
        exact hskip ⟨hmax, not_lt.mp hn⟩
      exact level_le_of_lt hlt

/-! ## Nothing is early -/

variable {w : World}

lemma keeps_iff {x : QItem} :
    (!skips cfg t.req.topicId t.req.consumerGroupId t.queueInfoId x) = true ↔ t.Keeps cfg x := by
  unfold GetThread.Keeps
  rw [Bool.not_eq_true']

lemma GetReads.items_or {u : GetThread} (h : GetReads cfg log s u t) :
    t.req = u.req ∧ (t.items = u.items ∨ ∃ cur items, u.phase = .items cur ∧
      getItemsByCursorID log s.now s.minChosen u.req.queueId cur = .ok items ∧
      (items = [] ∨ u.Takes items) ∧ t.items = u.items ++ items.filter fun x =>
        !skips cfg u.req.topicId u.req.consumerGroupId u.queueInfoId x) := by
  refine ⟨h.req_eq, ?_⟩
  cases h with
  | items cur phase items hitems =>
    have hcases := @takeItems_cases cfg u cur items
    generalize takeItems cfg u cur items = u' at hcases
    cases hcases with
    | stops ne leaves => exact .inl rfl
    | takes takes byteSize phase' order => exact .inr ⟨cur, items, phase, hitems, takes, rfl⟩
  | loop phase timeUp =>
    have hcases := @loopStep_cases u (s.metas u.req.queueId) timeUp
    generalize loopStep u (s.metas u.req.queueId) timeUp = u' at hcases
    cases hcases <;> exact .inl rfl
  | minInstance phase =>
    left
    unfold enterLoop
    split <;> rfl
  | svrPrev _ | checkPoint _ | notChosen _ _ _ | random _ _ | noPrev _ _ _ | noNext _ _ =>
    exact .inl rfl

/-- Where the instances that are taken fit, nothing early is collected. -/
lemma NeverEarly.step (h : NeverEarly w) {e : Event} (hok : AtimeFits cfg w e) :
    NeverEarly (w.step cfg e) := by
  cases e with
  | choose batch =>
    dsimp only [World.step]
    split
    · exact h
    · exact h
  | store e =>
    intro n t ht x hx
    cases threads_step ht with
    | same _ before => exact h n t before x hx
    | starts req valid start =>
      obtain ⟨queueInfoId, p, n', rfl⟩ := startGet_eq start
      cases hx
    | reads timeUp u before reads =>
      obtain ⟨hreq, heq | ⟨cur, items, phase, hitems, htakes, heq⟩⟩ := reads.items_or
      · rw [heq] at hx
        rw [hreq]
        exact h n u before x hx
      · rw [heq] at hx
        rw [hreq]
        rcases List.mem_append.mp hx with hx | hx
        · exact h n u before x hx
        · obtain ⟨hmem, hkeep⟩ := List.mem_filter.mp hx
          have hkeep : u.Keeps cfg x := keeps_iff.mp hkeep
          have htakes : u.Takes items := htakes.resolve_left (List.ne_nil_of_mem hmem)
          have hcur : cur ∈ u.phase.cursor? := by
            rw [phase]
            exact rfl
          have hread : items ∈ (getItemsByCursorID w.log w.store.now w.store.minChosen
              u.req.queueId cur).toOption := by
            rw [hitems]
            exact rfl
          exact hok u before cur hcur items hread htakes x hmem hkeep
    | publishes timeUp u before phase order after =>
      rw [after] at hx ⊢
      exact h n u before x hx

/-- Where one that is taken does not fit, an early item is. -/
lemma not_neverEarly_step {e : Event} (hno : ¬ AtimeFits cfg w e) :
    ¬ NeverEarly (w.step cfg e) := by
  intro h
  apply hno
  cases e with
  | choose batch => trivial
  | store e =>
    cases e with
    | get n timeUp =>
      intro t ht cur hcur items hread htakes x hx hkeep
      have hphase : t.phase = .items cur := by
        cases hp : t.phase with
        | items c =>
          rw [hp] at hcur
          cases hcur
          rfl
        | svrPrev | checkPoint | minInstance | loop | updatePrev | updateNext | done =>
          rw [hp] at hcur
          cases hcur
      cases hitems : getItemsByCursorID w.log w.store.now w.store.minChosen t.req.queueId cur with
      | error ret =>
        rw [hitems] at hread
        cases hread
      | ok items' =>
        rw [hitems] at hread
        cases hread
        have hstep : (w.step cfg (.store (.get n timeUp))).store.gets n =
            some (takeItems cfg t cur items) := by
          show (w.store.getStep cfg w.log n timeUp).gets n = _
          unfold Replica.getStep
          rw [ht]
          dsimp only
          rw [hphase]
          dsimp only
          rw [hitems]
          exact gets_setGet_self
        have hcases := @takeItems_cases cfg t cur items
        have hnone := h n _ hstep
        generalize takeItems cfg t cur items = t' at hcases hnone
        cases hcases with
        | stops ne leaves => exact absurd htakes leaves
        | takes takes byteSize phase' order =>
          apply hnone x
          apply List.mem_append_right
          exact List.mem_filter.mpr ⟨hx, keeps_iff.mpr hkeep⟩
    | execute | startGet _ _ | endGet _ | startRound | startSync | startReplay _ _ _ | keepSync
    | clear _ _ | truncate _ | restart => trivial

end

/-- **Nothing is early** in a run exactly when every instance that is taken fits. -/
theorem neverEarly_iff (cfg : StoreConfig) (es : List Event) :
    (store cfg).Always NeverEarly (store cfg).init es ↔
      (store cfg).Along (AtimeFits cfg) (store cfg).init es := by
  have hstep : ∀ (w : World) e, NeverEarly w → AtimeFits cfg w e →
      NeverEarly ((store cfg).step w e) := fun _ _ h hok => h.step hok
  have hbad : ∀ (w : World) e, NeverEarly w → ¬ AtimeFits cfg w e →
      ¬ NeverEarly ((store cfg).step w e) := fun _ _ _ hno => not_neverEarly_step hno
  have hinit : NeverEarly (store cfg).init := by
    intro n t ht
    cases ht
  exact Machine.always_iff_along (M := store cfg) (fun _ h => h) hstep hbad hinit es

/-! ## Instances whose latest item is first -/

/-- `x` has a later time than `y`. -/
def After (x y : QItem) : Prop := x.atime > y.atime ∨ x.atime = y.atime ∧ x.atimeMs > y.atimeMs

instance (x y : QItem) : Decidable (After x y) := inferInstanceAs (Decidable (_ ∨ _ ∧ _))

/-- None of the items is later than the first one. -/
def FirstLatest (items : List QItem) : Prop :=
  ∀ first ∈ items.head?, ∀ x ∈ items, ¬ After x first

instance : DecidablePred FirstLatest := fun items =>
  inferInstanceAs (Decidable (∀ first ∈ items.head?, ∀ x ∈ items, ¬ After x first))

/-- The instance that is chosen has its latest item first, for each queue that it adds to. -/
def LatestFirst (w : World) : Event → Prop
  | .choose batch => ∀ args ∈ batch, ∀ req ∈ args.addReq,
      FirstLatest (itemsOf (w.log ++ [batch]) req.queueId w.log.length)
  | .store _ => True

instance (w : World) : ∀ e, Decidable (LatestFirst w e)
  | .choose batch => inferInstanceAs (Decidable (∀ args ∈ batch, ∀ req ∈ args.addReq,
      FirstLatest (itemsOf (w.log ++ [batch]) req.queueId w.log.length)))
  | .store _ => inferInstanceAs (Decidable True)

/-- In every instance of the log the latest item of a queue is first. -/
def Log.LatestFirst (log : Log) : Prop := ∀ q i, FirstLatest (itemsOf log q i)

section
variable {cfg : StoreConfig} {log : Log}

lemma firstLatest_nil : FirstLatest [] := fun _ hfirst => nomatch hfirst

/-- An item is not after a time that the first one is not after. -/
lemma FirstLatest.not_afterAtime {items : List QItem} (h : FirstLatest items) {req : GetRequest}
    (hfirst : ∀ item ∈ items.head?, ¬ afterAtime req item) {x : QItem} (hx : x ∈ items) :
    ¬ afterAtime req x := by
  rintro ⟨hne, hafter⟩
  obtain ⟨first, rest, rfl⟩ := List.exists_cons_of_ne_nil (List.ne_nil_of_mem hx)
  have hnot : ¬ afterAtime req first := hfirst first rfl
  have hle : ¬ After x first := h first rfl x hx
  unfold afterAtime at hnot
  unfold After at hle
  omega

lemma itemsOf_of_ge {q i : ℕ} (hi : log.length ≤ i) : itemsOf log q i = [] := by
  unfold itemsOf valuesOf
  rw [List.getElem?_eq_none hi]
  rfl

lemma itemsOf_eq_nil {q i : ℕ}
    (h : ∀ args ∈ valuesOf log i, ∀ req ∈ args.addReq, req.queueId ≠ q) : itemsOf log q i = [] := by
  unfold itemsOf
  rw [List.flatMap_eq_nil_iff]
  intro args hargs
  cases hreq : args.addReq with
  | none => rfl
  | some req => exact if_neg (h args hargs req hreq)

lemma Log.LatestFirst.append (h : Log.LatestFirst log) {batch : List StorePaxosArgs}
    (hbatch : ∀ args ∈ batch, ∀ req ∈ args.addReq,
      FirstLatest (itemsOf (log ++ [batch]) req.queueId log.length)) :
    Log.LatestFirst (log ++ [batch]) := by
  intro q i
  rcases lt_trichotomy i log.length with hlt | rfl | hgt
  · rw [itemsOf_append hlt]
    exact h q i
  · by_cases hadds : ∃ args ∈ batch, ∃ req ∈ args.addReq, req.queueId = q
    · obtain ⟨args, hargs, req, hreq, rfl⟩ := hadds
      exact hbatch args hargs req hreq
    · have hlast : valuesOf (log ++ [batch]) log.length = batch := by
        unfold valuesOf
        rw [List.getElem?_concat_length]
        rfl
      rw [itemsOf_eq_nil]
      · exact firstLatest_nil
      · rw [hlast]
        exact fun args hargs req hreq heq => hadds ⟨args, hargs, req, hreq, heq⟩
  · rw [itemsOf_of_ge (by rw [List.length_append, List.length_singleton]; omega)]
    exact firstLatest_nil

lemma Log.LatestFirst.step {w : World} (h : Log.LatestFirst w.log) {e : Event}
    (hok : PhxQueue.Store.LatestFirst w e) : Log.LatestFirst (w.step cfg e).log := by
  cases e with
  | choose batch =>
    dsimp only [World.step]
    split
    · exact h.append hok
    · exact h
  | store e => exact h

lemma Log.LatestFirst.atimeFits {w : World} (h : Log.LatestFirst w.log) (e : Event) :
    AtimeFits cfg w e := by
  cases e with
  | choose batch => trivial
  | store e =>
    cases e with
    | get n timeUp =>
      intro t ht cur hcur items hread htakes x hx _
      have hitems : FirstLatest items := by
        unfold getItemsByCursorID at hread
        split at hread
        · cases hread
        split at hread
        · cases hread
          exact firstLatest_nil
        · cases hread
          exact h t.req.queueId cur
      exact hitems.not_afterAtime htakes.2 hx
    | execute | startGet _ _ | endGet _ | startRound | startSync | startReplay _ _ _ | keepSync
    | clear _ _ | truncate _ | restart => trivial

end

/-! ## What holds of a running Get -/

/-- The `Get` has not entered its loop. -/
def GetPhase.Before : GetPhase → Prop
  | .svrPrev | .checkPoint | .minInstance => True
  | _ => False

/-- The instances a `Get` has to look at are those from here on: above the cursors with which it
enters its loop. -/
def GetThread.lower (t : GetThread) : ℕ :=
  if t.req.random then
    max (level (if t.cliNext < t.svrPrev then t.svrPrev else t.cliNext)) (level t.svrPrev)
  else max (level t.cliNext) (level t.cliPrev)

section
variable (cfg : StoreConfig)

/-- A running `Get` of a group that consumes the queue has what it has passed. -/
structure Keeping (log : Log) (s : Replica) (t : GetThread) : Prop where
  minInstance : t.minInstance = uint64Max ∨ t.minInstance ≤ s.minChosen
  cp : t.cp = uint64Max ∨ t.cp < s.now
  starts : level t.cliNext ≤
        max (level t.req.nextCursorId) (s.sync t.req.queueId t.req.consumerGroupId).acked ∧
      level t.cliPrev ≤
        max (level t.req.prevCursorId) (s.sync t.req.queueId t.req.consumerGroupId).acked
  svrPrev : level t.svrPrev ≤ (s.sync t.req.queueId t.req.consumerGroupId).acked
  before : t.phase.Before → t.next = t.cliNext ∧ t.prev = t.cliPrev
  prev : ¬ t.phase.Before → level t.prev ≤ t.lower
  next_le : ¬ t.phase.Before → level t.next ≤ max t.lower s.now
  cursor : ∀ cur, t.phase = .items cur → level t.next ≤ cur ∧ cur ≤ s.now ∧
    Passes log s t.req.queueId t.req.consumerGroupId (level t.next) cur
  kept : ¬ t.phase.Before → ∀ i, t.lower ≤ i → i < level t.next →
    ∀ x ∈ itemsOf log t.req.queueId i, t.Keeps cfg x →
      x ∈ t.items ∨ i < (s.sync t.req.queueId t.req.consumerGroupId).acked

variable {cfg} {log : Log} {s s' : Replica} {t : GetThread}

lemma Passes.advances {q g lower upper : ℕ} (h : Passes log s q g lower upper)
    (hadv : Advances s s') : Passes log s' q g lower upper :=
  fun i hi hlt hne => (h i hi hlt hne).trans_le (hadv.grows q g)

lemma Keeping.mono (h : Keeping cfg log s t) (hadv : Advances s s') : Keeping cfg log s' t where
  minInstance := h.minInstance.imp id fun hle => hle.trans hadv.minChosen_le
  cp := h.cp.imp id fun hlt => hlt.trans_le hadv.now_le
  starts := ⟨h.starts.1.trans (max_le_max le_rfl (hadv.grows _ _)),
    h.starts.2.trans (max_le_max le_rfl (hadv.grows _ _))⟩
  svrPrev := h.svrPrev.trans (hadv.grows _ _)
  before := h.before
  prev := h.prev
  next_le := fun hb => (h.next_le hb).trans (max_le_max le_rfl hadv.now_le)
  cursor := by
    intro cur hcur
    obtain ⟨hle, hnow, hpass⟩ := h.cursor cur hcur
    exact ⟨hle, hnow.trans hadv.now_le, hpass.advances hadv⟩
  kept := by
    intro hb i hlower hi x hx hkeep
    exact (h.kept hb i hlower hi x hx hkeep).imp id fun hlt => hlt.trans_le (hadv.grows _ _)

lemma Keeping.append (h : Keeping cfg log s t) (hnow : s.now ≤ log.length)
    (batch : List StorePaxosArgs) : Keeping cfg (log ++ [batch]) s t where
  minInstance := h.minInstance
  cp := h.cp
  starts := h.starts
  svrPrev := h.svrPrev
  before := h.before
  prev := h.prev
  next_le := h.next_le
  cursor := by
    intro cur hcur
    obtain ⟨hle, hcurNow, hpass⟩ := h.cursor cur hcur
    refine ⟨hle, hcurNow, fun i hi hlt hne => ?_⟩
    rw [itemsOf_append (by omega)] at hne
    exact hpass i hi hlt hne
  kept := by
    intro hb i hlower hi x hx hkeep
    have hle := h.next_le hb
    rw [itemsOf_append (by omega)] at hx
    exact h.kept hb i hlower hi x hx hkeep

/-- A change of phase, out of the loop or behind it. -/
lemma Keeping.withPhase (h : Keeping cfg log s t) (hb : ¬ t.phase.Before) {phase : GetPhase}
    (hitems : ∀ cur, phase ≠ .items cur) (hphase : ¬ phase.Before) :
    Keeping cfg log s { t with phase := phase } :=
  ⟨h.minInstance, h.cp, h.starts, h.svrPrev, fun hp => absurd hp hphase, fun _ => h.prev hb,
    fun _ => h.next_le hb, fun cur hcur => absurd hcur (hitems cur), fun _ => h.kept hb⟩

/-! ### Its steps -/

lemma keeping_startGet (hsync : SyncOk s.sync) {req : GetRequest}
    (h : startGet cfg s.sync req = .ok t) : Keeping cfg log s t := by
  have hcursors := startGet_cursors hsync h
  obtain ⟨queueInfoId, p, n, rfl⟩ := startGet_eq h
  have hzero : level uint64Max ≤ (s.sync req.queueId req.consumerGroupId).acked := by
    rw [level_uint64Max]
    exact Nat.zero_le _
  exact ⟨.inl rfl, .inl rfl, hcursors, hzero, fun _ => ⟨rfl, rfl⟩, fun hb => absurd trivial hb,
    fun hb => absurd trivial hb, fun cur hcur => (nomatch hcur), fun hb => absurd trivial hb⟩

lemma Keeping.enter (h : Keeping cfg log s t) (hphase : t.phase = .minInstance) :
    Keeping cfg log s (enterLoop { t with minInstance := s.minChosen }) := by
  obtain ⟨hnext, hprev⟩ := h.before (by rw [hphase]; exact trivial)
  have hlower : ∀ t' : GetThread, level t'.prev ≤ t.lower → level t'.next ≤ t.lower →
      t'.req = t.req → t'.lower = t.lower → t'.minInstance = s.minChosen → t'.cp = t.cp →
      t'.cliNext = t.cliNext → t'.cliPrev = t.cliPrev → t'.svrPrev = t.svrPrev →
      t'.phase = .loop → Keeping cfg log s t' := by
    intro t' hp hn hreq hsame hmin hcp hcliNext hcliPrev hsvr hloop
    have hstarts := h.starts
    have hsvrPrev := h.svrPrev
    rw [← hreq, ← hcliNext, ← hcliPrev] at hstarts
    rw [← hreq, ← hsvr] at hsvrPrev
    refine ⟨.inr hmin.le, hcp ▸ h.cp, hstarts, hsvrPrev, fun hb => ?_, fun _ => ?_, fun _ => ?_,
      fun cur hcur => ?_, fun _ i hi hlt => ?_⟩
    · rw [hloop] at hb
      exact absurd hb not_false
    · rw [hsame]
      exact hp
    · rw [hsame]
      exact hn.trans (le_max_left _ _)
    · rw [hloop] at hcur
      cases hcur
    · rw [hsame] at hi
      omega
  unfold enterLoop
  by_cases hr : t.req.random = true
  · have heq : t.lower = max (level (if t.cliNext < t.svrPrev then t.svrPrev else t.cliNext))
        (level t.svrPrev) := if_pos hr
    rw [if_pos hr]
    refine hlower _ ?_ ?_ rfl rfl rfl rfl rfl rfl rfl rfl
    · rw [heq]
      exact le_max_right _ _
    · rw [heq]
      dsimp only
      rw [hnext]
      exact le_max_left _ _
  · have heq : t.lower = max (level t.cliNext) (level t.cliPrev) := if_neg hr
    rw [if_neg hr]
    refine hlower _ ?_ ?_ rfl rfl rfl rfl rfl rfl rfl rfl
    · rw [heq]
      dsimp only
      rw [hprev]
      exact le_max_right _ _
    · rw [heq]
      dsimp only
      rw [hnext]
      exact le_max_left _ _

lemma Keeping.look (h : Keeping cfg log s t) (hinv : s.Inv cfg log) (hlog : LogOk cfg log)
    (hc : t.Consumes cfg) (hphase : t.phase = .loop) (timeUp : Bool) :
    Keeping cfg log s (loopStep t (s.metas t.req.queueId) timeUp) := by
  have hb : ¬ t.phase.Before := by
    rw [hphase]
    exact not_false
  have hcases := @loopStep_cases t (s.metas t.req.queueId) timeUp
  generalize loopStep t (s.metas t.req.queueId) timeUp = t' at hcases
  cases hcases with
  | stops => exact h.withPhase hb (fun _ hp => (nomatch hp)) not_false
  | skips cur next ne ge =>
    -- it moves below its prev cursor, where there is nothing to return
    have hlower : level cur ≤ t.lower := by
      have hprev := h.prev hb
      rw [level_of_ne ne] at hprev
      exact (level_le_of_lt (Nat.lt_succ_of_le ge)).trans hprev
    refine ⟨h.minInstance, h.cp, h.starts, h.svrPrev, fun hp => absurd hp hb, fun _ => h.prev hb,
      fun _ => ?_, fun c hp => ?_, fun _ i hi hlt => ?_⟩
    · exact hlower.trans (le_max_left _ _)
    · have hp : t.phase = .items c := hp
      rw [hphase] at hp
      cases hp
    · exact absurd (hi.trans_lt hlt) (not_lt.mpr hlower)
  | reads cur next above =>
    obtain ⟨hle, hnow, hpass⟩ := nextCursor_passes hinv hlog hc.1 hc.2 h.minInstance h.cp next
    refine ⟨h.minInstance, h.cp, h.starts, h.svrPrev, fun hp => absurd hp not_false, fun _ => h.prev hb,
      fun _ => h.next_le hb, fun c hp => ?_, fun _ => h.kept hb⟩
    cases hp
    exact ⟨hle, hnow, hpass⟩

lemma Keeping.take (h : Keeping cfg log s t) (hinv : s.Inv cfg log) (hlog : LogOk cfg log)
    (hc : t.Consumes cfg) {cur : ℕ} (hphase : t.phase = .items cur) {items : List QItem}
    (hitems : getItemsByCursorID log s.now s.minChosen t.req.queueId cur = .ok items) :
    Keeping cfg log s (takeItems cfg t cur items) := by
  have hb : ¬ t.phase.Before := by
    rw [hphase]
    exact not_false
  obtain ⟨hle, hcurNow, hpass⟩ := h.cursor cur hphase
  obtain ⟨hlt, hread⟩ := getItems_cases hinv hlog hc.1 hc.2 hitems
  have hnow := hinv.now_le
  have hlen := hlog.length_lt
  have hlevel : level cur = cur + 1 := level_of_lt (by omega)
  have hcases := @takeItems_cases cfg t cur items
  generalize takeItems cfg t cur items = t' at hcases
  cases hcases with
  | stops ne leaves => exact h.withPhase hb (fun _ hp => (nomatch hp)) not_false
  | takes takes byteSize phase order =>
    have hnotBefore : ¬ phase.Before := by
      rcases order with rfl | rfl
      · exact not_false
      · exact not_false
    refine ⟨h.minInstance, h.cp, h.starts, h.svrPrev, fun hp => absurd hp hnotBefore,
      fun _ => h.prev hb, fun _ => ?_, fun c hp => ?_, fun _ i hi hlt' x hx hkeep => ?_⟩
    · show level cur ≤ max t.lower s.now
      omega
    · have hp : phase = .items c := hp
      rcases order with rfl | rfl
      · cases hp
      · cases hp
    · have hlt' : i < level cur := hlt'
      rcases Nat.lt_or_ge i (level t.next) with hold | hnew
      · exact (h.kept hb i hi hold x hx hkeep).imp (List.mem_append_left _) id
      rcases Nat.lt_or_ge i cur with hgap | hat
      · exact .inr (hpass i hnew hgap (List.ne_nil_of_mem hx))
      · obtain rfl : i = cur := by omega
        rcases hread with rfl | ⟨_, hack⟩
        · left
          apply List.mem_append_right
          exact List.mem_filter.mpr ⟨hx, keeps_iff.mpr hkeep⟩
        · exact .inr hack

lemma Keeping.reads (h : Keeping cfg log s t) (hinv : s.Inv cfg log) (hlog : LogOk cfg log)
    (hc : t.Consumes cfg) {t' : GetThread} (hr : GetReads cfg log s t t') :
    Keeping cfg log s t' := by
  cases hr with
  | svrPrev phase =>
    have hbefore := h.before (by rw [phase]; exact trivial)
    refine ⟨h.minInstance, h.cp, h.starts, ?_, fun _ => hbefore, fun hb => absurd trivial hb,
      fun hb => absurd trivial hb, fun _ hp => (nomatch hp), fun hb => absurd trivial hb⟩
    -- what is stored has been acknowledged
    show level ((s.sync.getCursorID cfg.opt t.req.consumerGroupId t.req.queueId).toOption.getD
      uint64Max) ≤ (s.sync t.req.queueId t.req.consumerGroupId).acked
    cases hcur : s.sync.getCursorID cfg.opt t.req.consumerGroupId t.req.queueId with
    | error ret => exact level_uint64Max.le.trans (Nat.zero_le _)
    | ok c => exact (hinv.sync _ _ _ (SyncCtrl.getCursorID_ok hcur).2).2
  | checkPoint phase =>
    have hbefore := h.before (by rw [phase]; exact trivial)
    refine ⟨h.minInstance, ?_, h.starts, h.svrPrev, fun _ => hbefore, fun hb => absurd trivial hb,
      fun hb => absurd trivial hb, fun _ hp => (nomatch hp), fun hb => absurd trivial hb⟩
    have hcp := hinv.cp_le_now
    by_cases hmax : s.checkPoint = uint64Max
    · exact .inl hmax
    · rw [level_of_ne hmax] at hcp
      exact .inr hcp
  | minInstance phase => exact h.enter phase
  | loop phase timeUp => exact h.look hinv hlog hc phase timeUp
  | items cur phase items hitems => exact h.take hinv hlog hc phase hitems
  | notChosen cur phase now =>
    exact h.withPhase (by rw [phase]; exact not_false) (fun _ hp => (nomatch hp)) not_false
  | random phase random =>
    exact h.withPhase (by rw [phase]; exact not_false) (fun _ hp => (nomatch hp)) not_false
  | noPrev phase random prev =>
    exact h.withPhase (by rw [phase]; exact not_false) (fun _ hp => (nomatch hp)) not_false
  | noNext phase next =>
    exact h.withPhase (by rw [phase]; exact not_false) (fun _ hp => (nomatch hp)) not_false

/-! ## Runs -/

variable (cfg) in
structure World.Keeps (w : World) : Prop where
  inv : w.Inv cfg
  threads : ∀ n t, w.store.gets n = some t → t.Consumes cfg → Keeping cfg w.log w.store t

variable {w : World}

lemma World.keeps_init : (Store.store cfg).init.Keeps cfg :=
  ⟨World.Inv.init, fun _ _ ht => (nomatch ht)⟩

lemma World.Keeps.step (h : w.Keeps cfg) {e : Event} (hok : w.NotOvertaken e) :
    (w.step cfg e).Keeps cfg := by
  refine ⟨h.inv.step hok, ?_⟩
  cases e with
  | choose batch =>
    dsimp only [World.step]
    split
    · intro n t ht hc
      exact (h.threads n t ht hc).append h.inv.store.now_le batch
    · exact h.threads
  | store e =>
    have hinv := h.inv.store
    refine threads_keep (P := fun s t => t.Consumes cfg → Keeping cfg w.log s t) hinv.sync
      h.threads ?_ ?_ ?_ ?_
    · intro s' t hadv ht hc
      exact (ht hc).mono hadv
    · intro req t hvalid hstart hc
      exact keeping_startGet hinv.sync hstart
    · intro u t hu hreads hc
      have hcu : u.Consumes cfg := by
        unfold GetThread.Consumes at hc ⊢
        rwa [hreads.req_eq] at hc
      exact (hu hcu).reads hinv h.inv.log hcu hreads
    · intro u phase hu order hc
      rcases order with ⟨hphase, rfl⟩ | ⟨hphase, rfl⟩
      · exact (hu hc).withPhase (by rw [hphase]; exact not_false) (fun _ hp => (nomatch hp)) not_false
      · exact (hu hc).withPhase (by rw [hphase]; exact not_false) (fun _ hp => (nomatch hp)) not_false

/-- A `Get` whose cursors stand before an instance that is not acknowledged has to look at it. -/
lemma Keeping.lower_le (h : Keeping cfg log s t) {i : ℕ} (hbefore : t.req.Before i)
    (hack : (s.sync t.req.queueId t.req.consumerGroupId).acked ≤ i) : t.lower ≤ i := by
  have hnext := h.starts.1.trans (max_le hbefore.1 hack)
  have hprev := h.starts.2.trans (max_le hbefore.2 hack)
  have hsvr := h.svrPrev.trans hack
  unfold GetThread.lower
  split
  · apply max_le _ hsvr
    split
    · exact hsvr
    · exact hnext
  · exact max_le hnext hprev

lemma World.Keeps.noneMissed (h : w.Keeps cfg) : NoneMissed cfg w := by
  intro n t ht hdone hc i hbefore hlt x hx hkeep
  have hkeeping := h.threads n t ht hc
  by_cases hack : i < (w.store.sync t.req.queueId t.req.consumerGroupId).acked
  · exact .inr hack
  · have hlower := hkeeping.lower_le hbefore (not_lt.mp hack)
    exact hkeeping.kept (by rw [hdone]; exact not_false) i hlower hlt x hx hkeep

/-- What is passed is returned, and what is returned is not early. -/
lemma World.Keeps.heldBack (h : w.Keeps cfg) (hearly : NeverEarly w) : HeldBack cfg w := by
  intro n t ht hdone hc i hbefore x hx hkeep hafter
  by_cases hack : i < (w.store.sync t.req.queueId t.req.consumerGroupId).acked
  · exact .inr hack
  left
  constructor
  · by_contra hlt
    rcases h.noneMissed n t ht hdone hc i hbefore (not_le.mp hlt) x hx hkeep with hmem | hacked
    · exact hearly n t ht x hmem hafter
    · exact hack hacked
  · have hkeeping := h.threads n t ht hc
    exact (hkeeping.prev (by rw [hdone]; exact not_false)).trans
      (hkeeping.lower_le hbefore (not_lt.mp hack))

end

/-- **Delayed delivery.**  In a run in which no round is overtaken and every chosen instance has the
latest item of each queue first, no item is returned early; an item after the time of a `Get` is not
passed by it, so that its cursors stay before it; and every `Get` returns what it passes. -/
theorem delayed_run (cfg : StoreConfig) {es : List Event}
    (hround : (store cfg).Along World.NotOvertaken (store cfg).init es)
    (hlatest : (store cfg).Along LatestFirst (store cfg).init es) :
    (store cfg).Always NeverEarly (store cfg).init es ∧
      (store cfg).Always (HeldBack cfg) (store cfg).init es ∧
      (store cfg).Always (NoneMissed cfg) (store cfg).init es := by
  have hstep : ∀ (w : World) e, (w.Keeps cfg ∧ NeverEarly w) ∧ Log.LatestFirst w.log →
      w.NotOvertaken e ∧ LatestFirst w e →
      (((store cfg).step w e).Keeps cfg ∧ NeverEarly ((store cfg).step w e)) ∧
        Log.LatestFirst ((store cfg).step w e).log :=
    fun _ e h hok => ⟨⟨h.1.1.step hok.1, h.1.2.step (h.2.atimeFits e)⟩, h.2.step hok.2⟩
  have hinit : ((store cfg).init.Keeps cfg ∧ NeverEarly (store cfg).init) ∧
      Log.LatestFirst (store cfg).init.log := by
    refine ⟨⟨World.keeps_init, ?_⟩, fun q i => ?_⟩
    · intro n t ht
      cases ht
    · rw [itemsOf_of_ge (Nat.zero_le _)]
      exact firstLatest_nil
  have hinv := Machine.Always.of_inv hstep hinit (hround.and hlatest)
  exact ⟨hinv.mono fun w h => h.1.2, hinv.mono fun w h => h.1.1.heldBack h.1.2,
    hinv.mono fun w h => h.1.1.noneMissed⟩

/-! ## An instance with an early and a late item -/

/-- An instance that adds items with these times to queue 0 is chosen and executed. -/
def addTimed (atimes : List ℕ) : List Event :=
  [.choose [{ addReq := some ⟨0, atimes.map fun atime =>
      { topicId := 1, consumerGroupIds := 1, atime := atime }⟩ }],
    .store .execute, .store .execute, .store .execute]

/-- Group 1 gets from queue 0 what is not after second 20; its thread makes `n` operations. -/
def getTimed (n : ℕ) : List Event :=
  [.store (.startGet 0 { topicId := 1, queueId := 0, consumerGroupId := 1, limit := 10
                         atime := 20 })] ++ List.replicate n (.store (.get 0 false))

/-- The first instance is taken, the second one is held back. -/
theorem lateInstance_delayed :
    (store twoQueues).Always NeverEarly (store twoQueues).init
        (addTimed [20, 10] ++ addTimed [30, 10] ++ getTimed 9) ∧
      (store twoQueues).Always (HeldBack twoQueues) (store twoQueues).init
        (addTimed [20, 10] ++ addTimed [30, 10] ++ getTimed 9) ∧
      (store twoQueues).Always (NoneMissed twoQueues) (store twoQueues).init
        (addTimed [20, 10] ++ addTimed [30, 10] ++ getTimed 9) :=
  delayed_run twoQueues (by decide) (by decide)

/-- **Counterexample.**  One add with an early item and a late one: both are returned. -/
theorem mixedInstance_not_delayed :
    ¬ ((store twoQueues).Always NeverEarly (store twoQueues).init
        (addTimed [10, 30] ++ getTimed 5) ∧
      (store twoQueues).Always (HeldBack twoQueues) (store twoQueues).init
        (addTimed [10, 30] ++ getTimed 5) ∧
      (store twoQueues).Always (NoneMissed twoQueues) (store twoQueues).init
        (addTimed [10, 30] ++ getTimed 5)) := by
  intro h
  have hearly := h.1.last 0 _ rfl
  exact absurd hearly (by decide)

end PhxQueue.Store
