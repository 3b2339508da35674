import PhxQueue.Store.Replica

/-!
# What a store retains

An executed instance that holds items of a queue stays in the meta queue until every consumer
group of the queue has acknowledged it.  The checkpoint stays below the metas as long as no round
of `MakeCheckPoint` is overtaken: an instance lands in a queue the round has found empty, and a
later one becomes the head of a queue the round has still to look at.

* `Retained`         in the meta queue, or acknowledged by all consumer groups;
* `Replica.Inv`      the invariant of a replica;
* `NotOvertaken`     the condition on a dump;
* `Replica.Inv.step` **every step from there keeps the invariant**.
-/

set_option linter.unusedSectionVars false

namespace PhxQueue.Store
open Comm Lib Config

/-! ## The log -/

section
variable (cfg : StoreConfig)

structure LogOk (log : Log) : Prop where
  proposable : ∀ batch ∈ log, ∀ args ∈ batch, Proposable cfg args
  length_lt : log.length < uint64Max

variable {cfg} {log : Log}

lemma exists_of_itemsOf_ne {q i : ℕ} (h : itemsOf log q i ≠ []) :
    ∃ (k : ℕ) (args : StorePaxosArgs) (req : AddRequest), (valuesOf log i)[k]? = some args ∧
      args.addReq = some req ∧ req.queueId = q ∧ req.items ≠ [] := by
  obtain ⟨item, hitem⟩ := List.exists_mem_of_ne_nil _ h
  obtain ⟨args, hargs, hmem⟩ := List.mem_flatMap.mp hitem
  obtain ⟨k, hk⟩ := List.getElem?_of_mem hargs
  cases hreq : args.addReq with
  | none =>
    rw [hreq] at hmem
    cases hmem
  | some req =>
    rw [hreq] at hmem
    dsimp only at hmem
    by_cases hq : req.queueId = q
    · rw [if_pos hq] at hmem
      refine ⟨k, args, req, hk, hreq, hq, ?_⟩
      rintro hnil
      rw [hnil] at hmem
      cases hmem
    · rw [if_neg hq] at hmem
      cases hmem

lemma LogOk.of_getD (h : LogOk cfg log) {i k : ℕ} {args : StorePaxosArgs}
    (hargs : (valuesOf log i)[k]? = some args) : Proposable cfg args := by
  unfold valuesOf at hargs
  cases hb : log[i]? with
  | none =>
    rw [hb] at hargs
    cases hargs
  | some batch =>
    rw [hb] at hargs
    exact h.proposable _ (List.mem_of_getElem? hb) _ (List.mem_of_getElem? hargs)

lemma LogOk.mem_queues (h : LogOk cfg log) {q i : ℕ} (hne : itemsOf log q i ≠ []) :
    q ∈ cfg.queues := by
  obtain ⟨k, args, req, hk, hreq, rfl, _⟩ := exists_of_itemsOf_ne hne
  exact ((h.of_getD hk).1 req hreq).1

lemma valuesOf_append {i : ℕ} (hi : i < log.length) (batch : List StorePaxosArgs) :
    valuesOf (log ++ [batch]) i = valuesOf log i := by
  unfold valuesOf
  rw [List.getElem?_append_left hi]

lemma mem_valuesOf_append {batch : List StorePaxosArgs} {i : ℕ} {args : StorePaxosArgs}
    (h : args ∈ valuesOf (log ++ [batch]) i) : args ∈ valuesOf log i ∨ args ∈ batch := by
  rcases Nat.lt_trichotomy i log.length with hlt | heq | hgt
  · rw [valuesOf_append hlt] at h
    exact .inl h
  · subst heq
    unfold valuesOf at h
    rw [List.getElem?_append_right le_rfl, Nat.sub_self] at h
    exact .inr h
  · unfold valuesOf at h
    rw [List.getElem?_eq_none (by rw [List.length_append, List.length_singleton]; omega)] at h
    exact absurd h List.not_mem_nil

lemma itemsOf_append {i : ℕ} (hi : i < log.length) (batch : List StorePaxosArgs) (q : ℕ) :
    itemsOf (log ++ [batch]) q i = itemsOf log q i := by
  unfold itemsOf
  rw [valuesOf_append hi]

end

/-! ## The invariant -/

def Applying.details : Applying → List SyncDetail
  | .add => []
  | .compare ds => ds
  | .writePrev d ds => d :: ds
  | .writeNext d ds => d :: ds

/-- How many values of instance `now` have been added. -/
def Replica.donePos (s : Replica) : ℕ := if s.applying = .add then s.pos else s.pos + 1

section
variable (cfg : StoreConfig)

def AckedByAll (sync : SyncCtrl) (q i : ℕ) : Prop :=
  ∀ g ∈ cfg.consumerGroups, cfg.isConsumer q g → i < (sync q g).acked

def Retained (metas : ℕ → StoreMetaQueue) (sync : SyncCtrl) (q i : ℕ) : Prop :=
  i ∈ metas q ∨ AckedByAll cfg sync q i

def SyncOk (sync : SyncCtrl) : Prop :=
  ∀ q g p, (sync q g).prev = some p → p ≠ uint64Max ∧ level p ≤ (sync q g).acked

/-- What a round has found so far.  Of its checkpoint there are three cases: no head has been
found, it is just below the least head, or a head is the very first instance. -/
structure RoundOk (now : ℕ) (metas : ℕ → StoreMetaQueue) (sync : SyncCtrl) (checkPoint : ℕ)
    (r : CheckRound) : Prop where
  nowInstance_le : r.nowInstanceId ≤ now
  queues : ∀ q ∈ r.queues, q ∈ cfg.queues
  examined : ∀ q ∈ cfg.queues, q ∈ r.queues ∨ q ∈ r.emptied ∨
    (r.fronts ≠ [] ∧ ∀ m ∈ metas q, ∃ f ∈ r.fronts, f ≤ m)
  emptied : ∀ q ∈ r.emptied, q ∈ cfg.queues ∧ ∀ m ∈ metas q, r.nowInstanceId ≤ m
  fronts_le : ∀ f ∈ r.fronts, f ≤ now
  cp : (r.fronts = [] ∧ r.cp = uint64Max ∧ r.finish = false) ∨
    (r.finish = false ∧ r.cp ≠ uint64Max ∧ r.cp + 1 ∈ r.fronts ∧ ∀ f ∈ r.fronts, r.cp < f) ∨
    (0 ∈ r.fronts ∧ r.cp = uint64Max ∧ r.finish = true)
  stored : level checkPoint ≤ r.nowInstanceId ∧ ∀ f ∈ r.fronts, level checkPoint ≤ f
  groups : ∀ q ∈ r.queues.head?, ∀ g ∈ cfg.consumerGroups, cfg.isConsumer q g →
    g ∈ r.groups ∨ r.needUpdate = false ∨
      (r.minPrev ≠ uint64Max ∧ level r.minPrev ≤ (sync q g).acked)

def KeepSyncOk (now : ℕ) (metas : ℕ → StoreMetaQueue) (sync : SyncCtrl) (checkPoint : ℕ) :
    KeepSync → Prop
  | .checkPoint r => RoundOk cfg now metas sync checkPoint r
  | .replay _ _ r _ => r ≠ uint64Max
  | _ => True

structure Replica.Inv (log : Log) (s : Replica) : Prop where
  now_le : s.now ≤ log.length
  donePos_le : s.donePos ≤ (valuesOf log s.now).length
  details : ∀ d ∈ s.applying.details, d.prevCursorId < uint64Max
  metas_le : ∀ q, ∀ m ∈ s.metas q, m ≤ s.now
  held : ∀ q i, i < s.now → itemsOf log q i ≠ [] → Retained cfg s.metas s.sync q i
  heldNow : ∀ k args req, k < s.donePos → (valuesOf log s.now)[k]? = some args →
    args.addReq = some req → req.items ≠ [] → Retained cfg s.metas s.sync req.queueId s.now
  sync : SyncOk s.sync
  cp_le_now : level s.checkPoint ≤ s.now
  cp_le_metas : ∀ q ∈ cfg.queues, ∀ m ∈ s.metas q, level s.checkPoint ≤ m
  minChosen_le : s.minChosen ≤ level s.checkPoint
  keepSync : KeepSyncOk cfg s.now s.metas s.sync s.checkPoint s.keepSync

def KeepSync.round? : KeepSync → Option CheckRound
  | .checkPoint r => some r
  | _ => none

/-- At the end of a round no queue that the round found empty holds an instance below all the
heads it found. -/
def NotOvertaken (s : Replica) : StoreEvent → Prop
  | .keepSync => ∀ r ∈ s.keepSync.round?, r.queues = [] ∨ r.finish → ∀ q ∈ r.emptied,
      ∀ m ∈ s.metas q, r.fronts = [] ∨ ∃ f ∈ r.fronts, f ≤ m
  | _ => True

instance (s : Replica) : ∀ e, Decidable (NotOvertaken s e)
  | .keepSync => inferInstanceAs (Decidable (∀ r ∈ s.keepSync.round?, r.queues = [] ∨ r.finish →
      ∀ q ∈ r.emptied, ∀ m ∈ s.metas q, r.fronts = [] ∨ ∃ f ∈ r.fronts, f ≤ m))
  | .execute | .startGet _ _ | .get _ _ | .endGet _ | .startRound | .startSync
  | .startReplay _ _ _ | .clear _ _ | .truncate _ | .restart => inferInstanceAs (Decidable True)

variable {cfg} {log : Log} {s : Replica}

/-! ## Frames -/

def Grows (sync sync' : SyncCtrl) : Prop := ∀ q g, (sync q g).acked ≤ (sync' q g).acked

lemma Grows.refl (sync : SyncCtrl) : Grows sync sync := fun _ _ => le_rfl

lemma AckedByAll.grows {sync sync' : SyncCtrl} (hg : Grows sync sync') {q i : ℕ}
    (h : AckedByAll cfg sync q i) : AckedByAll cfg sync' q i :=
  fun g hmem hc => (h g hmem hc).trans_le (hg q g)

lemma Retained.grows {metas metas' : ℕ → StoreMetaQueue} {sync sync' : SyncCtrl} {q i : ℕ}
    (hm : i ∈ metas q → i ∈ metas' q) (hg : Grows sync sync') (h : Retained cfg metas sync q i) :
    Retained cfg metas' sync' q i := by
  rcases h with h | h
  · exact .inl (hm h)
  · exact .inr (h.grows hg)

lemma RoundOk.grows {now now' : ℕ} {metas metas' : ℕ → StoreMetaQueue} {sync sync' : SyncCtrl}
    {checkPoint : ℕ} {r : CheckRound} (hnow : now ≤ now')
    (hm : ∀ q m, m ∈ metas' q → m ∈ metas q ∨ now ≤ m) (hg : Grows sync sync')
    (h : RoundOk cfg now metas sync checkPoint r) :
    RoundOk cfg now' metas' sync' checkPoint r where
  nowInstance_le := h.nowInstance_le.trans hnow
  queues := h.queues
  examined := by
    intro q hq
    rcases h.examined q hq with hq | hq | ⟨hne, hq⟩
    · exact .inl hq
    · exact .inr (.inl hq)
    · refine .inr (.inr ⟨hne, fun m hmem => ?_⟩)
      rcases hm q m hmem with hmem | hle
      · exact hq m hmem
      · obtain ⟨f, hf⟩ := List.exists_mem_of_ne_nil _ hne
        exact ⟨f, hf, (h.fronts_le f hf).trans hle⟩
  emptied := by
    intro q hq
    refine ⟨(h.emptied q hq).1, fun m hmem => ?_⟩
    rcases hm q m hmem with hmem | hle
    · exact (h.emptied q hq).2 m hmem
    · exact h.nowInstance_le.trans hle
  fronts_le := fun f hf => (h.fronts_le f hf).trans hnow
  cp := h.cp
  stored := h.stored
  groups := by
    intro q hq g hmem hc
    rcases h.groups q hq g hmem hc with hg' | hg' | ⟨hne, hle⟩
    · exact .inl hg'
    · exact .inr (.inl hg')
    · exact .inr (.inr ⟨hne, hle.trans (hg q g)⟩)

lemma KeepSyncOk.grows {now now' : ℕ} {metas metas' : ℕ → StoreMetaQueue}
    {sync sync' : SyncCtrl} {checkPoint : ℕ} {k : KeepSync} (hnow : now ≤ now')
    (hm : ∀ q m, m ∈ metas' q → m ∈ metas q ∨ now ≤ m) (hg : Grows sync sync')
    (h : KeepSyncOk cfg now metas sync checkPoint k) :
    KeepSyncOk cfg now' metas' sync' checkPoint k := by
  cases k with
  | idle => trivial
  | checkPoint r => exact RoundOk.grows hnow hm hg h
  | sync todo details => trivial
  | replay q g r isPrev => exact h

lemma Replica.Inv.setSync (h : s.Inv cfg log) {sync : SyncCtrl} (hg : Grows s.sync sync)
    (hok : SyncOk sync) : ({ s with sync := sync } : Replica).Inv cfg log where
  now_le := h.now_le
  donePos_le := h.donePos_le
  details := h.details
  metas_le := h.metas_le
  held := fun q i hi hne => (h.held q i hi hne).grows id hg
  heldNow := fun k args req hk hargs hreq hne =>
    (h.heldNow k args req hk hargs hreq hne).grows id hg
  sync := hok
  cp_le_now := h.cp_le_now
  cp_le_metas := h.cp_le_metas
  minChosen_le := h.minChosen_le
  keepSync := h.keepSync.grows le_rfl (fun _ _ hmem => .inl hmem) hg

lemma Replica.Inv.setGets (h : s.Inv cfg log) (gets : ℕ → Option GetThread) :
    ({ s with gets := gets } : Replica).Inv cfg log :=
  ⟨h.now_le, h.donePos_le, h.details, h.metas_le, h.held, h.heldNow, h.sync, h.cp_le_now,
    h.cp_le_metas, h.minChosen_le, h.keepSync⟩

lemma Replica.Inv.setKeepSync (h : s.Inv cfg log) {k : KeepSync}
    (hk : KeepSyncOk cfg s.now s.metas s.sync s.checkPoint k) :
    ({ s with keepSync := k } : Replica).Inv cfg log :=
  ⟨h.now_le, h.donePos_le, h.details, h.metas_le, h.held, h.heldNow, h.sync, h.cp_le_now,
    h.cp_le_metas, h.minChosen_le, hk⟩

lemma updateCursorID_grows {sync sync' : SyncCtrl} {g q c : ℕ} {isPrev : Bool}
    (hu : sync.updateCursorID cfg.opt g q c isPrev = .ok sync') : Grows sync sync' := by
  obtain ⟨_, rfl⟩ := SyncCtrl.updateCursorID_ok hu
  intro q' g'
  by_cases hs : q' = q ∧ g' = g
  · obtain ⟨rfl, rfl⟩ := hs
    rw [SyncCtrl.set_self]
    cases isPrev with
    | true => exact le_max_left _ _
    | false => exact le_rfl
  · rw [SyncCtrl.set_of_ne hs]

lemma SyncOk.updateCursorID {sync sync' : SyncCtrl} {g q c : ℕ} {isPrev : Bool}
    (h : SyncOk sync) (hc : isPrev = true → c ≠ uint64Max)
    (hu : sync.updateCursorID cfg.opt g q c isPrev = .ok sync') : SyncOk sync' := by
  obtain ⟨_, rfl⟩ := SyncCtrl.updateCursorID_ok hu
  intro q' g' p hp
  by_cases hs : q' = q ∧ g' = g
  · obtain ⟨rfl, rfl⟩ := hs
    rw [SyncCtrl.set_self] at hp ⊢
    cases isPrev with
    | true =>
      cases hp
      exact ⟨hc rfl, le_max_right _ _⟩
    | false => exact h q' g' p hp
  · rw [SyncCtrl.set_of_ne hs] at hp ⊢
    exact h q' g' p hp

lemma SyncOk.clearCursorID {sync : SyncCtrl} (h : SyncOk sync) (g q : ℕ) :
    Grows sync (sync.clearCursorID cfg.opt g q) ∧ SyncOk (sync.clearCursorID cfg.opt g q) := by
  unfold SyncCtrl.clearCursorID
  split
  · constructor
    · intro q' g'
      by_cases hs : q' = q ∧ g' = g
      · obtain ⟨rfl, rfl⟩ := hs
        rw [SyncCtrl.set_self]
      · rw [SyncCtrl.set_of_ne hs]
    · intro q' g' p hp
      by_cases hs : q' = q ∧ g' = g
      · obtain ⟨rfl, rfl⟩ := hs
        rw [SyncCtrl.set_self] at hp
        cases hp
      · rw [SyncCtrl.set_of_ne hs] at hp ⊢
        exact h q' g' p hp
  · exact ⟨Grows.refl _, h⟩

lemma Replica.Inv.acked_of_lt_cp (h : s.Inv cfg log) (hlog : LogOk cfg log) {q i : ℕ}
    (hi : i < level s.checkPoint) (hne : itemsOf log q i ≠ []) : AckedByAll cfg s.sync q i := by
  rcases h.held q i (hi.trans_le h.cp_le_now) hne with hmem | hack
  · have := h.cp_le_metas q (hlog.mem_queues hne) i hmem
    omega
  · exact hack

/-! ## Execution -/

lemma Replica.Inv.setApplying (h : s.Inv cfg log) {pos : ℕ} {a : Applying}
    (hpos : ({ s with pos := pos, applying := a } : Replica).donePos ≤ s.donePos)
    (ha : ∀ d ∈ a.details, d.prevCursorId < uint64Max) :
    ({ s with pos := pos, applying := a } : Replica).Inv cfg log :=
  ⟨h.now_le, hpos.trans h.donePos_le, ha, h.metas_le, h.held,
    fun k args req hk => h.heldNow k args req (hk.trans_le hpos), h.sync, h.cp_le_now,
    h.cp_le_metas, h.minChosen_le, h.keepSync⟩

/-- All values of instance `now` have been executed. -/
lemma Replica.Inv.advance (h : s.Inv cfg log) (hnow : s.now < log.length)
    (hpos : (valuesOf log s.now).length ≤ s.pos) :
    ({ s with now := s.now + 1, pos := 0, applying := .add } : Replica).Inv cfg log where
  now_le := hnow
  donePos_le := Nat.zero_le _
  details := fun _ hd => nomatch hd
  metas_le := fun q m hm => (h.metas_le q m hm).trans (Nat.le_succ _)
  held := by
    intro q i hi hne
    rcases Nat.lt_succ_iff_lt_or_eq.mp hi with hi | rfl
    · exact h.held q i hi hne
    · obtain ⟨k, args, req, hk, hreq, rfl, hitems⟩ := exists_of_itemsOf_ne hne
      have hklt := (List.getElem?_eq_some_iff.mp hk).1
      have hdone : s.pos ≤ s.donePos := by
        unfold Replica.donePos
        split <;> omega
      exact h.heldNow k args req (by omega) hk hreq hitems
  heldNow := fun k args req hk => absurd hk (Nat.not_lt_zero k)
  sync := h.sync
  cp_le_now := h.cp_le_now.trans (Nat.le_succ _)
  cp_le_metas := h.cp_le_metas
  minChosen_le := h.minChosen_le
  keepSync := h.keepSync.grows (Nat.le_succ _) (fun _ _ hmem => .inl hmem) (Grows.refl _)

/-- What `Add` does to the meta queues. -/
lemma add_cases {metas metas' : ℕ → StoreMetaQueue} {i : ℕ} {req : AddRequest}
    (hadd : add cfg metas i req = .ok metas') (hi : i < uint64Max)
    (hvalid : cfg.topic.isValidQueue req.queueId) (hle : ∀ m ∈ metas req.queueId, m ≤ i) :
    (∀ q m, m ∈ metas q → m ∈ metas' q) ∧
      (∀ q m, m ∈ metas' q → m ∈ metas q ∨ (q = req.queueId ∧ m = i)) ∧
      (req.items ≠ [] → i ∈ metas' req.queueId) := by
  unfold add at hadd
  cases hinfo : cfg.topic.getQueueInfoByQueue req.queueId with
  | error e =>
    rw [hinfo] at hadd
    cases hadd
  | ok info =>
    rw [hinfo] at hadd
    dsimp only at hadd
    by_cases hitems : req.items = []
    · rw [if_pos hitems] at hadd
      cases hadd
      exact ⟨fun _ _ hm => hm, fun _ _ hm => .inl hm, fun hne => absurd hitems hne⟩
    rw [if_neg hitems] at hadd
    by_cases hskip : needSkipAdd cfg (metas req.queueId) i req
    · -- the instance is the last meta already
      rw [if_pos hskip] at hadd
      cases hadd
      refine ⟨fun _ _ hm => hm, fun _ _ hm => .inl hm, fun _ => ?_⟩
      unfold needSkipAdd at hskip
      rw [if_neg hitems, hvalid] at hskip
      cases hback : (metas req.queueId).back with
      | none =>
        rw [hback] at hskip
        cases hskip
      | some m =>
        rw [hback] at hskip
        dsimp only at hskip
        have hmem := StoreMetaQueue.back_mem hback
        by_cases hge : m ≥ i
        · have hmi : m = i := le_antisymm (hle m hmem) hge
          rwa [← hmi]
        · rw [if_neg hge] at hskip
          cases hskip
    · rw [if_neg hskip] at hadd
      cases hadd
      have hlt : ∀ m ∈ metas req.queueId, m < i := by
        intro m hm
        by_contra hge
        apply hskip
        unfold needSkipAdd
        rw [if_neg hitems]
        cases hback : (metas req.queueId).back with
        | none =>
          have hempty : metas req.queueId = ∅ := Finset.max_eq_bot.mp hback
          rw [hempty] at hm
          exact absurd hm (Finset.notMem_empty m)
        | some b =>
          have hb := StoreMetaQueue.le_back hback hm
          dsimp only
          rw [if_pos (by omega)]
      refine ⟨?_, ?_, fun _ => ?_⟩
      · intro q m hm
        by_cases hq : q = req.queueId
        · subst hq
          rw [Function.update_self]
          exact StoreMetaQueue.mem_pushBack_of_mem hm
        · rwa [Function.update_of_ne hq]
      · intro q m hm
        by_cases hq : q = req.queueId
        · subst hq
          rw [Function.update_self] at hm
          rcases StoreMetaQueue.mem_pushBack hm with rfl | hm
          · exact .inr ⟨rfl, rfl⟩
          · exact .inl hm
        · rw [Function.update_of_ne hq] at hm
          exact .inl hm
      · rw [Function.update_self]
        exact StoreMetaQueue.self_mem_pushBack hi.ne hlt

lemma Replica.Inv.added (h : s.Inv cfg log) (hlog : LogOk cfg log) (happ : s.applying = .add)
    {args : StorePaxosArgs} (hargs : (valuesOf log s.now)[s.pos]? = some args)
    {metas : ℕ → StoreMetaQueue} (hold : ∀ q m, m ∈ s.metas q → m ∈ metas q)
    (hnew : ∀ q m, m ∈ metas q → m ∈ s.metas q ∨ m = s.now)
    (hheld : ∀ req, args.addReq = some req → req.items ≠ [] → s.now ∈ metas req.queueId) :
    ({ s with metas := metas, applying := .compare args.syncCtrlInfo } : Replica).Inv cfg log where
  now_le := h.now_le
  donePos_le := (List.getElem?_eq_some_iff.mp hargs).1
  details := fun d hd => ((hlog.of_getD hargs).2 d hd).2.2
  metas_le := by
    intro q m hm
    rcases hnew q m hm with hm | rfl
    · exact h.metas_le q m hm
    · exact le_rfl
  held := fun q i hi hne => (h.held q i hi hne).grows (hold q i) (Grows.refl _)
  heldNow := by
    intro k args' req hk hargs' hreq hne
    have hdone : s.donePos = s.pos := if_pos happ
    have hk : k < s.pos + 1 := hk
    rcases Nat.lt_succ_iff_lt_or_eq.mp hk with hk | rfl
    · exact (h.heldNow k args' req (by omega) hargs' hreq hne).grows (hold _ _) (Grows.refl _)
    · have hargs' : (valuesOf log s.now)[s.pos]? = some args' := hargs'
      rw [hargs] at hargs'
      cases hargs'
      exact .inl (hheld req hreq hne)
  sync := h.sync
  cp_le_now := h.cp_le_now
  cp_le_metas := by
    intro q hq m hm
    rcases hnew q m hm with hm | rfl
    · exact h.cp_le_metas q hq m hm
    · exact h.cp_le_now
  minChosen_le := h.minChosen_le
  keepSync := h.keepSync.grows le_rfl
    (fun q m hm => (hnew q m hm).imp id fun heq => heq.ge) (Grows.refl _)

theorem Replica.Inv.executeStep (h : s.Inv cfg log) (hlog : LogOk cfg log) :
    (s.executeStep cfg log).Inv cfg log := by
  unfold Replica.executeStep
  cases hb : log[s.now]? with
  | none => exact h
  | some batch =>
    have hvalues : valuesOf log s.now = batch := by
      unfold valuesOf
      rw [hb]
      rfl
    have hnow := (List.getElem?_eq_some_iff.mp hb).1
    dsimp only
    cases ha : batch[s.pos]? with
    | none =>
      refine h.advance hnow ?_
      rw [hvalues]
      exact List.getElem?_eq_none_iff.mp ha
    | some args =>
      have hargs : (valuesOf log s.now)[s.pos]? = some args := by rwa [hvalues]
      have hprop := hlog.of_getD hargs
      dsimp only
      -- a value that is not added once more stays counted
      have hdone : ∀ a : Applying, s.applying ≠ .add →
          ({ s with applying := a } : Replica).donePos ≤ s.donePos := by
        intro a hne
        unfold Replica.donePos
        rw [if_neg hne]
        dsimp only
        split <;> omega
      cases happ : s.applying with
      | add =>
        dsimp only
        cases hreq : args.addReq with
        | none =>
          refine h.added hlog happ hargs (fun _ _ hm => hm) (fun _ _ hm => .inl hm) ?_
          intro req hreq'
          rw [hreq] at hreq'
          cases hreq'
        | some req =>
          dsimp only
          cases hadd : add cfg s.metas s.now req with
          | error e => exact h
          | ok metas =>
            have hi : s.now < uint64Max := hnow.trans hlog.length_lt
            obtain ⟨hold, hnew, hmem⟩ := add_cases hadd hi (hprop.1 req hreq).2
              (h.metas_le req.queueId)
            refine h.added hlog happ hargs hold (fun q m hm => (hnew q m hm).imp id And.right) ?_
            intro req' hreq'
            rw [hreq] at hreq'
            cases hreq'
            exact hmem
      | compare ds =>
        have hne : s.applying ≠ .add := by
          rw [happ]
          exact fun h => nomatch h
        have hds : ∀ d ∈ ds, d.prevCursorId < uint64Max := by
          have hd := h.details
          rwa [happ] at hd
        cases ds with
        | nil =>
          refine h.setApplying ?_ fun d hd => nomatch hd
          unfold Replica.donePos
          rw [if_neg hne]
          exact le_rfl
        | cons d ds =>
          dsimp only
          cases hcur : s.sync.getCursorID cfg.opt d.consumerGroupId d.queueId with
          | ok cur =>
            dsimp only
            split
            · exact h.setApplying (hdone _ hne) fun d' hd' => hds d' (List.mem_cons_of_mem _ hd')
            · exact h.setApplying (hdone _ hne) hds
          | error e => exact h.setApplying (hdone _ hne) hds
      | writePrev d ds =>
        have hne : s.applying ≠ .add := by
          rw [happ]
          exact fun h => nomatch h
        have hds : ∀ d' ∈ d :: ds, d'.prevCursorId < uint64Max := by
          have hd := h.details
          rwa [happ] at hd
        dsimp only
        cases hu : s.sync.updateCursorID cfg.opt d.consumerGroupId d.queueId d.prevCursorId
            true with
        | error e => exact h.setApplying (hdone _ hne) fun d hd => nomatch hd
        | ok sync =>
          have hd := hds d List.mem_cons_self
          have h' := h.setSync (updateCursorID_grows hu) (h.sync.updateCursorID (fun _ => hd.ne) hu)
          exact h'.setApplying (hdone _ hne) hds
      | writeNext d ds =>
        have hne : s.applying ≠ .add := by
          rw [happ]
          exact fun h => nomatch h
        have hds : ∀ d' ∈ d :: ds, d'.prevCursorId < uint64Max := by
          have hd := h.details
          rwa [happ] at hd
        dsimp only
        cases hu : s.sync.updateCursorID cfg.opt d.consumerGroupId d.queueId d.prevCursorId
            false with
        | error e => exact h.setApplying (hdone _ hne) fun d hd => nomatch hd
        | ok sync =>
          have hne' : false = true → d.prevCursorId ≠ uint64Max := fun hf => nomatch hf
          have h' := h.setSync (updateCursorID_grows hu) (h.sync.updateCursorID hne' hu)
          exact h'.setApplying (hdone _ hne) fun d' hd' => hds d' (List.mem_cons_of_mem _ hd')

/-! ## Get -/

lemma Replica.Inv.getStep (h : s.Inv cfg log) (n : ℕ) (timeUp : Bool) :
    (s.getStep cfg log n timeUp).Inv cfg log := by
  unfold Replica.getStep
  cases ht : s.gets n with
  | none => exact h
  | some t =>
    dsimp only
    cases hph : t.phase with
    | svrPrev => exact h.setGets _
    | checkPoint => exact h.setGets _
    | minInstance => exact h.setGets _
    | loop => exact h.setGets _
    | items cur =>
      dsimp only
      split <;> exact h.setGets _
    | updatePrev =>
      dsimp only
      split
      · exact h.setGets _
      split
      · exact h.setGets _
      rename_i hne
      cases hu : s.sync.updateCursorID cfg.opt t.req.consumerGroupId t.req.queueId t.prev
          true with
      | error e => exact h.setGets _
      | ok sync =>
        have h' := h.setSync (updateCursorID_grows hu) (h.sync.updateCursorID (fun _ => hne) hu)
        exact h'.setGets _
    | updateNext =>
      dsimp only
      split
      · exact h.setGets _
      cases hu : s.sync.updateCursorID cfg.opt t.req.consumerGroupId t.req.queueId t.next
          false with
      | error e => exact h.setGets _
      | ok sync =>
        have hne : false = true → t.next ≠ uint64Max := fun hf => nomatch hf
        have h' := h.setSync (updateCursorID_grows hu) (h.sync.updateCursorID hne hu)
        exact h'.setGets _
    | done => exact h

/-! ## Checkpoint rounds -/

lemma RoundOk.start (h : s.Inv cfg log) :
    RoundOk cfg s.now s.metas s.sync s.checkPoint (s.startRound cfg) where
  nowInstance_le := le_rfl
  queues := fun _ hq => hq
  examined := fun _ hq => .inl hq
  emptied := fun _ hq => nomatch hq
  fronts_le := fun _ hf => nomatch hf
  cp := .inl ⟨rfl, rfl, rfl⟩
  stored := ⟨h.cp_le_now, fun _ hf => nomatch hf⟩
  groups := fun _ _ _ hmem _ => .inl hmem

section
variable {r : CheckRound} {q : ℕ} {qs : List ℕ}

/-- Reading one more cursor: the minimum stays acknowledged by all groups read. -/
lemma RoundOk.readCursor (h : RoundOk cfg s.now s.metas s.sync s.checkPoint r)
    (hsync : SyncOk s.sync) {g : ℕ} {gs : List ℕ} (hq : r.queues = q :: qs)
    (hg : r.groups = g :: gs) :
    RoundOk cfg s.now s.metas s.sync s.checkPoint
      { s.readCursor cfg r q g with groups := gs } := by
  have hmemq : q ∈ cfg.queues := h.queues q (hq ▸ List.mem_cons_self)
  -- reading changes the minimum and the update flag only
  obtain ⟨p, u, heq, hkeep, hread⟩ : ∃ p u,
      s.readCursor cfg r q g = { r with minPrev := p, needUpdate := u } ∧
      (∀ l, r.needUpdate = false ∨ (r.minPrev ≠ uint64Max ∧ level r.minPrev ≤ l) →
        u = false ∨ (p ≠ uint64Max ∧ level p ≤ l)) ∧
      (cfg.isConsumer q g → g ∈ cfg.consumerGroups →
        u = false ∨ (p ≠ uint64Max ∧ level p ≤ (s.sync q g).acked)) := by
    unfold Replica.readCursor
    by_cases hc : cfg.isConsumer q g
    · rw [if_pos hc]
      cases hcur : s.sync.getCursorID cfg.opt g q with
      | ok p =>
        obtain ⟨_, hp⟩ := SyncCtrl.getCursorID_ok hcur
        obtain ⟨hne, hle⟩ := hsync q g p hp
        dsimp only
        by_cases hlt : r.minPrev = uint64Max ∨ p < r.minPrev
        · rw [if_pos hlt]
          refine ⟨p, r.needUpdate, rfl, ?_, fun _ _ => .inr ⟨hne, hle⟩⟩
          rintro l (hu | ⟨hmin, hl⟩)
          · exact .inl hu
          · refine .inr ⟨hne, ?_⟩
            have hlt := hlt.resolve_left hmin
            rw [level_of_ne hmin] at hl
            rw [level_of_ne hne]
            omega
        · rw [if_neg hlt]
          refine ⟨r.minPrev, r.needUpdate, rfl, fun _ hl => hl, fun _ _ => .inr ?_⟩
          obtain ⟨hmin, hnlt⟩ := not_or.mp hlt
          refine ⟨hmin, ?_⟩
          rw [level_of_ne hne] at hle
          rw [level_of_ne hmin]
          omega
      | error e =>
        dsimp only
        rcases SyncCtrl.getCursorID_error hcur with ⟨rfl, hin⟩ | ⟨rfl, _⟩
        · refine ⟨r.minPrev, r.needUpdate, rfl, fun _ hl => hl, fun _ hmem => ?_⟩
          obtain ⟨h0, hle⟩ := StoreConfig.mem_consumerGroups.mp hmem
          exact absurd ⟨h0, hle, (StoreConfig.mem_queues.mp hmemq).1⟩ hin
        · exact ⟨r.minPrev, false, rfl, fun _ _ => .inl rfl, fun _ _ => .inl rfl⟩
    · rw [if_neg hc]
      exact ⟨r.minPrev, r.needUpdate, rfl, fun _ hl => hl, fun hc' => absurd hc' hc⟩
  rw [heq]
  refine ⟨h.nowInstance_le, h.queues, h.examined, h.emptied, h.fronts_le, h.cp, h.stored, ?_⟩
  intro q' hq' g' hmem hc
  have hq' : q' ∈ r.queues.head? := hq'
  rw [hq] at hq'
  cases hq'
  rcases h.groups q (hq ▸ rfl) g' hmem hc with hg' | hg'
  · rw [hg] at hg'
    rcases List.mem_cons.mp hg' with rfl | hg'
    · exact .inr (hread hc hmem)
    · exact .inl hg'
  · exact .inr (hkeep _ hg')

/-- What the round may erase has been acknowledged by every consumer group. -/
lemma RoundOk.acked (h : RoundOk cfg s.now s.metas s.sync s.checkPoint r)
    (hq : r.queues = q :: qs) (hg : r.groups = []) (hu : r.needUpdate) {i : ℕ}
    (hi : r.minPrev = uint64Max ∨ i < level r.minPrev) : AckedByAll cfg s.sync q i := by
  intro g hmem hc
  rcases h.groups q (hq ▸ rfl) g hmem hc with hg' | hu' | ⟨hne, hle⟩
  · rw [hg] at hg'
    cases hg'
  · rw [hu] at hu'
    cases hu'
  · exact (hi.resolve_left hne).trans_le hle

lemma RoundOk.shrink (h : RoundOk cfg s.now s.metas s.sync s.checkPoint r)
    {metas : ℕ → StoreMetaQueue} (hm : ∀ q m, m ∈ metas q → m ∈ s.metas q) :
    RoundOk cfg s.now metas s.sync s.checkPoint { r with updated := true } where
  nowInstance_le := h.nowInstance_le
  queues := h.queues
  examined := by
    intro q hq
    rcases h.examined q hq with hq | hq | ⟨hne, hq⟩
    · exact .inl hq
    · exact .inr (.inl hq)
    · exact .inr (.inr ⟨hne, fun m hmem => hq m (hm q m hmem)⟩)
  emptied := fun q hq => ⟨(h.emptied q hq).1, fun m hmem => (h.emptied q hq).2 m (hm q m hmem)⟩
  fronts_le := h.fronts_le
  cp := h.cp
  stored := h.stored
  groups := h.groups

lemma Replica.Inv.updateMetas (h : s.Inv cfg log)
    (hr : RoundOk cfg s.now s.metas s.sync s.checkPoint r) (hq : r.queues = q :: qs)
    (hg : r.groups = []) :
    ({ s with
      metas := if r.needUpdate then
          Function.update s.metas q (if r.minPrev = uint64Max then ∅
            else (s.metas q).eraseFrontTill r.minPrev)
        else s.metas
      keepSync := .checkPoint { r with updated := true } } : Replica).Inv cfg log := by
  by_cases hu : r.needUpdate
  · rw [if_pos hu]
    have hsub : ∀ q' m, m ∈ Function.update s.metas q (if r.minPrev = uint64Max then ∅
        else (s.metas q).eraseFrontTill r.minPrev) q' → m ∈ s.metas q' := by
      intro q' m hm
      by_cases hqq : q' = q
      · subst hqq
        rw [Function.update_self] at hm
        split at hm
        · exact absurd hm (Finset.notMem_empty m)
        · exact (StoreMetaQueue.mem_eraseFrontTill.mp hm).1
      · rwa [Function.update_of_ne hqq] at hm
    have hret : ∀ q' i, Retained cfg s.metas s.sync q' i →
        Retained cfg (Function.update s.metas q (if r.minPrev = uint64Max then ∅
          else (s.metas q).eraseFrontTill r.minPrev)) s.sync q' i := by
      intro q' i hi
      by_cases hqq : q' = q
      · subst hqq
        rcases hi with hi | hi
        · by_cases herased : r.minPrev = uint64Max ∨ i < level r.minPrev
          · exact .inr (hr.acked hq hg hu herased)
          · obtain ⟨hne, hle⟩ := not_or.mp herased
            refine .inl ?_
            rw [Function.update_self, if_neg hne]
            exact StoreMetaQueue.mem_eraseFrontTill.mpr ⟨hi, not_lt.mp hle⟩
        · exact .inr hi
      · unfold Retained
        rwa [Function.update_of_ne hqq]
    exact ⟨h.now_le, h.donePos_le, h.details, fun q' m hm => h.metas_le q' m (hsub q' m hm),
      fun q' i hi hne => hret q' i (h.held q' i hi hne),
      fun k args req hk ha hreq hne => hret _ _ (h.heldNow k args req hk ha hreq hne),
      h.sync, h.cp_le_now, fun q' hq' m hm => h.cp_le_metas q' hq' m (hsub q' m hm),
      h.minChosen_le, hr.shrink hsub⟩
  · rw [if_neg hu]
    exact h.setKeepSync (hr.shrink fun _ _ hm => hm)

lemma readFront_none (hf : (s.metas q).front = none) :
    s.readFront r q = { r with emptied := q :: r.emptied } := by
  unfold Replica.readFront
  rw [hf]

/-- The checkpoint after the head of one more queue. -/
def lowerCp (cp tmp : ℕ) : ℕ := if cp = uint64Max ∨ tmp < cp then tmp else cp

lemma readFront_zero (hf : (s.metas q).front = some 0) :
    s.readFront r q =
      { r with cp := uint64Max, finish := true, fronts := 0 :: r.fronts } := by
  unfold Replica.readFront
  rw [hf]
  simp only [pred64_zero, if_true, true_or]

lemma readFront_pos {m : ℕ} (hf : (s.metas q).front = some m) (h0 : 0 < m) (hm : m < uint64Max) :
    s.readFront r q = { r with cp := lowerCp r.cp (m - 1), fronts := m :: r.fronts } := by
  have hne : m - 1 ≠ uint64Max := by omega
  unfold Replica.readFront
  rw [hf]
  simp only [pred64_of_pos h0 hm.le, if_neg hne]
  rfl

lemma RoundOk.readFront (h : RoundOk cfg s.now s.metas s.sync s.checkPoint r)
    (hinv : s.Inv cfg log) (hlog : LogOk cfg log) (hq : r.queues = q :: qs)
    (hfin : r.finish = false) :
    RoundOk cfg s.now s.metas s.sync s.checkPoint
      { s.readFront r q with
        queues := qs, groups := cfg.consumerGroups, minPrev := uint64Max, needUpdate := true,
        updated := false } := by
  have hmemq : q ∈ cfg.queues := h.queues q (hq ▸ List.mem_cons_self)
  have hqs : ∀ q' ∈ qs, q' ∈ cfg.queues := fun q' hq' =>
    h.queues q' (hq ▸ List.mem_cons_of_mem q hq')
  cases hf : (s.metas q).front with
  | none =>
    have hempty := StoreMetaQueue.front_eq_none.mp hf
    rw [readFront_none hf]
    refine ⟨h.nowInstance_le, hqs, ?_, ?_, h.fronts_le, h.cp, h.stored,
      fun _ _ _ hmem _ => .inl hmem⟩
    · intro q' hq'
      rcases h.examined q' hq' with hq' | hq' | hq'
      · rw [hq] at hq'
        rcases List.mem_cons.mp hq' with rfl | hq'
        · exact .inr (.inl List.mem_cons_self)
        · exact .inl hq'
      · exact .inr (.inl (List.mem_cons_of_mem _ hq'))
      · exact .inr (.inr hq')
    · intro q' hq'
      rcases List.mem_cons.mp hq' with rfl | hq'
      · refine ⟨hmemq, fun m hm => ?_⟩
        rw [hempty] at hm
        exact absurd hm (Finset.notMem_empty m)
      · exact h.emptied q' hq'
  | some m =>
    have hm := StoreMetaQueue.front_mem hf
    have hmnow := hinv.metas_le q m hm
    have hmmax : m < uint64Max := (hmnow.trans hinv.now_le).trans_lt hlog.length_lt
    have hexamined : ∀ q' ∈ cfg.queues, q' ∈ qs ∨ q' ∈ r.emptied ∨
        (m :: r.fronts ≠ [] ∧ ∀ m' ∈ s.metas q', ∃ f ∈ m :: r.fronts, f ≤ m') := by
      intro q' hq'
      rcases h.examined q' hq' with hq' | hq' | ⟨_, hq'⟩
      · rw [hq] at hq'
        rcases List.mem_cons.mp hq' with rfl | hq'
        · exact .inr (.inr ⟨List.cons_ne_nil _ _, fun m' hm' =>
            ⟨m, List.mem_cons_self, StoreMetaQueue.front_le hf hm'⟩⟩)
        · exact .inl hq'
      · exact .inr (.inl hq')
      · refine .inr (.inr ⟨List.cons_ne_nil _ _, fun m' hm' => ?_⟩)
        obtain ⟨f, hmem, hle⟩ := hq' m' hm'
        exact ⟨f, List.mem_cons_of_mem m hmem, hle⟩
    have hfronts : ∀ f ∈ m :: r.fronts, f ≤ s.now := by
      intro f hf'
      rcases List.mem_cons.mp hf' with rfl | hf'
      · exact hmnow
      · exact h.fronts_le f hf'
    have hstored : ∀ f ∈ m :: r.fronts, level s.checkPoint ≤ f := by
      intro f hf'
      rcases List.mem_cons.mp hf' with rfl | hf'
      · exact hinv.cp_le_metas q hmemq f hm
      · exact h.stored.2 f hf'
    by_cases h0 : m = 0
    · subst h0
      rw [readFront_zero hf]
      exact ⟨h.nowInstance_le, hqs, hexamined, h.emptied, hfronts,
        .inr (.inr ⟨List.mem_cons_self, rfl, rfl⟩), ⟨h.stored.1, hstored⟩,
        fun _ _ _ hmem _ => .inl hmem⟩
    · have hpos := Nat.pos_of_ne_zero h0
      have hne : m - 1 ≠ uint64Max := by omega
      rw [readFront_pos hf hpos hmmax]
      refine ⟨h.nowInstance_le, hqs, hexamined, h.emptied, hfronts, .inr (.inl ?_),
        ⟨h.stored.1, hstored⟩, fun _ _ _ hmem _ => .inl hmem⟩
      have hleast : lowerCp r.cp (m - 1) = m - 1 ∧ (∀ f ∈ r.fronts, m - 1 < f) ∨
          lowerCp r.cp (m - 1) = r.cp ∧ r.cp ≠ uint64Max ∧ r.cp + 1 ∈ r.fronts ∧ r.cp < m ∧
            ∀ f ∈ r.fronts, r.cp < f := by
        unfold lowerCp
        rcases h.cp with ⟨hnil, hcp, _⟩ | ⟨_, hcp, hmin, hlt⟩ | ⟨_, _, hfin'⟩
        · rw [if_pos (.inl hcp), hnil]
          exact .inl ⟨rfl, fun _ hf' => nomatch hf'⟩
        · by_cases hsmall : m - 1 < r.cp
          · rw [if_pos (.inr hsmall)]
            exact .inl ⟨rfl, fun f hf' => hsmall.trans (hlt f hf')⟩
          · rw [if_neg (not_or.mpr ⟨hcp, hsmall⟩)]
            exact .inr ⟨rfl, hcp, hmin, by omega, hlt⟩
        · rw [hfin] at hfin'
          cases hfin'
      refine ⟨hfin, ?_⟩
      rcases hleast with ⟨heq, hlt⟩ | ⟨heq, hcp, hmin, hm', hlt⟩
      · show lowerCp r.cp (m - 1) ≠ uint64Max ∧ lowerCp r.cp (m - 1) + 1 ∈ m :: r.fronts ∧
          ∀ f ∈ m :: r.fronts, lowerCp r.cp (m - 1) < f
        rw [heq, Nat.sub_add_cancel hpos]
        refine ⟨hne, List.mem_cons_self, fun f hf' => ?_⟩
        rcases List.mem_cons.mp hf' with rfl | hf'
        · omega
        · exact hlt f hf'
      · show lowerCp r.cp (m - 1) ≠ uint64Max ∧ lowerCp r.cp (m - 1) + 1 ∈ m :: r.fronts ∧
          ∀ f ∈ m :: r.fronts, lowerCp r.cp (m - 1) < f
        rw [heq]
        refine ⟨hcp, List.mem_cons_of_mem _ hmin, fun f hf' => ?_⟩
        rcases List.mem_cons.mp hf' with rfl | hf'
        · exact hm'
        · exact hlt f hf'

/-- The checkpoint of a finished round: what had been executed before it, or the least head. -/
lemma RoundOk.level_dumpCp (h : RoundOk cfg s.now s.metas s.sync s.checkPoint r)
    (hnow : s.now < uint64Max) :
    (r.finish = false ∧ r.fronts = [] ∧ level r.dumpCp = r.nowInstanceId) ∨
      (r.finish = false ∧ level r.dumpCp ∈ r.fronts ∧ ∀ f ∈ r.fronts, level r.dumpCp ≤ f) ∨
      (r.finish = true ∧ 0 ∈ r.fronts ∧ level r.dumpCp = 0) := by
  have hinst := h.nowInstance_le
  unfold CheckRound.dumpCp
  rcases h.cp with ⟨hnil, hcp, hfin⟩ | ⟨hfin, hcp, hmin, hlt⟩ | ⟨hmem, hcp, hfin⟩
  · refine .inl ⟨hfin, hnil, ?_⟩
    rw [if_pos ⟨hcp, by rw [hfin]; exact Bool.false_ne_true⟩]
    by_cases h0 : r.nowInstanceId = 0
    · rw [h0, pred64_zero, level_uint64Max]
    · have hpos := Nat.pos_of_ne_zero h0
      rw [pred64_of_pos hpos (by omega), level_of_lt (by omega)]
      omega
  · refine .inr (.inl ⟨hfin, ?_⟩)
    rw [if_neg fun hn => hcp hn.1, level_of_ne hcp]
    exact ⟨hmin, hlt⟩
  · refine .inr (.inr ⟨hfin, hmem, ?_⟩)
    rw [if_neg fun hn => hn.2 hfin, hcp, level_uint64Max]

end

/-- `DumpCheckPoint` never lowers the checkpoint. -/
lemma level_dumpCheckPoint (s : Replica) (cp : ℕ) :
    level (s.dumpCheckPoint cp).checkPoint = max (level s.checkPoint) (level cp) := by
  unfold Replica.dumpCheckPoint
  by_cases hcp : cp = uint64Max
  · rw [if_pos hcp, hcp, level_uint64Max, Nat.max_zero]
  · rw [if_neg hcp]
    by_cases hkeep : s.checkPoint ≠ uint64Max ∧ s.checkPoint > cp
    · rw [if_pos hkeep, level_of_ne hkeep.1, level_of_ne hcp]
      omega
    · rw [if_neg hkeep]
      show level cp = max (level s.checkPoint) (level cp)
      by_cases hs : s.checkPoint = uint64Max
      · rw [hs, level_uint64Max, Nat.zero_max]
      · have hle : ¬ s.checkPoint > cp := fun hgt => hkeep ⟨hs, hgt⟩
        rw [level_of_ne hs, level_of_ne hcp]
        omega

lemma dumpCheckPoint_eq (s : Replica) (cp : ℕ) :
    s.dumpCheckPoint cp = { s with checkPoint := (s.dumpCheckPoint cp).checkPoint } := by
  unfold Replica.dumpCheckPoint
  split
  · rfl
  split <;> rfl

section
variable {r : CheckRound}

/-- **The dump** of a round that has not been overtaken. -/
lemma Replica.Inv.dump (h : s.Inv cfg log) (hlog : LogOk cfg log)
    (hr : RoundOk cfg s.now s.metas s.sync s.checkPoint r) (hend : r.queues = [] ∨ r.finish)
    (hok : ∀ q ∈ r.emptied, ∀ m ∈ s.metas q, r.fronts = [] ∨ ∃ f ∈ r.fronts, f ≤ m) :
    ({ s.dumpCheckPoint r.dumpCp with keepSync := .idle } : Replica).Inv cfg log := by
  have hcases := hr.level_dumpCp (h.now_le.trans_lt hlog.length_lt)
  have hnow : level r.dumpCp ≤ s.now := by
    rcases hcases with ⟨_, _, hl⟩ | ⟨_, hmem, _⟩ | ⟨_, _, hl⟩
    · rw [hl]
      exact hr.nowInstance_le
    · exact hr.fronts_le _ hmem
    · rw [hl]
      exact Nat.zero_le _
  have hmetas : ∀ q ∈ cfg.queues, ∀ m ∈ s.metas q, level r.dumpCp ≤ m := by
    intro q hq m hm
    have hdone : r.finish = false → q ∈ r.emptied ∨
        (r.fronts ≠ [] ∧ ∀ m ∈ s.metas q, ∃ f ∈ r.fronts, f ≤ m) := by
      intro hfin
      have hnil := hend.resolve_right (by rw [hfin]; exact Bool.false_ne_true)
      rcases hr.examined q hq with hq' | hq'
      · rw [hnil] at hq'
        cases hq'
      · exact hq'
    rcases hcases with ⟨hfin, hnil, hl⟩ | ⟨hfin, hmin, hle⟩ | ⟨_, _, hl⟩
    · rw [hl]
      rcases hdone hfin with hq' | ⟨hne, _⟩
      · exact (hr.emptied q hq').2 m hm
      · exact absurd hnil hne
    · have hf : ∃ f ∈ r.fronts, f ≤ m := by
        rcases hdone hfin with hq' | ⟨_, hq'⟩
        · rcases hok q hq' m hm with hnil | hf
          · rw [hnil] at hmin
            cases hmin
          · exact hf
        · exact hq' m hm
      obtain ⟨f, hmem, hfm⟩ := hf
      exact (hle f hmem).trans hfm
    · rw [hl]
      exact Nat.zero_le _
  have hlevel := level_dumpCheckPoint s r.dumpCp
  rw [dumpCheckPoint_eq]
  refine ⟨h.now_le, h.donePos_le, h.details, h.metas_le, h.held, h.heldNow, h.sync, ?_, ?_, ?_,
    trivial⟩
  · show level (s.dumpCheckPoint r.dumpCp).checkPoint ≤ s.now
    rw [hlevel]
    exact max_le h.cp_le_now hnow
  · intro q hq m hm
    show level (s.dumpCheckPoint r.dumpCp).checkPoint ≤ m
    rw [hlevel]
    exact max_le (h.cp_le_metas q hq m hm) (hmetas q hq m hm)
  · show s.minChosen ≤ level (s.dumpCheckPoint r.dumpCp).checkPoint
    rw [hlevel]
    exact h.minChosen_le.trans (le_max_left _ _)

theorem Replica.Inv.roundStep (h : s.Inv cfg log) (hlog : LogOk cfg log)
    (hr : RoundOk cfg s.now s.metas s.sync s.checkPoint r)
    (hok : r.queues = [] ∨ r.finish → ∀ q ∈ r.emptied, ∀ m ∈ s.metas q,
      r.fronts = [] ∨ ∃ f ∈ r.fronts, f ≤ m) : (s.roundStep cfg r).Inv cfg log := by
  unfold Replica.roundStep
  split
  · rename_i hq
    exact h.dump hlog hr (.inl hq) (hok (.inl hq))
  · rename_i q qs hq
    split
    · rename_i hfin
      exact h.dump hlog hr (.inr hfin) (hok (.inr hfin))
    · rename_i hfin
      have hfin : r.finish = false := Bool.eq_false_iff.mpr hfin
      split
      · rename_i g gs hg
        exact h.setKeepSync (hr.readCursor h.sync hq hg)
      · rename_i hg
        split
        · exact h.setKeepSync (hr.readFront h hlog hq hfin)
        · exact h.updateMetas hr hq hg

end

/-! ## All steps -/

lemma Replica.Inv.init : ({} : Replica).Inv cfg [] where
  now_le := le_rfl
  donePos_le := le_rfl
  details := fun _ hd => nomatch hd
  metas_le := fun _ m hm => absurd hm (Finset.notMem_empty m)
  held := fun _ i hi => absurd hi (Nat.not_lt_zero i)
  heldNow := fun k _ _ hk => absurd hk (Nat.not_lt_zero k)
  sync := fun _ _ _ hp => nomatch hp
  cp_le_now := by
    show level uint64Max ≤ 0
    rw [level_uint64Max]
  cp_le_metas := fun _ _ m hm => absurd hm (Finset.notMem_empty m)
  minChosen_le := Nat.zero_le _
  keepSync := trivial

lemma Replica.Inv.append (h : s.Inv cfg log) (batch : List StorePaxosArgs) :
    s.Inv cfg (log ++ [batch]) := by
  have hdone : s.now = log.length → s.donePos = 0 := by
    intro hnow
    have hle := h.donePos_le
    unfold valuesOf at hle
    rw [hnow, List.getElem?_eq_none le_rfl] at hle
    exact Nat.le_zero.mp hle
  refine ⟨?_, ?_, h.details, h.metas_le, ?_, ?_, h.sync, h.cp_le_now, h.cp_le_metas,
    h.minChosen_le, h.keepSync⟩
  · rw [List.length_append]
    exact h.now_le.trans (Nat.le_add_right _ _)
  · rcases h.now_le.lt_or_eq with hlt | heq
    · rw [valuesOf_append hlt]
      exact h.donePos_le
    · rw [hdone heq]
      exact Nat.zero_le _
  · intro q i hi hne
    rw [itemsOf_append (hi.trans_le h.now_le)] at hne
    exact h.held q i hi hne
  · intro k args req hk hargs
    rcases h.now_le.lt_or_eq with hlt | heq
    · rw [valuesOf_append hlt] at hargs
      exact h.heldNow k args req hk hargs
    · rw [hdone heq] at hk
      exact absurd hk (Nat.not_lt_zero k)

lemma LogOk.append (h : LogOk cfg log) {batch : List StorePaxosArgs}
    (hb : ∀ args ∈ batch, Proposable cfg args) (hlt : log.length + 1 < uint64Max) :
    LogOk cfg (log ++ [batch]) where
  proposable := by
    intro b hmem
    rcases List.mem_append.mp hmem with hmem | hmem
    · exact h.proposable b hmem
    · rw [List.mem_singleton.mp hmem]
      exact hb
  length_lt := by
    rw [List.length_append]
    exact hlt

/-- A restart forgets the metas of the instances up to the checkpoint, all acknowledged. -/
lemma Replica.Inv.restart (h : s.Inv cfg log) (hlog : LogOk cfg log) :
    ({ s with
      now := level s.checkPoint, pos := 0, applying := .add, metas := fun _ => ∅,
      gets := fun _ => none, keepSync := .idle } : Replica).Inv cfg log where
  now_le := h.cp_le_now.trans h.now_le
  donePos_le := Nat.zero_le _
  details := fun _ hd => nomatch hd
  metas_le := fun _ m hm => absurd hm (Finset.notMem_empty m)
  held := fun _ _ hi hne => .inr (h.acked_of_lt_cp hlog hi hne)
  heldNow := fun k _ _ hk => absurd hk (Nat.not_lt_zero k)
  sync := h.sync
  cp_le_now := le_rfl
  cp_le_metas := fun _ _ m hm => absurd hm (Finset.notMem_empty m)
  minChosen_le := h.minChosen_le
  keepSync := trivial

/-- **Every step of a replica that does not dump an overtaken round keeps the invariant.** -/
theorem Replica.Inv.step (h : s.Inv cfg log) (hlog : LogOk cfg log) {e : StoreEvent}
    (hok : NotOvertaken s e) : (s.step cfg log e).Inv cfg log := by
  cases e with
  | execute => exact h.executeStep hlog
  | startGet n req =>
    dsimp only [Replica.step, Replica.startGetStep]
    split
    · exact h
    split
    · split
      · exact h
      · exact h.setGets _
    · exact h
  | get n timeUp => exact h.getStep n timeUp
  | endGet n =>
    dsimp only [Replica.step, Replica.endGet]
    split
    · exact h
    split
    · exact h.setGets _
    · exact h.setGets _
    · exact h
  | startRound =>
    dsimp only [Replica.step]
    split
    · exact h.setKeepSync (RoundOk.start h)
    · exact h
  | startSync =>
    dsimp only [Replica.step]
    split
    · exact h.setKeepSync trivial
    · exact h
  | startReplay q g r =>
    dsimp only [Replica.step, Replica.startReplay]
    split
    · split
      · rename_i hr
        split
        · split
          · exact h
          · have hlt : r < uint64Max := by
              have := hlog.length_lt
              have := h.now_le
              have := hr.2.2.2
              omega
            exact h.setKeepSync hlt.ne
        · exact h
      · exact h
    · exact h
  | keepSync =>
    dsimp only [Replica.step, Replica.keepSyncStep]
    cases hk : s.keepSync with
    | idle => exact h
    | checkPoint r =>
      have hr := h.keepSync
      rw [hk] at hr
      refine h.roundStep hlog hr fun hend => hok r ?_ hend
      rw [hk]
      rfl
    | sync todo details =>
      cases todo with
      | nil => exact h.setKeepSync trivial
      | cons x todo =>
        dsimp only
        split <;> exact h.setKeepSync trivial
    | replay q g r isPrev =>
      have hr : r ≠ uint64Max := by
        have hr := h.keepSync
        rwa [hk] at hr
      dsimp only
      have hk' : KeepSyncOk cfg s.now s.metas s.sync s.checkPoint
          (if isPrev then .replay q g r false else .idle) := by
        split
        · exact hr
        · trivial
      cases hu : s.sync.updateCursorID cfg.opt g q r isPrev with
      | error e => exact h.setKeepSync hk'
      | ok sync =>
        have h' := h.setSync (updateCursorID_grows hu) (h.sync.updateCursorID (fun _ => hr) hu)
        refine h'.setKeepSync ?_
        exact hk'.grows le_rfl (fun _ _ hm => .inl hm) (updateCursorID_grows hu)
  | clear q g =>
    dsimp only [Replica.step]
    split
    · split
      · exact h
      split
      · obtain ⟨hg, hok⟩ := @SyncOk.clearCursorID cfg _ h.sync g q
        exact h.setSync hg hok
      · exact h
    · exact h
  | truncate m =>
    dsimp only [Replica.step]
    split
    · rename_i hm
      exact ⟨h.now_le, h.donePos_le, h.details, h.metas_le, h.held, h.heldNow, h.sync,
        h.cp_le_now, h.cp_le_metas, hm.2, h.keepSync⟩
    · exact h
  | restart => exact h.restart hlog

end

end PhxQueue.Store
