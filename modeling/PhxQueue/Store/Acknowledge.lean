import PhxQueue.Store.Delivery
import PhxQueue.Store.Cluster

/-!
# Acknowledgement is safe

A consumer acknowledges by asking for what comes after a response, so nothing in the messages says
what has been acknowledged.  What goes around are cursors, and a cursor may be trusted if the items
below it have been acknowledged.

* `Covered`, `Safe`    the items below a cursor have been acknowledged, or are in a response;
* `Fetching`, `Tracked`   what a running `Get` has covered, and the cursors of a replica;
* `Cluster.Inv`        every cursor of a cluster is safe;
* `ackSafe_run`        **no prev cursor passes an item that has not been acknowledged, as long as no
                       round is overtaken**;
* `lostItem_not_ackSafe`   one that does.
-/

set_option linter.unusedSectionVars false

namespace PhxQueue.Store
open Comm Lib Config

/-! ## Cursors that may be trusted -/

section
variable (cfg : StoreConfig)

/-- The items below the cursor have been acknowledged or are among `items`. -/
def Covered (log : Log) (acks : List Reply) (q g : ℕ) (items : List QItem) (c : ℕ) : Prop :=
  c ≤ log.length ∧ ∀ i item, i < c → Wanted cfg log q g i item →
    item ∈ items ∨ Acknowledged acks q g item

def Safe (log : Log) (acks : List Reply) (q g c : ℕ) : Prop := Covered cfg log acks q g [] c

end

/-- The log has grown, and more has been acknowledged. -/
structure Later (log : Log) (acks : List Reply) (log' : Log) (acks' : List Reply) : Prop where
  length : log.length ≤ log'.length
  items : ∀ q i, i < log.length → itemsOf log' q i = itemsOf log q i
  acks : acks ⊆ acks'

lemma Later.refl (log : Log) (acks : List Reply) : Later log acks log acks :=
  ⟨le_rfl, fun _ _ _ => rfl, fun _ h => h⟩

lemma Later.append (log : Log) (batch : List StorePaxosArgs) (acks : List Reply) :
    Later log acks (log ++ [batch]) acks where
  length := by
    rw [List.length_append]
    exact Nat.le_add_right _ _
  items := fun _ _ hi => itemsOf_append hi batch _
  acks := fun _ h => h

lemma Later.acknowledge (log : Log) (acks new : List Reply) :
    Later log acks log (acks ++ new) :=
  ⟨le_rfl, fun _ _ _ => rfl, fun _ h => List.mem_append_left _ h⟩

section
variable {cfg : StoreConfig} {log log' : Log} {acks acks' : List Reply} {q g c d : ℕ}
  {items items' : List QItem}

lemma Acknowledged.mono (hsub : acks ⊆ acks') {item : QItem} (h : Acknowledged acks q g item) :
    Acknowledged acks' q g item := by
  obtain ⟨reply, hmem, hreply⟩ := h
  exact ⟨reply, hsub hmem, hreply⟩

lemma Covered.later (h : Covered cfg log acks q g items c) (hl : Later log acks log' acks') :
    Covered cfg log' acks' q g items c := by
  refine ⟨h.1.trans hl.length, fun i item hi hw => ?_⟩
  obtain ⟨hmem, hinfo⟩ := hw
  rw [hl.items q i (hi.trans_le h.1)] at hmem
  exact (h.2 i item hi ⟨hmem, hinfo⟩).imp id (Acknowledged.mono hl.acks)

lemma Covered.le (h : Covered cfg log acks q g items c) (hle : d ≤ c) :
    Covered cfg log acks q g items d :=
  ⟨hle.trans h.1, fun i item hi => h.2 i item (hi.trans_le hle)⟩

lemma Covered.subset (h : Covered cfg log acks q g items c) (hsub : items ⊆ items') :
    Covered cfg log acks q g items' c :=
  ⟨h.1, fun i item hi hw => (h.2 i item hi hw).imp (fun hmem => hsub hmem) id⟩

lemma Safe.covered (h : Safe cfg log acks q g c) (items : List QItem) :
    Covered cfg log acks q g items c := Covered.subset h (List.nil_subset items)

lemma Safe.acknowledged (h : Safe cfg log acks q g c) {i : ℕ} (hi : i < c) {item : QItem}
    (hw : Wanted cfg log q g i item) : Acknowledged acks q g item :=
  (h.2 i item hi hw).resolve_left List.not_mem_nil

lemma safe_zero : Safe cfg log acks q g 0 :=
  ⟨Nat.zero_le _, fun i _ hi => absurd hi (Nat.not_lt_zero i)⟩

lemma Safe.max (hc : Safe cfg log acks q g c) (hd : Safe cfg log acks q g d) :
    Safe cfg log acks q g (max c d) := by
  rcases max_choice c d with h | h
  · rw [h]
    exact hc
  · rw [h]
    exact hd

lemma Covered.safe {reply : Reply} (h : Covered cfg log acks q g reply.resp.items c)
    (hmem : reply ∈ acks) (hq : reply.req.queueId = q) (hg : reply.req.consumerGroupId = g) :
    Safe cfg log acks q g c := by
  refine ⟨h.1, fun i item hi hw => .inr ?_⟩
  rcases h.2 i item hi hw with hitem | hack
  · exact ⟨reply, hmem, hq, hg, hitem⟩
  · exact hack

end

/-! ## The invariant of a replica -/

section
variable (cfg : StoreConfig)

/-- A running `Get`: what it publishes is safe, and it covers what lies below its next cursor. -/
structure Fetching (log : Log) (acks : List Reply) (s : Replica) (t : GetThread) : Prop where
  random : t.req.random = false
  topic : t.req.topicId = cfg.topicId
  queueInfo : ∀ info, cfg.topic.getQueueInfoByQueue t.req.queueId = .ok info →
    t.queueInfoId = info.queueInfoId
  group : t.req.consumerGroupId ∈ cfg.consumerGroups
  consumer : cfg.isConsumer t.req.queueId t.req.consumerGroupId
  prev : Safe cfg log acks t.req.queueId t.req.consumerGroupId (level t.prev)
  covered : Covered cfg log acks t.req.queueId t.req.consumerGroupId t.items (level t.next)
  minInstance : t.minInstance = uint64Max ∨ t.minInstance ≤ s.minChosen
  cp : t.cp = uint64Max ∨ t.cp < s.now
  cursor : ∀ cur, t.phase = .items cur →
    Covered cfg log acks t.req.queueId t.req.consumerGroupId t.items cur

def DetailsSafe (log : Log) (acks : List Reply) (ds : List SyncDetail) : Prop :=
  ∀ d ∈ ds, Safe cfg log acks d.queueId d.consumerGroupId (level d.prevCursorId)

def KeepSync.details : KeepSync → List SyncDetail
  | .sync _ ds => ds
  | _ => []

structure Tracked (log : Log) (acks : List Reply) (requests : List GetRequest) (s : Replica) :
    Prop where
  inv : s.Inv cfg log
  acked : ∀ q g, Safe cfg log acks q g (s.sync q g).acked
  applying : DetailsSafe cfg log acks s.applying.details
  keepSync : ∀ q g r isPrev, s.keepSync ≠ .replay q g r isPrev
  read : DetailsSafe cfg log acks s.keepSync.details
  asked : ∀ n t, s.gets n = some t → requests[n]? = some t.req
  fetching : ∀ n t, s.gets n = some t → Fetching cfg log acks s t

variable {cfg} {log log' : Log} {acks acks' : List Reply} {requests : List GetRequest}
  {s s' : Replica} {t : GetThread}

lemma DetailsSafe.later {ds : List SyncDetail} (h : DetailsSafe cfg log acks ds)
    (hl : Later log acks log' acks') : DetailsSafe cfg log' acks' ds :=
  fun d hd => (h d hd).later hl

lemma Fetching.later (h : Fetching cfg log acks s t) (hnow : s.now ≤ s'.now)
    (hmin : s.minChosen ≤ s'.minChosen) (hl : Later log acks log' acks') :
    Fetching cfg log' acks' s' t where
  random := h.random
  topic := h.topic
  queueInfo := h.queueInfo
  group := h.group
  consumer := h.consumer
  prev := h.prev.later hl
  covered := h.covered.later hl
  minInstance := h.minInstance.imp id fun hle => hle.trans hmin
  cp := h.cp.imp id fun hlt => hlt.trans_le hnow
  cursor := fun cur hcur => (h.cursor cur hcur).later hl

lemma Tracked.stored (h : Tracked cfg log acks requests s) {q g p : ℕ} (hp : (s.sync q g).prev = some p) :
    Safe cfg log acks q g (level p) := Covered.le (h.acked q g) (h.inv.sync q g p hp).2

/-! ## A step of a Get -/

lemma Fetching.withPhase (h : Fetching cfg log acks s t) {phase : GetPhase}
    (hitems : ∀ cur, phase ≠ .items cur) :
    Fetching cfg log acks s { t with phase := phase } :=
  ⟨h.random, h.topic, h.queueInfo, h.group, h.consumer, h.prev, h.covered, h.minInstance, h.cp,
    fun cur hcur => absurd hcur (hitems cur)⟩

lemma Covered.pass {q g a b : ℕ} {items : List QItem} (h : Covered cfg log acks q g items a)
    (hacked : Safe cfg log acks q g (s.sync q g).acked) (hb : b ≤ log.length)
    (hp : Passes log s q g a b) : Covered cfg log acks q g items b := by
  refine ⟨hb, fun i item hi hw => ?_⟩
  by_cases hlt : i < a
  · exact h.2 i item hlt hw
  · have hlt' := hp i (not_lt.mp hlt) hi (List.ne_nil_of_mem hw.1)
    exact .inr (hacked.acknowledged hlt' hw)

lemma Tracked.loop (h : Tracked cfg log acks requests s) (hlog : LogOk cfg log)
    (ht : Fetching cfg log acks s t) (hphase : t.phase = .loop) (timeUp : Bool) :
    Fetching cfg log acks s (loopStep t (s.metas t.req.queueId) timeUp) := by
  have hstop : Fetching cfg log acks s { t with phase := .updatePrev } :=
    ht.withPhase fun _ hp => (nomatch hp)
  unfold loopStep
  split
  · exact hstop
  split
  · exact hstop
  split
  · exact hstop
  rename_i cur hcur
  obtain ⟨_, hnow, hpass⟩ :=
    nextCursor_passes h.inv hlog ht.group ht.consumer ht.minInstance ht.cp hcur
  have hnowLe := h.inv.now_le
  have hlen := hlog.length_lt
  split
  · rename_i hskip
    -- the cursor is not above the prev one, and what is below that is safe
    refine ⟨ht.random, ht.topic, ht.queueInfo, ht.group, ht.consumer, ht.prev, ?_, ht.minInstance,
      ht.cp, fun c hc => ?_⟩
    · have hle : level cur ≤ level t.prev := by
        rw [level_of_lt (by omega), level_of_ne hskip.1]
        omega
      exact (Covered.le ht.prev hle).subset (List.nil_subset _)
    · have hc : t.phase = .items c := hc
      rw [hphase] at hc
      cases hc
  · refine ⟨ht.random, ht.topic, ht.queueInfo, ht.group, ht.consumer, ht.prev, ht.covered,
      ht.minInstance, ht.cp, fun c hc => ?_⟩
    cases hc
    exact ht.covered.pass (h.acked _ _) (hnow.trans hnowLe) hpass

lemma Tracked.take (h : Tracked cfg log acks requests s) (hlog : LogOk cfg log)
    (ht : Fetching cfg log acks s t) {cur : ℕ} (hphase : t.phase = .items cur)
    {items : List QItem}
    (hitems : getItemsByCursorID log s.now s.minChosen t.req.queueId cur = .ok items) :
    Fetching cfg log acks s (takeItems cfg t cur items) := by
  have hstop : Fetching cfg log acks s { t with phase := .updatePrev } :=
    ht.withPhase fun _ hp => (nomatch hp)
  obtain ⟨hlt, hcases⟩ := getItems_cases h.inv hlog ht.group ht.consumer hitems
  have hnowLe := h.inv.now_le
  have hlen := hlog.length_lt
  have hlevel : level cur = cur + 1 := level_of_lt (by omega)
  have hbelow := ht.cursor cur hphase
  -- an item of the instance is kept, unless it has been acknowledged
  have hread : Covered cfg log acks t.req.queueId t.req.consumerGroupId
      (t.items ++ items.filter fun x =>
        !skips cfg t.req.topicId t.req.consumerGroupId t.queueInfoId x) (level cur) := by
    rw [hlevel]
    refine ⟨by omega, fun i item hi hw => ?_⟩
    by_cases hcur : i < cur
    · exact (hbelow.2 i item hcur hw).imp (List.mem_append_left _) id
    have hi : i = cur := by omega
    subst hi
    rcases hcases with heq | ⟨_, hack⟩
    · obtain ⟨hmem, info, hinfo, hskip⟩ := hw
      refine .inl (List.mem_append_right _ (List.mem_filter.mpr ⟨heq ▸ hmem, ?_⟩))
      rw [ht.topic, ht.queueInfo info hinfo, hskip]
      rfl
    · exact .inr ((h.acked _ _).acknowledged hack hw)
  unfold takeItems
  split
  · rw [List.filter_nil, List.append_nil] at hread
    exact ⟨ht.random, ht.topic, ht.queueInfo, ht.group, ht.consumer, ht.prev, hread,
      ht.minInstance, ht.cp, fun _ hp => (nomatch hp)⟩
  · split
    · exact hstop
    split
    · exact hstop
    refine ⟨ht.random, ht.topic, ht.queueInfo, ht.group, ht.consumer, ht.prev, hread,
      ht.minInstance, ht.cp, fun c hp => ?_⟩
    dsimp only at hp
    split at hp <;> cases hp

lemma Tracked.reads (h : Tracked cfg log acks requests s) (hlog : LogOk cfg log)
    (ht : Fetching cfg log acks s t) {t' : GetThread} (hr : GetReads cfg log s t t') :
    Fetching cfg log acks s t' := by
  cases hr with
  | svrPrev phase =>
    exact ⟨ht.random, ht.topic, ht.queueInfo, ht.group, ht.consumer, ht.prev, ht.covered,
      ht.minInstance, ht.cp, fun _ hp => (nomatch hp)⟩
  | checkPoint phase =>
    refine ⟨ht.random, ht.topic, ht.queueInfo, ht.group, ht.consumer, ht.prev, ht.covered,
      ht.minInstance, ?_, fun _ hp => (nomatch hp)⟩
    have hcp := h.inv.cp_le_now
    by_cases hmax : s.checkPoint = uint64Max
    · exact .inl hmax
    · rw [level_of_ne hmax] at hcp
      exact .inr hcp
  | minInstance phase =>
    unfold enterLoop
    dsimp only
    rw [if_neg (by rw [ht.random]; exact Bool.false_ne_true)]
    exact ⟨ht.random, ht.topic, ht.queueInfo, ht.group, ht.consumer, ht.prev, ht.covered,
      .inr le_rfl, ht.cp, fun _ hp => (nomatch hp)⟩
  | loop phase timeUp => exact h.loop hlog ht phase timeUp
  | items cur phase items hitems => exact h.take hlog ht phase hitems
  | notChosen cur phase now => exact ht.withPhase fun _ hp => (nomatch hp)
  | random phase random =>
    rw [ht.random] at random
    cases random
  | noPrev phase random prev => exact ht.withPhase fun _ hp => (nomatch hp)
  | noNext phase next => exact ht.withPhase fun _ hp => (nomatch hp)

/-! ## The steps of a replica -/

/-- A request that a consumer may send: what it acknowledges is safe. -/
structure RequestOk (log : Log) (acks : List Reply) (cfg : StoreConfig) (req : GetRequest) :
    Prop where
  random : req.random = false
  topic : req.topicId = cfg.topicId
  consumer : cfg.isConsumer req.queueId req.consumerGroupId
  prev : req.prevCursorId = req.nextCursorId
  safe : Safe cfg log acks req.queueId req.consumerGroupId (level req.prevCursorId)

lemma RequestOk.later {req : GetRequest} (h : RequestOk log acks cfg req)
    (hl : Later log acks log' acks') : RequestOk log' acks' cfg req :=
  ⟨h.random, h.topic, h.consumer, h.prev, Covered.later h.safe hl⟩

/-- **What a `Get` starts from is safe**, whichever cursors it adjusts to. -/
lemma Tracked.start (h : Tracked cfg log acks requests s) {req : GetRequest}
    (hreq : RequestOk log acks cfg req) (hstart : startGet cfg s.sync req = .ok t) :
    Fetching cfg log acks s t ∧ t.req = req := by
  unfold startGet at hstart
  split at hstart
  · cases hstart
  rename_i queueInfo hinfo
  split at hstart
  · cases hstart
  dsimp only at hstart
  rw [if_neg (by rw [hreq.random]; exact Bool.false_ne_true)] at hstart
  have hfetching : ∀ p n : ℕ, req.consumerGroupId ∈ cfg.consumerGroups →
      Safe cfg log acks req.queueId req.consumerGroupId (level p) → level n ≤ level p →
      Fetching cfg log acks s { req := req, queueInfoId := queueInfo.queueInfoId, cliPrev := p
                                cliNext := n, prev := p, next := n } := by
    intro p n hg hp hle
    refine ⟨hreq.random, hreq.topic, fun info hi => ?_, hg, hreq.consumer, hp,
      Covered.le hp hle, .inl rfl, .inl rfl, fun _ hph => (nomatch hph)⟩
    rw [hinfo] at hi
    cases hi
    rfl
  have hgroup : SyncCtrl.inTable cfg.opt req.consumerGroupId req.queueId →
      req.consumerGroupId ∈ cfg.consumerGroups :=
    fun hin => StoreConfig.mem_consumerGroups.mpr ⟨hin.1, hin.2.1⟩
  have hstored : (s.sync req.queueId req.consumerGroupId).prev ≠ some uint64Max :=
    fun hp => (h.inv.sync _ _ _ hp).1 rfl
  have hsafe : Safe cfg log acks req.queueId req.consumerGroupId
      (levelOf (s.sync req.queueId req.consumerGroupId).prev) := by
    cases hp : (s.sync req.queueId req.consumerGroupId).prev with
    | none => exact safe_zero
    | some v => exact h.stored hp
  split at hstart
  · rename_i p n hadj
    cases hstart
    obtain ⟨hin, hcases⟩ := SyncCtrl.adjustNextCursorID_cases hstored hadj
    rcases hcases with ⟨rfl, _, _, hp⟩ | ⟨hp, rfl⟩
    · -- the request acknowledges up to its cursors
      refine ⟨hfetching p _ (hgroup hin) ?_ ?_, rfl⟩
      · rw [hp]
        exact hreq.safe.max hsafe
      · rw [hp, ← hreq.prev]
        exact le_max_left _ _
    · -- the replica does not know them, and goes back to its prev cursor
      exact ⟨hfetching p p (hgroup hin) (h.stored hp) le_rfl, rfl⟩
  · rename_i ret hadj
    rcases adjustNextCursorID_error hadj with rfl | ⟨rfl, hin, hp⟩
    · rw [if_pos (by decide)] at hstart
      cases hstart
    · rw [if_neg (by decide)] at hstart
      cases hstart
      exact ⟨hfetching _ _ (hgroup hin) safe_zero le_rfl, rfl⟩

lemma safe_updateCursorID {sync sync' : SyncCtrl} {g q c : ℕ} {isPrev : Bool}
    (hu : sync.updateCursorID cfg.opt g q c isPrev = .ok sync')
    (hacked : ∀ q g, Safe cfg log acks q g (sync q g).acked)
    (hc : isPrev = true → Safe cfg log acks q g (level c)) :
    ∀ q g, Safe cfg log acks q g (sync' q g).acked := by
  obtain ⟨_, rfl⟩ := SyncCtrl.updateCursorID_ok hu
  intro q' g'
  by_cases hs : q' = q ∧ g' = g
  · obtain ⟨rfl, rfl⟩ := hs
    rw [SyncCtrl.set_self]
    cases isPrev with
    | true => exact (hacked q' g').max (hc rfl)
    | false => exact hacked q' g'
  · rw [SyncCtrl.set_of_ne hs]
    exact hacked q' g'

lemma Tracked.keep (h : Tracked cfg log acks requests s) (hinv : s'.Inv cfg log) (hgets : s'.gets = s.gets)
    (hnow : s.now ≤ s'.now) (hmin : s.minChosen ≤ s'.minChosen)
    (hacked : ∀ q g, Safe cfg log acks q g (s'.sync q g).acked)
    (happlying : DetailsSafe cfg log acks s'.applying.details)
    (hkeep : ∀ q g r isPrev, s'.keepSync ≠ .replay q g r isPrev)
    (hread : DetailsSafe cfg log acks s'.keepSync.details) : Tracked cfg log acks requests s' where
  inv := hinv
  acked := hacked
  applying := happlying
  keepSync := hkeep
  read := hread
  asked := by
    rw [hgets]
    exact h.asked
  fetching := by
    intro n t ht
    rw [hgets] at ht
    exact (h.fetching n t ht).later hnow hmin (Later.refl log acks)

lemma Tracked.setGet (h : Tracked cfg log acks requests s) {n : ℕ} {t' : Option GetThread}
    (ht : ∀ t ∈ t', Fetching cfg log acks s t) (hreq : ∀ t ∈ t', requests[n]? = some t.req) :
    Tracked cfg log acks requests (s.setGet n t') where
  inv := h.inv.setGets _
  acked := h.acked
  applying := h.applying
  keepSync := h.keepSync
  read := h.read
  asked := by
    intro m u hu
    by_cases hm : m = n
    · subst hm
      rw [gets_setGet_self] at hu
      exact hreq u hu
    · rw [gets_setGet_of_ne hm] at hu
      exact h.asked m u hu
  fetching := by
    intro m u hu
    have hs : Fetching cfg log acks s u := by
      by_cases hm : m = n
      · subst hm
        rw [gets_setGet_self] at hu
        exact ht u hu
      · rw [gets_setGet_of_ne hm] at hu
        exact h.fetching m u hu
    exact hs.later le_rfl le_rfl (Later.refl log acks)

lemma Tracked.setSync (h : Tracked cfg log acks requests s) {g q c : ℕ} {isPrev : Bool} {sync : SyncCtrl}
    (hu : s.sync.updateCursorID cfg.opt g q c isPrev = .ok sync)
    (hne : isPrev = true → c ≠ uint64Max)
    (hc : isPrev = true → Safe cfg log acks q g (level c)) :
    Tracked cfg log acks requests { s with sync := sync } :=
  h.keep (h.inv.setSync (updateCursorID_grows hu) (h.inv.sync.updateCursorID hne hu)) rfl le_rfl
    le_rfl (safe_updateCursorID hu h.acked hc) h.applying h.keepSync h.read

lemma Tracked.get (h : Tracked cfg log acks requests s) (hlog : LogOk cfg log) (n : ℕ) (timeUp : Bool) :
    Tracked cfg log acks requests (s.getStep cfg log n timeUp) := by
  cases ht : s.gets n with
  | none =>
    have hstep : s.getStep cfg log n timeUp = s := by
      unfold Replica.getStep
      rw [ht]
    rw [hstep]
    exact h
  | some t =>
    have hcases := @getStep_cases cfg log s n t ht timeUp
    have hfetching := h.fetching n t ht
    have hasked := h.asked n t ht
    generalize s.getStep cfg log n timeUp = s' at hcases ⊢
    cases hcases with
    | reads t' reads =>
      refine h.setGet (fun u hu => ?_) fun u hu => ?_
      · cases hu
        exact h.reads hlog hfetching reads
      · cases hu
        rw [reads.req_eq]
        exact hasked
    | prev phase random prev sync update =>
      have hs := h.setSync update (fun _ => prev) fun _ => hfetching.prev
      refine hs.setGet (fun u hu => ?_) fun u hu => ?_
      · cases hu
        exact (hs.fetching n t ht).withPhase fun _ hp => (nomatch hp)
      · cases hu
        exact hasked
    | next phase next sync update =>
      have hs := h.setSync update (fun hf => absurd hf Bool.false_ne_true)
        fun hf => absurd hf Bool.false_ne_true
      refine hs.setGet (fun u hu => ?_) fun u hu => ?_
      · cases hu
        exact (hs.fetching n t ht).withPhase fun _ hp => (nomatch hp)
      · cases hu
        exact hasked
    | fails phase range => exact h.setGet (fun u hu => (nomatch hu)) fun u hu => (nomatch hu)
    | done phase => exact h

lemma Tracked.execute (h : Tracked cfg log acks requests s) (hlog : LogOk cfg log)
    (hdetails : ∀ i, ∀ args ∈ valuesOf log i, DetailsSafe cfg log acks args.syncCtrlInfo) :
    Tracked cfg log acks requests (s.executeStep cfg log) := by
  have hinv := h.inv.executeStep hlog
  have hcases : ExecuteStep cfg log s (s.executeStep cfg log) := executeStep_cases
  have hnil : DetailsSafe cfg log acks [] := fun _ hd => (nomatch hd)
  generalize s.executeStep cfg log = s' at hcases hinv ⊢
  cases hcases with
  | idle => exact h
  | advance now pos =>
    exact h.keep hinv rfl (Nat.le_succ _) le_rfl h.acked hnil h.keepSync h.read
  | noAdd args at_ applying none =>
    exact h.keep hinv rfl le_rfl le_rfl h.acked (hdetails _ args (List.mem_of_getElem? at_))
      h.keepSync h.read
  | add args at_ applying req some metas ok =>
    exact h.keep hinv rfl le_rfl le_rfl h.acked (hdetails _ args (List.mem_of_getElem? at_))
      h.keepSync h.read
  | skip applying => exact h.keep hinv rfl le_rfl le_rfl h.acked hnil h.keepSync h.read
  | known d ds applying cur stored ge =>
    have hds := h.applying
    rw [applying] at hds
    exact h.keep hinv rfl le_rfl le_rfl h.acked (fun d' hd => hds d' (List.mem_cons_of_mem _ hd))
      h.keepSync h.read
  | behind d ds applying =>
    have hds := h.applying
    rw [applying] at hds
    exact h.keep hinv rfl le_rfl le_rfl h.acked hds h.keepSync h.read
  | prev d ds applying sync update =>
    have hds := h.applying
    rw [applying] at hds
    have hd : Safe cfg log acks d.queueId d.consumerGroupId (level d.prevCursorId) :=
      hds d List.mem_cons_self
    exact h.keep hinv rfl le_rfl le_rfl (safe_updateCursorID update h.acked fun _ => hd) hds
      h.keepSync h.read
  | next d ds applying sync update =>
    have hds := h.applying
    rw [applying] at hds
    have hsync := safe_updateCursorID update h.acked fun hf => absurd hf Bool.false_ne_true
    exact h.keep hinv rfl le_rfl le_rfl hsync (fun d' hd => hds d' (List.mem_cons_of_mem _ hd))
      h.keepSync h.read
  | fails d ds applying range =>
    exact h.keep hinv rfl le_rfl le_rfl h.acked hnil h.keepSync h.read

lemma Tracked.readStep (h : Tracked cfg log acks requests s) :
    (∀ q g r isPrev, (s.keepSyncStep cfg).keepSync ≠ .replay q g r isPrev) ∧
      DetailsSafe cfg log acks (s.keepSyncStep cfg).keepSync.details := by
  have hnil : DetailsSafe cfg log acks [] := fun _ hd => (nomatch hd)
  have hread := h.read
  unfold Replica.keepSyncStep
  split
  · exact ⟨h.keepSync, hread⟩
  · unfold Replica.roundStep
    repeat' split
    all_goals exact ⟨fun _ _ _ _ hk => (nomatch hk), hnil⟩
  · exact ⟨fun _ _ _ _ hk => (nomatch hk), hnil⟩
  · rename_i q g todo ds hk
    rw [hk] at hread
    split
    · rename_i p hp
      refine ⟨fun _ _ _ _ hk => (nomatch hk), fun d hd => ?_⟩
      rcases List.mem_append.mp hd with hd | hd
      · exact hread d hd
      · cases List.mem_singleton.mp hd
        exact h.stored (SyncCtrl.getCursorID_ok hp).2
    · exact ⟨fun _ _ _ _ hk => (nomatch hk), hread⟩
  · rename_i q g r isPrev hk
    exact absurd hk (h.keepSync q g r isPrev)

theorem Tracked.step (h : Tracked cfg log acks requests s) (hlog : LogOk cfg log)
    (hdetails : ∀ i, ∀ args ∈ valuesOf log i, DetailsSafe cfg log acks args.syncCtrlInfo)
    {e : StoreEvent} (hget : ∀ n req, e ≠ .startGet n req)
    (hreplay : ∀ q g r, e ≠ .startReplay q g r) (hclear : ∀ q g, e ≠ .clear q g)
    (hok : NotOvertaken s e) : Tracked cfg log acks requests (s.step cfg log e) := by
  have hinv := h.inv.step hlog hok
  have hnil : DetailsSafe cfg log acks [] := fun _ hd => (nomatch hd)
  -- a step of the keep-sync thread
  have hframe : ∀ {s' : Replica}, s'.Inv cfg log → Frame s s' →
      (∀ q g r isPrev, s'.keepSync ≠ .replay q g r isPrev) →
      DetailsSafe cfg log acks s'.keepSync.details → Tracked cfg log acks requests s' := by
    intro s' hinv' hf hk hr
    refine h.keep hinv' hf.gets hf.now.ge hf.minChosen.ge ?_ ?_ hk hr
    · rw [hf.sync]
      exact h.acked
    · rw [hf.applying]
      exact h.applying
  cases e with
  | execute => exact h.execute hlog hdetails
  | startGet n req => exact absurd rfl (hget n req)
  | get n timeUp => exact h.get hlog n timeUp
  | endGet n =>
    have hend : Tracked cfg log acks requests (s.setGet n none) :=
      h.setGet (fun u hu => (nomatch hu)) fun u hu => (nomatch hu)
    dsimp only [Replica.step, Replica.endGet]
    split
    · exact h
    split
    · exact hend
    · exact hend
    · exact h
  | startRound =>
    refine hframe hinv (frame_step (.inl rfl) h.keepSync) ?_ ?_
    · dsimp only [Replica.step]
      split
      · exact fun _ _ _ _ hk => (nomatch hk)
      · exact h.keepSync
    · dsimp only [Replica.step]
      split
      · exact hnil
      · exact h.read
  | startSync =>
    refine hframe hinv (frame_step (.inr (.inl rfl)) h.keepSync) ?_ ?_
    · dsimp only [Replica.step]
      split
      · exact fun _ _ _ _ hk => (nomatch hk)
      · exact h.keepSync
    · dsimp only [Replica.step]
      split
      · exact hnil
      · exact h.read
  | keepSync =>
    obtain ⟨hkeep, hread⟩ := h.readStep
    exact hframe hinv (frame_step (.inr (.inr rfl)) h.keepSync) hkeep hread
  | truncate m =>
    dsimp only [Replica.step] at hinv ⊢
    split at hinv
    · rename_i hm
      rw [if_pos hm]
      exact h.keep hinv rfl le_rfl hm.1 h.acked h.applying h.keepSync h.read
    · rename_i hm
      rw [if_neg hm]
      exact h
  | startReplay q g r => exact absurd rfl (hreplay q g r)
  | clear q g => exact absurd rfl (hclear q g)
  | restart =>
    exact ⟨hinv, h.acked, hnil, fun _ _ _ _ hk => (nomatch hk), hnil, fun n t ht => (nomatch ht),
      fun n t ht => (nomatch ht)⟩

lemma Tracked.startGet (h : Tracked cfg log acks requests s) {n : ℕ} {req : GetRequest}
    (hn : requests[n]? = some req) (hreq : RequestOk log acks cfg req) :
    Tracked cfg log acks requests (s.startGetStep cfg n req) := by
  unfold Replica.startGetStep
  split
  · exact h
  split
  · split
    · exact h
    · rename_i t hstart
      obtain ⟨hfetching, heq⟩ := h.start hreq hstart
      refine h.setGet (fun u hu => ?_) fun u hu => ?_
      · cases hu
        exact hfetching
      · cases hu
        rw [heq]
        exact hn
  · exact h

end

/-! ## The invariant of a cluster -/

section
variable {ι κ : Type*} [DecidableEq ι] [DecidableEq κ] (cfg : StoreConfig)

/-- A response answers its request, and covers what lies below its next cursor. -/
structure ReplyOk (w : Cluster ι κ) (reply : Reply) : Prop where
  request : w.requests[reply.request]? = some reply.req
  covered : Covered cfg w.log w.acknowledged reply.req.queueId reply.req.consumerGroupId
    reply.resp.items (level reply.resp.nextCursorId)

/-- A consumer that waits has sent a request for its queue; its next cursor is that of a response it
has received. -/
structure ConsumerOk (w : Cluster ι κ) (k : κ) (c : Consumer) : Prop where
  consumer : ∀ cc, c.cc = some cc → cfg.isConsumer cc.queueId cc.consumerGroupId
  waiting : ∀ cc n, c.cc = some cc → c.waiting = some n → ∃ req, w.requests[n]? = some req ∧
    req.queueId = cc.queueId ∧ req.consumerGroupId = cc.consumerGroupId
  next : ∀ cc, c.cc = some cc → cc.nextCursorId = uint64Max ∨ ∃ reply, (k, reply) ∈ w.received ∧
    reply.req.queueId = cc.queueId ∧ reply.req.consumerGroupId = cc.consumerGroupId ∧
    reply.resp.nextCursorId = cc.nextCursorId

structure Cluster.Inv (w : Cluster ι κ) : Prop where
  log : LogOk cfg w.log
  details : ∀ i, ∀ args ∈ valuesOf w.log i, DetailsSafe cfg w.log w.acknowledged args.syncCtrlInfo
  replicas : ∀ r, Tracked cfg w.log w.acknowledged w.requests (w.replicas r)
  proposed : ∀ ds ∈ w.proposed, DetailsSafe cfg w.log w.acknowledged ds
  requests : ∀ req ∈ w.requests, RequestOk w.log w.acknowledged cfg req
  replies : ∀ reply ∈ w.replies, ReplyOk cfg w reply
  received : ∀ x ∈ w.received, ReplyOk cfg w x.2
  consumers : ∀ k, ConsumerOk cfg w k (w.consumers k)

variable {cfg} {w w' : Cluster ι κ}

lemma Cluster.Inv.init : (cluster cfg : Machine (Cluster ι κ) _).init.Inv cfg where
  log := World.Inv.init.log
  details := fun i _ hargs => by
    unfold valuesOf at hargs
    exact absurd hargs List.not_mem_nil
  replicas := fun _ => ⟨Replica.Inv.init, fun _ _ => safe_zero, fun _ hd => (nomatch hd),
    fun _ _ _ _ hk => (nomatch hk), fun _ hd => (nomatch hd), fun _ _ ht => (nomatch ht),
    fun _ _ ht => (nomatch ht)⟩
  proposed := fun _ hds => (nomatch hds)
  requests := fun _ hreq => (nomatch hreq)
  replies := fun _ hreply => (nomatch hreply)
  received := fun _ hx => (nomatch hx)
  consumers := fun _ => ⟨fun _ hcc => (nomatch hcc), fun _ _ hcc => (nomatch hcc),
    fun _ hcc => (nomatch hcc)⟩

lemma Tracked.later {log log' : Log} {acks acks' : List Reply} {requests requests' : List GetRequest}
    {s : Replica} (h : Tracked cfg log acks requests s) (hl : Later log acks log' acks')
    (hreq : ∀ (n : ℕ) req, requests[n]? = some req → requests'[n]? = some req)
    (hinv : s.Inv cfg log') : Tracked cfg log' acks' requests' s where
  inv := hinv
  acked := fun q g => (h.acked q g).later hl
  applying := h.applying.later hl
  keepSync := h.keepSync
  read := h.read.later hl
  asked := fun n t ht => hreq n _ (h.asked n t ht)
  fetching := fun n t ht => (h.fetching n t ht).later le_rfl le_rfl hl

lemma ReplyOk.later {reply : Reply} (h : ReplyOk cfg w reply)
    (hl : Later w.log w.acknowledged w'.log w'.acknowledged)
    (hreq : ∀ (n : ℕ) req, w.requests[n]? = some req → w'.requests[n]? = some req) :
    ReplyOk cfg w' reply := ⟨hreq _ _ h.request, h.covered.later hl⟩

lemma ConsumerOk.later {k : κ} {c : Consumer} (h : ConsumerOk cfg w k c)
    (hreq : ∀ (n : ℕ) req, w.requests[n]? = some req → w'.requests[n]? = some req)
    (hreceived : w.received ⊆ w'.received) : ConsumerOk cfg w' k c where
  consumer := h.consumer
  waiting := by
    intro cc n hcc hn
    obtain ⟨req, hr, heq⟩ := h.waiting cc n hcc hn
    exact ⟨req, hreq n req hr, heq⟩
  next := by
    intro cc hcc
    rcases h.next cc hcc with hmax | ⟨reply, hmem, heq⟩
    · exact .inl hmax
    · exact .inr ⟨reply, hreceived hmem, heq⟩

/-- A consumer that has not asked since it got its lock, or is no consumer yet. -/
lemma consumerOk_fresh {k : κ} {q g : ℕ} (hc : cfg.isConsumer q g) :
    ConsumerOk cfg w k { cc := some ⟨q, g, uint64Max, uint64Max⟩ } := by
  refine ⟨fun cc hcc => ?_, fun cc n _ hn => (nomatch hn), fun cc hcc => ?_⟩
  · cases hcc
    exact hc
  · cases hcc
    exact .inl rfl

lemma Cluster.Inv.setConsumer (h : w.Inv cfg) {k : κ} {c : Consumer} (hc : ConsumerOk cfg w k c) :
    (w.setConsumer k c).Inv cfg where
  log := h.log
  details := h.details
  replicas := h.replicas
  proposed := h.proposed
  requests := h.requests
  replies := fun reply hr => ⟨(h.replies reply hr).request, (h.replies reply hr).covered⟩
  received := fun x hx => ⟨(h.received x hx).request, (h.received x hx).covered⟩
  consumers := by
    intro k'
    have hok : ConsumerOk cfg w k' ((w.setConsumer k c).consumers k') := by
      by_cases hk : k' = k
      · subst hk
        show ConsumerOk cfg w k' (Function.update w.consumers k' c k')
        rw [Function.update_self]
        exact hc
      · show ConsumerOk cfg w k' (Function.update w.consumers k c k')
        rw [Function.update_of_ne hk]
        exact h.consumers k'
    exact ⟨hok.consumer, hok.waiting, hok.next⟩

lemma Cluster.Inv.setReplica (h : w.Inv cfg) {r : ι} {s : Replica}
    (hs : Tracked cfg w.log w.acknowledged w.requests s) : (w.setReplica r s).Inv cfg where
  log := h.log
  details := h.details
  replicas := by
    intro r'
    show Tracked cfg w.log w.acknowledged w.requests (Function.update w.replicas r s r')
    by_cases hr : r' = r
    · subst hr
      rw [Function.update_self]
      exact hs
    · rw [Function.update_of_ne hr]
      exact h.replicas r'
  proposed := h.proposed
  requests := h.requests
  replies := fun reply hr => ⟨(h.replies reply hr).request, (h.replies reply hr).covered⟩
  received := fun x hx => ⟨(h.received x hx).request, (h.received x hx).covered⟩
  consumers := fun k => ⟨(h.consumers k).consumer, (h.consumers k).waiting, (h.consumers k).next⟩

/-! ## The steps of a cluster -/

lemma Cluster.Inv.choose (h : w.Inv cfg) (batch : List StorePaxosArgs) :
    (w.step cfg (.choose batch)).Inv cfg := by
  dsimp only [Cluster.step]
  split
  · rename_i hb
    have hl := Later.append w.log batch w.acknowledged
    have hsame : ∀ (n : ℕ) req, w.requests[n]? = some req → w.requests[n]? = some req :=
      fun _ _ hr => hr
    refine ⟨h.log.append (fun args ha => (hb.1 args ha).1) hb.2, fun i args hargs => ?_,
      fun r => (h.replicas r).later hl hsame ((h.replicas r).inv.append batch),
      fun ds hds => (h.proposed ds hds).later hl, fun req hreq => (h.requests req hreq).later hl,
      fun reply hr => (h.replies reply hr).later hl hsame,
      fun x hx => (h.received x hx).later hl hsame,
      fun k => (h.consumers k).later hsame fun _ hx => hx⟩
    rcases mem_valuesOf_append hargs with hargs | hargs
    · exact (h.details i args hargs).later hl
    · rcases (hb.1 args hargs).2 with hnil | hmem
      · rw [hnil]
        exact fun _ hd => (nomatch hd)
      · exact (h.proposed _ hmem).later hl
  · exact h

lemma Cluster.Inv.replica (h : w.Inv cfg) {r : ι} {e : StoreEvent}
    (hdom : ConsumerEvent cfg (.replica r e : ClusterEvent ι κ))
    (hok : Store.NotOvertaken (w.replicas r) e) :
    (w.step cfg (.replica r e : ClusterEvent ι κ)).Inv cfg := by
  have hs := h.replicas r
  have hstep : Tracked cfg w.log w.acknowledged w.requests ((w.replicas r).step cfg w.log e) := by
    refine hs.step h.log h.details ?_ ?_ ?_ hok
    · rintro n req rfl
      exact hdom
    · rintro q g c rfl
      exact hdom
    · rintro q g rfl
      exact hdom
  have hset := h.setReplica (r := r) hstep
  refine ⟨hset.log, hset.details, hset.replicas, fun ds hds => ?_, hset.requests,
    fun reply hreply => ?_, fun x hx => ⟨(h.received x hx).request, (h.received x hx).covered⟩,
    fun k => ⟨(h.consumers k).consumer, (h.consumers k).waiting, (h.consumers k).next⟩⟩
  · rcases List.mem_append.mp hds with hds | hds
    · exact h.proposed ds hds
    · have hread := hs.read
      unfold Replica.proposal at hds
      split at hds
      · split at hds
        · rename_i hk
          rw [hk] at hread
          cases List.mem_singleton.mp hds
          exact hread
        · cases hds
      · cases hds
  · rcases List.mem_append.mp hreply with hreply | hreply
    · exact ⟨(h.replies reply hreply).request, (h.replies reply hreply).covered⟩
    · cases e with
      | endGet n =>
        dsimp only [Replica.reply] at hreply
        split at hreply
        · cases hreply
        · rename_i t ht
          split at hreply
          · cases List.mem_singleton.mp hreply
            exact ⟨hs.asked n t ht, (hs.fetching n t ht).covered⟩
          · cases hreply
      | execute | startGet _ _ | get _ _ | startRound | startSync | startReplay _ _ _ | keepSync
      | clear _ _ | truncate _ | restart => cases hreply

lemma Cluster.Inv.lock (h : w.Inv cfg) {k : κ} {q g : ℕ} (hc : cfg.isConsumer q g) :
    (w.lockStep k q g).Inv cfg := by
  unfold Cluster.lockStep
  split
  · exact h
  split
  · exact h.setConsumer (consumerOk_fresh hc)
  split
  · exact h
  · exact h.setConsumer (consumerOk_fresh hc)

/-- **A request acknowledges only what its consumer has received.** -/
lemma Cluster.Inv.send (h : w.Inv cfg) (k : κ) (limit atime atimeMs : ℕ) :
    (w.sendStep cfg k limit atime atimeMs).Inv cfg := by
  unfold Cluster.sendStep
  split
  · rename_i cc hwaiting hcc
    split
    · dsimp only
      set req := customGetRequest (makeGetRequest cfg.topicId cc limit atime atimeMs) with hreq
      set new := (w.received.filter fun x => x.1 = k ∧ req.Acknowledges x.2).map Prod.snd with hnew
      have hl := Later.acknowledge w.log w.acknowledged new
      have hmore : ∀ (n : ℕ) req', w.requests[n]? = some req' →
          (w.requests ++ [req])[n]? = some req' := by
        intro n req' hn
        rw [List.getElem?_append_left (List.getElem?_eq_some_iff.mp hn).1]
        exact hn
      have hck := h.consumers k
      have hsafe : Safe cfg w.log (w.acknowledged ++ new) cc.queueId cc.consumerGroupId
          (level cc.nextCursorId) := by
        rcases hck.next cc hcc with hmax | ⟨reply, hmem, hq, hg, hnext⟩
        · rw [hmax, level_uint64Max]
          exact safe_zero
        · have hcovered := (h.received _ hmem).covered.later hl
          rw [hq, hg, hnext] at hcovered
          refine hcovered.safe (List.mem_append_right _ ?_) hq hg
          refine List.mem_map.mpr ⟨(k, reply), List.mem_filter.mpr ⟨hmem, ?_⟩, rfl⟩
          exact decide_eq_true ⟨rfl, hq, hg, hnext⟩
      have hsent : ({ w with requests := w.requests ++ [req]
                             acknowledged := w.acknowledged ++ new } : Cluster ι κ).Inv cfg := by
        refine ⟨h.log, fun i args ha => (h.details i args ha).later hl,
          fun r => (h.replicas r).later hl hmore (h.replicas r).inv,
          fun ds hds => (h.proposed ds hds).later hl, fun req' hmem => ?_,
          fun reply hr => (h.replies reply hr).later hl hmore,
          fun x hx => (h.received x hx).later hl hmore,
          fun k' => (h.consumers k').later hmore fun _ hx => hx⟩
        rcases List.mem_append.mp hmem with hmem | hmem
        · exact (h.requests req' hmem).later hl
        · cases List.mem_singleton.mp hmem
          exact ⟨rfl, rfl, hck.consumer cc hcc, rfl, hsafe⟩
      refine hsent.setConsumer ⟨fun cc' hcc' => ?_, fun cc' n hcc' hn => ?_, fun cc' hcc' => ?_⟩
      · cases hcc'
        exact hck.consumer cc hcc
      · cases hcc'
        cases hn
        exact ⟨req, List.getElem?_concat_length, rfl, rfl⟩
      · cases hcc'
        exact hck.next cc hcc
    · exact h
  · exact h

lemma Cluster.Inv.receive (h : w.Inv cfg) (k : κ) (m : ℕ) : (w.receiveStep k m).Inv cfg := by
  unfold Cluster.receiveStep
  split
  · rename_i n cc reply hwaiting hcc hm
    split
    · rename_i hn
      have hreply := h.replies reply (List.mem_of_getElem? hm)
      obtain ⟨req, hreq, hq, hg⟩ := (h.consumers k).waiting cc n hcc hwaiting
      have heq : reply.req = req := by
        have hr := hreply.request
        rw [hn, hreq] at hr
        exact (Option.some.inj hr).symm
      have hreceived : ({ w with received := w.received ++ [(k, reply)] } : Cluster ι κ).Inv cfg := by
        refine ⟨h.log, h.details, h.replicas, h.proposed, h.requests,
          fun reply' hr => ⟨(h.replies reply' hr).request, (h.replies reply' hr).covered⟩,
          fun x hx => ?_, fun k' => (h.consumers k').later (fun _ _ hr => hr)
            fun _ hx => List.mem_append_left _ hx⟩
        rcases List.mem_append.mp hx with hx | hx
        · exact ⟨(h.received x hx).request, (h.received x hx).covered⟩
        · cases List.mem_singleton.mp hx
          exact ⟨hreply.request, hreply.covered⟩
      refine hreceived.setConsumer ⟨fun cc' hcc' => ?_, fun _ _ _ hn => (nomatch hn),
        fun cc' hcc' => ?_⟩
      · cases hcc'
        exact (h.consumers k).consumer cc hcc
      · cases hcc'
        exact .inr ⟨reply, List.mem_append_right _ (List.mem_singleton.mpr rfl), heq ▸ hq, heq ▸ hg,
          rfl⟩
    · exact h
  · exact h

theorem Cluster.Inv.step (h : w.Inv cfg) {e : ClusterEvent ι κ} (hdom : ConsumerEvent cfg e)
    (hok : w.NotOvertaken e) : (w.step cfg e).Inv cfg := by
  cases e with
  | choose batch => exact h.choose batch
  | replica r e => exact h.replica hdom hok
  | serve r n =>
    dsimp only [Cluster.step]
    split
    · exact h
    · rename_i req hn
      exact h.setReplica ((h.replicas r).startGet hn (h.requests req (List.mem_of_getElem? hn)))
  | lock k q g => exact h.lock hdom
  | leave k =>
    exact h.setConsumer ⟨fun _ hcc => (nomatch hcc), fun _ _ hcc => (nomatch hcc),
      fun _ hcc => (nomatch hcc)⟩
  | send k limit atime atimeMs => exact h.send k limit atime atimeMs
  | receive k m => exact h.receive k m
  | giveUp k =>
    exact h.setConsumer ⟨(h.consumers k).consumer, fun _ _ _ hn => (nomatch hn),
      (h.consumers k).next⟩

lemma Cluster.Inv.ackSafe (h : w.Inv cfg) : AckSafe cfg w := by
  intro r q g p hp i item hi hw
  have hne := ((h.replicas r).inv.sync q g p hp).1
  refine ((h.replicas r).stored hp).acknowledged ?_ hw
  rw [level_of_ne hne]
  exact Nat.lt_succ_of_le hi

variable (cfg)

/-- **Acknowledgement is safe.**  In a run of the replicas of a store and of its consumers in which
no round that dumps has been overtaken, no prev cursor passes an item that has not been
acknowledged. -/
theorem ackSafe_run {es : List (ClusterEvent ι κ)} (hdom : ∀ e ∈ es, ConsumerEvent cfg e)
    (hok : (cluster cfg).Along Cluster.NotOvertaken (cluster cfg).init es) :
    (cluster cfg).Always (AckSafe cfg) (cluster cfg).init es := by
  have hstep : ∀ (w : Cluster ι κ) e, w.Inv cfg → ConsumerEvent cfg e ∧ w.NotOvertaken e →
      ((cluster cfg).step w e).Inv cfg := fun w e h he => h.step he.1 he.2
  exact (Machine.Always.of_inv hstep Cluster.Inv.init (hok.and_labels hdom)).mono
    fun w h => h.ackSafe

end

/-! ## An item that is lost -/

def ofStore : Event → ClusterEvent Unit Unit
  | .choose batch => .choose batch
  | .store e => .replica () e

/-- The only consumer sends request `n` and receives the response to it, which takes the replica
some operations. -/
def askOne (n operations : ℕ) : List (ClusterEvent Unit Unit) :=
  [.send () 1 0 0, .serve () n] ++ List.replicate operations (.replica () (.get n false)) ++
    [.replica () (.endGet n), .receive () n]

/-- The consumer locks queue 0, gets what is there, and asks for more. -/
def askTwice : List (ClusterEvent Unit Unit) := [.lock () 0 1] ++ askOne 0 8 ++ askOne 1 6

theorem askTwice_ackSafe : (cluster twoQueues).Always (AckSafe twoQueues)
    (cluster twoQueues).init ((addOne 0).map ofStore ++ askTwice) :=
  ackSafe_run twoQueues (by decide) (by decide)

/-- **Counterexample.**  The item that the overtaken round has missed is never returned, and the
second request moves the prev cursor past it. -/
theorem lostItem_not_ackSafe :
    (∀ e ∈ missedItem.map ofStore ++ askTwice, ConsumerEvent twoQueues e) ∧
    ¬ (cluster twoQueues).Always (AckSafe twoQueues) (cluster twoQueues).init
      (missedItem.map ofStore ++ askTwice) := by
  refine ⟨by decide, fun h => ?_⟩
  have hsafe := h.last () 0 1 2 (by decide +kernel) 0
    { topicId := 1, consumerGroupIds := 1, cursorId := 0 } (by decide)
    ⟨by decide +kernel, _, rfl, by decide⟩
  have hnone : ∀ reply ∈ ((cluster twoQueues).exec (cluster twoQueues).init
      (missedItem.map ofStore ++ askTwice)).acknowledged, ∀ item ∈ reply.resp.items,
      item.cursorId ≠ 0 := by
    decide +kernel
  obtain ⟨reply, hmem, _, _, hitem⟩ := hsafe
  exact hnone reply hmem _ hitem rfl

end PhxQueue.Store
