import PhxQueue.Producer.Batching

/-!
# The batch helper settles

When no new calls come, the threads of the batch helper come to an end of their work, and by then
every call has returned.

* `Sized`             what is known of a request, of the clock and of the configuration;
* `Live`              a batch that collects will be ready, and a routine that is not idle is busy;
* `work`              a measure of what is left to do;
* `batchRawAdd_exactlyOnce`   **every call is delivered exactly once and returns exactly once.**
-/

set_option linter.unusedSectionVars false

namespace PhxQueue.Producer
open Comm Config Lib

section
variable {ι : Type}

/-- What the helper does by itself: everything but a new call. -/
def Own : BatchEvent ι → Prop
  | .batchRawAdd _ _ _ _ => False
  | _ => True

def AllReturned (s : Helper ι) : Prop :=
  ∀ c call, s.calls c = some call → ∃ ret, call.phase = .done ret

/-- A request that is not empty and can be encoded, where a message has less than `2 ^ 31` bytes and
an item at least two; the clock has started, queues have natural numbers, and `batch_limit` is not
negative. -/
def Sized : BatchEvent ι → Prop
  | .batchRawAdd _ req topic now => req.items ≠ [] ∧ req.items.length < 2 ^ 30 ∧ 0 < now ∧
      0 ≤ req.queueId ∧ ∀ cfg ∈ topic, 0 ≤ cfg.batchLimit ∧ cfg.batchLimit < 2 ^ 31
  | _ => True

/-- A batch that collects, and becomes ready in time. -/
structure WillBeReady (b : BatchTask ι) : Prop where
  started : b.startTimestampMs ≠ 0
  nonempty : b.nitems ≠ 0
  few : b.nitems < 2 ^ 30
  limit : b.batchLimit < 2 ^ 31

/-- A routine of a thread is busy with this process. -/
def onRoutine (vtid : ℤ) : Option (Process ι) → ℕ
  | some ⟨.routine v, .rawAdd⟩ | some ⟨.routine v, .notify _ _⟩ => if v = vtid then 1 else 0
  | _ => 0

def Helper.busy (s : Helper ι) (vtid : ℤ) : ℕ :=
  ∑ n ∈ Finset.range s.batches.length, onRoutine vtid (s.processes n)

structure Live (ndaemonThread nprocessRoutine : ℕ) (s : Helper ι) : Prop where
  ready : ∀ key n, s.batchInfos key = some n → 0 ≤ key.2.2 ∧
    ∃ b, s.batches[n]? = some b ∧ WillBeReady b
  routines : ∀ vtid : ℤ, 0 ≤ vtid → vtid < ndaemonThread → s.idle vtid + s.busy vtid = nprocessRoutine

/-! ## Sums -/

lemma sum_update {f : ℕ → ℕ} {l n : ℕ} (hn : n < l) (x : ℕ) :
    (∑ m ∈ Finset.range l, Function.update f n x m) + f n = (∑ m ∈ Finset.range l, f m) + x := by
  have hmem : n ∈ Finset.range l := Finset.mem_range.mpr hn
  rw [← Finset.add_sum_erase _ _ hmem, ← Finset.add_sum_erase _ f hmem, Function.update_self]
  have hrest : ∑ m ∈ (Finset.range l).erase n, Function.update f n x m =
      ∑ m ∈ (Finset.range l).erase n, f m :=
    Finset.sum_congr rfl fun m hm => Function.update_of_ne (Finset.ne_of_mem_erase hm) ..
  rw [hrest]
  omega

variable [DecidableEq ι] {s : Helper ι} {reqByteSize : AddRequest → ℕ}
  {ndaemonThread nprocessRoutine : ℕ}

/-- The busy routines after the process of a batch has changed. -/
lemma busy_update {s' : Helper ι} (hlen : s'.batches.length = s.batches.length) {n : ℕ}
    (hn : n < s.batches.length) {p : Option (Process ι)}
    (hp : s'.processes = Function.update s.processes n p) (vtid : ℤ) :
    s'.busy vtid + onRoutine vtid (s.processes n) = s.busy vtid + onRoutine vtid p := by
  have hcomp : ∀ m, onRoutine vtid (s'.processes m) =
      Function.update (fun m => onRoutine vtid (s.processes m)) n (onRoutine vtid p) m := by
    intro m
    rw [hp]
    by_cases hm : m = n
    · rw [hm, Function.update_self, Function.update_self]
    · rw [Function.update_of_ne hm, Function.update_of_ne hm]
  unfold Helper.busy
  rw [hlen, Finset.sum_congr rfl fun m _ => hcomp m]
  exact sum_update hn _

lemma lt_of_tasks_ne {n : ℕ} (h : s.tasks n ≠ []) : n < s.batches.length := by
  by_contra hlt
  exact h (tasks_of_none (List.getElem?_eq_none (Nat.not_lt.mp hlt)))

lemma BatchInv.lt_of_process (h : BatchInv s) {n : ℕ} {p : Process ι}
    (hp : s.processes n = some p) : n < s.batches.length := by
  apply lt_of_tasks_ne
  apply h.placed.process
  rw [hp]
  exact fun hn => nomatch hn

/-! ## A batch becomes ready -/

lemma initBatch_limit (topic : Option TopicConfig)
    (h : ∀ cfg ∈ topic, 0 ≤ cfg.batchLimit ∧ cfg.batchLimit < 2 ^ 31) :
    (initBatch topic : BatchTask ι).nitems = 0 ∧ (initBatch topic : BatchTask ι).batchLimit < 2 ^ 31 := by
  unfold initBatch
  cases topic with
  | none => exact ⟨rfl, by norm_num⟩
  | some cfg =>
    obtain ⟨h0, hlt⟩ := h cfg rfl
    refine ⟨rfl, ?_⟩
    show (cfg.batchLimit % 2 ^ 32).toNat < 2 ^ 31
    rw [Int.emod_eq_of_lt h0 (by omega)]
    omega

/-- A batch that is not ready with one more request will be ready in time. -/
lemma willBeReady_addTask {b : BatchTask ι} (hfew : b.nitems < 2 ^ 30) (hlimit : b.batchLimit < 2 ^ 31)
    {c : ι} {req : AddRequest} {now : ℕ} (hne : req.items ≠ []) (hlen : req.items.length < 2 ^ 30)
    (hnow : 0 < now) (hready : ¬ (b.addTask reqByteSize now c req).ready now) :
    WillBeReady (b.addTask reqByteSize now c req) := by
  have hpos : 0 < req.items.length := List.length_pos_of_ne_nil hne
  have hnitems : (b.addTask reqByteSize now c req).nitems = b.nitems + req.items.length := by
    show wrap32 (b.nitems + req.items.length) = _
    unfold wrap32
    exact Nat.mod_eq_of_lt (by omega)
  have hstart : (b.addTask reqByteSize now c req).startTimestampMs ≠ 0 := by
    show (if b.startTimestampMs = 0 then now else b.startTimestampMs) ≠ 0
    split
    · exact Nat.pos_iff_ne_zero.mp hnow
    · assumption
  have hnonempty : (b.addTask reqByteSize now c req).nitems ≠ 0 := by omega
  refine ⟨hstart, hnonempty, ?_, hlimit⟩
  unfold BatchTask.ready at hready
  have hcount : ¬ wrap32 ((b.addTask reqByteSize now c req).nitems * 2) ≥ b.batchLimit :=
    fun hge => hready ⟨hnonempty, hstart, .inr (.inl hge)⟩
  unfold wrap32 at hcount
  rw [Nat.mod_eq_of_lt (by omega)] at hcount
  omega

lemma WillBeReady.ready {b : BatchTask ι} (h : WillBeReady b) :
    b.ready (b.startTimestampMs + b.producerBatchDelayTimeMs) :=
  ⟨h.nonempty, h.started, .inr (.inr le_rfl)⟩

/-! ## Nothing is forgotten -/

lemma batchRawAdd_idle (c : ι) (req : AddRequest) (topic : Option TopicConfig) (now : ℕ) :
    (s.batchRawAdd reqByteSize c req topic now).idle = s.idle := by
  unfold Helper.batchRawAdd
  dsimp only
  split <;> rfl

lemma BatchInv.busy_eq (h : BatchInv s) (vtid : ℤ) {l : ℕ} (hl : s.batches.length ≤ l) :
    s.busy vtid = ∑ n ∈ Finset.range l, onRoutine vtid (s.processes n) := by
  refine Finset.sum_subset (Finset.range_subset_range.mpr hl) fun n _ hn => ?_
  have hnone : s.processes n = none := by
    by_contra hp
    obtain ⟨p, hp⟩ := Option.ne_none_iff_exists'.mp hp
    exact hn (Finset.mem_range.mpr (h.lt_of_process hp))
  rw [hnone]
  rfl

lemma busy_join (h : BatchInv s) {s' : Helper ι} (h' : BatchInv s') {c : ι} {req : AddRequest}
    {n : ℕ} (hj : Joins s s' c req n) (vtid : ℤ) : s'.busy vtid = s.busy vtid := by
  have hsame : ∀ m, onRoutine vtid (s'.processes m) = onRoutine vtid (s.processes m) := by
    intro m
    by_cases hm : m = n
    · rw [hm, hj.unprocessed]
      rcases hj.cases with ⟨_, hp, _⟩ | ⟨_, hp, _⟩
      · rw [hp, Function.update_self]
        rfl
      · rw [hp, Function.update_self]
    · rcases hj.cases with ⟨_, hp, _⟩ | ⟨_, hp, _⟩
      · rw [hp, Function.update_of_ne hm]
      · rw [hp, Function.update_of_ne hm]
  rw [h.busy_eq vtid (le_max_left _ s'.batches.length),
    h'.busy_eq vtid (le_max_right s.batches.length _)]
  exact Finset.sum_congr rfl fun m _ => hsame m

/-- **A new call** leaves a batch that will be ready. -/
lemma Live.batchRawAdd (h : Live ndaemonThread nprocessRoutine s) (hs : BatchInv s) {c : ι}
    (hc : s.calls c = none) {req : AddRequest} {topic : Option TopicConfig} {now : ℕ}
    (hsized : Sized (.batchRawAdd c req topic now : BatchEvent ι)) :
    Live ndaemonThread nprocessRoutine (s.batchRawAdd reqByteSize c req topic now) := by
  obtain ⟨hne, hlen, hnow, hqueue, hcfg⟩ := hsized
  obtain ⟨n, b, hcol, _, _, _, hkey, _⟩ := hs.placed.collects_of topic (keyOf req)
  obtain ⟨_, hinfos, hbatches⟩ := @addToBatch_eq ι _ reqByteSize _ _ _ _ _ hcol c now
  obtain ⟨hworld, hworld'⟩ := @batchRawAdd_world ι s _ reqByteSize c req topic now
  obtain ⟨n', hj⟩ := @Placed.joins ι _ s reqByteSize hs.placed c req topic now
  have hsmall : b.nitems < 2 ^ 30 ∧ b.batchLimit < 2 ^ 31 := by
    rcases hcol.batch with ⟨hinfo, hb⟩ | ⟨_, _, rfl⟩
    · obtain ⟨_, b', hb', hwill⟩ := h.ready _ n hinfo
      have hb : s.batches[n]? = some b := hb
      rw [hb] at hb'
      cases hb'
      exact ⟨hwill.few, hwill.limit⟩
    · obtain ⟨h0, hlimit⟩ := @initBatch_limit ι _ topic hcfg
      rw [h0]
      exact ⟨by norm_num, hlimit⟩
  refine ⟨fun key m hm => ?_, fun vtid h0 hlt => ?_⟩
  · rw [hworld', hinfos] at hm
    rw [hworld, hbatches m]
    by_cases heq : key = keyOf req
    · rw [heq, Function.update_self] at hm
      split at hm
      · cases hm
      · rename_i hready
        cases hm
        refine ⟨heq ▸ hqueue, b.addTask reqByteSize now c req, ?_,
          willBeReady_addTask hsmall.1 hsmall.2 hne hlen hnow hready⟩
        rw [if_pos rfl]
        exact congrArg some (if_neg hready)
    · rw [Function.update_of_ne heq] at hm
      rw [if_neg]
      · exact h.ready key m hm
      · rintro rfl
        exact heq (hkey key hm)
  · rw [batchRawAdd_idle, busy_join hs (hs.join hj hc) hj]
    exact h.routines vtid h0 hlt

/-- What does not touch the batches leaves them as ready as they were. -/
lemma Live.of_same (h : Live ndaemonThread nprocessRoutine s) {s' : Helper ι}
    (hbatches : s'.batches = s.batches) (hinfos : s'.batchInfos = s.batchInfos)
    (hbusy : ∀ vtid, s'.idle vtid + s'.busy vtid = s.idle vtid + s.busy vtid) :
    Live ndaemonThread nprocessRoutine s' := by
  refine ⟨fun key n hk => ?_, fun vtid h0 hlt => ?_⟩
  · rw [hinfos] at hk
    rw [hbatches]
    exact h.ready key n hk
  · rw [hbusy]
    exact h.routines vtid h0 hlt

/-- A batch goes from one step of its process to the next. -/
lemma Live.setProcess (h : Live ndaemonThread nprocessRoutine s) (hs : BatchInv s) {n : ℕ}
    {p q : Process ι} (hp : s.processes n = some p)
    (hpq : ∀ vtid, onRoutine vtid (some p) = onRoutine vtid (some q)) {s' : Helper ι}
    (hbatches : s'.batches = s.batches) (hinfos : s'.batchInfos = s.batchInfos)
    (hidle : s'.idle = s.idle) (hq : s'.processes = Function.update s.processes n (some q)) :
    Live ndaemonThread nprocessRoutine s' := by
  refine h.of_same hbatches hinfos fun vtid => ?_
  have hbusy := busy_update (congrArg List.length hbatches) (hs.lt_of_process hp) hq vtid
  rw [hp, hpq] at hbusy
  rw [hidle]
  omega

lemma Live.dispatchTo (h : Live ndaemonThread nprocessRoutine s) (hs : BatchInv s)
    {key : ℤ × ℤ × ℤ} {n : ℕ} {b : BatchTask ι} (hkey : s.batchInfos key = some n)
    (hb : s.batches[n]? = some b) {vtid : ℤ} (hidle : s.idle vtid ≠ 0) :
    Live ndaemonThread nprocessRoutine (s.dispatchTo key n b vtid) := by
  have hn := (List.getElem?_eq_some_iff.mp hb).1
  have hnone := (hs.placed.infos key n hkey).1
  refine ⟨fun key' m hk => ?_, fun v h0 hlt => ?_⟩
  · have hk : Function.update s.batchInfos key none key' = some m := hk
    have hne : key' ≠ key := by
      rintro rfl
      rw [Function.update_self] at hk
      cases hk
    rw [Function.update_of_ne hne] at hk
    obtain ⟨h0, b', hb', hwill⟩ := h.ready key' m hk
    refine ⟨h0, b', ?_, hwill⟩
    show (s.batches.set n { b with status := .taken })[m]? = some b'
    rw [List.getElem?_set_ne]
    · exact hb'
    · rintro rfl
      obtain ⟨_, hne', hsame⟩ := hs.placed.infos key' n hk
      obtain ⟨t, ht⟩ := List.exists_mem_of_ne_nil _ hne'
      exact hne ((hsame t ht).symm.trans ((hs.placed.infos key n hkey).2.2 t ht))
  · have hlen : (s.dispatchTo key n b vtid).batches.length = s.batches.length := List.length_set
    have hbusy := @busy_update ι _ s (s.dispatchTo key n b vtid) hlen n hn
      (some ⟨.routine vtid, .rawAdd⟩) rfl v
    have hcount := h.routines v h0 hlt
    rw [hnone] at hbusy
    have hnew : onRoutine v (some ⟨.routine vtid, .rawAdd⟩ : Option (Process ι)) =
        if vtid = v then 1 else 0 := rfl
    have hold : onRoutine v (none : Option (Process ι)) = 0 := rfl
    rw [hnew, hold] at hbusy
    show Function.update s.idle vtid (s.idle vtid - 1) v + _ = _
    by_cases hv : vtid = v
    · rw [if_pos hv] at hbusy
      rw [← hv, Function.update_self]
      rw [← hv] at hbusy hcount
      omega
    · rw [if_neg hv] at hbusy
      rw [Function.update_of_ne (Ne.symm hv)]
      omega

lemma Live.finish (h : Live ndaemonThread nprocessRoutine s) (hs : BatchInv s) {n : ℕ}
    {runner : Runner ι} {ret : RetCode} (hp : s.processes n = some ⟨runner, .notify ret []⟩) :
    Live ndaemonThread nprocessRoutine
      ((s.setProcess n ⟨runner, .ended ret⟩).release ret runner) := by
  have hn := hs.lt_of_process hp
  cases runner with
  | call c =>
    have hsame : ∀ s' : Helper ι, s'.batches = s.batches → s'.batchInfos = s.batchInfos →
        s'.idle = s.idle →
        s'.processes = Function.update s.processes n (some ⟨.call c, .ended ret⟩) →
        Live ndaemonThread nprocessRoutine s' := by
      intro s' hb hi hd hq
      refine h.setProcess hs hp (fun vtid => ?_) hb hi hd hq
      rfl
    unfold Helper.release
    dsimp only
    split
    · exact hsame _ rfl rfl rfl rfl
    · exact hsame _ rfl rfl rfl rfl
  | routine vtid =>
    refine h.of_same rfl rfl fun v => ?_
    have hbusy := @busy_update ι _ s
      ((s.setProcess n ⟨.routine vtid, .ended ret⟩).release ret (.routine vtid)) rfl n hn
      (some ⟨.routine vtid, .ended ret⟩) rfl v
    rw [hp] at hbusy
    have hold : onRoutine v (some ⟨.routine vtid, .notify ret []⟩ : Option (Process ι)) =
        if vtid = v then 1 else 0 := rfl
    have hnew : onRoutine v (some ⟨.routine vtid, .ended ret⟩ : Option (Process ι)) = 0 := rfl
    rw [hnew, hold] at hbusy
    show Function.update s.idle vtid (s.idle vtid + 1) v + _ = _
    by_cases hv : vtid = v
    · rw [if_pos hv] at hbusy
      rw [← hv, Function.update_self]
      rw [← hv] at hbusy
      omega
    · rw [if_neg hv] at hbusy
      rw [Function.update_of_ne (Ne.symm hv)]
      omega

/-- **Every step leaves nothing forgotten.** -/
theorem Live.step (h : Live ndaemonThread nprocessRoutine s) (hs : BatchInv s) {e : BatchEvent ι}
    (hsized : Sized e) :
    Live ndaemonThread nprocessRoutine (s.step reqByteSize ndaemonThread e) := by
  cases e with
  | batchRawAdd c req topic now =>
    dsimp only [Helper.step]
    cases hc : s.calls c with
    | some call => exact h
    | none => exact h.batchRawAdd hs hc hsized
  | dispatch key now =>
    dsimp only [Helper.step]
    split
    · exact h
    rename_i n hkey
    split
    · exact h
    rename_i b hb
    split
    · rename_i hready
      exact h.dispatchTo hs hkey hb hready.2
    · exact h
  | rawAdd n ret =>
    dsimp only [Helper.step]
    split
    · rename_i runner b hp hb
      refine h.setProcess hs hp (fun vtid => ?_) rfl rfl rfl rfl
      cases runner <;> rfl
    · exact h
  | notify n =>
    dsimp only [Helper.step]
    split
    · rename_i runner ret c rest hp
      have hsame : ∀ s' : Helper ι, s'.batches = s.batches → s'.batchInfos = s.batchInfos →
          s'.idle = s.idle →
          s'.processes = Function.update s.processes n (some ⟨runner, .notify ret rest⟩) →
          Live ndaemonThread nprocessRoutine s' := by
        intro s' hb hi hd hq
        refine h.setProcess hs hp (fun vtid => ?_) hb hi hd hq
        cases runner <;> rfl
      split
      · exact hsame _ rfl rfl rfl rfl
      · exact hsame _ rfl rfl rfl rfl
    · exact h
  | finish n =>
    dsimp only [Helper.step]
    split
    · rename_i runner ret hp
      exact h.finish hs hp
    · exact h
  | wait c =>
    dsimp only [Helper.step]
    split
    · split
      · exact h.of_same rfl rfl fun _ => rfl
      · split
        · exact h
        · exact h.of_same rfl rfl fun _ => rfl
    · exact h
  | put c =>
    dsimp only [Helper.step]
    split
    · split
      · exact h.of_same rfl rfl fun _ => rfl
      · exact h.of_same rfl rfl fun _ => rfl
    · exact h

/-! ## The end of the work -/

theorem Live.allReturned (h : Live ndaemonThread nprocessRoutine s) (hs : BatchInv s)
    (hdaemon : 0 < ndaemonThread) (hroutine : 0 < nprocessRoutine)
    (hquiet : ∀ e, Own e → s.step reqByteSize ndaemonThread e = s) : AllReturned s := by
  -- every process has come to its end
  have hended : ∀ n p, s.processes n = some p → ∃ ret, p.progress = .ended ret := by
    intro n p hp
    obtain ⟨runner, progress⟩ := p
    cases progress with
    | ended ret => exact ⟨ret, rfl⟩
    | rawAdd =>
      exfalso
      obtain ⟨b, hb⟩ : ∃ b, s.batches[n]? = some b :=
        ⟨_, List.getElem?_eq_getElem (hs.lt_of_process hp)⟩
      have hstep := congrArg (fun s => s.sent.length) (hquiet (.rawAdd n .ok) trivial)
      dsimp only [Helper.step] at hstep
      rw [hp, hb] at hstep
      have hstep : (s.sent ++ [_]).length = s.sent.length := hstep
      rw [List.length_append] at hstep
      exact absurd hstep (Nat.succ_ne_self _)
    | notify ret rest =>
      exfalso
      cases rest with
      | nil =>
        have hstep := congrArg (fun s => s.processes n) (hquiet (.finish n) trivial)
        dsimp only [Helper.step] at hstep
        rw [hp] at hstep
        have hself : ((s.setProcess n ⟨runner, .ended ret⟩).release ret runner).processes n =
            some ⟨runner, .ended ret⟩ := by
          unfold Helper.release
          split
          · split
            · exact Function.update_self ..
            · exact Function.update_self ..
          · exact Function.update_self ..
        have hstep : ((s.setProcess n ⟨runner, .ended ret⟩).release ret runner).processes n =
            some ⟨runner, .notify ret []⟩ := hstep
        rw [hself] at hstep
        cases hstep
      | cons c rest =>
        have hstep := congrArg (fun s => s.processes n) (hquiet (.notify n) trivial)
        dsimp only [Helper.step] at hstep
        rw [hp] at hstep
        have hself : some (⟨runner, .notify ret rest⟩ : Process ι) =
            some ⟨runner, .notify ret (c :: rest)⟩ := by
          rw [← hstep]
          dsimp only
          have hupdate := Function.update_self n (some (⟨runner, .notify ret rest⟩ : Process ι))
            s.processes
          split
          · exact hupdate.symm
          · exact hupdate.symm
        injection hself with hself
        injection hself with _ hprogress
        injection hprogress with _ hrest
        exact absurd (congrArg List.length hrest).symm (Nat.succ_ne_self _)
  have hidle : ∀ vtid : ℤ, 0 ≤ vtid → vtid < ndaemonThread → s.idle vtid ≠ 0 := by
    intro vtid h0 hlt
    have hbusy : s.busy vtid = 0 := by
      refine Finset.sum_eq_zero fun n _ => ?_
      cases hp : s.processes n with
      | none => rfl
      | some p =>
        obtain ⟨ret, hret⟩ := hended n p hp
        obtain ⟨runner, progress⟩ := p
        have hret : progress = .ended ret := hret
        rw [hret]
        cases runner <;> rfl
    have hcount := h.routines vtid h0 hlt
    omega
  -- and no batch is left in the map
  have hnone : ∀ key, s.batchInfos key = none := by
    intro key
    by_contra hsome
    obtain ⟨n, hkey⟩ := Option.ne_none_iff_exists'.mp hsome
    obtain ⟨h0, b, hb, hwill⟩ := h.ready key n hkey
    have hvtid : 0 ≤ key.2.2.tmod ndaemonThread ∧ key.2.2.tmod ndaemonThread < ndaemonThread := by
      rw [Int.tmod_eq_emod_of_nonneg h0]
      exact ⟨Int.emod_nonneg _ (by omega), Int.emod_lt_of_pos _ (by omega)⟩
    have hstep := congrArg (fun s => s.batchInfos key)
      (hquiet (.dispatch key (b.startTimestampMs + b.producerBatchDelayTimeMs)) trivial)
    dsimp only [Helper.step] at hstep
    rw [hkey] at hstep
    dsimp only at hstep
    rw [hb] at hstep
    dsimp only at hstep
    rw [if_pos ⟨hwill.ready, hidle _ hvtid.1 hvtid.2⟩] at hstep
    have hstep : Function.update s.batchInfos key none key = some n := hstep
    rw [Function.update_self] at hstep
    cases hstep
  intro c call hc
  obtain ⟨ret, hres⟩ : ∃ ret, ∃ runner, s.processes call.batch = some ⟨runner, .ended ret⟩ := by
    cases hp : s.processes call.batch with
    | none =>
      have hne : s.tasks call.batch ≠ [] := List.ne_nil_of_mem (hs.placed.task c call hc)
      obtain ⟨key, hkey⟩ := hs.placed.collects _ hne hp
      rw [hnone key] at hkey
      cases hkey
    | some p =>
      obtain ⟨ret, hret⟩ := hended _ p hp
      exact ⟨ret, p.runner, by rw [← hret]⟩
  obtain ⟨runner, hp⟩ := hres
  have hok := hs.waiting.calls c call hc
  obtain ⟨req, n, phase⟩ := call
  cases phase with
  | done ret => exact ⟨ret, rfl⟩
  | process =>
    obtain ⟨_, hact, _⟩ := hok
    have hact : active (s.processes n) := hact
    rw [show s.processes n = some ⟨runner, .ended ret⟩ from hp] at hact
    exact hact.elim
  | wait =>
    exfalso
    obtain ⟨k, hk, hpipe⟩ := hok
    rw [hp] at hpipe
    have hpipe : s.pipes k = [ret] := hpipe
    have hstep := congrArg (fun s => s.calls c) (hquiet (.wait c) trivial)
    dsimp only [Helper.step] at hstep
    rw [hc] at hstep
    dsimp only at hstep
    rw [hk] at hstep
    dsimp only at hstep
    rw [hpipe] at hstep
    have hstep : Function.update s.calls c (some ⟨req, n, .put ret⟩) c = some ⟨req, n, .wait⟩ :=
      hstep
    rw [Function.update_self] at hstep
    cases hstep
  | put ret' =>
    exfalso
    obtain ⟨k, hk, _⟩ := hok
    have hstep := congrArg (fun s => s.calls c) (hquiet (.put c) trivial)
    dsimp only [Helper.step] at hstep
    rw [hc] at hstep
    dsimp only at hstep
    rw [hk] at hstep
    have hstep : Function.update s.calls c (some ⟨req, n, .done ret'⟩) c =
        some ⟨req, n, .put ret'⟩ := hstep
    rw [Function.update_self] at hstep
    cases hstep

/-- The steps that the process of a batch with these tasks still takes. -/
def processWork (ntasks : ℕ) : Option (Process ι) → ℕ
  | none => ntasks + 3
  | some ⟨_, .rawAdd⟩ => ntasks + 2
  | some ⟨_, .notify _ rest⟩ => rest.length + 1
  | some ⟨_, .ended _⟩ => 0

/-- The steps that a call still takes by itself. -/
def callWork : Option RawCall → ℕ
  | some ⟨_, _, .wait⟩ => 2
  | some ⟨_, _, .put _⟩ => 1
  | _ => 0

/-- The steps that a batch still takes, with the calls in it. -/
def Helper.batchWork (s : Helper ι) (n : ℕ) : ℕ :=
  processWork (s.tasks n).length (s.processes n) +
    ((s.tasks n).map fun t => callWork (s.calls t.1)).sum

def Helper.work (s : Helper ι) : ℕ := ∑ n ∈ Finset.range s.batches.length, s.batchWork n

lemma work_lt_of_process {s' : Helper ι} (hlen : s'.batches.length = s.batches.length)
    (htasks : s'.tasks = s.tasks) (hcalls : ∀ c, callWork (s'.calls c) ≤ callWork (s.calls c))
    {n : ℕ} (hn : n < s.batches.length) (hother : ∀ m, m ≠ n → s'.processes m = s.processes m)
    (hless : processWork (s.tasks n).length (s'.processes n) <
      processWork (s.tasks n).length (s.processes n)) : s'.work < s.work := by
  unfold Helper.work Helper.batchWork
  rw [hlen, htasks]
  have hsum : ∀ m, ((s.tasks m).map fun t => callWork (s'.calls t.1)).sum ≤
      ((s.tasks m).map fun t => callWork (s.calls t.1)).sum :=
    fun m => List.sum_le_sum fun t _ => hcalls t.1
  refine Finset.sum_lt_sum (fun m _ => ?_) ⟨n, Finset.mem_range.mpr hn, ?_⟩
  · by_cases hm : m = n
    · rw [hm]
      exact Nat.add_le_add hless.le (hsum n)
    · rw [hother m hm]
      exact Nat.add_le_add_left (hsum m) _
  · exact Nat.add_lt_add_of_lt_of_le hless (hsum n)

lemma work_lt_of_call {s' : Helper ι} (hs : BatchInv s) (hbatches : s'.batches = s.batches)
    (hprocesses : s'.processes = s.processes) {c : ι} {call : RawCall}
    (hc : s.calls c = some call) (hother : ∀ c', c' ≠ c → s'.calls c' = s.calls c')
    (hless : callWork (s'.calls c) < callWork (s.calls c)) : s'.work < s.work := by
  have htasks : s'.tasks = s.tasks := by
    funext n
    unfold Helper.tasks
    rw [hbatches]
  have hle : ∀ c', callWork (s'.calls c') ≤ callWork (s.calls c') := by
    intro c'
    by_cases heq : c' = c
    · rw [heq]
      exact hless.le
    · rw [hother c' heq]
  have htask := hs.placed.task c call hc
  have hlt : call.batch < s.batches.length := lt_of_tasks_ne (List.ne_nil_of_mem htask)
  unfold Helper.work Helper.batchWork
  rw [hbatches, htasks, hprocesses]
  refine Finset.sum_lt_sum (fun m _ => ?_) ⟨call.batch, Finset.mem_range.mpr hlt, ?_⟩
  · exact Nat.add_le_add_left (List.sum_le_sum fun t _ => hle t.1) _
  · refine Nat.add_lt_add_left (List.sum_lt_sum _ _ (fun t _ => hle t.1) ⟨_, htask, hless⟩) _

/-- **Every step of the helper itself makes less work**, if it changes anything. -/
theorem eq_or_work_lt (hs : BatchInv s) {e : BatchEvent ι} (hown : Own e) :
    s.step reqByteSize ndaemonThread e = s ∨
      (s.step reqByteSize ndaemonThread e).work < s.work := by
  cases e with
  | batchRawAdd c req topic now => exact hown.elim
  | dispatch key now =>
    dsimp only [Helper.step]
    split
    · exact .inl rfl
    rename_i n hkey
    split
    · exact .inl rfl
    rename_i b hb
    split
    · right
      have hn := (List.getElem?_eq_some_iff.mp hb).1
      refine work_lt_of_process List.length_set (tasks_dispatchTo hb _) (fun _ => le_rfl) hn
        (fun m hm => Function.update_of_ne hm ..) ?_
      have hself : ∀ vtid, (s.dispatchTo key n b vtid).processes n =
          some ⟨.routine vtid, .rawAdd⟩ := fun vtid => Function.update_self ..
      rw [hself, (hs.placed.infos key n hkey).1]
      exact Nat.lt_succ_self _
    · exact .inl rfl
  | rawAdd n ret =>
    dsimp only [Helper.step]
    split
    · rename_i runner b hp hb
      right
      refine work_lt_of_process rfl rfl (fun _ => le_rfl) (hs.lt_of_process hp)
        (fun m hm => Function.update_of_ne hm ..) ?_
      have hself : ∀ q, Function.update s.processes n (some ⟨runner, .notify ret q⟩) n =
          some ⟨runner, .notify ret q⟩ := fun q => Function.update_self ..
      show processWork _ (Function.update s.processes n _ n) < _
      rw [hself, hp, tasks_eq hb]
      show (b.tasks.map Prod.fst).length + 1 < b.tasks.length + 2
      rw [List.length_map]
      exact Nat.lt_succ_self _
    · exact .inl rfl
  | notify n =>
    dsimp only [Helper.step]
    split
    · rename_i runner ret c rest hp
      have hless : ∀ s' : Helper ι, s'.batches = s.batches → s'.calls = s.calls →
          s'.processes = Function.update s.processes n (some ⟨runner, .notify ret rest⟩) →
          s'.work < s.work := by
        intro s' hbatches hcalls hprocesses
        refine work_lt_of_process (congrArg List.length hbatches) ?_ (fun c => by rw [hcalls])
          (hs.lt_of_process hp) (fun m hm => ?_) ?_
        · funext m
          unfold Helper.tasks
          rw [hbatches]
        · rw [hprocesses, Function.update_of_ne hm]
        · rw [hprocesses, Function.update_self, hp]
          exact Nat.lt_succ_self _
      right
      split
      · exact hless _ rfl rfl rfl
      · exact hless _ rfl rfl rfl
    · exact .inl rfl
  | finish n =>
    dsimp only [Helper.step]
    split
    · rename_i runner ret hp
      right
      have hless : ∀ s' : Helper ι, s'.batches = s.batches →
          (∀ c, callWork (s'.calls c) ≤ callWork (s.calls c)) →
          s'.processes = Function.update s.processes n (some ⟨runner, .ended ret⟩) →
          s'.work < s.work := by
        intro s' hbatches hcalls hprocesses
        refine work_lt_of_process (congrArg List.length hbatches) ?_ hcalls (hs.lt_of_process hp)
          (fun m hm => ?_) ?_
        · funext m
          unfold Helper.tasks
          rw [hbatches]
        · rw [hprocesses, Function.update_of_ne hm]
        · rw [hprocesses, Function.update_self, hp]
          exact Nat.zero_lt_one
      unfold Helper.release
      split
      · split
        · exact hless _ rfl (fun _ => le_rfl) rfl
        · rename_i c _ call hc
          refine hless _ rfl (fun c' => ?_) rfl
          show callWork (Function.update s.calls c _ c') ≤ callWork (s.calls c')
          by_cases heq : c' = c
          · rw [heq, Function.update_self]
            exact Nat.zero_le _
          · rw [Function.update_of_ne heq]
      · exact hless _ rfl (fun _ => le_rfl) rfl
    · exact .inl rfl
  | wait c =>
    dsimp only [Helper.step]
    split
    · rename_i req n hc
      have hless : ∀ (s' : Helper ι) phase, s'.batches = s.batches →
          s'.processes = s.processes →
          s'.calls = Function.update s.calls c (some ⟨req, n, phase⟩) →
          callWork (some ⟨req, n, phase⟩) < 2 → s'.work < s.work := by
        intro s' phase hbatches hprocesses hcalls hwork
        refine work_lt_of_call hs hbatches hprocesses hc (fun c' hne => ?_) ?_
        · rw [hcalls, Function.update_of_ne hne]
        · rw [hcalls, Function.update_self, hc]
          exact hwork
      split
      · exact .inr (hless _ (.done .errNotifierMiss) rfl rfl rfl Nat.zero_lt_two)
      · split
        · exact .inl rfl
        · rename_i ret rets hpipe
          exact .inr (hless _ (.put ret) rfl rfl rfl Nat.one_lt_two)
    · exact .inl rfl
  | put c =>
    dsimp only [Helper.step]
    split
    · rename_i req n ret hc
      have hless : ∀ s' : Helper ι, s'.batches = s.batches → s'.processes = s.processes →
          s'.calls = Function.update s.calls c (some ⟨req, n, .done ret⟩) → s'.work < s.work := by
        intro s' hbatches hprocesses hcalls
        refine work_lt_of_call hs hbatches hprocesses hc (fun c' hne => ?_) ?_
        · rw [hcalls, Function.update_of_ne hne]
        · rw [hcalls, Function.update_self, hc]
          exact Nat.zero_lt_one
      right
      split
      · exact hless _ rfl rfl rfl
      · exact hless _ rfl rfl rfl
    · exact .inl rfl

/-! ## Returning once -/

lemma step_done (hs : BatchInv s) (e : BatchEvent ι) {c : ι} {call : RawCall} {ret : RetCode}
    (hc : s.calls c = some call) (hdone : call.phase = .done ret) :
    (s.step reqByteSize ndaemonThread e).calls c = some call := by
  -- another call, or one that has not returned, takes the step
  have hother : ∀ c' call' call'', s.calls c' = some call' →
      (∀ ret, call'.phase ≠ .done ret) →
      Function.update s.calls c' (some call'') c = some call := by
    intro c' call' call'' hc' hphase
    rw [Function.update_of_ne]
    · exact hc
    · rintro rfl
      rw [hc] at hc'
      cases hc'
      exact hphase ret hdone
  cases e with
  | batchRawAdd c' req topic now =>
    dsimp only [Helper.step]
    cases hc' : s.calls c' with
    | some call' => exact hc
    | none =>
      obtain ⟨n, hj⟩ := @Placed.joins ι _ s reqByteSize hs.placed c' req topic now
      have hne : c ≠ c' := by
        rintro rfl
        rw [hc] at hc'
        cases hc'
      rcases hj.cases with ⟨_, _, hcalls, _⟩ | ⟨_, _, hcalls, _⟩
      · rw [hcalls, Function.update_of_ne hne, hc]
      · rw [hcalls, Function.update_of_ne hne, hc]
  | dispatch key now =>
    dsimp only [Helper.step]
    split
    · exact hc
    split
    · exact hc
    split
    · exact hc
    · exact hc
  | rawAdd n ret =>
    dsimp only [Helper.step]
    split
    · exact hc
    · exact hc
  | notify n =>
    dsimp only [Helper.step]
    split
    · split
      · exact hc
      · exact hc
    · exact hc
  | finish n =>
    dsimp only [Helper.step]
    split
    · rename_i runner ret' hp
      cases runner with
      | routine vtid => exact hc
      | call c' =>
        have hact : active (s.processes n) := by
          rw [hp]
          trivial
        obtain ⟨call', hc', _, hphase⟩ := hs.waiting.runner n c' _ hp hact
        unfold Helper.release
        dsimp only [Helper.setProcess]
        rw [hc']
        refine hother c' call' _ hc' fun ret hret => ?_
        rw [hphase] at hret
        cases hret
    · exact hc
  | wait c' =>
    dsimp only [Helper.step]
    split
    · rename_i req n hc'
      split
      · exact hother c' _ _ hc' fun _ hret => nomatch hret
      · split
        · exact hc
        · exact hother c' _ _ hc' fun _ hret => nomatch hret
    · exact hc
  | put c' =>
    dsimp only [Helper.step]
    split
    · rename_i req n ret' hc'
      split
      · exact hother c' _ _ hc' fun _ hret => nomatch hret
      · exact hother c' _ _ hc' fun _ hret => nomatch hret
    · exact hc

end

/-! ## Every run -/

section
variable {ι : Type} [DecidableEq ι] (reqByteSize : AddRequest → ℕ)
  (ndaemonThread nprocessRoutine : ℕ)

lemma batchInv_init : BatchInv
    (helper reqByteSize ndaemonThread nprocessRoutine : Machine (Helper ι) (BatchEvent ι)).init where
  placed :=
    { task := fun _ _ hc => (nomatch hc)
      call := fun _ _ ht => (nomatch ht)
      nodup := fun _ => List.nodup_nil
      nonempty := fun _ hn => (nomatch hn)
      key := fun _ _ ht => (nomatch ht)
      infos := fun _ _ hk => (nomatch hk)
      collects := fun _ hn => absurd rfl hn
      process := fun _ hn => absurd rfl hn }
  results :=
    { sent := fun _ ho => (nomatch ho)
      nodup := List.nodup_nil
      result := fun _ _ hr => (nomatch hr) }
  waiting :=
    { owned := Pool.owned_empty
      fresh := fun _ _ => rfl
      calls := fun _ _ hc => (nomatch hc)
      empty := fun _ _ => rfl
      runner := fun _ _ _ hp => (nomatch hp)
      rest := fun _ _ _ _ hp => (nomatch hp) }

lemma live_init : Live ndaemonThread nprocessRoutine
    (helper reqByteSize ndaemonThread nprocessRoutine : Machine (Helper ι) (BatchEvent ι)).init where
  ready := fun _ _ hk => (nomatch hk)
  routines := fun _ h0 hlt => if_pos ⟨h0, hlt⟩

/-- **Batching delivers exactly once.**  In every run of any number of calls, dispatching and
processing threads, each call is in one request at most, and returns the result of this request; it
returns once; and when no new calls come all calls return. -/
theorem batchRawAdd_exactlyOnce (es : List (BatchEvent ι)) :
    (helper reqByteSize ndaemonThread nprocessRoutine).Always ExactlyOnce
        (helper reqByteSize ndaemonThread nprocessRoutine).init es ∧
      (∀ es' c call ret, ((helper reqByteSize ndaemonThread nprocessRoutine).exec
          (helper reqByteSize ndaemonThread nprocessRoutine).init es).calls c = some call →
        call.phase = .done ret → ((helper reqByteSize ndaemonThread nprocessRoutine).exec
          (helper reqByteSize ndaemonThread nprocessRoutine).init (es ++ es')).calls c =
            some call) ∧
      (0 < ndaemonThread → 0 < nprocessRoutine → (∀ e ∈ es, Sized e) →
        (helper reqByteSize ndaemonThread nprocessRoutine).Settles Own AllReturned
          ((helper reqByteSize ndaemonThread nprocessRoutine).exec
            (helper reqByteSize ndaemonThread nprocessRoutine).init es)) := by
  have hinit := @batchInv_init ι _ reqByteSize ndaemonThread nprocessRoutine
  have hstep : ∀ (s : Helper ι) e, BatchInv s → BatchInv (s.step reqByteSize ndaemonThread e) :=
    fun _ e h => h.step e
  have halways := Machine.Always.of_step (M := helper reqByteSize ndaemonThread nprocessRoutine)
    hstep hinit es
  refine ⟨halways.mono fun _ h => h.exactlyOnce, fun es' c call ret hc hdone => ?_,
    fun hdaemon hroutine hsized => ?_⟩
  · rw [Machine.exec_append]
    have hlast := halways.last
    generalize (helper reqByteSize ndaemonThread nprocessRoutine).exec _ es = s at hc hlast ⊢
    induction es' generalizing s with
    | nil => exact hc
    | cons e es' ih => exact ih _ (step_done hlast e hc hdone) (hlast.step e)
  · have hboth : ∀ (s : Helper ι) e,
        BatchInv s ∧ Live ndaemonThread nprocessRoutine s → Sized e →
        BatchInv (s.step reqByteSize ndaemonThread e) ∧
          Live ndaemonThread nprocessRoutine (s.step reqByteSize ndaemonThread e) :=
      fun s e h he => ⟨h.1.step e, h.2.step h.1 he⟩
    have hown : ∀ e : BatchEvent ι, Own e → Sized e := by
      intro e he
      cases e with
      | batchRawAdd c req topic now => exact he.elim
      | dispatch key now => trivial
      | rawAdd n ret => trivial
      | notify n => trivial
      | finish n => trivial
      | wait c => trivial
      | put c => trivial
    have halong : (helper reqByteSize ndaemonThread nprocessRoutine).Along (fun _ e => Sized e)
        (helper reqByteSize ndaemonThread nprocessRoutine).init es :=
      ((Machine.along_of_forall (fun _ _ => trivial) _ es).and_labels hsized).mono
        fun _ _ h => h.1
    have hlive := (Machine.Always.of_inv (M := helper reqByteSize ndaemonThread nprocessRoutine)
      hboth ⟨hinit, live_init reqByteSize ndaemonThread nprocessRoutine⟩ halong).last
    exact Machine.settles_of_measure (M := helper reqByteSize ndaemonThread nprocessRoutine)
      Helper.work (fun s e h he => hboth s e h (hown e he))
      (fun s e h he hne => (eq_or_work_lt h.1 he).resolve_left hne)
      (fun s h hquiet => h.2.allReturned h.1 hdaemon hroutine hquiet) hlive

end

/-- A call that waits, and one that makes the batch ready: both return in the end. -/
theorem twoCalls_exactlyOnce : (helper Store.itemsByteSize 1 1).Settles Own AllReturned
    ((helper Store.itemsByteSize 1 1).exec (helper Store.itemsByteSize 1 1).init
      ([.batchRawAdd 0 (requestOf 40) (some smallTopic) 1,
        .batchRawAdd 1 (requestOf 50) (some smallTopic) 2] : List (BatchEvent ℕ))) := by
  refine (batchRawAdd_exactlyOnce Store.itemsByteSize 1 1 _).2.2 Nat.zero_lt_one Nat.zero_lt_one ?_
  have hcfg : ∀ cfg ∈ some smallTopic, 0 ≤ cfg.batchLimit ∧ cfg.batchLimit < 2 ^ 31 := by
    intro cfg h
    cases h
    decide
  intro e he
  simp only [List.mem_cons, List.not_mem_nil, or_false] at he
  rcases he with rfl | rfl
  · exact ⟨List.cons_ne_nil _ _, by decide, by decide, by decide, hcfg⟩
  · exact ⟨List.cons_ne_nil _ _, by decide, by decide, by decide, hcfg⟩

end PhxQueue.Producer
