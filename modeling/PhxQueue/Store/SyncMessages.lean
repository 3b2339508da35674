import PhxQueue.Lib.Joins
import PhxQueue.Store.Cursors
import PhxQueue.Store.MetaQueue

/-!
# Messages with cursors

`KeepSyncThread::SyncCursorID` of the master proposes the prev cursors of its table, and
`SyncCtrl::SyncCursorID` of every replica executes the message.  The messages of successive masters
may come in any order.

* `proposedInfo`            what a master proposes, its table changing while it reads;
* `syncCursorID`            the execution of a message, with its errors;
* `raise`, `syncCursorID_cases`   it raises the cursors of its details, all of them if they are in the
                            table;
* `syncAll_isGreatest`      after any messages a prev cursor is the greatest that has been reported;
* `syncAll_congr`           neither order nor repeats matter;
* `syncAll_monotone`        **cursors only grow, whatever the order of the messages**;
* `exec_compare`            the steps of a replica that executes a message do the same.
-/

set_option linter.unusedSectionVars false

namespace PhxQueue.Store
open Comm Lib Config

/-! ## The code -/

/-- `SyncCtrlInfo::QueueDetail::ConsumerGroupDetail`. -/
structure ConsumerGroupDetail where
  consumerGroupId : ℕ
  prevCursorId : ℕ
deriving DecidableEq

/-- `SyncCtrlInfo::QueueDetail`. -/
structure QueueDetail where
  queueId : ℕ
  consumerGroupDetails : List ConsumerGroupDetail
deriving DecidableEq

abbrev SyncCtrlInfo := List QueueDetail

structure SyncTables where
  sync : SyncCtrl := fun _ _ => {}
  metaQueues : ℕ → MetaQueue := fun _ => {}

section
variable (cfg : StoreConfig) (opt : StoreOption)

/-- The message of `KeepSyncThread::SyncCursorID`; `view q g` is the table when it reads the cursor
of group `g` on queue `q`. -/
def proposedInfo (view : ℕ → ℕ → SyncCtrl) : SyncCtrlInfo :=
  cfg.queues.filterMap fun q =>
    let details := cfg.consumerGroups.filterMap fun g =>
      ((view q g).getCursorID cfg.opt g q).toOption.map fun prev => ⟨g, prev⟩
    if details = [] then none else some ⟨q, details⟩

/-- The stored prev cursor of the group is not less. -/
def SyncCtrl.known (s : SyncCtrl) (queueId : ℕ) (d : ConsumerGroupDetail) : Bool :=
  match s.getCursorID opt d.consumerGroupId queueId with
  | .ok cur => cur ≥ d.prevCursorId
  | .error _ => false

/-- The loop over the groups of a queue, with `max_prev_cursor_id`. -/
def syncGroups (queueId : ℕ) :
    List ConsumerGroupDetail → ℕ → SyncCtrl → SyncCtrl × Except RetCode ℕ
  | [], maxPrevCursorId, s => (s, .ok maxPrevCursorId)
  | d :: ds, maxPrevCursorId, s =>
    let maxPrevCursorId :=
      if maxPrevCursorId = uint64Max ∨ d.prevCursorId > maxPrevCursorId then d.prevCursorId
      else maxPrevCursorId
    if s.known opt queueId d then syncGroups queueId ds maxPrevCursorId s else
    match s.updateCursorID opt d.consumerGroupId queueId d.prevCursorId true with
    | .error ret => (s, .error ret)
    | .ok s =>
      match s.updateCursorID opt d.consumerGroupId queueId d.prevCursorId false with
      | .error ret => (s, .error ret)
      | .ok s => syncGroups queueId ds maxPrevCursorId s

/-- `SyncCtrl::SyncCursorID`; `none` where `GetMetaQueue` gives no queue and it is used. -/
def syncCursorID : SyncCtrlInfo → SyncTables → SyncTables × Option RetCode
  | [], t => (t, some .ok)
  | qd :: info, t =>
    match syncGroups opt qd.queueId qd.consumerGroupDetails uint64Max t.sync with
    | (s, .error ret) => ({ t with sync := s }, some ret)
    | (s, .ok maxPrevCursorId) =>
      if qd.queueId < opt.nqueue then
        let metaQueue := t.metaQueues qd.queueId
        syncCursorID info {
          sync := s
          metaQueues := Function.update t.metaQueues qd.queueId
            (if maxPrevCursorId = uint64Max then metaQueue.clearDequeueStat
              else metaQueue.updateDequeueStat maxPrevCursorId) }
      else ({ t with sync := s }, none)

def syncAll (infos : List SyncCtrlInfo) (t : SyncTables) : SyncTables :=
  infos.foldl (fun t info => (syncCursorID opt info t).1) t

end

/-! ## What a message says -/

def SyncCtrlInfo.details (info : SyncCtrlInfo) : List SyncDetail :=
  info.flatMap fun qd =>
    qd.consumerGroupDetails.map fun d => ⟨qd.queueId, d.consumerGroupId, d.prevCursorId⟩

def SyncCtrlInfo.InTable (opt : StoreOption) (info : SyncCtrlInfo) : Prop :=
  ∀ qd ∈ info, qd.queueId < opt.nqueue ∧
    ∀ d ∈ qd.consumerGroupDetails, SyncCtrl.inTable opt d.consumerGroupId qd.queueId

instance (opt : StoreOption) (info : SyncCtrlInfo) : Decidable (info.InTable opt) :=
  inferInstanceAs (Decidable (∀ qd ∈ info, _ ∧ ∀ d ∈ qd.consumerGroupDetails, _))

/-- The stored prev cursor, `⊥` where there is none. -/
def SyncCtrl.stored (s : SyncCtrl) (queueId consumerGroupId : ℕ) : WithBot ℕ :=
  (s queueId consumerGroupId).prev

/-- The detail is about the group on the queue. -/
def SyncDetail.Concerns (q g : ℕ) (d : SyncDetail) : Prop :=
  d.queueId = q ∧ d.consumerGroupId = g

instance (q g : ℕ) : DecidablePred (SyncDetail.Concerns q g) := fun d =>
  inferInstanceAs (Decidable (d.queueId = q ∧ d.consumerGroupId = g))

def SyncDetail.cursor (d : SyncDetail) : WithBot ℕ := WithBot.some d.prevCursorId

/-- Both cursors of the group become the one reported, if that is greater than the stored one. -/
def SyncCtrl.raise (s : SyncCtrl) (d : SyncDetail) : SyncCtrl :=
  if d.cursor ≤ s.stored d.queueId d.consumerGroupId then s
  else s.set d.queueId d.consumerGroupId {
    prev := some d.prevCursorId
    next := some d.prevCursorId
    acked := max (s d.queueId d.consumerGroupId).acked (level d.prevCursorId) }

section
variable {cfg : StoreConfig} {opt : StoreOption} {s : SyncCtrl} {t : SyncTables}

/-- **What a master proposes is in the table.** -/
theorem proposedInfo_inTable (view : ℕ → ℕ → SyncCtrl) :
    (proposedInfo cfg view).InTable cfg.opt := by
  intro qd hqd
  obtain ⟨q, hq, hsome⟩ := List.mem_filterMap.mp hqd
  have hlt := (StoreConfig.mem_queues.mp hq).1
  dsimp only at hsome
  split at hsome
  · cases hsome
  · cases hsome
    refine ⟨hlt, fun d hd => ?_⟩
    obtain ⟨g, hg, hd⟩ := List.mem_filterMap.mp hd
    obtain ⟨prev, _, rfl⟩ := Option.map_eq_some_iff.mp hd
    obtain ⟨h0, hle⟩ := StoreConfig.mem_consumerGroups.mp hg
    exact ⟨h0, hle, hlt⟩

/-! ## Raising -/

namespace SyncCtrl

lemma set_set (q g : ℕ) (item item' : SyncCtrlItem) :
    (s.set q g item).set q g item' = s.set q g item' := by
  unfold set
  rw [Function.update_self, Function.update_idem, Function.update_idem]

lemma raise_of_le {d : SyncDetail}
    (h : d.cursor ≤ s.stored d.queueId d.consumerGroupId) : s.raise d = s :=
  if_pos h

lemma raise_of_lt {d : SyncDetail}
    (h : s.stored d.queueId d.consumerGroupId < d.cursor) :
    s.raise d = s.set d.queueId d.consumerGroupId {
      prev := some d.prevCursorId
      next := some d.prevCursorId
      acked := max (s d.queueId d.consumerGroupId).acked (level d.prevCursorId) } :=
  if_neg (not_le.mpr h)

lemma raise_frame {d : SyncDetail} {q g : ℕ} (h : ¬ d.Concerns q g) : s.raise d q g = s q g := by
  rcases le_or_gt d.cursor (s.stored d.queueId d.consumerGroupId) with hle | hlt
  · rw [raise_of_le hle]
  · rw [raise_of_lt hlt]
    apply set_of_ne
    rintro ⟨rfl, rfl⟩
    exact h ⟨rfl, rfl⟩

/-- The stored cursor is a register that joins what is reported of it. -/
lemma raise_joins (q g : ℕ) : Joins SyncCtrl.raise (fun s => s.stored q g)
    (SyncDetail.Concerns q g) SyncDetail.cursor where
  joins := by
    rintro s d ⟨rfl, rfl⟩
    rcases le_or_gt d.cursor (s.stored d.queueId d.consumerGroupId) with
      hle | hlt
    · rw [raise_of_le hle, max_eq_left hle]
    · rw [raise_of_lt hlt, max_eq_right hlt.le]
      unfold stored
      rw [set_self]
      rfl
  frame := by
    intro s d hd
    unfold stored
    rw [raise_frame hd]

/-- The cursors stay in order: both are set to the same. -/
lemma raise_ordered {d : SyncDetail} {q g : ℕ} (h : Ordered (s q g)) : Ordered (s.raise d q g) := by
  by_cases hd : d.Concerns q g
  · obtain ⟨rfl, rfl⟩ := hd
    rcases le_or_gt d.cursor (s.stored d.queueId d.consumerGroupId) with
      hle | hlt
    · rw [raise_of_le hle]
      exact h
    · rw [raise_of_lt hlt, set_self]
      intro p hp n hn
      cases hp
      cases hn
      exact le_rfl
  · rw [raise_frame hd]
    exact h

/-- The next cursor follows the prev one where that moves, and stays where it does not. -/
lemma raise_next (d : SyncDetail) (q g : ℕ) : (s.raise d q g).next =
    if (s.raise d).stored q g = s.stored q g then (s q g).next else (s.raise d q g).prev := by
  by_cases hd : d.Concerns q g
  · obtain ⟨rfl, rfl⟩ := hd
    rcases le_or_gt d.cursor (s.stored d.queueId d.consumerGroupId) with
      hle | hlt
    · rw [raise_of_le hle, if_pos rfl]
    · have hmoved : (s.raise d).stored d.queueId d.consumerGroupId ≠
          s.stored d.queueId d.consumerGroupId := by
        rw [(raise_joins d.queueId d.consumerGroupId).joins s d ⟨rfl, rfl⟩, max_eq_right hlt.le]
        exact hlt.ne'
      rw [if_neg hmoved, raise_of_lt hlt, set_self]
  · have hsame : (s.raise d).stored q g = s.stored q g := (raise_joins q g).frame s d hd
    rw [if_pos hsame, raise_frame hd]

/-! ### Many details -/

variable (ds : List SyncDetail)

lemma foldl_raise_frame {q g : ℕ} (h : ∀ d ∈ ds, ¬ d.Concerns q g) :
    ds.foldl SyncCtrl.raise s q g = s q g := by
  induction ds generalizing s with
  | nil => rfl
  | cons d ds ih =>
    rw [List.foldl_cons, ih fun d' hd' => h d' (List.mem_cons_of_mem d hd')]
    exact raise_frame (h d List.mem_cons_self)

lemma foldl_raise_ordered {q g : ℕ} (h : Ordered (s q g)) :
    Ordered (ds.foldl SyncCtrl.raise s q g) := by
  induction ds generalizing s with
  | nil => exact h
  | cons d ds ih => exact ih (raise_ordered h)

lemma foldl_raise_next (q g : ℕ) : (ds.foldl SyncCtrl.raise s q g).next =
    if (ds.foldl SyncCtrl.raise s).stored q g = s.stored q g then (s q g).next
    else (ds.foldl SyncCtrl.raise s q g).prev := by
  induction ds generalizing s with
  | nil => exact (if_pos rfl).symm
  | cons d ds ih =>
    rw [List.foldl_cons, ih, raise_next]
    have hfirst : s.stored q g ≤ (s.raise d).stored q g := (raise_joins q g).le_foldl s [d]
    have hrest : (s.raise d).stored q g ≤ (ds.foldl SyncCtrl.raise (s.raise d)).stored q g :=
      (raise_joins q g).le_foldl (s.raise d) ds
    by_cases hd : (s.raise d).stored q g = s.stored q g
    · rw [if_pos hd, hd]
    · rw [if_neg hd]
      have hmoved : (ds.foldl SyncCtrl.raise (s.raise d)).stored q g ≠ s.stored q g := by
        intro heq
        exact hd (le_antisymm (hrest.trans heq.le) hfirst)
      rw [if_neg hmoved]
      split
      · rename_i heq
        exact heq.symm
      · rfl

end SyncCtrl

/-! ## The code raises -/

lemma SyncCtrl.known_iff {q : ℕ} {d : ConsumerGroupDetail}
    (hin : SyncCtrl.inTable opt d.consumerGroupId q) :
    s.known opt q d = true ↔ WithBot.some d.prevCursorId ≤ s.stored q d.consumerGroupId := by
  unfold SyncCtrl.known SyncCtrl.getCursorID SyncCtrl.stored
  rw [if_pos hin]
  cases (s q d.consumerGroupId).prev with
  | none =>
    constructor
    · intro h
      cases h
    · intro h
      exact absurd h (not_le.mpr (WithBot.bot_lt_coe _))
  | some c =>
    show decide (c ≥ d.prevCursorId) = true ↔ WithBot.some d.prevCursorId ≤ WithBot.some c
    rw [WithBot.coe_le_coe]
    exact decide_eq_true_iff

lemma syncGroups_cons {q maxPrev : ℕ} {d : ConsumerGroupDetail} {ds : List ConsumerGroupDetail}
    (hin : SyncCtrl.inTable opt d.consumerGroupId q) : ∃ maxPrev',
      syncGroups opt q (d :: ds) maxPrev s =
        syncGroups opt q ds maxPrev' (s.raise ⟨q, d.consumerGroupId, d.prevCursorId⟩) := by
  refine ⟨if maxPrev = uint64Max ∨ d.prevCursorId > maxPrev then d.prevCursorId else maxPrev, ?_⟩
  unfold syncGroups
  dsimp only
  by_cases hknown : s.known opt q d = true
  · rw [if_pos hknown]
    have hle := (SyncCtrl.known_iff hin).mp hknown
    have hsame : s.raise ⟨q, d.consumerGroupId, d.prevCursorId⟩ = s := SyncCtrl.raise_of_le hle
    rw [hsame]
    cases ds <;> rfl
  · rw [if_neg hknown]
    have hlt := not_le.mp fun hle => hknown ((SyncCtrl.known_iff hin).mpr hle)
    have hraise := @SyncCtrl.raise_of_lt s ⟨q, d.consumerGroupId, d.prevCursorId⟩ hlt
    unfold SyncCtrl.updateCursorID
    rw [if_pos hin]
    dsimp only
    rw [if_pos hin]
    dsimp only
    rw [hraise, if_pos rfl, if_neg Bool.false_ne_true, SyncCtrl.set_set, SyncCtrl.set_self]
    cases ds <;> rfl

/-- A detail that is not in the table ends the loop. -/
lemma syncGroups_fails {q maxPrev : ℕ} {d : ConsumerGroupDetail} {ds : List ConsumerGroupDetail}
    (hin : ¬ SyncCtrl.inTable opt d.consumerGroupId q) :
    syncGroups opt q (d :: ds) maxPrev s = (s, .error .errArg) := by
  have hknown : ¬ s.known opt q d = true := by
    unfold SyncCtrl.known SyncCtrl.getCursorID
    rw [if_neg hin]
    exact Bool.false_ne_true
  unfold syncGroups
  dsimp only
  rw [if_neg hknown]
  unfold SyncCtrl.updateCursorID
  rw [if_neg hin]

/-- The details of a queue are raised in order, up to the first that is not in the table. -/
lemma syncGroups_cases (q : ℕ) (ds : List ConsumerGroupDetail) (maxPrev : ℕ) (s : SyncCtrl) :
    ∃ raised, raised <+: ds ∧
      (syncGroups opt q ds maxPrev s).1 =
        (raised.map fun d => ⟨q, d.consumerGroupId, d.prevCursorId⟩).foldl SyncCtrl.raise s ∧
      ((∀ d ∈ ds, SyncCtrl.inTable opt d.consumerGroupId q) →
        raised = ds ∧ ∃ m, (syncGroups opt q ds maxPrev s).2 = .ok m) := by
  induction ds generalizing maxPrev s with
  | nil => exact ⟨[], List.prefix_rfl, rfl, fun _ => ⟨rfl, maxPrev, rfl⟩⟩
  | cons d ds ih =>
    by_cases hin : SyncCtrl.inTable opt d.consumerGroupId q
    · obtain ⟨maxPrev', heq⟩ := @syncGroups_cons opt s q maxPrev d ds hin
      obtain ⟨raised, hpre, htable, hall⟩ :=
        ih maxPrev' (s.raise ⟨q, d.consumerGroupId, d.prevCursorId⟩)
      rw [heq]
      refine ⟨d :: raised, List.cons_prefix_cons.mpr ⟨rfl, hpre⟩, htable, fun h => ?_⟩
      obtain ⟨rfl, hok⟩ := hall fun d' hd' => h d' (List.mem_cons_of_mem d hd')
      exact ⟨rfl, hok⟩
    · rw [syncGroups_fails hin]
      exact ⟨[], List.nil_prefix, rfl, fun h => absurd (h d List.mem_cons_self) hin⟩

theorem syncCursorID_cases (info : SyncCtrlInfo) (t : SyncTables) :
    ∃ raised, raised ⊆ info.details ∧
      (syncCursorID opt info t).1.sync = raised.foldl SyncCtrl.raise t.sync ∧
      (info.InTable opt → raised = info.details ∧ (syncCursorID opt info t).2 = some .ok) := by
  induction info generalizing t with
  | nil => exact ⟨[], List.Subset.refl _, rfl, fun _ => ⟨rfl, rfl⟩⟩
  | cons qd info ih =>
    obtain ⟨raised, hpre, htable, hall⟩ :=
      @syncGroups_cases opt qd.queueId qd.consumerGroupDetails uint64Max t.sync
    have hsub : (raised.map fun d => (⟨qd.queueId, d.consumerGroupId, d.prevCursorId⟩ : SyncDetail))
        ⊆ SyncCtrlInfo.details (qd :: info) := by
      intro d hd
      apply List.mem_append_left
      exact List.map_subset _ hpre.subset hd
    unfold syncCursorID
    cases hgroups : syncGroups opt qd.queueId qd.consumerGroupDetails uint64Max t.sync with
    | mk s' result =>
      rw [hgroups] at htable hall
      obtain rfl : s' = _ := htable
      cases result with
      | error ret =>
        refine ⟨_, hsub, rfl, fun h => ?_⟩
        obtain ⟨_, m, hm⟩ := hall (h qd List.mem_cons_self).2
        cases hm
      | ok maxPrev =>
        dsimp only
        by_cases hq : qd.queueId < opt.nqueue
        · rw [if_pos hq]
          generalize Function.update t.metaQueues qd.queueId _ = metaQueues
          obtain ⟨rest, hrest, hsync, hok⟩ := ih ⟨_, metaQueues⟩
          refine ⟨_ ++ rest, List.append_subset.mpr ⟨hsub, fun d hd => ?_⟩, ?_, fun h => ?_⟩
          · exact List.mem_append_right _ (hrest hd)
          · rw [hsync, List.foldl_append]
          · obtain ⟨rfl, _⟩ := hall (h qd List.mem_cons_self).2
            obtain ⟨rfl, hret⟩ := hok fun qd' hqd' => h qd' (List.mem_cons_of_mem qd hqd')
            exact ⟨rfl, hret⟩
        · rw [if_neg hq]
          exact ⟨_, hsub, rfl, fun h => absurd (h qd List.mem_cons_self).1 hq⟩

lemma syncAll_eq (infos : List SyncCtrlInfo) (h : ∀ info ∈ infos, info.InTable opt)
    (t : SyncTables) : (syncAll opt infos t).sync =
      (infos.flatMap SyncCtrlInfo.details).foldl SyncCtrl.raise t.sync := by
  induction infos generalizing t with
  | nil => rfl
  | cons info infos ih =>
    obtain ⟨raised, _, hsync, hall⟩ := @syncCursorID_cases opt info t
    obtain ⟨rfl, _⟩ := hall (h info List.mem_cons_self)
    rw [List.flatMap_cons, List.foldl_append, ← hsync]
    exact ih (fun info' hinfo' => h info' (List.mem_cons_of_mem info hinfo')) _

end

/-! ## Monotone -/

/-- What a message does to the tables: no prev cursor is lowered, groups and queues that it does not
mention keep their cursors, and cursors in order stay so. -/
structure Merges (info : SyncCtrlInfo) (t t' : SyncTables) : Prop where
  grows : ∀ q g, t.sync.stored q g ≤ t'.sync.stored q g
  frame : ∀ q g, (∀ d ∈ info.details, ¬ d.Concerns q g) → t'.sync q g = t.sync q g
  ordered : ∀ q g, Ordered (t.sync q g) → Ordered (t'.sync q g)

section
variable (opt : StoreOption)

theorem syncCursorID_merges (info : SyncCtrlInfo) (t : SyncTables) :
    Merges info t (syncCursorID opt info t).1 := by
  obtain ⟨raised, hsub, hsync, _⟩ := @syncCursorID_cases opt info t
  constructor
  · intro q g
    rw [hsync]
    exact (SyncCtrl.raise_joins q g).le_foldl t.sync raised
  · intro q g hno
    rw [hsync]
    exact SyncCtrl.foldl_raise_frame raised fun d hd => hno d (hsub hd)
  · intro q g h
    rw [hsync]
    exact SyncCtrl.foldl_raise_ordered raised h

theorem syncAll_isGreatest (infos : List SyncCtrlInfo) (h : ∀ info ∈ infos, info.InTable opt)
    (t : SyncTables) (q g : ℕ) :
    IsGreatest (insert (t.sync.stored q g)
        {c | ∃ info ∈ infos, ∃ d ∈ info.details, d.Concerns q g ∧ c = d.cursor})
      ((syncAll opt infos t).sync.stored q g) := by
  have hgreatest := (SyncCtrl.raise_joins q g).isGreatest t.sync
    (infos.flatMap SyncCtrlInfo.details)
  rw [← syncAll_eq infos h t] at hgreatest
  have hset : {c | ∃ d ∈ infos.flatMap SyncCtrlInfo.details, d.Concerns q g ∧ c = d.cursor} =
      {c | ∃ info ∈ infos, ∃ d ∈ info.details, d.Concerns q g ∧ c = d.cursor} := by
    apply Set.ext
    intro c
    constructor
    · rintro ⟨d, hd, hc⟩
      obtain ⟨info, hinfo, hd⟩ := List.mem_flatMap.mp hd
      exact ⟨info, hinfo, d, hd, hc⟩
    · rintro ⟨info, hinfo, d, hd, hc⟩
      exact ⟨d, List.mem_flatMap.mpr ⟨info, hinfo, hd⟩, hc⟩
  unfold candidates at hgreatest
  rw [hset] at hgreatest
  exact hgreatest

/-- The cursors left do not depend on the order, and repeats change nothing. -/
theorem syncAll_congr {infos infos' : List SyncCtrlInfo} (h : ∀ info ∈ infos, info.InTable opt)
    (hsub : infos ⊆ infos') (hsub' : infos' ⊆ infos) (t : SyncTables) (q g : ℕ) :
    ((syncAll opt infos t).sync q g).prev = ((syncAll opt infos' t).sync q g).prev ∧
      ((syncAll opt infos t).sync q g).next = ((syncAll opt infos' t).sync q g).next := by
  have hflat : ∀ {l l' : List SyncCtrlInfo}, l ⊆ l' →
      l.flatMap SyncCtrlInfo.details ⊆ l'.flatMap SyncCtrlInfo.details := by
    intro l l' hll d hd
    obtain ⟨info, hinfo, hd⟩ := List.mem_flatMap.mp hd
    exact List.mem_flatMap.mpr ⟨info, hll hinfo, hd⟩
  rw [syncAll_eq infos h, syncAll_eq infos' fun info hinfo => h info (hsub' hinfo)]
  have hprev : ((infos.flatMap SyncCtrlInfo.details).foldl SyncCtrl.raise t.sync).stored q g =
      ((infos'.flatMap SyncCtrlInfo.details).foldl SyncCtrl.raise t.sync).stored q g :=
    (SyncCtrl.raise_joins q g).eq_of_same t.sync (hflat hsub) (hflat hsub')
  refine ⟨hprev, ?_⟩
  rw [SyncCtrl.foldl_raise_next, SyncCtrl.foldl_raise_next, hprev]
  split
  · rfl
  · exact hprev

end

/-- **Cursors only grow.**  Messages come in any order; each of them lowers no prev cursor, leaves
the groups and queues it does not mention, and keeps prev at most next.  In the end every prev cursor
is the maximum of what it was and what the messages reported. -/
theorem syncAll_monotone (opt : StoreOption) (t : SyncTables) (infos : Multiset SyncCtrlInfo)
    (hin : ∀ info ∈ infos, info.InTable opt) (order : List SyncCtrlInfo)
    (horder : (order : Multiset SyncCtrlInfo) = infos) :
    (∀ n info, order[n]? = some info →
      Merges info (syncAll opt (order.take n) t) (syncAll opt (order.take (n + 1)) t)) ∧
    ∀ q g, IsGreatest (insert (t.sync.stored q g)
        {c | ∃ info ∈ infos, ∃ d ∈ info.details, d.Concerns q g ∧ c = d.cursor})
      ((syncAll opt order t).sync.stored q g) := by
  subst horder
  constructor
  · intro n info hn
    have htake : order.take (n + 1) = order.take n ++ [info] := by
      rw [List.take_add_one, hn]
      rfl
    unfold syncAll
    rw [htake, List.foldl_append]
    exact syncCursorID_merges opt info _
  · exact syncAll_isGreatest opt order hin t

/-- A message with one cursor of group 1 on queue 0. -/
def reportOne (prevCursorId : ℕ) : SyncCtrlInfo := [⟨0, [⟨1, prevCursorId⟩]⟩]

/-- An old message after a new one. -/
theorem newThenOld_monotone :
    (∀ n info, [reportOne 5, reportOne 3][n]? = some info →
      Merges info (syncAll ⟨2, 1, 1⟩ ([reportOne 5, reportOne 3].take n) {})
        (syncAll ⟨2, 1, 1⟩ ([reportOne 5, reportOne 3].take (n + 1)) {})) ∧
    ∀ q g, IsGreatest (insert (({} : SyncTables).sync.stored q g)
        {c | ∃ info ∈ ({reportOne 3, reportOne 5} : Multiset SyncCtrlInfo),
          ∃ d ∈ info.details, d.Concerns q g ∧ c = d.cursor})
      ((syncAll ⟨2, 1, 1⟩ [reportOne 5, reportOne 3] {}).sync.stored q g) :=
  syncAll_monotone ⟨2, 1, 1⟩ {} {reportOne 3, reportOne 5} (by decide) [reportOne 5, reportOne 3]
    (by decide)

/-! ## In a replica -/

section
variable {cfg : StoreConfig} {log : Log} {s : Replica} {batch : List StorePaxosArgs}
  {args : StorePaxosArgs}

lemma executeStep_compare (hbatch : log[s.now]? = some batch) (hargs : batch[s.pos]? = some args)
    {d : SyncDetail} {ds : List SyncDetail} (happ : s.applying = .compare (d :: ds))
    (hin : SyncCtrl.inTable cfg.opt d.consumerGroupId d.queueId) : s.executeStep cfg log =
      if d.cursor ≤ s.sync.stored d.queueId d.consumerGroupId then
        { s with applying := .compare ds }
      else { s with applying := .writePrev d ds } := by
  have hknown := @SyncCtrl.known_iff cfg.opt s.sync d.queueId ⟨d.consumerGroupId, d.prevCursorId⟩ hin
  unfold SyncCtrl.known at hknown
  unfold Replica.executeStep
  rw [hbatch]
  dsimp only
  rw [hargs, happ]
  dsimp only at hknown ⊢
  cases hcur : s.sync.getCursorID cfg.opt d.consumerGroupId d.queueId with
  | error ret =>
    rw [hcur] at hknown
    exact (if_neg fun hle => Bool.false_ne_true (hknown.mpr hle)).symm
  | ok cur =>
    rw [hcur] at hknown
    exact if_congr (decide_eq_true_iff.symm.trans hknown) rfl rfl

lemma executeStep_writePrev (hbatch : log[s.now]? = some batch) (hargs : batch[s.pos]? = some args)
    {d : SyncDetail} {ds : List SyncDetail} (happ : s.applying = .writePrev d ds)
    (hin : SyncCtrl.inTable cfg.opt d.consumerGroupId d.queueId) : s.executeStep cfg log =
      { s with
        sync := s.sync.set d.queueId d.consumerGroupId {
          s.sync d.queueId d.consumerGroupId with
          prev := some d.prevCursorId
          acked := max (s.sync d.queueId d.consumerGroupId).acked (level d.prevCursorId) }
        applying := .writeNext d ds } := by
  unfold Replica.executeStep
  rw [hbatch]
  dsimp only
  rw [hargs, happ]
  dsimp only
  unfold SyncCtrl.updateCursorID
  rw [if_pos hin]
  rfl

lemma executeStep_writeNext (hbatch : log[s.now]? = some batch) (hargs : batch[s.pos]? = some args)
    {d : SyncDetail} {ds : List SyncDetail} (happ : s.applying = .writeNext d ds)
    (hin : SyncCtrl.inTable cfg.opt d.consumerGroupId d.queueId) : s.executeStep cfg log =
      { s with
        sync := s.sync.set d.queueId d.consumerGroupId {
          s.sync d.queueId d.consumerGroupId with next := some d.prevCursorId }
        applying := .compare ds } := by
  unfold Replica.executeStep
  rw [hbatch]
  dsimp only
  rw [hargs, happ]
  dsimp only
  unfold SyncCtrl.updateCursorID
  rw [if_pos hin]
  rfl

lemma exec_details (hbatch : log[s.now]? = some batch) (hargs : batch[s.pos]? = some args)
    {ds : List SyncDetail} (happ : s.applying = .compare ds)
    (hin : ∀ d ∈ ds, SyncCtrl.inTable cfg.opt d.consumerGroupId d.queueId) :
    ∃ n, (Replica.executeStep cfg log)^[n] s =
      { s with sync := ds.foldl SyncCtrl.raise s.sync, applying := .compare [] } := by
  induction ds generalizing s with
  | nil =>
    refine ⟨0, ?_⟩
    rw [Function.iterate_zero, id, List.foldl_nil, ← happ]
  | cons d ds ih =>
    have hd := hin d List.mem_cons_self
    have hds : ∀ d ∈ ds, SyncCtrl.inTable cfg.opt d.consumerGroupId d.queueId :=
      fun d' hd' => hin d' (List.mem_cons_of_mem d hd')
    rcases le_or_gt d.cursor (s.sync.stored d.queueId d.consumerGroupId) with hle | hlt
    · -- the stored cursor is not less: the detail is passed over
      have hstep : s.executeStep cfg log = { s with applying := .compare ds } := by
        rw [executeStep_compare hbatch hargs happ hd, if_pos hle]
      obtain ⟨n, hn⟩ := @ih { s with applying := .compare ds } hbatch hargs rfl hds
      refine ⟨n + 1, ?_⟩
      rw [Function.iterate_succ_apply, hstep, hn, List.foldl_cons, SyncCtrl.raise_of_le hle]
    · have hstep : (Replica.executeStep cfg log)^[3] s =
          { s with sync := s.sync.raise d, applying := .compare ds } := by
        have hprev := @executeStep_writePrev cfg log { s with applying := .writePrev d ds } batch
          args hbatch hargs d ds rfl hd
        have hnext := @executeStep_writeNext cfg log { s with
          sync := s.sync.set d.queueId d.consumerGroupId {
            s.sync d.queueId d.consumerGroupId with
            prev := some d.prevCursorId
            acked := max (s.sync d.queueId d.consumerGroupId).acked (level d.prevCursorId) }
          applying := .writeNext d ds } batch args hbatch hargs d ds rfl hd
        show Replica.executeStep cfg log (Replica.executeStep cfg log (s.executeStep cfg log)) = _
        rw [executeStep_compare hbatch hargs happ hd, if_neg (not_le.mpr hlt), hprev, hnext,
          SyncCtrl.raise_of_lt hlt]
        dsimp only
        rw [SyncCtrl.set_set, SyncCtrl.set_self]
      obtain ⟨n, hn⟩ := @ih { s with sync := s.sync.raise d, applying := .compare ds } hbatch hargs
        rfl hds
      refine ⟨n + 3, ?_⟩
      rw [Function.iterate_add_apply, hstep, hn, List.foldl_cons]

/-- **The steps of a replica** at a message take its table where `SyncCursorID` takes it, if nothing
else comes between. -/
theorem exec_compare (hbatch : log[s.now]? = some batch) (hargs : batch[s.pos]? = some args)
    {info : SyncCtrlInfo} (hinfo : args.syncCtrlInfo = info.details)
    (happ : s.applying = .compare args.syncCtrlInfo) (hin : info.InTable cfg.opt)
    (metaQueues : ℕ → MetaQueue) :
    ∃ n, (Replica.executeStep cfg log)^[n] s =
      { s with
        sync := (syncCursorID cfg.opt info ⟨s.sync, metaQueues⟩).1.sync
        applying := .compare [] } := by
  obtain ⟨raised, _, hsync, hall⟩ := @syncCursorID_cases cfg.opt info ⟨s.sync, metaQueues⟩
  obtain ⟨rfl, _⟩ := hall hin
  rw [hsync]
  rw [hinfo] at happ
  apply exec_details hbatch hargs happ
  intro d hd
  obtain ⟨qd, hqd, hd⟩ := List.mem_flatMap.mp hd
  obtain ⟨gd, hgd, rfl⟩ := List.mem_map.mp hd
  exact (hin qd hqd).2 gd hgd

end

end PhxQueue.Store
