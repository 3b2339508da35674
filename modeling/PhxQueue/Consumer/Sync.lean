import PhxQueue.Lib.Run
import PhxQueue.Consumer.Distribute

/-!
# The rounds of `Sync`

`Sync` of `consumer/hblock.cpp` finds the pending queues of the groups that have changed and
distributes them.

* `adjustGroups`, `sync`   the code;
* `RoundOk`            what a round should achieve;
* `FreedInTime`        no group needs a slot that a later group gives up;
* `roundOk_iff`        **rounds are as they should exactly when slots are freed in time**;
* `lateSlot_not_roundOk`   a round where a slot comes free too late.
-/

set_option linter.unusedSectionVars false

namespace PhxQueue.Consumer
open Comm PhxQueue.Config Lib

/-- The result of `GetAddrScale`, a `std::map`. -/
structure ScaleMap (A : Type) where
  scales : List (ℤ × A)
  sorted : (scales.map Prod.fst).Pairwise (· < ·)

/-- What a round of `Sync` reads; `none` is a failed call.  A group is looked up in the
configuration of its own turn, and `GetQueueByAddrScale` is a virtual function. -/
structure Round (A : Type) where
  addrScales : Option (ScaleMap A)
  lastModTime : ℕ
  config : ℤ → Option (TopicConfig × ProtoStores)
  queueIdxs : ℤ → Option (List ℕ)

/-- The slots and the magic of the shared memory, and what decides whether a group is adjusted. -/
structure HeartBeatLock where
  queues : List (Option Slot)
  bufMagic : Bool := false
  confLastModTime : ℕ := 0
  scaleHashs : ℤ → ℕ := fun _ => 0

/-- `GetPendingQueues`; the indexes come as a `std::set`. -/
def getPendingQueues (allQueues : List ListedQueue) (queueIdxs : List ℕ) : List ListedQueue :=
  (allQueues.zipIdx.filter fun x => x.2 ∈ queueIdxs).map Prod.fst

section
variable {A : Type} (calHash : A → ℕ)

/-- The loop of `Sync` over the groups; no pending queues where it returns an error. -/
def adjustGroups (r : Round A) (s : HeartBeatLock) :
    List (ℤ × A) → HeartBeatLock × Option PendingQueues
  | [] => (s, some [])
  | (g, scale) :: rest =>
    if s.bufMagic = true ∧ r.lastModTime = s.confLastModTime ∧ calHash scale = s.scaleHashs g then
      adjustGroups r s rest
    else
      match r.config g with
      | none => (s, none)
      | some (topic, stores) =>
        match r.queueIdxs g with
        | none =>
          -- the group is in the map already
          let t := adjustGroups r s rest
          (t.1, t.2.map fun pendings => (g, []) :: pendings)
        | some queueIdxs =>
          let t := adjustGroups r
            { s with scaleHashs := Function.update s.scaleHashs g (calHash scale) } rest
          (t.1, t.2.map fun pendings =>
            (g, getPendingQueues (getAllQueues topic stores g) queueIdxs) :: pendings)

def HeartBeatLock.clearInvalid (s : HeartBeatLock) (m : ScaleMap A) : HeartBeatLock :=
  { s with queues := clearInvalidConsumerGroupIDs (m.scales.map Prod.fst) s.queues }

def sync (s : HeartBeatLock) (r : Round A) : HeartBeatLock :=
  match r.addrScales with
  | none => s
  | some m =>
    let t := adjustGroups calHash r (s.clearInvalid m) m.scales
    match t.2 with
    | none => t.1
    | some pendings =>
      { t.1 with
        queues := distubePendingQueues pendings t.1.queues
        bufMagic := true
        confLastModTime := r.lastModTime }

/-- The slots of `nproc` workers, all zero, and the rounds. -/
def heartBeatLock (nproc : ℕ) : Machine HeartBeatLock (Round A) where
  init := { queues := List.replicate nproc none }
  step := sync calHash

/-! ## What a round should achieve -/

def Succeeds (s : HeartBeatLock) (r : Round A) (m : ScaleMap A) (pendings : PendingQueues) : Prop :=
  r.addrScales = some m ∧ (adjustGroups calHash r (s.clearInvalid m) m.scales).2 = some pendings

/-- The slots `queues` as a round leaves them with these groups and pending queues. -/
structure Assigned (nproc : ℕ) (s : HeartBeatLock) (valid : List ℤ) (pendings : PendingQueues)
    (queues : List (Option Slot)) : Prop where
  unique : Places.Distinct queues
  belongs : ∀ x ∈ queues.reduceOption, ∀ kv ∈ pendings, x.consumerGroupId = kv.1 →
    x ∈ kv.2.map ListedQueue.slot
  stays : ∀ (i : ℕ) (x : Slot), s.queues[i]? = some (some x) →
    (∃ kv ∈ pendings, x ∈ kv.2.map ListedQueue.slot) ∨
      (x.consumerGroupId ∈ valid ∧ x.consumerGroupId ∉ pendings.map Prod.fst) →
    queues[i]? = some (some x)
  complete : numPending pendings + heldForOthers queues (pendings.map Prod.fst) ≤ nproc →
    ∀ kv ∈ pendings, ∀ x ∈ kv.2, ∃! i : ℕ, queues[i]? = some (some x.slot)

def RoundOk (nproc : ℕ) (s : HeartBeatLock) (r : Round A) : Prop :=
  ∀ m pendings, Succeeds calHash s r m pendings →
    Assigned nproc s (m.scales.map Prod.fst) pendings (sync calHash s r).queues

/-- Where the slots are enough for all pending queues, they are for those of the first groups
already, while the groups after them hold what they had. -/
def FreedInTime (nproc : ℕ) (s : HeartBeatLock) (r : Round A) : Prop :=
  ∀ m pendings, Succeeds calHash s r m pendings →
    numPending pendings + heldForOthers (s.clearInvalid m).queues (pendings.map Prod.fst) ≤ nproc →
    ∀ first, first <+: pendings →
      numPending first + heldForOthers (s.clearInvalid m).queues (first.map Prod.fst) ≤ nproc

end

/-! ## A round -/

lemma getPendingQueues_sublist (allQueues : List ListedQueue) (queueIdxs : List ℕ) :
    (getPendingQueues allQueues queueIdxs).Sublist allQueues := by
  have h := (List.filter_sublist (p := fun x : ListedQueue × ℕ => decide (x.2 ∈ queueIdxs))
    (l := allQueues.zipIdx)).map Prod.fst
  rwa [List.zipIdx_map_fst] at h

lemma pendingOk_getPendingQueues (topic : TopicConfig) (stores : ProtoStores) (g : ℤ)
    (queueIdxs : List ℕ) :
    PendingOk (g, getPendingQueues (getAllQueues topic stores g) queueIdxs) := by
  have hsub := getPendingQueues_sublist (getAllQueues topic stores g) queueIdxs
  refine ⟨fun x hx => consumerGroupId_of_mem (hsub.subset hx), ?_⟩
  have hpairs : ((getPendingQueues (getAllQueues topic stores g) queueIdxs).map
      ListedQueue.pair).Nodup := nodup_getAllQueues.sublist (hsub.map _)
  have hfactor : ListedQueue.pair = (fun x : Slot => (x.storeId, x.queueId)) ∘ ListedQueue.slot :=
    rfl
  rw [hfactor, ← List.map_map] at hpairs
  exact hpairs.of_map _

section
variable {A : Type} {calHash : A → ℕ}

lemma adjustGroups_queues (r : Round A) (s : HeartBeatLock) (scales : List (ℤ × A)) :
    (adjustGroups calHash r s scales).1.queues = s.queues := by
  induction scales generalizing s with
  | nil => rfl
  | cons x rest ih =>
    obtain ⟨g, scale⟩ := x
    unfold adjustGroups
    split
    · exact ih s
    · split
      · rfl
      · split
        · exact ih s
        · exact ih _

/-- The processed groups are some of the map's, in its order. -/
lemma adjustGroups_pendings {r : Round A} {s : HeartBeatLock} {scales : List (ℤ × A)}
    {pendings : PendingQueues} (h : (adjustGroups calHash r s scales).2 = some pendings) :
    (pendings.map Prod.fst).Sublist (scales.map Prod.fst) ∧ ∀ kv ∈ pendings, PendingOk kv := by
  induction scales generalizing s pendings with
  | nil =>
    cases h
    exact ⟨List.Sublist.refl _, fun kv hkv => absurd hkv List.not_mem_nil⟩
  | cons x rest ih =>
    obtain ⟨g, scale⟩ := x
    -- a processed group joins the groups after it
    have hcons : ∀ {s' : HeartBeatLock} {queues : List ListedQueue}, PendingOk (g, queues) →
        (adjustGroups calHash r s' rest).2.map (fun pendings => (g, queues) :: pendings) =
          some pendings →
        (pendings.map Prod.fst).Sublist (g :: rest.map Prod.fst) ∧
          ∀ kv ∈ pendings, PendingOk kv := by
      intro s' queues hqueues h
      obtain ⟨pendings', hrest, rfl⟩ := Option.map_eq_some_iff.mp h
      obtain ⟨hsub, hok⟩ := ih hrest
      refine ⟨hsub.cons_cons g, fun kv hkv => ?_⟩
      rcases List.mem_cons.mp hkv with rfl | hmem
      · exact hqueues
      · exact hok kv hmem
    unfold adjustGroups at h
    split at h
    · obtain ⟨hsub, hok⟩ := ih h
      exact ⟨hsub.cons g, hok⟩
    · split at h
      · cases h
      · rename_i topic stores _
        split at h
        · exact hcons ⟨fun y hy => absurd hy List.not_mem_nil, List.nodup_nil⟩ h
        · exact hcons (pendingOk_getPendingQueues topic stores g _) h

/-- As many slots as workers, and no queue in two of them. -/
structure HeartBeatLock.Inv (nproc : ℕ) (s : HeartBeatLock) : Prop where
  length : s.queues.length = nproc
  nodup : s.queues.reduceOption.Nodup

variable {nproc : ℕ} {s : HeartBeatLock} {r : Round A}

lemma HeartBeatLock.Inv.clearInvalid (h : s.Inv nproc) (m : ScaleMap A) :
    (s.clearInvalid m).Inv nproc := by
  refine ⟨?_, ?_⟩
  · show (s.queues.map _).length = nproc
    rw [List.length_map, h.length]
  · show ((s.queues.map (Option.filter _)).reduceOption).Nodup
    rw [Places.reduceOption_filter]
    exact h.nodup.filter _

lemma ScaleMap.nodup (m : ScaleMap A) : (m.scales.map Prod.fst).Nodup :=
  m.sorted.imp fun hlt => ne_of_lt hlt

lemma Succeeds.distribution {m : ScaleMap A} {pendings : PendingQueues}
    (h : Succeeds calHash s r m pendings) (hs : s.Inv nproc) :
    (pendings.map Prod.fst).Sublist (m.scales.map Prod.fst) ∧
      Distribution pendings (s.clearInvalid m).queues (sync calHash s r).queues := by
  obtain ⟨hm, hp⟩ := h
  obtain ⟨hsub, hok⟩ := adjustGroups_pendings hp
  refine ⟨hsub, ?_⟩
  have hspec := distubePendingQueues_spec (m.nodup.sublist hsub) hok (hs.clearInvalid m).nodup
  have hsync : (sync calHash s r).queues =
      distubePendingQueues pendings (s.clearInvalid m).queues := by
    unfold sync
    rw [hm]
    dsimp only
    rw [hp]
    dsimp only
    rw [adjustGroups_queues]
  rwa [hsync]

theorem HeartBeatLock.Inv.sync (hs : s.Inv nproc) (r : Round A) :
    (sync calHash s r).Inv nproc := by
  cases hm : r.addrScales with
  | none =>
    unfold Consumer.sync
    rwa [hm]
  | some m =>
    cases hp : (adjustGroups calHash r (s.clearInvalid m) m.scales).2 with
    | none =>
      have hc := hs.clearInvalid m
      unfold Consumer.sync
      rw [hm]
      dsimp only
      rw [hp]
      dsimp only
      refine ⟨?_, ?_⟩
      · rw [adjustGroups_queues, hc.length]
      · rw [adjustGroups_queues]
        exact hc.nodup
    | some pendings =>
      obtain ⟨_, hd⟩ := Succeeds.distribution ⟨hm, hp⟩ hs
      exact ⟨hd.length.trans (hs.clearInvalid m).length, hd.nodup⟩

lemma HeartBeatLock.Inv.init (nproc : ℕ) : (heartBeatLock calHash nproc).init.Inv nproc := by
  refine ⟨List.length_replicate, ?_⟩
  show (List.replicate nproc none).reduceOption.Nodup
  rw [List.reduceOption_replicate_none]
  exact List.nodup_nil

/-- **A round does what it should exactly when the slots it needs are given up in time.** -/
theorem roundOk_iff_freedInTime (hs : s.Inv nproc) (r : Round A) :
    RoundOk calHash nproc s r ↔ FreedInTime calHash nproc s r := by
  refine forall_congr' fun m => forall_congr' fun pendings => forall_congr' fun h => ?_
  obtain ⟨hsub, hd⟩ := h.distribution hs
  have hc := hs.clearInvalid m
  have hunique : Places.Distinct (Consumer.sync calHash s r).queues :=
    (Places.distinct_iff _).mpr hd.nodup
  have hothers := heldForOthers_congr hc.nodup hd.nodup hd.others
  -- to be held by exactly one worker is to be held
  have hheld : ∀ x : Slot, (∃! i : ℕ, (Consumer.sync calHash s r).queues[i]? = some (some x)) ↔
      x ∈ (Consumer.sync calHash s r).queues.reduceOption := by
    intro x
    constructor
    · rintro ⟨i, hi, _⟩
      exact Places.mem_reduceOption_of_getElem? hi
    · intro hx
      obtain ⟨i, hi⟩ := List.mem_iff_getElem?.mp (List.reduceOption_mem_iff.mp hx)
      exact ⟨i, hi, fun j hj => hunique j i x hj hi⟩
  have hfit := hd.complete
  rw [hc.length] at hfit
  constructor
  · intro ha htotal
    rw [← hothers] at htotal
    refine hfit.mp fun kv hkv x hx => ?_
    obtain ⟨y, hy, rfl⟩ := List.mem_map.mp hx
    exact (hheld _).mp (ha.complete htotal kv hkv y hy)
  · intro hfree
    refine ⟨hunique, hd.belongs, ?_, ?_⟩
    · intro i x hi hx
      have hvalid : x.consumerGroupId ∈ m.scales.map Prod.fst := by
        rcases hx with ⟨kv, hkv, hx⟩ | ⟨hvalid, _⟩
        · have hok := (adjustGroups_pendings h.2).2 kv hkv
          rw [hok.consumerGroupId hx]
          exact hsub.subset (List.mem_map_of_mem hkv)
        · exact hvalid
      have hkept : (s.clearInvalid m).queues[i]? = some (some x) :=
        Places.getElem?_filter.mpr ⟨hi, decide_eq_true hvalid⟩
      refine hd.stays i x hkept ?_
      rcases hx with hx | ⟨_, hx⟩
      · exact .inr hx
      · exact .inl hx
    · intro htotal kv hkv x hx
      rw [hothers] at htotal
      exact (hheld _).mpr (hfit.mpr (hfree htotal) kv hkv _ (List.mem_map_of_mem hx))

variable (calHash nproc)

/-- **The rounds of a run assign the pending queues as they should if and only if in each of them
the slots it needs are given up in time.** -/
theorem roundOk_iff (rs : List (Round A)) :
    (heartBeatLock calHash nproc).Along (RoundOk calHash nproc)
        (heartBeatLock calHash nproc).init rs ↔
      (heartBeatLock calHash nproc).Along (FreedInTime calHash nproc)
        (heartBeatLock calHash nproc).init rs := by
  have hstep : ∀ (s : HeartBeatLock) (r : Round A), s.Inv nproc →
      ((heartBeatLock calHash nproc).step s r).Inv nproc := fun s r hs => hs.sync r
  exact Machine.along_congr_of_inv hstep (fun s r hs => roundOk_iff_freedInTime hs r)
    (HeartBeatLock.Inv.init nproc) rs

end

/-! ## A slot that comes free too late -/

def twoGroupsTopic : TopicConfig :=
  { pubs := [⟨1, [1, 2], [1]⟩], queueInfos := [⟨1, [(0, 0)], false, 1⟩]
    itemsByteSizeLimit := 1024 }

/-- Both groups are processed, and the queue is pending for one of them. -/
def roundFor (g : ℤ) (lastModTime : ℕ) : Round Unit where
  addrScales := some ⟨[(1, ()), (2, ())], by decide⟩
  lastModTime := lastModTime
  config := fun _ => some (twoGroupsTopic, [⟨1, []⟩])
  queueIdxs := fun g' => some (if g' = g then [0] else [])

def noHash (_ : Unit) : ℕ := 0

/-- **Counterexample.**  The only worker has the queue of group 2; then the queue of group 1 is
pending instead.  Group 1 finds no free slot, and group 2 frees its own after that. -/
theorem lateSlot_not_roundOk : ¬ (heartBeatLock noHash 1).Along (RoundOk noHash 1)
    (heartBeatLock noHash 1).init [roundFor 2 1, roundFor 1 2] := by
  rintro ⟨_, hround, _⟩
  have ha := hround ⟨[(1, ()), (2, ())], by decide⟩ [(1, [⟨1, 1, 1, 0⟩]), (2, [])]
    ⟨rfl, by decide⟩
  obtain ⟨i, hi, _⟩ := ha.complete (by decide) (1, [⟨1, 1, 1, 0⟩]) (by decide) ⟨1, 1, 1, 0⟩
    (by decide)
  exact absurd (List.mem_of_getElem? hi) (by decide)

end PhxQueue.Consumer
