import PhxQueue.Consumer.AddrScales

/-!
# The consumers of a topic

All consumers of a topic, each with its slots.  They do not talk to each other: in a round of `Sync` a
consumer reads the configuration, asks the scheduler, and finds out by itself what it has to consume.

* `fleet`           the consumers, which make rounds in any order;
* `share`           what a consumer has to consume under a configuration;
* `Follows`         a round that reads this configuration, or fails;
* `Moving`          a consumer that has taken the configuration over holds its share;
* `fleet_shares_out`   **once all have taken it over, every queue is at one worker of one consumer**.
-/

set_option linter.unusedSectionVars false

namespace PhxQueue.Consumer
open Comm PhxQueue.Config Lib Lib.Machine

section
variable (murmurHash64 : ℕ → ℕ → ℕ → ℕ) (calHash : List AddrScale → ℕ) (nproc : ConsumerOption → ℕ)

/-- The consumers, and a round of one of them. -/
def fleet : Machine (ConsumerOption → HeartBeatLock) (ConsumerOption × Round (List AddrScale)) where
  init := fun opt => (heartBeatLock calHash (nproc opt)).init
  step locks e := Function.update locks e.1 (sync calHash (locks e.1) e.2)

variable (cfg : Configs) (dynamic : List AddrScale) (opt : ConsumerOption)

/-- What a consumer has to consume for a group. -/
def share (g : ℤ) : List ListedQueue :=
  match cfg.getConsumerGroupIDsByConsumerAddr opt.localAddr with
  | none => []
  | some ids =>
    if g ∈ ids then
      getPendingQueues (getAllQueues cfg.topic cfg.stores g)
        (getQueueByAddrScale murmurHash64 opt (getAllQueues cfg.topic cfg.stores g)
          (cfg.scalesOf dynamic g))
    else []

/-- Every group finds slots for its pending queues when it has its turn. -/
def Roomy (n : ℕ) (s : HeartBeatLock) (r : Round (List AddrScale)) : Prop :=
  ∀ m ∈ r.addrScales, ∀ pendings ∈ (adjustGroups calHash r (s.clearInvalid m) m.scales).2,
    ∀ first ∈ pendings.inits,
      numPending first + heldForOthers (s.clearInvalid m).queues (first.map Prod.fst) ≤ n

/-- A round that reads the configuration `cfg` and an answer of the scheduler; its calls may fail. -/
structure Follows (n : ℕ) (s : HeartBeatLock) (r : Round (List AddrScale)) : Prop where
  lastModTime : r.lastModTime = cfg.lastModTime
  addrScales : r.addrScales = none ∨
    r.addrScales = cfg.getAddrScale opt s.confLastModTime (some dynamic)
  config : ∀ g, r.config g = none ∨ r.config g = some (cfg.topic, cfg.stores)
  queueIdxs : ∀ m ∈ r.addrScales, ∀ x ∈ m.scales, r.queueIdxs x.1 =
    some (getQueueByAddrScale murmurHash64 opt (getAllQueues cfg.topic cfg.stores x.1) x.2)
  roomy : Roomy calHash n s r

/-- The round of a consumer that reads these and whose calls succeed. -/
def reading (s : HeartBeatLock) : Round (List AddrScale) where
  addrScales := cfg.getAddrScale opt s.confLastModTime (some dynamic)
  lastModTime := cfg.lastModTime
  config := fun _ => some (cfg.topic, cfg.stores)
  queueIdxs := fun g => some (getQueueByAddrScale murmurHash64 opt
    (getAllQueues cfg.topic cfg.stores g) (cfg.scalesOf dynamic g))

def Settled (s : HeartBeatLock) : Prop :=
  ∀ x : Slot, x ∈ s.queues.reduceOption ↔
    x ∈ (share murmurHash64 cfg dynamic opt x.consumerGroupId).map ListedQueue.slot

/-- A consumer on its way to the configuration `cfg`. -/
structure Moving (n : ℕ) (s : HeartBeatLock) : Prop where
  inv : s.Inv n
  settled : s.confLastModTime = cfg.lastModTime → Settled murmurHash64 cfg dynamic opt s

end

section
variable {murmurHash64 : ℕ → ℕ → ℕ → ℕ} {calHash : List AddrScale → ℕ} {cfg : Configs}
  {dynamic : List AddrScale} {opt : ConsumerOption} {n : ℕ} {s : HeartBeatLock}
  {r : Round (List AddrScale)} {m : ScaleMap (List AddrScale)} {ids : List ℤ}

/-! ## Shares -/

lemma share_sublist (g : ℤ) : (share murmurHash64 cfg dynamic opt g).Sublist
    (getAllQueues cfg.topic cfg.stores g) := by
  unfold share
  split
  · exact List.nil_sublist _
  · split
    · exact getPendingQueues_sublist _ _
    · exact List.nil_sublist _

lemma scalesOf_ne_nil {g : ℤ} {x : ListedQueue} (hx : x ∈ share murmurHash64 cfg dynamic opt g) :
    cfg.scalesOf dynamic g ≠ [] := by
  intro hnil
  unfold share at hx
  split at hx
  · cases hx
  split at hx
  · rw [hnil] at hx
    obtain ⟨i, -, hi⟩ := mem_getPendingQueues.mp hx
    cases hi
  · cases hx

/-- Two consumers that have a queue in their shares are one. -/
lemma share_unique {g : ℤ} {opt' : ConsumerOption} {x y : ListedQueue}
    (hx : x ∈ share murmurHash64 cfg dynamic opt g) (hy : y ∈ share murmurHash64 cfg dynamic opt' g)
    (hslot : y.slot = x.slot) : opt = opt' := by
  have hpair : y.pair = x.pair := congrArg (fun z : Slot => (z.storeId, z.queueId)) hslot
  obtain rfl : y = x := List.inj_on_of_nodup_map nodup_getAllQueues ((share_sublist g).subset hy)
    ((share_sublist g).subset hx) hpair
  have hindex {o : ConsumerOption} (h : y ∈ share murmurHash64 cfg dynamic o g) :
      ∃ i : ℕ, (getAllQueues cfg.topic cfg.stores g)[i]? = some y ∧
        i ∈ indexes murmurHash64 (getAllQueues cfg.topic cfg.stores g) (cfg.scalesOf dynamic g) o := by
    unfold share at h
    split at h
    · cases h
    split at h
    · exact mem_getPendingQueues.mp h
    · cases h
  obtain ⟨i, hi, hmem⟩ := hindex hx
  obtain ⟨j, hj, hmem'⟩ := hindex hy
  have hnodup : (getAllQueues cfg.topic cfg.stores g).Nodup := List.Nodup.of_map _ nodup_getAllQueues
  obtain rfl : i = j :=
    (List.getElem?_inj (lt_of_mem_indexes hmem) hnodup).mp (hi.trans hj.symm)
  exact indexes_unique hmem hmem'

lemma share_of_mem {g : ℤ}
    (hids : cfg.getConsumerGroupIDsByConsumerAddr opt.localAddr = some ids) (hg : g ∈ ids) :
    share murmurHash64 cfg dynamic opt g = getPendingQueues (getAllQueues cfg.topic cfg.stores g)
      (getQueueByAddrScale murmurHash64 opt (getAllQueues cfg.topic cfg.stores g)
        (cfg.scalesOf dynamic g)) := by
  unfold share
  rw [hids]
  exact if_pos hg

lemma exists_ids {c : ℕ} {scheduler : Option (List AddrScale)}
    (h : cfg.getAddrScale opt c scheduler = some m) :
    ∃ ids, cfg.getConsumerGroupIDsByConsumerAddr opt.localAddr = some ids := by
  unfold Configs.getAddrScale at h
  split at h
  · cases h
  · exact ⟨_, ‹_›⟩

lemma mem_keys_of_share {c : ℕ} (hm : cfg.getAddrScale opt c (some dynamic) = some m) {g : ℤ}
    {x : ListedQueue} (hx : x ∈ share murmurHash64 cfg dynamic opt g) :
    g ∈ m.scales.map Prod.fst := by
  obtain ⟨ids, hids⟩ := exists_ids hm
  have hne := scalesOf_ne_nil hx
  have hg : g ∈ ids := by
    unfold share at hx
    rw [hids] at hx
    dsimp only at hx
    split at hx
    · assumption
    · cases hx
  exact List.mem_map_of_mem ((Configs.mem_getAddrScale hids hm).mpr ⟨hg, rfl, hne⟩)

/-! ## A round -/

lemma follows_reading (h : Roomy calHash n s (reading murmurHash64 cfg dynamic opt s)) :
    Follows murmurHash64 calHash cfg dynamic opt n s (reading murmurHash64 cfg dynamic opt s) where
  lastModTime := rfl
  addrScales := .inr rfl
  config := fun _ => .inr rfl
  queueIdxs := by
    rintro m hm ⟨g, scales⟩ hx
    have hm : cfg.getAddrScale opt s.confLastModTime (some dynamic) = some m := hm
    obtain ⟨ids, hids⟩ := exists_ids hm
    obtain ⟨-, rfl, -⟩ := (Configs.mem_getAddrScale hids hm).mp hx
    rfl
  roomy := h

lemma adjustGroups_confLastModTime (s : HeartBeatLock) (scales : List (ℤ × List AddrScale)) :
    (adjustGroups calHash r s scales).1.confLastModTime = s.confLastModTime := by
  induction scales generalizing s with
  | nil => rfl
  | cons x rest ih =>
    obtain ⟨g, scale⟩ := x
    unfold adjustGroups
    split
    · exact ih s
    · split
      · rfl
      · split
        · exact ih s
        · exact ih _

/-- The pending queues are the shares, and every group has them where the configuration is new. -/
lemma adjustGroups_shares {scales : List (ℤ × List AddrScale)} {pendings : PendingQueues}
    (hconfig : ∀ g, r.config g = none ∨ r.config g = some (cfg.topic, cfg.stores))
    (hidxs : ∀ x ∈ scales, ∃ queueIdxs, r.queueIdxs x.1 = some queueIdxs ∧
      getPendingQueues (getAllQueues cfg.topic cfg.stores x.1) queueIdxs =
        share murmurHash64 cfg dynamic opt x.1)
    (h : (adjustGroups calHash r s scales).2 = some pendings) :
    (∀ kv ∈ pendings, kv.2 = share murmurHash64 cfg dynamic opt kv.1) ∧
      (s.confLastModTime ≠ r.lastModTime → pendings.map Prod.fst = scales.map Prod.fst) := by
  induction scales generalizing s pendings with
  | nil =>
    cases h
    exact ⟨fun kv hkv => absurd hkv List.not_mem_nil, fun _ => rfl⟩
  | cons x rest ih =>
    obtain ⟨g, scale⟩ := x
    have hrest := fun y hy => hidxs y (List.mem_cons_of_mem _ hy)
    obtain ⟨queueIdxs, hq, hshare⟩ := hidxs (g, scale) List.mem_cons_self
    unfold adjustGroups at h
    split at h
    · rename_i hskip
      obtain ⟨hvalues, -⟩ := ih hrest h
      exact ⟨hvalues, fun hne => absurd hskip.2.1.symm hne⟩
    · split at h
      · cases h
      · rename_i topic stores hsome
        rcases hconfig g with hnone | hcfg
        · rw [hsome] at hnone
          cases hnone
        rw [hsome] at hcfg
        cases hcfg
        rw [show r.queueIdxs g = some queueIdxs from hq] at h
        obtain ⟨pendings', hp, rfl⟩ := Option.map_eq_some_iff.mp h
        obtain ⟨hvalues, hkeys⟩ := ih hrest hp
        refine ⟨fun kv hkv => ?_, fun hne => ?_⟩
        · rcases List.mem_cons.mp hkv with rfl | hkv
          · exact hshare
          · exact hvalues kv hkv
        · rw [List.map_cons, List.map_cons, hkeys hne]

lemma mem_clearInvalid {x : Slot} : x ∈ (s.clearInvalid m).queues.reduceOption ↔
    x ∈ s.queues.reduceOption ∧ x.consumerGroupId ∈ m.scales.map Prod.fst := by
  show x ∈ (s.queues.map (Option.filter _)).reduceOption ↔ _
  rw [Places.reduceOption_filter, List.mem_filter, decide_eq_true_iff]

/-- A consumer that holds its share loses nothing when other groups are cleared. -/
lemma Settled.clearInvalid (h : Settled murmurHash64 cfg dynamic opt s) {c : ℕ}
    (hm : cfg.getAddrScale opt c (some dynamic) = some m) :
    Settled murmurHash64 cfg dynamic opt (s.clearInvalid m) := by
  intro x
  rw [mem_clearInvalid, h x]
  constructor
  · exact fun hx => hx.1
  · intro hx
    obtain ⟨y, hy, -⟩ := List.mem_map.mp hx
    exact ⟨hx, mem_keys_of_share hm hy⟩

theorem Moving.sync (h : Moving murmurHash64 cfg dynamic opt n s)
    (hr : Follows murmurHash64 calHash cfg dynamic opt n s r) :
    Moving murmurHash64 cfg dynamic opt n (sync calHash s r) := by
  refine ⟨h.inv.sync r, ?_⟩
  cases hscales : r.addrScales with
  | none =>
    have hsame : Consumer.sync calHash s r = s := by
      unfold Consumer.sync
      rw [hscales]
    rw [hsame]
    exact h.settled
  | some m =>
    have hm : cfg.getAddrScale opt s.confLastModTime (some dynamic) = some m := by
      rcases hr.addrScales with hnone | hsome
      · rw [hscales] at hnone
        cases hnone
      · rw [← hsome, hscales]
    obtain ⟨ids, hids⟩ := exists_ids hm
    cases hp : (adjustGroups calHash r (s.clearInvalid m) m.scales).2 with
    | none =>
      -- the round ends with an error, and has cleared groups only
      have hsync : Consumer.sync calHash s r =
          (adjustGroups calHash r (s.clearInvalid m) m.scales).1 := by
        unfold Consumer.sync
        rw [hscales]
        dsimp only
        rw [hp]
      rw [hsync, adjustGroups_confLastModTime]
      intro hconf x
      rw [adjustGroups_queues]
      exact (h.settled hconf).clearInvalid hm x
    | some pendings =>
      intro _ x
      obtain ⟨hsub, hd⟩ := Succeeds.distribution ⟨hscales, hp⟩ h.inv
      have hidxs : ∀ y ∈ m.scales, ∃ queueIdxs, r.queueIdxs y.1 = some queueIdxs ∧
          getPendingQueues (getAllQueues cfg.topic cfg.stores y.1) queueIdxs =
            share murmurHash64 cfg dynamic opt y.1 := by
        rintro ⟨g, scales⟩ hy
        obtain ⟨hg, rfl, -⟩ := (Configs.mem_getAddrScale hids hm).mp hy
        exact ⟨_, hr.queueIdxs m hscales _ hy, (share_of_mem hids hg).symm⟩
      obtain ⟨hvalues, hkeys⟩ := adjustGroups_shares hr.config hidxs hp
      by_cases hg : x.consumerGroupId ∈ pendings.map Prod.fst
      · obtain ⟨kv, hkv, hfst⟩ := List.mem_map.mp hg
        have hkv2 : kv.2 = share murmurHash64 cfg dynamic opt x.consumerGroupId := by
          rw [← hfst]
          exact hvalues kv hkv
        rw [← hkv2]
        constructor
        · exact fun hx => hd.belongs x hx kv hkv hfst.symm
        · refine hd.complete.mpr (fun first hfirst => ?_) kv hkv x
          have hroom := hr.roomy m hscales pendings hp first ((List.mem_inits first pendings).mpr hfirst)
          rwa [(h.inv.clearInvalid m).length]
      · rw [hd.others x hg]
        by_cases hconf : s.confLastModTime = cfg.lastModTime
        · exact (h.settled hconf).clearInvalid hm x
        · -- all groups have had their turn
          have hall : pendings.map Prod.fst = m.scales.map Prod.fst :=
            hkeys fun heq => hconf (heq.trans hr.lastModTime)
          rw [hall] at hg
          refine iff_of_false (fun hx => hg (mem_clearInvalid.mp hx).2) fun hx => ?_
          obtain ⟨y, hy, -⟩ := List.mem_map.mp hx
          exact hg (mem_keys_of_share hm hy)

end

/-! ## Runs -/

section
variable {murmurHash64 : ℕ → ℕ → ℕ → ℕ} {calHash : List AddrScale → ℕ} {nproc : ConsumerOption → ℕ}
  {cfg : Configs} {dynamic : List AddrScale}

lemma inv_exec (rounds : List (ConsumerOption × Round (List AddrScale))) (opt : ConsumerOption) :
    ((fleet calHash nproc).exec (fleet calHash nproc).init rounds opt).Inv (nproc opt) := by
  have hstep (locks : ConsumerOption → HeartBeatLock) (e : ConsumerOption × Round (List AddrScale))
      (h : ∀ opt, (locks opt).Inv (nproc opt)) :
      ∀ opt, ((fleet calHash nproc).step locks e opt).Inv (nproc opt) := by
    intro opt
    show (Function.update locks e.1 _ opt).Inv (nproc opt)
    by_cases hopt : opt = e.1
    · subst hopt
      rw [Function.update_self]
      exact (h e.1).sync e.2
    · rw [Function.update_of_ne hopt]
      exact h opt
  have hinit : ∀ opt, ((fleet calHash nproc).init opt).Inv (nproc opt) := fun opt =>
    @HeartBeatLock.Inv.init _ calHash (nproc opt)
  exact (Always.of_step hstep hinit rounds).last opt

lemma moving_exec {locks : ConsumerOption → HeartBeatLock}
    (h : ∀ opt ∈ cfg.configured, Moving murmurHash64 cfg dynamic opt (nproc opt) (locks opt))
    {rounds : List (ConsumerOption × Round (List AddrScale))}
    (hrounds : (fleet calHash nproc).Along (fun locks e => e.1 ∈ cfg.configured →
      Follows murmurHash64 calHash cfg dynamic e.1 (nproc e.1) (locks e.1) e.2) locks rounds) :
    ∀ opt ∈ cfg.configured, Moving murmurHash64 cfg dynamic opt (nproc opt)
      ((fleet calHash nproc).exec locks rounds opt) := by
  have hstep (locks : ConsumerOption → HeartBeatLock) (e : ConsumerOption × Round (List AddrScale))
      (h : ∀ opt ∈ cfg.configured, Moving murmurHash64 cfg dynamic opt (nproc opt) (locks opt))
      (he : e.1 ∈ cfg.configured →
        Follows murmurHash64 calHash cfg dynamic e.1 (nproc e.1) (locks e.1) e.2) :
      ∀ opt ∈ cfg.configured, Moving murmurHash64 cfg dynamic opt (nproc opt)
        ((fleet calHash nproc).step locks e opt) := by
    intro opt hmem
    show Moving murmurHash64 cfg dynamic opt (nproc opt) (Function.update locks e.1 _ opt)
    by_cases hopt : opt = e.1
    · subst hopt
      rw [Function.update_self]
      exact (h e.1 hmem).sync (he hmem)
    · rw [Function.update_of_ne hopt]
      exact h opt hmem
  exact (Always.of_inv hstep h hrounds).last

end

/-- **Once all consumers have taken a configuration over, they share out its queues.**  Let the consumers
have made any rounds, and then, as far as they are configured in `cfg`, only rounds that read `cfg`, which
none of them had, and the answer `dynamic` of the scheduler, in any order, where any calls may fail and
the slots are enough.  When every configured consumer has had a successful round, a queue of a group that
has a scale is at exactly one worker of exactly one configured consumer, and these consumers have nothing
else. -/
theorem fleet_shares_out (murmurHash64 : ℕ → ℕ → ℕ → ℕ) (calHash : List AddrScale → ℕ)
    (nproc : ConsumerOption → ℕ) (cfg : Configs) (dynamic : List AddrScale)
    (before after : List (ConsumerOption × Round (List AddrScale)))
    (hnew : ∀ opt ∈ cfg.configured, ((fleet calHash nproc).exec (fleet calHash nproc).init before
      opt).confLastModTime ≠ cfg.lastModTime)
    (hafter : (fleet calHash nproc).Along (fun locks e => e.1 ∈ cfg.configured →
        Follows murmurHash64 calHash cfg dynamic e.1 (nproc e.1) (locks e.1) e.2)
      ((fleet calHash nproc).exec (fleet calHash nproc).init before) after)
    (hdone : ∀ opt ∈ cfg.configured, ((fleet calHash nproc).exec (fleet calHash nproc).init
      (before ++ after) opt).confLastModTime = cfg.lastModTime) :
    let locks := (fleet calHash nproc).exec (fleet calHash nproc).init (before ++ after)
    (∀ g, NoPaxosPort (cfg.scalesOf dynamic g) → (∃ x ∈ cfg.scalesOf dynamic g, 0 < x.scale) →
      ∀ x ∈ getAllQueues cfg.topic cfg.stores g, ∃! place : ConsumerOption × ℕ,
        place.1 ∈ cfg.configured ∧ (locks place.1).queues[place.2]? = some (some x.slot)) ∧
    ∀ opt ∈ cfg.configured, ∀ x ∈ (locks opt).queues.reduceOption,
      ∃ y ∈ getAllQueues cfg.topic cfg.stores x.consumerGroupId, y.slot = x := by
  intro locks
  have hmoving : ∀ opt ∈ cfg.configured,
      Moving murmurHash64 cfg dynamic opt (nproc opt) (locks opt) := by
    have hlocks : locks = (fleet calHash nproc).exec
        ((fleet calHash nproc).exec (fleet calHash nproc).init before) after := exec_append _ _ _ _
    rw [hlocks]
    exact moving_exec (fun opt hopt => ⟨inv_exec before opt, fun h => absurd h (hnew opt hopt)⟩) hafter
  have hsettled (opt : ConsumerOption) (hopt : opt ∈ cfg.configured) :
      Settled murmurHash64 cfg dynamic opt (locks opt) := (hmoving opt hopt).settled (hdone opt hopt)
  refine ⟨fun g hpaxos hpos x hx => ?_, fun opt hopt x hx => ?_⟩
  · have hgroup : x.slot.consumerGroupId = g := consumerGroupId_of_mem hx
    obtain ⟨opt, ⟨hopt, hpending⟩, -⟩ :=
      @pendingQueues_unique murmurHash64 _ cfg.topic cfg.stores g hpaxos hpos _ hx
    obtain ⟨ids, hids, hg⟩ := Configs.mem_ids_of_consumers hopt
    have hconf := Configs.mem_configured hids
    have hshare : x ∈ share murmurHash64 cfg dynamic opt g := by
      rw [share_of_mem hids hg]
      exact hpending
    have hheld : x.slot ∈ (locks opt).queues.reduceOption := by
      refine (hsettled opt hconf x.slot).mpr ?_
      rw [hgroup]
      exact List.mem_map_of_mem hshare
    obtain ⟨i, hi⟩ := List.mem_iff_getElem?.mp (List.reduceOption_mem_iff.mp hheld)
    refine ⟨(opt, i), ⟨hconf, hi⟩, ?_⟩
    rintro ⟨opt', j⟩ ⟨hopt', hj⟩
    -- another place of the queue would be in a share too
    have hshare' := (hsettled opt' hopt' x.slot).mp (Places.mem_reduceOption_of_getElem? hj)
    rw [hgroup] at hshare'
    obtain ⟨y, hy, hslot⟩ := List.mem_map.mp hshare'
    obtain rfl := share_unique hshare hy hslot
    have hdistinct := (Places.distinct_iff _).mpr (hmoving opt hconf).inv.nodup
    rw [hdistinct i j x.slot hi hj]
  · obtain ⟨y, hy, hslot⟩ := List.mem_map.mp ((hsettled opt hopt x).mp hx)
    exact ⟨y, (share_sublist _).subset hy, hslot⟩

/-- Two queues, and two consumers with a scale in their group. -/
def twoConsumers : Configs where
  topic :=
    { pubs := [⟨1, [1], [2]⟩], queueInfos := [⟨2, [(0, 1)], false, 1⟩], itemsByteSizeLimit := 1024
      consumerGroupIds := [1] }
  consumers := [⟨{ ip := ⟨10, 0, 0, 1⟩, port := 8001 }, 1, []⟩,
    ⟨{ ip := ⟨10, 0, 0, 2⟩, port := 8001 }, 2, [1]⟩]
  stores := [⟨1, []⟩]
  lastModTime := 1

def twoRounds : List (ConsumerOption × Round (List AddrScale)) :=
  [⟨⟨10, 0, 0, 1⟩, 8001⟩, ⟨⟨10, 0, 0, 2⟩, 8001⟩].map fun opt =>
    (opt, reading murmurHash64 twoConsumers [] opt { queues := [none, none] })

theorem twoRounds_share_out :
    let locks := (fleet List.length fun _ => 2).exec (fleet List.length fun _ => 2).init twoRounds
    ∃! place : ConsumerOption × ℕ, place.1 ∈ twoConsumers.configured ∧
      (locks place.1).queues[place.2]? = some (some ⟨1, 1, 1⟩) := by
  have hopts : ∀ opt ∈ twoConsumers.configured,
      opt = ⟨⟨10, 0, 0, 1⟩, 8001⟩ ∨ opt = ⟨⟨10, 0, 0, 2⟩, 8001⟩ := by
    rintro ⟨ip, port⟩ ⟨consumer, hmem, haddr⟩
    rcases List.mem_pair.mp hmem with rfl | rfl
    · obtain ⟨rfl, rfl, -⟩ := ProtoAddr.mk.inj haddr
      exact .inl rfl
    · obtain ⟨rfl, rfl, -⟩ := ProtoAddr.mk.inj haddr
      exact .inr rfl
  have hnew : ∀ opt ∈ twoConsumers.configured, ((fleet List.length fun _ => 2).exec
      (fleet List.length fun _ => 2).init [] opt).confLastModTime ≠ 1 := fun _ _ h => by cases h
  have hafter : (fleet List.length fun _ => 2).Along (fun locks e => e.1 ∈ twoConsumers.configured →
      Follows murmurHash64 List.length twoConsumers [] e.1 2 (locks e.1) e.2)
      (fleet List.length fun _ => 2).init twoRounds := by
    refine ⟨fun _ => follows_reading ?_, fun _ => follows_reading ?_, trivial⟩
    · unfold Roomy
      decide +kernel
    · unfold Roomy
      decide +kernel
  have hdone : ∀ opt ∈ twoConsumers.configured, ((fleet List.length fun _ => 2).exec
      (fleet List.length fun _ => 2).init ([] ++ twoRounds) opt).confLastModTime = 1 := by
    intro opt hopt
    rcases hopts opt hopt with rfl | rfl
    · decide +kernel
    · decide +kernel
  have hpaxos : NoPaxosPort (twoConsumers.scalesOf [] 1) := by
    unfold NoPaxosPort
    decide +kernel
  exact (fleet_shares_out murmurHash64 List.length (fun _ => 2) twoConsumers [] [] twoRounds hnew
    hafter hdone).1 1 hpaxos (by decide +kernel) ⟨1, 1, 1, 1⟩ (by decide +kernel)

end PhxQueue.Consumer
