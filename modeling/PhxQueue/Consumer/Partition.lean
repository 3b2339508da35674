import Mathlib
import PhxQueue.Comm.Utils
import PhxQueue.Consumer.Sync
import PhxQueue.Lib.HashRing

/-!
# The share of a consumer

`Consumer::GetQueueByAddrScale`: a consumer finds out which queues are its own by itself.  Every
address has as many points on a ring as its scale says, and a queue belongs to the address of the
next point.

* `getQueueByAddrScale`      the code;
* `hash2EncodedAddr_eq`      its ring as one built from a list of points;
* `mem_indexes`              a queue is a consumer's when the ring gives it to its address;
* `indexes_partition`        **the consumers share out all queues**;
* `symmDiff_indexes_subset`  **one more address takes queues, and moves none between the others**;
* `pendingQueues_unique`     so a queue that is listed is pending at one consumer.
-/

set_option linter.unusedSectionVars false

namespace PhxQueue.Consumer
open Comm PhxQueue.Config Lib

/-- `comm::proto::AddrScale`. -/
structure AddrScale where
  addr : ProtoAddr
  scale : ℤ
deriving DecidableEq

/-- The address a consumer has in its options. -/
structure ConsumerOption where
  ip : Ipv4
  port : Fin (2 ^ 16)
deriving DecidableEq

def ConsumerOption.localAddr (opt : ConsumerOption) : ProtoAddr where
  ip := opt.ip
  port := opt.port

/-- An id as the `uint32_t` of a `Queue_t`. -/
def uint32 (id : ℤ) : ℕ := (id % 2 ^ 32).toNat

section
variable (murmurHash64 : ℕ → ℕ → ℕ → ℕ)

/-- The key of point `j` of an address: the hash is cut to a `uint32_t`. -/
def pointKey (encodedAddr j : ℕ) : ℕ :=
  let h := 0
  let h := murmurHash64 encodedAddr 8 h
  let h := murmurHash64 j 4 h
  h % 2 ^ 32

def queueHash (queue : ListedQueue) : ℕ :=
  let h := 0
  let h := murmurHash64 (uint32 queue.consumerGroupId) 4 h
  let h := murmurHash64 (uint32 queue.storeId) 4 h
  let h := murmurHash64 (uint32 queue.queueId) 4 h
  h % 2 ^ 32

/-- The loop that fills `hash2encoded_addr`. -/
def hash2EncodedAddr (addrScales : List AddrScale) : OrderedMap ℕ ℕ :=
  addrScales.foldl (fun ring x =>
    let encodedAddr := encodeAddr x.addr
    (List.range x.scale.toNat).foldl (fun ring j =>
      ring.emplace (pointKey murmurHash64 encodedAddr j) encodedAddr) ring) .empty

def getQueueByAddrScale (opt : ConsumerOption) (queues : List ListedQueue)
    (addrScales : List AddrScale) : List ℕ :=
  let ring := hash2EncodedAddr murmurHash64 addrScales
  if ring.entries = [] then []
  else
    (queues.zipIdx.filter fun x =>
      (ring.owner (queueHash murmurHash64 x.1)).map Prod.snd = some (encodeAddr opt.localAddr)).map
        Prod.snd

def indexes (queues : List ListedQueue) (addrScales : List AddrScale) (opt : ConsumerOption) :
    Set ℕ :=
  { i | i ∈ getQueueByAddrScale murmurHash64 opt queues addrScales }

def consumers (addrScales : List AddrScale) : Set ConsumerOption :=
  { opt | ∃ x ∈ addrScales, x.addr = opt.localAddr ∧ 0 < x.scale }

/-- `paxos_port` is not set. -/
def NoPaxosPort (addrScales : List AddrScale) : Prop := ∀ x ∈ addrScales, x.addr.paxosPort = 0

/-! ## The ring -/

/-- The points of an address, in the order in which they are inserted. -/
def pointsOf (x : AddrScale) : List (ℕ × ℕ) :=
  (List.range x.scale.toNat).map fun j =>
    (pointKey murmurHash64 (encodeAddr x.addr) j, encodeAddr x.addr)

variable {murmurHash64} {queues : List ListedQueue} {addrScales : List AddrScale}

lemma hash2EncodedAddr_eq :
    hash2EncodedAddr murmurHash64 addrScales =
      .build (addrScales.flatMap (pointsOf murmurHash64)) := by
  unfold hash2EncodedAddr OrderedMap.build
  rw [List.foldl_flatMap]
  congr 1
  funext ring x
  unfold pointsOf
  rw [List.foldl_map]

lemma snd_of_mem_pointsOf {x : AddrScale} {p : ℕ × ℕ} (hp : p ∈ pointsOf murmurHash64 x) :
    p.2 = encodeAddr x.addr ∧ 0 < x.scale := by
  obtain ⟨j, hj, rfl⟩ := List.mem_map.mp hp
  have hj := List.mem_range.mp hj
  exact ⟨rfl, by omega⟩

lemma pointsOf_ne_nil {x : AddrScale} (hx : 0 < x.scale) : pointsOf murmurHash64 x ≠ [] := by
  unfold pointsOf
  rw [Ne, List.map_eq_nil_iff, List.range_eq_nil]
  omega

theorem mem_indexes {opt : ConsumerOption} {i : ℕ} :
    i ∈ indexes murmurHash64 queues addrScales opt ↔
      ∃ queue, queues[i]? = some queue ∧
        ((hash2EncodedAddr murmurHash64 addrScales).owner (queueHash murmurHash64 queue)).map
          Prod.snd = some (encodeAddr opt.localAddr) := by
  show i ∈ getQueueByAddrScale murmurHash64 opt queues addrScales ↔ _
  unfold getQueueByAddrScale
  dsimp only
  split
  · rename_i hnil
    refine iff_of_false List.not_mem_nil ?_
    rintro ⟨queue, _, hown⟩
    unfold OrderedMap.owner OrderedMap.lowerBound OrderedMap.search at hown
    rw [hnil] at hown
    cases hown
  · rw [List.mem_map]
    constructor
    · rintro ⟨⟨queue, j⟩, hmem, rfl⟩
      obtain ⟨hmem, hown⟩ := List.mem_filter.mp hmem
      exact ⟨queue, List.mem_zipIdx_iff_getElem?.mp hmem, of_decide_eq_true hown⟩
    · rintro ⟨queue, hqueue, hown⟩
      refine ⟨(queue, i), List.mem_filter.mpr ⟨?_, decide_eq_true hown⟩, rfl⟩
      exact List.mem_zipIdx_iff_getElem?.mpr hqueue

lemma lt_of_mem_indexes {opt : ConsumerOption} {i : ℕ}
    (hi : i ∈ indexes murmurHash64 queues addrScales opt) : i < queues.length := by
  obtain ⟨queue, hqueue, _⟩ := mem_indexes.mp hi
  exact (List.getElem?_eq_some_iff.mp hqueue).1

lemma indexes_unique {opt opt' : ConsumerOption} {i : ℕ}
    (hi : i ∈ indexes murmurHash64 queues addrScales opt)
    (hi' : i ∈ indexes murmurHash64 queues addrScales opt') : opt = opt' := by
  obtain ⟨queue, hqueue, hown⟩ := mem_indexes.mp hi
  obtain ⟨queue', hqueue', hown'⟩ := mem_indexes.mp hi'
  rw [hqueue, Option.some.injEq] at hqueue'
  subst hqueue'
  rw [hown, Option.some.injEq] at hown'
  have haddr := encodeAddr_injective hown'
  unfold ConsumerOption.localAddr at haddr
  obtain ⟨ip, port⟩ := opt
  obtain ⟨ip', port'⟩ := opt'
  cases haddr
  rfl

/-- With a point on the ring every queue has an owner, and that has a positive scale. -/
lemma exists_consumer (hpaxos : NoPaxosPort addrScales) (hpos : ∃ x ∈ addrScales, 0 < x.scale)
    {i : ℕ} (hi : i < queues.length) :
    ∃ opt ∈ consumers addrScales, i ∈ indexes murmurHash64 queues addrScales opt := by
  have hring : (hash2EncodedAddr murmurHash64 addrScales).entries ≠ [] := by
    rw [hash2EncodedAddr_eq]
    apply OrderedMap.build_entries_ne_nil
    obtain ⟨x, hx, hscale⟩ := hpos
    intro hnil
    exact pointsOf_ne_nil hscale (List.flatMap_eq_nil_iff.mp hnil x hx)
  obtain ⟨p, hp⟩ := OrderedMap.exists_owner hring (queueHash murmurHash64 queues[i])
  -- the address of the owner is one of the list
  have hmem := hp
  rw [hash2EncodedAddr_eq] at hmem
  obtain ⟨x, hx, hpx⟩ := List.mem_flatMap.mp (OrderedMap.mem_of_owner_build hmem)
  obtain ⟨haddr, hscale⟩ := snd_of_mem_pointsOf hpx
  have hlocal : x.addr = (⟨x.addr.ip, x.addr.port⟩ : ConsumerOption).localAddr := by
    unfold ConsumerOption.localAddr
    rw [← hpaxos x hx]
  refine ⟨⟨x.addr.ip, x.addr.port⟩, ⟨x, hx, hlocal, hscale⟩, ?_⟩
  refine mem_indexes.mpr ⟨queues[i], List.getElem?_eq_getElem hi, ?_⟩
  rw [hp, Option.map_some, haddr, ← hlocal]

/-! ## The shares -/

variable (murmurHash64 queues)

/-- **The consumers share out all queues.**  Whatever the hash function, the consumers of the
addresses with a positive scale find disjoint sets of indexes, and every queue is in one. -/
theorem indexes_partition (hpaxos : NoPaxosPort addrScales)
    (hpos : ∃ x ∈ addrScales, 0 < x.scale) :
    (consumers addrScales).PairwiseDisjoint (indexes murmurHash64 queues addrScales) ∧
      ⋃ opt ∈ consumers addrScales, indexes murmurHash64 queues addrScales opt =
        Set.Iio queues.length := by
  constructor
  · intro opt _ opt' _ hne
    refine Set.disjoint_left.mpr fun i hi hi' => ?_
    exact hne (indexes_unique hi hi')
  · apply Set.eq_of_subset_of_subset
    · refine Set.iUnion₂_subset fun opt _ i hi => ?_
      exact lt_of_mem_indexes hi
    · intro i hi
      obtain ⟨opt, hopt, hmem⟩ := exists_consumer hpaxos hpos hi
      exact Set.mem_biUnion hopt hmem

/-- A hash that another address owns has the same owner without the points of an entry. -/
lemma owner_without {before after : List AddrScale} {x : AddrScale} {h : ℕ} {p : ℕ × ℕ}
    (hown : (hash2EncodedAddr murmurHash64 (before ++ x :: after)).owner h = some p)
    (hne : p.2 ≠ encodeAddr x.addr) :
    (hash2EncodedAddr murmurHash64 (before ++ after)).owner h = some p := by
  rw [hash2EncodedAddr_eq, List.flatMap_append] at hown ⊢
  rw [List.flatMap_cons, ← List.append_assoc] at hown
  exact OrderedMap.owner_build_of_insert (fun y hy => (snd_of_mem_pointsOf hy).1) hown hne

/-- **One more address takes queues, and moves none between the others**: an index whose consumer
is not the same with and without an entry belongs to the address of the entry, where it is there. -/
theorem symmDiff_indexes_subset (before after : List AddrScale) (a : ConsumerOption) (scale : ℤ)
    (opt : ConsumerOption) :
    symmDiff (indexes murmurHash64 queues (before ++ ⟨a.localAddr, scale⟩ :: after) opt)
        (indexes murmurHash64 queues (before ++ after) opt) ⊆
      indexes murmurHash64 queues (before ++ ⟨a.localAddr, scale⟩ :: after) a := by
  intro i hi
  by_contra hno
  -- with the entry the owner is another address, so it is the owner without the entry
  have hsame : ∀ queue, queues[i]? = some queue → ∀ p,
      (hash2EncodedAddr murmurHash64 (before ++ ⟨a.localAddr, scale⟩ :: after)).owner
        (queueHash murmurHash64 queue) = some p →
      (hash2EncodedAddr murmurHash64 (before ++ after)).owner
        (queueHash murmurHash64 queue) = some p := by
    intro queue hqueue p hown
    refine owner_without murmurHash64 hown fun ha => hno (mem_indexes.mpr ⟨queue, hqueue, ?_⟩)
    rw [hown, Option.map_some, ha]
  rcases Set.mem_symmDiff.mp hi with ⟨hmem, hnot⟩ | ⟨hmem, hnot⟩
  · obtain ⟨queue, hqueue, hown⟩ := mem_indexes.mp hmem
    obtain ⟨p, hp, hlocal⟩ := Option.map_eq_some_iff.mp hown
    refine hnot (mem_indexes.mpr ⟨queue, hqueue, ?_⟩)
    rw [hsame queue hqueue p hp, Option.map_some, hlocal]
  · obtain ⟨queue, hqueue, hown⟩ := mem_indexes.mp hmem
    have hring : (hash2EncodedAddr murmurHash64 (before ++ ⟨a.localAddr, scale⟩ :: after)).entries ≠
        [] := by
      obtain ⟨p, hp, _⟩ := Option.map_eq_some_iff.mp hown
      rw [hash2EncodedAddr_eq, List.flatMap_append] at hp ⊢
      refine OrderedMap.build_entries_ne_nil (List.ne_nil_of_mem (a := p) ?_)
      rw [List.flatMap_cons]
      rcases List.mem_append.mp (OrderedMap.mem_of_owner_build hp) with hp | hp
      · exact List.mem_append_left _ hp
      · exact List.mem_append_right _ (List.mem_append_right _ hp)
    obtain ⟨p, hp⟩ := OrderedMap.exists_owner hring (queueHash murmurHash64 queue)
    refine hnot (mem_indexes.mpr ⟨queue, hqueue, ?_⟩)
    rwa [hp, ← hsame queue hqueue p hp]

lemma mem_getPendingQueues {allQueues : List ListedQueue} {queueIdxs : List ℕ} {x : ListedQueue} :
    x ∈ getPendingQueues allQueues queueIdxs ↔ ∃ i : ℕ, allQueues[i]? = some x ∧ i ∈ queueIdxs := by
  unfold getPendingQueues
  rw [List.mem_map]
  constructor
  · rintro ⟨⟨y, i⟩, hmem, rfl⟩
    obtain ⟨hmem, hi⟩ := List.mem_filter.mp hmem
    exact ⟨i, List.mem_zipIdx_iff_getElem?.mp hmem, of_decide_eq_true hi⟩
  · rintro ⟨i, hx, hi⟩
    exact ⟨(x, i), List.mem_filter.mpr ⟨List.mem_zipIdx_iff_getElem?.mpr hx, decide_eq_true hi⟩, rfl⟩

theorem pendingQueues_unique (topic : TopicConfig) (stores : ProtoStores) (g : ℤ)
    (hpaxos : NoPaxosPort addrScales) (hpos : ∃ x ∈ addrScales, 0 < x.scale) {x : ListedQueue}
    (hx : x ∈ getAllQueues topic stores g) :
    ∃! opt, opt ∈ consumers addrScales ∧
      x ∈ getPendingQueues (getAllQueues topic stores g)
        (getQueueByAddrScale murmurHash64 opt (getAllQueues topic stores g) addrScales) := by
  obtain ⟨i, hlt, hi⟩ := List.mem_iff_getElem.mp hx
  have hi : (getAllQueues topic stores g)[i]? = some x := List.getElem?_eq_some_iff.mpr ⟨hlt, hi⟩
  obtain ⟨opt, hopt, hmem⟩ := @exists_consumer murmurHash64 _ _ hpaxos hpos i hlt
  refine ⟨opt, ⟨hopt, mem_getPendingQueues.mpr ⟨i, hi, hmem⟩⟩, ?_⟩
  rintro opt' ⟨_, hpending⟩
  obtain ⟨j, hj, hmem'⟩ := mem_getPendingQueues.mp hpending
  have hnodup : (getAllQueues topic stores g).Nodup :=
    List.Nodup.of_map _ nodup_getAllQueues
  obtain rfl : i = j := (List.getElem?_inj hlt hnodup).mp (hi.trans hj.symm)
  exact indexes_unique hmem' hmem

end

/-- Two consumers, one with twice the scale of the other. -/
def twoScales : List AddrScale :=
  [⟨{ ip := ⟨10, 0, 0, 1⟩, port := 8001 }, 1⟩, ⟨{ ip := ⟨10, 0, 0, 2⟩, port := 8001 }, 2⟩]

theorem twoScales_partition : (∀ x ∈ twoScales, x.addr.paxosPort = 0) ∧
    (∃ x ∈ twoScales, 0 < x.scale) ∧
    ((consumers twoScales).PairwiseDisjoint
        (indexes murmurHash64 [⟨1, 1, 1, 0⟩, ⟨1, 1, 1, 1⟩, ⟨1, 1, 2, 0⟩] twoScales) ∧
      ⋃ opt ∈ consumers twoScales,
        indexes murmurHash64 [⟨1, 1, 1, 0⟩, ⟨1, 1, 1, 1⟩, ⟨1, 1, 2, 0⟩] twoScales opt =
          Set.Iio 3) := by
  have hpaxos : NoPaxosPort twoScales := by
    unfold NoPaxosPort
    decide
  have hpos : ∃ x ∈ twoScales, 0 < x.scale := by decide
  exact ⟨hpaxos, hpos, indexes_partition murmurHash64 _ hpaxos hpos⟩

end PhxQueue.Consumer
