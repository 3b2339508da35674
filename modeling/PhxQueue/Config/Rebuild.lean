import PhxQueue.Config.TopicConfig
import PhxQueue.Lib.Scan

/-!
# Rebuilding the topic configuration

`TopicConfig::Rebuild` of `config/topicconfig.cpp`: the maps of `TopicConfigImpl` from the message
that has been read, and the queries over these maps.  Ranges are texts such as `0-9`; `stoi` throws at
a text it cannot read, and then there are no maps.

* `readRange`, `rebuild`              the code;
* `TopicConfigImpl.isValidQueue` ...  the queries;
* `ProtoTopicConfig.Reads`            the same message as a `TopicConfig`, its ranges read and in order;
* `rebuild_answers`                   **with unique ids the maps answer as the `TopicConfig` does**;
* `readRange_nonneg`                  a range that is read has no negative queue and is not empty.
-/

set_option linter.unusedSectionVars false

namespace PhxQueue.Config
open Comm Lib

/-! ## The message -/

/-- `proto::QueueInfo`, with the texts of its ranges. -/
structure ProtoQueueInfo where
  queueInfoId : ℤ
  ranges : List String
  dropAll : Bool := false
  count : ℤ := 1
deriving DecidableEq

/-- `proto::TopicConfig`, as far as `Rebuild` reads it for the queries. -/
structure ProtoTopicConfig where
  pubs : List Pub
  queueInfos : List ProtoQueueInfo

/-! ## Ranges -/

/-- `StrSplitList`: the parts between delimiters that are not empty. -/
def strSplitList (str : List Char) (delimiters : List Char) : List (List Char) :=
  (str.splitOnP fun c => delimiters.contains c).filter (· ≠ [])

def isSpace (c : Char) : Bool := c = ' ' ∨ ('\t' ≤ c ∧ c ≤ '\r')

/-- `std::stoi`, which throws when there is no number or it is not an `int`. -/
def stoi (str : List Char) : Option ℤ :=
  let str := str.dropWhile isSpace
  let negative := str.head? = some '-'
  let str := if str.head? = some '-' ∨ str.head? = some '+' then str.tail else str
  let digits := str.takeWhile Char.isDigit
  if digits = [] then none else
  let n : ℕ := digits.foldl (fun n c => 10 * n + (c.toNat - 48)) 0
  let value : ℤ := if negative then -n else n
  if -2 ^ 31 ≤ value ∧ value < 2 ^ 31 then some value else none

/-- A range of a queue info: `some none` is a text that is passed over. -/
def readRange (range : String) : Option (Option (ℤ × ℤ)) :=
  match strSplitList range.toList ['-'] with
  | [first, second] =>
    match stoi first, stoi second with
    | some a, some b => some (if a ≤ b then some (a, b) else none)
    | _, _ => none
  | [single] => (stoi single).map fun a => some (a, a)
  | _ => some none

/-- The ranges of a queue info, in the order of the texts. -/
def readRanges : List String → Option (List (ℤ × ℤ))
  | [] => some []
  | text :: texts =>
    match readRange text, readRanges texts with
    | some range, some ranges => some (range.toList ++ ranges)
    | _, _ => none

/-- The order of `std::pair`. -/
def pairLe (a b : ℤ × ℤ) : Prop := a.1 < b.1 ∨ (a.1 = b.1 ∧ a.2 ≤ b.2)

instance : DecidableRel pairLe := fun _ _ => inferInstanceAs (Decidable (_ ∨ _))

/-! ## The maps -/

/-- `TopicConfigImpl`; a set is the list of what has been inserted into it. -/
structure TopicConfigImpl where
  pubId2pub : Std.ExtTreeMap ℤ Pub := ∅
  queueInfoId2queueInfo : Std.ExtTreeMap ℤ ProtoQueueInfo := ∅
  queueInfoId2ranges : Std.ExtTreeMap ℤ (List (ℤ × ℤ)) := ∅
  queue2queueInfoId : Std.ExtTreeMap ℤ ℤ := ∅
  pubId2consumerGroupIds : Std.ExtTreeMap ℤ (List ℤ) := ∅
  pubId2queueInfoIds : Std.ExtTreeMap ℤ (List ℤ) := ∅

/-- The loop body over `pubs`. -/
def rebuildPub (impl : TopicConfigImpl) (pub : Pub) : TopicConfigImpl :=
  if pub.pubId = 0 then impl else
  { impl with
    pubId2pub := impl.pubId2pub.insertIfNew pub.pubId pub
    pubId2consumerGroupIds := impl.pubId2consumerGroupIds.insert pub.pubId
      ((impl.pubId2consumerGroupIds[pub.pubId]?.getD []) ++ pub.consumerGroupIds)
    pubId2queueInfoIds := impl.pubId2queueInfoIds.insert pub.pubId
      ((impl.pubId2queueInfoIds[pub.pubId]?.getD []) ++ pub.queueInfoIds) }

/-- The queues from `first` to `last` get a queue info id. -/
def setQueues (id : ℤ) (map : Std.ExtTreeMap ℤ ℤ) (range : ℤ × ℤ) : Std.ExtTreeMap ℤ ℤ :=
  (List.range (range.2 - range.1 + 1).toNat).foldl
    (fun map (n : ℕ) => map.insert (range.1 + n) id) map

/-- The loop body over `queue_infos`, when the ranges have been read. -/
def rebuildQueueInfo (impl : TopicConfigImpl) (queueInfo : ProtoQueueInfo)
    (read : List (ℤ × ℤ)) : TopicConfigImpl :=
  let id := queueInfo.queueInfoId
  let ranges := ((impl.queueInfoId2ranges[id]?.getD []) ++ read).insertionSort pairLe
  { impl with
    queueInfoId2queueInfo := impl.queueInfoId2queueInfo.insertIfNew id queueInfo
    queueInfoId2ranges := impl.queueInfoId2ranges.insert id ranges
    queue2queueInfoId := ranges.foldl (setQueues id) impl.queue2queueInfoId }

def rebuildQueueInfos (impl : TopicConfigImpl) : List ProtoQueueInfo → Option TopicConfigImpl
  | [] => some impl
  | queueInfo :: queueInfos =>
    if queueInfo.queueInfoId = 0 then rebuildQueueInfos impl queueInfos else
    match readRanges queueInfo.ranges with
    | none => none
    | some read => rebuildQueueInfos (rebuildQueueInfo impl queueInfo read) queueInfos

/-- `Rebuild`; `none` is an exception. -/
def rebuild (proto : ProtoTopicConfig) : Option TopicConfigImpl :=
  rebuildQueueInfos (proto.pubs.foldl rebuildPub {}) proto.queueInfos

namespace TopicConfigImpl

variable (impl : TopicConfigImpl)

/-- The loop of `IsValidQueue` over the queue infos of a publisher. -/
def inQueueInfos (queueId : ℤ) : List ℤ → Bool
  | [] => false
  | id :: ids =>
    match impl.queueInfoId2ranges[id]? with
    | none => false
    | some ranges => if TopicConfig.inRanges ranges queueId then true else inQueueInfos queueId ids

/-- The test `IsValidQueue` applies to a publisher. -/
def validFor (queueId consumerGroupId pubId : ℤ) : Bool :=
  if consumerGroupId ≠ -1 ∧
      consumerGroupId ∉ (impl.pubId2consumerGroupIds[pubId]?.getD []) then false
  else
    match impl.pubId2queueInfoIds[pubId]? with
    | none => false
    | some ids => impl.inQueueInfos queueId (elements ids)

def isValidQueue (queueId pubId consumerGroupId : ℤ) : Bool :=
  if pubId ≠ -1 then impl.validFor queueId consumerGroupId pubId
  else impl.pubId2pub.keys.any fun p => impl.validFor queueId consumerGroupId p

def getQueuesByQueueInfoID (id : ℤ) : Except RetCode (List ℤ) :=
  match impl.queueInfoId2ranges[id]? with
  | none => .error .errRangeQueueInfo
  | some ranges => .ok (elements (ranges.flatMap fun range =>
      (List.range (range.2 - range.1 + 1).toNat).map fun n : ℕ => range.1 + n))

def getNQueue (id : ℤ) : Except RetCode ℤ :=
  match impl.queueInfoId2ranges[id]? with
  | none => .error .errRangeQueueInfo
  | some ranges => .ok (TopicConfig.getNQueue ranges)

def getQueueByRank (id : ℤ) (rank : ℕ) : Except RetCode ℤ :=
  match impl.queueInfoId2ranges[id]? with
  | none => .error .errRangeQueueInfo
  | some ranges =>
    match TopicConfig.getQueueByRank rank ranges with
    | none => .error .errRangeRank
    | some queue => .ok queue

def getQueueByLoopRank (id : ℤ) (rank : ℕ) : Except RetCode ℤ :=
  match impl.getNQueue id with
  | .error ret => .error ret
  | .ok nqueue =>
    if nqueue = 0 then .error .errNqueueInvalid
    else impl.getQueueByRank id (rank % nqueue.toNat)

def getQueueInfoByQueueInfoID (id : ℤ) : Except RetCode ProtoQueueInfo :=
  match impl.queueInfoId2queueInfo[id]? with
  | none => .error .errRangeQueueInfo
  | some queueInfo => .ok queueInfo

def getQueueInfoByQueue (queue : ℤ) : Except RetCode ProtoQueueInfo :=
  match impl.queue2queueInfoId[queue]? with
  | none => .error .errRangeQueue
  | some id => impl.getQueueInfoByQueueInfoID id

end TopicConfigImpl

/-! ## What is read -/

lemma stoi_nonneg {str : List Char} (hminus : '-' ∉ str) {n : ℤ} (h : stoi str = some n) :
    0 ≤ n ∧ n < 2 ^ 31 := by
  have hhead : (str.dropWhile isSpace).head? ≠ some '-' := by
    intro hhead
    exact hminus ((List.dropWhile_suffix _).mem (List.mem_of_mem_head? hhead))
  unfold stoi at h
  dsimp only at h
  generalize (if (str.dropWhile isSpace).head? = some '-' ∨
    (str.dropWhile isSpace).head? = some '+' then (str.dropWhile isSpace).tail
    else str.dropWhile isSpace) = rest at h
  rw [if_neg hhead] at h
  split at h
  · cases h
  · split at h
    · rename_i hint
      cases h
      exact ⟨Int.natCast_nonneg _, hint.2⟩
    · cases h

/-- **A range that is read is not empty, and has no negative queue.** -/
lemma readRange_nonneg {text : String} {range : ℤ × ℤ} (h : readRange text = some (some range)) :
    0 ≤ range.1 ∧ range.1 ≤ range.2 ∧ range.2 < 2 ^ 31 := by
  have hparts : ∀ part ∈ strSplitList text.toList ['-'], '-' ∉ part := by
    intro part hpart hminus
    have hno := (mem_of_mem_splitOnP (List.mem_filter.mp hpart).1 hminus).1
    revert hno
    decide
  unfold readRange at h
  split at h
  · rename_i first second hsplit
    rw [hsplit] at hparts
    split at h
    · rename_i a b ha hb
      have ha := stoi_nonneg (hparts first List.mem_cons_self) ha
      have hb := stoi_nonneg (hparts second (List.mem_cons_of_mem _ List.mem_cons_self)) hb
      split at h
      · cases h
        exact ⟨ha.1, by assumption, hb.2⟩
      · cases h
    · cases h
  · rename_i single hsplit
    rw [hsplit] at hparts
    obtain ⟨a, ha, heq⟩ := Option.map_eq_some_iff.mp h
    cases heq
    have ha := stoi_nonneg (hparts single List.mem_cons_self) ha
    exact ⟨ha.1, le_refl a, ha.2⟩
  · cases h

lemma readRanges_nonneg {texts : List String} {ranges : List (ℤ × ℤ)}
    (h : readRanges texts = some ranges) :
    ∀ range ∈ ranges, 0 ≤ range.1 ∧ range.1 ≤ range.2 ∧ range.2 < 2 ^ 31 := by
  induction texts generalizing ranges with
  | nil =>
    cases h
    exact fun range hrange => absurd hrange List.not_mem_nil
  | cons text texts ih =>
    unfold readRanges at h
    split at h
    · rename_i range ranges' hread hreads
      cases h
      intro x hx
      rcases List.mem_append.mp hx with hx | hx
      · rw [Option.mem_toList] at hx
        rw [hx] at hread
        exact readRange_nonneg hread
      · exact ih hreads x hx
    · cases h

/-! ## The message as a `TopicConfig` -/

/-- A queue info with its ranges read and in order; those of an entry with id 0 are not read. -/
def ProtoQueueInfo.read (q : ProtoQueueInfo) : Option QueueInfo :=
  if q.queueInfoId = 0 then some ⟨q.queueInfoId, [], q.dropAll, q.count⟩
  else (readRanges q.ranges).map fun ranges =>
    ⟨q.queueInfoId, ranges.insertionSort pairLe, q.dropAll, q.count⟩

/-- A `TopicConfig` with the publishers and the queue infos of a message. -/
structure ProtoTopicConfig.Reads (proto : ProtoTopicConfig) (cfg : TopicConfig) : Prop where
  pubs : cfg.pubs = proto.pubs
  queueInfos : List.Forall₂ (fun q info => q.read = some info) proto.queueInfos cfg.queueInfos

lemma queueInfoId_of_read {q : ProtoQueueInfo} {info : QueueInfo} (h : q.read = some info) :
    info.queueInfoId = q.queueInfoId := by
  unfold ProtoQueueInfo.read at h
  split at h
  · cases h
    rfl
  · obtain ⟨ranges, _, heq⟩ := Option.map_eq_some_iff.mp h
    rw [← heq]

lemma exists_of_read {protos : List ProtoQueueInfo} {infos : List QueueInfo} {info : QueueInfo}
    (h : List.Forall₂ (fun q info => q.read = some info) protos infos)
    (hinfo : info ∈ infos) : ∃ q ∈ protos, q.read = some info := by
  induction h with
  | nil => exact absurd hinfo List.not_mem_nil
  | cons hread _ ih =>
    rcases List.mem_cons.mp hinfo with rfl | hinfo
    · exact ⟨_, List.mem_cons_self, hread⟩
    · obtain ⟨q, hq, hread⟩ := ih hinfo
      exact ⟨q, List.mem_cons_of_mem _ hq, hread⟩

/-- No range of a configuration that is read has a negative queue. -/
lemma ranges_nonneg {proto : ProtoTopicConfig} {cfg : TopicConfig} (h : proto.Reads cfg)
    {info : QueueInfo} (hinfo : info ∈ cfg.queueInfos) {range : ℤ × ℤ} (hrange : range ∈ info.ranges) :
    0 ≤ range.1 := by
  obtain ⟨q, _, hread⟩ := exists_of_read h.queueInfos hinfo
  unfold ProtoQueueInfo.read at hread
  split at hread
  · cases hread
    exact absurd hrange List.not_mem_nil
  · obtain ⟨ranges, hranges, heq⟩ := Option.map_eq_some_iff.mp hread
    rw [← heq] at hrange
    exact (readRanges_nonneg hranges range (List.mem_insertionSort _ |>.mp hrange)).1

lemma exists_reads_of_rebuild {impl impl' : TopicConfigImpl} {protos : List ProtoQueueInfo}
    (h : rebuildQueueInfos impl protos = some impl') :
    ∃ infos, List.Forall₂ (fun q info => q.read = some info) protos infos := by
  induction protos generalizing impl with
  | nil => exact ⟨[], .nil⟩
  | cons q protos ih =>
    unfold rebuildQueueInfos at h
    split at h
    · rename_i hzero
      obtain ⟨infos, hinfos⟩ := ih h
      exact ⟨⟨q.queueInfoId, [], q.dropAll, q.count⟩ :: infos, .cons (if_pos hzero) hinfos⟩
    · rename_i hid
      split at h
      · cases h
      · rename_i read hread
        obtain ⟨infos, hinfos⟩ := ih h
        refine ⟨⟨q.queueInfoId, read.insertionSort pairLe, q.dropAll, q.count⟩ :: infos,
          .cons ?_ hinfos⟩
        unfold ProtoQueueInfo.read
        rw [if_neg hid, hread]
        rfl

/-! ## The maps of publishers -/

section
variable {impl : TopicConfigImpl} {k : ℤ}

lemma getElem?_insert_int {β : Type} (map : Std.ExtTreeMap ℤ β) (a : ℤ) (v : β) :
    (map.insert a v)[k]? = if a = k then some v else map[k]? := by
  rw [Std.ExtTreeMap.getElem?_insert]
  exact if_congr Std.LawfulEqCmp.compare_eq_iff_eq rfl rfl

lemma getElem?_insertIfNew_int {β : Type} (map : Std.ExtTreeMap ℤ β) (a : ℤ) (v : β) :
    (map.insertIfNew a v)[k]? = if a = k then map[k]?.or (some v) else map[k]? := by
  rw [Std.ExtTreeMap.getElem?_insertIfNew]
  by_cases hk : a = k
  · subst hk
    rw [if_pos rfl]
    by_cases hmem : a ∈ map
    · simp [hmem]
    · simp [hmem]
  · rw [if_neg hk, if_neg (fun h => hk (Std.LawfulEqCmp.compare_eq_iff_eq.mp h.1))]

lemma pubId2pub_foldl (pubs : List Pub) : (pubs.foldl rebuildPub impl).pubId2pub[k]? =
    impl.pubId2pub[k]?.or (pubs.find? fun p => p.pubId ≠ 0 ∧ p.pubId = k) := by
  induction pubs generalizing impl with
  | nil => exact Option.or_none.symm
  | cons p pubs ih =>
    rw [List.foldl_cons, ih]
    unfold rebuildPub
    by_cases hzero : p.pubId = 0
    · rw [if_pos hzero, List.find?_cons_of_neg (by simp [hzero])]
    · rw [if_neg hzero, getElem?_insertIfNew_int]
      by_cases hk : p.pubId = k
      · rw [if_pos hk, List.find?_cons_of_pos (by simpa using ⟨hzero, hk⟩), Option.or_assoc,
          Option.some_or]
      · rw [if_neg hk, List.find?_cons_of_neg (by simp [hk])]

lemma pubId2queueInfoIds_foldl (pubs : List Pub) :
    (pubs.foldl rebuildPub impl).pubId2queueInfoIds[k]? =
      if pubs.filter (fun p => p.pubId ≠ 0 ∧ p.pubId = k) = [] then impl.pubId2queueInfoIds[k]?
      else some ((impl.pubId2queueInfoIds[k]?.getD []) ++
        (pubs.filter fun p => p.pubId ≠ 0 ∧ p.pubId = k).flatMap Pub.queueInfoIds) := by
  induction pubs generalizing impl with
  | nil => rfl
  | cons p pubs ih =>
    rw [List.foldl_cons, ih]
    unfold rebuildPub
    by_cases hzero : p.pubId = 0
    · rw [if_pos hzero, List.filter_cons_of_neg (by simp [hzero])]
    · rw [if_neg hzero, getElem?_insert_int]
      by_cases hk : p.pubId = k
      · subst hk
        rw [List.filter_cons_of_pos (by simp [hzero]), if_pos rfl, if_neg (List.cons_ne_nil _ _),
          List.flatMap_cons]
        split
        · rename_i hnil
          rw [hnil, List.flatMap_nil, List.append_nil]
        · rw [Option.getD_some, List.append_assoc]
      · rw [List.filter_cons_of_neg (by simp [hk]), if_neg hk]

lemma pubId2consumerGroupIds_foldl (pubs : List Pub) :
    (pubs.foldl rebuildPub impl).pubId2consumerGroupIds[k]?.getD [] =
      (impl.pubId2consumerGroupIds[k]?.getD []) ++
        (pubs.filter fun p => p.pubId ≠ 0 ∧ p.pubId = k).flatMap Pub.consumerGroupIds := by
  induction pubs generalizing impl with
  | nil => exact (List.append_nil _).symm
  | cons p pubs ih =>
    rw [List.foldl_cons, ih]
    unfold rebuildPub
    by_cases hzero : p.pubId = 0
    · rw [if_pos hzero, List.filter_cons_of_neg (by simp [hzero])]
    · rw [if_neg hzero, getElem?_insert_int]
      by_cases hk : p.pubId = k
      · subst hk
        rw [List.filter_cons_of_pos (by simp [hzero]), if_pos rfl, Option.getD_some,
          List.flatMap_cons, List.append_assoc]
      · rw [List.filter_cons_of_neg (by simp [hk]), if_neg hk]

/-- The loop over the publishers leaves the maps of queue infos empty. -/
lemma queueMaps_foldl (pubs : List Pub) :
    (pubs.foldl rebuildPub impl).queueInfoId2queueInfo = impl.queueInfoId2queueInfo ∧
      (pubs.foldl rebuildPub impl).queueInfoId2ranges = impl.queueInfoId2ranges ∧
      (pubs.foldl rebuildPub impl).queue2queueInfoId = impl.queue2queueInfoId := by
  induction pubs generalizing impl with
  | nil => exact ⟨rfl, rfl, rfl⟩
  | cons p pubs ih =>
    rw [List.foldl_cons]
    obtain ⟨hinfo, hranges, hqueue⟩ := @ih (rebuildPub impl p)
    rw [hinfo, hranges, hqueue]
    unfold rebuildPub
    split
    · exact ⟨rfl, rfl, rfl⟩
    · exact ⟨rfl, rfl, rfl⟩

/-! ## The maps of queue infos -/

lemma getElem?_setQueues (id : ℤ) (map : Std.ExtTreeMap ℤ ℤ) (range : ℤ × ℤ) (q : ℤ) :
    (setQueues id map range)[q]? =
      if range.1 ≤ q ∧ q ≤ range.2 then some id else map[q]? := by
  have hfold : ∀ n : ℕ, ((List.range n).foldl (fun map (n : ℕ) => map.insert (range.1 + n) id)
      map)[q]? = if range.1 ≤ q ∧ q < range.1 + n then some id else map[q]? := by
    intro n
    induction n with
    | zero => rw [if_neg (by omega)]; rfl
    | succ n ih =>
      rw [List.range_succ, List.foldl_append, List.foldl_cons, List.foldl_nil,
        getElem?_insert_int, ih]
      by_cases hq : range.1 + n = q
      · rw [if_pos hq, if_pos (by omega)]
      · rw [if_neg hq]
        by_cases hin : range.1 ≤ q ∧ q < range.1 + n
        · rw [if_pos hin, if_pos (by omega)]
        · rw [if_neg hin, if_neg (by omega)]
  unfold setQueues
  rw [hfold]
  by_cases hin : range.1 ≤ q ∧ q ≤ range.2
  · rw [if_pos hin, if_pos (by omega)]
  · rw [if_neg hin, if_neg (by omega)]

lemma getElem?_foldl_setQueues (id : ℤ) (map : Std.ExtTreeMap ℤ ℤ) (ranges : List (ℤ × ℤ)) (q : ℤ) :
    (ranges.foldl (setQueues id) map)[q]? =
      if TopicConfig.inRanges ranges q then some id else map[q]? := by
  induction ranges generalizing map with
  | nil => rfl
  | cons range ranges ih =>
    rw [List.foldl_cons, ih, getElem?_setQueues]
    unfold TopicConfig.inRanges
    rw [List.any_cons]
    by_cases hrange : range.1 ≤ q ∧ q ≤ range.2
    · simp [hrange]
    · rw [if_neg hrange, decide_eq_false hrange, Bool.false_or]

/-- What the loop over the queue infos does to the maps, when their ids are new. -/
structure BuiltFrom (impl impl' : TopicConfigImpl) (protos : List ProtoQueueInfo)
    (infos : List QueueInfo) : Prop where
  ranges : ∀ k, impl'.queueInfoId2ranges[k]? = impl.queueInfoId2ranges[k]?.or
    ((infos.find? fun q => q.queueInfoId ≠ 0 ∧ q.queueInfoId = k).map QueueInfo.ranges)
  info : ∀ k, impl'.queueInfoId2queueInfo[k]? = impl.queueInfoId2queueInfo[k]?.or
    (protos.find? fun q => q.queueInfoId ≠ 0 ∧ q.queueInfoId = k)
  queue : ∀ q, impl'.queue2queueInfoId[q]? = ((infos.reverse.find? fun info =>
    info.queueInfoId ≠ 0 ∧ TopicConfig.inRanges info.ranges q).map QueueInfo.queueInfoId).or
      impl.queue2queueInfoId[q]?
  pubs : impl'.pubId2pub = impl.pubId2pub ∧
    impl'.pubId2consumerGroupIds = impl.pubId2consumerGroupIds ∧
    impl'.pubId2queueInfoIds = impl.pubId2queueInfoIds

/-- An entry whose id has no ranges yet: its own ones in order are put into the maps. -/
lemma rebuildQueueInfo_eq {q : ProtoQueueInfo} {info : QueueInfo} {read : List (ℤ × ℤ)}
    (hq : q.read = some info) (hne : q.queueInfoId ≠ 0) (hranges : readRanges q.ranges = some read)
    (hnone : impl.queueInfoId2ranges[info.queueInfoId]? = none) :
    rebuildQueueInfo impl q read =
      { impl with
        queueInfoId2queueInfo := impl.queueInfoId2queueInfo.insertIfNew q.queueInfoId q
        queueInfoId2ranges := impl.queueInfoId2ranges.insert q.queueInfoId info.ranges
        queue2queueInfoId := info.ranges.foldl (setQueues q.queueInfoId)
          impl.queue2queueInfoId } := by
  have hsorted : info.ranges = read.insertionSort pairLe := by
    unfold ProtoQueueInfo.read at hq
    rw [if_neg hne, hranges] at hq
    cases hq
    rfl
  unfold rebuildQueueInfo
  dsimp only
  rw [← queueInfoId_of_read hq, hnone, Option.getD_none, List.nil_append, ← hsorted]

lemma builtFrom_rebuildQueueInfos {impl' : TopicConfigImpl} {protos : List ProtoQueueInfo}
    {infos : List QueueInfo} (hread : List.Forall₂ (fun q info => q.read = some info) protos infos)
    (hnodup : ((infos.filter fun q => q.queueInfoId ≠ 0).map QueueInfo.queueInfoId).Nodup)
    (hnew : ∀ info ∈ infos, info.queueInfoId ≠ 0 →
      impl.queueInfoId2ranges[info.queueInfoId]? = none)
    (h : rebuildQueueInfos impl protos = some impl') : BuiltFrom impl impl' protos infos := by
  induction hread generalizing impl with
  | nil =>
    cases h
    exact ⟨fun _ => Option.or_none.symm, fun _ => Option.or_none.symm, fun _ => rfl, rfl, rfl, rfl⟩
  | @cons q info protos infos hq hread ih =>
    have hid := queueInfoId_of_read hq
    unfold rebuildQueueInfos at h
    split at h
    · -- an entry without an id
      rename_i hzero
      have hzero' : info.queueInfoId = 0 := hid.trans hzero
      rw [List.filter_cons_of_neg (by simp [hzero'])] at hnodup
      obtain ⟨hranges, hinfo, hqueue, hpubs⟩ :=
        ih hnodup (fun x hx => hnew x (List.mem_cons_of_mem _ hx)) h
      refine ⟨fun k => ?_, fun k => ?_, fun k => ?_, hpubs⟩
      · rw [hranges k, List.find?_cons_of_neg (by simp [hzero'])]
      · rw [hinfo k, List.find?_cons_of_neg (by simp [hzero])]
      · rw [hqueue k, List.reverse_cons, List.find?_append,
          List.find?_cons_of_neg (by simp [hzero']), List.find?_nil, Option.or_none]
    · rename_i hne
      have hne' : info.queueInfoId ≠ 0 := fun h0 => hne (hid.symm.trans h0)
      split at h
      · cases h
      rename_i read hranges
      have hnone := hnew info List.mem_cons_self hne'
      rw [List.filter_cons_of_pos (by simp [hne']), List.map_cons, List.nodup_cons] at hnodup
      have hbuild := rebuildQueueInfo_eq hq hne hranges hnone
      have hnew' : ∀ x ∈ infos, x.queueInfoId ≠ 0 →
          (rebuildQueueInfo impl q read).queueInfoId2ranges[x.queueInfoId]? = none := by
        intro x hx hx0
        have hdiff : q.queueInfoId ≠ x.queueInfoId := by
          intro heq
          apply hnodup.1
          rw [hid, heq]
          exact List.mem_map_of_mem (List.mem_filter.mpr ⟨hx, decide_eq_true hx0⟩)
        rw [hbuild, getElem?_insert_int, if_neg hdiff]
        exact hnew x (List.mem_cons_of_mem _ hx) hx0
      obtain ⟨hranges', hinfo, hqueue, hpubs⟩ := ih hnodup.2 hnew' h
      rw [hbuild] at hpubs
      refine ⟨fun k => ?_, fun k => ?_, fun k => ?_, hpubs⟩
      · rw [hranges' k, hbuild, getElem?_insert_int]
        by_cases hk : q.queueInfoId = k
        · subst hk
          rw [if_pos rfl, ← hid, hnone, List.find?_cons_of_pos (by simp [hne'])]
          rfl
        · rw [if_neg hk, List.find?_cons_of_neg (by simp [hid, hk])]
      · rw [hinfo k, hbuild, getElem?_insertIfNew_int]
        by_cases hk : q.queueInfoId = k
        · rw [if_pos hk, List.find?_cons_of_pos (by simpa using ⟨hne, hk⟩), Option.or_assoc,
            Option.some_or]
        · rw [if_neg hk, List.find?_cons_of_neg (by simp [hk])]
      · rw [hqueue k, hbuild, getElem?_foldl_setQueues, List.reverse_cons, List.find?_append]
        cases infos.reverse.find? fun info =>
            info.queueInfoId ≠ 0 ∧ TopicConfig.inRanges info.ranges k with
        | some x => rfl
        | none =>
          by_cases hin : TopicConfig.inRanges info.ranges k
          · rw [if_pos hin, List.find?_cons_of_pos (by simp [hne', hin])]
            exact congrArg some hid.symm
          · rw [if_neg hin, List.find?_cons_of_neg (by simp [hin])]
            rfl

end

/-! ## The queries -/

section
variable {impl : TopicConfigImpl} {proto : ProtoTopicConfig} {cfg : TopicConfig}

/-- The maps answer as a `TopicConfig` does. -/
structure AnswersAs (impl : TopicConfigImpl) (proto : ProtoTopicConfig) (cfg : TopicConfig) :
    Prop where
  isValidQueue : ∀ q p g, impl.isValidQueue q p g = cfg.isValidQueueOf q p g
  ranges : ∀ id,
    impl.queueInfoId2ranges[id]? = (cfg.queueInfoId2queueInfo id).map QueueInfo.ranges
  queueInfo : ∀ id, impl.queueInfoId2queueInfo[id]? =
    proto.queueInfos.find? fun q => q.queueInfoId ≠ 0 ∧ q.queueInfoId = id
  queue : ∀ q, impl.queue2queueInfoId[q]? = (cfg.queueInfos.reverse.find? fun info =>
    info.queueInfoId ≠ 0 ∧ TopicConfig.inRanges info.ranges q).map QueueInfo.queueInfoId

lemma inQueueInfos_eq (hranges : ∀ id,
    impl.queueInfoId2ranges[id]? = (cfg.queueInfoId2queueInfo id).map QueueInfo.ranges)
    (q : ℤ) (ids : List ℤ) : impl.inQueueInfos q ids = cfg.inQueueInfos q ids := by
  induction ids with
  | nil => rfl
  | cons id ids ih =>
    unfold TopicConfigImpl.inQueueInfos TopicConfig.inQueueInfos
    rw [hranges, ih]
    cases cfg.queueInfoId2queueInfo id with
    | none => rfl
    | some info => rfl

theorem rebuild_answers (hreads : proto.Reads cfg) (hunique : cfg.UniqueIds)
    (h : rebuild proto = some impl) : AnswersAs impl proto cfg := by
  unfold rebuild at h
  obtain ⟨hinfo0, hranges0, hqueue0⟩ := @queueMaps_foldl {} proto.pubs
  obtain ⟨hbuilt, hinfo, hqueue, hpub, hgroups, hids⟩ :=
    builtFrom_rebuildQueueInfos hreads.queueInfos hunique.queueInfos
      (fun _ _ _ => by rw [hranges0]; rfl) h
  have hranges : ∀ id,
      impl.queueInfoId2ranges[id]? = (cfg.queueInfoId2queueInfo id).map QueueInfo.ranges := by
    intro id
    rw [hbuilt, hranges0]
    exact Option.none_or
  have hvalid : ∀ q p g, impl.validFor q g p = cfg.validFor q g p := by
    intro q p g
    have hempty : ({} : TopicConfigImpl).pubId2consumerGroupIds[p]?.getD [] = [] := rfl
    unfold TopicConfigImpl.validFor TopicConfig.validFor TopicConfig.pubsOf
    rw [hgroups, hids, pubId2consumerGroupIds_foldl, pubId2queueInfoIds_foldl, hreads.pubs, hempty,
      List.nil_append]
    by_cases hnil : proto.pubs.filter (fun pub => pub.pubId ≠ 0 ∧ pub.pubId = p) = []
    · rw [if_pos hnil, if_pos hnil]
      split
      · rfl
      · rfl
    · rw [if_neg hnil, if_neg hnil]
      split
      · rfl
      · exact inQueueInfos_eq hranges q _
  refine ⟨fun q p g => ?_, hranges, fun id => ?_, fun q => ?_⟩
  · unfold TopicConfigImpl.isValidQueue TopicConfig.isValidQueueOf
    split
    · exact hvalid q p g
    · -- the same publishers are tried
      have hmem : ∀ p, p ∈ impl.pubId2pub.keys ↔ p ∈ cfg.getAllPubID := by
        intro p
        rw [Std.ExtTreeMap.mem_keys, Std.ExtTreeMap.mem_iff_isSome_getElem?, hpub,
          pubId2pub_foldl, TopicConfig.mem_getAllPubID, hreads.pubs, Std.ExtTreeMap.getElem?_empty,
          Option.none_or, List.find?_isSome]
        simp
      rw [Bool.eq_iff_iff, List.any_eq_true, List.any_eq_true]
      apply exists_congr
      intro p
      rw [hmem, hvalid]
  · rw [hinfo, hinfo0]
    exact Option.none_or
  · rw [hqueue, hqueue0]
    exact Option.or_none

end

end PhxQueue.Config
