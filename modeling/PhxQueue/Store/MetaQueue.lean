import PhxQueue.Lib.OrderedMap
import PhxQueue.Lib.Run
import PhxQueue.Store.StoreMeta

/-!
# The meta queue and its statistics

`StoreMetaQueue` of `store/storemeta.cpp` with what it keeps of each meta: an index, by which it
counts, and a checksum over the metas before.  Its cursors are the queue of `Store/StoreMeta`.

* `MetaQueue` and its operations   the code;
* `cursors_pushBack`, `cursors_eraseFrontTill`, `next_cursors`   they do to the cursors what the
                     operations of `StoreMetaQueue` do;
* `Ok`               what the queue should be after any operations;
* `NoOverflow`       no index and no number of metas gets past the largest `int`;
* `always_ok_iff`    **the queue stays as it should exactly as long as nothing overflows**;
* `manyPushes_not_ok`   `2 ^ 31 + 1` pushes to a queue of two metas at most.
-/

set_option linter.unusedSectionVars false

namespace PhxQueue.Store
open Comm Lib

/-- What is stored in an `int`. -/
@[irreducible] def int32 (n : ℤ) : ℤ := (n + 2 ^ 31) % 2 ^ 32 - 2 ^ 31

lemma int32_lt (n : ℤ) : int32 n < 2 ^ 31 := by
  unfold int32
  omega

lemma int32_of_lt {n : ℤ} (h0 : -2 ^ 31 ≤ n) (h : n < 2 ^ 31) : int32 n = n := by
  unfold int32
  omega

/-- The index and the crc of a `StoreMeta`. -/
structure MetaStat where
  idx : ℤ := 0
  crc : ℕ := 0
deriving DecidableEq

/-- `StoreMeta`: its cursor and the rest. -/
abbrev StoreMeta := ℕ × MetaStat

/-- `StoreMetaQueue`: the metas are a `std::set` in the order of the cursors. -/
structure MetaQueue where
  metas : OrderedMap ℕ MetaStat := .empty
  lastDequeueMeta : StoreMeta := (uint64Max, {})

namespace MetaQueue

section
variable (crc32 : ℕ → ℕ → ℕ) (q : MetaQueue)

/-- `PushBack` of `StoreMeta(cursor_id)`, and what it returns. -/
def pushBack (cursorId : ℕ) : MetaQueue × Bool :=
  if cursorId = uint64Max then (q, false) else
  match q.metas.entries.getLast? with
  | some pre =>
    if ¬ pre.1 < cursorId then (q, false)
    else
      let m : MetaStat := { idx := int32 (pre.2.idx + 1), crc := crc32 pre.2.crc cursorId }
      ({ q with metas := q.metas.emplace cursorId m }, true)
  | none =>
    let m : MetaStat := { idx := 0, crc := crc32 q.lastDequeueMeta.2.crc cursorId }
    ({ q with metas := q.metas.emplace cursorId m }, true)

/-- What `Next` finds. -/
def findNext (cursorId : ℕ) : Option StoreMeta :=
  if cursorId = uint64Max then q.metas.entries.head? else q.metas.upperBound cursorId

/-- `Next`, with `crc_chk_pass`. -/
def next (cursorId : ℕ) : MetaQueue × Option (StoreMeta × Bool) :=
  match q.findNext cursorId with
  | none => (q, none)
  | some m =>
    let last := q.lastDequeueMeta
    let crcChkPass : Bool :=
      if last.1 ≠ uint64Max ∧ last.1 < m.1 then m.2.crc = crc32 last.2.crc m.1 else true
    ({ q with lastDequeueMeta := if last.1 = uint64Max ∨ last.1 < m.1 then m else last },
      some (m, crcChkPass))

def front : Option StoreMeta := q.metas.entries.head?

def back : Option StoreMeta := q.metas.entries.getLast?

def eraseFrontTill (cursorId : ℕ) : MetaQueue :=
  if cursorId = uint64Max then q
  else { q with metas := q.metas.eraseBefore fun c => cursorId < c }

def eraseFrontUntill (cursorId : ℕ) : MetaQueue :=
  if cursorId = uint64Max then q
  else { q with metas := q.metas.eraseBefore fun c => cursorId ≤ c }

def lowerBound (cursorId : ℕ) : Option StoreMeta :=
  if cursorId = uint64Max then none else q.metas.lowerBound cursorId

def updateDequeueStat (cursorId : ℕ) : MetaQueue :=
  match q.lowerBound cursorId with
  | none => q
  | some m =>
    let last := q.lastDequeueMeta
    { q with lastDequeueMeta := if last.1 = uint64Max ∨ last.1 < m.1 then m else last }

def size : ℤ := int32 q.metas.entries.length

def sizeGT (cursorId : ℕ) : ℤ :=
  match q.metas.upperBound cursorId, q.metas.entries.getLast? with
  | some m, some last => int32 (last.2.idx - m.2.idx + 1)
  | _, _ => 0

def clear : MetaQueue := { q with metas := .empty }

def clearDequeueStat : MetaQueue := { q with lastDequeueMeta := (uint64Max, {}) }

def cursors : StoreMetaQueue := (q.metas.entries.map Prod.fst).toFinset

end

/-- The operations; the queries change nothing. -/
inductive Op
  | pushBack (cursorId : ℕ)
  | next (cursorId : ℕ)
  | eraseFrontTill (cursorId : ℕ)
  | eraseFrontUntill (cursorId : ℕ)
  | updateDequeueStat (cursorId : ℕ)
  | clear
  | clearDequeueStat
  | query

def step (crc32 : ℕ → ℕ → ℕ) (q : MetaQueue) : Op → MetaQueue
  | .pushBack c => (q.pushBack crc32 c).1
  | .next c => (q.next crc32 c).1
  | .eraseFrontTill c => q.eraseFrontTill c
  | .eraseFrontUntill c => q.eraseFrontUntill c
  | .updateDequeueStat c => q.updateDequeueStat c
  | .clear => q.clear
  | .clearDequeueStat => q.clearDequeueStat
  | .query => q

/-! ## What should hold -/

/-- The cursors that have been accepted, being above the last one, and not erased. -/
def live (s : StoreMetaQueue) : Op → StoreMetaQueue
  | .pushBack c => s.pushBack c
  | .eraseFrontTill c => if c = uint64Max then s else s.filter (c < ·)
  | .eraseFrontUntill c => if c = uint64Max then s else s.filter (c ≤ ·)
  | .clear => ∅
  | .next _ | .updateDequeueStat _ | .clearDequeueStat | .query => s

/-- A cursor comes after `c`; all do after `-1`. -/
def After (c x : ℕ) : Prop := c = uint64Max ∨ c < x

/-- The queue is as it should be when these cursors are live. -/
structure Ok (crc32 : ℕ → ℕ → ℕ) (q : MetaQueue) (live : StoreMetaQueue) : Prop where
  increasing : (q.metas.entries.map Prod.fst).Pairwise (· < ·)
  exact : (q.metas.entries.map Prod.fst).toFinset = live
  consecutive : ∀ (i : ℕ) (m m' : StoreMeta), q.metas.entries[i]? = some m →
    q.metas.entries[i + 1]? = some m' → m'.2.idx = m.2.idx + 1
  next_some : ∀ c m pass, (q.next crc32 c).2 = some (m, pass) →
    IsLeast { x | x ∈ live ∧ After c x } m.1
  next_none : ∀ c, (q.next crc32 c).2 = none → ∀ x ∈ live, ¬ After c x
  sizeGT : ∀ c, q.sizeGT c = (live.filter (c < ·)).card

/-- The queue, and the cursors that are live. -/
structure Tracked where
  queue : MetaQueue := {}
  live : StoreMetaQueue := ∅

def metaQueue (crc32 : ℕ → ℕ → ℕ) : Machine Tracked Op where
  init := {}
  step s op := ⟨s.queue.step crc32 op, MetaQueue.live s.live op⟩

/-- The metas that `SizeGT` may have to count. -/
def positive (q : MetaQueue) : List StoreMeta := q.metas.entries.filter fun m => 0 < m.1

/-- An accepted push to a queue that is not empty needs a next index, and so does the number of
metas above cursor 0. -/
def NoOverflow (s : Tracked) : Op → Prop
  | .pushBack c => c ≠ uint64Max → ∀ pre ∈ s.queue.back, pre.1 < c →
      pre.2.idx < 2 ^ 31 - 1 ∧ s.queue.positive.length < 2 ^ 31 - 1
  | _ => True

/-! ## The cursors -/

section
variable {crc32 : ℕ → ℕ → ℕ} {q : MetaQueue}

lemma mem_cursors {c : ℕ} : c ∈ q.cursors ↔ c ∈ q.metas.keys := by
  unfold cursors OrderedMap.keys
  rw [List.mem_toFinset, List.mem_map]
  constructor
  · rintro ⟨m, hm, rfl⟩
    exact ⟨m.2, hm⟩
  · rintro ⟨m, hm⟩
    exact ⟨(c, m), hm, rfl⟩

lemma cursors_mem {m : StoreMeta} (h : m ∈ q.metas.entries) : m.1 ∈ q.cursors :=
  mem_cursors.mpr ⟨m.2, h⟩

lemma card_filter_cursors (p : ℕ → Prop) [DecidablePred p] :
    (q.cursors.filter p).card = (q.metas.entries.filter fun m => p m.1).length := by
  have hnodup : (q.metas.entries.map Prod.fst).Nodup := by
    refine List.pairwise_map.mpr (q.metas.sorted.imp ?_)
    intro a b hab
    exact hab.ne
  have hfilter : (q.metas.entries.filter fun m => p m.1).map Prod.fst =
      (q.metas.entries.map Prod.fst).filter (p ·) := by
    rw [List.filter_map]
    rfl
  rw [← List.length_map (f := Prod.fst), hfilter, ← List.toFinset_card_of_nodup (hnodup.filter _),
    List.toFinset_filter]
  simp only [decide_eq_true_eq]
  rfl

lemma cursors_of_entries {q' : MetaQueue} {p : ℕ → Prop} [DecidablePred p]
    (h : q'.metas.entries = q.metas.entries.filter fun m => p m.1) :
    q'.cursors = q.cursors.filter p := by
  ext c
  unfold cursors
  rw [Finset.mem_filter, List.mem_toFinset, List.mem_toFinset, h, List.mem_map, List.mem_map]
  constructor
  · rintro ⟨m, hm, rfl⟩
    obtain ⟨hm, hp⟩ := List.mem_filter.mp hm
    exact ⟨⟨m, hm, rfl⟩, of_decide_eq_true hp⟩
  · rintro ⟨⟨m, hm, rfl⟩, hp⟩
    exact ⟨m, List.mem_filter.mpr ⟨hm, decide_eq_true hp⟩, rfl⟩

lemma cursors_append {q' : MetaQueue} {m : StoreMeta}
    (h : q'.metas.entries = q.metas.entries ++ [m]) : q'.cursors = insert m.1 q.cursors := by
  unfold cursors
  rw [h, List.map_append, List.toFinset_append, Finset.union_comm]
  rfl

lemma back_eq_none : q.back = none ↔ q.metas.entries = [] := List.getLast?_eq_none_iff

lemma lt_iff_of_back {pre : StoreMeta} (h : q.back = some pre) {c : ℕ} :
    (∀ x ∈ q.cursors, x < c) ↔ pre.1 < c := by
  constructor
  · intro hall
    exact hall pre.1 (cursors_mem (List.mem_of_getLast? h))
  · intro hlt x hx
    exact (OrderedMap.le_last h x (mem_cursors.mp hx)).trans_lt hlt

/-- The checksum that the one of a new meta is made from. -/
def preCrc (q : MetaQueue) : ℕ := q.back.elim q.lastDequeueMeta.2.crc fun pre => pre.2.crc

/-- **What a push does.**  It is accepted when the cursor is above all others, and then there is one
more meta at the end. -/
lemma pushBack_cases (crc32 : ℕ → ℕ → ℕ) (q : MetaQueue) (c : ℕ) :
    (q.pushBack crc32 c = (q, false) ∧ ¬ (c ≠ uint64Max ∧ ∀ x ∈ q.cursors, x < c)) ∨
    ((q.pushBack crc32 c).2 = true ∧ c ≠ uint64Max ∧ (∀ x ∈ q.cursors, x < c) ∧
      ∃ crc, (q.pushBack crc32 c).1.metas.entries =
        q.metas.entries ++ [(c, ⟨(q.back.elim 0 fun pre => int32 (pre.2.idx + 1)), crc⟩)] ∧
        crc = crc32 q.preCrc c) := by
  unfold preCrc
  unfold pushBack
  by_cases hc : c = uint64Max
  · left
    rw [if_pos hc]
    exact ⟨rfl, fun h => h.1 hc⟩
  rw [if_neg hc]
  cases hback : q.metas.entries.getLast? with
  | none =>
    right
    have hnil : q.metas.entries = [] := back_eq_none.mp hback
    have hlt : ∀ x ∈ q.cursors, x < c := by
      intro x hx
      obtain ⟨m, hm⟩ := mem_cursors.mp hx
      rw [hnil] at hm
      exact absurd hm List.not_mem_nil
    refine ⟨rfl, hc, hlt, crc32 q.lastDequeueMeta.2.crc c, ?_⟩
    have hb : q.back = none := hback
    rw [hb]
    refine ⟨?_, rfl⟩
    exact OrderedMap.emplace_last fun k hk => hlt k (mem_cursors.mpr hk)
  | some pre =>
    have hb : q.back = some pre := hback
    dsimp only
    by_cases hlt : pre.1 < c
    · right
      have hall := (lt_iff_of_back hb).mpr hlt
      rw [if_neg (not_not_intro hlt)]
      refine ⟨rfl, hc, hall, crc32 pre.2.crc c, ?_⟩
      rw [hb]
      refine ⟨?_, rfl⟩
      exact OrderedMap.emplace_last fun k hk => hall k (mem_cursors.mpr hk)
    · left
      rw [if_pos hlt]
      exact ⟨rfl, fun h => hlt ((lt_iff_of_back hb).mp h.2)⟩

theorem cursors_pushBack (c : ℕ) : (q.pushBack crc32 c).1.cursors = q.cursors.pushBack c := by
  unfold StoreMetaQueue.pushBack
  rcases pushBack_cases crc32 q c with ⟨heq, hno⟩ | ⟨_, hc, hlt, crc, heq, _⟩
  · rw [heq]
    split
    · rfl
    · rename_i hc
      rw [if_neg fun hlt => hno ⟨hc, hlt⟩]
  · rw [if_neg hc, if_pos hlt, cursors_append heq]

lemma entries_eraseFrontTill {c : ℕ} (hc : c ≠ uint64Max) :
    (q.eraseFrontTill c).metas.entries = q.metas.entries.filter fun m => c < m.1 := by
  unfold eraseFrontTill
  rw [if_neg hc]
  apply OrderedMap.entries_eraseBefore
  intro k k' hle hk
  exact decide_eq_true ((of_decide_eq_true hk).trans_le hle)

lemma entries_eraseFrontUntill {c : ℕ} (hc : c ≠ uint64Max) :
    (q.eraseFrontUntill c).metas.entries = q.metas.entries.filter fun m => c ≤ m.1 := by
  unfold eraseFrontUntill
  rw [if_neg hc]
  apply OrderedMap.entries_eraseBefore
  intro k k' hle hk
  exact decide_eq_true ((of_decide_eq_true hk).trans hle)

theorem cursors_eraseFrontTill (c : ℕ) :
    (q.eraseFrontTill c).cursors = q.cursors.eraseFrontTill c := by
  unfold StoreMetaQueue.eraseFrontTill
  by_cases hc : c = uint64Max
  · rw [if_pos hc]
    unfold eraseFrontTill
    rw [if_pos hc]
  · rw [if_neg hc]
    exact cursors_of_entries (entries_eraseFrontTill hc)

lemma metas_next (c : ℕ) : (q.next crc32 c).1.metas = q.metas := by
  unfold next
  cases q.findNext c <;> rfl

lemma metas_updateDequeueStat (c : ℕ) : (q.updateDequeueStat c).metas = q.metas := by
  unfold updateDequeueStat
  cases q.lowerBound c <;> rfl

theorem cursors_step (op : Op) : (q.step crc32 op).cursors = live q.cursors op := by
  cases op with
  | pushBack c => exact cursors_pushBack c
  | next c =>
    show (q.next crc32 c).1.cursors = q.cursors
    unfold cursors
    rw [metas_next]
  | eraseFrontTill c => exact cursors_eraseFrontTill c
  | eraseFrontUntill c =>
    show (q.eraseFrontUntill c).cursors = if c = uint64Max then q.cursors else _
    by_cases hc : c = uint64Max
    · rw [if_pos hc]
      unfold eraseFrontUntill
      rw [if_pos hc]
    · rw [if_neg hc]
      exact cursors_of_entries (entries_eraseFrontUntill hc)
  | updateDequeueStat c =>
    show (q.updateDequeueStat c).cursors = q.cursors
    unfold cursors
    rw [metas_updateDequeueStat]
  | clear => rfl
  | clearDequeueStat => rfl
  | query => rfl

/-! ## What is found -/

lemma next_eq (c : ℕ) : ((q.next crc32 c).2).map Prod.fst = q.findNext c := by
  unfold next
  cases q.findNext c <;> rfl

lemma findNext_some {c : ℕ} {m : StoreMeta} (h : q.findNext c = some m) :
    IsLeast { x | x ∈ q.cursors ∧ After c x } m.1 := by
  unfold findNext at h
  split at h
  · rename_i hc
    refine ⟨⟨cursors_mem (List.mem_of_mem_head? h), Or.inl hc⟩, ?_⟩
    rintro x ⟨hx, _⟩
    exact OrderedMap.head_le h x (mem_cursors.mp hx)
  · rename_i hc
    obtain ⟨hmem, hlt, hmin⟩ := OrderedMap.search_spec h
    refine ⟨⟨cursors_mem hmem, Or.inr (of_decide_eq_true hlt)⟩, ?_⟩
    rintro x ⟨hx, hafter⟩
    exact hmin x (mem_cursors.mp hx) (decide_eq_true (hafter.resolve_left hc))

lemma findNext_none {c : ℕ} (h : q.findNext c = none) : ∀ x ∈ q.cursors, ¬ After c x := by
  intro x hx
  unfold findNext at h
  split at h
  · have hnil := List.head?_eq_none_iff.mp h
    obtain ⟨m, hm⟩ := mem_cursors.mp hx
    rw [hnil] at hm
    exact absurd hm List.not_mem_nil
  · rename_i hc
    have hno := of_decide_eq_false (OrderedMap.search_eq_none.mp h x (mem_cursors.mp hx))
    rintro (hc' | hlt)
    · exact hc hc'
    · exact hno hlt

theorem next_cursors (c : ℕ) : (q.findNext c).map Prod.fst = q.cursors.next c := by
  cases hq : q.findNext c with
  | none =>
    cases hn : q.cursors.next c with
    | none => rfl
    | some x =>
      obtain ⟨hmem, hle⟩ := StoreMetaQueue.next_mem hn
      refine absurd ?_ (findNext_none hq x hmem)
      by_cases hc : c = uint64Max
      · exact Or.inl hc
      · exact Or.inr (lt_of_level_le hc hle)
  | some m =>
    obtain ⟨⟨hmem, hafter⟩, hmin⟩ := findNext_some hq
    have hle : level c ≤ m.1 := by
      rcases hafter with rfl | hlt
      · rw [level_uint64Max]
        exact Nat.zero_le _
      · exact level_le_of_lt hlt
    cases hn : q.cursors.next c with
    | none => exact absurd (StoreMetaQueue.next_none hn hmem) (not_lt.mpr hle)
    | some x =>
      obtain ⟨hx, hlx⟩ := StoreMetaQueue.next_mem hn
      have hxm : x ≤ m.1 := StoreMetaQueue.next_le hn hmem hle
      have hmx : m.1 ≤ x := by
        refine hmin ⟨hx, ?_⟩
        by_cases hc : c = uint64Max
        · exact Or.inl hc
        · exact Or.inr (lt_of_level_le hc hlx)
      rw [Option.map_some, le_antisymm hmx hxm]

/-! ## Indexes -/

/-- The metas are numbered from `off` on. -/
def Numbered (off : ℕ) (entries : List StoreMeta) : Prop :=
  ∀ (i : ℕ) (m : StoreMeta), entries[i]? = some m → m.2.idx = off + i

/-- The queue is numbered, and no `int` is too small for it. -/
structure Inv (q : MetaQueue) : Prop where
  numbered : ∃ off, Numbered off q.metas.entries ∧ off + q.metas.entries.length ≤ 2 ^ 31
  positive_lt : q.positive.length < 2 ^ 31

lemma Numbered.suffix {off : ℕ} {l l' : List StoreMeta} (h : Numbered off l) (hl : l' <:+ l) :
    Numbered (off + (l.length - l'.length)) l' := by
  obtain ⟨front, rfl⟩ := hl
  intro i m hm
  have hidx := h (front.length + i) m
    ((List.getElem?_append_right (Nat.le_add_right _ _)).trans (by simpa using hm))
  rw [List.length_append]
  push_cast at hidx ⊢
  omega

lemma Numbered.append {off : ℕ} {l : List StoreMeta} {m : StoreMeta} (h : Numbered off l)
    (hm : m.2.idx = off + l.length) : Numbered off (l ++ [m]) := by
  intro i m' hm'
  rcases lt_trichotomy i l.length with hi | hi | hi
  · rw [List.getElem?_append_left hi] at hm'
    exact h i m' hm'
  · subst hi
    rw [List.getElem?_append_right (le_refl _)] at hm'
    simp at hm'
    rw [← hm', hm]
  · rw [List.getElem?_eq_none (by simp; omega)] at hm'
    cases hm'

lemma Numbered.last {off : ℕ} {l : List StoreMeta} {m : StoreMeta} (h : Numbered off l)
    (hm : l.getLast? = some m) : m.2.idx = off + l.length - 1 := by
  obtain ⟨before, rfl⟩ := List.getLast?_eq_some_iff.mp hm
  have hidx := h before.length m (by simp)
  rw [hidx, List.length_append]
  push_cast
  simp
  omega

lemma Inv.of_suffix {q' : MetaQueue} (h : q.Inv) (hs : q'.metas.entries <:+ q.metas.entries) :
    q'.Inv := by
  obtain ⟨⟨off, hnum, hle⟩, hpos⟩ := h
  have hlen := hs.length_le
  refine ⟨⟨_, hnum.suffix hs, by omega⟩, lt_of_le_of_lt ?_ hpos⟩
  exact (hs.sublist.filter _).length_le

theorem Inv.sizeGT (h : q.Inv) (c : ℕ) : q.sizeGT c = (q.cursors.filter (c < ·)).card := by
  rw [card_filter_cursors]
  obtain ⟨⟨off, hnum, hle⟩, hpos⟩ := h
  unfold MetaQueue.sizeGT
  cases hup : q.metas.upperBound c with
  | none =>
    have hnone := OrderedMap.search_eq_none.mp hup
    have hnil : (q.metas.entries.filter fun m => c < m.1) = [] := by
      refine List.filter_eq_nil_iff.mpr fun m hm => ?_
      rw [hnone m.1 ⟨m.2, hm⟩]
      exact Bool.false_ne_true
    rw [hnil]
    rfl
  | some m =>
    obtain ⟨before, after, hsplit, hm, hbefore, hafter⟩ := OrderedMap.search_split hup
    have hm := of_decide_eq_true hm
    -- from the meta that is found to the end, all are counted
    have hfilter : (q.metas.entries.filter fun m => c < m.1) = m :: after := by
      rw [hsplit, List.filter_append, List.filter_eq_nil_iff.mpr, List.nil_append]
      · refine List.filter_eq_self.mpr fun y hy => decide_eq_true ?_
        rcases List.mem_cons.mp hy with rfl | hy
        · exact hm
        · exact hm.trans (hafter y hy)
      · intro y hy
        rw [hbefore y hy]
        exact Bool.false_ne_true
    have hcount : (m :: after).length < 2 ^ 31 := by
      refine lt_of_le_of_lt ?_ hpos
      rw [← hfilter]
      refine (List.monotone_filter_right _ ?_).length_le
      intro y hy
      exact decide_eq_true (Nat.zero_lt_of_lt (of_decide_eq_true hy))
    have hidx : m.2.idx = off + before.length := by
      refine hnum before.length m ?_
      rw [hsplit]
      simp
    obtain ⟨last, hlast⟩ : ∃ last, q.metas.entries.getLast? = some last := by
      refine Option.isSome_iff_exists.mp (List.getLast?_isSome.mpr ?_)
      rw [hsplit]
      simp
    have hlidx := hnum.last hlast
    have hlen : q.metas.entries.length = before.length + (m :: after).length := by
      rw [hsplit, List.length_append]
    rw [hlast, hfilter]
    dsimp only
    rw [int32_of_lt] <;> omega

lemma Inv.ok (h : q.Inv) : Ok crc32 q q.cursors where
  increasing := List.pairwise_map.mpr q.metas.sorted
  exact := rfl
  consecutive := by
    intro i m m' hm hm'
    obtain ⟨⟨off, hnum, _⟩, _⟩ := h
    rw [hnum i m hm, hnum (i + 1) m' hm']
    push_cast
    ring
  next_some := by
    intro c m pass hnext
    refine findNext_some (?_ : q.findNext c = some m)
    rw [← @next_eq crc32 q c, hnext]
    rfl
  next_none := by
    intro c hnext
    refine findNext_none (?_ : q.findNext c = none)
    rw [← @next_eq crc32 q c, hnext]
    rfl
  sizeGT := h.sizeGT

/-! ## Runs -/

/-- The queue is as it should be, and the live cursors are its own. -/
structure Tracked.Inv (s : Tracked) : Prop where
  queue : s.queue.Inv
  live : s.live = s.queue.cursors

lemma Inv.empty : ({} : MetaQueue).Inv := by
  refine ⟨⟨0, ?_, by norm_num [OrderedMap.empty]⟩, by norm_num [positive, OrderedMap.empty]⟩
  intro i m hm
  cases hm

lemma Tracked.Inv.init : ((metaQueue crc32).init).Inv := ⟨Inv.empty, rfl⟩

/-- A push keeps the numbers when there is a next one. -/
lemma Inv.pushBack (h : q.Inv) (c : ℕ)
    (hroom : c ≠ uint64Max → ∀ pre ∈ q.back, pre.1 < c →
      pre.2.idx < 2 ^ 31 - 1 ∧ q.positive.length < 2 ^ 31 - 1) : (q.pushBack crc32 c).1.Inv := by
  rcases pushBack_cases crc32 q c with ⟨heq, _⟩ | ⟨_, hc, hlt, crc, heq, _⟩
  · rw [heq]
    exact h
  obtain ⟨⟨off, hnum, hle⟩, hpos⟩ := h
  have hpositive : ∀ m : StoreMeta, (q.pushBack crc32 c).1.metas.entries = q.metas.entries ++ [m] →
      (q.pushBack crc32 c).1.positive.length ≤ q.positive.length + 1 := by
    intro m hm
    unfold positive
    rw [hm, List.filter_append, List.length_append]
    exact Nat.add_le_add_left (List.length_filter_le _ [m]) _
  cases hback : q.back with
  | none =>
    have hnil := back_eq_none.mp hback
    rw [hback, hnil] at heq
    refine ⟨⟨0, ?_, ?_⟩, ?_⟩
    · intro i m hm
      rw [heq] at hm
      cases i with
      | zero =>
        cases hm
        rfl
      | succ i => cases hm
    · rw [heq]
      norm_num
    · refine lt_of_le_of_lt (List.length_filter_le _ _) ?_
      rw [heq]
      norm_num
  | some pre =>
    obtain ⟨hidx, hcount⟩ := hroom hc pre hback (hlt pre.1 (cursors_mem (List.mem_of_getLast? hback)))
    have hlast := hnum.last hback
    rw [hback] at heq
    have hnew : int32 (pre.2.idx + 1) = off + q.metas.entries.length := by
      rw [int32_of_lt] <;> omega
    refine ⟨⟨off, ?_, ?_⟩, ?_⟩
    · rw [heq]
      exact hnum.append hnew
    · rw [heq, List.length_append, List.length_singleton]
      omega
    · have hle' := hpositive _ heq
      omega

theorem Tracked.Inv.step {s : Tracked} (h : s.Inv) (op : Op) (hok : NoOverflow s op) :
    ((metaQueue crc32).step s op).Inv := by
  obtain ⟨hq, hlive⟩ := h
  refine ⟨?_, ?_⟩
  · show (s.queue.step crc32 op).Inv
    cases op with
    | pushBack c => exact hq.pushBack c hok
    | next c =>
      refine hq.of_suffix ?_
      show (s.queue.next crc32 c).1.metas.entries <:+ _
      rw [metas_next]
    | eraseFrontTill c =>
      refine hq.of_suffix ?_
      show (s.queue.eraseFrontTill c).metas.entries <:+ _
      unfold MetaQueue.eraseFrontTill
      split
      · exact List.suffix_rfl
      · exact List.dropWhile_suffix _
    | eraseFrontUntill c =>
      refine hq.of_suffix ?_
      show (s.queue.eraseFrontUntill c).metas.entries <:+ _
      unfold MetaQueue.eraseFrontUntill
      split
      · exact List.suffix_rfl
      · exact List.dropWhile_suffix _
    | updateDequeueStat c =>
      refine hq.of_suffix ?_
      show (s.queue.updateDequeueStat c).metas.entries <:+ _
      rw [metas_updateDequeueStat]
    | clear => exact Inv.empty.of_suffix List.suffix_rfl
    | clearDequeueStat => exact hq.of_suffix List.suffix_rfl
    | query => exact hq
  · show MetaQueue.live s.live op = (s.queue.step crc32 op).cursors
    rw [cursors_step, hlive]

/-- A push that finds no next number leaves the queue as it should not be. -/
lemma not_ok_of_overflow {s : Tracked} (h : s.Inv) (op : Op) (hno : ¬ NoOverflow s op) :
    ¬ Ok crc32 ((metaQueue crc32).step s op).queue ((metaQueue crc32).step s op).live := by
  intro hok
  cases op with
  | next | eraseFrontTill | eraseFrontUntill | updateDequeueStat | clear | clearDequeueStat
    | query => exact hno trivial
  | pushBack c =>
    unfold NoOverflow at hno
    push Not at hno
    obtain ⟨hc, pre, hback, hlt, hfull⟩ := hno
    obtain ⟨⟨⟨off, hnum, hle⟩, hpos⟩, _⟩ := h
    have hall := (lt_iff_of_back hback).mpr hlt
    rcases pushBack_cases crc32 s.queue c with ⟨_, hrefused⟩ | ⟨_, _, _, crc, heq, _⟩
    · exact hrefused ⟨hc, hall⟩
    rw [hback] at heq
    have hlast := hnum.last hback
    by_cases hidx : pre.2.idx < 2 ^ 31 - 1
    · -- one meta too many to be counted
      have hcount := hfull hidx
      have hsize := hok.sizeGT 0
      have hexact : ((metaQueue crc32).step s (.pushBack c)).live =
          (s.queue.pushBack crc32 c).1.cursors := hok.exact.symm
      rw [hexact, card_filter_cursors, heq, List.filter_append, List.length_append] at hsize
      have hc0 : 0 < c := Nat.zero_lt_of_lt hlt
      have hone : (List.filter (fun m : StoreMeta => decide (0 < m.1))
          [(c, ({ idx := int32 (pre.2.idx + 1), crc := crc } : MetaStat))]).length = 1 := by
        simp [hc0]
      have hlt' : (s.queue.pushBack crc32 c).1.sizeGT 0 < 2 ^ 31 := by
        unfold MetaQueue.sizeGT
        split
        · exact int32_lt _
        · norm_num
      change (s.queue.pushBack crc32 c).1.sizeGT 0 = _ at hsize
      dsimp only [Option.elim] at hsize
      rw [hone] at hsize
      change 2 ^ 31 - 1 ≤ (s.queue.metas.entries.filter fun m => 0 < m.1).length at hcount
      omega
    · -- the largest index is followed by the smallest one
      have hnext := hok.consecutive (s.queue.metas.entries.length - 1) pre
        (c, ⟨int32 (pre.2.idx + 1), crc⟩)
      have hlen : 0 < s.queue.metas.entries.length :=
        List.length_pos_of_mem (List.mem_of_getLast? hback)
      have hpre : s.queue.metas.entries[s.queue.metas.entries.length - 1]? = some pre := by
        rw [← List.getLast?_eq_getElem?]
        exact hback
      have hbad := hnext ?_ ?_
      · dsimp only at hbad
        unfold int32 at hbad
        omega
      · show (s.queue.pushBack crc32 c).1.metas.entries[_]? = _
        rw [heq, List.getElem?_append_left (by omega), hpre]
      · show (s.queue.pushBack crc32 c).1.metas.entries[_]? = _
        rw [heq, Nat.sub_add_cancel hlen, List.getElem?_append_right (le_refl _)]
        simp

/-- **The queue is as it should be after any operations exactly as long as nothing overflows.** -/
theorem always_ok_iff (crc32 : ℕ → ℕ → ℕ) (ops : List Op) :
    (metaQueue crc32).Always (fun s => Ok crc32 s.queue s.live) (metaQueue crc32).init ops ↔
      (metaQueue crc32).Along NoOverflow (metaQueue crc32).init ops := by
  have hP : ∀ s : Tracked, s.Inv → Ok crc32 s.queue s.live := by
    intro s hs
    rw [hs.live]
    exact hs.queue.ok
  have hstep : ∀ (s : Tracked) (op : Op), s.Inv → NoOverflow s op →
      ((metaQueue crc32).step s op).Inv := fun s op hs hok => hs.step op hok
  have hbad : ∀ (s : Tracked) (op : Op), s.Inv → ¬ NoOverflow s op →
      ¬ Ok crc32 ((metaQueue crc32).step s op).queue ((metaQueue crc32).step s op).live :=
    fun s op hs hno => not_ok_of_overflow hs op hno
  exact Machine.always_iff_along hP hstep hbad Tracked.Inv.init ops

end

/-- Rounds that push a cursor and erase the ones below it. -/
def pushRounds : ℕ → List Op
  | 0 => []
  | n + 1 => pushRounds n ++ [.pushBack n, .eraseFrontUntill n]

lemma pushRounds_succ (n : ℕ) :
    pushRounds (n + 1) = pushRounds n ++ [.pushBack n, .eraseFrontUntill n] := rfl

/-- A round of a queue with lower cursors leaves the new meta. -/
lemma entries_round (crc32 : ℕ → ℕ → ℕ) {s : Tracked} {n : ℕ} (hn : n < uint64Max)
    (hlt : ∀ x ∈ s.queue.cursors, x < n)
    (hidx : (s.queue.back.elim 0 fun pre => int32 (pre.2.idx + 1)) = n) :
    ∃ crc, ((metaQueue crc32).exec s [.pushBack n, .eraseFrontUntill n]).queue.metas.entries =
      [(n, ⟨n, crc⟩)] := by
  rcases pushBack_cases crc32 s.queue n with ⟨_, hrefused⟩ | ⟨_, _, _, crc, heq, _⟩
  · exact absurd ⟨hn.ne, hlt⟩ hrefused
  refine ⟨crc, ?_⟩
  show ((s.queue.pushBack crc32 n).1.eraseFrontUntill n).metas.entries = _
  rw [entries_eraseFrontUntill hn.ne, heq, hidx, List.filter_append, List.filter_eq_nil_iff.mpr]
  · simp
  · intro m hm
    have hm := hlt m.1 (cursors_mem hm)
    simpa using hm

/-- After `n + 1` rounds there is one meta, with the index `n`. -/
lemma entries_pushRounds (crc32 : ℕ → ℕ → ℕ) {n : ℕ} (hn : n < 2 ^ 31) :
    ∃ crc, ((metaQueue crc32).exec (metaQueue crc32).init (pushRounds (n + 1))).queue.metas.entries =
      [(n, ⟨n, crc⟩)] := by
  have hmax : (2 : ℕ) ^ 31 < uint64Max := by
    unfold uint64Max
    norm_num
  rw [pushRounds_succ, Machine.exec_append]
  induction n with
  | zero =>
    refine entries_round crc32 (hn.trans hmax) ?_ rfl
    intro x hx
    exact absurd hx (Finset.notMem_empty x)
  | succ n ih =>
    obtain ⟨crc, hone⟩ := ih (Nat.lt_of_succ_lt hn)
    rw [pushRounds_succ, Machine.exec_append]
    refine entries_round crc32 (hn.trans hmax) ?_ ?_
    · intro x hx
      obtain ⟨m, hm⟩ := mem_cursors.mp hx
      rw [hone] at hm
      cases List.mem_singleton.mp hm
      exact Nat.lt_succ_self n
    · have hback := (congrArg List.getLast? hone).trans List.getLast?_singleton
      unfold back
      rw [hback, Option.elim_some, int32_of_lt] <;> push_cast <;> omega

/-- At most two metas are in the queue, but the index of the last one overflows. -/
lemma not_ok_pushRounds (crc32 : ℕ → ℕ → ℕ) :
    ¬ (metaQueue crc32).Always (fun s => Ok crc32 s.queue s.live) (metaQueue crc32).init
      (pushRounds (2 ^ 31) ++ [.pushBack (2 ^ 31)]) := by
  obtain ⟨n, hn⟩ : ∃ n, n + 1 = 2 ^ 31 := ⟨2 ^ 31 - 1, by norm_num⟩
  have hmax : (2 : ℕ) ^ 31 ≠ uint64Max := by
    unfold uint64Max
    norm_num
  rw [← hn] at hmax ⊢
  intro hok
  obtain ⟨crc, hone⟩ := entries_pushRounds crc32 (show n < 2 ^ 31 by omega)
  have hlast := hok.last
  rw [Machine.exec_append] at hlast
  generalize (metaQueue crc32).exec (metaQueue crc32).init (pushRounds (n + 1)) = s at hone hlast
  have hcursors : ∀ x ∈ s.queue.cursors, x < n + 1 := by
    intro x hx
    obtain ⟨m, hm⟩ := mem_cursors.mp hx
    rw [hone] at hm
    cases List.mem_singleton.mp hm
    exact Nat.lt_succ_self n
  rcases pushBack_cases crc32 s.queue (n + 1) with ⟨_, hrefused⟩ | ⟨_, _, _, crc', heq, _⟩
  · exact hrefused ⟨hmax, hcursors⟩
  have hback : s.queue.back = some (n, ⟨n, crc⟩) :=
    (congrArg List.getLast? hone).trans List.getLast?_singleton
  rw [hone, hback, Option.elim_some] at heq
  have hnext := hlast.consecutive 0 (n, ⟨n, crc⟩) (n + 1, ⟨int32 (n + 1), crc'⟩) ?_ ?_
  · dsimp only at hnext
    unfold int32 at hnext
    omega
  · show (s.queue.pushBack crc32 (n + 1)).1.metas.entries[0]? = _
    rw [heq]
    rfl
  · show (s.queue.pushBack crc32 (n + 1)).1.metas.entries[1]? = _
    rw [heq]
    rfl

/-- **Counterexample.**  So also with the checksum that is always 0. -/
theorem manyPushes_not_ok :
    ¬ (metaQueue fun _ _ => 0).Always (fun s => Ok (fun _ _ => 0) s.queue s.live)
      (metaQueue fun _ _ => 0).init (pushRounds (2 ^ 31) ++ [.pushBack (2 ^ 31)]) :=
  not_ok_pushRounds _

end MetaQueue

end PhxQueue.Store
