import PhxQueue.Lib.HashChain
import PhxQueue.Store.MetaQueue

/-!
# The checksum at dequeue

`PushBack` makes the crc of a meta from that of the last one in the queue, or from that of the last
dequeued one when the queue is empty; `Next` compares it with the one made from the last dequeued meta.

* `Audited`            the queue, the cursors pushed, and the cursors each crc is made from;
* `ReportsGaps`        the flag says whether something pushed lies between;
* `KeepsChain`         a push to an empty queue finds nothing pushed after the last dequeued meta;
* `Audited.Inv`        whose crc goes on from whose;
* `reportsGaps_run`    **in runs that keep the chain, the flag reports exactly the gaps**;
* `misreports_of_refused`   a push that does not keep it is followed by a wrong report;
* `lost_not_reported`  a meta that is lost and not reported.
-/

set_option linter.unusedSectionVars false

namespace PhxQueue.Store.MetaQueue
open Comm Lib

/-! ## What is reported -/

/-- The queue, the cursors that have been accepted, the cursors that the crc of the meta of a cursor is
made from, and those that the crc of the last dequeued meta is made from. -/
structure Audited where
  queue : MetaQueue := {}
  pushed : Finset ℕ := ∅
  chain : ℕ → List ℕ := fun _ => []
  lastChain : List ℕ := []

namespace Audited

/-- What the crc of a new meta goes on from. -/
def preChain (s : Audited) : List ℕ := s.queue.back.elim s.lastChain fun pre => s.chain pre.1

def dequeued (s : Audited) (queue : MetaQueue) : Audited :=
  { s with
    queue := queue
    lastChain :=
      if queue.lastDequeueMeta.1 = s.queue.lastDequeueMeta.1 then s.lastChain
      else s.chain queue.lastDequeueMeta.1 }

def accepted (s : Audited) (queue : MetaQueue) (c : ℕ) : Audited :=
  { s with
    queue := queue
    pushed := insert c s.pushed
    chain := Function.update s.chain c (s.preChain ++ [c]) }

def step (crc32 : ℕ → ℕ → ℕ) (s : Audited) (op : Op) : Audited :=
  match op with
  | .pushBack c =>
    if (s.queue.pushBack crc32 c).2 then s.accepted (s.queue.pushBack crc32 c).1 c else s
  | op => s.dequeued (s.queue.step crc32 op)

/-- **The flag reports exactly the gaps**, when a meta above the last dequeued one is returned: it is
set if and only if nothing pushed lies between the two, unless the checksums collide. -/
def ReportsGaps (crc32 : ℕ → ℕ → ℕ) (s : Audited) : Op → Prop
  | .next c => ∀ e pass, (s.queue.next crc32 c).2 = some (e, pass) →
    s.queue.lastDequeueMeta.1 ≠ uint64Max → s.queue.lastDequeueMeta.1 < e.1 →
      (pass = true ↔ ∀ x ∈ s.pushed, ¬ (s.queue.lastDequeueMeta.1 < x ∧ x < e.1)) ∨
        Collides crc32 0 (s.chain e.1) (s.lastChain ++ [e.1])
  | _ => True

/-- Where a push finds the queue empty, nothing pushed lies above its cursor, nor above the last
dequeued meta if there is one, and the cursor does. -/
def KeepsChain (s : Audited) : Op → Prop
  | .pushBack c => c ≠ uint64Max → s.queue.metas.entries = [] →
    (s.queue.lastDequeueMeta.1 = uint64Max → ∀ x ∈ s.pushed, x ≤ c) ∧
    (s.queue.lastDequeueMeta.1 ≠ uint64Max → s.queue.lastDequeueMeta.1 < c ∧
      ∀ x ∈ s.pushed, x ≤ s.queue.lastDequeueMeta.1 ∨ x = c)
  | _ => True

end Audited

def audited (crc32 : ℕ → ℕ → ℕ) : Machine Audited Op where
  init := {}
  step := Audited.step crc32

/-! ## Steps of the queue -/

section
variable {crc32 : ℕ → ℕ → ℕ} {q : MetaQueue}

lemma lastDequeueMeta_pushBack (c : ℕ) :
    (q.pushBack crc32 c).1.lastDequeueMeta = q.lastDequeueMeta := by
  unfold pushBack
  by_cases hc : c = uint64Max
  · rw [if_pos hc]
  rw [if_neg hc]
  cases q.metas.entries.getLast? with
  | none => rfl
  | some pre =>
    dsimp only
    split <;> rfl

/-- **What the last dequeued meta may become**: a later one of the queue. -/
def LaterOf (q : MetaQueue) (last : StoreMeta) : Prop :=
  last = q.lastDequeueMeta ∨
    (last ∈ q.metas.entries ∧ After q.lastDequeueMeta.1 last.1)

lemma laterOf_ite {m : StoreMeta} (hm : m ∈ q.metas.entries) :
    q.LaterOf (if q.lastDequeueMeta.1 = uint64Max ∨ q.lastDequeueMeta.1 < m.1 then m
      else q.lastDequeueMeta) := by
  split
  · rename_i hafter
    exact Or.inr ⟨hm, hafter⟩
  · exact Or.inl rfl

lemma mem_of_findNext {c : ℕ} {m : StoreMeta} (h : q.findNext c = some m) :
    m ∈ q.metas.entries := by
  unfold findNext at h
  split at h
  · exact List.mem_of_mem_head? h
  · exact (OrderedMap.search_spec h).1

lemma laterOf_next (c : ℕ) : q.LaterOf (q.next crc32 c).1.lastDequeueMeta := by
  unfold next
  cases h : q.findNext c with
  | none => exact Or.inl rfl
  | some m => exact laterOf_ite (mem_of_findNext h)

lemma laterOf_updateDequeueStat (c : ℕ) : q.LaterOf (q.updateDequeueStat c).lastDequeueMeta := by
  unfold updateDequeueStat
  cases h : q.lowerBound c with
  | none => exact Or.inl rfl
  | some m =>
    refine laterOf_ite ?_
    unfold lowerBound at h
    split at h
    · cases h
    · exact (OrderedMap.search_spec h).1

/-- **What an erasure leaves**: the metas whose cursors are in an upper set. -/
def Keeps (q : MetaQueue) (metas : List StoreMeta) : Prop :=
  ∃ p : ℕ → Prop, (∀ x y, x ≤ y → p x → p y) ∧ ∀ m, m ∈ metas ↔ m ∈ q.metas.entries ∧ p m.1

lemma keeps_refl (q : MetaQueue) : q.Keeps q.metas.entries :=
  ⟨fun _ => True, fun _ _ _ _ => trivial, fun _ => (and_true _).to_iff.symm⟩

lemma keeps_eraseFrontTill (c : ℕ) : q.Keeps (q.eraseFrontTill c).metas.entries := by
  by_cases hc : c = uint64Max
  · unfold eraseFrontTill
    rw [if_pos hc]
    exact keeps_refl q
  · refine ⟨fun x => c < x, fun x y hxy hx => hx.trans_le hxy, fun m => ?_⟩
    rw [entries_eraseFrontTill hc, List.mem_filter, decide_eq_true_eq]

lemma keeps_eraseFrontUntill (c : ℕ) : q.Keeps (q.eraseFrontUntill c).metas.entries := by
  by_cases hc : c = uint64Max
  · unfold eraseFrontUntill
    rw [if_pos hc]
    exact keeps_refl q
  · refine ⟨fun x => c ≤ x, fun x y hxy hx => hx.trans hxy, fun m => ?_⟩
    rw [entries_eraseFrontUntill hc, List.mem_filter, decide_eq_true_eq]

lemma keeps_clear : q.Keeps q.clear.metas.entries :=
  ⟨fun _ => False, fun _ _ _ h => h, fun _ => iff_of_false List.not_mem_nil fun h => h.2⟩

/-- The flag of `Next`. -/
lemma next_pass {c : ℕ} {e : StoreMeta} {pass : Bool}
    (h : (q.next crc32 c).2 = some (e, pass)) (hlast : q.lastDequeueMeta.1 ≠ uint64Max)
    (hlt : q.lastDequeueMeta.1 < e.1) :
    e ∈ q.metas.entries ∧ (pass = true ↔ e.2.crc = crc32 q.lastDequeueMeta.2.crc e.1) := by
  unfold next at h
  cases hfind : q.findNext c with
  | none =>
    rw [hfind] at h
    cases h
  | some m =>
    simp only [hfind, Option.some.injEq, Prod.mk.injEq] at h
    obtain ⟨rfl, rfl⟩ := h
    refine ⟨mem_of_findNext hfind, ?_⟩
    rw [if_pos ⟨hlast, hlt⟩]
    exact decide_eq_true_iff

end

/-! ## The invariant -/

namespace Audited

section
variable {crc32 : ℕ → ℕ → ℕ} {s : Audited}

/-- Which cursors have been pushed, and whose crc goes on from whose. -/
structure Inv (crc32 : ℕ → ℕ → ℕ) (s : Audited) : Prop where
  crc_eq : ∀ m ∈ s.queue.metas.entries, m.2.crc = checksum crc32 0 (s.chain m.1)
  last_crc : s.queue.lastDequeueMeta.2.crc = checksum crc32 0 s.lastChain
  chain_uint64Max : s.chain uint64Max = []
  unset : s.queue.lastDequeueMeta.1 = uint64Max → s.lastChain = []
  pushed_ne : uint64Max ∉ s.pushed
  mem_pushed : ∀ m ∈ s.queue.metas.entries, m.1 ∈ s.pushed
  last_pushed : s.queue.lastDequeueMeta.1 ≠ uint64Max → s.queue.lastDequeueMeta.1 ∈ s.pushed
  below : s.queue.metas.entries ≠ [] →
    ∀ x ∈ s.pushed, ∃ m ∈ s.queue.metas.entries, x ≤ m.1
  linked : ∀ a ∈ s.queue.metas.entries, ∀ b ∈ s.queue.metas.entries, a.1 < b.1 →
    Linked (s.pushed : Set ℕ) (s.chain a.1) a.1 (s.chain b.1) b.1
  linked_last : s.queue.lastDequeueMeta.1 ≠ uint64Max →
    ∀ b ∈ s.queue.metas.entries, s.queue.lastDequeueMeta.1 < b.1 →
      Linked (s.pushed : Set ℕ) s.lastChain s.queue.lastDequeueMeta.1 (s.chain b.1) b.1
  last_chain : ∀ b ∈ s.queue.metas.entries, b.1 = s.queue.lastDequeueMeta.1 →
    s.chain b.1 = s.lastChain

lemma Inv.init : Inv crc32 (audited crc32).init where
  crc_eq := fun _ hm => absurd hm List.not_mem_nil
  last_crc := rfl
  chain_uint64Max := rfl
  unset := fun _ => rfl
  pushed_ne := Finset.notMem_empty _
  mem_pushed := fun _ hm => absurd hm List.not_mem_nil
  last_pushed := fun h => absurd rfl h
  below := fun h => absurd rfl h
  linked := fun _ ha => absurd ha List.not_mem_nil
  linked_last := fun h => absurd rfl h
  last_chain := fun _ hb => absurd hb List.not_mem_nil

theorem Inv.reportsGaps (h : Inv crc32 s) (op : Op) : ReportsGaps crc32 s op := by
  cases op with
  | next c =>
    intro e pass hnext hlast hlt
    obtain ⟨hmem, hpass⟩ := next_pass hnext hlast hlt
    rw [hpass, h.crc_eq e hmem, h.last_crc]
    exact (h.linked_last hlast e hmem hlt).checksum_eq_iff
  | _ => trivial

lemma Inv.erase (h : Inv crc32 s) {queue : MetaQueue}
    (hkeeps : s.queue.Keeps queue.metas.entries)
    (hlast : queue.lastDequeueMeta = s.queue.lastDequeueMeta) : Inv crc32 (s.dequeued queue) := by
  obtain ⟨p, hup, hmem⟩ := hkeeps
  have hsub : ∀ m ∈ queue.metas.entries, m ∈ s.queue.metas.entries := fun m hm => ((hmem m).mp hm).1
  have hchain : (s.dequeued queue).lastChain = s.lastChain := by
    unfold dequeued
    rw [hlast]
    exact if_pos rfl
  refine ⟨fun m hm => h.crc_eq m (hsub m hm), ?_, h.chain_uint64Max, ?_, h.pushed_ne,
    fun m hm => h.mem_pushed m (hsub m hm), ?_, ?_,
    fun a ha b hb => h.linked a (hsub a ha) b (hsub b hb), ?_, ?_⟩
  · show queue.lastDequeueMeta.2.crc = _
    rw [hchain, hlast]
    exact h.last_crc
  · show queue.lastDequeueMeta.1 = uint64Max → _
    rw [hchain, hlast]
    exact h.unset
  · show queue.lastDequeueMeta.1 ≠ uint64Max → queue.lastDequeueMeta.1 ∈ s.pushed
    rw [hlast]
    exact h.last_pushed
  · intro hne x hx
    obtain ⟨m₀, hm₀⟩ := List.exists_mem_of_ne_nil _ hne
    have hm₀' := (hmem m₀).mp hm₀
    obtain ⟨m, hm, hle⟩ := h.below (List.ne_nil_of_mem hm₀'.1) x hx
    rcases le_total m.1 m₀.1 with hm' | hm'
    · exact ⟨m₀, hm₀, hle.trans hm'⟩
    · exact ⟨m, (hmem m).mpr ⟨hm, hup m₀.1 m.1 hm' hm₀'.2⟩, hle⟩
  · rw [hchain]
    show queue.lastDequeueMeta.1 ≠ uint64Max → ∀ b ∈ queue.metas.entries,
      queue.lastDequeueMeta.1 < b.1 →
        Linked (s.pushed : Set ℕ) s.lastChain queue.lastDequeueMeta.1 (s.chain b.1) b.1
    rw [hlast]
    exact fun hne b hb => h.linked_last hne b (hsub b hb)
  · rw [hchain]
    show ∀ b ∈ queue.metas.entries, b.1 = queue.lastDequeueMeta.1 → s.chain b.1 = s.lastChain
    rw [hlast]
    exact fun b hb => h.last_chain b (hsub b hb)

lemma Inv.dequeue (h : Inv crc32 s) {queue : MetaQueue} (hmetas : queue.metas = s.queue.metas)
    (hlater : s.queue.LaterOf queue.lastDequeueMeta) : Inv crc32 (s.dequeued queue) := by
  rcases hlater with hlast | ⟨hmem, hafter⟩
  · refine h.erase ?_ hlast
    rw [hmetas]
    exact keeps_refl s.queue
  have hne : queue.lastDequeueMeta.1 ≠ uint64Max := by
    intro heq
    have hpushed := h.mem_pushed _ hmem
    rw [heq] at hpushed
    exact h.pushed_ne hpushed
  have hchain : (s.dequeued queue).lastChain = s.chain queue.lastDequeueMeta.1 := by
    refine if_neg ?_
    rcases hafter with heq | hlt
    · rw [heq]
      exact hne
    · exact hlt.ne'
  refine ⟨?_, ?_, h.chain_uint64Max, fun hunset => absurd hunset hne, h.pushed_ne, ?_,
    fun _ => h.mem_pushed _ hmem, ?_, ?_, ?_, ?_⟩
  · show ∀ m ∈ queue.metas.entries, m.2.crc = checksum crc32 0 (s.chain m.1)
    rw [hmetas]
    exact h.crc_eq
  · rw [hchain]
    exact h.crc_eq _ hmem
  · show ∀ m ∈ queue.metas.entries, m.1 ∈ s.pushed
    rw [hmetas]
    exact h.mem_pushed
  · show queue.metas.entries ≠ [] → ∀ x ∈ s.pushed, ∃ m ∈ queue.metas.entries, x ≤ m.1
    rw [hmetas]
    exact h.below
  · show ∀ a ∈ queue.metas.entries, ∀ b ∈ queue.metas.entries, a.1 < b.1 →
      Linked (s.pushed : Set ℕ) (s.chain a.1) a.1 (s.chain b.1) b.1
    rw [hmetas]
    exact h.linked
  · intro _ b hb hlt
    have hb : b ∈ queue.metas.entries := hb
    rw [hmetas] at hb
    rw [hchain]
    exact h.linked _ hmem b hb hlt
  · intro b _ heq
    have heq : b.1 = queue.lastDequeueMeta.1 := heq
    rw [hchain, heq]
    rfl

/-- What makes a new cursor the next one of the chain. -/
structure Follows (s : Audited) (c : ℕ) : Prop where
  le : ∀ x ∈ s.pushed, x ≤ c
  last_lt : s.queue.lastDequeueMeta.1 ≠ uint64Max → s.queue.lastDequeueMeta.1 < c
  linked : ∀ a ∈ s.queue.metas.entries,
    Linked (s.pushed : Set ℕ) (s.chain a.1) a.1 (s.preChain ++ [c]) c
  linked_last : s.queue.lastDequeueMeta.1 ≠ uint64Max →
    Linked (s.pushed : Set ℕ) s.lastChain s.queue.lastDequeueMeta.1 (s.preChain ++ [c]) c

/-- It follows the last dequeued meta when the queue is empty. -/
lemma follows_of_empty {c : ℕ} (hc : c ≠ uint64Max) (hempty : s.queue.metas.entries = [])
    (hkeeps : KeepsChain s (.pushBack c)) : Follows s c := by
  obtain ⟨hunset, hset⟩ := hkeeps hc hempty
  have hpre : s.preChain = s.lastChain := by
    unfold preChain
    rw [back_eq_none.mpr hempty]
    rfl
  refine ⟨?_, fun hlast => (hset hlast).1, ?_, fun hlast => ?_⟩
  · intro x hx
    by_cases hlast : s.queue.lastDequeueMeta.1 = uint64Max
    · exact hunset hlast x hx
    · obtain ⟨hlt, hpushed⟩ := hset hlast
      rcases hpushed x hx with hle | rfl
      · exact hle.trans hlt.le
      · exact le_rfl
  · intro a ha
    rw [hempty] at ha
    exact absurd ha List.not_mem_nil
  · rw [hpre]
    apply Linked.next
    intro x hx hlt
    rcases (hset hlast).2 x hx with hle | rfl
    · exact absurd hlt (not_lt.mpr hle)
    · exact le_rfl

lemma Inv.follows_of_back (h : Inv crc32 s) {pre : StoreMeta} (hback : s.queue.back = some pre)
    {c : ℕ} (hlt : pre.1 < c) : Follows s c := by
  have hmem : pre ∈ s.queue.metas.entries := List.mem_of_getLast? hback
  have hle : ∀ x ∈ s.pushed, x ≤ pre.1 := by
    intro x hx
    obtain ⟨m, hm, hxm⟩ := h.below (List.ne_nil_of_mem hmem) x hx
    exact hxm.trans (OrderedMap.le_last hback m.1 (OrderedMap.fst_mem_keys hm))
  have hpre : s.preChain = s.chain pre.1 := by
    unfold preChain
    rw [hback]
    rfl
  have hnext : Linked (s.pushed : Set ℕ) (s.chain pre.1) pre.1 (s.chain pre.1 ++ [c]) c := by
    apply Linked.next
    intro x hx hgt
    exact absurd hgt (not_lt.mpr (hle x hx))
  refine ⟨fun x hx => (hle x hx).trans hlt.le,
    fun hlast => (hle _ (h.last_pushed hlast)).trans_lt hlt, ?_, ?_⟩
  · intro a ha
    rw [hpre]
    rcases (hle a.1 (h.mem_pushed a ha)).lt_or_eq with ha' | ha'
    · exact (h.linked a ha pre hmem ha').snoc (h.mem_pushed pre hmem) ha' hle hlt
    · rw [ha']
      exact hnext
  · intro hlast
    rw [hpre]
    rcases (hle _ (h.last_pushed hlast)).lt_or_eq with hlt' | heq
    · exact (h.linked_last hlast pre hmem hlt').snoc (h.mem_pushed pre hmem) hlt' hle hlt
    · rw [← h.last_chain pre hmem heq.symm, heq]
      exact hnext

lemma Inv.preCrc_eq (h : Inv crc32 s) : s.queue.preCrc = checksum crc32 0 s.preChain := by
  unfold preCrc preChain
  cases hback : s.queue.back with
  | none => exact h.last_crc
  | some pre => exact h.crc_eq pre (List.mem_of_getLast? hback)

/-- The queue with a new meta at its end. -/
structure Appends (crc32 : ℕ → ℕ → ℕ) (s : Audited) (queue : MetaQueue) (m : StoreMeta) : Prop where
  entries : queue.metas.entries = s.queue.metas.entries ++ [m]
  last : queue.lastDequeueMeta = s.queue.lastDequeueMeta
  crc : m.2.crc = crc32 s.queue.preCrc m.1
  ne : m.1 ≠ uint64Max
  above : ∀ x ∈ s.queue.cursors, x < m.1

section
variable {queue : MetaQueue} {m : StoreMeta}

lemma Appends.chain_old (ha : Appends crc32 s queue m) {a : StoreMeta}
    (hmem : a ∈ s.queue.metas.entries) : (s.accepted queue m.1).chain a.1 = s.chain a.1 :=
  Function.update_of_ne (ha.above a.1 (cursors_mem hmem)).ne _ _

lemma chain_new : (s.accepted queue m.1).chain m.1 = s.preChain ++ [m.1] :=
  Function.update_self ..

lemma Appends.mem (ha : Appends crc32 s queue m) {a : StoreMeta}
    (hmem : a ∈ (s.accepted queue m.1).queue.metas.entries) :
    a ∈ s.queue.metas.entries ∨ a = m := by
  have hmem : a ∈ queue.metas.entries := hmem
  rw [ha.entries] at hmem
  exact (List.mem_append.mp hmem).imp_right List.mem_singleton.mp

lemma linked_accepted {la lb : List ℕ} {a b : ℕ} (hb : b ≤ m.1)
    (hl : Linked (s.pushed : Set ℕ) la a lb b) :
    Linked ((s.accepted queue m.1).pushed : Set ℕ) la a lb b := by
  refine hl.congr fun x _ hxb => ?_
  show x ∈ s.pushed ↔ x ∈ insert m.1 s.pushed
  rw [Finset.mem_insert, or_iff_right (hxb.trans_le hb).ne]

lemma Inv.linked_of_appends (h : Inv crc32 s) (ha : Appends crc32 s queue m)
    (hf : Follows s m.1) :
    ∀ a ∈ (s.accepted queue m.1).queue.metas.entries,
      ∀ b ∈ (s.accepted queue m.1).queue.metas.entries, a.1 < b.1 →
        Linked ((s.accepted queue m.1).pushed : Set ℕ) ((s.accepted queue m.1).chain a.1) a.1
          ((s.accepted queue m.1).chain b.1) b.1 := by
  intro a hmema b hmemb hab
  rcases ha.mem hmema with holda | rfl
  · rw [ha.chain_old holda]
    rcases ha.mem hmemb with holdb | rfl
    · rw [ha.chain_old holdb]
      exact linked_accepted (ha.above b.1 (cursors_mem holdb)).le (h.linked a holda b holdb hab)
    · rw [chain_new]
      exact linked_accepted le_rfl (hf.linked a holda)
  · -- nothing comes after the new one
    rcases ha.mem hmemb with hmemb | rfl
    · exact absurd hab (ha.above b.1 (cursors_mem hmemb)).asymm
    · exact absurd hab (lt_irrefl _)

lemma Inv.linked_last_of_appends (h : Inv crc32 s) (ha : Appends crc32 s queue m)
    (hf : Follows s m.1) (hlast : s.queue.lastDequeueMeta.1 ≠ uint64Max) :
    ∀ b ∈ (s.accepted queue m.1).queue.metas.entries, s.queue.lastDequeueMeta.1 < b.1 →
      Linked ((s.accepted queue m.1).pushed : Set ℕ) s.lastChain s.queue.lastDequeueMeta.1
        ((s.accepted queue m.1).chain b.1) b.1 := by
  intro b hmemb hlt
  rcases ha.mem hmemb with hmemb | rfl
  · rw [ha.chain_old hmemb]
    exact linked_accepted (ha.above b.1 (cursors_mem hmemb)).le (h.linked_last hlast b hmemb hlt)
  · rw [chain_new]
    exact linked_accepted le_rfl (hf.linked_last hlast)

lemma Inv.accepted (h : Inv crc32 s) (ha : Appends crc32 s queue m) (hf : Follows s m.1) :
    Inv crc32 (s.accepted queue m.1) := by
  have hlast : (s.accepted queue m.1).queue.lastDequeueMeta = s.queue.lastDequeueMeta := ha.last
  refine ⟨?_, ?_, ?_, ?_, ?_, ?_, ?_, ?_, h.linked_of_appends ha hf, ?_, ?_⟩
  · intro a hmem
    rcases ha.mem hmem with hmem | rfl
    · rw [ha.chain_old hmem]
      exact h.crc_eq a hmem
    · rw [chain_new, ha.crc, h.preCrc_eq, checksum_append_singleton]
  · rw [hlast]
    exact h.last_crc
  · exact (Function.update_of_ne ha.ne.symm _ _).trans h.chain_uint64Max
  · rw [hlast]
    exact h.unset
  · show uint64Max ∉ insert m.1 s.pushed
    rw [Finset.mem_insert]
    rintro (heq | hin)
    · exact ha.ne heq.symm
    · exact h.pushed_ne hin
  · intro a hmem
    show a.1 ∈ insert m.1 s.pushed
    rw [Finset.mem_insert]
    exact (ha.mem hmem).symm.imp (congrArg Prod.fst) (h.mem_pushed a)
  · rw [hlast]
    exact fun hne => Finset.mem_insert_of_mem (h.last_pushed hne)
  · intro _ x hx
    refine ⟨m, ?_, ?_⟩
    · show m ∈ queue.metas.entries
      rw [ha.entries]
      exact List.mem_append_right _ (List.mem_singleton.mpr rfl)
    · rcases Finset.mem_insert.mp hx with rfl | hx
      · exact le_rfl
      · exact hf.le x hx
  · rw [hlast]
    exact h.linked_last_of_appends ha hf
  · rw [hlast]
    intro b hmem hbl
    rcases ha.mem hmem with hmem | rfl
    · rw [ha.chain_old hmem]
      exact h.last_chain b hmem hbl
    · -- the new cursor is not the last dequeued one
      have hne : s.queue.lastDequeueMeta.1 ≠ uint64Max := by
        rw [← hbl]
        exact ha.ne
      exact absurd hbl (hf.last_lt hne).ne'

end

lemma step_pushBack (crc32 : ℕ → ℕ → ℕ) {c : ℕ} (hc : c ≠ uint64Max) (hlt : ∀ x ∈ s.queue.cursors, x < c) :
    ∃ queue m, m.1 = c ∧ s.step crc32 (.pushBack c) = s.accepted queue m.1 ∧
      Appends crc32 s queue m := by
  rcases pushBack_cases crc32 s.queue c with ⟨-, hno⟩ | ⟨hacc, -, -, crc, hentries, hcrc⟩
  · exact absurd ⟨hc, hlt⟩ hno
  · have hstep : s.step crc32 (.pushBack c) = s.accepted (s.queue.pushBack crc32 c).1 c :=
      if_pos hacc
    exact ⟨_, _, rfl, hstep, hentries, lastDequeueMeta_pushBack c, hcrc, hc, hlt⟩

lemma Inv.pushBack (h : Inv crc32 s) {c : ℕ} (hkeeps : KeepsChain s (.pushBack c)) :
    Inv crc32 (s.step crc32 (.pushBack c)) := by
  by_cases hlt : c ≠ uint64Max ∧ ∀ x ∈ s.queue.cursors, x < c
  · obtain ⟨queue, m, rfl, hstep, happends⟩ := step_pushBack crc32 hlt.1 hlt.2
    have hfollows : Follows s m.1 := by
      cases hback : s.queue.back with
      | none => exact follows_of_empty hlt.1 (back_eq_none.mp hback) hkeeps
      | some pre => exact h.follows_of_back hback ((lt_iff_of_back hback).mp hlt.2)
    rw [hstep]
    exact h.accepted happends hfollows
  · rcases pushBack_cases crc32 s.queue c with ⟨heq, -⟩ | ⟨-, hc, habove, -⟩
    · have hstep : s.step crc32 (.pushBack c) = s := by
        show (if (s.queue.pushBack crc32 c).2 = true then _ else s) = s
        rw [heq]
        rfl
      rw [hstep]
      exact h
    · exact absurd ⟨hc, habove⟩ hlt

lemma Inv.clearDequeueStat (h : Inv crc32 s) : Inv crc32 (s.step crc32 .clearDequeueStat) := by
  have hchain : (s.step crc32 .clearDequeueStat).lastChain = [] := by
    show (if uint64Max = s.queue.lastDequeueMeta.1 then s.lastChain else s.chain uint64Max) = []
    split
    · rename_i heq
      exact h.unset heq.symm
    · exact h.chain_uint64Max
  refine ⟨h.crc_eq, ?_, h.chain_uint64Max, fun _ => hchain, h.pushed_ne, h.mem_pushed,
    fun hne => absurd rfl hne, h.below, h.linked, fun hne => absurd rfl hne, ?_⟩
  · rw [hchain]
    rfl
  · intro b hb heq
    have hpushed := h.mem_pushed b hb
    have heq : b.1 = uint64Max := heq
    rw [heq] at hpushed
    exact absurd hpushed h.pushed_ne

theorem Inv.step (h : Inv crc32 s) (op : Op) (hkeeps : KeepsChain s op) :
    Inv crc32 (s.step crc32 op) := by
  cases op with
  | pushBack c => exact h.pushBack hkeeps
  | next c => exact h.dequeue (metas_next c) (laterOf_next c)
  | eraseFrontTill c =>
    refine h.erase (keeps_eraseFrontTill c) ?_
    show (s.queue.eraseFrontTill c).lastDequeueMeta = _
    unfold eraseFrontTill
    split <;> rfl
  | eraseFrontUntill c =>
    refine h.erase (keeps_eraseFrontUntill c) ?_
    show (s.queue.eraseFrontUntill c).lastDequeueMeta = _
    unfold eraseFrontUntill
    split <;> rfl
  | updateDequeueStat c => exact h.dequeue (metas_updateDequeueStat c) (laterOf_updateDequeueStat c)
  | clear => exact h.erase keeps_clear rfl
  | clearDequeueStat => exact h.clearDequeueStat
  | query => exact h.erase (keeps_refl s.queue) rfl

end

end Audited

/-! ## Runs -/

/-- **The checksum at dequeue reports exactly the gaps** in every run in which each push to an empty
queue keeps the chain. -/
theorem reportsGaps_run (crc32 : ℕ → ℕ → ℕ) (ops : List Op)
    (hkeeps : (audited crc32).Along Audited.KeepsChain (audited crc32).init ops) :
    (audited crc32).Along (Audited.ReportsGaps crc32) (audited crc32).init ops := by
  have hinv : (audited crc32).Always (Audited.Inv crc32) (audited crc32).init ops :=
    Machine.Always.of_inv (fun _ op h hok => h.step op hok) Audited.Inv.init hkeeps
  exact hinv.along fun _ op h => h.reportsGaps op

/-! ## Pushes that break the chain -/

section
variable {q : MetaQueue} {m m' : StoreMeta}

lemma findNext_head (h : q.metas.entries = [m]) : q.findNext uint64Max = some m := by
  unfold findNext
  rw [if_pos rfl, h]
  rfl

lemma findNext_second (h : q.metas.entries = [m, m']) (hne : m.1 ≠ uint64Max) (hlt : m.1 < m'.1) :
    q.findNext m.1 = some m' := by
  have hmem' : m' ∈ q.metas.entries := by
    rw [h]
    exact List.mem_cons_of_mem _ List.mem_cons_self
  cases hfind : q.findNext m.1 with
  | none => exact absurd (Or.inr hlt) (findNext_none hfind m'.1 (cursors_mem hmem'))
  | some e =>
    have hmem := mem_of_findNext hfind
    rw [h] at hmem
    rcases List.mem_cons.mp hmem with rfl | hmem
    · rcases (findNext_some hfind).1.2 with heq | hself
      · exact absurd heq hne
      · exact absurd hself (lt_irrefl _)
    · rw [List.mem_singleton.mp hmem]

lemma exists_above (x : ℕ) : ∃ c, x < c ∧ c ≠ uint64Max ∧ ∀ y, x < y → y < c → y = uint64Max := by
  by_cases h : x + 1 = uint64Max
  · exact ⟨x + 2, by omega, by omega, fun y hxy hy => by omega⟩
  · exact ⟨x + 1, by omega, h, fun y hxy hy => by omega⟩

end

namespace Audited

section
variable {crc32 : ℕ → ℕ → ℕ} {s : Audited} {m e : StoreMeta} {c x : ℕ}

lemma not_reportsGaps_of_pass (hfind : s.queue.findNext c = some e)
    (hlast : s.queue.lastDequeueMeta.1 ≠ uint64Max)
    (hcrc : e.2.crc = crc32 s.queue.lastDequeueMeta.2.crc e.1)
    (hchain : s.chain e.1 = s.lastChain ++ [e.1]) (hx : x ∈ s.pushed)
    (hlx : s.queue.lastDequeueMeta.1 < x) (hxe : x < e.1) : ¬ ReportsGaps crc32 s (.next c) := by
  intro hreport
  have hnext : (s.queue.next crc32 c).2 = some (e, true) := by
    unfold next
    rw [hfind]
    dsimp only
    rw [if_pos ⟨hlast, hlx.trans hxe⟩, decide_eq_true hcrc]
  rcases hreport e true hnext hlast (hlx.trans hxe) with hiff | hcollides
  · exact hiff.mp rfl x hx ⟨hlx, hxe⟩
  · exact hcollides.1 hchain

lemma not_reportsGaps_of_alarm (hfind : s.queue.findNext c = some e)
    (hlast : s.queue.lastDequeueMeta.1 ≠ uint64Max) (hlt : s.queue.lastDequeueMeta.1 < e.1)
    (hcrc : e.2.crc ≠ crc32 s.queue.lastDequeueMeta.2.crc e.1)
    (hfree : ¬ Collides crc32 0 (s.chain e.1) (s.lastChain ++ [e.1]))
    (hno : ∀ x ∈ s.pushed, ¬ (s.queue.lastDequeueMeta.1 < x ∧ x < e.1)) :
    ¬ ReportsGaps crc32 s (.next c) := by
  intro hreport
  have hnext : (s.queue.next crc32 c).2 = some (e, false) := by
    unfold next
    rw [hfind]
    dsimp only
    rw [if_pos ⟨hlast, hlt⟩, decide_eq_false hcrc]
  rcases hreport e false hnext hlast hlt with hiff | hcollides
  · exact absurd (hiff.mpr hno) Bool.false_ne_true
  · exact hfree hcollides

/-- What has been pushed above the only meta, which has been dequeued, is lost without a report. -/
lemma lost_of_last (crc32 : ℕ → ℕ → ℕ) (hentries : s.queue.metas.entries = [m]) (hlast : s.queue.lastDequeueMeta = m)
    (hchain : s.lastChain = s.chain m.1) (hne : m.1 ≠ uint64Max) (hx : x ∈ s.pushed) (hmx : m.1 < x) :
    ∃ ops, ¬ (audited crc32).Along (ReportsGaps crc32) s ops := by
  have hback : s.queue.back = some m := by
    unfold back
    rw [hentries]
    rfl
  obtain ⟨c, hxc, hc, -⟩ := exists_above x
  obtain ⟨queue, m', rfl, hstep, happends⟩ := step_pushBack crc32 hc
    ((lt_iff_of_back hback).mpr (hmx.trans hxc))
  have hentries' : queue.metas.entries = [m, m'] := by
    rw [happends.entries, hentries]
    rfl
  refine ⟨[.pushBack m'.1, .next m.1], fun halong => ?_⟩
  have hreport : ReportsGaps crc32 (s.step crc32 (.pushBack m'.1)) (.next m.1) := halong.2.1
  rw [hstep] at hreport
  have hlast' : (s.accepted queue m'.1).queue.lastDequeueMeta = m := happends.last.trans hlast
  refine not_reportsGaps_of_pass (findNext_second hentries' hne (hmx.trans hxc)) ?_ ?_ ?_
    (Finset.mem_insert_of_mem hx) ?_ hxc hreport
  · rw [hlast']
    exact hne
  · rw [hlast', happends.crc]
    unfold preCrc
    rw [hback]
    rfl
  · rw [chain_new]
    show s.preChain ++ [m'.1] = s.lastChain ++ [m'.1]
    unfold preChain
    rw [hback, hchain]
    rfl
  · rw [hlast']
    exact hmx

lemma step_pushBack_empty (crc32 : ℕ → ℕ → ℕ) (hempty : s.queue.metas.entries = [])
    (hc : c ≠ uint64Max) :
    ∃ queue m, m.1 = c ∧ s.step crc32 (.pushBack c) = s.accepted queue m.1 ∧
      queue.metas.entries = [m] ∧ queue.lastDequeueMeta = s.queue.lastDequeueMeta ∧
      m.2.crc = crc32 s.queue.lastDequeueMeta.2.crc m.1 ∧
      (s.accepted queue m.1).chain m.1 = s.lastChain ++ [m.1] := by
  have hback : s.queue.back = none := back_eq_none.mpr hempty
  have habove : ∀ x ∈ s.queue.cursors, x < c := by
    intro x hx
    obtain ⟨a, ha⟩ := mem_cursors.mp hx
    rw [hempty] at ha
    exact absurd ha List.not_mem_nil
  obtain ⟨queue, m, hm, hstep, happends⟩ := step_pushBack crc32 hc habove
  refine ⟨queue, m, hm, hstep, ?_, happends.last, ?_, ?_⟩
  · rw [happends.entries, hempty]
    rfl
  · rw [happends.crc]
    unfold preCrc
    rw [hback]
    rfl
  · rw [chain_new]
    unfold preChain
    rw [hback]
    rfl

/-- It is above the last dequeued meta, and something that has been pushed lies above it. -/
lemma lost_of_above (crc32 : ℕ → ℕ → ℕ) (hempty : s.queue.metas.entries = []) (hc : c ≠ uint64Max)
    (hlast : s.queue.lastDequeueMeta.1 = uint64Max ∨ s.queue.lastDequeueMeta.1 < c)
    (hx : x ∈ s.pushed) (hcx : c < x) :
    ∃ ops, ¬ (audited crc32).Along (ReportsGaps crc32) s (.pushBack c :: ops) := by
  obtain ⟨queue, m, rfl, hstep, hentries, hkept, -, -⟩ := step_pushBack_empty crc32 hempty hc
  have hdequeue : (queue.next crc32 uint64Max).1.lastDequeueMeta = m := by
    unfold next
    rw [findNext_head hentries, hkept]
    exact if_pos hlast
  have hmetas : (queue.next crc32 uint64Max).1.metas.entries = [m] := by
    rw [metas_next, hentries]
  have hchain : ((s.accepted queue m.1).dequeued (queue.next crc32 uint64Max).1).lastChain =
      (s.accepted queue m.1).chain m.1 := by
    unfold dequeued
    rw [hdequeue]
    refine if_neg ?_
    rw [show (s.accepted queue m.1).queue.lastDequeueMeta = _ from hkept]
    rcases hlast with hlast | hlast
    · rw [hlast]
      exact hc
    · exact hlast.ne'
  have hlost : ∃ ops, ¬ (audited crc32).Along (ReportsGaps crc32)
      ((s.accepted queue m.1).dequeued (queue.next crc32 uint64Max).1) ops :=
    lost_of_last crc32 hmetas hdequeue hchain hc (Finset.mem_insert_of_mem hx) hcx
  obtain ⟨ops, hops⟩ := hlost
  refine ⟨.next uint64Max :: ops, fun halong => hops ?_⟩
  have hrest : (audited crc32).Along (ReportsGaps crc32)
    ((s.step crc32 (.pushBack m.1)).step crc32 (.next uint64Max)) ops := halong.2.2
  rw [hstep] at hrest
  exact hrest

/-- Something that has been pushed lies between the last dequeued meta and it. -/
lemma lost_of_between (crc32 : ℕ → ℕ → ℕ) (hempty : s.queue.metas.entries = []) (hc : c ≠ uint64Max)
    (hlast : s.queue.lastDequeueMeta.1 ≠ uint64Max) (hx : x ∈ s.pushed)
    (hlx : s.queue.lastDequeueMeta.1 < x) (hxc : x < c) :
    ∃ ops, ¬ (audited crc32).Along (ReportsGaps crc32) s (.pushBack c :: ops) := by
  obtain ⟨queue, m, rfl, hstep, hentries, hkept, hcrc, hchain⟩ :=
    step_pushBack_empty crc32 hempty hc
  refine ⟨[.next uint64Max], fun halong => ?_⟩
  have hreport : ReportsGaps crc32 (s.step crc32 (.pushBack m.1)) (.next uint64Max) := halong.2.1
  rw [hstep] at hreport
  have hkept : (s.accepted queue m.1).queue.lastDequeueMeta = s.queue.lastDequeueMeta := hkept
  rw [← hkept] at hlast hcrc hlx
  exact not_reportsGaps_of_pass (findNext_head hentries) hlast hcrc hchain
    (Finset.mem_insert_of_mem hx) hlx hxc hreport

/-- The last dequeued meta is not below it: the next meta above both gives a false alarm. -/
lemma Inv.alarm_of_le (h : Inv crc32 s) (hempty : s.queue.metas.entries = []) (hc : c ≠ uint64Max)
    (hlast : s.queue.lastDequeueMeta.1 ≠ uint64Max) (hle : c ≤ s.queue.lastDequeueMeta.1)
    (hfree : ∀ l l', ¬ Collides crc32 0 l l') :
    ∃ ops, ¬ (audited crc32).Along (ReportsGaps crc32) s (.pushBack c :: ops) := by
  obtain ⟨queue, m, rfl, hstep, hentries, hkept, hcrc, hchain⟩ :=
    step_pushBack_empty crc32 hempty hc
  have hback : (s.accepted queue m.1).queue.back = some m := by
    unfold back
    rw [show (s.accepted queue m.1).queue.metas.entries = [m] from hentries]
    rfl
  obtain ⟨c', hlc, hc', hnone⟩ := exists_above s.queue.lastDequeueMeta.1
  obtain ⟨queue', m', rfl, hstep', happends⟩ := step_pushBack crc32 hc'
    ((lt_iff_of_back hback).mpr (hle.trans_lt hlc))
  have hentries' : queue'.metas.entries = [m, m'] := by
    rw [happends.entries, show (s.accepted queue m.1).queue.metas.entries = [m] from hentries]
    rfl
  refine ⟨[.pushBack m'.1, .next m.1], fun halong => ?_⟩
  have hreport : ReportsGaps crc32 ((s.step crc32 (.pushBack m.1)).step crc32 (.pushBack m'.1))
    (.next m.1) := halong.2.2.1
  rw [hstep, hstep'] at hreport
  have hkept' : ((s.accepted queue m.1).accepted queue' m'.1).queue.lastDequeueMeta =
      s.queue.lastDequeueMeta := happends.last.trans hkept
  have hchain' : ((s.accepted queue m.1).accepted queue' m'.1).chain m'.1 =
      s.lastChain ++ [m.1] ++ [m'.1] := by
    rw [chain_new]
    unfold preChain
    rw [hback]
    exact congrArg (· ++ [m'.1]) hchain
  have hcrc' : m'.2.crc = checksum crc32 0 (s.lastChain ++ [m.1] ++ [m'.1]) := by
    rw [happends.crc]
    unfold preCrc
    rw [hback, checksum_append_singleton, checksum_append_singleton, ← h.last_crc, ← hcrc]
    rfl
  have hlists : s.lastChain ++ [m.1] ++ [m'.1] ≠ s.lastChain ++ [m'.1] := by simp
  refine not_reportsGaps_of_alarm (findNext_second hentries' hc (hle.trans_lt hlc)) ?_ ?_ ?_
    (hfree _ _) ?_ hreport
  · rw [hkept']
    exact hlast
  · rw [hkept']
    exact hlc
  · have hother : crc32 (checksum crc32 0 s.lastChain) m'.1 =
        checksum crc32 0 (s.lastChain ++ [m'.1]) := checksum_append_singleton.symm
    rw [hkept', hcrc', h.last_crc, hother]
    exact fun heq => hfree _ _ ⟨hlists, heq⟩
  · rw [hkept']
    rintro x hx ⟨hlx, hxc⟩
    have hmax := hnone x hlx hxc
    rcases Finset.mem_insert.mp hx with rfl | hx
    · exact hc' hmax
    · rcases Finset.mem_insert.mp hx with rfl | hx
      · exact hc hmax
      · rw [hmax] at hx
        exact h.pushed_ne hx

/-- **A push that does not keep the chain is followed by a wrong report** in some run, when no checksums
collide. -/
theorem Inv.misreports_of_refused (h : Inv crc32 s) (hrefused : ¬ KeepsChain s (.pushBack c))
    (hfree : ∀ l l', ¬ Collides crc32 0 l l') :
    ∃ ops, ¬ (audited crc32).Along (ReportsGaps crc32) s (.pushBack c :: ops) := by
  unfold KeepsChain at hrefused
  push Not at hrefused
  obtain ⟨hc, hempty, hbreaks⟩ := hrefused
  by_cases hlast : s.queue.lastDequeueMeta.1 = uint64Max
  · by_cases habove : ∀ x ∈ s.pushed, x ≤ c
    · exact absurd hlast (hbreaks fun _ => habove).1
    · push Not at habove
      obtain ⟨x, hx, hcx⟩ := habove
      exact lost_of_above crc32 hempty hc (Or.inl hlast) hx hcx
  · obtain ⟨-, hset⟩ := hbreaks fun hunset => absurd hunset hlast
    rcases le_or_gt c s.queue.lastDequeueMeta.1 with hle | hlt
    · exact h.alarm_of_le hempty hc hlast hle hfree
    · obtain ⟨x, hx, hlx, hne⟩ := hset hlt
      rcases hne.lt_or_gt with hxc | hcx
      · exact lost_of_between crc32 hempty hc hlast hx hlx hxc
      · exact lost_of_above crc32 hempty hc (Or.inr hlt) hx hcx

end

end Audited

instance Audited.decidableKeepsChain (s : Audited) : (op : Op) → Decidable (s.KeepsChain op)
  | .pushBack c => inferInstanceAs (Decidable (c ≠ uint64Max → s.queue.metas.entries = [] →
      (s.queue.lastDequeueMeta.1 = uint64Max → ∀ x ∈ s.pushed, x ≤ c) ∧
      (s.queue.lastDequeueMeta.1 ≠ uint64Max → s.queue.lastDequeueMeta.1 < c ∧
        ∀ x ∈ s.pushed, x ≤ s.queue.lastDequeueMeta.1 ∨ x = c)))
  | .next _ => isTrue trivial
  | .eraseFrontTill _ => isTrue trivial
  | .eraseFrontUntill _ => isTrue trivial
  | .updateDequeueStat _ => isTrue trivial
  | .clear => isTrue trivial
  | .clearDequeueStat => isTrue trivial
  | .query => isTrue trivial

/-- One bit of `crc32`. -/
def crcBit (crc : ℕ) : ℕ := if crc % 2 = 1 then (crc >>> 1) ^^^ 0xEDB88320 else crc >>> 1

/-- `crc32` of zlib, over the eight bytes of a cursor. -/
def cursorCrc32 (preCrc cursorId : ℕ) : ℕ :=
  let crc := (List.range 8).foldl
    (fun crc i => (List.range 8).foldl (fun crc _ => crcBit crc)
      (crc ^^^ (cursorId >>> (8 * i) &&& 0xFF)))
    (preCrc ^^^ 0xFFFFFFFF)
  crc ^^^ 0xFFFFFFFF

/-- The second cursor is erased before it is dequeued, while the queue is not empty. -/
def eraseBehindThird : List Op :=
  [.pushBack 1, .pushBack 2, .pushBack 3, .next uint64Max, .eraseFrontTill 2, .next 2,
    .eraseFrontTill 3, .pushBack 4, .next 3]

theorem reportsGaps_eraseBehindThird :
    (audited cursorCrc32).Along (Audited.ReportsGaps cursorCrc32) (audited cursorCrc32).init
      eraseBehindThird :=
  reportsGaps_run cursorCrc32 eraseBehindThird (by decide)

/-- The second cursor is erased before it is dequeued, and then the queue is empty. -/
def eraseBeforeThird : List Op :=
  [.pushBack 1, .pushBack 2, .next uint64Max, .eraseFrontTill 2, .pushBack 3, .next 2]

/-- The loss of the second cursor is not reported. -/
theorem lost_not_reported :
    ¬ (audited cursorCrc32).Along (Audited.ReportsGaps cursorCrc32) (audited cursorCrc32).init
      eraseBeforeThird := by
  intro h
  have hreport := h.at (n := 5) rfl
  rcases hreport (3, ⟨0, cursorCrc32 (cursorCrc32 0 1) 3⟩) true (by decide +kernel) (by decide)
    (by decide) with hiff | hcollides
  · exact hiff.mp rfl 2 (by decide) (by decide)
  · exact hcollides.1 rfl

end PhxQueue.Store.MetaQueue
