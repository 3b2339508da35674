import PhxQueue.Store.Cursors

/-!
# What a Get passes

A `Get` goes from cursor to cursor, over the metas or over the log.  On either path it passes an
instance with items of its queue only when the group has acknowledged it.

* `Passes`               nothing between two cursors but what is acknowledged;
* `nextCursor_passes`    **the next cursor passes nothing else**;
* `nextCursor_none`      without a next cursor nothing else is left;
* `getItems_cases`       what is read at a cursor.
-/

set_option linter.unusedSectionVars false

namespace PhxQueue.Store
open Comm Lib Config

section
variable {cfg : StoreConfig} {log : Log} {s : Replica}

/-- What a group of the queue has not acknowledged is still in the metas. -/
lemma Replica.Inv.mem_metas (h : s.Inv cfg log) {q g i : ℕ} (hg : g ∈ cfg.consumerGroups)
    (hc : cfg.isConsumer q g) (hi : i < s.now) (hne : itemsOf log q i ≠ [])
    (hack : (s.sync q g).acked ≤ i) : i ∈ s.metas q := by
  rcases h.held q i hi hne with hmem | hall
  · exact hmem
  · have := hall g hg hc
    omega

/-- No instance with items lies between the cursors `from` and `to`, or it is acknowledged. -/
def Passes (log : Log) (s : Replica) (q g lower upper : ℕ) : Prop :=
  ∀ i, lower ≤ i → i < upper → itemsOf log q i ≠ [] → i < (s.sync q g).acked

/-- **The next cursor passes nothing that is not acknowledged.** -/
theorem nextCursor_passes (h : s.Inv cfg log) (hlog : LogOk cfg log) {t : GetThread}
    (hg : t.req.consumerGroupId ∈ cfg.consumerGroups)
    (hc : cfg.isConsumer t.req.queueId t.req.consumerGroupId)
    (hmin : t.minInstance = uint64Max ∨ t.minInstance ≤ s.minChosen)
    (hcp : t.cp = uint64Max ∨ t.cp < s.now) {cur : ℕ}
    (hcur : nextCursor t (s.metas t.req.queueId) = some cur) :
    level t.next ≤ cur ∧ cur ≤ s.now ∧
      Passes log s t.req.queueId t.req.consumerGroupId (level t.next) cur := by
  have hnow := h.now_le
  have hlen := hlog.length_lt
  have hmax : uint64Max = 2 ^ 64 - 1 := rfl
  unfold nextCursor at hcur
  split at hcur
  · obtain ⟨hmem, hle⟩ := StoreMetaQueue.next_mem hcur
    have hcurNow := h.metas_le _ cur hmem
    refine ⟨hle, hcurNow, fun i hi hlt hne => ?_⟩
    by_contra hack
    have hmetas := h.mem_metas hg hc (by omega) hne (not_lt.mp hack)
    have := StoreMetaQueue.next_le hcur hmetas hi
    omega
  · rename_i hpath
    obtain ⟨hne, hlt⟩ := not_or.mp hpath
    have hcpNow := hcp.resolve_left hne
    have hnext : level t.next = t.next + 1 := level_of_lt (by omega)
    rw [hnext]
    split at hcur
    · -- the instances below the smallest one are deleted, so they are below the checkpoint
      rename_i hbelow
      cases hcur
      have hle := (hmin.resolve_left hbelow.1).trans h.minChosen_le
      have hcpNow := h.cp_le_now
      refine ⟨hbelow.2, by omega, fun i _ hi hitems => ?_⟩
      exact h.acked_of_lt_cp hlog (hi.trans_le hle) hitems _ hg hc
    · cases hcur
      rw [wrap64_of_lt (by omega)]
      refine ⟨le_rfl, by omega, fun i hi hlt => ?_⟩
      omega

lemma nextCursor_none (h : s.Inv cfg log) {t : GetThread}
    (hg : t.req.consumerGroupId ∈ cfg.consumerGroups)
    (hc : cfg.isConsumer t.req.queueId t.req.consumerGroupId)
    (hcur : nextCursor t (s.metas t.req.queueId) = none) :
    Passes log s t.req.queueId t.req.consumerGroupId (level t.next) s.now := by
  unfold nextCursor at hcur
  split at hcur
  · intro i hi hlt hne
    by_contra hack
    have hmetas := h.mem_metas hg hc hlt hne (not_lt.mp hack)
    have := StoreMetaQueue.next_none hcur hmetas
    omega
  · cases hcur

theorem getItems_cases (h : s.Inv cfg log) (hlog : LogOk cfg log) {q g cur : ℕ}
    (hg : g ∈ cfg.consumerGroups) (hc : cfg.isConsumer q g) {items : List QItem}
    (hitems : getItemsByCursorID log s.now s.minChosen q cur = .ok items) :
    cur < s.now ∧ (items = itemsOf log q cur ∨ (items = [] ∧ cur < (s.sync q g).acked)) := by
  unfold getItemsByCursorID at hitems
  split at hitems
  · cases hitems
  · rename_i hlt
    refine ⟨not_le.mp hlt, ?_⟩
    split at hitems
    · rename_i hdel
      cases hitems
      by_cases hnil : itemsOf log q cur = []
      · exact .inl hnil.symm
      · exact .inr ⟨rfl, h.acked_of_lt_cp hlog (hdel.trans_le h.minChosen_le) hnil _ hg hc⟩
    · cases hitems
      exact .inl rfl

end

end PhxQueue.Store
