import PhxQueue.Store.StoreMeta

/-!
# Cursors of the consumer groups

`store/syncctrl.cpp`: for every queue and consumer group the cursor up to which the group has
acknowledged and the cursor up to which it has been served.

* `SyncCtrlItem`, `SyncCtrl`   the mapped table;
* `getCursorID`, `updateCursorID`, `adjustNextCursorID`   the operations, each under its lock;
* `adjustNextCursorID_cases`   what a Get starts from.

`acked` is no field of the source: the instances below it have once been acknowledged.
-/

set_option linter.unusedSectionVars false

namespace PhxQueue.Store
open Comm

/-- `StoreOption`, as far as it is read here. -/
structure StoreOption where
  nqueue : ℕ
  nconsumerGroup : ℕ
  ngroup : ℕ
deriving DecidableEq

/-- `SyncCtrlItem_t`; a cursor without its magic is missing. -/
structure SyncCtrlItem where
  prev : Option ℕ := none
  next : Option ℕ := none
  acked : ℕ := 0
deriving DecidableEq

abbrev SyncCtrl := ℕ → ℕ → SyncCtrlItem

namespace SyncCtrl

variable (opt : StoreOption) (s : SyncCtrl)

def inTable (consumerGroupId queueId : ℕ) : Prop :=
  consumerGroupId ≠ 0 ∧ consumerGroupId ≤ opt.nconsumerGroup ∧ queueId < opt.nqueue

instance (g q : ℕ) : Decidable (inTable opt g q) :=
  inferInstanceAs (Decidable (_ ∧ _ ∧ _))

def set (queueId consumerGroupId : ℕ) (item : SyncCtrlItem) : SyncCtrl :=
  Function.update s queueId (Function.update (s queueId) consumerGroupId item)

/-- `GetCursorID` of the prev cursor. -/
def getCursorID (consumerGroupId queueId : ℕ) : Except RetCode ℕ :=
  if inTable opt consumerGroupId queueId then
    match (s queueId consumerGroupId).prev with
    | none => .error .errCursorNotFound
    | some c => .ok c
  else .error .errArg

def updateCursorID (consumerGroupId queueId cursorId : ℕ) (isPrev : Bool) :
    Except RetCode SyncCtrl :=
  if inTable opt consumerGroupId queueId then
    let item := s queueId consumerGroupId
    .ok (s.set queueId consumerGroupId
      (if isPrev then
        { item with prev := some cursorId, acked := max item.acked (level cursorId) }
      else { item with next := some cursorId }))
  else .error .errArg

/-- The cursors `AdjustNextCursorID` makes of the client's. -/
def adjustNextCursorID (consumerGroupId queueId prevCursorId nextCursorId : ℕ) :
    Except RetCode (ℕ × ℕ) :=
  if inTable opt consumerGroupId queueId then
    let item := s queueId consumerGroupId
    let raise (p : ℕ) : ℕ :=
      match item.prev with
      | some v => if p = uint64Max ∨ v > p then v else p
      | none => p
    if item.next ≠ some nextCursorId ∨
        (prevCursorId ≠ uint64Max ∧ prevCursorId > nextCursorId) then
      match item.prev with
      | none => .error .errCursorNotFound
      | some v => .ok (raise v, v)
    else .ok (raise prevCursorId, nextCursorId)
  else .error .errArg

def clearCursorID (consumerGroupId queueId : ℕ) : SyncCtrl :=
  if inTable opt consumerGroupId queueId then
    s.set queueId consumerGroupId { acked := (s queueId consumerGroupId).acked }
  else s

variable {opt s}

@[simp] lemma set_self (q g : ℕ) (item : SyncCtrlItem) : s.set q g item q g = item := by
  unfold set
  rw [Function.update_self, Function.update_self]

lemma set_of_ne {q g q' g' : ℕ} (h : ¬ (q' = q ∧ g' = g)) (item : SyncCtrlItem) :
    s.set q g item q' g' = s q' g' := by
  unfold set
  by_cases hq : q' = q
  · subst hq
    rw [Function.update_self, Function.update_of_ne fun hg => h ⟨rfl, hg⟩]
  · rw [Function.update_of_ne hq]

lemma getCursorID_ok {g q c : ℕ} (h : s.getCursorID opt g q = .ok c) :
    inTable opt g q ∧ (s q g).prev = some c := by
  unfold getCursorID at h
  split at h
  · rename_i hin
    split at h
    · cases h
    · rename_i hp
      cases h
      exact ⟨hin, hp⟩
  · cases h

lemma getCursorID_error {g q : ℕ} {e : RetCode} (h : s.getCursorID opt g q = .error e) :
    (e = .errArg ∧ ¬ inTable opt g q) ∨ (e = .errCursorNotFound ∧ (s q g).prev = none) := by
  unfold getCursorID at h
  split at h
  · split at h
    · rename_i hp
      cases h
      exact .inr ⟨rfl, hp⟩
    · cases h
  · rename_i hin
    cases h
    exact .inl ⟨rfl, hin⟩

lemma updateCursorID_ok {g q c : ℕ} {isPrev : Bool} {s' : SyncCtrl}
    (h : s.updateCursorID opt g q c isPrev = .ok s') :
    inTable opt g q ∧ s' = s.set q g (if isPrev then
      { s q g with prev := some c, acked := max (s q g).acked (level c) }
      else { s q g with next := some c }) := by
  unfold updateCursorID at h
  split at h
  · rename_i hin
    cases h
    exact ⟨hin, rfl⟩
  · cases h

/-- The raise of the prev cursor in `AdjustNextCursorID`. -/
lemma level_raise {p v : ℕ} (hv : v ≠ uint64Max) :
    level (if p = uint64Max ∨ v > p then v else p) = max (level p) (level v) := by
  by_cases hp : p = uint64Max
  · subst hp
    rw [if_pos (.inl rfl), level_uint64Max, Nat.zero_max]
  · rw [level_of_ne hp, level_of_ne hv]
    by_cases hlt : v > p
    · rw [if_pos (.inr hlt), level_of_ne hv]
      omega
    · rw [if_neg (not_or.mpr ⟨hp, hlt⟩), level_of_ne hp]
      omega

/-- **What a Get starts from.**  Either the client's cursors, the next one being the one stored
and the prev one raised to the stored prev cursor, or both at the stored prev cursor. -/
theorem adjustNextCursorID_cases {g q p n p' n' : ℕ} (hs : (s q g).prev ≠ some uint64Max)
    (h : s.adjustNextCursorID opt g q p n = .ok (p', n')) :
    inTable opt g q ∧
      ((n' = n ∧ (s q g).next = some n ∧ (p = uint64Max ∨ p ≤ n) ∧
          level p' = max (level p) (levelOf (s q g).prev)) ∨
        ((s q g).prev = some n' ∧ p' = n')) := by
  unfold adjustNextCursorID at h
  by_cases hin : inTable opt g q
  · rw [if_pos hin] at h
    refine ⟨hin, ?_⟩
    dsimp only at h
    by_cases hmis : (s q g).next ≠ some n ∨ (p ≠ uint64Max ∧ p > n)
    · rw [if_pos hmis] at h
      cases hv : (s q g).prev with
      | none =>
        rw [hv] at h
        cases h
      | some v =>
        rw [hv] at h
        dsimp only at h
        rw [ite_self] at h
        cases h
        exact .inr ⟨rfl, rfl⟩
    · rw [if_neg hmis] at h
      obtain ⟨hnext, hle⟩ := not_or.mp hmis
      have hle : p = uint64Max ∨ p ≤ n := by
        by_contra hn
        obtain ⟨h1, h2⟩ := not_or.mp hn
        exact hle ⟨h1, not_le.mp h2⟩
      cases h
      refine .inl ⟨rfl, not_not.mp hnext, hle, ?_⟩
      cases hv : (s q g).prev with
      | none => exact (max_eq_left (Nat.zero_le _)).symm
      | some v =>
        rw [hv] at hs
        exact level_raise fun hmax => hs (hmax ▸ rfl)
  · rw [if_neg hin] at h
    cases h

end SyncCtrl

end PhxQueue.Store
