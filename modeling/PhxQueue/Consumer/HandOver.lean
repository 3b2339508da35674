import PhxQueue.Consumer.ExclusiveLock

/-!
# Handing a lock over

`DoLock` of `consumer/hblock.cpp` is meant to release the lock a worker holds when the worker is
told to lock another queue.  It does so where `last_lock_key` is not empty, and assigns
`last_lock_key` nowhere else.

* `HandsOver`         a call for another queue sends a release of the lock that is held;
* `release_frees`     a release that carries the record's version frees the lock;
* `NoLastKey`         the invariant: no key is ever remembered;
* `handsOver_iff`     **locks are handed over in the runs where no worker that holds a lock is
                      told to lock another queue**.
-/

set_option linter.unusedSectionVars false

namespace PhxQueue.Consumer
open Comm Lib Lock

section
variable {ι : Type} [DecidableEq ι] (cfg : Config) (clientId : ι ↪ String)

/-- The lock service has the lock of `key` under the client id of `j`, and its lease runs. -/
structure Holds (w : World ι) (j : ι) (key : String) (r : LocalRecordInfo) : Prop where
  record : w.record cfg key = some r
  value : r.value = clientId j
  lease : w.clock < r.expireTimeMs

/-- When a worker is told to lock a queue, it sends a release of any other lock that it holds, with
the version of its record. -/
def HandsOver (w : World ι) : Event ι → Prop
  | .begin j q => (w.worker j).phase = .idle → q.magic = lockItemMagic →
      ∀ key r, Holds cfg clientId w j key r → key ≠ lockKey cfg q →
        (w.step cfg clientId (.begin j q)).network = ⟨j, key, r.version, 0⟩ :: w.network
  | _ => True

/-- No worker that holds a lock is told to lock another queue. -/
def NotSwitched (w : World ι) : Event ι → Prop
  | .begin j q => (w.worker j).phase = .idle → q.magic = lockItemMagic →
      ∀ key r, Holds cfg clientId w j key r → key = lockKey cfg q
  | _ => True

variable {cfg clientId}
variable {w : World ι}

/-! ## What a release does -/

theorem release_frees {j : ι} {key : String} (hkey : key ≠ "") {r : LocalRecordInfo}
    (hr : w.record cfg key = some r) {n i : ℕ}
    (hn : w.network[n]? = some ⟨j, key, r.version, 0⟩)
    (hi : w.lastInstance (cfg.paxosGroupId key) < i) :
    (w.step cfg clientId (.execute n i)).record cfg key = none := by
  have hpass : ∀ r', (w.groups (cfg.paxosGroupId key)).map[key]? = some r' →
      r'.version = r.version := by
    intro r' hr'
    have heq : some r' = some r := hr'.symm.trans hr
    cases heq
    rfl
  have hlease : (0 : ℕ) ≠ uint64Max := by decide
  have hmap := @serveAcquire_record _ key hkey (World.lockInfo clientId ⟨j, key, r.version, 0⟩)
    rfl w.clock i hpass hlease key
  rw [if_neg fun h => h rfl] at hmap
  dsimp only [World.step]
  rw [hn]
  dsimp only
  rw [if_pos hi]
  unfold World.record World.serve
  dsimp only
  rw [Function.update_self]
  exact hmap.trans (if_pos rfl)

/-! ## No key is remembered -/

/-- The key to release is never set, and no call waits for a release. -/
structure NoLastKey (s : Worker ι) : Prop where
  lastLockKey : s.lastLockKey = ""
  phase : ∀ key, s.phase ≠ .releasing key

lemma NoLastKey.beginLock {s : Worker ι} (h : NoLastKey s) (j : ι) (clock : ℕ) (q : Queue) :
    (beginLock cfg j s clock q).2 = none ∧ NoLastKey (beginLock cfg j s clock q).1 := by
  unfold Consumer.beginLock
  rw [if_neg fun hl : s.lastLockKey ≠ "" ∧ _ => hl.1 h.lastLockKey]
  split
  · exact ⟨rfl, h⟩
  · split
    · exact ⟨rfl, h⟩
    · refine ⟨rfl, h.lastLockKey, ?_⟩
      intro key hkey
      cases hkey

lemma NoLastKey.handleLockInfo {s : Worker ι} (h : NoLastKey s) (j : ι) (key : String) (now : ℕ)
    (reply : Except RetCode LockInfo) :
    NoLastKey (handleLockInfo cfg clientId j s key now reply) := by
  have hobserve : ∀ info, (observe s now info).lastLockKey = "" := by
    intro info
    unfold observe
    split
    · exact h.lastLockKey
    · exact h.lastLockKey
  unfold Consumer.handleLockInfo
  split
  · refine ⟨h.lastLockKey, ?_⟩
    intro key hkey
    cases hkey
  · dsimp only
    split
    · refine ⟨hobserve _, ?_⟩
      intro key hkey
      cases hkey
    · refine ⟨hobserve _, ?_⟩
      intro key hkey
      cases hkey

lemma NoLastKey.update {worker : ι → Worker ι} (h : ∀ j, NoLastKey (worker j)) (j : ι)
    {s : Worker ι} (hs : NoLastKey s) (k : ι) : NoLastKey (Function.update worker j s k) := by
  by_cases hk : k = j
  · subst hk
    rwa [Function.update_self]
  · rw [Function.update_of_ne hk]
    exact h k

lemma NoLastKey.decide (h : ∀ j, NoLastKey (w.worker j)) (j : ι) (key : String) (now : ℕ)
    (reply : Except RetCode LockInfo) (k : ι) :
    NoLastKey ((w.decide cfg clientId j key now reply).worker k) := by
  have hj : NoLastKey (Consumer.handleLockInfo cfg clientId j (w.worker j) key now reply) :=
    (h j).handleLockInfo j key now reply
  have hk := NoLastKey.update h j hj k
  unfold World.decide
  dsimp only
  split
  · exact hk
  · exact hk

theorem NoLastKey.step (h : ∀ j, NoLastKey (w.worker j)) (e : Event ι) :
    ∀ j, NoLastKey ((w.step cfg clientId e).worker j) := by
  have hphase : ∀ j (p : Phase ι), (∀ key, p ≠ .releasing key) →
      NoLastKey { w.worker j with phase := p } := by
    intro j p hp
    exact ⟨(h j).lastLockKey, hp⟩
  cases e with
  | tick d =>
    dsimp only [World.step]
    split
    · exact h
    · exact h
  | begin j q =>
    dsimp only [World.step]
    split
    · obtain ⟨hnone, hs⟩ := (h j).beginLock j w.clock q
      rw [hnone]
      exact NoLastKey.update h j hs
    · exact h
  | released j =>
    dsimp only [World.step]
    split
    · rename_i key hph
      exact absurd hph ((h j).phase key)
    · exact h
  | getLockInfo j fault =>
    dsimp only [World.step]
    split
    · refine NoLastKey.update h j (hphase j _ ?_)
      intro key hkey
      cases hkey
    · exact h
  | decide j =>
    dsimp only [World.step]
    split
    · rename_i key now reply _
      exact NoLastKey.decide h j key now reply
    · exact h
  | resend j =>
    dsimp only [World.step]
    split
    · exact h
    · exact h
  | finish j =>
    dsimp only [World.step]
    split
    · refine NoLastKey.update h j (hphase j _ ?_)
      intro key hkey
      cases hkey
    · exact h
  | execute n i =>
    dsimp only [World.step]
    split
    · split
      · exact h
      · exact h
    · exact h
  | lose n => exact h
  | clean key sampled i =>
    dsimp only [World.step]
    split
    · exact h
    · exact h

/-- A call of a worker that remembers no key sends nothing at its start. -/
lemma network_begin (h : ∀ j, NoLastKey (w.worker j)) (j : ι) (q : Queue) :
    (w.step cfg clientId (.begin j q)).network = w.network := by
  dsimp only [World.step]
  split
  · rw [((h j).beginLock j w.clock q).1]
    rfl
  · rfl

lemma handsOver_iff_notSwitched (h : ∀ j, NoLastKey (w.worker j)) (e : Event ι) :
    HandsOver cfg clientId w e ↔ NotSwitched cfg clientId w e := by
  cases e with
  | begin j q =>
    show (_ → _ → ∀ key r, _ → _ → _ = _) ↔ (_ → _ → ∀ key r, _ → _)
    rw [network_begin h j q]
    refine forall_congr' fun _ => forall_congr' fun _ => forall_congr' fun key =>
      forall_congr' fun r => forall_congr' fun _ => ?_
    constructor
    · intro hsend
      by_contra hne
      exact List.cons_ne_self _ _ (hsend hne).symm
    · intro heq hne
      exact absurd heq hne
  | tick _ | released _ | getLockInfo _ _ | decide _ | resend _ | finish _ | execute _ _ | lose _
  | clean _ _ _ => exact Iff.rfl

variable (cfg clientId)

/-- **A run hands its locks over if and only if no worker that holds a lock is told to lock another
queue in it.** -/
theorem handsOver_iff (es : List (Event ι)) :
    (world cfg clientId).Along (HandsOver cfg clientId) (world cfg clientId).init es ↔
      (world cfg clientId).Along (NotSwitched cfg clientId) (world cfg clientId).init es := by
  have hstep : ∀ (w : World ι) (e : Event ι), (∀ j, NoLastKey (w.worker j)) →
      ∀ j, NoLastKey (((world cfg clientId).step w e).worker j) :=
    fun w e h => NoLastKey.step h e
  refine Machine.along_congr_of_inv hstep (fun w e h => handsOver_iff_notSwitched h e) ?_ es
  intro j
  refine ⟨rfl, ?_⟩
  intro key hkey
  cases hkey

end

/-- A worker locks a queue and is told to lock another. -/
def otherQueue : List (Event Bool) :=
  [.tick 1] ++ lockCall false 0 1 ++ [.begin false ⟨lockItemMagic, 1, 1, 1⟩]

theorem otherQueue_not_handsOver : ¬ (world twoGroups twoClients).Along
    (HandsOver twoGroups twoClients) (world twoGroups twoClients).init otherQueue := by
  intro h
  have hcall := @Machine.Along.at _ _ _ _ _ _ h 6 (.begin false ⟨lockItemMagic, 1, 1, 1⟩) rfl
  have hsend := hcall rfl rfl "1-1-1-0" ⟨1, "10.0.0.1-0", 30000, 30001⟩
    ⟨by decide, by decide, by decide⟩ (by decide)
  exact absurd (congrArg List.length hsend) (by decide)

end PhxQueue.Consumer
