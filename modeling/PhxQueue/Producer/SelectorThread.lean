import PhxQueue.Lib.Run
import PhxQueue.Producer.Selector

/-!
# The selectors of a thread

`StoreSelectorDefault::GetStoreID` of any number of selectors on one thread, while the configurations
of their topics change.  The selectors of a topic share one ring, which the first call after a change
builds from the stores of its own publisher.

* `SelectorThread`, `selectorThread`   the thread, with what it has answered;
* `AllServe`            each answer is a store that serves the publisher of the selector;
* `CallFits`            the call builds the ring, or does not use it, or the ring fits its publisher;
* `rounds_serves`       what a call answers then;
* `allServe_of_along`   **runs of such calls answer with stores that serve**;
* `twoPubs_not_served`  two publishers with a store each.
-/

set_option linter.unusedSectionVars false

namespace PhxQueue.Producer
open Comm Config Lib

/-- A selector, with what it was made with. -/
structure ThreadSelector where
  topicId : ℤ
  retrySwitchStore : Bool
  selector : StoreSelector

/-- A call that has returned `RET_OK`, and the configuration it was made under. -/
structure Answer where
  cfg : SelectConfig
  pubId : ℤ
  storeId : ℤ

structure SelectorThread where
  configs : ℤ → Option SelectConfig := fun _ => none
  caches : ℤ → RingCache := fun _ => {}
  selectors : ℕ → Option ThreadSelector := fun _ => none
  answers : List Answer := []

inductive SelectEvent
  /-- The configuration of a topic is now another one. -/
  | config (cfg : SelectConfig)
  /-- A selector is made. -/
  | create (i : ℕ) (topicId pubId : ℤ) (uin : ℕ) (retrySwitchStore : Bool)
  /-- A selector is asked, and its loop makes up to `n` rounds. -/
  | getStoreID (i : ℕ) (env : ℕ → RoundEnv) (n : ℕ)

/-- The configuration of a selector that switches the store, or not. -/
def SelectConfig.switchStore (cfg : SelectConfig) (retrySwitchStore : Bool) : SelectConfig :=
  { cfg with producerRetrySwitchStore := retrySwitchStore }

/-- `GetStoreID`, in a number of rounds. -/
def StoreSelector.getStoreIDIn (cfg : SelectConfig) (ss : StoreSelector) (cache : RingCache)
    (env : ℕ → RoundEnv) (n : ℕ) : RingCache × Option (Except RetCode (ℤ × StoreSelector)) :=
  let storeIds := cfg.storeIdsOf ss.pubId
  if storeIds = [] then (cache, some (.error .errRangeStore)) else
  let cache := cache.rebuild cfg storeIds
  (cache, (ss.rounds cfg cache storeIds env n).map .ok)

example (cfg : SelectConfig) (ss : StoreSelector) (cache : RingCache) (env : ℕ → RoundEnv) :
    ss.getStoreID cfg cache env =
      ss.getStoreIDIn cfg cache env ((cfg.storeIdsOf ss.pubId).length + 2) := rfl

namespace SelectorThread

/-- A call of `GetStoreID`. -/
def call (t : SelectorThread) (i : ℕ) (sel : ThreadSelector) (cfg : SelectConfig)
    (env : ℕ → RoundEnv) (n : ℕ) : SelectorThread :=
  match sel.selector.getStoreIDIn (cfg.switchStore sel.retrySwitchStore) (t.caches sel.topicId)
      env n with
  | (cache, some (.ok (storeId, ss))) =>
    { t with
      caches := Function.update t.caches sel.topicId cache
      selectors := Function.update t.selectors i (some { sel with selector := ss })
      answers := t.answers ++ [⟨cfg, sel.selector.pubId, storeId⟩] }
  | (cache, _) => { t with caches := Function.update t.caches sel.topicId cache }

/-- One step; a selector that is not there, or has no configuration, gives an error. -/
def step (t : SelectorThread) : SelectEvent → SelectorThread
  | .config cfg => { t with configs := Function.update t.configs cfg.topicId (some cfg) }
  | .create i topicId pubId uin retrySwitchStore =>
    let sel := ⟨topicId, retrySwitchStore, { pubId, uin }⟩
    { t with selectors := Function.update t.selectors i (some sel) }
  | .getStoreID i env n =>
    match t.selectors i with
    | none => t
    | some sel =>
      match t.configs sel.topicId with
      | none => t
      | some cfg => t.call i sel cfg env n

end SelectorThread

def selectorThread : Machine SelectorThread SelectEvent where
  init := {}
  step := SelectorThread.step

/-- **Every answer is a store of the configuration that serves the publisher.** -/
def AllServe (t : SelectorThread) : Prop := ∀ a ∈ t.answers, a.cfg.Serves a.storeId a.pubId

def RingCache.Fits (cache : RingCache) (cfg : SelectConfig) (pubId : ℤ) : Prop :=
  ∀ x ∈ cache.hashRing.entries, x.2 ≠ -1 → cfg.Serves x.2 pubId

/-- A call builds the ring, or searches without it, or the ring fits its publisher. -/
def CallFits (t : SelectorThread) : SelectEvent → Prop
  | .getStoreID i _ _ => ∀ sel, t.selectors i = some sel → ∀ cfg, t.configs sel.topicId = some cfg →
      cfg.lastModTime ≠ (t.caches sel.topicId).lastRebuildTime ∨
      (sel.retrySwitchStore = true ∧ sel.selector.retry ≠ 0) ∨
      (t.caches sel.topicId).Fits cfg sel.selector.pubId
  | _ => True

/-! ## A call -/

section
variable {cfg : SelectConfig} {cache : RingCache} {ss ss' : StoreSelector} {s : ℤ}

lemma fits_rebuild (h : cfg.lastModTime ≠ cache.lastRebuildTime) (p : ℤ) :
    (cache.rebuild cfg (cfg.storeIdsOf p)).Fits cfg p := by
  rintro ⟨k, s⟩ hx _
  rw [(rebuild_isOf h.symm).ring] at hx
  have hmem : (k, s) ∈ (cfg.storeIdsOf p).flatMap cfg.points :=
    List.mem_of_find?_eq_some (OrderedMap.mem_build.mp hx)
  obtain ⟨s', hs', hpoint⟩ := List.mem_flatMap.mp hmem
  obtain rfl : s = s' := SelectConfig.mem_points hpoint
  exact SelectConfig.mem_storeIdsOf.mp hs'

lemma found_serves (hfit : cfg.producerRetrySwitchStore = true ∧ ss.retry ≠ 0 ∨
      cache.Fits cfg ss.pubId) {h : ℕ}
    (hfound : ss.found cfg cache (cfg.storeIdsOf ss.pubId) h = some s) (hs : s ≠ -1) :
    cfg.Serves s ss.pubId := by
  unfold StoreSelector.found at hfound
  split at hfound
  · cases hfound
    apply SelectConfig.mem_storeIdsOf.mp
    exact leastPoint_foldl.resolve_left hs
  · rename_i hno
    obtain ⟨⟨k, s'⟩, howner, rfl⟩ := Option.map_eq_some_iff.mp hfound
    exact hfit.resolve_left hno (k, s') (OrderedMap.owner_eq_some_iff.mp howner).1 hs

/-- A store that is picked from the list serves the publisher. -/
lemma getD_serves {p : ℤ} (hne : cfg.storeIdsOf p ≠ []) (h : ℕ) :
    cfg.Serves ((cfg.storeIdsOf p).getD (h % (cfg.storeIdsOf p).length) (-1)) p := by
  have hlt := Nat.mod_lt h (List.length_pos_of_ne_nil hne)
  rw [List.getD_eq_getElem _ _ hlt]
  exact SelectConfig.mem_storeIdsOf.mp (List.getElem_mem hlt)

/-- A round that ends the loop has a store that serves the publisher. -/
lemma round_serves (hne : cfg.storeIdsOf ss.pubId ≠ [])
    (hfit : cfg.producerRetrySwitchStore = true ∧ ss.retry ≠ 0 ∨ cache.Fits cfg ss.pubId)
    {env : RoundEnv}
    (hround : ss.round cfg cache (cfg.storeIdsOf ss.pubId) env = some (s, ss')) :
    ss'.pubId = ss.pubId ∧ ss'.retry = ss.retry + 1 ∧ (s ≠ -1 → cfg.Serves s ss.pubId) := by
  unfold StoreSelector.round at hround
  dsimp only at hround
  cases hfound : ss.found cfg cache (cfg.storeIdsOf ss.pubId)
      (cfg.storeHash ss.uin env.rand ss.retry) with
  | none =>
    rw [hfound] at hround
    cases hround
  | some s₀ =>
    rw [hfound] at hround
    dsimp only at hround
    split_ifs at hround with hs₀ hswitch hblocked
    · cases hround
      exact ⟨rfl, rfl, fun h => absurd rfl h⟩
    · cases hround
      exact ⟨rfl, rfl, found_serves hfit hfound⟩
    · cases hround
      exact ⟨rfl, rfl, found_serves hfit hfound⟩
    · cases hround
      exact ⟨rfl, rfl, fun _ => getD_serves hne _⟩

theorem rounds_serves {env : ℕ → RoundEnv} {n : ℕ} (hne : cfg.storeIdsOf ss.pubId ≠ [])
    (hfit : cfg.producerRetrySwitchStore = true ∧ ss.retry ≠ 0 ∨ cache.Fits cfg ss.pubId)
    (h : ss.rounds cfg cache (cfg.storeIdsOf ss.pubId) env n = some (s, ss')) :
    cfg.Serves s ss.pubId := by
  induction n generalizing ss with
  | zero => cases h
  | succ n ih =>
    unfold StoreSelector.rounds at h
    cases hround : ss.round cfg cache (cfg.storeIdsOf ss.pubId) (env n) with
    | none =>
      rw [hround] at h
      cases h
    | some r =>
      obtain ⟨s₁, ss₁⟩ := r
      obtain ⟨hpub, hretry, hserves⟩ := round_serves hne hfit hround
      rw [hround] at h
      dsimp only at h
      split at h
      · -- the selector goes on, with one more retry
        rw [← hpub] at hne hfit h ⊢
        apply ih hne _ h
        exact hfit.imp_left fun hswitch => ⟨hswitch.1, by omega⟩
      · rename_i hs₁
        cases h
        exact hserves hs₁

end

/-! ## Runs -/

/-- A call that fits answers with a store that serves the publisher. -/
lemma AllServe.call {t : SelectorThread} (h : AllServe t) {i : ℕ} {sel : ThreadSelector}
    {cfg : SelectConfig}
    (hfit : cfg.lastModTime ≠ (t.caches sel.topicId).lastRebuildTime ∨
      (sel.retrySwitchStore = true ∧ sel.selector.retry ≠ 0) ∨
      (t.caches sel.topicId).Fits cfg sel.selector.pubId) (env : ℕ → RoundEnv) (n : ℕ) :
    AllServe (t.call i sel cfg env n) := by
  unfold SelectorThread.call
  split
  · rename_i cache s ss hcall
    intro a ha
    rcases List.mem_append.mp ha with ha | ha
    · exact h a ha
    obtain rfl := List.mem_singleton.mp ha
    unfold StoreSelector.getStoreIDIn at hcall
    dsimp only at hcall
    split at hcall
    · cases hcall
    · rename_i hne
      obtain ⟨_, hrounds⟩ := Prod.mk.inj hcall
      obtain ⟨r, hrounds, heq⟩ := Option.map_eq_some_iff.mp hrounds
      cases heq
      refine @rounds_serves (cfg.switchStore sel.retrySwitchStore) _ _ _ _ _ _ hne ?_ hrounds
      by_cases hmod : cfg.lastModTime = (t.caches sel.topicId).lastRebuildTime
      · have hsame : (t.caches sel.topicId).rebuild (cfg.switchStore sel.retrySwitchStore)
            ((cfg.switchStore sel.retrySwitchStore).storeIdsOf sel.selector.pubId) =
              t.caches sel.topicId := if_pos hmod
        rw [hsame]
        exact hfit.resolve_left (not_not_intro hmod)
      · exact .inr (@fits_rebuild (cfg.switchStore sel.retrySwitchStore) _ hmod _)
  · exact h

lemma AllServe.step {t : SelectorThread} (h : AllServe t) {e : SelectEvent} (hok : CallFits t e) :
    AllServe (t.step e) := by
  cases e with
  | config cfg => exact h
  | create i topicId pubId uin retrySwitchStore => exact h
  | getStoreID i env n =>
    unfold SelectorThread.step
    dsimp only
    cases hsel : t.selectors i with
    | none => exact h
    | some sel =>
      dsimp only
      cases hcfg : t.configs sel.topicId with
      | none => exact h
      | some cfg => exact h.call (hok sel hsel cfg hcfg) env n

/-- **The answers of a run serve their publishers** when each call builds the ring, or searches
without it, or finds one that fits its publisher. -/
theorem allServe_of_along (es : List SelectEvent)
    (hfits : selectorThread.Along CallFits selectorThread.init es) :
    selectorThread.Always AllServe selectorThread.init es := by
  have hstep : ∀ (t : SelectorThread) e, AllServe t → CallFits t e → AllServe (t.step e) :=
    fun _ _ h hok => h.step hok
  have hinit : AllServe selectorThread.init := fun a ha => absurd ha List.not_mem_nil
  exact Machine.Always.of_inv hstep hinit hfits

def twoPubs : SelectConfig where
  topicId := 1
  topic := {
    pubs := [⟨1, [1], []⟩, ⟨2, [1], []⟩]
    queueInfos := []
    itemsByteSizeLimit := 0 }
  stores := [⟨⟨1, [1]⟩, [{ ip := ⟨127, 0, 0, 1⟩ }], 1⟩, ⟨⟨2, [2]⟩, [{ ip := ⟨127, 0, 0, 2⟩ }], 1⟩]
  lastModTime := 1

def ask (i : ℕ) (p : ℤ) : List SelectEvent :=
  [.create i 1 p 7 true, .getStoreID i (fun _ => ⟨0, false⟩) 1]

def bothAsk : List SelectEvent := .config twoPubs :: ask 0 1 ++ ask 1 2

/-- Two selectors of publisher 1 on one thread: the first one builds the ring, the second one finds it,
and the first one asks again when its store is blocked. -/
def sharedRing : List SelectEvent :=
  .config twoPubs :: ask 0 1 ++ ask 1 1 ++ [.getStoreID 0 (fun _ => ⟨0, true⟩) 1]

theorem sharedRing_served :
    selectorThread.Always AllServe selectorThread.init sharedRing := by
  refine allServe_of_along sharedRing ⟨trivial, trivial, ?_, trivial, ?_, ?_, trivial⟩
  · intro sel hsel cfg hcfg
    cases hsel
    cases hcfg
    exact .inl (by decide)
  · intro sel hsel cfg hcfg
    cases hsel
    cases hcfg
    refine .inr (.inr fun x hx _ => SelectConfig.mem_storeIdsOf.mp ?_)
    revert x
    decide +kernel
  · intro sel hsel cfg hcfg
    cases hsel
    cases hcfg
    exact .inr (.inl (by decide))

/-- **Counterexample.**  The call of publisher 2 finds the ring of publisher 1. -/
theorem twoPubs_not_served : ¬ selectorThread.Always AllServe selectorThread.init bothAsk := by
  intro h
  have hserve : ∀ x ∈ (selectorThread.exec selectorThread.init bothAsk).answers.map fun a =>
      (a.pubId, a.storeId, a.cfg.storeIdsOf a.pubId), x.2.1 ∈ x.2.2 := by
    intro x hx
    obtain ⟨a, ha, rfl⟩ := List.mem_map.mp hx
    exact SelectConfig.mem_storeIdsOf.mpr (h.last a ha)
  have hans : ((selectorThread.exec selectorThread.init bothAsk).answers.map fun a =>
      (a.pubId, a.storeId, a.cfg.storeIdsOf a.pubId)) = [(1, 1, [1]), (2, 1, [2])] := by
    decide +kernel
  rw [hans] at hserve
  revert hserve
  decide

end PhxQueue.Producer
