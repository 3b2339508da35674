import PhxQueue.Producer.SelectorThread

/-!
# Retries of a selector

One selector that switches the store, on the ring of its own publisher: rounds of the loop of
`GetStoreID`, with any random numbers and any answers of `IsStoreBlocked`.  A call of `GetStoreID`
makes rounds until one gives a store.

* `Retrying`, `retrying`   the selector, with its rounds;
* `foldl_leastPoint`       from the second round on a round finds the store whose next key is least;
* `RoundRight`             until all stores have been tried, a round gives the owner on the ring of the
                           others, a new one, and is at most as many as there are stores;
* `RoundOk`                some store not tried has points, the stores are not mixed, and fewer stores
                           than all have been found blocked;
* `allRight_iff`           **all rounds of a run are right exactly when each is taken so**;
* `exec_rounds`            a call as a run;
* `mixed_not_right`        three stores, and a retry that passes over the next one.
-/

set_option linter.unusedSectionVars false

namespace PhxQueue.Producer
open Comm Config Lib

/-- A round of the loop of `GetStoreID`. -/
structure StoreRound where
  before : StoreSelector
  env : RoundEnv
  /-- The stores that calls have returned before. -/
  earlier : List ℤ
  /-- Its number in its call, from 1. -/
  steps : ℕ
  result : Option (ℤ × StoreSelector)

structure Retrying where
  selector : StoreSelector
  /-- The rounds the call under way has made. -/
  steps : ℕ := 0
  returned : List ℤ := []
  log : List StoreRound := []

section
variable (cfg : SelectConfig) (p : ℤ)

/-- The ring and the lists of hashes a publisher builds. -/
def ownCache : RingCache where
  lastRebuildTime := cfg.lastModTime
  hashRing := cfg.ringOf p
  storeId2hashList := fun s => if s ∈ cfg.storeIdsOf p then .build (cfg.points s) else .empty

def untried (tried : List ℤ) : List ℤ := (cfg.storeIdsOf p).filter fun s => s ∉ tried

def untriedRing (tried : List ℤ) : OrderedMap ℕ ℤ :=
  .build ((untried cfg p tried).flatMap cfg.points)

def StoreRound.key (r : StoreRound) : ℕ :=
  (cfg.switchStore true).storeHash r.before.uin r.env.rand r.before.retry

namespace Retrying

/-- The next round; without stores a call fails before. -/
def step (w : Retrying) (env : RoundEnv) : Retrying :=
  if cfg.storeIdsOf p = [] then w else
  let result := w.selector.round (cfg.switchStore true) (ownCache cfg p) (cfg.storeIdsOf p) env
  let w := { w with log := w.log ++ [⟨w.selector, env, w.returned, w.steps + 1, result⟩] }
  match result with
  | none => w
  | some (s, ss) =>
    if s = -1 then { w with selector := ss, steps := w.steps + 1 }
    else { w with selector := ss, steps := 0, returned := w.returned ++ [s] }

end Retrying

/-- A selector of a publisher that is asked again and again. -/
def retrying (uin : ℕ) : Machine Retrying RoundEnv where
  init := { selector := { pubId := p, uin } }
  step := Retrying.step cfg p

/-- **A round is right**: it does not read past the end of a ring, and is not one step too many; and
as long as some store has not been tried, it finds the owner of its key on the ring of those, one not
given before, which it marks as tried and gives if it is not blocked. -/
def RoundRight (r : StoreRound) : Prop :=
  ∃ s ss, r.result = some (s, ss) ∧ r.steps ≤ (cfg.storeIdsOf p).length ∧
    (untried cfg p r.before.triedStoreIds ≠ [] →
      ∃ k x, (untriedRing cfg p r.before.triedStoreIds).owner (r.key cfg) = some (k, x) ∧
        x ∉ r.earlier ∧ x ∈ ss.triedStoreIds ∧ s = if r.env.blocked then -1 else x)

/-- **All rounds are right.** -/
def AllRight (w : Retrying) : Prop := ∀ r ∈ w.log, RoundRight cfg p r

/-- A round may be taken: the first one finds points, before the others all stores have been tried,
or some of those not tried have points, and all that have points have one from the key on or none of
them has; and fewer stores than there are have been found blocked in its call. -/
def RoundOk (w : Retrying) (env : RoundEnv) : Prop :=
  cfg.storeIdsOf p ≠ [] →
    (w.selector.retry = 0 → ∃ s ∈ cfg.storeIdsOf p, cfg.points s ≠ []) ∧
    (w.selector.retry ≠ 0 → untried cfg p w.selector.triedStoreIds ≠ [] →
      (∃ s ∈ untried cfg p w.selector.triedStoreIds, cfg.points s ≠ []) ∧
      OrderedMap.Unmixed (untried cfg p w.selector.triedStoreIds) cfg.points
        ((cfg.switchStore true).storeHash w.selector.uin env.rand w.selector.retry)) ∧
    w.steps < (cfg.storeIdsOf p).length

instance (w : Retrying) (env : RoundEnv) : Decidable (RoundOk cfg p w env) := by
  unfold RoundOk OrderedMap.Unmixed
  infer_instance

end

/-! ## What a round finds -/

section
variable {cfg : SelectConfig} {p : ℤ} {tried : List ℤ} {h : ℕ}

lemma mem_untried {s : ℤ} : s ∈ untried cfg p tried ↔ s ∈ cfg.storeIdsOf p ∧ s ∉ tried := by
  simp [untried]

lemma foldl_leastPoint_filter {cache : RingCache} (storeIds : List ℤ) (least : ℤ × ℕ) :
    storeIds.foldl (leastPoint cache tried h) least =
      (storeIds.filter fun s => s ∉ tried).foldl (leastPoint cache [] h) least := by
  induction storeIds generalizing least with
  | nil => rfl
  | cons s storeIds ih =>
    rw [List.foldl_cons, ih]
    by_cases hs : s ∈ tried
    · rw [List.filter_cons_of_neg (by simpa using hs)]
      congr 1
      exact if_pos hs
    · rw [List.filter_cons_of_pos (by simpa using hs), List.foldl_cons]
      congr 1
      unfold leastPoint
      rw [if_neg hs, if_neg List.not_mem_nil]

theorem foldl_leastPoint (hids : cfg.StoreIds) {stores : List ℤ}
    (hstores : ∀ s ∈ stores, s ∈ cfg.storeIdsOf p) :
    ((stores.foldl (leastPoint (ownCache cfg p) [] h) (-1, 0)).1 = -1 ∧
        ∀ s ∈ stores, cfg.points s = []) ∨
      OrderedMap.FirstLeast stores cfg.points h
        (stores.foldl (leastPoint (ownCache cfg p) [] h) (-1, 0)).1
        (stores.foldl (leastPoint (ownCache cfg p) [] h) (-1, 0)).2 := by
  induction stores using List.reverseRecOn with
  | nil => exact .inl ⟨rfl, fun s hs => absurd hs List.not_mem_nil⟩
  | append_singleton stores s ih =>
    have hs : s ∈ cfg.storeIdsOf p := hstores s (by simp)
    have ih := ih fun s' hs' => hstores s' (List.mem_append_left _ hs')
    have hlist : (ownCache cfg p).storeId2hashList s = .build (cfg.points s) := if_pos hs
    rw [List.foldl_append, List.foldl_cons, List.foldl_nil]
    generalize stores.foldl (leastPoint (ownCache cfg p) [] h) (-1, 0) = least at ih
    unfold leastPoint
    rw [if_neg List.not_mem_nil, hlist]
    cases hown : (OrderedMap.build (cfg.points s)).owner h with
    | none =>
      have hnil : cfg.points s = [] := by
        by_contra hne
        obtain ⟨x, hx⟩ := OrderedMap.exists_owner (OrderedMap.build_entries_ne_nil hne) h
        rw [hown] at hx
        cases hx
      dsimp only
      rcases ih with ⟨hleast, hno⟩ | hfirst
      · refine .inl ⟨hleast, fun s' hs' => ?_⟩
        rcases List.mem_append.mp hs' with hs' | hs'
        · exact hno s' hs'
        · rw [List.mem_singleton.mp hs']
          exact hnil
      · right
        obtain ⟨before, after, rfl, hbefore, hafter⟩ := hfirst.split
        refine ⟨hfirst.owner, before, after ++ [s], by simp, hbefore, fun b hb x hx => ?_⟩
        rcases List.mem_append.mp hb with hb | hb
        · exact hafter b hb x hx
        · rw [List.mem_singleton.mp hb, hown] at hx
          cases hx
    | some x =>
      obtain ⟨k, v⟩ := x
      obtain rfl : v = s := SelectConfig.mem_points (OrderedMap.mem_of_owner_build hown)
      dsimp only
      right
      rcases ih with ⟨hleast, hno⟩ | hfirst
      · rw [if_pos (.inl hleast)]
        refine ⟨hown, stores, [], rfl, fun b hb x hx => ?_, fun b hb => absurd hb List.not_mem_nil⟩
        rw [hno b hb] at hx
        cases hx
      · have hne : least.1 ≠ -1 := hids.ne (hstores _ (List.mem_append_left _ hfirst.mem))
        split
        · rename_i hless
          have hless := hless.resolve_left hne
          refine ⟨hown, stores, [], rfl, fun b hb x hx => ?_, fun b hb => absurd hb List.not_mem_nil⟩
          exact lt_of_lt_of_le hless (hfirst.le hb hx)
        · rename_i hno
          have hle := not_lt.mp fun hlt => hno (.inr hlt)
          obtain ⟨before, after, rfl, hbefore, hafter⟩ := hfirst.split
          refine ⟨hfirst.owner, before, after ++ [v], by simp, hbefore, fun b hb x hx => ?_⟩
          rcases List.mem_append.mp hb with hb | hb
          · exact hafter b hb x hx
          · rw [List.mem_singleton.mp hb, hown] at hx
            cases hx
            exact hle

lemma untriedRing_eq_nil :
    (untriedRing cfg p tried).entries = [] ↔ ∀ s ∈ untried cfg p tried, cfg.points s = [] := by
  constructor
  · intro hnil s hs
    by_contra hne
    apply OrderedMap.build_entries_ne_nil _ hnil
    intro hflat
    exact hne (List.flatMap_eq_nil_iff.mp hflat s hs)
  · intro hno
    unfold untriedRing
    rw [List.flatMap_eq_nil_iff.mpr hno]
    rfl

lemma untried_nil : untried cfg p [] = cfg.storeIdsOf p := by
  simp [untried]

lemma untriedRing_nil : untriedRing cfg p [] = cfg.ringOf p := by
  unfold untriedRing SelectConfig.ringOf
  rw [untried_nil]

/-- The owner on the ring of the stores not tried is one of them. -/
lemma mem_of_owner {k : ℕ} {x : ℤ} (h' : (untriedRing cfg p tried).owner h = some (k, x)) :
    x ∈ untried cfg p tried := by
  obtain ⟨s, hs, hpoint⟩ := List.mem_flatMap.mp (OrderedMap.mem_of_owner_build h')
  obtain rfl : x = s := SelectConfig.mem_points hpoint
  exact hs

variable {ss : StoreSelector} {env : RoundEnv}

/-- The selector after a round that has found a store. -/
def StoreSelector.tries (ss : StoreSelector) (s : ℤ) : StoreSelector :=
  { ss with retry := ss.retry + 1, triedStoreIds := s :: ss.triedStoreIds }

lemma round_of_found {s : ℤ} (hs : s ≠ -1)
    (hfound : ss.found (cfg.switchStore true) (ownCache cfg p) (cfg.storeIdsOf p)
      ((cfg.switchStore true).storeHash ss.uin env.rand ss.retry) = some s) :
    ss.round (cfg.switchStore true) (ownCache cfg p) (cfg.storeIdsOf p) env =
      some (if env.blocked then -1 else s, ss.tries s) := by
  unfold StoreSelector.round
  dsimp only
  rw [hfound]
  dsimp only
  rw [if_pos hs]
  rfl

lemma round_first (hids : cfg.StoreIds) (hretry : ss.retry = 0) :
    ss.round (cfg.switchStore true) (ownCache cfg p) (cfg.storeIdsOf p) env =
      match (untriedRing cfg p []).owner
        ((cfg.switchStore true).storeHash ss.uin env.rand ss.retry) with
      | none => none
      | some (_, x) => some (if env.blocked then -1 else x, ss.tries x) := by
  have hfound : ss.found (cfg.switchStore true) (ownCache cfg p) (cfg.storeIdsOf p)
      ((cfg.switchStore true).storeHash ss.uin env.rand ss.retry) =
        ((untriedRing cfg p []).owner
          ((cfg.switchStore true).storeHash ss.uin env.rand ss.retry)).map Prod.snd := by
    unfold StoreSelector.found
    rw [if_neg (fun hswitch => hswitch.2 hretry), untriedRing_nil]
    rfl
  cases hown : (untriedRing cfg p []).owner
      ((cfg.switchStore true).storeHash ss.uin env.rand ss.retry) with
  | none =>
    rw [hown] at hfound
    unfold StoreSelector.round
    dsimp only
    rw [hfound]
    rfl
  | some x =>
    rw [hown] at hfound
    have hx : x.2 ∈ cfg.storeIdsOf p := (mem_untried.mp (mem_of_owner hown)).1
    exact round_of_found (hids.ne hx) hfound

/-- A later round searches the stores not tried; where these have no points it takes any store. -/
lemma round_later (hids : cfg.StoreIds) (hretry : ss.retry ≠ 0) :
    ((untriedRing cfg p ss.triedStoreIds).entries = [] ∧
        ss.round (cfg.switchStore true) (ownCache cfg p) (cfg.storeIdsOf p) env =
          some ((cfg.storeIdsOf p).getD ((cfg.switchStore true).storeHash ss.uin env.rand ss.retry %
            (cfg.storeIdsOf p).length) (-1), { ss with retry := ss.retry + 1 })) ∨
      ∃ s k, OrderedMap.FirstLeast (untried cfg p ss.triedStoreIds) cfg.points
          ((cfg.switchStore true).storeHash ss.uin env.rand ss.retry) s k ∧
        ss.round (cfg.switchStore true) (ownCache cfg p) (cfg.storeIdsOf p) env =
          some (if env.blocked then -1 else s, ss.tries s) := by
  have hfound : ss.found (cfg.switchStore true) (ownCache cfg p) (cfg.storeIdsOf p)
      ((cfg.switchStore true).storeHash ss.uin env.rand ss.retry) =
        some ((untried cfg p ss.triedStoreIds).foldl (leastPoint (ownCache cfg p) []
          ((cfg.switchStore true).storeHash ss.uin env.rand ss.retry)) (-1, 0)).1 := by
    unfold StoreSelector.found
    rw [if_pos ⟨rfl, hretry⟩, foldl_leastPoint_filter]
    rfl
  rcases @foldl_leastPoint cfg p ((cfg.switchStore true).storeHash ss.uin env.rand ss.retry) hids
    (untried cfg p ss.triedStoreIds) (fun s hs => (mem_untried.mp hs).1) with ⟨hleast, hno⟩ | hfirst
  · left
    refine ⟨untriedRing_eq_nil.mpr hno, ?_⟩
    unfold StoreSelector.round
    dsimp only
    rw [hfound, hleast]
    dsimp only
    rw [if_neg (fun h => h rfl)]
  · exact .inr ⟨_, _, hfirst,
      round_of_found (hids.ne (mem_untried.mp hfirst.mem).1) hfound⟩

end

/-! ## Runs -/

section
variable {cfg : SelectConfig} {p : ℤ} {w : Retrying} {env : RoundEnv}

/-- The invariant of right rounds: a store that has been returned has been tried, or all have been. -/
structure Retrying.Inv (cfg : SelectConfig) (p : ℤ) (w : Retrying) : Prop where
  right : AllRight cfg p w
  fresh : w.selector.retry = 0 → w.selector.triedStoreIds = []
  returned : ∀ s ∈ w.returned, s ∈ w.selector.triedStoreIds ∨
    untried cfg p w.selector.triedStoreIds = []

lemma step_log (hne : cfg.storeIdsOf p ≠ []) : (w.step cfg p env).log = w.log ++
    [⟨w.selector, env, w.returned, w.steps + 1,
      w.selector.round (cfg.switchStore true) (ownCache cfg p) (cfg.storeIdsOf p) env⟩] := by
  unfold Retrying.step
  rw [if_neg hne]
  dsimp only
  split
  · rfl
  · split
    · rfl
    · rfl

lemma step_selector (hne : cfg.storeIdsOf p ≠ []) {s : ℤ} {ss : StoreSelector}
    (hround : w.selector.round (cfg.switchStore true) (ownCache cfg p) (cfg.storeIdsOf p) env =
      some (s, ss)) :
    (w.step cfg p env).selector = ss ∧
      (w.step cfg p env).returned = (if s = -1 then w.returned else w.returned ++ [s]) ∧
      (w.step cfg p env).steps = if s = -1 then w.steps + 1 else 0 := by
  unfold Retrying.step
  rw [if_neg hne]
  dsimp only
  rw [hround]
  dsimp only
  split
  · exact ⟨rfl, rfl, rfl⟩
  · exact ⟨rfl, rfl, rfl⟩

lemma untried_anti {tried tried' : List ℤ} (hsub : tried ⊆ tried')
    (hnil : untried cfg p tried = []) : untried cfg p tried' = [] := by
  rw [List.eq_nil_iff_forall_not_mem] at hnil ⊢
  intro s hs
  obtain ⟨hs, hno⟩ := mem_untried.mp hs
  exact hnil s (mem_untried.mpr ⟨hs, fun h => hno (hsub h)⟩)

lemma allRight_step (hne : cfg.storeIdsOf p ≠ []) : AllRight cfg p (w.step cfg p env) ↔
    AllRight cfg p w ∧ RoundRight cfg p ⟨w.selector, env, w.returned, w.steps + 1,
      w.selector.round (cfg.switchStore true) (ownCache cfg p) (cfg.storeIdsOf p) env⟩ := by
  unfold AllRight
  rw [step_log hne]
  constructor
  · intro h
    exact ⟨fun r hr => h r (List.mem_append_left _ hr), h _ (by simp)⟩
  · rintro ⟨h, hlast⟩ r hr
    rcases List.mem_append.mp hr with hr | hr
    · exact h r hr
    · rw [List.mem_singleton.mp hr]
      exact hlast

/-- A round that finds the owner on the ring of the stores not tried. -/
lemma Retrying.Inv.found (h : w.Inv cfg p) (hne : cfg.storeIdsOf p ≠ [])
    (hsteps : w.steps < (cfg.storeIdsOf p).length) {k : ℕ} {x : ℤ}
    (hown : (untriedRing cfg p w.selector.triedStoreIds).owner
      ((cfg.switchStore true).storeHash w.selector.uin env.rand w.selector.retry) = some (k, x))
    (hround : w.selector.round (cfg.switchStore true) (ownCache cfg p) (cfg.storeIdsOf p) env =
      some (if env.blocked then -1 else x, w.selector.tries x)) : (w.step cfg p env).Inv cfg p := by
  obtain ⟨hsel, hret, _⟩ := step_selector hne hround
  have hnew := (mem_untried.mp (mem_of_owner hown)).2
  constructor
  · rw [allRight_step hne]
    refine ⟨h.right, _, _, hround, hsteps, fun hleft => ?_⟩
    refine ⟨k, x, hown, fun hearlier => ?_, List.mem_cons_self, rfl⟩
    rcases h.returned x hearlier with htried | hnil
    · exact hnew htried
    · exact hleft hnil
  · rw [hsel]
    exact fun hretry => absurd hretry (Nat.succ_ne_zero _)
  · rw [hsel, hret]
    intro s hs
    have hold : ∀ s ∈ w.returned, s ∈ (w.selector.tries x).triedStoreIds ∨
        untried cfg p (w.selector.tries x).triedStoreIds = [] := fun s hs =>
      (h.returned s hs).imp (List.mem_cons_of_mem x) (untried_anti fun _ => List.mem_cons_of_mem x)
    by_cases hgiven : (if env.blocked then -1 else x) = -1
    · rw [if_pos hgiven] at hs
      exact hold s hs
    · rw [if_neg hgiven] at hs
      rcases List.mem_append.mp hs with hs | hs
      · exact hold s hs
      · left
        rw [List.mem_singleton.mp hs]
        split
        · rename_i hblocked
          exact absurd (if_pos hblocked) hgiven
        · exact List.mem_cons_self

/-- A round that takes any store, after all of them have been tried. -/
lemma Retrying.Inv.any (h : w.Inv cfg p) (hne : cfg.storeIdsOf p ≠ [])
    (hsteps : w.steps < (cfg.storeIdsOf p).length)
    (hnil : untried cfg p w.selector.triedStoreIds = []) {s : ℤ}
    (hround : w.selector.round (cfg.switchStore true) (ownCache cfg p) (cfg.storeIdsOf p) env =
      some (s, { w.selector with retry := w.selector.retry + 1 })) :
    (w.step cfg p env).Inv cfg p := by
  obtain ⟨hsel, hret, _⟩ := step_selector hne hround
  constructor
  · rw [allRight_step hne]
    exact ⟨h.right, _, _, hround, hsteps, fun hleft => absurd hnil hleft⟩
  · rw [hsel]
    exact fun hretry => absurd hretry (Nat.succ_ne_zero _)
  · rw [hsel, hret]
    exact fun _ _ => .inr hnil

theorem Retrying.Inv.step (hids : cfg.StoreIds) (h : w.Inv cfg p) (hok : RoundOk cfg p w env) :
    (w.step cfg p env).Inv cfg p := by
  by_cases hne : cfg.storeIdsOf p = []
  · have hsame : w.step cfg p env = w := if_pos hne
    rw [hsame]
    exact h
  obtain ⟨hfirst, hlater, hsteps⟩ := hok hne
  by_cases hretry : w.selector.retry = 0
  · obtain ⟨s, hs, hpoints⟩ := hfirst hretry
    have hentries : (untriedRing cfg p []).entries ≠ [] := by
      rw [Ne, untriedRing_eq_nil, untried_nil]
      exact fun hno => hpoints (hno s hs)
    have hround := @round_first cfg p w.selector env hids hretry
    obtain ⟨⟨k, x⟩, hown⟩ := OrderedMap.exists_owner hentries
      ((cfg.switchStore true).storeHash w.selector.uin env.rand w.selector.retry)
    rw [hown] at hround
    rw [← h.fresh hretry] at hown
    exact h.found hne hsteps hown hround
  · rcases @round_later cfg p w.selector env hids hretry with ⟨hnil, hround⟩ | ⟨s, k, hleast, hround⟩
    · by_cases hleft : untried cfg p w.selector.triedStoreIds = []
      · exact h.any hne hsteps hleft hround
      · obtain ⟨⟨s, hs, hpoints⟩, _⟩ := hlater hretry hleft
        exact absurd (untriedRing_eq_nil.mp hnil s hs) hpoints
    · have hleft : untried cfg p w.selector.triedStoreIds ≠ [] := List.ne_nil_of_mem hleast.mem
      exact h.found hne hsteps (hleast.owner_of_unmixed (hlater hretry hleft).2) hround

/-- **A round that may not be taken is wrong.** -/
theorem not_allRight_step (hids : cfg.StoreIds) (hno : ¬ RoundOk cfg p w env) :
    ¬ AllRight cfg p (w.step cfg p env) := by
  unfold RoundOk at hno
  rw [Classical.not_imp] at hno
  obtain ⟨hne, hno⟩ := hno
  rw [allRight_step hne]
  rintro ⟨_, s, ss, hround, hsteps, hright⟩
  apply hno
  refine ⟨fun hretry => ?_, fun hretry hleft => ?_, hsteps⟩
  · by_contra hnone
    push Not at hnone
    have hnil : (untriedRing cfg p []).entries = [] := by
      rw [untriedRing_eq_nil, untried_nil]
      exact hnone
    have hundef := @round_first cfg p w.selector env hids hretry
    rw [OrderedMap.owner_eq_none hnil] at hundef
    cases hundef.symm.trans hround
  · obtain ⟨k', x', hown, _, htried, _⟩ := hright hleft
    have hmem := mem_of_owner hown
    have hpoints : cfg.points x' ≠ [] := by
      obtain ⟨s', _, hpoint⟩ := List.mem_flatMap.mp (OrderedMap.mem_of_owner_build hown)
      obtain rfl : x' = s' := SelectConfig.mem_points hpoint
      exact List.ne_nil_of_mem hpoint
    refine ⟨⟨x', hmem, hpoints⟩, ?_⟩
    rcases @round_later cfg p w.selector env hids hretry with ⟨hnil, _⟩ | ⟨x, k, hleast, hfound⟩
    · exact absurd (untriedRing_eq_nil.mp hnil x' hmem) hpoints
    · by_contra hmix
      cases hfound.symm.trans hround
      -- the owner is another store that is not tried, and stays so
      have hother : x' ≠ x := hleast.ne_of_mixed (fun _ _ _ => SelectConfig.mem_points) hmix hown
      rcases List.mem_cons.mp htried with heq | htried
      · exact hother heq
      · exact (mem_untried.mp hmem).2 htried

end

/-- **All rounds of a run are right** exactly when each of them is taken where all stores have been
tried, or some of the others have points and these are not mixed, and fewer stores than all have been
found blocked. -/
theorem allRight_iff (cfg : SelectConfig) (hids : cfg.StoreIds) (p : ℤ) (uin : ℕ)
    (envs : List RoundEnv) :
    (retrying cfg p uin).Always (AllRight cfg p) (retrying cfg p uin).init envs ↔
      (retrying cfg p uin).Along (RoundOk cfg p) (retrying cfg p uin).init envs := by
  have hinit : ((retrying cfg p uin).init).Inv cfg p :=
    ⟨fun r hr => absurd hr List.not_mem_nil, fun _ => rfl, fun s hs => absurd hs List.not_mem_nil⟩
  have hstep : ∀ (w : Retrying) env, w.Inv cfg p → RoundOk cfg p w env →
      (w.step cfg p env).Inv cfg p := fun _ _ h hok => h.step hids hok
  have hbad : ∀ (w : Retrying) env, w.Inv cfg p → ¬ RoundOk cfg p w env →
      ¬ AllRight cfg p (w.step cfg p env) := fun _ _ _ hno => not_allRight_step hids hno
  exact Machine.always_iff_along (M := retrying cfg p uin) (fun _ h => h.right) hstep hbad hinit envs

/-! ## Calls -/

section
variable {cfg : SelectConfig} {p : ℤ} {uin : ℕ}

/-- **A call is a run** of as many rounds as its loop makes, the last of which gives the store. -/
theorem exec_rounds (hne : cfg.storeIdsOf p ≠ []) {env : ℕ → RoundEnv} {n : ℕ} {s : ℤ}
    {ss' : StoreSelector} (w : Retrying)
    (h : w.selector.rounds (cfg.switchStore true) (ownCache cfg p) (cfg.storeIdsOf p) env n =
      some (s, ss')) :
    ∃ envs : List RoundEnv, envs.length ≤ n ∧ (∀ e ∈ envs, ∃ i, e = env i) ∧
      ((retrying cfg p uin).exec w envs).selector = ss' ∧
      ((retrying cfg p uin).exec w envs).returned = w.returned ++ [s] ∧
      ((retrying cfg p uin).exec w envs).steps = 0 := by
  induction n generalizing w with
  | zero => cases h
  | succ n ih =>
    unfold StoreSelector.rounds at h
    cases hround : w.selector.round (cfg.switchStore true) (ownCache cfg p) (cfg.storeIdsOf p)
        (env n) with
    | none =>
      rw [hround] at h
      cases h
    | some r =>
      obtain ⟨s₁, ss₁⟩ := r
      obtain ⟨hsel, hret, hsteps⟩ := step_selector hne hround
      rw [hround] at h
      dsimp only at h
      split at h
      · rename_i hs₁
        rw [if_pos hs₁] at hret
        rw [← hsel] at h
        obtain ⟨envs, hlen, henvs, hlast⟩ := ih (w.step cfg p (env n)) h
        rw [hret] at hlast
        refine ⟨env n :: envs, Nat.succ_le_succ hlen, fun e he => ?_, hlast⟩
        rcases List.mem_cons.mp he with rfl | he
        · exact ⟨n, rfl⟩
        · exact henvs e he
      · rename_i hs₁
        cases h
        rw [if_neg hs₁] at hret hsteps
        refine ⟨[env n], by simp, fun e he => ⟨n, List.mem_singleton.mp he⟩, hsel, hret, hsteps⟩

theorem exec_getStoreID {cache cache' : RingCache} {env : ℕ → RoundEnv} {s : ℤ}
    {ss' : StoreSelector} (w : Retrying) (hp : w.selector.pubId = p)
    (hcache : cache.rebuild (cfg.switchStore true) (cfg.storeIdsOf p) = ownCache cfg p)
    (h : w.selector.getStoreID (cfg.switchStore true) cache env = (cache', some (.ok (s, ss')))) :
    ∃ envs : List RoundEnv, ((retrying cfg p uin).exec w envs).selector = ss' ∧
      ((retrying cfg p uin).exec w envs).returned = w.returned ++ [s] ∧
      ((retrying cfg p uin).exec w envs).steps = 0 := by
  unfold StoreSelector.getStoreID at h
  rw [hp] at h
  have hids : (cfg.switchStore true).storeIdsOf p = cfg.storeIdsOf p := rfl
  rw [hids] at h
  dsimp only at h
  split at h
  · cases h
  · rename_i hne
    rw [hcache] at h
    obtain ⟨_, hrounds⟩ := Prod.mk.inj h
    obtain ⟨r, hrounds, heq⟩ := Option.map_eq_some_iff.mp hrounds
    cases heq
    obtain ⟨envs, _, _, hlast⟩ := @exec_rounds cfg p uin hne env _ s ss' w hrounds
    exact ⟨envs, hlast⟩

end

/-! ## Three stores -/

def threeStores : SelectConfig where
  topicId := 1
  topic := {
    pubs := [⟨1, [1], []⟩]
    queueInfos := []
    itemsByteSizeLimit := 0 }
  stores := [⟨⟨1, []⟩, [{ ip := ⟨127, 0, 0, 1⟩ }], 1⟩, ⟨⟨2, []⟩, [{ ip := ⟨127, 0, 0, 2⟩ }], 1⟩,
    ⟨⟨3, []⟩, [{ ip := ⟨127, 0, 0, 3⟩ }], 1⟩]
  lastModTime := 1

def freely : RoundEnv := ⟨0, false⟩

/-- Three calls: in the second one a store is blocked, and before the third one all have been tried. -/
theorem threeStores_right : (retrying threeStores 1 7).Always (AllRight threeStores 1)
    (retrying threeStores 1 7).init [freely, ⟨0, true⟩, freely, freely] := by
  refine (allRight_iff threeStores (by decide) 1 7 [freely, ⟨0, true⟩, freely, freely]).mpr ?_
  refine ⟨?_, ?_, ?_, ?_, trivial⟩ <;> decide +kernel

/-- Store 1 has the least point and none from the key on, store 3 has one from there on: the retry
goes to store 1, where the ring goes on to store 3. -/
theorem mixed_not_right : ¬ (retrying threeStores 1 8).Always (AllRight threeStores 1)
    (retrying threeStores 1 8).init [freely, freely] := by
  intro h
  have hright := h.last
  -- what each round finds, and the owner among the stores not tried
  have hfound : ((retrying threeStores 1 8).exec (retrying threeStores 1 8).init
      [freely, freely]).log.map (fun r => (r.env.blocked, r.result.map Prod.fst,
        ((untriedRing threeStores 1 r.before.triedStoreIds).owner (r.key threeStores)).map
          Prod.snd)) = [(false, some 2, some 2), (false, some 1, some 3)] := by
    decide +kernel
  have hretry : (false, some (1 : ℤ), some (3 : ℤ)) ∈ ((retrying threeStores 1 8).exec
      (retrying threeStores 1 8).init [freely, freely]).log.map (fun r => (r.env.blocked,
        r.result.map Prod.fst, ((untriedRing threeStores 1 r.before.triedStoreIds).owner
          (r.key threeStores)).map Prod.snd)) := by
    rw [hfound]
    decide
  obtain ⟨r, hr, heq⟩ := List.mem_map.mp hretry
  obtain ⟨hblocked, heq⟩ := Prod.mk.inj heq
  obtain ⟨hresult, howner⟩ := Prod.mk.inj heq
  obtain ⟨s, ss, hround, _, hown⟩ := hright r hr
  obtain ⟨⟨k, x⟩, howner, rfl⟩ := Option.map_eq_some_iff.mp howner
  have hleft : untried threeStores 1 r.before.triedStoreIds ≠ [] :=
    List.ne_nil_of_mem (mem_of_owner howner)
  obtain ⟨k', x', howner', _, _, hs⟩ := hown hleft
  cases howner.symm.trans howner'
  rw [hround] at hresult
  rw [hblocked, if_neg Bool.false_ne_true] at hs
  cases hs.symm.trans (Option.some.inj hresult)

end PhxQueue.Producer
