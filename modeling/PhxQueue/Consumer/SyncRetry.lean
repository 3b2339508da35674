import PhxQueue.Consumer.Sync

/-!
# Rounds that fail

A round of `Sync` may end with an error after it has recorded the hashes of some groups, and it may pass
over a group whose pending queues it cannot get.  What it has recorded then decides what the next round
adjusts.

* `UpToDate`              the test of `Sync` that a group needs no adjusting;
* `adjustGroups_none_iff`, `adjustGroups_scaleHashs`, `mem_pendings_iff`   what the loop over the groups
                          returns, records and hands over;
* `LeftUndone`, `Repeats`, `Applies`   what a round leaves, the next round, and what that does;
* `Retried`               the next round applies what the round has left;
* `NotAhead`              the round records no group that it leaves;
* `retried_iff`           **left assignments are retried exactly when they are not recorded**;
* `applied_or_due`        with several failed rounds in a row.
-/

set_option linter.unusedSectionVars false

namespace PhxQueue.Consumer
open Comm PhxQueue.Config Lib

section
variable {A : Type} (calHash : A → ℕ) (r : Round A) (s : HeartBeatLock)

/-- `no need to adjust scale`. -/
def UpToDate (x : ℤ × A) : Prop :=
  s.bufMagic = true ∧ r.lastModTime = s.confLastModTime ∧ calHash x.2 = s.scaleHashs x.1

instance (x : ℤ × A) : Decidable (UpToDate calHash r s x) := inferInstanceAs (Decidable (_ ∧ _ ∧ _))

/-- `GetAllQueues` returns an error for a group that is adjusted, which ends the round. -/
def EndsAt (x : ℤ × A) : Prop := ¬ UpToDate calHash r s x ∧ r.config x.1 = none

instance (x : ℤ × A) : Decidable (EndsAt calHash r s x) :=
  decidable_of_iff (¬ UpToDate calHash r s x ∧ (r.config x.1).isNone = true)
    (and_congr_right fun _ => Option.isNone_iff_eq_none)

/-- The groups before the one that ends the round. -/
def before (scales : List (ℤ × A)) : List (ℤ × A) :=
  scales.takeWhile fun x => ¬ EndsAt calHash r s x

def Records (scales : List (ℤ × A)) (x : ℤ × A) : Prop :=
  x ∈ before calHash r s scales ∧ ¬ UpToDate calHash r s x ∧ r.queueIdxs x.1 ≠ none

/-! ## The loop over the groups -/

variable {calHash r s}

lemma upToDate_congr {r' : Round A} {x : ℤ × A} (h : r'.lastModTime = r.lastModTime) :
    UpToDate calHash r' s x ↔ UpToDate calHash r s x := by
  unfold UpToDate
  rw [h]

/-- A record of one group does not matter to the others. -/
lemma upToDate_update {g : ℤ} {h : ℕ} {x : ℤ × A} (hx : x.1 ≠ g) :
    UpToDate calHash r { s with scaleHashs := Function.update s.scaleHashs g h } x ↔
      UpToDate calHash r s x := by
  show _ ∧ _ ∧ _ = Function.update s.scaleHashs g h x.1 ↔ _
  rw [Function.update_of_ne hx]
  rfl

lemma before_congr {s' : HeartBeatLock} {scales : List (ℤ × A)}
    (h : ∀ x ∈ scales, UpToDate calHash r s' x ↔ UpToDate calHash r s x) :
    before calHash r s' scales = before calHash r s scales := by
  induction scales with
  | nil => rfl
  | cons x scales ih =>
    have hx : EndsAt calHash r s' x ↔ EndsAt calHash r s x :=
      and_congr_left fun _ => not_congr (h x List.mem_cons_self)
    have hrest := ih fun y hy => h y (List.mem_cons_of_mem _ hy)
    unfold before at hrest ⊢
    by_cases hend : EndsAt calHash r s x
    · rw [List.takeWhile_cons_of_neg (by simpa using hx.mpr hend),
        List.takeWhile_cons_of_neg (by simpa using hend)]
    · rw [List.takeWhile_cons_of_pos (by simpa using mt hx.mp hend),
        List.takeWhile_cons_of_pos (by simpa using hend), hrest]

lemma before_cons {x : ℤ × A} {scales : List (ℤ × A)} (h : ¬ EndsAt calHash r s x) :
    before calHash r s (x :: scales) = x :: before calHash r s scales :=
  List.takeWhile_cons_of_pos (by simp [h])

lemma not_endsAt {x : ℤ × A} {config : TopicConfig × ProtoStores} (h : r.config x.1 = some config) :
    ¬ EndsAt calHash r s x := fun hend =>
  absurd (h.symm.trans hend.2) (Option.some_ne_none _)

/-- Behind a group that does not end the round, a group is recorded as it is in the rest. -/
lemma records_cons {s' : HeartBeatLock} {x y : ℤ × A} {rest : List (ℤ × A)}
    (hend : ¬ EndsAt calHash r s y) (hne : x ≠ y) (hx : x ∈ rest)
    (hsame : ∀ z ∈ rest, UpToDate calHash r s' z ↔ UpToDate calHash r s z) :
    Records calHash r s (y :: rest) x ↔ Records calHash r s' rest x := by
  unfold Records
  rw [before_cons hend, List.mem_cons, or_iff_right hne, before_congr hsame, hsame x hx]

variable (calHash) in
lemma adjustGroups_flags (scales : List (ℤ × A)) :
    (adjustGroups calHash r s scales).1.bufMagic = s.bufMagic ∧
      (adjustGroups calHash r s scales).1.confLastModTime = s.confLastModTime := by
  induction scales generalizing s with
  | nil => exact ⟨rfl, rfl⟩
  | cons x rest ih =>
    obtain ⟨g, scale⟩ := x
    unfold adjustGroups
    split
    · exact ih
    · split
      · exact ⟨rfl, rfl⟩
      · split
        · exact ih
        · exact ih

/-- The groups of the rest are tested as before, after a group has been recorded. -/
lemma rest_congr {g : ℤ} {h : ℕ} {rest : List (ℤ × A)} (hg : g ∉ rest.map Prod.fst) :
    ∀ x ∈ rest, UpToDate calHash r { s with scaleHashs := Function.update s.scaleHashs g h } x ↔
      UpToDate calHash r s x := by
  intro x hx
  apply upToDate_update
  rintro rfl
  exact hg (List.mem_map_of_mem hx)

/-- The loop returns an error exactly when it comes to a group that ends it. -/
lemma adjustGroups_none_iff {scales : List (ℤ × A)} (hnodup : (scales.map Prod.fst).Nodup) :
    (adjustGroups calHash r s scales).2 = none ↔ ∃ x ∈ scales, EndsAt calHash r s x := by
  induction scales generalizing s with
  | nil => simp [adjustGroups]
  | cons x rest ih =>
    obtain ⟨g, scale⟩ := x
    rw [List.map_cons, List.nodup_cons] at hnodup
    simp only [List.mem_cons, exists_eq_or_imp]
    unfold adjustGroups
    split
    · rename_i hup
      rw [ih hnodup.2]
      exact (or_iff_right fun hend => hend.1 hup).symm
    · rename_i hup
      cases hconfig : r.config g with
      | none => exact iff_of_true rfl (.inl ⟨hup, hconfig⟩)
      | some config =>
        rw [or_iff_right (not_endsAt hconfig)]
        dsimp only
        split
        · rw [Option.map_eq_none_iff, ih hnodup.2]
        · rw [Option.map_eq_none_iff, ih hnodup.2]
          exact exists_congr fun x => and_congr_right fun hx =>
            and_congr_left fun _ => not_congr (rest_congr hnodup.1 x hx)

lemma adjustGroups_scaleHashs_of_not_mem {scales : List (ℤ × A)} {g : ℤ}
    (hg : g ∉ scales.map Prod.fst) :
    (adjustGroups calHash r s scales).1.scaleHashs g = s.scaleHashs g := by
  induction scales generalizing s with
  | nil => rfl
  | cons x rest ih =>
    obtain ⟨g', scale⟩ := x
    rw [List.map_cons, List.mem_cons, not_or] at hg
    unfold adjustGroups
    split
    · exact ih hg.2
    · split
      · rfl
      · split
        · exact ih hg.2
        · exact (ih hg.2).trans (Function.update_of_ne hg.1 _ _)

variable (calHash) in
/-- The hash of a group of the list after the loop. -/
lemma adjustGroups_scaleHashs {scales : List (ℤ × A)} (hnodup : (scales.map Prod.fst).Nodup)
    {x : ℤ × A} (hx : x ∈ scales) :
    (Records calHash r s scales x →
      (adjustGroups calHash r s scales).1.scaleHashs x.1 = calHash x.2) ∧
    (¬ Records calHash r s scales x →
      (adjustGroups calHash r s scales).1.scaleHashs x.1 = s.scaleHashs x.1) := by
  induction scales generalizing s with
  | nil => exact absurd hx List.not_mem_nil
  | cons y rest ih =>
    obtain ⟨g, scale⟩ := y
    rw [List.map_cons, List.nodup_cons] at hnodup
    have hne : x ∈ rest → x ≠ (g, scale) := by
      rintro hmem rfl
      exact hnodup.1 (List.mem_map_of_mem hmem)
    unfold adjustGroups
    split
    · rename_i hup
      rcases List.mem_cons.mp hx with rfl | hmem
      · refine ⟨fun h => absurd hup h.2.1, fun _ => ?_⟩
        exact adjustGroups_scaleHashs_of_not_mem hnodup.1
      · have hend : ¬ EndsAt calHash r s (g, scale) := fun hend => hend.1 hup
        rw [records_cons hend (hne hmem) hmem fun _ _ => Iff.rfl]
        exact ih hnodup.2 hmem
    · rename_i hup
      cases hconfig : r.config g with
      | none =>
        have hend : EndsAt calHash r s (g, scale) := ⟨hup, hconfig⟩
        refine ⟨fun h => ?_, fun _ => rfl⟩
        have hmem := h.1
        unfold before at hmem
        rw [List.takeWhile_cons_of_neg (by simpa using hend)] at hmem
        exact absurd hmem List.not_mem_nil
      | some config =>
        have hend : ¬ EndsAt calHash r s (g, scale) := not_endsAt hconfig
        dsimp only
        cases hidxs : r.queueIdxs g with
        | none =>
          rcases List.mem_cons.mp hx with rfl | hmem
          · refine ⟨fun h => absurd hidxs h.2.2, fun _ => ?_⟩
            exact adjustGroups_scaleHashs_of_not_mem hnodup.1
          · rw [records_cons hend (hne hmem) hmem fun _ _ => Iff.rfl]
            exact ih hnodup.2 hmem
        | some idxs =>
          have hown := Function.update_self g (calHash scale) s.scaleHashs
          rcases List.mem_cons.mp hx with rfl | hmem
          · refine ⟨fun _ => ?_, fun h => absurd ⟨?_, hup, ?_⟩ h⟩
            · exact (adjustGroups_scaleHashs_of_not_mem hnodup.1).trans hown
            · rw [before_cons hend]
              exact List.mem_cons_self
            · exact ne_of_eq_of_ne hidxs (Option.some_ne_none _)
          · have hgroup : x.1 ≠ g := by
              intro heq
              exact hnodup.1 (List.mem_map.mpr ⟨x, hmem, heq⟩)
            rw [records_cons hend (hne hmem) hmem (rest_congr (h := calHash scale) hnodup.1)]
            obtain ⟨hrec, hnot⟩ := ih (s := { s with
              scaleHashs := Function.update s.scaleHashs g (calHash scale) }) hnodup.2 hmem
            exact ⟨hrec, fun h => (hnot h).trans (Function.update_of_ne hgroup _ _)⟩

/-- The groups that are handed over are those that are not up to date. -/
lemma mem_pendings_iff {scales : List (ℤ × A)} (hnodup : (scales.map Prod.fst).Nodup)
    {pendings : PendingQueues} (h : (adjustGroups calHash r s scales).2 = some pendings)
    {x : ℤ × A} (hx : x ∈ scales) {topic : TopicConfig} {stores : ProtoStores}
    (hconfig : r.config x.1 = some (topic, stores)) {idxs : List ℕ}
    (hidxs : r.queueIdxs x.1 = some idxs) :
    (x.1, getPendingQueues (getAllQueues topic stores x.1) idxs) ∈ pendings ↔
      ¬ UpToDate calHash r s x := by
  induction scales generalizing s pendings with
  | nil => exact absurd hx List.not_mem_nil
  | cons y rest ih =>
    obtain ⟨g, scale⟩ := y
    rw [List.map_cons, List.nodup_cons] at hnodup
    -- what is handed over of the rest is of the rest's groups
    have hkey : ∀ {s'} {pendings' : PendingQueues},
        (adjustGroups calHash r s' rest).2 = some pendings' → g ∉ pendings'.map Prod.fst :=
      fun hrest hmem => hnodup.1 ((adjustGroups_pendings hrest).1.subset hmem)
    have hne : x ∈ rest → x.1 ≠ g := fun hmem heq => hnodup.1 (List.mem_map.mpr ⟨x, hmem, heq⟩)
    unfold adjustGroups at h
    split at h
    · rename_i hup
      rcases List.mem_cons.mp hx with rfl | hmem
      · exact iff_of_false (fun hin => hkey h (List.mem_map_of_mem hin)) (not_not.mpr hup)
      · exact ih hnodup.2 h hmem
    · rename_i hup
      cases hconfig' : r.config g with
      | none =>
        rw [hconfig'] at h
        cases h
      | some config =>
        rw [hconfig'] at h
        dsimp only at h
        cases hidxs' : r.queueIdxs g with
        | none =>
          rw [hidxs'] at h
          obtain ⟨pendings', hrest, rfl⟩ := Option.map_eq_some_iff.mp h
          rcases List.mem_cons.mp hx with rfl | hmem
          · exact absurd (hidxs'.symm.trans hidxs) (Option.some_ne_none _).symm
          · rw [List.mem_cons, or_iff_right fun heq => hne hmem (congrArg Prod.fst heq)]
            exact ih hnodup.2 hrest hmem
        | some idxs' =>
          rw [hidxs'] at h
          obtain ⟨pendings', hrest, rfl⟩ := Option.map_eq_some_iff.mp h
          rcases List.mem_cons.mp hx with rfl | hmem
          · rw [hconfig'] at hconfig
            rw [hidxs'] at hidxs
            cases hconfig
            cases hidxs
            exact iff_of_true List.mem_cons_self hup
          · rw [List.mem_cons, or_iff_right fun heq => hne hmem (congrArg Prod.fst heq),
              ih hnodup.2 hrest hmem]
            exact not_congr (rest_congr hnodup.1 x hmem)

end

/-! ## The next round -/

section
variable {A : Type} (calHash : A → ℕ)

/-- A group is to be adjusted, but the round distributes no queues for it: an error ends the round, or
its pending queues cannot be got. -/
def LeftUndone (s : HeartBeatLock) (r : Round A) (m : ScaleMap A) (x : ℤ × A) : Prop :=
  ¬ UpToDate calHash r (s.clearInvalid m) x ∧
    ((adjustGroups calHash r (s.clearInvalid m) m.scales).2 = none ∨ r.queueIdxs x.1 = none)

/-- A round with the same configuration and scales in which nothing fails. -/
structure Repeats (r r' : Round A) (m : ScaleMap A) : Prop where
  addrScales : r'.addrScales = some m
  lastModTime : r'.lastModTime = r.lastModTime
  config : ∀ x ∈ m.scales, ∃ config, r'.config x.1 = some config
  queueIdxs : ∀ x ∈ m.scales, ∃ idxs, r'.queueIdxs x.1 = some idxs

/-- The round distributes the pending queues of the group. -/
def Applies (s : HeartBeatLock) (r : Round A) (m : ScaleMap A) (x : ℤ × A) : Prop :=
  ∃ topic stores idxs pendings, r.config x.1 = some (topic, stores) ∧
    r.queueIdxs x.1 = some idxs ∧ Succeeds calHash s r m pendings ∧
    (x.1, getPendingQueues (getAllQueues topic stores x.1) idxs) ∈ pendings ∧
    (sync calHash s r).queues = distubePendingQueues pendings (s.clearInvalid m).queues

/-- Whatever the round leaves undone, the next one applies. -/
def Retried (s : HeartBeatLock) (r : Round A) : Prop :=
  ∀ m, r.addrScales = some m → ∀ x ∈ m.scales, LeftUndone calHash s r m x →
    ∀ r', Repeats r r' m → Applies calHash (sync calHash s r) r' m x

/-- The round records no group that it leaves: when an error ends it, either all groups are due again,
or it has got no pending queues of a group before; otherwise every group whose pending queues it could
not get had another hash. -/
def NotAhead (s : HeartBeatLock) (r : Round A) : Prop :=
  ∀ m, r.addrScales = some m →
    if ∃ x ∈ m.scales, EndsAt calHash r s x then
      s.bufMagic = true → r.lastModTime = s.confLastModTime →
        ∀ x ∈ before calHash r s m.scales, calHash x.2 ≠ s.scaleHashs x.1 → r.queueIdxs x.1 = none
    else
      ∀ x ∈ m.scales, ¬ UpToDate calHash r s x → r.queueIdxs x.1 = none →
        calHash x.2 ≠ s.scaleHashs x.1

variable {calHash} {s : HeartBeatLock} {r r' : Round A} {m : ScaleMap A} {x : ℤ × A}

/-- The hash of a group is that of its scales if it has been recorded in the round, or was before. -/
lemma hash_eq_iff (hx : x ∈ m.scales) :
    calHash x.2 = (adjustGroups calHash r (s.clearInvalid m) m.scales).1.scaleHashs x.1 ↔
      Records calHash r s m.scales x ∨ calHash x.2 = s.scaleHashs x.1 := by
  obtain ⟨hrec, hnot⟩ := adjustGroups_scaleHashs calHash (r := r)
    (s := s.clearInvalid m) m.nodup hx
  by_cases h : Records calHash r s m.scales x
  · exact iff_of_true (hrec h).symm (.inl h)
  · rw [hnot h, or_iff_right h]
    rfl

lemma upToDate_of_error (hm : r.addrScales = some m) (htime : r'.lastModTime = r.lastModTime)
    (hend : ∃ x ∈ m.scales, EndsAt calHash r s x) (hx : x ∈ m.scales) :
    UpToDate calHash r' (sync calHash s r) x ↔ s.bufMagic = true ∧
      r.lastModTime = s.confLastModTime ∧
      (Records calHash r s m.scales x ∨ calHash x.2 = s.scaleHashs x.1) := by
  have hnone : (adjustGroups calHash r (s.clearInvalid m) m.scales).2 = none :=
    (adjustGroups_none_iff m.nodup).mpr hend
  obtain ⟨hmagic, hconf⟩ :=
    adjustGroups_flags calHash (r := r) (s := s.clearInvalid m) m.scales
  unfold UpToDate sync
  rw [hm]
  dsimp only
  rw [hnone]
  dsimp only
  rw [hmagic, hconf, htime, hash_eq_iff hx]
  rfl

lemma upToDate_of_ok (hm : r.addrScales = some m) (htime : r'.lastModTime = r.lastModTime)
    (hend : ¬ ∃ x ∈ m.scales, EndsAt calHash r s x) (hx : x ∈ m.scales) :
    UpToDate calHash r' (sync calHash s r) x ↔
      Records calHash r s m.scales x ∨ calHash x.2 = s.scaleHashs x.1 := by
  have hsome : (adjustGroups calHash r (s.clearInvalid m) m.scales).2 ≠ none :=
    mt (adjustGroups_none_iff m.nodup).mp hend
  obtain ⟨pendings, hpendings⟩ := Option.ne_none_iff_exists'.mp hsome
  unfold UpToDate sync
  rw [hm]
  dsimp only
  rw [hpendings]
  dsimp only
  rw [htime, hash_eq_iff hx, and_iff_right rfl, and_iff_right rfl]

/-- A round in which nothing fails applies what is not up to date. -/
lemma applies_iff (h : Repeats r r' m) (hx : x ∈ m.scales) :
    Applies calHash s r' m x ↔ ¬ UpToDate calHash r' s x := by
  constructor
  · rintro ⟨topic, stores, idxs, pendings, hconfig, hidxs, hsucceeds, hmem, -⟩
    exact (mem_pendings_iff m.nodup hsucceeds.2 hx hconfig hidxs).mp hmem
  · intro hdue
    have hsome : (adjustGroups calHash r' (s.clearInvalid m) m.scales).2 ≠ none := by
      rw [Ne, adjustGroups_none_iff m.nodup]
      rintro ⟨y, hy, -, hnone⟩
      obtain ⟨config, hconfig⟩ := h.config y hy
      exact absurd (hconfig.symm.trans hnone) (Option.some_ne_none _)
    obtain ⟨pendings, hpendings⟩ := Option.ne_none_iff_exists'.mp hsome
    obtain ⟨⟨topic, stores⟩, hconfig⟩ := h.config x hx
    obtain ⟨idxs, hidxs⟩ := h.queueIdxs x hx
    refine ⟨topic, stores, idxs, pendings, hconfig, hidxs, ⟨h.addrScales, hpendings⟩, ?_, ?_⟩
    · exact (mem_pendings_iff m.nodup hpendings hx hconfig hidxs).mpr hdue
    · unfold sync
      rw [h.addrScales]
      dsimp only
      rw [hpendings]
      dsimp only
      rw [adjustGroups_queues]

/-- The next round applies what has been left exactly when it is not up to date after the round. -/
lemma retried_iff_not_upToDate : Retried calHash s r ↔
    ∀ m, r.addrScales = some m → ∀ x ∈ m.scales, LeftUndone calHash s r m x →
      ¬ UpToDate calHash r (sync calHash s r) x := by
  refine forall_congr' fun m => forall_congr' fun hm => forall_congr' fun x =>
    forall_congr' fun hx => forall_congr' fun hleft => ?_
  constructor
  · intro h
    -- a round with the same configuration in which nothing fails
    let r' : Round A := { r with
      config := fun _ => some ({ pubs := [], queueInfos := [], itemsByteSizeLimit := 0 }, [])
      queueIdxs := fun _ => some [] }
    have hrepeats : Repeats r r' m := ⟨hm, rfl, fun _ _ => ⟨_, rfl⟩, fun _ _ => ⟨_, rfl⟩⟩
    rw [← upToDate_congr hrepeats.lastModTime]
    exact (applies_iff hrepeats hx).mp (h r' hrepeats)
  · intro hdue r' hrepeats
    rw [applies_iff hrepeats hx, upToDate_congr hrepeats.lastModTime]
    exact hdue

/-- **What a round leaves undone is applied by the next one exactly when the round has not recorded
it.** -/
theorem retried_iff (s : HeartBeatLock) (r : Round A) :
    Retried calHash s r ↔ NotAhead calHash s r := by
  rw [retried_iff_not_upToDate]
  refine forall_congr' fun m => forall_congr' fun hm => ?_
  have hleft : ∀ x, LeftUndone calHash s r m x ↔ ¬ UpToDate calHash r s x ∧
      ((∃ x ∈ m.scales, EndsAt calHash r s x) ∨ r.queueIdxs x.1 = none) := by
    intro x
    unfold LeftUndone
    rw [adjustGroups_none_iff m.nodup]
    rfl
  simp only [hleft]
  by_cases hend : ∃ x ∈ m.scales, EndsAt calHash r s x
  · rw [if_pos hend]
    constructor
    · intro h hmagic htime x hx hhash
      by_contra hidxs
      have hmem : x ∈ m.scales := (List.takeWhile_subset _) hx
      have hdue : ¬ UpToDate calHash r s x := fun hup => hhash hup.2.2
      refine h x hmem ⟨hdue, .inl hend⟩ ?_
      exact (upToDate_of_error hm rfl hend hmem).mpr ⟨hmagic, htime, .inl ⟨hx, hdue, hidxs⟩⟩
    · rintro h x hx ⟨hdue, -⟩ hup
      obtain ⟨hmagic, htime, hrec | hhash⟩ := (upToDate_of_error hm rfl hend hx).mp hup
      · have hhash : calHash x.2 ≠ s.scaleHashs x.1 := fun heq => hdue ⟨hmagic, htime, heq⟩
        exact hrec.2.2 (h hmagic htime x hrec.1 hhash)
      · exact hdue ⟨hmagic, htime, hhash⟩
  · rw [if_neg hend]
    constructor
    · intro h x hx hdue hidxs hhash
      exact h x hx ⟨hdue, .inr hidxs⟩ ((upToDate_of_ok hm rfl hend hx).mpr (.inr hhash))
    · rintro h x hx ⟨hdue, hidxs⟩ hup
      have hidxs := hidxs.resolve_left hend
      rcases (upToDate_of_ok hm rfl hend hx).mp hup with hrec | hhash
      · exact hrec.2.2 hidxs
      · exact h x hx hdue hidxs hhash

/-! ## Several failed rounds -/

/-- A group that is due is applied by the round or is due after it. -/
lemma applies_or_due (hm : r.addrScales = some m) (h : NotAhead calHash s r) (hx : x ∈ m.scales)
    (hdue : ¬ UpToDate calHash r s x) :
    Applies calHash s r m x ∨ ¬ UpToDate calHash r (sync calHash s r) x := by
  by_cases hleft : LeftUndone calHash s r m x
  · exact .inr (retried_iff_not_upToDate.mp ((retried_iff s r).mpr h) m hm x hx hleft)
  · left
    have hdue' : ¬ UpToDate calHash r (s.clearInvalid m) x := hdue
    obtain ⟨hsome, hidxs⟩ := not_or.mp fun hfail => hleft ⟨hdue', hfail⟩
    obtain ⟨pendings, hpendings⟩ := Option.ne_none_iff_exists'.mp hsome
    obtain ⟨idxs, hidxs⟩ := Option.ne_none_iff_exists'.mp hidxs
    cases hconfig : r.config x.1 with
    | none =>
      have hnone := (adjustGroups_none_iff m.nodup).mpr ⟨x, hx, hdue', hconfig⟩
      exact absurd hnone hsome
    | some config =>
      obtain ⟨topic, stores⟩ := config
      refine ⟨topic, stores, idxs, pendings, hconfig, hidxs, ⟨hm, hpendings⟩, ?_, ?_⟩
      · exact (mem_pendings_iff m.nodup hpendings hx hconfig hidxs).mpr hdue'
      · unfold sync
        rw [hm]
        dsimp only
        rw [hpendings]
        dsimp only
        rw [adjustGroups_queues]

/-- **However many rounds fail**, with the same configuration and scales, a group that is due is applied
by one of them or by the first in which nothing fails. -/
theorem applied_at_last {nproc : ℕ} {rs : List (Round A)} {last : Round A}
    (hrs : ∀ r' ∈ rs, r'.addrScales = some m ∧ r'.lastModTime = r.lastModTime)
    (hlast : Repeats r last m) (h : (heartBeatLock calHash nproc).Along (NotAhead calHash) s rs)
    (hx : x ∈ m.scales) (hdue : ¬ UpToDate calHash r s x) :
    ∃ pre round post, rs ++ [last] = pre ++ round :: post ∧
      Applies calHash ((heartBeatLock calHash nproc).exec s pre) round m x := by
  induction rs generalizing s with
  | nil =>
    refine ⟨[], last, [], rfl, (applies_iff hlast hx).mpr ?_⟩
    rwa [upToDate_congr hlast.lastModTime]
  | cons r' rs ih =>
    obtain ⟨hm, htime⟩ := hrs r' List.mem_cons_self
    rw [← upToDate_congr htime] at hdue
    rcases applies_or_due hm h.1 hx hdue with happlies | hdue
    · exact ⟨[], r', rs ++ [last], rfl, happlies⟩
    · rw [upToDate_congr htime] at hdue
      obtain ⟨pre, round, post, heq, happlies⟩ :=
        ih (fun r' hr' => hrs r' (List.mem_cons_of_mem _ hr')) h.2 hdue
      exact ⟨r' :: pre, round, post, by rw [List.cons_append, heq]; rfl, happlies⟩

end

/-- A round for the two groups, with their scales; the calls for the groups of a list fail. -/
def scaleRound (first second lastModTime : ℕ) (noConfig noQueues : List ℤ) : Round ℕ where
  addrScales := some ⟨[(1, first), (2, second)], by simp⟩
  lastModTime := lastModTime
  config := fun g => if g ∈ noConfig then none else some (twoGroupsTopic, [⟨1, []⟩])
  queueIdxs := fun g => if g ∈ noQueues then none else some [0]

def adjusted : HeartBeatLock := (heartBeatLock id 2).exec (heartBeatLock id 2).init [scaleRound 5 6 1 [] []]

/-- **Counterexample.**  The scales of both groups change, and the round fails at the second: the first
is recorded.  The configuration changes, and the pending queues of the first group cannot be got: its
slot is emptied, and its hash is that of before. -/
theorem adjusted_not_retried :
    ¬ Retried id adjusted (scaleRound 7 8 1 [2] []) ∧
      ¬ Retried id adjusted (scaleRound 5 6 2 [] [1]) := by
  constructor
  · intro h
    exact retried_iff_not_upToDate.mp h _ rfl (1, 7) (by decide) ⟨by decide, .inl (by decide)⟩
      (by decide)
  · intro h
    exact retried_iff_not_upToDate.mp h _ rfl (1, 5) (by decide) ⟨by decide, .inr (by decide)⟩
      (by decide)

end PhxQueue.Consumer
