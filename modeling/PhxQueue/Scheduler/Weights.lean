import PhxQueue.Consumer.Partition
import PhxQueue.Scheduler.LoadBalance

/-!
# The weights of a topic

When `CheckImbalance` finds a topic balanced, and the weights that `AdjustScale` gives: how large
they are, in which order, and whether any is left for the consumers to share the queues with.

* `buildTopicScaleResponse`   what the consumers are told;
* `checkImbalance_exact_iff`  **the answer for the live consumers is right exactly when some of them
                              are within the limits and some are not, or there is none**;
* `adjustScale_bounded`       **applied weights are bounded, and in the order of the loads**;
* `feeds_iff`                 **some live consumer gets a weight exactly when its load is at most its
                              initial weight times the mean load, and the quotient and the cap do not
                              overflow**;
* `halfLoad_starves`          two consumers that share a load of 1.
-/

set_option linter.unusedSectionVars false

namespace PhxQueue.Scheduler
open Comm Lib

def buildTopicScaleResponse (t : TopicData) : List Consumer.AddrScale :=
  t.consumers.map fun kv => ⟨decodeAddr kv.1, kv.2.weight⟩

/-- `AdjustScale` applies what it has previewed. -/
def Applies (floats : Floats) (topic : SchedTopic) (meanLoad : ℤ) (forceApply : Bool)
    (t : TopicData) : Prop :=
  forceApply ∨ t.consumers.length * topic.weightSticky <
    (t.consumers.map fun kv =>
      |(kv.2.weight - previewWeight floats topic meanLoad kv.2).bmod (2 ^ 32)|).sum.bmod (2 ^ 32)

/-- The consumers with the weights that have been previewed. -/
def applyPreview (floats : Floats) (topic : SchedTopic) (meanLoad : ℤ) (t : TopicData) : TopicData :=
  { t with consumers := t.consumers.map fun kv =>
      (kv.1, { kv.2 with weight := previewWeight floats topic meanLoad kv.2 }) }

/-! ## Imbalance -/

section
variable (floats : Floats)

def Balanced (topic : SchedTopic) (meanLoad : ℤ) (t : TopicData) : Prop :=
  ∀ kv ∈ t.consumers, kv.2.live → ¬ isConsumerImbalance floats topic kv.2.stickyLoad meanLoad

/-- A pass at this stage runs `AdjustScale` next. -/
def Stage.adjusts : Stage → Prop
  | .adjust confModified liveModified _ balanced => confModified ∨ liveModified ∨ ¬ balanced
  | _ => False

/-- **`CheckImbalance` is exact**: it tells if the live consumers are within the limits, and where
they are and nothing was modified a pass does not go on to `AdjustScale`. -/
def ImbalanceExact (topic : SchedTopic) (meanLoad : ℤ) (t : TopicData) : Prop :=
  (∃ balance, checkImbalance floats (.ok topic) meanLoad t = .ok balance ∧
    (balance = true ↔ Balanced floats topic meanLoad t)) ∧
  ∀ (m : Manager) (p p' : Pass) (read : ConfigRead), m.pass = some p →
    p.stage = .balance false false meanLoad → m.data p.topicId = t → read.topic = .ok topic →
    Balanced floats topic meanLoad t →
    ((manager floats).step m (.advance read)).pass = some p' → ¬ p'.stage.adjusts

def SomeWithin (topic : SchedTopic) (meanLoad : ℤ) (t : TopicData) : Prop :=
  ∃ kv ∈ t.consumers, kv.2.live ∧ ¬ isConsumerImbalance floats topic kv.2.stickyLoad meanLoad

def SomeBeyond (topic : SchedTopic) (meanLoad : ℤ) (t : TopicData) : Prop :=
  ∃ kv ∈ t.consumers, kv.2.live ∧ isConsumerImbalance floats topic kv.2.stickyLoad meanLoad

variable {floats} {topic : SchedTopic} {meanLoad : ℤ} {t : TopicData}

lemma mem_liveConsumers {c : ConsumerInfo} :
    c ∈ liveConsumers t ↔ ∃ kv ∈ t.consumers, kv.2 = c ∧ c.live := by
  unfold liveConsumers
  simp only [List.mem_filter, List.mem_map]
  constructor
  · rintro ⟨⟨kv, hkv, rfl⟩, hlive⟩
    exact ⟨kv, hkv, rfl, hlive⟩
  · rintro ⟨kv, hkv, rfl, hlive⟩
    exact ⟨⟨kv, hkv, rfl⟩, hlive⟩

/-- What `CheckImbalance` answers: that no live consumer is within the limits. -/
lemma checkImbalance_eq : ∃ balance, checkImbalance floats (.ok topic) meanLoad t = .ok balance ∧
    (balance = true ↔ ¬ SomeWithin floats topic meanLoad t) := by
  refine ⟨_, rfl, ?_⟩
  rw [decide_eq_true_iff, eq_comm, List.length_eq_zero_iff, List.filter_eq_nil_iff]
  constructor
  · rintro h ⟨kv, hkv, hlive, hin⟩
    apply h kv.2 (mem_liveConsumers.mpr ⟨kv, hkv, rfl, hlive⟩)
    simp [hin]
  · intro h c hc
    obtain ⟨kv, hkv, rfl, hlive⟩ := mem_liveConsumers.mp hc
    simp only [Bool.not_eq_true, decide_eq_true_eq]
    intro hin
    exact h ⟨kv, hkv, hlive, by simp [hin]⟩

lemma not_balanced_iff : ¬ Balanced floats topic meanLoad t ↔ SomeBeyond floats topic meanLoad t := by
  unfold Balanced SomeBeyond
  push Not
  rfl

lemma advance_balance {m : Manager} {p : Pass} {read : ConfigRead}
    (hp : m.pass = some p) (hstage : p.stage = .balance false false meanLoad)
    (hread : read.topic = .ok topic) {balance : Bool}
    (hcheck : checkImbalance floats (.ok topic) meanLoad (m.data p.topicId) = .ok balance) :
    ((manager floats).step m (.advance read)).pass =
      some { p with stage := .adjust false false meanLoad balance } := by
  show (Manager.step floats m (.advance read)).pass = _
  simp only [Manager.step, hp, Manager.advance, hstage, hread, hcheck]
  rfl

end

/-- **`CheckImbalance` is exact** exactly when no consumer is alive, or some of the living are within
the limits and some are beyond them: what it finds out is whether none is within. -/
theorem checkImbalance_exact_iff (floats : Floats) (topic : SchedTopic) (meanLoad : ℤ)
    (t : TopicData) : ImbalanceExact floats topic meanLoad t ↔
      (∀ kv ∈ t.consumers, ¬ kv.2.live) ∨
        SomeWithin floats topic meanLoad t ∧ SomeBeyond floats topic meanLoad t := by
  obtain ⟨balance, hcheck, hbalance⟩ := @checkImbalance_eq floats topic meanLoad t
  constructor
  · intro ⟨⟨balance', hcheck', hexact⟩, _⟩
    rw [hcheck] at hcheck'
    cases hcheck'
    by_cases hin : SomeWithin floats topic meanLoad t
    · right
      refine ⟨hin, not_balanced_iff.mp fun hall => ?_⟩
      exact hbalance.mp (hexact.mpr hall) hin
    · left
      intro kv hkv hlive
      -- within or beyond, the answer is wrong for this one
      have hall := hexact.mp (hbalance.mpr hin)
      exact hin ⟨kv, hkv, hlive, hall kv hkv hlive⟩
  · intro hcond
    have hexact : balance = true ↔ Balanced floats topic meanLoad t := by
      rw [hbalance]
      rcases hcond with hdead | ⟨hin, hout⟩
      · refine iff_of_true ?_ fun kv hkv hlive => absurd hlive (hdead kv hkv)
        rintro ⟨kv, hkv, hlive, _⟩
        exact hdead kv hkv hlive
      · exact iff_of_false (not_not_intro hin) (not_balanced_iff.mpr hout)
    refine ⟨⟨balance, hcheck, hexact⟩, ?_⟩
    intro m p p' read hp hstage hdata hread hall hp' hadjust
    subst hdata
    rw [advance_balance hp hstage hread hcheck] at hp'
    cases hp'
    rcases hadjust with h | h | h
    · cases h
    · cases h
    · exact h (hexact.mpr hall)

def calm : TopicData where
  consumers := [(1, { initWeight := 100, weight := 100, stickyLoad := 50, live := true })]

/-- **Counterexample.**  The only consumer is within the limits, and the topic is not balanced. -/
theorem calm_not_exact : getMeanLoad calm = .ok 50 ∧ ¬ ImbalanceExact truncating {} 50 calm := by
  refine ⟨rfl, ?_⟩
  rintro ⟨⟨balance, hcheck, hexact⟩, _⟩
  have hfalse : checkImbalance truncating (.ok {}) 50 calm = .ok false := rfl
  rw [hfalse] at hcheck
  cases hcheck
  refine Bool.false_ne_true (hexact.mpr ?_)
  unfold Balanced
  decide

/-! ## Weights -/

section
variable {floats : Floats} {topic : SchedTopic} {meanLoad n : ℤ} {forceApply : Bool}
  {t t' : TopicData}

/-- What `AdjustScale` does. -/
lemma adjustScale_cases (h : adjustScale floats (.ok topic) meanLoad forceApply t = .ok t') :
    Applies floats topic meanLoad forceApply t ∧ t' = applyPreview floats topic meanLoad t ∨
      ¬ Applies floats topic meanLoad forceApply t ∧ t' = t := by
  unfold adjustScale at h
  dsimp only at h
  split at h
  · rename_i happ
    cases h
    exact .inl ⟨happ, rfl⟩
  · rename_i hnot
    cases h
    exact .inr ⟨hnot, rfl⟩

lemma adjustScale_of_applies (happ : Applies floats topic meanLoad forceApply t)
    (h : adjustScale floats (.ok topic) meanLoad forceApply t = .ok t') :
    t' = applyPreview floats topic meanLoad t := by
  rcases adjustScale_cases h with ⟨_, ht'⟩ | ⟨hnot, _⟩
  · exact ht'
  · exact absurd happ hnot

lemma mem_applyPreview {kv : ℕ × ConsumerInfo} :
    kv ∈ (applyPreview floats topic meanLoad t).consumers ↔ ∃ c, (kv.1, c) ∈ t.consumers ∧
      kv.2 = { c with weight := previewWeight floats topic meanLoad c } := by
  unfold applyPreview
  simp only [List.mem_map]
  constructor
  · rintro ⟨⟨addr, c⟩, hc, rfl⟩
    exact ⟨c, hc, rfl⟩
  · rintro ⟨c, hc, heq⟩
    exact ⟨(kv.1, c), hc, Prod.ext rfl heq.symm⟩

lemma getMeanLoad_nonneg (h : getMeanLoad t = .ok meanLoad) : 0 ≤ meanLoad := by
  unfold getMeanLoad at h
  dsimp only at h
  split_ifs at h with hlive hsum
  cases h
  apply Int.tdiv_nonneg
  · omega
  · exact Int.natCast_nonneg _

/-- The weight of a consumer with load: the quotient, and at most the share of its initial weight. -/
lemma nextConsumerWeight_of_pos {load initWeight : ℤ} (hload : 0 < load) :
    nextConsumerWeight truncating topic load meanLoad initWeight =
      min (castInt ((initWeight * meanLoad).tdiv load))
        (((initWeight * topic.maxInitWeightPercent).bmod (2 ^ 32)).tdiv 100) := by
  have hscale : truncating.scale initWeight meanLoad load =
      castInt ((initWeight * meanLoad).tdiv load) := rfl
  unfold nextConsumerWeight
  dsimp only
  rw [if_neg (by omega), hscale]
  split_ifs with hmax
  · rw [min_eq_right (le_of_lt hmax)]
  · rw [min_eq_left (not_lt.mp hmax)]

lemma nextConsumerWeight_of_nonpos {load initWeight : ℤ} (hload : load ≤ 0) :
    nextConsumerWeight floats topic load meanLoad initWeight = 0 := by
  unfold nextConsumerWeight
  exact if_pos hload

lemma WithinInt.bmod_eq {n : ℤ} (h : WithinInt n) : n.bmod (2 ^ 32) = n := by
  obtain ⟨hlow, hlt⟩ := h
  exact Int.bmod_eq_of_le (by omega) (by omega)

lemma castInt_pos_iff (n : ℤ) : 0 < castInt n ↔ 0 < n ∧ n < 2 ^ 31 := by
  unfold castInt WithinInt
  split_ifs with h <;> omega

/-- The initial weight is not negative, and its products are within `int`. -/
structure Fits (topic : SchedTopic) (meanLoad initWeight : ℤ) : Prop where
  init : 0 ≤ initWeight
  percent : WithinInt (initWeight * topic.maxInitWeightPercent)
  mean : WithinInt (initWeight * meanLoad)

instance : Decidable (Fits topic meanLoad n) :=
  decidable_of_iff (0 ≤ n ∧ WithinInt (n * topic.maxInitWeightPercent) ∧ WithinInt (n * meanLoad))
    ⟨fun ⟨h, h', h''⟩ => ⟨h, h', h''⟩, fun h => ⟨h.init, h.percent, h.mean⟩⟩

/-- A quotient of a product that fits is truncated without loss. -/
lemma Fits.castInt_eq {load initWeight : ℤ} (hfits : Fits topic meanLoad initWeight)
    (hmean : 0 ≤ meanLoad) (hload : 0 < load) :
    castInt ((initWeight * meanLoad).tdiv load) = (initWeight * meanLoad).tdiv load := by
  have hprod := mul_nonneg hfits.init hmean
  have hquot : 0 ≤ (initWeight * meanLoad).tdiv load := Int.tdiv_nonneg hprod hload.le
  apply if_pos
  constructor
  · omega
  · calc (initWeight * meanLoad).tdiv load ≤ initWeight * meanLoad := Int.tdiv_le_self _ hprod
      _ < 2 ^ 31 := hfits.mean.2

lemma Fits.nextConsumerWeight_nonneg {load initWeight : ℤ} (hfits : Fits topic meanLoad initWeight)
    (hmean : 0 ≤ meanLoad) (hpercent : 0 ≤ topic.maxInitWeightPercent) :
    0 ≤ nextConsumerWeight truncating topic load meanLoad initWeight := by
  by_cases hload : 0 < load
  · rw [nextConsumerWeight_of_pos hload, hfits.castInt_eq hmean hload, hfits.percent.bmod_eq]
    apply le_min
    · exact Int.tdiv_nonneg (mul_nonneg hfits.init hmean) hload.le
    · exact Int.tdiv_nonneg (mul_nonneg hfits.init hpercent) (by norm_num)
  · rw [nextConsumerWeight_of_nonpos (not_lt.mp hload)]

lemma Fits.nextConsumerWeight_le {load initWeight : ℤ} (hfits : Fits topic meanLoad initWeight)
    (hpercent : 0 ≤ topic.maxInitWeightPercent) :
    nextConsumerWeight truncating topic load meanLoad initWeight ≤
      (initWeight * topic.maxInitWeightPercent).tdiv 100 := by
  by_cases hload : 0 < load
  · rw [nextConsumerWeight_of_pos hload, hfits.percent.bmod_eq]
    exact min_le_right _ _
  · rw [nextConsumerWeight_of_nonpos (not_lt.mp hload)]
    exact Int.tdiv_nonneg (mul_nonneg hfits.init hpercent) (by norm_num)

lemma tdiv_antitone {a b b' : ℤ} (ha : 0 ≤ a) (hb : 0 < b) (hle : b ≤ b') :
    a.tdiv b' ≤ a.tdiv b := by
  apply Int.le_tdiv_of_mul_le hb
  have hq : 0 ≤ a.tdiv b' := Int.tdiv_nonneg ha (by omega)
  calc a.tdiv b' * b ≤ a.tdiv b' * b' := mul_le_mul_of_nonneg_left hle hq
    _ = b' * a.tdiv b' := mul_comm _ _
    _ ≤ a := Int.mul_tdiv_self_le ha

lemma Fits.nextConsumerWeight_antitone {load load' initWeight : ℤ}
    (hfits : Fits topic meanLoad initWeight) (hmean : 0 ≤ meanLoad) (hload : 0 < load)
    (hle : load ≤ load') :
    nextConsumerWeight truncating topic load' meanLoad initWeight ≤
      nextConsumerWeight truncating topic load meanLoad initWeight := by
  have hload' := lt_of_lt_of_le hload hle
  rw [nextConsumerWeight_of_pos hload, nextConsumerWeight_of_pos hload',
    hfits.castInt_eq hmean hload, hfits.castInt_eq hmean hload']
  apply min_le_min_right
  exact tdiv_antitone (mul_nonneg hfits.init hmean) hload hle

lemma previewWeight_dead {c : ConsumerInfo} (hdead : ¬ c.live) :
    previewWeight floats topic meanLoad c = 0 := by
  unfold previewWeight
  exact if_neg hdead

lemma previewWeight_live {c : ConsumerInfo} (hlive : c.live) (huse : topic.useInitWeight = false) :
    previewWeight floats topic meanLoad c =
      nextConsumerWeight floats topic c.stickyLoad meanLoad c.initWeight := by
  unfold previewWeight
  rw [if_pos hlive, huse]
  rfl

lemma previewWeight_init {c : ConsumerInfo} (hlive : c.live) (huse : topic.useInitWeight = true) :
    previewWeight floats topic meanLoad c = c.initWeight := by
  unfold previewWeight
  rw [if_pos hlive, if_pos huse]

/-- A preview divides by nothing but a load that is not 0. -/
lemma previewWeight_congr {floats' : Floats}
    (hscale : ∀ initWeight mean load : ℤ, load ≠ 0 →
      floats.scale initWeight mean load = floats'.scale initWeight mean load) :
    previewWeight floats topic meanLoad = previewWeight floats' topic meanLoad := by
  funext c
  unfold previewWeight nextConsumerWeight
  by_cases hload : 0 ≥ c.stickyLoad
  · rw [if_pos hload, if_pos hload]
  · rw [if_neg hload, if_neg hload, hscale _ _ _ (by omega)]

lemma adjustScale_congr {floats' : Floats}
    (hscale : ∀ initWeight mean load : ℤ, load ≠ 0 →
      floats.scale initWeight mean load = floats'.scale initWeight mean load) :
    adjustScale floats (.ok topic) meanLoad forceApply t =
      adjustScale floats' (.ok topic) meanLoad forceApply t := by
  unfold adjustScale
  dsimp only
  rw [previewWeight_congr hscale]

end

/-- **What the weights of a topic are to be**: 0 for the dead, within the bounds for the living, and
of two with one initial weight no more for the one with more load. -/
structure Bounded (topic : SchedTopic) (t : TopicData) : Prop where
  dead : ∀ kv ∈ t.consumers, ¬ kv.2.live → kv.2.weight = 0
  live : ∀ kv ∈ t.consumers, kv.2.live → 0 ≤ kv.2.weight ∧
    kv.2.weight ≤ (kv.2.initWeight * topic.maxInitWeightPercent).tdiv 100
  monotone : ∀ kv ∈ t.consumers, ∀ kv' ∈ t.consumers, kv.2.live → kv'.2.live →
    kv.2.initWeight = kv'.2.initWeight → 0 < kv.2.stickyLoad →
    kv.2.stickyLoad < kv'.2.stickyLoad → kv'.2.weight ≤ kv.2.weight

/-- **`AdjustScale` is bounded and monotone**, where the percentage of the configuration is not
negative and the products are within `int`: it divides by no 0, what it applies is bounded, and else
it changes nothing. -/
theorem adjustScale_bounded (topic : SchedTopic) (huse : topic.useInitWeight = false)
    (hpercent : 0 ≤ topic.maxInitWeightPercent) (t₀ : TopicData) (meanLoad : ℤ)
    (hmean : getMeanLoad t₀ = .ok meanLoad) (forceApply : Bool) (t t' : TopicData)
    (hfits : ∀ kv ∈ t.consumers, Fits topic meanLoad kv.2.initWeight)
    (h : adjustScale truncating (.ok topic) meanLoad forceApply t = .ok t') :
    (Applies truncating topic meanLoad forceApply t → Bounded topic t') ∧
      (¬ Applies truncating topic meanLoad forceApply t → t' = t) ∧
      ∀ floats : Floats, (∀ initWeight mean load : ℤ, load ≠ 0 →
        floats.scale initWeight mean load = truncating.scale initWeight mean load) →
        adjustScale floats (.ok topic) meanLoad forceApply t = .ok t' := by
  have hmean := getMeanLoad_nonneg hmean
  refine ⟨fun happ => ?_, fun hnot => ?_, fun floats hscale => ?_⟩
  · obtain rfl := adjustScale_of_applies happ h
    constructor
    · rintro ⟨addr, c'⟩ hkv hdead
      obtain ⟨c, _, rfl⟩ := mem_applyPreview.mp hkv
      exact previewWeight_dead hdead
    · rintro ⟨addr, c'⟩ hkv hlive
      obtain ⟨c, hc, rfl⟩ := mem_applyPreview.mp hkv
      have hc := hfits _ hc
      dsimp only at hlive hc ⊢
      rw [previewWeight_live hlive huse]
      constructor
      · exact hc.nextConsumerWeight_nonneg hmean hpercent
      · exact hc.nextConsumerWeight_le hpercent
    · rintro ⟨addr, c₁'⟩ hkv₁ ⟨addr', c₂'⟩ hkv₂ hlive₁ hlive₂ heq hpos hlt
      obtain ⟨c₁, hc₁, rfl⟩ := mem_applyPreview.mp hkv₁
      obtain ⟨c₂, hc₂, rfl⟩ := mem_applyPreview.mp hkv₂
      have hc := hfits _ hc₁
      dsimp only at hlive₁ hlive₂ heq hpos hlt hc ⊢
      rw [previewWeight_live hlive₁ huse, previewWeight_live hlive₂ huse, ← heq]
      exact hc.nextConsumerWeight_antitone hmean hpos hlt.le
  · rcases adjustScale_cases h with ⟨happ, _⟩ | ⟨_, ht'⟩
    · exact absurd happ hnot
    · exact ht'
  · rw [adjustScale_congr hscale]
    exact h

/-- Two consumers of initial weight 100, with a load of 30 and one of 60, and a dead one. -/
def threeConsumers : TopicData where
  consumers := [(1, { initWeight := 100, stickyLoad := 30, live := true }),
    (2, { initWeight := 100, stickyLoad := 60, live := true }), (3, { initWeight := 100 })]

theorem threeConsumers_bounded :
    Bounded { useInitWeight := false } (applyPreview truncating { useInitWeight := false } 45
      threeConsumers) :=
  (adjustScale_bounded { useInitWeight := false } rfl (by decide) threeConsumers 45 rfl true
    threeConsumers _ (by decide) rfl).1 (.inl rfl)

/-- **Counterexample.**  With the percentage -100 a weight is negative. -/
theorem negativePercent_not_bounded :
    let topic : SchedTopic := { useInitWeight := false, maxInitWeightPercent := -100 }
    let t : TopicData := { consumers := [(1, { initWeight := 1, stickyLoad := 1, live := true })] }
    (∀ kv ∈ t.consumers, Fits topic 1 kv.2.initWeight ∧ 0 ≤ kv.2.stickyLoad) ∧
      getMeanLoad t = .ok 1 ∧ Applies truncating topic 1 true t ∧
      ∃ t', adjustScale truncating (.ok topic) 1 true t = .ok t' ∧ ¬ Bounded topic t' := by
  refine ⟨by decide, rfl, .inl rfl, _, rfl, fun h => ?_⟩
  have hlow := (h.live _ List.mem_cons_self rfl).1
  revert hlow
  decide

/-! ## Starvation -/

/-- Some live consumer has a weight, and the ring that the consumers build is not empty. -/
def Feeds (murmurHash64 : ℕ → ℕ → ℕ → ℕ) (t : TopicData) : Prop :=
  (∃ kv ∈ t.consumers, kv.2.live ∧ 0 < kv.2.weight) ∧
    (Consumer.hash2EncodedAddr murmurHash64 (buildTopicScaleResponse t)).entries ≠ []

section
variable {murmurHash64 : ℕ → ℕ → ℕ → ℕ} {topic : SchedTopic} {meanLoad : ℤ} {t : TopicData}

lemma feeds_of_weight (h : ∃ kv ∈ t.consumers, kv.2.live ∧ 0 < kv.2.weight) :
    Feeds murmurHash64 t := by
  refine ⟨h, ?_⟩
  obtain ⟨kv, hkv, _, hweight⟩ := h
  rw [Consumer.hash2EncodedAddr_eq]
  apply OrderedMap.build_entries_ne_nil
  rw [Ne, List.flatMap_eq_nil_iff]
  intro hnil
  have hmem : (⟨decodeAddr kv.1, kv.2.weight⟩ : Consumer.AddrScale) ∈ buildTopicScaleResponse t :=
    List.mem_map_of_mem hkv
  exact Consumer.pointsOf_ne_nil hweight (hnil _ hmem)

lemma tdiv_pos_iff {a b : ℤ} (hb : 0 < b) : 0 < a.tdiv b ↔ b ≤ a := by
  constructor
  · intro hpos
    have hsign : 0 < a := by
      by_contra hneg
      have hle : 0 ≤ (-a).tdiv b := Int.tdiv_nonneg (by omega) hb.le
      rw [Int.neg_tdiv] at hle
      omega
    by_contra hlt
    rw [Int.tdiv_eq_zero_of_lt hsign.le (not_le.mp hlt)] at hpos
    exact lt_irrefl _ hpos
  · intro hle
    apply Int.le_tdiv_of_mul_le hb
    omega

/-- When a consumer gets a weight for its load: neither the quotient nor the cap is 0, or overflows
to a negative number. -/
lemma nextConsumerWeight_pos_iff {load initWeight : ℤ} :
    0 < nextConsumerWeight truncating topic load meanLoad initWeight ↔
      0 < load ∧ load ≤ initWeight * meanLoad ∧ (initWeight * meanLoad).tdiv load < 2 ^ 31 ∧
        100 ≤ (initWeight * topic.maxInitWeightPercent).bmod (2 ^ 32) := by
  by_cases hload : 0 < load
  · rw [nextConsumerWeight_of_pos hload, lt_min_iff, castInt_pos_iff, tdiv_pos_iff hload,
      tdiv_pos_iff (by norm_num), and_assoc, and_iff_right hload]
  · rw [nextConsumerWeight_of_nonpos (not_lt.mp hload)]
    exact iff_of_false (lt_irrefl _) fun h => hload h.1

end

/-- A live consumer is given a weight: any, where the initial weights are used, and else one whose
load is positive and at most its initial weight times the mean load, where the quotient of the two is
an `int` and the product of the initial weight and the percentage, as an `int`, is not below 100. -/
def SomeLight (topic : SchedTopic) (meanLoad : ℤ) (t : TopicData) : Prop :=
  topic.useInitWeight ∨ ∃ kv ∈ t.consumers, kv.2.live ∧
    0 < kv.2.stickyLoad ∧ kv.2.stickyLoad ≤ kv.2.initWeight * meanLoad ∧
    (kv.2.initWeight * meanLoad).tdiv kv.2.stickyLoad < 2 ^ 31 ∧
    100 ≤ (kv.2.initWeight * topic.maxInitWeightPercent).bmod (2 ^ 32)

/-- **An applied `AdjustScale` leaves a live consumer a weight** exactly when the initial weights are
used, or the load of one is positive and at most its initial weight times the mean load, and nothing
overflows in its weight. -/
theorem feeds_iff (murmurHash64 : ℕ → ℕ → ℕ → ℕ) (topic : SchedTopic) (meanLoad : ℤ)
    (forceApply : Bool) (t t' : TopicData)
    (hlive : ∃ kv ∈ t.consumers, kv.2.live ∧ 1 ≤ kv.2.initWeight)
    (happ : Applies truncating topic meanLoad forceApply t)
    (h : adjustScale truncating (.ok topic) meanLoad forceApply t = .ok t') :
    Feeds murmurHash64 t' ↔ SomeLight topic meanLoad t := by
  obtain rfl := adjustScale_of_applies happ h
  cases huse : topic.useInitWeight with
  | true =>
    refine iff_of_true (feeds_of_weight ?_) (.inl huse)
    obtain ⟨⟨addr, c⟩, hc, hlive, hone⟩ := hlive
    refine ⟨(addr, _), mem_applyPreview.mpr ⟨c, hc, rfl⟩, hlive, ?_⟩
    show 0 < previewWeight truncating topic meanLoad c
    rw [previewWeight_init hlive huse]
    exact hone
  | false =>
    constructor
    · rintro ⟨⟨⟨addr, c'⟩, hc', hlive, hweight⟩, _⟩
      obtain ⟨c, hc, rfl⟩ := mem_applyPreview.mp hc'
      have hlive : c.live := hlive
      have hweight : 0 < previewWeight truncating topic meanLoad c := hweight
      rw [previewWeight_live hlive huse, nextConsumerWeight_pos_iff] at hweight
      exact .inr ⟨(addr, c), hc, hlive, hweight⟩
    · rintro (huse' | ⟨⟨addr, c⟩, hc, hlive, hlight⟩)
      · rw [huse] at huse'
        cases huse'
      · refine feeds_of_weight ⟨(addr, _), mem_applyPreview.mpr ⟨c, hc, rfl⟩, hlive, ?_⟩
        show 0 < previewWeight truncating topic meanLoad c
        rw [previewWeight_live hlive huse]
        exact nextConsumerWeight_pos_iff.mpr hlight

/-- A topic with one consumer, of initial weight 1 and with a load of 1. -/
def fullLoad : TopicData where
  consumers := [(1, { initWeight := 1, stickyLoad := 1, live := true })]

def halfLoad : TopicData where
  consumers := fullLoad.consumers ++ [(2, { initWeight := 1, live := true })]

theorem fullLoad_feeds :
    Feeds (fun _ _ h => h) (applyPreview truncating { useInitWeight := false } 1 fullLoad) :=
  (feeds_iff (fun _ _ h => h) { useInitWeight := false } 1 true fullLoad _ (by decide)
    (.inl rfl) rfl).mpr (.inr (by decide))

/-- **Counterexample.**  The mean of the loads 1 and 0 is 0, and no consumer gets a weight. -/
theorem halfLoad_starves : getMeanLoad halfLoad = .ok 0 ∧
    ∃ t', adjustScale truncating (.ok { useInitWeight := false }) 0 true halfLoad = .ok t' ∧
      ¬ Feeds (fun _ _ h => h) t' := by
  refine ⟨rfl, _, rfl, fun h => ?_⟩
  have hsome := h.1
  revert hsome
  decide

end PhxQueue.Scheduler
