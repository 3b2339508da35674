import PhxQueue.Consumer.FreqMan
import PhxQueue.Lib.Budget

/-!
# How much a worker gets

The loop of `Consumer::Process`: in every turn a worker is judged by its limits, fills its quota by the
time that has gone by, asks for no more items than it has quota, and pays for what it has got.  How many
items it asks for at most falls when a `Get` fails and rises when one succeeds.

* `Worker`, `turn`, `pulling`   the variables that are kept from turn to turn, and the loop;
* `Doubles`             the arithmetic of `double`s;
* `Rated`               turns under limits of at most a rate, answered within what was asked for;
* `got_le`              **what a worker gets is bounded by its rate**;
* `limit_recovers`      **the limit of the requests falls and recovers**.
-/

set_option linter.unusedSectionVars false

namespace PhxQueue.Consumer.Process
open Comm Lib Lib.Machine FreqMan

/-! ## The code -/

/-- What is computed with `double`s: the quota after a refill, `freq_quota + (double)(now -
last_fill_time) / refill_interval_ms * nrefill`, and after items have been got. -/
structure Doubles where
  refill : ℚ → ℕ → ℤ → ℤ → ℚ
  minus : ℚ → ℕ → ℚ

def exact : Doubles where
  refill quota elapsed intervalMs nrefill := quota + elapsed / intervalMs * nrefill
  minus quota n := quota - n

/-- The static variables of `Process`, and `maxlimit` and `limit` of the call that runs. -/
structure Worker where
  freqQuota : ℚ := 0
  lastFillTime : ℕ := 0
  lastTopicConfigModTime : ℕ := 0
  maxlimit : ℕ := 0
  limit : ℕ := 0

inductive Turn
  /-- `Process` is called; `batch_limit` is an `int32` that is not negative. -/
  | enter (topicConfigModTime batchLimit : ℕ)
  /-- A turn of its loop: the clock, what `Judge` returns, the limit of `CustomGetRequest`, whether the
  `Get` succeeds, and how many items its response has. -/
  | turn (now : ℕ) (judgement : Judgement) (customLimit : ℤ) (ok : Bool) (items : ℕ)

namespace Worker

variable (d : Doubles) (w : Worker)

def enter (topicConfigModTime batchLimit : ℕ) : Worker :=
  { w with
    freqQuota :=
      if w.lastTopicConfigModTime ≠ topicConfigModTime ∧ w.freqQuota > 0 then 0 else w.freqQuota
    lastTopicConfigModTime := topicConfigModTime
    maxlimit := batchLimit
    limit := batchLimit }

def block (now : ℕ) (j : Judgement) : Worker :=
  { w with
    freqQuota := if w.freqQuota > 0 then j.nrefill else w.freqQuota
    lastFillTime := now }

/-- The quota of a turn; an `int` is compared as a `uint64_t`. -/
def fill (now : ℕ) (j : Judgement) : Worker :=
  if j.needFreqlimit then
    let w :=
      if w.lastFillTime = 0 then { w with freqQuota := j.nrefill, lastFillTime := now }
      else if now - w.lastFillTime ≥ j.refillIntervalMs % 2 ^ 64 then
        { w with
          freqQuota := d.refill w.freqQuota (now - w.lastFillTime) j.refillIntervalMs j.nrefill
          lastFillTime := now }
      else w
    { w with freqQuota := if w.freqQuota > 10 ^ 7 then 10 ^ 7 else w.freqQuota }
  else { w with freqQuota := 0, lastFillTime := 0 }

/-- The limit of the request, of a worker whose quota has been filled. -/
def requestLimit (j : Judgement) (customLimit : ℤ) : ℕ :=
  let limit : ℤ :=
    if j.needFreqlimit ∧ w.limit > w.freqQuota then
      if w.freqQuota ≥ 0 then toInt w.freqQuota else 0
    else w.limit
  (if customLimit ≥ 0 ∧ customLimit ≤ limit then customLimit else limit).toNat

def take (ok : Bool) (items : ℕ) : Worker :=
  { w with
    freqQuota := d.minus w.freqQuota items
    limit :=
      if ok then min (w.limit + if w.maxlimit ≥ 10 then w.maxlimit / 10 else 1) w.maxlimit
      else max (w.limit / 2) 1 }

def step : Turn → Worker
  | .enter modTime batchLimit => w.enter modTime batchLimit
  | .turn now j _ ok items =>
    if j.needBlock then w.block now j else (w.fill d now j).take d ok items

end Worker

def pulling (d : Doubles) : Machine Worker Turn where
  init := {}
  step := Worker.step d

def got : Turn → ℕ
  | .enter _ _ => 0
  | .turn _ j _ _ items => if j.needBlock then 0 else items

def blocked : Turn → ℕ
  | .enter _ _ => 0
  | .turn _ j _ _ _ => if j.needBlock then 1 else 0

/-! ## The quota -/

/-- How near the `double`s come to the rational numbers, for a quota between `-b` and `2 ^ 31`: what is
above `10 ^ 7` is cut off. -/
structure Doubles.Near (d : Doubles) (δ : ℚ) (b : ℕ) : Prop where
  small : 0 ≤ δ ∧ δ ≤ 1
  refill_le : ∀ (q : ℚ) (elapsed : ℕ) (i n : ℤ), -b ≤ q → q ≤ 2 ^ 31 → 0 < i → 0 ≤ n →
    min (d.refill q elapsed i n) (10 ^ 7) ≤ q + elapsed / i * n + δ
  le_refill : ∀ (q : ℚ) (elapsed : ℕ) (i n : ℤ), -b ≤ q → q ≤ 2 ^ 31 → 0 < i → 0 ≤ n →
    q ≤ d.refill q elapsed i n
  minus_le : ∀ (q : ℚ) (n : ℕ), -b ≤ q → q ≤ 2 ^ 31 → d.minus q n ≤ q - n + δ
  le_minus : ∀ (q : ℚ) (n : ℕ), -b ≤ q → q ≤ 2 ^ 31 → q - n - δ ≤ d.minus q n
  minus_zero : ∀ q, d.minus q 0 = q

lemma exact_near (b : ℕ) : exact.Near 0 b where
  small := by norm_num
  refill_le q elapsed i n _ _ _ _ := by
    rw [add_zero]
    exact min_le_left _ _
  le_refill q elapsed i n _ _ hi hn := by
    have hi : (0 : ℚ) < i := Int.cast_pos.mpr hi
    have hn : (0 : ℚ) ≤ n := Int.cast_nonneg hn
    have : (0 : ℚ) ≤ elapsed / i * n := by positivity
    show q ≤ q + elapsed / i * n
    linarith
  minus_le q n _ _ := le_of_eq (add_zero _).symm
  le_minus q n _ _ := le_of_eq (sub_zero _)
  minus_zero q := by
    show q - ((0 : ℕ) : ℚ) = q
    rw [Nat.cast_zero, sub_zero]

/-- What a response to a request with this limit has at most, when an instance has `b` items. -/
def replyBound (b limit : ℕ) : ℕ := if limit = 0 then 0 else max limit b

/-- The worker is under limits of at most `rate` items in a millisecond and `nrefill` in a refill, the
clock is between `t₀` and `t₁`, and the response is within what has been asked for. -/
structure RatedTurn (d : Doubles) (rate : ℚ) (nrefill b t₀ t₁ : ℕ) (w : Worker) (now : ℕ) (j : Judgement)
    (customLimit : ℤ) (items : ℕ) : Prop where
  limited : j.needFreqlimit = true
  nrefill : 0 ≤ j.nrefill ∧ j.nrefill ≤ nrefill
  interval : 0 < j.refillIntervalMs ∧ j.refillIntervalMs < 2 ^ 31
  rate : (j.nrefill : ℚ) ≤ rate * j.refillIntervalMs
  clock : 0 < now ∧ t₀ ≤ now ∧ now ≤ t₁ ∧ w.lastFillTime ≤ now
  reply : j.needBlock = false →
    items ≤ replyBound b ((w.fill d now j).requestLimit j customLimit)

def Rated (d : Doubles) (rate : ℚ) (nrefill b t₀ t₁ : ℕ) (w : Worker) : Turn → Prop
  | .enter _ _ => True
  | .turn now j customLimit _ items => RatedTurn d rate nrefill b t₀ t₁ w now j customLimit items

/-- The quota is not below `-b`. -/
def InDebt (b : ℕ) (w : Worker) : Prop := -b ≤ w.freqQuota ∧ w.freqQuota ≤ 2 ^ 31

/-- What a worker may get, less what the rate gives it till `t₀` or till it was filled. -/
def allowance (rate : ℚ) (nrefill t₀ : ℕ) (w : Worker) : ℚ :=
  if w.lastFillTime = 0 then nrefill - rate * t₀ else w.freqQuota - rate * w.lastFillTime

section
variable {d : Doubles} {δ rate : ℚ} {nrefill b t₀ t₁ now items : ℕ} {w : Worker} {j : Judgement}
  {customLimit : ℤ}

lemma toInt_le {x : ℚ} (hx : 0 ≤ x) : (toInt x : ℚ) ≤ x := by
  unfold toInt
  rw [Int.tdiv_eq_ediv_of_nonneg (Rat.num_nonneg.mpr hx), ← Rat.floor_def]
  exact Int.floor_le x

lemma requestLimit_le (hlim : j.needFreqlimit = true) :
    w.requestLimit j customLimit = 0 ∨ (w.requestLimit j customLimit : ℚ) ≤ w.freqQuota := by
  unfold Worker.requestLimit
  dsimp only
  rw [hlim]
  set limit : ℤ := if (true = true ∧ (w.limit : ℚ) > w.freqQuota) then
    (if w.freqQuota ≥ 0 then toInt w.freqQuota else 0) else (w.limit : ℤ) with hlimit
  have hle : limit = 0 ∨ (limit : ℚ) ≤ w.freqQuota := by
    rw [hlimit]
    split_ifs with hgt hpos
    · exact .inr (toInt_le hpos)
    · exact .inl rfl
    · refine .inr ?_
      have := not_lt.mp (not_and.mp hgt rfl)
      exact_mod_cast this
  set asked : ℤ := if customLimit ≥ 0 ∧ customLimit ≤ limit then customLimit else limit with hasked
  have hasked_le : asked ≤ limit := by
    rw [hasked]
    split_ifs with h
    · exact h.2
    · exact le_rfl
  rcases Nat.eq_zero_or_pos asked.toNat with hzero | hpos
  · exact .inl hzero
  · have hnonneg : (asked.toNat : ℤ) = asked := Int.toNat_of_nonneg (by omega)
    rcases hle with hnil | hle
    · omega
    · right
      calc (asked.toNat : ℚ) = (asked : ℚ) := by exact_mod_cast hnonneg
        _ ≤ limit := by exact_mod_cast hasked_le
        _ ≤ w.freqQuota := hle

/-- **Filling** brings no more than the time that has gone by. -/
lemma fill_spec (hd : d.Near δ b) (hrate : 0 ≤ rate) (hdebt : InDebt b w) {items : ℕ}
    (h : RatedTurn d rate nrefill b t₀ t₁ w now j customLimit items) :
    (w.fill d now j).lastFillTime ≠ 0 ∧ (w.fill d now j).lastFillTime ≤ now ∧
      -b ≤ (w.fill d now j).freqQuota ∧ (w.fill d now j).freqQuota ≤ 10 ^ 7 ∧
      (w.fill d now j).freqQuota - rate * (w.fill d now j).lastFillTime ≤
        allowance rate nrefill t₀ w + δ := by
  obtain ⟨hnow, ht₀, -, hlast⟩ := h.clock
  obtain ⟨hδ, -⟩ := hd.small
  have hnrefill : (j.nrefill : ℚ) ≤ nrefill := by exact_mod_cast h.nrefill.2
  have hnonneg : (0 : ℚ) ≤ j.nrefill := by exact_mod_cast h.nrefill.1
  have hb : (0 : ℚ) ≤ b := Nat.cast_nonneg b
  have hcut (q : ℚ) : (if q > 10 ^ 7 then 10 ^ 7 else q) = min q (10 ^ 7) := by
    split_ifs with hq
    · exact (min_eq_right hq.le).symm
    · exact (min_eq_left (not_lt.mp hq)).symm
  unfold Worker.fill allowance
  rw [if_pos h.limited]
  dsimp only
  rw [hcut]
  by_cases hzero : w.lastFillTime = 0
  · -- the first turn
    rw [if_pos hzero, if_pos hzero]
    have hmul : rate * t₀ ≤ rate * now := by gcongr
    refine ⟨hnow.ne', le_rfl, ?_, min_le_right _ _, ?_⟩
    · apply le_min
      · linarith
      · linarith
    · have := min_le_left (j.nrefill : ℚ) (10 ^ 7)
      dsimp only
      linarith
  · rw [if_neg hzero, if_neg hzero]
    obtain ⟨hlow, hhigh⟩ := hdebt
    split_ifs with helapsed
    · have helapsed' : ((now - w.lastFillTime : ℕ) : ℚ) = now - w.lastFillTime := Nat.cast_sub hlast
      have hi : (0 : ℚ) < j.refillIntervalMs := Int.cast_pos.mpr h.interval.1
      have hgrant : ((now - w.lastFillTime : ℕ) : ℚ) / j.refillIntervalMs * j.nrefill ≤
          rate * (now - w.lastFillTime) := by
        have hsub : (0 : ℚ) ≤ (now - w.lastFillTime : ℕ) := Nat.cast_nonneg _
        calc ((now - w.lastFillTime : ℕ) : ℚ) / j.refillIntervalMs * j.nrefill
            ≤ (now - w.lastFillTime : ℕ) / j.refillIntervalMs * (rate * j.refillIntervalMs) := by
              gcongr
              exact h.rate
          _ = rate * (now - w.lastFillTime : ℕ) := by
              field_simp
          _ = rate * (now - w.lastFillTime) := by rw [helapsed']
      have hle := hd.refill_le w.freqQuota (now - w.lastFillTime) j.refillIntervalMs j.nrefill hlow hhigh
        h.interval.1 h.nrefill.1
      have hge := hd.le_refill w.freqQuota (now - w.lastFillTime) j.refillIntervalMs j.nrefill hlow hhigh
        h.interval.1 h.nrefill.1
      refine ⟨hnow.ne', le_rfl, ?_, min_le_right _ _, ?_⟩
      · apply le_min
        · exact hlow.trans hge
        · linarith
      · have hmul : rate * ((now : ℚ) - w.lastFillTime) = rate * now - rate * w.lastFillTime := by ring
        rw [hmul] at hgrant
        dsimp only
        generalize ((now - w.lastFillTime : ℕ) : ℚ) / j.refillIntervalMs * j.nrefill = grant
          at hle hgrant
        linarith only [hle, hgrant]
    · refine ⟨hzero, hlast, ?_, min_le_right _ _, ?_⟩
      · apply le_min
        · exact hlow
        · linarith
      · have := min_le_left w.freqQuota (10 ^ 7)
        linarith

/-- What a response takes from a quota that has been filled. -/
lemma minus_spec (hd : d.Near δ b) (hb : 1 ≤ b) {q : ℚ} {limit : ℕ} (hlow : -b ≤ q)
    (hhigh : q ≤ 10 ^ 7) (hlimit : limit = 0 ∨ (limit : ℚ) ≤ q) (hitems : items ≤ replyBound b limit) :
    -b ≤ d.minus q items ∧ d.minus q items ≤ 2 ^ 31 ∧ d.minus q items ≤ q - items + δ := by
  obtain ⟨hδ, hδ1⟩ := hd.small
  have hb : (1 : ℚ) ≤ b := by exact_mod_cast hb
  have hle := hd.minus_le q items hlow (by linarith)
  have hge := hd.le_minus q items hlow (by linarith)
  have hitems0 : (0 : ℚ) ≤ items := Nat.cast_nonneg items
  refine ⟨?_, by linarith, hle⟩
  rcases Nat.eq_zero_or_pos items with rfl | hpos
  · rw [hd.minus_zero]
    exact hlow
  · unfold replyBound at hitems
    split_ifs at hitems with hzero
    · omega
    · have hlimit := hlimit.resolve_left hzero
      have hone : (1 : ℚ) ≤ limit := by exact_mod_cast Nat.one_le_iff_ne_zero.mpr hzero
      rcases le_max_iff.mp hitems with hitems | hitems
      · have : (items : ℚ) ≤ limit := by exact_mod_cast hitems
        linarith
      · have : (items : ℚ) ≤ b := by exact_mod_cast hitems
        linarith

/-- The worker owes at most `b` items, and was not filled after `t₁`. -/
def Sound (b t₁ : ℕ) (w : Worker) : Prop := InDebt b w ∧ w.lastFillTime ≤ t₁

lemma enter_spec (hw : Sound b t₁ w) (modTime batchLimit : ℕ) :
    Sound b t₁ (w.enter modTime batchLimit) ∧
      allowance rate nrefill t₀ (w.enter modTime batchLimit) ≤ allowance rate nrefill t₀ w := by
  obtain ⟨hdebt, hlast⟩ := hw
  have hb0 : (0 : ℚ) ≤ b := Nat.cast_nonneg b
  have hquota : (w.enter modTime batchLimit).freqQuota = w.freqQuota ∨
      (0 < w.freqQuota ∧ (w.enter modTime batchLimit).freqQuota = 0) := by
    unfold Worker.enter
    dsimp only
    split_ifs with hnew
    · exact .inr ⟨hnew.2, rfl⟩
    · exact .inl rfl
  have hfill : (w.enter modTime batchLimit).lastFillTime = w.lastFillTime := rfl
  unfold Sound InDebt allowance at *
  rw [hfill]
  refine ⟨⟨?_, hlast⟩, ?_⟩
  · rcases hquota with hq | ⟨_, hq⟩
    · rw [hq]
      exact hdebt
    · rw [hq]
      constructor
      · linarith
      · norm_num
  · split_ifs
    · exact le_rfl
    · rcases hquota with hq | ⟨hpos, hq⟩
      · rw [hq]
      · rw [hq]
        linarith

/-- Where a worker is blocked, its quota is set to that of a refill. -/
lemma block_spec (hrate : 0 ≤ rate) (hnrefill : nrefill ≤ 2 ^ 31) (hw : Sound b t₁ w)
    (h : RatedTurn d rate nrefill b t₀ t₁ w now j customLimit items) :
    Sound b t₁ (w.block now j) ∧
      allowance rate nrefill t₀ (w.block now j) ≤ allowance rate nrefill t₀ w + nrefill := by
  obtain ⟨hdebt, hlast⟩ := hw
  obtain ⟨hnow, ht₀, ht₁, hbefore⟩ := h.clock
  have hb0 : (0 : ℚ) ≤ b := Nat.cast_nonneg b
  have hn : (j.nrefill : ℚ) ≤ nrefill := by exact_mod_cast h.nrefill.2
  have hn0 : (0 : ℚ) ≤ j.nrefill := by exact_mod_cast h.nrefill.1
  have hN : (nrefill : ℚ) ≤ 2 ^ 31 := by exact_mod_cast hnrefill
  have hmul : rate * t₀ ≤ rate * now := by gcongr
  have hmul' : rate * w.lastFillTime ≤ rate * now := by gcongr
  have hfill : (w.block now j).lastFillTime = now := rfl
  have hquota : (0 < w.freqQuota ∧ (w.block now j).freqQuota = j.nrefill) ∨
      (w.freqQuota ≤ 0 ∧ (w.block now j).freqQuota = w.freqQuota) := by
    unfold Worker.block
    dsimp only
    split_ifs with hpos
    · exact .inl ⟨hpos, rfl⟩
    · exact .inr ⟨not_lt.mp hpos, rfl⟩
  unfold Sound InDebt allowance
  rw [hfill, if_neg hnow.ne']
  rcases hquota with ⟨hpos, hq⟩ | ⟨hneg, hq⟩
  · rw [hq]
    refine ⟨⟨⟨by linarith, by linarith⟩, ht₁⟩, ?_⟩
    split_ifs
    · linarith
    · linarith
  · rw [hq]
    refine ⟨⟨hdebt, ht₁⟩, ?_⟩
    split_ifs
    · linarith
    · linarith

/-- **A turn** pays for what it gets. -/
lemma step_spec (hd : d.Near δ b) (hb : 1 ≤ b) (hrate : 0 ≤ rate) (hnrefill : nrefill ≤ 2 ^ 31)
    (hw : Sound b t₁ w) {e : Turn} (h : Rated d rate nrefill b t₀ t₁ w e) :
    Sound b t₁ (w.step d e) ∧
      allowance rate nrefill t₀ (w.step d e) + got e ≤
        allowance rate nrefill t₀ w + (nrefill * blocked e + 2 * δ) := by
  obtain ⟨hδ, -⟩ := hd.small
  cases e with
  | enter modTime batchLimit =>
    obtain ⟨hsound, hle⟩ := enter_spec hw modTime batchLimit
    refine ⟨hsound, ?_⟩
    show allowance rate nrefill t₀ (w.enter modTime batchLimit) + ((0 : ℕ) : ℚ) ≤
      allowance rate nrefill t₀ w + (nrefill * ((0 : ℕ) : ℚ) + 2 * δ)
    rw [Nat.cast_zero]
    linarith
  | turn now j customLimit ok items =>
    have h : RatedTurn d rate nrefill b t₀ t₁ w now j customLimit items := h
    cases hblock : j.needBlock with
    | true =>
      obtain ⟨hsound, hle⟩ := block_spec hrate hnrefill hw h
      have hstep : w.step d (.turn now j customLimit ok items) = w.block now j := if_pos hblock
      have hgot : got (.turn now j customLimit ok items) = 0 := if_pos hblock
      have hblocked : blocked (.turn now j customLimit ok items) = 1 := if_pos hblock
      rw [hstep, hgot, hblocked, Nat.cast_zero, Nat.cast_one]
      exact ⟨hsound, by linarith⟩
    | false =>
      have hno : ¬ j.needBlock = true := by
        rw [hblock]
        exact Bool.false_ne_true
      have hstep : w.step d (.turn now j customLimit ok items) =
          (w.fill d now j).take d ok items := if_neg hno
      have hgot : got (.turn now j customLimit ok items) = items := if_neg hno
      have hblocked : blocked (.turn now j customLimit ok items) = 0 := if_neg hno
      obtain ⟨hne, hle, hlow, hhigh, hallow⟩ := fill_spec hd hrate hw.1 h
      obtain ⟨hlow', hhigh', htake⟩ := minus_spec hd hb hlow hhigh (requestLimit_le h.limited)
        (h.reply hblock)
      rw [hstep, hgot, hblocked]
      generalize w.fill d now j = w' at *
      refine ⟨⟨⟨hlow', hhigh'⟩, hle.trans h.clock.2.2.1⟩, ?_⟩
      have hallow' : allowance rate nrefill t₀ (w'.take d ok items) =
          d.minus w'.freqQuota items - rate * w'.lastFillTime := if_neg hne
      rw [hallow', Nat.cast_zero, mul_zero]
      linarith

end

/-- **What a worker gets is bounded by its rate.**  In every run of turns under limits of at most `rate`
items in a millisecond, between the times `t₀` and `t₁`, it gets no more than its quota at the start,
what the rate gives in this time, the `b` items that a response can be too large by, a refill for each
turn that is blocked, and what the `double`s are off. -/
theorem got_le (d : Doubles) (δ : ℚ) (b : ℕ) (hd : d.Near δ b) (hb : 1 ≤ b) (rate : ℚ)
    (hrate : 0 ≤ rate) (nrefill : ℕ) (hnrefill : nrefill ≤ 2 ^ 31) (t₀ t₁ : ℕ) (ht : t₀ ≤ t₁)
    (w : Worker) (hw : Sound b t₁ w) (turns : List Turn)
    (h : (pulling d).Along (Rated d rate nrefill b t₀ t₁) w turns) :
    (((turns.map got).sum : ℕ) : ℚ) ≤ allowance rate nrefill t₀ w + rate * t₁ + b +
      nrefill * (turns.map blocked).sum + 2 * δ * turns.length := by
  have hsum (f : Turn → ℕ) (turns : List Turn) :
      (pulling d).total (fun _ e => (f e : ℚ)) w turns = ((turns.map f).sum : ℕ) := by
    rw [total_labels, Nat.cast_list_sum, List.map_map]
    rfl
  have hI (w : Worker) (e : Turn) (hw : Sound b t₁ w) (he : Rated d rate nrefill b t₀ t₁ w e) :
      Sound b t₁ ((pulling d).step w e) := (step_spec hd hb hrate hnrefill hw he).1
  have hpay (w : Worker) (e : Turn) (hw : Sound b t₁ w) (he : Rated d rate nrefill b t₀ t₁ w e) :
      allowance rate nrefill t₀ ((pulling d).step w e) + (got e : ℚ) ≤
        allowance rate nrefill t₀ w + (nrefill * (blocked e : ℚ) + 2 * δ) :=
    (step_spec hd hb hrate hnrefill hw he).2
  have hpot := total_le hI hpay hw h
  -- what is left at the end is not below the debt
  have hend : -(b : ℚ) - rate * t₁ ≤ allowance rate nrefill t₀ ((pulling d).exec w turns) := by
    obtain ⟨⟨hlow, -⟩, hlast⟩ := (Always.of_inv hI hw h).last
    generalize (pulling d).exec w turns = w' at hlow hlast
    have hmul : rate * w'.lastFillTime ≤ rate * t₁ := by gcongr
    have hmul' : rate * t₀ ≤ rate * t₁ := by gcongr
    have hN : (0 : ℚ) ≤ nrefill := Nat.cast_nonneg nrefill
    have hb0 : (0 : ℚ) ≤ b := Nat.cast_nonneg b
    unfold allowance
    split_ifs
    · linarith
    · linarith
  have hgrant : (pulling d).total (fun _ e => nrefill * (blocked e : ℚ) + 2 * δ) w turns =
      nrefill * (turns.map blocked).sum + 2 * δ * turns.length := by
    rw [total_labels, List.sum_map_add, List.sum_map_mul_left, Nat.cast_list_sum, List.map_map,
      List.map_const', List.sum_replicate, nsmul_eq_mul]
    ring_nf
    rfl
  rw [hsum, hgrant] at hpot
  linarith

/-- A worker that may get 10 items every 10 milliseconds. -/
def tenInTen : Judgement where
  needFreqlimit := true
  nrefill := 10
  refillIntervalMs := 10

/-- It gets 10 items when it is filled for the first time, and one 5 milliseconds later, on an instance
that has more items than its quota. -/
def twoTurns : List Turn :=
  [.enter 1 20, .turn 5 tenInTen (-1) true 9, .turn 10 tenInTen (-1) true 2]

theorem twoTurns_got : (twoTurns.map got).sum = 11 ∧
    (((twoTurns.map got).sum : ℕ) : ℚ) ≤ allowance 1 10 1 {} + 1 * (10 : ℕ) + (2 : ℕ) +
      (10 : ℕ) * (twoTurns.map blocked).sum + 2 * 0 * twoTurns.length := by
  have hsound : Sound 2 10 ({} : Worker) := by
    refine ⟨⟨?_, ?_⟩, ?_⟩ <;> norm_num
  have hrated : (pulling exact).Along (Rated exact 1 10 2 1 10) {} twoTurns := by
    refine ⟨trivial, ⟨rfl, ?_, ?_, ?_, ?_, fun _ => ?_⟩, ⟨rfl, ?_, ?_, ?_, ?_, fun _ => ?_⟩, trivial⟩
    all_goals decide +kernel
  exact ⟨rfl, got_le exact 0 2 (exact_near 2) (by decide) 1 (by norm_num) 10 (by decide) 1 10
    (by decide) {} hsound twoTurns hrated⟩

/-! ## The limit of the requests -/

/-- The `Get` of a turn is answered. -/
def answered (ok : Bool) : Turn → ℕ
  | .enter _ _ => 0
  | .turn _ j _ ok' _ => if j.needBlock = false ∧ ok' = ok then 1 else 0

def Turn.stays : Turn → Prop
  | .enter _ _ => False
  | .turn _ _ _ _ _ => True

def raise (maxlimit : ℕ) : ℕ := if maxlimit ≥ 10 then maxlimit / 10 else 1

section
variable (d : Doubles) {w : Worker}

lemma step_maxlimit {e : Turn} (he : e.stays) : (w.step d e).maxlimit = w.maxlimit := by
  cases e with
  | enter => cases he
  | turn now j customLimit ok items =>
    unfold Worker.step Worker.block Worker.fill Worker.take
    dsimp only
    split_ifs <;> rfl

lemma step_limit {e : Turn} (he : e.stays) :
    (answered true e = 0 ∧ answered false e = 0 ∧ (w.step d e).limit = w.limit) ∨
    (answered true e = 1 ∧ answered false e = 0 ∧
      (w.step d e).limit = min (w.limit + raise w.maxlimit) w.maxlimit) ∨
    (answered true e = 0 ∧ answered false e = 1 ∧ (w.step d e).limit = max (w.limit / 2) 1) := by
  cases e with
  | enter => cases he
  | turn now j customLimit ok items =>
    have hfill : (w.fill d now j).limit = w.limit ∧ (w.fill d now j).maxlimit = w.maxlimit := by
      unfold Worker.fill
      dsimp only
      split_ifs <;> exact ⟨rfl, rfl⟩
    unfold Worker.step Worker.take answered
    dsimp only
    rw [hfill.1, hfill.2]
    cases hblock : j.needBlock with
    | true => exact .inl ⟨rfl, rfl, rfl⟩
    | false =>
      cases ok with
      | true => exact .inr (.inl ⟨rfl, rfl, rfl⟩)
      | false => exact .inr (.inr ⟨rfl, rfl, rfl⟩)

lemma exec_maxlimit {turns : List Turn} (h : ∀ e ∈ turns, e.stays) :
    ((pulling d).exec w turns).maxlimit = w.maxlimit := by
  induction turns generalizing w with
  | nil => rfl
  | cons e turns ih =>
    rw [exec_cons, ih fun e' he' => h e' (List.mem_cons_of_mem _ he')]
    exact step_maxlimit d (h e List.mem_cons_self)

/-- The limit is at least one item and at most the configured one. -/
lemma limit_within {turns : List Turn} (h : ∀ e ∈ turns, e.stays)
    (hw : 1 ≤ w.limit ∧ w.limit ≤ w.maxlimit) :
    1 ≤ ((pulling d).exec w turns).limit ∧ ((pulling d).exec w turns).limit ≤ w.maxlimit := by
  induction turns generalizing w with
  | nil => exact hw
  | cons e turns ih =>
    have hmax := step_maxlimit d (w := w) (h e List.mem_cons_self)
    have hstep : 1 ≤ (w.step d e).limit ∧ (w.step d e).limit ≤ (w.step d e).maxlimit := by
      rw [hmax]
      rcases step_limit d (w := w) (h e List.mem_cons_self) with ⟨_, _, heq⟩ | ⟨_, _, heq⟩ | ⟨_, _, heq⟩
      · omega
      · omega
      · omega
    have := ih (fun e' he' => h e' (List.mem_cons_of_mem _ he')) hstep
    rw [hmax] at this
    exact this

lemma limit_successes {turns : List Turn} (h : ∀ e ∈ turns, e.stays)
    (hok : ∀ e ∈ turns, answered false e = 0) (hw : w.limit ≤ w.maxlimit) :
    ((pulling d).exec w turns).limit =
      min (w.limit + (turns.map (answered true)).sum * raise w.maxlimit) w.maxlimit := by
  induction turns generalizing w with
  | nil =>
    rw [List.map_nil, List.sum_nil, Nat.zero_mul, Nat.add_zero, min_eq_left hw]
    rfl
  | cons e turns ih =>
    have he := h e List.mem_cons_self
    have hmax := step_maxlimit d (w := w) he
    have hrest (hle : (w.step d e).limit ≤ w.maxlimit) :
        ((pulling d).exec (w.step d e) turns).limit = min ((w.step d e).limit +
          (turns.map (answered true)).sum * raise w.maxlimit) w.maxlimit := by
      rw [← hmax] at hle ⊢
      exact ih (fun e' he' => h e' (List.mem_cons_of_mem _ he'))
        (fun e' he' => hok e' (List.mem_cons_of_mem _ he')) hle
    rw [exec_cons, List.map_cons, List.sum_cons]
    show ((pulling d).exec (w.step d e) turns).limit = _
    rcases step_limit d (w := w) he with ⟨hs, _, heq⟩ | ⟨hs, _, heq⟩ | ⟨_, hf, _⟩
    · rw [hrest (by omega), heq, hs, Nat.zero_add]
    · rw [hrest (by omega), heq, hs, Nat.add_mul, Nat.one_mul]
      generalize (turns.map (answered true)).sum * raise w.maxlimit = more
      omega
    · rw [hok e List.mem_cons_self] at hf
      cases hf

lemma limit_failures {turns : List Turn} (h : ∀ e ∈ turns, e.stays)
    (hfail : ∀ e ∈ turns, answered true e = 0) (hw : 1 ≤ w.limit) :
    ((pulling d).exec w turns).limit =
      max (w.limit / 2 ^ (turns.map (answered false)).sum) 1 := by
  induction turns generalizing w with
  | nil =>
    rw [List.map_nil, List.sum_nil, pow_zero, Nat.div_one, max_eq_left hw]
    rfl
  | cons e turns ih =>
    have he := h e List.mem_cons_self
    have hrest := ih (w := w.step d e) (fun e' he' => h e' (List.mem_cons_of_mem _ he'))
      fun e' he' => hfail e' (List.mem_cons_of_mem _ he')
    rw [exec_cons, List.map_cons, List.sum_cons]
    show ((pulling d).exec (w.step d e) turns).limit = _
    rcases step_limit d (w := w) he with ⟨_, hf, heq⟩ | ⟨hs, _, _⟩ | ⟨_, hf, heq⟩
    · rw [hrest (by omega), heq, hf, Nat.zero_add]
    · rw [hfail e List.mem_cons_self] at hs
      cases hs
    · rw [hrest (by omega), heq, hf, pow_add, pow_one, ← Nat.div_div_eq_div_mul]
      generalize (turns.map (answered false)).sum = k
      rcases Nat.lt_or_ge (w.limit / 2) 1 with hsmall | hlarge
      · rw [max_eq_right hsmall.le, Nat.lt_one_iff.mp hsmall, Nat.zero_div]
        exact max_eq_right (Nat.div_le_self 1 (2 ^ k))
      · rw [max_eq_left hlarge]

end

/-- **The limit recovers.**  Whatever a worker has gone through before it is called with a limit `m`,
and whatever its turns have been since: its limit is at least 1 and at most `m`, after 18 successful
turns without a failure it is `m` again, and after 30 failed ones without a success it is 1.  The quota
and `CustomGetRequest` may lower what one request asks for. -/
theorem limit_recovers (d : Doubles) (before during after : List Turn) (modTime m : ℕ) (hm : 1 ≤ m)
    (hmax : m < 2 ^ 31) (hduring : ∀ e ∈ during, e.stays) (hafter : ∀ e ∈ after, e.stays) :
    let w := (pulling d).exec (pulling d).init (before ++ .enter modTime m :: during)
    (1 ≤ w.limit ∧ w.limit ≤ m) ∧
      ((∀ e ∈ after, answered false e = 0) → 18 ≤ (after.map (answered true)).sum →
        ((pulling d).exec w after).limit = m) ∧
      ((∀ e ∈ after, answered true e = 0) → 30 ≤ (after.map (answered false)).sum →
        ((pulling d).exec w after).limit = 1) := by
  intro w
  obtain ⟨w₀, hw₀, hlimit, hmaxlimit⟩ : ∃ w₀ : Worker, w = (pulling d).exec w₀ during ∧
      w₀.limit = m ∧ w₀.maxlimit = m :=
    ⟨_, exec_append _ _ _ _, rfl, rfl⟩
  have hwithin := limit_within d hduring (w := w₀) (by omega)
  have hstays := exec_maxlimit d hduring (w := w₀)
  rw [← hw₀, hmaxlimit] at hwithin hstays
  refine ⟨hwithin, fun hok hcount => ?_, fun hfail hcount => ?_⟩
  · rw [limit_successes d hafter hok (by omega), hstays]
    refine min_eq_right ?_
    -- a tenth is more than the eighteenth part of what is missing
    have hraise : m ≤ 1 + 18 * raise m := by
      unfold raise
      split_ifs with hten
      · omega
      · omega
    calc m ≤ 1 + 18 * raise m := hraise
      _ ≤ w.limit + (after.map (answered true)).sum * raise m :=
        Nat.add_le_add hwithin.1 (Nat.mul_le_mul_right _ hcount)
  · rw [limit_failures d hafter hfail hwithin.1]
    refine max_eq_right ?_
    have hpow : (2 : ℕ) ^ 30 ≤ 2 ^ (after.map (answered false)).sum :=
      Nat.pow_le_pow_right (by decide) hcount
    refine Nat.le_of_lt_succ (Nat.div_lt_of_lt_mul ?_)
    calc w.limit ≤ m := hwithin.2
      _ < 2 ^ 30 * 2 := by omega
      _ ≤ 2 ^ (after.map (answered false)).sum * 2 := Nat.mul_le_mul_right _ hpow

/-- A turn without a limit of its rate, answered with one item or failed. -/
def answeredTurn (ok : Bool) : Turn := .turn 5 {} (-1) ok (if ok then 1 else 0)

/-- Seven failures and a success, in a call with 50 items and in one with 100. -/
def shaken : List Turn := answeredTurn true :: List.replicate 7 (answeredTurn false)

theorem shaken_recovers :
    let w := (pulling exact).exec (pulling exact).init
      ((.enter 1 50 :: shaken) ++ .enter 2 100 :: shaken)
    (1 ≤ w.limit ∧ w.limit ≤ 100) ∧
      ((pulling exact).exec w (List.replicate 18 (answeredTurn true))).limit = 100 ∧
      ((pulling exact).exec w (List.replicate 30 (answeredTurn false))).limit = 1 := by
  have hstays (ok : Bool) (n : ℕ) : ∀ e ∈ List.replicate n (answeredTurn ok), e.stays := by
    intro e he
    rw [List.eq_of_mem_replicate he]
    trivial
  have hshaken : ∀ e ∈ shaken, e.stays := by
    intro e he
    rcases List.mem_cons.mp he with rfl | he
    · trivial
    · exact hstays false 7 e he
  have hup := limit_recovers exact (.enter 1 50 :: shaken) shaken
    (List.replicate 18 (answeredTurn true)) 2 100 (by decide) (by decide) hshaken (hstays true 18)
  have hdown := limit_recovers exact (.enter 1 50 :: shaken) shaken
    (List.replicate 30 (answeredTurn false)) 2 100 (by decide) (by decide) hshaken (hstays false 30)
  exact ⟨hup.1, hup.2.1 (by decide) (by decide), hdown.2.2 (by decide) (by decide)⟩

end PhxQueue.Consumer.Process
