import PhxQueue.Lib.Run
import PhxQueue.Scheduler.TopicData

/-!
# Load-balance passes

`SchedulerMgr::LoadBalance`, pass after pass over all topics, with heartbeats of consumers at any
time between the steps of a pass, and configurations that may change or fail to load at every read.
That a topic has been modified is known to the pass that has seen it, and to no other.

* `Manager`, `manager`   the topics, the pass under way, and what has been reported and applied;
* `NothingLost`          whenever a pass goes through a topic, all that has been reported of it has
                         been applied;
* `SeenAgain`            a pass has seen a modification itself when one is outstanding;
* `nothingLost_iff`      **no change is lost exactly when every pass that goes through has**;
* `earlyStop_loses`      a consumer that comes back, and keeps the weight 0.
-/

set_option linter.unusedSectionVars false

namespace PhxQueue.Scheduler
open Comm Lib

/-- Where a pass stands with its topic: the flags are `consumer_conf_modified` and
`live_modified`. -/
inductive Stage
  | reload
  | mode (confModified : Bool)
  | live (confModified : Bool)
  | meanLoad (confModified liveModified : Bool)
  | balance (confModified liveModified : Bool) (meanLoad : ℤ)
  | adjust (confModified liveModified : Bool) (meanLoad : ℤ) (balanced : Bool)
deriving DecidableEq

/-- A pass at a topic, and the topics after it. -/
structure Pass where
  now : ℕ
  topicId : ℤ
  rest : List ℤ
  stage : Stage

inductive Entry
  /-- `ReloadConsumerConfig` or `UpdateLive` has reported a modification. -/
  | reported
  /-- `AdjustScale` has been run. -/
  | adjusted (forceApply : Bool)
  /-- A pass has gone through the topic, in dynamic mode and without an error or early stop. -/
  | through
deriving DecidableEq

structure Manager where
  topics : List (ℤ × TopicData) := []
  pass : Option Pass := none
  log : ℤ → List Entry := fun _ => []

/-- What a step of a pass reads from the configuration. -/
structure ConfigRead where
  topic : Except RetCode SchedTopic
  confLastModTime : ℕ := 0
  scales : Except RetCode (List (ℕ × ℤ)) := .ok []

inductive BalanceEvent
  /-- `GetAddrScale` of a consumer, at the master. -/
  | heartbeat (topicId : ℤ) (topic : SchedTopic) (addr now : ℕ) (load : ℤ)
  /-- A pass begins; `clock` is the time when topics are made. -/
  | loadBalance (now : ℕ) (topicIds : Except RetCode (List ℤ)) (clock : ℕ)
  /-- The pass takes its next step. -/
  | advance (read : ConfigRead)

namespace Manager

def data (m : Manager) (topicId : ℤ) : TopicData :=
  ((m.topics.find? fun kv => kv.1 = topicId).map Prod.snd).getD {}

def setData (m : Manager) (topicId : ℤ) (t : TopicData) : Manager :=
  { m with topics := m.topics.map fun kv => if kv.1 = topicId then (kv.1, t) else kv }

def write (m : Manager) (topicId : ℤ) (entries : List Entry) : Manager :=
  { m with log := Function.update m.log topicId (m.log topicId ++ entries) }

def goOn (m : Manager) (p : Pass) (stage : Stage) : Manager :=
  { m with pass := some { p with stage := stage } }

def nextTopic (m : Manager) (now : ℕ) : List ℤ → Manager
  | [] => { m with pass := none }
  | topicId :: rest => { m with pass := some ⟨now, topicId, rest, .reload⟩ }

/-- `continue`, for the reason that something failed or there is nothing to do. -/
def stopEarly (m : Manager) (p : Pass) : Manager := m.nextTopic p.now p.rest

/-- The end of the loop body, in dynamic mode. -/
def goThrough (m : Manager) (p : Pass) : Manager :=
  (m.write p.topicId [.through]).nextTopic p.now p.rest

variable (floats : Floats)

def report (m : Manager) (p : Pass) (modified : Bool) : Manager :=
  if modified then m.write p.topicId [.reported] else m

def advance (m : Manager) (p : Pass) (read : ConfigRead) : Manager :=
  let t := m.data p.topicId
  match p.stage with
  | .reload =>
    match reloadConsumerConfig read.confLastModTime read.scales t with
    | .error _ => m.stopEarly p
    | .ok (t, modified) => ((m.setData p.topicId t).report p modified).goOn p (.mode modified)
  | .mode confModified =>
    if getMode read.topic p.now t = .dynamic then m.goOn p (.live confModified) else m.stopEarly p
  | .live confModified =>
    match updateLive read.topic p.now t with
    | .error _ => m.stopEarly p
    | .ok (t, modified) =>
      ((m.setData p.topicId t).report p modified).goOn p (.meanLoad confModified modified)
  | .meanLoad confModified liveModified =>
    match getMeanLoad t with
    | .error _ => m.stopEarly p
    | .ok meanLoad => m.goOn p (.balance confModified liveModified meanLoad)
  | .balance confModified liveModified meanLoad =>
    match checkImbalance floats read.topic meanLoad t with
    | .error _ => m.stopEarly p
    | .ok balanced => m.goOn p (.adjust confModified liveModified meanLoad balanced)
  | .adjust confModified liveModified meanLoad balanced =>
    if confModified ∨ liveModified ∨ ¬ balanced then
      match adjustScale floats read.topic meanLoad (confModified || liveModified) t with
      | .error _ => m.stopEarly p
      | .ok t =>
        ((m.setData p.topicId t).write p.topicId
          [.adjusted (confModified || liveModified)]).goThrough p
    else m.goThrough p

/-- One step; an event that is not due changes nothing. -/
def step (m : Manager) : BalanceEvent → Manager
  | .heartbeat topicId topic addr now load =>
    m.setData topicId (heartbeat floats topic addr now load (m.data topicId))
  | .loadBalance now topicIds clock =>
    match m.pass, topicIds with
    | none, .ok topicIds =>
      let topics := reloadTopicConfig topicIds clock m.topics
      { m with topics := topics }.nextTopic now (topics.map Prod.fst)
    | _, _ => m
  | .advance read =>
    match m.pass with
    | none => m
    | some p => m.advance floats p read

end Manager

def manager (floats : Floats) : Machine Manager BalanceEvent where
  init := {}
  step := Manager.step floats

/-! ## Reports -/

/-- Between a report and a pass that goes through `AdjustScale` is run, with `force_apply`. -/
def Applied (log : List Entry) : Prop :=
  ∀ before between after, log = before ++ .reported :: (between ++ .through :: after) →
    .adjusted true ∈ between

/-- **No change is lost.** -/
def NothingLost (m : Manager) : Prop := ∀ topicId, Applied (m.log topicId)

def outstanding : List Entry → Bool :=
  List.foldl (fun out e => match e with
    | .reported => true
    | .adjusted true => false
    | _ => out) false

/-- The pass has seen a modification of its topic. -/
def Stage.reports : Stage → Bool
  | .reload => false
  | .mode c | .live c => c
  | .meanLoad c l | .balance c l _ | .adjust c l _ _ => c || l

/-- The pass goes through its topic at this step. -/
def GoesThrough (p : Pass) (read : ConfigRead) : Prop :=
  match p.stage with
  | .adjust confModified liveModified _ balanced =>
    (confModified ∨ liveModified ∨ ¬ balanced) → ∃ topic, read.topic = .ok topic
  | _ => False

/-- A pass that goes through a topic with a report outstanding has seen a modification itself. -/
def SeenAgain (m : Manager) : BalanceEvent → Prop
  | .advance read => ∀ p, m.pass = some p → GoesThrough p read →
      outstanding (m.log p.topicId) → p.stage.reports
  | _ => True

lemma outstanding_append (log : List Entry) (e : Entry) : outstanding (log ++ [e]) =
    match e with
    | .reported => true
    | .adjusted true => false
    | _ => outstanding log := by
  unfold outstanding
  rw [List.foldl_append]
  rfl

/-- The last entry of a log that is put together from two parts. -/
lemma append_singleton_eq {α : Type} {l a b : List α} {e x : α} (h : l ++ [e] = a ++ x :: b) :
    b = [] ∧ l = a ∧ e = x ∨ ∃ b', b = b' ++ [e] ∧ l = a ++ x :: b' := by
  rcases List.eq_nil_or_concat b with rfl | ⟨b', y, rfl⟩
  · obtain ⟨hl, he⟩ := List.append_inj' h rfl
    exact .inl ⟨rfl, hl, List.singleton_inj.mp he⟩
  · rw [List.concat_eq_append] at h ⊢
    have h : l ++ [e] = (a ++ x :: b') ++ [y] := by
      rw [h, List.append_assoc]
      rfl
    obtain ⟨hl, he⟩ := List.append_inj' h rfl
    rw [List.singleton_inj.mp he]
    exact .inr ⟨b', rfl, hl⟩

/-- A report is outstanding when `AdjustScale` has not been forced since. -/
lemma outstanding_iff (log : List Entry) : outstanding log = true ↔
    ∃ before after, log = before ++ .reported :: after ∧ .adjusted true ∉ after := by
  induction log using List.reverseRecOn with
  | nil =>
    refine iff_of_false Bool.false_ne_true ?_
    rintro ⟨before, after, h, _⟩
    exact List.append_ne_nil_of_right_ne_nil _ (List.cons_ne_nil _ _) h.symm
  | append_singleton log e ih =>
    rw [outstanding_append]
    -- an entry that is neither leaves it as it was
    have hother (he : e ≠ .reported) (he' : e ≠ .adjusted true) : outstanding log = true ↔
        ∃ before after, log ++ [e] = before ++ .reported :: after ∧ .adjusted true ∉ after := by
      rw [ih]
      constructor
      · rintro ⟨before, after, rfl, hnot⟩
        refine ⟨before, after ++ [e], ?_, ?_⟩
        · rw [List.append_assoc]
          rfl
        · intro hmem
          rcases List.mem_append.mp hmem with hmem | hmem
          · exact hnot hmem
          · exact he' (List.mem_singleton.mp hmem).symm
      · rintro ⟨before, after, h, hnot⟩
        rcases append_singleton_eq h with ⟨_, _, heq⟩ | ⟨after', rfl, hlog⟩
        · exact absurd heq he
        · exact ⟨before, after', hlog, fun hmem => hnot (List.mem_append_left _ hmem)⟩
    cases e with
    | reported =>
      exact iff_of_true rfl ⟨log, [], rfl, List.not_mem_nil⟩
    | through => exact hother (fun h => nomatch h) (fun h => nomatch h)
    | adjusted force =>
      cases force with
      | false => exact hother (fun h => nomatch h) (fun h => nomatch h)
      | true =>
        refine iff_of_false Bool.false_ne_true ?_
        rintro ⟨before, after, h, hnot⟩
        rcases append_singleton_eq h with ⟨_, _, heq⟩ | ⟨after', rfl, _⟩
        · cases heq
        · exact hnot (List.mem_append_right _ List.mem_cons_self)

lemma applied_append {log : List Entry} {e : Entry} (he : e ≠ .through) :
    Applied (log ++ [e]) ↔ Applied log := by
  constructor
  · intro h before between after hlog
    apply h before between (after ++ [e])
    rw [hlog, List.append_assoc, List.cons_append, List.append_assoc, List.cons_append]
  · intro h before between after hlog
    have hlog : log ++ [e] = (before ++ .reported :: between) ++ .through :: after := by
      rw [hlog, List.append_assoc]
      rfl
    rcases append_singleton_eq hlog with ⟨_, _, heq⟩ | ⟨after', _, hlog'⟩
    · exact absurd heq he
    · apply h before between after'
      rw [hlog', List.append_assoc]
      rfl

lemma applied_append_through {log : List Entry} :
    Applied (log ++ [.through]) ↔ Applied log ∧ ¬ outstanding log := by
  rw [outstanding_iff]
  constructor
  · intro h
    refine ⟨fun before between after hlog => ?_, ?_⟩
    · apply h before between (after ++ [.through])
      rw [hlog, List.append_assoc, List.cons_append, List.append_assoc, List.cons_append]
    · rintro ⟨before, after, rfl, hnot⟩
      apply hnot
      apply h before after []
      rw [List.append_assoc]
      rfl
  · rintro ⟨h, hnot⟩ before between after hlog
    have hlog : log ++ [.through] = (before ++ .reported :: between) ++ .through :: after := by
      rw [hlog, List.append_assoc]
      rfl
    rcases append_singleton_eq hlog with ⟨_, hlog', _⟩ | ⟨after', _, hlog'⟩
    · by_contra hno
      exact hnot ⟨before, between, hlog', hno⟩
    · apply h before between after'
      rw [hlog', List.append_assoc]
      rfl

/-! ## Steps -/

section
variable {floats : Floats} {m : Manager}

lemma nextTopic_log (now : ℕ) (rest : List ℤ) : (m.nextTopic now rest).log = m.log := by
  cases rest <;> rfl

lemma NothingLost.of_log (h : NothingLost m) {m' : Manager} (hlog : m'.log = m.log) :
    NothingLost m' := by
  intro topicId
  rw [hlog]
  exact h topicId

lemma nothingLost_write {m' : Manager} {topicId : ℤ} {entries : List Entry}
    (hlog : m'.log = Function.update m.log topicId (m.log topicId ++ entries)) (h : NothingLost m) :
    NothingLost m' ↔ Applied (m.log topicId ++ entries) := by
  constructor
  · intro h'
    have hself := h' topicId
    rw [hlog, Function.update_self] at hself
    exact hself
  · intro happ topicId'
    rw [hlog]
    by_cases heq : topicId' = topicId
    · rw [heq, Function.update_self]
      exact happ
    · rw [Function.update_of_ne heq]
      exact h topicId'

lemma NothingLost.report (h : NothingLost m) (p : Pass) (modified : Bool) (topicId : ℤ)
    (t : TopicData) (stage : Stage) :
    NothingLost (((m.setData topicId t).report p modified).goOn p stage) := by
  cases modified with
  | false => exact h.of_log rfl
  | true =>
    have happ : Applied (m.log p.topicId ++ [Entry.reported]) :=
      (applied_append (fun he : Entry.reported = .through => nomatch he)).mpr (h p.topicId)
    refine (nothingLost_write ?_ h).mpr happ
    rfl

lemma advance_through {p : Pass} {read : ConfigRead} (hgo : GoesThrough p read) :
    ∃ entries, (m.advance floats p read).log =
        Function.update m.log p.topicId (m.log p.topicId ++ entries) ∧
      (entries = [.adjusted true, .through] ∧ p.stage.reports ∨
        (entries = [.adjusted false, .through] ∨ entries = [.through]) ∧ ¬ p.stage.reports) := by
  obtain ⟨now, topicId, rest, stage⟩ := p
  cases stage with
  | reload => exact hgo.elim
  | mode c => exact hgo.elim
  | live c => exact hgo.elim
  | meanLoad c l => exact hgo.elim
  | balance c l meanLoad => exact hgo.elim
  | adjust c l meanLoad balanced =>
    have hgo : (c ∨ l ∨ ¬ balanced) → ∃ topic, read.topic = .ok topic := hgo
    unfold Manager.advance
    dsimp only
    by_cases hneed : c ∨ l ∨ ¬ balanced
    · obtain ⟨topic, htopic⟩ := hgo hneed
      obtain ⟨t, ht⟩ : ∃ t, adjustScale floats read.topic meanLoad (c || l) (m.data topicId) =
          .ok t := by
        rw [htopic]
        unfold adjustScale
        dsimp only
        split
        · exact ⟨_, rfl⟩
        · exact ⟨_, rfl⟩
      rw [if_pos hneed, ht]
      refine ⟨[.adjusted (c || l), .through], ?_, ?_⟩
      · show ((Manager.goThrough _ _).log : ℤ → List Entry) = _
        unfold Manager.goThrough
        rw [nextTopic_log]
        show Function.update (Function.update m.log topicId (m.log topicId ++ [.adjusted (c || l)]))
          topicId (Function.update m.log topicId (m.log topicId ++ [.adjusted (c || l)]) topicId ++
            [.through]) = _
        rw [Function.update_idem, Function.update_self, List.append_assoc]
        rfl
      · show _ ∧ (c || l) = true ∨ _ ∧ ¬ (c || l) = true
        cases c || l with
        | true => exact .inl ⟨rfl, rfl⟩
        | false => exact .inr ⟨.inl rfl, Bool.false_ne_true⟩
    · rw [if_neg hneed]
      refine ⟨[.through], ?_, .inr ⟨.inr rfl, ?_⟩⟩
      · unfold Manager.goThrough
        rw [nextTopic_log]
        rfl
      · show ¬ (c || l) = true
        intro hcl
        rw [Bool.or_eq_true] at hcl
        exact hneed (hcl.imp_right Or.inl)

/-- A pass that does not go through its topic loses nothing yet. -/
lemma NothingLost.advance (h : NothingLost m) {p : Pass} {read : ConfigRead}
    (hgo : ¬ GoesThrough p read) : NothingLost (m.advance floats p read) := by
  obtain ⟨now, topicId, rest, stage⟩ := p
  have hstop : NothingLost (m.stopEarly ⟨now, topicId, rest, stage⟩) :=
    h.of_log (nextTopic_log now rest)
  unfold Manager.advance
  cases stage with
  | reload =>
    dsimp only
    split
    · exact hstop
    · exact h.report _ _ _ _ _
  | mode c =>
    dsimp only
    split
    · exact h.of_log rfl
    · exact hstop
  | live c =>
    dsimp only
    split
    · exact hstop
    · exact h.report _ _ _ _ _
  | meanLoad c l =>
    dsimp only
    split
    · exact hstop
    · exact h.of_log rfl
  | balance c l meanLoad =>
    dsimp only
    split
    · exact hstop
    · exact h.of_log rfl
  | adjust c l meanLoad balanced =>
    unfold GoesThrough at hgo
    dsimp only at hgo ⊢
    rw [Classical.not_imp] at hgo
    obtain ⟨hneed, hfail⟩ := hgo
    rw [if_pos hneed]
    cases htopic : read.topic with
    | error ret => exact hstop
    | ok topic => exact absurd ⟨topic, htopic⟩ hfail

/-- **A step that goes through a topic loses nothing exactly when it has seen what is outstanding.** -/
lemma nothingLost_advance_iff (h : NothingLost m) {p : Pass} {read : ConfigRead}
    (hgo : GoesThrough p read) : NothingLost (m.advance floats p read) ↔
      (outstanding (m.log p.topicId) → p.stage.reports) := by
  obtain ⟨entries, hlog, hentries⟩ := @advance_through floats m p read hgo
  rw [nothingLost_write hlog h]
  have hone : ∀ e, e ≠ .through → (Applied (m.log p.topicId ++ [e, .through]) ↔
      ¬ outstanding (m.log p.topicId ++ [e])) := by
    intro e he
    have happ : m.log p.topicId ++ [e, .through] = (m.log p.topicId ++ [e]) ++ [.through] := by
      rw [List.append_assoc]
      rfl
    rw [happ, applied_append_through]
    exact and_iff_right ((applied_append he).mpr (h p.topicId))
  rcases hentries with ⟨rfl, hrep⟩ | ⟨rfl | rfl, hrep⟩
  · have hout : outstanding (m.log p.topicId ++ [.adjusted true]) = false := outstanding_append ..
    rw [hone (.adjusted true) (fun he => nomatch he), hout]
    exact iff_of_true Bool.false_ne_true fun _ => hrep
  · have hout : outstanding (m.log p.topicId ++ [.adjusted false]) =
        outstanding (m.log p.topicId) := outstanding_append ..
    rw [hone (.adjusted false) (fun he => nomatch he), hout]
    exact ⟨fun hnot hout => absurd hout hnot, fun himp hout => hrep (himp hout)⟩
  · rw [applied_append_through, and_iff_right (h p.topicId)]
    exact ⟨fun hnot hout => absurd hout hnot, fun himp hout => hrep (himp hout)⟩

lemma NothingLost.step (h : NothingLost m) (e : BalanceEvent) :
    NothingLost (m.step floats e) ↔ SeenAgain m e := by
  cases e with
  | heartbeat topicId topic addr now load => exact iff_of_true (h.of_log rfl) trivial
  | loadBalance now topicIds clock =>
    refine iff_of_true ?_ trivial
    dsimp only [Manager.step]
    split
    · exact h.of_log (nextTopic_log _ _)
    · exact h
  | advance read =>
    dsimp only [Manager.step, SeenAgain]
    cases hp : m.pass with
    | none => exact iff_of_true h fun p hp' => nomatch hp'
    | some p =>
      by_cases hgo : GoesThrough p read
      · refine (nothingLost_advance_iff h hgo).trans ⟨fun himp p' hp' _ => ?_,
          fun himp => himp p rfl hgo⟩
        cases hp'
        exact himp
      · refine iff_of_true (h.advance hgo) fun p' hp' hgo' => ?_
        cases hp'
        exact absurd hgo' hgo

end

/-- **No change of a run is lost** exactly when each pass that goes through a topic, after a pass
that had seen a modification of it has stopped early, has seen a modification itself. -/
theorem nothingLost_iff (floats : Floats) (es : List BalanceEvent) :
    (manager floats).Always NothingLost (manager floats).init es ↔
      (manager floats).Along SeenAgain (manager floats).init es := by
  have hinit : NothingLost (manager floats).init := by
    intro topicId before between after hlog
    exact absurd hlog.symm (List.append_ne_nil_of_right_ne_nil _ (List.cons_ne_nil _ _))
  have hstep : ∀ (m : Manager) e, NothingLost m → SeenAgain m e → NothingLost (m.step floats e) :=
    fun _ e h hok => (h.step e).mpr hok
  have hbad : ∀ (m : Manager) e, NothingLost m → ¬ SeenAgain m e →
      ¬ NothingLost (m.step floats e) := fun _ e h hno hlost => hno ((h.step e).mp hlost)
  exact Machine.always_iff_along (fun _ h => h) hstep hbad hinit es

/-! ## A consumer that comes back -/

/-- A value of an `int`. -/
def WithinInt (n : ℤ) : Prop := -2 ^ 31 ≤ n ∧ n < 2 ^ 31

instance : DecidablePred WithinInt := fun _ => inferInstanceAs (Decidable (_ ∧ _))

/-- The cast of a whole number to `int`: out of range, the processor gives the least value. -/
def castInt (n : ℤ) : ℤ := if WithinInt n then n else -2 ^ 31

/-- Exact quotients, truncated to `int`s. -/
def truncating : Floats where
  mean := fun sum all => sum.tdiv all
  exceeds := fun meanLoad percent stickyLoad => meanLoad * percent < stickyLoad * 100
  scale := fun initWeight meanLoad load => castInt ((initWeight * meanLoad).tdiv load)

def oneConsumer : BalanceEvent :=
  .advance { topic := .ok {}, confLastModTime := 1, scales := .ok [(1, 100)] }

/-- The consumer starts, dies, and comes back without load.  The pass that sees it stops early. -/
def comesBack : List BalanceEvent :=
  .loadBalance 0 (.ok [1]) 0 :: List.replicate 2 oneConsumer ++
  .heartbeat 1 {} 1 40000 50 :: .loadBalance 40001 (.ok [1]) 40001 :: List.replicate 6 oneConsumer ++
  .loadBalance 70000 (.ok [1]) 70000 :: List.replicate 4 oneConsumer ++
  .heartbeat 1 {} 1 80000 0 :: .loadBalance 80001 (.ok [1]) 80001 :: List.replicate 4 oneConsumer ++
  .heartbeat 1 {} 1 90000 50 :: .loadBalance 90001 (.ok [1]) 90001 :: List.replicate 6 oneConsumer

/-- **Counterexample.**  The last pass goes through the topic, where the consumer lives, and leaves it
the weight 0 of its death. -/
theorem earlyStop_loses :
    ¬ (manager truncating).Always NothingLost (manager truncating).init comesBack ∧
      (((manager truncating).exec (manager truncating).init comesBack).data 1).consumers.map
        (fun kv => (kv.1, kv.2.live, kv.2.weight)) = [(1, true, 0)] := by
  refine ⟨fun h => ?_, by decide +kernel⟩
  have hlog : ((manager truncating).exec (manager truncating).init comesBack).log 1 =
      [.reported, .reported, .adjusted true, .through, .reported] ++ .reported ::
        ([.adjusted false] ++ .through :: []) := by decide +kernel
  exact absurd (h.last 1 _ _ _ hlog) (by decide)

end PhxQueue.Scheduler
